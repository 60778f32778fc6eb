import Mosaic.SubmitTruth
import Mosaic.NodeRecovery

namespace Mosaic
open CanonicalJson Effects

variable [Crypto]

namespace Instance

/-- Every lock is on a seal that is current or was it before. -/
def LocksReached (s : Instance) : Prop :=
  ∀ k lock, s.locks.get? k = some lock → ∃ known current, s.knownSeals.get? k = some known ∧
    s.currentSeals.get? known.resourceId = some current ∧ known.version ≤ current.version

variable {s t : Instance} {capsule : Capsule} {closure : ClosureProof}

/-- Installing the successor of a current seal leaves no lock ahead. -/
theorem LocksReached.installSeal (reached : s.LocksReached) (chained : s.Chained) {old : StateSeal}
    (head : s.headOf capsule = some old) : (s.installSeal (nextSeal old capsule)).LocksReached := by
  intro k lock locked
  obtain ⟨predecessor, -, heldOld⟩ := headOf_parts head
  have resource := chained.resource _ _ heldOld
  have heldOld : s.currentSeals.get? old.resourceId = some old := resource ▸ heldOld
  obtain ⟨known, current, found, held, behind⟩ := reached k lock locked
  simp only [installSeal_knownSeals, installSeal_currentSeals, Dict.get?_set]
  by_cases here : (nextSeal old capsule).sealId = k
  · exact ⟨nextSeal old capsule, nextSeal old capsule, if_pos here, if_pos rfl, le_refl _⟩
  refine ⟨known, ?_⟩
  by_cases there : (nextSeal old capsule).resourceId = known.resourceId
  · refine ⟨nextSeal old capsule, (if_neg here).trans found, if_pos there, behind.trans ?_⟩
    have same : old.resourceId = known.resourceId := there
    rw [← same, heldOld] at held
    cases held
    simp only [nextSeal]
    omega
  · exact ⟨current, (if_neg here).trans found, (if_neg there).trans held, behind⟩

theorem LocksReached.settles (reached : s.LocksReached) (chained : s.Chained) (settles : s.Settles capsule closure t) :
    t.LocksReached := by
  obtain ⟨closures, same⟩ := s.withClosure_frame capsule closure
  cases settles with
  | installed registrable head named =>
    rw [same]
    have registered : ({ s with closures := closures } : Instance).LocksReached := reached
    exact registered.installSeal ⟨chained.resource, chained.known⟩ head
  | repeated =>
    rw [same]
    exact reached

/-- A lock that is taken is on a current seal. -/
theorem LocksReached.setLock (reached : s.LocksReached) (free : CollisionFree)
    (keyed : ∀ k known, s.knownSeals.get? k = some known → known.sealId = k) (head : s.AtHead capsule)
    (status : String) : (s.setLock capsule status).LocksReached := by
  intro k lock locked
  rw [setLock_locks, Dict.get?_set] at locked
  split at locked
  · rename_i here
    subst here
    obtain ⟨current, head, named⟩ := head
    obtain ⟨predecessor, known, held⟩ := headOf_parts head
    have same : predecessor = current := StateSeal.eq_of_sealId free ((keyed _ _ known).trans named.symm)
    exact ⟨predecessor, current, known, held, by rw [same]⟩
  · exact reached k lock locked

end Instance

/-- What holds of every node: its seals are filed properly, its locks are not
ahead of them, and its members and epoch are those that it was started with. -/
structure MosaicNode.Standing (config : NodeConfig) (s : MosaicNode) : Prop where
  sealed : s.Sealed (fun _ => True) config.initialSeals
  reached : s.protocol.LocksReached
  members : s.protocol.members = config.members
  epoch : s.protocol.epoch = config.epoch

theorem NodeUpdate.standing {config : NodeConfig} {event : NodeEvent} {s t : MosaicNode}
    (update : NodeUpdate event s t) (free : CollisionFree) (standing : s.Standing config) : t.Standing config := by
  have sealed := update.sealed free standing.sealed fun _ _ _ _ _ _ => trivial
  obtain ⟨old, reached, members, epoch⟩ := standing
  cases update with
  | @closed _ capsule closure p predecessor current settles known held =>
    have locks := reached.settles old.chained settles
    obtain ⟨closures, currents, knowns, same⟩ := settles.frame
    refine ⟨sealed, locks, ?_, ?_⟩
    · change p.members = _
      rw [same]
      exact members
    · change p.epoch = _
      rw [same]
      exact epoch
  | @stranded _ capsule closure strands =>
    obtain ⟨closures, same⟩ := s.protocol.withClosure_frame capsule closure
    rw [same] at sealed ⊢
    exact ⟨sealed, reached, members, epoch⟩
  | witnessed seen kind change =>
    cases change with
    | claimed valid head free' => exact ⟨sealed, reached.setLock free old.keyed head _, members, epoch⟩
    | released => exact absurd kind.2 (by decide)
    | contested | signed => exact ⟨sealed, reached, members, epoch⟩
    | _ => exact kind.elim
  | _ => exact ⟨sealed, reached, members, epoch⟩

theorem NodeTrace.standing {config : NodeConfig} {P : NodeEvent → Prop} {s t : MosaicNode} (trace : NodeTrace P s t)
    (free : CollisionFree) (standing : s.Standing config) : t.Standing config :=
  trace.invariant standing fun _ _ _ _ update => update.standing free

theorem NodeConfig.start_standing (config : NodeConfig) (free : CollisionFree) {log : List Effect}
    (rows : ∀ known, .put (.sealKnown known) ∈ log → Installed (fun _ => True) config.initialSeals known)
    (filed : ∀ current, .put (.sealCurrent current) ∈ log → .put (.sealKnown current) ∈ log) :
    (config.start log).node.Standing config := by
  obtain ⟨closures, seen, pool, same⟩ := config.start_frame log
  have recalled := config.start_recalled log
  have unlocked : (config.start log).node.protocol.locks = .empty := by
    obtain ⟨currents, knowns, protocol⟩ := config.protocol_frame
    rw [same]
    change config.protocol.locks = _
    rw [protocol]
    rfl
  refine ⟨config.start_sealed free rows filed, fun k lock locked => ?_, recalled.members, recalled.epoch⟩
  rw [unlocked] at locked
  cases locked

theorem Life.standing {config : NodeConfig} {allowed : Running → LifeEvent → Prop} {s : Running}
    (life : Life config allowed s) (free : CollisionFree) : s.node.Standing config := by
  refine life.invariant (config.start_standing free (fun _ row => nomatch row) fun _ row => nomatch row) ?_ ?_
  · intro s event _ before u trace
    exact trace.standing free before
  · intro s event _ before u trace
    have standing := trace.standing free before
    refine ⟨config.start_standing free standing.sealed.rows standing.sealed.filed, fun change v k cause update later => ?_⟩
    have sealed := (update.standing free standing).sealed
    exact config.start_standing free (fun known member => sealed.rows known (List.mem_of_mem_take member))
      (update.filed_take later standing.sealed.filed sealed.filed)

namespace Instance

variable {s t : Instance} {capsule : Capsule} {k : String}

theorem hasConflictOn_eq_false : s.hasConflictOn k = false ↔
    ∀ id evidence, s.conflictEvidence.get? id = some evidence → evidence.predecessorId ≠ k := by
  rw [MosaicProtocol.hasConflictOn, List.any_eq_false]
  constructor
  · intro clean id evidence found same
    exact clean evidence (Dict.mem_values_of_get? found) (decide_eq_true same)
  · intro clean evidence member same
    obtain ⟨id, found⟩ := Dict.mem_values.mp member
    exact clean id evidence found (of_decide_eq_true same)

theorem addEvidence_clean {evidence : ConflictEvidence} (clean : s.hasConflictOn k = false)
    (other : evidence.predecessorId ≠ k) : (s.addEvidence evidence).hasConflictOn k = false := by
  rw [hasConflictOn_eq_false] at clean ⊢
  intro id evidence' found
  rw [addEvidence_conflictEvidence, Dict.get?_set] at found
  split at found
  · cases found
    exact other
  · exact clean id evidence' found

/-- Witnessing a capsule on another seal leaves the lock of this one and brings no
evidence against it. -/
theorem witnessReceipt_elsewhere (memberId status : String) (other : capsule.predecessorId ≠ k)
    (unlocked : s.locks.get? k = none) :
    (s.hasConflictOn k = false → (final (witnessReceipt memberId capsule status) s).hasConflictOn k = false) ∧
      (final (witnessReceipt memberId capsule status) s).locks.get? k = none := by
  refine (witnessReceipt_guarantees memberId status).moves.invariant
    (I := fun t => (s.hasConflictOn k = false → t.hasConflictOn k = false) ∧ t.locks.get? k = none) ⟨id, unlocked⟩ ?_
  rintro event u v kind update ⟨clean, unlocked⟩
  cases update with
  | claimed | released =>
    obtain ⟨rfl, -⟩ := kind
    exact ⟨clean, (Dict.get?_set_of_ne _ _ other).trans unlocked⟩
  | @contested _ _ first second lock evidence valid held stored _ refused made =>
    obtain ⟨rfl, -⟩ := kind
    refine ⟨fun before => addEvidence_clean (clean before) ?_, unlocked⟩
    unfold ConflictEvidence.create at made
    split at made
    · cases made
    · rename_i same
      split at made
      · cases made
      · cases made
        exact fun here => other ((not_not.mp same).symm.trans here)
  | signed => exact ⟨clean, unlocked⟩
  | _ => exact kind.elim

/-- With the lock free, the lock is taken or nothing happens. -/
theorem acceptLock_free (unlocked : s.locks.get? capsule.predecessorId = none) :
    (∃ e, acceptLock capsule s = .error e s) ∨ acceptLock capsule s = .ok ⟨⟩ (s.setLock capsule "ACCEPT") := by
  unfold acceptLock lookupKey
  rw [get_bind_apply]
  cases known : s.knownSeals.get? capsule.predecessorId with
  | none => exact Or.inl ⟨_, rfl⟩
  | some predecessor =>
    dsimp only
    rw [bind_of_ok (pure_apply predecessor s)]
    cases held : s.currentSeals.get? predecessor.resourceId with
    | none => exact Or.inl ⟨_, rfl⟩
    | some current =>
      dsimp only
      rw [bind_of_ok (pure_apply current s), unlocked]
      by_cases named : current.sealId = capsule.predecessorId
      · exact Or.inr (raiseIf_bind_neg (not_not.mpr named) _ _ s)
      · exact Or.inl ⟨_, raiseIf_bind_pos named _ _ s⟩

/-- Witnessing a capsule whose lock is free: it fails without a trace, or it takes
the lock, and then it can only fail for want of a key. -/
theorem witnessReceipt_free (memberId : String) (unlocked : s.locks.get? capsule.predecessorId = none) :
    (∃ e, witnessReceipt memberId capsule "ACCEPT" s = .error e s) ∨
      (∃ message, witnessReceipt memberId capsule "ACCEPT" s =
        .error (.mosaicError message) (s.setLock capsule "ACCEPT")) ∨
      ∃ receipt, witnessReceipt memberId capsule "ACCEPT" s =
        .ok receipt ((s.setLock capsule "ACCEPT").addSigned receipt) := by
  have passed : ¬ ("ACCEPT" ≠ "ACCEPT" ∧ "ACCEPT" ≠ "ABANDON") := by decide
  have checked := (@validateCapsule_guarantees _ s capsule).moves
  have looked := (@getMember_guarantees _ s memberId).moves
  unfold witnessReceipt
  rw [raiseIf_bind_neg passed]
  cases validated : validateCapsule capsule s with
  | error e t =>
    rw [final_of_error validated] at checked
    subst checked
    exact Or.inl ⟨e, bind_of_error validated⟩
  | ok _ t =>
    rw [final_of_ok validated] at checked
    subst checked
    rw [bind_of_ok validated]
    cases found : getMember memberId s with
    | error e t =>
      rw [final_of_error found] at looked
      subst looked
      exact Or.inl ⟨e, bind_of_error found⟩
    | ok member t =>
      rw [final_of_ok found] at looked
      subst looked
      rw [bind_of_ok found, if_pos rfl]
      rcases acceptLock_free unlocked with ⟨e, refused⟩ | taken
      · exact Or.inl ⟨e, bind_of_error refused⟩
      rw [bind_of_ok taken]
      unfold signReceipt
      cases member.keypair with
      | none => exact Or.inr (Or.inl ⟨_, rfl⟩)
      | some pair => exact Or.inr (Or.inr ⟨_, rfl⟩)

end Instance

/-- Evidence against a seal that is not contested does not appear. -/
def SparesSeal (k : String) (s t : MosaicNode) : Prop :=
  s.protocol.hasConflictOn k = false → t.protocol.hasConflictOn k = false

instance {k : String} : Std.Refl (SparesSeal k) := ⟨fun _ => id⟩

instance {k : String} : IsTrans MosaicNode (SparesSeal k) := ⟨fun _ _ _ first second => second ∘ first⟩

namespace MosaicNode

variable {s t u : MosaicNode} {k : String} {capsule : Capsule}

/-- A capsule that is witnessed while the seal is not locked brings no evidence
against the seal; the lock can only be taken where the handler broadcasts or fails
for good. -/
theorem witnessReceipt_spares (unlocked : u.protocol.locks.get? k = none) :
    Guarantees (SparesSeal k) u (outcome (witnessReceipt capsule)) (fun witnessed t =>
      (∀ e, witnessed = .error e → (∃ message, e = .capsuleInvalid message) ∨ (∃ evidence, e = .conflictDetected evidence) →
        t.protocol.locks.get? k = none)) := by
  by_cases here : capsule.predecessorId = k
  · subst here
    rcases Instance.witnessReceipt_free u.nodeId unlocked with ⟨e, raised⟩ | ⟨message, raised⟩ | ⟨receipt, ran⟩
    · have caught : outcome (witnessReceipt capsule) u = .ok (.error e) u := by
        unfold witnessReceipt
        rw [outcome, get_bind_apply, bind_of_error (onProtocol_error raised)]
        rfl
      exact .of_ok caught (Std.Refl.refl u) fun _ _ _ => unlocked
    · have caught : outcome (witnessReceipt capsule) u =
          .ok (.error (.mosaicError message)) (u.setProtocol (u.protocol.setLock capsule "ACCEPT")) := by
        unfold witnessReceipt
        rw [outcome, get_bind_apply, bind_of_error (onProtocol_error raised)]
      refine .of_ok caught id ?_
      rintro e ⟨⟩ (⟨_, impossible⟩ | ⟨_, impossible⟩) <;> cases impossible
    · have caught : outcome (witnessReceipt capsule) u = .ok (.ok receipt)
          ((u.setProtocol ((u.protocol.setLock capsule "ACCEPT").addSigned receipt)).logEffect (.signed receipt)) := by
        unfold witnessReceipt
        rw [outcome, get_bind_apply, bind_of_ok (onProtocol_ok ran)]
        rfl
      refine .of_ok caught id ?_
      rintro e ⟨⟩
  · obtain ⟨clean, free⟩ := Instance.witnessReceipt_elsewhere u.nodeId "ACCEPT" here unlocked
    cases ran : Instance.witnessReceipt u.nodeId capsule "ACCEPT" u.protocol with
    | ok receipt p =>
      rw [final_of_ok ran] at clean
      have caught : outcome (witnessReceipt capsule) u =
          .ok (.ok receipt) ((u.setProtocol p).logEffect (.signed receipt)) := by
        unfold witnessReceipt
        rw [outcome, get_bind_apply, bind_of_ok (onProtocol_ok ran)]
        rfl
      refine .of_ok caught clean ?_
      rintro e ⟨⟩
    | error e p =>
      rw [final_of_error ran] at clean free
      have caught : outcome (witnessReceipt capsule) u = .ok (.error e) (u.setProtocol p) := by
        unfold witnessReceipt
        rw [outcome, get_bind_apply, bind_of_error (onProtocol_error ran)]
      exact .of_ok caught clean fun _ _ _ => free

theorem onCapsule_spares (unlocked : u.protocol.locks.get? k = none) :
    Guarantees (SparesSeal k) u (onCapsule capsule) (fun frames t => frames = [] → t.protocol.locks.get? k = none) := by
  have announce : ∀ (t : MosaicNode) (receipt : WitnessReceipt), Guarantees (SparesSeal k) t
      (broadcast (.receipt receipt) []) (fun frames t => frames = [] → t.protocol.locks.get? k = none) := by
    intro t receipt
    refine .of_ok rfl id ?_
    rintro ⟨⟩
  unfold onCapsule
  refine .get_bind ?_
  by_cases seen : capsule.capsuleId ∈ u.seenCapsules
  · rw [if_pos seen]
    by_cases closed : u.protocol.closures.contains capsule.capsuleId = true
    · rw [if_pos closed]
      exact .pure fun _ => unlocked
    rw [if_neg closed]
    refine .bind (witnessReceipt_spares unlocked) fun witnessed t _ free => ?_
    cases witnessed with
    | ok receipt => exact announce t receipt
    | error e =>
      cases e with
      | capsuleInvalid message => exact .pure fun _ => free _ rfl (Or.inl ⟨_, rfl⟩)
      | conflictDetected evidence => exact .pure fun _ => free _ rfl (Or.inr ⟨_, rfl⟩)
      | _ => exact .throw _
  · rw [if_neg seen]
    refine .bind (.update (P := fun _ t => t = u.addSeen capsule.capsuleId) id rfl) ?_
    rintro ⟨⟩ _ - rfl
    refine .bind (.of_ok (Q := fun _ t => t = (u.addSeen capsule.capsuleId).setProtocol (u.protocol.storeCapsule capsule))
      rfl id rfl) ?_
    rintro ⟨⟩ _ - rfl
    refine .bind (.of_ok (Q := fun _ t => t = (u.addSeen capsule.capsuleId).kept capsule) rfl id rfl) ?_
    rintro ⟨⟩ _ - rfl
    have free' : ((u.addSeen capsule.capsuleId).kept capsule).protocol.locks.get? k = none := unlocked
    refine .bind (witnessReceipt_spares free') fun witnessed t _ free => ?_
    cases witnessed with
    | ok receipt => exact announce t receipt
    | error e =>
      cases e with
      | capsuleInvalid message =>
        refine .of_ok rfl id fun _ => ?_
        exact free _ rfl (Or.inl ⟨_, rfl⟩)
      | conflictDetected evidence => exact .pure fun _ => free _ rfl (Or.inr ⟨_, rfl⟩)
      | _ => exact .throw _

/-- The loop stops where it takes a lock, so it cannot come to contest it. -/
theorem retryFrom_spares {entries : List (String × Capsule)} (unlocked : u.protocol.locks.get? k = none) :
    Guarantees (SparesSeal k) u (retryFrom entries) (fun _ _ => True) := by
  induction entries generalizing u with
  | nil => exact .pure trivial
  | cons entry entries ih =>
    obtain ⟨capsuleId, capsule⟩ := entry
    unfold retryFrom
    refine .get_bind ?_
    by_cases retryable : u.retryable capsule = true
    · rw [if_pos retryable]
      refine .bind (.update (P := fun _ t => t = u.wake capsuleId) id rfl) ?_
      rintro ⟨⟩ _ - rfl
      have free' : (u.wake capsuleId).protocol.locks.get? k = none := unlocked
      refine .bind (onCapsule_spares free') fun frames t _ free => ?_
      cases frames with
      | nil => exact ih (free rfl)
      | cons frame frames => exact .pure trivial
    · rw [if_neg retryable]
      exact ih unlocked

theorem finishPending_protocol (s : MosaicNode) (capsuleId : String) :
    (final (finishPending capsuleId) s).protocol = s.protocol := by
  have trace : NodeTrace (s.Causes (.finish capsuleId)) s (final (finishPending capsuleId) s) :=
    (finishPending_guarantees capsuleId).moves
  refine trace.invariant (I := fun t => t.protocol = s.protocol) rfl ?_
  rintro event t v cause update same
  cases update with
  | stored | arrived | witnessed => exact cause.elim
  | closed | stranded => cases cause
  | _ => exact same

theorem retryThenFinish_spares {entries : List (String × Capsule)} {capsuleId : String}
    (unlocked : u.protocol.locks.get? k = none) :
    Guarantees (SparesSeal k) u (retryThenFinish entries capsuleId) (fun _ _ => True) := by
  unfold retryThenFinish
  refine .bind (retryFrom_spares unlocked).outcome fun retried t _ _ => ?_
  rcases retried with e | ⟨frames, later⟩
  · exact .pure trivial
  cases frames with
  | cons first frames => exact .pure trivial
  | nil =>
    have finished : Guarantees (SparesSeal k) t (finishPending capsuleId) (fun _ _ => True) := by
      refine ⟨fun clean => ?_, fun _ _ _ => trivial⟩
      rw [finishPending_protocol]
      exact clean
    exact .bind finished fun _ _ _ _ => .pure trivial

/-- Retrying leaves the seals alone. -/
theorem retryThenFinish_seals (s : MosaicNode) (entries : List (String × Capsule)) (capsuleId : String) :
    (final (retryThenFinish entries capsuleId) s).protocol.currentSeals = s.protocol.currentSeals ∧
      (final (retryThenFinish entries capsuleId) s).protocol.knownSeals = s.protocol.knownSeals := by
  have candidates : ∀ entry ∈ entries, s.Candidate (.retry entries capsuleId) entry.2 :=
    fun entry member => ⟨entry.1, member⟩
  have trace : NodeTrace (s.Causes (.retry entries capsuleId)) s (final (retryThenFinish entries capsuleId) s) :=
    (retryThenFinish_guarantees capsuleId candidates).moves
  refine trace.invariant (I := fun t => t.protocol.currentSeals = s.protocol.currentSeals ∧
    t.protocol.knownSeals = s.protocol.knownSeals) ⟨rfl, rfl⟩ ?_
  rintro event t v cause update same
  cases update with
  | closed | stranded => cases cause
  | witnessed seen kind change =>
    cases change with
    | claimed | released | contested | signed => exact same
    | _ => exact kind.elim
  | _ => exact same

/-- Delivering a closure settles it and then retries, or it leaves the seals alone. -/
theorem onClosure_parts (s : MosaicNode) (capsule : Capsule) (closure : ClosureProof) :
    (∃ u : MosaicNode, (s.protocol.storeCapsule capsule).Settles capsule closure u.protocol ∧
        final (runFrame (.deliver (.closure capsule closure))) s =
          final (retryThenFinish u.pendingCapsules.entries capsule.capsuleId) u) ∨
      ¬ ((s.protocol.storeCapsule capsule).Registrable capsule closure ∧ s.protocol.AtHead capsule) ∧
      (final (runFrame (.deliver (.closure capsule closure))) s).protocol.currentSeals = s.protocol.currentSeals := by
  rcases settle_cases (s.kept capsule) capsule closure with ⟨p, predecessor, current, settles, known, held, ran⟩ |
    ⟨e, strands, raised⟩ | ⟨e, refused, raised⟩
  · refine Or.inl ⟨{ (s.kept capsule).setProtocol p with
      log := (s.kept capsule).log ++ closingRows closure predecessor current }, settles, ?_⟩
    have whole := onClosure_run (outcome_of_ok ran)
    simp only [final, whole]
  · have whole := onClosure_run (outcome_of_error raised)
    refine Or.inr ⟨fun ready => strands.behind ready.2, ?_⟩
    rw [final_of_ok whole]
    exact (Instance.withClosure_seals _ _ _).2
  · have whole := onClosure_run (outcome_of_error raised)
    refine Or.inr ⟨fun ready => refused ready.1, ?_⟩
    rw [final_of_ok whole]
    rfl

end MosaicNode

namespace StateSeal

/-- The seal that the capsules lead to, one after the other. -/
def follow (first : StateSeal) (entries : List (Capsule × ClosureProof)) : StateSeal :=
  entries.foldl (fun current entry => nextSeal current entry.1) first

/-- Each capsule names the seal that the ones before it lead to. -/
def Links : StateSeal → List (Capsule × ClosureProof) → Prop
  | _, [] => True
  | current, entry :: entries => entry.1.predecessorId = current.sealId ∧ (nextSeal current entry.1).Links entries

variable {first : StateSeal} {entry : Capsule × ClosureProof} {before after : List (Capsule × ClosureProof)}

theorem follow_append (first : StateSeal) (before : List (Capsule × ClosureProof)) (entry : Capsule × ClosureProof) :
    first.follow (before ++ [entry]) = nextSeal (first.follow before) entry.1 := by
  simp only [follow, List.foldl_append, List.foldl_cons, List.foldl_nil]

theorem follow_version (first : StateSeal) (entries : List (Capsule × ClosureProof)) :
    (first.follow entries).version = first.version + entries.length := by
  induction entries generalizing first with
  | nil => simp [follow]
  | cons entry entries ih =>
    have step := ih (nextSeal first entry.1)
    have version : (nextSeal first entry.1).version = first.version + 1 := rfl
    rw [version] at step
    rw [List.length_cons]
    exact step.trans (by omega)

theorem follow_resourceId (first : StateSeal) (entries : List (Capsule × ClosureProof)) :
    (first.follow entries).resourceId = first.resourceId := by
  induction entries generalizing first with
  | nil => rfl
  | cons entry entries ih => exact ih (nextSeal first entry.1)

theorem Links.named (links : first.Links (before ++ entry :: after)) :
    entry.1.predecessorId = (first.follow before).sealId := by
  induction before generalizing first with
  | nil => exact links.1
  | cons other before ih => exact ih links.2

end StateSeal

/-- The closures of the capsules are delivered, one message after the other. -/
def Running.deliver (s : Running) (entries : List (Capsule × ClosureProof)) : Running :=
  entries.foldl (fun s entry => s.receive (.closure entry.1 entry.2)) s

/-- The seals after the deliveries in the one order are those after the deliveries
in the order of the chain, and the chain has been gone through to its end. -/
structure Running.Converges (s : Running) (first : StateSeal) (chain order : List (Capsule × ClosureProof)) : Prop where
  currents : (s.deliver order).node.protocol.currentSeals.get? = (s.deliver chain).node.protocol.currentSeals.get?
  knowns : (s.deliver order).node.protocol.knownSeals.get? = (s.deliver chain).node.protocol.knownSeals.get?
  last : (s.deliver chain).node.protocol.currentSeals.get? first.resourceId = some (first.follow chain)

namespace Running

variable {config : NodeConfig} {s : Running} {first : StateSeal} {entry : Capsule × ClosureProof}
  {chain installed rest : List (Capsule × ClosureProof)}

theorem receive_standing (standing : s.node.Standing config) (free : CollisionFree) (message : Message) :
    (s.receive message).node.Standing config :=
  ((Input.receive message).exec_trace s).standing free standing

/-- The head of a capsule of the chain is the seal before it. -/
theorem headOf_chain (standing : s.node.Standing config) (free : CollisionFree) (links : first.Links chain)
    (parts : chain = installed ++ rest)
    (held : s.node.protocol.currentSeals.get? first.resourceId = some (first.follow installed)) (member : entry ∈ chain)
    (head : s.node.protocol.AtHead entry.1) :
    ∃ later, rest = entry :: later ∧ s.node.protocol.headOf entry.1 = some (first.follow installed) := by
  obtain ⟨before, after, split⟩ := List.append_of_mem member
  obtain ⟨current, found, named⟩ := head
  obtain ⟨predecessor, known, heldCurrent⟩ := Instance.headOf_parts found
  have link : entry.1.predecessorId = (first.follow before).sealId := StateSeal.Links.named (split ▸ links)
  have here : current = first.follow before := StateSeal.eq_of_sealId free (named.trans link)
  have there : predecessor = current :=
    StateSeal.eq_of_sealId free ((standing.sealed.keyed _ _ known).trans named.symm)
  rw [there, here, StateSeal.follow_resourceId, held] at heldCurrent
  have same := Option.some.inj heldCurrent
  have lengths : installed.length = before.length := by
    have versions := congrArg StateSeal.version same
    rw [StateSeal.follow_version, StateSeal.follow_version] at versions
    omega
  obtain ⟨rfl, rfl⟩ := List.append_inj (parts.symm.trans split) lengths
  exact ⟨after, rfl, same ▸ here ▸ found⟩

/-- A delivery moves the chain by the capsule that comes next, or not at all. -/
theorem receive_moves (standing : s.node.Standing config) (free : CollisionFree) (links : first.Links chain)
    (parts : chain = installed ++ rest)
    (held : s.node.protocol.currentSeals.get? first.resourceId = some (first.follow installed)) (member : entry ∈ chain) :
    (s.receive (.closure entry.1 entry.2)).node.protocol.currentSeals.get? first.resourceId =
        some (first.follow installed) ∨
      ∃ later, rest = entry :: later ∧
        (s.receive (.closure entry.1 entry.2)).node.protocol.currentSeals.get? first.resourceId =
          some (first.follow (installed ++ [entry])) := by
  change (final (MosaicNode.runFrame (.deliver (.closure entry.1 entry.2))) s.node).protocol.currentSeals.get? _ = _ ∨
    ∃ later, _ ∧ (final (MosaicNode.runFrame (.deliver (.closure entry.1 entry.2))) s.node).protocol.currentSeals.get? _ = _
  rcases s.node.onClosure_parts entry.1 entry.2 with ⟨u, settles, retried⟩ | ⟨-, same⟩
  · rw [retried, (MosaicNode.retryThenFinish_seals _ _ _).1]
    generalize u.protocol = p at settles
    obtain ⟨-, currents⟩ := Instance.withClosure_seals (s.node.protocol.storeCapsule entry.1) entry.1 entry.2
    cases settles with
    | @installed current registrable head named =>
      obtain ⟨later, next, found⟩ := headOf_chain standing free links parts held member ⟨current, head, named⟩
      have same : current = first.follow installed := Option.some.inj (head.symm.trans found)
      refine Or.inr ⟨later, next, ?_⟩
      rw [StateSeal.follow_append, same, Instance.installSeal_currentSeals]
      refine (Dict.get?_set _ _ _ _).trans (if_pos ?_)
      exact first.follow_resourceId installed
    | repeated => exact Or.inl (currents ▸ held)
  · exact Or.inl (same ▸ held)

/-- What has been installed was delivered in this order. -/
theorem deliver_moves (standing : s.node.Standing config) (free : CollisionFree) (links : first.Links chain)
    (held : s.node.protocol.currentSeals.get? first.resourceId = some first) {order : List (Capsule × ClosureProof)}
    (members : ∀ entry ∈ order, entry ∈ chain) : ∃ installed rest, chain = installed ++ rest ∧
      installed.Sublist order ∧ (s.deliver order).node.Standing config ∧
      (s.deliver order).node.protocol.currentSeals.get? first.resourceId = some (first.follow installed) := by
  induction order using List.reverseRecOn with
  | nil => exact ⟨[], chain, rfl, List.Sublist.refl _, standing, held⟩
  | append_singleton order entry ih =>
    obtain ⟨installed, rest, parts, ordered, before, here⟩ := ih fun other member =>
      members other (List.mem_append_left _ member)
    have member : entry ∈ chain := members entry (by simp)
    have step : s.deliver (order ++ [entry]) = (s.deliver order).receive (.closure entry.1 entry.2) := by
      simp only [deliver, List.foldl_append, List.foldl_cons, List.foldl_nil]
    rw [step]
    have after := receive_standing before free (.closure entry.1 entry.2)
    rcases receive_moves before free links parts here member with still | ⟨later, next, moved⟩
    · exact ⟨installed, rest, parts, ordered.trans (List.sublist_append_left _ _), after, still⟩
    · refine ⟨installed ++ [entry], later, ?_, ordered.append (List.Sublist.refl _), after, moved⟩
      rw [parts, next, List.append_assoc, List.singleton_append]

/-- A seal that the chain has not come to is not locked. -/
theorem unlocked_ahead (standing : s.node.Standing config) (free : CollisionFree)
    (held : s.node.protocol.currentSeals.get? first.resourceId = some (first.follow installed))
    {before : List (Capsule × ClosureProof)} (ahead : installed.length < before.length) :
    s.node.protocol.locks.get? (first.follow before).sealId = none := by
  cases locked : s.node.protocol.locks.get? (first.follow before).sealId with
  | none => rfl
  | some lock =>
    exfalso
    obtain ⟨known, current, found, heldCurrent, behind⟩ := standing.reached _ _ locked
    have same : known = first.follow before := StateSeal.eq_of_sealId free (standing.sealed.keyed _ _ found)
    rw [same, StateSeal.follow_resourceId, held] at heldCurrent
    cases heldCurrent
    rw [same, StateSeal.follow_version, StateSeal.follow_version] at behind
    omega

/-- Nothing contests the seals that the chain still has to leave. -/
def Uncontested (s : Running) (first : StateSeal) (chain installed : List (Capsule × ClosureProof)) : Prop :=
  ∀ before after, chain = before ++ after → installed.length ≤ before.length →
    s.node.protocol.hasConflictOn (first.follow before).sealId = false

/-- The next capsule of the chain is installed, and none of the later seals is
contested by what is retried then. -/
theorem receive_next (standing : s.node.Standing config) (free : CollisionFree) (links : first.Links chain)
    (parts : chain = installed ++ entry :: rest)
    (held : s.node.protocol.currentSeals.get? first.resourceId = some (first.follow installed))
    (verified : (s.node.protocol.storeCapsule entry.1).verifyClosure entry.1 entry.2 = true)
    (clean : s.Uncontested first chain installed) :
    (s.receive (.closure entry.1 entry.2)).node.protocol.currentSeals.get? first.resourceId =
        some (first.follow (installed ++ [entry])) ∧
      (s.receive (.closure entry.1 entry.2)).Uncontested first chain (installed ++ [entry]) := by
  have link : entry.1.predecessorId = (first.follow installed).sealId := StateSeal.Links.named (parts ▸ links)
  have found : s.node.protocol.headOf entry.1 = some (first.follow installed) := by
    refine Option.bind_eq_some_iff.mpr ⟨first.follow installed, ?_, ?_⟩
    · rw [link]
      exact standing.sealed.chained.known _ _ held
    · rwa [StateSeal.follow_resourceId]
  have atHead : s.node.protocol.AtHead entry.1 := ⟨_, found, link.symm⟩
  have registrable : (s.node.protocol.storeCapsule entry.1).Registrable entry.1 entry.2 :=
    ⟨verified, link ▸ clean installed (entry :: rest) parts (le_refl _)⟩
  unfold Uncontested
  change (final (MosaicNode.runFrame (.deliver (.closure entry.1 entry.2))) s.node).protocol.currentSeals.get? _ = _ ∧
    ∀ before after, _ → _ →
      (final (MosaicNode.runFrame (.deliver (.closure entry.1 entry.2))) s.node).protocol.hasConflictOn _ = false
  rcases s.node.onClosure_parts entry.1 entry.2 with ⟨u, settles, retried⟩ | ⟨never, -⟩
  · rw [retried]
    obtain ⟨closures, currents, knowns, frame⟩ := settles.frame
    constructor
    · rw [(MosaicNode.retryThenFinish_seals _ _ _).1]
      generalize u.protocol = p at settles
      cases settles with
      | @installed current _ head named =>
        have same : current = first.follow installed := Option.some.inj (head.symm.trans found)
        rw [StateSeal.follow_append, same, Instance.installSeal_currentSeals]
        refine (Dict.get?_set _ _ _ _).trans (if_pos ?_)
        exact first.follow_resourceId installed
      | repeated _ behind => exact absurd atHead behind
    · intro before after split ahead
      rw [List.length_append, List.length_singleton] at ahead
      have unlocked : u.protocol.locks.get? (first.follow before).sealId = none := by
        rw [frame]
        exact unlocked_ahead standing free held (by omega)
      refine (MosaicNode.retryThenFinish_spares unlocked).moves ?_
      rw [frame]
      exact clean before after split (by omega)
  · exact absurd ⟨registrable, atHead⟩ never

/-- In the order of the chain all of its capsules are installed. -/
theorem deliver_chain (standing : s.node.Standing config) (free : CollisionFree) (links : first.Links chain)
    (held : s.node.protocol.currentSeals.get? first.resourceId = some first)
    (clean : s.node.protocol.conflictEvidence = .empty)
    (accepted : ∀ entry ∈ chain, (s.node.protocol.storeCapsule entry.1).verifyClosure entry.1 entry.2 = true)
    (parts : chain = installed ++ rest) : (s.deliver installed).node.Standing config ∧
      (s.deliver installed).node.protocol.currentSeals.get? first.resourceId = some (first.follow installed) ∧
      (s.deliver installed).Uncontested first chain installed := by
  induction installed using List.reverseRecOn generalizing rest with
  | nil =>
    refine ⟨standing, held, fun before after _ _ => ?_⟩
    change s.node.protocol.hasConflictOn _ = false
    rw [MosaicProtocol.hasConflictOn, clean]
    rfl
  | append_singleton installed entry ih =>
    rw [List.append_assoc, List.singleton_append] at parts
    obtain ⟨before, here, clean⟩ := ih parts
    have step : s.deliver (installed ++ [entry]) = (s.deliver installed).receive (.closure entry.1 entry.2) := by
      simp only [deliver, List.foldl_append, List.foldl_cons, List.foldl_nil]
    have first' := MosaicProtocol.verifyClosure_iff.mp (accepted entry (by simp [parts]))
    have verified : ((s.deliver installed).node.protocol.storeCapsule entry.1).verifyClosure entry.1 entry.2 = true :=
      MosaicProtocol.verifyClosure_iff.mpr (first'.congr (before.members.trans standing.members.symm)
        (before.epoch.trans standing.epoch.symm) (Dict.get?_set_self _ _ _) (Dict.get?_set_self _ _ _)
        ⟨entry.1.clientSignature, rfl⟩)
    obtain ⟨moved, later⟩ := receive_next before free links parts here verified clean
    rw [step]
    exact ⟨receive_standing before free _, moved, later⟩

end Running

namespace Running

variable {config : NodeConfig} {s : Running} {first : StateSeal} {chain order : List (Capsule × ClosureProof)}

theorem Converges.ordered (converges : s.Converges first chain order) (standing : s.node.Standing config)
    (free : CollisionFree) (links : first.Links chain)
    (held : s.node.protocol.currentSeals.get? first.resourceId = some first) (once : order.Perm chain) :
    order = chain := by
  obtain ⟨installed, rest, parts, ordered, -, current⟩ :=
    deliver_moves standing free links held fun entry member => once.mem_iff.mp member
  rw [converges.currents, converges.last] at current
  have lengths : installed.length = chain.length := by
    have versions := congrArg StateSeal.version (Option.some.inj current)
    rw [StateSeal.follow_version, StateSeal.follow_version] at versions
    omega
  have whole : installed = chain := by
    have none : rest.length = 0 := by
      have sum := congrArg List.length parts
      rw [List.length_append] at sum
      omega
    rw [parts, List.length_eq_zero_iff.mp none, List.append_nil]
  exact ((whole ▸ ordered).eq_of_length once.length_eq.symm).symm

end Running

section Solo
variable (pair : KeyPair)

/-- Two capsules, one after the other, with their closures. -/
def soloChain : List (Capsule × ClosureProof) :=
  [(soloCapsule pair "p" "a" 0, soloClosure pair (soloCapsule pair "p" "a" 0)),
    (secondCapsule pair, soloClosure pair (secondCapsule pair))]

variable {pair}

theorem soloChain_links : (soloSeal pair "p").Links (soloChain pair) := ⟨rfl, rfl, trivial⟩

theorem soloChain_accepted (sound : SignaturesVerify) : ∀ entry ∈ soloChain pair,
    (((soloConfig pair).start []).node.protocol.storeCapsule entry.1).verifyClosure entry.1 entry.2 = true := by
  have ready := @soloStart_ready _ pair
  have verified : ∀ capsule : Capsule, capsule.epoch = 0 →
      (((soloConfig pair).start []).node.protocol.storeCapsule capsule).verifyClosure capsule (soloClosure pair capsule) =
        true := fun capsule epoch =>
    solo_verifyClosure pair sound capsule capsule ready.members (ready.epoch.trans epoch.symm) (Dict.get?_set_self _ _ _) rfl
  intro entry member
  rcases List.mem_pair.mp member with rfl | rfl
  · exact verified _ rfl
  · exact verified _ rfl

theorem soloChain_genuine (sound : SignaturesVerify) : ∀ entry ∈ soloChain pair, entry.1.Genuine := by
  intro entry member
  rcases List.mem_pair.mp member with rfl | rfl <;>
    exact ⟨rfl, Capsule.create_verifies sound _ _ _ _ _ _ _⟩

end Solo

end Mosaic
