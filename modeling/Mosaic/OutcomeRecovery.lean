import Mosaic.CrashConsistency

namespace Mosaic
open CanonicalJson Effects MosaicProtocol

variable [Crypto]

/-- Every current seal, in memory and in the store, is one of a first resource. -/
structure MosaicNode.Rooted (initial : List StateSeal) (s : MosaicNode) : Prop where
  held : ∀ r current, s.protocol.currentSeals.get? r = some current →
    current.resourceId = r ∧ ∃ first ∈ initial, first.resourceId = r
  rows : ∀ current, .put (.sealCurrent current) ∈ s.log → ∃ first ∈ initial, first.resourceId = current.resourceId

namespace Instance

variable {s t : Instance} {capsule : Capsule} {closure : ClosureProof} {initial : List StateSeal}

theorem foldl_installSeal_currents (seals : List StateSeal) (s : Instance) :
    (seals.foldl installSeal s).currentSeals = s.currentSeals.writeAll StateSeal.resourceId seals := by
  induction seals generalizing s with
  | nil => rfl
  | cons fresh seals ih => exact ih (s.installSeal fresh)

/-- Closing installs a seal of the same resource, if any. -/
theorem Settles.rooted (settles : s.Settles capsule closure t)
    (held : ∀ r current, s.currentSeals.get? r = some current →
      current.resourceId = r ∧ ∃ first ∈ initial, first.resourceId = r) {r : String} {current : StateSeal}
    (held' : t.currentSeals.get? r = some current) :
    current.resourceId = r ∧ ∃ first ∈ initial, first.resourceId = r := by
  obtain ⟨-, currents⟩ := withClosure_seals s capsule closure
  cases settles with
  | @installed old registrable head named =>
    obtain ⟨predecessor, -, heldOld⟩ := headOf_parts head
    obtain ⟨same, first⟩ := held _ _ heldOld
    rw [installSeal_currentSeals, currents] at held'
    rcases Dict.origin_of_get?_set held' with ⟨rfl, rfl⟩ | before
    · have kept : (nextSeal old capsule).resourceId = predecessor.resourceId := same
      exact ⟨rfl, kept ▸ first⟩
    · exact held r current before
  | repeated =>
    rw [currents] at held'
    exact held r current held'

end Instance

namespace MosaicNode

variable {initial : List StateSeal} {s t : MosaicNode}

theorem Rooted.congr (rooted : s.Rooted initial) (currents : t.protocol.currentSeals = s.protocol.currentSeals)
    (rows : ∀ current, .put (.sealCurrent current) ∈ t.log → .put (.sealCurrent current) ∈ s.log) : t.Rooted initial :=
  ⟨currents ▸ rooted.held, fun current row => rooted.rows current (rows current row)⟩

end MosaicNode

theorem NodeUpdate.rooted {event : NodeEvent} {s t : MosaicNode} (update : NodeUpdate event s t)
    {initial : List StateSeal} (rooted : s.Rooted initial) : t.Rooted initial := by
  have quiet : ∀ effect, t.protocol.currentSeals = s.protocol.currentSeals → t.log = s.log ++ [effect] →
      (∀ current, effect ≠ .put (.sealCurrent current)) → t.Rooted initial := by
    intro effect currents log other
    refine rooted.congr currents fun current member => ?_
    rw [log, List.mem_append, List.mem_singleton] at member
    exact member.resolve_right (other current).symm
  cases update with
  | stored | arrived | keptReceipt | signed | sent | finished | answered => exact quiet _ rfl rfl (by simp)
  | @closed _ capsule closure p predecessor current settles known held =>
    refine ⟨fun r current held' => settles.rooted rooted.held held', fun row member => ?_⟩
    rcases List.mem_append.mp member with old | new
    · exact rooted.rows row old
    · simp only [closingRows, List.mem_cons, Effect.put.injEq, Row.sealCurrent.injEq, reduceCtorEq, false_or, or_false,
        List.not_mem_nil] at new
      obtain ⟨same, first⟩ := settles.rooted rooted.held held
      rw [new, same]
      exact first
  | @stranded _ capsule closure strands =>
    obtain ⟨closures, frame⟩ := s.protocol.withClosure_frame capsule closure
    rw [frame]
    exact rooted.congr rfl fun _ => id
  | witnessed seen kind change =>
    cases change with
    | claimed | released | contested | signed => exact rooted.congr rfl fun _ => id
    | _ => exact kind.elim
  | _ => exact rooted.congr rfl fun _ => id

namespace NodeConfig

variable {config : NodeConfig} {log : List Effect}

theorem start_currents (config : NodeConfig) (log : List Effect) :
    (config.start log).node.protocol.currentSeals =
      (Dict.empty.writeAll StateSeal.resourceId config.initialSeals).writeAll StateSeal.resourceId
        (items log Row.sealCurrent?) := by
  rw [(config.start_recalled log).currents, NodeConfig.protocol, Instance.foldl_installSeal_currents]
  rfl

theorem start_rooted (rows : ∀ current, .put (.sealCurrent current) ∈ log →
    ∃ first ∈ config.initialSeals, first.resourceId = current.resourceId) :
    (config.start log).node.Rooted config.initialSeals := by
  refine ⟨fun r current held => ?_, fun current row => rows current ?_⟩
  · rw [start_currents] at held
    rcases Dict.get?_writeAll held with ⟨member, same⟩ | ⟨old, -⟩
    · exact ⟨same, same ▸ rows current (mem_items_sealCurrent member)⟩
    · rcases Dict.get?_writeAll old with ⟨member, same⟩ | ⟨none, -⟩
      · exact ⟨same, current, member, same⟩
      · cases none
  · have same : (config.start log).node.log = log := (config.fresh log).restore_log
    rwa [same] at row

/-- A restarted node has the resources of the first seals. -/
theorem start_resource {first : StateSeal} (member : first ∈ config.initialSeals) :
    (config.start log).node.protocol.currentSeals.contains first.resourceId = true := by
  rw [start_currents, Dict.contains_iff]
  by_cases written : ∃ current ∈ items log Row.sealCurrent?, current.resourceId = first.resourceId
  · obtain ⟨current, here, same⟩ := written
    rw [← same]
    exact Dict.get?_writeAll_of_mem here
  · push Not at written
    rw [Dict.get?_writeAll_of_missing written]
    exact Dict.get?_writeAll_of_mem member

end NodeConfig

theorem Life.rooted {config : NodeConfig} {allowed : Running → LifeEvent → Prop} {s : Running}
    (life : Life config allowed s) : s.node.Rooted config.initialSeals := by
  have step {u v : MosaicNode} {P : NodeEvent → Prop} (trace : NodeTrace P u v)
      (before : u.Rooted config.initialSeals) : v.Rooted config.initialSeals :=
    trace.invariant before fun _ _ _ _ update => update.rooted
  refine life.invariant (config.start_rooted fun current row => nomatch row) ?_ ?_
  · intro s event _ before u trace
    exact step trace before
  · intro s event _ before u trace
    have rooted := step trace before
    refine ⟨config.start_rooted rooted.rows, fun change v k cause update _ => config.start_rooted fun current row => ?_⟩
    exact (update.rooted rooted).rows current (List.mem_of_mem_take row)

namespace Instance

variable {s t : Instance} {capsule : Capsule}

/-- The Closed and Conflict outcomes of `s`, and its refusals, are there in `t`. -/
structure Retained (s t : Instance) : Prop where
  outcomes : ∀ capsule outcome, s.transitionOutcome capsule = some outcome →
    outcome.status = .closed ∨ outcome.status = .conflict →
    ∃ outcome', t.transitionOutcome capsule = some outcome' ∧ outcome'.status = outcome.status ∧
      outcome'.evidenceIds = outcome.evidenceIds
  refusals : ∀ predecessorId, s.hasConflictOn predecessorId = true → t.hasConflictOn predecessorId = true

theorem transitionOutcome_closed {closure : ClosureProof} {successor : StateSeal}
    (registered : s.closures.get? capsule.capsuleId = some closure) (found : s.successorOf capsule = some successor) :
    ∃ outcome, s.transitionOutcome capsule = some outcome ∧ outcome.status = .closed ∧
      outcome.evidenceIds = [closure.proofId] := by
  unfold transitionOutcome
  rw [registered, found]
  exact ⟨_, rfl, rfl, rfl⟩

theorem closed_of_transitionOutcome {outcome : TransitionOutcome} (found : s.transitionOutcome capsule = some outcome)
    (closed : outcome.status = .closed) : ∃ closure successor, s.closures.get? capsule.capsuleId = some closure ∧
      s.successorOf capsule = some successor ∧ outcome.evidenceIds = [closure.proofId] := by
  unfold transitionOutcome at found
  split at found
  · rename_i closure successor registered known
    cases found
    exact ⟨closure, successor, registered, known, rfl⟩
  · split at found
    · cases found
      cases closed
    · split at found
      · cases found
        cases closed
      · cases found

theorem conflict_of_transitionOutcome {outcome : TransitionOutcome} (found : s.transitionOutcome capsule = some outcome)
    (conflict : outcome.status = .conflict) : ∃ predecessorId, s.hasConflictOn predecessorId = true := by
  unfold transitionOutcome at found
  split at found
  · cases found
    cases conflict
  · split at found
    · rename_i evidence named
      refine ⟨evidence.predecessorId, List.any_eq_true.mpr ⟨evidence, List.mem_of_find?_eq_some named, ?_⟩⟩
      exact decide_eq_true rfl
    · split at found
      · cases found
        cases conflict
      · cases found

/-- The successor of a capsule is looked for among the known seals of the resources
that there are. -/
theorem successorOf_isSome_mono (knowns : ∀ k known, s.knownSeals.get? k = some known →
      ∃ k', t.knownSeals.get? k' = some known)
    (keyed : ∀ predecessor, s.knownSeals.get? capsule.predecessorId = some predecessor →
      t.knownSeals.get? capsule.predecessorId = some predecessor)
    (resources : ∀ r, s.currentSeals.contains r = true → t.currentSeals.contains r = true)
    (found : (s.successorOf capsule).isSome = true) : (t.successorOf capsule).isSome = true := by
  obtain ⟨known, member, matching⟩ := List.find?_isSome.mp found
  simp only [Bool.and_eq_true, decide_eq_true_eq] at matching
  obtain ⟨⟨⟨resource, version⟩, root⟩, capability⟩ := matching
  obtain ⟨k, here⟩ := Dict.mem_values.mp member
  obtain ⟨k', there⟩ := knowns k known here
  refine List.find?_isSome.mpr ⟨known, Dict.mem_values_of_get? there, ?_⟩
  cases predecessor : s.knownSeals.get? capsule.predecessorId with
  | none =>
    rw [predecessor, Option.getD_none] at version
    omega
  | some seal' =>
    rw [predecessor] at version
    simp only [keyed seal' predecessor, resources _ resource, root, capability, Bool.and_eq_true, decide_eq_true_eq]
    exact ⟨⟨⟨trivial, version⟩, trivial⟩, trivial⟩

end Instance
open Instance

/-- The node holds no conflict evidence, and the closure of every closed capsule is
the one that its store gives first. -/
structure MosaicNode.Recoverable (s : MosaicNode) : Prop where
  uncontested : ∀ predecessorId, s.protocol.hasConflictOn predecessorId = false
  first : ∀ capsule closure, s.protocol.closures.get? capsule.capsuleId = some closure →
    (s.protocol.successorOf capsule).isSome = true →
    ∃ kept, (items s.log Row.closure?).find? (·.capsuleId = capsule.capsuleId) = some kept ∧
      kept.proofId = closure.proofId

namespace NodeConfig

variable {config : NodeConfig} {log : List Effect}

/-- The conflict evidence has no rows. -/
theorem start_uncontested (config : NodeConfig) (log : List Effect) (predecessorId : String) :
    (config.start log).node.protocol.hasConflictOn predecessorId = false := by
  rw [hasConflictOn, (config.start_recalled log).evidence]
  rfl

end NodeConfig

namespace MosaicNode

variable {config : NodeConfig} {s : MosaicNode}

theorem recoverable_of_retained (backed : s.Backed config) (free : CollisionFree)
    (retained : s.protocol.Retained (config.start s.log).node.protocol) : s.Recoverable := by
  constructor
  · intro predecessorId
    by_contra contested
    have still := retained.refusals predecessorId (Bool.not_eq_false _ ▸ contested)
    rw [config.start_uncontested] at still
    cases still
  · intro capsule closure registered some
    obtain ⟨successor, found⟩ := Option.isSome_iff_exists.mp some
    obtain ⟨outcome, observed, closed, evidence⟩ := transitionOutcome_closed registered found
    obtain ⟨outcome', observed', closed', evidence'⟩ := retained.outcomes capsule outcome observed (Or.inl closed)
    obtain ⟨kept, -, registered', -, ids⟩ := closed_of_transitionOutcome observed' (closed'.trans closed)
    rw [NodeConfig.start_closures free backed.proper] at registered'
    refine ⟨kept, registered', ?_⟩
    have same : [kept.proofId] = [closure.proofId] := ids.symm.trans (evidence'.trans evidence)
    exact (List.cons.inj same).1

theorem retained_of_recoverable (backed : s.Backed config) (rooted : s.Rooted config.initialSeals)
    (free : CollisionFree) (recoverable : s.Recoverable) :
    s.protocol.Retained (config.start s.log).node.protocol := by
  constructor
  · rintro capsule outcome observed (closed | conflict)
    · obtain ⟨closure, successor, registered, found, evidence⟩ := closed_of_transitionOutcome observed closed
      have some : (s.protocol.successorOf capsule).isSome = true := by rw [found]; rfl
      obtain ⟨kept, first, same⟩ := recoverable.first capsule closure registered some
      have still : ((config.start s.log).node.protocol.successorOf capsule).isSome = true := by
        refine successorOf_isSome_mono (fun k known here => ?_) (fun predecessor here => ?_) (fun r contained => ?_) some
        · exact ⟨known.sealId, (NodeConfig.start_known free).mpr ⟨rfl, backed.known k known here⟩⟩
        · exact (NodeConfig.start_known free).mpr ⟨backed.sealed.keyed _ _ here, backed.known _ _ here⟩
        · obtain ⟨current, held⟩ := Dict.contains_iff.mp contained
          obtain ⟨-, initial, member, rfl⟩ := rooted.held r current held
          exact NodeConfig.start_resource member
      obtain ⟨successor', found'⟩ := Option.isSome_iff_exists.mp still
      have registered' := (NodeConfig.start_closures free backed.proper capsule.capsuleId).trans first
      obtain ⟨outcome', observed', closed', evidence'⟩ := transitionOutcome_closed registered' found'
      refine ⟨outcome', observed', closed'.trans closed.symm, ?_⟩
      rw [evidence', evidence, same]
    · obtain ⟨predecessorId, contested⟩ := conflict_of_transitionOutcome observed conflict
      rw [recoverable.uncontested] at contested
      cases contested
  · intro predecessorId contested
    rw [recoverable.uncontested] at contested
    cases contested

end MosaicNode

/-- In every life with genuine capsules a restart keeps the observed outcomes and
the refusals exactly if there is no conflict evidence and the store gives first the
closures that are registered. -/
theorem restart_retains_iff (free : CollisionFree) {config : NodeConfig} {s : Running}
    (life : Life config (fun _ event => event.Brings Capsule.Bound) s) :
    s.node.protocol.Retained (config.start s.node.log).node.protocol ↔ s.node.Recoverable := by
  obtain ⟨-, backed⟩ := life.backed free fun _ _ brings => brings
  exact ⟨MosaicNode.recoverable_of_retained backed free,
    MosaicNode.retained_of_recoverable backed life.rooted free⟩

/-- An unseen capsule whose seal is locked for another one leaves evidence. -/
theorem MosaicNode.onCapsule_contests {s : MosaicNode} {capsule first : Capsule} {member : Member} {lock : Lock}
    {evidence : ConflictEvidence} (unseen : capsule.capsuleId ∉ s.seenCapsules) (valid : s.protocol.Valid capsule)
    (head : s.protocol.AtHead capsule) (locked : s.protocol.locks.get? capsule.predecessorId = some lock)
    (other : ¬ lock.IsFor capsule) (refused : ¬ lock.Released capsule)
    (stored : (s.protocol.storeCapsule capsule).capsules.get? lock.capsuleId = some first)
    (made : ConflictEvidence.create first capsule = .ok evidence)
    (known : s.protocol.members.get? s.nodeId = some member) :
    runFrame (.deliver (.capsule capsule)) s =
      .ok [] (((s.addSeen capsule.capsuleId).logEffect (.put (.capsule capsule))).setProtocol
        ((s.protocol.storeCapsule capsule).addEvidence evidence)) := by
  have valid' : (s.protocol.storeCapsule capsule).Valid capsule :=
    ⟨valid.known, valid.epoch, valid.signature, valid.attempt, valid.root⟩
  have witnessed := Instance.witnessReceipt_raises (Or.inl rfl) valid' known
    ((congrFun (if_pos rfl) _).trans (Instance.acceptLock_conflicts head locked other refused stored made))
  simp only [runFrame, dispatch, onCapsule, bind_apply, get_apply, if_neg unseen, modify_apply, storeCapsule,
    persistCapsule, perform, outcome, witnessReceipt]
  simp only [onProtocol, onPart, setProtocol, addSeen, modify_apply, logEffect, witnessed, pure_apply]

section Solo
variable (pair : KeyPair)

/-- The node accepts a capsule and then meets a second one on the same seal. -/
def soloContested : Running := (soloClaim pair "b").exec (soloConfig pair) (soloClaimed pair)

variable {pair}

theorem soloContested_life : Life (soloConfig pair) (fun _ event => event.Brings Capsule.Bound) (soloContested pair) := by
  have brings (root : String) : (soloClaim pair root).Brings Capsule.Bound := by
    intro message same capsule carries
    simp only [LifeEvent.taken, soloClaim, Input.receive.injEq] at same
    subst same
    rw [carries]
    rfl
  have first : Life (soloConfig pair) (fun _ event => event.Brings Capsule.Bound) (soloClaimed pair) :=
    GuardedRun.refl.tail (i := soloClaim pair "a") (brings "a")
  exact first.tail (i := soloClaim pair "b") (brings "b")

theorem soloContested_refuses (free : CollisionFree) (sound : SignaturesVerify) :
    ∃ predecessorId, (soloContested pair).node.protocol.hasConflictOn predecessorId = true := by
  have start := @soloStart_ready _ pair
  have accepted : (soloClaimed pair).node = acceptedBy pair ((soloConfig pair).start []).node "a" :=
    soloClaim_node sound (by decide) rfl start (Finset.notMem_empty _) rfl
  have ready : SoloReady pair (soloClaimed pair).node.protocol "p" := by
    rw [accepted]
    exact ⟨start.members, start.epoch, start.known, start.current⟩
  have differ : (soloCapsule pair "p" "a" 0).capsuleId ≠ (soloCapsule pair "p" "b" 0).capsuleId := fun same =>
    absurd (soloCapsule_inj free same).2.1 (by decide)
  obtain ⟨evidence, made⟩ : ∃ evidence, ConflictEvidence.create (soloCapsule pair "p" "a" 0)
      (soloCapsule pair "p" "b" 0) = .ok evidence := by
    unfold ConflictEvidence.create
    simp [differ]
  have locked : (soloClaimed pair).node.protocol.locks.get? (soloCapsule pair "p" "b" 0).predecessorId =
      some ⟨(soloCapsule pair "p" "a" 0).capsuleId, 0, "ACCEPT"⟩ := by
    rw [accepted]
    exact Dict.get?_set_self _ _ _
  have stored : ((soloClaimed pair).node.protocol.storeCapsule (soloCapsule pair "p" "b" 0)).capsules.get?
      (soloCapsule pair "p" "a" 0).capsuleId = some (soloCapsule pair "p" "a" 0) := by
    rw [Instance.storeCapsule_capsules, Dict.get?_set_of_ne _ _ differ.symm, accepted]
    exact Dict.get?_set_self _ _ _
  have unseen : (soloCapsule pair "p" "b" 0).capsuleId ∉ (soloClaimed pair).node.seenCapsules := by
    rw [accepted]
    intro member
    rcases Finset.mem_insert.mp member with same | old
    · exact differ same.symm
    · exact Finset.notMem_empty _ old
  have kept : ¬ (⟨(soloCapsule pair "p" "a" 0).capsuleId, 0, "ACCEPT"⟩ : Lock).Released (soloCapsule pair "p" "b" 0) := by
    rintro ⟨status, -⟩
    have same : ("ACCEPT" : String) = "ABANDON" := status
    exact absurd same (by decide)
  have known : (soloClaimed pair).node.protocol.members.get? (soloClaimed pair).node.nodeId = some (soloMember pair) := by
    have name : (soloClaimed pair).node.nodeId = "w" := by
      rw [accepted]
      rfl
    rw [name]
    exact ready.member
  have contested := MosaicNode.onCapsule_contests unseen (ready.valid sound (by decide) (by decide)) (ready.atHead "b" 0)
    locked (fun mine => differ mine.1) kept stored made known
  have node : (soloContested pair).node = _ := final_of_ok contested
  rw [node]
  refine ⟨evidence.predecessorId, List.any_eq_true.mpr ⟨evidence, ?_, decide_eq_true rfl⟩⟩
  exact Dict.mem_values_of_get? (Dict.get?_set_self _ _ _)

theorem soloContested_forgets (free : CollisionFree) (sound : SignaturesVerify) :
    ¬ (soloContested pair).node.protocol.Retained
      ((soloConfig pair).start (soloContested pair).node.log).node.protocol := by
  intro retained
  obtain ⟨predecessorId, refuses⟩ := @soloContested_refuses _ pair free sound
  have still := retained.refusals predecessorId refuses
  rw [NodeConfig.start_uncontested] at still
  cases still

/-- The store has the one closure of the node. -/
theorem afterDelivery_recoverable (sound : SignaturesVerify) :
    (afterDelivery pair (soloCapsule pair "p" "a" 0)).node.Recoverable := by
  obtain ⟨s, predecessor, current, ⟨-, new, clean⟩, protocol, log⟩ :=
    @afterDelivery_installs _ pair sound (soloCapsule pair "p" "a" 0) rfl rfl
  constructor
  · intro predecessorId
    obtain ⟨closures, frame⟩ := withClosure_frame (s.storeCapsule (soloCapsule pair "p" "a" 0))
      (soloCapsule pair "p" "a" 0) (soloClosure pair (soloCapsule pair "p" "a" 0))
    rw [protocol, frame, hasConflictOn]
    change s.conflictEvidence.values.any _ = false
    rw [clean]
    rfl
  · intro capsule closure registered _
    rw [protocol, installSeal_closures, get?_withClosure, storeCapsule_closures, new, Dict.get?_empty, Option.none_or]
      at registered
    split at registered
    · rename_i same
      cases registered
      have row : (rowsOf (afterDelivery pair (soloCapsule pair "p" "a" 0)).node.log Row.closure?).entries =
          [((soloClosure pair (soloCapsule pair "p" "a" 0)).proofId, soloClosure pair (soloCapsule pair "p" "a" 0))] := by
        rw [log]
        rfl
      refine ⟨_, ?_, rfl⟩
      rw [items, row, ← same]
      simp [sortedBy]
      rfl
    · cases registered

theorem afterDelivery_brings : Life (soloConfig pair) (fun _ event => event.Brings Capsule.Bound)
    (afterDelivery pair (soloCapsule pair "p" "a" 0)) := by
  unfold afterDelivery
  simp only [List.foldl_cons, List.foldl_nil]
  refine GuardedRun.tail (GuardedRun.tail GuardedRun.refl soloClaim_brings) ?_
  intro message same capsule carries
  simp only [soloDelivery, LifeEvent.taken, Input.receive.injEq] at same
  subst same
  rw [carries]
  rfl

/-- The capsule is closed. -/
theorem afterDelivery_closed (free : CollisionFree) (sound : SignaturesVerify) : ∃ outcome,
    (afterDelivery pair (soloCapsule pair "p" "a" 0)).node.protocol.transitionOutcome (soloCapsule pair "p" "a" 0) =
      some outcome ∧ outcome.status = .closed := by
  obtain ⟨s, predecessor, current, ⟨ready, new, -⟩, protocol, -⟩ :=
    @afterDelivery_installs _ pair sound (soloCapsule pair "p" "a" 0) rfl rfl
  have registered : (afterDelivery pair (soloCapsule pair "p" "a" 0)).node.protocol.closures.get?
      (soloCapsule pair "p" "a" 0).capsuleId = some (soloClosure pair (soloCapsule pair "p" "a" 0)) := by
    rw [protocol, installSeal_closures, get?_withClosure, storeCapsule_closures, new, Dict.get?_empty, Option.none_or,
      if_pos rfl]
  have followed : ((afterDelivery pair (soloCapsule pair "p" "a" 0)).node.protocol.successorOf
      (soloCapsule pair "p" "a" 0)).isSome = true := by
    refine List.find?_isSome.mpr ⟨nextSeal (soloSeal pair "p") (soloCapsule pair "p" "a" 0), ?_, ?_⟩
    · rw [protocol, installSeal_knownSeals]
      exact Dict.mem_values_of_get? (Dict.get?_set_self _ _ _)
    · have predecessor : (afterDelivery pair (soloCapsule pair "p" "a" 0)).node.protocol.knownSeals.get?
          (soloCapsule pair "p" "a" 0).predecessorId = some (soloSeal pair "p") := by
        rw [protocol, installSeal_knownSeals, soloCapsule_predecessorId,
          Dict.get?_set_of_ne _ _ (nextSeal_ne _ _ free), (withClosure_seals _ _ _).1]
        exact ready.known
      have resource : (afterDelivery pair (soloCapsule pair "p" "a" 0)).node.protocol.currentSeals.contains "p" = true := by
        rw [protocol, installSeal_currentSeals]
        exact Dict.contains_iff.mpr ⟨_, Dict.get?_set_self _ _ _⟩
      rw [predecessor]
      simp only [Bool.and_eq_true, decide_eq_true_eq]
      exact ⟨⟨⟨resource, rfl⟩, rfl⟩, rfl⟩
  obtain ⟨successor, found⟩ := Option.isSome_iff_exists.mp followed
  obtain ⟨outcome, observed, closed, -⟩ := transitionOutcome_closed registered found
  exact ⟨outcome, observed, closed⟩

theorem afterDelivery_still_closed (free : CollisionFree) (sound : SignaturesVerify) {t : Instance}
    (retained : (afterDelivery pair (soloCapsule pair "p" "a" 0)).node.protocol.Retained t) :
    ∃ outcome, t.transitionOutcome (soloCapsule pair "p" "a" 0) = some outcome ∧ outcome.status = .closed := by
  obtain ⟨outcome, observed, closed⟩ := @afterDelivery_closed _ pair free sound
  obtain ⟨outcome', observed', closed', -⟩ := retained.outcomes _ outcome observed (Or.inl closed)
  exact ⟨outcome', observed', closed'.trans closed⟩

omit [Crypto] in
/-- A closed capsule is still closed after a restart. -/
theorem restart_retains_closed : let _ := Crypto.ideal
    let c := soloCapsule idealKey "p" "a" 0
    ∃ outcome, ((soloConfig idealKey).start (afterDelivery idealKey c).node.log).node.protocol.transitionOutcome c =
      some outcome ∧ outcome.status = .closed := by
  have life := @afterDelivery_brings Crypto.ideal idealKey
  have recoverable := @afterDelivery_recoverable Crypto.ideal idealKey ideal_signaturesVerify
  have retained := (@restart_retains_iff Crypto.ideal ideal_collisionFree _ _ life).mpr recoverable
  exact @afterDelivery_still_closed Crypto.ideal idealKey ideal_collisionFree ideal_signaturesVerify _ retained

omit [Crypto] in
/-- A restarted node has forgotten the conflict, and takes closures for its seal again. -/
theorem restart_forgets_conflict : ¬ ∀ [Crypto], CollisionFree → SignaturesVerify →
    ∀ (config : NodeConfig) (s : Running), Life config (fun _ event => event.Brings Capsule.Bound) s →
      s.node.protocol.Retained (config.start s.node.log).node.protocol := by
  intro claim
  have free := ideal_collisionFree
  exact @soloContested_forgets Crypto.ideal idealKey free ideal_signaturesVerify
    (@claim Crypto.ideal free ideal_signaturesVerify _ _ (@soloContested_life Crypto.ideal idealKey))

end Solo

end Mosaic
