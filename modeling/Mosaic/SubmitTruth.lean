import Mosaic.CrashConsistency

namespace Mosaic
open CanonicalJson Effects MosaicProtocol

variable [Crypto]

/-- Every closed capsule has its successor, the capsules being told apart by their
content. -/
def MosaicNode.Answerable (s : MosaicNode) : Prop :=
  ∀ k, s.protocol.closures.contains k = true →
    ∃ capsule : Capsule, capsule.Bound ∧ capsule.capsuleId = k ∧ s.protocol.Succeeded capsule

/-- Every success that the node has announced is one. -/
def MosaicNode.Truthful (s : MosaicNode) : Prop :=
  ∀ capsule reply, .replied capsule reply ∈ s.log → reply.ok = true → s.protocol.Succeeded capsule

/-- A closure that can be registered but not applied only arrives for a capsule
that is closed already. -/
def Running.Timely (s : Running) (event : LifeEvent) : Prop :=
  ∀ frame, event.taken.frame s = some frame → ∀ capsule closure p, s.node.Closing frame capsule closure p →
    p.Strands capsule closure → p.closures.contains capsule.capsuleId = true

theorem Instance.Settles.succeeded {s t : Instance} {capsule : Capsule} {closure : ClosureProof}
    (settles : s.Settles capsule closure t) (free : CollisionFree) (chained : s.Chained) : t.Succeeded capsule := by
  obtain ⟨predecessor, current, known, held⟩ := settles.lookups
  obtain ⟨knowns, currents⟩ := withClosure_seals s capsule closure
  obtain ⟨-, follows, ⟨-, -, rfl⟩ | ⟨held', rfl⟩⟩ := settles.seals free chained known held
  · exact ⟨predecessor, _, current, known, Dict.get?_set_self _ _ _, follows⟩
  · exact ⟨predecessor, _, current, known, knowns ▸ chained.known _ _ held', follows⟩

namespace NodeUpdate

variable {config : NodeConfig} {s t : MosaicNode} {event : NodeEvent}

/-- No known seal is forgotten. -/
theorem knownSeals (update : NodeUpdate event s t) (free : CollisionFree)
    (keyed : ∀ k known, s.protocol.knownSeals.get? k = some known → known.sealId = k) {k : String} {known : StateSeal}
    (found : s.protocol.knownSeals.get? k = some known) : t.protocol.knownSeals.get? k = some known := by
  cases update with
  | @closed _ capsule closure p predecessor current settles known' held =>
    obtain ⟨knowns, -⟩ := Instance.withClosure_seals s.protocol capsule closure
    cases settles with
    | installed =>
      refine Instance.knownSeals_foldl_installSeal free ?_ [_] ?_ <;> rw [knowns]
      · exact keyed
      · exact found
    | repeated => exact knowns ▸ found
  | @stranded _ capsule closure strands =>
    rw [MosaicNode.setProtocol_protocol, (Instance.withClosure_seals s.protocol capsule closure).1]
    exact found
  | witnessed seen kind change =>
    cases change with
    | claimed | released | contested | signed => exact found
    | _ => exact kind.elim
  | _ => exact found

theorem succeeded (update : NodeUpdate event s t) (free : CollisionFree)
    (keyed : ∀ k known, s.protocol.knownSeals.get? k = some known → known.sealId = k) {capsule : Capsule}
    (succeeded : s.protocol.Succeeded capsule) : t.protocol.Succeeded capsule := by
  obtain ⟨predecessor, k, known, found, found', marks⟩ := succeeded
  exact ⟨predecessor, k, known, update.knownSeals free keyed found, update.knownSeals free keyed found', marks⟩

/-- A newly closed capsule has its successor, where no closing strands. -/
theorem answerable (update : NodeUpdate event s t) (free : CollisionFree) (backed : s.Backed config)
    (genuine : event.Genuine) (timely : ∀ p capsule closure, event = .stranded p capsule closure →
      p.Strands capsule closure → p.closures.contains capsule.capsuleId = true) (answerable : s.Answerable) :
    t.Answerable := by
  have keep : ∀ k, s.protocol.closures.contains k = true →
      ∃ capsule : Capsule, capsule.Bound ∧ capsule.capsuleId = k ∧ t.protocol.Succeeded capsule := by
    intro k contained
    obtain ⟨capsule, bound, named, succeeded⟩ := answerable k contained
    exact ⟨capsule, bound, named, update.succeeded free backed.sealed.keyed succeeded⟩
  have same : t.protocol.closures = s.protocol.closures → t.Answerable := fun same k contained =>
    keep k (same ▸ contained)
  cases update with
  | @closed _ capsule closure p predecessor current settles known held =>
    intro k contained
    by_cases here : capsule.capsuleId = k
    · refine ⟨capsule, backed.holds.stored _ _ genuine, here, ?_⟩
      exact settles.succeeded free backed.sealed.chained
    · refine keep k ?_
      have closures : p.closures = (s.protocol.withClosure capsule closure).closures := by cases settles <;> rfl
      change p.closures.contains k = true at contained
      rw [closures, Dict.contains, Instance.get?_withClosure, if_neg here, Option.or_none] at contained
      exact contained
  | @stranded _ capsule closure strands =>
    refine same ?_
    rw [MosaicNode.setProtocol_protocol, Instance.withClosure, if_pos (timely _ _ _ rfl strands)]
  | witnessed seen kind change =>
    cases change with
    | claimed | released | contested | signed => exact same rfl
    | _ => exact kind.elim
  | _ => exact same rfl

/-- A success is announced for closed capsules only. -/
theorem truthful (update : NodeUpdate event s t) (free : CollisionFree) (backed : s.Backed config)
    (answerable : s.Answerable) (bound : ∀ capsule reply, event = .answered capsule reply → capsule.Bound)
    (truthful : s.Truthful) : t.Truthful := by
  have keep : ∀ capsule reply, .replied capsule reply ∈ s.log → reply.ok = true → t.protocol.Succeeded capsule :=
    fun capsule reply old ok => update.succeeded free backed.sealed.keyed (truthful capsule reply old ok)
  have quiet : ∀ effects, t.log = s.log ++ effects → (∀ capsule reply, .replied capsule reply ∉ effects) →
      t.Truthful := by
    intro effects same none capsule reply member
    rw [same, List.mem_append] at member
    exact keep capsule reply (member.resolve_right (none capsule reply))
  have announced : ∀ capsule capsuleId reply, capsule.Bound → capsule.capsuleId = capsuleId →
      s.protocol.Announces capsule capsuleId reply → s.protocol.Succeeded capsule := by
    rintro capsule _ reply genuine rfl ⟨closure, -, -, registered, -⟩
    obtain ⟨other, bound', same, succeeded⟩ := answerable _ (Dict.contains_iff.mpr ⟨closure, registered⟩)
    exact (bound'.alike free genuine same).succeeded succeeded
  cases update with
  | @finished _ capsule capsuleId reply waiting announces =>
    intro other reply' member ok
    rcases List.mem_append.mp member with old | new
    · exact keep other reply' old ok
    · cases List.mem_singleton.mp new
      obtain ⟨genuine, named⟩ := backed.holds.pending _ _ waiting
      exact announced _ _ _ genuine named announces
  | @answered _ capsule reply announces =>
    intro other reply' member ok
    rcases List.mem_append.mp member with old | new
    · exact keep other reply' old ok
    · cases List.mem_singleton.mp new
      exact announced _ _ _ (bound _ _ rfl) rfl (announces ok)
  | closed => exact quiet _ rfl (by simp [closingRows])
  | stored | arrived | keptReceipt | signed | sent => exact quiet _ rfl (by simp)
  | _ => exact quiet [] (List.append_nil _).symm (by simp)

end NodeUpdate

/-- A node that answers truthfully. -/
structure Running.Honest (config : NodeConfig) (s : Running) : Prop extends s.Sane config where
  answerable : s.node.Answerable
  truthful : s.node.Truthful

namespace Running.Honest

variable {config : NodeConfig} {s : Running} {event : LifeEvent} {u : MosaicNode}

theorem trace (honest : s.Honest config) (free : CollisionFree) (brings : event.Brings Capsule.Bound)
    (timely : s.Timely event) (trace : NodeTrace (s.Causes event.taken) s.node u) :
    (u.Backed config ∧ u.Answerable) ∧ u.Truthful := by
  refine trace.invariant (I := fun u => (u.Backed config ∧ u.Answerable) ∧ u.Truthful)
    ⟨⟨honest.backed, honest.answerable⟩, honest.truthful⟩ ?_
  rintro change v w ⟨frame, run, causes⟩ update ⟨⟨backed, answerable⟩, truthful⟩
  have genuine := honest.holds.genuine brings ⟨frame, run, causes⟩
  refine ⟨⟨update.backed free backed genuine, update.answerable free backed genuine ?_ answerable⟩,
    update.truthful free backed answerable ?_ truthful⟩
  · rintro p capsule closure rfl strands
    exact timely frame run capsule closure p causes strands
  · rintro capsule reply rfl
    exact honest.holds.carries brings run causes

/-- What was announced before the node was killed is still true of its store. -/
theorem told (honest : s.Honest config) (free : CollisionFree) {input : Input} (effects : Nat)
    (brings : (LifeEvent.crash input effects).Brings Capsule.Bound) (timely : s.Timely (.crash input effects))
    {capsule : Capsule} {reply : SubmitReply} (member : .replied capsule reply ∈ s.left input effects)
    (ok : reply.ok = true) : config.SucceededIn (s.left input effects) capsule := by
  have stored : ∀ u : MosaicNode, u.Backed config → u.protocol.Succeeded capsule → config.SucceededIn u.log capsule := by
    rintro u backed ⟨predecessor, k, known, found, found', marks⟩
    exact ⟨predecessor, known, backed.known _ _ found, backed.known _ _ found', backed.sealed.keyed _ _ found, marks⟩
  obtain ⟨u, reached, cut⟩ := (input.exec_trace s).take (Nat.le_add_right s.node.log.length effects)
  obtain ⟨⟨backed, answerable⟩, truthful⟩ := honest.trace free brings timely reached
  unfold Running.left at member ⊢
  rcases cut with same | ⟨change, v, cause, update, later, same⟩ <;> rw [same] at member ⊢
  · exact stored u backed (truthful _ _ member ok)
  obtain ⟨⟨backed', -⟩, truthful'⟩ := honest.trace free brings timely (reached.tail ⟨change, cause, update⟩)
  obtain ⟨rows, log, short | ⟨c, closure, predecessor, current, -, rfl⟩⟩ := update.log
  · rw [List.take_of_length_le (by rw [log, List.length_append]; omega)] at member ⊢
    exact stored v backed' (truthful' _ _ member ok)
  · rw [log, List.take_append, List.take_of_length_le later.le] at member ⊢
    rcases List.mem_append.mp member with old | new
    · exact (stored u backed (truthful _ _ old ok)).mono fun _ => List.mem_append_left _
    · simpa [closingRows] using List.mem_of_mem_take new

theorem exec (honest : s.Honest config) (free : CollisionFree) (careful : s.Careful config event)
    (timely : s.Timely event) : (event.exec config s).Honest config := by
  have sane := honest.toSane.exec free careful
  cases event with
  | input input =>
    obtain ⟨⟨-, answerable⟩, truthful⟩ := honest.trace free careful.1 timely (input.exec_trace s)
    exact ⟨sane, answerable, truthful⟩
  | crash input effects =>
    obtain ⟨proper, either⟩ := honest.left free effects careful.1
    have complete := either.resolve_right (careful.2 _ _ rfl)
    refine ⟨sane, fun k contained => ?_, fun capsule reply member ok => ?_⟩
    · obtain ⟨closure, row, rfl⟩ := (NodeConfig.start_contains free proper k).mp contained
      obtain ⟨kept, keptRow, named, succeeded⟩ := complete closure row
      exact ⟨kept, proper.bound kept keptRow, named.symm, (NodeConfig.start_succeeded free).mpr succeeded⟩
    · have same : ((LifeEvent.crash input effects).exec config s).node.log = s.left input effects :=
        (config.fresh _).restore_log
      rw [same] at member
      exact (NodeConfig.start_succeeded free).mpr (honest.told free effects careful.1 timely member ok)

end Running.Honest

theorem NodeConfig.start_closures_nil (config : NodeConfig) (k : String) :
    (config.start []).node.protocol.closures.contains k = false := by
  obtain ⟨currents, knowns, same⟩ := config.protocol_frame
  change config.protocol.closures.contains k = false
  rw [same]
  rfl

/-- Where no closure is registered before it can be applied, a successful answer to
`SUBMIT` is only given when the successor of the capsule is installed, and it stays
so over restarts. -/
theorem submit_truthful (free : CollisionFree) {config : NodeConfig} {s : Running}
    (life : Life config (fun s event => s.Careful config event ∧ s.Timely event) s) {capsule : Capsule}
    {reply : SubmitReply} (replied : .replied capsule reply ∈ s.node.log) (ok : reply.ok = true) :
    s.node.protocol.Succeeded capsule := by
  have honest : s.Honest config := by
    refine GuardedRun.invariant (P := Running.Honest config) life ?_ fun u event allowed before =>
      before.exec free allowed.1 allowed.2
    have sane : (config.start []).Sane config :=
      @Life.sane _ config (Running.Careful config) _ .refl free fun _ _ careful => careful
    refine ⟨sane, fun k contained => ?_, fun capsule reply member => nomatch member⟩
    cases (config.start_closures_nil k).symm.trans contained
  exact honest.truthful capsule reply replied ok

section Solo
variable (pair : KeyPair)

/-- A capsule on the seal that the first capsule leads to. -/
def secondCapsule : Capsule :=
  Capsule.create pair (nextSeal (soloSeal pair "p") (soloCapsule pair "p" "a" 0)) "b" "identity-transition" "valid" 0 none

def submission (capsule : Capsule) : LifeEvent := .input (.receive (.submit capsule))

variable {pair}

theorem secondCapsule_ne (free : CollisionFree) :
    (secondCapsule pair).capsuleId ≠ (soloCapsule pair "p" "a" 0).capsuleId := by
  intro same
  have content := @Capsule.eq_of_statement _ free (secondCapsule pair) (soloCapsule pair "p" "a" 0) same
  have root : ("b" : String) = "a" := congrArg Capsule.successorRoot content
  exact absurd root (by decide)

theorem secondCapsule_predecessorId : (secondCapsule pair).predecessorId =
    (nextSeal (soloSeal pair "p") (soloCapsule pair "p" "a" 0)).sealId := rfl

/-- The closure of the second capsule arrives first: its seal is not known yet. -/
theorem soloDelivery_strands (free : CollisionFree) (sound : SignaturesVerify) {s : MosaicNode}
    (ready : SoloReady pair s.protocol "p") (clean : s.protocol.conflictEvidence = .empty)
    (unknown : s.protocol.knownSeals = Dict.empty.set (soloSeal pair "p").sealId (soloSeal pair "p")) :
    (s.protocol.storeCapsule (secondCapsule pair)).Strands (secondCapsule pair)
      (soloClosure pair (secondCapsule pair)) := by
  have missing : s.protocol.knownSeals.get? (secondCapsule pair).predecessorId = none := by
    rw [unknown, secondCapsule_predecessorId, Dict.get?_set_of_ne _ _ (Instance.nextSeal_ne _ _ free).symm]
    rfl
  refine ⟨⟨?_, ?_⟩, ?_, ?_⟩
  · exact solo_verifyClosure pair sound _ _ ready.members ready.epoch (Dict.get?_set_self _ _ _) rfl
  · simp [MosaicProtocol.hasConflictOn, clean]
  · rintro ⟨current, head, -⟩
    obtain ⟨predecessor, known, -⟩ := Instance.headOf_parts head
    cases missing.symm.trans known
  · rintro ⟨predecessor, current, known, -⟩
    cases missing.symm.trans known

variable (pair)

/-- The second closure arrives before the first, and the second capsule is submitted. -/
def afterSubmission : Running :=
  [soloDelivery pair (secondCapsule pair), soloDelivery pair (soloCapsule pair "p" "a" 0),
    submission (secondCapsule pair)].foldl (fun s event => event.exec (soloConfig pair) s) ((soloConfig pair).start [])

variable {pair}

theorem afterSubmission_life : Life (soloConfig pair)
    (fun _ event => (∃ input, event = .input input) ∧ event.Brings Capsule.Bound) (afterSubmission pair) := by
  unfold afterSubmission
  simp only [List.foldl_cons, List.foldl_nil]
  refine ((GuardedRun.refl.tail ⟨⟨_, rfl⟩, ?_⟩).tail ⟨⟨_, rfl⟩, ?_⟩).tail ⟨⟨_, rfl⟩, ?_⟩ <;>
  · intro message same capsule carries
    simp only [LifeEvent.taken, soloDelivery, submission, Input.receive.injEq] at same
    subst same
    rw [carries]
    rfl

/-- The answer names the seal of the first capsule. -/
theorem afterSubmission_parts (free : CollisionFree) (sound : SignaturesVerify) :
    (∃ reply, .replied (secondCapsule pair) reply ∈ (afterSubmission pair).node.log ∧ reply.ok = true) ∧
      ∀ k known, (afterSubmission pair).node.protocol.knownSeals.get? k = some known →
        known = soloSeal pair "p" ∨ known = nextSeal (soloSeal pair "p") (soloCapsule pair "p" "a" 0) := by
  have start := @soloStart_ready _ pair
  have strands := @soloDelivery_strands _ pair free sound ((soloConfig pair).start []).node start rfl rfl
  unfold afterSubmission
  simp only [List.foldl_cons, List.foldl_nil]
  -- the second closure is registered
  have early : ((soloDelivery pair (secondCapsule pair)).exec (soloConfig pair) ((soloConfig pair).start [])).node = _ :=
    final_of_ok (MosaicNode.onClosure_strands strands)
  obtain ⟨closures, registered⟩ :=
    (((soloConfig pair).start []).node.protocol.storeCapsule (secondCapsule pair)).withClosure_frame (secondCapsule pair)
      (soloClosure pair (secondCapsule pair))
  have contains := Instance.contains_withClosure
    (((soloConfig pair).start []).node.protocol.storeCapsule (secondCapsule pair)) (secondCapsule pair)
    (soloClosure pair (secondCapsule pair))
  generalize (((soloConfig pair).start []).node.protocol.storeCapsule (secondCapsule pair)).withClosure
    (secondCapsule pair) (soloClosure pair (secondCapsule pair)) = p at early registered contains
  generalize (soloDelivery pair (secondCapsule pair)).exec (soloConfig pair) ((soloConfig pair).start []) = s at early
  have protocol : s.node.protocol = p := by rw [early]; rfl
  have ready : SoloReady pair s.node.protocol "p" := by
    rw [protocol, registered]
    exact ⟨start.members, start.epoch, start.known, start.current⟩
  -- the first one is applied
  obtain ⟨t, node, made, -, alone, -⟩ := @soloDelivery_installs _ pair sound (soloConfig pair) s
    (soloCapsule pair "p" "a" 0) ready (by rw [protocol, registered]; rfl) (by rw [early]; rfl) (by rw [early]; rfl) rfl rfl
  have room : t.maxPendingCapsules = 10000 := by
    rw [← node]
    refine (Input.exec_static (.receive (.closure (soloCapsule pair "p" "a" 0) _)) s).2.trans ?_
    rw [early]
    rfl
  have knowns : t.protocol.knownSeals = (Dict.empty.set (soloSeal pair "p").sealId (soloSeal pair "p")).set
      (nextSeal (soloSeal pair "p") (soloCapsule pair "p" "a" 0)).sealId
      (nextSeal (soloSeal pair "p") (soloCapsule pair "p" "a" 0)) := by
    rw [made, Instance.installSeal_knownSeals, (Instance.withClosure_seals _ _ _).1, protocol, registered]
    rfl
  have held : t.protocol.currentSeals.get? "p" = some (nextSeal (soloSeal pair "p") (soloCapsule pair "p" "a" 0)) := by
    rw [made]
    exact Dict.get?_set_self _ _ _
  have closed : ∃ existing, t.protocol.closures.get? (secondCapsule pair).capsuleId = some existing := by
    obtain ⟨existing, found⟩ := Dict.contains_iff.mp contains
    refine ⟨existing, ?_⟩
    rw [made]
    change ((s.node.protocol.storeCapsule _).withClosure _ _).closures.get? _ = _
    rw [Instance.get?_withClosure, Instance.storeCapsule_closures, protocol, found, Option.some_or]
  obtain ⟨existing, closed⟩ := closed
  generalize (soloDelivery pair (soloCapsule pair "p" "a" 0)).exec (soloConfig pair) s = u at node
  subst node
  have answered : ((submission (secondCapsule pair)).exec (soloConfig pair) u).node = _ :=
    final_of_ok (MosaicNode.submit_closed (by rw [alone, room]; decide) (by rw [alone]; rfl) closed
      (by rw [knowns, secondCapsule_predecessorId]; exact Dict.get?_set_self _ _ _) held)
  rw [answered]
  refine ⟨⟨_, List.mem_append_right _ (List.mem_singleton.mpr rfl), rfl⟩, fun k known found => ?_⟩
  rw [MosaicNode.logEffect_protocol, knowns, Dict.get?_set, Dict.get?_set] at found
  split at found
  · exact Or.inr (Option.some.inj found).symm
  · split at found
    · exact Or.inl (Option.some.inj found).symm
    · cases found

theorem afterSubmission_unsucceeded (free : CollisionFree) (sound : SignaturesVerify) :
    ¬ (afterSubmission pair).node.protocol.Succeeded (secondCapsule pair) := by
  rintro ⟨predecessor, k, known, -, found, -, root, -⟩
  rcases (afterSubmission_parts free sound).2 k known found with rfl | rfl
  · have roots : ("genesis" : String) = "b" := root
    exact absurd roots (by decide)
  · have roots : ("a" : String) = "b" := root
    exact absurd roots (by decide)

omit [Crypto] in
/-- A closure that came before its predecessor is registered all the same: the
answer to `SUBMIT` is a success though the capsule was never applied. -/
theorem submit_untruthful : ¬ ∀ [Crypto], CollisionFree → SignaturesVerify →
    ∀ (config : NodeConfig) (s : Running),
      Life config (fun _ event => (∃ input, event = .input input) ∧ event.Brings Capsule.Bound) s →
      ∀ (capsule : Capsule) (reply : SubmitReply), .replied capsule reply ∈ s.node.log → reply.ok = true →
        s.node.protocol.Succeeded capsule := by
  intro claim
  have life := @afterSubmission_life Crypto.ideal idealKey
  obtain ⟨⟨reply, replied, ok⟩, -⟩ := @afterSubmission_parts Crypto.ideal idealKey ideal_collisionFree
    ideal_signaturesVerify
  exact @afterSubmission_unsucceeded Crypto.ideal idealKey ideal_collisionFree ideal_signaturesVerify
    (@claim Crypto.ideal ideal_collisionFree ideal_signaturesVerify _ _ life _ reply replied ok)

variable (pair)

/-- The first capsule is closed and submitted. -/
def afterClosing : Running :=
  [soloDelivery pair (soloCapsule pair "p" "a" 0), submission (soloCapsule pair "p" "a" 0)].foldl
    (fun s event => event.exec (soloConfig pair) s) ((soloConfig pair).start [])

variable {pair}

theorem afterClosing_life : Life (soloConfig pair)
    (fun s event => s.Careful (soloConfig pair) event ∧ s.Timely event) (afterClosing pair) := by
  unfold afterClosing
  simp only [List.foldl_cons, List.foldl_nil]
  have brings : ∀ message, (∀ capsule, message.Carries capsule → capsule = soloCapsule pair "p" "a" 0) →
      (LifeEvent.input (.receive message)).Brings Capsule.Bound := by
    rintro message only _ ⟨⟩ capsule carries
    rw [only capsule carries]
    rfl
  refine (GuardedRun.refl.tail ⟨⟨brings _ fun _ carries => carries, ?_⟩, ?_⟩).tail
    ⟨⟨brings _ fun _ carries => carries, ?_⟩, ?_⟩
  · rintro input effects ⟨⟩
  · rintro frame ⟨⟩ capsule closure p ⟨⟩
  · rintro input effects ⟨⟩
  · rintro frame ⟨⟩ capsule closure p ⟨⟩ strands
    exact absurd (SoloReady.atHead (@soloStart_ready _ pair) "a" 0) strands.behind

theorem afterClosing_replied (sound : SignaturesVerify) :
    ∃ reply, .replied (soloCapsule pair "p" "a" 0) reply ∈ (afterClosing pair).node.log ∧ reply.ok = true := by
  have start := @soloStart_ready _ pair
  unfold afterClosing
  simp only [List.foldl_cons, List.foldl_nil]
  obtain ⟨t, node, made, -, alone, predecessor, current, known, held, -⟩ := @soloDelivery_installs _ pair sound
    (soloConfig pair) ((soloConfig pair).start []) (soloCapsule pair "p" "a" 0) start rfl rfl rfl rfl rfl
  have room : t.maxPendingCapsules = 10000 := by
    rw [← node]
    exact (Input.exec_static (.receive (.closure (soloCapsule pair "p" "a" 0) _)) ((soloConfig pair).start [])).2
  obtain ⟨existing, closed⟩ := Dict.contains_iff.mp (Instance.contains_withClosure
    (((soloConfig pair).start []).node.protocol.storeCapsule (soloCapsule pair "p" "a" 0)) (soloCapsule pair "p" "a" 0)
    (soloClosure pair (soloCapsule pair "p" "a" 0)))
  have registered : t.protocol.closures.get? (soloCapsule pair "p" "a" 0).capsuleId = some existing := by
    rw [made]
    exact closed
  generalize (soloDelivery pair (soloCapsule pair "p" "a" 0)).exec (soloConfig pair) ((soloConfig pair).start []) = u
    at node
  subst node
  have answered : ((submission (soloCapsule pair "p" "a" 0)).exec (soloConfig pair) u).node = _ :=
    final_of_ok (MosaicNode.submit_closed (by rw [alone, room]; decide) (by rw [alone]; rfl) registered known held)
  rw [answered]
  exact ⟨_, List.mem_append_right _ (List.mem_singleton.mpr rfl), rfl⟩

omit [Crypto] in
/-- The closure came in time, and the answer is true. -/
theorem submit_truthful_solo : let _ := Crypto.ideal
    (afterClosing idealKey).node.protocol.Succeeded (soloCapsule idealKey "p" "a" 0) := by
  have life := @afterClosing_life Crypto.ideal idealKey
  obtain ⟨reply, replied, ok⟩ := @afterClosing_replied Crypto.ideal idealKey ideal_signaturesVerify
  exact @submit_truthful Crypto.ideal ideal_collisionFree _ _ life _ reply replied ok

end Solo

end Mosaic
