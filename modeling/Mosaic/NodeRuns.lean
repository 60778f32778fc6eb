import Mosaic.NodeHandlers

namespace Mosaic
open CanonicalJson Effects

variable [Crypto]

/-- The effects of one change, in their order. -/
theorem NodeUpdate.log {event : NodeEvent} {s t : MosaicNode} (update : NodeUpdate event s t) :
    ∃ effects, t.log = s.log ++ effects ∧ (effects.length ≤ 1 ∨ ∃ capsule closure predecessor current,
      event = .closed s.protocol capsule closure ∧ effects = closingRows closure predecessor current) := by
  cases update with
  | closed settles known held => exact ⟨_, rfl, Or.inr ⟨_, _, _, _, rfl, rfl⟩⟩
  | stored | arrived | keptReceipt | signed | sent | finished | answered => exact ⟨_, rfl, Or.inl (by simp)⟩
  | _ => exact ⟨[], (List.append_nil _).symm, Or.inl (by simp)⟩

namespace NodeTrace

variable {P : NodeEvent → Prop} {s t : MosaicNode}

theorem log_extends (trace : NodeTrace P s t) : s.log <+: t.log :=
  trace.invariant (I := fun u => s.log <+: u.log) (List.prefix_refl _) fun _ _ _ _ update before => by
    obtain ⟨effects, same, -⟩ := update.log
    exact same ▸ before.trans (List.prefix_append _ _)

/-- Where the log is cut off, the cut lies at the end or within the effects of one
of the changes. -/
theorem take (trace : NodeTrace P s t) {k : Nat} (old : s.log.length ≤ k) :
    ∃ u, NodeTrace P s u ∧ (t.log.take k = u.log ∨ ∃ event v, P event ∧ NodeUpdate event u v ∧
      u.log.length < k ∧ t.log.take k = v.log.take k) := by
  induction trace with
  | refl => exact ⟨s, .refl, Or.inl (List.take_of_length_le old)⟩
  | @tail u v before last ih =>
    obtain ⟨event, allowed, update⟩ := last
    by_cases later : u.log.length < k
    · exact ⟨u, before, Or.inr ⟨event, v, allowed, update, later, rfl⟩⟩
    · obtain ⟨effects, same, -⟩ := update.log
      obtain ⟨w, reached, cut⟩ := ih
      refine ⟨w, reached, ?_⟩
      rwa [same, List.take_append_of_le_length (by omega)]

end NodeTrace

/-- The frame that an input runs, if there is one. -/
def Input.frame (s : Running) : Input → Option Frame
  | .receive message => some (.deliver message)
  | .resume thread => s.threads[thread]?.bind List.head?

theorem Input.exec_node (input : Input) (s : Running) :
    (input.frame s = none ∧ (input.exec s).node = s.node) ∨
      ∃ frame, input.frame s = some frame ∧
        (input.exec s).node = final (MosaicNode.runFrame frame) s.node := by
  cases input with
  | receive message => exact Or.inr ⟨_, rfl, rfl⟩
  | resume thread =>
    simp only [Input.exec, Input.frame, Running.resume]
    rcases s.threads[thread]? with _ | _ | ⟨frame, later⟩
    · exact Or.inl ⟨rfl, rfl⟩
    · exact Or.inl ⟨rfl, rfl⟩
    · exact Or.inr ⟨frame, rfl, rfl⟩

/-- What an input can change. -/
def Running.Causes (s : Running) (input : Input) (event : NodeEvent) : Prop :=
  ∃ frame, input.frame s = some frame ∧ s.node.Causes frame event

theorem Input.exec_trace (input : Input) (s : Running) :
    NodeTrace (s.Causes input) s.node (input.exec s).node := by
  rcases input.exec_node s with ⟨-, same⟩ | ⟨frame, run, same⟩
  · rw [same]
    exact .refl
  · rw [same]
    exact (MosaicNode.runFrame_guarantees s.node frame).moves.mono fun event cause => ⟨frame, run, cause⟩

/-- A node stays who it is. -/
theorem NodeUpdate.static {event : NodeEvent} {s t : MosaicNode} (update : NodeUpdate event s t) :
    t.nodeId = s.nodeId ∧ t.maxPendingCapsules = s.maxPendingCapsules := by
  cases update <;> exact ⟨rfl, rfl⟩

theorem Input.exec_static (input : Input) (s : Running) : (input.exec s).node.nodeId = s.node.nodeId ∧
    (input.exec s).node.maxPendingCapsules = s.node.maxPendingCapsules := by
  refine (input.exec_trace s).invariant
    (I := fun u => u.nodeId = s.node.nodeId ∧ u.maxPendingCapsules = s.node.maxPendingCapsules) ⟨rfl, rfl⟩ ?_
  rintro event u v - update ⟨name, room⟩
  exact ⟨update.static.1.trans name, update.static.2.trans room⟩

namespace MosaicNode

/-- The protocol object with the restored seals and capsules, before the closures
are registered again. -/
@[simps toMosaicProtocol signed]
def recalled (s : MosaicNode) : Instance :=
  { s.protocol with
    knownSeals := s.protocol.knownSeals.writeAll StateSeal.sealId (items s.log Row.sealKnown?)
    currentSeals := s.protocol.currentSeals.writeAll StateSeal.resourceId (items s.log Row.sealCurrent?)
    capsules := s.protocol.capsules.writeAll Capsule.capsuleId (items s.log Row.capsule?) }

theorem foldl_restoreSealKnown (s : MosaicNode) (seals : List StateSeal) : seals.foldl restoreSealKnown s =
    s.setProtocol { s.protocol with knownSeals := s.protocol.knownSeals.writeAll StateSeal.sealId seals } := by
  induction seals generalizing s with
  | nil => rfl
  | cons known seals ih => exact ih _

theorem foldl_restoreSealCurrent (s : MosaicNode) (seals : List StateSeal) : seals.foldl restoreSealCurrent s =
    s.setProtocol { s.protocol with currentSeals := s.protocol.currentSeals.writeAll StateSeal.resourceId seals } := by
  induction seals generalizing s with
  | nil => rfl
  | cons current seals ih => exact ih _

theorem foldl_restoreCapsule (s : MosaicNode) (capsules : List Capsule) : ∃ seen, capsules.foldl restoreCapsule s =
    { s.setProtocol { s.protocol with capsules := s.protocol.capsules.writeAll Capsule.capsuleId capsules } with
      seenCapsules := seen } := by
  induction capsules generalizing s with
  | nil => exact ⟨s.seenCapsules, rfl⟩
  | cons capsule capsules ih => exact ih _

theorem foldl_restoreReceipt (s : MosaicNode) (receipts : List WitnessReceipt) : ∃ pool,
    receipts.foldl restoreReceipt s = { s with receiptPool := pool } := by
  induction receipts generalizing s with
  | nil => exact ⟨s.receiptPool, rfl⟩
  | cons receipt receipts ih => exact ih _

/-- Registering a closure again leaves everything but the closures alone. -/
theorem restoreClosure_frame (s : MosaicNode) (closure : ClosureProof) : ∃ closures,
    s.restoreClosure closure = s.setProtocol { s.protocol with closures := closures } := by
  unfold restoreClosure
  cases s.protocol.capsules.get? closure.capsuleId with
  | none => exact ⟨s.protocol.closures, rfl⟩
  | some capsule =>
    dsimp only
    rcases (@Instance.registerClosure_guarantees _ s.protocol capsule closure).moves with
      same | ⟨_, rfl, update⟩
    · rw [← same]
      exact ⟨s.protocol.closures, rfl⟩
    · generalize final (Instance.registerClosure capsule closure) s.protocol = p at update
      cases update
      exact ⟨_, rfl⟩

theorem foldl_restoreClosure (s : MosaicNode) (restored : List ClosureProof) : ∃ closures,
    restored.foldl restoreClosure s = s.setProtocol { s.protocol with closures := closures } := by
  induction restored generalizing s with
  | nil => exact ⟨s.protocol.closures, rfl⟩
  | cons closure restored ih =>
    obtain ⟨closures, same⟩ := s.restoreClosure_frame closure
    rw [List.foldl_cons, same]
    exact ih _

/-- The node before it registers the closures again. -/
theorem restore_eq (s : MosaicNode) : ∃ seen pool, s.restore = (items s.log Row.closure?).foldl restoreClosure
    { s.setProtocol s.recalled with seenCapsules := seen, receiptPool := pool } := by
  unfold restore
  simp only [foldl_restoreSealKnown, foldl_restoreSealCurrent]
  obtain ⟨seen, stored⟩ := foldl_restoreCapsule _ (items s.log Row.capsule?)
  rw [stored]
  obtain ⟨pool, pooled⟩ := foldl_restoreReceipt _ (items s.log Row.receipt?)
  rw [pooled]
  exact ⟨seen, pool, rfl⟩

/-- Besides the closures, restoring writes seals, capsules, seen capsules and the
receipt pool. -/
theorem restore_frame (s : MosaicNode) : ∃ closures seen pool, s.restore =
    { s.setProtocol { s.recalled with closures := closures } with seenCapsules := seen, receiptPool := pool } := by
  obtain ⟨seen, pool, same⟩ := s.restore_eq
  rw [same]
  obtain ⟨closures, restored⟩ := foldl_restoreClosure _ (items s.log Row.closure?)
  rw [restored]
  exact ⟨closures, seen, pool, rfl⟩

/-- What every restored row keeps, restoring keeps. -/
theorem restore_invariant {I : MosaicNode → Prop} {s : MosaicNode} (start : I s)
    (known : ∀ u, I u → ∀ row ∈ items s.log Row.sealKnown?, I (u.restoreSealKnown row))
    (current : ∀ u, I u → ∀ row ∈ items s.log Row.sealCurrent?, I (u.restoreSealCurrent row))
    (capsule : ∀ u, I u → ∀ row ∈ items s.log Row.capsule?, I (u.restoreCapsule row))
    (receipt : ∀ u, I u → ∀ row ∈ items s.log Row.receipt?, I (u.restoreReceipt row))
    (closure : ∀ u, I u → ∀ row ∈ items s.log Row.closure?, I (u.restoreClosure row)) : I s.restore := by
  have first := List.foldlRecOn (motive := I) _ restoreSealKnown start known
  have second := List.foldlRecOn (motive := I) _ restoreSealCurrent first current
  have third := List.foldlRecOn (motive := I) _ restoreCapsule second capsule
  have fourth := List.foldlRecOn (motive := I) _ restoreReceipt third receipt
  exact List.foldlRecOn (motive := I) _ restoreClosure fourth closure

@[simp] theorem restore_log (s : MosaicNode) : s.restore.log = s.log := by
  obtain ⟨closures, seen, pool, same⟩ := s.restore_frame
  rw [same]
  rfl

end MosaicNode

@[simp] theorem NodeConfig.start_node (config : NodeConfig) (log : List Effect) :
    (config.start log).node = (config.fresh log).restore := rfl

/-- The input that an event is about. -/
def LifeEvent.taken : LifeEvent → Input
  | .input i | .crash i _ => i

/-- What holds at the first start, in every state between two changes of an
allowed step, and after a restart from any log that a crash can leave. -/
theorem Life.invariant {config : NodeConfig} {allowed : Running → LifeEvent → Prop} {I : MosaicNode → Prop} {s : Running}
    (life : Life config allowed s) (start : I (config.start []).node)
    (step : ∀ s event, allowed s event → I s.node → ∀ u, NodeTrace (s.Causes event.taken) s.node u → I u)
    (restart : ∀ s event, allowed s event → I s.node → ∀ u, NodeTrace (s.Causes event.taken) s.node u →
      I (config.start u.log).node ∧ ∀ change v k, s.Causes event.taken change → NodeUpdate change u v →
        u.log.length < k → I (config.start (v.log.take k)).node) : I s.node := by
  refine GuardedRun.invariant (P := fun s => I s.node) life start fun s event ok before => ?_
  have trace := event.taken.exec_trace s
  cases event with
  | input input => exact step s (.input input) ok before _ trace
  | crash input effects =>
    obtain ⟨u, reached, cut⟩ := trace.take (Nat.le_add_right s.node.log.length effects)
    obtain ⟨whole, part⟩ := restart s (.crash input effects) ok before u reached
    simp only [LifeEvent.exec]
    rcases cut with same | ⟨change, v, cause, update, later, same⟩
    · exact same.symm ▸ whole
    · exact same.symm ▸ part change v _ cause update later

/-- Killed before it does anything, the handler leaves no trace. -/
theorem LifeEvent.exec_crash_zero (config : NodeConfig) (input : Input) (s : Running) :
    (LifeEvent.crash input 0).exec config s = config.start s.node.log := by
  obtain ⟨later, same⟩ := (input.exec_trace s).log_extends
  simp only [LifeEvent.exec, ← same]
  rw [Nat.add_zero, List.take_left]

/-- An unseen capsule whose seal is current and unlocked is accepted. -/
theorem MosaicNode.onCapsule_accepts {s : MosaicNode} {capsule : Capsule} {member : Member} {pair : KeyPair}
    (unseen : capsule.capsuleId ∉ s.seenCapsules) (valid : s.protocol.Valid capsule) (head : s.protocol.AtHead capsule)
    (free : s.protocol.locks.get? capsule.predecessorId = none)
    (known : s.protocol.members.get? s.nodeId = some member) (loaded : member.keypair = some pair) :
    runFrame (.deliver (.capsule capsule)) s =
      let receipt := Instance.signedReceipt member pair capsule "ACCEPT"
      .ok [.deliver (.receipt receipt)]
        (((((s.addSeen capsule.capsuleId).logEffect (.put (.capsule capsule))).setProtocol
          (((s.protocol.storeCapsule capsule).setLock capsule "ACCEPT").addSigned receipt)).logEffect
            (.signed receipt)).logEffect (.sent (.receipt receipt))) := by
  have valid' : (s.protocol.storeCapsule capsule).Valid capsule :=
    ⟨valid.known, valid.epoch, valid.signature, valid.attempt, valid.root⟩
  have unlocked : ∀ lock, (s.protocol.storeCapsule capsule).locks.get? capsule.predecessorId = some lock →
      lock.Released capsule := by
    intro lock held
    cases free.symm.trans held
  have witnessed := Instance.witnessReceipt_ok (Or.inl rfl) valid' known loaded
    ((congrFun (if_pos rfl) _).trans (Instance.acceptLock_claims head unlocked))
  simp only [runFrame, dispatch, onCapsule, bind_apply, get_apply, if_neg unseen, modify_apply, storeCapsule,
    persistCapsule, perform, broadcast, outcome, witnessReceipt]
  simp only [onProtocol, onPart, setProtocol, addSeen, modify_apply, logEffect, witnessed, pure_apply]
  rfl

namespace MosaicNode

/-- Nothing in the queue can be retried. -/
theorem retryFrom_idle {s : MosaicNode} {entries : List (String × Capsule)}
    (idle : ∀ entry ∈ entries, s.retryable entry.2 = false) : retryFrom entries s = .ok ([], []) s := by
  induction entries with
  | nil => rfl
  | cons entry entries ih =>
    obtain ⟨first, later⟩ := List.forall_mem_cons.mp idle
    unfold retryFrom
    rw [bind_of_ok (get_apply s)]
    simp only [first]
    exact ih later

theorem finishPending_none {s : MosaicNode} {capsuleId : String} (none : s.pending.get? capsuleId = none) :
    finishPending capsuleId s = .ok ⟨⟩ s := by
  unfold finishPending
  rw [bind_of_ok (get_apply s)]
  simp only [none]
  rfl

/-- What a delivered closure does after its settling: an exception ends it, otherwise the
waiting capsules are tried again. -/
theorem onClosure_run {s t : MosaicNode} {capsule : Capsule} {closure : ClosureProof} {result : Except PyError PUnit}
    (settled : outcome (settle capsule closure) (s.kept capsule) = .ok result t) :
    runFrame (.deliver (.closure capsule closure)) s = (match result with
      | .error _ => .ok [] t
      | .ok _ => retryThenFinish t.pendingCapsules.entries capsule.capsuleId t) := by
  have stored : storeCapsule capsule s = .ok ⟨⟩ (s.setProtocol (s.protocol.storeCapsule capsule)) := rfl
  simp only [runFrame, dispatch, onClosure]
  rw [bind_of_ok stored]
  unfold persistCapsule perform
  rw [bind_of_ok (modify_apply _ _)]
  change (outcome (settle capsule closure) >>= _) (s.kept capsule) = _
  rw [bind_of_ok settled]
  cases result <;> rfl

/-- A closure that settles, where nothing waits for it. -/
theorem onClosure_settles {s t : MosaicNode} {capsule : Capsule} {closure : ClosureProof}
    (settled : settle capsule closure (s.kept capsule) = .ok ⟨⟩ t)
    (idle : ∀ entry ∈ t.pendingCapsules.entries, t.retryable entry.2 = false)
    (alone : t.pending.get? capsule.capsuleId = none) :
    runFrame (.deliver (.closure capsule closure)) s = .ok [] t := by
  have retried : outcome (retryFrom t.pendingCapsules.entries) t = .ok (.ok ([], [])) t :=
    outcome_of_ok (retryFrom_idle idle)
  rw [onClosure_run (outcome_of_ok settled)]
  unfold retryThenFinish
  rw [bind_of_ok retried]
  exact bind_of_ok (finishPending_none alone)

/-- A closure that is registered but cannot be applied leaves the capsule closed. -/
theorem onClosure_strands {s : MosaicNode} {capsule : Capsule} {closure : ClosureProof}
    (strands : (s.protocol.storeCapsule capsule).Strands capsule closure) :
    runFrame (.deliver (.closure capsule closure)) s =
      .ok [] ((s.kept capsule).setProtocol ((s.protocol.storeCapsule capsule).withClosure capsule closure)) := by
  rcases settle_cases (s.kept capsule) capsule closure with ⟨p, -, -, settles, -⟩ | ⟨e, -, raised⟩ | ⟨e, refused, -⟩
  · cases settles with
    | installed registrable head named => exact absurd ⟨_, head, named⟩ strands.behind
    | repeated registrable behind followed => exact absurd followed strands.missed
  · exact onClosure_run (outcome_of_error raised)
  · exact absurd strands.toRegistrable refused

/-- `SUBMIT` of a capsule that is closed. -/
theorem submit_closed {s : MosaicNode} {capsule : Capsule} {existing : ClosureProof} {predecessor current : StateSeal}
    (room : s.pending.keys.length < s.maxPendingCapsules) (new : s.pending.contains capsule.capsuleId = false)
    (registered : s.protocol.closures.get? capsule.capsuleId = some existing)
    (known : s.protocol.knownSeals.get? capsule.predecessorId = some predecessor)
    (held : s.protocol.currentSeals.get? predecessor.resourceId = some current) :
    runFrame (.deliver (.submit capsule)) s =
      .ok [] (s.logEffect (.replied capsule (.finished capsule.capsuleId existing.proofId current))) := by
  simp only [runFrame, dispatch, submit]
  rw [bind_of_ok (get_apply s), if_neg (Nat.not_le.mpr room), if_neg (by simp [new])]
  simp only [registered]
  rw [bind_of_ok (lookup_ok known), bind_of_ok (lookup_ok held)]
  rfl

/-- A closure whose capsule is at the head is installed, where nothing waits. -/
theorem onClosure_installs {s : MosaicNode} {capsule : Capsule} {closure : ClosureProof} {old : StateSeal}
    (registrable : (s.protocol.storeCapsule capsule).Registrable capsule closure)
    (head : s.protocol.headOf capsule = some old) (named : old.sealId = capsule.predecessorId)
    (idle : s.pendingCapsules = .empty) (alone : s.pending = .empty) :
    ∃ t, runFrame (.deliver (.closure capsule closure)) s = .ok [] t ∧
      t.protocol = ((s.protocol.storeCapsule capsule).withClosure capsule closure).installSeal (nextSeal old capsule) ∧
      t.pendingCapsules = .empty ∧ t.pending = .empty ∧ ∃ predecessor current,
        t.protocol.knownSeals.get? capsule.predecessorId = some predecessor ∧
        t.protocol.currentSeals.get? predecessor.resourceId = some current ∧
        t.log = s.log ++ .put (.capsule capsule) :: closingRows closure predecessor current := by
  rcases settle_cases (s.kept capsule) capsule closure with ⟨p, predecessor, current, settles, known, held, ran⟩ |
    ⟨e, strands, -⟩ | ⟨e, refused, -⟩
  · have made : p = ((s.protocol.storeCapsule capsule).withClosure capsule closure).installSeal (nextSeal old capsule) := by
      cases settles with
      | installed _ head' =>
        cases head.symm.trans head'
        rfl
      | repeated _ behind => exact absurd ⟨old, head, named⟩ behind
    refine ⟨_, onClosure_settles ran ?_ ?_, made, idle, alone, predecessor, current, known, held, ?_⟩
    · intro entry member
      change entry ∈ s.pendingCapsules.entries at member
      rw [idle] at member
      cases member
    · change s.pending.get? capsule.capsuleId = none
      rw [alone]
      rfl
    · simp [List.append_assoc]
  · exact absurd ⟨old, head, named⟩ strands.behind
  · exact absurd registrable refused

end MosaicNode

end Mosaic
