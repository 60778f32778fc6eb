import Mosaic.Success
import Mosaic.Node

namespace Mosaic
open CanonicalJson Effects

variable [Crypto]

namespace Instance

variable {s t : Instance} {capsule : Capsule} {closure : ClosureProof}

/-- The closure is registered, where none is registered for the capsule yet. -/
def withClosure (s : Instance) (capsule : Capsule) (closure : ClosureProof) : Instance :=
  if s.closures.contains capsule.capsuleId then s else s.addClosure capsule closure

/-- The current seal has the marks of the capsule's successor. -/
def Followed (s : Instance) (capsule : Capsule) : Prop :=
  ∃ predecessor current, s.knownSeals.get? capsule.predecessorId = some predecessor ∧
    s.currentSeals.get? predecessor.resourceId = some current ∧ current.version = predecessor.version + 1 ∧
      current.stateRoot = capsule.successorRoot ∧ current.capabilityHash = digest (.str capsule.capsuleId)

/-- A closure that can be registered. -/
structure Registrable (s : Instance) (capsule : Capsule) (closure : ClosureProof) : Prop where
  verified : s.verifyClosure capsule closure = true
  clean : s.hasConflictOn capsule.predecessorId = false

/-- The closure was registered and applied: the seal was installed, or it was there. -/
inductive Settles (s : Instance) (capsule : Capsule) (closure : ClosureProof) : Instance → Prop
  | installed {current : StateSeal} (registrable : s.Registrable capsule closure)
      (head : s.headOf capsule = some current) (named : current.sealId = capsule.predecessorId) :
      Settles s capsule closure ((s.withClosure capsule closure).installSeal (nextSeal current capsule))
  | repeated (registrable : s.Registrable capsule closure) (behind : ¬ s.AtHead capsule)
      (followed : s.Followed capsule) : Settles s capsule closure (s.withClosure capsule closure)

/-- The closure was registered but it could not be applied. -/
structure Strands (s : Instance) (capsule : Capsule) (closure : ClosureProof) : Prop extends
    s.Registrable capsule closure where
  behind : ¬ s.AtHead capsule
  missed : ¬ s.Followed capsule

theorem contains_withClosure (s : Instance) (capsule : Capsule) (closure : ClosureProof) :
    (s.withClosure capsule closure).closures.contains capsule.capsuleId = true := by
  unfold withClosure
  split
  · assumption
  · simp [Dict.contains]

@[simp] theorem withClosure_seals (s : Instance) (capsule : Capsule) (closure : ClosureProof) :
    (s.withClosure capsule closure).knownSeals = s.knownSeals ∧
      (s.withClosure capsule closure).currentSeals = s.currentSeals := by
  unfold withClosure
  split <;> exact ⟨rfl, rfl⟩

theorem verifyClosure_withClosure (s : Instance) (capsule : Capsule) (closure : ClosureProof) :
    (s.withClosure capsule closure).verifyClosure = s.verifyClosure := by
  unfold withClosure
  split <;> rfl

theorem registerClosure_registrable (registrable : s.Registrable capsule closure) :
    registerClosure capsule closure s = .ok ⟨⟩ (s.withClosure capsule closure) := by
  obtain ⟨verified, clean⟩ := registrable
  unfold registerClosure withClosure
  simp only [bind_apply, get_apply, raiseIf_apply, verified, clean, Bool.true_eq_false, Bool.false_eq_true, if_false]
  by_cases contained : s.closures.contains capsule.capsuleId = true
  · simp only [if_pos contained, pure_apply]
  · simp only [if_neg contained, modify_apply]

theorem registerClosure_raises (refused : ¬ s.Registrable capsule closure) :
    ∃ e, registerClosure capsule closure s = .error e s := by
  unfold registerClosure
  simp only [bind_apply, get_apply, raiseIf_apply]
  by_cases verified : s.verifyClosure capsule closure = true
  · have contested : ¬ s.hasConflictOn capsule.predecessorId = false := fun clean => refused ⟨verified, clean⟩
    simp [verified, contested]
  · simp [verified]

/-- `apply` right after `register_closure`. -/
theorem apply_registered (registrable : s.Registrable capsule closure) :
    (∃ applied t, apply capsule closure (s.withClosure capsule closure) = .ok applied t ∧ s.Settles capsule closure t) ∨
      ∃ e, apply capsule closure (s.withClosure capsule closure) = .error e (s.withClosure capsule closure) ∧
        s.Strands capsule closure := by
  have verified := registrable.verified
  obtain ⟨knowns, currents⟩ := withClosure_seals s capsule closure
  unfold apply
  simp only [bind_apply, get_apply, raiseIf_apply, verifyClosure_withClosure, verified,
    (verifyClosure_ids verified).1, contains_withClosure, knowns, currents, pure_apply, ne_eq, not_true_eq_false,
    Bool.true_eq_false, if_false, if_true]
  cases known : s.knownSeals.get? capsule.predecessorId with
  | none =>
    refine Or.inr ⟨_, rfl, registrable, ?_, ?_⟩
    · rintro ⟨current, head, -⟩
      simp [headOf, known] at head
    · rintro ⟨predecessor, current, known', -⟩
      simp [known] at known'
  | some predecessor =>
    dsimp only
    cases held : s.currentSeals.get? predecessor.resourceId with
    | none =>
      refine Or.inr ⟨_, rfl, registrable, ?_, ?_⟩
      · rintro ⟨current, head, -⟩
        simp [headOf, known, held] at head
      · rintro ⟨predecessor', current, known', held', -⟩
        rw [known] at known'
        cases known'
        simp [held] at held'
    | some current =>
      have head : s.headOf capsule = some current := Option.bind_eq_some_iff.mpr ⟨predecessor, known, held⟩
      dsimp only
      by_cases named : current.sealId = capsule.predecessorId
      · simp only [named, not_true_eq_false, if_false]
        exact Or.inl ⟨_, _, rfl, .installed registrable head named⟩
      · have behind : ¬ s.AtHead capsule := by
          rintro ⟨other, head', named'⟩
          rw [head] at head'
          cases head'
          exact named named'
        simp only [named, not_false_eq_true, if_true]
        by_cases marks : current.version = predecessor.version + 1 ∧ current.stateRoot = capsule.successorRoot ∧
            current.capabilityHash = digest (.str capsule.capsuleId)
        · simp only [if_pos marks]
          exact Or.inl ⟨_, _, rfl, .repeated registrable behind ⟨predecessor, current, known, held, marks⟩⟩
        · simp only [if_neg marks]
          refine Or.inr ⟨_, rfl, registrable, behind, ?_⟩
          rintro ⟨predecessor', current', known', held', marks'⟩
          rw [known] at known'
          cases known'
          rw [held] at held'
          cases held'
          exact marks marks'

/-- Registering writes closures only, and settling seals besides. -/
theorem withClosure_frame (s : Instance) (capsule : Capsule) (closure : ClosureProof) :
    ∃ closures, s.withClosure capsule closure = { s with closures := closures } := by
  unfold withClosure
  split
  · exact ⟨s.closures, rfl⟩
  · exact ⟨_, rfl⟩

theorem Settles.frame (settles : s.Settles capsule closure t) : ∃ closures currents knowns,
    t = { s with closures := closures, currentSeals := currents, knownSeals := knowns } := by
  obtain ⟨closures, same⟩ := withClosure_frame s capsule closure
  cases settles with
  | installed =>
    rw [same]
    exact ⟨closures, _, _, rfl⟩
  | repeated =>
    rw [same]
    exact ⟨closures, _, _, rfl⟩

/-- After a settlement the rows of `_persist_closure` can all be looked up. -/
theorem Settles.lookups (settles : s.Settles capsule closure t) :
    ∃ predecessor current, t.knownSeals.get? capsule.predecessorId = some predecessor ∧
      t.currentSeals.get? predecessor.resourceId = some current := by
  obtain ⟨knowns, currents⟩ := withClosure_seals s capsule closure
  cases settles with
  | @installed current registrable head named =>
    obtain ⟨predecessor, known, held⟩ := headOf_parts head
    simp only [installSeal_knownSeals, installSeal_currentSeals, knowns, currents, Dict.get?_set]
    by_cases here : (nextSeal current capsule).sealId = capsule.predecessorId
    · simp [here]
    · rw [if_neg here, known]
      by_cases there : (nextSeal current capsule).resourceId = predecessor.resourceId
      · exact ⟨predecessor, _, rfl, if_pos there⟩
      · exact ⟨predecessor, current, rfl, (if_neg there).trans held⟩
  | repeated registrable behind followed =>
    obtain ⟨predecessor, current, known, held, -⟩ := followed
    exact ⟨predecessor, current, knowns ▸ known, currents ▸ held⟩

end Instance

/-- The node when it has stored and kept a capsule. -/
@[simps]
def MosaicNode.kept (s : MosaicNode) (capsule : Capsule) : MosaicNode :=
  { s with protocol := s.protocol.storeCapsule capsule, log := s.log ++ [.put (.capsule capsule)] }

/-- A closing also says in which state of the protocol object it happens. -/
inductive NodeEvent
  | stored (capsule : Capsule)
  | arrived (capsule : Capsule)
  | keptReceipt (receipt : WitnessReceipt)
  | witnessed (capsule : Capsule) (event : Event)
  | signed (receipt : WitnessReceipt)
  | pooled (receipt : WitnessReceipt)
  | closed (p : Instance) (capsule : Capsule) (closure : ClosureProof)
  | stranded (p : Instance) (capsule : Capsule) (closure : ClosureProof)
  | sent (message : Message)
  | finished (capsule : Capsule) (reply : SubmitReply)
  | answered (capsule : Capsule) (reply : SubmitReply)
  | submitted (capsule : Capsule)
  | queued (capsule : Capsule)
  | woken (capsuleId : String)
  | popped (capsuleId : String)
  | emitted (proofId : String)

/-- What `_persist_closure` puts. -/
def closingRows (closure : ClosureProof) (predecessor current : StateSeal) : List Effect := [
  .put (.closure closure),
  .put (.sealKnown predecessor),
  .put (.sealKnown current),
  .put (.sealCurrent current)]

/-- A reply that announces the closure registered under an identifier, and the
seal that is current for the resource of the capsule. -/
def Instance.Announces (s : Instance) (capsule : Capsule) (capsuleId : String) (reply : SubmitReply) : Prop :=
  ∃ closure predecessor current, s.closures.get? capsuleId = some closure ∧
    s.knownSeals.get? capsule.predecessorId = some predecessor ∧
      s.currentSeals.get? predecessor.resourceId = some current ∧
        reply = .finished capsuleId closure.proofId current

/-- Everything the handlers do, one change at a time. A change has at most one
effect, but for the rows of a closing. -/
inductive NodeUpdate : NodeEvent → MosaicNode → MosaicNode → Prop
  | stored {s : MosaicNode} {capsule : Capsule} : NodeUpdate (.stored capsule) s (s.kept capsule)
  | arrived {s : MosaicNode} {capsule : Capsule} :
      NodeUpdate (.arrived capsule) s ((s.addSeen capsule.capsuleId).kept capsule)
  | keptReceipt {s : MosaicNode} {receipt : WitnessReceipt} :
      NodeUpdate (.keptReceipt receipt) s (s.logEffect (.put (.receipt receipt)))
  | witnessed {s : MosaicNode} {capsule : Capsule} {event : Event} {p : Instance}
      (seen : capsule.capsuleId ∈ s.seenCapsules) (kind : witnessing "ACCEPT" capsule event) (update : Update event s.protocol p) :
      NodeUpdate (.witnessed capsule event) s (s.setProtocol p)
  | signed {s : MosaicNode} {receipt : WitnessReceipt} (mine : receipt ∈ s.protocol.signed) :
      NodeUpdate (.signed receipt) s (s.logEffect (.signed receipt))
  | pooled {s : MosaicNode} {receipt : WitnessReceipt} : NodeUpdate (.pooled receipt) s (s.addReceipt receipt)
  | closed {s : MosaicNode} {capsule : Capsule} {closure : ClosureProof} {p : Instance} {predecessor current : StateSeal}
      (settles : s.protocol.Settles capsule closure p)
      (known : p.knownSeals.get? capsule.predecessorId = some predecessor)
      (held : p.currentSeals.get? predecessor.resourceId = some current) :
      NodeUpdate (.closed s.protocol capsule closure) s
        { s.setProtocol p with log := s.log ++ closingRows closure predecessor current }
  | stranded {s : MosaicNode} {capsule : Capsule} {closure : ClosureProof}
      (strands : s.protocol.Strands capsule closure) :
      NodeUpdate (.stranded s.protocol capsule closure) s (s.setProtocol (s.protocol.withClosure capsule closure))
  | sent {s : MosaicNode} {message : Message} : NodeUpdate (.sent message) s (s.logEffect (.sent message))
  | finished {s : MosaicNode} {capsule : Capsule} {capsuleId : String} {reply : SubmitReply}
      (waiting : s.pending.get? capsuleId = some capsule) (announces : s.protocol.Announces capsule capsuleId reply) :
      NodeUpdate (.finished capsule reply) s (s.logEffect (.replied capsule reply))
  | answered {s : MosaicNode} {capsule : Capsule} {reply : SubmitReply}
      (announces : reply.ok = true → s.protocol.Announces capsule capsule.capsuleId reply) :
      NodeUpdate (.answered capsule reply) s (s.logEffect (.replied capsule reply))
  | submitted {s : MosaicNode} {capsule : Capsule} : NodeUpdate (.submitted capsule) s (s.addPending capsule)
  | queued {s : MosaicNode} {capsule : Capsule} : NodeUpdate (.queued capsule) s (s.addWaiting capsule)
  | woken {s : MosaicNode} {capsuleId : String} : NodeUpdate (.woken capsuleId) s (s.wake capsuleId)
  | popped {s : MosaicNode} {capsuleId : String} : NodeUpdate (.popped capsuleId) s (s.popPending capsuleId)
  | emitted {s : MosaicNode} {proofId : String} : NodeUpdate (.emitted proofId) s (s.addEmitted proofId)

/-- Some changes, one after the other, each of a kind that `P` allows. -/
def NodeTrace (P : NodeEvent → Prop) (s t : MosaicNode) : Prop :=
  Relation.ReflTransGen (fun s t => ∃ event, P event ∧ NodeUpdate event s t) s t

namespace NodeTrace

variable {P Q : NodeEvent → Prop} {s t u : MosaicNode}

instance : Std.Refl (NodeTrace P) := ⟨fun _ => .refl⟩

instance : IsTrans MosaicNode (NodeTrace P) := ⟨fun _ _ _ first second => Relation.ReflTransGen.trans first second⟩

theorem single {event : NodeEvent} (update : NodeUpdate event s t) (allowed : P event) : NodeTrace P s t :=
  Relation.ReflTransGen.single ⟨event, allowed, update⟩

theorem mono (trace : NodeTrace P s t) (more : ∀ event, P event → Q event) : NodeTrace Q s t :=
  Relation.ReflTransGen.mono (fun _ _ ⟨event, allowed, update⟩ => ⟨event, more event allowed, update⟩) _ _ trace

/-- What every allowed change keeps, a whole trace keeps. -/
theorem invariant {I : MosaicNode → Prop} (trace : NodeTrace P s t) (start : I s)
    (keep : ∀ event s t, P event → NodeUpdate event s t → I s → I t) : I t := by
  induction trace with
  | refl => exact start
  | tail _ last ih =>
    obtain ⟨event, allowed, update⟩ := last
    exact keep event _ _ allowed update ih

/-- The changes of the protocol object that witnessing makes. -/
theorem of_witnessing {capsule : Capsule} {p : Instance} (seen : capsule.capsuleId ∈ s.seenCapsules)
    (trace : Trace (witnessing "ACCEPT" capsule) s.protocol p) (allowed : ∀ event, P (.witnessed capsule event)) :
    NodeTrace P s (s.setProtocol p) := by
  induction trace with
  | refl => exact .refl
  | tail _ last ih =>
    obtain ⟨event, kind, update⟩ := last
    exact ih.tail ⟨_, allowed event, .witnessed seen kind update⟩

end NodeTrace

end Mosaic
