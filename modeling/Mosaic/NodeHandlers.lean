import Mosaic.NodeUpdates

namespace Mosaic
open CanonicalJson Effects

/-- The capsules that a message brings along. -/
def Message.Carries : Message → Capsule → Prop
  | .submit d, c | .capsule d, c | .closure d _, c => c = d
  | .receipt _, _ => False

def Frame.Carries : Frame → Capsule → Prop
  | .deliver message, c => message.Carries c
  | .retry entries _, c => ∃ capsuleId, (capsuleId, c) ∈ entries
  | .await d, c => c = d
  | .finish _, _ => False

variable [Crypto]

namespace MosaicNode

/-- The capsules that a frame may have the node witness. -/
def Candidate (s : MosaicNode) : Frame → Capsule → Prop
  | .deliver (.capsule d), c => c = d
  | .deliver (.closure _ _), c => ∃ capsuleId, (capsuleId, c) ∈ s.pendingCapsules.entries
  | .retry entries _, c => ∃ capsuleId, (capsuleId, c) ∈ entries
  | _, _ => False

/-- The capsules that a frame can get hold of. -/
def Knows (s : MosaicNode) (frame : Frame) (c : Capsule) : Prop :=
  frame.Carries c ∨ s.Candidate frame c ∨ ∃ capsuleId, s.protocol.capsules.get? capsuleId = some c

/-- The capsule that a frame may close, with the closure and the protocol object
as it is then. -/
inductive Closing (s : MosaicNode) : Frame → Capsule → ClosureProof → Instance → Prop
  | delivered (capsule : Capsule) (closure : ClosureProof) :
      Closing s (.deliver (.closure capsule closure)) capsule closure (s.protocol.storeCapsule capsule)
  | collected {receipt : WitnessReceipt} {capsule : Capsule} {closure : ClosureProof}
      (new : receipt.receiptId ∉ s.historyOf receipt)
      (stored : s.protocol.capsules.get? receipt.capsuleId = some capsule)
      (verified : s.protocol.verifyReceipt receipt = true)
      (unclosed : s.protocol.closures.get? capsule.capsuleId = none)
      (heavy : s.protocol.threshold ≤
        s.protocol.weightOfReceipts ((s.addReceipt receipt).validPool capsule.capsuleId))
      (made : ClosureProof.create ((s.addReceipt receipt).validPool capsule.capsuleId) = .ok closure) :
      Closing s (.deliver (.receipt receipt)) capsule closure s.protocol

/-- What a frame can change. -/
def Causes (s : MosaicNode) (frame : Frame) : NodeEvent → Prop
  | .stored c => frame.Carries c
  | .arrived c => s.Candidate frame c
  | .keptReceipt r => frame = .deliver (.receipt r)
  | .witnessed c _ => s.Candidate frame c
  | .queued c => s.Candidate frame c
  | .pooled r => frame = .deliver (.receipt r)
  | .closed p c closure => s.Closing frame c closure p
  | .stranded p c closure => s.Closing frame c closure p
  | .submitted c => frame = .deliver (.submit c)
  | .answered c _ => frame.Carries c
  | _ => True

/-- What the frames that are left over carry along. -/
def Leaves (s : MosaicNode) (frame : Frame) (frames : List Frame) : Prop :=
  ∀ next ∈ frames, ∀ c, next.Carries c → s.Knows frame c

variable {s u : MosaicNode} {frame : Frame} {capsule : Capsule} {closure : ClosureProof}

theorem Leaves.nil : s.Leaves frame [] := fun _ member => nomatch member

theorem onProtocol_ok {α : Type} {x : Py α} {a : α} {p : Instance} (ran : x s.protocol = .ok a p) :
    onProtocol x s = .ok a (s.setProtocol p) := by
  simp only [onProtocol, onPart, ran]

theorem onProtocol_error {α : Type} {x : Py α} {e : PyError} {p : Instance} (ran : x s.protocol = .error e p) :
    onProtocol x s = .error e (s.setProtocol p) := by
  simp only [onProtocol, onPart, ran]

theorem lookup_guarantees {α : Type} (dictionary : Dict String α) (key : String) :
    Guarantees Eq s (onProtocol (Instance.lookupKey dictionary key))
      (fun value _ => dictionary.get? key = some value) := by
  refine ((Instance.lookupKey_guarantees dictionary key).onPart (T := Eq) ?_).mono ?_
  · rintro t rfl
    rfl
  · rintro value t - ⟨p, -, found⟩
    exact found

theorem lookup_ok {α : Type} {dictionary : Dict String α} {key : String} {value : α}
    (found : dictionary.get? key = some value) :
    onProtocol (Instance.lookupKey dictionary key) s = .ok value s := by
  refine onProtocol_ok ?_
  unfold Instance.lookupKey
  rw [found]
  rfl

theorem persistClosure_ok {predecessor current : StateSeal}
    (known : s.protocol.knownSeals.get? capsule.predecessorId = some predecessor)
    (held : s.protocol.currentSeals.get? predecessor.resourceId = some current) :
    persistClosure capsule closure s = .ok ⟨⟩ { s with log := s.log ++ closingRows closure predecessor current } := by
  unfold persistClosure perform
  simp only [bind_apply, modify_apply, get_apply, logEffect_protocol, lookup_ok known, lookup_ok held]
  simp [logEffect, closingRows]

/-- `register_closure`, `apply` and the rows of the closing. -/
theorem settle_cases (s : MosaicNode) (capsule : Capsule) (closure : ClosureProof) :
    (∃ p predecessor current, s.protocol.Settles capsule closure p ∧
        p.knownSeals.get? capsule.predecessorId = some predecessor ∧
        p.currentSeals.get? predecessor.resourceId = some current ∧
        settle capsule closure s =
          .ok ⟨⟩ { s.setProtocol p with log := s.log ++ closingRows closure predecessor current }) ∨
      (∃ e, s.protocol.Strands capsule closure ∧
        settle capsule closure s = .error e (s.setProtocol (s.protocol.withClosure capsule closure))) ∨
      ∃ e, ¬ s.protocol.Registrable capsule closure ∧ settle capsule closure s = .error e s := by
  by_cases registrable : s.protocol.Registrable capsule closure
  · have registered := onProtocol_ok (Instance.registerClosure_registrable registrable)
    rcases Instance.apply_registered registrable with ⟨applied, p, ran, settles⟩ | ⟨e, raised, strands⟩
    · obtain ⟨predecessor, current, known, held⟩ := settles.lookups
      refine Or.inl ⟨p, predecessor, current, settles, known, held, ?_⟩
      unfold settle
      rw [bind_of_ok registered, bind_of_ok (onProtocol_ok ran)]
      exact persistClosure_ok known held
    · refine Or.inr (Or.inl ⟨e, strands, ?_⟩)
      unfold settle
      rw [bind_of_ok registered, bind_of_error (onProtocol_error raised)]
      rfl
  · obtain ⟨e, raised⟩ := Instance.registerClosure_raises registrable
    refine Or.inr (Or.inr ⟨e, registrable, ?_⟩)
    unfold settle
    rw [bind_of_error (onProtocol_error raised)]
    rfl

theorem perform_guarantees {P : NodeEvent → Prop} {effect : Effect} {event : NodeEvent}
    (update : NodeUpdate event u (u.logEffect effect)) (allowed : P event) :
    Guarantees (NodeTrace P) u (perform effect) (fun _ t => t = u.logEffect effect) :=
  .update (.single update allowed) rfl

theorem broadcast_guarantees (message : Message) (later : List Frame) :
    Guarantees (NodeTrace (s.Causes frame)) u (broadcast message later)
      (fun frames _ => frames = .deliver message :: later) := by
  unfold broadcast
  exact .bind (perform_guarantees .sent trivial) fun _ _ _ _ => .pure rfl

theorem finishPending_guarantees (capsuleId : String) :
    Guarantees (NodeTrace (s.Causes frame)) u (finishPending capsuleId) (fun _ _ => True) := by
  unfold finishPending
  refine .get_bind ?_
  cases waiting : u.pending.get? capsuleId with
  | none => exact .pure trivial
  | some capsule =>
    refine .read_bind (lookup_guarantees _ _) fun predecessor known => ?_
    refine .read_bind (lookup_guarantees _ _) fun current held => ?_
    refine .read_bind (lookup_guarantees _ _) fun closure registered => ?_
    refine .bind (perform_guarantees (.finished waiting ⟨closure, predecessor, current, registered, known, held, rfl⟩)
      trivial) fun _ t _ _ => ?_
    exact .update (.single .popped trivial) trivial

theorem witnessReceipt_guarantees (candidate : s.Candidate frame capsule) (seen : capsule.capsuleId ∈ u.seenCapsules) :
    Guarantees (NodeTrace (s.Causes frame)) u (witnessReceipt capsule) (fun _ _ => True) := by
  unfold witnessReceipt
  refine .get_bind (.bind ((Instance.witnessReceipt_guarantees u.nodeId "ACCEPT").onPart fun p trace =>
    NodeTrace.of_witnessing seen trace fun _ => candidate) ?_)
  rintro receipt t - ⟨p, rfl, mine⟩
  exact .bind (perform_guarantees (.signed mine) trivial) fun _ _ _ _ => .pure trivial

/-- A capsule that is stored is put into the durable store right away. -/
theorem keep_guarantees {α : Type} {rest : PyNode α} {Q : α → MosaicNode → Prop} (mine : frame.Carries capsule)
    (next : Guarantees (NodeTrace (s.Causes frame)) (u.kept capsule) rest Q) :
    Guarantees (NodeTrace (s.Causes frame)) u (do storeCapsule capsule; persistCapsule capsule; rest) Q :=
  .of_run (y := rest) (t := u.kept capsule) rfl (.single .stored mine) next

theorem arrive_guarantees {α : Type} {rest : PyNode α} {Q : α → MosaicNode → Prop} (candidate : s.Candidate frame capsule)
    (next : Guarantees (NodeTrace (s.Causes frame)) ((u.addSeen capsule.capsuleId).kept capsule) rest Q) :
    Guarantees (NodeTrace (s.Causes frame)) u (do
      modify (·.addSeen capsule.capsuleId)
      storeCapsule capsule
      persistCapsule capsule
      rest) Q :=
  .of_run (y := rest) (t := (u.addSeen capsule.capsuleId).kept capsule) rfl (.single .arrived candidate) next

theorem onCapsule_guarantees (candidate : s.Candidate frame capsule) :
    Guarantees (NodeTrace (s.Causes frame)) u (onCapsule capsule) (fun frames _ => s.Leaves frame frames) := by
  have announce : ∀ (t : MosaicNode) (receipt : WitnessReceipt), Guarantees (NodeTrace (s.Causes frame)) t
      (broadcast (.receipt receipt) []) (fun frames _ => s.Leaves frame frames) := by
    intro t receipt
    refine (broadcast_guarantees (.receipt receipt) []).mono ?_
    rintro frames v - rfl next member c carries
    rw [List.mem_singleton.mp member] at carries
    exact carries.elim
  unfold onCapsule
  refine .get_bind ?_
  by_cases seen : capsule.capsuleId ∈ u.seenCapsules
  · rw [if_pos seen]
    by_cases closed : u.protocol.closures.contains capsule.capsuleId = true
    · rw [if_pos closed]
      exact .pure .nil
    rw [if_neg closed]
    refine .bind (witnessReceipt_guarantees candidate seen).outcome fun witnessed t _ _ => ?_
    cases witnessed with
    | ok receipt => exact announce t receipt
    | error e => cases e <;> first | exact .pure .nil | exact .throw _
  · rw [if_neg seen]
    refine arrive_guarantees candidate ?_
    refine .bind (witnessReceipt_guarantees candidate (Finset.mem_insert_self _ _)).outcome fun witnessed t _ _ => ?_
    cases witnessed with
    | ok receipt => exact announce t receipt
    | error e =>
      cases e with
      | capsuleInvalid message =>
        exact .bind (.update (P := fun _ _ => True) (.single .queued candidate) trivial) fun _ _ _ _ => .pure .nil
      | conflictDetected evidence => exact .pure .nil
      | _ => exact .throw _

/-- The loop of `_retry_pending` only witnesses capsules of its entries. -/
theorem retryFrom_guarantees {entries : List (String × Capsule)}
    (candidates : ∀ entry ∈ entries, s.Candidate frame entry.2) :
    Guarantees (NodeTrace (s.Causes frame)) u (retryFrom entries)
      (fun result _ => s.Leaves frame result.1 ∧ ∀ entry ∈ result.2, s.Candidate frame entry.2) := by
  induction entries generalizing u with
  | nil => exact .pure ⟨.nil, by simp⟩
  | cons entry entries ih =>
    obtain ⟨capsuleId, capsule⟩ := entry
    obtain ⟨first, later⟩ := List.forall_mem_cons.mp candidates
    unfold retryFrom
    refine .get_bind ?_
    by_cases retryable : u.retryable capsule = true
    · rw [if_pos retryable]
      refine .bind (.update (P := fun _ _ => True) (.single .woken trivial) trivial) fun _ t _ _ => ?_
      refine .bind (onCapsule_guarantees first) fun frames t _ leaves => ?_
      split
      · exact ih later
      · exact .pure ⟨leaves, later⟩
    · rw [if_neg retryable]
      exact ih later

theorem retryThenFinish_guarantees {entries : List (String × Capsule)} (capsuleId : String)
    (candidates : ∀ entry ∈ entries, s.Candidate frame entry.2) :
    Guarantees (NodeTrace (s.Causes frame)) u (retryThenFinish entries capsuleId)
      (fun frames _ => s.Leaves frame frames) := by
  unfold retryThenFinish
  refine .bind (retryFrom_guarantees candidates).outcome fun retried t _ left => ?_
  rcases retried with e | ⟨frames, later⟩
  · exact .pure .nil
  obtain ⟨leaves, remaining⟩ := left _ rfl
  cases frames with
  | nil => exact .bind (finishPending_guarantees capsuleId) fun _ _ _ _ => .pure .nil
  | cons first frames =>
    refine .pure fun next member c carries => ?_
    rcases List.mem_append.mp member with mine | last
    · exact leaves next mine c carries
    · rw [List.mem_singleton.mp last] at carries
      obtain ⟨id, entry⟩ := carries
      exact Or.inr (Or.inl (remaining _ entry))

/-- Settling makes one change, of a kind that its frame may cause. -/
theorem settle_guarantees (closing : s.Closing frame capsule closure u.protocol) :
    Guarantees (NodeTrace (s.Causes frame)) u (settle capsule closure)
      (fun _ t => t.pendingCapsules = u.pendingCapsules) := by
  rcases settle_cases u capsule closure with ⟨p, predecessor, current, settles, known, held, ran⟩ |
    ⟨e, strands, raised⟩ | ⟨e, -, raised⟩
  · exact .of_ok ran (.single (.closed settles known held) closing) rfl
  · exact .of_error raised (.single (.stranded strands) closing)
  · exact .of_error raised .refl

theorem tryClose_guarantees {receipt : WitnessReceipt} (frame_eq : frame = .deliver (.receipt receipt))
    (new : receipt.receiptId ∉ s.historyOf receipt) (protocol : u.protocol = s.protocol)
    (pool : u.receiptPool = (s.addReceipt receipt).receiptPool)
    (stored : s.protocol.capsules.get? receipt.capsuleId = some capsule)
    (verified : s.protocol.verifyReceipt receipt = true) :
    Guarantees (NodeTrace (s.Causes frame)) u (tryClose capsule) (fun frames _ => s.Leaves frame frames) := by
  unfold tryClose
  refine .get_bind ?_
  by_cases closed : u.protocol.closures.contains capsule.capsuleId = true
  · rw [if_pos closed]
    exact .bind (finishPending_guarantees _) fun _ _ _ _ => .pure .nil
  rw [if_neg closed]
  by_cases light : u.protocol.weightOfReceipts (u.validPool capsule.capsuleId) < u.protocol.threshold
  · simp only [if_pos light]
    exact .pure .nil
  simp only [if_neg light]
  have valid : u.validPool capsule.capsuleId = (s.addReceipt receipt).validPool capsule.capsuleId := by
    simp only [validPool, poolOf, protocol, pool, addReceipt_protocol]
  refine .bind (Guarantees.outcome (Q := fun _ _ => True) (.read_bind
    (Q := fun closure _ => ClosureProof.create (u.validPool capsule.capsuleId) = .ok closure) ?_ fun closure made => ?_))
    fun result t _ _ => ?_
  · refine ((Instance.liftExcept_guarantees _).onPart (T := Eq) ?_).mono ?_
    · rintro p rfl
      rfl
    · rintro closure t - ⟨p, -, made⟩
      exact made
  · have closing : s.Closing frame capsule closure u.protocol := by
      rw [frame_eq, protocol]
      refine .collected new stored verified ?_ ?_ (valid ▸ made)
      · simpa [protocol] using closed
      · exact not_lt.mp (protocol ▸ valid ▸ light)
    exact .bind (settle_guarantees closing) fun _ _ _ _ => .pure trivial
  · cases result with
    | error e => exact .pure .nil
    | ok closure =>
      refine .get_bind ?_
      split
      · exact .bind (finishPending_guarantees _) fun _ _ _ _ => .pure .nil
      · refine .bind (.update (P := fun _ _ => True) (.single .emitted trivial) trivial) fun _ v _ _ => ?_
        refine (broadcast_guarantees _ _).mono ?_
        rintro frames w - rfl next member c carries
        rcases List.mem_pair.mp member with rfl | rfl
        · exact Or.inr (Or.inr ⟨_, carries.symm ▸ stored⟩)
        · exact carries.elim

theorem onReceipt_guarantees (receipt : WitnessReceipt) :
    Guarantees (NodeTrace (s.Causes (.deliver (.receipt receipt)))) s (onReceipt receipt)
      (fun frames _ => s.Leaves (.deliver (.receipt receipt)) frames) := by
  unfold onReceipt
  refine .get_bind ?_
  split
  · exact .pure .nil
  rename_i new
  refine .bind (.update (P := fun _ t => t = s.addReceipt receipt) (.single .pooled rfl) rfl) ?_
  rintro ⟨⟩ _ - rfl
  refine .bind (perform_guarantees .keptReceipt rfl) ?_
  rintro ⟨⟩ _ - rfl
  refine .get_bind ?_
  cases stored : s.protocol.capsules.get? receipt.capsuleId with
  | none =>
    simp only [logEffect_protocol, addReceipt_protocol, stored]
    exact .pure .nil
  | some capsule =>
    simp only [logEffect_protocol, addReceipt_protocol, stored]
    split
    · rename_i verified
      exact tryClose_guarantees rfl new rfl rfl stored verified
    · exact .pure .nil

theorem onClosure_guarantees (capsule : Capsule) (closure : ClosureProof) :
    Guarantees (NodeTrace (s.Causes (.deliver (.closure capsule closure)))) s (onClosure capsule closure)
      (fun frames _ => s.Leaves (.deliver (.closure capsule closure)) frames) := by
  unfold onClosure
  refine keep_guarantees rfl ?_
  refine .bind (settle_guarantees (Closing.delivered capsule closure)).outcome fun settled t _ same => ?_
  cases settled with
  | error e => exact .pure .nil
  | ok =>
    refine .get_bind (retryThenFinish_guarantees _ fun entry member => ?_)
    rw [same _ rfl] at member
    exact ⟨entry.1, member⟩

theorem submit_guarantees (capsule : Capsule) :
    Guarantees (NodeTrace (s.Causes (.deliver (.submit capsule)))) s (submit capsule)
      (fun frames _ => s.Leaves (.deliver (.submit capsule)) frames) := by
  have answer : ∀ (t : MosaicNode) (answer : SubmitReply),
      (answer.ok = true → t.protocol.Announces capsule capsule.capsuleId answer) →
      Guarantees (NodeTrace (s.Causes (.deliver (.submit capsule)))) t (reply capsule answer)
        (fun frames _ => s.Leaves (.deliver (.submit capsule)) frames) := by
    intro t answer announces
    exact .bind (perform_guarantees (.answered announces) rfl) fun _ _ _ _ => .pure .nil
  unfold submit
  refine .get_bind ?_
  split
  · exact answer _ _ (by simp [SubmitReply.ok])
  split
  · exact answer _ _ (by simp [SubmitReply.ok])
  cases registered : s.protocol.closures.get? capsule.capsuleId with
  | some existing =>
    refine .read_bind (lookup_guarantees _ _) fun predecessor known => ?_
    refine .read_bind (lookup_guarantees _ _) fun current held => ?_
    exact answer _ _ fun _ => ⟨existing, predecessor, current, registered, known, held, rfl⟩
  | none =>
    refine keep_guarantees rfl ?_
    refine .read_bind (Guarantees.outcome (Q := fun _ _ => True) ?_) fun validated _ => ?_
    · exact (Instance.validateCapsule_guarantees.onPart (T := Eq) fun p same => same ▸ rfl).mono
        fun _ _ _ _ => trivial
    cases validated with
    | error e =>
      cases e with
      | capsuleInvalid message => exact answer _ _ (by simp [SubmitReply.ok])
      | conflictDetected evidence => exact answer _ _ (by simp [SubmitReply.ok])
      | _ => exact .throw _
    | ok =>
      refine .bind (.update (P := fun _ _ => True) (.single .submitted rfl) trivial) fun _ v _ _ => ?_
      refine (broadcast_guarantees _ _).mono ?_
      rintro frames w - rfl next member c carries
      rcases List.mem_pair.mp member with rfl | rfl
      · exact Or.inl carries
      · exact Or.inl carries

theorem awaitClosure_guarantees (capsule : Capsule) :
    Guarantees (NodeTrace (s.Causes (.await capsule))) s (awaitClosure capsule)
      (fun frames _ => s.Leaves (.await capsule) frames) := by
  unfold awaitClosure
  refine .get_bind ?_
  split
  · refine .bind (.update (P := fun _ _ => True) (.single .popped trivial) trivial) fun _ t _ _ => ?_
    exact .bind (perform_guarantees (.answered (by simp [SubmitReply.ok])) rfl) fun _ _ _ _ => .pure .nil
  · exact .pure .nil

/-- Whatever frame is run, it changes the node as its kind allows, however it
ends, and the frames it leaves only carry capsules that it knew. -/
theorem runFrame_guarantees (s : MosaicNode) (frame : Frame) :
    Guarantees (NodeTrace (s.Causes frame)) s (runFrame frame) (fun frames _ => s.Leaves frame frames) := by
  cases frame with
  | deliver message =>
    cases message with
    | submit capsule => exact submit_guarantees capsule
    | capsule capsule => exact onCapsule_guarantees rfl
    | receipt receipt => exact onReceipt_guarantees receipt
    | closure capsule closure => exact onClosure_guarantees capsule closure
  | finish capsuleId => exact .bind (finishPending_guarantees capsuleId) fun _ _ _ _ => .pure .nil
  | retry entries capsuleId => exact retryThenFinish_guarantees capsuleId fun entry member => ⟨entry.1, member⟩
  | await capsule => exact awaitClosure_guarantees capsule

theorem framesOf_leaves (s : MosaicNode) (frame : Frame) : s.Leaves frame (framesOf (runFrame frame) s) := by
  unfold framesOf
  split
  · rename_i frames t ran
    exact (runFrame_guarantees s frame).returns frames t ran
  · exact .nil

end MosaicNode

end Mosaic
