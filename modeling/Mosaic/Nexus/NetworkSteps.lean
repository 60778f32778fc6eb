import Mosaic.Nexus.Network
import Mosaic.Nexus.Progress

namespace Mosaic.Nexus
open CanonicalJson Effects

variable [Crypto]

namespace DistributedNode
open DomainExecutor

/-- Nothing has changed but votes and counters. -/
structure Quiet (n t : DistributedNode) : Prop where
  nodeId : t.nodeId = n.nodeId
  leaderId : t.leaderId = n.leaderId
  pending : t.pending = n.pending
  futures : t.futures = n.futures
  domain : SameState n.domain t.domain

instance : Std.Refl Quiet := ⟨fun n => ⟨rfl, rfl, rfl, rfl, .refl n.domain⟩⟩

instance : IsTrans DistributedNode Quiet where
  trans _ _ _ first second := {
    nodeId := second.nodeId.trans first.nodeId
    leaderId := second.leaderId.trans first.leaderId
    pending := second.pending.trans first.pending
    futures := second.futures.trans first.futures
    domain := first.domain.trans second.domain }

variable {n t : DistributedNode} {operation : Operation}

theorem onDomain_of_ok {α : Type} {x : PyDomain α} {a : α} {d : DomainExecutor} (run : x n.domain = .ok a d) :
    onDomain x n = .ok a (setDomain d n) := by simp only [onDomain, run]

theorem onDomain_of_error {α : Type} {x : PyDomain α} {e : NexusError} {d : DomainExecutor}
    (run : x n.domain = .error e d) : onDomain x n = .error (.nexus e) (setDomain d n) := by simp only [onDomain, run]

theorem final_onDomain {α : Type} (x : PyDomain α) (n : DistributedNode) :
    final (onDomain x) n = setDomain (final x n.domain) n := by
  cases run : x n.domain with
  | ok a d => rw [final_of_ok run, final_of_ok (onDomain_of_ok run)]
  | error e d => rw [final_of_error run, final_of_error (onDomain_of_error run)]

theorem quiet_onDomain {α : Type} {x : PyDomain α} (same : SameState n.domain (final x n.domain)) :
    Guarantees Quiet n (onDomain x) fun _ _ => True := by
  refine ⟨?_, fun _ _ _ => trivial⟩
  rw [final_onDomain]
  exact ⟨rfl, rfl, rfl, rfl, same⟩

theorem quiet_ofExcept {α : Type} {x : Except NexusError α} :
    Guarantees Quiet n (onDomain (ofExcept x)) fun _ _ => True := by
  refine quiet_onDomain ?_
  cases x with
  | ok a => exact .refl _
  | error e => exact .refl _

theorem quiet_recordVote {vote : Vote} : Guarantees Quiet n (recordVote vote) fun _ _ => True := by
  refine quiet_onDomain ?_
  rw [onCommittee, final_onPart]
  exact ⟨rfl, rfl, rfl, rfl, QuorumCommittee.validators_recordVote _ vote⟩

theorem quiet_issueDac : Guarantees Quiet n (onDomain (onCommittee (QuorumCommittee.issueDac operation))) fun _ _ => True :=
  quiet_onDomain collects_issueDac.moves.sameState

theorem quiet_count {name : String} : Quiet n (count name n) := ⟨rfl, rfl, rfl, rfl, .refl _⟩

theorem quiet_answerRequest {message : Vote → NodeMessage} {phase leaderId : String} :
    Guarantees Quiet n (answerRequest message operation phase leaderId) fun _ _ => True :=
  .get_bind (quiet_ofExcept.bind fun _ _ _ _ => quiet_recordVote.bind fun _ _ _ _ => .pure trivial)

theorem quiet_onPrepareRequest {dac : DataAvailabilityCertificate} {leaderId : String} :
    Guarantees Quiet n (onPrepareRequest operation dac leaderId) fun _ _ => True := by
  refine .get_bind (quiet_ofExcept.bind fun accepted _ _ _ => ?_)
  cases accepted with
  | true => exact quiet_answerRequest
  | false => exact .pure trivial

theorem quiet_onCommitRequest {certificate : Certificate} {leaderId : String} :
    Guarantees Quiet n (onCommitRequest operation certificate leaderId) fun _ _ => True := by
  refine .get_bind (quiet_ofExcept.bind fun accepted _ _ _ => ?_)
  cases accepted with
  | true => exact quiet_answerRequest
  | false => exact .pure trivial

/-- A certificate comes out only for an operation that waits for one. -/
theorem quiet_collectVote {vote : Vote} {phase : String} {held : Pending → Option Certificate} :
    Guarantees Quiet n (collectVote vote phase held) fun result _ =>
      ∀ entry certificate, result = some (entry, certificate) →
        n.pending.get? vote.opId = some entry ∧ held entry = none := by
  have nothing {P : Pending → Certificate → Prop} : ∀ entry certificate,
      (none : Option (Pending × Certificate)) = some (entry, certificate) → P entry certificate :=
    fun _ _ same => absurd same (by simp)
  unfold collectVote
  refine .get_bind ?_
  split
  · exact .pure nothing
  cases found : n.pending.get? vote.opId with
  | none =>
    dsimp only
    exact .pure nothing
  | some entry =>
    dsimp only
    have voted : Guarantees Quiet n (outcome (recordVote vote)) fun _ _ => True :=
      quiet_recordVote.outcome.mono fun _ _ _ _ => trivial
    refine voted.bind fun result u _ _ => ?_
    split
    · have counted : Guarantees Quiet u (modify (count "equivocations") : PyNetwork PUnit) fun _ _ => True :=
        .update quiet_count trivial
      exact counted.bind fun _ _ _ _ => .pure nothing
    · exact .throw _
    · split
      · exact .pure nothing
      · rename_i free
        refine .get_bind ?_
        split
        · exact .pure nothing
        · exact .throw _
        · refine .pure fun entry' certificate same => ?_
          cases same
          exact ⟨rfl, by simpa using free⟩

/-- The committee knows all the ids. -/
def Knows (n : DistributedNode) (ids : List String) : Prop :=
  ∀ id ∈ ids, (n.domain.committee.validators.get? id).isSome

/-- The ids weigh enough. Those that the committee does not know weigh nothing. -/
def Enough (n : DistributedNode) (ids : List String) : Prop :=
  n.domain.committee.threshold ≤ n.domain.committee.weigh ids.toFinset

section Finish
variable {opId : String} {now : Int} {entry : Pending}

theorem maybeFinish_of_missing (missing : n.pending.get? opId = none) : maybeFinish opId now n = .ok ⟨⟩ n := by
  unfold maybeFinish
  rw [get_bind_apply, missing]
  rfl

theorem maybeFinish_of_done (found : n.pending.get? opId = some entry) (done : n.futureDone entry = true) :
    maybeFinish opId now n = .ok ⟨⟩ n := by
  unfold maybeFinish
  rw [get_bind_apply, found]
  dsimp only
  rw [if_pos done]
  rfl

theorem maybeFinish_of_early (found : n.pending.get? opId = some entry)
    (early : ¬ (n.Knows entry.ackIds ∧ n.Enough entry.ackIds)) : maybeFinish opId now n = .ok ⟨⟩ n := by
  by_cases done : n.futureDone entry = true
  · exact maybeFinish_of_done found done
  unfold maybeFinish
  rw [get_bind_apply, found]
  dsimp only
  rw [if_neg done]
  rcases n.domain.committee.weightOf_cases entry.ackIds with ⟨known, weighed⟩ | ⟨-, key, raised⟩
  · have light : n.domain.committee.weigh entry.ackIds.toFinset < n.domain.committee.threshold :=
      not_le.mp fun enough => early ⟨known, enough⟩
    rw [weighed]
    dsimp only
    rw [if_pos light]
    rfl
  · rw [raised]
    rfl

/-- The id of the certificate is read before there is one. -/
theorem maybeFinish_of_uncertified (found : n.pending.get? opId = some entry) (waits : n.futureDone entry = false)
    (known : n.Knows entry.ackIds) (enough : n.Enough entry.ackIds) (none' : entry.commitCertificate = none) :
    maybeFinish opId now n = .error .attributeError n := by
  unfold maybeFinish
  rw [get_bind_apply, found]
  dsimp only
  rw [if_neg (by simp [waits])]
  rcases n.domain.committee.weightOf_cases entry.ackIds with ⟨-, weighed⟩ | ⟨unknown, -⟩
  · rw [weighed]
    dsimp only
    rw [if_neg (not_lt.mpr enough), none']
    rfl
  · exact absurd known unknown

theorem maybeFinish_of_certified (found : n.pending.get? opId = some entry) (waits : n.futureDone entry = false)
    (known : n.Knows entry.ackIds) (enough : n.Enough entry.ackIds) {certificate : Certificate}
    (certified : entry.commitCertificate = some certificate) :
    ∃ answer : SubmitAnswer, answer.opId = opId ∧
      maybeFinish opId now n = .ok ⟨⟩ (popPending opId (setFuture entry.future (.finished answer) n)) := by
  refine ⟨⟨opId, certificate.certificateId, sorted entry.ackIds, n.domain.committee.weigh entry.ackIds.toFinset,
    now - entry.startedNs, n.metrics⟩, rfl, ?_⟩
  unfold maybeFinish
  rw [get_bind_apply, found]
  dsimp only
  rw [if_neg (by simp [waits])]
  rcases n.domain.committee.weightOf_cases entry.ackIds with ⟨-, weighed⟩ | ⟨unknown, -⟩
  · rw [weighed]
    dsimp only
    rw [if_neg (not_lt.mpr enough), certified]
    rfl
  · exact absurd known unknown

/-- It changes nothing, or it answers one submission. -/
theorem maybeFinish_cases (n : DistributedNode) (opId : String) (now : Int) :
    final (maybeFinish opId now) n = n ∨ ∃ entry answer, n.pending.get? opId = some entry ∧
      n.futureDone entry = false ∧ n.Knows entry.ackIds ∧ answer.opId = opId ∧
        final (maybeFinish opId now) n = popPending opId (setFuture entry.future (.finished answer) n) := by
  cases found : n.pending.get? opId with
  | none => exact Or.inl (final_of_ok (maybeFinish_of_missing found))
  | some entry =>
    cases done : n.futureDone entry with
    | true => exact Or.inl (final_of_ok (maybeFinish_of_done found done))
    | false =>
      by_cases ready : n.Knows entry.ackIds ∧ n.Enough entry.ackIds
      · cases certified : entry.commitCertificate with
        | none => exact Or.inl (final_of_error (maybeFinish_of_uncertified found done ready.1 ready.2 certified))
        | some certificate =>
          obtain ⟨answer, named, run⟩ := @maybeFinish_of_certified _ n opId now entry found done ready.1 ready.2 certificate certified
          exact Or.inr ⟨entry, answer, rfl, done, ready.1, named, final_of_ok run⟩
      · exact Or.inl (final_of_ok (maybeFinish_of_early found ready))

end Finish

end DistributedNode

/-- The ids that an event acknowledges an operation under. -/
def NodeEvent.acks (opId : String) : NodeEvent → List String
  | .arrives (.ack opId' nodeId) _ => if opId' = opId then [nodeId] else []
  | _ => []

/-- The event ends in `_maybe_finish` for the operation. -/
def NodeEvent.Finishes (opId : String) : NodeEvent → Prop
  | .arrives (.ack opId' _) _ => opId' = opId
  | .broadcasted opId' _ => opId' = opId
  | _ => False

namespace DistributedNode
open DomainExecutor

variable {n t : DistributedNode} {operation : Operation} {event : NodeEvent}

/-- `_maybe_finish` answers the submission of an operation. -/
def Answered (n : DistributedNode) (opId : String) (t : DistributedNode) : Prop :=
  ∃ entry answer, n.pending.get? opId = some entry ∧ n.futureDone entry = false ∧ n.Knows entry.ackIds ∧
    answer.opId = opId ∧ t = popPending opId (setFuture entry.future (.finished answer) n)

/-- The submissions stand as they did. -/
def SameBooks (n t : DistributedNode) : Prop := t.pending = n.pending ∧ t.futures = n.futures

instance : Std.Refl SameBooks := ⟨fun _ => ⟨rfl, rfl⟩⟩

instance : IsTrans DistributedNode SameBooks where
  trans _ _ _ first second := ⟨second.1.trans first.1, second.2.trans first.2⟩

/-- A vote has completed a certificate for an operation. -/
structure Certifies (n : DistributedNode) (opId : String) (entry : Pending) (u : DistributedNode) : Prop where
  same : Quiet n u
  found : n.pending.get? opId = some entry

inductive Effect (n : DistributedNode) (event : NodeEvent) (t : DistributedNode) : Prop
  | quiet (silent : ∀ opId, event.acks opId = []) (same : Quiet n t)
  | followed (follows : n.nodeId ≠ n.leaderId) (same : SameBooks n t)
  | submitted (silent : ∀ opId, event.acks opId = []) {u : DistributedNode} (same : Quiet n u) (operation : Operation)
      (dac : DataAvailabilityCertificate) (now : Int) (free : n.pending.get? operation.opId = none)
      (ends : t = setPending operation.opId ⟨operation, dac, n.futures.length, now, none, none, []⟩ (createFuture u))
  | prepared (silent : ∀ opId, event.acks opId = []) {u : DistributedNode} (opId : String) (entry : Pending)
      (certificate : Certificate) (certifies : n.Certifies opId entry u)
      (ends : t = setPending opId { entry with prepareCertificate := some certificate } u)
  | certified (silent : ∀ opId, event.acks opId = []) {u : DistributedNode} (opId : String) (entry : Pending)
      (certificate : Certificate) (certifies : n.Certifies opId entry u)
      (ends : t = setPending opId { entry with commitCertificate := some certificate } u)
  | applied (silent : ∀ opId, event.acks opId = []) {u : DistributedNode} (opId : String) (entry : Pending)
      (certificate : Certificate) (certifies : n.Certifies opId entry u)
      (ends : t = setPending opId
        { entry with commitCertificate := some certificate, ackIds := entry.ackIds.insert u.nodeId }
        (setDomain (u.domain.applied entry.operation certificate) u))
  | finished (silent : ∀ opId, event.acks opId = []) (opId : String) (answered : n.Answered opId t)
  | ignored (opId nodeId : String) (acks : ∀ opId', event.acks opId' = if opId = opId' then [nodeId] else [])
      (missing : n.pending.get? opId = none) (ends : t = n)
  | acked (opId nodeId : String) (acks : ∀ opId', event.acks opId' = if opId = opId' then [nodeId] else [])
      (entry : Pending) (found : n.pending.get? opId = some entry) {u : DistributedNode}
      (noted : u = setPending opId { entry with ackIds := entry.ackIds.insert nodeId } n)
      (ends : t = u ∨ u.Answered opId t)
  | cancelled (future : Nat) (event' : event = .expires future) (waits : n.futures[future]? = some .waiting)
      (ends : t = setFuture future .cancelled n)
  | withdrawn (silent : ∀ opId, event.acks opId = []) (opId : String) (entry : Pending)
      (found : n.pending.get? opId = some entry) (cancelled : n.futures[entry.future]? = some .cancelled)
      (ends : t = popPending opId n)

theorem answered_or_same (n : DistributedNode) (opId : String) (now : Int) :
    final (maybeFinish opId now) n = n ∨ n.Answered opId (final (maybeFinish opId now) n) := by
  rcases maybeFinish_cases n opId now with same | ⟨entry, answer, found, waits, known, named, ends⟩
  · exact Or.inl same
  · exact Or.inr ⟨entry, answer, found, waits, known, named, ends⟩

theorem effect_submit {now : Int} (silent : ∀ opId, event.acks opId = []) :
    n.Effect event (final (submit operation now) n) := by
  unfold submit
  change n.Effect event (final (if n.nodeId ≠ n.leaderId then _ else _) n)
  split
  · exact .quiet silent (Std.Refl.refl n)
  split
  · exact .quiet silent (Std.Refl.refl n)
  rename_i free
  have checked := @quiet_ofExcept _ n _ (n.domain.validateOperation operation)
  cases validated : onDomain (ofExcept (n.domain.validateOperation operation)) n with
  | error e u =>
    rw [final_bind_of_error validated]
    exact .quiet silent (checked.step_error validated)
  | ok _ u =>
    rw [final_bind_of_ok validated]
    have issues := @quiet_issueDac _ u operation
    cases issued : onDomain (onCommittee (QuorumCommittee.issueDac operation)) u with
    | error e v =>
      rw [final_bind_of_error issued]
      exact .quiet silent (IsTrans.trans _ _ _ (checked.step validated) (issues.step_error issued))
    | ok dac v =>
      rw [final_bind_of_ok issued]
      exact .submitted silent (IsTrans.trans _ _ _ (checked.step validated) (issues.step issued)) operation dac now
        (by simpa using free) rfl

theorem effect_onPrepareVote {vote : Vote} (silent : ∀ opId, event.acks opId = []) :
    n.Effect event (final (onPrepareVote vote) n) := by
  have collects := @quiet_collectVote _ n vote "PREPARE" Pending.prepareCertificate
  unfold onPrepareVote
  cases collected : collectVote vote "PREPARE" Pending.prepareCertificate n with
  | error e u =>
    rw [final_bind_of_error collected]
    exact .quiet silent (collects.step_error collected)
  | ok result u =>
    rw [final_bind_of_ok collected]
    cases result with
    | none => exact .quiet silent (collects.step collected)
    | some issued =>
      obtain ⟨found, -⟩ := collects.returns _ u collected issued.1 issued.2 rfl
      exact .prepared silent vote.opId issued.1 issued.2 ⟨collects.step collected, found⟩ rfl

theorem effect_onCommitVote {vote : Vote} (silent : ∀ opId, event.acks opId = []) :
    n.Effect event (final (onCommitVote vote) n) := by
  have collects := @quiet_collectVote _ n vote "COMMIT" Pending.commitCertificate
  unfold onCommitVote
  cases collected : collectVote vote "COMMIT" Pending.commitCertificate n with
  | error e u =>
    rw [final_bind_of_error collected]
    exact .quiet silent (collects.step_error collected)
  | ok result u =>
    rw [final_bind_of_ok collected]
    cases result with
    | none => exact .quiet silent (collects.step collected)
    | some issued =>
      obtain ⟨entry, certificate⟩ := issued
      obtain ⟨found, -⟩ := collects.returns _ u collected entry certificate rfl
      let held := setPending vote.opId { entry with commitCertificate := some certificate } u
      dsimp only
      rw [final_bind_of_ok (modify_apply _ _)]
      rcases applyCommitted_cases held.domain entry.operation certificate with ⟨error, raised⟩ | ⟨-, -, ran⟩
      · rw [final_bind_of_error (onDomain_of_error raised)]
        exact .certified silent vote.opId entry certificate ⟨collects.step collected, found⟩ rfl
      · rw [final_bind_of_ok (onDomain_of_ok ran)]
        refine .applied silent vote.opId entry certificate ⟨collects.step collected, found⟩ ?_
        change setPending vote.opId _ (setDomain _ held) = _
        simp only [held, setPending, setDomain, Dict.set_set]

theorem effect_onCommitCertificate {certificate : Certificate} {leaderId : String}
    (silent : ∀ opId, event.acks opId = []) :
    n.Effect event (final (onCommitCertificate operation certificate leaderId) n) := by
  by_cases leads : n.nodeId = n.leaderId
  · have nothing : final (onCommitCertificate operation certificate leaderId) n = n := by
      unfold onCommitCertificate
      exact final_of_ok (by rw [get_bind_apply, if_pos leads]; rfl)
    rw [nothing]
    exact .quiet silent (Std.Refl.refl n)
  · have onDomain' {α : Type} {x : PyDomain α} {u : DistributedNode} :
        Guarantees SameBooks u (onDomain x) fun _ _ => True := by
      refine ⟨?_, fun _ _ _ => trivial⟩
      rw [final_onDomain]
      exact ⟨rfl, rfl⟩
    have keeps : Guarantees SameBooks n (onCommitCertificate operation certificate leaderId) fun _ _ => True := by
      unfold onCommitCertificate
      refine .get_bind ?_
      rw [if_neg leads]
      refine onDomain'.bind fun accepted _ _ _ => ?_
      cases accepted with
      | true => exact onDomain'.bind fun _ _ _ _ => .pure trivial
      | false => exact .pure trivial
    exact .followed leads keeps.moves

theorem effect_onAck {opId nodeId : String} {now : Int}
    (acks : ∀ opId', event.acks opId' = if opId = opId' then [nodeId] else []) :
    n.Effect event (final (onAck opId nodeId now) n) := by
  unfold onAck
  cases found : n.pending.get? opId with
  | none => exact .ignored opId nodeId acks found (by simp only [final, get_bind_apply, found, pure_apply])
  | some entry =>
    refine .acked opId nodeId acks entry found rfl ?_
    have ends : final (onAck opId nodeId now) n =
        final (maybeFinish opId now) (setPending opId { entry with ackIds := entry.ackIds.insert nodeId } n) := by
      simp only [onAck, final, get_bind_apply, found]
      rfl
    unfold onAck at ends
    rw [ends]
    exact answered_or_same _ opId now

/-- What an event does is one of these. -/
theorem effect_exec (n : DistributedNode) (event : NodeEvent) : n.Effect event (event.exec n) := by
  cases event with
  | arrives message now =>
    change n.Effect _ (final (discard (dispatch message now)) n)
    rw [final_discard]
    cases message with
    | submit operation => exact effect_submit fun _ => rfl
    | prepareRequest operation dac leaderId => exact .quiet (fun _ => rfl) quiet_onPrepareRequest.moves
    | prepareVote vote => exact effect_onPrepareVote fun _ => rfl
    | commitRequest operation certificate leaderId => exact .quiet (fun _ => rfl) quiet_onCommitRequest.moves
    | commitVote vote => exact effect_onCommitVote fun _ => rfl
    | commitCertificate operation certificate leaderId => exact effect_onCommitCertificate fun _ => rfl
    | ack opId nodeId =>
      have ends : final (dispatch (.ack opId nodeId) now) n = final (onAck opId nodeId now) n := by
        change final (onAck opId nodeId now >>= fun _ => pure ({} : Reaction)) n = _
        cases run : onAck opId nodeId now n with
        | ok _ u => rw [final_of_ok run, final_bind_of_ok run]; rfl
        | error e u => rw [final_of_error run, final_bind_of_error run]
      rw [ends]
      exact effect_onAck fun _ => rfl
    | shutdown => exact .quiet (fun _ => rfl) ⟨rfl, rfl, rfl, rfl, .refl _⟩
    | metrics => exact .quiet (fun _ => rfl) (Std.Refl.refl n)
    | unknown messageType => exact .quiet (fun _ => rfl) quiet_count
  | broadcasted opId now =>
    change n.Effect _ (final (maybeFinish opId now) n)
    rcases answered_or_same n opId now with same | answered
    · rw [same]
      exact .quiet (fun _ => rfl) (Std.Refl.refl n)
    · exact .finished (fun _ => rfl) opId answered
  | expires future =>
    change n.Effect _ (expire future n)
    unfold expire
    split
    · rename_i waits
      exact .cancelled future rfl waits rfl
    · exact .quiet (fun _ => rfl) (Std.Refl.refl n)
  | withdraws opId =>
    change n.Effect _ (withdraw opId n)
    unfold withdraw
    split
    · rename_i entry found
      split
      · rename_i cancelled
        exact .withdrawn (fun _ => rfl) opId entry found cancelled rfl
      · exact .quiet (fun _ => rfl) (Std.Refl.refl n)
    · exact .quiet (fun _ => rfl) (Std.Refl.refl n)
  | counts metrics => exact .quiet (fun _ => rfl) ⟨rfl, rfl, rfl, rfl, .refl _⟩

/-- The committee of a leader stays the same. -/
theorem Effect.validators (effect : n.Effect event t) (leads : n.nodeId = n.leaderId) :
    t.domain.committee.validators = n.domain.committee.validators := by
  have answered {m t : DistributedNode} {opId : String} (answered : m.Answered opId t) : t.domain = m.domain := by
    obtain ⟨_, _, -, -, -, -, rfl⟩ := answered
    rfl
  cases effect with
  | quiet _ same => exact same.domain.validators
  | followed follows _ => exact absurd leads follows
  | submitted _ same operation dac now free ends => exact ends ▸ same.domain.validators
  | prepared _ opId entry certificate certifies ends => exact ends ▸ certifies.same.domain.validators
  | certified _ opId entry certificate certifies ends => exact ends ▸ certifies.same.domain.validators
  | applied _ opId entry certificate certifies ends => exact ends ▸ certifies.same.domain.validators
  | finished _ opId answers => rw [answered answers]
  | ignored opId nodeId _ _ ends => rw [ends]
  | acked opId nodeId _ entry found noted ends =>
    rename_i u
    have same : u.domain = n.domain := by
      rw [noted]
      rfl
    rcases ends with rfl | answers
    · rw [same]
    · rw [answered answers, same]
  | cancelled future _ _ ends => rw [ends]; rfl
  | withdrawn _ opId entry _ _ ends => rw [ends]; rfl

end DistributedNode

end Mosaic.Nexus
