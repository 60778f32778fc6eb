import Mosaic.Nexus.Submissions
import Mosaic.Nexus.CertificateConflicts

namespace Mosaic.Nexus
open CanonicalJson Effects

variable [Crypto]

namespace DistributedNode
open DomainExecutor

variable {n t u : DistributedNode} {operation : Operation} {event : NodeEvent} {future : Nat} {opId : String}
  {ids : List String}

/-- No commit certificate has been issued for the operation. -/
def Uncertified (n : DistributedNode) (operation : Operation) : Prop :=
  ∀ entry, n.pending.get? operation.opId = some entry → entry.commitCertificate = none

/-- The three ways in which `_maybe_finish` can end. -/
theorem Awaits.finish (awaits : n.Awaits operation future ids) (now : Int) :
    ¬ (n.Knows (n.acknowledged operation ids) ∧ n.Enough (n.acknowledged operation ids)) ∧
        maybeFinish operation.opId now n = .ok ⟨⟩ n ∨
      n.Knows (n.acknowledged operation ids) ∧ n.Enough (n.acknowledged operation ids) ∧
        (n.Uncertified operation ∧ maybeFinish operation.opId now n = .error .attributeError n ∨
          ¬ n.Uncertified operation ∧ ∃ t, maybeFinish operation.opId now n = .ok ⟨⟩ t ∧ t.Resolved operation future) := by
  obtain ⟨entry, found, holds⟩ := awaits.held
  have waits := awaits.waiting holds
  have knows : n.Knows entry.ackIds ↔ n.Knows (n.acknowledged operation ids) :=
    forall_congr' fun id => imp_congr_left (holds.acks id)
  have enough : n.Enough entry.ackIds ↔ n.Enough (n.acknowledged operation ids) := by
    have same : entry.ackIds.toFinset = (n.acknowledged operation ids).toFinset := by
      ext id
      rw [List.mem_toFinset, List.mem_toFinset, holds.acks]
    rw [Enough, Enough, same]
  rw [← knows, ← enough]
  by_cases ready : n.Knows entry.ackIds ∧ n.Enough entry.ackIds
  · refine Or.inr ⟨ready.1, ready.2, ?_⟩
    cases certified : entry.commitCertificate with
    | none =>
      refine Or.inl ⟨fun other there => ?_, maybeFinish_of_uncertified found waits ready.1 ready.2 certified⟩
      rw [found] at there
      cases there
      exact certified
    | some certificate =>
      refine Or.inr ⟨fun none' => ?_, ?_⟩
      · rw [none' entry found] at certified
        cases certified
      · obtain ⟨answer, named, run⟩ := maybeFinish_of_certified found waits ready.1 ready.2 certified
        refine ⟨_, run, answer, ?_, named⟩
        rw [holds.waitsFor]
        exact awaits.getElem?_setFuture _
  · exact Or.inl ⟨ready, maybeFinish_of_early found ready⟩

section Claim
variable {earlier : List NodeEvent} {nodeId : String} {now : Int}

/-- What an event does for a submission after an earlier part of the run: an
acknowledgement does not raise, unless it is for a later submission of the operation,
and once the operation is applied the submission is answered as soon as the ids that
have come in weigh enough, unless its time is up. -/
structure Prompt (n : DistributedNode) (operation : Operation) (future : Nat) (earlier : List NodeEvent)
    (event : NodeEvent) : Prop where
  returns : (∀ entry, n.pending.get? operation.opId = some entry → entry.future = future) →
    ∀ nodeId now, event = .arrives (.ack operation.opId nodeId) now → ∃ t, event.run n = .ok ⟨⟩ t
  resolves : event.Finishes operation.opId → .expires future ∉ earlier → n.Applied operation →
    n.Enough (n.acknowledged operation (received operation (earlier ++ [event]))) →
    (event.exec n).Resolved operation future

/-- What the event must leave alone: ids that suffice do not come in before there is
a certificate, and afterwards no unknown id is among those that suffice. -/
structure Sound (n : DistributedNode) (operation : Operation) (earlier : List NodeEvent) (event : NodeEvent) : Prop where
  certified : ∀ nodeId now, event = .arrives (.ack operation.opId nodeId) now → n.Uncertified operation →
    ¬ (n.Knows (n.acknowledged operation (received operation (earlier ++ [event]))) ∧
      n.Enough (n.acknowledged operation (received operation (earlier ++ [event]))))
  known : event.Finishes operation.opId → n.Applied operation →
    n.Enough (n.acknowledged operation (received operation (earlier ++ [event]))) →
    n.Knows (n.acknowledged operation (received operation (earlier ++ [event])))

/-- The node when `_maybe_finish` begins for an acknowledged operation. -/
theorem Awaits.noted (awaits : n.Awaits operation future ids) (nodeId : String) (now : Int) :
    ∃ m, m.Awaits operation future (ids ++ [nodeId]) ∧ m.nodeId = n.nodeId ∧ m.domain = n.domain ∧
      (m.Uncertified operation ↔ n.Uncertified operation) ∧ onAck operation.opId nodeId now n =
        maybeFinish operation.opId now m := by
  obtain ⟨entry, found, holds⟩ := awaits.held
  have next := awaits.acked found nodeId
  rw [if_pos rfl] at next
  refine ⟨_, next, rfl, rfl, ?_, ?_⟩
  · constructor
    · intro none' entry' there
      rw [found] at there
      cases there
      exact none' { entry with ackIds := entry.ackIds.insert nodeId } (Dict.get?_set_self _ _ _)
    · intro none' entry' there
      have own : (n.pending.set operation.opId { entry with ackIds := entry.ackIds.insert nodeId }).get?
          operation.opId = some entry' := there
      rw [Dict.get?_set_self] at own
      cases own
      exact none' entry found
  · unfold onAck
    rw [get_bind_apply, found]
    rfl

omit operation in
theorem run_ack_of_ok (ran : onAck opId nodeId now n = .ok ⟨⟩ t) :
    NodeEvent.run (.arrives (.ack opId nodeId) now) n = .ok ⟨⟩ t := by
  have dispatched : dispatch (.ack opId nodeId) now n = .ok {} t := bind_of_ok ran
  exact bind_of_ok dispatched

theorem run_ack_of_error {e : NetworkError} (raised : onAck opId nodeId now n = .error e t) :
    NodeEvent.run (.arrives (.ack opId nodeId) now) n = .error e t := by
  have dispatched : dispatch (.ack opId nodeId) now n = .error e t := bind_of_error raised
  exact bind_of_error dispatched

theorem Awaits.only (awaits : n.Awaits operation future ids) (entry : Pending)
    (found : n.pending.get? operation.opId = some entry) : entry.future = future := by
  obtain ⟨own, there, holds⟩ := awaits.held
  rw [found] at there
  cases there
  exact holds.waitsFor

/-- An acknowledgement for a submission that is done changes nothing that matters. -/
theorem onAck_of_done {value : SubmitFuture} (done : value ≠ .waiting) (there : n.futures[future]? = some value)
    (only : ∀ entry, n.pending.get? opId = some entry → entry.future = future) :
    ∃ t, onAck opId nodeId now n = .ok ⟨⟩ t := by
  unfold onAck
  cases found : n.pending.get? opId with
  | none => exact ⟨n, by rw [get_bind_apply, found]; rfl⟩
  | some entry =>
    rw [get_bind_apply, found]
    dsimp only
    rw [bind_of_ok (modify_apply _ _)]
    refine ⟨_, maybeFinish_of_done (Dict.get?_set_self _ _ _) (futureDone_of_done done ?_)⟩
    exact (congrArg (n.futures[·]?) (only entry found)).trans there

theorem prompt_iff_of_ack (awaits : n.Awaits operation future (received operation earlier))
    (running : .expires future ∉ earlier) :
    n.Prompt operation future earlier (.arrives (.ack operation.opId nodeId) now) ↔
      n.Sound operation earlier (.arrives (.ack operation.opId nodeId) now) := by
  obtain ⟨m, next, same, domain, uncertified, run⟩ := awaits.noted nodeId now
  have ids : m.acknowledged operation (received operation earlier ++ [nodeId]) =
      n.acknowledged operation (received operation (earlier ++ [.arrives (.ack operation.opId nodeId) now])) := by
    rw [received_snoc, NodeEvent.acks, if_pos rfl, acknowledged, acknowledged, same, domain]
  have cases' := next.finish now
  rw [ids, uncertified, ← run, Knows, Enough, domain] at cases'
  rcases cases' with ⟨short, ran⟩ | ⟨known, enough, ⟨none', raised⟩ | ⟨some', t, ran, resolved⟩⟩
  · have still : NodeEvent.exec (.arrives (.ack operation.opId nodeId) now) n = m := final_of_ok (run_ack_of_ok ran)
    constructor
    · intro prompt
      refine ⟨fun _ _ _ _ both => short both, fun finishes applied enough => ?_⟩
      have resolved := prompt.resolves finishes running applied enough
      rw [still] at resolved
      exact absurd resolved next.unresolved
    · intro sound
      refine ⟨?_, fun finishes _ applied enough => absurd ⟨sound.known finishes applied enough, enough⟩ short⟩
      rintro - _ _ ⟨⟩
      exact ⟨m, run_ack_of_ok ran⟩
  · refine iff_of_false (fun prompt => ?_) fun sound => sound.certified _ _ rfl none' ⟨known, enough⟩
    obtain ⟨t, ran⟩ := prompt.returns awaits.only _ _ rfl
    rw [run_ack_of_error raised] at ran
    cases ran
  · refine iff_of_true ⟨?_, fun _ _ _ _ => ?_⟩ ⟨fun _ _ _ none' => absurd none' some', fun _ _ _ => known⟩
    · rintro - _ _ ⟨⟩
      exact ⟨t, run_ack_of_ok ran⟩
    · rw [NodeEvent.exec, final_of_ok (run_ack_of_ok ran)]
      exact resolved

theorem prompt_iff_of_broadcasted (awaits : n.Awaits operation future (received operation earlier))
    (running : .expires future ∉ earlier) :
    n.Prompt operation future earlier (.broadcasted operation.opId now) ↔
      n.Sound operation earlier (.broadcasted operation.opId now) := by
  have ids : received operation (earlier ++ [.broadcasted operation.opId now]) = received operation earlier := by
    rw [received_snoc]
    exact List.append_nil _
  have cases' := awaits.finish now
  rw [← ids] at cases'
  rcases cases' with ⟨short, ran⟩ | ⟨known, enough, ⟨none', -⟩ | ⟨-, t, ran, resolved⟩⟩
  · have still : NodeEvent.exec (.broadcasted operation.opId now) n = n := final_of_ok ran
    constructor
    · intro prompt
      refine ⟨nofun, fun finishes applied enough => ?_⟩
      have resolved := prompt.resolves finishes running applied enough
      rw [still] at resolved
      exact absurd resolved awaits.unresolved
    · intro sound
      exact ⟨fun _ => nofun, fun finishes _ applied enough => absurd ⟨sound.known finishes applied enough, enough⟩ short⟩
  · -- the broadcast is over before there is a certificate: no run of the code has such an event
    refine iff_of_true ⟨fun _ => nofun, fun _ _ applied _ => ?_⟩ ⟨nofun, fun _ _ _ => known⟩
    obtain ⟨entry, found, holds⟩ := awaits.held
    have certified := holds.certified applied
    rw [none' entry found] at certified
    cases certified
  · refine iff_of_true ⟨fun _ => nofun, fun _ _ _ _ => ?_⟩ ⟨nofun, fun _ _ _ => known⟩
    have ends : NodeEvent.exec (.broadcasted operation.opId now) n = t := final_of_ok ran
    rw [ends]
    exact resolved

/-- Any other event leaves the submission alone. -/
theorem prompt_iff_of_other (other : ¬ event.Finishes operation.opId) :
    n.Prompt operation future earlier event ↔ n.Sound operation earlier event := by
  refine iff_of_true ⟨?_, fun finishes => absurd finishes other⟩ ⟨?_, fun finishes => absurd finishes other⟩
  · rintro - nodeId now rfl
    exact absurd rfl other
  · rintro nodeId now rfl
    exact absurd rfl other

theorem Awaits.prompt_iff (awaits : n.Awaits operation future (received operation earlier))
    (running : .expires future ∉ earlier) (event : NodeEvent) :
    n.Prompt operation future earlier event ↔ n.Sound operation earlier event := by
  by_cases finishes : event.Finishes operation.opId
  · cases event with
    | arrives message now =>
      cases message with
      | ack opId nodeId =>
        cases finishes
        exact prompt_iff_of_ack awaits running
      | _ => exact finishes.elim
    | broadcasted opId now =>
      cases finishes
      exact prompt_iff_of_broadcasted awaits running
    | _ => exact finishes.elim
  · exact prompt_iff_of_other finishes

end Claim

/-- A node that has come from its start by any events. -/
def Reached (n : DistributedNode) : Prop :=
  ∃ nodeId peers leaderId validator byzantine domain events,
    n = (new nodeId peers leaderId validator byzantine domain).after events

theorem fresh_filed (nodeId leaderId : String) (peers : List String) (validator : Validator) (byzantine : Bool)
    (domain : DomainExecutor) : (new nodeId peers leaderId validator byzantine domain).Filed where
  keyed _ _ found := by cases found
  created _ _ found := by cases found

theorem valid_of_validated (checked : onDomain (ofExcept (n.domain.validateOperation operation)) n = .ok ⟨⟩ t) :
    n.domain.Valid operation := by
  cases validated : n.domain.validateOperation operation with
  | error e =>
    rw [validated] at checked
    cases checked
  | ok _ => exact validateOperation_eq_ok.mp validated

/-- What `_submit` files waits for its answer. -/
theorem awaits_submitted (filed : n.Filed) (same : Quiet n u) (leads : n.nodeId = n.leaderId)
    (free : n.pending.get? operation.opId = none) (fresh : operation.opId ∉ n.domain.committedOperations)
    {dac : DataAvailabilityCertificate} {started : Int} :
    (setPending operation.opId ⟨operation, dac, n.futures.length, started, none, none, []⟩ (createFuture u)).Awaits
      operation n.futures.length [] := by
  have unapplied : ¬ u.Applied operation := by
    rw [Applied, same.domain.committedOperations]
    exact fresh
  have length : (u.futures ++ [SubmitFuture.waiting]).length = n.futures.length + 1 := by
    rw [List.length_append, same.futures, List.length_singleton]
  have effect : n.Effect (.counts .empty) (setPending operation.opId
      ⟨operation, dac, n.futures.length, started, none, none, []⟩ (createFuture u)) :=
    .submitted (fun _ => rfl) same operation dac started free rfl
  refine ⟨filed.effect effect, ?_, ?_,
    ⟨_, Dict.get?_set_self _ _ _, rfl, rfl, fun id => ?_, fun applied => absurd applied unapplied⟩, ?_⟩
  · change u.nodeId = u.leaderId
    rw [same.nodeId, same.leaderId, leads]
  · change (u.futures ++ [SubmitFuture.waiting])[n.futures.length]? = some .waiting
    rw [← same.futures]
    exact List.getElem?_concat_length
  · rw [mem_acknowledged]
    exact iff_of_false List.not_mem_nil fun either => either.elim List.not_mem_nil fun both => unapplied both.1
  · intro opId entry found waitsFor
    rcases Dict.origin_of_get?_set found with ⟨rfl, -⟩ | earlier
    · rfl
    · change u.pending.get? opId = some entry at earlier
      rw [same.pending] at earlier
      exact absurd waitsFor (Nat.ne_of_lt (filed.created _ _ earlier))

/-- A submission that is not refused waits. -/
theorem submitted_awaits (reached : n.Reached) {started : Int} {reaction : Reaction}
    (submitted : submit operation started n = .ok reaction t) (accepted : reaction.reply = none) :
    t.Awaits operation n.futures.length [] := by
  obtain ⟨nodeId, peers, leaderId, validator, byzantine, domain, events, rfl⟩ := reached
  have filed := (fresh_filed nodeId leaderId peers validator byzantine domain).after events
  generalize (new nodeId peers leaderId validator byzantine domain).after events = n at filed submitted ⊢
  unfold submit at submitted
  rw [get_bind_apply] at submitted
  by_cases leads : n.nodeId ≠ n.leaderId
  · rw [if_pos leads] at submitted
    cases submitted
    cases accepted
  rw [if_neg leads] at submitted
  by_cases held : (n.pending.get? operation.opId).isSome
  · rw [if_pos held] at submitted
    cases submitted
    cases accepted
  rw [if_neg held] at submitted
  obtain ⟨_, u, checked, submitted⟩ := bind_eq_ok.mp submitted
  obtain ⟨dac, v, issued, submitted⟩ := bind_eq_ok.mp submitted
  cases submitted
  have same : Quiet n v := IsTrans.trans _ _ _ (quiet_ofExcept.step checked) (quiet_issueDac.step issued)
  have fresh : operation.opId ∉ n.domain.committedOperations := (valid_of_validated checked).fresh
  exact awaits_submitted filed same (not_not.mp leads) (by simpa using held) fresh

/-- Every ACK finds the submission of an operation as it should, exactly when every
event of the run is sound as long as the submission waits. -/
theorem acks_resolve_iff (reached : n.Reached) {started : Int} {reaction : Reaction}
    (submitted : submit operation started n = .ok reaction t) (accepted : reaction.reply = none)
    (events : List NodeEvent) :
    (∀ earlier event later, events = earlier ++ event :: later →
        (t.after earlier).Prompt operation n.futures.length earlier event) ↔
      ∀ earlier event later, events = earlier ++ event :: later →
        (t.after earlier).futures[n.futures.length]? = some .waiting → (t.after earlier).Sound operation earlier event := by
  have start := submitted_awaits reached submitted accepted
  refine forall_congr' fun earlier => forall_congr' fun event => forall_congr' fun later => imp_congr_right fun _ => ?_
  rcases standing start earlier with ⟨awaits, running⟩ | ⟨answer, there, named⟩ | ⟨expired, there⟩
  · rw [awaits.prompt_iff running event]
    exact ⟨fun sound _ => sound, fun sound => sound awaits.waits⟩
  · refine iff_of_true ⟨?_, fun _ _ _ _ => ⟨answer, done_effect (by simp) there (effect_exec _ event), named⟩⟩ ?_
    · rintro only nodeId now rfl
      obtain ⟨u, ran⟩ := onAck_of_done (by simp) there only
      exact ⟨u, run_ack_of_ok ran⟩
    · intro waits
      rw [there] at waits
      cases waits
  · refine iff_of_true ⟨?_, fun _ running => absurd expired running⟩ ?_
    · rintro only nodeId now rfl
      obtain ⟨u, ran⟩ := onAck_of_done (by simp) there only
      exact ⟨u, run_ack_of_ok ran⟩
    · intro waits
      rw [there] at waits
      cases waits

/-- A vote with which there are enough completes the certificate, and the leader applies the operation. -/
theorem onCommitVote_ok {n u : DistributedNode} {vote : Vote} {entry : Pending} {certificate : Certificate}
    (leads : n.nodeId = n.leaderId) (found : n.pending.get? vote.opId = some entry)
    (first : entry.commitCertificate = none) (recorded : recordVote vote n = .ok ⟨⟩ u)
    (issued : u.domain.committee.issueCertificate entry.operation.epoch u.domain.domainId
      (u.domain.objectVersions entry.operation) entry.operation "COMMIT" = .ok certificate)
    (valid : u.domain.Valid entry.operation)
    (accepted : u.domain.committee.verifyCertificate certificate u.domain.epoch u.domain.domainId
      (u.domain.objectVersions entry.operation) entry.operation = .ok true) :
    ∃ reaction, onCommitVote vote n = .ok reaction (setPending vote.opId
      { entry with commitCertificate := some certificate, ackIds := entry.ackIds.insert u.nodeId }
      (setDomain (u.domain.applied entry.operation certificate) u)) := by
  have collected : collectVote vote "COMMIT" Pending.commitCertificate n = .ok (some (entry, certificate)) u := by
    unfold collectVote
    rw [get_bind_apply, if_neg (not_not.mpr leads), found]
    dsimp only
    rw [bind_of_ok (outcome_of_ok recorded)]
    dsimp only
    rw [first, if_neg (by simp), get_bind_apply, issued]
    rfl
  let held := setPending vote.opId { entry with commitCertificate := some certificate } u
  have applies : onDomain (applyCommitted entry.operation certificate) held =
      .ok ⟨⟩ (setDomain (u.domain.applied entry.operation certificate) held) :=
    onDomain_of_ok (applyCommitted_of_valid valid accepted)
  unfold onCommitVote
  rw [bind_of_ok collected]
  dsimp only
  rw [bind_of_ok (modify_apply _ _), bind_of_ok applies, get_bind_apply, bind_of_ok (modify_apply _ _)]
  refine ⟨_, congrArg _ ?_⟩
  simp only [held, setPending, setDomain, Dict.set_set]

/-- The only validator leads. -/
def soloLeader (pair : KeyPair) : DistributedNode := new "v" [] "v" ⟨"v", pair, 1⟩ false (soloExecutor pair)

theorem soloLeader_reached (pair : KeyPair) : (soloLeader pair).Reached := ⟨_, _, _, _, _, _, [], rfl⟩

/-- The leader of one with a submission that waits. -/
def soloWaiting (pair : KeyPair) (dac : DataAvailabilityCertificate) (c : QuorumCommittee) : DistributedNode :=
  setPending (rewrite pair ["a"] 0).opId ⟨rewrite pair ["a"] 0, dac, 0, 0, none, none, []⟩
    (createFuture (setDomain (setCommittee c (soloExecutor pair)) (soloLeader pair)))

/-- It takes the submission. -/
theorem soloWaiting_run (verifies : SignaturesVerify) (pair : KeyPair) :
    ∃ reaction dac c, submit (rewrite pair ["a"] 0) 0 (soloLeader pair) = .ok reaction (soloWaiting pair dac c) ∧
      reaction.reply = none ∧ QuorumCommittee.SameVotes (soloExecutor pair).committee c := by
  obtain ⟨dac, c, issued, same, -⟩ := (soloValidators_wellFormed pair).issueDac verifies (rewrite pair ["a"] 0)
  have checked := DomainExecutor.validateOperation_eq_ok.mpr (soloExecutor_valid verifies pair 0)
  have validated : onDomain (ofExcept ((soloExecutor pair).validateOperation (rewrite pair ["a"] 0)))
      (soloLeader pair) = .ok ⟨⟩ (soloLeader pair) := onDomain_of_ok (ofExcept_of_ok checked _)
  have certified : onDomain (onCommittee (QuorumCommittee.issueDac (rewrite pair ["a"] 0))) (soloLeader pair) =
      .ok dac (setDomain (setCommittee c (soloExecutor pair)) (soloLeader pair)) :=
    onDomain_of_ok (onPart_of_ok issued)
  have leads : ¬ (soloLeader pair).nodeId ≠ (soloLeader pair).leaderId := not_not.mpr rfl
  have free : ¬ ((soloLeader pair).pending.get? (rewrite pair ["a"] 0).opId).isSome := Bool.false_ne_true
  have ran : submit (rewrite pair ["a"] 0) 0 (soloLeader pair) =
      .ok { sends := (soloLeader pair).broadcast (.prepareRequest (rewrite pair ["a"] 0) dac "v") }
        (soloWaiting pair dac c) := by
    unfold submit
    rw [get_bind_apply, if_neg leads, if_neg free]
    exact (bind_of_ok validated).trans (bind_of_ok certified)
  exact ⟨_, dac, c, ran, rfl, same⟩

/-- The vote of the one validator. -/
def soloVote (pair : KeyPair) : Vote :=
  (soloLeader pair).castVote (rewrite pair ["a"] 0) (rewrite pair ["a"] 0).dependencyDigest "COMMIT"

/-- The vote makes the certificate, and the operation is applied. -/
theorem soloWaiting_applies (verifies : SignaturesVerify) (pair : KeyPair) (dac : DataAvailabilityCertificate)
    {c : QuorumCommittee} (same : QuorumCommittee.SameVotes (soloExecutor pair).committee c) :
    ∃ reaction u certificate entry, onCommitVote (soloVote pair) (soloWaiting pair dac c) = .ok reaction u ∧
      u.Applied (rewrite pair ["a"] 0) ∧ u.nodeId = "v" ∧ u.domain.committee.validators = soloValidators pair ∧
      u.pending.get? (rewrite pair ["a"] 0).opId = some entry ∧ entry.commitCertificate = some certificate := by
  have consistent : c.Consistent := (QuorumCommittee.consistent_new (soloValidators pair)).of_same same
  have fits : c.Recordable (soloVote pair) := by
    refine ⟨same.attested.mpr ⟨⟨"v", pair, 1⟩, rfl, verifies _ _⟩, le_rfl, fun previous there => ?_⟩
    rw [same.statementsAt] at there
    exact absurd there (by simp [soloExecutor, setObject, DomainExecutor.new, QuorumCommittee.new,
      QuorumCommittee.statementsAt])
  obtain ⟨filed, sameFiled, ran⟩ := QuorumCommittee.recordVote_of_recordable fits
  have consistent' := consistent.recordVote (soloVote pair)
  have voted : (soloVote pair).validatorId ∈ (final (QuorumCommittee.recordVote (soloVote pair)) c).supporters
      (soloVote pair).conflictKey (soloVote pair).choice :=
    (consistent.mem_supporters_recordVote fits).mpr (Or.inr ⟨rfl, rfl, rfl⟩)
  rw [final_of_ok ran] at consistent' voted
  have validators : (filed.file (soloVote pair)).validators = soloValidators pair :=
    sameFiled.validators.trans same.validators
  let d := setCommittee (filed.file (soloVote pair)) (soloWaiting pair dac c).domain
  have all : ∀ item ∈ d.committee.validators.keys, item ∈ d.committee.supporters (d.voteKey (rewrite pair ["a"] 0) "COMMIT")
      ((rewrite pair ["a"] 0).opId, (rewrite pair ["a"] 0).dependencyDigest) := by
    intro item member
    change item ∈ (filed.file (soloVote pair)).validators.keys at member
    rw [validators] at member
    cases List.mem_singleton.mp member
    exact voted
  obtain ⟨certificate, issued, accepted, -⟩ := @certificate_ok _ d (rewrite pair ["a"] 0) "COMMIT"
    ((soloValidators_wellFormed pair).of_validators validators) consistent' (by simp) all
  have recorded : recordVote (soloVote pair) (soloWaiting pair dac c) = .ok ⟨⟩ (setDomain d (soloWaiting pair dac c)) :=
    onDomain_of_ok (onPart_of_ok ran)
  have valid : d.Valid (rewrite pair ["a"] 0) := { soloExecutor_valid verifies pair 0 with }
  have found : (soloWaiting pair dac c).pending.get? (soloVote pair).opId =
      some ⟨rewrite pair ["a"] 0, dac, 0, 0, none, none, []⟩ := Dict.get?_set_self _ _ _
  obtain ⟨reaction, applies⟩ := onCommitVote_ok rfl found rfl recorded issued valid accepted
  exact ⟨reaction, _, _, _, applies, Finset.mem_insert_self _ _, rfl, validators, Dict.get?_set_self _ _ _, rfl⟩

/-- The vote comes in, and then an acknowledgement of the leader's own. -/
def soloRound (pair : KeyPair) : List NodeEvent := [
  .arrives (.commitVote (soloVote pair)) 1,
  .arrives (.ack (rewrite pair ["a"] 0).opId "v") 2]

theorem soloRound_sound (verifies : SignaturesVerify) (pair : KeyPair) (dac : DataAvailabilityCertificate)
    {c : QuorumCommittee} (same : QuorumCommittee.SameVotes (soloExecutor pair).committee c) :
    let t := soloWaiting pair dac c
    (∀ earlier event later, soloRound pair = earlier ++ event :: later → (t.after earlier).futures[0]? = some .waiting →
      (t.after earlier).Sound (rewrite pair ["a"] 0) earlier event) ∧
    ∃ first last, soloRound pair = [first] ++ [last] ∧ last.Finishes (rewrite pair ["a"] 0).opId ∧
      first ≠ .expires 0 ∧ (t.after [first]).Applied (rewrite pair ["a"] 0) ∧
      (t.after [first]).Enough ((t.after [first]).acknowledged (rewrite pair ["a"] 0)
        (received (rewrite pair ["a"] 0) ([first] ++ [last]))) := by
  intro t
  obtain ⟨reaction, u, certificate, entry, voted, applied, name, validators, found, certified⟩ :=
    soloWaiting_applies verifies pair dac same
  have first : t.after [.arrives (.commitVote (soloVote pair)) 1] = u := final_of_ok (bind_of_ok voted)
  have ids : u.acknowledged (rewrite pair ["a"] 0) (received (rewrite pair ["a"] 0) (soloRound pair)) = ["v", "v"] := by
    refine (if_pos applied).trans ?_
    rw [name]
    simp [received, soloRound, NodeEvent.acks]
  refine ⟨fun earlier event later split _ => ?_, _, _, rfl, rfl, by simp, first ▸ applied, ?_⟩
  · rcases earlier with _ | ⟨before, earlier⟩
    · cases split
      refine ⟨?_, fun finishes => finishes.elim⟩
      rintro nodeId now ⟨⟩
    · obtain ⟨rfl, rest⟩ := List.cons.inj split
      rcases earlier with _ | ⟨other, earlier⟩
      · cases rest
        rw [first]
        refine ⟨fun _ _ _ uncertified => ?_, fun _ _ _ id member => ?_⟩
        · rw [uncertified entry found] at certified
          cases certified
        · change id ∈ u.acknowledged _ (received _ (soloRound pair)) at member
          rw [ids] at member
          simp only [List.mem_cons, List.not_mem_nil, or_false, or_self] at member
          rw [member, validators]
          rfl
      · simp at rest
  · change (t.after [_]).Enough ((t.after [_]).acknowledged _ (received _ (soloRound pair)))
    rw [first, ids]
    have quorate : u.domain.committee.validators = (QuorumCommittee.new (soloValidators pair)).validators := validators
    have once : ["v", "v"].toFinset = {"v"} := by decide
    rw [Enough, QuorumCommittee.threshold_congr quorate, QuorumCommittee.weigh_congr quorate, once]
    exact (soloValidators_quorate pair).enough

omit [Crypto] in
/-- The leader votes for the operation, acknowledges it, and has its answer. -/
theorem acks_resolve_solo : let _ := Crypto.ideal
    ∃ reaction t, submit (rewrite idealKey ["a"] 0) 0 (soloLeader idealKey) = .ok reaction t ∧
      (t.after (soloRound idealKey)).Resolved (rewrite idealKey ["a"] 0) 0 := by
  intro _
  obtain ⟨reaction, dac, c, submitted, accepted, same⟩ := @soloWaiting_run _ ideal_signaturesVerify idealKey
  obtain ⟨sound, first, last, split, finishes, running, applied, enough⟩ :=
    soloRound_sound ideal_signaturesVerify idealKey dac same
  have prompt := (acks_resolve_iff (soloLeader_reached idealKey) submitted accepted (soloRound idealKey)).mpr sound
    [first] last [] split
  refine ⟨reaction, _, submitted, ?_⟩
  have resolved := prompt.resolves finishes (fun member => running (List.mem_singleton.mp member).symm) applied enough
  rw [split, after_snoc]
  exact resolved

/-- It has no certificate for it yet. -/
theorem soloLeader_accepts (verifies : SignaturesVerify) (pair : KeyPair) :
    ∃ reaction t, submit (rewrite pair ["a"] 0) 0 (soloLeader pair) = .ok reaction t ∧ reaction.reply = none ∧
      t.domain.committee.validators = soloValidators pair ∧ t.Uncertified (rewrite pair ["a"] 0) ∧
      ¬ t.Applied (rewrite pair ["a"] 0) := by
  obtain ⟨reaction, dac, c, ran, accepted, same⟩ := soloWaiting_run verifies pair
  refine ⟨reaction, _, ran, accepted, same.validators, fun entry found => ?_, Finset.notMem_empty _⟩
  have own := (Dict.get?_set_self _ _ _).symm.trans found
  cases own
  rfl

omit [Crypto] in
/-- An acknowledgement that suffices comes in before there is a certificate. -/
theorem early_ack_raises : let _ := Crypto.ideal
    ¬ ∀ (n t : DistributedNode) (operation : Operation) (started : Int) (reaction : Reaction) (events : List NodeEvent),
      n.Reached → submit operation started n = .ok reaction t → reaction.reply = none →
        ∀ earlier event later, events = earlier ++ event :: later →
          (t.after earlier).Prompt operation n.futures.length earlier event := by
  intro _ claim
  obtain ⟨reaction, t, submitted, accepted, committee, uncertified, unapplied⟩ :=
    soloLeader_accepts ideal_signaturesVerify idealKey
  have awaits := submitted_awaits (soloLeader_reached idealKey) submitted accepted
  have prompt : t.Prompt _ _ [] _ := claim _ t _ 0 reaction [.arrives (.ack (rewrite idealKey ["a"] 0).opId "v") 1]
    (soloLeader_reached idealKey) submitted accepted [] _ [] rfl
  have own : t.acknowledged (rewrite idealKey ["a"] 0) (received (rewrite idealKey ["a"] 0)
      [.arrives (.ack (rewrite idealKey ["a"] 0).opId "v") 1]) = ["v"] := by
    refine (if_neg unapplied).trans ?_
    simp [received, NodeEvent.acks]
  have sound := ((awaits.prompt_iff List.not_mem_nil _).mp prompt).certified _ _ rfl uncertified
  rw [List.nil_append, own] at sound
  refine sound ⟨fun id member => ?_, ?_⟩
  · cases List.mem_singleton.mp member
    rw [committee]
    rfl
  · have same : t.domain.committee.validators = (QuorumCommittee.new (soloValidators idealKey)).validators := committee
    rw [Enough, QuorumCommittee.threshold_congr same, QuorumCommittee.weigh_congr same]
    exact (soloValidators_quorate idealKey).enough

end DistributedNode

end Mosaic.Nexus
