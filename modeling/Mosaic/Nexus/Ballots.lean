import Mosaic.Nexus.CertificateBinding
import Mosaic.Nexus.Submissions

namespace Mosaic.Nexus
open CanonicalJson Effects

variable [Crypto]

/-- The vote in a message. -/
def NodeMessage.vote? : NodeMessage → Option Vote
  | .prepareVote vote | .commitVote vote => some vote
  | _ => none

def NodeMessage.operation? : NodeMessage → Option Operation
  | .submit operation | .prepareRequest operation _ _ | .commitRequest operation _ _
  | .commitCertificate operation _ _ => some operation
  | _ => none

/-- The votes among what a handler sends. -/
def Reaction.votes (reaction : Reaction) : List Vote := reaction.sends.filterMap fun send => send.2.vote?

namespace NodeEvent

def message? : NodeEvent → Option NodeMessage
  | arrives message _ => some message
  | _ => none

/-- The votes that the node sends at the event. A handler that raises has sent none. -/
def votes (event : NodeEvent) (n : DistributedNode) : List Vote :=
  match event with
  | arrives message now =>
    match DistributedNode.dispatch message now n with
    | .ok reaction _ => reaction.votes
    | .error _ _ => []
  | _ => []

end NodeEvent

namespace QuorumCommittee

/-- The vote has been accepted and filed. -/
def Files (c : QuorumCommittee) (vote : Vote) (c' : QuorumCommittee) : Prop :=
  c.Recordable vote ∧ ∃ u, SameVotes c u ∧ c' = u.file vote

variable {c c' : QuorumCommittee} {vote : Vote}

theorem Files.validators (files : c.Files vote c') : c'.validators = c.validators := by
  obtain ⟨-, u, same, rfl⟩ := files
  exact same.validators

theorem Files.consistent (sound : c.Consistent) (files : c.Files vote c') : c'.Consistent := by
  obtain ⟨fits, u, same, rfl⟩ := files
  exact (sound.of_same same).file (same.attested.mpr fits.attested) fits.epoch

/-- The statement of the vote stands in the books, and so do the ones before. -/
theorem Files.statements (files : c.Files vote c') :
    (c'.statementsAt vote.conflictKey).get? vote.validatorId = some vote.choice ∧
      ∀ key item choice, (c.statementsAt key).get? item = some choice →
        (c'.statementsAt key).get? item = some choice := by
  obtain ⟨fits, u, same, rfl⟩ := files
  constructor
  · rw [statementsAt_file, if_pos rfl, Dict.get?_set_self]
  · intro key item choice filed
    rw [statementsAt_file, same.statementsAt]
    split
    · rename_i here
      rw [Dict.get?_set]
      split
      · rename_i mine
        subst here mine
        rw [fits.single choice filed]
      · exact filed
    · exact filed

theorem Files.votes (files : c.Files vote c') {key : ConflictKey} {item : String} {other : Vote}
    (filed : (c'.votesAt key).get? item = some other) : other = vote ∨ (c.votesAt key).get? item = some other := by
  obtain ⟨-, u, same, rfl⟩ := files
  rw [votesAt_file, same.votesAt] at filed
  split at filed
  · rcases Dict.origin_of_get?_set filed with ⟨-, rfl⟩ | old
    · exact Or.inl rfl
    · exact Or.inr old
  · exact Or.inr filed

end QuorumCommittee

namespace DomainExecutor

/-- Nothing has changed but counters and evidence. -/
def Recounted (d t : DomainExecutor) : Prop := ∃ c, d.committee.SameVotes c ∧ t = setCommittee c d

/-- A vote has been filed in the committee. -/
def Hears (d : DomainExecutor) (vote : Vote) (t : DomainExecutor) : Prop :=
  ∃ c, d.committee.Files vote c ∧ t = setCommittee c d

theorem Recounted.refl (d : DomainExecutor) : d.Recounted d := ⟨d.committee, .refl _, rfl⟩

end DomainExecutor

namespace DistributedNode
open DomainExecutor QuorumCommittee

variable {n t : DistributedNode} {operation : Operation} {vote : Vote} {phase leaderId : String} {now : Int}

/-- Recording is filing, or it raises and files nothing. -/
theorem recordVote_run (n : DistributedNode) (vote : Vote) :
    (∃ d, n.domain.Hears vote d ∧ recordVote vote n = .ok ⟨⟩ (setDomain d n)) ∨
      ∃ e d, n.domain.Recounted d ∧ recordVote vote n = .error (.nexus e) (setDomain d n) := by
  rcases n.domain.committee.recordVote_cases vote with ⟨fits, c, same, run⟩ | ⟨-, e, c, same, run⟩
  · exact Or.inl ⟨_, ⟨_, ⟨fits, c, same, rfl⟩, rfl⟩, onDomain_of_ok (onPart_of_ok run)⟩
  · exact Or.inr ⟨e, _, ⟨c, same, rfl⟩, onDomain_of_error (onPart_of_error run)⟩

theorem onDomain_ofExcept_ok {α : Type} {x : Except NexusError α} {a : α} (run : x = .ok a) :
    onDomain (ofExcept x) n = .ok a n := onDomain_of_ok (ofExcept_of_ok run _)

theorem onDomain_ofExcept_error {α : Type} {x : Except NexusError α} {e : NexusError} (run : x = .error e) :
    onDomain (ofExcept x) n = .error (.nexus e) n := by
  subst run
  exact onDomain_of_error rfl

/-- The votes of a node that answers a request. -/
def cast (n : DistributedNode) (operation : Operation) (phase : String) : List Vote :=
  n.castVote operation operation.dependencyDigest phase ::
    if n.byzantine then [n.castVote operation (operation.dependencyDigest ++ "-equivocation") phase] else []

/-- The node votes for a valid operation once its own committee has filed the vote. -/
theorem answerRequest_run (n : DistributedNode) {message : Vote → NodeMessage}
    (carries : ∀ vote, (message vote).vote? = some vote) (operation : Operation) (phase leaderId : String) :
    (∃ e d, n.domain.Recounted d ∧ answerRequest message operation phase leaderId n = .error e (setDomain d n)) ∨
      n.domain.Valid operation ∧ ∃ d reaction,
        n.domain.Hears (n.castVote operation operation.dependencyDigest phase) d ∧
          reaction.votes = n.cast operation phase ∧
          answerRequest message operation phase leaderId n = .ok reaction (setDomain d n) := by
  unfold answerRequest
  rw [get_bind_apply]
  cases checked : n.domain.validateOperation operation with
  | error e => exact Or.inl ⟨.nexus e, _, .refl _, bind_of_error (onDomain_of_error rfl)⟩
  | ok _ =>
    have valid := validateOperation_eq_ok.mp checked
    have passed : onDomain (ofExcept (Except.ok ⟨⟩ : Except NexusError PUnit)) n = .ok ⟨⟩ n := onDomain_ofExcept_ok rfl
    rw [bind_of_ok passed]
    rcases n.recordVote_run (n.castVote operation operation.dependencyDigest phase) with ⟨d, hears, ran⟩ |
      ⟨e, d, same, raised⟩
    · refine Or.inr ⟨valid, d, _, hears, ?_, bind_of_ok ran⟩
      unfold Reaction.votes cast
      split
      · simp [carries]
      · simp [carries]
    · exact Or.inl ⟨.nexus e, d, same, bind_of_error raised⟩

/-- Collecting files the vote at most. A certificate comes out for an operation that
waits for one, and from votes that are filed. -/
theorem collectVote_run (n : DistributedNode) (vote : Vote) (phase : String) (held : Pending → Option Certificate) :
    ∃ d t, (n.domain.Recounted d ∨ n.domain.Hears vote d) ∧ t.domain = d ∧
      ((∃ e, collectVote vote phase held n = .error e t) ∨ collectVote vote phase held n = .ok none t ∨
        ∃ entry certificate, n.pending.get? vote.opId = some entry ∧ n.domain.Hears vote d ∧
          d.committee.issueCertificate entry.operation.epoch d.domainId (d.objectVersions entry.operation)
            entry.operation phase = .ok certificate ∧
          collectVote vote phase held n = .ok (some (entry, certificate)) t) := by
  unfold collectVote
  simp only [get_bind_apply]
  by_cases follows : n.nodeId ≠ n.leaderId
  · rw [if_pos follows]
    exact ⟨_, n, Or.inl (.refl _), rfl, Or.inr (Or.inl rfl)⟩
  rw [if_neg follows]
  cases found : n.pending.get? vote.opId with
  | none => exact ⟨_, n, Or.inl (.refl _), rfl, Or.inr (Or.inl rfl)⟩
  | some entry =>
    rcases n.recordVote_run vote with ⟨d, hears, ran⟩ | ⟨e, d, same, raised⟩
    · dsimp only
      rw [bind_of_ok (outcome_of_ok ran)]
      refine ⟨d, setDomain d n, Or.inr hears, rfl, ?_⟩
      dsimp only
      by_cases certified : (held entry).isSome
      · rw [if_pos certified]
        exact Or.inr (Or.inl rfl)
      rw [if_neg certified, get_bind_apply, show (setDomain d n).domain = d from rfl]
      cases issued : d.committee.issueCertificate entry.operation.epoch d.domainId (d.objectVersions entry.operation)
          entry.operation phase with
      | ok certificate => exact Or.inr (Or.inr ⟨entry, certificate, rfl, hears, issued, rfl⟩)
      | error e =>
        cases e with
        | quorumError message => exact Or.inr (Or.inl rfl)
        | _ => exact Or.inl ⟨_, rfl⟩
    · dsimp only
      rw [bind_of_ok (outcome_of_error raised)]
      cases e with
      | quorumError message => exact ⟨d, count "equivocations" (setDomain d n), Or.inl same, rfl, Or.inr (Or.inl rfl)⟩
      | _ => exact ⟨d, setDomain d n, Or.inl same, rfl, Or.inl ⟨_, rfl⟩⟩

/-- The executor after an event, and the votes that the node has sent meanwhile. -/
inductive Advance (n : DistributedNode) (event : NodeEvent) : DomainExecutor → List Vote → Prop
  | idle {d : DomainExecutor} (same : n.domain.Recounted d) : n.Advance event d []
  | heard {message : NodeMessage} (arrives : event.message? = some message) {vote : Vote}
      (carries : message.vote? = some vote) {d : DomainExecutor} (hears : n.domain.Hears vote d) : n.Advance event d []
  | prepared {operation : Operation} {dac : DataAvailabilityCertificate} {leaderId : String}
      (arrives : event.message? = some (.prepareRequest operation dac leaderId)) (valid : n.domain.Valid operation)
      {d : DomainExecutor} (hears : n.domain.Hears (n.castVote operation operation.dependencyDigest "PREPARE") d) :
      n.Advance event d (n.cast operation "PREPARE")
  | committed {operation : Operation} {certificate : Certificate} {leaderId : String}
      (arrives : event.message? = some (.commitRequest operation certificate leaderId))
      (accepts : n.domain.Accepts certificate operation) {d : DomainExecutor}
      (hears : n.domain.Hears (n.castVote operation operation.dependencyDigest "COMMIT") d) :
      n.Advance event d (n.cast operation "COMMIT")
  | applied {operation : Operation} {certificate : Certificate} {leaderId : String}
      (arrives : event.message? = some (.commitCertificate operation certificate leaderId))
      (accepts : n.domain.Accepts certificate operation) : n.Advance event (n.domain.applied operation certificate) []
  | collected {vote : Vote} (arrives : event.message? = some (.commitVote vote)) {entry : Pending}
      (found : n.pending.get? vote.opId = some entry) {d : DomainExecutor} (hears : n.domain.Hears vote d)
      {certificate : Certificate}
      (issued : d.committee.issueCertificate entry.operation.epoch d.domainId (d.objectVersions entry.operation)
        entry.operation "COMMIT" = .ok certificate)
      (accepts : d.Accepts certificate entry.operation) : n.Advance event (d.applied entry.operation certificate) []

variable {event : NodeEvent}

theorem votes_of_ok {message : NodeMessage} {reaction : Reaction} (ran : dispatch message now n = .ok reaction t) :
    (NodeEvent.arrives message now).votes n = reaction.votes := by simp only [NodeEvent.votes, ran]

theorem votes_of_error {message : NodeMessage} {e : NetworkError} (raised : dispatch message now n = .error e t) :
    (NodeEvent.arrives message now).votes n = [] := by simp only [NodeEvent.votes, raised]

theorem exec_arrives (n : DistributedNode) (message : NodeMessage) (now : Int) :
    (NodeEvent.arrives message now).exec n = final (dispatch message now) n := final_discard _ n

/-- What a handler does that returns. -/
theorem Advance.of_ok {message : NodeMessage} {reaction : Reaction} (ran : dispatch message now n = .ok reaction t)
    (advance : n.Advance (.arrives message now) t.domain reaction.votes) :
    n.Advance (.arrives message now) ((NodeEvent.arrives message now).exec n).domain
      ((NodeEvent.arrives message now).votes n) := by
  rw [exec_arrives, final_of_ok ran, votes_of_ok ran]
  exact advance

/-- What a handler does that raises. -/
theorem Advance.of_error {message : NodeMessage} {e : NetworkError} (raised : dispatch message now n = .error e t)
    (advance : n.Advance (.arrives message now) t.domain []) :
    n.Advance (.arrives message now) ((NodeEvent.arrives message now).exec n).domain
      ((NodeEvent.arrives message now).votes n) := by
  rw [exec_arrives, final_of_error raised, votes_of_error raised]
  exact advance

theorem advance_prepareRequest (n : DistributedNode) (operation : Operation) (dac : DataAvailabilityCertificate)
    (leaderId : String) (now : Int) :
    let event := NodeEvent.arrives (.prepareRequest operation dac leaderId) now
    n.Advance event (event.exec n).domain (event.votes n) := by
  intro event
  cases checked : n.domain.committee.verifyDac operation dac with
  | error e =>
    have raised : dispatch (.prepareRequest operation dac leaderId) now n = .error (.nexus e) n := by
      show onPrepareRequest operation dac leaderId n = _
      unfold onPrepareRequest
      rw [get_bind_apply]
      exact bind_of_error (onDomain_ofExcept_error checked)
    exact .of_error raised (.idle (.refl _))
  | ok accepted =>
    have passed : onDomain (ofExcept (n.domain.committee.verifyDac operation dac)) n = .ok accepted n :=
      onDomain_ofExcept_ok checked
    have ran : dispatch (.prepareRequest operation dac leaderId) now n =
        (if accepted then answerRequest .prepareVote operation "PREPARE" leaderId else return {}) n := bind_of_ok passed
    cases accepted with
    | false => exact .of_ok ran (.idle (.refl _))
    | true =>
      rw [if_pos rfl] at ran
      have carries : ∀ vote, (NodeMessage.prepareVote vote).vote? = some vote := fun _ => rfl
      rcases n.answerRequest_run carries operation "PREPARE" leaderId with ⟨e, d, same, raised⟩ |
        ⟨valid, d, reaction, hears, votes, answered⟩
      · exact .of_error (ran.trans raised) (.idle same)
      · exact .of_ok (ran.trans answered) (votes ▸ .prepared rfl valid hears)

theorem advance_commitRequest (n : DistributedNode) (operation : Operation) (certificate : Certificate)
    (leaderId : String) (now : Int) :
    let event := NodeEvent.arrives (.commitRequest operation certificate leaderId) now
    n.Advance event (event.exec n).domain (event.votes n) := by
  intro event
  cases checked : n.domain.committee.verifyCertificate certificate operation.epoch n.domain.domainId
      (n.domain.objectVersions operation) operation with
  | error e =>
    have raised : dispatch (.commitRequest operation certificate leaderId) now n = .error (.nexus e) n := by
      show onCommitRequest operation certificate leaderId n = _
      unfold onCommitRequest
      rw [get_bind_apply]
      exact bind_of_error (onDomain_ofExcept_error checked)
    exact .of_error raised (.idle (.refl _))
  | ok accepted =>
    have ran : dispatch (.commitRequest operation certificate leaderId) now n =
        (if accepted then answerRequest .commitVote operation "COMMIT" leaderId else return {}) n :=
      bind_of_ok (onDomain_ofExcept_ok checked)
    cases accepted with
    | false => exact .of_ok ran (.idle (.refl _))
    | true =>
      rw [if_pos rfl] at ran
      have carries : ∀ vote, (NodeMessage.commitVote vote).vote? = some vote := fun _ => rfl
      rcases n.answerRequest_run carries operation "COMMIT" leaderId with ⟨e, d, same, raised⟩ |
        ⟨valid, d, reaction, hears, votes, answered⟩
      · exact .of_error (ran.trans raised) (.idle same)
      · rw [valid.epoch] at checked
        exact .of_ok (ran.trans answered)
          (votes ▸ .committed rfl ⟨validateOperation_eq_ok.mpr valid, checked⟩ hears)

/-- A certificate that applies is one that the executor accepts. -/
theorem applyCommitted_run (d : DomainExecutor) (operation : Operation) (certificate : Certificate) :
    (∃ e, applyCommitted operation certificate d = .error e d) ∨
      d.Accepts certificate operation ∧
        applyCommitted operation certificate d = .ok ⟨⟩ (d.applied operation certificate) := by
  rcases applyCommitted_cases d operation certificate with raised | ⟨valid, accepted, ran⟩
  · exact Or.inl raised
  · exact Or.inr ⟨⟨validateOperation_eq_ok.mpr valid, accepted⟩, ran⟩

theorem advance_commitCertificate (n : DistributedNode) (operation : Operation) (certificate : Certificate)
    (leaderId : String) (now : Int) :
    let event := NodeEvent.arrives (.commitCertificate operation certificate leaderId) now
    n.Advance event (event.exec n).domain (event.votes n) := by
  intro event
  by_cases leads : n.nodeId = n.leaderId
  · have ran : dispatch (.commitCertificate operation certificate leaderId) now n = .ok {} n := by
      show onCommitCertificate operation certificate leaderId n = _
      unfold onCommitCertificate
      rw [get_bind_apply, if_pos leads]
      rfl
    exact .of_ok ran (.idle (.refl _))
  cases checked : n.domain.committee.verifyCertificate certificate operation.epoch n.domain.domainId
      (n.domain.objectVersions operation) operation with
  | error e =>
    have raised : dispatch (.commitCertificate operation certificate leaderId) now n = .error (.nexus e) n := by
      show onCommitCertificate operation certificate leaderId n = _
      unfold onCommitCertificate
      rw [get_bind_apply, if_neg leads]
      exact bind_of_error (onDomain_ofExcept_error checked)
    exact .of_error raised (.idle (.refl _))
  | ok accepted =>
    have ran : dispatch (.commitCertificate operation certificate leaderId) now n =
        (if accepted then do
          onDomain (DomainExecutor.applyCommitted operation certificate)
          return { sends := [(leaderId, .ack operation.opId n.nodeId)] }
        else return {} : PyNetwork Reaction) n := by
      show onCommitCertificate operation certificate leaderId n = _
      unfold onCommitCertificate
      rw [get_bind_apply, if_neg leads]
      exact bind_of_ok (onDomain_ofExcept_ok checked)
    cases accepted with
    | false => exact .of_ok ran (.idle (.refl _))
    | true =>
      rcases applyCommitted_run n.domain operation certificate with ⟨e, raised⟩ | ⟨accepts, applies⟩
      · exact .of_error (ran.trans (bind_of_error (onDomain_of_error raised))) (.idle (.refl _))
      · exact .of_ok (ran.trans (bind_of_ok (onDomain_of_ok applies))) (.applied rfl accepts)

theorem maybeFinish_domain (n : DistributedNode) (opId : String) (now : Int) :
    (final (maybeFinish opId now) n).domain = n.domain := by
  rcases maybeFinish_cases n opId now with same | ⟨_, _, -, -, -, -, ends⟩
  · rw [same]
  · rw [ends]
    rfl

theorem sameVotes_issueDac {c : QuorumCommittee} :
    Guarantees QuorumCommittee.SameVotes c (QuorumCommittee.issueDac operation) fun _ _ => True := by
  refine .get_bind ?_
  have counted : Guarantees QuorumCommittee.SameVotes c
      (modify (fun c' => c'.countMessages (availabilityStatement operation)
        ((c.signAll (availabilityStatement operation)).map Prod.snd)) : PyQuorum PUnit) fun _ _ => True :=
    .update (c.sameVotes_countMessages _ _) trivial
  refine counted.bind fun _ _ _ _ => ?_
  exact .bind (.ofExcept (Q := fun _ _ => True) fun _ _ => trivial) fun _ _ _ _ => .raiseIf_bind fun _ => .pure trivial

/-- What goes to all peers is no vote. -/
theorem votes_toPeers (n : DistributedNode) {message : NodeMessage} (silent : message.vote? = none) :
    Reaction.votes { sends := n.toPeers message } = [] := by
  unfold Reaction.votes toPeers
  simp [silent]

theorem votes_broadcast (n : DistributedNode) {message : NodeMessage} (silent : message.vote? = none) :
    Reaction.votes { sends := n.broadcast message } = [] := by
  unfold Reaction.votes broadcast toPeers
  simp [silent]

theorem advance_prepareVote (n : DistributedNode) (vote : Vote) (now : Int) :
    let event := NodeEvent.arrives (.prepareVote vote) now
    n.Advance event (event.exec n).domain (event.votes n) := by
  intro event
  obtain ⟨d, t, either, rfl, ⟨e, raised⟩ | nothing | ⟨entry, certificate, -, -, -, collected⟩⟩ :=
    n.collectVote_run vote "PREPARE" Pending.prepareCertificate
  all_goals
    have arrives : event.message? = some (.prepareVote vote) := rfl
    have step : n.Advance event t.domain [] := either.elim .idle (.heard arrives rfl)
  · exact .of_error (bind_of_error raised) step
  · exact .of_ok (bind_of_ok nothing) step
  · let held := setPending vote.opId { entry with prepareCertificate := some certificate } t
    refine .of_ok (t := held) (bind_of_ok collected) ?_
    rw [votes_broadcast _ rfl]
    exact step

theorem advance_commitVote (n : DistributedNode) (vote : Vote) (now : Int) :
    let event := NodeEvent.arrives (.commitVote vote) now
    n.Advance event (event.exec n).domain (event.votes n) := by
  intro event
  obtain ⟨d, t, either, rfl, ⟨e, raised⟩ | nothing | ⟨entry, certificate, found, hears, issued, collected⟩⟩ :=
    n.collectVote_run vote "COMMIT" Pending.commitCertificate
  all_goals
    have arrives : event.message? = some (.commitVote vote) := rfl
    have step : n.Advance event t.domain [] := either.elim .idle (.heard arrives rfl)
  · exact .of_error (bind_of_error raised) step
  · exact .of_ok (bind_of_ok nothing) step
  · let held := setPending vote.opId { entry with commitCertificate := some certificate } t
    have holds : (modify (setPending vote.opId { entry with commitCertificate := some certificate }) :
        PyNetwork PUnit) t = .ok ⟨⟩ held := rfl
    rcases applyCommitted_run held.domain entry.operation certificate with ⟨e, raised⟩ | ⟨accepts, applies⟩
    · have stops : dispatch (.commitVote vote) now n = .error (.nexus e) held :=
        (bind_of_ok collected).trans ((bind_of_ok holds).trans (bind_of_error (onDomain_of_error raised)))
      exact .of_error stops step
    · refine .of_ok ((bind_of_ok collected).trans ((bind_of_ok holds).trans (bind_of_ok (onDomain_of_ok applies)))) ?_
      rw [votes_toPeers _ rfl]
      exact .collected rfl found hears issued accepts

theorem advance_submit (n : DistributedNode) (operation : Operation) (now : Int) :
    let event := NodeEvent.arrives (.submit operation) now
    n.Advance event (event.exec n).domain (event.votes n) := by
  intro event
  have unfolded : dispatch (.submit operation) now n = submit operation now n := rfl
  unfold submit at unfolded
  rw [get_bind_apply] at unfolded
  by_cases follows : n.nodeId ≠ n.leaderId
  · rw [if_pos follows] at unfolded
    exact .of_ok unfolded (.idle (.refl _))
  rw [if_neg follows] at unfolded
  by_cases waits : (n.pending.get? operation.opId).isSome
  · rw [if_pos waits] at unfolded
    exact .of_ok unfolded (.idle (.refl _))
  rw [if_neg waits] at unfolded
  cases checked : n.domain.validateOperation operation with
  | error e => exact .of_error (unfolded.trans (bind_of_error (onDomain_ofExcept_error checked))) (.idle (.refl _))
  | ok _ =>
    rw [bind_of_ok (onDomain_ofExcept_ok checked)] at unfolded
    cases issued : QuorumCommittee.issueDac operation n.domain.committee with
    | error e c =>
      have raised : onDomain (onCommittee (QuorumCommittee.issueDac operation)) n = .error (.nexus e) _ :=
        onDomain_of_error (onPart_of_error issued)
      exact .of_error (unfolded.trans (bind_of_error raised)) (.idle ⟨c, sameVotes_issueDac.step_error issued, rfl⟩)
    | ok dac c =>
      have ran : onDomain (onCommittee (QuorumCommittee.issueDac operation)) n = .ok dac _ :=
        onDomain_of_ok (onPart_of_ok issued)
      refine .of_ok (unfolded.trans (bind_of_ok ran)) ?_
      rw [votes_broadcast _ rfl]
      exact .idle ⟨c, sameVotes_issueDac.step issued, rfl⟩

theorem final_onAck {opId nodeId : String} {entry : Pending} (found : n.pending.get? opId = some entry) :
    final (onAck opId nodeId now) n =
      final (maybeFinish opId now) (setPending opId { entry with ackIds := entry.ackIds.insert nodeId } n) := by
  simp only [onAck, final, get_bind_apply, found]
  rfl

theorem final_onAck_of_none {opId nodeId : String} (missing : n.pending.get? opId = none) :
    final (onAck opId nodeId now) n = n := by
  simp only [onAck, final, get_bind_apply, missing, pure_apply]

theorem advance_ack (n : DistributedNode) (opId nodeId : String) (now : Int) :
    let event := NodeEvent.arrives (.ack opId nodeId) now
    n.Advance event (event.exec n).domain (event.votes n) := by
  intro event
  have same : (final (onAck opId nodeId now) n).domain = n.domain := by
    cases found : n.pending.get? opId with
    | none => rw [final_onAck_of_none found]
    | some entry =>
      rw [final_onAck found]
      exact maybeFinish_domain _ opId now
  cases run : onAck opId nodeId now n with
  | error e t =>
    rw [final_of_error run] at same
    refine .of_error (bind_of_error run) ?_
    rw [same]
    exact .idle (.refl _)
  | ok _ t =>
    rw [final_of_ok run] at same
    refine .of_ok (bind_of_ok run) ?_
    rw [same]
    exact .idle (.refl _)

theorem advance_exec (n : DistributedNode) (event : NodeEvent) :
    n.Advance event (event.exec n).domain (event.votes n) := by
  have still : ∀ {t : DistributedNode}, t.domain = n.domain → n.Advance event t.domain [] := by
    intro t same
    rw [same]
    exact .idle (.refl _)
  cases event with
  | broadcasted opId now => exact still (maybeFinish_domain n opId now)
  | expires future =>
    refine still ?_
    show (expire future n).domain = _
    unfold expire
    split <;> rfl
  | withdraws opId =>
    refine still ?_
    show (withdraw opId n).domain = _
    unfold withdraw
    split
    · split <;> rfl
    · rfl
  | counts metrics => exact still rfl
  | arrives message now =>
    cases message with
    | prepareRequest operation dac leaderId => exact n.advance_prepareRequest operation dac leaderId now
    | prepareVote vote => exact n.advance_prepareVote vote now
    | commitRequest operation certificate leaderId => exact n.advance_commitRequest operation certificate leaderId now
    | commitVote vote => exact n.advance_commitVote vote now
    | commitCertificate operation certificate leaderId =>
      exact n.advance_commitCertificate operation certificate leaderId now
    | shutdown => exact .of_ok rfl (still rfl)
    | metrics => exact .of_ok rfl (still rfl)
    | unknown messageType => exact .of_ok rfl (still rfl)
    | submit operation => exact n.advance_submit operation now
    | ack opId nodeId => exact n.advance_ack opId nodeId now

/-- The executor serves the same validators, and what they have stated stands. -/
structure Retains (d t : DomainExecutor) : Prop where
  domainId : t.domainId = d.domainId
  epoch : t.epoch = d.epoch
  validators : t.committee.validators = d.committee.validators
  consistent : d.committee.Consistent → t.committee.Consistent
  statements : ∀ key item choice, (d.committee.statementsAt key).get? item = some choice →
    (t.committee.statementsAt key).get? item = some choice

variable {d : DomainExecutor} {votes : List Vote}

theorem retains_recounted (same : n.domain.Recounted d) : Retains n.domain d := by
  obtain ⟨c, same, rfl⟩ := same
  refine ⟨rfl, rfl, same.validators, fun sound => sound.of_same same, fun key item choice filed => ?_⟩
  show (c.statementsAt key).get? item = _
  rw [same.statementsAt]
  exact filed

theorem retains_hears (hears : n.domain.Hears vote d) : Retains n.domain d := by
  obtain ⟨c, files, rfl⟩ := hears
  exact ⟨rfl, rfl, files.validators, files.consistent, files.statements.2⟩

theorem Advance.retains (advance : n.Advance event d votes) : Retains n.domain d := by
  cases advance with
  | idle same => exact retains_recounted same
  | heard _ _ hears => exact retains_hears hears
  | prepared _ _ hears => exact retains_hears hears
  | committed _ _ hears => exact retains_hears hears
  | applied => exact ⟨rfl, rfl, rfl, id, fun _ _ _ => id⟩
  | collected _ _ hears =>
    have earlier := retains_hears hears
    exact ⟨earlier.domainId, earlier.epoch, earlier.validators, earlier.consistent, earlier.statements⟩

/-- A vote that was filed is an old one, came with the message or has gone out. -/
theorem Advance.filed (advance : n.Advance event d votes) {key : ConflictKey} {item : String}
    (filed : (d.committee.votesAt key).get? item = some vote) :
    (n.domain.committee.votesAt key).get? item = some vote ∨
      (∃ message, event.message? = some message ∧ message.vote? = some vote) ∨ vote ∈ votes := by
  have heard {other : Vote} {d' : DomainExecutor} (hears : n.domain.Hears other d')
      (there : (d'.committee.votesAt key).get? item = some vote) :
      vote = other ∨ (n.domain.committee.votesAt key).get? item = some vote := by
    obtain ⟨c, files, rfl⟩ := hears
    exact files.votes there
  cases advance with
  | idle same =>
    obtain ⟨c, same, rfl⟩ := same
    exact Or.inl (same.votesAt key ▸ filed)
  | applied => exact Or.inl filed
  | @heard message arrives other carries _ hears =>
    rcases heard hears filed with rfl | old
    · exact Or.inr (Or.inl ⟨message, arrives, carries⟩)
    · exact Or.inl old
  | prepared _ _ hears =>
    rcases heard hears filed with rfl | old
    · exact Or.inr (Or.inr List.mem_cons_self)
    · exact Or.inl old
  | committed _ _ hears =>
    rcases heard hears filed with rfl | old
    · exact Or.inr (Or.inr List.mem_cons_self)
    · exact Or.inl old
  | @collected other arrives _ _ _ hears =>
    rcases heard hears filed with rfl | old
    · exact Or.inr (Or.inl ⟨_, arrives, rfl⟩)
    · exact Or.inl old

/-- A node votes in the name of its validator. -/
theorem Advance.own (advance : n.Advance event d votes) {vote : Vote} (sent : vote ∈ votes) :
    vote.validatorId = n.validator.validatorId := by
  have one : ∀ {operation phase}, vote ∈ n.cast operation phase → vote.validatorId = n.validator.validatorId := by
    intro operation phase member
    rcases List.mem_cons.mp member with rfl | forged
    · rfl
    · split at forged
      · rw [List.mem_singleton.mp forged]
        rfl
      · cases forged
  cases advance with
  | prepared => exact one sent
  | committed => exact one sent
  | _ => cases sent

theorem mem_cast_of_plain (plain : n.byzantine = false) {vote : Vote} (sent : vote ∈ n.cast operation phase) :
    vote = n.castVote operation operation.dependencyDigest phase := by
  unfold cast at sent
  rw [plain] at sent
  exact List.mem_singleton.mp sent

/-- A node that is not byzantine sends the votes that its committee has filed. -/
theorem Advance.stated (advance : n.Advance event d votes) (plain : n.byzantine = false) {vote : Vote}
    (sent : vote ∈ votes) : (d.committee.statementsAt vote.conflictKey).get? vote.validatorId = some vote.choice := by
  have one : ∀ {operation phase}, n.domain.Hears (n.castVote operation operation.dependencyDigest phase) d →
      vote ∈ n.cast operation phase →
        (d.committee.statementsAt vote.conflictKey).get? vote.validatorId = some vote.choice := by
    intro operation phase hears member
    obtain rfl := mem_cast_of_plain plain member
    obtain ⟨c, files, rfl⟩ := hears
    exact files.statements.1
  cases advance with
  | prepared _ _ hears => exact one hears sent
  | committed _ _ hears => exact one hears sent
  | _ => cases sent

/-- It votes COMMIT only for what it has been shown an accepted certificate of. -/
theorem Advance.second (advance : n.Advance event d votes) (plain : n.byzantine = false) {vote : Vote}
    (sent : vote ∈ votes) (second : vote.phase = "COMMIT") :
    ∃ operation certificate leaderId, event.message? = some (.commitRequest operation certificate leaderId) ∧
      n.domain.Accepts certificate operation ∧ vote = n.castVote operation operation.dependencyDigest "COMMIT" := by
  cases advance with
  | prepared =>
    rw [mem_cast_of_plain plain sent] at second
    exact absurd second (by simp [castVote, Validator.signVote])
  | committed arrives accepts => exact ⟨_, _, _, arrives, accepts, mem_cast_of_plain plain sent⟩
  | _ => cases sent

/-- The node votes with the same key, and its submissions are old ones or from the message. -/
structure Carries (asked : Operation → Prop) (n t : DistributedNode) : Prop where
  validator : t.validator = n.validator
  byzantine : t.byzantine = n.byzantine
  pending : ∀ opId entry, t.pending.get? opId = some entry →
    (∃ old, n.pending.get? opId = some old ∧ old.operation = entry.operation) ∨ asked entry.operation

variable {asked : Operation → Prop}

instance : Std.Refl (Carries asked) := ⟨fun _ => ⟨rfl, rfl, fun _ entry found => Or.inl ⟨entry, found, rfl⟩⟩⟩

instance : IsTrans DistributedNode (Carries asked) where
  trans _ _ _ first second := by
    refine ⟨second.validator.trans first.validator, second.byzantine.trans first.byzantine, fun opId entry found => ?_⟩
    rcases second.pending opId entry found with ⟨old, held, same⟩ | new
    · rw [← same]
      exact first.pending opId old held
    · exact Or.inr new

theorem carries_onDomain {α : Type} {x : PyDomain α} : Guarantees (Carries asked) n (onDomain x) fun _ _ => True := by
  refine ⟨?_, fun _ _ _ => trivial⟩
  rw [final_onDomain]
  exact ⟨rfl, rfl, fun _ entry found => Or.inl ⟨entry, found, rfl⟩⟩

theorem carries_setPending {opId : String} {old entry : Pending} (held : n.pending.get? opId = some old)
    (same : old.operation = entry.operation) : Carries asked n (setPending opId entry n) := by
  refine ⟨rfl, rfl, fun opId' entry' found => ?_⟩
  rcases Dict.origin_of_get?_set found with ⟨rfl, rfl⟩ | earlier
  · exact Or.inl ⟨old, held, same⟩
  · exact Or.inl ⟨entry', earlier, rfl⟩

theorem carries_popPending {opId : String} : Carries asked n (popPending opId n) := by
  exact ⟨rfl, rfl, fun opId' entry found => Or.inl ⟨entry, (get?_of_popPending found).2, rfl⟩⟩

theorem carries_answerRequest {message : Vote → NodeMessage} :
    Guarantees (Carries asked) n (answerRequest message operation phase leaderId) fun _ _ => True :=
  .get_bind (carries_onDomain.bind fun _ _ _ _ => carries_onDomain.bind fun _ _ _ _ => .pure trivial)

theorem carries_request {x : PyDomain Bool} {message : Vote → NodeMessage} :
    Guarantees (Carries asked) n (do
      let accepted ← onDomain x
      if accepted then answerRequest message operation phase leaderId else return {}) fun _ _ => True := by
  refine carries_onDomain.bind fun accepted _ _ _ => ?_
  cases accepted with
  | true => exact carries_answerRequest
  | false => exact .pure trivial

theorem carries_collectVote {held : Pending → Option Certificate} :
    Guarantees (Carries asked) n (collectVote vote phase held) fun _ _ => True := by
  unfold collectVote
  refine .get_bind ?_
  split
  · exact .pure trivial
  cases n.pending.get? vote.opId with
  | none => exact .pure trivial
  | some entry =>
    have voted : Guarantees (Carries asked) n (outcome (recordVote vote)) fun _ _ => True :=
      carries_onDomain.outcome.mono fun _ _ _ _ => trivial
    refine voted.bind fun result u _ _ => ?_
    split
    · have counted : Guarantees (Carries asked) u (modify (count "equivocations") : PyNetwork PUnit) fun _ _ => True :=
        .update ⟨rfl, rfl, fun _ entry found => Or.inl ⟨entry, found, rfl⟩⟩ trivial
      exact counted.bind fun _ _ _ _ => .pure trivial
    · exact .throw _
    · split
      · exact .pure trivial
      · refine .get_bind ?_
        split
        · exact .pure trivial
        · exact .throw _
        · exact .pure trivial

/-- What was collected is for an operation that waits. -/
theorem collected_waits {held : Pending → Option Certificate} {entry : Pending} {certificate : Certificate}
    (collected : collectVote vote phase held n = .ok (some (entry, certificate)) t) :
    t.pending.get? vote.opId = some entry := by
  have quiet := @quiet_collectVote _ n vote phase held
  obtain ⟨found, -⟩ := quiet.returns _ t collected entry certificate rfl
  rw [(quiet.step collected).pending]
  exact found

theorem carries_onPrepareVote : Guarantees (Carries asked) n (onPrepareVote vote) fun _ _ => True := by
  unfold onPrepareVote
  cases collected : collectVote vote "PREPARE" Pending.prepareCertificate n with
  | error e t => exact .of_error (bind_of_error collected) (carries_collectVote.step_error collected)
  | ok result t =>
    refine .of_run (bind_of_ok collected) (carries_collectVote.step collected) ?_
    cases result with
    | none => exact .pure trivial
    | some issued =>
      have kept : Carries asked t (setPending vote.opId { issued.1 with prepareCertificate := some issued.2 } t) :=
        carries_setPending (collected_waits collected) rfl
      exact (Guarantees.update (P := fun _ _ => True) kept trivial).bind fun _ _ _ _ => .get_bind (.pure trivial)

theorem carries_onCommitVote : Guarantees (Carries asked) n (onCommitVote vote) fun _ _ => True := by
  unfold onCommitVote
  cases collected : collectVote vote "COMMIT" Pending.commitCertificate n with
  | error e t => exact .of_error (bind_of_error collected) (carries_collectVote.step_error collected)
  | ok result t =>
    refine .of_run (bind_of_ok collected) (carries_collectVote.step collected) ?_
    cases result with
    | none => exact .pure trivial
    | some issued =>
      obtain ⟨entry, certificate⟩ := issued
      let held := setPending vote.opId { entry with commitCertificate := some certificate } t
      have kept : Carries asked t held := carries_setPending (collected_waits collected) rfl
      refine .of_run (bind_of_ok (modify_apply _ _)) kept ?_
      cases applied : onDomain (DomainExecutor.applyCommitted entry.operation certificate) held with
      | error e u => exact .of_error (bind_of_error applied) (carries_onDomain.step_error applied)
      | ok _ u =>
        refine .of_run (bind_of_ok applied) (carries_onDomain.step applied) ?_
        have waits : u.pending.get? vote.opId = some { entry with commitCertificate := some certificate } := by
          have same : u = setDomain u.domain held := by
            have ends := final_onDomain (DomainExecutor.applyCommitted entry.operation certificate) held
            rw [final_of_ok applied] at ends
            rw [ends]
            rfl
          rw [same]
          exact Dict.get?_set_self _ _ _
        refine .get_bind ?_
        have last : Carries asked u (setPending vote.opId
            { entry with commitCertificate := some certificate, ackIds := entry.ackIds.insert u.nodeId } u) :=
          carries_setPending waits rfl
        exact (Guarantees.update (P := fun _ _ => True) last trivial).bind fun _ _ _ _ => .pure trivial

theorem carries_onCommitCertificate {certificate : Certificate} :
    Guarantees (Carries asked) n (onCommitCertificate operation certificate leaderId) fun _ _ => True := by
  unfold onCommitCertificate
  refine .get_bind ?_
  split
  · exact .pure trivial
  refine carries_onDomain.bind fun accepted _ _ _ => ?_
  cases accepted with
  | true => exact carries_onDomain.bind fun _ _ _ _ => .pure trivial
  | false => exact .pure trivial

theorem carries_maybeFinish (opId : String) (now : Int) (n : DistributedNode) :
    Carries asked n (final (maybeFinish opId now) n) := by
  rcases maybeFinish_cases n opId now with same | ⟨entry, answer, -, -, -, -, ends⟩
  · rw [same]
    exact Std.Refl.refl n
  · rw [ends]
    exact IsTrans.trans _ (setFuture entry.future (.finished answer) n) _
      ⟨rfl, rfl, fun _ entry found => Or.inl ⟨entry, found, rfl⟩⟩ carries_popPending

theorem carries_onAck {opId nodeId : String} : Carries asked n (final (onAck opId nodeId now) n) := by
  cases found : n.pending.get? opId with
  | none =>
    rw [final_onAck_of_none found]
    exact Std.Refl.refl n
  | some entry =>
    rw [final_onAck found]
    have noted : Carries asked n (setPending opId { entry with ackIds := entry.ackIds.insert nodeId } n) :=
      carries_setPending found rfl
    exact IsTrans.trans _ _ _ noted (carries_maybeFinish opId now _)

theorem carries_submit (new : asked operation) :
    Guarantees (Carries asked) n (submit operation now) fun _ _ => True := by
  unfold submit
  refine .get_bind ?_
  split
  · exact .pure trivial
  split
  · exact .pure trivial
  refine carries_onDomain.bind fun _ _ _ _ => carries_onDomain.bind fun dac u _ _ => ?_
  have created : Guarantees (Carries asked) u (modify createFuture : PyNetwork PUnit) fun _ _ => True :=
    .update ⟨rfl, rfl, fun _ entry found => Or.inl ⟨entry, found, rfl⟩⟩ trivial
  refine created.bind fun _ v _ _ => ?_
  have filed : Carries asked v
      (setPending operation.opId ⟨operation, dac, n.futures.length, now, none, none, []⟩ v) := by
    refine ⟨rfl, rfl, fun opId entry found => ?_⟩
    rcases Dict.origin_of_get?_set found with ⟨-, rfl⟩ | earlier
    · exact Or.inr new
    · exact Or.inl ⟨entry, earlier, rfl⟩
  exact (Guarantees.update (P := fun _ _ => True) filed trivial).bind fun _ _ _ _ => .pure trivial

/-- An event brings no submission but that of its message. -/
theorem carries_exec (n : DistributedNode) (event : NodeEvent) :
    Carries (fun operation => ∃ message, event.message? = some message ∧ message.operation? = some operation) n
      (event.exec n) := by
  cases event with
  | broadcasted opId now => exact carries_maybeFinish opId now n
  | counts metrics => exact ⟨rfl, rfl, fun _ entry found => Or.inl ⟨entry, found, rfl⟩⟩
  | expires future =>
    show Carries _ n (expire future n)
    unfold expire
    split
    · exact ⟨rfl, rfl, fun _ entry found => Or.inl ⟨entry, found, rfl⟩⟩
    · exact Std.Refl.refl n
  | withdraws opId =>
    show Carries _ n (withdraw opId n)
    unfold withdraw
    split
    · split
      · exact carries_popPending
      · exact Std.Refl.refl n
    · exact Std.Refl.refl n
  | arrives message now =>
    rw [exec_arrives]
    cases message with
    | submit operation => exact (carries_submit ⟨_, rfl, rfl⟩).moves
    | prepareRequest operation dac leaderId => exact (Guarantees.get_bind carries_request).moves
    | prepareVote vote => exact carries_onPrepareVote.moves
    | commitRequest operation certificate leaderId => exact (Guarantees.get_bind carries_request).moves
    | commitVote vote => exact carries_onCommitVote.moves
    | commitCertificate operation certificate leaderId => exact carries_onCommitCertificate.moves
    | ack opId nodeId =>
      have ends : final (dispatch (.ack opId nodeId) now) n = final (onAck opId nodeId now) n := by
        show final (onAck opId nodeId now >>= fun _ => pure ({} : Reaction)) n = _
        cases run : onAck opId nodeId now n with
        | ok _ u =>
          rw [final_of_ok run, final_bind_of_ok run]
          rfl
        | error e u => rw [final_of_error run, final_bind_of_error run]
      rw [ends]
      exact carries_onAck
    | shutdown => exact ⟨rfl, rfl, fun _ entry found => Or.inl ⟨entry, found, rfl⟩⟩
    | metrics => exact Std.Refl.refl n
    | unknown messageType => exact ⟨rfl, rfl, fun _ entry found => Or.inl ⟨entry, found, rfl⟩⟩

end DistributedNode

end Mosaic.Nexus
