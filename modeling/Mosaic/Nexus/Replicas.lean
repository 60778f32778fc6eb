import Mathlib.Algebra.BigOperators.Ring.Finset
import Mosaic.Lib.Lineage
import Mosaic.Lib.Quorum
import Mosaic.Nexus.Ballots
import Mosaic.Nexus.ObjectHistory

namespace Mosaic.Nexus
open CanonicalJson Effects DomainExecutor

variable [Crypto]

/-- The signatures in a message, under the names they are said to be by. -/
def NodeMessage.signatures : NodeMessage → List (String × Bytes)
  | .prepareVote vote | .commitVote vote => [(vote.validatorId, vote.signature)]
  | .commitRequest _ certificate _ | .commitCertificate _ certificate _ => certificate.signatures
  | _ => []

/-- What a node is started with, apart from its executor. -/
structure Seat where
  nodeId : String
  peers : List String
  leaderId : String
  validator : Validator
  byzantine : Bool

/-- A node and the votes that it has sent. -/
structure Replica where
  node : DistributedNode
  sent : List Vote

/-- Nodes that start with copies of one executor. A validator that is not faulty sits at
one of them, its home, and its votes come from there. The operations that go around have their contents'
digests for ids, and two of them that compete for one version of an object compete for
all of their versions. -/
structure Replicas (ι : Type) where
  domain : DomainExecutor
  seat : ι → Seat
  home : String → ι
  weight : String → ℕ
  faulty : Finset String
  operations : Operation → Prop
  unvoted : domain.committee.votes = .empty
  unstated : domain.committee.statements = .empty
  keyed : ∀ key state, domain.objects.get? key = some state → state.objectId = key
  weighed : ∀ w validator, domain.committee.validators.get? w = some validator → validator.weight = weight w
  few : 3 * Quorum.weigh weight faulty ≤ Quorum.weigh weight domain.committee.validators.keys.toFinset
  lodged : ∀ w ∈ domain.committee.validators.keys, w ∉ faulty →
    (seat (home w)).validator.validatorId = w ∧ (seat (home w)).byzantine = false
  housed : ∀ i, (seat i).validator.validatorId ∈ domain.committee.validators.keys →
    (seat i).validator.validatorId ∉ faulty → home (seat i).validator.validatorId = i
  bound : ∀ operation, operations operation → operation.Bound
  apart : ∀ a b, operations a → operations b →
    (∃ item ∈ domain.objectVersions a, item ∈ domain.objectVersions b) →
      domain.objectVersions a = domain.objectVersions b

namespace Replicas

variable {ι : Type} [DecidableEq ι] (replicas : Replicas ι)

abbrev committee : QuorumCommittee := replicas.domain.committee

def start (i : ι) : Replica where
  node := .new (replicas.seat i).nodeId (replicas.seat i).peers (replicas.seat i).leaderId (replicas.seat i).validator
    (replicas.seat i).byzantine replicas.domain
  sent := []

/-- An event at one of the nodes. -/
def exec (event : ι × NodeEvent) (net : ι → Replica) : ι → Replica :=
  Function.update net event.1
    ⟨event.2.exec (net event.1).node, (net event.1).sent ++ event.2.votes (net event.1).node⟩

def Honest (w : String) : Prop := w ∈ replicas.committee.validators.keys ∧ w ∉ replicas.faulty

/-- The validator has sent a vote with this key and this choice. -/
def Cast (net : ι → Replica) (w : String) (key : ConflictKey) (choice : String × String) : Prop :=
  ∃ vote ∈ (net (replicas.home w)).sent, vote.conflictKey = key ∧ vote.choice = choice

/-- The operations in messages are among those that go around, and the signatures of
honest validators are not forged. -/
structure Orderly (net : ι → Replica) (event : ι × NodeEvent) : Prop where
  known : ∀ message, event.2.message? = some message → ∀ operation, message.operation? = some operation →
    replicas.operations operation
  unforged : ∀ message, event.2.message? = some message → ∀ vote : Vote,
    (vote.validatorId, vote.signature) ∈ message.signatures → replicas.Honest vote.validatorId →
      replicas.committee.Attested vote → replicas.Cast net vote.validatorId vote.conflictKey vote.choice

/-- Orderly events in any order. -/
abbrev Run (net : ι → Replica) : Prop := GuardedRun exec replicas.Orderly replicas.start net

/-- Honest validators of a quorum have all voted so. -/
def Certifies (net : ι → Replica) (key : ConflictKey) (choice : String × String) : Prop :=
  Quorum.Certified replicas.weight replicas.committee.validators.keys.toFinset replicas.faulty
    (fun w ballot => replicas.Cast net w ballot.1 ballot.2) (key, choice)

/-- A quorum has voted for an operation in its first phase. -/
def Prepared (net : ι → Replica) (operation : Operation) : Prop :=
  replicas.Certifies net (replicas.domain.voteKey operation "PREPARE") (operation.opId, operation.dependencyDigest)

/-- An operation that replicas may apply. -/
structure Decided (net : ι → Replica) (operation : Operation) : Prop where
  known : replicas.operations operation
  signed : operation.verifySignature = true
  distinct : ((replicas.domain.localWrites operation).map WriteIntent.objectId).Nodup
  prepared : replicas.Prepared net operation

/-- An operation that was decided on and that the owner has signed makes the one state
of an object of the other. -/
def Next (net : ι → Replica) (old new : ObjectState) : Prop :=
  ∃ operation, replicas.Decided net operation ∧ operation.signer = old.owner ∧
    (old.objectId, old.version) ∈ replicas.domain.objectVersions operation ∧
      ∃ intent ∈ replicas.domain.localWrites operation, intent.objectId = old.objectId ∧ new = successor intent old

def Initial (state : ObjectState) : Prop := ∃ key, replicas.domain.objects.get? key = some state

variable {replicas} {net : ι → Replica}

/-- One step of a property that every node has for itself. -/
theorem each_exec {P : ι → Replica → Prop} (event : ι × NodeEvent) (before : ∀ i, P i (net i))
    (keeps : P event.1 ⟨event.2.exec (net event.1).node, (net event.1).sent ++ event.2.votes (net event.1).node⟩)
    (i : ι) : P i (exec event net i) := by
  by_cases here : i = event.1
  · subst here
    rw [exec, Function.update_self]
    exact keeps
  · rw [exec, Function.update_of_ne here]
    exact before i

/-- The executor of a node has the committee that all started with. -/
structure Serves (d : DomainExecutor) : Prop where
  domainId : d.domainId = replicas.domain.domainId
  epoch : d.epoch = replicas.domain.epoch
  validators : d.committee.validators = replicas.committee.validators
  consistent : d.committee.Consistent

theorem Run.serves (run : replicas.Run net) (i : ι) : replicas.Serves (net i).node.domain := by
  refine run.invariant (P := fun net => ∀ i, replicas.Serves (net i).node.domain) ?_ ?_ i
  · intro i
    refine ⟨rfl, rfl, rfl, ?_, ?_, ?_⟩
    · intro key item
      show (replicas.committee.statementsAt key).get? item = ((replicas.committee.votesAt key).get? item).map _
      rw [QuorumCommittee.statementsAt, QuorumCommittee.votesAt, committee, replicas.unvoted, replicas.unstated]
      rfl
    all_goals
      intro key item vote filed
      change (replicas.committee.votesAt key).get? item = _ at filed
      rw [QuorumCommittee.votesAt, committee, replicas.unvoted] at filed
      cases filed
  · intro net event _ serves i
    refine each_exec (P := fun _ r => replicas.Serves r.node.domain) event serves ?_ i
    have retains := ((net event.1).node.advance_exec event.2).retains
    have before := serves event.1
    exact ⟨retains.domainId.trans before.domainId, retains.epoch.trans before.epoch,
      retains.validators.trans before.validators, retains.consistent before.consistent⟩

/-- The node sits where it was put, and its committee holds the votes that it has sent. -/
structure Stands (seat : Seat) (r : Replica) : Prop where
  validator : r.node.validator = seat.validator
  byzantine : r.node.byzantine = seat.byzantine
  stated : seat.byzantine = false → ∀ vote ∈ r.sent, vote.validatorId = seat.validator.validatorId ∧
    (r.node.domain.committee.statementsAt vote.conflictKey).get? vote.validatorId = some vote.choice

theorem Run.stands (run : replicas.Run net) (i : ι) : Stands (replicas.seat i) (net i) := by
  refine run.invariant (P := fun net => ∀ i, Stands (replicas.seat i) (net i)) ?_ ?_ i
  · exact fun i => ⟨rfl, rfl, fun _ _ sent => absurd sent List.not_mem_nil⟩
  · intro net event _ before i
    refine each_exec (P := fun i => Stands (replicas.seat i)) event before ?_ i
    obtain ⟨validator, byzantine, stated⟩ := before event.1
    have carries := DistributedNode.carries_exec (net event.1).node event.2
    have advance := (net event.1).node.advance_exec event.2
    refine ⟨carries.validator.trans validator, carries.byzantine.trans byzantine, fun plain vote sent => ?_⟩
    rcases List.mem_append.mp sent with old | new
    · obtain ⟨own, there⟩ := stated plain vote old
      exact ⟨own, advance.retains.statements _ _ _ there⟩
    · exact ⟨(advance.own new).trans (congrArg Validator.validatorId validator),
        advance.stated (byzantine.trans plain) new⟩

/-- Submissions are for operations that go around. -/
theorem Run.submissions (run : replicas.Run net) (i : ι) {opId : String} {entry : Pending}
    (found : (net i).node.pending.get? opId = some entry) : replicas.operations entry.operation := by
  refine run.invariant (P := fun net => ∀ i opId entry, (net i).node.pending.get? opId = some entry →
    replicas.operations entry.operation) ?_ ?_ i opId entry found
  · intro i opId entry found
    cases found
  · intro net event orderly before i
    refine each_exec (P := fun _ r => ∀ opId entry, r.node.pending.get? opId = some entry →
      replicas.operations entry.operation) event before ?_ i
    intro opId entry found
    rcases (DistributedNode.carries_exec (net event.1).node event.2).pending opId entry found with ⟨old, held, same⟩ |
      ⟨message, arrives, asks⟩
    · rw [← same]
      exact before event.1 opId old held
    · exact orderly.known message arrives _ asks

theorem exec_sent (event : ι × NodeEvent) (i : ι) : (net i).sent ⊆ (exec event net i).sent := by
  refine each_exec (P := fun i r => (net i).sent ⊆ r.sent) event (fun _ => List.Subset.refl _) ?_ i
  exact List.subset_append_left _ _

section Growing

variable {later : ι → Replica} (grows : ∀ i, (net i).sent ⊆ (later i).sent)
include grows

omit [DecidableEq ι] in
theorem Cast.mono {w : String} {key : ConflictKey} {choice : String × String} (cast : replicas.Cast net w key choice) :
    replicas.Cast later w key choice := by
  obtain ⟨vote, sent, same⟩ := cast
  exact ⟨vote, grows _ sent, same⟩

omit [DecidableEq ι] in
theorem Certifies.mono {key : ConflictKey} {choice : String × String} (certified : replicas.Certifies net key choice) :
    replicas.Certifies later key choice := by
  obtain ⟨Q, inQ, large, votes⟩ := certified
  exact ⟨Q, inQ, large, fun w member honest => (votes w member honest).mono grows⟩

omit [DecidableEq ι] in
theorem Next.mono {old new : ObjectState} (next : replicas.Next net old new) : replicas.Next later old new := by
  obtain ⟨operation, ⟨known, signed, distinct, prepared⟩, rest⟩ := next
  exact ⟨operation, ⟨known, signed, distinct, Certifies.mono grows prepared⟩, rest⟩

end Growing

/-- The votes that a committee has filed for honest validators were cast. -/
theorem Run.filed (run : replicas.Run net) (i : ι) {key : ConflictKey} {w : String} {vote : Vote}
    (filed : ((net i).node.domain.committee.votesAt key).get? w = some vote) (honest : replicas.Honest w) :
    replicas.Cast net w key vote.choice := by
  suffices every : ∀ i key w vote, ((net i).node.domain.committee.votesAt key).get? w = some vote →
      replicas.Honest w → replicas.Cast net w key vote.choice from every i key w vote filed honest
  clear filed honest
  have whole := run
  induction run with
  | refl =>
    intro i key w vote filed
    change (replicas.committee.votesAt key).get? w = _ at filed
    rw [QuorumCommittee.votesAt, committee, replicas.unvoted] at filed
    cases filed
  | @tail net event earlier orderly ih =>
    intro i key w vote filed honest
    have grows : ∀ i, (net i).sent ⊆ (exec event net i).sent := exec_sent event
    obtain ⟨mine, here⟩ := (whole.serves i).consistent.placed key w vote filed
    have attested := ((whole.serves i).consistent.attested key w vote filed).1
    unfold QuorumCommittee.Attested at attested
    rw [(whole.serves i).validators] at attested
    by_cases there : i = event.1
    swap
    · rw [exec, Function.update_of_ne there] at filed
      exact (ih earlier i key w vote filed honest).mono grows
    subst there
    have advance := (net event.1).node.advance_exec event.2
    have filed' : ((event.2.exec (net event.1).node).domain.committee.votesAt key).get? w = some vote := by
      rwa [exec, Function.update_self] at filed
    rcases advance.filed filed' with old | ⟨message, arrives, carries⟩ | new
    · exact (ih earlier _ key w vote old honest).mono grows
    · have listed : (vote.validatorId, vote.signature) ∈ message.signatures := by
        cases message with
        | prepareVote other | commitVote other =>
          cases carries
          exact List.mem_singleton_self _
        | _ => cases carries
      subst mine here
      exact (orderly.unforged message arrives vote listed honest attested).mono grows
    · -- a vote that the node has just sent, so that it is the home of the validator
      have own := (advance.own new).trans (congrArg Validator.validatorId (Run.stands earlier event.1).validator)
      rw [mine] at own
      have home := replicas.housed event.1 (own ▸ honest.1) (own ▸ honest.2)
      rw [← own] at home
      refine ⟨vote, ?_, here, rfl⟩
      rw [home, exec, Function.update_self]
      exact List.mem_append_right _ new

/-- The votes of an honest validator agree under every key. -/
theorem Run.votes (run : replicas.Run net) {w : String} (honest : replicas.Honest w) {key : ConflictKey}
    {choice choice' : String × String} (cast : replicas.Cast net w key choice)
    (cast' : replicas.Cast net w key choice') : choice = choice' := by
  obtain ⟨own, plain⟩ := replicas.lodged w honest.1 honest.2
  have stated := (run.stands (replicas.home w)).stated plain
  obtain ⟨vote, sent, rfl, rfl⟩ := cast
  obtain ⟨vote', sent', same, rfl⟩ := cast'
  obtain ⟨mine, there⟩ := stated vote sent
  obtain ⟨mine', there'⟩ := stated vote' sent'
  rw [same, mine', ← mine, there] at there'
  exact Option.some.inj there'

theorem Run.certified_agree (run : replicas.Run net) {key : ConflictKey} {choice choice' : String × String}
    (certified : replicas.Certifies net key choice) (certified' : replicas.Certifies net key choice') :
    choice = choice' := by
  obtain ⟨Q, inQ, large, votes⟩ := certified
  obtain ⟨R, inR, large', votes'⟩ := certified'
  obtain ⟨w, member, honest⟩ := Quorum.exists_honest_in_both replicas.weight inQ inR large large' replicas.few
  rw [Finset.mem_inter] at member
  have known : replicas.Honest w := ⟨List.mem_toFinset.mp (inQ member.1), honest⟩
  exact run.votes known (votes w member.1 honest) (votes' w member.2 honest)

omit [DecidableEq ι] in
/-- Some honest validator has voted for what is certified. -/
theorem Certifies.exists_cast {key : ConflictKey} {choice : String × String}
    (certified : replicas.Certifies net key choice) : ∃ w, replicas.Honest w ∧ replicas.Cast net w key choice := by
  obtain ⟨Q, inQ, large, votes⟩ := certified
  obtain ⟨w, member, honest⟩ := Quorum.exists_honest_in_both replicas.weight inQ inQ large large replicas.few
  rw [Finset.inter_self] at member
  exact ⟨w, ⟨List.mem_toFinset.mp (inQ member), honest⟩, votes w member honest⟩

omit [DecidableEq ι] in
/-- A committee weighs known validators as the replicas do. -/
theorem Serves.weigh {d : DomainExecutor} (serves : replicas.Serves d) {voters : Finset String}
    (inside : voters ⊆ replicas.committee.validators.keys.toFinset) :
    d.committee.weigh voters = (Quorum.weigh replicas.weight voters : ℕ) := by
  rw [QuorumCommittee.weigh_congr serves.validators, QuorumCommittee.weigh, Quorum.weigh, Nat.cast_sum]
  refine Finset.sum_congr rfl fun w member => ?_
  obtain ⟨validator, found⟩ := Dict.mem_keys.mp (List.mem_toFinset.mp (inside member))
  rw [Dict.amountAt_of_some found, replicas.weighed w validator found]

omit [DecidableEq ι] in
/-- Known validators that reach the threshold certify what the honest ones among them
have cast. -/
theorem Serves.certifies {d : DomainExecutor} (serves : replicas.Serves d) {voters : Finset String}
    (known : ∀ w ∈ voters, (d.committee.validators.get? w).isSome)
    (enough : d.committee.threshold ≤ d.committee.weigh voters) {key : ConflictKey} {choice : String × String}
    (cast : ∀ w ∈ voters, replicas.Honest w → replicas.Cast net w key choice) : replicas.Certifies net key choice := by
  have inside : voters ⊆ replicas.committee.validators.keys.toFinset := by
    intro w member
    have there := known w member
    rw [serves.validators] at there
    exact List.mem_toFinset.mpr (Dict.mem_keys.mpr (Option.isSome_iff_exists.mp there))
  refine ⟨voters, inside, ?_, fun w member honest => cast w member ⟨List.mem_toFinset.mp (inside member), honest⟩⟩
  have total := d.committee.totalWeight_eq_weigh
  rw [serves.validators, serves.weigh Finset.Subset.rfl] at total
  rw [QuorumCommittee.threshold, total, serves.weigh inside] at enough
  omega

omit [DecidableEq ι] in
theorem Serves.voteKey {d : DomainExecutor} (serves : replicas.Serves d) (operation : Operation) (phase : String) :
    d.voteKey operation phase = replicas.domain.voteKey operation phase := by
  simp only [DomainExecutor.voteKey, DomainExecutor.objectVersions, localInputs, serves.domainId, serves.epoch]

omit [DecidableEq ι] in
/-- A certificate that an executor accepts certifies the operation in its phase. -/
theorem Serves.certifies_of_accepts {d : DomainExecutor} (serves : replicas.Serves d) {operation : Operation}
    {certificate : Certificate} (accepts : d.Accepts certificate operation)
    (unforged : ∀ vote : Vote, (vote.validatorId, vote.signature) ∈ certificate.signatures →
      replicas.Honest vote.validatorId → replicas.committee.Attested vote →
        replicas.Cast net vote.validatorId vote.conflictKey vote.choice) :
    replicas.Certifies net (replicas.domain.voteKey operation certificate.phase)
      (operation.opId, operation.dependencyDigest) := by
  obtain ⟨-, known, enough, valid⟩ := QuorumCommittee.verifyCertificate_eq_true.mp accepts.2
  obtain ⟨signers, verified⟩ := QuorumCommittee.signaturesValid_eq_true.mp valid
  rw [← serves.voteKey]
  refine serves.certifies (fun w member => known w (List.mem_toFinset.mp member)) enough fun w member honest => ?_
  have listed := (signers w).mpr (List.mem_toFinset.mp member)
  obtain ⟨signature, found⟩ : ∃ signature,
      (Dict.ofList (sortedSignatures certificate.signatures)).get? w = some signature := by
    refine Dict.mem_keys.mp (Dict.mem_keys_ofList.mpr ?_)
    exact ((sortedSignatures_perm _).map Prod.fst).mem_iff.mpr listed
  obtain ⟨validator, there, signed⟩ := verified w signature found
  rw [serves.validators] at there
  exact unforged ⟨w, d.epoch, d.domainId, d.objectVersions operation, operation.opId, operation.dependencyDigest,
    certificate.phase, signature⟩ (mem_sortedSignatures.mp (Dict.mem_of_get?_ofList found)) honest
    ⟨validator, there, signed⟩

/-- Wherever an honest validator has voted COMMIT, a quorum has voted PREPARE. -/
def Grounded (replicas : Replicas ι) (net : ι → Replica) : Prop :=
  ∀ w, replicas.Honest w → ∀ operation, replicas.Cast net w (replicas.domain.voteKey operation "COMMIT")
    (operation.opId, operation.dependencyDigest) → replicas.Prepared net operation

omit [DecidableEq ι] in
/-- Whatever phase an accepted certificate is of, there was a quorum in the first one. -/
theorem Grounded.prepared (grounded : Grounded replicas net) {operation : Operation} {phase : String}
    (phases : phase ∈ ["PREPARE", "COMMIT"])
    (certified : replicas.Certifies net (replicas.domain.voteKey operation phase)
      (operation.opId, operation.dependencyDigest)) : replicas.Prepared net operation := by
  rcases List.mem_pair.mp phases with rfl | rfl
  · exact certified
  · obtain ⟨w, honest, cast⟩ := certified.exists_cast
    exact grounded w honest operation cast

omit [DecidableEq ι] in
theorem Orderly.prepared {event : ι × NodeEvent} (orderly : replicas.Orderly net event)
    (grounded : Grounded replicas net) {d : DomainExecutor} (serves : replicas.Serves d) {message : NodeMessage}
    (arrives : event.2.message? = some message) {operation : Operation} {certificate : Certificate}
    (signatures : message.signatures = certificate.signatures)
    (accepts : d.Accepts certificate operation) : replicas.Prepared net operation := by
  obtain ⟨⟨-, -, -, -, -, phases, -⟩, -⟩ := QuorumCommittee.verifyCertificate_eq_true.mp accepts.2
  refine grounded.prepared phases (serves.certifies_of_accepts accepts fun vote listed => ?_)
  exact orderly.unforged message arrives vote (signatures ▸ listed)

/-- The keys of two operations are the same only in the same phase. -/
theorem Run.grounded (run : replicas.Run net) : Grounded replicas net := by
  induction run with
  | refl =>
    rintro w - operation ⟨vote, sent, -⟩
    cases sent
  | @tail net event earlier orderly ih =>
    have grows : ∀ i, (net i).sent ⊆ (exec event net i).sent := exec_sent event
    intro w honest operation ⟨vote, sent, key, choice⟩
    have serves := Run.serves earlier event.1
    suffices either : vote ∈ (net (replicas.home w)).sent ∨ replicas.Prepared net operation by
      rcases either with old | certified
      · exact Certifies.mono grows (ih w honest operation ⟨vote, old, key, choice⟩)
      · exact Certifies.mono grows certified
    by_cases there : replicas.home w = event.1
    swap
    · rw [exec, Function.update_of_ne there] at sent
      exact Or.inl sent
    rw [there, exec, Function.update_self] at sent
    rcases List.mem_append.mp sent with old | new
    · exact Or.inl (there ▸ old)
    right
    have plain : (net event.1).node.byzantine = false := by
      rw [(Run.stands earlier event.1).byzantine, ← there]
      exact (replicas.lodged w honest.1 honest.2).2
    have phase : vote.phase = "COMMIT" := congrArg ConflictKey.phase key
    obtain ⟨other, certificate, leaderId, arrives, accepts, rfl⟩ :=
      ((net event.1).node.advance_exec event.2).second plain new phase
    have prepared := orderly.prepared ih serves arrives rfl accepts
    have versions : (net event.1).node.domain.objectVersions other = replicas.domain.objectVersions operation :=
      congrArg ConflictKey.objectVersions key
    have same : replicas.domain.voteKey other "PREPARE" = replicas.domain.voteKey operation "PREPARE" := by
      rw [← serves.voteKey]
      simp only [DomainExecutor.voteKey, versions, serves.epoch, serves.domainId]
    have chosen : (other.opId, other.dependencyDigest) = (operation.opId, operation.dependencyDigest) := choice
    unfold Prepared at prepared ⊢
    rwa [same, chosen] at prepared

omit [DecidableEq ι] in
theorem Next.eq (free : CollisionFree) (agree : ∀ {key : ConflictKey} {choice choice' : String × String},
      replicas.Certifies net key choice → replicas.Certifies net key choice' → choice = choice')
    {old new new' : ObjectState} (next : replicas.Next net old new) (next' : replicas.Next net old new') :
    new = new' := by
  obtain ⟨a, decided, -, uses, intent, inWrites, named, rfl⟩ := next
  obtain ⟨b, decided', -, uses', intent', inWrites', named', rfl⟩ := next'
  have versions := replicas.apart a b decided.known decided'.known ⟨_, uses, uses'⟩
  have keys : replicas.domain.voteKey a "PREPARE" = replicas.domain.voteKey b "PREPARE" := by
    simp only [DomainExecutor.voteKey, versions]
  have prepared := decided.prepared
  unfold Prepared at prepared
  rw [keys] at prepared
  have id : a.opId = b.opId := congrArg Prod.fst (agree prepared decided'.prepared)
  have writes := Operation.writes_of_bound free (replicas.bound a decided.known) (replicas.bound b decided'.known) id
  have inWrites'' : intent ∈ replicas.domain.localWrites b := by
    unfold localWrites at inWrites ⊢
    rwa [← writes]
  rw [List.inj_on_of_nodup_map decided'.distinct inWrites'' inWrites' (named.trans named'.symm)]

/-- The states of an object that were decided on form one line. -/
theorem Run.straight (free : CollisionFree) (run : replicas.Run net) :
    Lineage.Straight replicas.Initial (replicas.Next net) ObjectState.objectId ObjectState.version where
  single := by
    rintro x y ⟨key, found⟩ ⟨key', found'⟩ same
    rw [replicas.keyed key x found, replicas.keyed key' y found'] at same
    subst same
    exact Option.some.inj (found.symm.trans found')
  keeps := by
    rintro old new ⟨_, -, -, -, intent, -, -, rfl⟩
    rfl
  rises := by
    rintro old new ⟨_, -, -, -, intent, -, -, rfl⟩
    rfl
  only := fun next next' => next.eq free (fun certified certified' => run.certified_agree certified certified') next'

/-- Every object stands under its id, in a state that was decided on. -/
def Settled (replicas : Replicas ι) (net : ι → Replica) (d : DomainExecutor) : Prop :=
  ∀ key state, d.objects.get? key = some state →
    state.objectId = key ∧ Lineage replicas.Initial (replicas.Next net) state

omit [DecidableEq ι] in
/-- What is applied was decided on. -/
theorem Serves.decided {d : DomainExecutor} (serves : replicas.Serves d) {operation : Operation}
    (known : replicas.operations operation) (valid : d.Valid operation)
    (prepared : replicas.Prepared net operation) : replicas.Decided net operation where
  known := known
  signed := valid.signature
  distinct := by
    have distinct := valid.localWrites_distinct
    unfold localWrites at distinct ⊢
    rwa [← serves.domainId]
  prepared := prepared

omit [DecidableEq ι] in
theorem Settled.applied {d : DomainExecutor} (settled : Settled replicas net d) (serves : replicas.Serves d)
    {operation : Operation} {certificate : Certificate} (valid : d.Valid operation)
    (decided : replicas.Decided net operation) : Settled replicas net (d.applied operation certificate) := by
  intro key state found
  change ((d.localWrites operation).foldl overwrite d.objects).get? key = some state at found
  by_cases input : key ∈ d.inputIds operation
  swap
  · rw [valid.get?_of_notMem input] at found
    exact settled key state found
  obtain ⟨intent, inWrites, rfl, old, held, wrote⟩ := valid.get?_of_mem input
  rw [wrote] at found
  cases found
  obtain ⟨named, lineage⟩ := settled _ old held
  refine ⟨named, lineage.next ⟨operation, decided, ?_, ?_, intent, ?_, named.symm, rfl⟩⟩
  · obtain ⟨old', held', -, -, owner⟩ := valid.known_of_intent inWrites
    cases held.symm.trans held'
    exact owner.symm
  · obtain ⟨item, inInputs, same, expected⟩ := valid.input_of_intent inWrites
    obtain ⟨old', held', -, version, -⟩ := valid.current item inInputs
    rw [same, held] at held'
    cases held'
    have used : (item.objectId, item.expectedVersion) ∈ d.objectVersions operation :=
      (sortedPairs_perm _ _).mem_iff.mpr (List.mem_map_of_mem inInputs)
    have versions := congrArg ConflictKey.objectVersions (serves.voteKey operation "PREPARE")
    change d.objectVersions operation = replicas.domain.objectVersions operation at versions
    rwa [versions, same, ← version, ← named] at used
  · unfold localWrites at inWrites ⊢
    rwa [← serves.domainId]

omit [DecidableEq ι] in
theorem Serves.retains {d t : DomainExecutor} (serves : replicas.Serves d) (retains : DistributedNode.Retains d t) :
    replicas.Serves t := ⟨retains.domainId.trans serves.domainId, retains.epoch.trans serves.epoch,
  retains.validators.trans serves.validators, retains.consistent serves.consistent⟩

/-- A certificate that a node issues rests on votes that were cast. -/
theorem Run.certifies_of_issued (run : replicas.Run net) {i : ι} {vote : Vote} {operation : Operation} {phase : String}
    {certificate : Certificate} {d : DomainExecutor} (hears : (net i).node.domain.Hears vote d)
    (heard : replicas.Honest vote.validatorId → replicas.committee.Attested vote →
      replicas.Cast net vote.validatorId vote.conflictKey vote.choice) (epoch : operation.epoch = d.epoch)
    (issued : d.committee.issueCertificate operation.epoch d.domainId (d.objectVersions operation) operation phase =
      .ok certificate) :
    replicas.Certifies net (replicas.domain.voteKey operation phase) (operation.opId, operation.dependencyDigest) := by
  have serves := (run.serves i).retains (DistributedNode.retains_hears hears)
  rw [epoch] at issued
  obtain ⟨enough, -⟩ := serves.consistent.issueCertificate_eq_ok.mp issued
  rw [← serves.voteKey]
  refine serves.certifies (fun w member => ?_) enough fun w member honest => ?_
  · obtain ⟨other, filed, -⟩ := serves.consistent.mem_supporters.mp member
    obtain ⟨⟨validator, known, -⟩, -⟩ := serves.consistent.attested _ _ _ filed
    rw [(serves.consistent.placed _ _ _ filed).1] at known
    exact Option.isSome_iff_exists.mpr ⟨validator, known⟩
  · obtain ⟨other, filed, chosen⟩ := serves.consistent.mem_supporters.mp member
    obtain ⟨rfl, here⟩ := serves.consistent.placed _ _ _ filed
    have attested := (serves.consistent.attested _ _ _ filed).1
    unfold QuorumCommittee.Attested at attested
    rw [serves.validators] at attested
    obtain ⟨c, files, rfl⟩ := hears
    rcases files.votes filed with rfl | old
    · have cast := heard honest attested
      rwa [here, chosen] at cast
    · exact chosen ▸ run.filed i old honest

theorem Run.settled (run : replicas.Run net) (i : ι) :
    Settled replicas net (net i).node.domain := by
  induction run generalizing i with
  | refl =>
    intro key state found
    exact ⟨replicas.keyed key state found, .root ⟨key, found⟩⟩
  | @tail net event earlier orderly ih =>
    have grows : ∀ i, (net i).sent ⊆ (exec event net i).sent := exec_sent event
    suffices settled : Settled replicas net (exec event net i).node.domain by
      intro key state found
      obtain ⟨named, lineage⟩ := settled key state found
      exact ⟨named, lineage.mono (fun _ => id) fun _ _ next => next.mono grows⟩
    refine each_exec (P := fun _ r => Settled replicas net r.node.domain) event ih ?_ i
    have before := ih event.1
    have serves := Run.serves earlier event.1
    have grounded := Run.grounded earlier
    have advance := (net event.1).node.advance_exec event.2
    show Settled replicas net (event.2.exec (net event.1).node).domain
    generalize (event.2.exec (net event.1).node).domain = d, event.2.votes (net event.1).node = votes at advance
    cases advance with
    | idle same =>
      obtain ⟨c, -, rfl⟩ := same
      exact before
    | heard _ _ hears =>
      obtain ⟨c, -, rfl⟩ := hears
      exact before
    | prepared _ _ hears =>
      obtain ⟨c, -, rfl⟩ := hears
      exact before
    | committed _ _ hears =>
      obtain ⟨c, -, rfl⟩ := hears
      exact before
    | @applied operation certificate leaderId arrives accepts =>
      have valid := validateOperation_eq_ok.mp accepts.1
      have known := orderly.known _ arrives operation rfl
      exact before.applied serves valid
        (serves.decided known valid (orderly.prepared grounded serves arrives rfl accepts))
    | @collected vote arrives entry found d' hears certificate issued accepts =>
      have serves' := serves.retains (DistributedNode.retains_hears hears)
      have valid := validateOperation_eq_ok.mp accepts.1
      have certified := Run.certifies_of_issued earlier hears
        (orderly.unforged _ arrives vote (List.mem_singleton_self _)) valid.epoch issued
      have decided := serves'.decided (Run.submissions earlier event.1 found) valid
        (grounded.prepared (by simp) certified)
      have still : Settled replicas net d' := by
        obtain ⟨c, -, rfl⟩ := hears
        exact before
      exact still.applied serves' valid decided

end Replicas

/-- Replicas that are started alike, with faulty validators of no more than a third of
the weight, never hold different states of one version of an object, and of the states
that two of them hold the one follows from the other by operations that its owners
signed and quorums voted for. -/
theorem Replicas.objects_agree {ι : Type} [DecidableEq ι] {replicas : Replicas ι} {net : ι → Replica}
    (free : CollisionFree) (run : replicas.Run net) {i j : ι} {key : String} {x y : ObjectState}
    (held : (net i).node.domain.objects.get? key = some x) (held' : (net j).node.domain.objects.get? key = some y) :
    (x.version = y.version → x = y) ∧
      (Relation.ReflTransGen (replicas.Next net) x y ∨ Relation.ReflTransGen (replicas.Next net) y x) := by
  have straight := run.straight free
  obtain ⟨named, left⟩ := run.settled i key x held
  obtain ⟨named', right⟩ := run.settled j key y held'
  have same := named.trans named'.symm
  exact ⟨straight.unique left right same, straight.comparable left right same⟩

section Pair
variable (pair : KeyPair)

/-- The validator sits at the first node. -/
def pairReplicas : Replicas Bool where
  domain := soloExecutor pair
  seat i := if i then ⟨"v", ["w"], "v", ⟨"v", pair, 1⟩, false⟩ else ⟨"w", ["v"], "v", ⟨"w", pair, 1⟩, false⟩
  home _ := true
  weight _ := 1
  faulty := ∅
  operations operation := operation = rewrite pair ["a"] 0
  unvoted := rfl
  unstated := rfl
  keyed key state found := by
    rcases Dict.origin_of_get?_set found with ⟨rfl, rfl⟩ | old
    · rfl
    · cases old
  weighed w validator found := by
    rcases Dict.origin_of_get?_set found with ⟨-, rfl⟩ | old
    · rfl
    · cases old
  few := Nat.zero_le _
  lodged w known _ := by
    obtain rfl : w = "v" := List.mem_singleton.mp known
    exact ⟨rfl, rfl⟩
  housed i known _ := by
    cases i with
    | true => rfl
    | false => exact absurd (List.mem_singleton.mp known) (by simp)
  bound operation same := same ▸ rewrite_bound pair ["a"] 0
  apart a b same same' _ := by rw [same, same']

/-- The PREPARE vote of the validator. -/
def pairVote : Vote := (DistributedNode.new "v" ["w"] "v" ⟨"v", pair, 1⟩ false (soloExecutor pair)).castVote
  (rewrite pair ["a"] 0) (rewrite pair ["a"] 0).dependencyDigest "PREPARE"

def pairCertificate : Certificate :=
  QuorumCommittee.assemble 0 "d" ((soloExecutor pair).objectVersions (rewrite pair ["a"] 0)) (rewrite pair ["a"] 0)
    "PREPARE" [pairVote pair]

/-- All that the validator has to sign for the data to count as available. -/
def pairDac : DataAvailabilityCertificate :=
  let operation := rewrite pair ["a"] 0
  let statement := QuorumCommittee.availabilityStatement operation
  let signatures := (soloExecutor pair).committee.signAll statement
  { certificateId := certificateId (digest statement) (signatures.map Prod.fst) signatures
    epoch := operation.epoch
    opId := operation.opId
    payloadDigest := operation.opId
    signers := signatures.map Prod.fst
    signatures
    statementDigest := digest statement }

/-- The operation is voted for at the first node, and applied at the second one. -/
def pairEvents : List (Bool × NodeEvent) :=
  [(true, .arrives (.prepareRequest (rewrite pair ["a"] 0) (pairDac pair) "v") 0),
    (false, .arrives (.commitCertificate (rewrite pair ["a"] 0) (pairCertificate pair) "v") 0)]

def afterPair : Bool → Replica :=
  (pairEvents pair).foldl (fun net event => Replicas.exec event net) (pairReplicas pair).start

variable {pair}

theorem pairVote_recordable (verifies : SignaturesVerify) :
    (soloExecutor pair).committee.Recordable (pairVote pair) where
  attested := ⟨⟨"v", pair, 1⟩, rfl, verifies _ _⟩
  epoch := le_rfl
  single := fun _ there => absurd there (by simp [soloExecutor, setObject, DomainExecutor.new, QuorumCommittee.new,
    QuorumCommittee.statementsAt])

/-- The one vote makes a certificate that every executor of the domain accepts. -/
theorem pairCertificate_accepted (verifies : SignaturesVerify) :
    (soloExecutor pair).Accepts (pairCertificate pair) (rewrite pair ["a"] 0) := by
  have fits : (soloExecutor pair).committee.Recordable (pairVote pair) := pairVote_recordable verifies
  have sound := ((QuorumCommittee.consistent_new (soloValidators pair)).file fits.attested fits.epoch)
  have votes : (((QuorumCommittee.new (soloValidators pair)).file (pairVote pair)).votesAt
      (pairVote pair).conflictKey).values = [pairVote pair] := by
    rw [QuorumCommittee.votesAt_file, if_pos rfl]
    rfl
  have supporting : ((QuorumCommittee.new (soloValidators pair)).file (pairVote pair)).supporting
      (pairVote pair).conflictKey (pairVote pair).choice = [pairVote pair] := by
    unfold QuorumCommittee.supporting
    rw [votes]
    simp
  have voters : ((QuorumCommittee.new (soloValidators pair)).file (pairVote pair)).supporters
      (pairVote pair).conflictKey (pairVote pair).choice = {"v"} := by
    unfold QuorumCommittee.supporters
    rw [supporting]
    rfl
  have enough : ((QuorumCommittee.new (soloValidators pair)).file (pairVote pair)).threshold ≤
      ((QuorumCommittee.new (soloValidators pair)).file (pairVote pair)).weigh
        (((QuorumCommittee.new (soloValidators pair)).file (pairVote pair)).supporters (pairVote pair).conflictKey
          (pairVote pair).choice) := by
    rw [voters]
    exact (soloValidators_wellFormed pair).enough rfl
  have accepted : ((QuorumCommittee.new (soloValidators pair)).file (pairVote pair)).verifyCertificate
      (QuorumCommittee.assemble 0 "d" ((soloExecutor pair).objectVersions (rewrite pair ["a"] 0)) (rewrite pair ["a"] 0)
        "PREPARE" (((QuorumCommittee.new (soloValidators pair)).file (pairVote pair)).supporting
          (pairVote pair).conflictKey (pairVote pair).choice))
      0 "d" ((soloExecutor pair).objectVersions (rewrite pair ["a"] 0)) (rewrite pair ["a"] 0) = .ok true :=
    sound.verify_assemble (by simp) enough
  have same := QuorumCommittee.verifyCertificate_congr (d := (soloExecutor pair).committee)
    (c := (QuorumCommittee.new (soloValidators pair)).file (pairVote pair)) rfl
  rw [supporting, ← same] at accepted
  exact ⟨validateOperation_eq_ok.mpr (soloExecutor_valid verifies pair 0), accepted⟩

/-- The first node sends its vote. -/
theorem afterPair_sent (verifies : SignaturesVerify) : pairVote pair ∈ (afterPair pair true).sent := by
  have available : (soloExecutor pair).committee.verifyDac (rewrite pair ["a"] 0) (pairDac pair) = .ok true :=
    (soloValidators_wellFormed pair).verifyDac_signed verifies _
  let n := ((pairReplicas pair).start true).node
  have fits : (soloExecutor pair).committee.Recordable (pairVote pair) := pairVote_recordable verifies
  obtain ⟨c, same, ran⟩ := QuorumCommittee.recordVote_of_recordable fits
  have recorded : DistributedNode.recordVote (pairVote pair) n =
      .ok ⟨⟩ (DistributedNode.setDomain (setCommittee (c.file (pairVote pair)) n.domain) n) :=
    DistributedNode.onDomain_of_ok (onPart_of_ok ran)
  have checked : DistributedNode.onDomain (ofExcept ((soloExecutor pair).validateOperation (rewrite pair ["a"] 0))) n =
      .ok ⟨⟩ n :=
    DistributedNode.onDomain_ofExcept_ok (validateOperation_eq_ok.mpr (soloExecutor_valid verifies pair 0))
  have answered : DistributedNode.dispatch (.prepareRequest (rewrite pair ["a"] 0) (pairDac pair) "v") 0 n =
      .ok { sends := [("v", .prepareVote (pairVote pair))] }
        (DistributedNode.setDomain (setCommittee (c.file (pairVote pair)) n.domain) n) := by
    have passed : DistributedNode.onDomain (ofExcept ((soloExecutor pair).committee.verifyDac (rewrite pair ["a"] 0)
        (pairDac pair))) n = .ok true n := DistributedNode.onDomain_ofExcept_ok available
    show DistributedNode.onPrepareRequest (rewrite pair ["a"] 0) (pairDac pair) "v" n = _
    unfold DistributedNode.onPrepareRequest
    rw [get_bind_apply]
    exact (bind_of_ok passed).trans ((bind_of_ok checked).trans (bind_of_ok recorded))
  show pairVote pair ∈ [] ++ NodeEvent.votes (.arrives (.prepareRequest (rewrite pair ["a"] 0) (pairDac pair) "v") 0) n
  rw [DistributedNode.votes_of_ok answered]
  exact List.mem_singleton_self _

theorem afterPair_run (verifies : SignaturesVerify) (single : SignaturesSingle) :
    (pairReplicas pair).Run (afterPair pair) := by
  refine GuardedRun.tail (GuardedRun.tail GuardedRun.refl ⟨?_, ?_⟩) ⟨?_, ?_⟩
  · intro message arrives operation asked
    cases arrives
    exact (Option.some.inj asked).symm
  · intro message arrives vote listed
    cases arrives
    cases listed
  · intro message arrives operation asked
    cases arrives
    exact (Option.some.inj asked).symm
  · intro message arrives vote listed honest attested
    cases arrives
    have signed : (vote.validatorId, vote.signature) = ("v", (pairVote pair).signature) := by
      change (vote.validatorId, vote.signature) ∈ sortedSignatures [("v", (pairVote pair).signature)] at listed
      exact List.mem_singleton.mp (mem_sortedSignatures.mp listed)
    obtain ⟨named, signature⟩ := Prod.mk.inj signed
    obtain ⟨validator, known, verified⟩ := attested
    obtain rfl : validator = ⟨"v", pair, 1⟩ := by
      rw [named] at known
      exact (Option.some.inj known).symm
    have own : KeyPair.verify pair.publicKey (canonicalBytes (pairVote pair).statement) vote.signature = true := by
      rw [signature]
      exact verifies _ _
    have same := Vote.eq_of_statement (single _ _ _ _ verified own)
    refine ⟨pairVote pair, afterPair_sent verifies, ?_, ?_⟩
    · rw [← same]
      rfl
    · rw [← same]
      rfl

/-- The second node has rewritten the object, and the first one has not. -/
theorem afterPair_held (verifies : SignaturesVerify) :
    (afterPair pair true).node.domain.objects.get? "a" = some ⟨"a", 0, pair.identity, "old", "d"⟩ ∧
      (afterPair pair false).node.domain.objects.get? "a" = some ⟨"a", 1, pair.identity, "new", "d"⟩ := by
  constructor
  · let n := ((pairReplicas pair).start true).node
    show (NodeEvent.exec (.arrives (.prepareRequest (rewrite pair ["a"] 0) (pairDac pair) "v") 0) n).domain.objects.get?
      "a" = _
    have quiet : DistributedNode.Quiet n
        (final (DistributedNode.onPrepareRequest (rewrite pair ["a"] 0) (pairDac pair) "v") n) :=
      DistributedNode.quiet_onPrepareRequest.moves
    rw [DistributedNode.exec_arrives]
    exact (congrArg (Dict.get? · "a") quiet.domain.objects).trans (Dict.get?_set_self _ _ _)
  · let n := ((pairReplicas pair).start false).node
    have accepts : (soloExecutor pair).Accepts (pairCertificate pair) (rewrite pair ["a"] 0) :=
      pairCertificate_accepted verifies
    have applied := applyCommitted_of_valid (soloExecutor_valid verifies pair 0) accepts.2
    let after := (soloExecutor pair).applied (rewrite pair ["a"] 0) (pairCertificate pair)
    have ran : DistributedNode.dispatch (.commitCertificate (rewrite pair ["a"] 0) (pairCertificate pair) "v") 0 n =
        .ok { sends := [("v", .ack (rewrite pair ["a"] 0).opId "w")] } (DistributedNode.setDomain after n) := by
      have checked : DistributedNode.onDomain (ofExcept ((soloExecutor pair).committee.verifyCertificate
          (pairCertificate pair) 0 "d" ((soloExecutor pair).objectVersions (rewrite pair ["a"] 0))
          (rewrite pair ["a"] 0))) n = .ok true n := DistributedNode.onDomain_ofExcept_ok accepts.2
      have done : DistributedNode.onDomain (DomainExecutor.applyCommitted (rewrite pair ["a"] 0)
          (pairCertificate pair)) n = .ok ⟨⟩ (DistributedNode.setDomain after n) :=
        DistributedNode.onDomain_of_ok applied
      show DistributedNode.onCommitCertificate (rewrite pair ["a"] 0) (pairCertificate pair) "v" n = _
      unfold DistributedNode.onCommitCertificate
      rw [get_bind_apply, if_neg (by simp [n, Replicas.start, pairReplicas, DistributedNode.new])]
      exact (bind_of_ok checked).trans (bind_of_ok done)
    show (NodeEvent.exec (.arrives (.commitCertificate (rewrite pair ["a"] 0) (pairCertificate pair) "v") 0)
      n).domain.objects.get? "a" = _
    rw [DistributedNode.exec_arrives, final_of_ok ran]
    rfl

end Pair

omit [Crypto] in
theorem Replicas.objects_agree_pair : let _ := Crypto.ideal
    ∃ x y : ObjectState, x ≠ y ∧ (afterPair idealKey true).node.domain.objects.get? "a" = some x ∧
      (afterPair idealKey false).node.domain.objects.get? "a" = some y ∧
      (Relation.ReflTransGen ((pairReplicas idealKey).Next (afterPair idealKey)) x y ∨
        Relation.ReflTransGen ((pairReplicas idealKey).Next (afterPair idealKey)) y x) := by
  intro _
  have run := @afterPair_run Crypto.ideal idealKey ideal_signaturesVerify ideal_signaturesSingle
  obtain ⟨held, held'⟩ := @afterPair_held Crypto.ideal idealKey ideal_signaturesVerify
  have agree := @Replicas.objects_agree Crypto.ideal _ _ _ _ ideal_collisionFree run _ _ _ _ _ held held'
  refine ⟨_, _, ?_, held, held', agree.2⟩
  intro same
  exact absurd (congrArg ObjectState.version same) (by decide)

end Mosaic.Nexus
