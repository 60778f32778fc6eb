import Mosaic.Nexus.Progress
import Mosaic.Lib.GuardedRun

namespace Mosaic.Nexus
open CanonicalJson Effects

variable [Crypto]

/-- The calls of an executor, and what others do meanwhile: a validator signs a
vote elsewhere, or somebody records a vote on the committee. -/
inductive DomainCall
  | addObject (state : ObjectState)
  | prepare (operation : Operation) (availability : Option DataAvailabilityCertificate)
  | commitCertificate (operation : Operation) (prepared : Certificate)
  | applyCommitted (operation : Operation) (certificate : Certificate)
  | commit (operation : Operation) (prepared : Certificate)
  | finalize (operation : Operation)
  | signedElsewhere (publicKey : Bytes) (vote : Vote)
  | recordedElsewhere (vote : Vote)

namespace DomainCall
open DomainExecutor

def exec : DomainCall → DomainExecutor → DomainExecutor
  | addObject state => final (DomainExecutor.addObject state)
  | prepare operation availability => final (DomainExecutor.prepare operation availability)
  | commitCertificate operation prepared => final (DomainExecutor.commitCertificate operation prepared)
  | applyCommitted operation certificate => final (DomainExecutor.applyCommitted operation certificate)
  | commit operation prepared => final (DomainExecutor.commit operation prepared)
  | finalize operation => final (DomainExecutor.finalize operation)
  | signedElsewhere publicKey vote => fun d => { d with signedVotes := d.signedVotes ++ [(publicKey, vote)] }
  | recordedElsewhere vote => final (onCommittee (QuorumCommittee.recordVote vote))

/-- The operation that a call may commit. -/
def operation : DomainCall → Option Operation
  | applyCommitted operation _ | commit operation _ | finalize operation => some operation
  | _ => none

end DomainCall

namespace DomainExecutor

variable {d t : DomainExecutor} {operation : Operation} {certificate : Certificate}

/-- Where one of the signatures is a validator's for some vote, the validator has
signed that vote. -/
def Unforged (d : DomainExecutor) (signatures : List Bytes) : Prop :=
  ∀ signature ∈ signatures, ∀ item validator, d.committee.validators.get? item = some validator → ∀ vote : Vote,
    KeyPair.verify validator.keypair.publicKey (canonicalBytes vote.statement) signature = true →
      d.Signed validator.keypair.publicKey vote.statement

/-- Validators that reach the threshold have signed COMMIT votes for the operation. -/
def CommitSigned (d : DomainExecutor) (operation : Operation) : Prop :=
  ∃ voters : Finset String, d.committee.threshold ≤ d.committee.weigh voters ∧
    ∀ item ∈ voters, ∃ validator, d.committee.validators.get? item = some validator ∧
      d.Signed validator.keypair.publicKey (voteStatement "COMMIT" d.epoch d.domainId (d.objectVersions operation)
        operation.opId operation.dependencyDigest)

/-- What others pass in carries no forged votes. -/
def Authentic (d : DomainExecutor) : DomainCall → Prop
  | .applyCommitted _ certificate => d.Unforged (certificate.signatures.map Prod.snd)
  | .recordedElsewhere vote => d.Unforged [vote.signature]
  | _ => True

/-- A certificate that is applied directly is for the second phase. -/
def SecondPhase : DomainCall → Prop
  | .applyCommitted _ certificate => certificate.phase = "COMMIT"
  | _ => True

theorem commitSigned_of_certified (backed : d.Backed) (certified : d.Certified operation "COMMIT" certificate) :
    d.CommitSigned operation := by
  obtain ⟨enough, -⟩ := backed.consistent.issueCertificate_eq_ok.mp certified.issued
  refine ⟨_, enough, fun item member => ?_⟩
  obtain ⟨vote, filed, chosen⟩ := backed.consistent.mem_supporters.mp member
  obtain ⟨mine, here⟩ := backed.consistent.placed _ _ _ filed
  obtain ⟨⟨validator, known, -⟩, -⟩ := backed.consistent.attested _ _ _ filed
  rw [mine] at known
  have signed := backed.signed _ _ _ _ filed known
  rw [QuorumCommittee.statement_of_conflictKey here chosen] at signed
  exact ⟨validator, known, signed⟩

theorem commitSigned_of_accepted
    (accepted : d.committee.verifyCertificate certificate d.epoch d.domainId (d.objectVersions operation) operation = .ok true)
    (unforged : d.Unforged (certificate.signatures.map Prod.snd)) (second : certificate.phase = "COMMIT") :
    d.CommitSigned operation := by
  obtain ⟨-, known, enough, valid⟩ := QuorumCommittee.verifyCertificate_eq_true.mp accepted
  obtain ⟨signers, verified⟩ := QuorumCommittee.signaturesValid_eq_true.mp valid
  refine ⟨_, enough, fun item member => ?_⟩
  have listed := (signers item).mpr (List.mem_toFinset.mp member)
  obtain ⟨signature, found⟩ : ∃ signature,
      (Dict.ofList (sortedSignatures certificate.signatures)).get? item = some signature := by
    refine Dict.mem_keys.mp (Dict.mem_keys_ofList.mpr ?_)
    exact ((sortedSignatures_perm _).map Prod.fst).mem_iff.mpr listed
  obtain ⟨validator, there, verified⟩ := verified item signature found
  have carried : signature ∈ certificate.signatures.map Prod.snd :=
    List.mem_map.mpr ⟨_, mem_sortedSignatures.mp (Dict.mem_of_get?_ofList found), rfl⟩
  rw [second] at verified
  exact ⟨validator, there, unforged signature carried item validator there
    ⟨item, d.epoch, d.domainId, d.objectVersions operation, operation.opId, operation.dependencyDigest, "COMMIT",
      signature⟩ verified⟩

/-- The executor has collected what it needed and applied the operation. -/
def Finalized (d : DomainExecutor) (operation : Operation) (certificate : Certificate) (t : DomainExecutor) : Prop :=
  ∃ u, Collects d u ∧ u.Valid operation ∧ u.Certified operation "COMMIT" certificate ∧
    t = u.applied operation certificate

/-- A commit that returns has applied the operation, and one that raises has not. -/
theorem commit_cases (d : DomainExecutor) (operation : Operation) (prepared : Certificate) :
    (∃ error t, commit operation prepared d = .error error t ∧ Collects d t) ∨
      ∃ certificate t, commit operation prepared d = .ok certificate t ∧ d.Finalized operation certificate t := by
  have collects := @collects_commitCertificate _ d operation prepared
  unfold commit
  cases collected : commitCertificate operation prepared d with
  | error error u =>
    exact Or.inl ⟨error, u, bind_of_error collected, collects.step_error collected⟩
  | ok certificate u =>
    obtain ⟨-, -, certified⟩ := collects.returns certificate u collected
    have step := collects.step collected
    rw [bind_of_ok collected]
    rcases applyCommitted_cases u operation certificate with ⟨error, raised⟩ | ⟨valid, accepted, ran⟩
    · exact Or.inl ⟨error, u, bind_of_error raised, step⟩
    · exact Or.inr ⟨certificate, _, bind_of_ok ran, u, step, valid, certified, rfl⟩

theorem finalize_cases (d : DomainExecutor) (operation : Operation) :
    (∃ error t, finalize operation d = .error error t ∧ Collects d t) ∨
      ∃ certificate t, finalize operation d = .ok certificate t ∧ d.Finalized operation certificate t := by
  have collects := @collects_prepare _ d operation none
  unfold finalize
  cases prepared : prepare operation none d with
  | error error u =>
    exact Or.inl ⟨error, u, bind_of_error prepared, collects.step_error prepared⟩
  | ok certificate u =>
    have step := collects.step prepared
    rw [bind_of_ok prepared]
    rcases commit_cases u operation certificate with ⟨error, t, raised, later⟩ |
      ⟨commitment, t, ran, v, later, valid, certified, same⟩
    · exact Or.inl ⟨error, t, raised, IsTrans.trans _ _ _ step later⟩
    · exact Or.inr ⟨commitment, t, ran, v, IsTrans.trans _ _ _ step later, valid, certified, same⟩

/-- The same executor with more votes signed. -/
structure Extends (d t : DomainExecutor) : Prop where
  domainId : t.domainId = d.domainId
  epoch : t.epoch = d.epoch
  validators : t.committee.validators = d.committee.validators
  log : ∀ entry ∈ d.signedVotes, entry ∈ t.signedVotes

theorem Collects.extends (collects : Collects d t) : d.Extends t :=
  ⟨collects.domainId, collects.epoch, collects.validators, collects.log⟩

/-- What has been signed stays signed. -/
theorem CommitSigned.mono (signed : d.CommitSigned operation) (more : d.Extends t) : t.CommitSigned operation := by
  obtain ⟨voters, enough, votes⟩ := signed
  refine ⟨voters, ?_, fun item member => ?_⟩
  · simpa only [QuorumCommittee.threshold, QuorumCommittee.totalWeight, QuorumCommittee.weigh, more.validators] using enough
  · obtain ⟨validator, known, vote⟩ := votes item member
    have versions : t.objectVersions operation = d.objectVersions operation := by
      simp only [objectVersions, localInputs, more.domainId]
    refine ⟨validator, by rw [more.validators, known], ?_⟩
    rw [more.domainId, more.epoch, versions]
    exact vote.mono more.log

/-- How one call changes the objects and the committed operations. -/
inductive Effect (d : DomainExecutor) (call : DomainCall) (t : DomainExecutor) : Prop
  | nothing (objects : t.objects = d.objects) (committed : t.committedOperations = d.committedOperations)
  | added (state : ObjectState) (call : call = .addObject state)
      (objects : t.objects = d.objects.set state.objectId state)
      (committed : t.committedOperations = d.committedOperations)
  | committed (operation : Operation) (call : call.operation = some operation) (signed : t.CommitSigned operation)
      (objects : t.objects = (d.localWrites operation).foldl overwrite d.objects)
      (committed : t.committedOperations = insert operation.opId d.committedOperations)

theorem Collects.effect {call : DomainCall} (collects : Collects d t) : d.Effect call t :=
  .nothing collects.objects collects.committedOperations

/-- The votes stay backed, and whatever is committed has its COMMIT votes. -/
structure Step (d : DomainExecutor) (call : DomainCall) (t : DomainExecutor) : Prop where
  more : d.Extends t
  backed : t.Backed
  effect : d.Effect call t

theorem Collects.step {call : DomainCall} (own : SignaturesOwn) (backed : d.Backed) (collects : Collects d t) :
    d.Step call t := ⟨collects.extends, collects.backed own backed, collects.effect⟩

theorem Backed.applied (backed : d.Backed) : (d.applied operation certificate).Backed :=
  backed.of_same (.refl _) fun _ => id

theorem Finalized.step (own : SignaturesOwn) (backed : d.Backed) {call : DomainCall}
    (named : call.operation = some operation) (done : d.Finalized operation certificate t) : d.Step call t := by
  obtain ⟨u, collects, valid, certified, rfl⟩ := done
  have backed' := collects.backed own backed
  have signed := commitSigned_of_certified backed' certified
  have more : d.Extends (u.applied operation certificate) :=
    ⟨collects.domainId, collects.epoch, collects.validators, collects.log⟩
  refine ⟨more, backed'.applied, .committed operation named (signed.mono ⟨rfl, rfl, rfl, fun _ => id⟩) ?_ ?_⟩
  · change (u.localWrites operation).foldl overwrite u.objects = _
    rw [collects.objects, localWrites, collects.domainId]
    rfl
  · change insert operation.opId u.committedOperations = _
    rw [collects.committedOperations]

theorem step_refl (backed : d.Backed) (call : DomainCall) : d.Step call d :=
  ⟨⟨rfl, rfl, rfl, fun _ => id⟩, backed, .nothing rfl rfl⟩

theorem step_addObject (backed : d.Backed) (state : ObjectState) :
    d.Step (.addObject state) (final (addObject state) d) := by
  rcases addObject_cases d state with ⟨error, raised⟩ | ⟨-, -, ran⟩
  · rw [final_of_error raised]
    exact step_refl backed _
  · rw [final_of_ok ran]
    exact ⟨⟨rfl, rfl, rfl, fun _ => id⟩, backed.of_same (.refl _) fun _ => id, .added state rfl rfl rfl⟩

theorem step_exec (own : SignaturesOwn) (backed : d.Backed) (call : DomainCall) (authentic : d.Authentic call)
    (second : SecondPhase call) : d.Step call (call.exec d) := by
  cases call with
  | addObject state => exact step_addObject backed state
  | prepare operation availability => exact collects_prepare.moves.step own backed
  | commitCertificate operation prepared => exact collects_commitCertificate.moves.step own backed
  | applyCommitted operation certificate =>
    rcases applyCommitted_cases d operation certificate with ⟨error, raised⟩ | ⟨valid, accepted, ran⟩
    · rw [DomainCall.exec, final_of_error raised]
      exact step_refl backed _
    · rw [DomainCall.exec, final_of_ok ran]
      have signed := commitSigned_of_accepted accepted authentic second
      exact ⟨⟨rfl, rfl, rfl, fun _ => id⟩, backed.applied,
        .committed operation rfl (signed.mono ⟨rfl, rfl, rfl, fun _ => id⟩) rfl rfl⟩
  | commit operation prepared =>
    rcases commit_cases d operation prepared with ⟨error, t, raised, collects⟩ | ⟨certificate, t, ran, done⟩
    · rw [DomainCall.exec, final_of_error raised]
      exact collects.step own backed
    · rw [DomainCall.exec, final_of_ok ran]
      exact done.step own backed rfl
  | finalize operation =>
    rcases finalize_cases d operation with ⟨error, t, raised, collects⟩ | ⟨certificate, t, ran, done⟩
    · rw [DomainCall.exec, final_of_error raised]
      exact collects.step own backed
    · rw [DomainCall.exec, final_of_ok ran]
      exact done.step own backed rfl
  | signedElsewhere publicKey vote =>
    have kept : ∀ entry ∈ d.signedVotes, entry ∈ d.signedVotes ++ [(publicKey, vote)] :=
      fun entry member => List.mem_append_left _ member
    exact ⟨⟨rfl, rfl, rfl, kept⟩, backed.of_same (.refl _) kept, .nothing rfl rfl⟩
  | recordedElsewhere vote =>
    have ends : DomainCall.exec (.recordedElsewhere vote) d =
        setCommittee (final (QuorumCommittee.recordVote vote) d.committee) d := final_onPart committee setCommittee _ _
    rw [ends]
    refine ⟨⟨rfl, rfl, QuorumCommittee.validators_recordVote _ _, fun _ => id⟩, ?_, .nothing rfl rfl⟩
    refine backed.recordVote fun validator known verified => ?_
    exact authentic vote.signature (List.mem_singleton_self _) vote.validatorId validator known vote verified

theorem backed_new (domainId : String) (epoch : Int) (validators : Dict String Validator) :
    (new domainId epoch (.new validators)).Backed where
  consistent := QuorumCommittee.consistent_new validators
  signed := nofun

/-- Every committed operation has its COMMIT votes. -/
def CommitsSigned (d : DomainExecutor) : Prop :=
  ∀ opId ∈ d.committedOperations, ∃ operation : Operation, operation.opId = opId ∧ d.CommitSigned operation

theorem CommitsSigned.step {call : DomainCall} (signed : d.CommitsSigned) (step : d.Step call t) : t.CommitsSigned := by
  intro opId member
  have old : opId ∈ d.committedOperations → ∃ operation : Operation, operation.opId = opId ∧ t.CommitSigned operation := by
    intro before
    obtain ⟨operation, named, votes⟩ := signed opId before
    exact ⟨operation, named, votes.mono step.more⟩
  cases step.effect with
  | nothing _ committed => exact old (committed ▸ member)
  | added _ _ _ committed => exact old (committed ▸ member)
  | committed operation _ votes _ committed =>
    rw [committed, Finset.mem_insert] at member
    rcases member with rfl | before
    · exact ⟨operation, rfl, votes⟩
    · exact old before

end DomainExecutor

open DomainExecutor in
/-- In every run in which no certificate of the first phase is applied directly,
whatever is committed has COMMIT votes of validators that reach the threshold,
and every further change is such a commit or a new object. -/
theorem commits_are_signed (own : SignaturesOwn) (domainId : String) (epoch : Int) (validators : Dict String Validator)
    {d : DomainExecutor} (run : GuardedRun DomainCall.exec (fun d call => d.Authentic call ∧ SecondPhase call)
      (.new domainId epoch (.new validators)) d) :
    d.CommitsSigned ∧ ∀ call, d.Authentic call → SecondPhase call → d.Effect call (call.exec d) := by
  have sound : d.Backed ∧ d.CommitsSigned := by
    refine run.invariant (P := fun d => d.Backed ∧ d.CommitsSigned) ⟨backed_new domainId epoch validators, nofun⟩ ?_
    rintro u call ⟨authentic, second⟩ ⟨backed, signed⟩
    have step := step_exec own backed call authentic second
    exact ⟨step.backed, signed.step step⟩
  exact ⟨sound.2, fun call authentic second => (step_exec own sound.1 call authentic second).effect⟩

theorem soloExecutor_reached (pair : KeyPair) :
    (DomainCall.addObject ⟨"a", 0, pair.identity, "old", "d"⟩).exec
      (.new "d" 0 (.new (soloValidators pair))) = soloExecutor pair := by
  have ran : DomainExecutor.addObject ⟨"a", 0, pair.identity, "old", "d"⟩ (.new "d" 0 (.new (soloValidators pair))) =
      .ok ⟨⟩ (soloExecutor pair) := DomainExecutor.addObject_ok rfl rfl
  exact final_of_ok ran

theorem soloExecutor_finalizes (verifies : SignaturesVerify) (pair : KeyPair) :
    ∃ d, GuardedRun DomainCall.exec (fun d call => d.Authentic call ∧ DomainExecutor.SecondPhase call)
      (.new "d" 0 (.new (soloValidators pair))) d ∧ (rewrite pair ["a"] 0).opId ∈ d.committedOperations := by
  obtain ⟨certificate, t, run, committed⟩ := DomainExecutor.finalize_ok verifies (soloValidators_wellFormed pair) le_rfl
    (QuorumCommittee.consistent_new _) (soloExecutor_valid verifies pair 0) fun phase _ =>
      soloExecutor_undecided pair _ phase
  refine ⟨t, ?_, committed⟩
  have done : (DomainCall.finalize (rewrite pair ["a"] 0)).exec (soloExecutor pair) = t := final_of_ok run
  rw [← done, ← soloExecutor_reached]
  exact .tail (.tail .refl ⟨trivial, trivial⟩) ⟨trivial, trivial⟩

omit [Crypto] in
theorem commits_are_signed_solo : let _ := Crypto.ideal
    ∃ d : DomainExecutor, (rewrite idealKey ["a"] 0).opId ∈ d.committedOperations ∧ d.CommitsSigned := by
  intro _
  obtain ⟨d, run, committed⟩ := soloExecutor_finalizes ideal_signaturesVerify idealKey
  exact ⟨d, committed, (commits_are_signed ideal_signaturesOwn "d" 0 (soloValidators idealKey) run).1⟩

/-- The signatures of a certificate that a committee of one has issued are its
own, over what it has signed. -/
theorem unforged_of_certified (single : SignaturesSingle) {pair : KeyPair} {d : DomainExecutor} {operation : Operation}
    {phase : String}
    {certificate : Certificate} (validators : d.committee.validators = soloValidators pair) (backed : d.Backed)
    (certified : d.Certified operation phase certificate) : d.Unforged (certificate.signatures.map Prod.snd) := by
  intro signature member item validator known other verified
  obtain ⟨-, rfl⟩ := backed.consistent.issueCertificate_eq_ok.mp certified.issued
  obtain ⟨pairs, inPairs, rfl⟩ := List.mem_map.mp member
  obtain ⟨vote, voted, rfl⟩ := List.mem_map.mp (mem_sortedSignatures.mp inPairs)
  obtain ⟨filed, -⟩ := backed.consistent.mem_supporting.mp voted
  obtain ⟨⟨voter, there, genuine⟩, -⟩ := backed.consistent.attested _ _ _ filed
  have alone : ∀ name found, d.committee.validators.get? name = some found → found.keypair = pair := by
    intro name found at'
    rw [validators, Dict.get?_eq_some_iff] at at'
    cases List.mem_singleton.mp at'
    rfl
  have signed := backed.signed _ _ _ _ filed there
  rw [alone _ _ there] at genuine signed
  rw [alone _ _ known] at verified ⊢
  obtain ⟨logged, inLog, same⟩ := signed
  exact ⟨logged, inLog, same.trans (single _ _ _ _ genuine verified)⟩

/-- The PREPARE certificate is accepted as a commit certificate, and the operation
becomes final though nobody has signed a COMMIT vote. -/
theorem prepare_certificate_commits (verifies : SignaturesVerify) (own : SignaturesOwn) (single : SignaturesSingle)
    (pair : KeyPair) :
    ∃ d, GuardedRun DomainCall.exec (fun d call => d.Authentic call) (.new "d" 0 (.new (soloValidators pair))) d ∧
      (rewrite pair ["a"] 0).opId ∈ d.committedOperations ∧ ∀ operation, ¬ d.CommitSigned operation := by
  obtain ⟨certificate, t, run, -, -, -, log⟩ := DomainExecutor.prepare_ok verifies (soloValidators_wellFormed pair) le_rfl
    (QuorumCommittee.consistent_new _) (soloExecutor_valid verifies pair 0) (soloExecutor_undecided pair _ _)
  have collects := DomainExecutor.collects_prepare.step run
  obtain ⟨valid, -, certified⟩ := DomainExecutor.collects_prepare.returns _ _ run
  have applies := DomainExecutor.applyCommitted_of_valid (valid.of_collects collects) certified.accepted
  have backed : t.Backed := collects.backed own ((DomainExecutor.backed_new "d" 0 (soloValidators pair)).of_same
    (.refl _) fun _ => id)
  refine ⟨t.applied (rewrite pair ["a"] 0) certificate, ?_, Finset.mem_insert_self _ _, ?_⟩
  · have first : (DomainCall.prepare (rewrite pair ["a"] 0) none).exec (soloExecutor pair) = t := final_of_ok run
    have second : (DomainCall.applyCommitted (rewrite pair ["a"] 0) certificate).exec t = t.applied _ certificate :=
      final_of_ok applies
    rw [← second, ← first, ← soloExecutor_reached]
    refine .tail (.tail (.tail .refl trivial) trivial) ?_
    rw [soloExecutor_reached, first]
    exact unforged_of_certified single collects.validators backed certified
  · rintro operation ⟨voters, enough, votes⟩
    have some' : voters.Nonempty := by
      rw [Finset.nonempty_iff_ne_empty]
      rintro rfl
      have threshold : (t.applied (rewrite pair ["a"] 0) certificate).committee.threshold = 1 := by
        change 2 * t.committee.totalWeight / 3 + 1 = 1
        rw [QuorumCommittee.totalWeight, collects.validators]
        rfl
      rw [threshold] at enough
      exact absurd enough (by simp [QuorumCommittee.weigh])
    obtain ⟨item, member⟩ := some'
    obtain ⟨validator, -, vote, inLog, same⟩ := votes item member
    rcases log _ inLog with before | first
    · cases before
    · have phase := congrArg Vote.phase (@Vote.eq_of_statement vote ⟨vote.validatorId, t.epoch, t.domainId,
        t.objectVersions operation, operation.opId, operation.dependencyDigest, "COMMIT", []⟩ same)
      have clash : "PREPARE" = "COMMIT" := first.symm.trans phase
      exact absurd clash (by decide)

omit [Crypto] in
theorem commits_are_not_signed : let _ := Crypto.ideal
    ¬ ∀ (domainId : String) (epoch : Int) (validators : Dict String Validator) (d : DomainExecutor),
      GuardedRun DomainCall.exec (fun d call => d.Authentic call) (.new domainId epoch (.new validators)) d →
        d.CommitsSigned := by
  intro _ claim
  obtain ⟨d, run, committed, unsigned⟩ :=
    prepare_certificate_commits ideal_signaturesVerify ideal_signaturesOwn ideal_signaturesSingle idealKey
  obtain ⟨operation, -, signed⟩ := claim _ _ _ d run _ committed
  exact unsigned operation signed

end Mosaic.Nexus
