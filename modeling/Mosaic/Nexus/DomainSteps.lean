import Mosaic.Nexus.Domain

namespace Mosaic.Nexus
open CanonicalJson Effects

variable [Crypto]

namespace DomainExecutor

/-- A statement that the holder of the key has signed as a vote. -/
def Signed (d : DomainExecutor) (publicKey : Bytes) (statement : Json) : Prop :=
  ∃ vote, (publicKey, vote) ∈ d.signedVotes ∧ canonicalBytes vote.statement = canonicalBytes statement

/-- The committee's votes were signed by the validators under whose names they
are filed. -/
structure Backed (d : DomainExecutor) : Prop where
  consistent : d.committee.Consistent
  signed : ∀ key item vote validator, (d.committee.votesAt key).get? item = some vote →
    d.committee.validators.get? item = some validator → d.Signed validator.keypair.publicKey vote.statement

/-- What collecting votes and certificates leaves alone, and what it keeps. -/
structure Collects (d t : DomainExecutor) : Prop where
  domainId : t.domainId = d.domainId
  epoch : t.epoch = d.epoch
  objects : t.objects = d.objects
  committedOperations : t.committedOperations = d.committedOperations
  validators : t.committee.validators = d.committee.validators
  log : ∀ entry ∈ d.signedVotes, entry ∈ t.signedVotes
  backed : SignaturesOwn → d.Backed → t.Backed

instance : Std.Refl Collects := ⟨fun _ => ⟨rfl, rfl, rfl, rfl, rfl, fun _ => id, fun _ => id⟩⟩

instance : IsTrans DomainExecutor Collects where
  trans _ _ _ first second := {
    domainId := second.domainId.trans first.domainId
    epoch := second.epoch.trans first.epoch
    objects := second.objects.trans first.objects
    committedOperations := second.committedOperations.trans first.committedOperations
    validators := second.validators.trans first.validators
    log := fun entry member => second.log entry (first.log entry member)
    backed := fun own backed => second.backed own (first.backed own backed) }

theorem Signed.mono {d t : DomainExecutor} (log : ∀ entry ∈ d.signedVotes, entry ∈ t.signedVotes) {publicKey : Bytes}
    {statement : Json} (signed : d.Signed publicKey statement) : t.Signed publicKey statement := by
  obtain ⟨vote, member, same⟩ := signed
  exact ⟨vote, log _ member, same⟩

variable {d : DomainExecutor} {operation : Operation} {certificate : Certificate} {phase failure : String}

/-- Votes that say the same stay backed whatever else the executor holds. -/
theorem Backed.of_same {t : DomainExecutor} (backed : d.Backed) (same : d.committee.SameVotes t.committee)
    (log : ∀ entry ∈ d.signedVotes, entry ∈ t.signedVotes) : t.Backed where
  consistent := backed.consistent.of_same same
  signed key item vote validator filed known := by
    rw [same.votesAt] at filed
    rw [same.validators] at known
    exact (backed.signed key item vote validator filed known).mono log

/-- A filed vote that its validator has signed keeps the votes backed. -/
theorem Backed.recordVote {vote : Vote} (backed : d.Backed)
    (signed : ∀ validator, d.committee.validators.get? vote.validatorId = some validator →
      KeyPair.verify validator.keypair.publicKey (canonicalBytes vote.statement) vote.signature = true →
      d.Signed validator.keypair.publicKey vote.statement) :
    (setCommittee (final (QuorumCommittee.recordVote vote) d.committee) d).Backed := by
  have consistent := backed.consistent.recordVote vote
  rcases d.committee.recordVote_cases vote with ⟨fits, c, same, run⟩ | ⟨-, error, c, same, run⟩
  · rw [final_of_ok run] at consistent ⊢
    refine ⟨consistent, fun key item other validator filed known => ?_⟩
    change (c.file vote).validators.get? item = some validator at known
    change ((c.file vote).votesAt key).get? item = some other at filed
    rw [show (c.file vote).validators = d.committee.validators from same.validators] at known
    rw [QuorumCommittee.votesAt_file, same.votesAt] at filed
    split at filed
    · rw [Dict.get?_set] at filed
      split at filed
      · rename_i mine
        cases Option.some.inj filed
        subst mine
        obtain ⟨validator', there, verified⟩ := fits.attested
        cases known.symm.trans there
        exact signed validator known verified
      · exact backed.signed key item other validator filed known
    · exact backed.signed key item other validator filed known
  · rw [final_of_error run]
    exact backed.of_same (t := setCommittee c d) same fun _ => id

/-- A committee that only counts or accuses changes no votes. -/
theorem collects_of_same {c : QuorumCommittee} (same : d.committee.SameVotes c) : Collects d (setCommittee c d) where
  domainId := rfl
  epoch := rfl
  objects := rfl
  committedOperations := rfl
  validators := same.validators
  log _ := id
  backed _ backed := backed.of_same same fun _ => id

/-- One round of the loop: a validator signs, and its vote is recorded. -/
theorem collects_vote (validator : Validator) (epoch : Int) (domainId : String)
    (objectVersions : List (String × Int)) (opId dependencyDigest : String) :
    Guarantees Collects d (do
      modify (logVote validator (validator.signVote epoch domainId objectVersions opId dependencyDigest phase))
      onCommittee (QuorumCommittee.recordVote
        (validator.signVote epoch domainId objectVersions opId dependencyDigest phase))) fun _ _ => True := by
  let vote := validator.signVote epoch domainId objectVersions opId dependencyDigest phase
  refine ⟨?_, fun _ _ _ => trivial⟩
  have ends : final (do modify (logVote validator vote); onCommittee (QuorumCommittee.recordVote vote)) d =
      setCommittee (final (QuorumCommittee.recordVote vote) d.committee) (logVote validator vote d) := by
    rw [final_bind_of_ok (modify_apply _ _)]
    exact final_onPart committee setCommittee _ _
  rw [ends]
  have kept : ∀ entry ∈ d.signedVotes, entry ∈ (logVote validator vote d).signedVotes :=
    fun entry member => List.mem_append_left _ member
  refine ⟨rfl, rfl, rfl, rfl, QuorumCommittee.validators_recordVote d.committee vote, kept, fun own backed => ?_⟩
  have logged : (logVote validator vote d).Backed := backed.of_same (.refl _) kept
  refine logged.recordVote fun other _ verified => ?_
  rw [own _ _ _ verified]
  exact ⟨vote, List.mem_append_right _ (List.mem_singleton_self _), rfl⟩

theorem collects_recordVotes : Guarantees Collects d (recordVotes operation phase) fun _ _ => True :=
  .get_bind (.forM fun validator _ _ _ => collects_vote validator _ _ _ _ _)

/-- The certificate was issued by the executor's committee, which accepts it. -/
structure Certified (d : DomainExecutor) (operation : Operation) (phase : String) (certificate : Certificate) : Prop where
  issued : d.committee.issueCertificate d.epoch d.domainId (d.objectVersions operation) operation phase = .ok certificate
  accepted : d.committee.verifyCertificate certificate d.epoch d.domainId (d.objectVersions operation) operation = .ok true

theorem reads_certify :
    Guarantees Eq d (certify operation phase failure) fun certificate t => t.Certified operation phase certificate := by
  unfold certify
  refine .get_bind (.read_bind (.ofExcept (Q := fun certificate t =>
    t.committee.issueCertificate t.epoch t.domainId (t.objectVersions operation) operation phase = .ok certificate)
    fun _ issued => issued) fun certificate issued => ?_)
  refine .read_bind (.ofExcept (Q := fun accepted t =>
    t.committee.verifyCertificate certificate t.epoch t.domainId (t.objectVersions operation) operation = .ok accepted)
    fun _ checked => checked) fun accepted checked => .raiseIf_bind fun passed => ?_
  have true' : accepted = true := by simpa using passed
  exact .pure ⟨issued, true' ▸ checked⟩

theorem collects_certify :
    Guarantees Collects d (certify operation phase failure) fun certificate t => t.Certified operation phase certificate :=
  reads_certify.weaken fun _ same => same ▸ Std.Refl.refl d

theorem collects_issueDac :
    Guarantees Collects d (onCommittee (QuorumCommittee.issueDac operation)) fun _ _ => True := by
  have counts : Guarantees QuorumCommittee.SameVotes d.committee (QuorumCommittee.issueDac operation) fun _ _ => True :=
    .get_bind (.bind (.update (P := fun _ _ => True) (d.committee.sameVotes_countMessages _ _) trivial) fun _ _ _ _ =>
      .bind (.ofExcept (Q := fun _ _ => True) fun _ _ => trivial) fun _ _ _ _ => .raiseIf_bind fun _ => .pure trivial)
  exact (counts.onPart fun c same => collects_of_same same).mono fun _ _ _ _ => trivial

theorem collects_countMessages {statement : Json} {signatures : List Bytes} :
    Guarantees Collects d (onCommittee (modify fun c => c.countMessages statement signatures)) fun _ _ => True := by
  have counts : Guarantees QuorumCommittee.SameVotes d.committee
      (modify (fun c => c.countMessages statement signatures) : PyQuorum PUnit) fun _ _ => True :=
    .update (d.committee.sameVotes_countMessages _ _) trivial
  exact (counts.onPart fun c same => collects_of_same same).mono fun _ _ _ _ => trivial

/-- Certificates kept aside change nothing that is collected. -/
theorem collects_of_frame {t : DomainExecutor} (domainId : t.domainId = d.domainId) (epoch : t.epoch = d.epoch)
    (committee : t.committee = d.committee) (objects : t.objects = d.objects)
    (committed : t.committedOperations = d.committedOperations) (log : t.signedVotes = d.signedVotes) :
    Collects d t where
  domainId := domainId
  epoch := epoch
  objects := objects
  committedOperations := committed
  validators := by rw [committee]
  log entry member := log ▸ member
  backed _ backed := backed.of_same (committee ▸ .refl _) fun entry member => log ▸ member

theorem collects_prepare {availability : Option DataAvailabilityCertificate} :
    Guarantees Collects d (prepare operation availability) fun certificate t =>
      d.Valid operation ∧ t.preparedCertificates.get? operation.opId = some certificate ∧
        t.Certified operation "PREPARE" certificate := by
  unfold prepare
  refine .get_bind (.read_bind (.ofExcept (Q := fun _ (t : DomainExecutor) => t.Valid operation) fun _ checked =>
    validateOperation_eq_ok.mp checked) fun _ valid => ?_)
  have available : Guarantees Collects d (availabilityOr operation availability) fun _ _ => True := by
    cases availability with
    | some certificate => exact .pure trivial
    | none => exact collects_issueDac
  refine available.bind fun dac t _ _ => .get_bind ?_
  refine .read_bind (.ofExcept (Q := fun _ _ => True) fun _ _ => trivial) fun _ _ => .raiseIf_bind fun _ => ?_
  refine .bind (.update (P := fun _ _ => True) (collects_of_frame rfl rfl rfl rfl rfl rfl) trivial) fun _ u _ _ => ?_
  refine collects_recordVotes.bind fun _ v _ _ => collects_certify.bind fun certificate w _ certified => ?_
  refine .bind (.update (P := fun _ t => t.preparedCertificates.get? operation.opId = some certificate ∧
    t.Certified operation "PREPARE" certificate) (collects_of_frame rfl rfl rfl rfl rfl rfl) ?_) fun _ x _ prepared => ?_
  · exact ⟨Dict.get?_set_self _ _ _, certified.issued, certified.accepted⟩
  · exact .pure ⟨valid, prepared⟩

theorem collects_commitCertificate {prepared : Certificate} :
    Guarantees Collects d (commitCertificate operation prepared) fun certificate t =>
      d.Valid operation ∧ d.preparedCertificates.get? operation.opId = some prepared ∧
        t.Certified operation "COMMIT" certificate := by
  unfold commitCertificate
  refine .get_bind (.read_bind (.ofExcept (Q := fun _ (t : DomainExecutor) => t.Valid operation) fun _ checked =>
    validateOperation_eq_ok.mp checked) fun _ valid => ?_)
  refine .raiseIf_bind fun _ => .raiseIf_bind fun known => ?_
  refine collects_recordVotes.bind fun _ t _ _ => collects_certify.mono fun certificate u _ certified => ?_
  exact ⟨valid, not_not.mp known, certified⟩

/-- Two executors that agree on everything an operation is judged by. -/
structure SameState (d t : DomainExecutor) : Prop where
  domainId : t.domainId = d.domainId
  epoch : t.epoch = d.epoch
  objects : t.objects = d.objects
  committedOperations : t.committedOperations = d.committedOperations
  validators : t.committee.validators = d.committee.validators

theorem Collects.sameState {t : DomainExecutor} (collects : Collects d t) : SameState d t :=
  ⟨collects.domainId, collects.epoch, collects.objects, collects.committedOperations, collects.validators⟩

namespace SameState

variable {t u : DomainExecutor}

theorem refl (d : DomainExecutor) : SameState d d := ⟨rfl, rfl, rfl, rfl, rfl⟩

theorem symm (same : SameState d t) : SameState t d :=
  ⟨same.domainId.symm, same.epoch.symm, same.objects.symm, same.committedOperations.symm, same.validators.symm⟩

theorem trans (first : SameState d t) (second : SameState t u) : SameState d u :=
  ⟨second.domainId.trans first.domainId, second.epoch.trans first.epoch, second.objects.trans first.objects,
    second.committedOperations.trans first.committedOperations, second.validators.trans first.validators⟩

theorem localInputs (same : SameState d t) : t.localInputs operation = d.localInputs operation := by
  simp only [DomainExecutor.localInputs, same.domainId]

theorem localWrites (same : SameState d t) : t.localWrites operation = d.localWrites operation := by
  simp only [DomainExecutor.localWrites, same.domainId]

theorem objectVersions (same : SameState d t) : t.objectVersions operation = d.objectVersions operation := by
  simp only [DomainExecutor.objectVersions, same.localInputs]

theorem verifyCertificate (same : SameState d t) :
    t.committee.verifyCertificate certificate t.epoch t.domainId (t.objectVersions operation) operation =
      d.committee.verifyCertificate certificate d.epoch d.domainId (d.objectVersions operation) operation := by
  rw [QuorumCommittee.verifyCertificate_congr same.validators, same.epoch, same.domainId, same.objectVersions]

end SameState

theorem Valid.of_sameState {t : DomainExecutor} (valid : d.Valid operation) (same : SameState d t) :
    t.Valid operation := by
  obtain ⟨epoch, declared, signature, fresh, nonempty, domains, inputs, writes, paired, versions, hasLocal, current⟩ := valid
  refine ⟨same.epoch ▸ epoch, same.domainId ▸ declared, signature, ?_, nonempty, domains, inputs, writes, paired,
    versions, same.localInputs ▸ hasLocal, ?_⟩
  · rwa [same.committedOperations]
  · rwa [same.localInputs, same.objects, same.domainId]

/-- Whether an operation is valid does not depend on what has been collected. -/
theorem Valid.of_collects {t : DomainExecutor} (valid : d.Valid operation) (collects : Collects d t) :
    t.Valid operation := valid.of_sameState collects.sameState

end DomainExecutor

end Mosaic.Nexus
