import Mosaic.Nexus.Snapshot
import Mosaic.Nexus.JoinProgress
import Mosaic.Nexus.Governance

namespace Mosaic.Nexus
open CanonicalJson Effects

/-- The verifier answers, and it answers no where a signer is an outsider. -/
def Rejecting (outsider : Prop) (x : Except NexusError Bool) : Prop := (∃ b, x = .ok b) ∧ (outsider → x = .ok false)

variable [Crypto]

namespace QuorumCommittee

/-- One of the signers is no validator. -/
def HasOutsider (c : QuorumCommittee) (signers : List String) : Prop := ∃ item ∈ signers, c.validators.get? item = none

variable {c : QuorumCommittee} {signers : List String}

theorem hasOutsider_iff_unknown :
    c.HasOutsider signers ↔ ¬ ∀ item ∈ signers, (c.validators.get? item).isSome := by
  simp only [HasOutsider, not_forall, Option.not_isSome_iff_eq_none, exists_prop]

/-- A verifier that weighs the signers before it looks whether they are members
crashes exactly when it comes so far with an outsider. -/
theorem rejecting_iff (c : QuorumCommittee) {early : Prop} [Decidable early] (signers : List String) (f : Int → Bool) :
    Rejecting (c.HasOutsider signers) (if early then c.weightOf signers >>= fun weight => .ok (f weight) else .ok false) ↔
      ¬ (early ∧ c.HasOutsider signers) := by
  by_cases passed : early
  swap
  · rw [if_neg passed]
    exact iff_of_true ⟨⟨false, rfl⟩, fun _ => rfl⟩ fun both => passed both.1
  rw [if_pos passed]
  rcases c.weightOf_cases signers with ⟨known, weighed⟩ | ⟨unknown, key, raised⟩
  · have inside : ¬ c.HasOutsider signers := fun outsider => hasOutsider_iff_unknown.mp outsider known
    rw [weighed]
    exact iff_of_true ⟨⟨_, rfl⟩, fun outsider => absurd outsider inside⟩ fun both => inside both.2
  · refine iff_of_false ?_ fun refused => refused ⟨passed, hasOutsider_iff_unknown.mpr unknown⟩
    rintro ⟨⟨b, answered⟩, -⟩
    rw [raised] at answered
    cases answered

end QuorumCommittee

def Certificate.Fits (certificate : Certificate) (epoch : Int) (domainId : String) (objectVersions : List (String × Int))
    (operation : Operation) : Prop :=
  certificate.certificateId = Nexus.certificateId
      (digest (QuorumCommittee.certifiedStatement certificate.phase epoch domainId objectVersions operation))
      (sortedSet certificate.signers) (sortedSignatures certificate.signatures) ∧
    certificate.statementDigest =
      digest (QuorumCommittee.certifiedStatement certificate.phase epoch domainId objectVersions operation) ∧
    certificate.epoch = epoch ∧ certificate.domainIds = [domainId] ∧ certificate.opId = operation.opId ∧
    certificate.phase ∈ ["PREPARE", "COMMIT"] ∧ certificate.signers.Nodup

def DataAvailabilityCertificate.Fits (certificate : DataAvailabilityCertificate) (operation : Operation) : Prop :=
  certificate.certificateId = Nexus.certificateId (digest (QuorumCommittee.availabilityStatement operation))
      (sorted certificate.signers) (sortedSignatures certificate.signatures) ∧
    certificate.statementDigest = digest (QuorumCommittee.availabilityStatement operation) ∧
    certificate.epoch = operation.epoch ∧ certificate.opId = operation.opId ∧ certificate.payloadDigest = operation.opId

def StateSnapshot.Fits (snapshot : StateSnapshot) (d : DomainExecutor) : Prop :=
  snapshot.snapshotId = Nexus.certificateId (digest (snapshotStatement snapshot.epoch snapshot.domainId snapshot.stateRoot))
      (sorted snapshot.signers) (sortedSignatures snapshot.signatures) ∧
    snapshot.statementDigest = digest (snapshotStatement snapshot.epoch snapshot.domainId snapshot.stateRoot) ∧
    snapshot.epoch = d.epoch ∧ snapshot.domainId = d.domainId ∧ snapshot.stateRoot = d.stateRoot

def AbortCertificate.Fits (certificate : AbortCertificate) (operation : Operation) (reason : String) : Prop :=
  certificate.certificateId = Nexus.certificateId (digest (JoinCoordinator.abortStatement operation reason))
      (sorted certificate.signers) (sortedSignatures certificate.signatures) ∧
    certificate.statementDigest = digest (JoinCoordinator.abortStatement operation reason) ∧
    certificate.epoch = operation.epoch ∧ certificate.opId = operation.opId ∧
    certificate.domainIds = sorted operation.domainIds ∧ certificate.reasonDigest = digest (.str reason)

instance (certificate : AbortCertificate) (operation : Operation) (reason : String) :
    Decidable (certificate.Fits operation reason) := inferInstanceAs (Decidable (_ ∧ _))

def EpochTransitionCertificate.Fits (certificate : EpochTransitionCertificate) (m : EpochManager)
    (newValidators : Dict String Validator) : Prop :=
  certificate.certificateId = Nexus.certificateId (digest (m.statement newValidators)) (sorted certificate.signers)
      (sortedSignatures certificate.signatures) ∧
    certificate.fromEpoch = m.epoch ∧ certificate.toEpoch = m.epoch + 1 ∧
    certificate.validatorIds = sorted newValidators.keys ∧ certificate.statementDigest = digest (m.statement newValidators)

namespace JoinCoordinator

variable {join : JoinCoordinator} {h : Heap} {operation : Operation} {certificate : AbortCertificate} {reason : String}

/-- The domains share a committee. -/
def Shared (join : JoinCoordinator) (h : Heap) : Prop := ∃ i, join.committee h = .ok i

/-- One of the signers is no validator of the committee, if there is one. -/
def HasOutsider (join : JoinCoordinator) (h : Heap) (signers : List String) : Prop :=
  ∃ item ∈ signers, ∀ i, join.committee h = .ok i → (h.executors i).committee.validators.get? item = none

/-- The signatures are by the signers. -/
def SignedBy (signers : List String) (signatures : List (String × Bytes)) : Prop :=
  (Dict.ofList (sortedSignatures signatures)).keys.toFinset = signers.toFinset

theorem hasOutsider_iff {i : Nat} (shared : join.committee h = .ok i) {signers : List String} :
    join.HasOutsider h signers ↔ (h.executors i).committee.HasOutsider signers := by
  refine exists_congr fun item => and_congr_right fun _ => ⟨fun absent => absent i shared, fun absent j shared' => ?_⟩
  cases shared.symm.trans shared'
  exact absent

theorem signaturesValid_of_apart {error : NexusError} (apart : join.committee h = .error error) (statement : Json)
    {signers : List String} {signatures : List (String × Bytes)} :
    SignedBy signers signatures ∧ join.signaturesValid h statement signers signatures = .error error ∨
      ¬ SignedBy signers signatures ∧ join.signaturesValid h statement signers signatures = .ok false := by
  by_cases signed : SignedBy signers signatures
  · refine Or.inl ⟨signed, ?_⟩
    refine (if_pos signed).trans ?_
    rw [apart]
    rfl
  · exact Or.inr ⟨signed, if_neg signed⟩

theorem verifyAbort_eq (join : JoinCoordinator) (h : Heap) (operation : Operation) (certificate : AbortCertificate)
    (reason : String) : join.verifyAbort h operation certificate reason =
      (join.signaturesValid h (abortStatement operation reason) certificate.signers certificate.signatures >>= fun valid =>
        if certificate.Fits operation reason then
          join.committee h >>= fun i => (h.executors i).committee.weightOf certificate.signers >>= fun weight =>
            .ok (decide ((h.executors i).committee.threshold ≤ weight) && valid)
        else .ok false) := rfl

theorem verifyAbort_of_shared {i : Nat} (shared : join.committee h = .ok i) :
    Rejecting (join.HasOutsider h certificate.signers) (join.verifyAbort h operation certificate reason) ↔
      ¬ (certificate.Fits operation reason ∧ join.HasOutsider h certificate.signers) := by
  rw [hasOutsider_iff shared, verifyAbort_eq, signaturesValid_of_shared shared, shared]
  exact (h.executors i).committee.rejecting_iff certificate.signers _

/-- Without a committee the verifier raises as soon as it asks for one. -/
theorem verifyAbort_of_apart {error : NexusError} (apart : join.committee h = .error error) :
    Rejecting (join.HasOutsider h certificate.signers) (join.verifyAbort h operation certificate reason) ↔
      ¬ (SignedBy certificate.signers certificate.signatures ∨ certificate.Fits operation reason) := by
  rw [verifyAbort_eq, apart]
  rcases signaturesValid_of_apart apart (abortStatement operation reason) with ⟨signed, checked⟩ | ⟨unsigned, checked⟩
  · rw [checked]
    refine iff_of_false ?_ fun refused => refused (Or.inl signed)
    rintro ⟨⟨b, ⟨⟩⟩, -⟩
  · rw [checked]
    change Rejecting _ (if certificate.Fits operation reason then .error error else .ok false) ↔ _
    by_cases fits : certificate.Fits operation reason
    · rw [if_pos fits]
      refine iff_of_false ?_ fun refused => refused (Or.inr fits)
      rintro ⟨⟨b, ⟨⟩⟩, -⟩
    · rw [if_neg fits]
      exact iff_of_true ⟨⟨false, rfl⟩, fun _ => rfl⟩ fun either => either.elim unsigned fits

theorem verifyAbort_rejecting (join : JoinCoordinator) (h : Heap) (operation : Operation) (certificate : AbortCertificate)
    (reason : String) :
    Rejecting (join.HasOutsider h certificate.signers) (join.verifyAbort h operation certificate reason) ↔
      (join.Shared h → ¬ (certificate.Fits operation reason ∧ join.HasOutsider h certificate.signers)) ∧
        (¬ join.Shared h →
          ¬ (SignedBy certificate.signers certificate.signatures ∨ certificate.Fits operation reason)) := by
  cases found : join.committee h with
  | ok i =>
    have shared : join.Shared h := ⟨i, found⟩
    rw [verifyAbort_of_shared found]
    exact ⟨fun good => ⟨fun _ => good, fun apart => absurd shared apart⟩, fun both => both.1 shared⟩
  | error error =>
    have apart : ¬ join.Shared h := by
      rintro ⟨i, shared⟩
      rw [found] at shared
      cases shared
    rw [verifyAbort_of_apart found]
    exact ⟨fun good => ⟨fun shared => absurd shared apart, fun _ => good⟩, fun both => both.2 apart⟩

end JoinCoordinator

end Mosaic.Nexus
