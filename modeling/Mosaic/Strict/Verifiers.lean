import Mosaic.Nexus.VerifierOutcomes
import Mosaic.Lib.CanonicalTexts

namespace Mosaic.Nexus.Strict
open CanonicalJson Effects

variable [Crypto] [Texts]

/-- `canonical_bytes`, with its error. -/
def canonicalBytes (value : Json) : Except NexusError Bytes :=
  if value.Encodable then .ok (CanonicalJson.canonicalBytes value) else .error .unicodeEncodeError

/-- `digest`, which encodes its argument first. -/
def digest (value : Json) : Except NexusError String := do
  let encoded ← canonicalBytes value
  return Crypto.sha256 encoded

/-- What is hashed into the identifier of a certificate. -/
def identified (statementDigest : String) (signers : List String) (signatures : List (String × Bytes)) : Json := .obj [
  ("statement", .str statementDigest),
  ("signers", stringsJson signers),
  ("signatures", signaturesJson signatures)]

def certificateId (statementDigest : String) (signers : List String) (signatures : List (String × Bytes)) :
    Except NexusError String := digest (identified statementDigest signers signatures)

/-- What is hashed into the dependency digest of an operation. -/
def dependencies (operation : Operation) : Json := .obj [
  ("parents", stringsJson operation.parentCertificates),
  ("inputs", .list (operation.inputs.map InputRef.vars))]

def dependencyDigest (operation : Operation) : Except NexusError String := digest (dependencies operation)

/-- `all(KeyPair.verify(...))` over the signatures. -/
def allVerify (c : QuorumCommittee) (statement : Json) : List (String × Bytes) → Except NexusError Bool
  | [] => return true
  | (validatorId, signature) :: later =>
    match c.validators.get? validatorId with
    | none => .error (.keyError validatorId)
    | some validator => do
      let message ← canonicalBytes statement
      if KeyPair.verify validator.keypair.publicKey message signature then allVerify c statement later else return false

/-- `signatures_valid`, which looks at no signature before the signers are compared. -/
def signaturesValid (c : QuorumCommittee) (statement : Json) (signers : List String) (signatures : List (String × Bytes)) :
    Except NexusError Bool :=
  let signatureMap := Dict.ofList (sortedSignatures signatures)
  if signatureMap.keys.toFinset = signers.toFinset ∧ ∀ item ∈ signatureMap.entries, (c.validators.get? item.1).isSome then
    allVerify c statement signatureMap.entries
  else
    return false

def certifiedStatement (phase : String) (epoch : Int) (domainId : String) (objectVersions : List (String × Int))
    (opId dependencyDigest : String) : Json := .obj [
  ("protocol", .str "CCD/NEXUS/v1"),
  ("epoch", .int epoch),
  ("domain_id", .str domainId),
  ("object_versions", versionsJson objectVersions),
  ("op_id", .str opId),
  ("dependency_digest", .str dependencyDigest),
  ("phase", .str phase)]

def verifyCertificate (c : QuorumCommittee) (certificate : Certificate) (epoch : Int) (domainId : String)
    (objectVersions : List (String × Int)) (operation : Operation) : Except NexusError Bool := do
  let dependency ← dependencyDigest operation
  let expectedStatement ←
    digest (certifiedStatement certificate.phase epoch domainId objectVersions operation.opId dependency)
  let expectedSignatures := sortedSignatures certificate.signatures
  let expectedId ← certificateId expectedStatement (sortedSet certificate.signers) expectedSignatures
  let statement := voteStatement certificate.phase epoch domainId objectVersions operation.opId dependency
  let valid ← signaturesValid c statement certificate.signers certificate.signatures
  if certificate.certificateId = expectedId ∧
      certificate.statementDigest = expectedStatement ∧
      certificate.epoch = epoch ∧
      certificate.domainIds = [domainId] ∧
      certificate.opId = operation.opId ∧
      certificate.phase ∈ ["PREPARE", "COMMIT"] ∧
      certificate.signers.Nodup then
    let weight ← c.weightOf certificate.signers
    return c.threshold ≤ weight && certificate.signers.all (fun item => (c.validators.get? item).isSome) && valid
  else
    return false

def verifyDac (c : QuorumCommittee) (operation : Operation) (certificate : DataAvailabilityCertificate) :
    Except NexusError Bool := do
  let statement := QuorumCommittee.availabilityStatement operation
  let expectedDigest ← digest statement
  let signatures := sortedSignatures certificate.signatures
  let expectedId ← certificateId expectedDigest (sorted certificate.signers) signatures
  let valid ← signaturesValid c statement certificate.signers certificate.signatures
  if certificate.certificateId = expectedId ∧
      certificate.statementDigest = expectedDigest ∧
      certificate.epoch = operation.epoch ∧
      certificate.opId = operation.opId ∧
      certificate.payloadDigest = operation.opId then
    let weight ← c.weightOf certificate.signers
    return c.threshold ≤ weight && valid
  else
    return false

/-- What is hashed into the root of a domain. -/
def rooted (d : DomainExecutor) : Json := .obj [
  ("protocol", .str "CCD/NEXUS/v1"),
  ("epoch", .int d.epoch),
  ("domain_id", .str d.domainId),
  ("objects", .list ((sorted d.objects.keys).filterMap fun key => (d.objects.get? key).map ObjectState.vars))]

def stateRoot (d : DomainExecutor) : Except NexusError String := digest (rooted d)

/-- The root of the domain is computed where the fields before it agree. -/
def verifySnapshot (d : DomainExecutor) (snapshot : StateSnapshot) : Except NexusError Bool := do
  let statement := snapshotStatement snapshot.epoch snapshot.domainId snapshot.stateRoot
  let expectedDigest ← digest statement
  let signatures := sortedSignatures snapshot.signatures
  let expectedId ← certificateId expectedDigest (sorted snapshot.signers) signatures
  let valid ← signaturesValid d.committee statement snapshot.signers snapshot.signatures
  if snapshot.snapshotId = expectedId ∧
      snapshot.statementDigest = expectedDigest ∧
      snapshot.epoch = d.epoch ∧
      snapshot.domainId = d.domainId then do
    let root ← stateRoot d
    if snapshot.stateRoot = root then
      let weight ← d.committee.weightOf snapshot.signers
      return d.committee.threshold ≤ weight && valid
    else
      return false
  else
    return false

/-- The committee of the domains is asked for where the signatures are by the signers. -/
def abortSignaturesValid (join : JoinCoordinator) (h : Heap) (statement : Json) (signers : List String)
    (signatures : List (String × Bytes)) : Except NexusError Bool :=
  if (Dict.ofList (sortedSignatures signatures)).keys.toFinset = signers.toFinset then do
    let i ← join.committee h
    signaturesValid (h.executors i).committee statement signers signatures
  else
    return false

def abortStatement (operation : Operation) (reasonDigest : String) : Json := .obj [
  ("protocol", .str "CCD/NEXUS/v1"),
  ("phase", .str "ABORT"),
  ("epoch", .int operation.epoch),
  ("op_id", .str operation.opId),
  ("domains", stringsJson (sorted operation.domainIds)),
  ("reason_digest", .str reasonDigest)]

def verifyAbort (join : JoinCoordinator) (h : Heap) (operation : Operation) (certificate : AbortCertificate)
    (reason : String) : Except NexusError Bool := do
  let reasonDigest ← digest (.str reason)
  let statement := abortStatement operation reasonDigest
  let expectedDigest ← digest statement
  let signatures := sortedSignatures certificate.signatures
  let expectedId ← certificateId expectedDigest (sorted certificate.signers) signatures
  let valid ← abortSignaturesValid join h statement certificate.signers certificate.signatures
  if certificate.certificateId = expectedId ∧
      certificate.statementDigest = expectedDigest ∧
      certificate.epoch = operation.epoch ∧
      certificate.opId = operation.opId ∧
      certificate.domainIds = sorted operation.domainIds ∧
      certificate.reasonDigest = reasonDigest then
    let i ← join.committee h
    let c := (h.executors i).committee
    let weight ← c.weightOf certificate.signers
    return c.threshold ≤ weight && valid
  else
    return false

def verifyTransition (m : EpochManager) (certificate : EpochTransitionCertificate)
    (newValidators : Dict String Validator) : Except NexusError Bool := do
  let statement := m.statement newValidators
  let expectedDigest ← digest statement
  let signatures := sortedSignatures certificate.signatures
  let expectedId ← certificateId expectedDigest (sorted certificate.signers) signatures
  let valid ← signaturesValid m.committee statement certificate.signers certificate.signatures
  if certificate.certificateId = expectedId ∧
      certificate.fromEpoch = m.epoch ∧
      certificate.toEpoch = m.epoch + 1 ∧
      certificate.validatorIds = sorted newValidators.keys ∧
      certificate.statementDigest = expectedDigest then
    let weight ← m.committee.weightOf certificate.signers
    return m.committee.threshold ≤ weight && valid
  else
    return false

section Parts
variable {α : Type} {value : Json} {c : QuorumCommittee} {statement : Json} {signers : List String}
  {signatures : List (String × Bytes)}

omit [Crypto] in
theorem canonicalBytes_of_encodable (fine : value.Encodable) : canonicalBytes value = .ok (CanonicalJson.canonicalBytes value) :=
  if_pos fine

theorem digest_of_encodable (fine : value.Encodable) : digest value = .ok (Mosaic.digest value) := by
  unfold digest
  rw [canonicalBytes_of_encodable fine]
  rfl

theorem digest_of_not (bad : ¬ value.Encodable) : digest value = .error .unicodeEncodeError := by
  unfold digest canonicalBytes
  rw [if_neg bad]
  rfl

/-- A verifier that hashes something answers where it can be hashed and the rest answers. -/
theorem rejecting_digest_bind {outsider : Prop} {f : String → Except NexusError Bool} :
    Rejecting outsider (digest value >>= f) ↔ value.Encodable ∧ Rejecting outsider (f (Mosaic.digest value)) := by
  by_cases fine : value.Encodable
  · rw [digest_of_encodable fine]
    exact (and_iff_right fine).symm
  · rw [digest_of_not fine]
    refine iff_of_false ?_ fun both => fine both.1
    rintro ⟨⟨b, ⟨⟩⟩, -⟩

theorem allVerify_of_encodable (fine : statement.Encodable) {items : List (String × Bytes)} {check : String × Bytes → Bool}
    (known : ∀ item ∈ items, (c.validators.get? item.1).isSome)
    (checks : ∀ item validator, c.validators.get? item.1 = some validator →
      check item = KeyPair.verify validator.keypair.publicKey (CanonicalJson.canonicalBytes statement) item.2) :
    allVerify c statement items = .ok (items.all check) := by
  induction items with
  | nil => rfl
  | cons item items ih =>
    obtain ⟨first, later⟩ := List.forall_mem_cons.mp known
    obtain ⟨validator, found⟩ := Option.isSome_iff_exists.mp first
    have here := checks item validator found
    unfold allVerify
    simp only [List.all_cons, found]
    rw [canonicalBytes_of_encodable fine, ih later, here]
    change (if _ then _ else _) = _
    cases KeyPair.verify validator.keypair.publicKey (CanonicalJson.canonicalBytes statement) item.2 <;> rfl

/-- A statement that has been hashed can be verified. -/
theorem signaturesValid_of_encodable (fine : statement.Encodable) :
    signaturesValid c statement signers signatures = .ok (c.signaturesValid statement signers signatures) := by
  unfold signaturesValid QuorumCommittee.signaturesValid
  dsimp only
  split
  · rename_i both
    rw [decide_eq_true both.1, Bool.true_and]
    refine allVerify_of_encodable fine both.2 fun item validator found => ?_
    rw [found]
  · rename_i apart
    refine congrArg _ (Bool.eq_false_iff.mpr fun valid => apart ?_).symm
    obtain ⟨same, all⟩ := Bool.and_eq_true_iff.mp valid
    refine ⟨of_decide_eq_true same, fun item member => ?_⟩
    have verified := List.all_eq_true.mp all item member
    cases found : c.validators.get? item.1 with
    | none =>
      rw [found] at verified
      cases verified
    | some validator => rfl

omit [Crypto] in
/-- The statement that is signed has the fields of the one that is hashed. -/
theorem voteStatement_encodable {phase : String} {epoch : Int} {domainId : String} {objectVersions : List (String × Int)}
    {opId dependencyDigest : String}
    (fine : (certifiedStatement phase epoch domainId objectVersions opId dependencyDigest).Encodable) :
    (voteStatement phase epoch domainId objectVersions opId dependencyDigest).Encodable := by
  unfold certifiedStatement at fine
  unfold voteStatement
  rw [encodable_obj] at fine ⊢
  refine fun entry member => fine entry ?_
  simp only [List.mem_cons, List.not_mem_nil, or_false] at member ⊢
  tauto

end Parts

/-- What is hashed of a certificate, its statement and its signers with their signatures, can
be encoded. -/
structure Hashed (statement : Json) (signers : List String) (signatures : List (String × Bytes)) : Prop where
  stated : statement.Encodable
  named : (identified (Mosaic.digest statement) signers (sortedSignatures signatures)).Encodable

/-- The verifiers hash the statement and the identifier before they look at anything else. -/
theorem rejecting_hashed {outsider : Prop} {statement : Json} {signers : List String} {signatures : List (String × Bytes)}
    {f : String → String → Except NexusError Bool} :
    Rejecting outsider (do
      let expectedDigest ← digest statement
      let expectedId ← certificateId expectedDigest signers (sortedSignatures signatures)
      f expectedDigest expectedId) ↔
    Hashed statement signers signatures ∧ Rejecting outsider (f (Mosaic.digest statement)
      (Nexus.certificateId (Mosaic.digest statement) signers (sortedSignatures signatures))) := by
  unfold certificateId
  rw [rejecting_digest_bind, rejecting_digest_bind, ← and_assoc]
  exact and_congr_left fun _ => ⟨fun both => ⟨both.1, both.2⟩, fun both => ⟨both.stated, both.named⟩⟩

theorem verifyCertificate_rejecting (c : QuorumCommittee) (certificate : Certificate) (epoch : Int) (domainId : String)
    (objectVersions : List (String × Int)) (operation : Operation) :
    Rejecting (c.HasOutsider certificate.signers)
        (verifyCertificate c certificate epoch domainId objectVersions operation) ↔
      ((dependencies operation).Encodable ∧
        Hashed (QuorumCommittee.certifiedStatement certificate.phase epoch domainId objectVersions operation)
          (sortedSet certificate.signers) certificate.signatures) ∧
      ¬ (certificate.Fits epoch domainId objectVersions operation ∧ c.HasOutsider certificate.signers) := by
  rw [and_assoc]
  refine rejecting_digest_bind.trans (and_congr_right fun _ => rejecting_hashed.trans (and_congr_right fun hashed => ?_))
  dsimp only
  rw [signaturesValid_of_encodable (voteStatement_encodable hashed.stated)]
  exact c.rejecting_iff certificate.signers _

theorem verifyDac_rejecting (c : QuorumCommittee) (operation : Operation) (certificate : DataAvailabilityCertificate) :
    Rejecting (c.HasOutsider certificate.signers) (verifyDac c operation certificate) ↔
      Hashed (QuorumCommittee.availabilityStatement operation) (sorted certificate.signers) certificate.signatures ∧
        ¬ (certificate.Fits operation ∧ c.HasOutsider certificate.signers) := by
  refine rejecting_hashed.trans (and_congr_right fun hashed => ?_)
  rw [signaturesValid_of_encodable hashed.stated]
  exact c.rejecting_iff certificate.signers _

/-- The fields of a snapshot that are looked at before the root of the domain is computed. -/
def Placed (snapshot : StateSnapshot) (d : DomainExecutor) : Prop :=
  snapshot.snapshotId = Nexus.certificateId
      (Mosaic.digest (snapshotStatement snapshot.epoch snapshot.domainId snapshot.stateRoot)) (sorted snapshot.signers)
      (sortedSignatures snapshot.signatures) ∧
    snapshot.statementDigest = Mosaic.digest (snapshotStatement snapshot.epoch snapshot.domainId snapshot.stateRoot) ∧
    snapshot.epoch = d.epoch ∧ snapshot.domainId = d.domainId

instance (snapshot : StateSnapshot) (d : DomainExecutor) : Decidable (Placed snapshot d) :=
  inferInstanceAs (Decidable (_ ∧ _))

theorem verifySnapshot_rejecting (d : DomainExecutor) (snapshot : StateSnapshot) :
    Rejecting (d.committee.HasOutsider snapshot.signers) (verifySnapshot d snapshot) ↔
      (Hashed (snapshotStatement snapshot.epoch snapshot.domainId snapshot.stateRoot) (sorted snapshot.signers)
          snapshot.signatures ∧ (Placed snapshot d → (rooted d).Encodable)) ∧
        ¬ (snapshot.Fits d ∧ d.committee.HasOutsider snapshot.signers) := by
  rw [and_assoc]
  refine rejecting_hashed.trans (and_congr_right fun hashed => ?_)
  rw [signaturesValid_of_encodable hashed.stated]
  change Rejecting _ (if Placed snapshot d then _ else _) ↔ _
  by_cases placed : Placed snapshot d
  swap
  · rw [if_neg placed]
    refine iff_of_true ⟨⟨false, rfl⟩, fun _ => rfl⟩ ⟨fun here => absurd here placed, fun both => ?_⟩
    obtain ⟨⟨id, stated, epoch, domain, -⟩, -⟩ := both
    exact placed ⟨id, stated, epoch, domain⟩
  rw [if_pos placed, imp_iff_right placed]
  refine rejecting_digest_bind.trans (and_congr_right fun fine => ?_)
  refine (d.committee.rejecting_iff snapshot.signers _).trans (not_congr (and_congr_left fun _ => ?_))
  obtain ⟨id, stated, epoch, domain⟩ := placed
  exact ⟨fun root => ⟨id, stated, epoch, domain, root⟩, fun fits => fits.2.2.2.2⟩

theorem verifyTransition_rejecting (m : EpochManager) (certificate : EpochTransitionCertificate)
    (newValidators : Dict String Validator) :
    Rejecting (m.committee.HasOutsider certificate.signers) (verifyTransition m certificate newValidators) ↔
      Hashed (m.statement newValidators) (sorted certificate.signers) certificate.signatures ∧
        ¬ (certificate.Fits m newValidators ∧ m.committee.HasOutsider certificate.signers) := by
  refine rejecting_hashed.trans (and_congr_right fun hashed => ?_)
  rw [signaturesValid_of_encodable hashed.stated]
  exact m.committee.rejecting_iff certificate.signers _

theorem abortSignaturesValid_of_encodable {join : JoinCoordinator} {h : Heap} {statement : Json} {signers : List String}
    {signatures : List (String × Bytes)} (fine : statement.Encodable) :
    abortSignaturesValid join h statement signers signatures = join.signaturesValid h statement signers signatures := by
  unfold abortSignaturesValid JoinCoordinator.signaturesValid
  simp only [signaturesValid_of_encodable fine]
  rfl

theorem verifyAbort_rejecting (join : JoinCoordinator) (h : Heap) (operation : Operation) (certificate : AbortCertificate)
    (reason : String) :
    Rejecting (join.HasOutsider h certificate.signers) (verifyAbort join h operation certificate reason) ↔
      (Texts.encodes reason = true ∧ Hashed (JoinCoordinator.abortStatement operation reason) (sorted certificate.signers)
          certificate.signatures) ∧
        (join.Shared h → ¬ (certificate.Fits operation reason ∧ join.HasOutsider h certificate.signers)) ∧
          (¬ join.Shared h → ¬ (JoinCoordinator.SignedBy certificate.signers certificate.signatures ∨
            certificate.Fits operation reason)) := by
  rw [and_assoc, ← JoinCoordinator.verifyAbort_rejecting]
  refine rejecting_digest_bind.trans (and_congr encodable_str ?_)
  refine rejecting_hashed.trans (and_congr_right fun hashed => ?_)
  rw [abortSignaturesValid_of_encodable hashed.stated]
  exact Iff.rfl

/-- Every verifier answers, and refuses outsiders, where all that it hashes can be encoded,
unless all that it checks before it weighs the signers holds and one of them is an outsider.
The one for aborts also needs the domains to share a committee once it asks for it. -/
theorem verifiers_reject_iff :
    (∀ (c : QuorumCommittee) (certificate : Certificate) (epoch : Int) (domainId : String)
      (objectVersions : List (String × Int)) (operation : Operation),
      Rejecting (c.HasOutsider certificate.signers)
          (verifyCertificate c certificate epoch domainId objectVersions operation) ↔
        ((dependencies operation).Encodable ∧
          Hashed (QuorumCommittee.certifiedStatement certificate.phase epoch domainId objectVersions operation)
            (sortedSet certificate.signers) certificate.signatures) ∧
        ¬ (certificate.Fits epoch domainId objectVersions operation ∧ c.HasOutsider certificate.signers)) ∧
    (∀ (c : QuorumCommittee) (operation : Operation) (certificate : DataAvailabilityCertificate),
      Rejecting (c.HasOutsider certificate.signers) (verifyDac c operation certificate) ↔
        Hashed (QuorumCommittee.availabilityStatement operation) (sorted certificate.signers) certificate.signatures ∧
          ¬ (certificate.Fits operation ∧ c.HasOutsider certificate.signers)) ∧
    (∀ (d : DomainExecutor) (snapshot : StateSnapshot),
      Rejecting (d.committee.HasOutsider snapshot.signers) (verifySnapshot d snapshot) ↔
        (Hashed (snapshotStatement snapshot.epoch snapshot.domainId snapshot.stateRoot) (sorted snapshot.signers)
            snapshot.signatures ∧ (Placed snapshot d → (rooted d).Encodable)) ∧
          ¬ (snapshot.Fits d ∧ d.committee.HasOutsider snapshot.signers)) ∧
    (∀ (join : JoinCoordinator) (h : Heap) (operation : Operation) (certificate : AbortCertificate) (reason : String),
      Rejecting (join.HasOutsider h certificate.signers) (verifyAbort join h operation certificate reason) ↔
        (Texts.encodes reason = true ∧ Hashed (JoinCoordinator.abortStatement operation reason)
            (sorted certificate.signers) certificate.signatures) ∧
          (join.Shared h → ¬ (certificate.Fits operation reason ∧ join.HasOutsider h certificate.signers)) ∧
            (¬ join.Shared h → ¬ (JoinCoordinator.SignedBy certificate.signers certificate.signatures ∨
              certificate.Fits operation reason))) ∧
    ∀ (m : EpochManager) (certificate : EpochTransitionCertificate) (newValidators : Dict String Validator),
      Rejecting (m.committee.HasOutsider certificate.signers) (verifyTransition m certificate newValidators) ↔
        Hashed (m.statement newValidators) (sorted certificate.signers) certificate.signatures ∧
          ¬ (certificate.Fits m newValidators ∧ m.committee.HasOutsider certificate.signers) :=
  ⟨verifyCertificate_rejecting, verifyDac_rejecting, verifySnapshot_rejecting, verifyAbort_rejecting,
    verifyTransition_rejecting⟩

/-- A certificate that nobody has signed, in the name of an outsider. -/
def strayCertificate (operation : Operation) : Certificate where
  certificateId :=
    Nexus.certificateId (Mosaic.digest (QuorumCommittee.certifiedStatement "COMMIT" 0 "d" [] operation)) ["unknown"] []
  epoch := 0
  domainIds := ["d"]
  opId := operation.opId
  phase := "COMMIT"
  signers := ["unknown"]
  signatures := []
  statementDigest := Mosaic.digest (QuorumCommittee.certifiedStatement "COMMIT" 0 "d" [] operation)

omit [Texts] in
theorem strayCertificate_fits (operation : Operation) : (strayCertificate operation).Fits 0 "d" [] operation := by
  have signers : sortedSet ["unknown"] = ["unknown"] := by decide
  refine ⟨?_, rfl, rfl, rfl, rfl, List.mem_cons_of_mem _ (List.mem_singleton_self _), List.nodup_singleton _⟩
  change Nexus.certificateId _ _ _ = Nexus.certificateId _ (sortedSet ["unknown"]) _
  rw [signers]
  rfl

omit [Crypto] [Texts] in
/-- The verifier crashes on it. -/
theorem stray_certificate_crashes : let _ := Crypto.ideal
    let _ := Texts.all
    ¬ ∀ (c : QuorumCommittee) (certificate : Certificate) (epoch : Int) (domainId : String)
      (objectVersions : List (String × Int)) (operation : Operation), Rejecting (c.HasOutsider certificate.signers)
        (verifyCertificate c certificate epoch domainId objectVersions operation) := by
  intro _ _ claimed
  have outside : (QuorumCommittee.new (soloValidators idealKey)).HasOutsider
      (strayCertificate (rewrite idealKey ["a"] 0)).signers := ⟨"unknown", List.mem_singleton_self _, rfl⟩
  have rejects := (verifyCertificate_rejecting (.new (soloValidators idealKey)) (strayCertificate (rewrite idealKey ["a"] 0))
    0 "d" [] (rewrite idealKey ["a"] 0)).mp (claimed _ _ _ _ _ _)
  exact rejects.2 ⟨strayCertificate_fits _, outside⟩

end Mosaic.Nexus.Strict
