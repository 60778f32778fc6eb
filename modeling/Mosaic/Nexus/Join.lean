import Mosaic.Nexus.DomainSteps

namespace Mosaic.Nexus
open CanonicalJson Effects

section Join
variable [Crypto]

/-- The executors that references lead to. Executors that refer to one committee
see the same committee. -/
structure Heap where
  executors : Nat → DomainExecutor
  committeeOf : Nat → Nat
  shared : ∀ i j, committeeOf i = committeeOf j → (executors i).committee = (executors j).committee

namespace Heap

/-- The executor has changed, and with it the committee for all that refer to it. -/
def store (i : Nat) (d : DomainExecutor) (h : Heap) : Heap where
  executors j :=
    if j = i then d
    else if h.committeeOf j = h.committeeOf i then DomainExecutor.setCommittee d.committee (h.executors j)
    else h.executors j
  committeeOf := h.committeeOf
  shared j k same := by
    have mine : ∀ j, h.committeeOf j = h.committeeOf i →
        (if j = i then d
          else if h.committeeOf j = h.committeeOf i then DomainExecutor.setCommittee d.committee (h.executors j)
          else h.executors j).committee = d.committee := by
      intro j refers
      by_cases here : j = i
      · rw [if_pos here]
      · rw [if_neg here, if_pos refers]
        rfl
    by_cases refers : h.committeeOf j = h.committeeOf i
    · rw [mine j refers, mine k (same ▸ refers)]
    · have others : ∀ j, h.committeeOf j ≠ h.committeeOf i →
          (if j = i then d
            else if h.committeeOf j = h.committeeOf i then DomainExecutor.setCommittee d.committee (h.executors j)
            else h.executors j) = h.executors j := by
        intro j elsewhere
        have apart : j ≠ i := by
          rintro rfl
          exact elsewhere rfl
        rw [if_neg apart, if_neg elsewhere]
      rw [others j refers, others k (same ▸ refers)]
      exact h.shared j k same

variable {h : Heap} {i : Nat} {d : DomainExecutor}

@[simp] theorem store_self (i : Nat) (d : DomainExecutor) (h : Heap) : (h.store i d).executors i = d := if_pos rfl

theorem store_other {j : Nat} (apart : j ≠ i) : (h.store i d).executors j = h.executors j ∨
    h.committeeOf j = h.committeeOf i ∧
      (h.store i d).executors j = DomainExecutor.setCommittee d.committee (h.executors j) := by
  by_cases refers : h.committeeOf j = h.committeeOf i
  · exact Or.inr ⟨refers, (if_neg apart).trans (if_pos refers)⟩
  · exact Or.inl ((if_neg apart).trans (if_neg refers))

/-- Where the committee stays as it is, nobody else notices. -/
theorem store_of_committee (same : d.committee = (h.executors i).committee) {j : Nat} (apart : j ≠ i) :
    (h.store i d).executors j = h.executors j := by
  rcases store_other (h := h) (d := d) apart with untouched | ⟨refers, set⟩
  · exact untouched
  · rw [set, same, ← h.shared j i refers]
    rfl

end Heap

abbrev PyJoin := EStateM NexusError Heap

/-- A call on the executor that a reference leads to. -/
def onDomain {α : Type} (i : Nat) (x : PyDomain α) : PyJoin α := onPart (fun h => h.executors i) (Heap.store i) x

/-- `cert.domain_ids[0]` -/
def Certificate.firstDomain (certificate : Certificate) : Except NexusError String :=
  match certificate.domainIds with
  | [] => .error .indexError
  | domain :: _ => .ok domain

/-- The same as a sort key, where it is known to exist. -/
def Certificate.domainKey (certificate : Certificate) : String := certificate.domainIds.headD ""

structure JoinCoordinator where
  domains : Dict String Nat

namespace JoinCoordinator

/-- `self.domains[domain_id]` -/
def domain (join : JoinCoordinator) (domainId : String) : Except NexusError Nat :=
  match join.domains.get? domainId with
  | some i => .ok i
  | none => .error (.keyError domainId)

/-- `self.committee`, as an executor that refers to it. -/
def committee (join : JoinCoordinator) (h : Heap) : Except NexusError Nat :=
  match join.domains.values with
  | i :: others =>
    if ∀ j ∈ others, h.committeeOf j = h.committeeOf i then .ok i
    else .error (.joinError "prototype requires one committee shared by all domains")
  | [] => .error (.joinError "prototype requires one committee shared by all domains")

def prepareAll (join : JoinCoordinator) (operation : Operation) : PyJoin (List Certificate) := do
  raiseIf (operation.domainIds.toFinset ≠ join.domains.keys.toFinset)
    (.joinError "coordinator domains do not match operation domains")
  (sortedSet operation.domainIds).mapM fun domainId => do
    let i ← ofExcept (join.domain domainId)
    onDomain i (DomainExecutor.prepare operation none)

def joinStatement (operation : Operation) (certificates : List Certificate) : Except NexusError Json := do
  let items ← certificates.mapM fun certificate => do
    let domain ← certificate.firstDomain
    return .obj [
      ("domain", .str domain),
      ("certificate_id", .str certificate.certificateId),
      ("statement_digest", .str certificate.statementDigest)]
  return .obj [
    ("protocol", .str "CCD/NEXUS/v1"),
    ("phase", .str "JOIN"),
    ("epoch", .int operation.epoch),
    ("op_id", .str operation.opId),
    ("domains", stringsJson (sorted operation.domainIds)),
    ("domain_certificates", .list items)]

def issueJoinCertificate (join : JoinCoordinator) (operation : Operation) (certificates : List Certificate) :
    PyJoin JoinCertificate := do
  raiseIf (certificates.length ≠ operation.domainIds.length) (.joinError "missing domain certificate")
  let domains ← ofExcept (certificates.mapM Certificate.firstDomain)
  raiseIf (domains.toFinset ≠ operation.domainIds.toFinset)
    (.joinError "domain certificates do not cover operation domains")
  raiseIf (∃ certificate ∈ certificates, certificate.opId ≠ operation.opId ∨ certificate.phase ≠ "PREPARE")
    (.joinError "domain certificate is not a prepare certificate for this operation")
  let statement ← ofExcept (joinStatement operation certificates)
  let h ← get
  let i ← ofExcept (join.committee h)
  let signatureItems := (h.executors i).committee.signAll statement
  onDomain i (DomainExecutor.onCommittee (modify fun c =>
    c.countMessages statement (signatureItems.map Prod.snd)))
  let signers := signatureItems.map Prod.fst
  return {
    certificateId := certificateId (digest statement) signers signatureItems
    epoch := operation.epoch
    opId := operation.opId
    domainCertificates := sortedBy Certificate.domainKey certificates
    signers
    signatures := signatureItems
    statementDigest := digest statement }

/-- `signatures_valid`; the committee is asked for only where the signatures are
by the signers. -/
def signaturesValid (join : JoinCoordinator) (h : Heap) (statement : Json) (signers : List String)
    (signatures : List (String × Bytes)) : Except NexusError Bool :=
  if (Dict.ofList (sortedSignatures signatures)).keys.toFinset = signers.toFinset then do
    let i ← join.committee h
    return (h.executors i).committee.signaturesValid statement signers signatures
  else
    return false

def verifyJoinCertificate (join : JoinCoordinator) (h : Heap) (operation : Operation) (certificate : JoinCertificate) :
    Except NexusError Bool := do
  if certificate.epoch ≠ operation.epoch ∨ certificate.opId ≠ operation.opId then
    return false
  else
    let domains ← certificate.domainCertificates.mapM Certificate.firstDomain
    if domains.toFinset ≠ operation.domainIds.toFinset then
      return false
    else if ∃ part ∈ certificate.domainCertificates, part.opId ≠ operation.opId ∨ part.phase ≠ "PREPARE" then
      return false
    else
      let statement ← joinStatement operation (sortedBy Certificate.domainKey certificate.domainCertificates)
      let signatures := sortedSignatures certificate.signatures
      let expectedId := certificateId (digest statement) (sorted certificate.signers) signatures
      let valid ← join.signaturesValid h statement certificate.signers certificate.signatures
      if certificate.certificateId = expectedId ∧ certificate.statementDigest = digest statement ∧
          certificate.signers.Nodup then
        let i ← join.committee h
        let c := (h.executors i).committee
        if certificate.signers.all fun item => (c.validators.get? item).isSome then
          let weight ← c.weightOf certificate.signers
          return c.threshold ≤ weight && valid
        else
          return false
      else
        return false

def commitDomain (join : JoinCoordinator) (operation : Operation) (domainId : String) : PyJoin Certificate := do
  let i ← ofExcept (join.domain domainId)
  let h ← get
  match (h.executors i).preparedCertificates.get? operation.opId with
  | none => throw (.keyError operation.opId)
  | some prepared => onDomain i (DomainExecutor.commitCertificate operation prepared)

def applyDomain (join : JoinCoordinator) (operation : Operation) (domainId : String) (certificate : Certificate) :
    PyJoin PUnit := do
  let i ← ofExcept (join.domain domainId)
  onDomain i (DomainExecutor.applyCommitted operation certificate)

def finalize (join : JoinCoordinator) (operation : Operation) : PyJoin JoinCertificate := do
  let prepared ← join.prepareAll operation
  let certificate ← join.issueJoinCertificate operation prepared
  let h ← get
  let accepted ← ofExcept (join.verifyJoinCertificate h operation certificate)
  raiseIf (¬ accepted) (.joinError "issued Join certificate failed verification")
  let commits ← (sorted operation.domainIds).mapM (join.commitDomain operation)
  ((sorted operation.domainIds).zip commits).forM fun item => join.applyDomain operation item.1 item.2
  return certificate

def abortStatement (operation : Operation) (reason : String) : Json := .obj [
  ("protocol", .str "CCD/NEXUS/v1"),
  ("phase", .str "ABORT"),
  ("epoch", .int operation.epoch),
  ("op_id", .str operation.opId),
  ("domains", stringsJson (sorted operation.domainIds)),
  ("reason_digest", .str (digest (.str reason)))]

def verifyAbort (join : JoinCoordinator) (h : Heap) (operation : Operation) (certificate : AbortCertificate)
    (reason : String) : Except NexusError Bool := do
  let statement := abortStatement operation reason
  let signatures := sortedSignatures certificate.signatures
  let expectedId := certificateId (digest statement) (sorted certificate.signers) signatures
  let valid ← join.signaturesValid h statement certificate.signers certificate.signatures
  if certificate.certificateId = expectedId ∧
      certificate.statementDigest = digest statement ∧
      certificate.epoch = operation.epoch ∧
      certificate.opId = operation.opId ∧
      certificate.domainIds = sorted operation.domainIds ∧
      certificate.reasonDigest = digest (.str reason) then
    let i ← join.committee h
    let c := (h.executors i).committee
    let weight ← c.weightOf certificate.signers
    return c.threshold ≤ weight && valid
  else
    return false

/-- `str.isspace`, character by character. -/
def isSpace (c : Char) : Bool :=
  (9 ≤ c.toNat && c.toNat ≤ 13) || (28 ≤ c.toNat && c.toNat ≤ 32) || c.toNat = 0x85 || c.toNat = 0xA0 ||
  c.toNat = 0x1680 || (0x2000 ≤ c.toNat && c.toNat ≤ 0x200A) || c.toNat = 0x2028 || c.toNat = 0x2029 ||
  c.toNat = 0x202F || c.toNat = 0x205F || c.toNat = 0x3000

def abort (join : JoinCoordinator) (operation : Operation) (reason : String) : PyJoin AbortCertificate := do
  raiseIf (reason.toList.all isSpace) (.joinError "abort requires a reason")
  let statement := abortStatement operation reason
  let h ← get
  let i ← ofExcept (join.committee h)
  let signatures := (h.executors i).committee.signAll statement
  let signers := signatures.map Prod.fst
  let certificate : AbortCertificate := {
    certificateId := certificateId (digest statement) signers signatures
    epoch := operation.epoch
    opId := operation.opId
    domainIds := sorted operation.domainIds
    reasonDigest := digest (.str reason)
    signers
    signatures
    statementDigest := digest statement }
  let accepted ← ofExcept (join.verifyAbort h operation certificate reason)
  raiseIf (¬ accepted) (.joinError "issued Abort certificate failed verification")
  return certificate

end JoinCoordinator
end Join

end Mosaic.Nexus
