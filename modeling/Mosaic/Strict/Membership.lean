import Mosaic.Onboarding
import Mosaic.Strict.Settlement

namespace Mosaic.Strict
open CanonicalJson Effects Mosaic.Economy

variable [Crypto] [Texts]

def AdmissionRequest.verify (request : AdmissionRequest) : Except EconomyError Bool := do
  let message ← Economy.canonicalBytes request.statement
  return KeyPair.verify request.publicKey message request.applicantSignature

/-- `SlashEvidence.verify`, which computes the identifier when all else is right. -/
def SlashEvidence.verify (evidence : SlashEvidence) : Except EconomyError Bool :=
  if evidence.offenderId ≠ "" ∧ 0 ≤ evidence.epoch ∧ evidence.firstDigest ≠ evidence.secondDigest then do
    let expected ← Economy.digest (slashStatement evidence.offenderId evidence.epoch evidence.firstDigest
      evidence.secondDigest evidence.witnessIds)
    return evidence.evidenceId = expected
  else return false

namespace MembershipManager
open Mosaic.MembershipManager

/-- What the root of a snapshot hashes. -/
def rootStatement (m : MembershipManager) : Json := .obj [
  ("protocol", .str "MOSAIC/MEMBERSHIP-ROOT/v1"),
  ("epoch", .int m.epoch),
  ("seed", .str (hex m.seed)),
  ("validators", .list (((sortedBy ValidatorRecord.validatorId m.records.values).filter
    ValidatorRecord.votes).map validatorFields))]

/-- `_build_snapshot`. -/
def buildSnapshot (m : MembershipManager) : Except EconomyError MembershipSnapshot := do
  let root ← Economy.digest (rootStatement m)
  return {
    epoch := m.epoch
    seed := m.seed
    validators := sortedBy ValidatorRecord.validatorId m.records.values
    root }

/-- `self._snapshot = self._build_snapshot()`. -/
def rebuild : PyEconomy PUnit := do
  let s ← get
  let snapshot ← ofExcept (buildSnapshot s.manager)
  updateManager fun m => { m with snapshot }

/-- What the identifier of a certificate hashes. -/
def certificateStatement (m : MembershipManager) (requestDigest : String) (approvers : List String) : Json := .obj [
  ("protocol", .str "MOSAIC/ADMISSION-CERT/v1"),
  ("request", .str requestDigest),
  ("epoch", .int m.epoch),
  ("approvers", .list (approvers.map .str))]

def admissionCertificate (m : MembershipManager) (request : AdmissionRequest) (approverIds : List String) :
    Except EconomyError AdmissionCertificate := do
  let approvers := sorted approverIds.dedup
  let requestDigest ← Economy.digest
    (.obj (request.statementFields ++ [("signature", .str (hex request.applicantSignature))]))
  let certificateId ← Economy.digest (certificateStatement m requestDigest approvers)
  return { requestDigest, epoch := m.epoch, approverIds := approvers, signatures := [], certificateId }

def exitStatement (m : MembershipManager) (validatorId : String) : Json := .obj [
  ("protocol", .str "MOSAIC/EXIT/v1"),
  ("validator", .str validatorId),
  ("epoch", .int m.epoch),
  ("unlock_epoch", .int (m.epoch + m.withdrawalDelay))]

def exitCertificate (m : MembershipManager) (validatorId : String) : Except EconomyError ExitCertificate := do
  let certificateId ← Economy.digest (exitStatement m validatorId)
  return { validatorId, epoch := m.epoch, approverIds := [], certificateId, unlockEpoch := m.epoch + m.withdrawalDelay }

def withdrawalStatement (validatorId : String) (record : ValidatorRecord) : Json := .obj [
  ("protocol", .str "MOSAIC/WITHDRAWAL/v1"),
  ("validator", .str validatorId),
  ("deposit", .str record.depositId),
  ("amount", .int record.stake),
  ("unlock_epoch", .int record.lockedUntilEpoch)]

def withdrawalReceipt (validatorId : String) (record : ValidatorRecord) : Except EconomyError WithdrawalReceipt := do
  let receiptId ← Economy.digest (withdrawalStatement validatorId record)
  return {
    validatorId
    depositId := record.depositId
    amount := record.stake
    unlockEpoch := record.lockedUntilEpoch
    receiptId }

/-- The branch of `admit` for a bond. -/
def lockBond (m : MembershipManager) (request : AdmissionRequest) (bond : StakeBond) : PyEconomy PUnit := do
  let verified ← ofExcept (StakeBond.verify bond)
  raiseIf (verified = false) (.membership "invalid stake bond")
  raiseIf (bond.bondId ≠ expectedBond request) (.membership "admission bond does not match request")
  raiseIf (bond.ownerPublicKey ≠ request.publicKey ∨ bond.amount ≠ request.stake)
    (.membership "stake bond owner or amount mismatch")
  raiseIf (m.epoch < bond.activationEpoch) (.membership "stake bond is not active yet")
  m.settle (SettlementLedger.bond bond m.epoch)
  updateManager (·.addBond request.validatorId bond)

/-- The record is in and the deposit is used, and no snapshot was built. -/
def enrolled (m : MembershipManager) (request : AdmissionRequest) : MembershipManager :=
  (m.setRecord request.validatorId (admittedRecord request)).addDeposit request.depositId

/-- `MembershipManager.admit`. -/
def admitValidator (request : AdmissionRequest) (approverIds : List String) (bond : Option StakeBond) :
    PyEconomy AdmissionCertificate := do
  let s ← get
  let m := s.manager
  let verified ← ofExcept (AdmissionRequest.verify request)
  raiseIf (verified = false) (.membership "invalid applicant signature")
  raiseIf (request.stake < m.minimumStake) (.membership "stake below minimum")
  raiseIf (request.requestedEpoch < m.epoch) (.membership "admission request is stale")
  raiseIf (m.settlement = true ∧ bond = none) (.membership "settlement-backed admission requires a stake bond")
  raiseIf (m.records.contains request.validatorId) (.membership "validator id already exists")
  raiseIf (request.depositId ∈ m.deposits) (.membership "deposit cannot be reused")
  match bond with
  | some b => lockBond m request b
  | none => pure ⟨⟩
  updateManager (enrolled · request)
  rebuild
  ofExcept (admissionCertificate m request approverIds)

def exit (validatorId : String) (epoch : Option Int) : PyEconomy ExitCertificate := do
  let s ← get
  let m := s.manager
  match m.records.get? validatorId with
  | none => throw (.membership "unknown validator")
  | some record => do
    raiseIf (epoch.any (· < m.epoch)) (.membership "stale exit epoch")
    m.settleBond validatorId fun bondId => SettlementLedger.requestUnbond bondId m.epoch m.withdrawalDelay
    updateManager fun m => m.setRecord validatorId (m.exitedRecord record)
    rebuild
    ofExcept (exitCertificate m validatorId)

/-- The receipt is made before the validator is dropped. -/
def withdraw (validatorId : String) (currentEpoch : Option Int) : PyEconomy WithdrawalReceipt := do
  let s ← get
  let m := s.manager
  match m.records.get? validatorId with
  | none => throw (.membership "unknown validator")
  | some record => do
    let epoch := currentEpoch.getD m.epoch
    m.settleBond validatorId fun bondId =>
      rethrow EconomyError.isValueError (fun e => .membership e.message) (SettlementLedger.withdraw bondId epoch)
    raiseIf record.active (.membership "validator is still active")
    raiseIf (epoch < record.lockedUntilEpoch) (.membership "withdrawal delay has not elapsed")
    let receipt ← ofExcept (withdrawalReceipt validatorId record)
    updateManager (·.dropValidator validatorId)
    rebuild
    return receipt

/-- The ledger is slashed before the epoch and the amount are looked at. -/
def slash (evidence : SlashEvidence) (penalty : Option Int) : PyEconomy ValidatorRecord := do
  let s ← get
  let m := s.manager
  let verified ← ofExcept (SlashEvidence.verify evidence)
  raiseIf (verified = false) (.membership "invalid slash evidence")
  raiseIf (m.slashHistory.contains evidence.evidenceId) (.membership "slash evidence already applied")
  match m.records.get? evidence.offenderId with
  | none => throw (.membership "unknown slashing offender")
  | some record => do
    let amount := penalty.getD record.stake
    m.settleBond evidence.offenderId fun bondId =>
      SettlementLedger.slash bondId amount evidence.epoch evidence.evidenceId none
    raiseIf (m.epoch < evidence.epoch) (.membership "slash evidence is from a future epoch")
    raiseIf (amount ≤ 0) (.membership "slash penalty must be positive")
    updateManager fun m => (m.setRecord evidence.offenderId (slashedRecord record amount)).addSlash evidence
    rebuild
    return slashedRecord record amount

end MembershipManager

/-- `SettlementLedger.persist`. -/
def persist : PyEconomy PUnit := do
  let s ← get
  let root ← ofExcept (SettlementLedger.stateRoot s.ledger)
  onStore (EconomyStore.put "settlement_state" "ledger" (.settlementState s.ledger root))

namespace AdmissionCoordinator
open Mosaic.AdmissionCoordinator

/-- The lines of `admit` that come when the membership has admitted. -/
def record (request : AdmissionRequest) (bond : StakeBond) (certificate : AdmissionCertificate) : PyEconomy PUnit := do
  let s ← get
  raiseIf (s.onboardingBound = false) (.onboarding "onboarding coordinator is not bound to durable store")
  persist
  let root ← ofExcept (SettlementLedger.stateRoot s.ledger)
  onStore (EconomyStore.put "onboarding" certificate.certificateId
    (.onboarding request bond certificate root s.manager.snapshot.root))

/-- `AdmissionCoordinator.admit`. -/
def admitValidator (request : AdmissionRequest) (bond : StakeBond) (approverIds : List String) :
    PyEconomy AdmissionCertificate := do
  let s ← get
  let verified ← ofExcept (AdmissionRequest.verify request)
  raiseIf (verified = false) (.onboarding "invalid applicant signature")
  let verifiedBond ← ofExcept (StakeBond.verify bond)
  raiseIf (verifiedBond = false) (.onboarding "invalid stake bond signature")
  raiseIf (request.bondId ≠ some bond.bondId) (.onboarding "request and bond ids do not match")
  raiseIf (request.publicKey ≠ bond.ownerPublicKey ∨ request.stake ≠ bond.amount)
    (.onboarding "request and bond owner or amount mismatch")
  raiseIf (s.ledger.balanceOf bond.owner < bond.amount) (.onboarding "applicant has insufficient settled balance")
  let certificate ← rethrow (fun e => e.isMembership || e.isSettlement) onboardingError
    (MembershipManager.admitValidator request approverIds (some bond))
  record request bond certificate
  return certificate

end AdmissionCoordinator

/-- The operations that are to be atomic over manager and ledger. -/
inductive JointCall
  | admitValidator (request : AdmissionRequest) (approverIds : List String) (bond : Option StakeBond)
  | exit (validatorId : String) (epoch : Option Int)
  | withdraw (validatorId : String) (currentEpoch : Option Int)
  | slash (evidence : SlashEvidence) (penalty : Option Int)
  | onboard (request : AdmissionRequest) (bond : StakeBond) (approverIds : List String)

/-- The call, without what it returns. -/
def JointCall.run : JointCall → PyEconomy PUnit
  | admitValidator request approverIds bond => discard (MembershipManager.admitValidator request approverIds bond)
  | exit validatorId epoch => discard (MembershipManager.exit validatorId epoch)
  | withdraw validatorId currentEpoch => discard (MembershipManager.withdraw validatorId currentEpoch)
  | slash evidence penalty => discard (MembershipManager.slash evidence penalty)
  | onboard request bond approverIds => discard (AdmissionCoordinator.admitValidator request bond approverIds)

end Mosaic.Strict
