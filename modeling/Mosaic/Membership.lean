import Mosaic.Economy

namespace Mosaic
open CanonicalJson Effects Economy

/-- `n.to_bytes(8, "big")`. -/
def bigEndian8 (n : Int) : Except EconomyError Bytes :=
  match toBytes8 n with
  | some bytes => .ok bytes
  | none => .error (.overflowError (if n < 0 then "can't convert negative int to unsigned" else "int too big to convert"))

/-- `bytes.fromhex(text)`. -/
def hexBytes (text : String) : Except EconomyError Bytes :=
  match fromHex text.toList with
  | some bytes => .ok bytes
  | none => .error (.valueError "non-hexadecimal number found in fromhex() arg")

namespace MembershipManager

/-- The call of the ledger, where there is one. -/
def settle {α : Type} (m : MembershipManager) (x : PyLedger α) : PyEconomy PUnit :=
  if m.settlement then do
    let _ ← onLedger x
    return ⟨⟩
  else
    return ⟨⟩

/-- `bond_id = self._validator_bonds.get(validator_id)` and the call of the
ledger on that bond. -/
def settleBond {α : Type} (m : MembershipManager) (validatorId : String) (x : String → PyLedger α) : PyEconomy PUnit :=
  match m.validatorBonds.get? validatorId with
  | some bondId => m.settle (x bondId)
  | none => if m.settlement then throw (.membership "validator has no settlement bond") else return ⟨⟩

/-- `request.bond_id or request.deposit_id`. -/
def expectedBond (request : AdmissionRequest) : String :=
  match request.bondId with
  | some bondId => if bondId = "" then request.depositId else bondId
  | none => request.depositId

def admittedRecord (request : AdmissionRequest) : ValidatorRecord where
  validatorId := request.validatorId
  publicKey := request.publicKey
  stake := request.stake
  depositId := request.depositId

/-- The record is in and the deposit is used. -/
def register [Crypto] (m : MembershipManager) (request : AdmissionRequest) : MembershipManager :=
  ((m.setRecord request.validatorId (admittedRecord request)).addDeposit request.depositId).rebuilt

def exitedRecord (m : MembershipManager) (record : ValidatorRecord) : ValidatorRecord :=
  { record with
    active := false
    lockedUntilEpoch := m.epoch + m.withdrawalDelay }

/-- What `slash` makes of a record. -/
def slashedRecord (record : ValidatorRecord) (amount : Int) : ValidatorRecord :=
  let newStake := max 0 (record.stake - amount)
  { record with
    stake := newStake
    active := 0 < newStake && !record.jailed
    jailed := newStake = 0 || record.jailed }

/-- What `penalize_non_reveal` makes of a record: unlike `slash` it looks at
whether the validator was active. -/
def dockedRecord (record : ValidatorRecord) (penalty : Int) : ValidatorRecord :=
  let newStake := max 0 (record.stake - penalty)
  { record with
    stake := newStake
    active := 0 < newStake && record.active
    jailed := newStake = 0 || record.jailed }

variable [Crypto]

def requestDigest (request : AdmissionRequest) : String :=
  digest (.obj (request.statementFields ++ [("signature", .str (hex request.applicantSignature))]))

def admissionCertificate (m : MembershipManager) (request : AdmissionRequest) (approverIds : List String) :
    AdmissionCertificate :=
  let approvers := sorted approverIds.dedup
  { requestDigest := requestDigest request
    epoch := m.epoch
    approverIds := approvers
    signatures := []
    certificateId := digest (.obj [
      ("protocol", .str "MOSAIC/ADMISSION-CERT/v1"),
      ("request", .str (requestDigest request)),
      ("epoch", .int m.epoch),
      ("approvers", .list (approvers.map .str))]) }

def exitCertificate (m : MembershipManager) (validatorId : String) : ExitCertificate :=
  let unlockEpoch := m.epoch + m.withdrawalDelay
  { validatorId
    epoch := m.epoch
    approverIds := []
    certificateId := digest (.obj [
      ("protocol", .str "MOSAIC/EXIT/v1"),
      ("validator", .str validatorId),
      ("epoch", .int m.epoch),
      ("unlock_epoch", .int unlockEpoch)])
    unlockEpoch }

def withdrawalReceipt (validatorId : String) (record : ValidatorRecord) : WithdrawalReceipt where
  validatorId := validatorId
  depositId := record.depositId
  amount := record.stake
  unlockEpoch := record.lockedUntilEpoch
  receiptId := digest (.obj [
    ("protocol", .str "MOSAIC/WITHDRAWAL/v1"),
    ("validator", .str validatorId),
    ("deposit", .str record.depositId),
    ("amount", .int record.stake),
    ("unlock_epoch", .int record.lockedUntilEpoch)])

def nonRevealId (validatorId : String) (epoch round : Int) : String := digest (.obj [
  ("protocol", .str "MOSAIC/NON-REVEAL/v1"),
  ("validator_id", .str validatorId),
  ("epoch", .int epoch),
  ("round", .int round)])

/-- The branch of `admit` for a bond. -/
def lockBond (m : MembershipManager) (request : AdmissionRequest) (bond : StakeBond) : PyEconomy PUnit := do
  raiseIf (bond.verify = false) (.membership "invalid stake bond")
  raiseIf (bond.bondId ≠ expectedBond request) (.membership "admission bond does not match request")
  raiseIf (bond.ownerPublicKey ≠ request.publicKey ∨ bond.amount ≠ request.stake)
    (.membership "stake bond owner or amount mismatch")
  raiseIf (m.epoch < bond.activationEpoch) (.membership "stake bond is not active yet")
  m.settle (SettlementLedger.bond bond m.epoch)
  updateManager (·.addBond request.validatorId bond)

/-- `MembershipManager.admit`. -/
def admitValidator (request : AdmissionRequest) (approverIds : List String) (bond : Option StakeBond) :
    PyEconomy AdmissionCertificate := do
  let s ← get
  let m := s.manager
  raiseIf (request.verify = false) (.membership "invalid applicant signature")
  raiseIf (request.stake < m.minimumStake) (.membership "stake below minimum")
  raiseIf (request.requestedEpoch < m.epoch) (.membership "admission request is stale")
  raiseIf (m.settlement = true ∧ bond = none) (.membership "settlement-backed admission requires a stake bond")
  raiseIf (m.records.contains request.validatorId) (.membership "validator id already exists")
  raiseIf (request.depositId ∈ m.deposits) (.membership "deposit cannot be reused")
  match bond with
  | some b => m.lockBond request b
  | none => pure ⟨⟩
  updateManager (·.register request)
  return m.admissionCertificate request approverIds

def exit (validatorId : String) (epoch : Option Int) : PyEconomy ExitCertificate := do
  let s ← get
  let m := s.manager
  match m.records.get? validatorId with
  | none => throw (.membership "unknown validator")
  | some record => do
    raiseIf (epoch.any (· < m.epoch)) (.membership "stale exit epoch")
    m.settleBond validatorId fun bondId => SettlementLedger.requestUnbond bondId m.epoch m.withdrawalDelay
    updateManager fun m => (m.setRecord validatorId (m.exitedRecord record)).rebuilt
    return m.exitCertificate validatorId

def withdraw (validatorId : String) (currentEpoch : Option Int) : PyEconomy WithdrawalReceipt := do
  let s ← get
  let m := s.manager
  match m.records.get? validatorId with
  | none => throw (.membership "unknown validator")
  | some record => do
    let epoch := currentEpoch.getD m.epoch
    m.settleBond validatorId fun bondId =>
      rethrow EconomyError.isValueError (fun e => .membership e.message) (SettlementLedger.withdraw bondId epoch)
    raiseIf record.active (.membership "validator is still active")
    raiseIf (epoch < record.lockedUntilEpoch) (.membership "withdrawal delay has not elapsed")
    updateManager fun m => (m.dropValidator validatorId).rebuilt
    return withdrawalReceipt validatorId record

/-- The ledger is slashed before the epoch and the amount are looked at. -/
def slash (evidence : SlashEvidence) (penalty : Option Int) : PyEconomy ValidatorRecord := do
  let s ← get
  let m := s.manager
  raiseIf (evidence.verify = false) (.membership "invalid slash evidence")
  raiseIf (m.slashHistory.contains evidence.evidenceId) (.membership "slash evidence already applied")
  match m.records.get? evidence.offenderId with
  | none => throw (.membership "unknown slashing offender")
  | some record => do
    let amount := penalty.getD record.stake
    m.settleBond evidence.offenderId fun bondId =>
      SettlementLedger.slash bondId amount evidence.epoch evidence.evidenceId none
    raiseIf (m.epoch < evidence.epoch) (.membership "slash evidence is from a future epoch")
    raiseIf (amount ≤ 0) (.membership "slash penalty must be positive")
    updateManager fun m => ((m.setRecord evidence.offenderId (slashedRecord record amount)).addSlash evidence).rebuilt
    return slashedRecord record amount

def penalizeNonReveal (validatorId : String) (epoch round penalty : Int) : PyEconomy ValidatorRecord := do
  let s ← get
  let m := s.manager
  raiseIf (epoch ≠ m.epoch) (.membership "non-reveal epoch is not current")
  raiseIf (penalty ≤ 0) (.membership "non-reveal penalty must be positive")
  match m.records.get? validatorId with
  | none => throw (.membership "unknown non-revealing validator")
  | some record => do
    raiseIf (nonRevealId validatorId epoch round ∈ m.nonRevealHistory) (.membership "non-reveal penalty already applied")
    updateManager fun m =>
      ((m.setRecord validatorId (dockedRecord record penalty)).addNonReveal (nonRevealId validatorId epoch round)).rebuilt
    return dockedRecord record penalty

/-- The epoch is counted before the bytes of the seed are put together. -/
def advanceEpoch : PyEconomy MembershipSnapshot := do
  let s ← get
  updateManager fun m => m.setEpoch (m.epoch + 1)
  let root ← ofExcept (hexBytes s.manager.snapshot.root)
  let count ← ofExcept (bigEndian8 (s.manager.epoch + 1))
  let seed := sha256Digest (literal "MOSAIC/EPOCH-SEED/v1" ++ s.manager.seed ++ root ++ count)
  updateManager fun m => (m.setSeed seed).rebuilt
  let t ← get
  return t.manager.snapshot

def restoreAdmission (request : AdmissionRequest) (bond : StakeBond) : PyEconomy PUnit := do
  let s ← get
  let m := s.manager
  raiseIf (request.verify = false ∨ bond.verify = false) (.membership "cannot restore invalid admission")
  raiseIf (request.stake < m.minimumStake ∨ request.bondId ≠ some bond.bondId)
    (.membership "restored admission does not satisfy stake policy")
  raiseIf (m.records.contains request.validatorId ∨ request.depositId ∈ m.deposits)
    (.membership "restored admission is duplicated")
  raiseIf (bond.ownerPublicKey ≠ request.publicKey ∨ bond.amount ≠ request.stake)
    (.membership "restored bond does not match admission")
  updateManager fun m => (m.addBond request.validatorId bond).register request

/-- What the loop of `make_beacon` checks of one reveal, and the stake that it
adds. -/
def revealStake (m : MembershipManager) (commitmentMap : Dict String RandomnessCommitment) (round : Int)
    (entry : String × RandomnessReveal) : Except EconomyError Int :=
  match commitmentMap.get? entry.1, m.snapshot.byId.get? entry.1 with
  | some commitment, some record => do
    if commitment.epoch ≠ m.epoch ∨ entry.2.epoch ≠ m.epoch then
      throw (.membership "randomness epoch mismatch")
    if commitment.round ≠ round ∨ entry.2.round ≠ round then
      throw (.membership "randomness round mismatch")
    if KeyPair.verify record.publicKey (canonicalBytes commitment.statement) commitment.signature = false then
      throw (.membership "invalid randomness commitment signature")
    if KeyPair.verify record.publicKey (canonicalBytes entry.2.statement) entry.2.signature = false then
      throw (.membership "invalid randomness reveal signature")
    if commitmentTo entry.2.secret ≠ commitment.commitment ∨ entry.2.commitment ≠ commitment.commitment then
      throw (.membership "randomness reveal does not open commitment")
    return record.stake
  | _, _ => throw (.membership "randomness reveal is not backed by active commitment")

def makeBeacon (m : MembershipManager) (commitments : List RandomnessCommitment) (reveals : List RandomnessReveal)
    (round : Int) : Except EconomyError RandomnessBeacon := do
  let commitmentMap := Dict.ofList (commitments.map fun item => (item.validatorId, item))
  let revealMap := Dict.ofList (reveals.map fun item => (item.validatorId, item))
  if revealMap.entries = [] then
    throw (.membership "randomness beacon has no reveals")
  let stakes ← revealMap.entries.mapM (m.revealStake commitmentMap round)
  if stakes.sum < m.snapshot.threshold then
    throw (.membership "insufficient randomness reveal weight")
  let ordered := sortedBy Prod.fst revealMap.entries
  let count ← bigEndian8 round
  let beaconValue := sha256Digest
    (literal "MOSAIC/RANDOMNESS-BEACON/v1" ++ m.seed ++ count ++ ordered.flatMap fun entry => entry.2.secret)
  let revealIds := ordered.map Prod.fst
  return {
    epoch := m.epoch
    round
    revealIds
    beaconValue
    proofId := digest (beaconStatement "MOSAIC/RANDOMNESS-BEACON/v1" "reveal_ids" m.epoch round revealIds beaconValue) }

/-- What the loop of `make_fallback_beacon` checks of one commitment, and the
stake that it adds. -/
def commitmentStake (m : MembershipManager) (round : Int) (entry : String × RandomnessCommitment) :
    Except EconomyError Int :=
  match m.snapshot.byId.get? entry.1 with
  | some record => do
    if entry.2.epoch ≠ m.epoch ∨ entry.2.round ≠ round then
      throw (.membership "fallback commitment epoch or round mismatch")
    if KeyPair.verify record.publicKey (canonicalBytes entry.2.statement) entry.2.signature = false then
      throw (.membership "invalid fallback commitment signature")
    return record.stake
  | none => throw (.membership "fallback commitment is not from active validator")

def makeFallbackBeacon (m : MembershipManager) (commitments : List RandomnessCommitment) (round : Int) :
    Except EconomyError RandomnessBeacon := do
  let commitmentMap := Dict.ofList (commitments.map fun item => (item.validatorId, item))
  if commitmentMap.entries = [] then
    throw (.membership "randomness fallback has no commitments")
  let stakes ← commitmentMap.entries.mapM (m.commitmentStake round)
  if stakes.sum < m.snapshot.threshold then
    throw (.membership "insufficient commitment weight for randomness fallback")
  let ordered := sortedBy Prod.fst commitmentMap.entries
  let count ← bigEndian8 round
  let opened ← ordered.mapM fun entry => hexBytes entry.2.commitment
  let beaconValue := sha256Digest (literal "MOSAIC/RANDOMNESS-FALLBACK/v1" ++ m.seed ++ count ++ opened.flatten)
  let commitmentIds := ordered.map Prod.fst
  return {
    epoch := m.epoch
    round
    revealIds := []
    beaconValue
    proofId := digest
      (beaconStatement "MOSAIC/RANDOMNESS-FALLBACK/v1" "commitment_ids" m.epoch round commitmentIds beaconValue)
    mode := "commitment-fallback"
    commitmentIds }

end MembershipManager

end Mosaic
