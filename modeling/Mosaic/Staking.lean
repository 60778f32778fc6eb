import Mosaic.Certificates
import Mosaic.Lib.Dict

namespace Mosaic
open CanonicalJson

/-- What the economic layer raises. The first five are the `ValueError`
subclasses of its modules. -/
inductive EconomyError
  | settlement (message : String)
  | membership (message : String)
  | onboarding (message : String)
  | incentive (message : String)
  | beaconRound (message : String)
  | storage (message : String)
  | valueError (message : String)
  | overflowError (message : String)
  | keyError (key : String)

/-- `str(exc)`. -/
def EconomyError.message : EconomyError → String
  | .settlement message | .membership message | .onboarding message | .incentive message | .beaconRound message
  | .storage message | .valueError message | .overflowError message | .keyError message => message

/-- The exceptions that `except ValueError` catches. -/
def EconomyError.isValueError : EconomyError → Bool
  | .storage _ | .overflowError _ | .keyError _ => false
  | _ => true

def EconomyError.isMembership : EconomyError → Bool
  | .membership _ => true
  | _ => false

def EconomyError.isSettlement : EconomyError → Bool
  | .settlement _ => true
  | _ => false

def EconomyError.isIncentive : EconomyError → Bool
  | .incentive _ => true
  | _ => false

/-- A bytes literal. -/
def literal (text : String) : Bytes := text.toUTF8.toList

def hexValue (c : Char) : Option Nat :=
  if c.isDigit then some (c.toNat - 48)
  else if 'a' ≤ c ∧ c ≤ 'f' then some (c.toNat - 87)
  else if 'A' ≤ c ∧ c ≤ 'F' then some (c.toNat - 55)
  else none

/-- The ASCII white space. -/
def isSpace (c : Char) : Bool := c = ' ' || (9 ≤ c.toNat && c.toNat ≤ 13)

/-- `bytes.fromhex`, which passes over white space between two bytes. -/
def fromHex : List Char → Option Bytes
  | [] => some []
  | [c] => if isSpace c then some [] else none
  | a :: b :: rest =>
    if isSpace a then fromHex (b :: rest)
    else
      match hexValue a, hexValue b, fromHex rest with
      | some high, some low, some later => some (UInt8.ofNat (16 * high + low) :: later)
      | _, _, _ => none

theorem hexValue_digitChar {n : Nat} (small : n < 16) : hexValue n.digitChar = some n ∧ isSpace n.digitChar = false := by
  interval_cases n <;> decide

theorem fromHex_hex (value : Bytes) : fromHex (hex value).toList = some value := by
  unfold hex
  rw [String.toList_ofList]
  induction value with
  | nil => rfl
  | cons b bytes ih =>
    have bound := b.toNat_lt
    obtain ⟨high, nonspace⟩ := hexValue_digitChar (n := b.toNat / 16) (by omega)
    obtain ⟨low, -⟩ := hexValue_digitChar (n := b.toNat % 16) (by omega)
    have value : 16 * (b.toNat / 16) + b.toNat % 16 = b.toNat := by omega
    simp only [List.flatMap_cons, List.cons_append, List.nil_append, fromHex, nonspace, Bool.false_eq_true, if_false, high,
      low, ih, value, UInt8.ofNat_toNat]

/-- `n.to_bytes(8, "big")`. -/
def toBytes8 (n : Int) : Option Bytes :=
  if 0 ≤ n ∧ n < 2 ^ 64 then some ((List.range 8).map fun i => UInt8.ofNat (n.toNat / 256 ^ (7 - i))) else none

/-- `int.from_bytes(value, "big")`. -/
def fromBytes (value : Bytes) : Nat := value.foldl (fun number byte => 256 * number + byte.toNat) 0

structure ValidatorRecord where
  validatorId : String
  publicKey : Bytes
  stake : Int
  depositId : String
  active : Bool := true
  lockedUntilEpoch : Int := 0
  jailed : Bool := false
  deriving DecidableEq

structure StakeBond where
  bondId : String
  owner : String
  ownerPublicKey : Bytes
  amount : Int
  asset : String
  activationEpoch : Int
  unlockEpoch : Int
  ownerSignature : Bytes
  deriving DecidableEq

def StakeBond.statement (bond : StakeBond) : Json := .obj [
  ("protocol", .str "MOSAIC/STAKE-BOND/v1"),
  ("bond_id", .str bond.bondId),
  ("owner", .str bond.owner),
  ("owner_public_key", .str (hex bond.ownerPublicKey)),
  ("amount", .int bond.amount),
  ("asset", .str bond.asset),
  ("activation_epoch", .int bond.activationEpoch),
  ("unlock_epoch", .int bond.unlockEpoch)]

structure AdmissionRequest where
  validatorId : String
  publicKey : Bytes
  stake : Int
  depositId : String
  requestedEpoch : Int
  applicantSignature : Bytes
  bondId : Option String := none
  deriving DecidableEq

def AdmissionRequest.statementFields (request : AdmissionRequest) : List (String × Json) := [
  ("protocol", .str "MOSAIC/ADMISSION/v1"),
  ("validator_id", .str request.validatorId),
  ("public_key", .str (hex request.publicKey)),
  ("stake", .int request.stake),
  ("deposit_id", .str request.depositId),
  ("requested_epoch", .int request.requestedEpoch),
  ("bond_id", optionJson request.bondId)]

def AdmissionRequest.statement (request : AdmissionRequest) : Json := .obj request.statementFields

structure AdmissionCertificate where
  requestDigest : String
  epoch : Int
  approverIds : List String
  signatures : List Bytes
  certificateId : String
  deriving DecidableEq

structure ExitCertificate where
  validatorId : String
  epoch : Int
  approverIds : List String
  certificateId : String
  unlockEpoch : Int := 0
  deriving DecidableEq

structure WithdrawalReceipt where
  validatorId : String
  depositId : String
  amount : Int
  unlockEpoch : Int
  receiptId : String
  deriving DecidableEq

structure SlashEvidence where
  offenderId : String
  epoch : Int
  firstDigest : String
  secondDigest : String
  witnessIds : List String
  evidenceId : String
  deriving DecidableEq

def slashStatement (offenderId : String) (epoch : Int) (firstDigest secondDigest : String)
    (witnessIds : List String) : Json := .obj [
  ("protocol", .str "MOSAIC/SLASH-EVIDENCE/v1"),
  ("offender_id", .str offenderId),
  ("epoch", .int epoch),
  ("first_digest", .str firstDigest),
  ("second_digest", .str secondDigest),
  ("witness_ids", .list (witnessIds.map .str))]

structure RandomnessCommitment where
  validatorId : String
  epoch : Int
  round : Int
  commitment : String
  signature : Bytes
  deriving DecidableEq

def RandomnessCommitment.statement (item : RandomnessCommitment) : Json := .obj [
  ("protocol", .str "MOSAIC/RANDOMNESS-COMMIT/v1"),
  ("validator_id", .str item.validatorId),
  ("epoch", .int item.epoch),
  ("round", .int item.round),
  ("commitment", .str item.commitment)]

structure RandomnessReveal where
  validatorId : String
  epoch : Int
  round : Int
  secret : Bytes
  commitment : String
  signature : Bytes
  deriving DecidableEq

def RandomnessReveal.statement (item : RandomnessReveal) : Json := .obj [
  ("protocol", .str "MOSAIC/RANDOMNESS-REVEAL/v1"),
  ("validator_id", .str item.validatorId),
  ("epoch", .int item.epoch),
  ("round", .int item.round),
  ("secret", .str (hex item.secret)),
  ("commitment", .str item.commitment)]

structure RandomnessBeacon where
  epoch : Int
  round : Int
  revealIds : List String
  beaconValue : Bytes
  proofId : String
  mode : String := "reveal"
  commitmentIds : List String := []
  deriving DecidableEq

/-- What a beacon hashes; the two modes differ in the label and the name of the
list of identifiers. -/
def beaconStatement (label idsName : String) (epoch round : Int) (ids : List String) (value : Bytes) : Json := .obj [
  ("protocol", .str label),
  ("epoch", .int epoch),
  ("round", .int round),
  (idsName, .list (ids.map .str)),
  ("beacon_value", .str (hex value))]

section Checks
variable [Crypto]

/-- `sha256(value).digest()`, the bytes that `hexdigest()` writes down. -/
def sha256Digest (value : Bytes) : Bytes := (fromHex (Crypto.sha256 value).toList).getD []

def StakeBond.create (owner : KeyPair) (bondId : String) (amount : Int) (asset : String)
    (activationEpoch unlockEpoch : Int) : StakeBond :=
  let unsigned : StakeBond := {
    bondId
    owner := owner.identity
    ownerPublicKey := owner.publicKey
    amount, asset, activationEpoch, unlockEpoch
    ownerSignature := [] }
  { unsigned with ownerSignature := owner.sign (canonicalBytes unsigned.statement) }

def StakeBond.verify (bond : StakeBond) : Bool :=
  0 < bond.amount && 0 ≤ bond.activationEpoch && bond.activationEpoch ≤ bond.unlockEpoch &&
    KeyPair.verify bond.ownerPublicKey (canonicalBytes bond.statement) bond.ownerSignature

def AdmissionRequest.create (applicant : KeyPair) (validatorId : String) (stake : Int) (depositId : String)
    (requestedEpoch : Int) (bondId : Option String) : AdmissionRequest :=
  let unsigned : AdmissionRequest := {
    validatorId
    publicKey := applicant.publicKey
    stake, depositId, requestedEpoch
    applicantSignature := []
    bondId }
  { unsigned with applicantSignature := applicant.sign (canonicalBytes unsigned.statement) }

def AdmissionRequest.verify (request : AdmissionRequest) : Bool :=
  KeyPair.verify request.publicKey (canonicalBytes request.statement) request.applicantSignature

/-- `SlashEvidence.create` of two objects that the code can encode. -/
def SlashEvidence.create (offenderId : String) (epoch : Int) (first second : Json) (witnessIds : List String) :
    Except EconomyError SlashEvidence :=
  if digest first = digest second then
    .error (.membership "slash evidence objects must conflict")
  else
    let witnesses := sorted witnessIds.dedup
    .ok {
      offenderId, epoch
      firstDigest := digest first
      secondDigest := digest second
      witnessIds := witnesses
      evidenceId := digest (slashStatement offenderId epoch (digest first) (digest second) witnesses) }

def SlashEvidence.verify (evidence : SlashEvidence) : Bool :=
  evidence.offenderId ≠ "" && 0 ≤ evidence.epoch && evidence.firstDigest ≠ evidence.secondDigest &&
    evidence.evidenceId = digest (slashStatement evidence.offenderId evidence.epoch evidence.firstDigest
      evidence.secondDigest evidence.witnessIds)

/-- `sha256(b"MOSAIC/RANDOMNESS-COMMIT/v1" + secret).hexdigest()`. -/
def commitmentTo (secret : Bytes) : String := Crypto.sha256 (literal "MOSAIC/RANDOMNESS-COMMIT/v1" ++ secret)

def RandomnessCommitment.create (validator : KeyPair) (epoch round : Int) (secret : Bytes) (validatorId : Option String) :
    RandomnessCommitment :=
  let unsigned : RandomnessCommitment :=
    { validatorId := validatorId.getD validator.identity, epoch, round, commitment := commitmentTo secret, signature := [] }
  { unsigned with signature := validator.sign (canonicalBytes unsigned.statement) }

def RandomnessReveal.create (validator : KeyPair) (epoch round : Int) (secret : Bytes) (commitment : String)
    (validatorId : Option String) : RandomnessReveal :=
  let unsigned : RandomnessReveal :=
    { validatorId := validatorId.getD validator.identity, epoch, round, secret, commitment, signature := [] }
  { unsigned with signature := validator.sign (canonicalBytes unsigned.statement) }

end Checks

end Mosaic
