import Mosaic.Lib.CanonicalTexts
import Mosaic.Protocol

namespace Mosaic
open CanonicalJson Effects

/-- Which members without a key pair have a public key, by their identifiers. The record of
another one stands for a member that is built with neither, and what it says of a key is
never read. -/
class Keyring where
  keyed : String → Bool

/-- All members have keys. -/
@[reducible] def Keyring.all : Keyring := ⟨fun _ => true⟩

namespace Strict

variable [Crypto] [Texts]

/-- `canonical_bytes`, with its error. -/
def canonicalBytes (value : Json) : Except PyError Bytes :=
  if value.Encodable then .ok (CanonicalJson.canonicalBytes value) else .error .unicodeEncodeError

/-- `digest`, which encodes its argument first. -/
def digest (value : Json) : Except PyError String := do
  let encoded ← canonicalBytes value
  return Crypto.sha256 encoded

def sealId (s : StateSeal) : Except PyError String := digest s.statement

def receiptId (receipt : WitnessReceipt) : Except PyError String :=
  digest (.obj (receipt.statementFields ++ [("signature", .str (hex receipt.signature))]))

/-- `Capsule.create`. -/
def createdCapsule (client : KeyPair) (predecessor : StateSeal) (successorRoot ruleId ruleWitness : String)
    (attempt : Int) (bundleId : Option String) : Except PyError Capsule := do
  let predecessorId ← sealId predecessor
  let unsigned : Capsule := {
    capsuleId := ""
    predecessorId, successorRoot, ruleId, ruleWitness, bundleId, attempt
    epoch := predecessor.epoch
    clientId := client.identity
    clientPublicKey := client.publicKey
    clientSignature := [] }
  let capsuleId ← digest unsigned.unsignedStatement
  let message ← canonicalBytes unsigned.unsignedStatement
  return { unsigned with capsuleId, clientSignature := client.sign message }

def verifyClientSignature (capsule : Capsule) : Except PyError Bool := do
  let message ← canonicalBytes capsule.unsignedStatement
  return KeyPair.verify capsule.clientPublicKey message capsule.clientSignature

/-- The identifier of a closure or an abandon proof. -/
def proofId (label capsuleId predecessorId : String) (epoch attempt : Int) (receipts : List WitnessReceipt) :
    Except PyError String := do
  let receiptIds ← receipts.mapM receiptId
  digest (proofStatement label capsuleId predecessorId epoch attempt receiptIds)

/-- `ClosureProof.create`. -/
def createdClosure (receipts : List WitnessReceipt) : Except PyError ClosureProof :=
  let ordered := sortedBy WitnessReceipt.witnessId receipts
  match ordered with
  | [] => .error (.closureInvalid "closure requires receipts")
  | first :: _ =>
    if ordered.any (fun item => item.status ≠ "ACCEPT" ∨ item.capsuleId ≠ first.capsuleId ∨
        item.predecessorId ≠ first.predecessorId ∨ item.epoch ≠ first.epoch ∨ item.attempt ≠ first.attempt) then
      .error (.closureInvalid "receipts do not describe one capsule")
    else do
      let id ← proofId closureLabel first.capsuleId first.predecessorId first.epoch first.attempt ordered
      return {
        capsuleId := first.capsuleId
        predecessorId := first.predecessorId
        epoch := first.epoch
        attempt := first.attempt
        signerIds := ordered.map WitnessReceipt.witnessId
        receipts := ordered
        proofId := id }

/-- `AbandonProof.create`. -/
def createdAbandon (receipts : List WitnessReceipt) : Except PyError AbandonProof :=
  let ordered := sortedBy WitnessReceipt.witnessId receipts
  match ordered with
  | [] => .error (.closureInvalid "abandon proof requires abandon receipts")
  | first :: _ =>
    if ordered.any (fun item => item.status ≠ "ABANDON") then
      .error (.closureInvalid "abandon proof requires abandon receipts")
    else if ordered.any (fun item => item.capsuleId ≠ first.capsuleId ∨
        item.predecessorId ≠ first.predecessorId ∨ item.epoch ≠ first.epoch ∨ item.attempt ≠ first.attempt) then
      .error (.closureInvalid "abandon receipts do not match")
    else do
      let id ← proofId abandonLabel first.capsuleId first.predecessorId first.epoch first.attempt ordered
      return {
        predecessorId := first.predecessorId
        capsuleId := first.capsuleId
        epoch := first.epoch
        attempt := first.attempt
        signerIds := ordered.map WitnessReceipt.witnessId
        receipts := ordered
        proofId := id }

/-- `ConflictEvidence.create`. -/
def createdEvidence (first second : Capsule) : Except PyError ConflictEvidence :=
  if first.predecessorId ≠ second.predecessorId then
    .error (.mosaicError "conflict requires one predecessor")
  else if first.capsuleId = second.capsuleId then
    .error (.mosaicError "conflict requires distinct capsules")
  else do
    let (a, b) := if first.capsuleId ≤ second.capsuleId then (first, second) else (second, first)
    let evidenceId ← digest (conflictStatement first.predecessorId a.capsuleId b.capsuleId
      [a.clientSignature, b.clientSignature])
    return {
      predecessorId := first.predecessorId
      capsuleA := a.capsuleId
      capsuleB := b.capsuleId
      signatures := (a.clientSignature, b.clientSignature)
      evidenceId }

section Verify
variable [Keyring]

def publicKey (member : Member) : Except PyError Bytes :=
  if member.keypair.isSome ∨ Keyring.keyed member.memberId then .ok member.publicKey
  else .error (.mosaicError "member has no public key")

def verifyReceipt (s : MosaicProtocol) (receipt : WitnessReceipt) : Except PyError Bool :=
  match s.members.get? receipt.witnessId, s.capsules.get? receipt.capsuleId with
  | some member, some capsule =>
    if receipt.predecessorId = capsule.predecessorId ∧ (receipt.epoch = capsule.epoch ∧ capsule.epoch = s.epoch) ∧
        receipt.attempt = capsule.attempt then do
      let key ← publicKey member
      let message ← canonicalBytes receipt.statement
      return KeyPair.verify key message receipt.signature
    else return false
  | _, _ => return false

/-- `self.verify_receipt(receipt) and receipt.status == status and ...`. -/
def counts (s : MosaicProtocol) (capsule : Capsule) (status : String) (receipt : WitnessReceipt) :
    Except PyError Bool := do
  let verified ← verifyReceipt s receipt
  return verified && receipt.status = status && receipt.capsuleId = capsule.capsuleId

/-- `all(...)`, which does not look at what comes after the first receipt that fails. -/
def allCount (s : MosaicProtocol) (capsule : Capsule) : List WitnessReceipt → Except PyError Bool
  | [] => return true
  | receipt :: receipts => do
    let counted ← counts s capsule "ACCEPT" receipt
    if counted then allCount s capsule receipts else return false

def verifyClosure (s : MosaicProtocol) (capsule : Capsule) (closure : ClosureProof) : Except PyError Bool :=
  if closure.capsuleId ≠ capsule.capsuleId ∨ closure.predecessorId ≠ capsule.predecessorId ∨
      closure.epoch ≠ capsule.epoch ∨ closure.attempt ≠ capsule.attempt then
    return false
  else
    let unique := MosaicProtocol.byWitness closure.receipts
    if sorted unique.keys ≠ sorted closure.signerIds then
      return false
    else do
      let valid ← allCount s capsule unique.values
      let weight := (unique.keys.map s.weightOf).sum
      let expectedProofId ← proofId closureLabel capsule.capsuleId capsule.predecessorId capsule.epoch capsule.attempt
        (sortedBy WitnessReceipt.witnessId unique.values)
      return valid && s.threshold ≤ weight && expectedProofId = closure.proofId

/-- The receipts that count, looked at one after the other. -/
def countedReceipts (s : MosaicProtocol) (capsule : Capsule) (status : String) :
    List WitnessReceipt → Except PyError (List WitnessReceipt)
  | [] => return []
  | receipt :: receipts => do
    let counted ← counts s capsule status receipt
    let rest ← countedReceipts s capsule status receipts
    return if counted then receipt :: rest else rest

/-- What `close` and `abandon` keep of the receipts they are given. -/
def validReceipts (s : MosaicProtocol) (capsule : Capsule) (status : String) (receipts : List WitnessReceipt) :
    Except PyError (List WitnessReceipt) :=
  countedReceipts s capsule status (MosaicProtocol.byWitness receipts).values

end Verify

open Instance

/-- `self.current_seals[...] = ...`. -/
@[simps]
def setCurrent (s : Instance) (fresh : StateSeal) : Instance :=
  { s with currentSeals := s.currentSeals.set fresh.resourceId fresh }

/-- The seal is current before its identifier is computed. -/
def install (fresh : StateSeal) : Py PUnit := do
  modify (setCurrent · fresh)
  let id ← ofExcept (sealId fresh)
  modify fun s => { s with knownSeals := s.knownSeals.set id fresh }

def createResource (resourceId owner stateRoot capabilitySecret : String) : Py StateSeal := do
  let s ← get
  raiseIf (s.currentSeals.contains resourceId) (.mosaicError "resource already exists")
  let capabilityHash ← ofExcept (digest (.str capabilitySecret))
  let fresh : StateSeal := { resourceId, epoch := s.epoch, version := 0, stateRoot, capabilityHash, owner }
  install fresh
  return fresh

def createCapsule (client : KeyPair) (predecessor : StateSeal) (successorRoot ruleId ruleWitness : String)
    (attempt : Int) (bundleId : Option String) : Py Capsule := do
  let s ← get
  raiseIf (s.currentSeals.get? predecessor.resourceId ≠ some predecessor)
    (.capsuleInvalid "predecessor is not the current seal")
  raiseIf (predecessor.epoch ≠ s.epoch) (.capsuleInvalid "predecessor belongs to another epoch")
  let capsule ← ofExcept (createdCapsule client predecessor successorRoot ruleId ruleWitness attempt bundleId)
  modify (·.storeCapsule capsule)
  return capsule

def validateCapsule (capsule : Capsule) : Py PUnit := do
  let s ← get
  match s.knownSeals.get? capsule.predecessorId with
  | none => throw (.capsuleInvalid "unknown predecessor seal")
  | some current => do
    raiseIf (capsule.epoch ≠ s.epoch ∨ current.epoch ≠ s.epoch) (.capsuleInvalid "capsule epoch mismatch")
    let verified ← ofExcept (verifyClientSignature capsule)
    raiseIf (verified = false) (.capsuleInvalid "invalid client signature")
    raiseIf (capsule.attempt < 0) (.capsuleInvalid "attempt cannot be negative")
    raiseIf (capsule.successorRoot = "") (.capsuleInvalid "successor root is empty")

def signReceipt (member : Member) (capsule : Capsule) (status : String) : Py WitnessReceipt :=
  match member.keypair with
  | none => throw (.mosaicError "validator private key is not loaded on this node")
  | some pair => do
    let unsigned := Instance.receiptOf member capsule status
    let message ← ofExcept (canonicalBytes unsigned.statement)
    let receipt := { unsigned with signature := pair.sign message }
    modify (·.addSigned receipt)
    return receipt

/-- Keep the evidence that two capsules claim one predecessor, and raise it. -/
def raiseConflict (first second : Capsule) : Py PUnit := do
  let evidence ← ofExcept (createdEvidence first second)
  modify (·.addEvidence evidence)
  throw (.conflictDetected evidence)

/-- The `ACCEPT` branch of `witness_receipt`. -/
def acceptLock (capsule : Capsule) : Py PUnit := do
  let s ← get
  let predecessor ← lookupKey s.knownSeals capsule.predecessorId
  let current ← lookupKey s.currentSeals predecessor.resourceId
  let currentId ← ofExcept (sealId current)
  match s.locks.get? capsule.predecessorId with
  | none => do
    raiseIf (currentId ≠ capsule.predecessorId) (.capsuleInvalid "predecessor is not current")
    modify (·.setLock capsule "ACCEPT")
  | some lock =>
    if currentId ≠ capsule.predecessorId then
      if lock.capsuleId ≠ capsule.capsuleId then
        match s.capsules.get? lock.capsuleId with
        | some first => raiseConflict first capsule
        | none => throw (.capsuleInvalid "predecessor is not current")
      else
        throw (.capsuleInvalid "predecessor is not current")
    else if lock.capsuleId = capsule.capsuleId ∧ lock.attempt = capsule.attempt then
      pure ⟨⟩
    else if lock.status = "ABANDON" ∧ lock.attempt < capsule.attempt then
      modify (·.setLock capsule "ACCEPT")
    else do
      let first ← lookupKey s.capsules lock.capsuleId
      raiseConflict first capsule

/-- The `ABANDON` branch of `witness_receipt`. -/
def abandonLock (capsule : Capsule) : Py PUnit := do
  let s ← get
  match s.locks.get? capsule.predecessorId with
  | some lock =>
    if lock.capsuleId ≠ capsule.capsuleId ∨ lock.attempt ≠ capsule.attempt then
      match s.capsules.get? lock.capsuleId with
      | some first => raiseConflict first capsule
      | none => throw (.mosaicError "cannot abandon an unknown local lock")
    else do
      raiseIf (s.closures.contains capsule.capsuleId) (.mosaicError "cannot abandon a closed capsule")
      modify (·.setLock capsule "ABANDON")
  | none => do
    raiseIf (s.closures.contains capsule.capsuleId) (.mosaicError "cannot abandon a closed capsule")
    modify (·.setLock capsule "ABANDON")

/-- The lock is taken before the receipt is encoded. -/
def witnessReceipt (memberId : String) (capsule : Capsule) (status : String) : Py WitnessReceipt := do
  raiseIf (status ≠ "ACCEPT" ∧ status ≠ "ABANDON") (.mosaicError "unknown receipt status")
  validateCapsule capsule
  let member ← getMember memberId
  (if status = "ACCEPT" then acceptLock capsule else abandonLock capsule)
  signReceipt member capsule status

variable [Keyring]

/-- The loop of `collect_accept_receipts` and `collect_abandon_receipts`. -/
def collectFrom (capsule : Capsule) (status : String) (caught : PyError → Bool) :
    List String → Py (List WitnessReceipt)
  | [] => pure []
  | memberId :: memberIds => do
    match ← attempt caught (witnessReceipt memberId capsule status) with
    | some receipt => do
      let s ← get
      let verified ← ofExcept (verifyReceipt s.toMosaicProtocol receipt)
      let rest ← collectFrom capsule status caught memberIds
      return if verified then receipt :: rest else rest
    | none => collectFrom capsule status caught memberIds

def collectAcceptReceipts (capsule : Capsule) : Py (List WitnessReceipt) := do
  let s ← get
  collectFrom capsule "ACCEPT" PyError.isConflict (sorted s.members.keys)

def collectAbandonReceipts (capsule : Capsule) : Py (List WitnessReceipt) := do
  let s ← get
  collectFrom capsule "ABANDON" PyError.isMosaicError (sorted s.members.keys)

def registerClosure (capsule : Capsule) (closure : ClosureProof) : Py PUnit := do
  let s ← get
  let verified ← ofExcept (verifyClosure s.toMosaicProtocol capsule closure)
  raiseIf (verified = false) (.closureInvalid "invalid closure proof")
  raiseIf (s.hasConflictOn capsule.predecessorId) (.closureInvalid "predecessor has conflict evidence")
  if s.closures.contains capsule.capsuleId then pure ⟨⟩
  else modify (·.addClosure capsule closure)

def close (capsule : Capsule) (receipts : List WitnessReceipt) : Py ClosureProof := do
  validateCapsule capsule
  let receipts ← (if receipts.isEmpty then collectAcceptReceipts capsule else pure receipts)
  let s ← get
  let valid ← ofExcept (validReceipts s.toMosaicProtocol capsule "ACCEPT" receipts)
  let weight := s.weightOfReceipts valid
  let threshold := s.threshold
  raiseIf (weight < threshold) (.closureInvalid s!"insufficient closure weight: {weight} < {threshold}")
  raiseIf (s.hasConflictOn capsule.predecessorId) (.closureInvalid "predecessor has conflict evidence")
  let closure ← ofExcept (createdClosure valid)
  registerClosure capsule closure
  return closure

def abandon (capsule : Capsule) (receipts : List WitnessReceipt) : Py AbandonProof := do
  let s ← get
  raiseIf (s.closures.contains capsule.capsuleId) (.closureInvalid "cannot abandon a closed capsule")
  let receipts ← (if receipts.isEmpty then collectAbandonReceipts capsule else pure receipts)
  let s ← get
  let valid ← ofExcept (validReceipts s.toMosaicProtocol capsule "ABANDON" receipts)
  let weight := s.weightOfReceipts valid
  let threshold := s.threshold
  raiseIf (weight < threshold) (.closureInvalid s!"insufficient abandon weight: {weight} < {threshold}")
  let proof ← ofExcept (createdAbandon valid)
  modify (·.addAbandon capsule proof)
  return proof

/-- The seal that a capsule puts in the place of the current one. -/
def successor (current : StateSeal) (capsule : Capsule) : Except PyError StateSeal := do
  let capabilityHash ← digest (.str capsule.capsuleId)
  return {
    resourceId := current.resourceId
    epoch := current.epoch
    version := current.version + 1
    stateRoot := capsule.successorRoot
    capabilityHash
    owner := capsule.clientId }

/-- The part of `apply` after the closure is registered, with the seals that it has
read before. -/
def advance (s : Instance) (capsule : Capsule) : Py StateSeal :=
  match s.knownSeals.get? capsule.predecessorId with
  | none => throw (.closureInvalid "predecessor not found")
  | some predecessor =>
    match s.currentSeals.get? predecessor.resourceId with
    | none => throw (.closureInvalid "resource state not found")
    | some current => do
      let currentId ← ofExcept (sealId current)
      if currentId ≠ capsule.predecessorId then
        if current.version = predecessor.version + 1 ∧ current.stateRoot = capsule.successorRoot then do
          let capability ← ofExcept (digest (.str capsule.capsuleId))
          raiseIf (current.capabilityHash ≠ capability) (.closureInvalid "predecessor is not current")
          return current
        else
          throw (.closureInvalid "predecessor is not current")
      else do
        let next ← ofExcept (successor current capsule)
        install next
        return next

def apply (capsule : Capsule) (closure : ClosureProof) : Py StateSeal := do
  let s ← get
  raiseIf (closure.capsuleId ≠ capsule.capsuleId) (.closureInvalid "closure belongs to another capsule")
  let verified ← ofExcept (verifyClosure s.toMosaicProtocol capsule closure)
  raiseIf (verified = false) (.closureInvalid "closure was not verified")
  (if s.closures.contains capsule.capsuleId then pure ⟨⟩ else registerClosure capsule closure)
  advance s capsule

/-- The first of the seals with this identifier; none is looked at after it. -/
def sealNamed (id : String) : List StateSeal → Except PyError (Option StateSeal)
  | [] => return none
  | current :: others => do
    let currentId ← sealId current
    if currentId = id then return some current else sealNamed id others

/-- The checking loop of `apply_bundle`. -/
def checkEntries (s : Instance) : List (Capsule × ClosureProof) → Py PUnit
  | [] => pure ⟨⟩
  | (capsule, closure) :: entries => do
    raiseIf (s.closures.get? capsule.capsuleId ≠ some closure)
      (.closureInvalid "bundle contains unregistered closure")
    raiseIf (closure.capsuleId ≠ capsule.capsuleId) (.closureInvalid "bundle closure mismatch")
    let verified ← ofExcept (verifyClosure s.toMosaicProtocol capsule closure)
    raiseIf (verified = false) (.closureInvalid "bundle contains invalid closure")
    let current ← ofExcept (sealNamed capsule.predecessorId s.currentSeals.values)
    raiseIf current.isNone (.closureInvalid "bundle predecessor not current")
    checkEntries s entries

/-- The second loop: the seals that will be installed. -/
def bundleSeals (s : Instance) : List (Capsule × ClosureProof) → Except PyError (List StateSeal)
  | [] => return []
  | (capsule, _) :: entries => do
    match ← sealNamed capsule.predecessorId s.currentSeals.values with
    | some current => do
      let next ← successor current capsule
      let rest ← bundleSeals s entries
      return next :: rest
    | none => bundleSeals s entries

def applyBundle (bundle : BundleClosure) (entries : List (Capsule × ClosureProof)) : Py (List StateSeal) := do
  let s ← get
  raiseIf (entries.isEmpty ∨ bundle.bundleId = "") (.closureInvalid "invalid bundle application")
  raiseIf (sorted (entries.map fun entry => entry.2.proofId) ≠ sorted bundle.closureIds)
    (.closureInvalid "bundle closure does not cover entries")
  checkEntries s entries
  let nextSeals ← ofExcept (bundleSeals s entries)
  nextSeals.forM install
  return nextSeals

end Strict

end Mosaic
