import Mosaic.Certificates
import Mosaic.Lib.Dict
import Mosaic.Lib.Effects
import Mathlib.Tactic.Simps.Basic

namespace Mosaic
open CanonicalJson Effects

/-- An entry of the first-claim lock table. -/
structure Lock where
  capsuleId : String
  attempt : Int
  status : String
  deriving DecidableEq

inductive ECTCStatus
  | closed
  | conflict
  | abandoned
  deriving DecidableEq

structure TransitionOutcome where
  capsuleId : String
  predecessorId : String
  status : ECTCStatus
  evidenceIds : List String
  successorSealId : Option String := none
  conflictingCapsuleIds : List String := []
  deriving DecidableEq

def TransitionOutcome.isEvidenceComplete (outcome : TransitionOutcome) : Bool :=
  match outcome.status with
  | .closed => !outcome.evidenceIds.isEmpty && outcome.successorSealId.any (· ≠ "")
  | .conflict | .abandoned => !outcome.evidenceIds.isEmpty

variable [Crypto]

structure MosaicProtocol where
  members : Dict String Member
  epoch : Int
  currentSeals : Dict String StateSeal
  knownSeals : Dict String StateSeal
  locks : Dict String Lock
  capsules : Dict String Capsule
  closures : Dict String ClosureProof
  abandons : Dict String AbandonProof
  conflictEvidence : Dict String ConflictEvidence

/-- A protocol instance together with the receipts it has signed so far. The
history is kept for the statements about runs; no function reads it. -/
structure Instance extends MosaicProtocol where
  signed : List WitnessReceipt

abbrev Py := EStateM PyError Instance

/-- `MosaicProtocol(members, epoch)`. -/
@[simps]
def Instance.fresh (members : Dict String Member) (epoch : Int) : Instance where
  members := members
  epoch := epoch
  currentSeals := .empty
  knownSeals := .empty
  locks := .empty
  capsules := .empty
  closures := .empty
  abandons := .empty
  conflictEvidence := .empty
  signed := []

namespace MosaicProtocol

def totalWeight (s : MosaicProtocol) : Nat := (s.members.values.map Member.weight).sum

def threshold (s : MosaicProtocol) : Nat := 2 * s.totalWeight / 3 + 1

def weightOf (s : MosaicProtocol) (memberId : String) : Nat :=
  match s.members.get? memberId with
  | some member => member.weight
  | none => 0

def verifyReceipt (s : MosaicProtocol) (receipt : WitnessReceipt) : Bool :=
  match s.members.get? receipt.witnessId, s.capsules.get? receipt.capsuleId with
  | some member, some capsule =>
    receipt.predecessorId = capsule.predecessorId
      && (receipt.epoch = capsule.epoch && capsule.epoch = s.epoch)
      && receipt.attempt = capsule.attempt
      && KeyPair.verify member.publicKey (canonicalBytes receipt.statement) receipt.signature
  | _, _ => false

/-- `{receipt.witness_id: receipt for receipt in receipts}`. -/
def byWitness (receipts : List WitnessReceipt) : Dict String WitnessReceipt :=
  .ofList (receipts.map fun receipt => (receipt.witnessId, receipt))

def verifyClosure (s : MosaicProtocol) (capsule : Capsule) (closure : ClosureProof) : Bool :=
  if closure.capsuleId ≠ capsule.capsuleId ∨ closure.predecessorId ≠ capsule.predecessorId ∨
      closure.epoch ≠ capsule.epoch ∨ closure.attempt ≠ capsule.attempt then
    false
  else
    let unique := byWitness closure.receipts
    if sorted unique.keys ≠ sorted closure.signerIds then
      false
    else
      let valid := unique.values.all fun receipt =>
        s.verifyReceipt receipt && receipt.status = "ACCEPT" && receipt.capsuleId = capsule.capsuleId
      let weight := (unique.keys.map s.weightOf).sum
      let expectedProofId := digest (proofStatement closureLabel capsule.capsuleId capsule.predecessorId
        capsule.epoch capsule.attempt
        ((sortedBy WitnessReceipt.witnessId unique.values).map WitnessReceipt.receiptId))
      valid && s.threshold ≤ weight && expectedProofId = closure.proofId

/-- The receipts that `close` and `abandon` keep: one for each witness, verified,
of the wanted status and for this capsule. -/
def validReceipts (s : MosaicProtocol) (capsule : Capsule) (status : String) (receipts : List WitnessReceipt) :
    List WitnessReceipt :=
  (byWitness receipts).values.filter fun receipt =>
    s.verifyReceipt receipt && receipt.status = status && receipt.capsuleId = capsule.capsuleId

def weightOfReceipts (s : MosaicProtocol) (receipts : List WitnessReceipt) : Nat :=
  (receipts.map fun receipt => s.weightOf receipt.witnessId).sum

def hasConflictOn (s : MosaicProtocol) (predecessorId : String) : Bool :=
  s.conflictEvidence.values.any fun evidence => evidence.predecessorId = predecessorId

/-- The first known seal that looks like the successor the capsule asks for.
An unknown predecessor is replaced by the scanned seal itself. -/
def successorOf (s : MosaicProtocol) (capsule : Capsule) : Option StateSeal :=
  s.knownSeals.values.find? fun known =>
    s.currentSeals.contains known.resourceId
      && known.version = ((s.knownSeals.get? capsule.predecessorId).getD known).version + 1
      && known.stateRoot = capsule.successorRoot
      && known.capabilityHash = digest (.str capsule.capsuleId)

def transitionOutcome (s : MosaicProtocol) (capsule : Capsule) : Option TransitionOutcome :=
  match s.closures.get? capsule.capsuleId, s.successorOf capsule with
  | some closure, some successor => some {
      capsuleId := capsule.capsuleId
      predecessorId := capsule.predecessorId
      status := .closed
      evidenceIds := [closure.proofId]
      successorSealId := some successor.sealId }
  | _, _ =>
    match s.conflictEvidence.values.find? (fun evidence =>
        capsule.capsuleId = evidence.capsuleA ∨ capsule.capsuleId = evidence.capsuleB) with
    | some evidence => some {
        capsuleId := capsule.capsuleId
        predecessorId := capsule.predecessorId
        status := .conflict
        evidenceIds := [evidence.evidenceId]
        conflictingCapsuleIds :=
          [if evidence.capsuleA = capsule.capsuleId then evidence.capsuleB else evidence.capsuleA] }
    | none =>
      match s.abandons.get? capsule.capsuleId with
      | some abandon => some {
          capsuleId := capsule.capsuleId
          predecessorId := capsule.predecessorId
          status := .abandoned
          evidenceIds := [abandon.proofId] }
      | none => none

end MosaicProtocol

/-- The seal that a capsule puts in the place of the current one. -/
def nextSeal (current : StateSeal) (capsule : Capsule) : StateSeal where
  resourceId := current.resourceId
  epoch := current.epoch
  version := current.version + 1
  stateRoot := capsule.successorRoot
  capabilityHash := digest (.str capsule.capsuleId)
  owner := capsule.clientId

namespace Instance

/-- `dictionary[key]`. -/
def lookupKey {α : Type} (dictionary : Dict String α) (key : String) : Py α :=
  match dictionary.get? key with
  | some value => pure value
  | none => throw (.keyError key)

def liftExcept {α : Type} : Except PyError α → Py α
  | .ok value => pure value
  | .error e => throw e

@[simps]
def installSeal (s : Instance) (fresh : StateSeal) : Instance :=
  { s with
    currentSeals := s.currentSeals.set fresh.resourceId fresh
    knownSeals := s.knownSeals.set fresh.sealId fresh }

@[simps]
def storeCapsule (s : Instance) (capsule : Capsule) : Instance :=
  { s with capsules := s.capsules.set capsule.capsuleId capsule }

@[simps]
def setLock (s : Instance) (capsule : Capsule) (status : String) : Instance :=
  { s with
    locks := s.locks.set capsule.predecessorId ⟨capsule.capsuleId, capsule.attempt, status⟩
    capsules := s.capsules.set capsule.capsuleId capsule }

@[simps]
def addEvidence (s : Instance) (evidence : ConflictEvidence) : Instance :=
  { s with conflictEvidence := s.conflictEvidence.set evidence.evidenceId evidence }

@[simps toMosaicProtocol signed]
def addSigned (s : Instance) (receipt : WitnessReceipt) : Instance :=
  { s with signed := s.signed ++ [receipt] }

@[simps]
def addClosure (s : Instance) (capsule : Capsule) (closure : ClosureProof) : Instance :=
  { s with closures := s.closures.set capsule.capsuleId closure }

@[simps]
def addAbandon (s : Instance) (capsule : Capsule) (proof : AbandonProof) : Instance :=
  { s with abandons := s.abandons.set capsule.capsuleId proof }

def getMember (memberId : String) : Py Member := do
  let s ← get
  match s.members.get? memberId with
  | some member => pure member
  | none => throw (.mosaicError s!"unknown witness: {memberId}")

def createResource (resourceId owner stateRoot capabilitySecret : String) : Py StateSeal := do
  let s ← get
  raiseIf (s.currentSeals.contains resourceId) (.mosaicError "resource already exists")
  let fresh : StateSeal := {
    resourceId
    epoch := s.epoch
    version := 0
    stateRoot
    capabilityHash := digest (.str capabilitySecret)
    owner }
  modify (·.installSeal fresh)
  return fresh

def createCapsule (client : KeyPair) (predecessor : StateSeal) (successorRoot ruleId ruleWitness : String)
    (attempt : Int) (bundleId : Option String) : Py Capsule := do
  let s ← get
  raiseIf (s.currentSeals.get? predecessor.resourceId ≠ some predecessor)
    (.capsuleInvalid "predecessor is not the current seal")
  raiseIf (predecessor.epoch ≠ s.epoch) (.capsuleInvalid "predecessor belongs to another epoch")
  let capsule := Capsule.create client predecessor successorRoot ruleId ruleWitness attempt bundleId
  modify (·.storeCapsule capsule)
  return capsule

def validateCapsule (capsule : Capsule) : Py PUnit := do
  let s ← get
  match s.knownSeals.get? capsule.predecessorId with
  | none => throw (.capsuleInvalid "unknown predecessor seal")
  | some current => do
    raiseIf (capsule.epoch ≠ s.epoch ∨ current.epoch ≠ s.epoch) (.capsuleInvalid "capsule epoch mismatch")
    raiseIf (capsule.verifyClientSignature = false) (.capsuleInvalid "invalid client signature")
    raiseIf (capsule.attempt < 0) (.capsuleInvalid "attempt cannot be negative")
    raiseIf (capsule.successorRoot = "") (.capsuleInvalid "successor root is empty")

def receiptOf (member : Member) (capsule : Capsule) (status : String) : WitnessReceipt where
  capsuleId := capsule.capsuleId
  predecessorId := capsule.predecessorId
  witnessId := member.memberId
  epoch := capsule.epoch
  attempt := capsule.attempt
  status := status
  signature := []

def signedReceipt (member : Member) (pair : KeyPair) (capsule : Capsule) (status : String) : WitnessReceipt :=
  let unsigned := receiptOf member capsule status
  { unsigned with signature := pair.sign (canonicalBytes unsigned.statement) }

def signReceipt (member : Member) (capsule : Capsule) (status : String) : Py WitnessReceipt :=
  match member.keypair with
  | none => throw (.mosaicError "validator private key is not loaded on this node")
  | some pair => do
    modify (·.addSigned (signedReceipt member pair capsule status))
    return signedReceipt member pair capsule status

/-- Keep the evidence that two capsules claim one predecessor, and raise it. -/
def raiseConflict (first second : Capsule) : Py PUnit := do
  let evidence ← liftExcept (ConflictEvidence.create first second)
  modify (·.addEvidence evidence)
  throw (.conflictDetected evidence)

/-- The `ACCEPT` branch of `witness_receipt`. -/
def acceptLock (capsule : Capsule) : Py PUnit := do
  let s ← get
  let predecessor ← lookupKey s.knownSeals capsule.predecessorId
  let current ← lookupKey s.currentSeals predecessor.resourceId
  match s.locks.get? capsule.predecessorId with
  | none => do
    raiseIf (current.sealId ≠ capsule.predecessorId) (.capsuleInvalid "predecessor is not current")
    modify (·.setLock capsule "ACCEPT")
  | some lock =>
    if current.sealId ≠ capsule.predecessorId then
      if lock.capsuleId ≠ capsule.capsuleId then
        match s.capsules.get? lock.capsuleId with
        | some first => raiseConflict first capsule
        | none => throw (.capsuleInvalid "predecessor is not current")
      else
        throw (.capsuleInvalid "predecessor is not current")
    else if lock.capsuleId = capsule.capsuleId ∧ lock.attempt = capsule.attempt then
      pure ⟨⟩
    else if lock.status = "ABANDON" ∧ lock.attempt < capsule.attempt then
      modify (·.setLock capsule "ACCEPT")
    else do
      let first ← lookupKey s.capsules lock.capsuleId
      raiseConflict first capsule

/-- The `ABANDON` branch of `witness_receipt`. -/
def abandonLock (capsule : Capsule) : Py PUnit := do
  let s ← get
  match s.locks.get? capsule.predecessorId with
  | some lock =>
    if lock.capsuleId ≠ capsule.capsuleId ∨ lock.attempt ≠ capsule.attempt then
      match s.capsules.get? lock.capsuleId with
      | some first => raiseConflict first capsule
      | none => throw (.mosaicError "cannot abandon an unknown local lock")
    else do
      raiseIf (s.closures.contains capsule.capsuleId) (.mosaicError "cannot abandon a closed capsule")
      modify (·.setLock capsule "ABANDON")
  | none => do
    raiseIf (s.closures.contains capsule.capsuleId) (.mosaicError "cannot abandon a closed capsule")
    modify (·.setLock capsule "ABANDON")

def witnessReceipt (memberId : String) (capsule : Capsule) (status : String) : Py WitnessReceipt := do
  raiseIf (status ≠ "ACCEPT" ∧ status ≠ "ABANDON") (.mosaicError "unknown receipt status")
  validateCapsule capsule
  let member ← getMember memberId
  (if status = "ACCEPT" then acceptLock capsule else abandonLock capsule)
  signReceipt member capsule status

/-- The loop of `collect_accept_receipts` and `collect_abandon_receipts` over the
members that are left; only exceptions of the kind `caught` are passed over. -/
def collectFrom (capsule : Capsule) (status : String) (caught : PyError → Bool) :
    List String → Py (List WitnessReceipt)
  | [] => pure []
  | memberId :: memberIds => do
    let receipt ← attempt caught (witnessReceipt memberId capsule status)
    let s ← get
    let rest ← collectFrom capsule status caught memberIds
    return (receipt.toList.filter fun r => s.verifyReceipt r) ++ rest

def collectAcceptReceipts (capsule : Capsule) : Py (List WitnessReceipt) := do
  let s ← get
  collectFrom capsule "ACCEPT" PyError.isConflict (sorted s.members.keys)

def collectAbandonReceipts (capsule : Capsule) : Py (List WitnessReceipt) := do
  let s ← get
  collectFrom capsule "ABANDON" PyError.isMosaicError (sorted s.members.keys)

def registerClosure (capsule : Capsule) (closure : ClosureProof) : Py PUnit := do
  let s ← get
  raiseIf (s.verifyClosure capsule closure = false) (.closureInvalid "invalid closure proof")
  raiseIf (s.hasConflictOn capsule.predecessorId) (.closureInvalid "predecessor has conflict evidence")
  if s.closures.contains capsule.capsuleId then pure ⟨⟩
  else modify (·.addClosure capsule closure)

/-- `receipts or self.collect_accept_receipts(capsule)`: no receipts at all means
that they are collected here. -/
def close (capsule : Capsule) (receipts : List WitnessReceipt) : Py ClosureProof := do
  validateCapsule capsule
  let receipts ← (if receipts.isEmpty then collectAcceptReceipts capsule else pure receipts)
  let s ← get
  let valid := s.validReceipts capsule "ACCEPT" receipts
  let weight := s.weightOfReceipts valid
  let threshold := s.threshold
  raiseIf (weight < threshold) (.closureInvalid s!"insufficient closure weight: {weight} < {threshold}")
  raiseIf (s.hasConflictOn capsule.predecessorId) (.closureInvalid "predecessor has conflict evidence")
  let closure ← liftExcept (ClosureProof.create valid)
  registerClosure capsule closure
  return closure

def abandon (capsule : Capsule) (receipts : List WitnessReceipt) : Py AbandonProof := do
  let s ← get
  raiseIf (s.closures.contains capsule.capsuleId) (.closureInvalid "cannot abandon a closed capsule")
  let receipts ← (if receipts.isEmpty then collectAbandonReceipts capsule else pure receipts)
  let s ← get
  let valid := s.validReceipts capsule "ABANDON" receipts
  let weight := s.weightOfReceipts valid
  let threshold := s.threshold
  raiseIf (weight < threshold) (.closureInvalid s!"insufficient abandon weight: {weight} < {threshold}")
  let proof ← liftExcept (AbandonProof.create valid)
  modify (·.addAbandon capsule proof)
  return proof

def apply (capsule : Capsule) (closure : ClosureProof) : Py StateSeal := do
  let s ← get
  raiseIf (closure.capsuleId ≠ capsule.capsuleId) (.closureInvalid "closure belongs to another capsule")
  raiseIf (s.verifyClosure capsule closure = false) (.closureInvalid "closure was not verified")
  (if s.closures.contains capsule.capsuleId then pure ⟨⟩ else registerClosure capsule closure)
  match s.knownSeals.get? capsule.predecessorId with
  | none => throw (.closureInvalid "predecessor not found")
  | some predecessor =>
    match s.currentSeals.get? predecessor.resourceId with
    | none => throw (.closureInvalid "resource state not found")
    | some current =>
      if current.sealId ≠ capsule.predecessorId then
        if current.version = predecessor.version + 1 ∧ current.stateRoot = capsule.successorRoot ∧
            current.capabilityHash = digest (.str capsule.capsuleId) then
          return current
        else
          throw (.closureInvalid "predecessor is not current")
      else do
        modify (·.installSeal (nextSeal current capsule))
        return nextSeal current capsule

/-- The current seal that a capsule names as its predecessor. -/
def currentFor (s : Instance) (capsule : Capsule) : Option StateSeal :=
  s.currentSeals.values.find? fun current => current.sealId = capsule.predecessorId

/-- The checking loop of `apply_bundle`. -/
def checkEntries (s : Instance) : List (Capsule × ClosureProof) → Py PUnit
  | [] => pure ⟨⟩
  | (capsule, closure) :: entries => do
    raiseIf (s.closures.get? capsule.capsuleId ≠ some closure)
      (.closureInvalid "bundle contains unregistered closure")
    raiseIf (closure.capsuleId ≠ capsule.capsuleId) (.closureInvalid "bundle closure mismatch")
    raiseIf (s.verifyClosure capsule closure = false) (.closureInvalid "bundle contains invalid closure")
    raiseIf (s.currentFor capsule).isNone (.closureInvalid "bundle predecessor not current")
    checkEntries s entries

def applyBundle (bundle : BundleClosure) (entries : List (Capsule × ClosureProof)) : Py (List StateSeal) := do
  let s ← get
  raiseIf (entries.isEmpty ∨ bundle.bundleId = "") (.closureInvalid "invalid bundle application")
  raiseIf (sorted (entries.map fun entry => entry.2.proofId) ≠ sorted bundle.closureIds)
    (.closureInvalid "bundle closure does not cover entries")
  checkEntries s entries
  let nextSeals := entries.filterMap fun entry =>
    (s.currentFor entry.1).map fun current => nextSeal current entry.1
  modify fun t => nextSeals.foldl installSeal t
  return nextSeals

end Instance

end Mosaic
