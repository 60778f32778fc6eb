import Mosaic.Strict.Protocol
import Mosaic.Execution

namespace Mosaic.Strict
open CanonicalJson Effects

variable [Texts]

/-- `key.encode("utf-8")` stands between the two comparisons. -/
def keyText (item : ExecutionInstruction) : Except PyError String :=
  match item.key with
  | .json (.str text) => if text ≠ "" ∧ Texts.encodes text = false then .error .unicodeEncodeError else item.keyText
  | _ => item.keyText

def validateInstruction (item : ExecutionInstruction) : Except PyError String := do
  if (gasCost item.operation).isNone then
    throw (.executionError "unsupported deterministic operation")
  let key ← keyText item
  encodable [item.value]
  let encoded ← canonicalBytes item.value.toJson
  if maxValueBytes < encoded.length then
    throw (.executionError "execution value is too large")
  if item.operation = "ADD_INT" ∧ (asInt item.value.toJson).isNone then
    throw (.executionError "ADD_INT requires an integer value")
  if item.operation = "DELETE" ∧ ¬ isNone item.value.toJson then
    throw (.executionError "DELETE cannot carry a value")
  return key

/-- The instruction loop of `execute`, with the gas used and the events so far. -/
def runInstructions (gasLimit : Int) : List ExecutionInstruction → State → Nat → List Json →
    Except PyError (State × Nat × List Json)
  | [], staged, gasUsed, events => .ok (staged, gasUsed, events)
  | item :: items, staged, gasUsed, events => do
    let key ← validateInstruction item
    let gasUsed := gasUsed + (gasCost item.operation).getD 0
    if gasLimit < gasUsed then
      throw (.executionError "gas limit exceeded")
    let next ← DeterministicExecutor.stepState item key staged
    runInstructions gasLimit items next gasUsed (events ++ [DeterministicExecutor.event item key staged next])

variable [Crypto]

def verifyTransaction (tx : ExecutionTransaction) : Except PyError Bool := do
  if tx.nonce < 0 ∨ tx.gasLimit ≤ 0 ∨ tx.instructions.isEmpty then
    return false
  tx.encodable
  let id ← digest tx.statement
  if tx.txId ≠ id then
    return false
  let message ← canonicalBytes tx.statement
  return KeyPair.verify tx.callerPublicKey message tx.signature

/-- `ExecutionBinding.create`. -/
def createdBinding (capsuleId predecessorId : String) (receipt : ExecutionReceipt) : Except PyError ExecutionBinding := do
  if receipt.success = false then
    throw (.executionError "cannot bind a failed execution receipt")
  if receipt.preStateRoot = "" then
    throw (.executionError "execution receipt has no pre-state root")
  let receiptDigest ← digest (.obj [
    ("protocol", .str "MOSAIC/EXECUTION-RECEIPT/v1"),
    ("tx_id", .str receipt.txId),
    ("pre_state_root", .str receipt.preStateRoot),
    ("post_state_root", .str receipt.postStateRoot),
    ("gas_used", .int receipt.gasUsed),
    ("event_root", .str receipt.eventRoot),
    ("state_diff_digest", .str receipt.stateDiffDigest)])
  let bindingId ← digest (.obj [
    ("protocol", .str "MOSAIC/EXECUTION-BINDING/v1"),
    ("capsule_id", .str capsuleId),
    ("predecessor_id", .str predecessorId),
    ("pre_state_root", .str receipt.preStateRoot),
    ("receipt_digest", .str receiptDigest)])
  return { capsuleId, predecessorId, preStateRoot := receipt.preStateRoot, receiptDigest, bindingId }

def computeStateRoot (state : State) : Except PyError String := digest (.obj [
  ("protocol", .str "MOSAIC/STATE-ROOT/v1"),
  ("state", state.toSorted)])

def diffDigest (before after : State) : Except PyError String :=
  digest (.obj [("before", .obj before.entries), ("after", .obj after.entries)])

/-- The part of the `try` block before the state root of what it leads to is computed. -/
def stage (e : DeterministicExecutor) (tx : ExecutionTransaction) : Except PyError (State × Nat × List Json) := do
  let verified ← verifyTransaction tx
  if verified = false then
    throw (.executionError "invalid execution transaction signature or digest")
  if e.maxInstructions < tx.instructions.length then
    throw (.executionError "instruction count exceeds limit")
  if tx.nonce ≠ e.expectedNonce tx.caller then
    throw (.executionError "invalid transaction nonce")
  runInstructions tx.gasLimit tx.instructions e.state 0 []

def successReceipt (e : DeterministicExecutor) (preRoot : String) (tx : ExecutionTransaction) (staged : State)
    (gasUsed : Nat) (events : List Json) : Except PyError ExecutionReceipt := do
  let postRoot ← computeStateRoot staged
  let eventRoot ← digest (.list events)
  let stateDiffDigest ← diffDigest e.state staged
  return {
    txId := tx.txId
    preStateRoot := preRoot
    postStateRoot := postRoot
    gasUsed, eventRoot, stateDiffDigest
    success := true
    error := none }

/-- The `try` block before the state is replaced. -/
def tried (e : DeterministicExecutor) (preRoot : String) (tx : ExecutionTransaction) :
    Except PyError (State × ExecutionReceipt) := do
  let (staged, gasUsed, events) ← stage e tx
  let receipt ← successReceipt e preRoot tx staged gasUsed events
  return (staged, receipt)

def failureReceipt (e : DeterministicExecutor) (preRoot : String) (tx : ExecutionTransaction) (message : String) :
    Except PyError ExecutionReceipt := do
  let eventRoot ← digest (.list [])
  let stateDiffDigest ← diffDigest e.state e.state
  return {
    txId := tx.txId
    preStateRoot := preRoot
    postStateRoot := preRoot
    gasUsed := 0
    eventRoot, stateDiffDigest
    success := false
    error := some message }

/-- An exception that is not an `ExecutionError` leaves before anything is stored. -/
def execute (tx : ExecutionTransaction) : Execution ExecutionReceipt := do
  let e ← get
  match e.receipts.get? tx.txId with
  | some receipt => return receipt
  | none => do
    let preRoot ← ofExcept (computeStateRoot e.state)
    match tried e preRoot tx with
    | .ok (staged, receipt) => do
      let next : DeterministicExecutor :=
        { e with state := staged, nonces := e.nonces.set tx.caller (e.expectedNonce tx.caller + 1) }
      set (next.record tx receipt)
      return receipt
    | .error (.executionError message) => do
      let receipt ← ofExcept (failureReceipt e preRoot tx message)
      set (e.record tx receipt)
      return receipt
    | .error error => throw error

variable [Keyring]

def executeForCapsule (tx : ExecutionTransaction) (capsule : Capsule) (closure : ClosureProof) (s : MosaicProtocol) :
    Execution (ExecutionReceipt × ExecutionBinding) := do
  let e ← get
  raiseIf (capsule.capsuleId ≠ closure.capsuleId) (.executionError "closure does not belong to capsule")
  let verified ← ofExcept (verifyClosure s capsule closure)
  raiseIf (verified = false) (.executionError "execution requires a verified closure")
  match s.knownSeals.get? capsule.predecessorId with
  | none => throw (.executionError "executor state does not match capsule predecessor")
  | some predecessor => do
    let root ← ofExcept (computeStateRoot e.state)
    raiseIf (predecessor.stateRoot ≠ root) (.executionError "executor state does not match capsule predecessor")
    raiseIf (capsule.ruleWitness ≠ tx.txId) (.executionError "capsule rule witness is not this transaction")
    raiseIf (capsule.successorRoot = predecessor.stateRoot)
      (.executionError "capsule successor root does not advance state")
    let receipt ← execute tx
    if receipt.success = false ∨ receipt.preStateRoot ≠ predecessor.stateRoot ∨
        receipt.postStateRoot ≠ capsule.successorRoot then do
      modify e.restoring
      throw (.executionError "execution receipt does not match capsule state roots")
    else do
      let binding ← ofExcept (createdBinding capsule.capsuleId capsule.predecessorId receipt)
      return (receipt, binding)

/-- What is done inside the `try` block of `apply_execution`. -/
def executeAndApply (capsule : Capsule) (closure : ClosureProof) (tx : ExecutionTransaction) :
    EStateM PyError Ledger (StateSeal × ExecutionReceipt × ExecutionBinding) := do
  let ledger ← get
  let (receipt, binding) ← Ledger.onExecutor (executeForCapsule tx capsule closure ledger.protocol.toMosaicProtocol)
  let applied ← Ledger.onProtocol (apply capsule closure)
  raiseIf (applied.stateRoot ≠ receipt.postStateRoot)
    (.closureInvalid "applied seal does not match execution receipt")
  return (applied, receipt, binding)

/-- Every exception puts the executor back; the protocol object is left as the exception
found it. -/
def applyExecution (capsule : Capsule) (closure : ClosureProof) (tx : ExecutionTransaction) :
    EStateM PyError Ledger (StateSeal × ExecutionReceipt × ExecutionBinding) := fun ledger =>
  match executeAndApply capsule closure tx ledger with
  | .ok result next => .ok result next
  | .error error next => .error error { next with executor := ledger.executor.restoring next.executor }

end Mosaic.Strict
