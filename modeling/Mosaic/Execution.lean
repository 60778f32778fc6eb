import Mosaic.Protocol

namespace Mosaic
open CanonicalJson Effects

/-- A Python value as the executor meets it, where the keys of dictionaries are texts.
What has no canonical encoding is kept apart by the way in which the encoder fails
on it. -/
inductive Value
  | json (value : Json)
  | notJson (typeName : String) (nonempty : Bool)
  | notUtf8 (typeName : String)

/-- `bool(value)`. -/
def truthy : Json → Bool
  | .null => false
  | .bool value => value
  | .int value => value ≠ 0
  | .float literal => literal.text ≠ "0.0".toList && literal.text ≠ "-0.0".toList
  | .str value => value ≠ ""
  | .list items => !items.isEmpty
  | .obj fields => !fields.isEmpty

def typeNameOf : Json → String
  | .null => "NoneType"
  | .bool _ => "bool"
  | .int _ => "int"
  | .float _ => "float"
  | .str _ => "str"
  | .list _ => "list"
  | .obj _ => "dict"

/-- The integer that a value is for `isinstance(value, int)`; a `bool` is one. -/
def asInt : Json → Option Int
  | .int value => some value
  | .bool value => some (if value then 1 else 0)
  | _ => none

def isNone : Json → Bool
  | .null => true
  | _ => false

/-- What is left of a value in a statement that is encoded. -/
def Value.toJson : Value → Json
  | .json value => value
  | .notJson _ _ | .notUtf8 _ => .null

def Value.isNotUtf8 : Value → Bool
  | .notUtf8 _ => true
  | _ => false

def Value.foreignType : Value → Option String
  | .notJson typeName _ => some typeName
  | _ => none

/-- `json.dumps` goes through all values before the text is turned into bytes. -/
def encodable (values : List Value) : Except PyError Unit :=
  match values.findSome? Value.foreignType with
  | some typeName => .error (.typeError s!"Object of type {typeName} is not JSON serializable")
  | none => if values.any Value.isNotUtf8 then .error .unicodeEncodeError else .ok ()

def attributeError (typeName : String) : PyError :=
  .attributeError s!"'{typeName}' object has no attribute 'encode'"

def gasCost (operation : String) : Option Nat :=
  if operation = "SET" then some 10
  else if operation = "DELETE" then some 8
  else if operation = "ADD_INT" then some 12
  else none

def maxKeyBytes : Nat := 256

def maxValueBytes : Nat := 16 * 1024

structure ExecutionInstruction where
  operation : String
  key : Value
  value : Value

structure ExecutionTransaction where
  txId : String
  caller : String
  callerPublicKey : Bytes
  nonce : Int
  gasLimit : Int
  instructions : List ExecutionInstruction
  signature : Bytes

structure ExecutionReceipt where
  txId : String
  preStateRoot : String
  postStateRoot : String
  gasUsed : Nat
  eventRoot : String
  stateDiffDigest : String
  success : Bool
  error : Option String
  deriving DecidableEq

structure ExecutionBinding where
  capsuleId : String
  predecessorId : String
  preStateRoot : String
  receiptDigest : String
  bindingId : String
  deriving DecidableEq

/-- `not self.key or len(self.key.encode("utf-8")) > MAX_KEY_BYTES`, up to the
errors that `encode` raises itself. -/
def ExecutionInstruction.keyText (item : ExecutionInstruction) : Except PyError String :=
  let invalid : PyError := .executionError "execution key is invalid or too large"
  match item.key with
  | .json (.str text) => if text = "" ∨ maxKeyBytes < text.utf8ByteSize then .error invalid else .ok text
  | .json value => .error (if truthy value then attributeError (typeNameOf value) else invalid)
  | .notJson typeName nonempty => .error (if nonempty then attributeError typeName else invalid)
  | .notUtf8 typeName => .error (if typeName = "str" then .unicodeEncodeError else attributeError typeName)

/-- The key as it is used after the checks. -/
def ExecutionInstruction.validate (item : ExecutionInstruction) : Except PyError String := do
  if (gasCost item.operation).isNone then
    throw (.executionError "unsupported deterministic operation")
  let key ← item.keyText
  encodable [item.value]
  if maxValueBytes < (canonicalBytes item.value.toJson).length then
    throw (.executionError "execution value is too large")
  if item.operation = "ADD_INT" ∧ (asInt item.value.toJson).isNone then
    throw (.executionError "ADD_INT requires an integer value")
  if item.operation = "DELETE" ∧ ¬ isNone item.value.toJson then
    throw (.executionError "DELETE cannot carry a value")
  return key

def ExecutionInstruction.toJson (item : ExecutionInstruction) : Json := .obj [
  ("operation", .str item.operation),
  ("key", item.key.toJson),
  ("value", item.value.toJson)]

def ExecutionTransaction.statement (tx : ExecutionTransaction) : Json := .obj [
  ("protocol", .str "MOSAIC/EXECUTION-TX/v1"),
  ("caller", .str tx.caller),
  ("caller_public_key", .str (hex tx.callerPublicKey)),
  ("nonce", .int tx.nonce),
  ("gas_limit", .int tx.gasLimit),
  ("instructions", .list (tx.instructions.map ExecutionInstruction.toJson))]

/-- Whether the statement can be encoded. -/
def ExecutionTransaction.encodable (tx : ExecutionTransaction) : Except PyError Unit :=
  Mosaic.encodable (tx.instructions.flatMap fun item => [item.key, item.value])

variable [Crypto]

def ExecutionTransaction.signed (caller : KeyPair) (nonce gasLimit : Int) (instructions : List ExecutionInstruction) :
    ExecutionTransaction :=
  let unsigned : ExecutionTransaction := {
    txId := ""
    caller := caller.identity
    callerPublicKey := caller.publicKey
    nonce, gasLimit, instructions
    signature := [] }
  { unsigned with
    txId := digest unsigned.statement
    signature := caller.sign (canonicalBytes unsigned.statement) }

def ExecutionTransaction.create (caller : KeyPair) (nonce gasLimit : Int) (instructions : List ExecutionInstruction) :
    Except PyError ExecutionTransaction := do
  let tx := signed caller nonce gasLimit instructions
  tx.encodable
  return tx

def ExecutionTransaction.verify (tx : ExecutionTransaction) : Except PyError Bool := do
  if tx.nonce < 0 ∨ tx.gasLimit ≤ 0 ∨ tx.instructions.isEmpty then
    return false
  tx.encodable
  return tx.txId = digest tx.statement
    && KeyPair.verify tx.callerPublicKey (canonicalBytes tx.statement) tx.signature

def ExecutionBinding.create (capsuleId predecessorId : String) (receipt : ExecutionReceipt) :
    Except PyError ExecutionBinding := do
  if receipt.success = false then
    throw (.executionError "cannot bind a failed execution receipt")
  if receipt.preStateRoot = "" then
    throw (.executionError "execution receipt has no pre-state root")
  let receiptDigest := digest (.obj [
    ("protocol", .str "MOSAIC/EXECUTION-RECEIPT/v1"),
    ("tx_id", .str receipt.txId),
    ("pre_state_root", .str receipt.preStateRoot),
    ("post_state_root", .str receipt.postStateRoot),
    ("gas_used", .int receipt.gasUsed),
    ("event_root", .str receipt.eventRoot),
    ("state_diff_digest", .str receipt.stateDiffDigest)])
  return {
    capsuleId, predecessorId
    preStateRoot := receipt.preStateRoot
    receiptDigest
    bindingId := digest (.obj [
      ("protocol", .str "MOSAIC/EXECUTION-BINDING/v1"),
      ("capsule_id", .str capsuleId),
      ("predecessor_id", .str predecessorId),
      ("pre_state_root", .str receipt.preStateRoot),
      ("receipt_digest", .str receiptDigest)]) }

abbrev State := Dict String Json

/-- `{key: state[key] for key in sorted(state)}`. -/
def State.toSorted (state : State) : Json :=
  .obj ((sorted state.keys).filterMap fun key => (state.get? key).map fun value => (key, value))

def computeStateRoot (state : State) : String := digest (.obj [
  ("protocol", .str "MOSAIC/STATE-ROOT/v1"),
  ("state", state.toSorted)])

structure DeterministicExecutor where
  state : State
  maxInstructions : Int
  nonces : Dict String Int
  receipts : Dict String ExecutionReceipt

abbrev Execution := EStateM PyError DeterministicExecutor

/-- `DeterministicExecutor(initial_state, max_instructions)`. -/
def DeterministicExecutor.fresh (initialState : State) (maxInstructions : Int) : DeterministicExecutor where
  state := initialState
  maxInstructions := maxInstructions
  nonces := .empty
  receipts := .empty

namespace DeterministicExecutor

def stateRoot (e : DeterministicExecutor) : String := computeStateRoot e.state

/-- What an instruction that has passed its checks does to the staged state. -/
def stepState (item : ExecutionInstruction) (key : String) (staged : State) : Except PyError State :=
  if item.operation = "SET" then
    .ok (staged.set key item.value.toJson)
  else if item.operation = "DELETE" then
    .ok (staged.erase key)
  else if item.operation = "ADD_INT" then
    match asInt ((staged.get? key).getD (.int 0)), asInt item.value.toJson with
    | some current, some value => .ok (staged.set key (.int (current + value)))
    | _, _ => .error (.executionError "ADD_INT target is not an integer")
  else .ok staged

def event (item : ExecutionInstruction) (key : String) (before after : State) : Json := .obj [
  ("operation", .str item.operation),
  ("key", .str key),
  ("before", (before.get? key).getD .null),
  ("after", (after.get? key).getD .null)]

/-- The instruction loop of `execute`, with the gas used and the events so far. -/
def runInstructions (gasLimit : Int) : List ExecutionInstruction → State → Nat → List Json →
    Except PyError (State × Nat × List Json)
  | [], staged, gasUsed, events => .ok (staged, gasUsed, events)
  | item :: items, staged, gasUsed, events => do
    let key ← item.validate
    let gasUsed := gasUsed + (gasCost item.operation).getD 0
    if gasLimit < gasUsed then
      throw (.executionError "gas limit exceeded")
    let next ← stepState item key staged
    runInstructions gasLimit items next gasUsed (events ++ [event item key staged next])

def expectedNonce (e : DeterministicExecutor) (caller : String) : Int := (e.nonces.get? caller).getD 0

/-- The part of the `try` block that can raise. -/
def stage (e : DeterministicExecutor) (tx : ExecutionTransaction) : Except PyError (State × Nat × List Json) := do
  let verified ← tx.verify
  if verified = false then
    throw (.executionError "invalid execution transaction signature or digest")
  if e.maxInstructions < tx.instructions.length then
    throw (.executionError "instruction count exceeds limit")
  if tx.nonce ≠ e.expectedNonce tx.caller then
    throw (.executionError "invalid transaction nonce")
  runInstructions tx.gasLimit tx.instructions e.state 0 []

def diffDigest (before after : State) : String :=
  digest (.obj [("before", .obj before.entries), ("after", .obj after.entries)])

def successReceipt (e : DeterministicExecutor) (tx : ExecutionTransaction) (staged : State) (gasUsed : Nat)
    (events : List Json) : ExecutionReceipt where
  txId := tx.txId
  preStateRoot := e.stateRoot
  postStateRoot := computeStateRoot staged
  gasUsed := gasUsed
  eventRoot := digest (.list events)
  stateDiffDigest := diffDigest e.state staged
  success := true
  error := none

def failureReceipt (e : DeterministicExecutor) (tx : ExecutionTransaction) (message : String) : ExecutionReceipt where
  txId := tx.txId
  preStateRoot := e.stateRoot
  postStateRoot := e.stateRoot
  gasUsed := 0
  eventRoot := digest (.list [])
  stateDiffDigest := diffDigest e.state e.state
  success := false
  error := some message

/-- Store a receipt under the identifier of its transaction. -/
def record (e : DeterministicExecutor) (tx : ExecutionTransaction) (receipt : ExecutionReceipt) :
    DeterministicExecutor :=
  { e with receipts := e.receipts.set tx.txId receipt }

/-- A transaction that has a receipt is not run again, whatever has happened
since. Only execution errors are turned into receipts. -/
def execute (tx : ExecutionTransaction) : Execution ExecutionReceipt := do
  let e ← get
  match e.receipts.get? tx.txId with
  | some receipt => return receipt
  | none =>
    match e.stage tx with
    | .ok (staged, gasUsed, events) => do
      let receipt := e.successReceipt tx staged gasUsed events
      let next : DeterministicExecutor :=
        { e with state := staged, nonces := e.nonces.set tx.caller (e.expectedNonce tx.caller + 1) }
      set (next.record tx receipt)
      return receipt
    | .error (.executionError message) => do
      set (e.record tx (e.failureReceipt tx message))
      return e.failureReceipt tx message
    | .error error => throw error

/-- The three dictionaries as they were. -/
def restoring (snapshot e : DeterministicExecutor) : DeterministicExecutor :=
  { e with state := snapshot.state, nonces := snapshot.nonces, receipts := snapshot.receipts }

def executeForCapsule (tx : ExecutionTransaction) (capsule : Capsule) (closure : ClosureProof) (s : MosaicProtocol) :
    Execution (ExecutionReceipt × ExecutionBinding) := do
  let e ← get
  raiseIf (capsule.capsuleId ≠ closure.capsuleId) (.executionError "closure does not belong to capsule")
  raiseIf (s.verifyClosure capsule closure = false) (.executionError "execution requires a verified closure")
  match s.knownSeals.get? capsule.predecessorId with
  | none => throw (.executionError "executor state does not match capsule predecessor")
  | some predecessor => do
    raiseIf (predecessor.stateRoot ≠ e.stateRoot)
      (.executionError "executor state does not match capsule predecessor")
    raiseIf (capsule.ruleWitness ≠ tx.txId) (.executionError "capsule rule witness is not this transaction")
    raiseIf (capsule.successorRoot = predecessor.stateRoot)
      (.executionError "capsule successor root does not advance state")
    let receipt ← execute tx
    if receipt.success = false ∨ receipt.preStateRoot ≠ predecessor.stateRoot ∨
        receipt.postStateRoot ≠ capsule.successorRoot then do
      modify e.restoring
      throw (.executionError "execution receipt does not match capsule state roots")
    else do
      let binding ← ofExcept (ExecutionBinding.create capsule.capsuleId capsule.predecessorId receipt)
      return (receipt, binding)

/-- `tuple(self.execute(item) for item in transactions)`. -/
def executeAll : List ExecutionTransaction → Execution (List ExecutionReceipt)
  | [] => return []
  | tx :: txs => do
    let receipt ← execute tx
    let receipts ← executeAll txs
    return receipt :: receipts

/-- A failing receipt takes the whole batch back; an error that `execute` lets
through does not. -/
def executeBatch (txs : List ExecutionTransaction) : Execution (List ExecutionReceipt) := do
  raiseIf txs.isEmpty (.executionError "empty execution batch")
  let e ← get
  let receipts ← executeAll txs
  if receipts.all (·.success) then return receipts
  else do
    modify e.restoring
    throw (.executionError "execution batch reverted atomically")

end DeterministicExecutor

/-- A protocol object and the executor that follows one of its resources. -/
structure Ledger where
  protocol : Instance
  executor : DeterministicExecutor

namespace Ledger

def onExecutor {α : Type} : Execution α → EStateM PyError Ledger α :=
  onPart executor fun e ledger => { ledger with executor := e }

def onProtocol {α : Type} : Py α → EStateM PyError Ledger α :=
  onPart protocol fun s ledger => { ledger with protocol := s }

/-- What is done inside the `try` block of `apply_execution`. -/
def executeAndApply (capsule : Capsule) (closure : ClosureProof) (tx : ExecutionTransaction) :
    EStateM PyError Ledger (StateSeal × ExecutionReceipt × ExecutionBinding) := do
  let ledger ← get
  let (receipt, binding) ← onExecutor (DeterministicExecutor.executeForCapsule tx capsule closure ledger.protocol.toMosaicProtocol)
  let applied ← onProtocol (Instance.apply capsule closure)
  raiseIf (applied.stateRoot ≠ receipt.postStateRoot)
    (.closureInvalid "applied seal does not match execution receipt")
  return (applied, receipt, binding)

/-- Every exception puts the executor back; the protocol object is left as the
exception found it. -/
def applyExecution (capsule : Capsule) (closure : ClosureProof) (tx : ExecutionTransaction) :
    EStateM PyError Ledger (StateSeal × ExecutionReceipt × ExecutionBinding) := fun ledger =>
  match executeAndApply capsule closure tx ledger with
  | .ok result next => .ok result next
  | .error error next => .error error { next with executor := ledger.executor.restoring next.executor }

end Ledger

end Mosaic
