import Mosaic.Operations
import Mosaic.Lib.GuardedRun
import Mathlib.Data.Finset.Basic

namespace Mosaic
open CanonicalJson Effects

/-- What a node reads from a client or from a peer, after decoding. -/
inductive Message
  | submit (capsule : Capsule)
  | capsule (capsule : Capsule)
  | receipt (receipt : WitnessReceipt)
  | closure (capsule : Capsule) (closure : ClosureProof)

/-- A row of the durable store, under the name of its kind. -/
inductive Row
  | capsule (capsule : Capsule)
  | receipt (receipt : WitnessReceipt)
  | closure (closure : ClosureProof)
  | sealKnown (known : StateSeal)
  | sealCurrent (current : StateSeal)

/-- The answers to `SUBMIT`; the first kind has `"ok": False`. -/
inductive SubmitReply
  | rejected (capsuleId : Option String) (error : String)
  | finished (capsuleId closureId : String) (nextSeal : StateSeal)

def SubmitReply.ok : SubmitReply → Bool
  | .rejected _ _ => false
  | .finished _ _ _ => true

/-- What a node does to the world outside of its memory. A reply stands next to
the capsule whose submission it answers. -/
inductive Effect
  | put (row : Row)
  | signed (receipt : WitnessReceipt)
  | sent (message : Message)
  | replied (capsule : Capsule) (reply : SubmitReply)

/-- What is left to do of a handler that waits in an `await`: its own copy of a
broadcast is delivered, `_finish_pending` follows, the loop of `_retry_pending`
goes on, or `_submit` waits for its future. -/
inductive Frame
  | deliver (message : Message)
  | finish (capsuleId : String)
  | retry (entries : List (String × Capsule)) (capsuleId : String)
  | await (capsule : Capsule)

/-- The rows that were put, those of one kind under their keys; a later row
replaces an earlier one of the same key. -/
def rowsOf {α : Type} (log : List Effect) (pick : Row → Option (String × α)) : Dict String α :=
  .ofList (log.filterMap fun effect =>
    match effect with
    | .put row => pick row
    | _ => none)

/-- `store.items(kind)`: the payloads in the order of their keys. -/
def items {α : Type} (log : List Effect) (pick : Row → Option (String × α)) : List α :=
  (sortedBy Prod.fst (rowsOf log pick).entries).map Prod.snd

def Row.capsule? : Row → Option (String × Capsule)
  | .capsule c => some (c.capsuleId, c)
  | _ => none

def Row.closure? : Row → Option (String × ClosureProof)
  | .closure proof => some (proof.proofId, proof)
  | _ => none

variable [Crypto]

def Row.sealKnown? : Row → Option (String × StateSeal)
  | .sealKnown known => some (known.sealId, known)
  | _ => none

def Row.sealCurrent? : Row → Option (String × StateSeal)
  | .sealCurrent current => some (current.resourceId, current)
  | _ => none

def Row.receipt? : Row → Option (String × WitnessReceipt)
  | .receipt r => some (r.receiptId, r)
  | _ => none

/-- A node, with all that it has done to the outside in the order in which it
did it, over all its restarts. No function reads this log but `restore`. -/
structure MosaicNode where
  nodeId : String
  maxPendingCapsules : Nat
  protocol : Instance
  pending : Dict String Capsule
  receiptPool : Dict String (Dict String WitnessReceipt)
  receiptHistory : Dict (String × String) (Finset String)
  seenCapsules : Finset String
  pendingCapsules : Dict String Capsule
  emittedClosures : Finset String
  log : List Effect

abbrev PyNode := EStateM PyError MosaicNode

namespace MosaicNode

@[simps]
def setProtocol (protocol : Instance) (s : MosaicNode) : MosaicNode := { s with protocol }

/-- A call of a method of `self.protocol`. -/
def onProtocol {α : Type} (x : Py α) : PyNode α := onPart MosaicNode.protocol setProtocol x

@[simps]
def logEffect (s : MosaicNode) (effect : Effect) : MosaicNode := { s with log := s.log ++ [effect] }

def perform (effect : Effect) : PyNode PUnit := modify (·.logEffect effect)

@[simps]
def addSeen (s : MosaicNode) (capsuleId : String) : MosaicNode :=
  { s with seenCapsules := insert capsuleId s.seenCapsules }

@[simps]
def addWaiting (s : MosaicNode) (capsule : Capsule) : MosaicNode :=
  { s with pendingCapsules := s.pendingCapsules.set capsule.capsuleId capsule }

/-- The entry leaves the retry queue and counts as not seen. -/
@[simps]
def wake (s : MosaicNode) (capsuleId : String) : MosaicNode :=
  { s with
    pendingCapsules := s.pendingCapsules.erase capsuleId
    seenCapsules := s.seenCapsules.erase capsuleId }

@[simps]
def addPending (s : MosaicNode) (capsule : Capsule) : MosaicNode :=
  { s with pending := s.pending.set capsule.capsuleId capsule }

@[simps]
def popPending (s : MosaicNode) (capsuleId : String) : MosaicNode :=
  { s with pending := s.pending.erase capsuleId }

@[simps]
def addEmitted (s : MosaicNode) (proofId : String) : MosaicNode :=
  { s with emittedClosures := insert proofId s.emittedClosures }

def historyOf (s : MosaicNode) (receipt : WitnessReceipt) : Finset String :=
  (s.receiptHistory.get? (receipt.capsuleId, receipt.witnessId)).getD ∅

def poolOf (s : MosaicNode) (capsuleId : String) : Dict String WitnessReceipt :=
  (s.receiptPool.get? capsuleId).getD .empty

@[simps]
def addReceipt (s : MosaicNode) (receipt : WitnessReceipt) : MosaicNode :=
  { s with
    receiptHistory := s.receiptHistory.set (receipt.capsuleId, receipt.witnessId)
      (insert receipt.receiptId (s.historyOf receipt))
    receiptPool := s.receiptPool.set receipt.capsuleId
      ((s.poolOf receipt.capsuleId).set receipt.witnessId receipt) }

/-- The receipts in the pool that count towards a closure of the capsule. -/
def validPool (s : MosaicNode) (capsuleId : String) : List WitnessReceipt :=
  (s.poolOf capsuleId).values.filter fun receipt => receipt.status = "ACCEPT" && s.protocol.verifyReceipt receipt

/-- A capsule in the retry queue whose predecessor has become current. -/
def retryable (s : MosaicNode) (capsule : Capsule) : Bool :=
  match s.protocol.knownSeals.get? capsule.predecessorId with
  | none => false
  | some predecessor =>
    match s.protocol.currentSeals.get? predecessor.resourceId with
    | none => false
    | some current => current.sealId = capsule.predecessorId

end MosaicNode

namespace MosaicNode

/-- A handler runs until its first `await` of a broadcast and returns the frames that are left
then: the copies for the peers are on their way, the own copy is delivered when the thread
resumes, and then comes what follows the call. -/
def broadcast (message : Message) (later : List Frame) : PyNode (List Frame) := do
  perform (.sent message)
  return .deliver message :: later

def storeCapsule (capsule : Capsule) : PyNode PUnit := onProtocol (modify (·.storeCapsule capsule))

def persistCapsule (capsule : Capsule) : PyNode PUnit := perform (.put (.capsule capsule))

def persistReceipt (receipt : WitnessReceipt) : PyNode PUnit := perform (.put (.receipt receipt))

def persistClosure (capsule : Capsule) (closure : ClosureProof) : PyNode PUnit := do
  perform (.put (.closure closure))
  let s ← get
  let predecessor ← onProtocol (Instance.lookupKey s.protocol.knownSeals capsule.predecessorId)
  let current ← onProtocol (Instance.lookupKey s.protocol.currentSeals predecessor.resourceId)
  perform (.put (.sealKnown predecessor))
  perform (.put (.sealKnown current))
  perform (.put (.sealCurrent current))

def finishPending (capsuleId : String) : PyNode PUnit := do
  let s ← get
  match s.pending.get? capsuleId with
  | none => pure ⟨⟩
  | some capsule => do
    let predecessor ← onProtocol (Instance.lookupKey s.protocol.knownSeals capsule.predecessorId)
    let current ← onProtocol (Instance.lookupKey s.protocol.currentSeals predecessor.resourceId)
    let closure ← onProtocol (Instance.lookupKey s.protocol.closures capsuleId)
    perform (.replied capsule (.finished capsuleId closure.proofId current))
    modify (·.popPending capsuleId)

/-- `self.protocol.witness_receipt(self.node_id, capsule, "ACCEPT")`. -/
def witnessReceipt (capsule : Capsule) : PyNode WitnessReceipt := do
  let s ← get
  let receipt ← onProtocol (Instance.witnessReceipt s.nodeId capsule "ACCEPT")
  perform (.signed receipt)
  return receipt

def onCapsule (capsule : Capsule) : PyNode (List Frame) := do
  let s ← get
  if capsule.capsuleId ∈ s.seenCapsules then
    if s.protocol.closures.contains capsule.capsuleId then
      return []
    else do
      let witnessed ← outcome (witnessReceipt capsule)
      match witnessed with
      | .ok receipt => broadcast (.receipt receipt) []
      | .error (.capsuleInvalid _) => return []
      | .error (.conflictDetected _) => return []
      | .error e => throw e
  else do
    modify (·.addSeen capsule.capsuleId)
    storeCapsule capsule
    persistCapsule capsule
    let witnessed ← outcome (witnessReceipt capsule)
    match witnessed with
    | .ok receipt => broadcast (.receipt receipt) []
    | .error (.capsuleInvalid _) => do
      modify (·.addWaiting capsule)
      return []
    | .error (.conflictDetected _) => return []
    | .error e => throw e

/-- The three lines that `_try_close` and `_on_closure` share. -/
def settle (capsule : Capsule) (closure : ClosureProof) : PyNode PUnit := do
  onProtocol (Instance.registerClosure capsule closure)
  let _ ← onProtocol (Instance.apply capsule closure)
  persistClosure capsule closure

/-- A receipt that verifies has a member, so no weight is missing here. -/
def tryClose (capsule : Capsule) : PyNode (List Frame) := do
  let s ← get
  if s.protocol.closures.contains capsule.capsuleId then do
    finishPending capsule.capsuleId
    return []
  else
    let valid := s.validPool capsule.capsuleId
    let weight := s.protocol.weightOfReceipts valid
    if weight < s.protocol.threshold then
      return []
    else do
      let closed ← outcome (do
        let closure ← onProtocol (Instance.liftExcept (ClosureProof.create valid))
        settle capsule closure
        return closure)
      match closed with
      | .error _ => return []
      | .ok closure => do
        let s ← get
        if closure.proofId ∈ s.emittedClosures then do
          finishPending capsule.capsuleId
          return []
        else do
          modify (·.addEmitted closure.proofId)
          broadcast (.closure capsule closure) [.finish capsule.capsuleId]

def onReceipt (receipt : WitnessReceipt) : PyNode (List Frame) := do
  let s ← get
  if receipt.receiptId ∈ s.historyOf receipt then
    return []
  else do
    modify (·.addReceipt receipt)
    persistReceipt receipt
    let s ← get
    match s.protocol.capsules.get? receipt.capsuleId with
    | none => return []
    | some capsule => if s.protocol.verifyReceipt receipt then tryClose capsule else return []

/-- The loop of `_retry_pending` over the entries that are left. It returns when
the loop is over, or with the frames of the handler at which it waits. -/
def retryFrom : List (String × Capsule) → PyNode (List Frame × List (String × Capsule))
  | [] => return ([], [])
  | (capsuleId, capsule) :: entries => do
    let s ← get
    if s.retryable capsule then do
      modify (·.wake capsuleId)
      let frames ← onCapsule capsule
      if frames.isEmpty then retryFrom entries else return (frames, entries)
    else
      retryFrom entries

/-- The rest of `_on_closure` from the loop on; every exception in the loop ends
the handler quietly. -/
def retryThenFinish (entries : List (String × Capsule)) (capsuleId : String) : PyNode (List Frame) := do
  let retried ← outcome (retryFrom entries)
  match retried with
  | .error _ => return []
  | .ok ([], _) => do
    finishPending capsuleId
    return []
  | .ok (frames, entries) => return frames ++ [.retry entries capsuleId]

def onClosure (capsule : Capsule) (closure : ClosureProof) : PyNode (List Frame) := do
  storeCapsule capsule
  persistCapsule capsule
  let settled ← outcome (settle capsule closure)
  match settled with
  | .error _ => return []
  | .ok _ => do
    let s ← get
    retryThenFinish s.pendingCapsules.entries capsule.capsuleId

def reply (capsule : Capsule) (answer : SubmitReply) : PyNode (List Frame) := do
  perform (.replied capsule answer)
  return []

def submit (capsule : Capsule) : PyNode (List Frame) := do
  let s ← get
  if s.maxPendingCapsules ≤ s.pending.keys.length then
    reply capsule (.rejected none "pending capsule capacity exhausted")
  else if s.pending.contains capsule.capsuleId then
    reply capsule (.rejected none "capsule already pending")
  else
    match s.protocol.closures.get? capsule.capsuleId with
    | some existing => do
      let predecessor ← onProtocol (Instance.lookupKey s.protocol.knownSeals capsule.predecessorId)
      let current ← onProtocol (Instance.lookupKey s.protocol.currentSeals predecessor.resourceId)
      reply capsule (.finished capsule.capsuleId existing.proofId current)
    | none => do
      storeCapsule capsule
      persistCapsule capsule
      let validated ← outcome (onProtocol (Instance.validateCapsule capsule))
      match validated with
      | .error (.capsuleInvalid message) => reply capsule (.rejected (some capsule.capsuleId) message)
      | .error (.conflictDetected _) =>
        reply capsule (.rejected (some capsule.capsuleId) "conflicting capsules share one predecessor")
      | .error e => throw e
      | .ok _ => do
        modify (·.addPending capsule)
        broadcast (.capsule capsule) [.await capsule]

/-- What `_submit` does after its broadcast: nothing where the future is done, and
`asyncio.wait_for` ends by the timeout otherwise. -/
def awaitClosure (capsule : Capsule) : PyNode (List Frame) := do
  let s ← get
  if s.pending.contains capsule.capsuleId then do
    modify (·.popPending capsule.capsuleId)
    reply capsule (.rejected (some capsule.capsuleId) "closure timeout")
  else
    return []

def dispatch : Message → PyNode (List Frame)
  | .submit capsule => submit capsule
  | .capsule capsule => onCapsule capsule
  | .receipt receipt => onReceipt receipt
  | .closure capsule closure => onClosure capsule closure

def runFrame : Frame → PyNode (List Frame)
  | .deliver message => dispatch message
  | .finish capsuleId => do
    finishPending capsuleId
    return []
  | .retry entries capsuleId => retryThenFinish entries capsuleId
  | .await capsule => awaitClosure capsule

def restoreSealKnown (s : MosaicNode) (known : StateSeal) : MosaicNode :=
  s.setProtocol { s.protocol with knownSeals := s.protocol.knownSeals.set known.sealId known }

def restoreSealCurrent (s : MosaicNode) (current : StateSeal) : MosaicNode :=
  s.setProtocol { s.protocol with currentSeals := s.protocol.currentSeals.set current.resourceId current }

def restoreCapsule (s : MosaicNode) (capsule : Capsule) : MosaicNode :=
  (s.setProtocol (s.protocol.storeCapsule capsule)).addSeen capsule.capsuleId

def restoreReceipt (s : MosaicNode) (receipt : WitnessReceipt) : MosaicNode :=
  { s with
    receiptPool := s.receiptPool.set receipt.capsuleId
      ((s.poolOf receipt.capsuleId).set receipt.witnessId receipt) }

/-- A closure that cannot be registered again is passed over. -/
def restoreClosure (s : MosaicNode) (closure : ClosureProof) : MosaicNode :=
  match s.protocol.capsules.get? closure.capsuleId with
  | none => s
  | some capsule => s.setProtocol (final (Instance.registerClosure capsule closure) s.protocol)

/-- `_restore`; the locks and the conflict evidence have no rows. -/
def restore (s : MosaicNode) : MosaicNode :=
  let known := (items s.log Row.sealKnown?).foldl restoreSealKnown s
  let current := (items s.log Row.sealCurrent?).foldl restoreSealCurrent known
  let stored := (items s.log Row.capsule?).foldl restoreCapsule current
  let pooled := (items s.log Row.receipt?).foldl restoreReceipt stored
  (items s.log Row.closure?).foldl restoreClosure pooled

end MosaicNode

/-- What a node is started with. -/
structure NodeConfig where
  nodeId : String
  maxPendingCapsules : Nat
  members : Dict String Member
  epoch : Int
  initialSeals : List StateSeal

namespace NodeConfig

/-- The protocol object that a starting node is given. -/
def protocol (config : NodeConfig) : Instance :=
  config.initialSeals.foldl Instance.installSeal (.fresh config.members config.epoch)

/-- A started node that has not read its store yet. -/
@[simps]
def fresh (config : NodeConfig) (log : List Effect) : MosaicNode where
  nodeId := config.nodeId
  maxPendingCapsules := config.maxPendingCapsules
  protocol := config.protocol
  pending := .empty
  receiptPool := .empty
  receiptHistory := .empty
  seenCapsules := ∅
  pendingCapsules := .empty
  emittedClosures := ∅
  log := log

end NodeConfig

/-- A node and the handlers that wait. A thread goes on with its first frame;
an exception in a frame takes nothing but the frames of the same handler away. -/
structure Running where
  node : MosaicNode
  threads : List (List Frame)

def NodeConfig.start (config : NodeConfig) (log : List Effect) : Running := ⟨(config.fresh log).restore, []⟩

/-- The frames that a handler leaves. -/
def MosaicNode.framesOf (x : PyNode (List Frame)) (s : MosaicNode) : List Frame :=
  match x s with
  | .ok frames _ => frames
  | .error _ _ => []

inductive Input
  | receive (message : Message)
  | resume (thread : Nat)

namespace Running
open MosaicNode

/-- A handler of its own, in a thread of its own. -/
def receive (message : Message) (s : Running) : Running :=
  ⟨final (runFrame (.deliver message)) s.node, s.threads ++ [framesOf (runFrame (.deliver message)) s.node]⟩

def resume (thread : Nat) (s : Running) : Running :=
  match s.threads[thread]? with
  | some (frame :: later) =>
    ⟨final (runFrame frame) s.node, s.threads.set thread (framesOf (runFrame frame) s.node ++ later)⟩
  | _ => s

end Running

def Input.exec : Input → Running → Running
  | .receive message => Running.receive message
  | .resume thread => Running.resume thread

/-- What happens in the life of a node. In a crash the handler that takes the
input is killed after so many of its effects, and the node starts again. -/
inductive LifeEvent
  | input (input : Input)
  | crash (input : Input) (effects : Nat)

def LifeEvent.exec (config : NodeConfig) : LifeEvent → Running → Running
  | .input i, s => i.exec s
  | .crash i effects, s => config.start ((i.exec s).node.log.take (s.node.log.length + effects))

/-- The lives of a node from its first start, with an empty store. -/
abbrev Life (config : NodeConfig) (allowed : Running → LifeEvent → Prop) (s : Running) : Prop :=
  GuardedRun (LifeEvent.exec config) allowed (config.start []) s

end Mosaic
