import Mosaic.Nexus.DomainSteps

namespace Mosaic.Nexus
open CanonicalJson Effects

/-- What the handlers raise. -/
inductive NetworkError
  | nexus (error : NexusError)
  | attributeError

/-- The messages after decoding. -/
inductive NodeMessage
  | submit (operation : Operation)
  | prepareRequest (operation : Operation) (dac : DataAvailabilityCertificate) (leaderId : String)
  | prepareVote (vote : Vote)
  | commitRequest (operation : Operation) (prepareCertificate : Certificate) (leaderId : String)
  | commitVote (vote : Vote)
  | commitCertificate (operation : Operation) (certificate : Certificate) (leaderId : String)
  | ack (opId nodeId : String)
  | shutdown
  | metrics
  | unknown (messageType : String)

/-- The result of `_maybe_finish`. The time is in nanoseconds, before it is
rounded to `finality_ms`. -/
structure SubmitAnswer where
  opId : String
  certificateId : String
  ackIds : List String
  ackWeight : Int
  finalityNs : Int
  leaderMetrics : Dict String Nat

/-- The future that `_submit` waits for. -/
inductive SubmitFuture
  | waiting
  | finished (answer : SubmitAnswer)
  | cancelled

/-- A future is named by its place in the list of all futures. -/
structure Pending where
  operation : Operation
  dac : DataAvailabilityCertificate
  future : Nat
  startedNs : Int
  prepareCertificate : Option Certificate
  commitCertificate : Option Certificate
  ackIds : List String

/-- What a handler returns at once. -/
inductive Reply
  | refused (error : String)
  | stopping (nodeId : String)
  | metrics (nodeId : String) (metrics : Dict String Nat)

structure Reaction where
  reply : Option Reply := none
  sends : List (String × NodeMessage) := []

section Node
variable [Crypto]

/-- A node of `network.py`. The code between two waits is one step here, and what it sends is
part of what it returns. -/
structure DistributedNode where
  nodeId : String
  peers : List String
  leaderId : String
  validator : Validator
  byzantine : Bool
  domain : DomainExecutor
  pending : Dict String Pending
  futures : List SubmitFuture
  metrics : Dict String Nat
  stopped : Bool

abbrev PyNetwork := EStateM NetworkError DistributedNode

namespace DistributedNode

def initialMetrics : Dict String Nat := .ofList [
  ("sent_messages", 0), ("sent_bytes", 0), ("received_messages", 0), ("received_bytes", 0),
  ("dropped_messages", 0), ("errors", 0), ("equivocations", 0), ("retries", 0)]

/-- `DistributedNode(node_id, ..., peers, leader_id, validator, ..., domain)`. -/
def new (nodeId : String) (peers : List String) (leaderId : String) (validator : Validator) (byzantine : Bool)
    (domain : DomainExecutor) : DistributedNode where
  nodeId := nodeId
  peers := peers
  leaderId := leaderId
  validator := validator
  byzantine := byzantine
  domain := domain
  pending := .empty
  futures := []
  metrics := initialMetrics
  stopped := false

def setDomain (domain : DomainExecutor) (n : DistributedNode) : DistributedNode := { n with domain }

def setPending (opId : String) (entry : Pending) (n : DistributedNode) : DistributedNode :=
  { n with pending := n.pending.set opId entry }

def popPending (opId : String) (n : DistributedNode) : DistributedNode := { n with pending := n.pending.erase opId }

def setFuture (future : Nat) (value : SubmitFuture) (n : DistributedNode) : DistributedNode :=
  { n with futures := n.futures.set future value }

def createFuture (n : DistributedNode) : DistributedNode := { n with futures := n.futures ++ [.waiting] }

/-- `self.metrics[name] += 1`. -/
def count (name : String) (n : DistributedNode) : DistributedNode :=
  { n with metrics := n.metrics.set name ((n.metrics.get? name).getD 0 + 1) }

def stop (n : DistributedNode) : DistributedNode := { n with stopped := true }

/-- A call on `self.domain`. -/
def onDomain {α : Type} (x : PyDomain α) : PyNetwork α := fun n =>
  match x n.domain with
  | .ok a d => .ok a (setDomain d n)
  | .error e d => .error (.nexus e) (setDomain d n)

def recordVote (vote : Vote) : PyNetwork PUnit :=
  onDomain (DomainExecutor.onCommittee (QuorumCommittee.recordVote vote))

def toPeers (n : DistributedNode) (message : NodeMessage) : List (String × NodeMessage) :=
  n.peers.map fun peer => (peer, message)

/-- `self._broadcast(message)`, the node itself included. -/
def broadcast (n : DistributedNode) (message : NodeMessage) : List (String × NodeMessage) :=
  n.toPeers message ++ [(n.nodeId, message)]

def castVote (n : DistributedNode) (operation : Operation) (dependencyDigest phase : String) : Vote :=
  n.validator.signVote operation.epoch n.domain.domainId (n.domain.objectVersions operation) operation.opId
    dependencyDigest phase

/-- The end of both request handlers: the node votes, and a byzantine one votes twice. -/
def answerRequest (message : Vote → NodeMessage) (operation : Operation) (phase leaderId : String) :
    PyNetwork Reaction := do
  let n ← get
  onDomain (ofExcept (n.domain.validateOperation operation))
  let vote := n.castVote operation operation.dependencyDigest phase
  recordVote vote
  let forged := n.castVote operation (operation.dependencyDigest ++ "-equivocation") phase
  return { sends := (leaderId, message vote) :: if n.byzantine then [(leaderId, message forged)] else [] }

def onPrepareRequest (operation : Operation) (dac : DataAvailabilityCertificate) (leaderId : String) :
    PyNetwork Reaction := do
  let n ← get
  let accepted ← onDomain (ofExcept (n.domain.committee.verifyDac operation dac))
  if accepted then answerRequest .prepareVote operation "PREPARE" leaderId else return {}

def onCommitRequest (operation : Operation) (prepareCertificate : Certificate) (leaderId : String) :
    PyNetwork Reaction := do
  let n ← get
  let accepted ← onDomain (ofExcept (n.domain.committee.verifyCertificate prepareCertificate operation.epoch
    n.domain.domainId (n.domain.objectVersions operation) operation))
  if accepted then answerRequest .commitVote operation "COMMIT" leaderId else return {}

/-- The beginning of both vote handlers: the vote is recorded, and a certificate
is issued unless there is one or the votes do not suffice. -/
def collectVote (vote : Vote) (phase : String) (held : Pending → Option Certificate) :
    PyNetwork (Option (Pending × Certificate)) := do
  let n ← get
  if n.nodeId ≠ n.leaderId then return none
  else match n.pending.get? vote.opId with
    | none => return none
    | some entry =>
      match ← outcome (recordVote vote) with
      | .error (.nexus (.quorumError _)) =>
        modify (count "equivocations")
        return none
      | .error e => throw e
      | .ok _ =>
        if (held entry).isSome then return none
        else
          let t ← get
          match t.domain.committee.issueCertificate entry.operation.epoch t.domain.domainId
              (t.domain.objectVersions entry.operation) entry.operation phase with
          | .error (.quorumError _) => return none
          | .error e => throw (.nexus e)
          | .ok certificate => return some (entry, certificate)

def onPrepareVote (vote : Vote) : PyNetwork Reaction := do
  match ← collectVote vote "PREPARE" Pending.prepareCertificate with
  | none => return {}
  | some (entry, certificate) =>
    modify (setPending vote.opId { entry with prepareCertificate := some certificate })
    let n ← get
    return { sends := n.broadcast (.commitRequest entry.operation certificate n.nodeId) }

/-- `_on_commit_vote` up to its broadcast, which `_maybe_finish` follows. -/
def onCommitVote (vote : Vote) : PyNetwork Reaction := do
  match ← collectVote vote "COMMIT" Pending.commitCertificate with
  | none => return {}
  | some (entry, certificate) =>
    modify (setPending vote.opId { entry with commitCertificate := some certificate })
    onDomain (DomainExecutor.applyCommitted entry.operation certificate)
    let n ← get
    modify (setPending vote.opId
      { entry with commitCertificate := some certificate, ackIds := entry.ackIds.insert n.nodeId })
    return { sends := n.toPeers (.commitCertificate entry.operation certificate n.nodeId) }

def onCommitCertificate (operation : Operation) (certificate : Certificate) (leaderId : String) :
    PyNetwork Reaction := do
  let n ← get
  if n.nodeId = n.leaderId then return {}
  else
    let accepted ← onDomain (ofExcept (n.domain.committee.verifyCertificate certificate operation.epoch
      n.domain.domainId (n.domain.objectVersions operation) operation))
    if accepted then
      onDomain (DomainExecutor.applyCommitted operation certificate)
      return { sends := [(leaderId, .ack operation.opId n.nodeId)] }
    else return {}

/-- `future.done()`. -/
def futureDone (n : DistributedNode) (entry : Pending) : Bool :=
  match n.futures[entry.future]? with
  | some .waiting => false
  | _ => true

def maybeFinish (opId : String) (now : Int) : PyNetwork PUnit := do
  let n ← get
  match n.pending.get? opId with
  | none => return
  | some entry =>
    if n.futureDone entry then return
    else match n.domain.committee.weightOf entry.ackIds with
      | .error (.keyError _) => return
      | .error e => throw (.nexus e)
      | .ok weight =>
        if weight < n.domain.committee.threshold then return
        else match entry.commitCertificate with
          | none => throw .attributeError
          | some certificate =>
            modify (setFuture entry.future (.finished {
              opId
              certificateId := certificate.certificateId
              ackIds := sorted entry.ackIds
              ackWeight := weight
              finalityNs := now - entry.startedNs
              leaderMetrics := n.metrics }))
            modify (popPending opId)

def onAck (opId nodeId : String) (now : Int) : PyNetwork PUnit := do
  let n ← get
  match n.pending.get? opId with
  | none => return
  | some entry =>
    modify (setPending opId { entry with ackIds := entry.ackIds.insert nodeId })
    maybeFinish opId now

/-- `_submit` up to its broadcast, after which it waits for the future. -/
def submit (operation : Operation) (now : Int) : PyNetwork Reaction := do
  let n ← get
  if n.nodeId ≠ n.leaderId then return { reply := some (.refused "SUBMIT must be sent to the configured leader") }
  else if (n.pending.get? operation.opId).isSome then return { reply := some (.refused "operation is already pending") }
  else
    onDomain (ofExcept (n.domain.validateOperation operation))
    let dac ← onDomain (DomainExecutor.onCommittee (QuorumCommittee.issueDac operation))
    modify createFuture
    modify (setPending operation.opId {
      operation, dac
      future := n.futures.length
      startedNs := now
      prepareCertificate := none
      commitCertificate := none
      ackIds := [] })
    return { sends := n.broadcast (.prepareRequest operation dac n.nodeId) }

def dispatch (message : NodeMessage) (now : Int) : PyNetwork Reaction :=
  match message with
  | .submit operation => submit operation now
  | .prepareRequest operation dac leaderId => onPrepareRequest operation dac leaderId
  | .prepareVote vote => onPrepareVote vote
  | .commitRequest operation certificate leaderId => onCommitRequest operation certificate leaderId
  | .commitVote vote => onCommitVote vote
  | .commitCertificate operation certificate leaderId => onCommitCertificate operation certificate leaderId
  | .ack opId nodeId => do
    onAck opId nodeId now
    return {}
  | .shutdown => do
    modify stop
    let n ← get
    return { reply := some (.stopping n.nodeId) }
  | .metrics => do
    let n ← get
    return { reply := some (.metrics n.nodeId n.metrics) }
  | .unknown messageType => do
    modify (count "errors")
    return { reply := some (.refused ("unknown message type: " ++ messageType)) }

/-- The time is up: the future is cancelled unless it is done. -/
def expire (future : Nat) (n : DistributedNode) : DistributedNode :=
  match n.futures[future]? with
  | some .waiting => n.setFuture future .cancelled
  | _ => n

/-- The end of `_submit` after its time is up. -/
def withdraw (opId : String) (n : DistributedNode) : DistributedNode :=
  match n.pending.get? opId with
  | some entry =>
    match n.futures[entry.future]? with
    | some .cancelled => n.popPending opId
    | _ => n
  | none => n

end DistributedNode

/-- What happens at a node: a message comes in, from another node or from itself,
the broadcast of a commit certificate is over, a submission runs out of time,
`_submit` takes note of that, or the connections count what they carry. -/
inductive NodeEvent
  | arrives (message : NodeMessage) (now : Int)
  | broadcasted (opId : String) (now : Int)
  | expires (future : Nat)
  | withdraws (opId : String)
  | counts (metrics : Dict String Nat)

namespace NodeEvent
open DistributedNode

def run : NodeEvent → PyNetwork PUnit
  | arrives message now => discard (dispatch message now)
  | broadcasted opId now => maybeFinish opId now
  | expires future => modify (expire future)
  | withdraws opId => modify (withdraw opId)
  | counts metrics => modify fun n => { n with metrics }

/-- The node afterwards, whether or not a handler raised. -/
def exec (event : NodeEvent) (n : DistributedNode) : DistributedNode := final event.run n

end NodeEvent

def DistributedNode.after (n : DistributedNode) (events : List NodeEvent) : DistributedNode :=
  events.foldl (fun t event => event.exec t) n

end Node

end Mosaic.Nexus
