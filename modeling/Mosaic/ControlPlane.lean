import Mosaic.AdmissionOrder
import Mosaic.Wire

namespace Mosaic
open CanonicalJson Effects Economy

/-- `bytes.fromhex(value)`. -/
def unhex : Json → Except ReadError Bytes
  | .str value =>
    match fromHex value.toList with
    | some bytes => .ok bytes
    | none => .error .valueError
  | _ => .error .typeError

/-- `read(value.get(key, default))`. -/
def fieldOr (key : String) (default : Json) {α : Type} (read : Json → Except ReadError α) (value : Json) :
    Except ReadError α :=
  value.get key default >>= read

def admissionToWire (request : AdmissionRequest) : Json := .obj [
  ("validator_id", .str request.validatorId),
  ("public_key", .str (b64 request.publicKey)),
  ("stake", .int request.stake),
  ("deposit_id", .str request.depositId),
  ("requested_epoch", .int request.requestedEpoch),
  ("applicant_signature", .str (b64 request.applicantSignature)),
  ("bond_id", optionJson request.bondId)]

/-- A value of another type where a text belongs is refused. The code takes it as it is. -/
def admissionFromWire (ints : IntReading) (data : Json) : Except ReadError AdmissionRequest := do
  let validatorId ← field "validator_id" Json.text data
  let publicKey ← field "public_key" unb64 data
  let stake ← field "stake" ints.read data
  let depositId ← field "deposit_id" Json.text data
  let requestedEpoch ← field "requested_epoch" ints.read data
  let applicantSignature ← field "applicant_signature" unb64 data
  let bondId ← fieldOr "bond_id" .null optionalText data
  return { validatorId, publicKey, stake, depositId, requestedEpoch, applicantSignature, bondId }

def bondToWire (bond : StakeBond) : Json := .obj [
  ("bond_id", .str bond.bondId),
  ("owner", .str bond.owner),
  ("owner_public_key", .str (b64 bond.ownerPublicKey)),
  ("amount", .int bond.amount),
  ("asset", .str bond.asset),
  ("activation_epoch", .int bond.activationEpoch),
  ("unlock_epoch", .int bond.unlockEpoch),
  ("owner_signature", .str (b64 bond.ownerSignature))]

/-- As with requests, texts are texts. -/
def bondFromWire (ints : IntReading) (data : Json) : Except ReadError StakeBond := do
  let bondId ← field "bond_id" Json.text data
  let owner ← field "owner" Json.text data
  let ownerPublicKey ← field "owner_public_key" unb64 data
  let amount ← field "amount" ints.read data
  let asset ← field "asset" Json.text data
  let activationEpoch ← field "activation_epoch" ints.read data
  let unlockEpoch ← field "unlock_epoch" ints.read data
  let ownerSignature ← field "owner_signature" unb64 data
  return { bondId, owner, ownerPublicKey, amount, asset, activationEpoch, unlockEpoch, ownerSignature }

def commitmentToWire (item : RandomnessCommitment) : Json := .obj [
  ("validator_id", .str item.validatorId),
  ("epoch", .int item.epoch),
  ("round", .int item.round),
  ("commitment", .str item.commitment),
  ("signature", .str (hex item.signature))]

def commitmentFromWire (ints : IntReading) (data : Json) : Except ReadError RandomnessCommitment := do
  let validatorId ← field "validator_id" Json.text data
  let epoch ← field "epoch" ints.read data
  let round ← field "round" ints.read data
  let commitment ← field "commitment" Json.text data
  let signature ← field "signature" unhex data
  return { validatorId, epoch, round, commitment, signature }

def revealToWire (item : RandomnessReveal) : Json := .obj [
  ("validator_id", .str item.validatorId),
  ("epoch", .int item.epoch),
  ("round", .int item.round),
  ("secret", .str (hex item.secret)),
  ("commitment", .str item.commitment),
  ("signature", .str (hex item.signature))]

def revealFromWire (ints : IntReading) (data : Json) : Except ReadError RandomnessReveal := do
  let validatorId ← field "validator_id" Json.text data
  let epoch ← field "epoch" ints.read data
  let round ← field "round" ints.read data
  let secret ← field "secret" unhex data
  let commitment ← field "commitment" Json.text data
  let signature ← field "signature" unhex data
  return { validatorId, epoch, round, secret, commitment, signature }

/-- What a node tells its peers of what it has accepted. -/
inductive Gossip
  | admission (request : AdmissionRequest) (bond : StakeBond)
  | beaconCommit (commitment : RandomnessCommitment)
  | beaconReveal (reveal : RandomnessReveal)
  deriving DecidableEq

def gossipToWire : Gossip → Json
  | .admission request bond => .obj [
      ("type", .str "ADMISSION"), ("request", admissionToWire request), ("bond", bondToWire bond),
      ("gossip", .bool true)]
  | .beaconCommit commitment => .obj [
      ("type", .str "BEACON_COMMIT"), ("commitment", commitmentToWire commitment), ("gossip", .bool true)]
  | .beaconReveal reveal => .obj [
      ("type", .str "BEACON_REVEAL"), ("reveal", revealToWire reveal), ("gossip", .bool true)]

section Reading
variable (ints : IntReading)

theorem reads_admissionToWire : Reads (admissionFromWire ints) admissionToWire := by
  intro request v same
  have validatorId := reads_text.field same "validator_id" rfl
  have publicKey := reads_b64.field same "public_key" rfl
  have stake := ints.reads.field same "stake" rfl
  have depositId := reads_text.field same "deposit_id" rfl
  have requestedEpoch := ints.reads.field same "requested_epoch" rfl
  have applicantSignature := reads_b64.field same "applicant_signature" rfl
  have bondId : fieldOr "bond_id" .null optionalText v = .ok request.bondId :=
    reads_optionalText.get same "bond_id" .null rfl
  simp only [admissionFromWire, validatorId, publicKey, stake, depositId, requestedEpoch, applicantSignature, bondId]
  rfl

theorem reads_bondToWire : Reads (bondFromWire ints) bondToWire := by
  intro bond v same
  have bondId := reads_text.field same "bond_id" rfl
  have owner := reads_text.field same "owner" rfl
  have ownerPublicKey := reads_b64.field same "owner_public_key" rfl
  have amount := ints.reads.field same "amount" rfl
  have asset := reads_text.field same "asset" rfl
  have activationEpoch := ints.reads.field same "activation_epoch" rfl
  have unlockEpoch := ints.reads.field same "unlock_epoch" rfl
  have ownerSignature := reads_b64.field same "owner_signature" rfl
  simp only [bondFromWire, bondId, owner, ownerPublicKey, amount, asset, activationEpoch, unlockEpoch, ownerSignature]
  rfl

end Reading

/-- What a handler can raise. -/
inductive ControlFault
  | read (error : ReadError)
  | raised (error : EconomyError)

/-- What the handlers catch and answer with: a `KeyError` or a `ValueError`, which the errors
of the coordinators are. -/
def ControlFault.caught : ControlFault → Bool
  | .read (.keyError _) | .read .valueError => true
  | .read _ => false
  | .raised (.storage _) | .raised (.overflowError _) => false
  | .raised _ => true

/-- The answers. All but the first name the node as well. -/
inductive ControlReply
  | disabled (error : String)
  | rejected (error : ControlFault)
  | duplicate
  | admitted (certificate : AdmissionCertificate) (onboardingRoot : String)
  | committed (commitment : RandomnessCommitment)
  | revealed (reveal : RandomnessReveal)
  | finalized (settlement : RandomnessRoundSettlement) (membershipRoot settlementRoot : String)

structure ControlMetrics where
  admissions : Int := 0
  beaconCommits : Int := 0
  beaconReveals : Int := 0
  beaconFinalizations : Int := 0
  protocolRejections : Int := 0

/-- What the handlers of a node work on. The coordinators may be missing. -/
structure ControlNode where
  economy : Economy
  onboarding : Bool
  beacon : Bool
  onboardingRequests : Finset String
  metrics : ControlMetrics
  /-- What has been handed to `_broadcast`, the last at the end. -/
  told : List Gossip

abbrev Control := EStateM ControlFault ControlNode

namespace ControlNode

def setEconomy (economy : Economy) (n : ControlNode) : ControlNode := { n with economy }

def count (f : ControlMetrics → ControlMetrics) (n : ControlNode) : ControlNode := { n with metrics := f n.metrics }

def addRequest (requestKey : String) (n : ControlNode) : ControlNode :=
  { n with onboardingRequests := insert requestKey n.onboardingRequests }

def tell (message : Gossip) (n : ControlNode) : ControlNode := { n with told := n.told ++ [message] }

/-- A call of a coordinator. -/
def onEconomy {α : Type} (x : PyEconomy α) : Control α := fun n =>
  match x n.economy with
  | .ok a economy => .ok a (n.setEconomy economy)
  | .error e economy => .error (.raised e) (n.setEconomy economy)

def reading {α : Type} (x : Except ReadError α) : Control α := ofExcept (x.mapError .read)

/-- `except (KeyError, ValueError, ...) as exc: return {"ok": False, "error": str(exc)}`. -/
def answering (x : Control ControlReply) : Control ControlReply := fun n =>
  match x n with
  | .ok reply m => .ok reply m
  | .error fault m =>
    if fault.caught then
      .ok (.rejected fault) (m.count fun metrics =>
        { metrics with protocolRejections := metrics.protocolRejections + 1 })
    else .error fault m

/-- `if not message.get("gossip"): await self._broadcast(...)`. -/
def broadcastUnless (message : Json) (gossip : Gossip) : Control PUnit := do
  let flag ← reading (message.get "gossip" .null)
  if flag.truthy then pure ⟨⟩ else modify (tell gossip)

variable [Crypto]

/-- `digest({**request.statement(), "signature": request.applicant_signature.hex()})`. -/
def requestKey (request : AdmissionRequest) : String :=
  digest (.obj (request.statementFields ++ [("signature", .str (hex request.applicantSignature))]))

/-- `_admit`. -/
def admitApplicant (ints : IntReading) (message : Json) : Control ControlReply := do
  let n ← get
  if n.onboarding = false then
    return .disabled "onboarding is disabled"
  else answering do
    let request ← reading (field "request" (admissionFromWire ints) message)
    let bond ← reading (field "bond" (bondFromWire ints) message)
    if requestKey request ∈ n.onboardingRequests then
      return .duplicate
    else do
      let certificate ← onEconomy (AdmissionCoordinator.admitValidator request bond [])
      modify (addRequest (requestKey request))
      modify (count fun metrics => { metrics with admissions := metrics.admissions + 1 })
      broadcastUnless message (.admission request bond)
      let m ← get
      return .admitted certificate (AdmissionCoordinator.onboardingRoot m.economy)

def beaconCommit (ints : IntReading) (message : Json) : Control ControlReply := do
  let n ← get
  if n.beacon = false then
    return .disabled "beacon is disabled"
  else answering do
    let commitment ← reading (field "commitment" (commitmentFromWire ints) message)
    onEconomy (BeaconRoundCoordinator.submitCommitment commitment)
    modify (count fun metrics => { metrics with beaconCommits := metrics.beaconCommits + 1 })
    broadcastUnless message (.beaconCommit commitment)
    return .committed commitment

def beaconReveal (ints : IntReading) (message : Json) : Control ControlReply := do
  let n ← get
  if n.beacon = false then
    return .disabled "beacon is disabled"
  else answering do
    let reveal ← reading (field "reveal" (revealFromWire ints) message)
    onEconomy (BeaconRoundCoordinator.submitReveal reveal)
    modify (count fun metrics => { metrics with beaconReveals := metrics.beaconReveals + 1 })
    broadcastUnless message (.beaconReveal reveal)
    return .revealed reveal

def beaconFinalize (ints : IntReading) (message : Json) : Control ControlReply := do
  let n ← get
  if n.beacon = false then
    return .disabled "beacon is disabled"
  else answering do
    let round ← reading (field "round" ints.read message)
    let revealReward ← reading (fieldOr "reveal_reward" (.int 1) ints.read message)
    let nonRevealPenalty ← reading (fieldOr "non_reveal_penalty" (.int 1) ints.read message)
    let settlement ← onEconomy (BeaconRoundCoordinator.finalize round revealReward nonRevealPenalty)
    modify (count fun metrics => { metrics with beaconFinalizations := metrics.beaconFinalizations + 1 })
    let m ← get
    return .finalized settlement m.economy.manager.snapshot.root m.economy.ledger.stateRoot

/-- The part of `_dispatch` that is about the control plane. A message of another type is
for other handlers. -/
def dispatch (ints : IntReading) (message : Json) : Control (Option ControlReply) := do
  let kind ← reading (message.get "type" .null)
  if kind.isText "ADMISSION" then some <$> admitApplicant ints message
  else if kind.isText "BEACON_COMMIT" then some <$> beaconCommit ints message
  else if kind.isText "BEACON_REVEAL" then some <$> beaconReveal ints message
  else if kind.isText "BEACON_FINALIZE" then some <$> beaconFinalize ints message
  else return none

/-- The node when the message has been handled. A fault that escapes ends the connection only. -/
def handle (ints : IntReading) (message : Json) (n : ControlNode) : ControlNode := final (dispatch ints message) n

/-- The messages one after the other. -/
def handleAll (ints : IntReading) (messages : List Json) (n : ControlNode) : ControlNode :=
  messages.foldl (fun m message => m.handle ints message) n

end ControlNode

end Mosaic
