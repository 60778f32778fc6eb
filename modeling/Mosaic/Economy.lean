import Mosaic.Settlement

namespace Mosaic
open CanonicalJson Effects

/-- The validator votes: `item.active and not item.jailed`. -/
def ValidatorRecord.votes (record : ValidatorRecord) : Bool := record.active && !record.jailed

structure MembershipSnapshot where
  epoch : Int
  seed : Bytes
  validators : List ValidatorRecord
  root : String
  deriving DecidableEq

namespace MembershipSnapshot

def totalStake (snapshot : MembershipSnapshot) : Int :=
  ((snapshot.validators.filter ValidatorRecord.votes).map ValidatorRecord.stake).sum

def threshold (snapshot : MembershipSnapshot) : Int := 2 * snapshot.totalStake / 3 + 1

def byId (snapshot : MembershipSnapshot) : Dict String ValidatorRecord :=
  .ofList ((snapshot.validators.filter ValidatorRecord.votes).map fun item => (item.validatorId, item))

end MembershipSnapshot

def validatorFields (record : ValidatorRecord) : Json := .obj [
  ("validator_id", .str record.validatorId),
  ("public_key", .str (hex record.publicKey)),
  ("stake", .int record.stake),
  ("deposit_id", .str record.depositId),
  ("locked_until_epoch", .int record.lockedUntilEpoch),
  ("jailed", .bool record.jailed)]

/-- The root is computed again from the validators that vote. -/
def MembershipSnapshot.verify [Crypto] (snapshot : MembershipSnapshot) : Bool :=
  let active := sortedBy ValidatorRecord.validatorId (snapshot.validators.filter ValidatorRecord.votes)
  let expected := digest (.obj [
    ("protocol", .str "MOSAIC/MEMBERSHIP-ROOT/v1"),
    ("epoch", .int snapshot.epoch),
    ("seed", .str (hex snapshot.seed)),
    ("validators", .list (active.map validatorFields))])
  expected = snapshot.root && active.all fun item => 0 < item.stake

/-- What a manager is made with. `settlement` tells whether it shares a ledger. -/
structure MembershipConfig where
  genesisSeed : Bytes
  minimumStake : Int := 1
  maxTicketsPerValidator : Int := 10000
  withdrawalDelay : Int := 2
  settlement : Bool := false

structure MembershipManager extends MembershipConfig where
  validatorBonds : Dict String String
  records : Dict String ValidatorRecord
  deposits : Finset String
  bonds : Dict String StakeBond
  slashHistory : Dict String SlashEvidence
  nonRevealHistory : Finset String
  epoch : Int
  seed : Bytes
  snapshot : MembershipSnapshot

namespace MembershipManager

@[simps toMembershipConfig validatorBonds records deposits bonds slashHistory nonRevealHistory epoch seed snapshot]
def addBond (m : MembershipManager) (validatorId : String) (bond : StakeBond) : MembershipManager :=
  { m with
    bonds := m.bonds.set bond.bondId bond
    validatorBonds := m.validatorBonds.set validatorId bond.bondId }

@[simps toMembershipConfig validatorBonds records deposits bonds slashHistory nonRevealHistory epoch seed snapshot]
def setRecord (m : MembershipManager) (validatorId : String) (record : ValidatorRecord) : MembershipManager :=
  { m with records := m.records.set validatorId record }

@[simps toMembershipConfig validatorBonds records deposits bonds slashHistory nonRevealHistory epoch seed snapshot]
def addDeposit (m : MembershipManager) (depositId : String) : MembershipManager :=
  { m with deposits := insert depositId m.deposits }

@[simps toMembershipConfig validatorBonds records deposits bonds slashHistory nonRevealHistory epoch seed snapshot]
def dropValidator (m : MembershipManager) (validatorId : String) : MembershipManager :=
  { m with
    records := m.records.erase validatorId
    validatorBonds := m.validatorBonds.erase validatorId }

@[simps toMembershipConfig validatorBonds records deposits bonds slashHistory nonRevealHistory epoch seed snapshot]
def addSlash (m : MembershipManager) (evidence : SlashEvidence) : MembershipManager :=
  { m with slashHistory := m.slashHistory.set evidence.evidenceId evidence }

@[simps toMembershipConfig validatorBonds records deposits bonds slashHistory nonRevealHistory epoch seed snapshot]
def addNonReveal (m : MembershipManager) (evidenceId : String) : MembershipManager :=
  { m with nonRevealHistory := insert evidenceId m.nonRevealHistory }

@[simps toMembershipConfig validatorBonds records deposits bonds slashHistory nonRevealHistory epoch seed snapshot]
def setEpoch (m : MembershipManager) (epoch : Int) : MembershipManager := { m with epoch }

@[simps toMembershipConfig validatorBonds records deposits bonds slashHistory nonRevealHistory epoch seed snapshot]
def setSeed (m : MembershipManager) (seed : Bytes) : MembershipManager := { m with seed }

variable [Crypto]

/-- `_build_snapshot`. -/
def buildSnapshot (m : MembershipManager) : MembershipSnapshot :=
  let validators := sortedBy ValidatorRecord.validatorId m.records.values
  { epoch := m.epoch
    seed := m.seed
    validators
    root := digest (.obj [
      ("protocol", .str "MOSAIC/MEMBERSHIP-ROOT/v1"),
      ("epoch", .int m.epoch),
      ("seed", .str (hex m.seed)),
      ("validators", .list ((validators.filter ValidatorRecord.votes).map validatorFields))]) }

/-- `self._snapshot = self._build_snapshot()`. -/
@[simps toMembershipConfig validatorBonds records deposits bonds slashHistory nonRevealHistory epoch seed snapshot]
def rebuilt (m : MembershipManager) : MembershipManager := { m with snapshot := m.buildSnapshot }

/-- `__init__`. -/
def fresh (config : MembershipConfig) : MembershipManager :=
  rebuilt {
    toMembershipConfig := config
    validatorBonds := .empty
    records := .empty
    deposits := ∅
    bonds := .empty
    slashHistory := .empty
    nonRevealHistory := ∅
    epoch := 0
    seed := config.genesisSeed
    snapshot := ⟨0, config.genesisSeed, [], ""⟩ }

end MembershipManager

structure RandomnessRoundSettlement where
  epoch : Int
  round : Int
  beacon : RandomnessBeacon
  committedIds : List String
  revealedIds : List String
  nonRevealedIds : List String
  rewardEventIds : List String
  penaltyEventIds : List String
  settlementId : String
  deriving DecidableEq

/-- What a `BeaconRoundCoordinator` keeps, by epoch, round and validator. -/
structure BeaconRounds where
  commitments : Dict (Int × Int × String) RandomnessCommitment := .empty
  reveals : Dict (Int × Int × String) RandomnessReveal := .empty
  settlements : Dict (Int × Int) RandomnessRoundSettlement := .empty

/-- The payload of a row, under the name of its kind. -/
inductive EconomyRow
  | settlementState (ledger : SettlementLedger) (stateRoot : String)
  | onboarding (request : AdmissionRequest) (bond : StakeBond) (certificate : AdmissionCertificate)
      (stateRoot membershipRoot : String)
  | beaconCommitment (item : RandomnessCommitment)
  | beaconReveal (item : RandomnessReveal)
  | beaconRound (settlement : RandomnessRoundSettlement) (membershipRoot settlementRoot : String)

/-- The rows under their kinds and keys. `refusal` is what the database says
when it does not take rows of a kind. -/
structure EconomyStore where
  rows : Dict (String × String) EconomyRow := .empty
  refusal : String → Option String := fun _ => none

/-- `store.put`: a row that is refused leaves the others as they were. -/
def EconomyStore.put (kind objectKey : String) (payload : EconomyRow) : EStateM EconomyError EconomyStore PUnit := do
  let s ← get
  match s.refusal kind with
  | some message => throw (.storage message)
  | none => modify fun s => { s with rows := s.rows.set (kind, objectKey) payload }

/-- A ledger and a manager with their two coordinators, over one store. Each
coordinator may be bound to the store or not. -/
structure Economy where
  ledger : SettlementLedger
  manager : MembershipManager
  rounds : BeaconRounds
  store : EconomyStore
  onboardingBound : Bool := false
  beaconBound : Bool := false

abbrev PyEconomy := EStateM EconomyError Economy

namespace Economy

@[simps]
def setLedger (ledger : SettlementLedger) (s : Economy) : Economy := { s with ledger }

@[simps]
def setManager (manager : MembershipManager) (s : Economy) : Economy := { s with manager }

@[simps]
def setRounds (rounds : BeaconRounds) (s : Economy) : Economy := { s with rounds }

@[simps]
def setStore (store : EconomyStore) (s : Economy) : Economy := { s with store }

@[simps]
def bindOnboarding (s : Economy) : Economy := { s with onboardingBound := true }

/-- A call of a method of the ledger. -/
def onLedger {α : Type} (x : PyLedger α) : PyEconomy α := onPart Economy.ledger setLedger x

def onStore {α : Type} (x : EStateM EconomyError EconomyStore α) : PyEconomy α := onPart Economy.store setStore x

/-- `self.attribute = ...` in the manager. -/
def updateManager (f : MembershipManager → MembershipManager) : PyEconomy PUnit :=
  modify fun s => s.setManager (f s.manager)

variable [Crypto]

/-- `SettlementLedger.persist`. -/
def persist : PyEconomy PUnit := do
  let s ← get
  onStore (EconomyStore.put "settlement_state" "ledger" (.settlementState s.ledger s.ledger.stateRoot))

/-- A new ledger, a new manager and new coordinators. -/
def fresh (ledger : LedgerConfig) (manager : MembershipConfig) (store : EconomyStore) (beaconBound : Bool) : Economy where
  ledger := .fresh ledger
  manager := .fresh manager
  rounds := {}
  store := store
  beaconBound := beaconBound

end Economy

end Mosaic
