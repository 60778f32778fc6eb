import Mosaic.Staking
import Mosaic.Lib.DictSum
import Mosaic.Lib.Effects
import Mathlib.Data.Finset.Sort

namespace Mosaic
open CanonicalJson Effects

structure BondPosition where
  bondId : String
  owner : String
  asset : String
  amount : Int
  unlockEpoch : Int
  active : Bool := true
  unbonding : Bool := false
  deriving DecidableEq

structure SettlementEvent where
  eventId : String
  kind : String
  epoch : Int
  account : String
  amount : Int
  asset : String
  relatedId : String
  metadata : List (String × String) := []
  deriving DecidableEq

/-- What a ledger is made with; other values are refused by `__init__`. -/
structure LedgerConfig where
  asset : String := "MOSAIC"
  treasury : String := "mosaic:treasury"
  reporterRewardBps : Int := 1000
  assetNamed : asset ≠ ""
  treasuryNamed : treasury ≠ ""
  share : 0 ≤ reporterRewardBps ∧ reporterRewardBps ≤ 10000

structure SettlementLedger extends LedgerConfig where
  balances : Dict String Int
  bonds : Dict String BondPosition
  events : Dict String SettlementEvent
  slashEvidenceIds : Finset String
  settledRewardEpochs : Finset Int

abbrev PyLedger := EStateM EconomyError SettlementLedger

namespace SettlementLedger

/-- `__init__`. -/
def fresh (config : LedgerConfig) : SettlementLedger where
  toLedgerConfig := config
  balances := .empty
  bonds := .empty
  events := .empty
  slashEvidenceIds := ∅
  settledRewardEpochs := ∅

def balanceOf (s : SettlementLedger) (account : String) : Int := (s.balances.get? account).getD 0

def audit (s : SettlementLedger) : Bool :=
  s.balances.values.all (fun amount => 0 ≤ amount) &&
    s.bonds.values.all (fun position =>
      0 ≤ position.amount && position.asset = s.asset && !(position.active && position.unbonding)) &&
    s.events.values.all fun event => 0 ≤ event.amount && event.asset = s.asset

@[simps toLedgerConfig balances bonds events slashEvidenceIds settledRewardEpochs]
def setBalance (s : SettlementLedger) (account : String) (amount : Int) : SettlementLedger :=
  { s with balances := s.balances.set account amount }

@[simps toLedgerConfig balances bonds events slashEvidenceIds settledRewardEpochs]
def setPosition (s : SettlementLedger) (position : BondPosition) (bondId : String) : SettlementLedger :=
  { s with bonds := s.bonds.set bondId position }

@[simps toLedgerConfig balances bonds events slashEvidenceIds settledRewardEpochs]
def dropPosition (s : SettlementLedger) (bondId : String) : SettlementLedger :=
  { s with bonds := s.bonds.erase bondId }

@[simps toLedgerConfig balances bonds events slashEvidenceIds settledRewardEpochs]
def addEvent (s : SettlementLedger) (event : SettlementEvent) : SettlementLedger :=
  { s with events := s.events.set event.eventId event }

@[simps toLedgerConfig balances bonds events slashEvidenceIds settledRewardEpochs]
def addEvidence (s : SettlementLedger) (evidenceId : String) : SettlementLedger :=
  { s with slashEvidenceIds := insert evidenceId s.slashEvidenceIds }

@[simps toLedgerConfig balances bonds events slashEvidenceIds settledRewardEpochs]
def settleEpoch (s : SettlementLedger) (epoch : Int) : SettlementLedger :=
  { s with settledRewardEpochs := insert epoch s.settledRewardEpochs }

variable [Crypto]

def eventStatement (kind : String) (epoch : Int) (account : String) (amount : Int) (asset relatedId : String)
    (metadata : List (String × String)) : Json := .obj [
  ("protocol", .str "MOSAIC/SETTLEMENT-EVENT/v1"),
  ("kind", .str kind),
  ("epoch", .int epoch),
  ("account", .str account),
  ("amount", .int amount),
  ("asset", .str asset),
  ("related_id", .str relatedId),
  ("metadata", .list (metadata.map fun entry => .list [.str entry.1, .str entry.2]))]

/-- The event that an operation records. -/
def eventFor (config : LedgerConfig) (kind : String) (epoch : Int) (account : String) (amount : Int) (relatedId : String)
    (metadata : List (String × String)) : SettlementEvent where
  eventId := digest (eventStatement kind epoch account amount config.asset relatedId metadata)
  kind := kind
  epoch := epoch
  account := account
  amount := amount
  asset := config.asset
  relatedId := relatedId
  metadata := metadata

def bondFields (position : BondPosition) : Json := .obj [
  ("owner", .str position.owner),
  ("asset", .str position.asset),
  ("amount", .int position.amount),
  ("unlock_epoch", .int position.unlockEpoch),
  ("active", .bool position.active),
  ("unbonding", .bool position.unbonding)]

def stateRoot (s : SettlementLedger) : String := digest (.obj [
  ("protocol", .str "MOSAIC/SETTLEMENT-STATE/v1"),
  ("asset", .str s.asset),
  ("balances", .obj (s.balances.entries.map fun entry => (entry.1, .int entry.2))),
  ("bonds", .obj (s.bonds.entries.map fun entry => (entry.1, bondFields entry.2))),
  ("events", .list ((sorted s.events.keys).map .str)),
  ("slash_evidence_ids", .list ((s.slashEvidenceIds.sort (· ≤ ·)).map .str)),
  ("settled_reward_epochs", .list ((s.settledRewardEpochs.sort (· ≤ ·)).map .int))])

/-- `sorted(items)`. -/
def inOrder {α : Type} [LinearOrder α] (items : Finset α) : List α := items.sort (· ≤ ·)

/-- `_position`. -/
def position (bondId : String) : PyLedger BondPosition := do
  let s ← get
  match s.bonds.get? bondId with
  | some found => pure found
  | none => throw (.settlement "unknown bond")

/-- `_credit`. -/
def credit (account : String) (amount : Int) : PyLedger PUnit := do
  raiseIf (account = "" ∨ amount < 0) (.settlement "invalid credit")
  modify fun s => s.setBalance account (s.balanceOf account + amount)

/-- `_debit`. -/
def debit (account : String) (amount : Int) : PyLedger PUnit := do
  let s ← get
  raiseIf (amount < 0 ∨ s.balanceOf account < amount) (.settlement "insufficient settlement balance")
  modify fun s => s.setBalance account (s.balanceOf account - amount)

/-- `_event`. -/
def recordEvent (kind : String) (epoch : Int) (account : String) (amount : Int) (relatedId : String)
    (metadata : List (String × String)) : PyLedger SettlementEvent := do
  let s ← get
  let event := eventFor s.toLedgerConfig kind epoch account amount relatedId metadata
  raiseIf (s.events.contains event.eventId) (.settlement "duplicate settlement event")
  modify (·.addEvent event)
  return event

/-- `source_id or digest(...)`. -/
def fundingId (account : String) (amount epoch : Int) (sourceId : Option String) : String :=
  match sourceId with
  | some source => if source = "" then unnamed else source
  | none => unnamed
where
  unnamed : String := digest (.obj [("account", .str account), ("amount", .int amount), ("epoch", .int epoch)])

def fund (account : String) (amount epoch : Int) (sourceId : Option String) : PyLedger SettlementEvent := do
  raiseIf (amount ≤ 0 ∨ account = "") (.settlement "funding amount and account are invalid")
  let event ← recordEvent "FUND" epoch account amount (fundingId account amount epoch sourceId) [("source", "external")]
  credit account amount
  return event

def bond (bond : StakeBond) (currentEpoch : Int) : PyLedger SettlementEvent := do
  raiseIf (bond.verify = false) (.settlement "invalid stake bond")
  let s ← get
  raiseIf (bond.asset ≠ s.asset) (.settlement "stake asset does not match ledger")
  raiseIf (currentEpoch < bond.activationEpoch) (.settlement "bond activation epoch has not arrived")
  raiseIf (s.bonds.contains bond.bondId) (.settlement "bond already settled")
  debit bond.owner bond.amount
  modify (·.setPosition {
    bondId := bond.bondId
    owner := bond.owner
    asset := bond.asset
    amount := bond.amount
    unlockEpoch := bond.unlockEpoch } bond.bondId)
  recordEvent "BOND" currentEpoch bond.owner bond.amount bond.bondId []

def requestUnbond (bondId : String) (currentEpoch delay : Int) : PyLedger SettlementEvent := do
  let found ← position bondId
  raiseIf (delay < 0 ∨ found.active = false ∨ found.unbonding) (.settlement "bond cannot enter unbonding")
  modify (·.setPosition { found with
    unlockEpoch := max found.unlockEpoch (currentEpoch + delay)
    active := false
    unbonding := true } bondId)
  recordEvent "UNBOND_REQUEST" currentEpoch found.owner 0 bondId []

def withdraw (bondId : String) (currentEpoch : Int) : PyLedger SettlementEvent := do
  let found ← position bondId
  raiseIf found.active (.settlement "bond is still active; request unbonding first")
  raiseIf (found.unbonding = false ∨ currentEpoch < found.unlockEpoch) (.settlement "withdrawal delay has not elapsed")
  modify (·.dropPosition bondId)
  credit found.owner found.amount
  recordEvent "WITHDRAW" currentEpoch found.owner found.amount bondId []

/-- The position when a penalty has been taken off. -/
def penalized (found : BondPosition) (penalty : Int) : BondPosition :=
  { found with
    amount := found.amount - penalty
    active := found.active && penalty < found.amount }

/-- What the reporter gets of a penalty. -/
def reporterShare (config : LedgerConfig) (penalty : Int) (reporter : Option String) : Int :=
  match reporter with
  | some name => if name = "" then 0 else penalty * config.reporterRewardBps / 10000
  | none => 0

def slash (bondId : String) (amount epoch : Int) (evidenceId : String) (reporter : Option String) :
    PyLedger (List SettlementEvent) := do
  raiseIf (amount ≤ 0 ∨ evidenceId = "") (.settlement "slash amount and evidence are required")
  let s ← get
  raiseIf (evidenceId ∈ s.slashEvidenceIds) (.settlement "slash evidence already settled")
  let found ← position bondId
  let penalty := min amount found.amount
  let reporterAmount := reporterShare s.toLedgerConfig penalty reporter
  let treasuryAmount := penalty - reporterAmount
  modify (·.addEvidence evidenceId)
  modify (·.setPosition (penalized found penalty) bondId)
  let event ← recordEvent "SLASH" epoch found.owner penalty evidenceId []
  credit s.treasury treasuryAmount
  if reporterAmount ≠ 0 then do
    credit (reporter.getD "") reporterAmount
    let reward ← recordEvent "REPORTER_REWARD" epoch (reporter.getD "") reporterAmount evidenceId []
    return [event, reward]
  else
    return [event]

def chargeFee (payer : String) (amount epoch : Int) (txId : String) : PyLedger SettlementEvent := do
  raiseIf (amount ≤ 0 ∨ txId = "") (.settlement "fee amount and tx id are required")
  debit payer amount
  let s ← get
  credit s.treasury amount
  recordEvent "FEE" epoch payer amount txId []

/-- What an entry of the reward loop gets: the last one takes what is left. -/
def rewardShare (total totalWeight distributed weight : Int) (last : Bool) : Int :=
  if last then total - distributed else total * weight / totalWeight

/-- The loop of `distribute_rewards` over the entries that are left. -/
def rewardFrom (epoch total totalWeight : Int) : Int → List (String × Int) → PyLedger (List SettlementEvent)
  | _, [] => return []
  | distributed, (bondId, weight) :: entries => do
    let found ← position bondId
    let amount := rewardShare total totalWeight distributed weight entries.isEmpty
    credit found.owner amount
    let event ← recordEvent "REWARD" epoch found.owner amount bondId []
    let events ← rewardFrom epoch total totalWeight (distributed + amount) entries
    return event :: events

def distributeRewards (epoch total : Int) (weights : Dict String Int) : PyLedger (List SettlementEvent) := do
  let s ← get
  raiseIf (epoch ∈ s.settledRewardEpochs) (.settlement "epoch rewards already settled")
  raiseIf (total ≤ 0 ∨ weights.entries = [] ∨ ∃ value ∈ weights.values, value ≤ 0)
    (.settlement "invalid reward distribution")
  debit s.treasury total
  let events ← rewardFrom epoch total weights.values.sum 0 (sortedBy Prod.fst weights.entries)
  modify (·.settleEpoch epoch)
  return events

end SettlementLedger

inductive SettlementCall
  | fund (account : String) (amount epoch : Int) (sourceId : Option String)
  | bond (bond : StakeBond) (currentEpoch : Int)
  | requestUnbond (bondId : String) (currentEpoch delay : Int)
  | withdraw (bondId : String) (currentEpoch : Int)
  | slash (bondId : String) (amount epoch : Int) (evidenceId : String) (reporter : Option String)
  | chargeFee (payer : String) (amount epoch : Int) (txId : String)
  | distributeRewards (epoch total : Int) (weights : Dict String Int)

namespace SettlementCall

variable [Crypto]

/-- The events that the call returns. -/
def run : SettlementCall → PyLedger (List SettlementEvent)
  | fund account amount epoch sourceId => ([·]) <$> SettlementLedger.fund account amount epoch sourceId
  | bond b currentEpoch => ([·]) <$> SettlementLedger.bond b currentEpoch
  | requestUnbond bondId currentEpoch delay => ([·]) <$> SettlementLedger.requestUnbond bondId currentEpoch delay
  | withdraw bondId currentEpoch => ([·]) <$> SettlementLedger.withdraw bondId currentEpoch
  | slash bondId amount epoch evidenceId reporter => SettlementLedger.slash bondId amount epoch evidenceId reporter
  | chargeFee payer amount epoch txId => ([·]) <$> SettlementLedger.chargeFee payer amount epoch txId
  | distributeRewards epoch total weights => SettlementLedger.distributeRewards epoch total weights

def exec (call : SettlementCall) (s : SettlementLedger) : SettlementLedger := final call.run s

/-- The calls one after the other; an exception ends the run. -/
def runAll : List SettlementCall → PyLedger PUnit
  | [] => pure ⟨⟩
  | call :: calls => do
    let _ ← call.run
    runAll calls

end SettlementCall

end Mosaic
