import Mosaic.Lib.CanonicalTexts
import Mosaic.Lib.GuardedRun
import Mosaic.Settlement

namespace Mosaic.Strict
open CanonicalJson Effects

/-- The `UnicodeEncodeError` of `canonical_bytes`, which is a `ValueError`. Its message
also says which character it was and where. -/
def surrogatesError : EconomyError := .valueError "'utf-8' codec can't encode character: surrogates not allowed"

variable [Crypto] [Texts]

namespace Economy

/-- `canonical_bytes`, with its error. -/
def canonicalBytes (value : Json) : Except EconomyError Bytes :=
  if value.Encodable then .ok (CanonicalJson.canonicalBytes value) else .error surrogatesError

/-- `digest`, which encodes its argument first. -/
def digest (value : Json) : Except EconomyError String := do
  let encoded ← canonicalBytes value
  return Crypto.sha256 encoded

end Economy

/-- `StakeBond.verify`, which encodes the statement when the numbers are right. -/
def StakeBond.verify (bond : StakeBond) : Except EconomyError Bool :=
  if 0 < bond.amount ∧ 0 ≤ bond.activationEpoch ∧ bond.activationEpoch ≤ bond.unlockEpoch then do
    let message ← Economy.canonicalBytes bond.statement
    return KeyPair.verify bond.ownerPublicKey message bond.ownerSignature
  else return false

namespace SettlementLedger
open Mosaic.SettlementLedger

/-- What `state_root` hashes. -/
def rootStatement (s : SettlementLedger) : Json := .obj [
  ("protocol", .str "MOSAIC/SETTLEMENT-STATE/v1"),
  ("asset", .str s.asset),
  ("balances", .obj (s.balances.entries.map fun entry => (entry.1, .int entry.2))),
  ("bonds", .obj (s.bonds.entries.map fun entry => (entry.1, bondFields entry.2))),
  ("events", .list ((sorted s.events.keys).map .str)),
  ("slash_evidence_ids", .list ((inOrder s.slashEvidenceIds).map .str)),
  ("settled_reward_epochs", .list ((inOrder s.settledRewardEpochs).map .int))]

def stateRoot (s : SettlementLedger) : Except EconomyError String := Economy.digest (rootStatement s)

/-- `_event`. -/
def recordEvent (kind : String) (epoch : Int) (account : String) (amount : Int) (relatedId : String)
    (metadata : List (String × String)) : PyLedger SettlementEvent := do
  let s ← get
  let eventId ← ofExcept (Economy.digest (eventStatement kind epoch account amount s.asset relatedId metadata))
  raiseIf (s.events.contains eventId) (.settlement "duplicate settlement event")
  let event : SettlementEvent := { eventId, kind, epoch, account, amount, asset := s.asset, relatedId, metadata }
  modify (·.addEvent event)
  return event

/-- `source_id or digest(...)`. -/
def fundingId (account : String) (amount epoch : Int) (sourceId : Option String) : Except EconomyError String :=
  match sourceId with
  | some source => if source = "" then unnamed else .ok source
  | none => unnamed
where
  unnamed : Except EconomyError String :=
    Economy.digest (.obj [("account", .str account), ("amount", .int amount), ("epoch", .int epoch)])

def fund (account : String) (amount epoch : Int) (sourceId : Option String) : PyLedger SettlementEvent := do
  raiseIf (amount ≤ 0 ∨ account = "") (.settlement "funding amount and account are invalid")
  let related ← ofExcept (fundingId account amount epoch sourceId)
  let event ← recordEvent "FUND" epoch account amount related [("source", "external")]
  credit account amount
  return event

def bond (bond : StakeBond) (currentEpoch : Int) : PyLedger SettlementEvent := do
  let verified ← ofExcept (StakeBond.verify bond)
  raiseIf (verified = false) (.settlement "invalid stake bond")
  let s ← get
  raiseIf (bond.asset ≠ s.asset) (.settlement "stake asset does not match ledger")
  raiseIf (currentEpoch < bond.activationEpoch) (.settlement "bond activation epoch has not arrived")
  raiseIf (s.bonds.contains bond.bondId) (.settlement "bond already settled")
  debit bond.owner bond.amount
  modify (·.setPosition {
    bondId := bond.bondId
    owner := bond.owner
    asset := bond.asset
    amount := bond.amount
    unlockEpoch := bond.unlockEpoch } bond.bondId)
  recordEvent "BOND" currentEpoch bond.owner bond.amount bond.bondId []

def requestUnbond (bondId : String) (currentEpoch delay : Int) : PyLedger SettlementEvent := do
  let found ← position bondId
  raiseIf (delay < 0 ∨ found.active = false ∨ found.unbonding) (.settlement "bond cannot enter unbonding")
  modify (·.setPosition { found with
    unlockEpoch := max found.unlockEpoch (currentEpoch + delay)
    active := false
    unbonding := true } bondId)
  recordEvent "UNBOND_REQUEST" currentEpoch found.owner 0 bondId []

def withdraw (bondId : String) (currentEpoch : Int) : PyLedger SettlementEvent := do
  let found ← position bondId
  raiseIf found.active (.settlement "bond is still active; request unbonding first")
  raiseIf (found.unbonding = false ∨ currentEpoch < found.unlockEpoch) (.settlement "withdrawal delay has not elapsed")
  modify (·.dropPosition bondId)
  credit found.owner found.amount
  recordEvent "WITHDRAW" currentEpoch found.owner found.amount bondId []

def slash (bondId : String) (amount epoch : Int) (evidenceId : String) (reporter : Option String) :
    PyLedger (List SettlementEvent) := do
  raiseIf (amount ≤ 0 ∨ evidenceId = "") (.settlement "slash amount and evidence are required")
  let s ← get
  raiseIf (evidenceId ∈ s.slashEvidenceIds) (.settlement "slash evidence already settled")
  let found ← position bondId
  let penalty := min amount found.amount
  let reporterAmount := reporterShare s.toLedgerConfig penalty reporter
  let treasuryAmount := penalty - reporterAmount
  modify (·.addEvidence evidenceId)
  modify (·.setPosition (penalized found penalty) bondId)
  let event ← recordEvent "SLASH" epoch found.owner penalty evidenceId []
  credit s.treasury treasuryAmount
  if reporterAmount ≠ 0 then do
    credit (reporter.getD "") reporterAmount
    let reward ← recordEvent "REPORTER_REWARD" epoch (reporter.getD "") reporterAmount evidenceId []
    return [event, reward]
  else
    return [event]

def chargeFee (payer : String) (amount epoch : Int) (txId : String) : PyLedger SettlementEvent := do
  raiseIf (amount ≤ 0 ∨ txId = "") (.settlement "fee amount and tx id are required")
  debit payer amount
  let s ← get
  credit s.treasury amount
  recordEvent "FEE" epoch payer amount txId []

/-- The loop of `distribute_rewards` over the entries that are left. -/
def rewardFrom (epoch total totalWeight : Int) : Int → List (String × Int) → PyLedger (List SettlementEvent)
  | _, [] => return []
  | distributed, (bondId, weight) :: entries => do
    let found ← position bondId
    let amount := rewardShare total totalWeight distributed weight entries.isEmpty
    credit found.owner amount
    let event ← recordEvent "REWARD" epoch found.owner amount bondId []
    let events ← rewardFrom epoch total totalWeight (distributed + amount) entries
    return event :: events

def distributeRewards (epoch total : Int) (weights : Dict String Int) : PyLedger (List SettlementEvent) := do
  let s ← get
  raiseIf (epoch ∈ s.settledRewardEpochs) (.settlement "epoch rewards already settled")
  raiseIf (total ≤ 0 ∨ weights.entries = [] ∨ ∃ value ∈ weights.values, value ≤ 0)
    (.settlement "invalid reward distribution")
  debit s.treasury total
  let events ← rewardFrom epoch total weights.values.sum 0 (sortedBy Prod.fst weights.entries)
  modify (·.settleEpoch epoch)
  return events

end SettlementLedger

namespace SettlementCall

/-- The events that the call returns. -/
def run : SettlementCall → PyLedger (List SettlementEvent)
  | .fund account amount epoch sourceId => ([·]) <$> SettlementLedger.fund account amount epoch sourceId
  | .bond b currentEpoch => ([·]) <$> SettlementLedger.bond b currentEpoch
  | .requestUnbond bondId currentEpoch delay => ([·]) <$> SettlementLedger.requestUnbond bondId currentEpoch delay
  | .withdraw bondId currentEpoch => ([·]) <$> SettlementLedger.withdraw bondId currentEpoch
  | .slash bondId amount epoch evidenceId reporter => SettlementLedger.slash bondId amount epoch evidenceId reporter
  | .chargeFee payer amount epoch txId => ([·]) <$> SettlementLedger.chargeFee payer amount epoch txId
  | .distributeRewards epoch total weights => SettlementLedger.distributeRewards epoch total weights

def exec (call : SettlementCall) (s : SettlementLedger) : SettlementLedger := final (run call) s

/-- The ledgers that calls make of a fresh one, those that raise included. -/
abbrev Reached (config : LedgerConfig) : SettlementLedger → Prop :=
  GuardedRun exec (fun _ _ => True) (.fresh config)

end SettlementCall

end Mosaic.Strict
