import Mosaic.Membership

namespace Mosaic
open CanonicalJson Effects Economy

namespace RandomnessIncentiveManager

/-- `except SettlementError` and `except MembershipError`, raised again as
`RandomnessIncentiveError(str(exc))`. -/
def incentiveError (e : EconomyError) : EconomyError := .incentive e.message

/-- `f"MOSAIC/NON-REVEAL/{epoch}/{round}/{validator_id}"`. -/
def evidenceId (epoch round : Int) (validatorId : String) : String :=
  "MOSAIC/NON-REVEAL/" ++ toString epoch ++ "/" ++ toString round ++ "/" ++ validatorId

/-- The identifiers of the validators that committed and did not reveal. -/
def nonRevealed (commitmentMap : Dict String RandomnessCommitment) (revealMap : Dict String RandomnessReveal) :
    List String := sorted (commitmentMap.keys.filter fun validatorId => !revealMap.contains validatorId)

variable [Crypto]

/-- One pass of the penalty loop; the identifiers of the events. -/
def penalize (validatorBonds : Dict String String) (round penalty : Int) (validatorId : String) :
    PyEconomy (List String) := do
  let s ← get
  match validatorBonds.get? validatorId with
  | none => throw (.keyError validatorId)
  | some bondId => do
    let epoch := s.manager.snapshot.epoch
    let events ← rethrow EconomyError.isSettlement incentiveError
      (onLedger (SettlementLedger.slash bondId penalty epoch (evidenceId epoch round validatorId) none))
    let _ ← rethrow EconomyError.isMembership incentiveError
      (MembershipManager.penalizeNonReveal validatorId epoch round penalty)
    return events.map SettlementEvent.eventId

/-- The penalty loop over the identifiers that are left. -/
def penalizeAll (validatorBonds : Dict String String) (round penalty : Int) : List String → PyEconomy (List String)
  | [] => return []
  | validatorId :: validatorIds =>
    if penalty ≤ 0 then penalizeAll validatorBonds round penalty validatorIds
    else do
      let first ← penalize validatorBonds round penalty validatorId
      let later ← penalizeAll validatorBonds round penalty validatorIds
      return first ++ later

/-- The beacon of the reveals where they weigh enough, of the commitments
otherwise. -/
def beacon (m : MembershipManager) (commitmentMap : Dict String RandomnessCommitment)
    (revealMap : Dict String RandomnessReveal) (round : Int) : Except EconomyError RandomnessBeacon :=
  -- every validator that reveals is in `by_id()`: the checks before this call saw to it
  let weight := (revealMap.keys.map fun validatorId =>
    ((m.snapshot.byId.get? validatorId).map ValidatorRecord.stake).getD 0).sum
  if m.snapshot.threshold ≤ weight then
    m.makeBeacon commitmentMap.values revealMap.values round
  else
    m.makeFallbackBeacon commitmentMap.values round

/-- The reward step; the identifiers of the events. -/
def reward (validatorBonds : Dict String String) (revealMap : Dict String RandomnessReveal) (round revealReward : Int) :
    PyEconomy (List String) := do
  let s ← get
  if revealReward ≠ 0 ∧ revealMap.entries ≠ [] then do
    -- none is left out: the checks before this step saw to it that the mapping has them all
    let bondIds := revealMap.keys.filterMap validatorBonds.get?
    let events ← rethrow EconomyError.isSettlement incentiveError
      (onLedger (SettlementLedger.distributeRewards (s.manager.snapshot.epoch * 1000000 + round)
        (revealReward * revealMap.keys.length) (.ofList (bondIds.map fun bondId => (bondId, 1)))))
    return events.map SettlementEvent.eventId
  else
    return []

def settleRound (commitments : List RandomnessCommitment) (reveals : List RandomnessReveal)
    (validatorBonds : Dict String String) (round revealReward nonRevealPenalty : Int) :
    PyEconomy RandomnessRoundSettlement := do
  let s ← get
  let commitmentMap := Dict.ofList (commitments.map fun item => (item.validatorId, item))
  let revealMap := Dict.ofList (reveals.map fun item => (item.validatorId, item))
  raiseIf (revealReward < 0 ∨ nonRevealPenalty < 0) (.incentive "incentive amounts cannot be negative")
  raiseIf (commitmentMap.entries = []) (.incentive "randomness round has no commitments")
  raiseIf (revealMap.keys.any fun validatorId => !commitmentMap.contains validatorId)
    (.incentive "reveal is not backed by a commitment")
  raiseIf (commitmentMap.keys.any fun validatorId => !s.manager.snapshot.byId.contains validatorId)
    (.incentive "commitment is not from active validator")
  raiseIf (commitmentMap.keys.any fun validatorId => !validatorBonds.contains validatorId)
    (.incentive "missing settlement bond mapping")
  raiseIf (revealReward ≠ 0 ∧ s.ledger.balanceOf s.ledger.treasury < revealReward * revealMap.keys.length)
    (.incentive "treasury cannot fund reveal rewards")
  let made ← rethrow EconomyError.isMembership incentiveError (ofExcept (beacon s.manager commitmentMap revealMap round))
  let penaltyEventIds ← penalizeAll validatorBonds round nonRevealPenalty (nonRevealed commitmentMap revealMap)
  let rewardEventIds ← reward validatorBonds revealMap round revealReward
  let t ← get
  let epoch := t.manager.snapshot.epoch
  return {
    epoch
    round
    beacon := made
    committedIds := sorted commitmentMap.keys
    revealedIds := sorted revealMap.keys
    nonRevealedIds := nonRevealed commitmentMap revealMap
    rewardEventIds
    penaltyEventIds
    settlementId := "MOSAIC/RANDOMNESS-SETTLEMENT/" ++ toString epoch ++ "/" ++ toString round }

end RandomnessIncentiveManager

namespace BeaconRoundCoordinator

variable [Crypto]

/-- `if self.store is not None: self.store.put(...)`. -/
def putRow (kind objectKey : String) (payload : EconomyRow) : PyEconomy PUnit := do
  let s ← get
  if s.beaconBound then onStore (EconomyStore.put kind objectKey payload) else pure ⟨⟩

def submitCommitment (commitment : RandomnessCommitment) : PyEconomy PUnit := do
  let s ← get
  let key := (commitment.epoch, commitment.round, commitment.validatorId)
  match s.manager.snapshot.byId.get? commitment.validatorId with
  | none => throw (.beaconRound "commitment validator is not active")
  | some record => do
    raiseIf (commitment.epoch ≠ s.manager.snapshot.epoch) (.beaconRound "commitment epoch is not current")
    raiseIf (commitment.round < 0 ∨ commitment.commitment = "") (.beaconRound "invalid commitment round")
    raiseIf (KeyPair.verify record.publicKey (canonicalBytes commitment.statement) commitment.signature = false)
      (.beaconRound "invalid commitment signature")
    raiseIf ((s.rounds.commitments.get? key).any (· ≠ commitment))
      (.beaconRound "validator equivocated in commitment round")
    modify fun s => s.setRounds { s.rounds with commitments := s.rounds.commitments.set key commitment }
    putRow "beacon_commitment" (digest commitment.statement) (.beaconCommitment commitment)

def submitReveal (reveal : RandomnessReveal) : PyEconomy PUnit := do
  let s ← get
  let key := (reveal.epoch, reveal.round, reveal.validatorId)
  match s.manager.snapshot.byId.get? reveal.validatorId with
  | none => throw (.beaconRound "reveal validator is not active")
  | some record =>
    match (s.rounds.commitments.get? key).filter (·.commitment = reveal.commitment) with
    | none => throw (.beaconRound "reveal has no matching commitment")
    | some commitment => do
      raiseIf (KeyPair.verify record.publicKey (canonicalBytes reveal.statement) reveal.signature = false)
        (.beaconRound "invalid reveal signature")
      raiseIf (commitment.commitment ≠ commitmentTo reveal.secret)
        (.beaconRound "reveal secret does not match commitment")
      raiseIf ((s.rounds.reveals.get? key).any (· ≠ reveal)) (.beaconRound "validator equivocated in reveal round")
      modify fun s => s.setRounds { s.rounds with reveals := s.rounds.reveals.set key reveal }
      putRow "beacon_reveal" (digest reveal.statement) (.beaconReveal reveal)

/-- The items of one round, in the order in which their keys came. -/
def itemsOf {α : Type} (items : Dict (Int × Int × String) α) (epoch round : Int) : List α :=
  (items.entries.filter fun entry => entry.1.1 = epoch ∧ entry.1.2.1 = round).map Prod.snd

def finalize (round revealReward nonRevealPenalty : Int) : PyEconomy RandomnessRoundSettlement := do
  let s ← get
  let epoch := s.manager.snapshot.epoch
  match s.rounds.settlements.get? (epoch, round) with
  | some settlement => return settlement
  | none => do
    let commitments := itemsOf s.rounds.commitments epoch round
    let reveals := itemsOf s.rounds.reveals epoch round
    raiseIf (commitments = []) (.beaconRound "cannot finalize empty beacon round")
    let settlement ← rethrow EconomyError.isIncentive (fun e => .beaconRound e.message)
      (RandomnessIncentiveManager.settleRound commitments reveals s.manager.validatorBonds round revealReward
        nonRevealPenalty)
    modify fun s => s.setRounds { s.rounds with settlements := s.rounds.settlements.set (epoch, round) settlement }
    let t ← get
    if t.beaconBound then do
      persist
      onStore (EconomyStore.put "beacon_round" settlement.settlementId
        (.beaconRound settlement t.manager.snapshot.root t.ledger.stateRoot))
      return settlement
    else
      return settlement

end BeaconRoundCoordinator

end Mosaic
