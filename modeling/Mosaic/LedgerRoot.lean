import Mosaic.LedgerPersistence
import Mosaic.Lib.Lockstep
import Mathlib.Data.Fintype.EquivFin

namespace Mosaic
open CanonicalJson Effects

/-- The position without the name that it has for itself, which nothing reads. -/
def BondPosition.nameless (found : BondPosition) : BondPosition := { found with bondId := "" }

namespace SettlementLedger

/-- The ledgers differ at most in their treasuries, their reporter rewards, the
names inside their positions and the contents of their events. -/
structure Committed (l l' : SettlementLedger) : Prop where
  asset : l'.asset = l.asset
  balances : ∀ account, l'.balances.get? account = l.balances.get? account
  bonds : ∀ bondId, (l'.bonds.get? bondId).map BondPosition.nameless = (l.bonds.get? bondId).map BondPosition.nameless
  events : ∀ eventId, l'.events.get? eventId = none ↔ l.events.get? eventId = none
  slashEvidenceIds : l'.slashEvidenceIds = l.slashEvidenceIds
  settledRewardEpochs : l'.settledRewardEpochs = l.settledRewardEpochs

variable {l l' : SettlementLedger}

theorem Committed.balanceOf (committed : l.Committed l') (account : String) : l'.balanceOf account = l.balanceOf account := by
  simp only [SettlementLedger.balanceOf, committed.balances]

/-- The position in the other ledger. -/
theorem Committed.position (committed : l.Committed l') {bondId : String} {found : BondPosition}
    (held : l.bonds.get? bondId = some found) :
    ∃ found', l'.bonds.get? bondId = some found' ∧ found'.nameless = found.nameless := by
  have bonds := committed.bonds bondId
  rw [held] at bonds
  exact Option.map_eq_some_iff.mp bonds

theorem Committed.no_position (committed : l.Committed l') {bondId : String} (unknown : l.bonds.get? bondId = none) :
    l'.bonds.get? bondId = none := by
  have bonds := committed.bonds bondId
  rw [unknown] at bonds
  exact Option.map_eq_none_iff.mp bonds

/-- Soundness depends on what is committed to, but for the contents of events. -/
theorem Committed.sound (committed : l.Committed l') (sound : l.Sound) (audited : l'.audit = true) : l'.Sound := by
  simp only [SettlementLedger.audit, Bool.and_eq_true, List.all_eq_true, decide_eq_true_eq] at audited
  refine ⟨fun account amount held => ?_, fun bondId found held => ?_, fun eventId event held => ?_⟩
  · exact sound.balances account amount (committed.balances account ▸ held)
  · have bonds := committed.bonds bondId
    rw [held] at bonds
    obtain ⟨found', held', same⟩ := Option.map_eq_some_iff.mp bonds.symm
    have proper := sound.bonds bondId found' held'
    rw [← committed.asset] at proper
    have unnamed : found'.nameless.Sound l'.asset :=
      ⟨proper.amount, proper.owned, proper.asset, proper.apart, proper.placed⟩
    rw [same] at unnamed
    exact ⟨unnamed.amount, unnamed.owned, unnamed.asset, unnamed.apart, unnamed.placed⟩
  · exact audited.2 event (Dict.mem_values_of_get? held)

variable [Crypto]

omit [Crypto] in
omit [Crypto] in
theorem nameless_eq_of_sortKeys {found found' : BondPosition}
    (same : (bondFields found').sortKeys = (bondFields found).sortKeys) : found'.nameless = found.nameless := by
  have member := lookup_eq_of_sortKeys same
  have owner := member "owner"
  have asset := member "asset"
  have amount := member "amount"
  have unlockEpoch := member "unlock_epoch"
  have active := member "active"
  have unbonding := member "unbonding"
  simp [List.lookup_cons, Json.sortKeys] at owner asset amount unlockEpoch active unbonding
  simp [BondPosition.nameless, owner, asset, amount, unlockEpoch, active, unbonding]

omit [Crypto] in
/-- Members that are written from a dictionary can be looked up there. -/
theorem map_get?_of_sortKeys {α : Type} {d d' : Dict String α} {write : α → Json}
    (same : (Json.obj (d'.entries.map fun entry => (entry.1, write entry.2))).sortKeys =
      (Json.obj (d.entries.map fun entry => (entry.1, write entry.2))).sortKeys) (key : String) :
    (d'.get? key).map (fun a => (write a).sortKeys) = (d.get? key).map fun a => (write a).sortKeys := by
  have lookups := lookup_eq_of_sortKeys same key
  change ((d'.mapValues write).entries.lookup key).map Json.sortKeys = ((d.mapValues write).entries.lookup key).map Json.sortKeys
    at lookups
  rw [Dict.lookup_entries, Dict.lookup_entries, Dict.get?_mapValues, Dict.get?_mapValues, Option.map_map,
    Option.map_map] at lookups
  exact lookups

omit [Crypto] in
theorem texts_eq_of_sortKeys {items items' : List String}
    (same : (Json.list (items'.map .str)).sortKeys = (Json.list (items.map .str)).sortKeys) : items' = items :=
  items_eq_of_sortKeys (fun a b equal => by simpa [Json.sortKeys] using equal) same

omit [Crypto] in
theorem ints_eq_of_sortKeys {items items' : List Int}
    (same : (Json.list (items'.map .int)).sortKeys = (Json.list (items.map .int)).sortKeys) : items' = items :=
  items_eq_of_sortKeys (fun a b equal => by simpa [Json.sortKeys] using equal) same

/-- A root tells all of this. -/
theorem committed_of_stateRoot (free : CollisionFree) (same : l'.stateRoot = l.stateRoot) : l.Committed l' := by
  have member := lookup_eq_of_digest free same
  have asset := member "asset"
  have balances := member "balances"
  have bonds := member "bonds"
  have events := member "events"
  have evidence := member "slash_evidence_ids"
  have epochs := member "settled_reward_epochs"
  simp only [List.lookup_cons, String.reduceBEq, Option.map_some, Option.some.injEq]
    at asset balances bonds events evidence epochs
  refine ⟨?_, fun account => ?_, fun bondId => ?_, fun eventId => ?_, ?_, ?_⟩
  · simpa [Json.sortKeys] using asset
  · have same := map_get?_of_sortKeys balances account
    exact Option.map_injective (fun a b equal => by simpa [Json.sortKeys] using equal) same
  · have same := map_get?_of_sortKeys bonds bondId
    cases held' : l'.bonds.get? bondId with
    | none => simpa [held', eq_comm] using same
    | some found' =>
      rw [held'] at same
      obtain ⟨found, held, equal⟩ := Option.map_eq_some_iff.mp same.symm
      rw [held, Option.map_some, Option.map_some, nameless_eq_of_sortKeys equal.symm]
  · have same : sorted l'.events.keys = sorted l.events.keys := texts_eq_of_sortKeys events
    have members : eventId ∈ l'.events.keys ↔ eventId ∈ l.events.keys := by
      rw [← (sortedBy_perm id l'.events.keys).mem_iff, ← (sortedBy_perm id l.events.keys).mem_iff]
      change eventId ∈ sorted l'.events.keys ↔ eventId ∈ sorted l.events.keys
      rw [same]
    rw [Dict.get?_eq_none_iff, Dict.get?_eq_none_iff, members]
  · have same := congrArg List.toFinset (texts_eq_of_sortKeys evidence)
    rwa [Finset.sort_toFinset, Finset.sort_toFinset] at same
  · have same := congrArg List.toFinset (ints_eq_of_sortKeys epochs)
    rwa [Finset.sort_toFinset, Finset.sort_toFinset] at same

/-- And it tells nothing else. -/
theorem Committed.stateRoot (committed : l.Committed l') : l'.stateRoot = l.stateRoot := by
  have balances : sortFields (l'.balances.entries.map fun entry => (entry.1, Json.int entry.2)) =
      sortFields (l.balances.entries.map fun entry => (entry.1, Json.int entry.2)) := by
    refine sortFields_eq_of_perm ((Dict.entries_perm committed.balances).map _) ?_
    simpa only [List.map_map, Function.comp_def] using l'.balances.nodup
  have bonds : sortFields (l'.bonds.entries.map fun entry => (entry.1, bondFields entry.2)) =
      sortFields (l.bonds.entries.map fun entry => (entry.1, bondFields entry.2)) := by
    have same : ∀ bondId, (l'.bonds.mapValues BondPosition.nameless).get? bondId =
        (l.bonds.mapValues BondPosition.nameless).get? bondId := by
      simpa only [Dict.get?_mapValues] using committed.bonds
    have written : ∀ d : Dict String BondPosition, d.entries.map (fun entry => (entry.1, bondFields entry.2)) =
        (d.mapValues BondPosition.nameless).entries.map fun entry => (entry.1, bondFields entry.2) := by
      intro d
      simp only [Dict.mapValues, List.map_map, Function.comp_def]
      rfl
    rw [written l'.bonds, written l.bonds]
    refine sortFields_eq_of_perm ((Dict.entries_perm same).map _) ?_
    simpa only [List.map_map, Function.comp_def] using (l'.bonds.mapValues BondPosition.nameless).nodup
  have events : sorted l'.events.keys = sorted l.events.keys := by
    refine sorted_eq_of_perm ((List.perm_ext_iff_of_nodup l'.events.keys_nodup l.events.keys_nodup).mpr fun eventId => ?_)
    rw [← not_iff_not, ← Dict.get?_eq_none_iff, ← Dict.get?_eq_none_iff, committed.events]
  unfold SettlementLedger.stateRoot digest canonicalBytes
  simp only [Json.sortKeys, sortFields, balances, bonds, events, committed.slashEvidenceIds,
    committed.settledRewardEpochs, committed.asset]

/-- The ledgers also pay the same treasury and the same reporter rewards. -/
structure Interchangeable (l l' : SettlementLedger) : Prop extends l.Committed l' where
  treasury : l'.treasury = l.treasury
  reporterRewardBps : l'.reporterRewardBps = l.reporterRewardBps

omit [Crypto]

theorem Interchangeable.setBalance (both : l.Interchangeable l') (account : String) (amount : Int) :
    (l.setBalance account amount).Interchangeable (l'.setBalance account amount) :=
  { both with
    balances := fun other => by
      rw [setBalance_balances, setBalance_balances, Dict.get?_set, Dict.get?_set, both.balances] }

theorem Interchangeable.setPosition (both : l.Interchangeable l') {found found' : BondPosition}
    (same : found'.nameless = found.nameless) (bondId : String) :
    (l.setPosition found bondId).Interchangeable (l'.setPosition found' bondId) :=
  { both with
    bonds := fun other => by
      rw [setPosition_bonds, setPosition_bonds, Dict.get?_set, Dict.get?_set]
      split
      · rw [Option.map_some, Option.map_some, same]
      · exact both.bonds other }

theorem Interchangeable.dropPosition (both : l.Interchangeable l') (bondId : String) :
    (l.dropPosition bondId).Interchangeable (l'.dropPosition bondId) :=
  { both with
    bonds := fun other => by
      rw [dropPosition_bonds, dropPosition_bonds, Dict.get?_erase, Dict.get?_erase]
      split
      · rfl
      · exact both.bonds other }

theorem Interchangeable.addEvent (both : l.Interchangeable l') (event : SettlementEvent) :
    (l.addEvent event).Interchangeable (l'.addEvent event) :=
  { both with
    events := fun other => by
      rw [addEvent_events, addEvent_events, Dict.get?_set, Dict.get?_set]
      split
      · rfl
      · exact both.events other }

theorem Interchangeable.addEvidence (both : l.Interchangeable l') (evidenceId : String) :
    (l.addEvidence evidenceId).Interchangeable (l'.addEvidence evidenceId) :=
  { both with
    slashEvidenceIds := by rw [addEvidence_slashEvidenceIds, addEvidence_slashEvidenceIds, both.slashEvidenceIds] }

theorem Interchangeable.settleEpoch (both : l.Interchangeable l') (epoch : Int) :
    (l.settleEpoch epoch).Interchangeable (l'.settleEpoch epoch) :=
  { both with
    settledRewardEpochs := by
      rw [settleEpoch_settledRewardEpochs, settleEpoch_settledRewardEpochs, both.settledRewardEpochs] }

/-- A program ends in the same way on both ledgers, which stay interchangeable. -/
abbrev Same {α : Type} (Q : α → α → Prop) (x y : PyLedger α) (l l' : SettlementLedger) : Prop :=
  Unison Interchangeable Q x y l l'

theorem exists_name {found found' : BondPosition} (same : found'.nameless = found.nameless) :
    ∃ name, found' = { found with bondId := name } := by
  simp only [BondPosition.nameless, BondPosition.mk.injEq, true_and] at same
  obtain ⟨owner, asset, amount, unlockEpoch, active, unbonding⟩ := same
  refine ⟨found'.bondId, ?_⟩
  rw [← owner, ← asset, ← amount, ← unlockEpoch, ← active, ← unbonding]

theorem Interchangeable.position (both : l.Interchangeable l') (bondId : String) :
    Same (fun found found' => ∃ name, found' = { found with bondId := name }) (position bondId) (position bondId) l l' := by
  refine .get_bind ?_
  cases held : l.bonds.get? bondId with
  | none =>
    rw [both.no_position held]
    exact .throw _ both
  | some found =>
    obtain ⟨found', held', same⟩ := both.toCommitted.position held
    rw [held']
    exact .pure (exists_name same) both

theorem Interchangeable.credit (both : l.Interchangeable l') (account : String) (amount : Int) :
    Same Eq (credit account amount) (credit account amount) l l' := by
  refine .raiseIf_bind Iff.rfl both fun _ => .modify rfl ?_
  rw [both.balanceOf]
  exact both.setBalance _ _

theorem Interchangeable.debit (both : l.Interchangeable l') (account : String) (amount : Int) :
    Same Eq (debit account amount) (debit account amount) l l' := by
  refine .get_bind (.raiseIf_bind ?_ both fun _ => .modify rfl ?_)
  · rw [both.balanceOf]
  · rw [both.balanceOf]
    exact both.setBalance _ _

variable [Crypto]

omit [Crypto] in
/-- Of the configuration an event has the asset only. -/
theorem eventFor_asset [Crypto] {config config' : LedgerConfig} (same : config'.asset = config.asset) (kind : String)
    (epoch : Int) (account : String) (amount : Int) (relatedId : String) (metadata : List (String × String)) :
    eventFor config' kind epoch account amount relatedId metadata =
      eventFor config kind epoch account amount relatedId metadata := by
  simp only [eventFor, same]

theorem Interchangeable.recordEvent (both : l.Interchangeable l') (kind : String) (epoch : Int) (account : String)
    (amount : Int) (relatedId : String) (metadata : List (String × String)) :
    Same Eq (recordEvent kind epoch account amount relatedId metadata)
      (recordEvent kind epoch account amount relatedId metadata) l l' := by
  refine .get_bind ?_
  rw [eventFor_asset both.asset]
  refine .raiseIf_bind ?_ both fun _ => (Unison.modify rfl (both.addEvent _)).bind fun _ _ _ _ _ both => .pure rfl both
  rw [← not_iff_not, Bool.not_eq_true, Bool.not_eq_true, Dict.contains_eq_false, Dict.contains_eq_false, both.events]

theorem Interchangeable.fund (both : l.Interchangeable l') (account : String) (amount epoch : Int)
    (sourceId : Option String) :
    Same Eq (fund account amount epoch sourceId) (fund account amount epoch sourceId) l l' := by
  refine .raiseIf_bind Iff.rfl both fun _ => (both.recordEvent _ _ _ _ _ _).bind fun event _ _ _ same both => ?_
  subst same
  exact (both.credit account amount).bind fun _ _ _ _ _ both => .pure rfl both

theorem Interchangeable.bond (both : l.Interchangeable l') (b : StakeBond) (currentEpoch : Int) :
    Same Eq (bond b currentEpoch) (bond b currentEpoch) l l' := by
  refine .raiseIf_bind Iff.rfl both fun _ => .get_bind ?_
  refine .raiseIf_bind (by rw [both.asset]) both fun _ => .raiseIf_bind Iff.rfl both fun _ => ?_
  refine .raiseIf_bind ?_ both fun _ => (both.debit _ _).bind fun _ _ _ _ _ both => ?_
  · rw [← not_iff_not, Bool.not_eq_true, Bool.not_eq_true, Dict.contains_eq_false, Dict.contains_eq_false,
      ← Option.map_eq_none_iff, ← both.bonds, Option.map_eq_none_iff]
  · exact (Unison.modify rfl (both.setPosition (by rfl) _)).bind fun _ _ _ _ _ both => both.recordEvent _ _ _ _ _ _

theorem Interchangeable.requestUnbond (both : l.Interchangeable l') (bondId : String) (currentEpoch delay : Int) :
    Same Eq (requestUnbond bondId currentEpoch delay) (requestUnbond bondId currentEpoch delay) l l' := by
  refine (both.position bondId).bind fun found found' _ _ same both => ?_
  obtain ⟨name, rfl⟩ := same
  refine .raiseIf_bind Iff.rfl both fun _ => ?_
  exact (Unison.modify rfl (both.setPosition (by rfl) _)).bind fun _ _ _ _ _ both => both.recordEvent _ _ _ _ _ _

theorem Interchangeable.withdraw (both : l.Interchangeable l') (bondId : String) (currentEpoch : Int) :
    Same Eq (withdraw bondId currentEpoch) (withdraw bondId currentEpoch) l l' := by
  refine (both.position bondId).bind fun found found' _ _ same both => ?_
  obtain ⟨name, rfl⟩ := same
  refine .raiseIf_bind Iff.rfl both fun _ => .raiseIf_bind Iff.rfl both fun _ => ?_
  refine (Unison.modify rfl (both.dropPosition bondId)).bind fun _ _ _ _ _ both => ?_
  exact (both.credit _ _).bind fun _ _ _ _ _ both => both.recordEvent _ _ _ _ _ _

omit [Crypto] in
theorem reporterShare_congr {config config' : LedgerConfig} (same : config'.reporterRewardBps = config.reporterRewardBps)
    (penalty : Int) (reporter : Option String) :
    reporterShare config' penalty reporter = reporterShare config penalty reporter := by
  simp only [reporterShare, same]

theorem Interchangeable.slash (both : l.Interchangeable l') (bondId : String) (amount epoch : Int) (evidenceId : String)
    (reporter : Option String) :
    Same Eq (slash bondId amount epoch evidenceId reporter) (slash bondId amount epoch evidenceId reporter) l l' := by
  refine .raiseIf_bind Iff.rfl both fun _ => .get_bind ?_
  refine .raiseIf_bind (by rw [both.slashEvidenceIds]) both fun _ => ?_
  have treasury := both.treasury
  have share := reporterShare_congr both.reporterRewardBps
  refine (both.position bondId).bind fun found found' _ _ same both => ?_
  obtain ⟨name, rfl⟩ := same
  dsimp only
  rw [share, treasury]
  refine (Unison.modify rfl (both.addEvidence evidenceId)).bind fun _ _ _ _ _ both => ?_
  refine (Unison.modify rfl (both.setPosition (by rfl) bondId)).bind fun _ _ _ _ _ both => ?_
  refine (both.recordEvent _ _ _ _ _ _).bind fun event _ _ _ same both => ?_
  subst same
  refine (both.credit _ _).bind fun _ _ _ _ _ both => ?_
  split
  · refine (both.credit _ _).bind fun _ _ _ _ _ both => (both.recordEvent _ _ _ _ _ _).bind fun _ _ _ _ same both => ?_
    exact .pure (by rw [same]) both
  · exact .pure rfl both

theorem Interchangeable.chargeFee (both : l.Interchangeable l') (payer : String) (amount epoch : Int) (txId : String) :
    Same Eq (chargeFee payer amount epoch txId) (chargeFee payer amount epoch txId) l l' := by
  refine .raiseIf_bind Iff.rfl both fun _ => (both.debit _ _).bind fun _ _ _ _ _ both => .get_bind ?_
  rw [both.treasury]
  exact (both.credit _ _).bind fun _ _ _ _ _ both => both.recordEvent _ _ _ _ _ _

theorem Interchangeable.rewardFrom (both : l.Interchangeable l') (epoch total totalWeight distributed : Int)
    (entries : List (String × Int)) :
    Same Eq (rewardFrom epoch total totalWeight distributed entries)
      (rewardFrom epoch total totalWeight distributed entries) l l' := by
  induction entries generalizing l l' distributed with
  | nil => exact .pure rfl both
  | cons entry entries ih =>
    refine (both.position entry.1).bind fun found found' _ _ same both => ?_
    obtain ⟨name, rfl⟩ := same
    refine (both.credit _ _).bind fun _ _ _ _ _ both => (both.recordEvent _ _ _ _ _ _).bind fun event _ _ _ same both => ?_
    subst same
    refine (ih both _).bind fun events _ _ _ same both => ?_
    subst same
    exact .pure rfl both

theorem Interchangeable.distributeRewards (both : l.Interchangeable l') (epoch total : Int) (weights : Dict String Int) :
    Same Eq (distributeRewards epoch total weights) (distributeRewards epoch total weights) l l' := by
  refine .get_bind (.raiseIf_bind (by rw [both.settledRewardEpochs]) both fun _ => .raiseIf_bind Iff.rfl both fun _ => ?_)
  rw [both.treasury]
  refine (both.debit _ _).bind fun _ _ _ _ _ both => (both.rewardFrom _ _ _ _ _).bind fun events _ _ _ same both => ?_
  subst same
  exact (Unison.modify rfl (both.settleEpoch epoch)).bind fun _ _ _ _ _ both => .pure rfl both

theorem Interchangeable.run (both : l.Interchangeable l') (call : SettlementCall) : Same Eq call.run call.run l l' := by
  have single : ∀ {x : PyLedger SettlementEvent}, Same Eq x x l l' → Same Eq (([·]) <$> x) (([·]) <$> x) l l' :=
    fun same => same.map fun _ _ equal => by rw [equal]
  cases call with
  | fund account amount epoch sourceId => exact single (both.fund account amount epoch sourceId)
  | bond b currentEpoch => exact single (both.bond b currentEpoch)
  | requestUnbond bondId currentEpoch delay => exact single (both.requestUnbond bondId currentEpoch delay)
  | withdraw bondId currentEpoch => exact single (both.withdraw bondId currentEpoch)
  | slash bondId amount epoch evidenceId reporter => exact both.slash bondId amount epoch evidenceId reporter
  | chargeFee payer amount epoch txId => exact single (both.chargeFee payer amount epoch txId)
  | distributeRewards epoch total weights => exact both.distributeRewards epoch total weights

end SettlementLedger

section Behaviour
variable [Crypto]

/-- What the caller gets: the events, or the exception. -/
def SettlementCall.answer (call : SettlementCall) (s : SettlementLedger) : Except EconomyError (List SettlementEvent) :=
  match call.run s with
  | .ok events _ => .ok events
  | .error e _ => .error e

/-- The answers to the calls and the root after each. A call that raises does
not end the sequence. -/
def SettlementCall.trace : List SettlementCall → SettlementLedger → List (Except EconomyError (List SettlementEvent) × String)
  | [], _ => []
  | call :: calls, s => (call.answer s, (call.exec s).stateRoot) :: trace calls (call.exec s)

/-- Every sequence of calls has the same answers and roots on both. -/
structure SettlementLedger.Behaves (l l' : SettlementLedger) : Prop where
  stateRoot : l'.stateRoot = l.stateRoot
  trace : ∀ calls, SettlementCall.trace calls l' = SettlementCall.trace calls l

theorem SettlementCall.answer_of_ok {call : SettlementCall} {s t : SettlementLedger} {events : List SettlementEvent}
    (run : call.run s = .ok events t) : call.answer s = .ok events := by rw [answer, run]

theorem SettlementCall.answer_of_error {call : SettlementCall} {s t : SettlementLedger} {e : EconomyError}
    (run : call.run s = .error e t) : call.answer s = .error e := by rw [answer, run]

namespace SettlementLedger

variable {l l' s : SettlementLedger}

theorem Interchangeable.step (both : l.Interchangeable l') (call : SettlementCall) :
    call.answer l' = call.answer l ∧ (call.exec l).Interchangeable (call.exec l') := by
  cases both.run call with
  | returned run run' post ends =>
    rw [SettlementCall.answer_of_ok run, SettlementCall.answer_of_ok run', SettlementCall.exec, SettlementCall.exec,
      final_of_ok run, final_of_ok run', post]
    exact ⟨rfl, ends⟩
  | raised run run' ends =>
    rw [SettlementCall.answer_of_error run, SettlementCall.answer_of_error run', SettlementCall.exec, SettlementCall.exec,
      final_of_error run, final_of_error run']
    exact ⟨rfl, ends⟩

theorem Interchangeable.behaves (both : l.Interchangeable l') : l.Behaves l' := by
  refine ⟨both.stateRoot, fun calls => ?_⟩
  induction calls generalizing l l' with
  | nil => rfl
  | cons call calls ih =>
    obtain ⟨answer, after⟩ := both.step call
    simp only [SettlementCall.trace, answer, after.stateRoot, ih after]

/-- At this epoch only events of these kinds are recorded. -/
def Unused (s : SettlementLedger) (epoch : Int) (used : List String) : Prop :=
  ∀ kind ∉ used, ∀ account amount relatedId metadata,
    ¬ s.Recorded (eventFor s.toLedgerConfig kind epoch account amount relatedId metadata)

/-- An event is of one epoch, so some epoch has none. -/
theorem exists_unused (free : CollisionFree) (s : SettlementLedger) : ∃ epoch : ℕ, s.Unused epoch [] := by
  by_contra none
  have full : ∀ epoch : ℕ, ∃ kind account amount relatedId metadata,
      s.Recorded (eventFor s.toLedgerConfig kind epoch account amount relatedId metadata) := by
    intro epoch
    by_contra empty
    refine none ⟨epoch, fun kind _ account amount relatedId metadata recorded => empty ?_⟩
    exact ⟨kind, account, amount, relatedId, metadata, recorded⟩
  choose kind account amount relatedId metadata recorded using full
  let name (epoch : ℕ) : {eventId // eventId ∈ s.events.keys.toFinset} :=
    ⟨(eventFor s.toLedgerConfig (kind epoch) epoch (account epoch) (amount epoch) (relatedId epoch) (metadata epoch)).eventId,
      by
        rw [List.mem_toFinset]
        by_contra missing
        exact recorded epoch (Dict.get?_eq_none_iff.mpr missing)⟩
  refine not_injective_infinite_finite name fun epoch epoch' same => ?_
  exact Int.natCast_inj.mp (eventFor_inj free (Subtype.ext_iff.mp same)).2.1

theorem Unused.addEvent (free : CollisionFree) {epoch : Int} {used : List String} (unused : s.Unused epoch used)
    (kind account : String) (amount : Int) (relatedId : String) (metadata : List (String × String)) :
    (s.addEvent (eventFor s.toLedgerConfig kind epoch account amount relatedId metadata)).Unused epoch (kind :: used) := by
  intro kind' other account' amount' relatedId' metadata' recorded
  obtain ⟨different, new⟩ := not_or.mp (List.mem_cons.not.mp other)
  rcases (recorded_addEvent _ _ _).mp recorded with same | old
  · exact different (eventFor_inj free same).1.symm
  · exact unused kind' new account' amount' relatedId' metadata' old

/-- A fee of one that was funded before: the treasury gets it. -/
theorem fee_balances (free : CollisionFree) {epoch : Int} (unused : s.Unused epoch []) {account : String}
    (named : account ≠ "") (poor : s.balanceOf account = 0) (other : String) :
    ((SettlementCall.chargeFee account 1 epoch "tx").exec
      ((SettlementCall.fund account 1 epoch (some "source")).exec s)).balanceOf other =
        s.balanceOf other + if s.treasury = other then 1 else 0 := by
  have fundable : Fundable account 1 := ⟨by decide, named⟩
  have new := unused "FUND" (List.not_mem_nil) account 1 "source" [("source", "external")]
  have unusedIds := unused.addEvent free "FUND" account 1 "source" [("source", "external")]
  have funded : (SettlementCall.fund account 1 epoch (some "source")).exec s =
      (s.addEvent (s.fundEvent account 1 epoch (some "source"))).credited account 1 :=
    final_of_ok (single_ok (fund_ok fundable new))
  rw [funded]
  generalize reached : (s.addEvent (s.fundEvent account 1 epoch (some "source"))).credited account 1 = u
  have balance : ∀ other, u.balanceOf other = s.balanceOf other + if account = other then 1 else 0 := by
    intro other
    rw [← reached, balanceOf_credited, balanceOf_addEvent]
  have treasury : u.treasury = s.treasury := by rw [← reached]; rfl
  have payable : u.Payable account 1 "tx" := ⟨by decide, by decide, by rw [balance, poor, if_pos rfl]; decide⟩
  have new' : ¬ u.Recorded (u.feeEvent account 1 epoch "tx") := by
    rw [← reached]
    exact unusedIds "FEE" (by decide) account 1 "tx" []
  have charged : (SettlementCall.chargeFee account 1 epoch "tx").exec u =
      (u.charged account 1).addEvent (u.feeEvent account 1 epoch "tx") :=
    final_of_ok (single_ok ((chargeFee_concludes u account 1 epoch "tx").ok payable new'))
  rw [charged, balanceOf_addEvent, SettlementLedger.charged, balanceOf_credited, balanceOf_credited, balance, treasury]
  split <;> omega

omit [Crypto] in
theorem exists_poor (s : SettlementLedger) : ∃ account, account ≠ "" ∧ s.balanceOf account = 0 := by
  obtain ⟨account, other⟩ := Infinite.exists_notMem_finset (insert "" s.balances.keys.toFinset)
  obtain ⟨named, missing⟩ := not_or.mp (Finset.mem_insert.not.mp other)
  rw [List.mem_toFinset, ← Dict.get?_eq_none_iff] at missing
  exact ⟨account, named, by rw [SettlementLedger.balanceOf, missing, Option.getD_none]⟩

theorem Unused.committed (committed : l.Committed l') {epoch : Int} {used : List String} (unused : l.Unused epoch used) :
    l'.Unused epoch used := by
  intro kind other account amount relatedId metadata recorded
  rw [eventFor_asset committed.asset] at recorded
  exact unused kind other account amount relatedId metadata fun none => recorded ((committed.events _).mpr none)

theorem Behaves.treasury (free : CollisionFree) (behaves : l.Behaves l') : l'.treasury = l.treasury := by
  have committed := committed_of_stateRoot free behaves.stateRoot
  obtain ⟨epoch, unused⟩ := exists_unused free l
  obtain ⟨account, named, poor⟩ := l.exists_poor
  have same := behaves.trace [.fund account 1 epoch (some "source"), .chargeFee account 1 epoch "tx"]
  simp only [SettlementCall.trace, List.cons.injEq, Prod.mk.injEq] at same
  have balances := (committed_of_stateRoot free same.2.1.2).balanceOf l.treasury
  rw [fee_balances free unused named poor, fee_balances free (unused.committed committed) named
    ((committed.balanceOf account).trans poor), committed.balanceOf, if_pos rfl] at balances
  by_contra other
  rw [if_neg other] at balances
  omega

/-- A bond that a key signs for some owner. -/
def signedBond (pair : KeyPair) (bondId owner : String) (amount : Int) (asset : String) : StakeBond :=
  let unsigned : StakeBond := {
    bondId, owner
    ownerPublicKey := pair.publicKey
    amount, asset
    activationEpoch := 0
    unlockEpoch := 0
    ownerSignature := [] }
  { unsigned with ownerSignature := pair.sign (canonicalBytes unsigned.statement) }

theorem signedBond_verify (verifies : SignaturesVerify) (pair : KeyPair) (bondId owner asset : String) {amount : Int}
    (positive : 0 < amount) : (signedBond pair bondId owner amount asset).verify = true := by
  have signed := verifies pair.privateKey (canonicalBytes (signedBond pair bondId owner amount asset).statement)
  simp only [StakeBond.verify, Bool.and_eq_true, decide_eq_true_eq]
  exact ⟨⟨⟨positive, le_rfl⟩, le_rfl⟩, signed⟩

/-- The ledger before the slash: the bond is there, and only its events are of
this epoch. -/
structure Slashing (s v : SettlementLedger) (b : StakeBond) (epoch : Int) : Prop where
  config : v.toLedgerConfig = s.toLedgerConfig
  held : v.bonds.get? b.bondId = some (bondedPosition b)
  evidence : v.slashEvidenceIds = s.slashEvidenceIds
  unused : v.Unused epoch ["BOND", "FUND"]
  sound : v.Sound

theorem slashing (free : CollisionFree) (sound : s.Sound) {epoch : ℕ} (unused : s.Unused epoch []) {b : StakeBond}
    (verified : b.verify = true) (asset : b.asset = s.asset) (arrived : b.activationEpoch = 0) (named : b.owner ≠ "")
    (absent : s.bonds.get? b.bondId = none) :
    s.Slashing ((SettlementCall.bond b epoch).exec
      ((SettlementCall.fund b.owner b.amount epoch (some "source")).exec s)) b epoch := by
  have sound' := (sound.exec (.fund b.owner b.amount epoch (some "source"))).exec (.bond b epoch)
  have fundable : Fundable b.owner b.amount := ⟨amount_pos_of_verify verified, named⟩
  have new := unused "FUND" List.not_mem_nil b.owner b.amount "source" [("source", "external")]
  have funded : (SettlementCall.fund b.owner b.amount epoch (some "source")).exec s =
      (s.addEvent (s.fundEvent b.owner b.amount epoch (some "source"))).credited b.owner b.amount :=
    final_of_ok (single_ok (fund_ok fundable new))
  rw [funded] at sound' ⊢
  have unusedIds : ((s.addEvent (s.fundEvent b.owner b.amount epoch (some "source"))).credited b.owner b.amount).Unused epoch
      ["FUND"] := unused.addEvent free "FUND" b.owner b.amount "source" [("source", "external")]
  have config : ((s.addEvent (s.fundEvent b.owner b.amount epoch (some "source"))).credited b.owner b.amount).toLedgerConfig =
      s.toLedgerConfig := rfl
  have bonds : ((s.addEvent (s.fundEvent b.owner b.amount epoch (some "source"))).credited b.owner b.amount).bonds =
      s.bonds := rfl
  have evidence : ((s.addEvent (s.fundEvent b.owner b.amount epoch (some "source"))).credited b.owner
      b.amount).slashEvidenceIds = s.slashEvidenceIds := rfl
  have enough : b.amount ≤ ((s.addEvent (s.fundEvent b.owner b.amount epoch (some "source"))).credited b.owner
      b.amount).balanceOf b.owner := by
    have natural := sound.balanceOf b.owner
    rw [balanceOf_credited, balanceOf_addEvent, if_pos rfl]
    omega
  generalize (s.addEvent (s.fundEvent b.owner b.amount epoch (some "source"))).credited b.owner b.amount = u at *
  have bondable : u.Bondable b epoch :=
    ⟨verified, by rw [config, asset], by rw [arrived]; exact Int.natCast_nonneg epoch, by rw [bonds, absent], enough⟩
  have locked : (SettlementCall.bond b epoch).exec u = (u.bonded b).addEvent (u.bondEvent b epoch) :=
    final_of_ok (single_ok ((bond_concludes u b epoch).ok bondable (unusedIds "BOND" (by decide) _ _ _ _)))
  rw [locked] at sound' ⊢
  exact ⟨config, Dict.get?_set_self _ _ _, evidence, unusedIds.addEvent free "BOND" b.owner b.amount b.bondId [], sound'⟩

/-- The amounts of the events show the reward. -/
theorem Slashing.answer (free : CollisionFree) {v : SettlementLedger} {b : StakeBond} {epoch : ℕ}
    (slashing : s.Slashing v b epoch) (amount : b.amount = 10000) {evidenceId : String} (named : evidenceId ≠ "")
    (new : evidenceId ∉ s.slashEvidenceIds) :
    ∃ events, (SettlementCall.slash b.bondId 10000 epoch evidenceId (some "reporter")).answer v = .ok events ∧
      events.map SettlementEvent.amount = if s.reporterRewardBps = 0 then [10000] else [10000, s.reporterRewardBps] := by
  have able : v.Slashable b.bondId (bondedPosition b) 10000 evidenceId :=
    ⟨by decide, named, slashing.evidence ▸ new, slashing.held⟩
  have share : ∀ {found : BondPosition} {penalty : Int}, v.Slashable b.bondId found 10000 evidenceId →
      penalty = min 10000 found.amount → penalty = 10000 ∧
        reporterShare v.toLedgerConfig penalty (some "reporter") = s.reporterRewardBps := by
    intro found penalty admitted least
    cases slashing.held.symm.trans admitted.held
    have whole : penalty = 10000 := by rw [least, bondedPosition, amount]; rfl
    refine ⟨whole, ?_⟩
    rw [whole, slashing.config, reporterShare, if_neg (by decide), Int.mul_ediv_cancel_left _ (by decide)]
  cases slash_cases slashing.sound b.bondId 10000 epoch evidenceId (some "reporter") with
  | refused refused _ => exact absurd able (refused _)
  | stopped _ _ _ blocked _ _ _ =>
    rcases blocked with recorded | ⟨-, recorded⟩
    · exact absurd recorded (slashing.unused "SLASH" (by decide) _ _ _ _)
    · exact absurd recorded (slashing.unused.addEvent free "SLASH" _ _ _ _ "REPORTER_REWARD" (by decide) _ _ _ _)
  | returned admitted least reward nothing _ run =>
    obtain ⟨whole, bps⟩ := share admitted least
    refine ⟨_, SettlementCall.answer_of_ok run, ?_⟩
    rw [if_pos (bps.symm.trans (reward.symm.trans nothing)), ← whole]
    rfl
  | rewarded admitted least reward something _ run =>
    obtain ⟨whole, bps⟩ := share admitted least
    refine ⟨_, SettlementCall.answer_of_ok run, ?_⟩
    rw [if_neg (fun none => something (reward.trans (bps.trans none))), ← whole, ← bps, ← reward]
    rfl

theorem Behaves.reporterRewardBps (free : CollisionFree) (verifies : SignaturesVerify) (pair : KeyPair) (sound : l.Sound)
    (sound' : l'.Sound) (behaves : l.Behaves l') : l'.reporterRewardBps = l.reporterRewardBps := by
  have committed := committed_of_stateRoot free behaves.stateRoot
  obtain ⟨epoch, unused⟩ := exists_unused free l
  obtain ⟨bondId, absent⟩ := Infinite.exists_notMem_finset l.bonds.keys.toFinset
  rw [List.mem_toFinset, ← Dict.get?_eq_none_iff] at absent
  obtain ⟨evidenceId, other⟩ := Infinite.exists_notMem_finset (insert "" l.slashEvidenceIds)
  obtain ⟨named, new⟩ := not_or.mp (Finset.mem_insert.not.mp other)
  have verified := signedBond_verify verifies pair bondId "owner" l.asset (by decide : (0 : Int) < 10000)
  have owner : (signedBond pair bondId "owner" 10000 l.asset).owner ≠ "" := by
    change "owner" ≠ ""
    decide
  obtain ⟨events, answer, amounts⟩ := (slashing free sound unused verified rfl rfl owner absent).answer free rfl named new
  obtain ⟨events', answer', amounts'⟩ := (slashing free sound' (unused.committed committed) verified committed.asset.symm rfl
    owner (committed.no_position absent)).answer free rfl named (committed.slashEvidenceIds ▸ new)
  have same := behaves.trace [.fund "owner" 10000 epoch (some "source"),
    .bond (signedBond pair bondId "owner" 10000 l.asset) epoch, .slash bondId 10000 epoch evidenceId (some "reporter")]
  simp only [SettlementCall.trace, List.cons.injEq, Prod.mk.injEq] at same
  have equal := answer'.symm.trans (same.2.2.1.1.trans answer)
  cases equal
  rw [amounts] at amounts'
  split at amounts' <;> split at amounts' <;> simp_all

/-- Two ledgers behave alike exactly when they have one root, pay one treasury
and give the reporters the same reward. -/
theorem behaves_iff (free : CollisionFree) (verifies : SignaturesVerify) (pair : KeyPair) (sound : l.Sound)
    (sound' : l'.Sound) : l.Behaves l' ↔
      l'.stateRoot = l.stateRoot ∧ l'.treasury = l.treasury ∧ l'.reporterRewardBps = l.reporterRewardBps := by
  constructor
  · intro behaves
    exact ⟨behaves.stateRoot, behaves.treasury free, behaves.reporterRewardBps free verifies pair sound sound'⟩
  · rintro ⟨root, treasury, reward⟩
    exact Interchangeable.behaves { committed_of_stateRoot free root with treasury := treasury, reporterRewardBps := reward }

omit [Crypto] in
/-- The treasury and the reward of a ledger that is read are those of its payload. -/
theorem config_of_payload {ints : IntReading} {payload : Json} (made : ofPayload ints payload = .ok s) :
    payload.member "treasury" = .ok (.str s.treasury) ∧
      field "reporter_reward_bps" ints.read payload = .ok s.reporterRewardBps := by
  obtain ⟨_, _, described⟩ := ofPayload_eq_ok.mp made
  obtain ⟨asset, treasury, -, atTreasury, bps, atBps, config⟩ := described.config
  obtain ⟨rfl, rfl⟩ := configOf_eq_ok config
  exact ⟨atTreasury, atBps⟩

end SettlementLedger

open SettlementLedger in
/-- Two ledgers with one root behave alike exactly when they also have the same
treasury and reporter reward. A ledger that is restored behaves as the one that
was persisted exactly when its root, its treasury and its reporter reward were
not altered. -/
theorem root_commits_iff (free : CollisionFree) (verifies : SignaturesVerify) (pair : KeyPair) :
    (∀ {config config' : LedgerConfig} {l l' : SettlementLedger}, SettlementCall.Reached config l →
      SettlementCall.Reached config' l' → l'.stateRoot = l.stateRoot →
        (l.Behaves l' ↔ l'.treasury = l.treasury ∧ l'.reporterRewardBps = l.reporterRewardBps)) ∧
    ∀ {config : LedgerConfig} {l : SettlementLedger}, SettlementCall.Reached config l →
      ∀ {σ : Type} (store : JsonStore σ) (ints : IntReading) (rows : σ) (payload : Json),
        store.get "settlement_state" "ledger" rows = some payload → ∀ l', store.fromStore ints rows = .ok l' →
          (l.Behaves l' ↔ payload.member "state_root" = .ok (.str l.stateRoot) ∧
            payload.member "treasury" = .ok (.str l.treasury) ∧
            field "reporter_reward_bps" ints.read payload = .ok l.reporterRewardBps) := by
  constructor
  · intro config config' l l' reached reached' root
    rw [behaves_iff free verifies pair (sound_of_reached reached) (sound_of_reached reached'), root]
    exact and_iff_right rfl
  · intro config l reached σ store ints rows payload got l' restored
    obtain ⟨payload', got', made, audited, atRoot⟩ := JsonStore.fromStore_eq_ok.mp restored
    cases got.symm.trans got'
    obtain ⟨atTreasury, atBps⟩ := config_of_payload made
    rw [atRoot, atTreasury, atBps, Except.ok.injEq, Json.str.injEq, Except.ok.injEq, Json.str.injEq, Except.ok.injEq]
    constructor
    · intro behaves
      have sound' := (committed_of_stateRoot free behaves.stateRoot).sound (sound_of_reached reached) audited
      exact (behaves_iff free verifies pair (sound_of_reached reached) sound').mp behaves
    · intro same
      have sound' := (committed_of_stateRoot free same.1).sound (sound_of_reached reached) audited
      exact (behaves_iff free verifies pair (sound_of_reached reached) sound').mpr same

section Diverted

/-- The plain ledger with another treasury. -/
def divertedLedger : LedgerConfig where
  treasury := "thief"
  assetNamed := plainLedger.assetNamed
  treasuryNamed := by decide
  share := plainLedger.share

omit [Crypto] in
theorem diverted_committed : (SettlementLedger.fresh plainLedger).Committed (.fresh divertedLedger) :=
  ⟨rfl, fun _ => rfl, fun _ => rfl, fun _ => Iff.rfl, rfl, rfl⟩

theorem diverted_differs (free : CollisionFree) {l : SettlementLedger} (treasury : l.treasury = "thief") :
    ¬ (SettlementLedger.fresh plainLedger).Behaves l := by
  intro behaves
  have same := behaves.treasury free
  rw [treasury] at same
  exact absurd same (by decide)

omit [Crypto] in
/-- One root and two treasuries; and the treasury is replaced in the store. -/
theorem treasury_not_committed : let _ := Crypto.ideal
    (¬ ∀ (config config' : LedgerConfig) (l l' : SettlementLedger), SettlementCall.Reached config l →
      SettlementCall.Reached config' l' → l'.stateRoot = l.stateRoot → l.Behaves l') ∧
    ¬ ∀ (config : LedgerConfig) (l : SettlementLedger), SettlementCall.Reached config l → ∀ rows payload,
      tableStore.get "settlement_state" "ledger" rows = some payload →
        payload.member "state_root" = .ok (.str l.stateRoot) → ∀ restored, tableStore.fromStore plainInts rows = .ok restored →
          l.Behaves restored := by
  intro _
  have root := diverted_committed.stateRoot
  constructor
  · intro claim
    exact diverted_differs ideal_collisionFree rfl (claim plainLedger divertedLedger _ _ .refl .refl root)
  · intro claim
    obtain ⟨restored, back, alike⟩ := JsonStore.fromStore_persist (SettlementLedger.fresh_sound divertedLedger) tableStore
      plainInts .empty
    have treasury : restored.treasury = "thief" := congrArg LedgerConfig.treasury alike.config
    have got : tableStore.get "settlement_state" "ledger" (tableStore.persist (.fresh divertedLedger) .empty) =
        some (SettlementLedger.fresh divertedLedger).toDict := Dict.get?_set_self .empty ("settlement_state", "ledger") _
    refine diverted_differs ideal_collisionFree treasury (claim plainLedger _ .refl _ _ got ?_ restored back)
    rw [← root]
    rfl

open SettlementLedger in
omit [Crypto] in
/-- A ledger with a coin and the one that is restored from it behave alike; one with
another treasury does not. -/
theorem root_commits_restored : let _ := Crypto.ideal
    (∃ l restored : SettlementLedger, l.balanceOf "a" = 10 ∧
      tableStore.fromStore plainInts (tableStore.persist l .empty) = .ok restored ∧ l.Behaves restored) ∧
    ¬ (SettlementLedger.fresh plainLedger).Behaves (.fresh divertedLedger) := by
  intro _
  obtain ⟨roots, stores⟩ := root_commits_iff ideal_collisionFree ideal_signaturesVerify idealKey
  constructor
  · have reached : SettlementCall.Reached plainLedger (fundedLedger plainLedger "a" 10) :=
      fundedLedger_reached (by simp [Fundable])
    have got : tableStore.get "settlement_state" "ledger" (tableStore.persist (fundedLedger plainLedger "a" 10) .empty) =
        some (fundedLedger plainLedger "a" 10).toDict := Dict.get?_set_self .empty ("settlement_state", "ledger") _
    obtain ⟨restored, back, -⟩ := JsonStore.fromStore_persist (sound_of_reached reached) tableStore plainInts .empty
    exact ⟨_, restored, fundedLedger_balance, back, (stores reached tableStore plainInts _ _ got restored back).mpr
      ⟨rfl, rfl, plainInts.read_int _⟩⟩
  · intro behaves
    have same := ((roots .refl .refl diverted_committed.stateRoot).mp behaves).1
    exact absurd same (by decide)

end Diverted

end Behaviour

end Mosaic
