import Mosaic.AdmissionOrder
import Mosaic.Lib.JsonReading

namespace Mosaic
open CanonicalJson Effects

/-- A store of JSON values. What it gives back is equal to what was put, where
an object may have its members in another order. -/
structure JsonStore (σ : Type) where
  put : String → String → Json → σ → σ
  get : String → String → σ → Option Json
  get_put : ∀ kind key payload rows, ∃ returned, get kind key (put kind key payload rows) = some returned ∧
    returned.sortKeys = payload.sortKeys

inductive LedgerFault
  | settlementError (message : String)
  | unicodeEncodeError
  | reading (error : ReadError)

namespace SettlementLedger

def positionDict (item : BondPosition) : Json := .obj [
  ("bond_id", .str item.bondId),
  ("owner", .str item.owner),
  ("asset", .str item.asset),
  ("amount", .int item.amount),
  ("unlock_epoch", .int item.unlockEpoch),
  ("active", .bool item.active),
  ("unbonding", .bool item.unbonding)]

def pairList (entry : String × String) : Json := .list ([entry.1, entry.2].map .str)

def eventDict (item : SettlementEvent) : Json := .obj [
  ("event_id", .str item.eventId),
  ("kind", .str item.kind),
  ("epoch", .int item.epoch),
  ("account", .str item.account),
  ("amount", .int item.amount),
  ("asset", .str item.asset),
  ("related_id", .str item.relatedId),
  ("metadata", .list (item.metadata.map pairList))]

/-- What `to_dict` returns when this is the state root. -/
def rooted (s : SettlementLedger) (stateRoot : String) : Json := .obj [
  ("protocol", .str "MOSAIC/SETTLEMENT-STATE/v1"),
  ("asset", .str s.asset),
  ("treasury", .str s.treasury),
  ("reporter_reward_bps", .int s.reporterRewardBps),
  ("balances", .obj (s.balances.entries.map fun entry => (entry.1, .int entry.2))),
  ("bonds", .obj (s.bonds.entries.map fun entry => (entry.1, positionDict entry.2))),
  ("events", .obj (s.events.entries.map fun entry => (entry.1, eventDict entry.2))),
  ("slash_evidence_ids", .list ((inOrder s.slashEvidenceIds).map .str)),
  ("settled_reward_epochs", .list ((inOrder s.settledRewardEpochs).map .int)),
  ("state_root", .str stateRoot)]

def toDict [Crypto] (s : SettlementLedger) : Json := s.rooted s.stateRoot

/-- `BondPosition(...)`. -/
def positionOf (ints : IntReading) (value : Json) : Except ReadError BondPosition := do
  let bondId ← field "bond_id" Json.text value
  let owner ← field "owner" Json.text value
  let asset ← field "asset" Json.text value
  let amount ← field "amount" ints.read value
  let unlockEpoch ← field "unlock_epoch" ints.read value
  let active ← field "active" (fun v => .ok v.truthy) value
  let unbonding ← field "unbonding" (fun v => .ok v.truthy) value
  return { bondId, owner, asset, amount, unlockEpoch, active, unbonding }

/-- `tuple(item)`, which is to have two texts. -/
def pairOf (item : Json) : Except ReadError (String × String) :=
  listOf Json.text item >>= fun items =>
    match items with
    | [key, value] => .ok (key, value)
    | _ => .error .untyped

/-- `SettlementEvent(...)`. -/
def eventOf (ints : IntReading) (value : Json) : Except ReadError SettlementEvent := do
  let eventId ← field "event_id" Json.text value
  let kind ← field "kind" Json.text value
  let epoch ← field "epoch" ints.read value
  let account ← field "account" Json.text value
  let amount ← field "amount" ints.read value
  let asset ← field "asset" Json.text value
  let relatedId ← field "related_id" Json.text value
  let metadata ← value.get "metadata" (.list []) >>= listOf pairOf
  return { eventId, kind, epoch, account, amount, asset, relatedId, metadata }

theorem named_of_truthy {name : String} (given : (Json.str name).truthy = true) : name ≠ "" := by
  simpa [Json.truthy] using given

/-- `__init__`. -/
def configOf (asset treasury : Json) (reporterRewardBps : Int) : Except LedgerFault LedgerConfig :=
  if given : asset.truthy = true ∧ treasury.truthy = true then
    if share : 0 ≤ reporterRewardBps ∧ reporterRewardBps ≤ 10000 then
      match asset, treasury, given with
      | .str asset, .str treasury, given => .ok {
        asset, treasury, reporterRewardBps
        assetNamed := named_of_truthy given.1
        treasuryNamed := named_of_truthy given.2
        share }
      | _, _, _ => .error (.reading .untyped)
    else .error (.settlementError "reporter reward must be between 0 and 10000 bps")
  else .error (.settlementError "asset and treasury are required")

/-- The ledger that the payload describes. -/
def ofPayload (ints : IntReading) (payload : Json) : Except LedgerFault SettlementLedger := do
  let asset ← (payload.member "asset").mapError .reading
  let treasury ← (payload.member "treasury").mapError .reading
  let reporterRewardBps ← (field "reporter_reward_bps" ints.read payload).mapError .reading
  let config ← configOf asset treasury reporterRewardBps
  let balances ← (field "balances" (dictOf ints.read) payload).mapError .reading
  let bonds ← (field "bonds" (dictOf (positionOf ints)) payload).mapError .reading
  let events ← (field "events" (dictOf (eventOf ints)) payload).mapError .reading
  let slashEvidenceIds ← (field "slash_evidence_ids" (listOf Json.hashableText) payload).mapError .reading
  let settledRewardEpochs ← (field "settled_reward_epochs" (listOf ints.read) payload).mapError .reading
  return {
    toLedgerConfig := config
    balances, bonds, events
    slashEvidenceIds := slashEvidenceIds.toFinset
    settledRewardEpochs := settledRewardEpochs.toFinset }

end SettlementLedger

namespace JsonStore

variable [Crypto] {σ : Type} (store : JsonStore σ)

def persist (ledger : SettlementLedger) (rows : σ) : σ := store.put "settlement_state" "ledger" ledger.toDict rows

def fromStore (ints : IntReading) (rows : σ) : Except LedgerFault SettlementLedger :=
  match store.get "settlement_state" "ledger" rows with
  | none => .error (.settlementError "settlement ledger state is missing")
  | some payload => do
    let ledger ← SettlementLedger.ofPayload ints payload
    refuseIf (ledger.audit = false) (.settlementError "settlement ledger state root mismatch")
    let root ← (payload.member "state_root").mapError .reading
    refuseIf (root.isText ledger.stateRoot = false) (.settlementError "settlement ledger state root mismatch")
    return ledger

end JsonStore

theorem reading_eq_ok {α : Type} {x : Except ReadError α} {a : α} :
    x.mapError LedgerFault.reading = .ok a ↔ x = .ok a := by
  cases x <;> simp [Except.mapError]

/-- What the members of a payload are read as. -/
structure SettlementLedger.Described (ints : IntReading) (payload : Json) (s : SettlementLedger)
    (slashEvidenceIds : List String) (settledRewardEpochs : List Int) : Prop where
  config : ∃ asset treasury, payload.member "asset" = .ok asset ∧ payload.member "treasury" = .ok treasury ∧
    ∃ bps, field "reporter_reward_bps" ints.read payload = .ok bps ∧
      SettlementLedger.configOf asset treasury bps = .ok s.toLedgerConfig
  balances : field "balances" (dictOf ints.read) payload = .ok s.balances
  bonds : field "bonds" (dictOf (SettlementLedger.positionOf ints)) payload = .ok s.bonds
  events : field "events" (dictOf (SettlementLedger.eventOf ints)) payload = .ok s.events
  slashEvidenceIds : field "slash_evidence_ids" (listOf Json.hashableText) payload = .ok slashEvidenceIds ∧
    s.slashEvidenceIds = slashEvidenceIds.toFinset
  settledRewardEpochs : field "settled_reward_epochs" (listOf ints.read) payload = .ok settledRewardEpochs ∧
    s.settledRewardEpochs = settledRewardEpochs.toFinset

theorem SettlementLedger.configOf_eq_ok {asset treasury : Json} {bps : Int} {config : LedgerConfig}
    (made : configOf asset treasury bps = .ok config) : treasury = .str config.treasury ∧ bps = config.reporterRewardBps := by
  unfold configOf at made
  split at made
  · split at made
    · split at made
      · cases made
        exact ⟨rfl, rfl⟩
      · cases made
    · cases made
  · cases made

theorem SettlementLedger.ofPayload_eq_ok {ints : IntReading} {payload : Json} {s : SettlementLedger} :
    ofPayload ints payload = .ok s ↔
      ∃ slashEvidenceIds settledRewardEpochs, s.Described ints payload slashEvidenceIds settledRewardEpochs := by
  simp only [ofPayload, except_bind_eq_ok, reading_eq_ok]
  constructor
  · rintro ⟨asset, atAsset, treasury, atTreasury, bps, atBps, config, made, balances, atBalances, bonds, atBonds, events,
      atEvents, slashEvidenceIds, atIds, settledRewardEpochs, atEpochs, result⟩
    cases result
    exact ⟨slashEvidenceIds, settledRewardEpochs, ⟨asset, treasury, atAsset, atTreasury, bps, atBps, made⟩, atBalances,
      atBonds, atEvents, ⟨atIds, rfl⟩, ⟨atEpochs, rfl⟩⟩
  · rintro ⟨slashEvidenceIds, settledRewardEpochs, ⟨asset, treasury, atAsset, atTreasury, bps, atBps, made⟩, atBalances,
      atBonds, atEvents, ⟨atIds, ids⟩, ⟨atEpochs, epochs⟩⟩
    refine ⟨asset, atAsset, treasury, atTreasury, bps, atBps, _, made, _, atBalances, _, atBonds, _, atEvents, _, atIds, _,
      atEpochs, ?_⟩
    rw [← ids, ← epochs]
    rfl

/-- A ledger is given out when it is in order and has the root that was
written next to it. -/
theorem JsonStore.fromStore_eq_ok [Crypto] {σ : Type} {store : JsonStore σ} {ints : IntReading} {rows : σ}
    {s : SettlementLedger} : store.fromStore ints rows = .ok s ↔
      ∃ payload, store.get "settlement_state" "ledger" rows = some payload ∧ SettlementLedger.ofPayload ints payload = .ok s ∧
        s.audit = true ∧ payload.member "state_root" = .ok (.str s.stateRoot) := by
  unfold fromStore
  cases got : store.get "settlement_state" "ledger" rows with
  | none => simp
  | some payload =>
    simp only [except_bind_eq_ok, refuseIf_eq_ok, reading_eq_ok, Bool.not_eq_false, Option.some.injEq, exists_eq_left']
    constructor
    · rintro ⟨ledger, made, _, audited, root, atRoot, _, same, result⟩
      cases result
      exact ⟨made, audited, Json.isText_iff.mp same ▸ atRoot⟩
    · rintro ⟨made, audited, atRoot⟩
      exact ⟨s, made, ⟨⟩, audited, _, atRoot, ⟨⟩, Json.isText_iff.mpr rfl, rfl⟩

namespace SettlementLedger

variable (ints : IntReading)

theorem reads_positionDict : Reads (positionOf ints) positionDict := by
  intro item v same
  have bondId := reads_text.field same "bond_id" rfl
  have owner := reads_text.field same "owner" rfl
  have asset := reads_text.field same "asset" rfl
  have amount := ints.reads.field same "amount" rfl
  have unlockEpoch := ints.reads.field same "unlock_epoch" rfl
  have active := reads_truthy.field same "active" rfl
  have unbonding := reads_truthy.field same "unbonding" rfl
  simp only [positionOf, bondId, owner, asset, amount, unlockEpoch, active, unbonding]
  rfl

theorem reads_pairList : Reads pairOf pairList := by
  intro entry v same
  exact except_bind_eq_ok.mpr ⟨[entry.1, entry.2], reads_text.listOf _ v same, rfl⟩

theorem reads_eventDict : Reads (eventOf ints) eventDict := by
  intro item v same
  have eventId := reads_text.field same "event_id" rfl
  have kind := reads_text.field same "kind" rfl
  have epoch := ints.reads.field same "epoch" rfl
  have account := reads_text.field same "account" rfl
  have amount := ints.reads.field same "amount" rfl
  have asset := reads_text.field same "asset" rfl
  have relatedId := reads_text.field same "related_id" rfl
  have metadata := reads_pairList.listOf.get same "metadata" (.list []) rfl
  simp only [eventOf, eventId, kind, epoch, account, amount, asset, relatedId, metadata]
  rfl

theorem configOf_str (config : LedgerConfig) :
    configOf (.str config.asset) (.str config.treasury) config.reporterRewardBps = .ok config := by
  have given : (Json.str config.asset).truthy = true ∧ (Json.str config.treasury).truthy = true :=
    ⟨decide_eq_true config.assetNamed, decide_eq_true config.treasuryNamed⟩
  rw [configOf, dif_pos given, dif_pos config.share]

variable [Crypto] {s t : SettlementLedger} {payload : Json}

/-- What was written is read as a ledger that answers alike. -/
theorem ofPayload_toDict (same : payload.sortKeys = s.toDict.sortKeys) :
    ∃ t, ofPayload ints payload = .ok t ∧ s.Alike t := by
  obtain ⟨asset, atAsset, sameAsset⟩ := member_of_sortKeys same "asset" rfl
  obtain ⟨treasury, atTreasury, sameTreasury⟩ := member_of_sortKeys same "treasury" rfl
  cases eq_str_of_sortKeys sameAsset
  cases eq_str_of_sortKeys sameTreasury
  have reporterRewardBps := ints.reads.field same "reporter_reward_bps" rfl
  obtain ⟨u, atBalances, sameBalances⟩ := member_of_sortKeys same "balances" rfl
  obtain ⟨balances, readBalances, orderBalances⟩ := ints.reads.dictOf sameBalances
  obtain ⟨v, atBonds, sameBonds⟩ := member_of_sortKeys same "bonds" rfl
  obtain ⟨bonds, readBonds, orderBonds⟩ := (reads_positionDict ints).dictOf sameBonds
  obtain ⟨w, atEvents, sameEvents⟩ := member_of_sortKeys same "events" rfl
  obtain ⟨events, readEvents, orderEvents⟩ := (reads_eventDict ints).dictOf sameEvents
  have slashEvidenceIds := reads_hashableText.listOf.field same "slash_evidence_ids" rfl
  have settledRewardEpochs := ints.reads.listOf.field same "settled_reward_epochs" rfl
  refine ⟨{ s with balances, bonds, events }, ofPayload_eq_ok.mpr ⟨_, _, ?_, ?_, ?_, ?_, ⟨slashEvidenceIds, ?_⟩,
    settledRewardEpochs, ?_⟩, rfl, Dict.get?_of_perm orderBalances, Dict.get?_of_perm orderBonds,
    Dict.get?_of_perm orderEvents, rfl, rfl⟩
  · exact ⟨_, _, atAsset, atTreasury, _, reporterRewardBps, configOf_str s.toLedgerConfig⟩
  · exact except_bind_eq_ok.mpr ⟨u, atBalances, readBalances⟩
  · exact except_bind_eq_ok.mpr ⟨v, atBonds, readBonds⟩
  · exact except_bind_eq_ok.mpr ⟨w, atEvents, readEvents⟩
  · exact (s.slashEvidenceIds.sort_toFinset (· ≤ ·)).symm
  · exact (s.settledRewardEpochs.sort_toFinset (· ≤ ·)).symm

omit [Crypto] in
/-- Soundness is told from what a ledger answers. -/
theorem Alike.sound (alike : s.Alike t) (sound : s.Sound) : t.Sound := by
  obtain ⟨config, balances, bonds, events, -, -⟩ := alike
  refine ⟨fun account amount held => ?_, fun bondId found held => ?_, fun eventId event held => ?_⟩
  · exact sound.balances account amount (balances account ▸ held)
  · rw [config]
    exact sound.bonds bondId found (bonds bondId ▸ held)
  · rw [config]
    exact sound.events eventId event (events eventId ▸ held)

end SettlementLedger

theorem JsonStore.fromStore_persist [Crypto] {σ : Type} {ledger : SettlementLedger} (sound : ledger.Sound)
    (store : JsonStore σ) (ints : IntReading) (rows : σ) :
    ∃ restored, store.fromStore ints (store.persist ledger rows) = .ok restored ∧ ledger.Alike restored := by
  obtain ⟨payload, got, same⟩ := store.get_put "settlement_state" "ledger" ledger.toDict rows
  obtain ⟨restored, made, alike⟩ := SettlementLedger.ofPayload_toDict ints same
  have audited : restored.audit = true := (alike.sound sound).audit
  obtain ⟨root, atRoot, sameRoot⟩ := member_of_sortKeys same "state_root" rfl
  cases eq_str_of_sortKeys sameRoot
  refine ⟨restored, fromStore_eq_ok.mpr ⟨payload, got, made, audited, ?_⟩, alike⟩
  rw [atRoot, alike.stateRoot]

section Restored

/-- A store that keeps what it is given in one table. -/
def tableStore : JsonStore (Dict (String × String) Json) where
  put kind key payload rows := rows.set (kind, key) payload
  get kind key rows := rows.get? (kind, key)
  get_put kind key payload rows := ⟨payload, rows.get?_set_self (kind, key) payload, rfl⟩

def plainInts : IntReading where
  read
    | .int value => .ok value
    | .bool value => .ok value.toNat
    | _ => .error .typeError
  read_int _ := rfl

end Restored

end Mosaic
