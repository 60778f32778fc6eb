import Mosaic.LedgerPersistence
import Mosaic.Strict.Receipts

namespace Mosaic.Strict
open CanonicalJson Effects Mosaic.SettlementLedger

namespace SettlementLedger

def toDict [Crypto] [Texts] (s : SettlementLedger) : Except EconomyError Json := do
  let root ← stateRoot s
  return s.rooted root

end SettlementLedger

namespace JsonStore
variable [Crypto] [Texts] {σ : Type} (store : JsonStore σ)

def persist (ledger : SettlementLedger) (rows : σ) : Except EconomyError σ := do
  let payload ← SettlementLedger.toDict ledger
  return store.put "settlement_state" "ledger" payload rows

def fromStore (ints : IntReading) (rows : σ) : Except LedgerFault SettlementLedger :=
  match store.get "settlement_state" "ledger" rows with
  | none => .error (.settlementError "settlement ledger state is missing")
  | some payload => do
    let ledger ← ofPayload ints payload
    refuseIf (ledger.audit = false) (.settlementError "settlement ledger state root mismatch")
    let computed ← (SettlementLedger.stateRoot ledger).mapError fun _ => .unicodeEncodeError
    let root ← (payload.member "state_root").mapError .reading
    refuseIf (root.isText computed = false) (.settlementError "settlement ledger state root mismatch")
    return ledger

end JsonStore

namespace SettlementLedger
variable [Texts] {s t : SettlementLedger}

/-- UTF-8 can encode every text that the state root hashes. -/
structure Rooted (s : SettlementLedger) : Prop where
  asset : Texts.encodes s.asset = true
  accounts : ∀ account amount, s.balances.get? account = some amount → Texts.encodes account = true
  bonds : ∀ bondId found, s.bonds.get? bondId = some found →
    Texts.encodes bondId = true ∧ Texts.encodes found.owner = true ∧ Texts.encodes found.asset = true
  events : ∀ eventId event, s.events.get? eventId = some event → Texts.encodes eventId = true
  evidence : ∀ evidenceId ∈ s.slashEvidenceIds, Texts.encodes evidenceId = true

theorem Rooted.alike (rooted : Rooted s) (alike : s.Alike t) : Rooted t := by
  obtain ⟨config, balances, bonds, events, evidence, -⟩ := alike
  refine ⟨?_, fun account amount held => ?_, fun bondId found held => ?_, fun eventId event held => ?_, ?_⟩
  · rw [config]
    exact rooted.asset
  · exact rooted.accounts account amount (balances account ▸ held)
  · exact rooted.bonds bondId found (bonds bondId ▸ held)
  · exact rooted.events eventId event (events eventId ▸ held)
  · rw [evidence]
    exact rooted.evidence

theorem bondFields_encodable_iff {found : BondPosition} :
    (bondFields found).Encodable ↔ Texts.encodes found.owner = true ∧ Texts.encodes found.asset = true := by
  simp (disch := decide) [bondFields, encodes_of_all]

omit [Texts] in
theorem mem_sorted {items : List String} {item : String} : item ∈ sorted items ↔ item ∈ items :=
  (sortedBy_perm id items).mem_iff

/-- The members of a table can be encoded when all its keys and values can. -/
theorem table_encodable_iff {α : Type} {write : α → Json} (d : Dict String α) :
    (Json.obj (d.entries.map fun entry => (entry.1, write entry.2))).Encodable ↔
      ∀ key value, d.get? key = some value → Texts.encodes key = true ∧ (write value).Encodable := by
  rw [encodable_obj, List.forall_mem_map]
  constructor
  · exact fun each key value held => each (key, value) (d.get?_eq_some_iff.mp held)
  · exact fun each entry member => each entry.1 entry.2 (d.get?_eq_some_iff.mpr member)

theorem rootStatement_encodable_iff : (rootStatement s).Encodable ↔ Rooted s := by
  have balances : (∀ account amount, s.balances.get? account = some amount →
      Texts.encodes account = true ∧ (Json.int amount).Encodable) ↔
      ∀ account amount, s.balances.get? account = some amount → Texts.encodes account = true := by simp
  have events : (∀ item ∈ (sorted s.events.keys).map Json.str, item.Encodable) ↔
      ∀ eventId event, s.events.get? eventId = some event → Texts.encodes eventId = true := by
    simp only [List.forall_mem_map, encodable_str, mem_sorted, Dict.mem_keys]
    exact forall_congr' fun eventId => exists_imp
  have evidence : (∀ item ∈ (inOrder s.slashEvidenceIds).map Json.str, item.Encodable) ↔
      ∀ evidenceId ∈ s.slashEvidenceIds, Texts.encodes evidenceId = true := by simp [inOrder]
  have epochs : ∀ item ∈ (inOrder s.settledRewardEpochs).map Json.int, item.Encodable := by simp
  rw [rootStatement, encodable_obj]
  simp only [List.forall_mem_cons, encodable_str, encodable_list, table_encodable_iff, bondFields_encodable_iff, balances,
    events, evidence]
  simp (disch := decide) only [encodes_of_all, true_and, List.not_mem_nil, false_implies, implies_true, and_true]
  constructor
  · rintro ⟨asset, accounts, bonds, ids, used, -⟩
    exact ⟨asset, accounts, bonds, ids, used⟩
  · rintro ⟨asset, accounts, bonds, ids, used⟩
    exact ⟨asset, accounts, bonds, ids, used, epochs⟩

variable [Crypto]

theorem stateRoot_of_rooted (rooted : Rooted s) : stateRoot s = .ok s.stateRoot :=
  Economy.digest_of_encodable (rootStatement_encodable_iff.mpr rooted)

theorem stateRoot_raises (refused : ¬ Rooted s) : stateRoot s = .error surrogatesError :=
  Economy.digest_raises (mt rootStatement_encodable_iff.mp refused)

end SettlementLedger

namespace JsonStore
open SettlementLedger
variable [Crypto] [Texts] {σ : Type} {ledger restored : SettlementLedger}

theorem persist_of_rooted (rooted : Rooted ledger) (store : JsonStore σ) (rows : σ) :
    persist store ledger rows = .ok (store.persist ledger rows) := by
  rw [persist, SettlementLedger.toDict, stateRoot_of_rooted rooted]
  rfl

theorem persist_raises (refused : ¬ Rooted ledger) (store : JsonStore σ) (rows : σ) :
    persist store ledger rows = .error surrogatesError := by
  rw [persist, SettlementLedger.toDict, stateRoot_raises refused]
  rfl

/-- A ledger whose root can be computed is given out as where all texts can be encoded. -/
theorem fromStore_of_rooted {store : JsonStore σ} {ints : IntReading} {rows : σ}
    (back : store.fromStore ints rows = .ok restored) (rooted : Rooted restored) :
    fromStore store ints rows = .ok restored := by
  obtain ⟨payload, got, made, audited, atRoot⟩ := JsonStore.fromStore_eq_ok.mp back
  have same : (Json.str restored.stateRoot).isText restored.stateRoot = true := Json.isText_iff.mpr rfl
  simp only [fromStore, got, made, audited, stateRoot_of_rooted rooted, atRoot, same, Except.mapError, refuseIf, bind,
    Except.bind, Bool.true_eq_false, if_false]
  rfl

/-- A ledger that is persisted comes back, or persisting it raises: it comes back exactly when UTF-8
can encode the texts that its root hashes. -/
theorem persist_restores_iff {config : LedgerConfig} (reached : SettlementCall.Reached config ledger)
    (store : JsonStore σ) (ints : IntReading) (rows : σ) :
    (∃ written restored, persist store ledger rows = .ok written ∧ fromStore store ints written = .ok restored ∧
      ledger.Alike restored) ↔ Rooted ledger := by
  constructor
  · rintro ⟨written, restored, persisted, -⟩
    by_contra refused
    rw [persist_raises refused] at persisted
    cases persisted
  · intro rooted
    obtain ⟨restored, back, alike⟩ := JsonStore.fromStore_persist (sound_of_reached reached) store ints rows
    exact ⟨_, restored, persist_of_rooted rooted store rows, fromStore_of_rooted back (rooted.alike alike), alike⟩

end JsonStore

section Slashed
variable [Crypto] [Texts] {config : LedgerConfig} {s : SettlementLedger}

/-- A slash that is stopped by its event leaves the evidence in the ledger, and the ledger has no
root any more. -/
theorem SettlementLedger.unrooted_of_slash (sound : s.Sound) {bondId evidenceId : String} {found : BondPosition}
    {amount : Int} (admitted : s.Slashable bondId found amount evidenceId) (epoch : Int) (reporter : Option String)
    (refused : Texts.encodes evidenceId = false) :
    ¬ Rooted (SettlementCall.exec (.slash bondId amount epoch evidenceId reporter) s) := by
  have barred : ∀ position penalty, s.Barred (s.slashEvent position penalty epoch evidenceId) := by
    refine fun position penalty => Or.inl fun fine => ?_
    simp [SettlementEvent.statement, slashEvent, eventStatement, eventFor, refused] at fine
  have run : SettlementCall.run (.slash bondId amount epoch evidenceId reporter) s =
    slash bondId amount epoch evidenceId reporter s := rfl
  cases slash_cases sound bondId amount epoch evidenceId reporter with
  | refused refused _ => exact absurd admitted (refused found)
  | stopped _ _ _ _ touched _ raised =>
    rw [SettlementCall.exec, final_of_error (run.trans raised)]
    intro rooted
    rw [rooted.evidence evidenceId touched] at refused
    cases refused
  | returned _ _ _ _ clear _ | rewarded _ _ _ _ clear _ => exact absurd (Or.inl (barred _ _)) clear

end Slashed

namespace SettlementLedger
variable [Texts] {s : SettlementLedger}

theorem Rooted.credited (rooted : Rooted s) {account : String} (fine : Texts.encodes account = true) (amount : Int) :
    Rooted (s.credited account amount) := by
  refine ⟨rooted.asset, fun other held found => ?_, rooted.bonds, rooted.events, rooted.evidence⟩
  rw [Mosaic.SettlementLedger.credited, setBalance_balances, Dict.get?_set] at found
  split at found
  · rename_i here
    exact here ▸ fine
  · exact rooted.accounts other held found

theorem Rooted.setPosition (rooted : Rooted s) {bondId : String} {position : BondPosition}
    (fine : Texts.encodes bondId = true) (owner : Texts.encodes position.owner = true)
    (asset : Texts.encodes position.asset = true) : Rooted (s.setPosition position bondId) := by
  refine ⟨rooted.asset, rooted.accounts, fun other held found => ?_, rooted.events, rooted.evidence⟩
  rw [setPosition_bonds, Dict.get?_set] at found
  split at found
  · rename_i here
    cases found
    exact ⟨here ▸ fine, owner, asset⟩
  · exact rooted.bonds other held found

theorem Rooted.addEvent (rooted : Rooted s) {event : SettlementEvent} (fine : Texts.encodes event.eventId = true) :
    Rooted (s.addEvent event) := by
  refine ⟨rooted.asset, rooted.accounts, rooted.bonds, fun other held found => ?_, rooted.evidence⟩
  rw [addEvent_events, Dict.get?_set] at found
  split at found
  · rename_i here
    exact here ▸ fine
  · exact rooted.events other held found

end SettlementLedger

section Staked
variable [Crypto] [Texts] {pair : KeyPair}

/-- The owner of the key has bonded all that was paid in for it. -/
theorem stakedLedger_reached (free : CollisionFree) (verifies : SignaturesVerify) (named : pair.identity ≠ "")
    (identity : Texts.encodes pair.identity = true) : SettlementCall.Reached plainLedger (stakedLedger pair) := by
  have asset : plainLedger.asset = "MOSAIC" := rfl
  have funded : SettlementCall.Reached plainLedger (fundedLedger plainLedger pair.identity 10) := by
    refine SettlementLedger.fundedLedger_reached ⟨by decide, named⟩ ?_
    simp (disch := decide) [SettlementEvent.statement, fundEvent, eventStatement, eventFor, fresh, fundingId, asset,
      identity, encodes_of_all]
  have bonded : SettlementCall.Reached plainLedger
      (SettlementCall.exec (.bond (soloBond pair) 0) (fundedLedger plainLedger pair.identity 10)) := funded.tail trivial
  have fine : (soloBond pair).statement.Encodable := by
    simp (disch := decide) [StakeBond.statement, soloBond, StakeBond.create, identity, encodes_hex, encodes_of_all]
  have new : ¬ (fundedLedger plainLedger pair.identity 10).Barred
      ((fundedLedger plainLedger pair.identity 10).bondEvent (soloBond pair) 0) := by
    refine not_or.mpr ⟨not_not.mpr ?_, event_new free (by decide)⟩
    have config : (fundedLedger plainLedger pair.identity 10).toLedgerConfig = plainLedger := rfl
    simp (disch := decide) [SettlementEvent.statement, bondEvent, eventStatement, eventFor, config, asset, soloBond,
      StakeBond.create, identity, encodes_of_all]
  have ran : SettlementCall.run (.bond (soloBond pair) 0) (fundedLedger plainLedger pair.identity 10) = _ :=
    single_ok ((SettlementLedger.bond_concludes _ (soloBond pair) 0).ok ⟨soloBond_bondable verifies, fine⟩ new)
  rwa [SettlementCall.exec, final_of_ok ran] at bonded

theorem stakedLedger_rooted (digests : DigestsEncode) (identity : Texts.encodes pair.identity = true) :
    SettlementLedger.Rooted (stakedLedger pair) := by
  have asset : Texts.encodes plainLedger.asset = true := encodes_of_all (by decide)
  have bondId : Texts.encodes "b" = true := encodes_of_all (by decide)
  have fresh : SettlementLedger.Rooted (fresh plainLedger) :=
    ⟨asset, by rintro _ _ ⟨⟩, by rintro _ _ ⟨⟩, by rintro _ _ ⟨⟩, by simp [Mosaic.SettlementLedger.fresh]⟩
  have funded : SettlementLedger.Rooted (fundedLedger plainLedger pair.identity 10) :=
    (fresh.addEvent (digests _)).credited identity 10
  exact ((funded.credited identity (-10)).setPosition bondId identity asset).addEvent (digests _)

end Staked

section Lone

/-- A slash with a lone surrogate in the identifier of its evidence raises, and from then on the ledger
cannot be persisted. -/
theorem slashed_not_persisted : let _ := Crypto.ideal; let _ := Texts.lone
    ∃ ledger, SettlementCall.Reached plainLedger ledger ∧
      ∀ rows, JsonStore.persist tableStore ledger rows = .error surrogatesError := by
  intro _ _
  have reached := stakedLedger_reached ideal_collisionFree ideal_signaturesVerify ideal_named (by decide)
  have admitted : (stakedLedger idealKey).Slashable "b" (bondedPosition (soloBond idealKey)) 1 surrogate :=
    ⟨by decide, by decide, Finset.notMem_empty _, stakedLedger_position⟩
  have unrooted := SettlementLedger.unrooted_of_slash (SettlementLedger.sound_of_reached reached) admitted 0 none (by decide)
  exact ⟨_, reached.tail trivial, fun rows => JsonStore.persist_raises unrooted tableStore rows⟩

/-- The staked ledger is there again. -/
theorem persist_restores_staked : let _ := Crypto.ideal; let _ := Texts.lone
    ∃ written restored, JsonStore.persist tableStore (stakedLedger idealKey) .empty = .ok written ∧
      JsonStore.fromStore tableStore plainInts written = .ok restored ∧ (stakedLedger idealKey).Alike restored := by
  intro _ _
  have reached := stakedLedger_reached ideal_collisionFree ideal_signaturesVerify ideal_named (by decide)
  exact (JsonStore.persist_restores_iff reached tableStore plainInts .empty).mpr
    (stakedLedger_rooted ideal_digestsEncode (by decide))

end Lone

end Mosaic.Strict
