import Mosaic.Settlement

namespace Mosaic
open CanonicalJson Effects

/-- A bond is active, it is unbonding, or nothing is left of it. -/
structure BondPosition.Sound (asset : String) (found : BondPosition) : Prop where
  amount : 0 ≤ found.amount
  owned : found.owner ≠ ""
  asset : found.asset = asset
  apart : ¬ (found.active = true ∧ found.unbonding = true)
  placed : 0 < found.amount → found.active = true ∨ found.unbonding = true

namespace SettlementLedger

/-- What holds in every ledger that was ever fresh, whatever was done to it. -/
structure Sound (s : SettlementLedger) : Prop where
  balances : ∀ account amount, s.balances.get? account = some amount → 0 ≤ amount ∧ (0 < amount → account ≠ "")
  bonds : ∀ bondId found, s.bonds.get? bondId = some found → found.Sound s.asset
  events : ∀ eventId event, s.events.get? eventId = some event → 0 ≤ event.amount ∧ event.asset = s.asset

theorem fresh_sound (config : LedgerConfig) : (fresh config).Sound := by
  refine ⟨?_, ?_, ?_⟩ <;> intro _ _ found <;> cases found

variable {s : SettlementLedger}

theorem Sound.balanceOf (sound : s.Sound) (account : String) : 0 ≤ s.balanceOf account := by
  unfold SettlementLedger.balanceOf
  cases held : s.balances.get? account with
  | none => simp
  | some amount => simpa using (sound.balances account amount held).1

theorem Sound.account (sound : s.Sound) {account : String} (rich : 0 < s.balanceOf account) : account ≠ "" := by
  unfold SettlementLedger.balanceOf at rich
  cases held : s.balances.get? account with
  | none => simp [held] at rich
  | some amount =>
    rw [held] at rich
    exact (sound.balances account amount held).2 rich

theorem Sound.setBalance (sound : s.Sound) {account : String} {amount : Int} (natural : 0 ≤ amount)
    (named : 0 < amount → account ≠ "") : (s.setBalance account amount).Sound := by
  refine ⟨fun other held found => ?_, sound.bonds, sound.events⟩
  rw [setBalance_balances, Dict.get?_set] at found
  split at found
  · rename_i here
    cases found
    exact ⟨natural, here ▸ named⟩
  · exact sound.balances other held found

theorem Sound.setPosition (sound : s.Sound) {found : BondPosition} (proper : found.Sound s.asset) (bondId : String) :
    (s.setPosition found bondId).Sound := by
  refine ⟨sound.balances, fun other position held => ?_, sound.events⟩
  rw [setPosition_bonds, Dict.get?_set] at held
  split at held
  · cases held
    exact proper
  · exact sound.bonds other position held

theorem Sound.dropPosition (sound : s.Sound) (bondId : String) : (s.dropPosition bondId).Sound := by
  refine ⟨sound.balances, fun other position held => ?_, sound.events⟩
  rw [dropPosition_bonds, Dict.get?_erase] at held
  split at held
  · cases held
  · exact sound.bonds other position held

theorem Sound.addEvent (sound : s.Sound) {event : SettlementEvent} (natural : 0 ≤ event.amount)
    (asset : event.asset = s.asset) : (s.addEvent event).Sound := by
  refine ⟨sound.balances, sound.bonds, fun other recorded held => ?_⟩
  rw [addEvent_events, Dict.get?_set] at held
  split at held
  · cases held
    exact ⟨natural, asset⟩
  · exact sound.events other recorded held

theorem Sound.addEvidence (sound : s.Sound) (evidenceId : String) : (s.addEvidence evidenceId).Sound :=
  ⟨sound.balances, sound.bonds, sound.events⟩

theorem Sound.settleEpoch (sound : s.Sound) (epoch : Int) : (s.settleEpoch epoch).Sound :=
  ⟨sound.balances, sound.bonds, sound.events⟩

/-- The account is richer by the amount, or poorer by its negative. -/
def credited (s : SettlementLedger) (account : String) (amount : Int) : SettlementLedger :=
  s.setBalance account (s.balanceOf account + amount)

theorem Sound.credited (sound : s.Sound) {account : String} {amount : Int} (natural : 0 ≤ s.balanceOf account + amount)
    (named : account ≠ "") : (s.credited account amount).Sound :=
  sound.setBalance natural fun _ => named

/-- A debit leaves the account its name. -/
theorem Sound.debited (sound : s.Sound) {account : String} {amount : Int} (enough : amount ≤ s.balanceOf account)
    (natural : 0 ≤ amount) : (s.credited account (-amount)).Sound := by
  refine sound.setBalance (by omega) fun left => sound.account ?_
  omega

theorem balanceOf_credited (s : SettlementLedger) (account other : String) (amount : Int) :
    (s.credited account amount).balanceOf other = s.balanceOf other + if account = other then amount else 0 := by
  simp only [SettlementLedger.balanceOf, credited, setBalance_balances, Dict.get?_set]
  split
  · rename_i same
    simp [same]
  · simp

@[simp] theorem balanceOf_addEvent (s : SettlementLedger) (event : SettlementEvent) (account : String) :
    (s.addEvent event).balanceOf account = s.balanceOf account := rfl

/-- All money in the ledger, free and bonded. -/
def total (s : SettlementLedger) : Int := s.balances.sumBy id + s.bonds.sumBy BondPosition.amount

theorem total_credited (s : SettlementLedger) (account : String) (amount : Int) :
    (s.credited account amount).total = s.total + amount := by
  have sum := Dict.sumBy_set id s.balances account (s.balanceOf account + amount)
  have held : s.balances.amountAt id account = s.balanceOf account := by simp [Dict.amountAt, SettlementLedger.balanceOf]
  simp only [total, credited, setBalance_balances, setBalance_bonds, id_eq] at sum ⊢
  omega

theorem total_setPosition (s : SettlementLedger) (found : BondPosition) (bondId : String) :
    (s.setPosition found bondId).total + s.bonds.amountAt BondPosition.amount bondId = s.total + found.amount := by
  have sum := Dict.sumBy_set BondPosition.amount s.bonds bondId found
  simp only [total, setPosition_balances, setPosition_bonds] at sum ⊢
  omega

theorem total_dropPosition (s : SettlementLedger) (bondId : String) :
    (s.dropPosition bondId).total + s.bonds.amountAt BondPosition.amount bondId = s.total := by
  have sum := Dict.sumBy_erase BondPosition.amount s.bonds bondId
  simp only [total, dropPosition_balances, dropPosition_bonds] at sum ⊢
  omega

@[simp] theorem total_addEvent (s : SettlementLedger) (event : SettlementEvent) : (s.addEvent event).total = s.total := rfl

@[simp] theorem total_addEvidence (s : SettlementLedger) (evidenceId : String) :
    (s.addEvidence evidenceId).total = s.total := rfl

@[simp] theorem total_settleEpoch (s : SettlementLedger) (epoch : Int) : (s.settleEpoch epoch).total = s.total := rfl

theorem credit_ok {account : String} {amount : Int} (named : account ≠ "") (natural : 0 ≤ amount) :
    credit account amount s = .ok ⟨⟩ (s.credited account amount) := by
  unfold credit
  have passes : ¬ (account = "" ∨ amount < 0) := by
    rintro (nameless | negative)
    · exact named nameless
    · omega
  simp only [bind_apply, raiseIf_apply, if_neg passes, modify_apply]
  rfl

theorem debit_ok {account : String} {amount : Int} (natural : 0 ≤ amount) (enough : amount ≤ s.balanceOf account) :
    debit account amount s = .ok ⟨⟩ (s.credited account (-amount)) := by
  unfold debit
  have passes : ¬ (amount < 0 ∨ s.balanceOf account < amount) := by omega
  simp only [bind_apply, get_apply, raiseIf_apply, if_neg passes, modify_apply]
  rfl

theorem debit_raises {account : String} {amount : Int} (poor : s.balanceOf account < amount) :
    ∃ e, debit account amount s = .error e s := by
  unfold debit
  simp only [bind_apply, get_apply, raiseIf_apply, if_pos (Or.inr poor)]
  exact ⟨_, rfl⟩

theorem position_ok {bondId : String} {found : BondPosition} (held : s.bonds.get? bondId = some found) :
    position bondId s = .ok found s := by
  simp only [position, bind_apply, get_apply, held, pure_apply]

theorem position_raises {bondId : String} (unknown : s.bonds.get? bondId = none) :
    ∃ e, position bondId s = .error e s := by
  simp only [position, bind_apply, get_apply, unknown, throw_apply]
  exact ⟨_, rfl⟩

theorem sound_penalized {asset : String} {found : BondPosition} {amount penalty : Int}
    (proper : found.Sound asset)
    (least : penalty = min amount found.amount) (positive : 0 < amount) :
    (penalized found penalty).Sound asset := by
  have natural := proper.amount
  refine ⟨?_, proper.owned, proper.asset, fun both => proper.apart ⟨?_, both.2⟩, fun left => ?_⟩
  · simp only [penalized]
    omega
  · have active := both.1
    simp only [penalized, Bool.and_eq_true] at active
    exact active.1
  · simp only [penalized] at left
    have more : penalty < found.amount := by omega
    have some : 0 < found.amount := by omega
    simpa [penalized, more] using proper.placed some

theorem reporterShare_bounds (config : LedgerConfig) {penalty : Int} (natural : 0 ≤ penalty) (reporter : Option String) :
    0 ≤ reporterShare config penalty reporter ∧ reporterShare config penalty reporter ≤ penalty := by
  obtain ⟨low, high⟩ := config.share
  unfold reporterShare
  cases reporter with
  | none => exact ⟨le_rfl, natural⟩
  | some name =>
    dsimp only
    split
    · omega
    · have product := mul_nonneg natural low
      have bound := mul_le_mul_of_nonneg_left high natural
      omega

theorem reporterShare_none (config : LedgerConfig) (penalty : Int) : reporterShare config penalty none = 0 := rfl

/-- A reporter that gets something has a name. -/
theorem reporter_named {config : LedgerConfig} {penalty : Int} {reporter : Option String}
    (some : reporterShare config penalty reporter ≠ 0) : reporter.getD "" ≠ "" := by
  unfold reporterShare at some
  cases reporter with
  | none => simp at some
  | some name =>
    dsimp only at some
    split at some
    · simp at some
    · assumption

variable [Crypto] {kind account relatedId : String} {epoch amount : Int} {metadata : List (String × String)}

end SettlementLedger

end Mosaic
