import Mosaic.SettlementRewards

namespace Mosaic
open CanonicalJson Effects SettlementLedger

/-- What a call brings into the ledger from outside. -/
def SettlementCall.funded : SettlementCall → Int
  | .fund _ amount _ _ => amount
  | _ => 0

namespace SettlementLedger

variable {s t : SettlementLedger}

theorem Sound.of_leaving (sound : s.Sound) {bondId : String} {found : BondPosition} {currentEpoch delay : Int}
    (held : s.bonds.get? bondId = some found) :
    (s.setPosition (leaving found currentEpoch delay) bondId).Sound ∧
      (s.setPosition (leaving found currentEpoch delay) bondId).total = s.total := by
  have proper := sound.bonds bondId found held
  constructor
  · have proper' : (leaving found currentEpoch delay).Sound s.asset :=
      ⟨proper.amount, proper.owned, proper.asset, by simp [leaving], fun _ => Or.inr rfl⟩
    exact sound.setPosition proper' bondId
  · have sum := total_setPosition s (leaving found currentEpoch delay) bondId
    rw [Dict.amountAt_of_some held] at sum
    have same : (leaving found currentEpoch delay).amount = found.amount := rfl
    omega

theorem Sound.of_paidOut (sound : s.Sound) {bondId : String} {found : BondPosition}
    (held : s.bonds.get? bondId = some found) : (s.paidOut bondId found).Sound ∧ (s.paidOut bondId found).total = s.total := by
  have proper := sound.bonds bondId found held
  constructor
  · refine (sound.dropPosition bondId).credited ?_ proper.owned
    have := (sound.dropPosition bondId).balanceOf found.owner
    have := proper.amount
    omega
  · have sum := total_dropPosition s bondId
    rw [Dict.amountAt_of_some held] at sum
    rw [SettlementLedger.paidOut, total_credited]
    omega

theorem Sound.of_charged (sound : s.Sound) {payer txId : String} {amount : Int} (able : s.Payable payer amount txId) :
    (s.charged payer amount).Sound ∧ (s.charged payer amount).total = s.total := by
  have positive := able.positive
  have debited := sound.debited able.enough positive.le
  constructor
  · refine debited.credited ?_ s.treasuryNamed
    have := debited.balanceOf s.treasury
    omega
  · rw [SettlementLedger.charged, total_credited, total_credited]
    omega

variable [Crypto]

theorem total_slashed {bondId evidenceId : String} {found : BondPosition} {penalty reward epoch : Int}
    (held : s.bonds.get? bondId = some found) :
    (s.slashed bondId found penalty reward epoch evidenceId).total = s.total - reward := by
  have sum := total_setPosition (s.addEvidence evidenceId) (penalized found penalty) bondId
  rw [addEvidence_bonds, Dict.amountAt_of_some held, total_addEvidence] at sum
  have left : (penalized found penalty).amount = found.amount - penalty := rfl
  rw [left] at sum
  rw [SettlementLedger.slashed, total_credited, total_addEvent, penalizedBy]
  omega

theorem Sound.of_bonded (sound : s.Sound) {bond : StakeBond} {currentEpoch : Int} (able : s.Bondable bond currentEpoch) :
    (s.bonded bond).Sound ∧ (s.bonded bond).total = s.total := by
  have positive := amount_pos_of_verify able.verified
  have owned : bond.owner ≠ "" := by
    refine sound.account ?_
    have := able.enough
    omega
  constructor
  · exact (sound.debited able.enough positive.le).setPosition
      ⟨positive.le, owned, able.asset, by simp [bondedPosition], fun _ => Or.inl rfl⟩ bond.bondId
  · have sum := total_setPosition (s.credited bond.owner (-bond.amount)) (bondedPosition bond) bond.bondId
    have new : (s.credited bond.owner (-bond.amount)).bonds.get? bond.bondId = none := able.new
    rw [Dict.amountAt_of_none new, total_credited] at sum
    simp only [bondedPosition] at sum
    rw [SettlementLedger.bonded]
    simp only [bondedPosition]
    omega

end SettlementLedger

namespace Strict.SettlementLedger
open Mosaic.SettlementLedger

variable [Crypto] [Texts] {s t : SettlementLedger}

/-- What a call that returns keeps, and what it adds. -/
theorem sound_run (sound : s.Sound) {call : SettlementCall} {events : List SettlementEvent}
    (ran : SettlementCall.run call s = .ok events t) : t.Sound ∧ t.total = s.total + call.funded := by
  cases call with
  | fund account amount epoch sourceId =>
    rcases fund_cases s account amount epoch sourceId with ⟨-, e, raised⟩ | ⟨⟨positive, named⟩, -, run⟩
    · cases (single_error raised).symm.trans ran
    · cases (single_ok run).symm.trans ran
      have recorded : (s.addEvent (s.fundEvent account amount epoch sourceId)).Sound := sound.addEvent positive.le rfl
      refine ⟨recorded.credited ?_ named, by simp [total_credited, Mosaic.SettlementCall.funded]⟩
      have := recorded.balanceOf account
      omega
  | bond b currentEpoch =>
    obtain ⟨able, -, rfl⟩ := (bond_concludes s b currentEpoch).of_single_ok ran
    obtain ⟨sound', same⟩ := sound.of_bonded able.1
    exact ⟨sound'.addEvent (amount_pos_of_verify able.1.verified).le rfl, by simpa [Mosaic.SettlementCall.funded] using same⟩
  | requestUnbond bondId currentEpoch delay =>
    cases held : s.bonds.get? bondId with
    | none =>
      obtain ⟨e, raised⟩ := requestUnbond_unknown held currentEpoch delay
      cases (single_error raised).symm.trans ran
    | some found =>
      obtain ⟨able, -, rfl⟩ := (requestUnbond_concludes held currentEpoch delay).of_single_ok ran
      obtain ⟨sound', same⟩ := @Sound.of_leaving _ sound _ _ currentEpoch delay held
      exact ⟨sound'.addEvent le_rfl rfl, by simpa [Mosaic.SettlementCall.funded] using same⟩
  | withdraw bondId currentEpoch =>
    cases held : s.bonds.get? bondId with
    | none =>
      obtain ⟨e, raised⟩ := withdraw_unknown held currentEpoch
      cases (single_error raised).symm.trans ran
    | some found =>
      obtain ⟨able, -, rfl⟩ := (withdraw_concludes sound held currentEpoch).of_single_ok ran
      obtain ⟨sound', same⟩ := sound.of_paidOut held
      exact ⟨sound'.addEvent (sound.bonds bondId found held).amount rfl, by simpa [Mosaic.SettlementCall.funded] using same⟩
  | slash bondId amount epoch evidenceId reporter =>
    change slash bondId amount epoch evidenceId reporter s = .ok events t at ran
    cases slash_cases sound bondId amount epoch evidenceId reporter with
    | refused _ run | stopped _ _ _ _ _ _ run =>
      rw [run] at ran
      cases ran
    | @returned found penalty reward able least share nothing clear run =>
      rw [run] at ran
      cases ran
      have natural := (sound.of_penalizedBy able least).1
      refine ⟨sound.of_slashed able least (share ▸ (reporterShare_bounds s.toLedgerConfig natural reporter).2), ?_⟩
      rw [total_slashed able.held, nothing]
      simp [Mosaic.SettlementCall.funded]
    | @rewarded found penalty reward able least share something clear run =>
      rw [run] at ran
      cases ran
      subst share
      have natural := (sound.of_penalizedBy able least).1
      obtain ⟨low, high⟩ := reporterShare_bounds s.toLedgerConfig natural reporter
      have slashed := @Sound.of_slashed _ _ sound _ _ _ _ _ _ epoch able least high
      refine ⟨(slashed.credited ?_ (reporter_named something)).addEvent low rfl, ?_⟩
      · have := slashed.balanceOf (reporter.getD "")
        omega
      · rw [total_addEvent, total_credited, total_slashed able.held]
        simp [Mosaic.SettlementCall.funded]
  | chargeFee payer amount epoch txId =>
    obtain ⟨able, -, rfl⟩ := (chargeFee_concludes s payer amount epoch txId).of_single_ok ran
    obtain ⟨sound', same⟩ := sound.of_charged able
    exact ⟨sound'.addEvent able.positive.le rfl, by simpa [Mosaic.SettlementCall.funded] using same⟩
  | distributeRewards epoch total weights =>
    change distributeRewards epoch total weights s = .ok events t at ran
    cases distributeRewards_cases sound epoch total weights with
    | refused _ run | stopped _ _ _ _ run =>
      rw [run] at ran
      cases ran
    | returned able clear rewarded run =>
      rw [run] at ran
      cases ran
      refine ⟨rewarded.sound.settleEpoch epoch, ?_⟩
      rw [total_settleEpoch, rewarded.total, total_credited]
      simp [Mosaic.SettlementCall.funded]

end Strict.SettlementLedger

namespace SettlementLedger
variable {s t : SettlementLedger} [Crypto]

theorem Sound.run (sound : s.Sound) {call : SettlementCall} {events : List SettlementEvent}
    (ran : call.run s = .ok events t) : t.Sound ∧ t.total = s.total + call.funded := by
  rw [← Strict.SettlementCall.run_all] at ran
  exact @Strict.SettlementLedger.sound_run _ Texts.all _ _ sound _ _ ran

/-- What a call that returns has found and left of the bonds. -/
def BondsAfter (s t : SettlementLedger) : SettlementCall → Prop
  | .bond b _ => s.bonds.get? b.bondId = none ∧ t.bonds = s.bonds.set b.bondId (bondedPosition b)
  | .requestUnbond bondId currentEpoch delay => ∃ found, s.bonds.get? bondId = some found ∧
    t.bonds = s.bonds.set bondId (leaving found currentEpoch delay)
  | .withdraw bondId _ => t.bonds = s.bonds.erase bondId
  | .slash bondId amount _ _ _ => ∃ found, s.bonds.get? bondId = some found ∧ 0 < amount ∧
    t.bonds = s.bonds.set bondId (penalized found (min amount found.amount))
  | .fund .. | .chargeFee .. | .distributeRewards .. => t.bonds = s.bonds

theorem Sound.bondsAfter (sound : s.Sound) {call : SettlementCall} {events : List SettlementEvent}
    (ran : call.run s = .ok events t) : s.BondsAfter t call := by
  cases call with
  | fund account amount epoch sourceId =>
    rcases fund_cases s account amount epoch sourceId with ⟨-, e, raised⟩ | ⟨-, -, run⟩
    · cases (single_error raised).symm.trans ran
    · cases (single_ok run).symm.trans ran
      rfl
  | bond b currentEpoch =>
    obtain ⟨able, -, rfl⟩ := (bond_concludes s b currentEpoch).of_single_ok ran
    exact ⟨able.new, rfl⟩
  | requestUnbond bondId currentEpoch delay =>
    cases held : s.bonds.get? bondId with
    | none =>
      obtain ⟨e, raised⟩ := requestUnbond_unknown held currentEpoch delay
      cases (single_error raised).symm.trans ran
    | some found =>
      obtain ⟨-, -, rfl⟩ := (requestUnbond_concludes held currentEpoch delay).of_single_ok ran
      exact ⟨found, held, rfl⟩
  | withdraw bondId currentEpoch =>
    cases held : s.bonds.get? bondId with
    | none =>
      obtain ⟨e, raised⟩ := withdraw_unknown held currentEpoch
      cases (single_error raised).symm.trans ran
    | some found =>
      obtain ⟨-, -, rfl⟩ := (withdraw_concludes sound held currentEpoch).of_single_ok ran
      rfl
  | slash bondId amount epoch evidenceId reporter =>
    change slash bondId amount epoch evidenceId reporter s = .ok events t at ran
    cases slash_cases sound bondId amount epoch evidenceId reporter with
    | refused _ run | stopped _ _ _ _ _ _ run => cases run.symm.trans ran
    | returned able least _ _ _ run | rewarded able least _ _ _ run =>
      cases run.symm.trans ran
      subst least
      exact ⟨_, able.held, able.positive, rfl⟩
  | chargeFee payer amount epoch txId =>
    obtain ⟨-, -, rfl⟩ := (chargeFee_concludes s payer amount epoch txId).of_single_ok ran
    rfl
  | distributeRewards epoch total weights =>
    change distributeRewards epoch total weights s = .ok events t at ran
    cases distributeRewards_cases sound epoch total weights with
    | refused _ run | stopped _ _ _ _ run => cases run.symm.trans ran
    | returned _ _ rewarded run =>
      cases run.symm.trans ran
      exact rewarded.bonds

theorem Sound.runAll {calls : List SettlementCall} (sound : s.Sound) (ran : SettlementCall.runAll calls s = .ok ⟨⟩ t) :
    t.Sound ∧ t.total = s.total + (calls.map SettlementCall.funded).sum := by
  induction calls generalizing s with
  | nil =>
    cases ran
    exact ⟨sound, by simp⟩
  | cons call calls ih =>
    obtain ⟨events, u, first, later⟩ := bind_eq_ok.mp ran
    obtain ⟨sound', total⟩ := sound.run first
    obtain ⟨sound'', total'⟩ := ih sound' later
    refine ⟨sound'', ?_⟩
    rw [total', total, List.map_cons, List.sum_cons]
    omega

omit [Crypto] in
theorem Sound.audit (sound : s.Sound) : s.audit = true := by
  have balances : ∀ amount ∈ s.balances.values, 0 ≤ amount := by
    intro amount member
    obtain ⟨account, held⟩ := Dict.mem_values.mp member
    exact (sound.balances account amount held).1
  have bonds : ∀ found ∈ s.bonds.values, found.Sound s.asset := by
    intro found member
    obtain ⟨bondId, held⟩ := Dict.mem_values.mp member
    exact sound.bonds bondId found held
  have events : ∀ event ∈ s.events.values, 0 ≤ event.amount ∧ event.asset = s.asset := by
    intro event member
    obtain ⟨eventId, held⟩ := Dict.mem_values.mp member
    exact sound.events eventId event held
  simp only [SettlementLedger.audit, Bool.and_eq_true, List.all_eq_true, decide_eq_true_eq, Bool.not_eq_true']
  refine ⟨⟨balances, fun found member => ⟨⟨(bonds found member).amount, (bonds found member).asset⟩, ?_⟩⟩, events⟩
  have apart := (bonds found member).apart
  cases active : found.active <;> cases unbonding : found.unbonding <;> simp_all

end SettlementLedger

/-- Calls that all return keep the money together: what was funded is in the
balances and the bonds, and every bond that is left is active or unbonding. -/
theorem settlement_conserves [Crypto] {config : LedgerConfig} {calls : List SettlementCall} {s : SettlementLedger}
    (ran : SettlementCall.runAll calls (.fresh config) = .ok ⟨⟩ s) :
    s.balances.values.sum + (s.bonds.values.map BondPosition.amount).sum = (calls.map SettlementCall.funded).sum ∧
      (∀ amount ∈ s.balances.values, 0 ≤ amount) ∧ (∀ found ∈ s.bonds.values, 0 ≤ found.amount) ∧ s.audit = true ∧
      ∀ found ∈ s.bonds.values, 0 < found.amount →
        (found.active = true ∧ found.unbonding = false ∨ found.active = false ∧ found.unbonding = true) := by
  obtain ⟨sound, total⟩ := (fresh_sound config).runAll ran
  refine ⟨?_, fun amount member => ?_, fun found member => ?_, sound.audit, fun found member left => ?_⟩
  · have start : (SettlementLedger.fresh config).total = 0 := rfl
    rw [start, zero_add] at total
    rw [← total]
    simp [SettlementLedger.total, Dict.sumBy]
  · obtain ⟨account, held⟩ := Dict.mem_values.mp member
    exact (sound.balances account amount held).1
  · obtain ⟨bondId, held⟩ := Dict.mem_values.mp member
    exact (sound.bonds bondId found held).amount
  · obtain ⟨bondId, held⟩ := Dict.mem_values.mp member
    have proper := sound.bonds bondId found held
    have apart := proper.apart
    rcases proper.placed left with active | unbonding
    · exact Or.inl ⟨active, by simpa [active] using apart⟩
    · exact Or.inr ⟨by simpa [unbonding] using apart, unbonding⟩

section Fee
variable [Crypto]

/-- The defaults of `__init__`. -/
def plainLedger : LedgerConfig where
  assetNamed := by decide
  treasuryNamed := by decide
  share := by decide

/-- An account is funded and pays a fee. -/
def feeCalls : List SettlementCall := [.fund "a" 10 0 (some "source"), .chargeFee "a" 3 0 "tx"]

/-- A fresh ledger in which the account was funded. -/
def fundedLedger (config : LedgerConfig) (account : String) (amount : Int) : SettlementLedger :=
  ((SettlementLedger.fresh config).addEvent
    ((SettlementLedger.fresh config).fundEvent account amount 0 (some "source"))).credited account amount

variable {config : LedgerConfig} {account : String} {amount : Int}

theorem fundedLedger_run (able : Fundable account amount) :
    (SettlementCall.fund account amount 0 (some "source")).run (.fresh config) =
      .ok [(SettlementLedger.fresh config).fundEvent account amount 0 (some "source")]
        (fundedLedger config account amount) := by
  have new : ¬ (SettlementLedger.fresh config).Recorded
      ((SettlementLedger.fresh config).fundEvent account amount 0 (some "source")) := not_not.mpr rfl
  exact single_ok (fund_ok able new)

theorem fundedLedger_balance : (fundedLedger config account amount).balanceOf account = amount := by
  have start : (SettlementLedger.fresh config).balanceOf account = 0 := rfl
  rw [fundedLedger, balanceOf_credited, if_pos rfl, balanceOf_addEvent, start, zero_add]

/-- Nothing but the funding was recorded. -/
theorem event_new (free : CollisionFree) {kind account' relatedId : String} {epoch amount' : Int}
    {metadata : List (String × String)} (other : kind ≠ "FUND") :
    ¬ (fundedLedger config account amount).Recorded (eventFor config kind epoch account' amount' relatedId metadata) := by
  have split := recorded_addEvent (.fresh config)
    ((SettlementLedger.fresh config).fundEvent account amount 0 (some "source"))
    (eventFor config kind epoch account' amount' relatedId metadata)
  intro recorded
  rcases split.mp recorded with same | old
  · exact other (eventFor_inj free same).1.symm
  · exact old rfl

theorem feeCalls_run (free : CollisionFree) : ∃ s, SettlementCall.runAll feeCalls (.fresh plainLedger) = .ok ⟨⟩ s := by
  have funded : Fundable "a" 10 := by simp [Fundable]
  have able : (fundedLedger plainLedger "a" 10).Payable "a" 3 "tx" :=
    ⟨by decide, by decide, by rw [fundedLedger_balance]; decide⟩
  have paid := (chargeFee_concludes (fundedLedger plainLedger "a" 10) "a" 3 0 "tx").ok able (event_new free (by decide))
  have ran : (SettlementCall.chargeFee "a" 3 0 "tx").run (fundedLedger plainLedger "a" 10) = _ := single_ok paid
  exact ⟨_, (bind_of_ok (fundedLedger_run funded)).trans (bind_of_ok ran)⟩

omit [Crypto] in
/-- Of ten coins three go to the treasury. -/
theorem settlement_conserves_fee : let _ := Crypto.ideal
    ∃ s, SettlementCall.runAll feeCalls (.fresh plainLedger) = .ok ⟨⟩ s ∧
      s.balances.values.sum + (s.bonds.values.map BondPosition.amount).sum = 10 ∧ s.audit = true := by
  obtain ⟨s, ran⟩ := @feeCalls_run Crypto.ideal ideal_collisionFree
  obtain ⟨total, -, -, audit, -⟩ := @settlement_conserves Crypto.ideal _ _ _ ran
  exact ⟨s, ran, total, audit⟩

end Fee

end Mosaic
