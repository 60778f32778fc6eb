import Mosaic.SettlementConservation

namespace Mosaic
open CanonicalJson Effects SettlementLedger

variable [Crypto]

namespace SettlementCall

/-- The ledgers that calls make of a fresh one, those that raise included. -/
abbrev Reached (config : LedgerConfig) : SettlementLedger → Prop :=
  GuardedRun exec (fun _ _ => True) (.fresh config)

/-- The call is not stopped by one of its events, or by a bond that a
distribution names, once it has changed the ledger. -/
def Clean (s : SettlementLedger) : SettlementCall → Prop
  | fund .. => True
  | bond b currentEpoch => ¬ (s.Bondable b currentEpoch ∧ s.Recorded (s.bondEvent b currentEpoch))
  | requestUnbond bondId currentEpoch delay =>
    ∀ found, ¬ (s.Unbondable bondId found delay ∧ s.Recorded (s.unbondEvent bondId found currentEpoch))
  | withdraw bondId currentEpoch =>
    ∀ found, ¬ (s.Withdrawable bondId found currentEpoch ∧ s.Recorded (s.withdrawEvent bondId found currentEpoch))
  | slash bondId amount epoch evidenceId reporter => ∀ found, s.Slashable bondId found amount evidenceId →
    ¬ s.SlashBlocked found (min amount found.amount)
      (reporterShare s.toLedgerConfig (min amount found.amount) reporter) epoch evidenceId reporter
  | chargeFee payer amount epoch txId =>
    payer = s.treasury ∨ ¬ (s.Payable payer amount txId ∧ s.Recorded (s.feeEvent payer amount epoch txId))
  | distributeRewards epoch total weights =>
    s.Distributable epoch total weights → s.RewardsClear epoch total weights ∨
      ∃ bondId weight found, weights.entries = [(bondId, weight)] ∧ s.bonds.get? bondId = some found ∧
        found.owner = s.treasury

/-- The call passes its checks, and the events that it records are new. -/
def Accepts (s : SettlementLedger) : SettlementCall → Prop
  | fund account amount epoch sourceId =>
    Fundable account amount ∧ ¬ s.Recorded (s.fundEvent account amount epoch sourceId)
  | bond b currentEpoch => s.Bondable b currentEpoch ∧ ¬ s.Recorded (s.bondEvent b currentEpoch)
  | requestUnbond bondId currentEpoch delay =>
    ∃ found, s.Unbondable bondId found delay ∧ ¬ s.Recorded (s.unbondEvent bondId found currentEpoch)
  | withdraw bondId currentEpoch =>
    ∃ found, s.Withdrawable bondId found currentEpoch ∧ ¬ s.Recorded (s.withdrawEvent bondId found currentEpoch)
  | slash bondId amount epoch evidenceId reporter => ∃ found, s.Slashable bondId found amount evidenceId ∧
    ¬ s.SlashBlocked found (min amount found.amount)
      (reporterShare s.toLedgerConfig (min amount found.amount) reporter) epoch evidenceId reporter
  | chargeFee payer amount epoch txId =>
    s.Payable payer amount txId ∧ ¬ s.Recorded (s.feeEvent payer amount epoch txId)
  | distributeRewards epoch total weights => s.Distributable epoch total weights ∧ s.RewardsClear epoch total weights

/-- The call raises and leaves the ledger as it was, or it returns. -/
def Atomic (s : SettlementLedger) (call : SettlementCall) : Prop := ∀ e t, call.run s = .error e t → t = s

end SettlementCall

omit [Crypto] in
theorem Concludes.atomic_iff {x : PyLedger SettlementEvent} {s t : SettlementLedger} {admitted blocked : Prop}
    {event : SettlementEvent}
    (concludes : Concludes x s admitted t event blocked) (other : admitted → t ≠ s) :
    (∀ e u, (([·]) <$> x) s = .error e u → u = s) ↔ ¬ (admitted ∧ blocked) := by
  cases concludes with
  | refused refused run =>
    refine ⟨fun _ both => refused both.1, fun _ e u ran => ?_⟩
    cases (single_error run).symm.trans ran
    rfl
  | stopped holds old run =>
    exact ⟨fun atomic => absurd (atomic _ _ (single_error run)) (other holds), fun clean => absurd ⟨holds, old⟩ clean⟩
  | returned _ new run =>
    refine ⟨fun _ both => new both.2, fun _ e u ran => ?_⟩
    cases (single_ok run).symm.trans ran

omit [Crypto] in
theorem Concludes.returns_iff {x : PyLedger SettlementEvent} {s t : SettlementLedger} {admitted blocked : Prop}
    {event : SettlementEvent} (concludes : Concludes x s admitted t event blocked) :
    (∃ events u, (([·]) <$> x) s = .ok events u) ↔ admitted ∧ ¬ blocked := by
  cases concludes with
  | refused refused run =>
    refine iff_of_false ?_ fun both => refused both.1
    rintro ⟨events, u, ran⟩
    cases (single_error run).symm.trans ran
  | stopped holds old run =>
    refine iff_of_false ?_ fun both => both.2 old
    rintro ⟨events, u, ran⟩
    cases (single_error run).symm.trans ran
  | returned holds new run => exact iff_of_true ⟨_, _, single_ok run⟩ ⟨holds, new⟩

omit [Crypto] in
theorem unknown_raises {x : PyLedger SettlementEvent} {s : SettlementLedger} (raises : ∃ e, x s = .error e s) :
    ¬ ∃ events u, (([·]) <$> x) s = .ok events u := by
  obtain ⟨e, raised⟩ := raises
  rintro ⟨events, u, ran⟩
  cases (single_error raised).symm.trans ran

omit [Crypto] in
/-- A call on a bond that is not there changes nothing. -/
theorem unknown_atomic {x : PyLedger SettlementEvent} {s : SettlementLedger} (raises : ∃ e, x s = .error e s) :
    ∀ e u, (([·]) <$> x) s = .error e u → u = s := by
  obtain ⟨e, raised⟩ := raises
  intro _ u ran
  cases (single_error raised).symm.trans ran
  rfl

namespace SettlementLedger

variable {s t : SettlementLedger}

omit [Crypto] in
theorem ne_of_balanceOf {account : String} (other : t.balanceOf account ≠ s.balanceOf account) : t ≠ s := by
  rintro rfl
  exact other rfl

omit [Crypto] in
theorem ne_of_position {bondId : String} (other : t.bonds.get? bondId ≠ s.bonds.get? bondId) : t ≠ s := by
  rintro rfl
  exact other rfl

omit [Crypto] in
/-- What is taken from an account and given back is not missed. -/
theorem credited_back {account : String} {amount : Int} (positive : 0 < amount) (enough : amount ≤ s.balanceOf account) :
    (s.credited account (-amount)).credited account amount = s := by
  have here : s.balances.get? account = some (s.balanceOf account) := by
    cases held : s.balances.get? account with
    | none =>
      simp only [SettlementLedger.balanceOf, held, Option.getD_none] at enough
      omega
    | some found => simp [SettlementLedger.balanceOf, held]
  have back : (s.credited account (-amount)).balanceOf account + amount = s.balanceOf account := by
    rw [balanceOf_credited, if_pos rfl]
    omega
  have balances : ((s.credited account (-amount)).credited account amount).balances = s.balances := by
    rw [credited, setBalance_balances, back, credited, setBalance_balances, Dict.set_set, Dict.set_get? here]
  cases s
  simp only [credited, setBalance] at balances ⊢
  rw [balances]

theorem bonded_ne {b : StakeBond} {currentEpoch : Int} (able : s.Bondable b currentEpoch) : s.bonded b ≠ s := by
  refine @ne_of_position _ _ b.bondId ?_
  rw [bonded, setPosition_bonds, Dict.get?_set_self, able.new]
  exact Option.some_ne_none _

omit [Crypto] in
theorem leaving_ne {bondId : String} {found : BondPosition} {currentEpoch delay : Int}
    (able : s.Unbondable bondId found delay) : s.setPosition (leaving found currentEpoch delay) bondId ≠ s := by
  refine @ne_of_position _ _ bondId fun same => ?_
  rw [setPosition_bonds, Dict.get?_set_self, able.held] at same
  have active := congrArg BondPosition.active (Option.some.inj same)
  rw [able.active] at active
  cases active

omit [Crypto] in
theorem paidOut_ne {bondId : String} {found : BondPosition} {currentEpoch : Int}
    (able : s.Withdrawable bondId found currentEpoch) : s.paidOut bondId found ≠ s := by
  refine @ne_of_position _ _ bondId ?_
  have gone : (s.paidOut bondId found).bonds.get? bondId = none := by
    change (s.bonds.erase bondId).get? bondId = none
    rw [Dict.get?_erase, if_pos rfl]
  rw [gone, able.held]
  exact (Option.some_ne_none found).symm

omit [Crypto] in
theorem balanceOf_charged {payer : String} (other : s.treasury ≠ payer) (amount : Int) :
    (s.charged payer amount).balanceOf payer = s.balanceOf payer - amount := by
  rw [charged, balanceOf_credited, balanceOf_credited, if_pos rfl, if_neg other]
  omega

omit [Crypto] in
theorem charged_ne {payer txId : String} {amount : Int} (able : s.Payable payer amount txId) (other : payer ≠ s.treasury) :
    s.charged payer amount ≠ s := by
  refine @ne_of_balanceOf _ _ payer ?_
  have positive := able.positive
  rw [balanceOf_charged other.symm]
  omega

omit [Crypto] in
theorem ordered_singleton {weights : Dict String Int} {entry : String × Int} :
    ordered weights = [entry] ↔ weights.entries = [entry] := by
  have perm : (ordered weights).Perm weights.entries := sortedBy_perm Prod.fst weights.entries
  constructor
  · intro one
    rw [one] at perm
    exact List.perm_singleton.mp perm.symm
  · intro one
    rw [one] at perm
    exact List.perm_singleton.mp perm

omit [Crypto] in
/-- An entry that is not the only one gets less than there is. -/
theorem rewardShare_lt {total weight : Int} {rest : List Int} (positive : 0 < total) (first : 0 < weight)
    (others : ∀ value ∈ rest, 0 < value) (more : rest ≠ []) :
    rewardShare total (weight + rest.sum) 0 weight false < total := by
  have heavy : 0 < rest.sum := List.sum_pos _ others more
  have below : total * weight < total * (weight + rest.sum) := mul_lt_mul_of_pos_left (by omega) positive
  exact Int.ediv_lt_of_lt_mul (by omega) below

omit [Crypto] in
/-- A loop that stops has given the treasury its money back only where the
treasury itself owns the one bond that is named. -/
theorem Halts.eq_iff {epoch total : Int} {weights : Dict String Int} (able : s.Distributable epoch total weights)
    (halts : (s.credited s.treasury (-total)).Halts total weights.values.sum 0 (ordered weights) t) :
    t = s ↔ ∃ bondId weight found, weights.entries = [(bondId, weight)] ∧ s.bonds.get? bondId = some found ∧
      found.owner = s.treasury := by
  have positive := able.positive
  cases halts with
  | unknown atFirst unknown =>
    refine iff_of_false (@ne_of_balanceOf _ _ s.treasury ?_) ?_
    · rw [balanceOf_credited, if_pos rfl]
      omega
    · rintro ⟨bondId, weight, found, one, held, -⟩
      rw [ordered_singleton.mpr one] at atFirst
      cases atFirst
      cases held.symm.trans unknown
  | @repeated bondId weight later found atFirst held =>
    have perm : ((bondId, weight) :: later).Perm weights.entries := atFirst ▸ sortedBy_perm Prod.fst weights.entries
    have values : ∀ entry ∈ (bondId, weight) :: later, 0 < entry.2 := fun entry member =>
      able.weights entry.2 (List.mem_map_of_mem (perm.mem_iff.mp member))
    have sum : weights.values.sum = weight + (later.map Prod.snd).sum := (perm.map Prod.snd).sum_eq.symm
    cases later with
    | nil =>
      have one : weights.entries = [(bondId, weight)] := ordered_singleton.mp atFirst
      have share : rewardShare total weights.values.sum 0 weight ([] : List (String × Int)).isEmpty = total := by
        simp [rewardShare]
      rw [share]
      by_cases treasury : found.owner = s.treasury
      · rw [treasury, credited_back positive able.enough]
        exact iff_of_true rfl ⟨bondId, weight, found, one, held, treasury⟩
      · refine iff_of_false (@ne_of_balanceOf _ _ s.treasury ?_) ?_
        · rw [balanceOf_credited, balanceOf_credited, if_pos rfl, if_neg treasury]
          omega
        · rintro ⟨bondId', weight', found', one', held', treasury'⟩
          rw [one] at one'
          cases one'
          cases held.symm.trans held'
          exact treasury treasury'
    | cons next later =>
      have less : rewardShare total weights.values.sum 0 weight (next :: later).isEmpty < total := by
        rw [sum]
        refine rewardShare_lt positive (values _ List.mem_cons_self) (fun value member => ?_) (by simp)
        obtain ⟨entry, inLater, rfl⟩ := List.mem_map.mp member
        exact values entry (List.mem_cons_of_mem _ inLater)
      refine iff_of_false (@ne_of_balanceOf _ _ s.treasury ?_) ?_
      · rw [balanceOf_credited, balanceOf_credited, if_pos rfl]
        split <;> omega
      · rintro ⟨bondId', weight', found', one, -⟩
        rw [ordered_singleton.mpr one] at atFirst
        cases atFirst
  | later more new old =>
    refine iff_of_false ?_ ?_
    · rintro rfl
      exact old new
    · rintro ⟨bondId, weight, found, one, -⟩
      rw [ordered_singleton.mpr one] at more
      exact more rfl

end SettlementLedger

omit [Crypto] in
/-- A call on a bond returns when some position under its name allows it. -/
theorem onBond_returns_iff {x : PyLedger SettlementEvent} {s : SettlementLedger} {bondId : String}
    {able new : BondPosition → Prop} (holds : ∀ found, able found → s.bonds.get? bondId = some found)
    (unknown : s.bonds.get? bondId = none → ∃ e, x s = .error e s)
    (known : ∀ found, s.bonds.get? bondId = some found →
      ((∃ events t, (([·]) <$> x) s = .ok events t) ↔ able found ∧ new found)) :
    (∃ events t, (([·]) <$> x) s = .ok events t) ↔ ∃ found, able found ∧ new found := by
  cases held : s.bonds.get? bondId with
  | none =>
    refine iff_of_false (unknown_raises (unknown held)) ?_
    rintro ⟨found, allowed, -⟩
    cases held.symm.trans (holds found allowed)
  | some found =>
    refine (known found held).trans ⟨fun both => ⟨found, both⟩, ?_⟩
    rintro ⟨other, allowed, fresh⟩
    cases held.symm.trans (holds other allowed)
    exact ⟨allowed, fresh⟩

omit [Crypto] in
/-- A call on a bond changes something when it fails just where the position under
its name allows it and its event is recorded. -/
theorem onBond_atomic_iff {x : PyLedger SettlementEvent} {s : SettlementLedger} {bondId : String}
    {able old : BondPosition → Prop} (holds : ∀ found, able found → s.bonds.get? bondId = some found)
    (unknown : s.bonds.get? bondId = none → ∃ e, x s = .error e s)
    (known : ∀ found, s.bonds.get? bondId = some found →
      ((∀ e t, (([·]) <$> x) s = .error e t → t = s) ↔ ¬ (able found ∧ old found))) :
    (∀ e t, (([·]) <$> x) s = .error e t → t = s) ↔ ∀ found, ¬ (able found ∧ old found) := by
  cases held : s.bonds.get? bondId with
  | none =>
    refine iff_of_true (unknown_atomic (unknown held)) fun found both => ?_
    cases held.symm.trans (holds found both.1)
  | some found =>
    refine (known found held).trans ⟨fun clean other both => ?_, fun clean => clean found⟩
    cases held.symm.trans (holds other both.1)
    exact clean both

namespace Strict.SettlementCall
open Mosaic.SettlementLedger

variable [Texts]

/-- The call is not stopped by one of its events, or by a bond that a
distribution names, once it has changed the ledger. -/
def Clean (s : SettlementLedger) : SettlementCall → Prop
  | .fund .. => True
  | .bond b currentEpoch =>
    ¬ ((s.Bondable b currentEpoch ∧ b.statement.Encodable) ∧ s.Barred (s.bondEvent b currentEpoch))
  | .requestUnbond bondId currentEpoch delay =>
    ∀ found, ¬ (s.Unbondable bondId found delay ∧ s.Barred (s.unbondEvent bondId found currentEpoch))
  | .withdraw bondId currentEpoch =>
    ∀ found, ¬ (s.Withdrawable bondId found currentEpoch ∧ s.Barred (s.withdrawEvent bondId found currentEpoch))
  | .slash bondId amount epoch evidenceId reporter => ∀ found, s.Slashable bondId found amount evidenceId →
    ¬ SettlementLedger.SlashBarred s epoch evidenceId reporter found (min amount found.amount)
      (reporterShare s.toLedgerConfig (min amount found.amount) reporter)
  | .chargeFee payer amount epoch txId =>
    payer = s.treasury ∨ ¬ (s.Payable payer amount txId ∧ s.Barred (s.feeEvent payer amount epoch txId))
  | .distributeRewards epoch total weights =>
    s.Distributable epoch total weights → SettlementLedger.RewardsClear s epoch total weights ∨
      ∃ bondId weight found, weights.entries = [(bondId, weight)] ∧ s.bonds.get? bondId = some found ∧
        found.owner = s.treasury

/-- The call passes its checks, and the ledger takes the events that it records. -/
def Accepts (s : SettlementLedger) : SettlementCall → Prop
  | .fund account amount epoch sourceId =>
    Fundable account amount ∧ ¬ s.Barred (s.fundEvent account amount epoch sourceId)
  | .bond b currentEpoch =>
    (s.Bondable b currentEpoch ∧ b.statement.Encodable) ∧ ¬ s.Barred (s.bondEvent b currentEpoch)
  | .requestUnbond bondId currentEpoch delay =>
    ∃ found, s.Unbondable bondId found delay ∧ ¬ s.Barred (s.unbondEvent bondId found currentEpoch)
  | .withdraw bondId currentEpoch =>
    ∃ found, s.Withdrawable bondId found currentEpoch ∧ ¬ s.Barred (s.withdrawEvent bondId found currentEpoch)
  | .slash bondId amount epoch evidenceId reporter => ∃ found, s.Slashable bondId found amount evidenceId ∧
    ¬ SettlementLedger.SlashBarred s epoch evidenceId reporter found (min amount found.amount)
      (reporterShare s.toLedgerConfig (min amount found.amount) reporter)
  | .chargeFee payer amount epoch txId =>
    s.Payable payer amount txId ∧ ¬ s.Barred (s.feeEvent payer amount epoch txId)
  | .distributeRewards epoch total weights =>
    s.Distributable epoch total weights ∧ SettlementLedger.RewardsClear s epoch total weights

/-- The call raises and leaves the ledger as it was, or it returns. -/
def Atomic (s : SettlementLedger) (call : SettlementCall) : Prop := ∀ e t, run call s = .error e t → t = s

end Strict.SettlementCall

namespace Strict.SettlementLedger
open Mosaic.SettlementLedger

variable [Texts] {s t : SettlementLedger}

/-- However a call ends, the ledger stays sound. -/
theorem sound_exec (sound : s.Sound) (call : SettlementCall) : (SettlementCall.exec call s).Sound := by
  cases ran : SettlementCall.run call s with
  | ok events t =>
    rw [SettlementCall.exec, final_of_ok ran]
    exact (sound_run sound ran).1
  | error e t =>
    rw [SettlementCall.exec, final_of_error ran]
    have concludes : ∀ {x : PyLedger SettlementEvent} {admitted blocked : Prop} {u : SettlementLedger} {event : SettlementEvent},
        Concludes x s admitted u event blocked → (admitted → u.Sound) → (([·]) <$> x) s = .error e t → t.Sound := by
      intro x admitted blocked u event concludes proper ran
      rcases concludes.of_single_error ran with rfl | ⟨holds, rfl⟩
      · exact sound
      · exact proper holds
    cases call with
    | fund account amount epoch sourceId =>
      rcases fund_cases s account amount epoch sourceId with ⟨-, e, raised⟩ | ⟨-, -, run⟩
      · cases (single_error raised).symm.trans ran
        exact sound
      · cases (single_ok run).symm.trans ran
    | bond b currentEpoch => exact concludes (bond_concludes s b currentEpoch) (fun able => (sound.of_bonded able.1).1) ran
    | requestUnbond bondId currentEpoch delay =>
      cases held : s.bonds.get? bondId with
      | none =>
        obtain ⟨e, raised⟩ := requestUnbond_unknown held currentEpoch delay
        cases (single_error raised).symm.trans ran
        exact sound
      | some found =>
        exact concludes (requestUnbond_concludes held currentEpoch delay) (fun _ => (sound.of_leaving held).1) ran
    | withdraw bondId currentEpoch =>
      cases held : s.bonds.get? bondId with
      | none =>
        obtain ⟨e, raised⟩ := withdraw_unknown held currentEpoch
        cases (single_error raised).symm.trans ran
        exact sound
      | some found =>
        exact concludes (withdraw_concludes sound held currentEpoch) (fun _ => (sound.of_paidOut held).1) ran
    | slash bondId amount epoch evidenceId reporter =>
      change slash bondId amount epoch evidenceId reporter s = .error e t at ran
      cases slash_cases sound bondId amount epoch evidenceId reporter with
      | refused _ run =>
        cases run.symm.trans ran
        exact sound
      | stopped _ _ _ _ _ proper run =>
        cases run.symm.trans ran
        exact proper
      | returned _ _ _ _ _ run | rewarded _ _ _ _ _ run => cases run.symm.trans ran
    | chargeFee payer amount epoch txId =>
      exact concludes (chargeFee_concludes s payer amount epoch txId) (fun able => (sound.of_charged able).1) ran
    | distributeRewards epoch total weights =>
      change distributeRewards epoch total weights s = .error e t at ran
      cases distributeRewards_cases sound epoch total weights with
      | refused _ run =>
        cases run.symm.trans ran
        exact sound
      | stopped _ _ _ proper run =>
        cases run.symm.trans ran
        exact proper
      | returned _ _ _ run => cases run.symm.trans ran

theorem sound_of_reached {config : LedgerConfig} (reached : SettlementCall.Reached config s) : s.Sound :=
  reached.invariant (fresh_sound config) fun _ call _ sound => sound_exec sound call

/-- A call returns when the ledger accepts it, and only then. -/
theorem returns_iff {s : SettlementLedger} (sound : s.Sound) (call : SettlementCall) :
    (∃ events t, SettlementCall.run call s = .ok events t) ↔ SettlementCall.Accepts s call := by
  cases call with
  | fund account amount epoch sourceId =>
    rcases fund_cases s account amount epoch sourceId with ⟨unable, raises⟩ | ⟨able, new, run⟩
    · exact iff_of_false (unknown_raises raises) fun both => unable.elim (fun un => un both.1) both.2
    · exact iff_of_true ⟨_, _, single_ok run⟩ ⟨able, new⟩
  | bond b currentEpoch => exact (bond_concludes s b currentEpoch).returns_iff
  | requestUnbond bondId currentEpoch delay =>
    exact onBond_returns_iff (fun _ able => able.held) (requestUnbond_unknown · currentEpoch delay)
      fun _ held => (requestUnbond_concludes held currentEpoch delay).returns_iff
  | withdraw bondId currentEpoch =>
    exact onBond_returns_iff (fun _ able => able.held) (withdraw_unknown · currentEpoch)
      fun _ held => (withdraw_concludes sound held currentEpoch).returns_iff
  | slash bondId amount epoch evidenceId reporter =>
    have run : SettlementCall.run (.slash bondId amount epoch evidenceId reporter) s =
      slash bondId amount epoch evidenceId reporter s := rfl
    rw [run]
    cases slash_cases sound bondId amount epoch evidenceId reporter with
    | refused refused raised =>
      refine iff_of_false ?_ fun able => refused _ able.choose_spec.1
      rintro ⟨events, t, ran⟩
      cases raised.symm.trans ran
    | stopped able least share blocked _ _ raised =>
      subst share least
      refine iff_of_false ?_ ?_
      · rintro ⟨events, t, ran⟩
        cases raised.symm.trans ran
      · rintro ⟨other, able', clear⟩
        cases able.held.symm.trans able'.held
        exact clear blocked
    | returned able least share _ clear returned | rewarded able least share _ clear returned =>
      subst share least
      exact iff_of_true ⟨_, _, returned⟩ ⟨_, able, clear⟩
  | chargeFee payer amount epoch txId => exact (chargeFee_concludes s payer amount epoch txId).returns_iff
  | distributeRewards epoch total weights =>
    have run : SettlementCall.run (.distributeRewards epoch total weights) s = distributeRewards epoch total weights s := rfl
    rw [run]
    cases distributeRewards_cases sound epoch total weights with
    | refused refused raised =>
      refine iff_of_false ?_ fun both => refused both.1
      rintro ⟨events, t, ran⟩
      cases raised.symm.trans ran
    | stopped able blocked _ _ raised =>
      refine iff_of_false ?_ fun both => blocked both.2
      rintro ⟨events, t, ran⟩
      cases raised.symm.trans ran
    | returned able clear _ returned => exact iff_of_true ⟨_, _, returned⟩ ⟨able, clear⟩

/-- A call that returns leaves its mark: an event, used evidence or a settled epoch. -/
theorem returned_ne {s t : SettlementLedger} (sound : s.Sound) {call : SettlementCall} {events : List SettlementEvent}
    (ran : SettlementCall.run call s = .ok events t) : t ≠ s := by
  have concludes : ∀ {x : PyLedger SettlementEvent} {admitted : Prop} {u : SettlementLedger} {event : SettlementEvent},
      Concludes x s admitted u event (s.Barred event) → (([·]) <$> x) s = .ok events t → t ≠ s := by
    intro x admitted u event concludes ran
    obtain ⟨-, new, rfl⟩ := concludes.of_single_ok ran
    intro same
    exact new (Or.inr (same ▸ (recorded_addEvent u event event).mpr (Or.inl rfl)))
  cases call with
  | fund account amount epoch sourceId =>
    rcases fund_cases s account amount epoch sourceId with ⟨-, e, raised⟩ | ⟨-, new, run⟩
    · cases (single_error raised).symm.trans ran
    · cases (single_ok run).symm.trans ran
      intro same
      exact new (Or.inr (same ▸ (recorded_addEvent s _ _).mpr (Or.inl rfl)))
  | bond b currentEpoch => exact concludes (bond_concludes s b currentEpoch) ran
  | requestUnbond bondId currentEpoch delay =>
    obtain ⟨found, able, -⟩ := (returns_iff sound _).mp ⟨_, _, ran⟩
    exact concludes (requestUnbond_concludes able.held currentEpoch delay) ran
  | withdraw bondId currentEpoch =>
    obtain ⟨found, able, -⟩ := (returns_iff sound _).mp ⟨_, _, ran⟩
    exact concludes (withdraw_concludes sound able.held currentEpoch) ran
  | slash bondId amount epoch evidenceId reporter =>
    change slash bondId amount epoch evidenceId reporter s = .ok events t at ran
    cases slash_cases sound bondId amount epoch evidenceId reporter with
    | refused _ run | stopped _ _ _ _ _ _ run => cases run.symm.trans ran
    | returned able _ _ _ _ run | rewarded able _ _ _ _ run =>
      cases run.symm.trans ran
      intro same
      exact able.new (same ▸ Finset.mem_insert_self _ _)
  | chargeFee payer amount epoch txId => exact concludes (chargeFee_concludes s payer amount epoch txId) ran
  | distributeRewards epoch total weights =>
    change distributeRewards epoch total weights s = .ok events t at ran
    cases distributeRewards_cases sound epoch total weights with
    | refused _ run | stopped _ _ _ _ run => cases run.symm.trans ran
    | returned able _ _ run =>
      cases run.symm.trans ran
      intro same
      exact able.new (same ▸ Finset.mem_insert_self _ _)

/-- A distribution that fails changes nothing, unless it has found the money and
its loop stops. -/
theorem distributeRewards_atomic_iff {s : SettlementLedger} (sound : s.Sound) (epoch total : Int) (weights : Dict String Int) :
    SettlementCall.Atomic s (.distributeRewards epoch total weights) ↔
      SettlementCall.Clean s (.distributeRewards epoch total weights) := by
  have run : SettlementCall.run (.distributeRewards epoch total weights) s = distributeRewards epoch total weights s := rfl
  cases distributeRewards_cases sound epoch total weights with
  | refused refused raised =>
    refine iff_of_true (fun e t ran => ?_) fun able => absurd able refused
    cases raised.symm.trans (run.symm.trans ran)
    rfl
  | stopped able blocked halts _ raised =>
    constructor
    · intro atomic _
      exact Or.inr ((halts.eq_iff able).mp (atomic _ _ (run.trans raised)))
    · intro clean e t ran
      cases raised.symm.trans (run.symm.trans ran)
      exact (halts.eq_iff able).mpr ((clean able).resolve_left blocked)
  | returned able clear _ returned =>
    refine iff_of_true (fun e t ran => ?_) fun _ => Or.inl clear
    cases returned.symm.trans (run.symm.trans ran)

/-- A slash that fails changes nothing, unless it is stopped by one of its events
or by its reporter. -/
theorem slash_atomic_iff {s : SettlementLedger} (sound : s.Sound) (bondId : String) (amount epoch : Int)
    (evidenceId : String) (reporter : Option String) :
    SettlementCall.Atomic s (.slash bondId amount epoch evidenceId reporter) ↔
      SettlementCall.Clean s (.slash bondId amount epoch evidenceId reporter) := by
  have run : SettlementCall.run (.slash bondId amount epoch evidenceId reporter) s =
    slash bondId amount epoch evidenceId reporter s := rfl
  cases slash_cases sound bondId amount epoch evidenceId reporter with
  | refused refused raised =>
    refine iff_of_true (fun e t ran => ?_) fun found able => absurd able (refused found)
    cases raised.symm.trans (run.symm.trans ran)
    rfl
  | stopped able least share blocked touched _ raised =>
    subst share least
    refine iff_of_false (fun atomic => able.new ?_) fun clean => clean _ able blocked
    rw [← atomic _ _ (run.trans raised)]
    exact touched
  | returned able least share _ clear returned | rewarded able least share _ clear returned =>
    subst share least
    refine iff_of_true (fun e t ran => ?_) fun other able' => ?_
    · cases returned.symm.trans (run.symm.trans ran)
    · cases able.held.symm.trans able'.held
      exact clear

/-- The treasury that pays a fee has it back when the event stops the call. -/
theorem chargeFee_atomic_iff (s : SettlementLedger) (payer : String) (amount epoch : Int) (txId : String) :
    SettlementCall.Atomic s (.chargeFee payer amount epoch txId) ↔
      SettlementCall.Clean s (.chargeFee payer amount epoch txId) := by
  by_cases treasury : payer = s.treasury
  · refine iff_of_true (fun e t ran => ?_) (Or.inl treasury)
    cases chargeFee_concludes s payer amount epoch txId with
    | refused _ run =>
      cases (single_error run).symm.trans ran
      rfl
    | stopped able _ run =>
      cases (single_error run).symm.trans ran
      rw [charged, ← treasury]
      exact credited_back able.positive able.enough
    | returned _ _ run => cases (single_ok run).symm.trans ran
  · refine ((chargeFee_concludes s payer amount epoch txId).atomic_iff fun able => charged_ne able treasury).trans ?_
    exact ⟨Or.inr, fun clean => clean.resolve_left treasury⟩

/-- A call that raises leaves the ledger as it was exactly when no event of it,
or bond that it names, stops it after its first change. -/
theorem failed_call_unchanged_iff {config : LedgerConfig} {s : SettlementLedger} (reached : SettlementCall.Reached config s)
    (call : SettlementCall) : SettlementCall.Atomic s call ↔ SettlementCall.Clean s call := by
  have sound := sound_of_reached reached
  cases call with
  | fund account amount epoch sourceId =>
    refine iff_of_true (fun e t ran => ?_) trivial
    rcases fund_cases s account amount epoch sourceId with ⟨-, e, raised⟩ | ⟨-, -, run⟩
    · cases (single_error raised).symm.trans ran
      rfl
    · cases (single_ok run).symm.trans ran
  | bond b currentEpoch => exact (bond_concludes s b currentEpoch).atomic_iff fun able => bonded_ne able.1
  | requestUnbond bondId currentEpoch delay =>
    exact onBond_atomic_iff (fun _ able => able.held) (requestUnbond_unknown · currentEpoch delay)
      fun _ held => (requestUnbond_concludes held currentEpoch delay).atomic_iff leaving_ne
  | withdraw bondId currentEpoch =>
    exact onBond_atomic_iff (fun _ able => able.held) (withdraw_unknown · currentEpoch)
      fun _ held => (withdraw_concludes sound held currentEpoch).atomic_iff paidOut_ne
  | slash bondId amount epoch evidenceId reporter =>
    exact slash_atomic_iff sound bondId amount epoch evidenceId reporter
  | chargeFee payer amount epoch txId => exact chargeFee_atomic_iff s payer amount epoch txId
  | distributeRewards epoch total weights => exact distributeRewards_atomic_iff sound epoch total weights

end Strict.SettlementLedger

namespace Strict.SettlementCall

theorem exec_all (call : SettlementCall) : @exec _ Texts.all call = call.exec := by
  funext s
  let _ := Texts.all
  rw [exec, run_all]
  rfl

theorem accepts_all (s : SettlementLedger) (call : SettlementCall) : @Accepts _ Texts.all s call = call.Accepts s := by
  let _ := Texts.all
  cases call with
  | bond b currentEpoch =>
    simp only [Accepts, Mosaic.SettlementCall.Accepts, barred_all, and_iff_left (encodable_all _)]
  | slash bondId amount epoch evidenceId reporter =>
    simp only [Accepts, Mosaic.SettlementCall.Accepts, SettlementLedger.SlashBarred, SlashBlocked, barred_all]
  | distributeRewards epoch total weights =>
    simp only [Accepts, Mosaic.SettlementCall.Accepts, SettlementLedger.rewardsClear_all]
  | fund | requestUnbond | withdraw | chargeFee => simp only [Accepts, Mosaic.SettlementCall.Accepts, barred_all]

end Strict.SettlementCall

namespace SettlementLedger

variable {s : SettlementLedger}

theorem Sound.exec (sound : s.Sound) (call : SettlementCall) : (call.exec s).Sound := by
  rw [← Strict.SettlementCall.exec_all]
  exact @Strict.SettlementLedger.sound_exec _ Texts.all s sound call

theorem sound_of_reached {config : LedgerConfig} (reached : SettlementCall.Reached config s) : s.Sound :=
  reached.invariant (fresh_sound config) fun _ call _ sound => sound.exec call

end SettlementLedger

/-- A call returns when the ledger accepts it, and only then. -/
theorem returns_iff {s : SettlementLedger} (sound : s.Sound) (call : SettlementCall) :
    (∃ events t, call.run s = .ok events t) ↔ call.Accepts s := by
  rw [← Strict.SettlementCall.run_all, ← Strict.SettlementCall.accepts_all]
  exact @Strict.SettlementLedger.returns_iff _ Texts.all s sound call

theorem returned_ne {s t : SettlementLedger} (sound : s.Sound) {call : SettlementCall} {events : List SettlementEvent}
    (ran : call.run s = .ok events t) : t ≠ s := by
  rw [← Strict.SettlementCall.run_all] at ran
  exact @Strict.SettlementLedger.returned_ne _ Texts.all s t sound call events ran

theorem distributeRewards_atomic_iff {s : SettlementLedger} (sound : s.Sound) (epoch total : Int) (weights : Dict String Int) :
    (SettlementCall.distributeRewards epoch total weights).Atomic s ↔
      (SettlementCall.distributeRewards epoch total weights).Clean s := by
  have atomic := @Strict.SettlementLedger.distributeRewards_atomic_iff _ Texts.all s sound epoch total weights
  simp only [Strict.SettlementCall.Atomic, Strict.SettlementCall.Clean, Strict.SettlementCall.run_all,
    Strict.SettlementLedger.rewardsClear_all] at atomic
  exact atomic

section Replay

theorem fundedLedger_reached {config : LedgerConfig} {account : String} {amount : Int} (able : Fundable account amount) :
    SettlementCall.Reached config (fundedLedger config account amount) := by
  have run : SettlementCall.Reached config
      ((SettlementCall.fund account amount 0 (some "source")).exec (.fresh config)) := .tail .refl trivial
  rwa [SettlementCall.exec, final_of_ok (fundedLedger_run able)] at run

namespace Strict.SettlementLedger

/-- Where the event can be encoded the account is funded. -/
theorem fundedLedger_reached [Texts] {config : LedgerConfig} {account : String} {amount : Int}
    (able : Fundable account amount)
    (fine : ((SettlementLedger.fresh config).fundEvent account amount 0 (some "source")).statement.Encodable) :
    SettlementCall.Reached config (fundedLedger config account amount) := by
  have run : SettlementCall.Reached config
      (SettlementCall.exec (.fund account amount 0 (some "source")) (.fresh config)) := .tail .refl trivial
  rcases fund_cases (.fresh config) account amount 0 (some "source") with ⟨unable | barred, -⟩ | ⟨-, -, returned⟩
  · exact absurd able unable
  · exact absurd barred (not_or.mpr ⟨not_not.mpr fine, not_not.mpr rfl⟩)
  · have ran : SettlementCall.run (.fund account amount 0 (some "source")) (.fresh config) = _ := single_ok returned
    rwa [SettlementCall.exec, final_of_ok ran] at run

omit [Crypto] in
/-- A funding that is replayed changes nothing. -/
theorem failed_call_unchanged_replay : let _ := Crypto.ideal; let _ := Texts.lone
    SettlementCall.Atomic (fundedLedger plainLedger "a" 10) (.fund "a" 10 0 (some "source")) := by
  intro _ _
  have able : Fundable "a" 10 := by simp [Fundable]
  have fine : ((SettlementLedger.fresh plainLedger).fundEvent "a" 10 0 (some "source")).statement.Encodable := by
    refine encodable_of_absent (fun _ other => decide_eq_true other) ?_
    decide
  exact (failed_call_unchanged_iff (fundedLedger_reached able fine) _).mpr trivial

end Strict.SettlementLedger

/-- The ledger when the account has paid a fee of one. -/
def chargedLedger : SettlementLedger :=
  ((fundedLedger plainLedger "a" 10).charged "a" 1).addEvent ((fundedLedger plainLedger "a" 10).feeEvent "a" 1 0 "tx")

theorem chargedLedger_run (free : CollisionFree) :
    (SettlementCall.chargeFee "a" 1 0 "tx").run (fundedLedger plainLedger "a" 10) =
      .ok [(fundedLedger plainLedger "a" 10).feeEvent "a" 1 0 "tx"] chargedLedger := by
  have able : (fundedLedger plainLedger "a" 10).Payable "a" 1 "tx" :=
    ⟨by decide, by decide, by rw [fundedLedger_balance]; decide⟩
  exact single_ok ((chargeFee_concludes _ "a" 1 0 "tx").ok able (event_new free (by decide)))

theorem fundedLedger_treasury : (fundedLedger plainLedger "a" 10).treasury ≠ "a" := by
  have treasury : (fundedLedger plainLedger "a" 10).treasury = "mosaic:treasury" := rfl
  rw [treasury]
  decide

theorem chargedLedger_balance : chargedLedger.balanceOf "a" = 9 := by
  rw [chargedLedger, balanceOf_addEvent, balanceOf_charged fundedLedger_treasury, fundedLedger_balance]
  rfl

/-- The fee is charged again, and the event that tells so comes when one more
coin is gone. -/
theorem chargedLedger_again : ∃ e, (SettlementCall.chargeFee "a" 1 0 "tx").run chargedLedger =
    .error e (chargedLedger.charged "a" 1) := by
  have old : chargedLedger.Recorded (chargedLedger.feeEvent "a" 1 0 "tx") :=
    (recorded_addEvent _ _ _).mpr (Or.inl rfl)
  have able : chargedLedger.Payable "a" 1 "tx" := ⟨by decide, by decide, by rw [chargedLedger_balance]; decide⟩
  cases chargeFee_concludes chargedLedger "a" 1 0 "tx" with
  | refused refused _ => exact absurd able refused
  | stopped _ _ run => exact ⟨_, single_error run⟩
  | returned _ new _ => exact absurd old new

omit [Crypto] in
theorem Strict.SettlementLedger.failed_fee_is_debited : let _ := Crypto.ideal; let _ := Texts.all
    ∃ s, SettlementCall.Reached plainLedger s ∧
      ∃ e t, SettlementCall.run (.chargeFee "a" 1 0 "tx") s = .error e t ∧ s.balanceOf "a" = 9 ∧ t.balanceOf "a" = 8 := by
  intro _ _
  have funded : Fundable "a" 10 := by simp [Fundable]
  have reached : SettlementCall.Reached plainLedger chargedLedger := by
    have run : SettlementCall.Reached plainLedger
        (SettlementCall.exec (.chargeFee "a" 1 0 "tx") (fundedLedger plainLedger "a" 10)) :=
      .tail (fundedLedger_reached funded (encodable_all _)) trivial
    rwa [SettlementCall.exec_all, Mosaic.SettlementCall.exec, final_of_ok (chargedLedger_run ideal_collisionFree)] at run
  obtain ⟨e, again⟩ := chargedLedger_again
  have other : chargedLedger.treasury ≠ "a" := fundedLedger_treasury
  refine ⟨chargedLedger, reached, e, chargedLedger.charged "a" 1, ?_, chargedLedger_balance, ?_⟩
  · rw [SettlementCall.run_all]
    exact again
  · rw [balanceOf_charged other, chargedLedger_balance]
    rfl

end Replay

end Mosaic
