import Mosaic.Lib.Floors
import Mosaic.SettlementAtomicity

namespace Mosaic
open CanonicalJson Effects

namespace SettlementLedger

/-- The entries before the last get their floors, the last one what is left. -/
theorem rewardAmounts_append (total totalWeight distributed : Int) (entries : List (String × Int)) (last : String × Int) :
    rewardAmounts total totalWeight distributed (entries ++ [last]) =
      entries.map (fun entry => total * entry.2 / totalWeight) ++
        [total - distributed - (entries.map fun entry => total * entry.2 / totalWeight).sum] := by
  induction entries generalizing distributed with
  | nil => simp [rewardAmounts, rewardShare]
  | cons entry entries ih =>
    have more : (entries ++ [last]).isEmpty = false := by simp
    simp only [List.cons_append, rewardAmounts, rewardShare, more, Bool.false_eq_true, if_false, ih, List.map_cons,
      List.sum_cons]
    congr 3
    omega

variable [Crypto] {s t : SettlementLedger} {epoch total : Int} {weights : Dict String Int} {events : List SettlementEvent}

omit [Crypto] in
theorem position_eq_ok {bondId : String} {found : BondPosition} (ran : position bondId s = .ok found t) :
    s.bonds.get? bondId = some found ∧ s = t := by
  cases held : s.bonds.get? bondId with
  | none =>
    obtain ⟨e, raised⟩ := position_raises held
    cases raised.symm.trans ran
  | some position =>
    cases (position_ok held).symm.trans ran
    exact ⟨rfl, rfl⟩

omit [Crypto] in
theorem credit_eq_ok {account : String} {amount : Int} {u : PUnit} (ran : credit account amount s = .ok u t) :
    t = s.credited account amount := by
  unfold credit at ran
  obtain ⟨-, ran⟩ := raiseIf_bind_eq_ok ran
  cases ran
  rfl

omit [Crypto] in
theorem debit_eq_ok {account : String} {amount : Int} {u : PUnit} (ran : debit account amount s = .ok u t) :
    t = s.credited account (-amount) := by
  unfold debit at ran
  rw [get_bind_apply] at ran
  obtain ⟨-, ran⟩ := raiseIf_bind_eq_ok ran
  cases ran
  rfl

theorem recordEvent_eq_ok {kind account relatedId : String} {amount : Int} {metadata : List (String × String)}
    {event : SettlementEvent} (ran : recordEvent kind epoch account amount relatedId metadata s = .ok event t) :
    event = eventFor s.toLedgerConfig kind epoch account amount relatedId metadata ∧ t = s.addEvent event := by
  unfold recordEvent at ran
  rw [get_bind_apply] at ran
  obtain ⟨-, ran⟩ := raiseIf_bind_eq_ok ran
  cases ran
  exact ⟨rfl, rfl⟩

/-- What the events pay to the account. -/
def paidTo (account : String) (events : List SettlementEvent) : Int :=
  ((events.filter fun event => event.account = account).map SettlementEvent.amount).sum

omit [Crypto] in
@[simp] theorem paidTo_nil (account : String) : paidTo account [] = 0 := rfl

omit [Crypto] in
theorem paidTo_cons (account : String) (event : SettlementEvent) (events : List SettlementEvent) :
    paidTo account (event :: events) = (if event.account = account then event.amount else 0) + paidTo account events := by
  by_cases here : event.account = account <;> simp [paidTo, here]

theorem rewardFrom_pays {totalWeight distributed : Int} {entries : List (String × Int)}
    (ran : rewardFrom epoch total totalWeight distributed entries s = .ok events t) :
    events = rewardEvents s.toLedgerConfig s.bonds epoch total totalWeight distributed entries ∧
      ∀ account, t.balanceOf account = s.balanceOf account + paidTo account events := by
  induction entries generalizing s distributed events with
  | nil =>
    cases ran
    exact ⟨rfl, by simp⟩
  | cons entry entries ih =>
    obtain ⟨bondId, weight⟩ := entry
    obtain ⟨found, u, looked, ran⟩ := bind_eq_ok.mp ran
    obtain ⟨_, v, credited, ran⟩ := bind_eq_ok.mp ran
    obtain ⟨event, w, recorded, ran⟩ := bind_eq_ok.mp ran
    obtain ⟨later, _, went, ran⟩ := bind_eq_ok.mp ran
    cases ran
    obtain ⟨held, rfl⟩ := position_eq_ok looked
    cases credit_eq_ok credited
    obtain ⟨made, rfl⟩ := recordEvent_eq_ok recorded
    obtain ⟨rfl, paid⟩ := ih went
    have owner : ownerOf s.bonds bondId = found.owner := by simp [ownerOf, held]
    refine ⟨?_, fun account => ?_⟩
    · rw [rewardEvents, owner, made]
      rfl
    · rw [paid, balanceOf_addEvent, balanceOf_credited, paidTo_cons, made, add_assoc]
      rfl

section Events
variable (config : LedgerConfig) (bonds : Dict String BondPosition) (totalWeight distributed : Int)
  (entries : List (String × Int))

theorem rewardEvents_amounts : (rewardEvents config bonds epoch total totalWeight distributed entries).map
    SettlementEvent.amount = rewardAmounts total totalWeight distributed entries := by
  induction entries generalizing distributed with
  | nil => rfl
  | cons entry entries ih => simp only [rewardEvents, rewardAmounts, List.map_cons, ih, eventFor]

theorem rewardEvents_payees : (rewardEvents config bonds epoch total totalWeight distributed entries).map
    (fun event => (event.relatedId, event.account)) = entries.map fun entry => (entry.1, ownerOf bonds entry.1) := by
  induction entries generalizing distributed with
  | nil => rfl
  | cons entry entries ih => simp only [rewardEvents, List.map_cons, ih, eventFor]

end Events

/-- A distribution that returns has passed its guards. -/
theorem distributeRewards_eq_ok (ran : distributeRewards epoch total weights s = .ok events t) :
    0 < total ∧ weights.entries ≠ [] ∧ (∀ value ∈ weights.values, 0 < value) ∧
      events = rewardEvents s.toLedgerConfig s.bonds epoch total weights.values.sum 0 (ordered weights) ∧
      ∀ account, t.balanceOf account = (s.credited s.treasury (-total)).balanceOf account + paidTo account events := by
  unfold distributeRewards at ran
  rw [get_bind_apply] at ran
  obtain ⟨-, ran⟩ := raiseIf_bind_eq_ok ran
  obtain ⟨valid, ran⟩ := raiseIf_bind_eq_ok ran
  obtain ⟨_, u, debited, ran⟩ := bind_eq_ok.mp ran
  obtain ⟨paid, v, went, ran⟩ := bind_eq_ok.mp ran
  cases ran
  cases debit_eq_ok debited
  obtain ⟨made, balances⟩ := rewardFrom_pays went
  obtain ⟨positive, some, heavy⟩ : 0 < total ∧ weights.entries ≠ [] ∧ ∀ value ∈ weights.values, 0 < value := by
    simpa only [not_or, not_le, ne_eq, not_exists, not_and] using valid
  exact ⟨positive, some, heavy, made, balances⟩

omit [Crypto] in
theorem sum_ordered (weights : Dict String Int) : ((ordered weights).map Prod.snd).sum = weights.values.sum :=
  ((sortedBy_perm Prod.fst weights.entries).map Prod.snd).sum_eq

omit [Crypto] in
theorem sum_values_pos (some : weights.entries ≠ []) (heavy : ∀ value ∈ weights.values, 0 < value) :
    0 < weights.values.sum :=
  List.sum_pos _ heavy (by simpa [Dict.values] using some)

omit [Crypto] in
/-- The last entry gets its floor and what the floors have lost. -/
theorem rewardAmounts_last (total : Int) {entries : List (String × Int)} {last : String × Int} {totalWeight : Int}
    (weighty : 0 < totalWeight) (sum : ((entries ++ [last]).map Prod.snd).sum = totalWeight) :
    ∃ rest, rewardAmounts total totalWeight 0 (entries ++ [last]) =
        entries.map (fun entry => total * entry.2 / totalWeight) ++ [rest] ∧
      total * last.2 / totalWeight ≤ rest ∧ rest ≤ total * last.2 / totalWeight + entries.length := by
  have below := Floors.sum_floors_le total Prod.snd weighty sum
  have above := Floors.lt_sum_floors total Prod.snd weighty sum (by simp)
  simp only [List.map_append, List.sum_append, List.map_cons, List.map_nil, List.sum_singleton, List.length_append,
    List.length_singleton, Nat.cast_add, Nat.cast_one] at below above
  refine ⟨_, rewardAmounts_append total totalWeight 0 entries last, ?_, ?_⟩ <;> omega

/-- The amounts add up to the total, each bond gets its part rounded down and
the last one also what is left over, the owners are paid for all their bonds,
and the treasury pays. -/
theorem distributeRewards_exact (ran : distributeRewards epoch total weights s = .ok events t) :
    (events.map SettlementEvent.amount).sum = total ∧
    events.map (fun event => (event.relatedId, event.account)) =
      (ordered weights).map (fun entry => (entry.1, ownerOf s.bonds entry.1)) ∧
    (∃ entries last rest, ordered weights = entries ++ [last] ∧
      events.map SettlementEvent.amount =
        entries.map (fun entry => total * entry.2 / weights.values.sum) ++ [rest] ∧
      total * last.2 / weights.values.sum ≤ rest ∧
      rest ≤ total * last.2 / weights.values.sum + weights.entries.length - 1) ∧
    (∀ account, t.balanceOf account =
      s.balanceOf account - (if account = s.treasury then total else 0) + paidTo account events) ∧
    ∀ weights' : Dict String Int, weights'.entries.Perm weights.entries →
      distributeRewards epoch total weights' = distributeRewards epoch total weights := by
  obtain ⟨positive, some, heavy, rfl, balances⟩ := distributeRewards_eq_ok ran
  have weighty := sum_values_pos some heavy
  have perm : (ordered weights).Perm weights.entries := sortedBy_perm Prod.fst weights.entries
  have some' : ordered weights ≠ [] := fun none => some (List.nil_perm.mp (none ▸ perm))
  rw [rewardEvents_amounts, rewardEvents_payees]
  refine ⟨by rw [sum_rewardAmounts some', sub_zero], rfl, ?_, fun account => ?_,
    fun weights' same => distributeRewards_perm same epoch total⟩
  · obtain ⟨entries, last, split⟩ := (List.eq_nil_or_concat' (ordered weights)).resolve_left some'
    rw [split] at perm ⊢
    obtain ⟨rest, amounts, low, high⟩ := rewardAmounts_last total weighty (split ▸ sum_ordered weights)
    refine ⟨entries, last, rest, rfl, amounts, low, ?_⟩
    have long := perm.length_eq
    simp only [List.length_append, List.length_singleton] at long
    omega
  · rw [balances, balanceOf_credited]
    by_cases here : s.treasury = account
    · rw [if_pos here, if_pos here.symm, sub_eq_add_neg]
    · rw [if_neg here, if_neg (Ne.symm here), sub_zero, add_zero]

section Shares

/-- The treasury has ten coins, and one account owns both bonds. -/
def sharedLedger : SettlementLedger :=
  (((fresh plainLedger).credited "mosaic:treasury" 10).setPosition ⟨"x", "a", "MOSAIC", 5, 0, true, false⟩ "x").setPosition
    ⟨"y", "a", "MOSAIC", 5, 0, true, false⟩ "y"

def sharedWeights : Dict String Int := ⟨[("x", 1), ("y", 2)], by decide⟩

omit [Crypto] in
theorem sharedLedger_sound : sharedLedger.Sound := by
  have start : ((fresh plainLedger).credited "mosaic:treasury" 10).Sound :=
    (fresh_sound plainLedger).credited (by decide) (by decide)
  refine (start.setPosition ⟨by decide, by decide, rfl, by decide, by decide⟩ "x").setPosition ?_ "y"
  exact ⟨by decide, by decide, rfl, by decide, by decide⟩

omit [Crypto] in
theorem ordered_sharedWeights : ordered sharedWeights = [("x", 1), ("y", 2)] := by
  have pairwise : sharedWeights.entries.Pairwise fun a b => a.1 ≤ b.1 := by decide
  exact sortedBy_of_pairwise pairwise

theorem sharedLedger_run (free : CollisionFree) :
    ∃ events t, distributeRewards 0 10 sharedWeights sharedLedger = .ok events t := by
  have able : sharedLedger.Distributable 0 10 sharedWeights :=
    ⟨Finset.notMem_empty 0, by decide, by decide, by decide, by decide⟩
  have clear : sharedLedger.RewardsClear 0 10 sharedWeights := by
    rw [RewardsClear, ordered_sharedWeights]
    refine ⟨by decide, fun event _ => not_not.mpr rfl, ?_⟩
    simp only [rewardEvents, List.map_cons, List.map_nil, List.nodup_cons, List.mem_singleton, List.not_mem_nil,
      not_false_eq_true, List.nodup_nil, and_true]
    exact fun same => absurd (eventFor_inj free same).2.2.2 (by decide)
  cases distributeRewards_cases sharedLedger_sound 0 10 sharedWeights with
  | refused refused _ => exact absurd able refused
  | stopped _ blocked _ _ _ => exact absurd clear blocked
  | returned _ _ _ run => exact ⟨_, _, run⟩

omit [Crypto] in
/-- Of ten coins every one goes to the owner of both bonds. -/
theorem distributeRewards_exact_shared : let _ := Crypto.ideal
    ∃ events t, distributeRewards 0 10 sharedWeights sharedLedger = .ok events t ∧
      (events.map SettlementEvent.amount).sum = 10 ∧
      events.map (fun event => (event.relatedId, event.account)) = [("x", "a"), ("y", "a")] := by
  intro _
  obtain ⟨events, t, ran⟩ := sharedLedger_run ideal_collisionFree
  obtain ⟨sum, payees, -⟩ := distributeRewards_exact ran
  refine ⟨events, t, ran, sum, payees.trans ?_⟩
  rw [ordered_sharedWeights]
  rfl

end Shares

end SettlementLedger

end Mosaic
