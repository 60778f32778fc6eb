import Mosaic.Security
import Mathlib.Algebra.Order.BigOperators.Group.List
import Mathlib.Tactic.Linarith
import Mathlib.Tactic.Ring

namespace Mosaic
open Effects

namespace TokenBucket

variable {T : Type}

/-- The amount of the calls at times from `s` to `t`. -/
def spent [Zero T] [Add T] [LE T] [DecidableLE T] (s t : T) (calls : List (T × T)) : T :=
  ((calls.filter fun call => s ≤ call.2 ∧ call.2 ≤ t).map Prod.fst).sum

variable [Field T] [LinearOrder T]

/-- Whether the call is allowed. -/
def allows (b : TokenBucket T) (amount now : T) : Bool :=
  match allow amount now b with
  | .ok answer _ => answer
  | .error _ _ => false

/-- The bucket after the calls, each an amount and a time. -/
def after (b : TokenBucket T) : List (T × T) → TokenBucket T
  | [] => b
  | (amount, now) :: calls => after (final (allow amount now) b) calls

/-- The calls that are allowed. -/
def accepted (b : TokenBucket T) : List (T × T) → List (T × T)
  | [] => []
  | (amount, now) :: calls =>
    if b.allows amount now then (amount, now) :: accepted (final (allow amount now) b) calls
    else accepted (final (allow amount now) b) calls

/-- The bucket is neither overdrawn nor overfull. -/
structure Bounded (b : TokenBucket T) : Prop where
  refills : 0 < b.refillPerSecond
  tokens_nonneg : 0 ≤ b.tokens
  tokens_le : b.tokens ≤ b.capacity

variable {b : TokenBucket T} {amount now s t : T} {calls : List (T × T)}

theorem bounded_of_create {capacity refillPerSecond created : T}
    (built : create capacity refillPerSecond created = .ok b) :
    b.Bounded ∧ b.capacity = capacity ∧ b.refillPerSecond = refillPerSecond ∧ b.updatedAt = created := by
  obtain ⟨valid, rest⟩ := refuseIf_bind_eq_ok.mp built
  cases rest
  rw [not_or, not_le, not_le] at valid
  exact ⟨⟨valid.2, valid.1.le, le_refl _⟩, rfl, rfl, rfl⟩

theorem allow_cases (positive : 0 < amount) (now : T) (b : TokenBucket T) :
    amount ≤ (b.refill now).tokens ∧ allow amount now b = .ok true ((b.refill now).spend amount) ∨
      (b.refill now).tokens < amount ∧ allow amount now b = .ok false (b.refill now) := by
  have start : allow amount now b = (if (b.refill now).tokens < amount then return false else do
      modify (spend amount)
      return true : EStateM SecurityFault (TokenBucket T) Bool) (b.refill now) :=
    raiseIf_bind_neg (not_le.mpr positive) _ _ _
  rcases le_or_gt amount (b.refill now).tokens with enough | short
  · rw [if_neg (not_lt.mpr enough)] at start
    exact Or.inl ⟨enough, start⟩
  · rw [if_pos short] at start
    exact Or.inr ⟨short, start⟩

theorem spent_cons_of_mem (from_s : s ≤ now) (to_t : now ≤ t) (calls : List (T × T)) :
    spent s t ((amount, now) :: calls) = amount + spent s t calls := by
  rw [spent, List.filter_cons_of_pos (by exact decide_eq_true ⟨from_s, to_t⟩), List.map_cons, List.sum_cons, spent]

theorem spent_cons_of_not (outside : ¬ (s ≤ now ∧ now ≤ t)) (calls : List (T × T)) :
    spent s t ((amount, now) :: calls) = spent s t calls := by
  rw [spent, List.filter_cons_of_neg (by rwa [decide_eq_true_iff]), spent]

/-- What comes later is not counted. -/
theorem spent_of_late (late : ∀ call ∈ calls, t < call.2) (s : T) : spent s t calls = 0 := by
  have none : calls.filter (fun call => s ≤ call.2 ∧ call.2 ≤ t) = [] := by
    refine List.filter_eq_nil_iff.mpr fun call member => ?_
    rw [decide_eq_true_iff]
    exact fun inside => not_le.mpr (late call member) inside.2
  rw [spent, none, List.map_nil, List.sum_nil]

theorem accepted_sublist (b : TokenBucket T) (calls : List (T × T)) : (b.accepted calls).Sublist calls := by
  induction calls generalizing b with
  | nil => exact List.Sublist.refl _
  | cons call calls ih =>
    rw [accepted]
    split
    · exact (ih _).cons_cons _
    · exact (ih _).cons _

/-- Nothing is counted when the first call comes too late. -/
theorem spent_accepted_of_late (late : t < now) (ordered : (now :: calls.map Prod.snd).Pairwise (· ≤ ·))
    (b : TokenBucket T) (amount s : T) : spent s t (b.accepted ((amount, now) :: calls)) = 0 := by
  refine spent_of_late (fun call member => ?_) s
  rcases List.mem_cons.mp ((accepted_sublist _ _).subset member) with rfl | old
  · exact late
  · exact late.trans_le (List.rel_of_pairwise_cons ordered (List.mem_map_of_mem old))

theorem refill_refill (b : TokenBucket T) (now : T) : (b.refill now).refill now = b.refill now := by
  simp [refill]

/-- A call refills the bucket first. -/
theorem allow_refill (positive : 0 < amount) (b : TokenBucket T) (now : T) :
    allow amount now (b.refill now) = allow amount now b := by
  have again := allow_cases positive now (b.refill now)
  rw [refill_refill] at again
  rcases allow_cases positive now b with ⟨enough, run⟩ | ⟨short, run⟩
  · rcases again with ⟨-, run'⟩ | ⟨short, -⟩
    · exact run'.trans run.symm
    · exact absurd enough (not_le.mpr short)
  · rcases again with ⟨enough, -⟩ | ⟨-, run'⟩
    · exact absurd enough (not_le.mpr short)
    · exact run'.trans run.symm

theorem accepted_refill (positive : 0 < amount) (b : TokenBucket T) (now : T) (calls : List (T × T)) :
    (b.refill now).accepted ((amount, now) :: calls) = b.accepted ((amount, now) :: calls) := by
  have same := allow_refill positive b now
  rw [accepted, accepted, allows, allows, final, final, same]

section Bounds
variable [IsStrictOrderedRing T]

theorem Bounded.refill (bounded : b.Bounded) (now : T) : (b.refill now).Bounded := by
  refine ⟨bounded.refills, le_min (bounded.tokens_nonneg.trans bounded.tokens_le) ?_, min_le_left _ _⟩
  exact add_nonneg bounded.tokens_nonneg (mul_nonneg (le_max_left _ _) bounded.refills.le)

/-- No more comes in than the rate lets in. -/
theorem refill_tokens_le (b : TokenBucket T) (later : b.updatedAt ≤ now) :
    (b.refill now).tokens ≤ b.tokens + b.refillPerSecond * (now - b.updatedAt) := by
  refine (min_le_right _ _).trans ?_
  rw [max_eq_right (sub_nonneg.mpr later), mul_comm]

theorem Bounded.spend (bounded : b.Bounded) (positive : 0 < amount) (enough : amount ≤ b.tokens) :
    (b.spend amount).Bounded :=
  ⟨bounded.refills, sub_nonneg.mpr enough, (sub_le_self _ positive.le).trans bounded.tokens_le⟩

/-- A call keeps the bucket bounded, and what it allows it takes away. -/
theorem allow_step (bounded : b.Bounded) (positive : 0 < amount) (now : T) :
    ∃ taken, (final (allow amount now) b).Bounded ∧ (final (allow amount now) b).capacity = b.capacity ∧
      (final (allow amount now) b).refillPerSecond = b.refillPerSecond ∧
      (final (allow amount now) b).updatedAt = now ∧
      (final (allow amount now) b).tokens = (b.refill now).tokens - taken ∧
      (b.allows amount now = true ∧ taken = amount ∨ b.allows amount now = false ∧ taken = 0) := by
  have full := bounded.refill now
  rcases allow_cases positive now b with ⟨enough, run⟩ | ⟨-, run⟩
  · rw [allows, final_of_ok run, run]
    exact ⟨amount, full.spend positive enough, rfl, rfl, rfl, rfl, Or.inl ⟨rfl, rfl⟩⟩
  · rw [allows, final_of_ok run, run]
    exact ⟨0, full, rfl, rfl, rfl, (sub_zero _).symm, Or.inr ⟨rfl, rfl⟩⟩

theorem Bounded.after (bounded : b.Bounded) (positive : ∀ call ∈ calls, 0 < call.1) :
    (b.after calls).Bounded ∧ (b.after calls).capacity = b.capacity := by
  induction calls generalizing b with
  | nil => exact ⟨bounded, rfl⟩
  | cons call calls ih =>
    obtain ⟨here, later⟩ := List.forall_mem_cons.mp positive
    obtain ⟨_, kept, capacity, -⟩ := allow_step bounded here call.2
    obtain ⟨kept', capacity'⟩ := ih kept later
    exact ⟨kept', capacity'.trans capacity⟩

/-- What is allowed was in the bucket or came in since. -/
theorem spent_le_tokens (bounded : b.Bounded) (positive : ∀ call ∈ calls, 0 < call.1)
    (ordered : (b.updatedAt :: calls.map Prod.snd).Pairwise (· ≤ ·)) (until_t : b.updatedAt ≤ t) (s : T) :
    spent s t (b.accepted calls) ≤ b.tokens + b.refillPerSecond * (t - b.updatedAt) := by
  have credit : 0 ≤ b.tokens + b.refillPerSecond * (t - b.updatedAt) :=
    add_nonneg bounded.tokens_nonneg (mul_nonneg bounded.refills.le (sub_nonneg.mpr until_t))
  induction calls generalizing b with
  | nil => exact credit
  | cons call calls ih =>
    obtain ⟨amount, now⟩ := call
    obtain ⟨here, later⟩ := List.forall_mem_cons.mp positive
    rw [List.map_cons, List.pairwise_cons] at ordered
    have since := ordered.1 now List.mem_cons_self
    rcases lt_or_ge t now with late | soon
    · rw [spent_accepted_of_late late ordered.2]
      exact credit
    · obtain ⟨taken, kept, -, rate, at_now, left, outcome⟩ := allow_step bounded here now
      have income := refill_tokens_le b since
      have rest := ih kept later (by rw [at_now]; exact ordered.2) (by rw [at_now]; exact soon)
        (add_nonneg kept.tokens_nonneg (mul_nonneg kept.refills.le (sub_nonneg.mpr (by rw [at_now]; exact soon))))
      rw [rate, at_now, left] at rest
      have total : b.refillPerSecond * (t - b.updatedAt) =
          b.refillPerSecond * (now - b.updatedAt) + b.refillPerSecond * (t - now) := by ring
      rw [accepted]
      rcases outcome with ⟨allowed, rfl⟩ | ⟨refused, rfl⟩
      · rw [if_pos allowed]
        by_cases inside : s ≤ now ∧ now ≤ t
        · rw [spent_cons_of_mem inside.1 inside.2]
          linarith
        · rw [spent_cons_of_not inside]
          linarith
      · rw [if_neg (by rw [refused]; decide)]
        linarith

/-- In any span no more is allowed than a full bucket and what comes in. -/
theorem spent_le_capacity (bounded : b.Bounded) (positive : ∀ call ∈ calls, 0 < call.1)
    (ordered : (b.updatedAt :: calls.map Prod.snd).Pairwise (· ≤ ·)) (span : s ≤ t) :
    spent s t (b.accepted calls) ≤ b.capacity + b.refillPerSecond * (t - s) := by
  have credit : 0 ≤ b.capacity + b.refillPerSecond * (t - s) :=
    add_nonneg (bounded.tokens_nonneg.trans bounded.tokens_le) (mul_nonneg bounded.refills.le (sub_nonneg.mpr span))
  induction calls generalizing b with
  | nil => exact credit
  | cons call calls ih =>
    obtain ⟨amount, now⟩ := call
    obtain ⟨here, later⟩ := List.forall_mem_cons.mp positive
    have full := bounded.refill now
    rw [List.map_cons, List.pairwise_cons] at ordered
    rcases lt_or_ge now s with early | started
    · -- the call is before the span
      obtain ⟨_, kept, capacity, rate, at_now, -⟩ := allow_step bounded here now
      have rest := ih kept later (by rw [at_now]; exact ordered.2) (by rw [capacity, rate]; exact credit)
      rw [capacity, rate] at rest
      rw [accepted]
      split
      · rw [spent_cons_of_not fun inside => not_le.mpr early inside.1]
        exact rest
      · exact rest
    · rcases lt_or_ge t now with late | soon
      · rw [spent_accepted_of_late late ordered.2]
        exact credit
      · -- the first call of the span finds at most a full bucket
        have rest := spent_le_tokens full positive (List.pairwise_cons.mpr ⟨?_, ordered.2⟩) soon s
        · rw [accepted_refill here] at rest
          have left := full.tokens_le
          have income : b.refillPerSecond * (t - now) ≤ b.refillPerSecond * (t - s) :=
            mul_le_mul_of_nonneg_left (sub_le_sub_left started t) bounded.refills.le
          calc spent s t (b.accepted ((amount, now) :: calls))
              ≤ (b.refill now).tokens + b.refillPerSecond * (t - now) := rest
            _ ≤ b.capacity + b.refillPerSecond * (t - s) := add_le_add left income
        · intro time member
          rcases List.mem_cons.mp member with rfl | old
          · exact le_refl _
          · exact List.rel_of_pairwise_cons ordered.2 old

/-- In no span of time does the bucket allow more than its capacity and what the
rate lets in, and it is never overdrawn or overfull. -/
theorem rate_bound {capacity refillPerSecond created : T} (built : create capacity refillPerSecond created = .ok b)
    (positive : ∀ call ∈ calls, 0 < call.1) (ordered : (created :: calls.map Prod.snd).Pairwise (· ≤ ·)) :
    (∀ s t, s ≤ t → spent s t (b.accepted calls) ≤ capacity + refillPerSecond * (t - s)) ∧
      ∀ earlier later, calls = earlier ++ later →
        0 ≤ (b.after earlier).tokens ∧ (b.after earlier).tokens ≤ capacity := by
  obtain ⟨bounded, rfl, rfl, rfl⟩ := bounded_of_create built
  refine ⟨fun s t span => spent_le_capacity bounded positive ordered span, ?_⟩
  rintro earlier later rfl
  obtain ⟨kept, same⟩ := bounded.after fun call member => positive call (List.mem_append_left _ member)
  exact ⟨kept.tokens_nonneg, same ▸ kept.tokens_le⟩

/-- A burst takes the capacity and then has to wait. -/
theorem rate_bound_burst : spent (0 : ℚ) 1 (({ capacity := 2, refillPerSecond := 1, tokens := 2, updatedAt := 0 } :
    TokenBucket ℚ).accepted [(1, 0), (1, 0), (1, 1 / 2), (1, 1)]) ≤ 2 + 1 * (1 - 0) := by
  have built : create (2 : ℚ) 1 0 = .ok { capacity := 2, refillPerSecond := 1, tokens := 2, updatedAt := 0 } := by rfl
  have positive : ∀ call ∈ [((1 : ℚ), (0 : ℚ)), (1, 0), (1, 1 / 2), (1, 1)], 0 < call.1 := by simp
  have ordered : ((0 : ℚ) :: [((1 : ℚ), (0 : ℚ)), (1, 0), (1, 1 / 2), (1, 1)].map Prod.snd).Pairwise (· ≤ ·) := by
    norm_num
  exact (rate_bound built positive ordered).1 0 1 (by norm_num)

end Bounds

end TokenBucket

end Mosaic
