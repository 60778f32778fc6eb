import Mathlib.Data.Finset.Max
import Mathlib.Data.List.Sort
import Mathlib.Tactic.Common

namespace Ranking

variable {α : Type*} [LinearOrder α] {items items' : List α} {a b : α} {n : Nat}

/-- The number of items below `a`. -/
def rank (items : List α) (a : α) : Nat := items.countP (· < a)

/-- The first `n` items in order. -/
def smallest (n : Nat) (items : List α) : List α := (items.insertionSort (· ≤ ·)).take n

theorem rank_perm (perm : items.Perm items') (a : α) : rank items a = rank items' a := perm.countP_eq _

theorem rank_mono (items : List α) (below : a ≤ b) : rank items a ≤ rank items b := by
  refine List.countP_mono_left fun x _ smaller => ?_
  simp only [decide_eq_true_eq] at smaller ⊢
  exact smaller.trans_le below

/-- In a sorted list at most the items in front are smaller. -/
theorem rank_le_of_getElem (sorted : items.Pairwise (· ≤ ·)) {i : Nat} (bound : i < items.length) :
    rank items items[i] ≤ i := by
  have later : (items.drop i).countP (· < items[i]) = 0 := by
    refine List.countP_eq_zero.mpr fun x member => ?_
    simp only [decide_eq_true_eq, not_lt]
    rw [List.drop_eq_getElem_cons bound] at member
    rcases List.mem_cons.mp member with rfl | after
    · exact le_rfl
    · have split : items = items.take i ++ items[i] :: items.drop (i + 1) := by
        rw [← List.drop_eq_getElem_cons bound, List.take_append_drop]
      rw [split] at sorted
      exact List.rel_of_pairwise_cons (List.pairwise_append.mp sorted).2.1 after
  have front : (items.take i).countP (· < items[i]) ≤ i :=
    List.countP_le_length.trans (List.length_take_le i items)
  calc rank items items[i] = ((items.take i) ++ items.drop i).countP (· < items[i]) := by
        rw [List.take_append_drop, rank]
    _ ≤ i := by
        rw [List.countP_append]
        omega

theorem mem_smallest_iff : a ∈ smallest n items ↔ a ∈ items ∧ rank items a < n := by
  have perm := List.perm_insertionSort (· ≤ ·) items
  have sorted : (items.insertionSort (· ≤ ·)).Pairwise (· ≤ ·) := List.pairwise_insertionSort _ items
  rw [← rank_perm perm a, ← perm.mem_iff]
  unfold smallest
  generalize items.insertionSort (· ≤ ·) = ordered at sorted
  constructor
  · intro member
    obtain ⟨i, bound, rfl⟩ := List.mem_take_iff_getElem.mp member
    have low := rank_le_of_getElem sorted (by omega : i < ordered.length)
    exact ⟨List.getElem_mem _, by omega⟩
  · rintro ⟨member, low⟩
    by_contra missing
    -- then all of the first `n` items are smaller
    have smaller : ∀ x ∈ ordered.take n, x < a := by
      intro x first
      rw [← List.take_append_drop n ordered] at sorted member
      have last := (List.mem_append.mp member).resolve_left missing
      refine lt_of_le_of_ne ((List.pairwise_append.mp sorted).2.2 x first a last) ?_
      rintro rfl
      exact missing first
    have all : (ordered.take n).countP (· < a) = (ordered.take n).length :=
      List.countP_eq_length.mpr fun x first => by simpa using smaller x first
    have sub : (ordered.take n).countP (· < a) ≤ rank ordered a := (List.take_sublist n ordered).countP_le
    have full : n < ordered.length := by
      by_contra short
      exact missing (by rwa [List.take_of_length_le (by omega)])
    rw [all, List.length_take] at sub
    omega

theorem exists_mem_smallest (positive : 0 < n) (member : a ∈ items) : ∃ b, b ∈ smallest n items := by
  obtain ⟨b, best, least⟩ := items.toFinset.exists_min_image id ⟨a, by simpa using member⟩
  refine ⟨b, mem_smallest_iff.mpr ⟨by simpa using best, ?_⟩⟩
  have lowest : rank items b = 0 := by
    refine List.countP_eq_zero.mpr fun x present => ?_
    simpa using least x (by simpa using present)
  omega

/-- Some item with `p` stays among the smallest when items with `p` are added. -/
theorem exists_mem_smallest_of_added {p : α → Prop} {added : List α} (perm : items'.Perm (items ++ added))
    (only : ∀ x ∈ added, p x) (member : a ∈ smallest n items) (holds : p a) : ∃ b ∈ smallest n items', p b := by
  classical
  obtain ⟨present, low⟩ := mem_smallest_iff.mp member
  have candidate : a ∈ (items'.filter (p ·)).toFinset := by
    simp [perm.mem_iff, present, holds]
  obtain ⟨b, best, least⟩ := (items'.filter (p ·)).toFinset.exists_min_image id ⟨a, candidate⟩
  obtain ⟨here, good⟩ : b ∈ items' ∧ p b := by simpa using best
  refine ⟨b, mem_smallest_iff.mpr ⟨here, ?_⟩, good⟩
  -- nothing that was added is below the least item with `p`
  have fresh : added.countP (· < b) = 0 := by
    refine List.countP_eq_zero.mpr fun x inAdded => ?_
    have inside : x ∈ (items'.filter (p ·)).toFinset := by
      simp [perm.mem_iff, inAdded, only x inAdded]
    simpa using least x inside
  calc rank items' b = rank items b := by
        rw [rank_perm perm, rank, List.countP_append, fresh, Nat.add_zero, rank]
    _ ≤ rank items a := rank_mono items (least a candidate)
    _ < n := low

end Ranking
