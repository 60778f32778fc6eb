import Mathlib.LinearAlgebra.Matrix.NonsingularInverse
import Mathlib.LinearAlgebra.Matrix.ToLinearEquiv

namespace Elimination

open Matrix

variable {K ι κ : Type*} [Field K]

/-- The vectors that all the rows annihilate. -/
def Solutions [Fintype κ] (rows : ι → κ → K) : Set (κ → K) := {v | ∀ i, rows i ⬝ᵥ v = 0}

variable [DecidableEq ι]

/-- The columns of the rows in `s` are done: unit columns. -/
def Cleared (col : ι → κ) (rows : ι → κ → K) (s : Set ι) : Prop :=
  ∀ j ∈ s, ∀ i, rows i (col j) = if i = j then 1 else 0

/-- Exchange the rows `c` and `p`, scale row `c` to have a one in its own
column, and clear that column in all the other rows. -/
def pivotStep (col : ι → κ) (rows : ι → κ → K) (c p : ι) : ι → κ → K := fun i =>
  let scaled := (rows p (col c))⁻¹ • rows p
  if i = c then scaled else rows (Equiv.swap c p i) - rows (Equiv.swap c p i) (col c) • scaled

section Step
variable {col : ι → κ} {rows : ι → κ → K} {c p : ι} {s : Set ι}

theorem pivotStep_self : pivotStep col rows c p c = (rows p (col c))⁻¹ • rows p := if_pos rfl

theorem pivotStep_of_ne {i : ι} (other : i ≠ c) : pivotStep col rows c p i =
    rows (Equiv.swap c p i) - rows (Equiv.swap c p i) (col c) • (rows p (col c))⁻¹ • rows p := if_neg other

theorem solutions_pivotStep [Fintype κ] (nonzero : rows p (col c) ≠ 0) : Solutions (pivotStep col rows c p) = Solutions rows := by
  ext v
  constructor
  · intro solves
    have pivotRow : rows p ⬝ᵥ v = 0 := by
      have atC := solves c
      rw [pivotStep_self, smul_dotProduct, smul_eq_mul] at atC
      exact (mul_eq_zero.mp atC).resolve_left (inv_ne_zero nonzero)
    intro i
    by_cases isP : i = p
    · rw [isP, pivotRow]
    · have other : Equiv.swap c p i ≠ c := by
        intro same
        exact isP (by rw [← Equiv.swap_apply_self c p i, same, Equiv.swap_apply_left])
      have atI := solves (Equiv.swap c p i)
      rwa [pivotStep_of_ne other, Equiv.swap_apply_self, sub_dotProduct, smul_dotProduct, smul_dotProduct, pivotRow,
        smul_zero, smul_zero, sub_zero] at atI
  · intro solves i
    by_cases here : i = c
    · rw [here, pivotStep_self, smul_dotProduct, solves p, smul_zero]
    · rw [pivotStep_of_ne here, sub_dotProduct, smul_dotProduct, smul_dotProduct, solves p, solves, smul_zero,
        smul_zero, sub_zero]

theorem Cleared.pivotStep (cleared : Cleared col rows s) (cFresh : c ∉ s) (pFresh : p ∉ s)
    (nonzero : rows p (col c) ≠ 0) : Cleared col (Elimination.pivotStep col rows c p) (insert c s) := by
  rintro j (rfl | member) i
  · by_cases here : i = j
    · rw [here, pivotStep_self, if_pos rfl, Pi.smul_apply, smul_eq_mul, inv_mul_cancel₀ nonzero]
    · rw [pivotStep_of_ne here, if_neg here, Pi.sub_apply, Pi.smul_apply, Pi.smul_apply, smul_eq_mul, smul_eq_mul,
        inv_mul_cancel₀ nonzero, mul_one, sub_self]
  · have jc : j ≠ c := fun same => cFresh (same ▸ member)
    have jp : j ≠ p := fun same => pFresh (same ▸ member)
    have pivotZero : rows p (col j) = 0 := by rw [cleared j member p, if_neg jp.symm]
    by_cases here : i = c
    · rw [here, pivotStep_self, Pi.smul_apply, pivotZero, smul_zero, if_neg jc.symm]
    · rw [pivotStep_of_ne here, Pi.sub_apply, Pi.smul_apply, Pi.smul_apply, pivotZero, smul_zero, smul_zero,
        sub_zero, cleared j member]
      refine if_congr ?_ rfl rfl
      rw [Equiv.swap_apply_eq_iff, Equiv.swap_apply_of_ne_of_ne jc jp]

/-- Where no row that is left has a pivot, the system has a solution within the
columns of the rows. -/
theorem exists_solution [Fintype κ] [DecidableEq κ] [Fintype ι] (injective : Function.Injective col) (cleared : Cleared col rows s)
    (cFresh : c ∉ s) (stuck : ∀ i ∉ s, rows i (col c) = 0) :
    ∃ v ∈ Solutions rows, v (col c) = 1 ∧ ∀ k, k ∉ Set.range col → v k = 0 := by
  classical
  set v : κ → K := Pi.single (col c) 1 - ∑ j with j ∈ s, rows j (col c) • Pi.single (col j) 1 with shape
  refine ⟨v, ?_, ?_, ?_⟩
  · intro i
    have terms : ∀ j ∈ Finset.univ.filter (· ∈ s), rows i ⬝ᵥ (rows j (col c) • Pi.single (col j) 1) =
        if i = j then rows i (col c) else 0 := by
      intro j member
      rw [dotProduct_smul, dotProduct_single_one, cleared j (Finset.mem_filter.mp member).2 i, smul_eq_mul]
      by_cases here : i = j
      · rw [if_pos here, if_pos here, mul_one, here]
      · rw [if_neg here, if_neg here, mul_zero]
    rw [dotProduct_sub, dotProduct_single_one, dotProduct_sum, Finset.sum_congr rfl terms, Finset.sum_ite_eq]
    by_cases member : i ∈ s
    · rw [if_pos (Finset.mem_filter.mpr ⟨Finset.mem_univ i, member⟩), sub_self]
    · rw [stuck i member, ite_self, sub_self]
  · have others : ∀ j ∈ Finset.univ.filter (· ∈ s), (rows j (col c) • Pi.single (col j) 1 : κ → K) (col c) = 0 := by
      intro j member
      have jc : c ≠ j := fun same => cFresh (same ▸ (Finset.mem_filter.mp member).2)
      rw [Pi.smul_apply, Pi.single_eq_of_ne (injective.ne jc), smul_zero]
    rw [shape, Pi.sub_apply, Finset.sum_apply, Finset.sum_eq_zero others, Pi.single_eq_same, sub_zero]
  · intro k outside
    have away (j : ι) : k ≠ col j := fun same => outside ⟨j, same.symm⟩
    have others : ∀ j ∈ Finset.univ.filter (· ∈ s), (rows j (col c) • Pi.single (col j) 1 : κ → K) k = 0 := by
      intro j _
      rw [Pi.smul_apply, Pi.single_eq_of_ne (away j), smul_zero]
    rw [shape, Pi.sub_apply, Finset.sum_apply, Finset.sum_eq_zero others, Pi.single_eq_of_ne (away c), sub_zero]

end Step

section Square
variable {A B : Matrix ι ι K} {rows : ι → ι ⊕ ι → K} {c : ι} {s : Set ι}

/-- The rows of two matrices, next to each other. -/
def beside (A B : Matrix ι ι K) : ι → ι ⊕ ι → K
  | i, .inl j => A i j
  | i, .inr j => B i j

variable [Fintype ι]

omit [DecidableEq ι] in
theorem mem_solutions_beside {x y : ι → K} : Sum.elim x y ∈ Solutions (beside A B) ↔ A *ᵥ x + B *ᵥ y = 0 := by
  have atRow (i : ι) : beside A B i ⬝ᵥ Sum.elim x y = (A *ᵥ x + B *ᵥ y) i := by
    simp only [dotProduct, Fintype.sum_sum_type, beside, Sum.elim_inl, Sum.elim_inr, Pi.add_apply, mulVec]
  constructor
  · intro solves
    funext i
    rw [← atRow, solves i, Pi.zero_apply]
  · intro zero i
    rw [atRow, zero, Pi.zero_apply]

theorem mem_solutions_augmented {x y : ι → K} : Sum.elim x y ∈ Solutions (beside A 1) ↔ A *ᵥ x + y = 0 := by
  rw [mem_solutions_beside, one_mulVec]

/-- What stands next to the identity at the end is the inverse. -/
theorem mul_eq_one_of_cleared (same : Solutions rows = Solutions (beside A 1)) (cleared : Cleared Sum.inl rows Set.univ)
    (right : ∀ i j, rows i (Sum.inr j) = B i j) : B * A = 1 := by
  have shape : rows = beside 1 B := by
    funext i k
    cases k with
    | inl j => rw [cleared j trivial i, beside, one_apply]
    | inr j => rw [right, beside]
  refine ext_of_mulVec_single fun j => ?_
  have solves : Sum.elim (Pi.single j 1) (-(A *ᵥ Pi.single j 1)) ∈ Solutions rows := by
    rw [same, mem_solutions_augmented, add_neg_cancel]
  rw [shape, mem_solutions_beside, mulVec_neg, ← sub_eq_add_neg, sub_eq_zero] at solves
  rw [← mulVec_mulVec]
  exact solves.symm

/-- An elimination that finds no pivot was started on a singular matrix. -/
theorem det_eq_zero_of_stuck (same : Solutions rows = Solutions (beside A 1)) (cleared : Cleared Sum.inl rows s)
    (cFresh : c ∉ s) (stuck : ∀ i ∉ s, rows i (Sum.inl c) = 0) : A.det = 0 := by
  obtain ⟨v, solves, one, zero⟩ := exists_solution Sum.inl_injective cleared cFresh stuck
  refine exists_mulVec_eq_zero_iff.mp ⟨v ∘ Sum.inl, ?_, ?_⟩
  · intro none
    have atC := congrFun none c
    rw [Function.comp_apply, one] at atC
    exact one_ne_zero atC
  · have halves : v = Sum.elim (v ∘ Sum.inl) 0 := by
      funext k
      cases k with
      | inl j => rfl
      | inr j => exact zero _ (by simp)
    rw [same, halves, mem_solutions_augmented, add_zero] at solves
    exact solves

end Square

end Elimination
