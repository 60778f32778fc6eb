import Mathlib.Algebra.BigOperators.Group.List.Basic
import Mathlib.Algebra.Order.Ring.Int
import Mathlib.Tactic.Linarith

namespace Floors

variable {α : Type*} {whole : Int} (total : Int) (part : α → Int) {items : List α}

theorem floors_bounds (weighty : 0 < whole) (items : List α) :
    whole * (items.map fun a => total * part a / whole).sum ≤ total * (items.map part).sum ∧
    total * (items.map part).sum ≤ whole * (items.map fun a => total * part a / whole).sum + (whole - 1) * items.length := by
  induction items with
  | nil => simp
  | cons a items ih =>
    simp only [List.map_cons, List.sum_cons, List.length_cons, Nat.cast_add, Nat.cast_one, mul_add, mul_one]
    have exact := Int.mul_ediv_add_emod (total * part a) whole
    have natural := Int.emod_nonneg (total * part a) weighty.ne'
    have small := Int.emod_lt_of_pos (total * part a) weighty
    obtain ⟨below, above⟩ := ih
    constructor <;> omega

theorem sum_floors_le (weighty : 0 < whole) (sum : (items.map part).sum = whole) :
    (items.map fun a => total * part a / whole).sum ≤ total := by
  have below := (floors_bounds total part weighty items).1
  rw [sum, mul_comm total] at below
  exact le_of_mul_le_mul_left below weighty

theorem lt_sum_floors (weighty : 0 < whole) (sum : (items.map part).sum = whole) (some : items ≠ []) :
    total < (items.map fun a => total * part a / whole).sum + items.length := by
  have above := (floors_bounds total part weighty items).2
  have long : (0 : Int) < items.length := by exact_mod_cast List.length_pos_of_ne_nil some
  rw [sum] at above
  refine lt_of_mul_lt_mul_left ?_ weighty.le
  calc whole * total = total * whole := mul_comm whole total
    _ ≤ whole * (items.map fun a => total * part a / whole).sum + (whole - 1) * items.length := above
    _ < whole * ((items.map fun a => total * part a / whole).sum + items.length) := by
      rw [mul_add, sub_mul, one_mul]
      omega

end Floors
