import Mathlib.Data.List.Infix

namespace RecentQueue

variable {α : Type*}

/-- The oldest entries are dropped while there are more than the limit. -/
def trim (limit : Int) : List α → List α
  | [] => []
  | e :: es => if limit < es.length + 1 then trim limit es else e :: es

variable {limit : Int}

theorem trim_suffix (limit : Int) (es : List α) : trim limit es <:+ es := by
  induction es with
  | nil => exact List.suffix_refl []
  | cons e es ih =>
    rw [trim]
    split
    · exact ih.trans (List.suffix_cons e es)
    · exact List.suffix_refl _

theorem length_trim_le (natural : 0 ≤ limit) (es : List α) : ((trim limit es).length : Int) ≤ limit := by
  induction es with
  | nil => exact natural
  | cons e es ih =>
    rw [trim]
    split
    · exact ih
    · rw [List.length_cons]
      omega

theorem trim_of_neg (negative : limit < 0) (es : List α) : trim limit es = [] := by
  induction es with
  | nil => rfl
  | cons e es ih => rw [trim, if_pos (by omega), ih]

/-- The newest entries stay as long as they fit in. -/
theorem trim_append {newest : List α} (short : newest.length ≤ limit) (es : List α) :
    ∃ kept, kept <:+ es ∧ trim limit (es ++ newest) = kept ++ newest := by
  induction es with
  | nil =>
    refine ⟨[], List.suffix_refl [], ?_⟩
    cases newest with
    | nil => rfl
    | cons e newest =>
      rw [List.length_cons] at short
      rw [List.nil_append, trim, if_neg (by omega)]
  | cons e es ih =>
    rw [List.cons_append, trim]
    split
    · obtain ⟨kept, suffix, equal⟩ := ih
      exact ⟨kept, suffix.trans (List.suffix_cons e es), equal⟩
    · exact ⟨e :: es, List.suffix_refl _, rfl⟩

end RecentQueue
