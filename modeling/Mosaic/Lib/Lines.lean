import Mathlib.Data.List.DropRight

namespace Lines

variable {α : Type*} (breaks : α → Bool)

/-- The lines of a text. A break ends a line, and the last line needs none. -/
def splitLines : List α → List (List α)
  | [] => []
  | c :: text =>
    if breaks c then [] :: splitLines text
    else
      match splitLines text with
      | [] => [[c]]
      | line :: lines => (c :: line) :: lines

/-- What follows the last break. -/
def unfinished (text : List α) : List α := text.rtakeWhile fun c => !breaks c

/-- The text up to its last break. -/
def finished (text : List α) : List α := text.rdropWhile fun c => !breaks c

/-- A text whose last line is ended. -/
def Ended (text : List α) : Prop := ∀ some' : text ≠ [], breaks (text.getLast some') = true

variable {breaks}

theorem finished_append_unfinished (text : List α) : finished breaks text ++ unfinished breaks text = text :=
  List.rdropWhile_append_rtakeWhile

theorem unfinished_free {text : List α} {c : α} (member : c ∈ unfinished breaks text) : breaks c = false := by
  simpa using List.mem_rtakeWhile_imp member

theorem finished_ended (text : List α) : Ended breaks (finished breaks text) := by
  intro some'
  have last := List.rdropWhile_last_not _ _ some'
  rwa [Bool.not_eq_true', Bool.not_eq_false] at last

theorem unfinished_eq_nil {text : List α} : unfinished breaks text = [] ↔ Ended breaks text := by
  rw [unfinished, List.rtakeWhile_eq_nil_iff]
  simp [Ended]

theorem unfinished_line {line : List α} (free : ∀ c ∈ line, breaks c = false) : unfinished breaks line = line :=
  List.rtakeWhile_eq_self_iff.mpr fun c member => by rw [free c member, Bool.not_false]

theorem Ended.snoc {c : α} (break' : breaks c = true) (text : List α) : Ended breaks (text ++ [c]) := by
  intro some'
  rwa [List.getLast_append_singleton]

theorem splitLines_ne_nil {text : List α} (some' : text ≠ []) : splitLines breaks text ≠ [] := by
  cases text with
  | nil => exact absurd rfl some'
  | cons c text =>
    rw [splitLines]
    split
    · exact List.cons_ne_nil _ _
    · split <;> exact List.cons_ne_nil _ _

/-- What comes after an ended text is split on its own. -/
theorem splitLines_append {text : List α} (ended : Ended breaks text) (rest : List α) :
    splitLines breaks (text ++ rest) = splitLines breaks text ++ splitLines breaks rest := by
  induction text with
  | nil => rfl
  | cons c text ih =>
    by_cases last : text = []
    · subst last
      have break' : breaks c = true := ended (List.cons_ne_nil _ _)
      rw [List.singleton_append, splitLines, splitLines, if_pos break', if_pos break']
      rfl
    · have later : Ended breaks text := fun some' => by
        rw [← List.getLast_cons some']
        exact ended (List.cons_ne_nil _ _)
      rw [List.cons_append, splitLines, splitLines, ih later]
      split
      · rfl
      · cases lines : splitLines breaks text with
        | nil => exact absurd lines (splitLines_ne_nil last)
        | cons line lines => rfl

/-- A line without a break in it. -/
theorem splitLines_line {line : List α} (free : ∀ c ∈ line, breaks c = false) (some' : line ≠ []) :
    splitLines breaks line = [line] := by
  induction line with
  | nil => exact absurd rfl some'
  | cons c line ih =>
    obtain ⟨here, later⟩ := List.forall_mem_cons.mp free
    rw [splitLines, here, if_neg Bool.false_ne_true]
    cases line with
    | nil => rfl
    | cons d line => rw [ih later (List.cons_ne_nil d line)]

theorem splitLines_ended_line {line : List α} (free : ∀ c ∈ line, breaks c = false) {c : α} (break' : breaks c = true) :
    splitLines breaks (line ++ [c]) = [line] := by
  induction line with
  | nil =>
    rw [List.nil_append, splitLines, if_pos break']
    rfl
  | cons d line ih =>
    obtain ⟨here, later⟩ := List.forall_mem_cons.mp free
    rw [List.cons_append, splitLines, here, if_neg Bool.false_ne_true, ih later]

/-- The lines of a text: those that are ended, and the last one. -/
theorem splitLines_eq (text : List α) : splitLines breaks text = splitLines breaks (finished breaks text) ++
    if unfinished breaks text = [] then [] else [unfinished breaks text] := by
  conv_lhs => rw [← @finished_append_unfinished _ breaks text]
  rw [splitLines_append (finished_ended text)]
  congr 1
  split
  · rename_i none
    rw [none]
    rfl
  · rename_i some'
    exact splitLines_line (fun _ => unfinished_free) some'

/-- A line that is written at the end goes on with the last line of the text. -/
theorem splitLines_append_line (text : List α) {line : List α} (free : ∀ c ∈ line, breaks c = false) {c : α}
    (break' : breaks c = true) : splitLines breaks (text ++ (line ++ [c])) =
      splitLines breaks (finished breaks text) ++ [unfinished breaks text ++ line] := by
  conv_lhs => rw [← @finished_append_unfinished _ breaks text]
  rw [List.append_assoc, ← List.append_assoc (unfinished breaks text), splitLines_append (finished_ended text)]
  congr 1
  refine splitLines_ended_line (fun d member => ?_) break'
  rcases List.mem_append.mp member with before | here
  · exact unfinished_free before
  · exact free d here

end Lines
