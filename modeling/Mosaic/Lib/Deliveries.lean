import Mathlib.Data.List.Perm.Subperm
import Mosaic.Lib.Confluence

namespace Takes

variable {σ ι : Type*} {step : ι → σ → σ → Prop} {R : σ → σ → Prop} {inputs inputs' done : List ι} {s s' t u : σ}

theorem append_iff : Takes step (inputs ++ inputs') s u ↔ ∃ t, Takes step inputs s t ∧ Takes step inputs' t u := by
  induction inputs generalizing s with
  | nil =>
    refine ⟨fun takes => ⟨s, .nil s, takes⟩, ?_⟩
    rintro ⟨t, none, takes⟩
    cases none
    exact takes
  | cons i inputs ih =>
    constructor
    · intro takes
      obtain _ | ⟨first, rest⟩ := takes
      obtain ⟨t, before, after⟩ := ih.mp rest
      exact ⟨t, .cons first before, after⟩
    · rintro ⟨t, takes, after⟩
      obtain _ | ⟨first, before⟩ := takes
      exact .cons first (ih.mpr ⟨t, before, after⟩)

theorem concat {i : ι} (takes : Takes step inputs s t) (last : step i t u) : Takes step (inputs ++ [i]) s u :=
  append_iff.mpr ⟨t, takes, .cons last (.nil u)⟩

/-- Steps that have one outcome lead to one state. -/
theorem unique (single : ∀ i s t t', step i s t → step i s t' → t = t') (takes : Takes step inputs s t)
    (takes' : Takes step inputs s u) : t = u := by
  induction takes with
  | nil s =>
    cases takes'
    rfl
  | cons first _ ih =>
    obtain _ | ⟨first', rest'⟩ := takes'
    cases single _ _ _ _ first first'
    exact ih rest'

section Confluent
variable [Std.Refl R] [IsTrans σ R] (alike : ∀ i s s' t, R s s' → step i s t → ∃ t', step i s' t' ∧ R t t')
  (swap : ∀ i j s t u, step i s t → step j t u → ∃ t' u', step j s t' ∧ step i t' u' ∧ R u u')

include alike swap

/-- Machines that have taken the same inputs are in states that are alike. -/
theorem meet (single : ∀ i s t t', step i s t → step i s t' → t = t') (start : R s s') (order : inputs.Perm inputs')
    (takes : Takes step inputs s t) (takes' : Takes step inputs' s' u) : R t u := by
  obtain ⟨v, moved, first⟩ := takes.congr alike start
  obtain ⟨w, ordered, second⟩ := moved.perm alike swap order
  cases ordered.unique single takes'
  exact IsTrans.trans _ _ _ first second

/-- What some machine has taken can be taken one input after the other in any order. -/
theorem next (single : ∀ i s t t', step i s t → step i s t' → t = t') (start : R s s') (takes : Takes step inputs s t)
    {i : ι} (distinct : (done ++ [i]).Nodup) (among : ∀ j ∈ done ++ [i], j ∈ inputs) (before : Takes step done s' u) :
    ∃ v, step i u v := by
  obtain ⟨some, taken, inOrder⟩ := List.subperm_of_subset distinct among
  obtain ⟨rest, split⟩ := inOrder.exists_perm_append
  have order : inputs.Perm (done ++ [i] ++ rest) := split.trans (taken.append_right rest)
  obtain ⟨v, moved, -⟩ := takes.congr alike start
  obtain ⟨w, ordered, -⟩ := moved.perm alike swap order
  obtain ⟨x, taken, -⟩ := append_iff.mp ordered
  obtain ⟨u', before', last⟩ := append_iff.mp taken
  cases before'.unique single before
  obtain _ | ⟨first, -⟩ := last
  exact ⟨_, first⟩

end Confluent

end Takes
