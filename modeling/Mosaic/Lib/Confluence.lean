import Mathlib.Data.List.Perm.Basic
import Mathlib.Order.Defs.Unbundled

/-- The inputs take `s` to a state, one after the other. -/
inductive Takes {σ ι : Type*} (step : ι → σ → σ → Prop) : List ι → σ → σ → Prop
  | nil (s : σ) : Takes step [] s s
  | cons {i : ι} {inputs : List ι} {s t u : σ} : step i s t → Takes step inputs t u → Takes step (i :: inputs) s u

namespace Takes

variable {σ ι : Type*} {step : ι → σ → σ → Prop} {R : σ → σ → Prop} {inputs inputs' : List ι} {s s' t : σ}

/-- States that are alike take the same inputs to states that are alike. -/
theorem congr (alike : ∀ i s s' t, R s s' → step i s t → ∃ t', step i s' t' ∧ R t t') (start : R s s')
    (takes : Takes step inputs s t) : ∃ t', Takes step inputs s' t' ∧ R t t' := by
  induction takes generalizing s' with
  | nil s => exact ⟨s', .nil s', start⟩
  | cons first _ ih =>
    obtain ⟨u', first', between⟩ := alike _ _ _ _ start first
    obtain ⟨t', rest', finish⟩ := ih between
    exact ⟨t', .cons first' rest', finish⟩

/-- Where two inputs may be swapped, any order of the inputs will do. -/
theorem perm [Std.Refl R] [IsTrans σ R] (alike : ∀ i s s' t, R s s' → step i s t → ∃ t', step i s' t' ∧ R t t')
    (swap : ∀ i j s t u, step i s t → step j t u → ∃ t' u', step j s t' ∧ step i t' u' ∧ R u u')
    (order : inputs.Perm inputs') (takes : Takes step inputs s t) : ∃ t', Takes step inputs' s t' ∧ R t t' := by
  induction order generalizing s t with
  | nil => exact ⟨t, takes, Std.Refl.refl t⟩
  | cons i _ ih =>
    obtain _ | ⟨first, rest⟩ := takes
    obtain ⟨t', rest', finish⟩ := ih rest
    exact ⟨t', .cons first rest', finish⟩
  | swap i j inputs =>
    obtain _ | ⟨first, later⟩ := takes
    obtain _ | ⟨second, rest⟩ := later
    obtain ⟨u, v, second', first', between⟩ := swap _ _ _ _ _ first second
    obtain ⟨t', rest', finish⟩ := rest.congr alike between
    exact ⟨t', .cons second' (.cons first' rest'), finish⟩
  | trans _ _ ih ih' =>
    obtain ⟨u, middle, between⟩ := ih takes
    obtain ⟨t', last, finish⟩ := ih' middle
    exact ⟨t', last, IsTrans.trans _ _ _ between finish⟩

end Takes
