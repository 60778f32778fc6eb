import Mathlib.Logic.Relation

/-- `t` is reached from `s` by inputs that were all allowed when they came. -/
inductive GuardedRun {σ ι : Type*} (step : ι → σ → σ) (allowed : σ → ι → Prop) (s : σ) : σ → Prop
  | refl : GuardedRun step allowed s s
  | tail {t : σ} {i : ι} : GuardedRun step allowed s t → allowed t i → GuardedRun step allowed s (step i t)

namespace GuardedRun

variable {σ ι : Type*} {step : ι → σ → σ} {allowed allowed' : σ → ι → Prop} {s t u : σ}

theorem trans (first : GuardedRun step allowed s t) (second : GuardedRun step allowed t u) :
    GuardedRun step allowed s u := by
  induction second with
  | refl => exact first
  | tail _ ok ih => exact ih.tail ok

/-- Inputs that are allowed wherever they come make a run. -/
theorem of_listed {inputs : List ι} (ok : ∀ i ∈ inputs, ∀ s, allowed s i) :
    GuardedRun step allowed s (inputs.foldl (fun t i => step i t) s) := by
  induction inputs generalizing s with
  | nil => exact .refl
  | cons i inputs ih =>
    exact (tail .refl (ok i List.mem_cons_self s)).trans (ih fun other member => ok other (List.mem_cons_of_mem i member))

theorem of_inputs (ok : ∀ s i, allowed s i) (inputs : List ι) :
    GuardedRun step allowed s (inputs.foldl (fun t i => step i t) s) := of_listed fun i _ s => ok s i

theorem mono (run : GuardedRun step allowed s t) (more : ∀ s i, allowed s i → allowed' s i) :
    GuardedRun step allowed' s t := by
  induction run with
  | refl => exact .refl
  | tail _ ok ih => exact ih.tail (more _ _ ok)

/-- What holds at the start and survives every allowed input holds throughout. -/
theorem invariant {P : σ → Prop} (run : GuardedRun step allowed s t) (start : P s)
    (keep : ∀ u i, allowed u i → P u → P (step i u)) : P t := by
  induction run with
  | refl => exact start
  | tail _ ok ih => exact keep _ _ ok ih

/-- A transitive relation that every allowed input respects relates the ends. -/
theorem relates {R : σ → σ → Prop} [Std.Refl R] [IsTrans σ R] {P : σ → Prop}
    (run : GuardedRun step allowed s t) (start : P s)
    (keep : ∀ u i, allowed u i → P u → P (step i u)) (moves : ∀ u i, allowed u i → P u → R u (step i u)) :
    R s t := by
  induction run with
  | refl => exact Std.Refl.refl s
  | tail earlier ok ih => exact IsTrans.trans _ _ _ ih (moves _ _ ok (earlier.invariant start keep))

end GuardedRun
