import Mosaic.Lib.Effects
import Mathlib.Data.List.Perm.Basic

namespace Effects

universe u

variable {ε σ τ α β : Type u}

/-- Both programs return, with results that `Q` relates, or both raise. `R`
relates the states that they end in. -/
inductive Lockstep (R : σ → σ → Prop) (Q : α → α → Prop) (x y : EStateM ε σ α) (s s' : σ) : Prop
  | returned {a b : α} {t t' : σ} (run : x s = .ok a t) (run' : y s' = .ok b t') (post : Q a b) (ends : R t t')
  | raised {e e' : ε} {t t' : σ} (run : x s = .error e t) (run' : y s' = .error e' t') (ends : R t t')

namespace Lockstep

variable {R : σ → σ → Prop} {Q : α → α → Prop} {P : β → β → Prop} {x y : EStateM ε σ α} {s s' : σ}

theorem pure {a b : α} (post : Q a b) (start : R s s') :
    Lockstep R Q (Pure.pure a : EStateM ε σ α) (Pure.pure b) s s' := .returned rfl rfl post start

theorem throw (e e' : ε) (start : R s s') :
    Lockstep R Q (MonadExcept.throw e : EStateM ε σ α) (MonadExcept.throw e') s s' := .raised rfl rfl start

theorem bind {f g : α → EStateM ε σ β} (first : Lockstep R Q x y s s')
    (next : ∀ a b t t', Q a b → R t t' → Lockstep R P (f a) (g b) t t') : Lockstep R P (x >>= f) (y >>= g) s s' := by
  cases first with
  | raised run run' ends => exact .raised (bind_of_error run) (bind_of_error run') ends
  | @returned a b t t' run run' post ends =>
    cases next a b t t' post ends with
    | returned later later' post' ends' =>
      exact .returned ((bind_of_ok run).trans later) ((bind_of_ok run').trans later') post' ends'
    | raised later later' ends' => exact .raised ((bind_of_ok run).trans later) ((bind_of_ok run').trans later') ends'

theorem get_bind {f g : σ → EStateM ε σ β} (next : Lockstep R P (f s) (g s') s s') :
    Lockstep R P (MonadState.get >>= f) (MonadState.get >>= g) s s' := by
  cases next with
  | returned run run' post ends => exact .returned run run' post ends
  | raised run run' ends => exact .raised run run' ends

/-- A guard that stops both or neither. -/
theorem raiseIf_bind {bad bad' : Prop} [Decidable bad] [Decidable bad'] {error error' : ε} {f g : PUnit → EStateM ε σ β}
    (same : bad ↔ bad') (start : R s s') (next : ¬ bad → Lockstep R P (f ⟨⟩) (g ⟨⟩) s s') :
    Lockstep R P (raiseIf bad error >>= f) (raiseIf bad' error' >>= g) s s' := by
  by_cases raised : bad
  · exact .raised (raiseIf_bind_pos raised _ _ _) (raiseIf_bind_pos (same.mp raised) _ _ _) start
  · have raised' : ¬ bad' := fun bad' => raised (same.mpr bad')
    cases next raised with
    | returned run run' post ends =>
      exact .returned ((raiseIf_bind_neg raised _ _ _).trans run) ((raiseIf_bind_neg raised' _ _ _).trans run') post ends
    | raised run run' ends =>
      exact .raised ((raiseIf_bind_neg raised _ _ _).trans run) ((raiseIf_bind_neg raised' _ _ _).trans run') ends

theorem rethrow {caught : ε → Bool} {convert : ε → ε} (step : Lockstep R Q x y s s') :
    Lockstep R Q (Effects.rethrow caught convert x) (Effects.rethrow caught convert y) s s' := by
  cases step with
  | returned run run' post ends => exact .returned (rethrow_of_ok run) (rethrow_of_ok run') post ends
  | raised run run' ends => exact .raised (rethrow_of_error run) (rethrow_of_error run') ends

theorem modify {f g : σ → σ} {Q : PUnit → PUnit → Prop} (post : Q ⟨⟩ ⟨⟩) (step : R (f s) (g s')) :
    Lockstep R Q (modify f : EStateM ε σ PUnit) (modify g) s s' := .returned rfl rfl post step

/-- One program on a component that is the same in both states. -/
theorem onPart {get : τ → σ} {put : σ → τ → τ} {T : τ → τ → Prop} {u u' : τ} {x : EStateM ε σ α} (same : get u' = get u)
    (lift : ∀ t, T (put t u) (put t u')) : Lockstep T Eq (Effects.onPart get put x) (Effects.onPart get put x) u u' := by
  cases run : x (get u) with
  | ok a t => exact .returned (onPart_of_ok run) (onPart_of_ok (same ▸ run)) rfl (lift t)
  | error e t => exact .raised (onPart_of_error run) (onPart_of_error (same ▸ run)) (lift t)

end Lockstep

/-- Both programs return, with results that `Q` relates, or both raise the same
exception. `R` relates the states that they end in. -/
inductive Unison (R : σ → σ → Prop) (Q : α → α → Prop) (x y : EStateM ε σ α) (s s' : σ) : Prop
  | returned {a b : α} {t t' : σ} (run : x s = .ok a t) (run' : y s' = .ok b t') (post : Q a b) (ends : R t t')
  | raised {e : ε} {t t' : σ} (run : x s = .error e t) (run' : y s' = .error e t') (ends : R t t')

namespace Unison

variable {R : σ → σ → Prop} {Q : α → α → Prop} {P : β → β → Prop} {x y : EStateM ε σ α} {s s' : σ}

theorem pure {a b : α} (post : Q a b) (start : R s s') :
    Unison R Q (Pure.pure a : EStateM ε σ α) (Pure.pure b) s s' := .returned rfl rfl post start

theorem throw (e : ε) (start : R s s') : Unison R Q (MonadExcept.throw e : EStateM ε σ α) (MonadExcept.throw e) s s' :=
  .raised rfl rfl start

theorem bind {f g : α → EStateM ε σ β} (first : Unison R Q x y s s')
    (next : ∀ a b t t', Q a b → R t t' → Unison R P (f a) (g b) t t') : Unison R P (x >>= f) (y >>= g) s s' := by
  cases first with
  | raised run run' ends => exact .raised (bind_of_error run) (bind_of_error run') ends
  | @returned a b t t' run run' post ends =>
    cases next a b t t' post ends with
    | returned later later' post' ends' =>
      exact .returned ((bind_of_ok run).trans later) ((bind_of_ok run').trans later') post' ends'
    | raised later later' ends' => exact .raised ((bind_of_ok run).trans later) ((bind_of_ok run').trans later') ends'

theorem get_bind {f g : σ → EStateM ε σ β} (next : Unison R P (f s) (g s') s s') :
    Unison R P (MonadState.get >>= f) (MonadState.get >>= g) s s' := by
  cases next with
  | returned run run' post ends => exact .returned run run' post ends
  | raised run run' ends => exact .raised run run' ends

/-- A guard that stops both or neither. -/
theorem raiseIf_bind {bad bad' : Prop} [Decidable bad] [Decidable bad'] {error : ε} {f g : PUnit → EStateM ε σ β}
    (same : bad ↔ bad') (start : R s s') (next : ¬ bad → Unison R P (f ⟨⟩) (g ⟨⟩) s s') :
    Unison R P (raiseIf bad error >>= f) (raiseIf bad' error >>= g) s s' := by
  by_cases raised : bad
  · exact .raised (raiseIf_bind_pos raised _ _ _) (raiseIf_bind_pos (same.mp raised) _ _ _) start
  · have raised' : ¬ bad' := fun bad' => raised (same.mpr bad')
    cases next raised with
    | returned run run' post ends =>
      exact .returned ((raiseIf_bind_neg raised _ _ _).trans run) ((raiseIf_bind_neg raised' _ _ _).trans run') post ends
    | raised run run' ends =>
      exact .raised ((raiseIf_bind_neg raised _ _ _).trans run) ((raiseIf_bind_neg raised' _ _ _).trans run') ends

theorem modify {f g : σ → σ} {Q : PUnit → PUnit → Prop} (post : Q ⟨⟩ ⟨⟩) (step : R (f s) (g s')) :
    Unison R Q (modify f : EStateM ε σ PUnit) (modify g) s s' := .returned rfl rfl post step

theorem map {f : α → β} {g : α → β} (first : Unison R Q x y s s') (same : ∀ a b, Q a b → P (f a) (g b)) :
    Unison R P (f <$> x) (g <$> y) s s' :=
  first.bind fun a b _ _ post ends => .pure (same a b post) ends

end Unison

/-- Both results are the same value, or both are errors. -/
inductive Agree (x y : Except ε α) : Prop
  | returned {a : α} (left : x = .ok a) (right : y = .ok a)
  | raised {e e' : ε} (left : x = .error e) (right : y = .error e')

namespace Agree

theorem refl (x : Except ε α) : Agree x x := by
  cases x with
  | ok a => exact .returned rfl rfl
  | error e => exact .raised rfl rfl

theorem ite {c c' : Prop} [Decidable c] [Decidable c'] {x x' y y' : Except ε α} (same : c ↔ c')
    (yes : c → Agree x x') (no : ¬ c → Agree y y') : Agree (if c then x else y) (if c' then x' else y') := by
  by_cases holds : c
  · rw [if_pos holds, if_pos (same.mp holds)]
    exact yes holds
  · rw [if_neg holds, if_neg fun holds' => holds (same.mpr holds')]
    exact no holds

theorem throw_bind (e e' : ε) (f g : β → Except ε α) :
    Agree (MonadExcept.throw e >>= f) (MonadExcept.throw e' >>= g) := .raised rfl rfl

/-- What comes after results that are related, or after two errors. -/
theorem bind {x y : Except ε α} {f g : α → Except ε β} {Q : α → α → Prop}
    (first : (∃ a b, x = .ok a ∧ y = .ok b ∧ Q a b) ∨ ∃ e e', x = .error e ∧ y = .error e')
    (next : ∀ a b, Q a b → Agree (f a) (g b)) : Agree (x >>= f) (y >>= g) := by
  rcases first with ⟨a, b, rfl, rfl, related⟩ | ⟨e, e', rfl, rfl⟩
  · exact next a b related
  · exact .raised rfl rfl

/-- The results for items in any order are the same up to that order. -/
theorem mapM_perm {f : α → Except ε β} {items items' : List α} (order : items.Perm items') :
    (∃ results results', items.mapM f = .ok results ∧ items'.mapM f = .ok results' ∧ results.Perm results') ∨
      ∃ e e', items.mapM f = .error e ∧ items'.mapM f = .error e' := by
  induction order with
  | nil => exact Or.inl ⟨[], [], rfl, rfl, .nil⟩
  | cons item _ ih =>
    simp only [List.mapM_cons]
    cases f item with
    | error e => exact Or.inr ⟨e, e, rfl, rfl⟩
    | ok result =>
      rcases ih with ⟨results, results', left, right, order⟩ | ⟨e, e', left, right⟩
      · rw [left, right]
        exact Or.inl ⟨result :: results, result :: results', rfl, rfl, order.cons result⟩
      · rw [left, right]
        exact Or.inr ⟨e, e', rfl, rfl⟩
  | swap item item' items =>
    simp only [List.mapM_cons]
    cases f item with
    | error e =>
      cases f item' with
      | error e' => exact Or.inr ⟨e', e, rfl, rfl⟩
      | ok result' => exact Or.inr ⟨e, e, rfl, rfl⟩
    | ok result =>
      cases f item' with
      | error e' => exact Or.inr ⟨e', e', rfl, rfl⟩
      | ok result' =>
        cases items.mapM f with
        | error e => exact Or.inr ⟨e, e, rfl, rfl⟩
        | ok results => exact Or.inl ⟨result' :: result :: results, result :: result' :: results, rfl, rfl, .swap _ _ _⟩
  | trans _ _ ih ih' =>
    rcases ih with ⟨results, results', left, right, order⟩ | ⟨e, e', left, right⟩
    · rcases ih' with ⟨results'', results''', left', right', order'⟩ | ⟨e, e', left', right'⟩
      · cases right.symm.trans left'
        exact Or.inl ⟨results, results''', left, right', order.trans order'⟩
      · cases right.symm.trans left'
    · rcases ih' with ⟨results'', results''', left', right', order'⟩ | ⟨e'', e''', left', right'⟩
      · cases right.symm.trans left'
      · exact Or.inr ⟨e, e''', left, right'⟩

end Agree

/-- Both results are values that `Q` relates, or both are the same error. -/
inductive Matches (Q : α → α → Prop) (x y : Except ε α) : Prop
  | returned {a b : α} (left : x = .ok a) (right : y = .ok b) (related : Q a b)
  | raised {e : ε} (left : x = .error e) (right : y = .error e)

namespace Matches

variable {Q : α → α → Prop} {P : β → β → Prop}

theorem ok {a b : α} (related : Q a b) : Matches Q (.ok a : Except ε α) (.ok b) := .returned rfl rfl related

theorem error (e : ε) : Matches Q (.error e : Except ε α) (.error e) := .raised rfl rfl

theorem bind {x y : Except ε α} {f g : α → Except ε β} (first : Matches Q x y)
    (next : ∀ a b, Q a b → Matches P (f a) (g b)) : Matches P (x >>= f) (y >>= g) := by
  cases first with
  | returned left right related =>
    subst left right
    exact next _ _ related
  | raised left right =>
    subst left right
    exact .error _

/-- What comes after one result. -/
theorem after {x : Except ε α} {f g : α → Except ε β} (next : ∀ a, Matches P (f a) (g a)) :
    Matches P (x >>= f) (x >>= g) := by
  cases x with
  | ok a => exact next a
  | error e => exact .error e

theorem ite {c : Prop} [Decidable c] {x x' y y' : Except ε α} (yes : Matches Q x x') (no : Matches Q y y') :
    Matches Q (if c then x else y) (if c then x' else y') := by
  by_cases holds : c
  · rw [if_pos holds, if_pos holds]
    exact yes
  · rw [if_neg holds, if_neg holds]
    exact no

end Matches

/-- Results that agree, raised or returned as the step of a program. -/
theorem Lockstep.ofExcept {R : σ → σ → Prop} {x y : Except ε α} {s s' : σ} (agree : Agree x y) (start : R s s') :
    Lockstep R Eq (MonadExcept.ofExcept x : EStateM ε σ α) (MonadExcept.ofExcept y) s s' := by
  cases agree with
  | returned left right =>
    subst left right
    exact .pure rfl start
  | raised left right =>
    subst left right
    exact .throw _ _ start

end Effects
