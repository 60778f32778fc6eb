import Mathlib.Data.List.Forall2
import Mathlib.Logic.Relation
import Mathlib.Order.Defs.Unbundled

namespace Effects

universe u

variable {ε σ τ α β : Type u}

/-- `if bad: raise error`. -/
def raiseIf (bad : Prop) [Decidable bad] (error : ε) : EStateM ε σ PUnit :=
  fun s => if bad then .error error s else .ok ⟨⟩ s

/-- `try: x  except caught: pass`. -/
def attempt (caught : ε → Bool) (x : EStateM ε σ α) : EStateM ε σ (Option α) := fun s =>
  match x s with
  | .ok a t => .ok (some a) t
  | .error e t => if caught e then .ok none t else .error e t

/-- `try: x  except Exception as e: ...`, with the exception as a value. -/
def outcome (x : EStateM ε σ α) : EStateM ε σ (Except ε α) := fun s =>
  match x s with
  | .ok a t => .ok (.ok a) t
  | .error e t => .ok (.error e) t

/-- `try: x  except caught as e: raise convert(e)`. -/
def rethrow (caught : ε → Bool) (convert : ε → ε) (x : EStateM ε σ α) : EStateM ε σ α := fun s =>
  match x s with
  | .ok a t => .ok a t
  | .error e t => .error (if caught e then convert e else e) t

/-- Run a program on one component of a larger state. -/
def onPart (get : τ → σ) (put : σ → τ → τ) (x : EStateM ε σ α) : EStateM ε τ α := fun s =>
  match x (get s) with
  | .ok a t => .ok a (put t s)
  | .error e t => .error e (put t s)

/-- The state that a program leaves behind, whether it returns or raises. -/
def final (x : EStateM ε σ α) (s : σ) : σ :=
  match x s with
  | .ok _ t => t
  | .error _ t => t

theorem final_of_ok {x : EStateM ε σ α} {s t : σ} {a : α} (run : x s = .ok a t) : final x s = t := by
  simp only [final, run]

theorem final_of_error {x : EStateM ε σ α} {s t : σ} {e : ε} (run : x s = .error e t) : final x s = t := by
  simp only [final, run]

@[simp] theorem pure_apply (a : α) (s : σ) : (pure a : EStateM ε σ α) s = .ok a s := rfl

@[simp] theorem throw_apply (e : ε) (s : σ) : (throw e : EStateM ε σ α) s = .error e s := rfl

@[simp] theorem get_apply (s : σ) : (get : EStateM ε σ σ) s = .ok s s := rfl

@[simp] theorem modify_apply (f : σ → σ) (s : σ) : (modify f : EStateM ε σ PUnit) s = .ok ⟨⟩ (f s) := rfl

theorem raiseIf_apply (bad : Prop) [Decidable bad] (error : ε) (s : σ) :
    (raiseIf bad error : EStateM ε σ PUnit) s = if bad then .error error s else .ok ⟨⟩ s := rfl

theorem raiseIf_congr {bad bad' : Prop} [Decidable bad] [Decidable bad'] (same : bad ↔ bad') (error : ε) :
    (raiseIf bad error : EStateM ε σ PUnit) = raiseIf bad' error := by
  funext s
  simp only [raiseIf_apply, same]

theorem bind_apply (x : EStateM ε σ α) (f : α → EStateM ε σ β) (s : σ) :
    (x >>= f) s = match x s with
      | .ok a t => f a t
      | .error e t => .error e t := rfl

theorem bind_of_ok {x : EStateM ε σ α} {f : α → EStateM ε σ β} {s t : σ} {a : α} (run : x s = .ok a t) :
    (x >>= f) s = f a t := by simp only [bind_apply, run]

theorem bind_of_error {x : EStateM ε σ α} {f : α → EStateM ε σ β} {s t : σ} {e : ε}
    (run : x s = .error e t) : (x >>= f) s = .error e t := by simp only [bind_apply, run]

theorem final_bind_of_ok {x : EStateM ε σ α} {f : α → EStateM ε σ β} {s t : σ} {a : α} (run : x s = .ok a t) :
    final (x >>= f) s = final (f a) t := by simp only [final, bind_of_ok run]

theorem final_bind_of_error {x : EStateM ε σ α} {f : α → EStateM ε σ β} {s t : σ} {e : ε} (run : x s = .error e t) :
    final (x >>= f) s = t := final_of_error (bind_of_error run)

theorem onPart_of_ok {get : τ → σ} {put : σ → τ → τ} {x : EStateM ε σ α} {s : τ} {t : σ} {a : α}
    (run : x (get s) = .ok a t) : onPart get put x s = .ok a (put t s) := by simp only [onPart, run]

theorem onPart_of_error {get : τ → σ} {put : σ → τ → τ} {x : EStateM ε σ α} {s : τ} {t : σ} {e : ε}
    (run : x (get s) = .error e t) : onPart get put x s = .error e (put t s) := by simp only [onPart, run]

theorem rethrow_of_ok {caught : ε → Bool} {convert : ε → ε} {x : EStateM ε σ α} {s t : σ} {a : α}
    (run : x s = .ok a t) : rethrow caught convert x s = .ok a t := by simp only [rethrow, run]

theorem rethrow_of_error {caught : ε → Bool} {convert : ε → ε} {x : EStateM ε σ α} {s t : σ} {e : ε}
    (run : x s = .error e t) : rethrow caught convert x s = .error (if caught e then convert e else e) t := by
  simp only [rethrow, run]

theorem outcome_of_ok {x : EStateM ε σ α} {s t : σ} {a : α} (run : x s = .ok a t) :
    outcome x s = .ok (.ok a) t := by simp only [outcome, run]

theorem outcome_of_error {x : EStateM ε σ α} {s t : σ} {e : ε} (run : x s = .error e t) :
    outcome x s = .ok (.error e) t := by simp only [outcome, run]

theorem onPart_eq_ok {get : τ → σ} {put : σ → τ → τ} {x : EStateM ε σ α} {s u : τ} {a : α} :
    onPart get put x s = .ok a u ↔ ∃ t, x (get s) = .ok a t ∧ u = put t s := by
  cases run : x (get s) with
  | ok b t =>
    rw [onPart_of_ok run]
    constructor
    · rintro ⟨⟩
      exact ⟨t, rfl, rfl⟩
    · rintro ⟨_, ⟨⟩, rfl⟩
      rfl
  | error e t =>
    rw [onPart_of_error run]
    constructor
    · rintro ⟨⟩
    · rintro ⟨_, ⟨⟩, _⟩

theorem rethrow_eq_ok {caught : ε → Bool} {convert : ε → ε} {x : EStateM ε σ α} {s t : σ} {a : α} :
    rethrow caught convert x s = .ok a t ↔ x s = .ok a t := by
  cases run : x s with
  | ok b u => rw [rethrow_of_ok run]
  | error e u =>
    rw [rethrow_of_error run]
    constructor <;> rintro ⟨⟩

theorem final_onPart (get : τ → σ) (put : σ → τ → τ) (x : EStateM ε σ α) (s : τ) :
    final (onPart get put x) s = put (final x (get s)) s := by
  cases run : x (get s) with
  | ok a t => rw [final_of_ok run, final_of_ok (onPart_of_ok run)]
  | error e t => rw [final_of_error run, final_of_error (onPart_of_error run)]

theorem final_discard (x : EStateM ε σ α) (s : σ) : final (discard x) s = final x s := by
  cases run : x s with
  | ok a t =>
    have ran : (discard x) s = .ok ⟨⟩ t := bind_of_ok run
    rw [final_of_ok run, final_of_ok ran]
  | error e t =>
    have raised : (discard x) s = .error e t := bind_of_error run
    rw [final_of_error run, final_of_error raised]

theorem bind_eq_ok {x : EStateM ε σ α} {f : α → EStateM ε σ β} {s u : σ} {b : β} :
    (x >>= f) s = .ok b u ↔ ∃ a t, x s = .ok a t ∧ f a t = .ok b u := by
  rw [bind_apply]
  cases x s with
  | ok a t => exact ⟨fun run => ⟨a, t, rfl, run⟩, by rintro ⟨_, _, ⟨⟩, run⟩; exact run⟩
  | error e t => simp

theorem discard_ok {x : EStateM ε σ α} {s t : σ} {b : PUnit} (ran : (discard x) s = .ok b t) : ∃ a, x s = .ok a t := by
  obtain ⟨a, u, first, ran⟩ := bind_eq_ok.mp ran
  cases ran
  exact ⟨a, first⟩

/-- What does not return raises. -/
theorem error_of_not_ok {x : EStateM ε σ α} {s : σ} (never : ∀ a t, x s ≠ .ok a t) : ∃ e t, x s = .error e t := by
  cases run : x s with
  | ok a t => exact absurd run (never a t)
  | error e t => exact ⟨e, t, rfl⟩

theorem get_bind_apply {f : σ → EStateM ε σ β} (s : σ) : (get >>= f) s = f s s := rfl

theorem raiseIf_eq_ok {bad : Prop} [Decidable bad] {error : ε} {s t : σ} {u : PUnit} :
    (raiseIf bad error : EStateM ε σ PUnit) s = .ok u t ↔ ¬ bad ∧ s = t := by
  rw [raiseIf_apply]
  split <;> simp_all

theorem raiseIf_bind_pos {bad : Prop} [Decidable bad] (raised : bad) (error : ε) (f : PUnit → EStateM ε σ β) (s : σ) :
    (raiseIf bad error >>= f) s = .error error s := by rw [bind_apply, raiseIf_apply, if_pos raised]

theorem raiseIf_bind_neg {bad : Prop} [Decidable bad] (passed : ¬ bad) (error : ε) (f : PUnit → EStateM ε σ β) (s : σ) :
    (raiseIf bad error >>= f) s = f ⟨⟩ s := by rw [bind_apply, raiseIf_apply, if_neg passed]

/-- A program that returns has passed its guard. -/
theorem raiseIf_bind_eq_ok {bad : Prop} [Decidable bad] {error : ε} {f : PUnit → EStateM ε σ β} {s u : σ} {b : β}
    (run : (raiseIf bad error >>= f) s = .ok b u) : ¬ bad ∧ f ⟨⟩ s = .ok b u := by
  rw [bind_apply, raiseIf_apply] at run
  by_cases raised : bad
  · rw [if_pos raised] at run
    cases run
  · rw [if_neg raised] at run
    exact ⟨raised, run⟩

theorem raiseIf_bind_eq_ok_iff {bad : Prop} [Decidable bad] {error : ε} {f : PUnit → EStateM ε σ β} {s u : σ} {b : β} :
    (raiseIf bad error >>= f) s = .ok b u ↔ ¬ bad ∧ f ⟨⟩ s = .ok b u :=
  ⟨raiseIf_bind_eq_ok, fun ⟨passed, run⟩ => (raiseIf_bind_neg passed _ _ _).trans run⟩

theorem except_bind_eq_ok {x : Except ε α} {f : α → Except ε β} {b : β} :
    (x >>= f) = .ok b ↔ ∃ a, x = .ok a ∧ f a = .ok b := by
  cases x with
  | error e => exact ⟨nofun, nofun⟩
  | ok a => exact ⟨fun run => ⟨a, rfl, run⟩, by rintro ⟨_, ⟨⟩, run⟩; exact run⟩

/-- A loop returns exactly when each of its rounds does. -/
theorem mapM_eq_ok {f : α → Except ε β} {value : α → β} (computes : ∀ a b, f a = .ok b → value a = b)
    {items : List α} {results : List β} :
    items.mapM f = .ok results ↔ (∀ a ∈ items, f a = .ok (value a)) ∧ results = items.map value := by
  induction items generalizing results with
  | nil => simp [pure, Except.pure, eq_comm]
  | cons item items ih =>
    rw [List.mapM_cons, except_bind_eq_ok]
    simp only [except_bind_eq_ok, ih, List.forall_mem_cons, List.map_cons]
    constructor
    · rintro ⟨first, ran, _, ⟨rest, rfl⟩, same⟩
      have here := computes _ _ ran
      subst here
      cases same
      exact ⟨⟨ran, rest⟩, rfl⟩
    · rintro ⟨⟨ran, rest⟩, rfl⟩
      exact ⟨_, ran, _, ⟨rest, rfl⟩, rfl⟩

theorem mapM_of_ok {f : α → Except ε β} {value : α → β} {items : List α} (each : ∀ a ∈ items, f a = .ok (value a)) :
    items.mapM f = .ok (items.map value) := by
  induction items with
  | nil => rfl
  | cons item items ih =>
    obtain ⟨first, later⟩ := List.forall_mem_cons.mp each
    rw [List.mapM_cons, first, ih later]
    rfl

/-- A loop that returns has returned in each round. -/
theorem exists_ok_of_mapM {f : α → Except ε β} {items : List α} {results : List β} (ran : items.mapM f = .ok results)
    {a : α} (member : a ∈ items) : ∃ b, f a = .ok b := by
  induction items generalizing results with
  | nil => cases member
  | cons item items ih =>
    rw [List.mapM_cons, except_bind_eq_ok] at ran
    obtain ⟨first, here, ran⟩ := ran
    obtain ⟨rest, later, -⟩ := except_bind_eq_ok.mp ran
    rcases List.mem_cons.mp member with rfl | member
    · exact ⟨first, here⟩
    · exact ih later member

/-- `if bad: raise error` where there is no state. -/
def refuseIf (bad : Prop) [Decidable bad] (error : ε) : Except ε PUnit.{u + 1} :=
  if bad then .error error else .ok ⟨⟩

theorem refuseIf_eq_ok {bad : Prop} [Decidable bad] {error : ε} {u : PUnit} :
    refuseIf bad error = .ok u ↔ ¬ bad := by
  unfold refuseIf
  split <;> simp_all

theorem refuseIf_bind_eq_ok {bad : Prop} [Decidable bad] {error : ε} {f : PUnit → Except ε β} {b : β} :
    (refuseIf bad error >>= f) = .ok b ↔ ¬ bad ∧ f ⟨⟩ = .ok b := by
  rw [except_bind_eq_ok]
  constructor
  · rintro ⟨u, passed, run⟩
    exact ⟨refuseIf_eq_ok.mp passed, run⟩
  · rintro ⟨passed, run⟩
    exact ⟨⟨⟩, refuseIf_eq_ok.mpr passed, run⟩

theorem forM_eq_ok {f : α → Except ε PUnit.{u + 1}} {items : List α} {u : PUnit} :
    items.forM f = .ok u ↔ ∀ a ∈ items, f a = .ok ⟨⟩ := by
  induction items with
  | nil => simp [pure, Except.pure]
  | cons item items ih =>
    rw [List.forM_eq_forM, List.forM_cons, except_bind_eq_ok, List.forall_mem_cons]
    constructor
    · rintro ⟨_, first, rest⟩
      exact ⟨first, ih.mp rest⟩
    · rintro ⟨first, rest⟩
      exact ⟨_, first, ih.mpr rest⟩

theorem ofExcept_of_ok {x : Except ε α} {a : α} (run : x = .ok a) (s : σ) :
    (ofExcept x : EStateM ε σ α) s = .ok a s := by
  subst run
  rfl

theorem ofExcept_ok_bind (a : α) (f : α → EStateM ε σ β) (s : σ) :
    ((ofExcept (.ok a : Except ε α) : EStateM ε σ α) >>= f) s = f a s := rfl

theorem ofExcept_error_bind (e : ε) (f : α → EStateM ε σ β) (s : σ) :
    ((ofExcept (.error e : Except ε α) : EStateM ε σ α) >>= f) s = .error e s := rfl

theorem ofExcept_bind_eq_ok {x : Except ε α} {f : α → EStateM ε σ β} {s t : σ} {b : β} :
    ((ofExcept x : EStateM ε σ α) >>= f) s = .ok b t ↔ ∃ a, x = .ok a ∧ f a s = .ok b t := by
  cases x with
  | error e =>
    constructor
    · intro ran
      cases ran
    · rintro ⟨a, same, -⟩
      cases same
  | ok a =>
    constructor
    · exact fun ran => ⟨a, rfl, ran⟩
    · rintro ⟨_, ⟨⟩, ran⟩
      exact ran

/-- Every item has a result that it is related to. -/
theorem exists_of_forall₂ {α β : Type*} {R : α → β → Prop} {items : List α} {results : List β}
    (all : List.Forall₂ R items results) {item : α} (member : item ∈ items) : ∃ result ∈ results, R item result := by
  induction all with
  | nil => cases member
  | @cons first result items results means _ ih =>
    rcases List.mem_cons.mp member with rfl | later
    · exact ⟨result, List.mem_cons_self, means⟩
    · obtain ⟨result', inLater, means'⟩ := ih later
      exact ⟨result', List.mem_cons_of_mem _ inLater, means'⟩

/-- A loop returns where every round does, and keeps what the earlier rounds have established. -/
theorem mapM_returns {I : σ → Prop} {Q : α → β → σ → Prop} {f : α → EStateM ε σ β} {items : List α} {s : σ}
    (each : ∀ a ∈ items, ∀ s, I s → ∃ b t, f a s = .ok b t ∧ I t ∧ Q a b t ∧ ∀ a' b', a' ≠ a → Q a' b' s → Q a' b' t)
    (distinct : items.Nodup) (start : I s) :
    ∃ results t, items.mapM f s = .ok results t ∧ I t ∧ List.Forall₂ (fun a b => Q a b t) items results ∧
      ∀ a b, a ∉ items → Q a b s → Q a b t := by
  induction items generalizing s with
  | nil => exact ⟨[], s, rfl, start, .nil, fun _ _ _ => id⟩
  | cons item items ih =>
    obtain ⟨fresh, distinct⟩ := List.nodup_cons.mp distinct
    obtain ⟨b, t, ran, holds, here, kept⟩ := each item List.mem_cons_self s start
    obtain ⟨results, u, later, holds', all, kept'⟩ :=
      ih (fun a member => each a (List.mem_cons_of_mem _ member)) distinct holds
    refine ⟨b :: results, u, ?_, holds', .cons (kept' item b fresh here) all, fun a b' missing before => ?_⟩
    · rw [List.mapM_cons, bind_of_ok ran, bind_of_ok later]
      rfl
    · obtain ⟨other, elsewhere⟩ := not_or.mp (List.mem_cons.not.mp missing)
      exact kept' a b' elsewhere (kept a b' other before)

/-- Started in `s` the program ends in a state that `R` relates to `s`, however it ends, and `Q`
holds of what it returns. -/
structure Guarantees (R : σ → σ → Prop) (s : σ) (x : EStateM ε σ α) (Q : α → σ → Prop) : Prop where
  moves : R s (final x s)
  returns : ∀ a t, x s = .ok a t → Q a t

namespace Guarantees

variable {R S : σ → σ → Prop} {s : σ} {x : EStateM ε σ α} {Q Q' : α → σ → Prop}

theorem step (g : Guarantees R s x Q) {a : α} {t : σ} (run : x s = .ok a t) : R s t := by
  simpa only [final_of_ok run] using g.moves

theorem step_error (g : Guarantees R s x Q) {e : ε} {t : σ} (run : x s = .error e t) : R s t := by
  simpa only [final_of_error run] using g.moves

theorem mono (g : Guarantees R s x Q) (weaker : ∀ a t, R s t → Q a t → Q' a t) : Guarantees R s x Q' :=
  ⟨g.moves, fun a t run => weaker a t (by simpa only [final_of_ok run] using g.moves) (g.returns a t run)⟩

theorem weaken (g : Guarantees R s x Q) (more : ∀ t, R s t → S s t) : Guarantees S s x Q :=
  ⟨more _ g.moves, g.returns⟩

theorem of_error {e : ε} {t : σ} (run : x s = .error e t) (step : R s t) : Guarantees R s x Q :=
  ⟨by rwa [final_of_error run], fun a u ran => by rw [run] at ran; cases ran⟩

theorem of_ok {a : α} {t : σ} (run : x s = .ok a t) (step : R s t) (post : Q a t) : Guarantees R s x Q :=
  ⟨by rwa [final_of_ok run], fun b u ran => by rw [run] at ran; cases ran; exact post⟩

theorem pure [Std.Refl R] {a : α} (post : Q a s) : Guarantees R s (Pure.pure a : EStateM ε σ α) Q :=
  of_ok rfl (Std.Refl.refl s) post

theorem throw [Std.Refl R] (e : ε) : Guarantees R s (MonadExcept.throw e : EStateM ε σ α) Q :=
  of_error rfl (Std.Refl.refl s)

theorem get_bind {f : σ → EStateM ε σ β} {P : β → σ → Prop} (next : Guarantees R s (f s) P) :
    Guarantees R s (MonadState.get >>= f) P :=
  ⟨next.moves, next.returns⟩

/-- A guard only restricts what comes after it. -/
theorem raiseIf_bind [Std.Refl R] {bad : Prop} [Decidable bad] {error : ε}
    {f : PUnit → EStateM ε σ β} {P : β → σ → Prop}
    (next : ¬ bad → Guarantees R s (f ⟨⟩) P) : Guarantees R s (raiseIf bad error >>= f) P := by
  by_cases raised : bad
  · exact of_error (by rw [bind_apply, raiseIf_apply, if_pos raised]) (Std.Refl.refl s)
  · have passed : (raiseIf bad error >>= f) s = f ⟨⟩ s := by
      rw [bind_apply, raiseIf_apply, if_neg raised]
    exact ⟨by simpa only [final, passed] using (next raised).moves,
      fun a t run => (next raised).returns a t (passed ▸ run)⟩

theorem update {f : σ → σ} {P : PUnit → σ → Prop} (step : R s (f s)) (post : P ⟨⟩ (f s)) :
    Guarantees R s (modify f : EStateM ε σ PUnit) P :=
  of_ok rfl step post

instance [Std.Refl R] [Std.Refl S] : Std.Refl (Relation.Comp R S) :=
  ⟨fun a => ⟨a, Std.Refl.refl a, Std.Refl.refl a⟩⟩

/-- One program after the other: the relations compose. -/
theorem seq [Std.Refl S] {f : α → EStateM ε σ β} {P : β → σ → Prop} (first : Guarantees R s x Q)
    (next : ∀ a t, R s t → Q a t → Guarantees S t (f a) P) : Guarantees (Relation.Comp R S) s (x >>= f) P := by
  cases run : x s with
  | error e t =>
    exact of_error (bind_of_error run) ⟨t, first.step_error run, Std.Refl.refl t⟩
  | ok a t =>
    have step : R s t := by simpa only [final_of_ok run] using first.moves
    have later := next a t step (first.returns a t run)
    have whole : (x >>= f) s = f a t := bind_of_ok run
    refine ⟨⟨t, step, ?_⟩, fun b u ran => later.returns b u (whole.symm.trans ran)⟩
    simpa only [final, whole] using later.moves

theorem bind [Std.Refl R] [IsTrans σ R] {f : α → EStateM ε σ β} {P : β → σ → Prop} (first : Guarantees R s x Q)
    (next : ∀ a t, R s t → Q a t → Guarantees R t (f a) P) : Guarantees R s (x >>= f) P :=
  (first.seq next).weaken fun _ ⟨_, before, after⟩ => IsTrans.trans _ _ _ before after

/-- Steps that are known to run leave the work to what comes after them. -/
theorem of_run [IsTrans σ R] {y : EStateM ε σ α} {t : σ} (run : x s = y t) (step : R s t)
    (next : Guarantees R t y Q) : Guarantees R s x Q := by
  have ends : final x s = final y t := by simp only [final, run]
  refine ⟨?_, fun a u ran => next.returns a u (run.symm.trans ran)⟩
  rw [ends]
  exact IsTrans.trans _ _ _ step next.moves

/-- A program that only reads leaves the work to what comes after it. -/
theorem read_bind [Std.Refl R] {f : α → EStateM ε σ β} {P : β → σ → Prop} (first : Guarantees Eq s x Q)
    (next : ∀ a, Q a s → Guarantees R s (f a) P) : Guarantees R s (x >>= f) P := by
  refine (first.seq fun a t same post => ?_).weaken fun t ⟨_, same, after⟩ => same ▸ after
  subst same
  exact next a post

/-- A loop guarantees what each of its rounds does. -/
theorem forM [Std.Refl R] [IsTrans σ R] {f : α → EStateM ε σ PUnit} {items : List α}
    (each : ∀ a ∈ items, ∀ t, R s t → Guarantees R t (f a) fun _ _ => True) :
    Guarantees R s (items.forM f) fun _ _ => True := by
  induction items generalizing s with
  | nil => exact .pure trivial
  | cons item items ih =>
    rw [List.forM_eq_forM, List.forM_cons]
    refine (each item (by simp) s (Std.Refl.refl s)).bind fun _ t step _ => ?_
    exact ih fun a member u later => each a (List.mem_cons_of_mem _ member) u (IsTrans.trans _ _ _ step later)

/-- A loop that collects results, each with a property that later rounds keep. -/
theorem mapM [Std.Refl R] [IsTrans σ R] {γ : Type u} {f : α → EStateM ε σ γ} {P : α → γ → σ → Prop} {items : List α}
    (stable : ∀ a c t v, R t v → P a c t → P a c v)
    (each : ∀ a ∈ items, ∀ t, R s t → Guarantees R t (f a) (P a)) :
    Guarantees R s (items.mapM f) fun results t => List.Forall₂ (fun a c => P a c t) items results := by
  induction items generalizing s with
  | nil => exact .pure .nil
  | cons item items ih =>
    rw [List.mapM_cons]
    refine (each item (by simp) s (Std.Refl.refl s)).bind fun c t step first => ?_
    have rest := ih fun a member v later => each a (List.mem_cons_of_mem _ member) v (IsTrans.trans _ _ _ step later)
    exact rest.bind fun results v later all => .pure (.cons (stable item c t v later first) all)

theorem ofExcept [Std.Refl R] {y : Except ε α} (post : ∀ a, y = .ok a → Q a s) :
    Guarantees R s (MonadExcept.ofExcept y : EStateM ε σ α) Q := by
  cases y with
  | error e => exact .throw e
  | ok a => exact .pure (post a rfl)

/-- What is computed without the state may raise, and leaves the work to what comes after it. -/
theorem ofExcept_bind [Std.Refl R] {y : Except ε α} {f : α → EStateM ε σ β} {P : β → σ → Prop}
    (next : ∀ a, y = .ok a → Guarantees R s (f a) P) : Guarantees R s (MonadExcept.ofExcept y >>= f) P := by
  cases y with
  | error e => exact of_error rfl (Std.Refl.refl s)
  | ok a => exact ⟨(next a rfl).moves, (next a rfl).returns⟩

theorem attempt {caught : ε → Bool} (g : Guarantees R s x Q) :
    Guarantees R s (Effects.attempt caught x) (fun a t => ∀ b, a = some b → Q b t) := by
  cases run : x s with
  | ok a t =>
    have whole : Effects.attempt caught x s = .ok (some a) t := by simp only [Effects.attempt, run]
    refine of_ok whole (by simpa only [final_of_ok run] using g.moves) ?_
    rintro b ⟨⟩
    exact g.returns a t run
  | error e t =>
    have step : R s t := g.step_error run
    by_cases caught' : caught e
    · exact of_ok (a := none) (by simp only [Effects.attempt, run, if_pos caught']) step (by simp)
    · exact of_error (by simp only [Effects.attempt, run, if_neg caught']; rfl) step

theorem outcome (g : Guarantees R s x Q) :
    Guarantees R s (Effects.outcome x) (fun r t => ∀ a, r = .ok a → Q a t) := by
  cases run : x s with
  | ok a t =>
    have whole : Effects.outcome x s = .ok (.ok a) t := by simp only [Effects.outcome, run]
    refine of_ok whole (by simpa only [final_of_ok run] using g.moves) ?_
    rintro b ⟨⟩
    exact g.returns a t run
  | error e t =>
    have whole : Effects.outcome x s = .ok (.error e) t := by simp only [Effects.outcome, run]
    refine of_ok whole (g.step_error run) ?_
    rintro b ⟨⟩

theorem rethrow {caught : ε → Bool} {convert : ε → ε} (g : Guarantees R s x Q) :
    Guarantees R s (Effects.rethrow caught convert x) Q := by
  cases run : x s with
  | ok a t => exact of_ok (rethrow_of_ok run) (by simpa only [final_of_ok run] using g.moves) (g.returns a t run)
  | error e t => exact of_error (rethrow_of_error run) (g.step_error run)

/-- What a program guarantees on a component it guarantees on the whole. -/
theorem onPart {get : τ → σ} {put : σ → τ → τ} {u : τ} {T : τ → τ → Prop} (g : Guarantees R (get u) x Q)
    (lift : ∀ t, R (get u) t → T u (put t u)) :
    Guarantees T u (Effects.onPart get put x) (fun a v => ∃ t, v = put t u ∧ Q a t) := by
  cases run : x (get u) with
  | ok a t =>
    have step : R (get u) t := by simpa only [final_of_ok run] using g.moves
    have whole : Effects.onPart get put x u = .ok a (put t u) := by simp only [Effects.onPart, run]
    exact of_ok whole (lift t step) ⟨t, rfl, g.returns a t run⟩
  | error e t =>
    have step : R (get u) t := g.step_error run
    have whole : Effects.onPart get put x u = .error e (put t u) := by simp only [Effects.onPart, run]
    exact of_error whole (lift t step)

end Guarantees

end Effects
