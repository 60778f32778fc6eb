import Mathlib.Algebra.Order.Ring.Int
import Mathlib.Logic.Relation

/-- What follows from a root, step by step. -/
inductive Lineage {α : Type*} (root : α → Prop) (next : α → α → Prop) : α → Prop
  | root {a : α} (first : root a) : Lineage root next a
  | next {a b : α} (earlier : Lineage root next a) (step : next a b) : Lineage root next b

namespace Lineage

variable {α κ : Type*} {root root' : α → Prop} {next next' : α → α → Prop} {line : α → κ} {height : α → ℤ} {a b : α}

/-- Every line has one root, a step keeps to the line and goes up by one, and there is
one step from each place. -/
structure Straight (root : α → Prop) (next : α → α → Prop) (line : α → κ) (height : α → ℤ) : Prop where
  single : ∀ {a b}, root a → root b → line a = line b → a = b
  keeps : ∀ {a b}, next a b → line b = line a
  rises : ∀ {a b}, next a b → height b = height a + 1
  only : ∀ {a b c}, next a b → next a c → b = c

theorem mono (lineage : Lineage root next a) (roots : ∀ a, root a → root' a) (steps : ∀ a b, next a b → next' a b) :
    Lineage root' next' a := by
  induction lineage with
  | root first => exact .root (roots _ first)
  | next _ step ih => exact ih.next (steps _ _ step)

namespace Straight

/-- Nothing of a line lies below its root. -/
theorem root_le (straight : Straight root next line height) (first : root a) (lineage : Lineage root next b)
    (same : line a = line b) : height a ≤ height b := by
  induction lineage with
  | root first' => rw [straight.single first first' same]
  | next _ step ih =>
    have below := ih (same.trans (straight.keeps step))
    have up := straight.rises step
    omega

/-- In one line there is one thing of each height. -/
theorem unique (straight : Straight root next line height) (left : Lineage root next a) (right : Lineage root next b)
    (same : line a = line b) (level : height a = height b) : a = b := by
  induction left generalizing b with
  | root first =>
    cases right with
    | root first' => exact straight.single first first' same
    | next earlier step =>
      have below := straight.root_le first earlier (same.trans (straight.keeps step))
      have up := straight.rises step
      omega
  | next earlier step ih =>
    have up := straight.rises step
    cases right with
    | root first' =>
      have below := straight.root_le first' earlier (same.symm.trans (straight.keeps step))
      omega
    | next earlier' step' =>
      have up' := straight.rises step'
      have lines := (straight.keeps step).symm.trans (same.trans (straight.keeps step'))
      have before := ih earlier' lines (by omega)
      subst before
      exact straight.only step step'

/-- Of two things in one line the higher one follows from the lower one. -/
theorem follows (straight : Straight root next line height) (left : Lineage root next a) (right : Lineage root next b)
    (same : line a = line b) (level : height a ≤ height b) : Relation.ReflTransGen next a b := by
  induction right with
  | root first' =>
    have below := straight.root_le first' left same.symm
    rw [straight.unique left (.root first') same (by omega)]
  | @next c b earlier step ih =>
    by_cases top : height a = height b
    · rw [straight.unique left (earlier.next step) same top]
    · have up := straight.rises step
      exact (ih (same.trans (straight.keeps step)) (by omega)).tail step

theorem comparable (straight : Straight root next line height) (left : Lineage root next a) (right : Lineage root next b)
    (same : line a = line b) : Relation.ReflTransGen next a b ∨ Relation.ReflTransGen next b a := by
  rcases Int.le_total (height a) (height b) with up | down
  · exact Or.inl (straight.follows left right same up)
  · exact Or.inr (straight.follows right left same.symm down)

end Straight

end Lineage
