import Mathlib.Algebra.BigOperators.Group.Finset.Basic
import Mathlib.Algebra.Order.BigOperators.Group.Finset

namespace Quorum

variable {V X : Type*} [DecidableEq V]

/-- What the voters of a set weigh together. -/
def weigh (weight : V → ℕ) (voters : Finset V) : ℕ := ∑ v ∈ voters, weight v

omit [DecidableEq V] in
theorem weigh_mono (weight : V → ℕ) {A B : Finset V} (sub : A ⊆ B) : weigh weight A ≤ weigh weight B :=
  Finset.sum_le_sum_of_subset sub

theorem weigh_union_add_inter (weight : V → ℕ) (A B : Finset V) :
    weigh weight (A ∪ B) + weigh weight (A ∩ B) = weigh weight A + weigh weight B :=
  Finset.sum_union_inter

/-- More than two thirds, written without a division. -/
theorem two_thirds_iff {total quorum : ℕ} : 2 * total / 3 + 1 ≤ quorum ↔ 2 * total < 3 * quorum := by
  omega

/-- Two quorums of more than two thirds share more than the faulty third. -/
theorem overlap_outweighs (weight : V → ℕ) {all Q R : Finset V} (inQ : Q ⊆ all) (inR : R ⊆ all)
    (large : 2 * weigh weight all < 3 * weigh weight Q) (large' : 2 * weigh weight all < 3 * weigh weight R) :
    weigh weight all < 3 * weigh weight (Q ∩ R) := by
  have whole := weigh_union_add_inter weight Q R
  have bound := weigh_mono weight (Finset.union_subset inQ inR)
  omega

theorem exists_honest_in_both (weight : V → ℕ) {all Q R faulty : Finset V} (inQ : Q ⊆ all) (inR : R ⊆ all)
    (large : 2 * weigh weight all < 3 * weigh weight Q) (large' : 2 * weigh weight all < 3 * weigh weight R)
    (few : 3 * weigh weight faulty ≤ weigh weight all) : ∃ v ∈ Q ∩ R, v ∉ faulty := by
  by_contra none
  push Not at none
  have covered := weigh_mono weight none
  have overlap := overlap_outweighs weight inQ inR large large'
  omega

/-- `x` was voted for by a quorum: every honest voter in it really voted so. -/
def Certified (weight : V → ℕ) (all faulty : Finset V) (voted : V → X → Prop) (x : X) : Prop :=
  ∃ Q ⊆ all, 2 * weigh weight all < 3 * weigh weight Q ∧ ∀ v ∈ Q, v ∉ faulty → voted v x

/-- Where no honest voter votes for two values that exclude each other, no two
such values are both certified. -/
theorem Certified.agree {weight : V → ℕ} {all faulty : Finset V} {voted : V → X → Prop} {x y : X}
    (few : 3 * weigh weight faulty ≤ weigh weight all) (together : X → X → Prop)
    (single : ∀ v, v ∉ faulty → voted v x → voted v y → together x y)
    (first : Certified weight all faulty voted x) (second : Certified weight all faulty voted y) :
    together x y := by
  obtain ⟨Q, inQ, large, votesQ⟩ := first
  obtain ⟨R, inR, large', votesR⟩ := second
  obtain ⟨v, member, honest⟩ := exists_honest_in_both weight inQ inR large large' few
  rw [Finset.mem_inter] at member
  exact single v honest (votesQ v member.1 honest) (votesR v member.2 honest)

end Quorum
