import Mathlib.Data.Fintype.Basic
import Mathlib.Data.List.Basic
import Mathlib.Logic.Relation

/-- Members that handle messages, and all messages that were sent. -/
structure Cascade (σ ι μ : Type*) where
  sent : σ → List μ
  handled : σ → ι → List μ
  deliver : ι → μ → σ → σ
  rank : μ → ℕ
  Holds : σ → Prop
  bound : ℕ
  bounded : ∀ s, Holds s → ∀ m ∈ sent s, rank m < bound
  holds : ∀ s i m, Holds s → m ∈ sent s → Holds (deliver i m s)
  higher : ∀ s i m, Holds s → m ∈ sent s → ∃ more, sent (deliver i m s) = sent s ++ more ∧ ∀ n ∈ more, rank m < rank n
  handles : ∀ s i m, m ∈ handled (deliver i m s) i
  keeps : ∀ s i m j, ∀ n ∈ handled s j, n ∈ handled (deliver i m s) j

namespace Cascade

variable {σ ι μ : Type*} (c : Cascade σ ι μ)

/-- A message that was sent is delivered to some member. -/
def Step (s t : σ) : Prop := ∃ i, ∃ m ∈ c.sent s, t = c.deliver i m s

abbrev Reaches : σ → σ → Prop := Relation.ReflTransGen c.Step

def Quiet (s : σ) : Prop := ∀ m ∈ c.sent s, ∀ i, m ∈ c.handled s i

variable {c} {s t : σ}

/-- Some deliveries of one rank can be made one after the other. -/
theorem delivers {r : ℕ} (holds : c.Holds s) (todo : List (ι × μ))
    (due : ∀ entry ∈ todo, entry.2 ∈ c.sent s ∧ c.rank entry.2 = r) : ∃ t, c.Reaches s t ∧ c.Holds t ∧
      (∃ more, c.sent t = c.sent s ++ more ∧ ∀ m ∈ more, r < c.rank m) ∧
        (∀ i, ∀ m ∈ c.handled s i, m ∈ c.handled t i) ∧ ∀ entry ∈ todo, entry.2 ∈ c.handled t entry.1 := by
  -- the last delivery of the list comes last
  induction todo using List.reverseRecOn with
  | nil => exact ⟨s, .refl, holds, ⟨[], by simp, nofun⟩, fun _ _ member => member, nofun⟩
  | append_singleton todo entry ih =>
    obtain ⟨t, reached, holds', ⟨more, sent, above⟩, kept, done⟩ :=
      ih fun e member => due e (List.mem_append_left _ member)
    obtain ⟨inSent, rank⟩ := due entry (by simp)
    have present : entry.2 ∈ c.sent t := sent ▸ List.mem_append_left more inSent
    obtain ⟨new, sent', above'⟩ := c.higher t entry.1 entry.2 holds' present
    refine ⟨c.deliver entry.1 entry.2 t, reached.tail ⟨entry.1, entry.2, present, rfl⟩, c.holds _ _ _ holds' present,
      ⟨more ++ new, ?_, fun m member => ?_⟩, fun i m member => c.keeps _ _ _ i m (kept i m member), fun e member => ?_⟩
    · rw [sent', sent, List.append_assoc]
    · rcases List.mem_append.mp member with old | now
      · exact above m old
      · exact rank ▸ above' m now
    · rcases List.mem_append.mp member with old | now
      · exact c.keeps _ _ _ _ _ (done e old)
      · cases List.mem_singleton.mp now
        exact c.handles _ _ _

/-- Rank by rank everything can be delivered to everybody. -/
theorem settles [Fintype ι] (holds : c.Holds s) : ∃ t, c.Reaches s t ∧ c.Holds t ∧ c.Quiet t := by
  have upTo : ∀ r, ∃ t, c.Reaches s t ∧ c.Holds t ∧ ∀ m ∈ c.sent t, c.rank m < r → ∀ i, m ∈ c.handled t i := by
    intro r
    induction r with
    | zero => exact ⟨s, .refl, holds, fun m _ low => absurd low (Nat.not_lt_zero _)⟩
    | succ r ih =>
      obtain ⟨t, reached, holds', low⟩ := ih
      have todo : ∀ entry ∈ (Finset.univ : Finset ι).toList ×ˢ (c.sent t).filter fun m => c.rank m = r,
          entry.2 ∈ c.sent t ∧ c.rank entry.2 = r := by
        intro entry member
        have parts := (List.pair_mem_product.mp member).2
        exact ⟨(List.mem_filter.mp parts).1, of_decide_eq_true (List.mem_filter.mp parts).2⟩
      obtain ⟨u, further, holds'', ⟨more, sent, above⟩, kept, done⟩ := delivers holds' _ todo
      refine ⟨u, reached.trans further, holds'', fun m member rank i => ?_⟩
      rw [sent] at member
      rcases List.mem_append.mp member with old | new
      · by_cases here : c.rank m = r
        · refine done (i, m) (List.pair_mem_product.mpr ⟨Finset.mem_toList.mpr (Finset.mem_univ i), ?_⟩)
          exact List.mem_filter.mpr ⟨old, decide_eq_true here⟩
        · exact kept i m (low m old (by omega) i)
      · have higher := above m new
        omega
  obtain ⟨t, reached, holds', all⟩ := upTo c.bound
  exact ⟨t, reached, holds', fun m member => all m member (c.bounded t holds' m member)⟩

end Cascade
