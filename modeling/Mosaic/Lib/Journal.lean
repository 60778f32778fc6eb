import Mathlib.Data.List.Basic
import Mathlib.Logic.Function.Basic
import Mathlib.Logic.Relation

namespace Journal

variable {κ α : Type*}

structure Entry (κ α : Type*) where
  number : ℕ
  key : κ
  value : α

end Journal

/-- `last` is the largest number that was ever given. -/
structure Journal (κ α : Type*) where
  values : κ → Option α
  entries : List (Journal.Entry κ α)
  last : ℕ

namespace Journal

variable {κ α : Type*} [DecidableEq κ] {j : Journal κ α} {base : ℕ}

/-- The value is written and recorded. -/
def record (key : κ) (value : α) (j : Journal κ α) : Journal κ α where
  values := Function.update j.values key (some value)
  entries := j.entries ++ [⟨j.last + 1, key, value⟩]
  last := j.last + 1

omit [DecidableEq κ] in
/-- Some entries are dropped. -/
def drop (dropped : Entry κ α → Bool) (j : Journal κ α) : Journal κ α :=
  { j with entries := j.entries.filter fun entry => !dropped entry }

/-- The entries after a number, written again. -/
def replay (base : ℕ) (entries : List (Entry κ α)) (values : κ → Option α) : κ → Option α :=
  (entries.filter fun entry => base < entry.number).foldl
    (fun values entry => Function.update values entry.key (some entry.value)) values

/-- The numbers go up and are not larger than the last one. -/
structure Numbered (j : Journal κ α) : Prop where
  rising : j.entries.Pairwise fun a b => a.number < b.number
  bounded : ∀ entry ∈ j.entries, entry.number ≤ j.last

theorem Numbered.record (numbered : j.Numbered) (key : κ) (value : α) : (j.record key value).Numbered := by
  refine ⟨List.pairwise_append.mpr ⟨numbered.rising, List.pairwise_singleton _ _, ?_⟩, ?_⟩
  · intro a before b new
    have bound := numbered.bounded a before
    rw [List.mem_singleton.mp new]
    show a.number < j.last + 1
    omega
  · intro entry member
    rcases List.mem_append.mp member with old | new
    · have bound := numbered.bounded entry old
      show entry.number ≤ j.last + 1
      omega
    · rw [List.mem_singleton.mp new]
      exact Nat.le_refl _

omit [DecidableEq κ] in
theorem Numbered.drop (numbered : j.Numbered) (dropped : Entry κ α → Bool) : (j.drop dropped).Numbered :=
  ⟨numbered.rising.filter _, fun entry member => numbered.bounded entry (List.mem_of_mem_filter member)⟩

/-- Recording a value and dropping entries that are not after the base. -/
inductive Step (base : ℕ) : Journal κ α → Journal κ α → Prop
  | record (j : Journal κ α) (key : κ) (value : α) : Step base j (j.record key value)
  | drop (j : Journal κ α) (dropped : Entry κ α → Bool) (old : ∀ entry, dropped entry = true → entry.number ≤ base) :
      Step base j (j.drop dropped)

theorem replay_append (base : ℕ) (entries : List (Entry κ α)) (entry : Entry κ α) (after : base < entry.number)
    (values : κ → Option α) : replay base (entries ++ [entry]) values =
      Function.update (replay base entries values) entry.key (some entry.value) := by
  simp [replay, List.filter_append, List.foldl_append, after]

/-- No entry after the base is dropped. -/
theorem replay_drop (entries : List (Entry κ α)) {dropped : Entry κ α → Bool}
    (old : ∀ entry, dropped entry = true → entry.number ≤ base) (values : κ → Option α) :
    replay base (entries.filter fun entry => !dropped entry) values = replay base entries values := by
  have same : (entries.filter fun entry => !dropped entry).filter (fun entry => base < entry.number) =
      entries.filter fun entry => base < entry.number := by
    rw [List.filter_filter]
    refine List.filter_congr fun entry _ => ?_
    by_cases gone : dropped entry = true
    · have below := old entry gone
      simp [gone, below]
    · simp [gone]
  rw [replay, replay, same]

/-- Where all that happens is recorded and no entry after the base is dropped, the
entries after the base lead from the values that were to the values that are. -/
theorem values_eq_replay {later : Journal κ α} (none : ∀ entry ∈ j.entries, entry.number ≤ base) (behind : base ≤ j.last)
    (run : Relation.ReflTransGen (Step base) j later) : later.values = replay base later.entries j.values := by
  suffices both : j.last ≤ later.last ∧ later.values = replay base later.entries j.values from both.2
  induction run with
  | refl =>
    refine ⟨Nat.le_refl _, ?_⟩
    have empty : j.entries.filter (fun entry => base < entry.number) = [] := by
      rw [List.filter_eq_nil_iff]
      intro entry member after
      have below := none entry member
      have above := of_decide_eq_true after
      omega
    rw [replay, empty]
    rfl
  | @tail t _ _ step ih =>
    obtain ⟨grown, values⟩ := ih
    cases step with
    | record key value =>
      refine ⟨?_, ?_⟩
      · show j.last ≤ t.last + 1
        omega
      · show Function.update t.values key (some value) = replay base (t.entries ++ [_]) j.values
        rw [replay_append _ _ _ (by show base < t.last + 1; omega), values]
    | drop dropped old => exact ⟨grown, values.trans (replay_drop t.entries old j.values).symm⟩

end Journal
