import Mosaic.Lib.Dict
import Mathlib.Algebra.BigOperators.Group.Finset.Basic
import Mathlib.Algebra.BigOperators.Group.List.Basic
import Mathlib.Algebra.Order.Ring.Int

namespace Dict

variable {κ α : Type*}

/-- What the values amount to together. -/
def sumBy (f : α → ℤ) (d : Dict κ α) : ℤ := (d.values.map f).sum

@[simp] theorem sumBy_empty (f : α → ℤ) : (empty : Dict κ α).sumBy f = 0 := rfl

variable [DecidableEq κ]

/-- What stands under a key, as a summand. -/
def amountAt (f : α → ℤ) (d : Dict κ α) (key : κ) : ℤ := ((d.get? key).map f).getD 0

theorem amountAt_of_some {f : α → ℤ} {d : Dict κ α} {key : κ} {value : α} (found : d.get? key = some value) :
    d.amountAt f key = f value := by simp [amountAt, found]

theorem amountAt_of_none {f : α → ℤ} {d : Dict κ α} {key : κ} (missing : d.get? key = none) :
    d.amountAt f key = 0 := by simp [amountAt, missing]

theorem sum_setEntries (f : α → ℤ) (key : κ) (value : α) (es : List (κ × α)) :
    ((setEntries key value es).map fun e => f e.2).sum +
      ((es.find? fun e => e.1 = key).map fun e => f e.2).getD 0 = (es.map fun e => f e.2).sum + f value := by
  induction es with
  | nil => simp [setEntries]
  | cons e es ih =>
    by_cases here : e.1 = key
    · simp only [setEntries, here, if_true, List.map_cons, List.sum_cons, List.find?_cons, decide_true,
        Option.map_some, Option.getD_some]
      omega
    · simp only [setEntries, here, if_false, List.map_cons, List.sum_cons, List.find?_cons, decide_false]
      omega

/-- A written value takes the place of the one that stood under its key. -/
theorem sumBy_set (f : α → ℤ) (d : Dict κ α) (key : κ) (value : α) :
    (d.set key value).sumBy f + d.amountAt f key = d.sumBy f + f value := by
  have entries := sum_setEntries f key value d.entries
  simpa [sumBy, values, amountAt, get?, set, List.map_map, Function.comp_def, Option.map_map] using entries

theorem sum_filter_ne (f : α → ℤ) (key : κ) {es : List (κ × α)} (distinct : (es.map Prod.fst).Nodup) :
    ((es.filter fun e => e.1 ≠ key).map fun e => f e.2).sum +
      ((es.find? fun e => e.1 = key).map fun e => f e.2).getD 0 = (es.map fun e => f e.2).sum := by
  induction es with
  | nil => simp
  | cons e es ih =>
    rw [List.map_cons, List.nodup_cons] at distinct
    by_cases here : e.1 = key
    · have others : es.filter (fun e => e.1 ≠ key) = es := by
        refine List.filter_eq_self.mpr fun other member => ?_
        have elsewhere : other.1 ≠ key := by
          rintro rfl
          exact distinct.1 (here ▸ List.mem_map_of_mem member)
        simpa using elsewhere
      simp only [List.filter_cons, here, ne_eq, not_true_eq_false, decide_false, Bool.false_eq_true, if_false,
        List.find?_cons, decide_true, Option.map_some, Option.getD_some, List.map_cons, List.sum_cons]
      simp only [ne_eq] at others
      rw [others]
      omega
    · have later := ih distinct.2
      simp only [ne_eq] at later
      simp only [List.filter_cons, here, ne_eq, not_false_eq_true, decide_true, if_true, List.find?_cons, decide_false,
        List.map_cons, List.sum_cons]
      omega

theorem sumBy_erase (f : α → ℤ) (d : Dict κ α) (key : κ) :
    (d.erase key).sumBy f + d.amountAt f key = d.sumBy f := by
  have entries := sum_filter_ne f key d.nodup
  simpa [sumBy, values, amountAt, get?, erase, List.map_map, Function.comp_def, Option.map_map] using entries

/-- The sum of the values, taken key by key. -/
theorem sumBy_eq_sum_keys (f : α → ℤ) (d : Dict κ α) : d.sumBy f = ∑ key ∈ d.keys.toFinset, d.amountAt f key := by
  have entries : d.values.map f = d.keys.map (d.amountAt f) := by
    simp only [values, keys, List.map_map]
    refine List.map_congr_left fun e member => ?_
    exact (amountAt_of_some ((get?_eq_some_iff d).mpr member)).symm
  rw [List.sum_toFinset _ d.keys_nodup, sumBy, entries]

/-- Writing a value back where it stood changes nothing. -/
theorem set_get? {d : Dict κ α} {key : κ} {value : α} (found : d.get? key = some value) : d.set key value = d := by
  suffices same : setEntries key value d.entries = d.entries by
    cases d
    simpa [set] using same
  have member := (get?_eq_some_iff d).mp found
  have distinct := d.nodup
  generalize d.entries = es at member distinct
  induction es with
  | nil => cases member
  | cons e es ih =>
    rw [List.map_cons, List.nodup_cons] at distinct
    rcases List.mem_cons.mp member with rfl | later
    · simp [setEntries]
    · have other : e.1 ≠ key := by
        rintro rfl
        exact distinct.1 (List.mem_map.mpr ⟨_, later, rfl⟩)
      simp only [setEntries, if_neg other, ih later distinct.2]

theorem set_set (d : Dict κ α) (key : κ) (first second : α) : (d.set key first).set key second = d.set key second := by
  suffices same : ∀ es : List (κ × α), setEntries key second (setEntries key first es) = setEntries key second es by
    simp [set, same]
  intro es
  induction es with
  | nil => simp [setEntries]
  | cons e es ih =>
    by_cases here : e.1 = key
    · simp [setEntries, here]
    · simp [setEntries, here, ih]

end Dict
