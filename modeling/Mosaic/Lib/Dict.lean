import Mathlib.Data.List.Nodup
import Mathlib.Data.List.Induction

/-- A dictionary that iterates over its entries in the order in which the keys
were first written. -/
structure Dict (κ α : Type*) where
  entries : List (κ × α)
  nodup : (entries.map Prod.fst).Nodup

namespace Dict

variable {κ α β : Type*}

def keys (d : Dict κ α) : List κ := d.entries.map Prod.fst

def values (d : Dict κ α) : List α := d.entries.map Prod.snd

def empty : Dict κ α := ⟨[], .nil⟩

theorem keys_nodup (d : Dict κ α) : d.keys.Nodup := d.nodup

@[simp] theorem keys_empty : (empty : Dict κ α).keys = [] := rfl

@[simp] theorem values_empty : (empty : Dict κ α).values = [] := rfl

variable [DecidableEq κ]

def get? (d : Dict κ α) (key : κ) : Option α := (d.entries.find? (fun e => e.1 = key)).map Prod.snd

/-- The dictionary with another value under each key. -/
def mapValues (d : Dict κ α) (f : α → β) : Dict κ β where
  entries := d.entries.map fun e => (e.1, f e.2)
  nodup := by simpa only [List.map_map, Function.comp_def] using d.nodup

/-- Overwrite in place, or append when the key is new. -/
def setEntries (key : κ) (value : α) : List (κ × α) → List (κ × α)
  | [] => [(key, value)]
  | e :: es => if e.1 = key then (key, value) :: es else e :: setEntries key value es

theorem keys_setEntries (key : κ) (value : α) (es : List (κ × α)) :
    (setEntries key value es).map Prod.fst =
      if key ∈ es.map Prod.fst then es.map Prod.fst else es.map Prod.fst ++ [key] := by
  induction es with
  | nil => simp [setEntries]
  | cons e es ih =>
    by_cases here : e.1 = key
    · simp [setEntries, here]
    · simp only [setEntries, if_neg here, List.map_cons, ih, List.mem_cons, Ne.symm here, false_or]
      split <;> simp

def set (d : Dict κ α) (key : κ) (value : α) : Dict κ α where
  entries := setEntries key value d.entries
  nodup := by
    rw [keys_setEntries]
    split
    · exact d.nodup
    · rename_i fresh
      exact List.nodup_append.mpr ⟨d.nodup, List.nodup_singleton _, by
        rintro x member y here rfl
        rw [List.mem_singleton.mp here] at member
        exact fresh member⟩

def erase (d : Dict κ α) (key : κ) : Dict κ α where
  entries := d.entries.filter (fun e => e.1 ≠ key)
  nodup := List.Nodup.sublist (List.filter_sublist.map _) d.nodup

def contains (d : Dict κ α) (key : κ) : Bool := (d.get? key).isSome

/-- The dictionary built by writing the pairs one after the other: the last
value written for a key is the one that stays. -/
def ofList (pairs : List (κ × α)) : Dict κ α := pairs.foldl (fun d e => d.set e.1 e.2) empty

@[simp] theorem get?_empty (key : κ) : (empty : Dict κ α).get? key = none := rfl

theorem get?_mapValues (d : Dict κ α) (f : α → β) (key : κ) : (d.mapValues f).get? key = (d.get? key).map f := by
  simp only [get?, mapValues, List.find?_map, Option.map_map, Function.comp_def]

theorem lookup_entries (d : Dict κ α) (key : κ) : d.entries.lookup key = d.get? key := by
  unfold get?
  induction d.entries with
  | nil => rfl
  | cons e es ih =>
    rw [List.lookup_cons, List.find?_cons, ih]
    by_cases here : key = e.1
    · simp [here]
    · have other : (key == e.1) = false := beq_eq_false_iff_ne.mpr here
      simp only [other, Ne.symm here, decide_false]

theorem find?_setEntries (key key' : κ) (value : α) (es : List (κ × α)) :
    ((setEntries key value es).find? (fun e => e.1 = key')).map Prod.snd =
      if key = key' then some value else (es.find? (fun e => e.1 = key')).map Prod.snd := by
  induction es with
  | nil => by_cases same : key = key' <;> simp [setEntries, same]
  | cons e es ih =>
    by_cases here : e.1 = key
    · by_cases same : key = key'
      · simp [setEntries, here, same]
      · simp [setEntries, here, same]
    · simp only [setEntries, if_neg here, List.find?_cons]
      by_cases found : e.1 = key'
      · have other : ¬ key = key' := fun same => here (found.trans same.symm)
        simp [found, other]
      · simpa [found] using ih

theorem get?_set (d : Dict κ α) (key key' : κ) (value : α) :
    (d.set key value).get? key' = if key = key' then some value else d.get? key' :=
  find?_setEntries key key' value d.entries

@[simp] theorem get?_set_self (d : Dict κ α) (key : κ) (value : α) :
    (d.set key value).get? key = some value := by rw [get?_set, if_pos rfl]

theorem get?_set_of_ne (d : Dict κ α) {key key' : κ} (value : α) (other : key ≠ key') :
    (d.set key value).get? key' = d.get? key' := by rw [get?_set, if_neg other]

/-- An entry after a write is the written one or an old one. -/
theorem origin_of_get?_set {d : Dict κ α} {key key' : κ} {value value' : α}
    (found : (d.set key value).get? key' = some value') : key' = key ∧ value' = value ∨ d.get? key' = some value' := by
  rw [get?_set] at found
  split at found
  · rename_i same
    cases found
    exact Or.inl ⟨same.symm, rfl⟩
  · exact Or.inr found

/-- Two entries under different keys may be written in either order. -/
theorem get?_set_comm (d : Dict κ α) {key key' : κ} (value value' : α) (other : key ≠ key') (k : κ) :
    ((d.set key value).set key' value').get? k = ((d.set key' value').set key value).get? k := by
  simp only [get?_set]
  by_cases here : key = k
  · subst here
    simp only [if_true, if_neg other.symm]
  · simp only [if_neg here]

theorem get?_erase (d : Dict κ α) (key key' : κ) :
    (d.erase key).get? key' = if key = key' then none else d.get? key' := by
  unfold get? erase
  rw [List.find?_filter]
  split
  · rename_i same
    subst same
    rw [List.find?_eq_none.mpr (by simp), Option.map_none]
  · rename_i other
    congr 2
    funext e
    by_cases here : e.1 = key'
    · simp [here, Ne.symm other]
    · simp [here]

theorem get?_eq_some_iff (d : Dict κ α) {key : κ} {value : α} :
    d.get? key = some value ↔ (key, value) ∈ d.entries := by
  unfold get?
  constructor
  · intro found
    obtain ⟨e, atE, rfl⟩ := Option.map_eq_some_iff.mp found
    have here := List.find?_some atE
    simp only [decide_eq_true_eq] at here
    subst here
    exact List.mem_of_find?_eq_some atE
  · intro member
    cases atE : d.entries.find? (fun e => e.1 = key) with
    | none => exact absurd (List.find?_eq_none.mp atE _ member) (by simp)
    | some e =>
      have here := List.find?_some atE
      simp only [decide_eq_true_eq] at here
      have same := List.inj_on_of_nodup_map d.nodup (List.mem_of_find?_eq_some atE) member here
      simp [same]

/-- Dictionaries that answer alike hold the same entries, in some order. -/
theorem entries_perm {d d' : Dict κ α} (same : ∀ key, d.get? key = d'.get? key) : d.entries.Perm d'.entries := by
  refine (List.perm_ext_iff_of_nodup (.of_map Prod.fst d.nodup) (.of_map Prod.fst d'.nodup)).mpr ?_
  rintro ⟨key, value⟩
  rw [← get?_eq_some_iff, ← get?_eq_some_iff, same]

theorem get?_of_perm {d d' : Dict κ α} (perm : d.entries.Perm d'.entries) (key : κ) : d.get? key = d'.get? key := by
  ext value
  rw [get?_eq_some_iff, get?_eq_some_iff, perm.mem_iff]

theorem mem_values {d : Dict κ α} {value : α} : value ∈ d.values ↔ ∃ key, d.get? key = some value := by
  simp only [values, List.mem_map, get?_eq_some_iff, Prod.exists, exists_eq_right]

/-- Values that differ in `f` for different keys. -/
theorem nodup_map_values {β : Type*} {d : Dict κ α} {f : α → β}
    (apart : ∀ key key' value value', d.get? key = some value → d.get? key' = some value' → f value = f value' → key = key') :
    (d.values.map f).Nodup := by
  rw [values, List.map_map]
  refine List.Nodup.map_on ?_ (.of_map Prod.fst d.nodup)
  rintro ⟨key, value⟩ member ⟨key', value'⟩ member' same
  have held := (get?_eq_some_iff d).mpr member
  have held' := (get?_eq_some_iff d).mpr member'
  cases apart key key' value value' held held' same
  cases held.symm.trans held'
  rfl

theorem mem_keys {d : Dict κ α} {key : κ} : key ∈ d.keys ↔ ∃ value, d.get? key = some value := by
  simp only [keys, List.mem_map, get?_eq_some_iff, Prod.exists, exists_and_right, exists_eq_right]

theorem get?_eq_none_iff {d : Dict κ α} {key : κ} : d.get? key = none ↔ key ∉ d.keys := by
  rw [mem_keys, ← Option.isSome_iff_exists, Bool.not_eq_true, Option.isSome_eq_false_iff,
    Option.isNone_iff_eq_none]

theorem contains_iff {d : Dict κ α} {key : κ} : d.contains key = true ↔ ∃ value, d.get? key = some value :=
  Option.isSome_iff_exists

@[simp] theorem contains_eq_false {d : Dict κ α} {key : κ} : d.contains key = false ↔ d.get? key = none := by
  simp [contains]

theorem mem_values_of_get? {d : Dict κ α} {key : κ} {value : α} (found : d.get? key = some value) :
    value ∈ d.values := mem_values.mpr ⟨key, found⟩

theorem contains_set {d : Dict κ α} {key key' : κ} {value : α} (found : d.contains key' = true) :
    (d.set key value).contains key' = true := by
  rw [contains, get?_set]
  split
  · rfl
  · exact found

theorem setEntries_of_find? {key : κ} {value : α} {es : List (κ × α)}
    (found : (es.find? fun e => e.1 = key).map Prod.snd = some value) : setEntries key value es = es := by
  induction es with
  | nil => cases found
  | cons e es ih =>
    by_cases here : e.1 = key
    · rw [List.find?_cons_of_pos (by simpa using here)] at found
      cases found
      rw [setEntries, if_pos here, ← here]
    · rw [List.find?_cons_of_neg (by simpa using here)] at found
      rw [setEntries, if_neg here, ih found]

/-- Writing what is there changes nothing. -/
theorem set_of_get? {d : Dict κ α} {key : κ} {value : α} (found : d.get? key = some value) : d.set key value = d := by
  cases d with
  | mk entries nodup =>
    unfold set
    congr 1
    exact setEntries_of_find? found

/-- The first value after a write is the written one or the first one before. -/
theorem head?_values_set {d : Dict κ α} {key : κ} {value value' : α}
    (head : (d.set key value).values.head? = some value') : value' = value ∨ d.values.head? = some value' := by
  change ((setEntries key value d.entries).map Prod.snd).head? = some value' at head
  unfold values
  cases listed : d.entries with
  | nil =>
    rw [listed] at head
    exact Or.inl (Option.some.inj head).symm
  | cons e es =>
    rw [listed, setEntries] at head
    split at head
    · exact Or.inl (Option.some.inj head).symm
    · exact Or.inr head

theorem keys_set (d : Dict κ α) (key : κ) (value : α) :
    (d.set key value).keys = if key ∈ d.keys then d.keys else d.keys ++ [key] :=
  keys_setEntries key value d.entries

theorem ofList_append_singleton (pairs : List (κ × α)) (e : κ × α) :
    ofList (pairs ++ [e]) = (ofList pairs).set e.1 e.2 := by
  simp [ofList, List.foldl_append]

/-- Whatever the built dictionary holds was written by one of the pairs. -/
theorem mem_of_get?_ofList {pairs : List (κ × α)} {key : κ} {value : α}
    (found : (ofList pairs).get? key = some value) : (key, value) ∈ pairs := by
  induction pairs using List.reverseRecOn with
  | nil => simp [ofList] at found
  | append_singleton pairs e ih =>
    rw [ofList_append_singleton, get?_set] at found
    split at found
    · rename_i here
      cases Option.some.inj found
      simp [← here]
    · exact List.mem_append_left _ (ih found)

/-- Every pair leaves its key in the built dictionary. -/
theorem mem_keys_ofList {pairs : List (κ × α)} {key : κ} :
    key ∈ (ofList pairs).keys ↔ key ∈ pairs.map Prod.fst := by
  induction pairs using List.reverseRecOn with
  | nil => simp [ofList]
  | append_singleton pairs e ih =>
    rw [ofList_append_singleton, keys_set, List.map_append, List.mem_append, ← ih]
    split
    · rename_i old
      constructor
      · exact Or.inl
      · rintro (member | here)
        · exact member
        · rw [List.map_singleton, List.mem_singleton] at here
          rwa [here]
    · simp

/-- The last pair for a key decides. -/
theorem get?_ofList (pairs : List (κ × α)) (key : κ) :
    (ofList pairs).get? key = ((pairs.filter fun e => e.1 = key).getLast?).map Prod.snd := by
  induction pairs using List.reverseRecOn with
  | nil => rfl
  | append_singleton pairs e ih =>
    rw [ofList_append_singleton, get?_set, List.filter_append]
    by_cases here : e.1 = key
    · simp [here]
    · simp [here, ih]

/-- Pairs with distinct keys are kept as they are, in their order. -/
theorem entries_ofList {pairs : List (κ × α)} (distinct : (pairs.map Prod.fst).Nodup) :
    (ofList pairs).entries = pairs := by
  induction pairs using List.reverseRecOn with
  | nil => rfl
  | append_singleton pairs e ih =>
    rw [List.map_append, List.nodup_append] at distinct
    have fresh : e.1 ∉ pairs.map Prod.fst := fun member =>
      distinct.2.2 e.1 member e.1 (by simp) rfl
    have append : ∀ es : List (κ × α), e.1 ∉ es.map Prod.fst →
        setEntries e.1 e.2 es = es ++ [e] := by
      intro es
      induction es with
      | nil => intro; rfl
      | cons f fs ihf =>
        intro missing
        simp only [List.map_cons, List.mem_cons, not_or] at missing
        simp [setEntries, Ne.symm missing.1, ihf missing.2]
    rw [ofList_append_singleton]
    change setEntries e.1 e.2 (ofList pairs).entries = pairs ++ [e]
    rw [ih distinct.1, append pairs fresh]

/-- In a dictionary made of items under distinct keys every item is found. -/
theorem get?_ofList_keyed {name : α → κ} {items : List α}
    (distinct : (items.map name).Nodup) {key : κ} {item : α} :
    (ofList (items.map fun item => (name item, item))).get? key = some item ↔ item ∈ items ∧ name item = key := by
  have keys : ((items.map fun item => (name item, item)).map Prod.fst).Nodup := by
    simpa only [List.map_map, Function.comp_def] using distinct
  rw [get?_eq_some_iff, entries_ofList keys, List.mem_map]
  constructor
  · rintro ⟨other, member, same⟩
    cases same
    exact ⟨member, rfl⟩
  · rintro ⟨member, rfl⟩
    exact ⟨item, member, rfl⟩

/-- Building a dictionary anew from its values, each under its name. -/
theorem ofList_values {name : α → κ} {d : Dict κ α} (named : ∀ e ∈ d.entries, name e.2 = e.1) :
    ofList (d.values.map fun value => (name value, value)) = d := by
  have pairs : d.values.map (fun value => (name value, value)) = d.entries := by
    rw [values, List.map_map, ← List.map_id d.entries, List.map_map]
    refine List.map_congr_left fun e member => ?_
    simp [named e member]
  have entries : (ofList (d.values.map fun value => (name value, value))).entries = d.entries := by
    rw [pairs, entries_ofList d.nodup]
  revert entries
  generalize ofList (d.values.map fun value => (name value, value)) = d'
  intro entries
  cases d
  cases d'
  congr

/-- Write the values one after the other, each under its own key. -/
def writeAll (key : α → κ) (d : Dict κ α) (values : List α) : Dict κ α :=
  values.foldl (fun d value => d.set (key value) value) d

theorem writeAll_append_singleton (key : α → κ) (d : Dict κ α) (values : List α) (value : α) :
    d.writeAll key (values ++ [value]) = (d.writeAll key values).set (key value) value := by
  simp [writeAll, List.foldl_append]

/-- What is found afterwards was written, or nothing was written under its key. -/
theorem get?_writeAll {key : α → κ} {d : Dict κ α} {values : List α} {k : κ} {v : α}
    (found : (d.writeAll key values).get? k = some v) :
    v ∈ values ∧ key v = k ∨ d.get? k = some v ∧ ∀ value ∈ values, key value ≠ k := by
  induction values using List.reverseRecOn with
  | nil => exact Or.inr ⟨found, by simp⟩
  | append_singleton values value ih =>
    rw [writeAll_append_singleton, get?_set] at found
    split at found
    · rename_i here
      cases Option.some.inj found
      exact Or.inl ⟨by simp, here⟩
    · rename_i elsewhere
      rcases ih found with ⟨member, same⟩ | ⟨old, others⟩
      · exact Or.inl ⟨List.mem_append_left _ member, same⟩
      · refine Or.inr ⟨old, fun other member => ?_⟩
        rcases List.mem_append.mp member with earlier | last
        · exact others other earlier
        · rwa [List.mem_singleton.mp last]

theorem get?_writeAll_of_mem {key : α → κ} {d : Dict κ α} {values : List α} {value : α} (member : value ∈ values) :
    ∃ v, (d.writeAll key values).get? (key value) = some v := by
  induction values using List.reverseRecOn with
  | nil => cases member
  | append_singleton values last ih =>
    rw [writeAll_append_singleton, get?_set]
    split
    · exact ⟨last, rfl⟩
    · rename_i elsewhere
      rcases List.mem_append.mp member with earlier | here
      · exact ih earlier
      · rw [List.mem_singleton.mp here] at elsewhere
        exact absurd rfl elsewhere

theorem get?_writeAll_of_missing {key : α → κ} {d : Dict κ α} {values : List α} {k : κ}
    (missing : ∀ value ∈ values, key value ≠ k) : (d.writeAll key values).get? k = d.get? k := by
  induction values using List.reverseRecOn with
  | nil => rfl
  | append_singleton values last ih =>
    rw [writeAll_append_singleton, get?_set_of_ne _ _ (missing last (by simp))]
    exact ih fun value member => missing value (List.mem_append_left _ member)

end Dict
