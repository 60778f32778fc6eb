import Mosaic.Lib.CanonicalJson
import Mosaic.Lib.Dict
import Mosaic.Lib.Effects
import Mathlib.Data.List.Perm.Basic

namespace CanonicalJson
open Effects

/-- What reading a value can raise. `untyped` is no exception: a value stands
where one of another type belongs, and the program goes on with it. -/
inductive ReadError
  | keyError (key : String)
  | typeError
  | attributeError
  | valueError
  | overflowError
  | untyped

namespace Json

/-- `value[key]`. -/
def member (key : String) : Json → Except ReadError Json
  | .obj fields =>
    match fields.lookup key with
    | some value => .ok value
    | none => .error (.keyError key)
  | _ => .error .typeError

/-- `value.get(key, default)`. -/
def get (value : Json) (key : String) (default : Json) : Except ReadError Json :=
  match value with
  | .obj fields => .ok ((fields.lookup key).getD default)
  | _ => .error .attributeError

/-- `copy = dict(value); copy.pop(key, None)`, where there is a dictionary. -/
def without (key : String) : Json → Json
  | .obj fields => .obj (fields.eraseP fun entry => entry.1 = key)
  | value => value

/-- `value.items()`. -/
def items : Json → Except ReadError (List (String × Json))
  | .obj fields => .ok fields
  | _ => .error .attributeError

/-- `for item in value`. -/
def elements : Json → Except ReadError (List Json)
  | .list items => .ok items
  | .str text => .ok (text.toList.map fun c => .str (String.singleton c))
  | .obj fields => .ok (fields.map fun entry => .str entry.1)
  | _ => .error .typeError

/-- `bool(value)`. -/
def truthy : Json → Bool
  | .null => false
  | .bool value => value
  | .int value => value ≠ 0
  | .float literal => literal.text.any fun c => c ∉ ['0', '.', '-']
  | .str value => value ≠ ""
  | .list items => !items.isEmpty
  | .obj fields => !fields.isEmpty

def text : Json → Except ReadError String
  | .str value => .ok value
  | _ => .error .untyped

/-- A text that becomes an element of a set. -/
def hashableText : Json → Except ReadError String
  | .list _ | .obj _ => .error .typeError
  | value => value.text

/-- `value == expected`. -/
def isText (expected : String) : Json → Bool
  | .str value => value = expected
  | _ => false

end Json

/-- `int(value)`: an integer is itself. What becomes of texts and of other
numbers is left open. -/
structure IntReading where
  read : Json → Except ReadError Int
  read_int : ∀ value, read (.int value) = .ok value

variable {α : Type}

/-- `read(value[key])`. -/
def field (key : String) (read : Json → Except ReadError α) (value : Json) : Except ReadError α :=
  value.member key >>= read

/-- `[read(item) for item in value]`. -/
def listOf (read : Json → Except ReadError α) (value : Json) : Except ReadError (List α) :=
  value.elements >>= fun items => items.mapM read

/-- `{key: read(item) for key, item in value.items()}`. -/
def dictOf (read : Json → Except ReadError α) (value : Json) : Except ReadError (Dict String α) :=
  value.items >>= fun fields => (fields.mapM fun entry => read entry.2 >>= fun a => .ok (entry.1, a)) >>= fun pairs =>
    .ok (.ofList pairs)

theorem Json.isText_iff {value : Json} {expected : String} : value.isText expected = true ↔ value = .str expected := by
  cases value <;> simp [Json.isText]

/-- `value.get(key) == expected`. -/
theorem Json.get_isText_iff {value : Json} {key expected : String} :
    (∃ w, value.get key .null = .ok w ∧ w.isText expected = true) ↔
      ∃ fields, value = .obj fields ∧ fields.lookup key = some (.str expected) := by
  constructor
  · rintro ⟨w, read, text⟩
    rw [Json.isText_iff.mp text] at read
    cases value with
    | obj fields =>
      have found := Except.ok.inj read
      cases there : fields.lookup key with
      | none =>
        rw [there] at found
        cases found
      | some other =>
        rw [there] at found
        exact ⟨fields, rfl, there.trans (congrArg some found)⟩
    | null | bool _ | int _ | float _ | str _ | list _ => cases read
  · rintro ⟨fields, rfl, there⟩
    exact ⟨.str expected, by rw [Json.get, there, Option.getD_some], Json.isText_iff.mpr rfl⟩

theorem eq_str_of_sortKeys {v : Json} {text : String} (same : v.sortKeys = (Json.str text).sortKeys) : v = .str text := by
  cases v <;> simp_all [Json.sortKeys]

theorem eq_int_of_sortKeys {v : Json} {value : Int} (same : v.sortKeys = (Json.int value).sortKeys) : v = .int value := by
  cases v <;> simp_all [Json.sortKeys]

theorem eq_bool_of_sortKeys {v : Json} {value : Bool} (same : v.sortKeys = (Json.bool value).sortKeys) :
    v = .bool value := by
  cases v <;> simp_all [Json.sortKeys]

theorem eq_list_of_sortKeys {v : Json} {ws : List Json} (same : v.sortKeys = (Json.list ws).sortKeys) :
    ∃ vs, v = .list vs ∧ vs.map Json.sortKeys = ws.map Json.sortKeys := by
  cases v with
  | list vs => exact ⟨vs, rfl, by simpa only [Json.sortKeys, sortItems_eq_map, Json.list.injEq] using same⟩
  | null | bool _ | int _ | float _ | str _ | obj _ => simp [Json.sortKeys] at same

theorem eq_obj_of_sortKeys {v : Json} {ws : List (String × Json)} (same : v.sortKeys = (Json.obj ws).sortKeys) :
    ∃ vs, v = .obj vs ∧ sortFields vs = sortFields ws := by
  cases v with
  | obj vs => exact ⟨vs, rfl, by simpa only [Json.sortKeys, Json.obj.injEq] using same⟩
  | null | bool _ | int _ | float _ | str _ | list _ => simp [Json.sortKeys] at same

/-- A member is there, and it is equal to the one that was written. -/
theorem member_of_sortKeys {v w : Json} {fields : List (String × Json)} (same : v.sortKeys = (Json.obj fields).sortKeys)
    (key : String) (there : fields.lookup key = some w) :
    ∃ u, v.member key = .ok u ∧ u.sortKeys = w.sortKeys := by
  obtain ⟨vs, rfl, -⟩ := eq_obj_of_sortKeys same
  have lookups := lookup_eq_of_sortKeys same key
  rw [there] at lookups
  obtain ⟨u, found, equal⟩ := Option.map_eq_some_iff.mp lookups
  exact ⟨u, by rw [Json.member, found], equal⟩

/-- Objects that are sorted alike have the same members, in some order. -/
theorem perm_of_sortFields {vs ws : List (String × Json)} (same : sortFields vs = sortFields ws) :
    (vs.map fun entry => (entry.1, entry.2.sortKeys)).Perm (ws.map fun entry => (entry.1, entry.2.sortKeys)) := by
  rw [sortFields_eq, sortFields_eq] at same
  have left := List.perm_insertionSort (fun a b => a.1 ≤ b.1) (vs.map fun entry => (entry.1, entry.2.sortKeys))
  rw [same] at left
  exact left.symm.trans (List.perm_insertionSort _ _)

theorem orderedInsert_comm {a b : String × Json} (different : a.1 ≠ b.1) (fields : List (String × Json)) :
    (fields.orderedInsert (fun a b => a.1 ≤ b.1) b).orderedInsert (fun a b => a.1 ≤ b.1) a =
      (fields.orderedInsert (fun a b => a.1 ≤ b.1) a).orderedInsert (fun a b => a.1 ≤ b.1) b := by
  wlog less : a.1 < b.1 generalizing a b
  · exact (this different.symm (lt_of_le_of_ne (not_lt.mp less) different.symm)).symm
  have after : ¬ b.1 ≤ a.1 := not_le.mpr less
  induction fields with
  | nil => simp [List.orderedInsert_cons, less.le, after]
  | cons entry fields ih =>
    by_cases here : b.1 ≤ entry.1
    · simp [List.orderedInsert_cons, here, less.le, after, less.le.trans here]
    · by_cases before : a.1 ≤ entry.1
      · simp [List.orderedInsert_cons, here, before, after]
      · simp only [List.orderedInsert_cons, if_neg here, if_neg before, ih]

/-- The member that is taken out of an object stands before all others in its place. -/
theorem sortFields_eraseP {fields : List (String × Json)} {key : String} {value : Json}
    (there : fields.lookup key = some value) : sortFields fields =
      (sortFields (fields.eraseP fun entry => entry.1 = key)).orderedInsert (fun a b => a.1 ≤ b.1) (key, value.sortKeys) := by
  induction fields with
  | nil => cases there
  | cons entry fields ih =>
    obtain ⟨k, v⟩ := entry
    by_cases here : k = key
    · subst here
      rw [List.lookup_cons_self] at there
      cases there
      rw [List.eraseP_cons_of_pos (by simp), sortFields]
    · rw [List.lookup_cons, beq_eq_false_iff_ne.mpr (Ne.symm here)] at there
      rw [List.eraseP_cons_of_neg (by simpa using here), sortFields, sortFields, ih there,
        orderedInsert_comm here]

theorem eraseP_orderedInsert (key : String) (value : Json) (fields : List (String × Json)) :
    (fields.orderedInsert (fun a b => a.1 ≤ b.1) (key, value)).eraseP (fun entry => entry.1 = key) = fields := by
  induction fields with
  | nil => simp
  | cons entry fields ih =>
    rw [List.orderedInsert_cons]
    split
    · rw [List.eraseP_cons_of_pos (by simp)]
    · rename_i after
      have other : entry.1 ≠ key := fun same => after (le_of_eq same.symm)
      rw [List.eraseP_cons_of_neg (by simpa using other), ih]

theorem eraseP_of_lookup {fields : List (String × Json)} {key : String} (absent : fields.lookup key = none) :
    fields.eraseP (fun entry => entry.1 = key) = fields := by
  refine List.eraseP_of_forall_not fun entry member => ?_
  have other : key ≠ entry.1 := by simpa using List.lookup_eq_none_iff.mp absent entry member
  simpa using other.symm

/-- Objects that are equal are still equal without a member. -/
theorem without_congr {vs ws : List (String × Json)} (same : (Json.obj vs).sortKeys = (Json.obj ws).sortKeys)
    (key : String) : ((Json.obj vs).without key).sortKeys = ((Json.obj ws).without key).sortKeys := by
  have lookups := lookup_eq_of_sortKeys same key
  rw [Json.sortKeys, Json.sortKeys, Json.obj.injEq] at same
  rw [Json.without, Json.without, Json.sortKeys, Json.sortKeys, Json.obj.injEq]
  cases there : ws.lookup key with
  | none =>
    have absent : vs.lookup key = none := by simpa [there] using lookups
    rw [eraseP_of_lookup absent, eraseP_of_lookup there, same]
  | some value =>
    rw [there] at lookups
    obtain ⟨value', there', equal⟩ := Option.map_eq_some_iff.mp lookups
    rw [sortFields_eraseP there, sortFields_eraseP there', equal] at same
    have erased := congrArg (List.eraseP fun entry => entry.1 = key) same
    rwa [eraseP_orderedInsert, eraseP_orderedInsert] at erased

/-- An object is determined by one of its members and the others. -/
theorem sortKeys_eq_of_without {vs ws : List (String × Json)} {key : String} {value : Json}
    (inLeft : vs.lookup key = some value) (inRight : ws.lookup key = some value)
    (others : ((Json.obj vs).without key).sortKeys = ((Json.obj ws).without key).sortKeys) :
    (Json.obj vs).sortKeys = (Json.obj ws).sortKeys := by
  rw [Json.without, Json.without, Json.sortKeys, Json.sortKeys, Json.obj.injEq] at others
  rw [Json.sortKeys, Json.sortKeys, sortFields_eraseP inLeft, sortFields_eraseP inRight, others]

theorem sortFields_of_sorted {fields : List (String × Json)} (sorted : fields.Pairwise fun a b => a.1 ≤ b.1)
    (values : ∀ entry ∈ fields, entry.2.sortKeys = entry.2) : sortFields fields = fields := by
  have same : fields.map (fun entry => (entry.1, entry.2.sortKeys)) = fields.map id :=
    List.map_congr_left fun entry member => Prod.ext rfl (values entry member)
  rw [sortFields_eq, same, List.map_id, sorted.insertionSort_eq]

mutual

theorem sortKeys_sortKeys : (v : Json) → v.sortKeys.sortKeys = v.sortKeys
  | .null => rfl
  | .bool _ => rfl
  | .int _ => rfl
  | .float _ => rfl
  | .str _ => rfl
  | .list items => congrArg Json.list (sortItems_sortItems items)
  | .obj fields => by
    have sorted : (sortFields fields).Pairwise fun a b => a.1 ≤ b.1 := by
      have total : Std.Total fun a b : String × Json => a.1 ≤ b.1 := ⟨fun a b => le_total a.1 b.1⟩
      have trans : IsTrans (String × Json) fun a b => a.1 ≤ b.1 := ⟨fun _ _ _ => le_trans⟩
      rw [sortFields_eq]
      exact List.pairwise_insertionSort _ _
    rw [Json.sortKeys, Json.sortKeys, sortFields_of_sorted sorted (sortKeys_of_mem_sortFields fields)]

theorem sortItems_sortItems : (items : List Json) → sortItems (sortItems items) = sortItems items
  | [] => rfl
  | item :: items => congrArg₂ List.cons (sortKeys_sortKeys item) (sortItems_sortItems items)

theorem sortKeys_of_mem_sortFields : (fields : List (String × Json)) →
    ∀ entry ∈ sortFields fields, entry.2.sortKeys = entry.2
  | [], _, member => nomatch member
  | (_, value) :: fields, entry, member => by
    rcases List.mem_orderedInsert _ |>.mp member with rfl | later
    · exact sortKeys_sortKeys value
    · exact sortKeys_of_mem_sortFields fields entry later

end

/-- `read` undoes `write`, on values that are equal to what was written. -/
def Reads (read : Json → Except ReadError α) (write : α → Json) : Prop :=
  ∀ a v, v.sortKeys = (write a).sortKeys → read v = .ok a

theorem reads_text : Reads Json.text .str := by
  intro a v same
  rw [eq_str_of_sortKeys same]
  rfl

theorem reads_hashableText : Reads Json.hashableText .str := by
  intro a v same
  rw [eq_str_of_sortKeys same]
  rfl

theorem IntReading.reads (ints : IntReading) : Reads ints.read .int := by
  intro a v same
  rw [eq_int_of_sortKeys same, ints.read_int]

theorem reads_truthy : Reads (fun v => .ok v.truthy) .bool := by
  intro a v same
  rw [eq_bool_of_sortKeys same]
  rfl

variable {read : Json → Except ReadError α} {write : α → Json}

theorem Reads.field (reads : Reads read write) {v : Json} {fields : List (String × Json)} {a : α}
    (same : v.sortKeys = (Json.obj fields).sortKeys) (key : String) (there : fields.lookup key = some (write a)) :
    field key read v = .ok a := by
  obtain ⟨u, found, equal⟩ := member_of_sortKeys same key there
  exact except_bind_eq_ok.mpr ⟨u, found, reads a u equal⟩

theorem Reads.get (reads : Reads read write) {v : Json} {fields : List (String × Json)} {a : α}
    (same : v.sortKeys = (Json.obj fields).sortKeys) (key : String) (default : Json)
    (there : fields.lookup key = some (write a)) : (v.get key default >>= read) = .ok a := by
  obtain ⟨vs, rfl, -⟩ := eq_obj_of_sortKeys same
  have lookups := lookup_eq_of_sortKeys same key
  rw [there] at lookups
  obtain ⟨u, found, equal⟩ := Option.map_eq_some_iff.mp lookups
  refine except_bind_eq_ok.mpr ⟨u, ?_, reads a u equal⟩
  simp only [Json.get, found, Option.getD_some]

theorem Reads.mapM (reads : Reads read write) {vs : List Json} {items : List α}
    (same : vs.map Json.sortKeys = (items.map write).map Json.sortKeys) : vs.mapM read = .ok items := by
  induction items generalizing vs with
  | nil =>
    cases List.map_eq_nil_iff.mp same
    rfl
  | cons a items ih =>
    obtain ⟨v, vs, rfl, first, later⟩ := List.map_eq_cons_iff.mp same
    rw [List.mapM_cons]
    exact except_bind_eq_ok.mpr ⟨a, reads a v first, except_bind_eq_ok.mpr ⟨items, ih later, rfl⟩⟩

theorem Reads.listOf (reads : Reads read write) : Reads (listOf read) fun items => .list (items.map write) := by
  intro items v same
  obtain ⟨vs, rfl, sameItems⟩ := eq_list_of_sortKeys same
  exact except_bind_eq_ok.mpr ⟨vs, rfl, reads.mapM sameItems⟩

theorem Reads.pairs (reads : Reads read write) {fields : List (String × Json)} {entries : List (String × α)}
    (same : fields.map (fun entry => (entry.1, entry.2.sortKeys)) =
      entries.map fun entry => (entry.1, (write entry.2).sortKeys)) :
    (fields.mapM fun entry => read entry.2 >>= fun a => .ok (entry.1, a)) = .ok entries := by
  induction entries generalizing fields with
  | nil =>
    cases List.map_eq_nil_iff.mp same
    rfl
  | cons entry entries ih =>
    obtain ⟨⟨key, v⟩, fields, rfl, first, later⟩ := List.map_eq_cons_iff.mp same
    obtain ⟨sameKey, sameValue⟩ := Prod.ext_iff.mp first
    rw [List.mapM_cons]
    refine except_bind_eq_ok.mpr ⟨entry, ?_, except_bind_eq_ok.mpr ⟨entries, ih later, rfl⟩⟩
    exact except_bind_eq_ok.mpr ⟨entry.2, reads _ _ sameValue, congrArg Except.ok (Prod.ext sameKey rfl)⟩

/-- A dictionary comes back with the same entries, in some order. -/
theorem Reads.dictOf (reads : Reads read write) {d : Dict String α} {v : Json}
    (same : v.sortKeys = (Json.obj (d.entries.map fun entry => (entry.1, write entry.2))).sortKeys) :
    ∃ d' : Dict String α, dictOf read v = .ok d' ∧ d'.entries.Perm d.entries := by
  obtain ⟨fields, rfl, sameFields⟩ := eq_obj_of_sortKeys same
  have perm := perm_of_sortFields sameFields
  rw [List.map_map] at perm
  -- The entries are brought into the order in which they come back.
  have related : List.Forall₂ (fun (right : String × Json) left => right = (left.1, (write left.2).sortKeys))
      (d.entries.map fun entry => (entry.1, (write entry.2).sortKeys)) d.entries := by
    rw [List.forall₂_map_left_iff]
    exact List.forall₂_same.mpr fun _ _ => rfl
  obtain ⟨entries, there, moved⟩ := List.perm_comp_forall₂ perm related
  have order : fields.map (fun entry => (entry.1, entry.2.sortKeys)) =
      entries.map fun entry => (entry.1, (write entry.2).sortKeys) := by
    rw [← List.forall₂_eq_eq_eq, List.forall₂_map_right_iff]
    exact there
  have distinct : (entries.map Prod.fst).Nodup := (moved.map Prod.fst).nodup_iff.mpr d.nodup
  refine ⟨.ofList entries, ?_, ?_⟩
  · exact except_bind_eq_ok.mpr ⟨fields, rfl, except_bind_eq_ok.mpr ⟨entries, reads.pairs order, rfl⟩⟩
  · rw [Dict.entries_ofList distinct]
    exact moved

end CanonicalJson
