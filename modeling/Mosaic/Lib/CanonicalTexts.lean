import Mosaic.Lib.CanonicalJson

namespace CanonicalJson

/-- Which texts UTF-8 can encode. A Python text may hold a lone surrogate, which UTF-8
cannot encode and no string here has: a string that is not one of `encodes` stands for
such a text. Texts of characters that come before the surrogates stand for themselves. -/
class Texts where
  encodes : String → Bool
  plain : ∀ text : String, (∀ c ∈ text.toList, c.toNat < 0xD800) → encodes text = true

mutual

/-- The texts in a value, the keys of its objects among them. -/
def Json.texts : Json → List String
  | .str value => [value]
  | .list items => itemTexts items
  | .obj fields => fieldTexts fields
  | .null | .bool _ | .int _ | .float _ => []

def itemTexts : List Json → List String
  | [] => []
  | item :: items => item.texts ++ itemTexts items

def fieldTexts : List (String × Json) → List String
  | [] => []
  | (key, value) :: fields => key :: (value.texts ++ fieldTexts fields)

end

theorem mem_itemTexts_map_str {values : List String} {text : String} :
    text ∈ itemTexts (values.map .str) ↔ text ∈ values := by
  induction values with
  | nil => rfl
  | cons value values ih =>
    rw [List.map_cons, itemTexts, Json.texts, List.singleton_append, List.mem_cons, List.mem_cons, ih]

variable [Texts]

theorem encodes_of_all {text : String} (near : (text.toList.all fun c => c.toNat < 0xD800) = true) :
    Texts.encodes text = true :=
  Texts.plain text fun c member => of_decide_eq_true (List.all_eq_true.mp near c member)

/-- UTF-8 can encode every text in the value. -/
def Json.Encodable (value : Json) : Prop := ∀ text ∈ value.texts, Texts.encodes text = true

instance (value : Json) : Decidable value.Encodable := inferInstanceAs (Decidable (∀ text ∈ value.texts, _))

@[simp]
theorem encodable_str {text : String} : (Json.str text).Encodable ↔ Texts.encodes text = true := by
  simp [Json.Encodable, Json.texts]

@[simp]
theorem encodable_int (number : Int) : (Json.int number).Encodable := by
  simp [Json.Encodable, Json.texts]

@[simp]
theorem encodable_bool (value : Bool) : (Json.bool value).Encodable := by
  simp [Json.Encodable, Json.texts]

@[simp]
theorem encodable_list {items : List Json} : (Json.list items).Encodable ↔ ∀ item ∈ items, item.Encodable := by
  unfold Json.Encodable
  rw [Json.texts]
  induction items with
  | nil => simp [itemTexts]
  | cons item items ih => simp only [itemTexts, List.forall_mem_append, List.forall_mem_cons, ih]

@[simp]
theorem encodable_obj {fields : List (String × Json)} : (Json.obj fields).Encodable ↔
    ∀ entry ∈ fields, Texts.encodes entry.1 = true ∧ entry.2.Encodable := by
  unfold Json.Encodable
  rw [Json.texts]
  induction fields with
  | nil => simp [fieldTexts]
  | cons entry fields ih =>
    obtain ⟨key, value⟩ := entry
    simp only [fieldTexts, List.forall_mem_cons, List.forall_mem_append, ih, and_assoc]

/-- All texts can be encoded. -/
@[reducible] def Texts.all : Texts := ⟨fun _ => true, fun _ _ => rfl⟩

omit [Texts] in
theorem encodable_all (value : Json) : @Json.Encodable Texts.all value := fun _ _ => rfl

/-- It stands for the text of a lone surrogate. -/
def surrogate : String := "\uFFFD"

/-- All other texts can be encoded. -/
@[reducible] def Texts.lone : Texts where
  encodes text := text ≠ surrogate
  plain := by
    intro text near
    refine decide_eq_true ?_
    rintro rfl
    exact absurd (near '\uFFFD' (List.mem_singleton_self _)) (by decide)

/-- Where one text only cannot be encoded, a value without it can. -/
theorem encodable_of_absent {bad : String} (others : ∀ text, text ≠ bad → Texts.encodes text = true) {value : Json}
    (absent : bad ∉ value.texts) : value.Encodable := by
  intro text member
  refine others text ?_
  rintro rfl
  exact absent member

end CanonicalJson
