import Mathlib.Data.List.Sort
import Mathlib.Data.String.Basic
import Mathlib.Tactic.IntervalCases

namespace CanonicalJson

/-- The characters that numbers are written with. -/
def isNumberChar (c : Char) : Bool := c.isAlphanum || c = '-' || c = '+' || c = '.'

/-- How a number begins. The capital letters are those of `NaN` and `Infinity`. -/
def startsNumber (c : Char) : Bool := c.isDigit || c = '-' || c = 'N' || c = 'I'

/-- The text of a floating-point number, which is never that of an integer. -/
structure FloatLiteral where
  text : List Char
  chars : ∀ c ∈ text, isNumberChar c = true
  starts : ∃ c cs, text = c :: cs ∧ startsNumber c = true
  marked : ∃ c ∈ text, c.isDigit = false ∧ c ≠ '-'

/-- The JSON values a program can hand to an encoder. An object keeps its
members in the order in which they were written down. -/
inductive Json
  | null
  | bool (value : Bool)
  | int (value : Int)
  | float (literal : FloatLiteral)
  | str (value : String)
  | list (items : List Json)
  | obj (fields : List (String × Json))

mutual

/-- `sort_keys=True`: every object below the value is put in key order. -/
def Json.sortKeys : Json → Json
  | .null => .null
  | .bool value => .bool value
  | .int value => .int value
  | .float literal => .float literal
  | .str value => .str value
  | .list items => .list (sortItems items)
  | .obj fields => .obj (sortFields fields)

def sortItems : List Json → List Json
  | [] => []
  | item :: items => item.sortKeys :: sortItems items

def sortFields : List (String × Json) → List (String × Json)
  | [] => []
  | (key, value) :: fields =>
    (sortFields fields).orderedInsert (fun a b => a.1 ≤ b.1) (key, value.sortKeys)

end

/-- One character inside a string literal, as `ensure_ascii=False` writes it:
only the quote, the backslash and the control characters are escaped. -/
def escapeChar (c : Char) : List Char :=
  if c = '\"' then ['\\', '\"']
  else if c = '\\' then ['\\', '\\']
  else if c = '\n' then ['\\', 'n']
  else if c = '\r' then ['\\', 'r']
  else if c = '\t' then ['\\', 't']
  else if c.toNat = 12 then ['\\', 'f']
  else if c.toNat = 8 then ['\\', 'b']
  else if c.toNat < 32 then ['\\', 'u', '0', '0', (c.toNat / 16).digitChar, (c.toNat % 16).digitChar]
  else [c]

def escape (s : List Char) : List Char := s.flatMap escapeChar

def renderString (s : String) : List Char := '\"' :: (escape s.toList ++ ['\"'])

def renderInt : Int → List Char
  | .ofNat n => Nat.toDigits 10 n
  | .negSucc n => '-' :: Nat.toDigits 10 (n + 1)

mutual

/-- `separators=(",", ":")`: no white space anywhere. -/
def Json.render : Json → List Char
  | .null => ['n', 'u', 'l', 'l']
  | .bool true => ['t', 'r', 'u', 'e']
  | .bool false => ['f', 'a', 'l', 's', 'e']
  | .int value => renderInt value
  | .float literal => literal.text
  | .str value => renderString value
  | .list items => '[' :: renderItems items
  | .obj fields => '{' :: renderFields fields

def renderItems : List Json → List Char
  | [] => [']']
  | item :: items => item.render ++ renderMoreItems items

def renderMoreItems : List Json → List Char
  | [] => [']']
  | item :: items => ',' :: (item.render ++ renderMoreItems items)

def renderFields : List (String × Json) → List Char
  | [] => ['}']
  | (key, value) :: fields => renderString key ++ ':' :: (value.render ++ renderMoreFields fields)

def renderMoreFields : List (String × Json) → List Char
  | [] => ['}']
  | (key, value) :: fields => ',' :: (renderString key ++ ':' :: (value.render ++ renderMoreFields fields))

end

/-- The canonical text of a value, as UTF-8 bytes. -/
def canonicalBytes (value : Json) : List UInt8 :=
  (String.ofList value.sortKeys.render).toByteArray.data.toList

/-- Reading back the character that `escapeChar` wrote at the front of a text.
The closing quote is not such a character. -/
def unescapeChar : List Char → Option (Char × List Char)
  | '\\' :: 'n' :: rest => some ('\n', rest)
  | '\\' :: 'r' :: rest => some ('\r', rest)
  | '\\' :: 't' :: rest => some ('\t', rest)
  | '\\' :: 'f' :: rest => some (Char.ofNat 12, rest)
  | '\\' :: 'b' :: rest => some (Char.ofNat 8, rest)
  | '\\' :: 'u' :: '0' :: '0' :: high :: low :: rest =>
    some (Char.ofNat ((high.toNat - 48) * 16 + if low.isDigit then low.toNat - 48 else low.toNat - 87), rest)
  | '\\' :: c :: rest => some (c, rest)
  | '\"' :: _ => none
  | c :: rest => some (c, rest)
  | [] => none

theorem unescapeChar_escapeChar (c : Char) (rest : List Char) :
    unescapeChar (escapeChar c ++ rest) = some (c, rest) := by
  by_cases control : c.toNat < 32
  · rw [← Char.ofNat_toNat c]
    generalize c.toNat = n at control ⊢
    interval_cases n <;> rfl
  · have other {d : Char} (low : d.toNat < 32) : ¬ c = d := by
      rintro rfl
      exact control low
    have newline : ¬ c = '\n' := other (by decide)
    have carriage : ¬ c = '\r' := other (by decide)
    have tab : ¬ c = '\t' := other (by decide)
    have formFeed : ¬ c.toNat = 12 := by omega
    have backspace : ¬ c.toNat = 8 := by omega
    by_cases quote : c = '\"'
    · subst c; rfl
    by_cases backslash : c = '\\'
    · subst c; rfl
    simp only [escapeChar, quote, backslash, newline, carriage, tab, formFeed, backspace, control, if_false,
      List.singleton_append]
    rw [unescapeChar]
    all_goals simp [quote, backslash]

theorem escape_append_inj {s t rest rest' : List Char}
    (same : escape s ++ '\"' :: rest = escape t ++ '\"' :: rest') : s = t ∧ rest = rest' := by
  induction s generalizing t with
  | nil =>
    cases t with
    | nil => simpa [escape] using same
    | cons d ds =>
      have read := congrArg unescapeChar same
      simp only [escape, List.flatMap_nil, List.nil_append, List.flatMap_cons, List.append_assoc,
        unescapeChar_escapeChar] at read
      cases read
  | cons c cs ih =>
    have read := congrArg unescapeChar same
    cases t with
    | nil =>
      simp only [escape, List.flatMap_nil, List.nil_append, List.flatMap_cons, List.append_assoc,
        unescapeChar_escapeChar] at read
      cases read
    | cons d ds =>
      simp only [escape, List.flatMap_cons, List.append_assoc, unescapeChar_escapeChar,
        Option.some.injEq, Prod.mk.injEq] at read
      obtain ⟨rfl, later⟩ := read
      obtain ⟨rfl, tails⟩ := ih later
      exact ⟨rfl, tails⟩

theorem renderString_append_inj {s t : String} {rest rest' : List Char}
    (same : renderString s ++ rest = renderString t ++ rest') : s = t ∧ rest = rest' := by
  simp only [renderString, List.cons_append, List.append_assoc, List.cons.injEq, true_and] at same
  obtain ⟨chars, tails⟩ := escape_append_inj same
  exact ⟨String.toList_injective chars, tails⟩

/-- What may follow a number: anything that does not go on with its characters. -/
def Delimited (rest : List Char) : Prop := ∀ c ∈ rest.head?, ¬ isNumberChar c

theorem takeWhile_number {text rest : List Char} (chars : ∀ c ∈ text, isNumberChar c = true)
    (delimited : Delimited rest) : (text ++ rest).takeWhile isNumberChar = text := by
  rw [List.takeWhile_append_of_pos chars]
  cases rest with
  | nil => simp
  | cons c cs =>
    have stop : ¬ isNumberChar c := delimited c rfl
    rw [List.takeWhile_cons_of_neg stop, List.append_nil]

/-- Two numbers that are both delimited have the same text. -/
theorem number_append_inj {text text' rest rest' : List Char} (chars : ∀ c ∈ text, isNumberChar c = true)
    (chars' : ∀ c ∈ text', isNumberChar c = true) (delimited : Delimited rest) (delimited' : Delimited rest')
    (same : text ++ rest = text' ++ rest') : text = text' ∧ rest = rest' := by
  have texts := congrArg (List.takeWhile isNumberChar) same
  rw [takeWhile_number chars delimited, takeWhile_number chars' delimited'] at texts
  subst texts
  exact ⟨rfl, List.append_cancel_left same⟩

theorem isDigit_of_mem_toDigits {n : Nat} {c : Char} (member : c ∈ Nat.toDigits 10 n) : c.isDigit = true :=
  Nat.isDigit_of_mem_toDigits (by decide) (by decide) member

theorem mem_renderInt {i : Int} {c : Char} (member : c ∈ renderInt i) : c.isDigit = true ∨ c = '-' := by
  cases i with
  | ofNat n => exact Or.inl (isDigit_of_mem_toDigits member)
  | negSucc n =>
    rcases List.mem_cons.mp member with minus | digit
    · exact Or.inr minus
    · exact Or.inl (isDigit_of_mem_toDigits digit)

theorem renderInt_chars (i : Int) : ∀ c ∈ renderInt i, isNumberChar c = true := by
  intro c member
  rcases mem_renderInt member with digit | rfl
  · simp [isNumberChar, Char.isAlphanum, digit]
  · decide

theorem toDigits_injective {m n : Nat} (same : Nat.toDigits 10 m = Nat.toDigits 10 n) : m = n := by
  have values := congrArg (fun cs => Nat.ofDigitChars 10 cs 0) same
  simpa only [Nat.ofDigitChars_ten_toDigits] using values

theorem toDigits_ne_minus {n : Nat} {cs : List Char} : Nat.toDigits 10 n ≠ '-' :: cs := by
  intro same
  have digit := @isDigit_of_mem_toDigits n '-' (by simp [same])
  exact absurd digit (by decide)

theorem renderInt_injective {i j : Int} (same : renderInt i = renderInt j) : i = j := by
  match i, j with
  | .ofNat m, .ofNat n => rw [toDigits_injective same]
  | .ofNat m, .negSucc n => exact absurd same toDigits_ne_minus
  | .negSucc m, .ofNat n => exact absurd same.symm toDigits_ne_minus
  | .negSucc m, .negSucc n =>
    have value := toDigits_injective (List.cons.inj same).2
    rw [Nat.succ.inj value]

theorem FloatLiteral.ne_renderInt (literal : FloatLiteral) (i : Int) : literal.text ≠ renderInt i := by
  intro same
  obtain ⟨c, member, other, notMinus⟩ := literal.marked
  rcases mem_renderInt (same ▸ member) with digit | minus
  · rw [other] at digit
    cases digit
  · exact notMinus minus

theorem FloatLiteral.eq_of_text {literal literal' : FloatLiteral} (same : literal.text = literal'.text) :
    literal = literal' := by
  cases literal
  cases literal'
  cases same
  rfl

theorem delimited_cons {c : Char} {rest : List Char} (other : isNumberChar c = false) : Delimited (c :: rest) := by
  intro d member
  cases Option.some.inj member
  simp [other]

theorem delimited_moreItems (items : List Json) (rest : List Char) :
    Delimited (renderMoreItems items ++ rest) := by
  cases items <;> exact delimited_cons (by decide)

theorem delimited_moreFields (fields : List (String × Json)) (rest : List Char) :
    Delimited (renderMoreFields fields ++ rest) := by
  match fields with
  | [] => exact delimited_cons (by decide)
  | (_, _) :: _ => exact delimited_cons (by decide)

/-- The seven ways in which a canonical text can begin. -/
inductive Shape
  | null | yes | no | number | str | list | obj
  deriving DecidableEq

def Json.shape : Json → Shape
  | .null => .null
  | .bool true => .yes
  | .bool false => .no
  | .int _ | .float _ => .number
  | .str _ => .str
  | .list _ => .list
  | .obj _ => .obj

def charShape (c : Char) : Option Shape :=
  if startsNumber c then some .number
  else if c = 'n' then some .null
  else if c = 't' then some .yes
  else if c = 'f' then some .no
  else if c = '\"' then some .str
  else if c = '[' then some .list
  else if c = '{' then some .obj
  else none

theorem renderInt_starts (i : Int) : ∃ c cs, renderInt i = c :: cs ∧ startsNumber c = true := by
  cases i with
  | ofNat n =>
    cases digits : Nat.toDigits 10 n with
    | nil => exact absurd digits Nat.toDigits_ne_nil
    | cons c cs =>
      have digit := @isDigit_of_mem_toDigits n c (by simp [digits])
      exact ⟨c, cs, digits, by simp [startsNumber, digit]⟩
  | negSucc n => exact ⟨'-', Nat.toDigits 10 (n + 1), rfl, by decide⟩

theorem render_head (v : Json) : ∃ c cs, v.render = c :: cs ∧ charShape c = some v.shape := by
  cases v with
  | null => exact ⟨_, _, rfl, by decide⟩
  | bool b => cases b <;> exact ⟨_, _, rfl, by decide⟩
  | int i =>
    obtain ⟨c, cs, text, starts⟩ := renderInt_starts i
    exact ⟨c, cs, text, if_pos starts⟩
  | float literal =>
    obtain ⟨c, cs, text, starts⟩ := literal.starts
    exact ⟨c, cs, text, if_pos starts⟩
  | str s => exact ⟨_, _, rfl, rfl⟩
  | list items => exact ⟨_, _, rfl, rfl⟩
  | obj fields => exact ⟨_, _, rfl, rfl⟩

theorem shape_eq_of_render {v w : Json} {rest rest' : List Char}
    (same : v.render ++ rest = w.render ++ rest') : v.shape = w.shape := by
  obtain ⟨c, cs, atV, shapeV⟩ := render_head v
  obtain ⟨d, ds, atW, shapeW⟩ := render_head w
  rw [atV, atW, List.cons_append, List.cons_append, List.cons.injEq] at same
  rw [same.1, shapeW] at shapeV
  exact (Option.some.inj shapeV).symm

/-- No value starts with the character that closes a list or an object. -/
theorem render_ne_cons {v : Json} {c : Char} {rest rest' : List Char} (closing : charShape c = none) :
    v.render ++ rest ≠ c :: rest' := by
  intro same
  obtain ⟨d, ds, atV, shapeV⟩ := render_head v
  rw [atV, List.cons_append, List.cons.injEq] at same
  rw [same.1, closing] at shapeV
  cases shapeV

mutual

theorem render_append_inj {v w : Json} {rest rest' : List Char}
    (delimited : Delimited rest) (delimited' : Delimited rest')
    (same : v.render ++ rest = w.render ++ rest') : v = w ∧ rest = rest' := by
  have shapes := shape_eq_of_render same
  match v, w with
  | .null, .null => exact ⟨rfl, List.append_cancel_left same⟩
  | .bool true, .bool true => exact ⟨rfl, List.append_cancel_left same⟩
  | .bool false, .bool false => exact ⟨rfl, List.append_cancel_left same⟩
  | .int i, .int j =>
    obtain ⟨texts, tails⟩ := number_append_inj (renderInt_chars i) (renderInt_chars j) delimited delimited' same
    exact ⟨by rw [renderInt_injective texts], tails⟩
  | .float literal, .float literal' =>
    obtain ⟨texts, tails⟩ := number_append_inj literal.chars literal'.chars delimited delimited' same
    exact ⟨by rw [literal.eq_of_text texts], tails⟩
  | .int i, .float literal =>
    obtain ⟨texts, -⟩ := number_append_inj (renderInt_chars i) literal.chars delimited delimited' same
    exact absurd texts.symm (literal.ne_renderInt i)
  | .float literal, .int i =>
    obtain ⟨texts, -⟩ := number_append_inj literal.chars (renderInt_chars i) delimited delimited' same
    exact absurd texts (literal.ne_renderInt i)
  | .str s, .str t =>
    obtain ⟨rfl, tails⟩ := renderString_append_inj same
    exact ⟨rfl, tails⟩
  | .list items, .list items' =>
    obtain ⟨rfl, tails⟩ := renderItems_append_inj (List.cons.inj same).2
    exact ⟨rfl, tails⟩
  | .obj fields, .obj fields' =>
    obtain ⟨rfl, tails⟩ := renderFields_append_inj (List.cons.inj same).2
    exact ⟨rfl, tails⟩

theorem renderItems_append_inj {items items' : List Json} {rest rest' : List Char}
    (same : renderItems items ++ rest = renderItems items' ++ rest') : items = items' ∧ rest = rest' := by
  match items, items' with
  | [], [] => exact ⟨rfl, (List.cons.inj same).2⟩
  | [], w :: ws =>
    rw [renderItems, renderItems, List.append_assoc] at same
    exact absurd same.symm (render_ne_cons (by decide))
  | v :: vs, [] =>
    rw [renderItems, renderItems, List.append_assoc] at same
    exact absurd same (render_ne_cons (by decide))
  | v :: vs, w :: ws =>
    rw [renderItems, renderItems, List.append_assoc, List.append_assoc] at same
    obtain ⟨rfl, later⟩ := render_append_inj (delimited_moreItems vs rest) (delimited_moreItems ws rest') same
    obtain ⟨rfl, tails⟩ := renderMoreItems_append_inj later
    exact ⟨rfl, tails⟩

theorem renderMoreItems_append_inj {items items' : List Json} {rest rest' : List Char}
    (same : renderMoreItems items ++ rest = renderMoreItems items' ++ rest') :
    items = items' ∧ rest = rest' := by
  match items, items' with
  | [], [] => exact ⟨rfl, (List.cons.inj same).2⟩
  | [], w :: ws => exact absurd (List.cons.inj same).1 (by decide)
  | v :: vs, [] => exact absurd (List.cons.inj same).1 (by decide)
  | v :: vs, w :: ws =>
    simp only [renderMoreItems, List.cons_append, List.append_assoc, List.cons.injEq, true_and] at same
    obtain ⟨rfl, later⟩ := render_append_inj (delimited_moreItems vs rest) (delimited_moreItems ws rest') same
    obtain ⟨rfl, tails⟩ := renderMoreItems_append_inj later
    exact ⟨rfl, tails⟩

theorem renderFields_append_inj {fields fields' : List (String × Json)} {rest rest' : List Char}
    (same : renderFields fields ++ rest = renderFields fields' ++ rest') : fields = fields' ∧ rest = rest' := by
  match fields, fields' with
  | [], [] => exact ⟨rfl, (List.cons.inj same).2⟩
  | [], (l, w) :: gs => exact absurd (List.cons.inj same).1 (by decide)
  | (k, v) :: fs, [] => exact absurd (List.cons.inj same).1 (by decide)
  | (k, v) :: fs, (l, w) :: gs =>
    simp only [renderFields, List.cons_append, List.append_assoc] at same
    obtain ⟨rfl, values⟩ := renderString_append_inj same
    obtain ⟨rfl, later⟩ := render_append_inj (delimited_moreFields fs rest) (delimited_moreFields gs rest')
      (List.cons.inj values).2
    obtain ⟨rfl, tails⟩ := renderMoreFields_append_inj later
    exact ⟨rfl, tails⟩

theorem renderMoreFields_append_inj {fields fields' : List (String × Json)} {rest rest' : List Char}
    (same : renderMoreFields fields ++ rest = renderMoreFields fields' ++ rest') :
    fields = fields' ∧ rest = rest' := by
  match fields, fields' with
  | [], [] => exact ⟨rfl, (List.cons.inj same).2⟩
  | [], (l, w) :: gs => exact absurd (List.cons.inj same).1 (by decide)
  | (k, v) :: fs, [] => exact absurd (List.cons.inj same).1 (by decide)
  | (k, v) :: fs, (l, w) :: gs =>
    simp only [renderMoreFields, List.cons_append, List.append_assoc, List.cons.injEq, true_and] at same
    obtain ⟨rfl, values⟩ := renderString_append_inj same
    obtain ⟨rfl, later⟩ := render_append_inj (delimited_moreFields fs rest) (delimited_moreFields gs rest')
      (List.cons.inj values).2
    obtain ⟨rfl, tails⟩ := renderMoreFields_append_inj later
    exact ⟨rfl, tails⟩

end

/-- Two values have the same canonical bytes only when they are equal up to
the order in which the members of their objects were written. -/
theorem sortKeys_eq_of_canonicalBytes {v w : Json} (same : canonicalBytes v = canonicalBytes w) :
    v.sortKeys = w.sortKeys := by
  have texts : String.ofList v.sortKeys.render = String.ofList w.sortKeys.render :=
    String.toByteArray_inj.mp (ByteArray.ext (Array.toList_inj.mp same))
  have chars := String.ofList_injective texts
  have nothing : Delimited [] := by simp [Delimited]
  exact (render_append_inj nothing nothing (by rw [chars])).1

theorem canonicalBytes_ne_nil (v : Json) : canonicalBytes v ≠ [] := by
  intro none
  have nothing : (String.ofList v.sortKeys.render).toByteArray = "".toByteArray :=
    ByteArray.ext (Array.toList_inj.mp none)
  have text := String.ofList_injective (String.toByteArray_inj.mp nothing : String.ofList _ = String.ofList [])
  obtain ⟨c, cs, starts, -⟩ := render_head v.sortKeys
  rw [starts] at text
  cases text

theorem lookup_orderedInsert (key k : String) (value : Json) (fields : List (String × Json)) :
    (fields.orderedInsert (fun a b => a.1 ≤ b.1) (k, value)).lookup key =
      ((k, value) :: fields).lookup key := by
  induction fields with
  | nil => rfl
  | cons f fs ih =>
    obtain ⟨l, w⟩ := f
    rw [List.orderedInsert_cons]
    split
    · rfl
    · rename_i after
      have different : k ≠ l := by
        rintro rfl
        exact after le_rfl
      rw [List.lookup_cons, ih, List.lookup_cons, List.lookup_cons, List.lookup_cons]
      by_cases here : key = l
      · subst here
        have other : (key == k) = false := beq_eq_false_iff_ne.mpr different.symm
        simp only [beq_self_eq_true, other]
      · have other : (key == l) = false := beq_eq_false_iff_ne.mpr here
        simp only [other]

theorem lookup_sortFields (key : String) (fields : List (String × Json)) :
    (sortFields fields).lookup key = (fields.lookup key).map Json.sortKeys := by
  induction fields with
  | nil => rfl
  | cons f fs ih =>
    obtain ⟨k, v⟩ := f
    rw [sortFields, lookup_orderedInsert, List.lookup_cons, List.lookup_cons, ih]
    split <;> rfl

/-- Objects with the same canonical bytes agree on every member. -/
theorem lookup_eq_of_sortKeys {fields fields' : List (String × Json)}
    (same : (Json.obj fields).sortKeys = (Json.obj fields').sortKeys) (key : String) :
    (fields.lookup key).map Json.sortKeys = (fields'.lookup key).map Json.sortKeys := by
  rw [Json.sortKeys, Json.sortKeys, Json.obj.injEq] at same
  rw [← lookup_sortFields, ← lookup_sortFields, same]

theorem lookup_eq_of_canonicalBytes {fields fields' : List (String × Json)}
    (same : canonicalBytes (.obj fields) = canonicalBytes (.obj fields')) (key : String) :
    (fields.lookup key).map Json.sortKeys = (fields'.lookup key).map Json.sortKeys :=
  lookup_eq_of_sortKeys (sortKeys_eq_of_canonicalBytes same) key

theorem sortItems_eq_map (items : List Json) : sortItems items = items.map Json.sortKeys := by
  induction items with
  | nil => rfl
  | cons item items ih => rw [sortItems, ih, List.map_cons]

/-- A list is determined by its text where its items are. -/
theorem items_eq_of_sortKeys {α : Type*} {encode : α → Json} (determined : Function.Injective fun a => (encode a).sortKeys)
    {items items' : List α}
    (same : (Json.list (items.map encode)).sortKeys = (Json.list (items'.map encode)).sortKeys) : items = items' := by
  rw [Json.sortKeys, Json.sortKeys, sortItems_eq_map, sortItems_eq_map, Json.list.injEq, List.map_map, List.map_map] at same
  exact List.map_injective_iff.mpr determined same

theorem sortFields_eq (fields : List (String × Json)) : sortFields fields =
    (fields.map fun entry => (entry.1, entry.2.sortKeys)).insertionSort (fun a b => a.1 ≤ b.1) := by
  induction fields with
  | nil => rfl
  | cons entry fields ih =>
    obtain ⟨key, value⟩ := entry
    simp only [sortFields, ih, List.map_cons, List.insertionSort_cons]

/-- Objects with the same members are sorted to one value, however the members
were written down. -/
theorem sortFields_eq_of_perm {fields fields' : List (String × Json)} (perm : fields.Perm fields')
    (distinct : (fields.map Prod.fst).Nodup) : sortFields fields = sortFields fields' := by
  have total : Std.Total fun a b : String × Json => a.1 ≤ b.1 := ⟨fun a b => le_total a.1 b.1⟩
  have trans : IsTrans (String × Json) fun a b => a.1 ≤ b.1 := ⟨fun _ _ _ => le_trans⟩
  rw [sortFields_eq, sortFields_eq]
  have keys : ((fields.map fun entry => (entry.1, entry.2.sortKeys)).map Prod.fst).Nodup := by
    simpa only [List.map_map, Function.comp_def] using distinct
  have sorted : ((fields.map fun entry => (entry.1, entry.2.sortKeys)).insertionSort (fun a b => a.1 ≤ b.1)).Perm
      ((fields'.map fun entry => (entry.1, entry.2.sortKeys)).insertionSort (fun a b => a.1 ≤ b.1)) :=
    (List.perm_insertionSort _ _).trans ((perm.map _).trans (List.perm_insertionSort _ _).symm)
  refine List.Perm.eq_of_pairwise ?_ (List.pairwise_insertionSort _ _) (List.pairwise_insertionSort _ _) sorted
  intro a b inFields inFields' below above
  have there := (List.perm_insertionSort _ _).mem_iff.mp inFields
  have there' := (List.perm_insertionSort _ _).mem_iff.mp (sorted.mem_iff.mpr inFields')
  exact List.inj_on_of_nodup_map keys there there' (le_antisymm below above)

end CanonicalJson
