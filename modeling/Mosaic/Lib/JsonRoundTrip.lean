import Mosaic.Lib.JsonParser

namespace CanonicalJson

theorem toDigits_ne_zero_cons {n : Nat} (positive : 0 < n) (rest : List Char) : Nat.toDigits 10 n ≠ '0' :: rest := by
  induction n using Nat.strong_induction_on generalizing rest with
  | _ n ih =>
    intro leading
    rw [Nat.toDigits_eq_if (by decide)] at leading
    split at leading
    · rename_i small
      have zero := (List.cons.inj leading).1
      interval_cases n <;> cases zero
    · cases digits : Nat.toDigits 10 (n / 10) with
      | nil => exact Nat.toDigits_ne_nil digits
      | cons c cs =>
        rw [digits, List.cons_append] at leading
        rw [(List.cons.inj leading).1] at digits
        exact ih (n / 10) (by omega) (by omega) cs digits

theorem isNatText_toDigits (n : Nat) : isNatText (Nat.toDigits 10 n) = true := by
  rcases Nat.eq_zero_or_pos n with rfl | positive
  · rfl
  · unfold isNatText
    split
    · rename_i none
      exact absurd none Nat.toDigits_ne_nil
    · rfl
    · rename_i c cs _ text
      have first : c ≠ '0' := by
        rintro rfl
        exact toDigits_ne_zero_cons positive cs text
      have digits : ∀ d ∈ c :: cs, d.isDigit = true := fun d member => isDigit_of_mem_toDigits (text ▸ member)
      simpa only [first, ne_eq, not_false_eq_true, decide_true, Bool.true_and, List.all_eq_true] using digits

theorem isIntText_of_no_minus {cs : List Char} (unsigned : ∀ rest, cs ≠ '-' :: rest) :
    isIntText cs = isNatText cs ∧ intOf cs = Int.ofNat (Nat.ofDigitChars 10 cs 0) := by
  unfold isIntText intOf
  split
  · exact absurd rfl (unsigned _)
  · exact ⟨rfl, rfl⟩

theorem isIntText_renderInt (i : Int) : isIntText (renderInt i) = true := by
  cases i with
  | ofNat n =>
    rw [renderInt, (isIntText_of_no_minus fun _ => toDigits_ne_minus).1, isNatText_toDigits]
  | negSucc n => exact isNatText_toDigits (n + 1)

theorem intOf_renderInt (i : Int) : intOf (renderInt i) = i := by
  cases i with
  | ofNat n =>
    rw [renderInt, (isIntText_of_no_minus fun _ => toDigits_ne_minus).2, Nat.ofDigitChars_ten_toDigits]
  | negSucc n =>
    change -Int.ofNat (Nat.ofDigitChars 10 (Nat.toDigits 10 (n + 1)) 0) = _
    rw [Nat.ofDigitChars_ten_toDigits]
    rfl

theorem digits_of_isNatText {cs : List Char} (text : isNatText cs = true) : ∀ c ∈ cs, c.isDigit = true := by
  unfold isNatText at text
  split at text
  · cases text
  · simp
  · exact List.all_eq_true.mp (Bool.and_eq_true_iff.mp text).2

theorem ne_of_number {c d : Char} (number : isNumberChar c = true) (plain : isNumberChar d = false) : c ≠ d := by
  rintro rfl
  rw [plain] at number
  cases number

theorem not_isSpace_number {c : Char} (number : isNumberChar c = true) : isSpace c = false := by
  have other {d : Char} (plain : isNumberChar d = false) : decide (c = d) = false :=
    decide_eq_false (ne_of_number number plain)
  rw [isSpace, other (by decide), other (by decide), other (by decide), other (by decide)]
  rfl

theorem isIntText_of_float (literal : FloatLiteral) : isIntText literal.text = false := by
  obtain ⟨c, member, other, notMinus⟩ := literal.marked
  rw [← Bool.not_eq_true]
  intro text
  unfold isIntText at text
  have digit : c.isDigit = true := by
    split at text
    · rename_i cs same
      rw [same] at member
      exact digits_of_isNatText text c ((List.mem_cons.mp member).resolve_left notMinus)
    · exact digits_of_isNatText text c member
  rw [other] at digit
  cases digit

section Words
variable [FloatFormat]

theorem readWord_int (i : Int) : readWord (renderInt i) = some (.int i) := by
  rw [readWord, if_pos (isIntText_renderInt i), intOf_renderInt]

theorem readWord_float {literal : FloatLiteral} (held : (Json.float literal).Held) :
    readWord literal.text = some (.float literal) := by
  rw [Json.Held] at held
  rw [readWord, isIntText_of_float, if_neg Bool.false_ne_true, if_pos held.1, held.2]

end Words

theorem readHexDigit_digitChar {n : Nat} (digit : n < 16) : readHexDigit n.digitChar = some n := by
  interval_cases n <;> rfl

theorem codeUnit_digits {n : Nat} (small : n < 65536) :
    codeUnit (n / 4096).digitChar (n / 256 % 16).digitChar (n / 16 % 16).digitChar (n % 16).digitChar = some n := by
  simp only [codeUnit, readHexDigit_digitChar (show n / 4096 < 16 by omega),
    readHexDigit_digitChar (show n / 256 % 16 < 16 by omega), readHexDigit_digitChar (show n / 16 % 16 < 16 by omega),
    readHexDigit_digitChar (show n % 16 < 16 by omega)]
  exact congrArg some (by omega)

theorem unescape_plane {n : Nat} (small : n < 65536) (other : n < 55296 ∨ 57344 ≤ n) (rest : List Char) :
    unescape (hexEscape n ++ rest) = (unescape rest).map (Char.ofNat n :: ·) := by
  simp only [hexEscape, List.cons_append, List.nil_append, unescape, codeUnit_digits small]
  rw [if_pos other]

theorem unescape_pair {m n : Nat} (high : 55296 ≤ m ∧ m < 56320) (low : 56320 ≤ n ∧ n < 57344) (rest : List Char) :
    unescape (hexEscape m ++ (hexEscape n ++ rest)) =
      (unescape rest).map (Char.ofNat (65536 + (m - 55296) * 1024 + (n - 56320)) :: ·) := by
  simp only [hexEscape, List.cons_append, List.nil_append, unescape, codeUnit_digits (show m < 65536 by omega),
    codeUnit_digits (show n < 65536 by omega)]
  rw [if_neg (by omega), if_neg (by omega), if_pos low]

theorem unescape_char {c : Char} (plain : c ≠ '\\') (printable : 32 ≤ c.toNat) (rest : List Char) :
    unescape (c :: rest) = (unescape rest).map (c :: ·) := by
  rw [unescape]
  · rw [if_neg]
    rintro (slash | control)
    · exact plain slash
    · omega
  · rintro _ _ _ _ _ rfl
    exact fun _ => plain rfl
  · rintro _ _ rfl
    exact fun _ => plain rfl

/-- A character that is not escaped twice. -/
theorem unescape_asciiChar {c : Char} (plain : c ≠ '\\') (printable : 32 ≤ c.toNat) (rest : List Char) :
    unescape (asciiChar c ++ rest) = (unescape rest).map (c :: ·) := by
  have valid : c.toNat < 55296 ∨ 57343 < c.toNat ∧ c.toNat < 1114112 := c.valid
  rw [asciiChar]
  split
  · rw [List.singleton_append, unescape_char plain printable]
  · split
    · rw [unescape_plane (by omega) (by omega), Char.ofNat_toNat]
    · rw [List.append_assoc, unescape_pair (by omega) (by omega)]
      have sum : 65536 + (55296 + (c.toNat - 65536) / 1024 - 55296) * 1024 +
          (56320 + (c.toNat - 65536) % 1024 - 56320) = c.toNat := by omega
      rw [sum, Char.ofNat_toNat]

theorem flatMap_asciiChar {text : List Char} (small : ∀ c ∈ text, c.toNat < 127) : text.flatMap asciiChar = text := by
  induction text with
  | nil => rfl
  | cons c text ih =>
    obtain ⟨here, later⟩ := List.forall_mem_cons.mp small
    rw [List.flatMap_cons, asciiChar, if_pos here, ih later]
    rfl

def Printable (c : Char) : Prop := 32 ≤ c.toNat ∧ c.toNat < 127

theorem printable_number {c : Char} (number : isNumberChar c = true) : Printable c := by
  simp only [isNumberChar, Bool.or_eq_true, decide_eq_true_eq] at number
  rcases number with ((alphanumeric | rfl) | rfl) | rfl
  · have letters : (decide (c.val ≥ 'A'.val ∧ c.val ≤ 'Z'.val) || decide (c.val ≥ 'a'.val) && decide (c.val ≤ 'z'.val) ||
        decide (c.val ≥ '0'.val) && decide (c.val ≤ '9'.val)) = true := alphanumeric
    simp only [Bool.or_eq_true, Bool.and_eq_true, decide_eq_true_eq, UInt32.le_iff_toNat_le] at letters
    have codes : (65 ≤ c.toNat ∧ c.toNat ≤ 90 ∨ 97 ≤ c.toNat ∧ c.toNat ≤ 122) ∨ 48 ≤ c.toNat ∧ c.toNat ≤ 57 := letters
    exact ⟨by omega, by omega⟩
  all_goals exact ⟨by decide, by decide⟩

theorem digitChar_inside {n : Nat} (digit : n < 16) :
    (n.digitChar ≠ '\\' ∧ n.digitChar ≠ '\"') ∧ Printable n.digitChar := by
  unfold Printable
  interval_cases n <;> decide

theorem printable_hexEscape {n : Nat} {c : Char} (small : n < 65536) (member : c ∈ hexEscape n) : Printable c := by
  simp only [hexEscape, List.mem_cons, List.not_mem_nil, or_false] at member
  have digits {m : Nat} (digit : m < 16) := (digitChar_inside digit).2
  rcases member with rfl | rfl | rfl | rfl | rfl | rfl
  · exact ⟨by decide, by decide⟩
  · exact ⟨by decide, by decide⟩
  all_goals exact digits (by omega)

/-- A character in a string literal is a short escape, the escape of a control
character, or itself. -/
theorem escapeChar_cases (c : Char) :
    (∃ d, escapeChar c = ['\\', d] ∧ d ≠ 'u' ∧ Printable d ∧ shortEscape d = some c) ∨
    c.toNat < 32 ∧ escapeChar c = hexEscape c.toNat ∨
    32 ≤ c.toNat ∧ c ≠ '\"' ∧ c ≠ '\\' ∧ escapeChar c = [c] := by
  have code {n : Nat} (same : c.toNat = n) : c = Char.ofNat n := by rw [← same, Char.ofNat_toNat]
  rw [escapeChar]
  split_ifs with quote backslash newline carriage tab formFeed backspace control
  · exact Or.inl ⟨_, rfl, by decide, ⟨by decide, by decide⟩, by rw [quote]; rfl⟩
  · exact Or.inl ⟨_, rfl, by decide, ⟨by decide, by decide⟩, by rw [backslash]; rfl⟩
  · exact Or.inl ⟨_, rfl, by decide, ⟨by decide, by decide⟩, by rw [newline]; rfl⟩
  · exact Or.inl ⟨_, rfl, by decide, ⟨by decide, by decide⟩, by rw [carriage]; rfl⟩
  · exact Or.inl ⟨_, rfl, by decide, ⟨by decide, by decide⟩, by rw [tab]; rfl⟩
  · exact Or.inl ⟨_, rfl, by decide, ⟨by decide, by decide⟩, by rw [code formFeed]; rfl⟩
  · exact Or.inl ⟨_, rfl, by decide, ⟨by decide, by decide⟩, by rw [code backspace]; rfl⟩
  · refine Or.inr (Or.inl ⟨control, ?_⟩)
    rw [hexEscape, show c.toNat / 4096 = 0 by omega, show c.toNat / 256 % 16 = 0 by omega,
      show c.toNat / 16 % 16 = c.toNat / 16 by omega]
    rfl
  · exact Or.inr (Or.inr ⟨by omega, quote, backslash, rfl⟩)

theorem unescape_short {c d : Char} (other : d ≠ 'u') (short : shortEscape d = some c) (rest : List Char) :
    unescape ('\\' :: d :: rest) = (unescape rest).map (c :: ·) := by
  rw [unescape]
  · rw [short, Option.bind_some]
  · rintro _ _ _ _ _ rfl
    exact absurd rfl other

theorem unescape_escapeChar (c : Char) (rest : List Char) :
    unescape ((escapeChar c).flatMap asciiChar ++ rest) = (unescape rest).map (c :: ·) := by
  rcases escapeChar_cases c with ⟨d, same, other, printable, short⟩ | ⟨control, same⟩ | ⟨printable, -, plain, same⟩
  · rw [same, flatMap_asciiChar (by simpa using printable.2)]
    exact unescape_short other short rest
  · rw [same, flatMap_asciiChar fun d member => (printable_hexEscape (by omega) member).2,
      unescape_plane (by omega) (by omega), Char.ofNat_toNat]
  · rw [same, List.flatMap_singleton, unescape_asciiChar plain printable]

theorem unescape_escape (s : List Char) : unescape ((escape s).flatMap asciiChar) = some s := by
  induction s with
  | nil => rfl
  | cons c s ih =>
    rw [escape, List.flatMap_cons, List.flatMap_append, unescape_escapeChar]
    rw [escape] at ih
    rw [ih, Option.map_some]

/-- How a value begins. -/
theorem charShape_begins {c : Char} {shape : Shape} (begins : charShape c = some shape) :
    c.toNat < 127 ∧ isSpace c = false ∧ c ≠ ']' := by
  unfold charShape at begins
  split_ifs at begins with number null yes no quote list obj
  · have numeric : isNumberChar c = true := by
      simp only [startsNumber, Bool.or_eq_true, decide_eq_true_eq] at number
      rcases number with ((digit | rfl) | rfl) | rfl
      · simp [isNumberChar, Char.isAlphanum, digit]
      all_goals decide
    exact ⟨(printable_number numeric).2, not_isSpace_number numeric, ne_of_number numeric (by decide)⟩
  all_goals
    subst c
    decide

section Quoted
variable [FloatFormat]

/-- A piece of a string literal that does not close it. -/
def Quotable (piece : List Char) : Prop :=
  ∀ raw key stack, piece.foldlM feed (.quoted raw false key stack) = some (.quoted (raw ++ piece) false key stack)

theorem Quotable.append {piece piece' : List Char} (left : Quotable piece) (right : Quotable piece') :
    Quotable (piece ++ piece') := by
  intro raw key stack
  rw [List.foldlM_append, left, ← List.append_assoc]
  exact right _ _ _

theorem Quotable.nil : Quotable [] := by
  intro raw key stack
  rw [List.append_nil]
  rfl

theorem quotable_char {c : Char} (plain : c ≠ '\\') (inside : c ≠ '\"') : Quotable [c] := by
  intro raw key stack
  rw [List.foldlM_cons, feed, if_neg plain, if_neg inside]
  rfl

theorem quotable_pair (c : Char) : Quotable ['\\', c] := by
  intro raw key stack
  rw [List.foldlM_cons, feed, if_pos rfl]
  change some (Reader.quoted ((raw ++ ['\\']) ++ [c]) false key stack) = _
  rw [List.append_assoc]
  rfl

theorem quotable_of_chars {piece : List Char} (chars : ∀ c ∈ piece, c ≠ '\\' ∧ c ≠ '\"') : Quotable piece := by
  induction piece with
  | nil => exact .nil
  | cons c piece ih =>
    obtain ⟨here, later⟩ := List.forall_mem_cons.mp chars
    exact (quotable_char here.1 here.2).append (ih later)

theorem quotable_hexEscape {n : Nat} (small : n < 65536) : Quotable (hexEscape n) := by
  refine (quotable_pair 'u').append (quotable_of_chars ?_)
  intro c member
  simp only [List.mem_cons, List.not_mem_nil, or_false] at member
  have digits {m : Nat} (digit : m < 16) := (digitChar_inside digit).1
  rcases member with rfl | rfl | rfl | rfl <;> exact digits (by omega)

theorem quotable_asciiChar {c : Char} (plain : c ≠ '\\') (inside : c ≠ '\"') : Quotable (asciiChar c) := by
  have valid : c.toNat < 55296 ∨ 57343 < c.toNat ∧ c.toNat < 1114112 := c.valid
  rw [asciiChar]
  split
  · exact quotable_char plain inside
  · split
    · exact quotable_hexEscape (by omega)
    · exact (quotable_hexEscape (by omega)).append (quotable_hexEscape (by omega))

theorem quotable_escapeChar (c : Char) : Quotable ((escapeChar c).flatMap asciiChar) := by
  rcases escapeChar_cases c with ⟨d, same, -, printable, -⟩ | ⟨control, same⟩ | ⟨-, inside, plain, same⟩
  · rw [same, flatMap_asciiChar (by simpa using printable.2)]
    exact quotable_pair d
  · rw [same, flatMap_asciiChar fun d member => (printable_hexEscape (by omega) member).2]
    exact quotable_hexEscape (by omega)
  · rw [same, List.flatMap_singleton]
    exact quotable_asciiChar plain inside

theorem quotable_escape (s : List Char) : Quotable ((escape s).flatMap asciiChar) := by
  induction s with
  | nil => exact .nil
  | cons c s ih =>
    rw [escape, List.flatMap_cons, List.flatMap_append]
    exact (quotable_escapeChar c).append ih

/-- The reader has the value before what is on the stack. A number is not closed
before the next character. -/
def Reader.Gives (r : Reader) (value : Json) (stack : List Frame) : Prop :=
  r = .complete value stack ∨ ∃ text, r = .word text stack ∧ readWord text = some value

theorem Reader.Gives.feed {r : Reader} {value : Json} {stack : List Frame} (gives : r.Gives value stack) {c : Char}
    (other : isNumberChar c = false) : feed r c = proceed value c stack := by
  rcases gives with rfl | ⟨text, rfl, read⟩
  · rfl
  · rw [CanonicalJson.feed, other, if_neg Bool.false_ne_true, read, Option.bind_some]

theorem Reader.Gives.finish {r : Reader} {value : Json} (gives : r.Gives value []) : finish r = some value := by
  rcases gives with rfl | ⟨text, rfl, read⟩
  · rfl
  · exact read

theorem begin_number {c : Char} (number : isNumberChar c = true) (stack : List Frame) :
    feed (.value stack) c = some (.word [c] stack) := by
  rw [CanonicalJson.feed, not_isSpace_number number, if_neg Bool.false_ne_true, begin,
    if_neg (ne_of_number number (by decide)), if_neg (ne_of_number number (by decide)),
    if_neg (ne_of_number number (by decide)), if_pos number]

theorem feed_word {text : List Char} (chars : ∀ c ∈ text, isNumberChar c = true) (before : List Char)
    (stack : List Frame) : text.foldlM feed (.word before stack) = some (.word (before ++ text) stack) := by
  induction text generalizing before with
  | nil => simp
  | cons c text ih =>
    obtain ⟨here, later⟩ := List.forall_mem_cons.mp chars
    rw [List.foldlM_cons, CanonicalJson.feed, if_pos here]
    change text.foldlM feed (.word (before ++ [c]) stack) = _
    rw [ih later, List.append_assoc, List.singleton_append]

/-- A word is read as a value. -/
theorem reads_word {text : List Char} {value : Json} (chars : ∀ c ∈ text, isNumberChar c = true) (some' : text ≠ [])
    (read : readWord text = some value) (stack : List Frame) :
    ∃ r, (text.flatMap asciiChar).foldlM feed (.value stack) = some r ∧ r.Gives value stack := by
  have small : ∀ c ∈ text, c.toNat < 127 := fun c member => (printable_number (chars c member)).2
  refine ⟨.word text stack, ?_, Or.inr ⟨text, rfl, read⟩⟩
  rw [flatMap_asciiChar small]
  cases text with
  | nil => exact absurd rfl some'
  | cons c text =>
    obtain ⟨here, later⟩ := List.forall_mem_cons.mp chars
    rw [List.foldlM_cons, begin_number here]
    exact feed_word later [c] stack

theorem feed_ascii_cons {c : Char} (small : c.toNat < 127) (text : List Char) (r : Reader) :
    ((c :: text).flatMap asciiChar).foldlM feed r = (feed r c).bind fun r => (text.flatMap asciiChar).foldlM feed r := by
  rw [List.flatMap_cons, asciiChar, if_pos small]
  rfl

theorem feed_ascii_append (text rest : List Char) (r : Reader) : ((text ++ rest).flatMap asciiChar).foldlM feed r =
    ((text.flatMap asciiChar).foldlM feed r).bind fun r => (rest.flatMap asciiChar).foldlM feed r := by
  rw [List.flatMap_append, List.foldlM_append]
  rfl

/-- A string literal is read from its first quote to its last one. -/
theorem reads_string {r : Reader} {key : Option (List (String × Json))} {stack : List Frame}
    (opens : feed r '\"' = some (.quoted [] false key stack)) (s : String) :
    ((renderString s).flatMap asciiChar).foldlM feed r = some (closeQuote s key stack) := by
  rw [renderString, feed_ascii_cons (by decide), opens, Option.bind_some, feed_ascii_append, quotable_escape,
    Option.bind_some, feed_ascii_cons (by decide), List.nil_append]
  change ((unescape _).map _).bind _ = _
  rw [unescape_escape, Option.map_some, String.ofList_toList]
  rfl

/-- The first item of a list is read like any other value. -/
theorem feed_firstItem (v : Json) (rest : List Char) (stack : List Frame) :
    ((v.render ++ rest).flatMap asciiChar).foldlM feed (.firstItem stack) =
      ((v.render ++ rest).flatMap asciiChar).foldlM feed (.value (.item [] :: stack)) := by
  obtain ⟨c, cs, text, begins⟩ := render_head v
  obtain ⟨small, space, open'⟩ := charShape_begins begins
  rw [text, List.cons_append, feed_ascii_cons small, feed_ascii_cons small, CanonicalJson.feed, CanonicalJson.feed,
    space, if_neg Bool.false_ne_true, if_neg Bool.false_ne_true, if_neg open']

mutual

theorem reads_render : (v : Json) → v.Held → (stack : List Frame) →
    ∃ r, (v.render.flatMap asciiChar).foldlM feed (.value stack) = some r ∧ r.Gives v stack
  | .null, _, stack => @reads_word _ ['n', 'u', 'l', 'l'] _ (List.all_eq_true.mp rfl) (List.cons_ne_nil _ _) rfl stack
  | .bool true, _, stack => @reads_word _ ['t', 'r', 'u', 'e'] _ (List.all_eq_true.mp rfl) (List.cons_ne_nil _ _) rfl stack
  | .bool false, _, stack => @reads_word _ ['f', 'a', 'l', 's', 'e'] _ (List.all_eq_true.mp rfl) (List.cons_ne_nil _ _) rfl stack
  | .int i, _, stack => by
    obtain ⟨c, cs, text, -⟩ := renderInt_starts i
    exact reads_word (renderInt_chars i) (by rw [text]; exact List.cons_ne_nil c cs) (readWord_int i) stack
  | .float literal, held, stack => by
    obtain ⟨c, cs, text, -⟩ := literal.starts
    exact reads_word literal.chars (by rw [text]; exact List.cons_ne_nil c cs) (readWord_float held) stack
  | .str s, _, stack => ⟨.complete (.str s) stack, @reads_string _ _ none stack rfl s, Or.inl rfl⟩
  | .list items, held, stack => by
    rw [Json.Held] at held
    refine ⟨.complete (.list items) stack, ?_, Or.inl rfl⟩
    rw [Json.render, feed_ascii_cons (by decide)]
    exact reads_items items held stack
  | .obj fields, held, stack => by
    rw [Json.Held] at held
    refine ⟨.complete (.obj fields) stack, ?_, Or.inl rfl⟩
    rw [Json.render, feed_ascii_cons (by decide)]
    exact (reads_fields fields held.2 stack).trans (by rw [Dict.entries_ofList held.1])

theorem reads_items : (items : List Json) → HeldItems items → (stack : List Frame) →
    ((renderItems items).flatMap asciiChar).foldlM feed (.firstItem stack) = some (.complete (.list items) stack)
  | [], _, _ => rfl
  | v :: items, held, stack => by
    rw [HeldItems] at held
    obtain ⟨r, read, gives⟩ := reads_render v held.1 (.item [] :: stack)
    rw [renderItems, feed_firstItem, feed_ascii_append, read, Option.bind_some]
    exact reads_moreItems items held.2 gives

theorem reads_moreItems : (items : List Json) → HeldItems items → {r : Reader} → {v : Json} → {before : List Json} →
    {stack : List Frame} → r.Gives v (.item before :: stack) →
    ((renderMoreItems items).flatMap asciiChar).foldlM feed r = some (.complete (.list (before ++ v :: items)) stack)
  | [], _, _, _, _, _, gives => by
    rw [renderMoreItems, feed_ascii_cons (by decide), gives.feed (by decide)]
    rfl
  | w :: items, held, _, v, before, stack, gives => by
    rw [HeldItems] at held
    obtain ⟨r, read, next⟩ := reads_render w held.1 (.item (before ++ [v]) :: stack)
    rw [renderMoreItems, feed_ascii_cons (by decide), gives.feed (by decide)]
    change ((w.render ++ renderMoreItems items).flatMap asciiChar).foldlM feed (.value (.item (before ++ [v]) :: stack)) = _
    rw [feed_ascii_append, read, Option.bind_some, reads_moreItems items held.2 next, List.append_assoc,
      List.singleton_append]

theorem reads_fields : (fields : List (String × Json)) → HeldFields fields → (stack : List Frame) →
    ((renderFields fields).flatMap asciiChar).foldlM feed (.firstKey stack) =
      some (.complete (.obj (Dict.ofList fields).entries) stack)
  | [], _, _ => rfl
  | (key, v) :: fields, held, stack => by
    rw [HeldFields] at held
    obtain ⟨r, read, gives⟩ := reads_render v held.1 (.member [] key :: stack)
    rw [renderFields, feed_ascii_append, reads_string rfl key, Option.bind_some, feed_ascii_cons (by decide)]
    change ((v.render ++ renderMoreFields fields).flatMap asciiChar).foldlM feed (.value (.member [] key :: stack)) = _
    rw [feed_ascii_append, read, Option.bind_some]
    exact reads_moreFields fields held.2 gives

theorem reads_moreFields : (fields : List (String × Json)) → HeldFields fields → {r : Reader} → {v : Json} →
    {before : List (String × Json)} → {key : String} → {stack : List Frame} → r.Gives v (.member before key :: stack) →
    ((renderMoreFields fields).flatMap asciiChar).foldlM feed r =
      some (.complete (.obj (Dict.ofList (before ++ (key, v) :: fields)).entries) stack)
  | [], _, _, _, _, _, _, gives => by
    rw [renderMoreFields, feed_ascii_cons (by decide), gives.feed (by decide)]
    rfl
  | (key', w) :: fields, held, _, v, before, key, stack, gives => by
    rw [HeldFields] at held
    obtain ⟨r, read, next⟩ := reads_render w held.1 (.member (before ++ [(key, v)]) key' :: stack)
    rw [renderMoreFields, feed_ascii_cons (by decide), gives.feed (by decide)]
    change ((renderString key' ++ ':' :: (w.render ++ renderMoreFields fields)).flatMap asciiChar).foldlM feed
      (.nextKey (before ++ [(key, v)]) stack) = _
    rw [feed_ascii_append, reads_string rfl key', Option.bind_some, feed_ascii_cons (by decide)]
    change ((w.render ++ renderMoreFields fields).flatMap asciiChar).foldlM feed
      (.value (.member (before ++ [(key, v)]) key' :: stack)) = _
    rw [feed_ascii_append, read, Option.bind_some, reads_moreFields fields held.2 next, List.append_assoc,
      List.singleton_append]

end

mutual

theorem Json.Held.sortKeys : {v : Json} → v.Held → v.sortKeys.Held
  | .null, held => held
  | .bool _, held => held
  | .int _, held => held
  | .float _, held => held
  | .str _, held => held
  | .list _, held => by
    rw [Json.Held] at held
    rw [Json.sortKeys, Json.Held]
    exact heldItems_sortItems held
  | .obj fields, held => by
    rw [Json.Held] at held
    rw [Json.sortKeys, Json.Held]
    refine ⟨?_, heldFields_sortFields held.2⟩
    rw [sortFields_eq, ((List.perm_insertionSort _ _).map Prod.fst).nodup_iff, List.map_map]
    exact held.1

theorem heldItems_sortItems : {items : List Json} → HeldItems items → HeldItems (sortItems items)
  | [], held => held
  | _ :: _, held => by
    rw [HeldItems] at held
    rw [sortItems, HeldItems]
    exact ⟨held.1.sortKeys, heldItems_sortItems held.2⟩

theorem heldFields_sortFields : {fields : List (String × Json)} → HeldFields fields → HeldFields (sortFields fields)
  | [], held => held
  | (_, _) :: _, held => by
    rw [HeldFields] at held
    rw [sortFields, heldFields_iff]
    intro entry member
    rcases List.mem_orderedInsert _ |>.mp member with rfl | later
    · exact held.1.sortKeys
    · exact heldFields_iff.mp (heldFields_sortFields held.2) entry later

end

/-- `json.loads(json.dumps(value, sort_keys=True))`. -/
theorem loads_dumps {v : Json} (held : v.Held) : loads (dumps v).toList = some v.sortKeys := by
  obtain ⟨r, read, gives⟩ := reads_render v.sortKeys held.sortKeys []
  rw [loads, dumps, String.toList_ofList, read]
  exact gives.finish

end Quoted

theorem printable_asciiChar {c d : Char} (visible : 32 ≤ c.toNat) (member : d ∈ asciiChar c) : Printable d := by
  have valid : c.toNat < 55296 ∨ 57343 < c.toNat ∧ c.toNat < 1114112 := c.valid
  rw [asciiChar] at member
  split at member
  · rename_i small
    cases List.mem_singleton.mp member
    exact ⟨visible, small⟩
  · split at member
    · exact printable_hexEscape (by omega) member
    · rcases List.mem_append.mp member with high | low
      · exact printable_hexEscape (by omega) high
      · exact printable_hexEscape (by omega) low

def Visible (text : List Char) : Prop := ∀ c ∈ text, 32 ≤ c.toNat

theorem Visible.append {s t : List Char} (left : Visible s) (right : Visible t) : Visible (s ++ t) :=
  List.forall_mem_append.mpr ⟨left, right⟩

theorem Visible.cons {c : Char} {s : List Char} (here : 32 ≤ c.toNat) (later : Visible s) : Visible (c :: s) :=
  List.forall_mem_cons.mpr ⟨here, later⟩

theorem visible_single {c : Char} (here : 32 ≤ c.toNat) : Visible [c] := .cons here fun _ member => nomatch member

theorem visible_number {s : List Char} (chars : ∀ c ∈ s, isNumberChar c = true) : Visible s :=
  fun c member => (printable_number (chars c member)).1

theorem visible_escape (s : List Char) : Visible (escape s) := by
  intro d member
  obtain ⟨c, -, inside⟩ := List.mem_flatMap.mp member
  rcases escapeChar_cases c with ⟨e, same, -, printable, -⟩ | ⟨control, same⟩ | ⟨visible, -, -, same⟩
  · rw [same] at inside
    exact Visible.cons (c := '\\') (by decide) (visible_single printable.1) d inside
  · rw [same] at inside
    exact (printable_hexEscape (by omega) inside).1
  · rw [same] at inside
    exact visible_single visible d inside

theorem visible_renderString (s : String) : Visible (renderString s) :=
  .cons (by decide) ((visible_escape _).append (visible_single (by decide)))

mutual

theorem visible_render : (v : Json) → Visible v.render
  | .null => visible_number (List.all_eq_true.mp rfl)
  | .bool true => visible_number (List.all_eq_true.mp rfl)
  | .bool false => visible_number (List.all_eq_true.mp rfl)
  | .int value => visible_number (renderInt_chars value)
  | .float literal => visible_number literal.chars
  | .str value => visible_renderString value
  | .list items => .cons (by decide) (visible_renderItems items)
  | .obj fields => .cons (by decide) (visible_renderFields fields)

theorem visible_renderItems : (items : List Json) → Visible (renderItems items)
  | [] => visible_single (by decide)
  | item :: items => (visible_render item).append (visible_renderMoreItems items)

theorem visible_renderMoreItems : (items : List Json) → Visible (renderMoreItems items)
  | [] => visible_single (by decide)
  | item :: items => .cons (by decide) ((visible_render item).append (visible_renderMoreItems items))

theorem visible_renderFields : (fields : List (String × Json)) → Visible (renderFields fields)
  | [] => visible_single (by decide)
  | (key, value) :: fields => (visible_renderString key).append
    (.cons (by decide) ((visible_render value).append (visible_renderMoreFields fields)))

theorem visible_renderMoreFields : (fields : List (String × Json)) → Visible (renderMoreFields fields)
  | [] => visible_single (by decide)
  | (key, value) :: fields => .cons (by decide) ((visible_renderString key).append
    (.cons (by decide) ((visible_render value).append (visible_renderMoreFields fields))))

end

theorem printable_dumps {v : Json} {c : Char} (member : c ∈ (dumps v).toList) : Printable c := by
  rw [dumps, String.toList_ofList] at member
  obtain ⟨d, inside, member⟩ := List.mem_flatMap.mp member
  exact printable_asciiChar (visible_render v.sortKeys d inside) member

end CanonicalJson
