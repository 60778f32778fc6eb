import Mosaic.Lib.CanonicalJson

namespace CanonicalJson

/-- `\uXXXX`, with lower-case digits. -/
def hexEscape (n : Nat) : List Char :=
  ['\\', 'u', (n / 4096).digitChar, (n / 256 % 16).digitChar, (n / 16 % 16).digitChar, (n % 16).digitChar]

/-- A character as `ensure_ascii=True` writes it. Those above the first plane
become a pair of surrogates. -/
def asciiChar (c : Char) : List Char :=
  if c.toNat < 127 then [c]
  else if c.toNat < 65536 then hexEscape c.toNat
  else hexEscape (55296 + (c.toNat - 65536) / 1024) ++ hexEscape (56320 + (c.toNat - 65536) % 1024)

/-- `json.dumps(value, sort_keys=True, separators=(",", ":"))`. -/
def dumps (value : Json) : String := String.ofList (value.sortKeys.render.flatMap asciiChar)

/-- One piece of a text in which strings are escaped. -/
inductive Token : List Char → Prop
  | char {c : Char} : c ≠ '\\' → Token [c]
  | short {c : Char} : c ≠ 'u' → c.toNat < 127 → Token ['\\', c]
  | control {n : Nat} : n < 32 → Token (hexEscape n)

def hexValue (c : Char) : Nat := if c.isDigit then c.toNat - 48 else c.toNat - 87

def readHex (a b c d : Char) : Nat := hexValue a * 4096 + hexValue b * 256 + hexValue c * 16 + hexValue d

/-- Reading back the token that was made ASCII at the front of a text. -/
def readToken : List Char → Option (List Char × List Char)
  | '\\' :: 'u' :: a :: b :: c :: d :: rest =>
    let high := readHex a b c d
    if high < 32 then some (['\\', 'u', a, b, c, d], rest)
    else if 55296 ≤ high ∧ high < 56320 then
      match rest with
      | '\\' :: 'u' :: e :: f :: g :: h :: rest =>
        some ([Char.ofNat (65536 + (high - 55296) * 1024 + (readHex e f g h - 56320))], rest)
      | _ => none
    else some ([Char.ofNat high], rest)
  | '\\' :: c :: rest => some (['\\', c], rest)
  | c :: rest => some ([c], rest)
  | [] => none

theorem hexValue_digitChar {n : Nat} (digit : n < 16) : hexValue n.digitChar = n := by
  interval_cases n <;> rfl

theorem readHex_digits {n : Nat} (small : n < 65536) :
    readHex (n / 4096).digitChar (n / 256 % 16).digitChar (n / 16 % 16).digitChar (n % 16).digitChar = n := by
  rw [readHex, hexValue_digitChar (by omega), hexValue_digitChar (by omega), hexValue_digitChar (by omega),
    hexValue_digitChar (by omega)]
  omega

theorem readToken_of_control {n : Nat} (control : n < 32) (rest : List Char) :
    readToken (hexEscape n ++ rest) = some (hexEscape n, rest) := by
  simp only [hexEscape, List.cons_append, List.nil_append, readToken, readHex_digits (show n < 65536 by omega)]
  rw [if_pos control]

/-- A character of the first plane. The surrogates are no characters. -/
theorem readToken_of_plane {n : Nat} (large : 32 ≤ n) (small : n < 65536) (other : ¬ (55296 ≤ n ∧ n < 56320))
    (rest : List Char) : readToken (hexEscape n ++ rest) = some ([Char.ofNat n], rest) := by
  simp only [hexEscape, List.cons_append, List.nil_append, readToken, readHex_digits small]
  rw [if_neg (by omega), if_neg other]

theorem readToken_of_pair {m n : Nat} (high : 55296 ≤ m ∧ m < 56320) (low : n < 65536) (rest : List Char) :
    readToken (hexEscape m ++ (hexEscape n ++ rest)) =
      some ([Char.ofNat (65536 + (m - 55296) * 1024 + (n - 56320))], rest) := by
  simp only [hexEscape, List.cons_append, List.nil_append, readToken, readHex_digits low,
    readHex_digits (show m < 65536 by omega)]
  rw [if_neg (by omega), if_pos high]

theorem readToken_of_short {c : Char} (other : c ≠ 'u') (rest : List Char) :
    readToken ('\\' :: c :: rest) = some (['\\', c], rest) := by
  simp [readToken, other]

theorem readToken_asciiChar {c : Char} (plain : c ≠ '\\') (rest : List Char) :
    readToken (asciiChar c ++ rest) = some ([c], rest) := by
  rw [asciiChar]
  split
  · rw [List.singleton_append]
    unfold readToken
    split <;> simp_all
  · have valid : c.toNat < 55296 ∨ 57343 < c.toNat ∧ c.toNat < 1114112 := c.valid
    split
    · rw [readToken_of_plane (by omega) (by omega) (by omega), Char.ofNat_toNat]
    · rw [List.append_assoc, readToken_of_pair (by omega) (by omega)]
      have sum : 65536 + (55296 + (c.toNat - 65536) / 1024 - 55296) * 1024 +
          (56320 + (c.toNat - 65536) % 1024 - 56320) = c.toNat := by omega
      rw [sum, Char.ofNat_toNat]

theorem Token.read {token : List Char} (piece : Token token) (rest : List Char) :
    readToken (token.flatMap asciiChar ++ rest) = some (token, rest) := by
  cases piece with
  | char plain => rw [List.flatMap_singleton, readToken_asciiChar plain]
  | @short c other small =>
    have texts : ['\\', c].flatMap asciiChar = ['\\', c] := by
      rw [List.flatMap_cons, List.flatMap_singleton, asciiChar, asciiChar, if_pos (by decide), if_pos small]
      rfl
    rw [texts]
    exact readToken_of_short other rest
  | @control n control =>
    have texts : (hexEscape n).flatMap asciiChar = hexEscape n := by
      interval_cases n <;> rfl
    rw [texts, readToken_of_control control]

theorem Token.flatten_inj {tokens tokens' : List (List Char)} (pieces : ∀ token ∈ tokens, Token token)
    (pieces' : ∀ token ∈ tokens', Token token)
    (same : tokens.flatten.flatMap asciiChar = tokens'.flatten.flatMap asciiChar) : tokens = tokens' := by
  induction tokens generalizing tokens' with
  | nil =>
    cases tokens' with
    | nil => rfl
    | cons token' tokens' =>
      have read := congrArg readToken same
      rw [List.flatten_cons, List.flatMap_append, (pieces' token' List.mem_cons_self).read] at read
      cases read
  | cons token tokens ih =>
    have read := congrArg readToken same
    rw [List.flatten_cons, List.flatMap_append, (pieces token List.mem_cons_self).read] at read
    cases tokens' with
    | nil => cases read
    | cons token' tokens' =>
      rw [List.flatten_cons, List.flatMap_append, (pieces' token' List.mem_cons_self).read] at read
      simp only [Option.some.injEq, Prod.mk.injEq] at read
      rw [read.1, ih (fun t member => pieces t (List.mem_cons_of_mem _ member))
        (fun t member => pieces' t (List.mem_cons_of_mem _ member)) read.2]

def Escaped (s : List Char) : Prop := ∃ tokens : List (List Char), (∀ token ∈ tokens, Token token) ∧ tokens.flatten = s

theorem Escaped.ascii_inj {s t : List Char} (left : Escaped s) (right : Escaped t)
    (same : s.flatMap asciiChar = t.flatMap asciiChar) : s = t := by
  obtain ⟨tokens, pieces, rfl⟩ := left
  obtain ⟨tokens', pieces', rfl⟩ := right
  rw [Token.flatten_inj pieces pieces' same]

theorem Token.escaped {token : List Char} (piece : Token token) : Escaped token :=
  ⟨[token], by simpa using piece, by simp⟩

theorem Escaped.append {s t : List Char} (left : Escaped s) (right : Escaped t) : Escaped (s ++ t) := by
  obtain ⟨tokens, pieces, rfl⟩ := left
  obtain ⟨tokens', pieces', rfl⟩ := right
  exact ⟨tokens ++ tokens', List.forall_mem_append.mpr ⟨pieces, pieces'⟩, List.flatten_append⟩

theorem Escaped.nil : Escaped [] := ⟨[], by simp, rfl⟩

theorem Escaped.cons {c : Char} {s : List Char} (plain : c ≠ '\\') (rest : Escaped s) : Escaped (c :: s) :=
  (Token.char plain).escaped.append rest

theorem escaped_of_plain {s : List Char} (plain : ∀ c ∈ s, c ≠ '\\') : Escaped s := by
  induction s with
  | nil => exact Escaped.nil
  | cons c s ih =>
    obtain ⟨here, later⟩ := List.forall_mem_cons.mp plain
    exact Escaped.cons here (ih later)

theorem escaped_of_number {s : List Char} (chars : ∀ c ∈ s, isNumberChar c = true) : Escaped s := by
  refine escaped_of_plain fun c member => ?_
  rintro rfl
  exact absurd (chars _ member) (by decide)

theorem escaped_escapeChar (c : Char) : Escaped (escapeChar c) := by
  have short {d : Char} (other : d ≠ 'u') (small : d.toNat < 127) : Escaped ['\\', d] := (Token.short other small).escaped
  rw [escapeChar]
  split_ifs with quote backslash newline carriage tab formFeed backspace control
  all_goals try exact short (by decide) (by decide)
  · have escape : hexEscape c.toNat = ['\\', 'u', '0', '0', (c.toNat / 16).digitChar, (c.toNat % 16).digitChar] := by
      rw [hexEscape, show c.toNat / 4096 = 0 by omega, show c.toNat / 256 % 16 = 0 by omega,
        show c.toNat / 16 % 16 = c.toNat / 16 by omega]
      rfl
    rw [← escape]
    exact (Token.control control).escaped
  · exact (Token.char backslash).escaped

theorem escaped_escape (s : List Char) : Escaped (escape s) := by
  induction s with
  | nil => exact Escaped.nil
  | cons c s ih => exact (escaped_escapeChar c).append ih

theorem escaped_renderString (s : String) : Escaped (renderString s) :=
  Escaped.cons (by decide) ((escaped_escape _).append (Escaped.cons (by decide) Escaped.nil))

mutual

theorem escaped_render : (v : Json) → Escaped v.render
  | .null => escaped_of_plain (s := ['n', 'u', 'l', 'l']) (by simp)
  | .bool true => escaped_of_plain (s := ['t', 'r', 'u', 'e']) (by simp)
  | .bool false => escaped_of_plain (s := ['f', 'a', 'l', 's', 'e']) (by simp)
  | .int value => escaped_of_number (renderInt_chars value)
  | .float literal => escaped_of_number literal.chars
  | .str value => escaped_renderString value
  | .list items => Escaped.cons (by decide) (escaped_renderItems items)
  | .obj fields => Escaped.cons (by decide) (escaped_renderFields fields)

theorem escaped_renderItems : (items : List Json) → Escaped (renderItems items)
  | [] => (Token.char (by decide)).escaped
  | item :: items => (escaped_render item).append (escaped_renderMoreItems items)

theorem escaped_renderMoreItems : (items : List Json) → Escaped (renderMoreItems items)
  | [] => (Token.char (by decide)).escaped
  | item :: items => Escaped.cons (by decide) ((escaped_render item).append (escaped_renderMoreItems items))

theorem escaped_renderFields : (fields : List (String × Json)) → Escaped (renderFields fields)
  | [] => (Token.char (by decide)).escaped
  | (key, value) :: fields => (escaped_renderString key).append
    (Escaped.cons (by decide) ((escaped_render value).append (escaped_renderMoreFields fields)))

theorem escaped_renderMoreFields : (fields : List (String × Json)) → Escaped (renderMoreFields fields)
  | [] => (Token.char (by decide)).escaped
  | (key, value) :: fields => Escaped.cons (by decide) ((escaped_renderString key).append
    (Escaped.cons (by decide) ((escaped_render value).append (escaped_renderMoreFields fields))))

end

/-- The ASCII text, like the canonical one, determines the value. -/
theorem sortKeys_eq_of_dumps {v w : Json} (same : dumps v = dumps w) : v.sortKeys = w.sortKeys := by
  have texts := (escaped_render _).ascii_inj (escaped_render _) (String.ofList_injective same)
  have nothing : Delimited [] := by simp [Delimited]
  exact (render_append_inj nothing nothing (by rw [texts])).1

end CanonicalJson
