import Mosaic.Lib.AsciiJson
import Mosaic.Lib.Dict

namespace CanonicalJson

def isNatText : List Char → Bool
  | [] => false
  | ['0'] => true
  | c :: cs => c ≠ '0' && (c :: cs).all Char.isDigit

def isIntText : List Char → Bool
  | '-' :: cs => isNatText cs
  | cs => isNatText cs

def intOf : List Char → Int
  | '-' :: cs => -Int.ofNat (Nat.ofDigitChars 10 cs 0)
  | cs => Int.ofNat (Nat.ofDigitChars 10 cs 0)

def isDigits (cs : List Char) : Bool := cs ≠ [] && cs.all Char.isDigit

def isFraction : List Char → Bool
  | [] => true
  | '.' :: cs => isDigits cs
  | _ => false

/-- What follows from the first `e` on, which is the head of the text. -/
def isExponent : List Char → Bool
  | [] => true
  | _ :: '+' :: cs => isDigits cs
  | _ :: '-' :: cs => isDigits cs
  | _ :: cs => isDigits cs

/-- The grammar of the other numbers. An integer has it too, and is tried first. -/
def isFloatText (text : List Char) : Bool :=
  let mantissa := text.takeWhile fun c => c ≠ 'e' && c ≠ 'E'
  text ∈ ["NaN".toList, "Infinity".toList, "-Infinity".toList] ||
    isIntText (mantissa.takeWhile (· ≠ '.')) && isFraction (mantissa.dropWhile (· ≠ '.')) &&
      isExponent (text.dropWhile fun c => c ≠ 'e' && c ≠ 'E')

/-- The floating-point numbers of the machine: the text that is written for the
number a text stands for. -/
class FloatFormat where
  rounded : List Char → FloatLiteral

section Reading
variable [FloatFormat]

def readWord (text : List Char) : Option Json :=
  if isIntText text then some (.int (intOf text))
  else if isFloatText text then some (.float (FloatFormat.rounded text))
  else if text = "null".toList then some .null
  else if text = "true".toList then some (.bool true)
  else if text = "false".toList then some (.bool false)
  else none

def readHexDigit (c : Char) : Option Nat :=
  if c.isDigit then some (c.toNat - 48)
  else if 'a' ≤ c ∧ c ≤ 'f' then some (c.toNat - 87)
  else if 'A' ≤ c ∧ c ≤ 'F' then some (c.toNat - 55)
  else none

def codeUnit (a b c d : Char) : Option Nat := do
  let a ← readHexDigit a
  let b ← readHexDigit b
  let c ← readHexDigit c
  let d ← readHexDigit d
  return a * 4096 + b * 256 + c * 16 + d

def shortEscape (c : Char) : Option Char :=
  if c = '\"' ∨ c = '\\' ∨ c = '/' then some c
  else if c = 'n' then some '\n'
  else if c = 'r' then some '\r'
  else if c = 't' then some '\t'
  else if c = 'f' then some (Char.ofNat 12)
  else if c = 'b' then some (Char.ofNat 8)
  else none

/-- What a string literal says, without its quotes. A surrogate that has no partner
is refused. `json.loads` keeps it, but there is no such character here. -/
def unescape : List Char → Option (List Char)
  | [] => some []
  | '\\' :: 'u' :: a :: b :: c :: d :: rest =>
    match codeUnit a b c d with
    | none => none
    | some high =>
      if high < 55296 ∨ 57344 ≤ high then (unescape rest).map (Char.ofNat high :: ·)
      else if 56320 ≤ high then none
      else
        match rest with
        | '\\' :: 'u' :: e :: f :: g :: h :: rest =>
          match codeUnit e f g h with
          | none => none
          | some low =>
            if 56320 ≤ low ∧ low < 57344 then
              (unescape rest).map (Char.ofNat (65536 + (high - 55296) * 1024 + (low - 56320)) :: ·)
            else none
        | _ => none
  | '\\' :: c :: rest => (shortEscape c).bind fun d => (unescape rest).map (d :: ·)
  | c :: rest => if c = '\\' ∨ c.toNat < 32 then none else (unescape rest).map (c :: ·)

/-- What has been read of a value that is not complete. -/
inductive Frame
  | item (before : List Json)
  | member (before : List (String × Json)) (key : String)

/-- Where a reader stands, the innermost frame first. A string may be the key after
some members. -/
inductive Reader
  | value (stack : List Frame)
  | firstItem (stack : List Frame)
  | firstKey (stack : List Frame)
  | nextKey (before : List (String × Json)) (stack : List Frame)
  | colon (before : List (String × Json)) (key : String) (stack : List Frame)
  | word (text : List Char) (stack : List Frame)
  | quoted (raw : List Char) (slashed : Bool) (key : Option (List (String × Json))) (stack : List Frame)
  | complete (value : Json) (stack : List Frame)

/-- The white space between the tokens of a text. -/
def isSpace (c : Char) : Bool := c = ' ' || c = '\t' || c = '\n' || c = '\r'

def begin (c : Char) (stack : List Frame) : Option Reader :=
  if c = '\"' then some (.quoted [] false none stack)
  else if c = '[' then some (.firstItem stack)
  else if c = '{' then some (.firstKey stack)
  else if isNumberChar c then some (.word [c] stack)
  else none

def closeQuote (text : String) (key : Option (List (String × Json))) (stack : List Frame) : Reader :=
  match key with
  | some before => .colon before text stack
  | none => .complete (.str text) stack

/-- The character after a value. Of two members with one key the later one counts. -/
def proceed (value : Json) (c : Char) (stack : List Frame) : Option Reader :=
  if isSpace c then some (.complete value stack)
  else
    match stack with
    | .item before :: stack =>
      if c = ',' then some (.value (.item (before ++ [value]) :: stack))
      else if c = ']' then some (.complete (.list (before ++ [value])) stack)
      else none
    | .member before key :: stack =>
      if c = ',' then some (.nextKey (before ++ [(key, value)]) stack)
      else if c = '}' then some (.complete (.obj (Dict.ofList (before ++ [(key, value)])).entries) stack)
      else none
    | _ => none

def feed : Reader → Char → Option Reader
  | .value stack, c => if isSpace c then some (.value stack) else begin c stack
  | .firstItem stack, c =>
    if isSpace c then some (.firstItem stack)
    else if c = ']' then some (.complete (.list []) stack)
    else begin c (.item [] :: stack)
  | .firstKey stack, c =>
    if isSpace c then some (.firstKey stack)
    else if c = '}' then some (.complete (.obj []) stack)
    else if c = '\"' then some (.quoted [] false (some []) stack)
    else none
  | .nextKey before stack, c =>
    if isSpace c then some (.nextKey before stack)
    else if c = '\"' then some (.quoted [] false (some before) stack)
    else none
  | .colon before key stack, c =>
    if isSpace c then some (.colon before key stack)
    else if c = ':' then some (.value (.member before key :: stack))
    else none
  | .word text stack, c =>
    if isNumberChar c then some (.word (text ++ [c]) stack)
    else (readWord text).bind fun value => proceed value c stack
  | .quoted raw true key stack, c => some (.quoted (raw ++ [c]) false key stack)
  | .quoted raw false key stack, c =>
    if c = '\\' then some (.quoted (raw ++ [c]) true key stack)
    else if c = '\"' then (unescape raw).map fun text => closeQuote (String.ofList text) key stack
    else some (.quoted (raw ++ [c]) false key stack)
  | .complete value stack, c => proceed value c stack

def finish : Reader → Option Json
  | .complete value [] => some value
  | .word text [] => readWord text
  | _ => none

/-- `json.loads(text)`. -/
def loads (text : List Char) : Option Json := (text.foldlM feed (.value [])).bind finish

mutual

/-- The floating-point numbers below a value are as the machine writes them, and
its objects have distinct keys. -/
def Json.Held : Json → Prop
  | .null => True
  | .bool _ => True
  | .int _ => True
  | .float literal => isFloatText literal.text = true ∧ FloatFormat.rounded literal.text = literal
  | .str _ => True
  | .list items => HeldItems items
  | .obj fields => (fields.map Prod.fst).Nodup ∧ HeldFields fields

def HeldItems : List Json → Prop
  | [] => True
  | item :: items => item.Held ∧ HeldItems items

def HeldFields : List (String × Json) → Prop
  | [] => True
  | (_, value) :: fields => value.Held ∧ HeldFields fields

end

theorem heldFields_iff {fields : List (String × Json)} : HeldFields fields ↔ ∀ entry ∈ fields, entry.2.Held := by
  induction fields with
  | nil => simp [HeldFields]
  | cons entry fields ih =>
    obtain ⟨key, value⟩ := entry
    rw [HeldFields, ih, List.forall_mem_cons]

theorem loads_spaces {spaces : List Char} (blank : ∀ c ∈ spaces, isSpace c = true) (text : List Char) :
    loads (spaces ++ text) = loads text := by
  induction spaces with
  | nil => rfl
  | cons c spaces ih =>
    obtain ⟨here, later⟩ := List.forall_mem_cons.mp blank
    rw [← ih later, loads, loads, List.cons_append, List.foldlM_cons, feed, if_pos here]
    rfl

/-- White space of another kind does not belong before a value. -/
theorem loads_of_begin {c : Char} (space : isSpace c = false) (none' : begin c [] = none) (text : List Char) :
    loads (c :: text) = none := by
  rw [loads, List.foldlM_cons, feed, space, if_neg Bool.false_ne_true, none']
  rfl

theorem readWord_ne_obj (text : List Char) (fields : List (String × Json)) : readWord text ≠ some (.obj fields) := by
  rw [readWord]
  split_ifs <;> exact fun same => by cases same

/-- No more data after an object. -/
theorem loads_append_of_obj {text : List Char} {fields : List (String × Json)} (object : loads text = some (.obj fields))
    {c : Char} (more : isSpace c = false) (rest : List Char) : loads (text ++ c :: rest) = none := by
  obtain ⟨r, ran, ends⟩ := Option.bind_eq_some_iff.mp object
  have whole : r = .complete (.obj fields) [] := by
    unfold finish at ends
    split at ends
    · cases ends
      rfl
    · exact absurd ends (readWord_ne_obj _ _)
    · cases ends
  have stuck : feed (.complete (.obj fields) []) c = none := by
    change proceed (.obj fields) c [] = none
    unfold proceed
    rw [more, if_neg Bool.false_ne_true]
  rw [loads, List.foldlM_append, ran, whole]
  change ((feed (.complete (.obj fields) []) c).bind fun r => rest.foldlM feed r).bind finish = none
  rw [stuck]
  rfl

end Reading

end CanonicalJson
