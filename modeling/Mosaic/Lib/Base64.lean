import Mathlib.Tactic.IntervalCases

namespace Base64

/-- The character of a value below sixty-four. -/
def digit (n : Nat) : Char :=
  if n < 26 then Char.ofNat (65 + n)
  else if n < 52 then Char.ofNat (71 + n)
  else if n < 62 then Char.ofNat (n - 4)
  else if n = 62 then '+'
  else '/'

def value (c : Char) : Option Nat :=
  if 'A' ≤ c ∧ c ≤ 'Z' then some (c.toNat - 65)
  else if 'a' ≤ c ∧ c ≤ 'z' then some (c.toNat - 71)
  else if '0' ≤ c ∧ c ≤ '9' then some (c.toNat + 4)
  else if c = '+' then some 62
  else if c = '/' then some 63
  else none

/-- The number that bytes spell, the first one the highest. -/
def joined (bytes : List UInt8) : Nat := bytes.foldl (fun n b => n * 256 + b.toNat) 0

def encode : List UInt8 → List Char
  | [] => []
  | [x] =>
    let n := joined [x]
    [digit (n / 4), digit (n % 4 * 16), '=', '=']
  | [x, y] =>
    let n := joined [x, y]
    [digit (n / 1024), digit (n / 16 % 64), digit (n % 16 * 4), '=']
  | x :: y :: z :: rest =>
    let n := joined [x, y, z]
    digit (n / 262144) :: digit (n / 4096 % 64) :: digit (n / 64 % 64) :: digit (n % 64) :: encode rest

/-- Groups of four characters; only the last one may be padded. The bits of a padded
group that make no whole byte are not looked at. -/
def decode : List Char → Option (List UInt8)
  | [] => some []
  | [a, b, '=', '='] => do
    let a ← value a
    let b ← value b
    return [UInt8.ofNat (a * 4 + b / 16)]
  | [a, b, c, '='] => do
    let a ← value a
    let b ← value b
    let c ← value c
    let n := a * 1024 + b * 16 + c / 4
    return [UInt8.ofNat (n / 256), UInt8.ofNat n]
  | a :: b :: c :: d :: rest => do
    let a ← value a
    let b ← value b
    let c ← value c
    let d ← value d
    let n := a * 262144 + b * 4096 + c * 64 + d
    let later ← decode rest
    return UInt8.ofNat (n / 65536) :: UInt8.ofNat (n / 256) :: UInt8.ofNat n :: later
  | _ => none

theorem value_digit {n : Nat} (small : n < 64) : value (digit n) = some n := by
  interval_cases n <;> rfl

theorem digit_ne_pad {n : Nat} (small : n < 64) : digit n ≠ '=' := by
  intro same
  have read := value_digit small
  rw [same] at read
  cases read

theorem ofNat_eq {n : Nat} {b : UInt8} (same : n % 256 = b.toNat) : UInt8.ofNat n = b := by
  rw [← UInt8.toNat_inj, UInt8.toNat_ofNat', same]

theorem spelled_pair (n : Nat) : n / 1024 * 1024 + n / 16 % 64 * 16 + n % 16 * 4 / 4 = n := by omega

theorem spelled_group (n : Nat) :
    n / 262144 * 262144 + n / 4096 % 64 * 4096 + n / 64 % 64 * 64 + n % 64 = n := by omega

theorem decode_single (x : UInt8) : decode (encode [x]) = some [x] := by
  have bound := x.toNat_lt
  have number : joined [x] = x.toNat := by simp only [joined, List.foldl_cons, List.foldl_nil]; omega
  have first := value_digit (n := x.toNat / 4) (by omega)
  have second := value_digit (n := x.toNat % 4 * 16) (by omega)
  have byte : UInt8.ofNat (x.toNat / 4 * 4 + x.toNat % 4 * 16 / 16) = x := ofNat_eq (by omega)
  simp only [encode, number, decode, first, second, Option.bind_eq_bind, Option.bind_some, byte]
  rfl

theorem decode_pair (x y : UInt8) : decode (encode [x, y]) = some [x, y] := by
  have boundX := x.toNat_lt
  have boundY := y.toNat_lt
  have number : joined [x, y] = x.toNat * 256 + y.toNat := by
    simp only [joined, List.foldl_cons, List.foldl_nil]
    omega
  generalize whole : x.toNat * 256 + y.toNat = n at number
  have small : n < 65536 := by omega
  have first := value_digit (n := n / 1024) (by omega)
  have second := value_digit (n := n / 16 % 64) (by omega)
  have third := value_digit (n := n % 16 * 4) (by omega)
  have unpadded : digit (n % 16 * 4) ≠ '=' := digit_ne_pad (by omega)
  have high : UInt8.ofNat (n / 256) = x := ofNat_eq (by omega)
  have low : UInt8.ofNat n = y := ofNat_eq (by omega)
  rw [encode, number, decode]
  · simp only [first, second, third, Option.bind_eq_bind, Option.bind_some, spelled_pair, high, low]
    rfl
  · exact unpadded

/-- A whole group in front of a text is read by itself. -/
theorem decode_group (x y z : UInt8) (rest : List UInt8) :
    decode (encode (x :: y :: z :: rest)) = (decode (encode rest)).map fun later => x :: y :: z :: later := by
  have boundX := x.toNat_lt
  have boundY := y.toNat_lt
  have boundZ := z.toNat_lt
  have number : joined [x, y, z] = x.toNat * 65536 + y.toNat * 256 + z.toNat := by
    simp only [joined, List.foldl_cons, List.foldl_nil]
    omega
  generalize whole : x.toNat * 65536 + y.toNat * 256 + z.toNat = n at number
  have small : n < 16777216 := by omega
  have first := value_digit (n := n / 262144) (by omega)
  have second := value_digit (n := n / 4096 % 64) (by omega)
  have third := value_digit (n := n / 64 % 64) (by omega)
  have fourth := value_digit (n := n % 64) (by omega)
  have unpadded : digit (n % 64) ≠ '=' := digit_ne_pad (by omega)
  have high : UInt8.ofNat (n / 65536) = x := ofNat_eq (by omega)
  have middle : UInt8.ofNat (n / 256) = y := ofNat_eq (by omega)
  have low : UInt8.ofNat n = z := ofNat_eq (by omega)
  rw [encode, number, decode]
  · simp only [first, second, third, fourth, Option.bind_eq_bind, Option.bind_some, spelled_group, high, middle, low]
    cases decode (encode rest) <;> rfl
  · exact fun _ same => absurd same unpadded
  · exact fun same => absurd same unpadded

theorem decode_encode : (bytes : List UInt8) → decode (encode bytes) = some bytes
  | [] => rfl
  | [x] => decode_single x
  | [x, y] => decode_pair x y
  | x :: y :: z :: rest => by
    rw [decode_group, decode_encode rest]
    rfl

end Base64
