import Mathlib.Algebra.Field.Defs
import Mathlib.Data.Nat.Bitwise
import Mathlib.Algebra.BigOperators.Group.List.Basic

namespace Mosaic

/-- What `availability.py` raises: its own error and those of the built-in types. -/
inductive AvailabilityFault
  | availabilityError (message : String)
  | overflowError (message : String)
  | indexError (message : String)
  deriving DecidableEq

def gfPoly : Nat := 0x11D

/-- `left <<= 1`, reduced when it leaves the byte. -/
def gfDouble (left : Nat) : Nat :=
  if (left <<< 1) &&& 0x100 ≠ 0 then (left <<< 1) ^^^ gfPoly else left <<< 1

/-- The loop of `_gf_mul`. It halves `right`, so `right` rounds are enough. -/
def gfMulLoop : Nat → Nat → Nat → Nat → Nat
  | 0, _, _, result => result
  | rounds + 1, left, right, result =>
    if right = 0 then result
    else gfMulLoop rounds (gfDouble left) (right >>> 1) (if right &&& 1 ≠ 0 then result ^^^ left else result)

def gfMul (left right : UInt8) : UInt8 :=
  UInt8.ofNat (gfMulLoop right.toNat left.toNat right.toNat 0 &&& 0xFF)

def gfPow (value : UInt8) : Nat → UInt8
  | 0 => 1
  | exponent + 1 => gfMul (gfPow value exponent) value

def gfInv (value : UInt8) : Except AvailabilityFault UInt8 :=
  if value = 0 then .error (.availabilityError "zero has no finite-field inverse")
  else .ok (gfPow value 254)

theorem half_lt {right : Nat} (more : right ≠ 0) : right >>> 1 < right := by
  rw [Nat.shiftRight_one]
  omega

/-- Induction along the rounds of the loop. -/
theorem halving {motive : Nat → Prop} (zero : motive 0)
    (round : ∀ right, right ≠ 0 → motive (right >>> 1) → motive right) (right : Nat) : motive right := by
  induction right using Nat.strong_induction_on with
  | _ right ih =>
    by_cases done : right = 0
    · exact done ▸ zero
    · exact round right done (ih _ (half_lt done))

/-- What the loop adds to its accumulator. -/
def product (right left : Nat) : Nat := gfMulLoop right left right 0

theorem gfMulLoop_eq {rounds right : Nat} (enough : right ≤ rounds) (left result : Nat) :
    gfMulLoop rounds left right result = result ^^^ product right left := by
  induction right using halving generalizing rounds left result with
  | zero => cases rounds <;> simp [gfMulLoop, product]
  | round right more ih =>
    have less := half_lt more
    obtain ⟨before, rfl⟩ := Nat.exists_eq_succ_of_ne_zero more
    obtain ⟨rounds, rfl⟩ : ∃ r, rounds = r + 1 := ⟨rounds - 1, by omega⟩
    rw [product, gfMulLoop, gfMulLoop, if_neg more, if_neg more, ih (by omega), ih (by omega)]
    split <;> simp [Nat.xor_assoc]

@[simp] theorem product_zero (left : Nat) : product 0 left = 0 := rfl

/-- One round of the loop. -/
theorem product_round {right : Nat} (left : Nat) (more : right ≠ 0) :
    product right left = (if right &&& 1 ≠ 0 then left else 0) ^^^ product (right >>> 1) (gfDouble left) := by
  have less := half_lt more
  obtain ⟨before, rfl⟩ := Nat.exists_eq_succ_of_ne_zero more
  rw [product, gfMulLoop, if_neg more, gfMulLoop_eq (by omega)]
  simp only [Nat.zero_xor, Nat.succ_eq_add_one]

theorem gfDouble_xor (a b : Nat) : gfDouble (a ^^^ b) = gfDouble a ^^^ gfDouble b := by
  have bit (n : Nat) : n &&& 0x100 ≠ 0 ↔ n.testBit 8 = true := by
    rw [show 0x100 = 2 ^ 8 from rfl, Nat.and_two_pow]
    cases n.testBit 8 <;> simp
  simp only [gfDouble, bit, Nat.shiftLeft_xor_distrib, Nat.testBit_xor]
  cases (a <<< 1).testBit 8 <;> cases (b <<< 1).testBit 8 <;>
    simp [Nat.xor_comm, Nat.xor_left_comm]

theorem gfDouble_lt {left : Nat} (byte : left < 256) : gfDouble left < 256 := by
  have all : ∀ n < 256, gfDouble n < 256 := by decide +kernel
  exact all left byte

/-- The product is linear in the byte that the loop doubles. -/
theorem product_xor (right a b : Nat) : product right (a ^^^ b) = product right a ^^^ product right b := by
  induction right using halving generalizing a b with
  | zero => simp
  | round right more ih =>
    rw [product_round _ more, product_round a more, product_round b more, gfDouble_xor, ih]
    split
    · ac_rfl
    · simp only [Nat.zero_xor]

theorem product_of_zero (right : Nat) : product right 0 = 0 := by
  have twice := product_xor right 0 0
  rwa [Nat.xor_self, Nat.xor_self] at twice

theorem product_gfDouble (right left : Nat) : product right (gfDouble left) = gfDouble (product right left) := by
  induction right using halving generalizing left with
  | zero => rw [product_zero, product_zero]; rfl
  | round right more ih =>
    rw [product_round _ more, product_round left more, gfDouble_xor, ih]
    split <;> rfl

/-- Multiplying by one byte commutes with multiplying by another. -/
theorem product_left_comm (m n left : Nat) : product m (product n left) = product n (product m left) := by
  induction m using halving generalizing left with
  | zero => rw [product_zero, product_zero, product_of_zero]
  | round m more ih =>
    rw [product_round _ more, product_round left more, product_xor, ← product_gfDouble, ih]
    split
    · rfl
    · rw [product_of_zero]

theorem product_one {right : Nat} (byte : right < 256) : product right 1 = right := by
  have all : ∀ n < 256, product n 1 = n := by decide +kernel
  exact all right byte

theorem product_lt (right : Nat) {left : Nat} (byte : left < 256) : product right left < 256 := by
  induction right using halving generalizing left with
  | zero => simp
  | round right more ih =>
    rw [product_round _ more]
    refine Nat.xor_lt_two_pow (n := 8) ?_ (ih (gfDouble_lt byte))
    split <;> omega

theorem product_comm {m n : Nat} (mByte : m < 256) (nByte : n < 256) : product m n = product n m := by
  calc product m n = product m (product n 1) := by rw [product_one nByte]
    _ = product n (product m 1) := product_left_comm m n 1
    _ = product n m := by rw [product_one mByte]

theorem toNat_gfMul (left right : UInt8) : (gfMul left right).toNat = product right.toNat left.toNat := by
  have small := product_lt right.toNat left.toNat_lt
  rw [gfMul, gfMulLoop_eq (Nat.le_refl _), Nat.zero_xor, show 0xFF = 2 ^ 8 - 1 from rfl,
    Nat.and_two_pow_sub_one_eq_mod, UInt8.toNat_ofNat', Nat.mod_mod, Nat.mod_eq_of_lt small]

/-- A byte as an element of the field. -/
structure GF256 where
  byte : UInt8
  deriving DecidableEq

namespace GF256

instance : Zero GF256 := ⟨⟨0⟩⟩
instance : One GF256 := ⟨⟨1⟩⟩
instance : Add GF256 := ⟨fun a b => ⟨a.byte ^^^ b.byte⟩⟩
instance : Neg GF256 := ⟨id⟩
instance : Mul GF256 := ⟨fun a b => ⟨gfMul a.byte b.byte⟩⟩
instance : Inv GF256 := ⟨fun a => ⟨gfPow a.byte 254⟩⟩

theorem ext_toNat {a b : GF256} (same : a.byte.toNat = b.byte.toNat) : a = b := by
  cases a
  cases b
  exact congrArg mk (UInt8.toNat_inj.mp same)

theorem toNat_add (a b : GF256) : (a + b).byte.toNat = a.byte.toNat ^^^ b.byte.toNat := UInt8.toNat_xor _ _

theorem toNat_mul (a b : GF256) : (a * b).byte.toNat = product b.byte.toNat a.byte.toNat := toNat_gfMul _ _

theorem toNat_lt (a : GF256) : a.byte.toNat < 256 := a.byte.toNat_lt

protected theorem add_comm (a b : GF256) : a + b = b + a :=
  ext_toNat (by rw [toNat_add, toNat_add, Nat.xor_comm])

protected theorem mul_comm (a b : GF256) : a * b = b * a :=
  ext_toNat (by rw [toNat_mul, toNat_mul, product_comm b.toNat_lt a.toNat_lt])

protected theorem add_mul (a b c : GF256) : (a + b) * c = a * c + b * c :=
  ext_toNat (by simp only [toNat_mul, toNat_add, product_xor])

protected theorem one_mul (a : GF256) : 1 * a = a :=
  ext_toNat (by rw [toNat_mul]; exact product_one a.toNat_lt)

protected theorem zero_mul (a : GF256) : 0 * a = 0 :=
  ext_toNat (by rw [toNat_mul]; exact product_of_zero _)

protected theorem mul_assoc (a b c : GF256) : a * b * c = a * (b * c) := by
  rw [GF256.mul_comm a (b * c)]
  refine ext_toNat ?_
  simp only [toNat_mul]
  rw [product_comm b.toNat_lt a.toNat_lt, product_left_comm]

instance : CommRing GF256 where
  add_assoc a b c := ext_toNat (by simp only [toNat_add, Nat.xor_assoc])
  zero_add a := ext_toNat (by rw [toNat_add]; exact Nat.zero_xor _)
  add_zero a := ext_toNat (by rw [toNat_add]; exact Nat.xor_zero _)
  add_comm := GF256.add_comm
  neg_add_cancel a := ext_toNat (by rw [toNat_add]; exact Nat.xor_self _)
  mul_assoc := GF256.mul_assoc
  one_mul := GF256.one_mul
  mul_one a := (GF256.mul_comm a 1).trans (GF256.one_mul a)
  left_distrib a b c := by
    rw [GF256.mul_comm, GF256.add_mul, GF256.mul_comm b, GF256.mul_comm c]
  right_distrib := GF256.add_mul
  zero_mul := GF256.zero_mul
  mul_zero a := (GF256.mul_comm a 0).trans (GF256.zero_mul a)
  mul_comm := GF256.mul_comm
  nsmul := nsmulRec
  zsmul := zsmulRec

@[simp] theorem mk_zero : mk 0 = 0 := rfl

@[simp] theorem mk_xor (a b : UInt8) : mk (a ^^^ b) = mk a + mk b := rfl

@[simp] theorem mk_gfMul (a b : UInt8) : mk (gfMul a b) = mk a * mk b := rfl

@[simp] theorem mk_gfPow (value : UInt8) (exponent : Nat) : mk (gfPow value exponent) = mk value ^ exponent := by
  induction exponent with
  | zero => exact (pow_zero _).symm
  | succ exponent ih => rw [gfPow, mk_gfMul, ih, pow_succ]

theorem mk_eq_zero {value : UInt8} : mk value = 0 ↔ value = 0 := by
  constructor
  · intro same
    exact congrArg byte same
  · rintro rfl
    rfl

def powerOfTwo : Nat → Nat
  | 0 => 1
  | exponent + 1 => gfDouble (powerOfTwo exponent)

theorem toNat_two_pow (exponent : Nat) : ((mk 2) ^ exponent).byte.toNat = powerOfTwo exponent := by
  induction exponent with
  | zero => rfl
  | succ exponent ih =>
    have double (left : Nat) : product 2 left = gfDouble left := by
      rw [product_round left (by decide)]
      exact (Nat.zero_xor _).trans (Nat.zero_xor _)
    rw [pow_succ, toNat_mul, ih, powerOfTwo]
    exact double _

/-- The set of the first powers, as a bit mask. -/
def powersOfTwo : Nat → Nat
  | 0 => 0
  | count + 1 => powersOfTwo count ||| 2 ^ powerOfTwo count

theorem testBit_powersOfTwo (count : Nat) {value : Nat} (member : (powersOfTwo count).testBit value = true) :
    ∃ exponent, powerOfTwo exponent = value := by
  induction count with
  | zero => simp [powersOfTwo] at member
  | succ count ih =>
    rw [powersOfTwo, Nat.testBit_or, Nat.testBit_two_pow, Bool.or_eq_true, decide_eq_true_eq] at member
    rcases member with earlier | last
    · exact ih earlier
    · exact ⟨count, last⟩

theorem exists_two_pow {a : GF256} (nonzero : a ≠ 0) : ∃ exponent, mk 2 ^ exponent = a := by
  have all : powersOfTwo 255 = 2 ^ 256 - (1 + 1) := by decide +kernel
  have positive : a.byte.toNat ≠ 0 := fun zero => nonzero (ext_toNat zero)
  have notOne : Nat.testBit 1 a.byte.toNat = false := by
    rw [← Nat.pow_zero 2, Nat.testBit_two_pow, decide_eq_false_iff_not]
    exact positive.symm
  obtain ⟨exponent, power⟩ : ∃ exponent, powerOfTwo exponent = a.byte.toNat := by
    refine testBit_powersOfTwo 255 ?_
    rw [all, Nat.testBit_two_pow_sub_succ (by decide), notOne, decide_eq_true a.toNat_lt]
    rfl
  exact ⟨exponent, ext_toNat ((toNat_two_pow exponent).trans power)⟩

theorem pow_255 {a : GF256} (nonzero : a ≠ 0) : a ^ 255 = 1 := by
  have order : (mk 2) ^ 255 = 1 := ext_toNat ((toNat_two_pow 255).trans (by decide +kernel))
  obtain ⟨exponent, rfl⟩ := exists_two_pow nonzero
  rw [← pow_mul, mul_comm, pow_mul, order, one_pow]

protected theorem mul_inv_cancel {a : GF256} (nonzero : a ≠ 0) : a * a⁻¹ = 1 := by
  calc a * a⁻¹ = a * a ^ 254 := congrArg (a * ·) (mk_gfPow a.byte 254)
    _ = a ^ 255 := (pow_succ' a 254).symm
    _ = 1 := pow_255 nonzero

instance : Field GF256 where
  inv := (·⁻¹)
  exists_pair_ne := ⟨0, 1, by decide⟩
  mul_inv_cancel _ nonzero := GF256.mul_inv_cancel nonzero
  inv_zero := by decide +kernel
  nnqsmul := _
  qsmul := _

/-- `_gf_inv` raises for zero and inverts everything else. -/
theorem gfInv_eq {value : UInt8} (nonzero : value ≠ 0) : gfInv value = .ok (mk value)⁻¹.byte := if_neg nonzero

end GF256

end Mosaic
