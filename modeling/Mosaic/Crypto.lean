import Mosaic.Lib.CanonicalJson

namespace Mosaic
open CanonicalJson

abbrev Bytes := List UInt8

/-- The primitives that `crypto.py` takes from `hashlib` and from its Ed25519
library. Everything above them is modelled as the code computes it. -/
class Crypto where
  sha256 : Bytes → String
  PrivateKey : Type
  publicKey : PrivateKey → Bytes
  sign : PrivateKey → Bytes → Bytes
  verify : Bytes → Bytes → Bytes → Bool

/-- `bytes.hex()`. -/
def hex (value : Bytes) : String :=
  String.ofList (value.flatMap fun b => [(b.toNat / 16).digitChar, (b.toNat % 16).digitChar])

section Primitives
variable [Crypto]

def digest (value : Json) : String := Crypto.sha256 (canonicalBytes value)

def identityFromPublicKey (publicKey : Bytes) : String :=
  String.ofList ((Crypto.sha256 publicKey).toList.take 32)

structure KeyPair where
  privateKey : Crypto.PrivateKey

def KeyPair.publicKey (pair : KeyPair) : Bytes := Crypto.publicKey pair.privateKey

def KeyPair.identity (pair : KeyPair) : String := identityFromPublicKey pair.publicKey

def KeyPair.sign (pair : KeyPair) (message : Bytes) : Bytes := Crypto.sign pair.privateKey message

def KeyPair.verify (publicKey message signature : Bytes) : Bool := Crypto.verify publicKey message signature

/-- No two byte strings have the same SHA-256. -/
def CollisionFree : Prop := Function.Injective Crypto.sha256

/-- A signature made with a key verifies under it. -/
def SignaturesVerify : Prop :=
  ∀ (key : Crypto.PrivateKey) (message : Bytes),
    Crypto.verify (Crypto.publicKey key) message (Crypto.sign key message) = true

/-- A signature does not verify under any key but the one it was made with. -/
def SignaturesOwn : Prop :=
  ∀ (key : Crypto.PrivateKey) (message publicKey : Bytes),
    Crypto.verify publicKey message (Crypto.sign key message) = true → publicKey = Crypto.publicKey key

/-- Under one key a signature verifies for one message. -/
def SignaturesSingle : Prop :=
  ∀ publicKey message message' signature : Bytes, KeyPair.verify publicKey message signature = true →
    KeyPair.verify publicKey message' signature = true → message = message'

theorem canonicalBytes_eq_of_digest (free : CollisionFree) {v w : Json} (same : digest v = digest w) :
    canonicalBytes v = canonicalBytes w := free same

/-- Objects with the same digest agree on every member. -/
theorem lookup_eq_of_digest (free : CollisionFree) {fields fields' : List (String × Json)}
    (same : digest (.obj fields) = digest (.obj fields')) (key : String) :
    (fields.lookup key).map Json.sortKeys = (fields'.lookup key).map Json.sortKeys :=
  lookup_eq_of_canonicalBytes (canonicalBytes_eq_of_digest free same) key

theorem digest_str_inj (free : CollisionFree) {s t : String} (same : digest (.str s) = digest (.str t)) :
    s = t := by
  have sorted := sortKeys_eq_of_canonicalBytes (canonicalBytes_eq_of_digest free same)
  simpa [Json.sortKeys] using sorted

end Primitives

theorem hex_injective : Function.Injective hex := by
  intro a b same
  have chars := String.ofList_injective same
  clear same
  induction a generalizing b with
  | nil => cases b <;> simp_all
  | cons x xs ih =>
    cases b with
    | nil => simp at chars
    | cons y ys =>
      simp only [List.flatMap_cons, List.cons_append, List.nil_append, List.cons.injEq] at chars
      obtain ⟨high, low, later⟩ := chars
      have digits : ∀ m < 16, ∀ n < 16, m.digitChar = n.digitChar → m = n := by decide
      have xBound := x.toNat_lt
      have yBound := y.toNat_lt
      have highSame := digits _ (by omega) _ (by omega) high
      have lowSame := digits _ (by omega) _ (by omega) low
      have byteSame : x = y := UInt8.toNat_inj.mp (by omega)
      rw [byteSame, ih later]

/-- Hashing keeps the whole input and a signature is the key next to the message, so that the
assumptions can be met together. -/
@[reducible] def Crypto.ideal : Crypto where
  sha256 bytes := String.ofList (bytes.map fun b => Char.ofNat b.toNat)
  PrivateKey := Bytes
  publicKey key := key
  sign key message := key ++ message
  verify publicKey message signature := signature == publicKey ++ message

/-- Some key of the ideal instance. -/
def idealKey : @KeyPair Crypto.ideal := @KeyPair.mk Crypto.ideal [1]

theorem ideal_collisionFree : @CollisionFree Crypto.ideal := by
  intro a b same
  have chars := String.ofList_injective same
  refine List.map_injective_iff.mpr ?_ chars
  intro x y charSame
  have xBound := x.toNat_lt
  have yBound := y.toNat_lt
  have valid : ∀ n < 256, (Char.ofNat n).toNat = n := fun n bound => by
    rw [Char.ofNat, dif_pos (Or.inl (by omega))]
    rfl
  have numbers := congrArg Char.toNat charSame
  rw [valid _ (by omega), valid _ (by omega)] at numbers
  exact UInt8.toNat_inj.mp numbers

theorem ideal_signaturesVerify : @SignaturesVerify Crypto.ideal := by
  intro key message
  simp [Crypto.verify, Crypto.publicKey, Crypto.sign]

theorem ideal_signaturesOwn : @SignaturesOwn Crypto.ideal := by
  intro (key : Bytes) message publicKey verified
  have same : key ++ message = publicKey ++ message := by
    simpa [Crypto.verify, Crypto.sign] using verified
  exact (List.append_cancel_right same).symm

theorem ideal_signaturesSingle : @SignaturesSingle Crypto.ideal := by
  intro publicKey message message' signature first second
  have here : signature = publicKey ++ message := by simpa [KeyPair.verify, Crypto.verify] using first
  have there : signature = publicKey ++ message' := by simpa [KeyPair.verify, Crypto.verify] using second
  exact List.append_cancel_left (here.symm.trans there)

theorem ideal_digest_named (value : Json) : @digest Crypto.ideal value ≠ "" := by
  intro empty
  have chars := String.ofList_injective (empty.trans String.ofList_nil.symm)
  exact canonicalBytes_ne_nil value (List.map_eq_nil_iff.mp chars)

end Mosaic
