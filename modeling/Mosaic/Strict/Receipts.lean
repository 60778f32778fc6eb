import Mosaic.Strict.Operations
import Mosaic.ReceiptCounting

namespace Mosaic.Strict
open CanonicalJson Effects Instance MosaicProtocol

section Written
variable [Crypto] [Texts]

/-- SHA-256 digests are written in hexadecimal digits, which UTF-8 can encode. -/
def DigestsEncode : Prop := ∀ bytes, Texts.encodes (Crypto.sha256 bytes) = true

omit [Crypto] in
theorem ideal_digestsEncode : @DigestsEncode Crypto.ideal _ := by
  intro bytes
  refine Texts.plain _ fun c member => ?_
  have inside : c ∈ bytes.map fun b => Char.ofNat b.toNat := by
    rwa [show (@Crypto.sha256 Crypto.ideal bytes).toList = _ from String.toList_ofList] at member
  obtain ⟨b, -, rfl⟩ := List.mem_map.mp inside
  have bound := b.toNat_lt
  rw [Char.ofNat, dif_pos (Or.inl (by omega))]
  exact lt_of_lt_of_le bound (by decide)

omit [Crypto] in
theorem encodes_hex (bytes : Bytes) : Texts.encodes (hex bytes) = true := by
  have digits : ∀ n < 16, (Nat.digitChar n).toNat < 0xD800 := by decide
  refine Texts.plain _ fun c member => ?_
  rw [hex, String.toList_ofList] at member
  obtain ⟨b, -, member⟩ := List.mem_flatMap.mp member
  have bound := b.toNat_lt
  rcases List.mem_pair.mp member with rfl | rfl
  · exact digits _ (by omega)
  · exact digits _ (by omega)

omit [Crypto] in
theorem statement_encodable_iff {receipt : WitnessReceipt} : receipt.statement.Encodable ↔
    Texts.encodes receipt.capsuleId = true ∧ Texts.encodes receipt.predecessorId = true ∧
      Texts.encodes receipt.witnessId = true ∧ Texts.encodes receipt.status = true := by
  simp (disch := decide) [WitnessReceipt.statement, WitnessReceipt.statementFields, encodes_of_all]

omit [Crypto] in
/-- What is hashed of a receipt can be encoded where its statement can. -/
theorem idStatement_encodable {receipt : WitnessReceipt} (fine : receipt.statement.Encodable) :
    (idStatement receipt).Encodable := by
  have name : Texts.encodes "signature" = true := encodes_of_all (by decide)
  rw [WitnessReceipt.statement, encodable_obj] at fine
  rw [idStatement, encodable_obj, List.forall_mem_append]
  exact ⟨fine, List.forall_mem_singleton.mpr ⟨name, encodable_str.mpr (encodes_hex _)⟩⟩

theorem proofStatement_encodable (digests : DigestsEncode) {capsuleId predecessorId : String} (epoch attempt : Int)
    (capsule : Texts.encodes capsuleId = true) (predecessor : Texts.encodes predecessorId = true)
    (receipts : List WitnessReceipt) : (proofStatement closureLabel capsuleId predecessorId epoch attempt
      (receipts.map WitnessReceipt.receiptId)).Encodable := by
  have ids : ∀ receipt : WitnessReceipt, Texts.encodes receipt.receiptId = true := fun _ => digests _
  simp (disch := decide) [proofStatement, closureLabel, capsule, predecessor, ids, encodes_of_all]

/-- Of receipts that can be encoded a closure is made as where all texts can be. -/
theorem createdClosure_of_encodable (digests : DigestsEncode) {receipts : List WitnessReceipt}
    (fine : ∀ receipt ∈ receipts, receipt.statement.Encodable) : createdClosure receipts = ClosureProof.create receipts := by
  unfold createdClosure ClosureProof.create
  cases ordered : sortedBy WitnessReceipt.witnessId receipts with
  | nil => rfl
  | cons first others =>
    have fine' : ∀ receipt ∈ first :: others, receipt.statement.Encodable := by
      intro receipt member
      exact fine receipt ((sortedBy_perm _ _).mem_iff.mp (ordered ▸ member))
    obtain ⟨capsule, predecessor, -⟩ := statement_encodable_iff.mp (fine' first List.mem_cons_self)
    have hashed := proofId_of_encodable (fun receipt member => idStatement_encodable (fine' receipt member))
      (proofStatement_encodable digests first.epoch first.attempt capsule predecessor (first :: others))
    simp only [hashed]
    split <;> rfl

end Written

section Counting
variable [Crypto] [Texts] [Keyring] {s : MosaicProtocol} {capsule : Capsule} {receipts : List WitnessReceipt}
  {receipt : WitnessReceipt}

omit [Texts] [Keyring] in
theorem matches_of_verified (verified : s.verifyReceipt receipt = true) : Matches s receipt := by
  obtain ⟨member, stored, of⟩ := verifyReceipt_iff.mp verified
  exact ⟨by rw [of.known]; rfl, stored, of.found, of.predecessor, ⟨of.epoch, of.current⟩, of.attempt⟩

theorem verified_iff :
    verifyReceipt s receipt = .ok true ↔ Readable s receipt ∧ s.verifyReceipt receipt = true := by
  rcases verifyReceipt_cases s receipt with ⟨readable, same⟩ | ⟨unreadable, e, raised⟩
  · rw [same]
    exact ⟨fun verified => ⟨readable, Except.ok.inj verified⟩, fun both => congrArg _ both.2⟩
  · rw [raised]
    exact ⟨fun verified => (nomatch verified), fun both => absurd both.1 unreadable⟩

/-- A receipt that counts towards a closure of the capsule. -/
def Counts (s : MosaicProtocol) (capsule : Capsule) (receipt : WitnessReceipt) : Prop :=
  verifyReceipt s receipt = .ok true ∧ receipt.status = "ACCEPT" ∧ receipt.capsuleId = capsule.capsuleId

theorem counts_iff : Counts s capsule receipt ↔ Readable s receipt ∧ s.Counts capsule receipt := by
  unfold Counts MosaicProtocol.Counts
  rw [verified_iff, and_assoc]

theorem Counts.encodable (counting : Counts s capsule receipt) : receipt.statement.Encodable := by
  obtain ⟨readable, verified⟩ := verified_iff.mp counting.1
  exact (readable (matches_of_verified verified)).2

/-- Receipts that count and carry the threshold make a closure that is verified. -/
theorem verifyClosure_of_counts (digests : DigestsEncode) (stored : s.capsules.get? capsule.capsuleId = some capsule)
    (distinct : (receipts.map WitnessReceipt.witnessId).Nodup) (counting : ∀ receipt ∈ receipts, Counts s capsule receipt)
    (heavy : s.threshold ≤ s.weightOfReceipts receipts) :
    verifyClosure s capsule (closureOver capsule receipts) = .ok true := by
  have perm := sortedBy_perm WitnessReceipt.witnessId receipts
  obtain ⟨values, -⟩ := byWitness_values ((perm.map WitnessReceipt.witnessId).nodup_iff.mpr distinct)
  have counting' : ∀ receipt ∈ (byWitness (closureOver capsule receipts).receipts).values, Counts s capsule receipt := by
    intro receipt member
    simp only [closureOver, values] at member
    exact counting receipt (perm.mem_iff.mp member)
  have accepted := accepts_closureOver distinct (fun receipt member => (counts_iff.mp (counting receipt member)).2) heavy
  have texts : Texts.encodes capsule.capsuleId = true ∧ Texts.encodes capsule.predecessorId = true := by
    cases receipts with
    | nil => exact absurd heavy (Nat.not_le.mpr s.threshold_pos)
    | cons first others =>
      have one := counting first List.mem_cons_self
      obtain ⟨named, predecessor, -⟩ := statement_encodable_iff.mp one.encodable
      obtain ⟨-, same, same', -⟩ := (counts_iff.mp one).2.alike stored
      exact ⟨same ▸ named, same' ▸ predecessor⟩
  rw [verifyClosure_of_readable (fun receipt member => (counts_iff.mp (counting' receipt member)).1)
    (fun receipt member => idStatement_encodable (counting' receipt member).encodable)
    (proofStatement_encodable digests _ _ texts.1 texts.2 _), verifyClosure_iff.mpr accepted]

end Counting

end Mosaic.Strict
