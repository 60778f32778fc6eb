import Mosaic.Strict.Protocol
import Mosaic.Updates

namespace Mosaic.Strict
open CanonicalJson Effects Instance

variable [Crypto] [Texts]

omit [Crypto] in
theorem canonicalBytes_eq_ok {value : Json} {encoded : Bytes} :
    canonicalBytes value = .ok encoded ↔ value.Encodable ∧ CanonicalJson.canonicalBytes value = encoded := by
  unfold canonicalBytes
  by_cases fine : value.Encodable
  · simp [fine]
  · simp [fine]

theorem digest_of_encodable {value : Json} (fine : value.Encodable) : digest value = .ok (Mosaic.digest value) := by
  unfold digest canonicalBytes
  rw [if_pos fine]
  rfl

theorem digest_of_not {value : Json} (bad : ¬ value.Encodable) : digest value = .error .unicodeEncodeError := by
  unfold digest canonicalBytes
  rw [if_neg bad]
  rfl

theorem digest_eq_ok {value : Json} {id : String} :
    digest value = .ok id ↔ value.Encodable ∧ Mosaic.digest value = id := by
  by_cases fine : value.Encodable
  · simp [digest_of_encodable fine, fine]
  · simp [digest_of_not fine, fine]

theorem sealId_of_encodable {s : StateSeal} (fine : s.statement.Encodable) : sealId s = .ok s.sealId :=
  digest_of_encodable fine

theorem sealId_eq_ok {s : StateSeal} {id : String} : sealId s = .ok id ↔ s.statement.Encodable ∧ s.sealId = id :=
  digest_eq_ok

/-- Where a text cannot be encoded, what `receipt_id` hashes has it. -/
def idStatement (receipt : WitnessReceipt) : Json :=
  .obj (receipt.statementFields ++ [("signature", .str (hex receipt.signature))])

theorem receiptId_eq_ok {receipt : WitnessReceipt} {id : String} :
    receiptId receipt = .ok id ↔ (idStatement receipt).Encodable ∧ receipt.receiptId = id :=
  digest_eq_ok

theorem createdCapsule_of_encodable {client : KeyPair} {predecessor : StateSeal}
    {successorRoot ruleId ruleWitness : String} {attempt : Int} {bundleId : Option String}
    (named : predecessor.statement.Encodable)
    (fine : (Capsule.create client predecessor successorRoot ruleId ruleWitness attempt
      bundleId).unsignedStatement.Encodable) :
    createdCapsule client predecessor successorRoot ruleId ruleWitness attempt bundleId =
      .ok (Capsule.create client predecessor successorRoot ruleId ruleWitness attempt bundleId) := by
  refine except_bind_eq_ok.mpr ⟨_, sealId_of_encodable named, ?_⟩
  refine except_bind_eq_ok.mpr ⟨_, digest_of_encodable fine, ?_⟩
  exact except_bind_eq_ok.mpr ⟨_, canonicalBytes_eq_ok.mpr ⟨fine, rfl⟩, rfl⟩

theorem createdCapsule_ok {client : KeyPair} {predecessor : StateSeal} {successorRoot ruleId ruleWitness : String}
    {attempt : Int} {bundleId : Option String} {capsule : Capsule}
    (made : createdCapsule client predecessor successorRoot ruleId ruleWitness attempt bundleId = .ok capsule) :
    capsule = Capsule.create client predecessor successorRoot ruleId ruleWitness attempt bundleId := by
  unfold createdCapsule at made
  obtain ⟨predecessorId, named, made⟩ := except_bind_eq_ok.mp made
  obtain ⟨-, rfl⟩ := sealId_eq_ok.mp named
  obtain ⟨capsuleId, hashed, made⟩ := except_bind_eq_ok.mp made
  obtain ⟨-, rfl⟩ := digest_eq_ok.mp hashed
  obtain ⟨message, encoded, made⟩ := except_bind_eq_ok.mp made
  obtain ⟨-, rfl⟩ := canonicalBytes_eq_ok.mp encoded
  cases made
  rfl

theorem verifyClientSignature_ok {capsule : Capsule} {verified : Bool}
    (checked : verifyClientSignature capsule = .ok verified) : capsule.verifyClientSignature = verified := by
  obtain ⟨message, encoded, checked⟩ := except_bind_eq_ok.mp checked
  obtain ⟨-, rfl⟩ := canonicalBytes_eq_ok.mp encoded
  cases checked
  rfl

theorem proofId_ok {label capsuleId predecessorId id : String} {epoch attempt : Int} {receipts : List WitnessReceipt}
    (hashed : proofId label capsuleId predecessorId epoch attempt receipts = .ok id) :
    Mosaic.digest (proofStatement label capsuleId predecessorId epoch attempt
      (receipts.map WitnessReceipt.receiptId)) = id := by
  obtain ⟨ids, named, hashed⟩ := except_bind_eq_ok.mp hashed
  obtain ⟨-, rfl⟩ := (mapM_eq_ok fun _ _ hashed => (receiptId_eq_ok.mp hashed).2).mp named
  exact (digest_eq_ok.mp hashed).2

theorem proofId_of_encodable {label capsuleId predecessorId : String} {epoch attempt : Int}
    {receipts : List WitnessReceipt} (ids : ∀ receipt ∈ receipts, (idStatement receipt).Encodable)
    (fine : (proofStatement label capsuleId predecessorId epoch attempt
      (receipts.map WitnessReceipt.receiptId)).Encodable) :
    proofId label capsuleId predecessorId epoch attempt receipts = .ok (Mosaic.digest (proofStatement label capsuleId
      predecessorId epoch attempt (receipts.map WitnessReceipt.receiptId))) := by
  unfold proofId
  rw [mapM_of_ok fun receipt member => receiptId_eq_ok.mpr ⟨ids receipt member, rfl⟩]
  exact digest_of_encodable fine

theorem createdAbandon_ok {receipts : List WitnessReceipt} {proof : AbandonProof}
    (made : createdAbandon receipts = .ok proof) : AbandonProof.create receipts = .ok proof := by
  unfold createdAbandon at made
  unfold AbandonProof.create
  dsimp only at made ⊢
  cases ordered : sortedBy WitnessReceipt.witnessId receipts with
  | nil =>
    rw [ordered] at made
    cases made
  | cons first others =>
    rw [ordered] at made
    dsimp only at made ⊢
    split at made
    · cases made
    split at made
    · cases made
    · rename_i abandoning uniform
      obtain ⟨id, hashed, made⟩ := except_bind_eq_ok.mp made
      rw [if_neg abandoning, if_neg uniform, proofId_ok hashed]
      exact made

theorem createdEvidence_ok {first second : Capsule} {evidence : ConflictEvidence}
    (made : createdEvidence first second = .ok evidence) : ConflictEvidence.create first second = .ok evidence := by
  unfold createdEvidence at made
  unfold ConflictEvidence.create
  split at made
  · cases made
  split at made
  · cases made
  · rename_i one two
    rw [if_neg one, if_neg two]
    generalize (if first.capsuleId ≤ second.capsuleId then (first, second) else (second, first)) = ordered at made ⊢
    obtain ⟨a, b⟩ := ordered
    obtain ⟨id, hashed, made⟩ := except_bind_eq_ok.mp made
    rw [← (digest_eq_ok.mp hashed).2] at made
    exact made

theorem successor_ok {current next : StateSeal} {capsule : Capsule} (made : successor current capsule = .ok next) :
    next = nextSeal current capsule := by
  obtain ⟨id, hashed, made⟩ := except_bind_eq_ok.mp made
  obtain ⟨-, rfl⟩ := digest_eq_ok.mp hashed
  cases made
  rfl

theorem sealNamed_ok {id : String} {seals : List StateSeal} {found : Option StateSeal}
    (looked : sealNamed id seals = .ok found) : seals.find? (fun current => current.sealId = id) = found := by
  induction seals with
  | nil =>
    cases looked
    rfl
  | cons current others ih =>
    obtain ⟨currentId, hashed, looked⟩ := except_bind_eq_ok.mp looked
    obtain ⟨-, rfl⟩ := sealId_eq_ok.mp hashed
    by_cases named : current.sealId = id
    · rw [if_pos named] at looked
      cases looked
      exact List.find?_cons_of_pos (decide_eq_true named)
    · rw [if_neg named] at looked
      rw [List.find?_cons_of_neg (by simpa using named)]
      exact ih looked

theorem bundleSeals_ok {s : Instance} {entries : List (Capsule × ClosureProof)} {seals : List StateSeal}
    (made : bundleSeals s entries = .ok seals) : seals = s.bundleSeals entries := by
  induction entries generalizing seals with
  | nil =>
    cases made
    rfl
  | cons entry entries ih =>
    obtain ⟨capsule, closure⟩ := entry
    obtain ⟨found, looked, made⟩ := except_bind_eq_ok.mp made
    have same : s.currentFor capsule = found := sealNamed_ok looked
    unfold Instance.bundleSeals
    cases found with
    | none =>
      rw [List.filterMap_cons_none (by rw [same]; rfl)]
      exact ih made
    | some current =>
      obtain ⟨next, hashed, made⟩ := except_bind_eq_ok.mp made
      obtain ⟨rest, later, made⟩ := except_bind_eq_ok.mp made
      cases made
      rw [List.filterMap_cons_some (by rw [same]; rfl), successor_ok hashed]
      exact congrArg _ (ih later)

variable [Keyring] {s : MosaicProtocol} {capsule : Capsule}

/-- What is verified of a receipt before its signature. -/
def Matches (s : MosaicProtocol) (receipt : WitnessReceipt) : Prop :=
  (s.members.get? receipt.witnessId).isSome ∧ ∃ capsule, s.capsules.get? receipt.capsuleId = some capsule ∧
    receipt.predecessorId = capsule.predecessorId ∧ (receipt.epoch = capsule.epoch ∧ capsule.epoch = s.epoch) ∧
    receipt.attempt = capsule.attempt

/-- A member with a public key. -/
def HasKey (member : Member) : Prop := member.keypair.isSome ∨ Keyring.keyed member.memberId

/-- A receipt whose signature is looked at is one of a member with a key, and its texts
can be encoded. -/
def Readable (s : MosaicProtocol) (receipt : WitnessReceipt) : Prop :=
  Matches s receipt →
    (∀ member, s.members.get? receipt.witnessId = some member → HasKey member) ∧ receipt.statement.Encodable

theorem verifyReceipt_cases (s : MosaicProtocol) (receipt : WitnessReceipt) :
    Readable s receipt ∧ verifyReceipt s receipt = .ok (s.verifyReceipt receipt) ∨
      ¬ Readable s receipt ∧ ∃ e, verifyReceipt s receipt = .error e := by
  unfold verifyReceipt MosaicProtocol.verifyReceipt
  cases known : s.members.get? receipt.witnessId with
  | none => exact Or.inl ⟨fun met => by simp [Matches, known] at met, rfl⟩
  | some member =>
    cases found : s.capsules.get? receipt.capsuleId with
    | none => exact Or.inl ⟨fun met => by simp [Matches, found] at met, rfl⟩
    | some stored =>
      dsimp only
      by_cases met : receipt.predecessorId = stored.predecessorId ∧
          (receipt.epoch = stored.epoch ∧ stored.epoch = s.epoch) ∧ receipt.attempt = stored.attempt
      swap
      · have unmet : ¬ Matches s receipt := by
          rintro ⟨-, capsule, found', met'⟩
          cases Option.some.inj (found.symm.trans found')
          exact met met'
        rw [if_neg met]
        refine Or.inl ⟨fun met' => absurd met' unmet, ?_⟩
        refine congrArg Except.ok (Eq.symm (Bool.eq_false_iff.mpr fun all => met ?_))
        simp only [Bool.and_eq_true, decide_eq_true_eq] at all
        exact ⟨all.1.1.1, all.1.1.2, all.1.2⟩
      have matched : Matches s receipt := ⟨by rw [known]; rfl, stored, found, met⟩
      rw [if_pos met]
      unfold publicKey canonicalBytes
      by_cases keyed : member.keypair.isSome ∨ Keyring.keyed member.memberId
      swap
      · rw [if_neg keyed]
        exact Or.inr ⟨fun readable => keyed ((readable matched).1 member known), _, rfl⟩
      rw [if_pos keyed]
      by_cases fine : receipt.statement.Encodable
      · rw [if_pos fine]
        refine Or.inl ⟨fun _ => ⟨fun other here => ?_, fine⟩, ?_⟩
        · cases Option.some.inj (known.symm.trans here)
          exact keyed
        simp only [met.1, met.2.1, met.2.2, decide_true, Bool.true_and]
        rfl
      · rw [if_neg fine]
        exact Or.inr ⟨fun readable => fine (readable matched).2, _, rfl⟩

theorem verifyReceipt_ok {receipt : WitnessReceipt} {verified : Bool} (checked : verifyReceipt s receipt = .ok verified) :
    s.verifyReceipt receipt = verified := by
  rcases verifyReceipt_cases s receipt with ⟨-, same⟩ | ⟨-, e, raised⟩
  · exact Except.ok.inj (same.symm.trans checked)
  · cases raised.symm.trans checked

theorem verifyReceipt_of_readable {receipt : WitnessReceipt} (readable : Readable s receipt) :
    verifyReceipt s receipt = .ok (s.verifyReceipt receipt) := by
  rcases verifyReceipt_cases s receipt with ⟨-, same⟩ | ⟨unreadable, -⟩
  · exact same
  · exact absurd readable unreadable

theorem counts_of_readable {receipt : WitnessReceipt} (readable : Readable s receipt) (status : String) :
    counts s capsule status receipt =
      .ok (s.verifyReceipt receipt && receipt.status = status && receipt.capsuleId = capsule.capsuleId) := by
  unfold counts
  rw [verifyReceipt_of_readable readable]
  rfl

theorem allCount_of_readable {receipts : List WitnessReceipt} (readable : ∀ receipt ∈ receipts, Readable s receipt) :
    allCount s capsule receipts = .ok (receipts.all fun receipt =>
      s.verifyReceipt receipt && receipt.status = "ACCEPT" && receipt.capsuleId = capsule.capsuleId) := by
  induction receipts with
  | nil => rfl
  | cons receipt receipts ih =>
    obtain ⟨first, later⟩ := List.forall_mem_cons.mp readable
    unfold allCount
    rw [counts_of_readable first, ih later, List.all_cons]
    generalize (s.verifyReceipt receipt && receipt.status = "ACCEPT" && receipt.capsuleId = capsule.capsuleId) = counted
    cases counted <;> rfl

theorem countedReceipts_of_readable {receipts : List WitnessReceipt} (readable : ∀ receipt ∈ receipts, Readable s receipt)
    (status : String) : countedReceipts s capsule status receipts = .ok (receipts.filter fun receipt =>
      s.verifyReceipt receipt && receipt.status = status && receipt.capsuleId = capsule.capsuleId) := by
  induction receipts with
  | nil => rfl
  | cons receipt receipts ih =>
    obtain ⟨first, later⟩ := List.forall_mem_cons.mp readable
    unfold countedReceipts
    rw [counts_of_readable first, ih later, List.filter_cons]
    rfl

/-- Receipts that can be read and hashed are verified as they are where all texts can be encoded. -/
theorem verifyClosure_of_readable {closure : ClosureProof}
    (readable : ∀ receipt ∈ (MosaicProtocol.byWitness closure.receipts).values, Readable s receipt)
    (ids : ∀ receipt ∈ (MosaicProtocol.byWitness closure.receipts).values, (idStatement receipt).Encodable)
    (fine : (proofStatement closureLabel capsule.capsuleId capsule.predecessorId capsule.epoch capsule.attempt
      ((sortedBy WitnessReceipt.witnessId (MosaicProtocol.byWitness closure.receipts).values).map
        WitnessReceipt.receiptId)).Encodable) :
    verifyClosure s capsule closure = .ok (s.verifyClosure capsule closure) := by
  have hashed := proofId_of_encodable (fun receipt member => ids receipt ((sortedBy_perm _ _).mem_iff.mp member)) fine
  unfold verifyClosure MosaicProtocol.verifyClosure
  simp only [allCount_of_readable readable, hashed]
  split
  · rfl
  · split <;> rfl

theorem counts_ok {status : String} {receipt : WitnessReceipt} {counted : Bool}
    (checked : counts s capsule status receipt = .ok counted) :
    (s.verifyReceipt receipt && receipt.status = status && receipt.capsuleId = capsule.capsuleId) = counted := by
  obtain ⟨verified, checked', made⟩ := except_bind_eq_ok.mp checked
  cases made
  rw [verifyReceipt_ok checked']

theorem allCount_ok {receipts : List WitnessReceipt} {all : Bool} (checked : allCount s capsule receipts = .ok all) :
    receipts.all (fun receipt =>
      s.verifyReceipt receipt && receipt.status = "ACCEPT" && receipt.capsuleId = capsule.capsuleId) = all := by
  induction receipts with
  | nil =>
    cases checked
    rfl
  | cons receipt receipts ih =>
    obtain ⟨counted, first, checked⟩ := except_bind_eq_ok.mp checked
    rw [List.all_cons, counts_ok first]
    cases counted with
    | true => exact ih checked
    | false =>
      cases checked
      rfl

theorem countedReceipts_ok {status : String} {receipts valid : List WitnessReceipt}
    (counted : countedReceipts s capsule status receipts = .ok valid) :
    receipts.filter (fun receipt =>
      s.verifyReceipt receipt && receipt.status = status && receipt.capsuleId = capsule.capsuleId) = valid := by
  induction receipts generalizing valid with
  | nil =>
    cases counted
    rfl
  | cons receipt receipts ih =>
    obtain ⟨one, first, counted⟩ := except_bind_eq_ok.mp counted
    obtain ⟨rest, later, counted⟩ := except_bind_eq_ok.mp counted
    cases counted
    rw [List.filter_cons, counts_ok first, ih later]

theorem validReceipts_ok {status : String} {receipts valid : List WitnessReceipt}
    (counted : validReceipts s capsule status receipts = .ok valid) : s.validReceipts capsule status receipts = valid :=
  countedReceipts_ok counted

/-- Where the verification returns, it returns what it returns on texts that can be encoded. -/
theorem verifyClosure_ok {closure : ClosureProof} {verified : Bool}
    (checked : verifyClosure s capsule closure = .ok verified) : s.verifyClosure capsule closure = verified := by
  unfold verifyClosure at checked
  unfold MosaicProtocol.verifyClosure
  split at checked
  · rename_i other
    cases checked
    exact if_pos other
  rename_i same
  rw [if_neg same]
  dsimp only at checked ⊢
  split at checked
  · rename_i signers
    cases checked
    exact if_pos signers
  rename_i signers
  rw [if_neg signers]
  obtain ⟨valid, all, checked⟩ := except_bind_eq_ok.mp checked
  obtain ⟨id, hashed, checked⟩ := except_bind_eq_ok.mp checked
  cases checked
  rw [allCount_ok all, proofId_ok hashed]

/-- What a closure is verified against. -/
theorem verifyClosure_congr {t : MosaicProtocol} (members : t.members = s.members) (epoch : t.epoch = s.epoch)
    (capsules : t.capsules = s.capsules) : verifyClosure t = verifyClosure s := by
  have receipts : verifyReceipt t = verifyReceipt s := by
    funext receipt
    unfold verifyReceipt
    rw [members, epoch, capsules]
  have all : ∀ capsule receipts, allCount t capsule receipts = allCount s capsule receipts := by
    intro capsule items
    induction items with
    | nil => rfl
    | cons receipt items ih =>
      unfold allCount counts
      rw [receipts, ih]
  have weight : t.weightOf = s.weightOf := by
    funext memberId
    unfold MosaicProtocol.weightOf
    rw [members]
  have threshold : t.threshold = s.threshold := by
    unfold MosaicProtocol.threshold MosaicProtocol.totalWeight
    rw [members]
  funext capsule closure
  unfold verifyClosure
  simp only [all, weight, threshold]

end Mosaic.Strict
