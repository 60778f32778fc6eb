import Mosaic.Strict.Runs
import Mosaic.ApplyAtomicity

namespace Mosaic.Strict
open CanonicalJson Effects Instance

/-- Every text can be encoded. -/
def AllEncode [Texts] : Prop := ∀ text, Texts.encodes text = true

/-- Every member has a key. -/
def AllKeyed [Keyring] : Prop := ∀ memberId, Keyring.keyed memberId = true

variable [Crypto] [Texts]

omit [Texts] in
theorem ofExcept_eq_liftExcept {α : Type} (x : Except PyError α) : (ofExcept x : Py α) = liftExcept x := by
  cases x <;> rfl

section Proofs
variable (texts : AllEncode)
include texts

omit [Crypto] in
theorem canonicalBytes_plain (value : Json) : canonicalBytes value = .ok (CanonicalJson.canonicalBytes value) :=
  if_pos fun text _ => texts text

theorem digest_plain (value : Json) : digest value = .ok (Mosaic.digest value) :=
  digest_of_encodable fun text _ => texts text

theorem sealId_plain (s : StateSeal) : sealId s = .ok s.sealId := digest_plain texts _

theorem createdCapsule_plain (client : KeyPair) (predecessor : StateSeal) (successorRoot ruleId ruleWitness : String)
    (attempt : Int) (bundleId : Option String) :
    createdCapsule client predecessor successorRoot ruleId ruleWitness attempt bundleId =
      .ok (Capsule.create client predecessor successorRoot ruleId ruleWitness attempt bundleId) := by
  unfold createdCapsule
  simp only [sealId_plain texts, digest_plain texts, canonicalBytes_plain texts]
  rfl

theorem verifyClientSignature_plain (capsule : Capsule) :
    verifyClientSignature capsule = .ok capsule.verifyClientSignature := by
  unfold verifyClientSignature
  rw [canonicalBytes_plain texts]
  rfl

theorem proofId_plain (label capsuleId predecessorId : String) (epoch attempt : Int) (receipts : List WitnessReceipt) :
    proofId label capsuleId predecessorId epoch attempt receipts = .ok (Mosaic.digest
      (proofStatement label capsuleId predecessorId epoch attempt (receipts.map WitnessReceipt.receiptId))) :=
  proofId_of_encodable (fun _ _ text _ => texts text) fun text _ => texts text

theorem createdClosure_plain (receipts : List WitnessReceipt) : createdClosure receipts = ClosureProof.create receipts := by
  unfold createdClosure ClosureProof.create
  simp only [proofId_plain texts]
  rfl

theorem createdAbandon_plain (receipts : List WitnessReceipt) : createdAbandon receipts = AbandonProof.create receipts := by
  unfold createdAbandon AbandonProof.create
  simp only [proofId_plain texts]
  rfl

theorem createdEvidence_plain (first second : Capsule) :
    createdEvidence first second = ConflictEvidence.create first second := by
  unfold createdEvidence ConflictEvidence.create
  simp only [digest_plain texts]
  rfl

theorem successor_plain (current : StateSeal) (capsule : Capsule) :
    successor current capsule = .ok (nextSeal current capsule) := by
  unfold successor
  rw [digest_plain texts]
  rfl

theorem sealNamed_plain (id : String) (seals : List StateSeal) :
    sealNamed id seals = .ok (seals.find? fun current => current.sealId = id) := by
  induction seals with
  | nil => rfl
  | cons current others ih =>
    unfold sealNamed
    rw [sealId_plain texts]
    by_cases named : current.sealId = id
    · refine (if_pos named).trans (congrArg Except.ok (List.find?_cons_of_pos ?_).symm)
      simpa using named
    · refine (if_neg named).trans (ih.trans (congrArg Except.ok (List.find?_cons_of_neg ?_).symm))
      simpa using named

theorem bundleSeals_plain (s : Instance) (entries : List (Capsule × ClosureProof)) :
    bundleSeals s entries = .ok (s.bundleSeals entries) := by
  induction entries with
  | nil => rfl
  | cons entry entries ih =>
    obtain ⟨capsule, closure⟩ := entry
    have looked : sealNamed capsule.predecessorId s.currentSeals.values = .ok (s.currentFor capsule) :=
      sealNamed_plain texts _ _
    unfold bundleSeals Instance.bundleSeals
    rw [looked, ih]
    cases found : s.currentFor capsule with
    | none => rw [List.filterMap_cons_none (by rw [found]; rfl)]; rfl
    | some current =>
      rw [List.filterMap_cons_some (by rw [found]; rfl)]
      simp only [successor_plain texts]
      rfl

theorem install_plain (fresh : StateSeal) : install fresh = modify (·.installSeal fresh) :=
  funext fun _ => install_of_encodable fun text _ => texts text

theorem createResource_plain (resourceId owner stateRoot secret : String) :
    createResource resourceId owner stateRoot secret = Instance.createResource resourceId owner stateRoot secret := by
  unfold createResource Instance.createResource
  simp only [digest_plain texts, install_plain texts]
  rfl

theorem createCapsule_plain (client : KeyPair) (predecessor : StateSeal) (successorRoot ruleId ruleWitness : String)
    (attempt : Int) (bundleId : Option String) :
    createCapsule client predecessor successorRoot ruleId ruleWitness attempt bundleId =
      Instance.createCapsule client predecessor successorRoot ruleId ruleWitness attempt bundleId := by
  unfold createCapsule Instance.createCapsule
  simp only [createdCapsule_plain texts]
  rfl

theorem validateCapsule_plain (capsule : Capsule) : validateCapsule capsule = Instance.validateCapsule capsule := by
  unfold validateCapsule Instance.validateCapsule
  simp only [verifyClientSignature_plain texts]
  rfl

theorem signReceipt_plain (member : Member) (capsule : Capsule) (status : String) :
    signReceipt member capsule status = Instance.signReceipt member capsule status := by
  unfold signReceipt Instance.signReceipt
  simp only [canonicalBytes_plain texts]
  rfl

theorem raiseConflict_plain (first second : Capsule) :
    raiseConflict first second = Instance.raiseConflict first second := by
  unfold raiseConflict Instance.raiseConflict
  rw [createdEvidence_plain texts]
  cases ConflictEvidence.create first second <;> rfl

theorem acceptLock_plain (capsule : Capsule) : acceptLock capsule = Instance.acceptLock capsule := by
  unfold acceptLock Instance.acceptLock
  simp only [sealId_plain texts, raiseConflict_plain texts]
  rfl

theorem abandonLock_plain (capsule : Capsule) : abandonLock capsule = Instance.abandonLock capsule := by
  unfold abandonLock
  simp only [raiseConflict_plain texts]
  rfl

theorem witnessReceipt_plain (memberId : String) (capsule : Capsule) (status : String) :
    witnessReceipt memberId capsule status = Instance.witnessReceipt memberId capsule status := by
  unfold witnessReceipt Instance.witnessReceipt
  simp only [validateCapsule_plain texts, acceptLock_plain texts, abandonLock_plain texts, signReceipt_plain texts]

variable [Keyring] (keys : AllKeyed)
include keys

theorem readable_plain (s : MosaicProtocol) (receipt : WitnessReceipt) : Readable s receipt :=
  fun _ => ⟨fun member _ => Or.inr (keys member.memberId), fun text _ => texts text⟩

theorem verifyReceipt_plain (s : MosaicProtocol) (receipt : WitnessReceipt) :
    verifyReceipt s receipt = .ok (s.verifyReceipt receipt) :=
  verifyReceipt_of_readable (readable_plain texts keys s receipt)

theorem verifyClosure_plain (s : MosaicProtocol) (capsule : Capsule) (closure : ClosureProof) :
    verifyClosure s capsule closure = .ok (s.verifyClosure capsule closure) :=
  verifyClosure_of_readable (fun receipt _ => readable_plain texts keys s receipt) (fun _ _ text _ => texts text)
    fun text _ => texts text

theorem validReceipts_plain (s : MosaicProtocol) (capsule : Capsule) (status : String) (receipts : List WitnessReceipt) :
    validReceipts s capsule status receipts = .ok (s.validReceipts capsule status receipts) :=
  countedReceipts_of_readable (fun receipt _ => readable_plain texts keys s receipt) status

theorem collectFrom_plain (capsule : Capsule) (status : String) (caught : PyError → Bool) (memberIds : List String) :
    collectFrom capsule status caught memberIds = Instance.collectFrom capsule status caught memberIds := by
  induction memberIds with
  | nil => rfl
  | cons memberId memberIds ih =>
    unfold collectFrom Instance.collectFrom
    rw [witnessReceipt_plain texts]
    simp only [verifyReceipt_plain texts keys, ih]
    funext s
    rw [bind_apply, bind_apply]
    cases attempt caught (Instance.witnessReceipt memberId capsule status) s with
    | error e t => rfl
    | ok receipt t =>
      cases receipt with
      | none =>
        dsimp only
        rw [get_bind_apply, bind_apply]
        cases Instance.collectFrom capsule status caught memberIds t <;> rfl
      | some receipt =>
        dsimp only
        rw [get_bind_apply, get_bind_apply, ofExcept_ok_bind, bind_apply, bind_apply]
        cases Instance.collectFrom capsule status caught memberIds t with
        | error e u => rfl
        | ok rest u => cases verified : t.verifyReceipt receipt <;> simp [verified]

theorem collectAcceptReceipts_plain (capsule : Capsule) :
    collectAcceptReceipts capsule = Instance.collectAcceptReceipts capsule := by
  unfold collectAcceptReceipts Instance.collectAcceptReceipts
  simp only [collectFrom_plain texts keys]

theorem collectAbandonReceipts_plain (capsule : Capsule) :
    collectAbandonReceipts capsule = Instance.collectAbandonReceipts capsule := by
  unfold collectAbandonReceipts Instance.collectAbandonReceipts
  simp only [collectFrom_plain texts keys]

theorem registerClosure_plain (capsule : Capsule) (closure : ClosureProof) :
    registerClosure capsule closure = Instance.registerClosure capsule closure := by
  unfold registerClosure Instance.registerClosure
  simp only [verifyClosure_plain texts keys]
  rfl

theorem close_plain (capsule : Capsule) (receipts : List WitnessReceipt) :
    close capsule receipts = Instance.close capsule receipts := by
  unfold close Instance.close
  simp only [validateCapsule_plain texts, collectAcceptReceipts_plain texts keys, validReceipts_plain texts keys,
    createdClosure_plain texts, registerClosure_plain texts keys, ofExcept_eq_liftExcept]
  rfl

theorem abandon_plain (capsule : Capsule) (receipts : List WitnessReceipt) :
    abandon capsule receipts = Instance.abandon capsule receipts := by
  unfold abandon Instance.abandon
  simp only [collectAbandonReceipts_plain texts keys, validReceipts_plain texts keys, createdAbandon_plain texts,
    ofExcept_eq_liftExcept]
  rfl

omit [Keyring] keys in
theorem advance_plain (s : Instance) (capsule : Capsule) : advance s capsule = s.advance capsule := by
  unfold advance Instance.advance
  cases s.knownSeals.get? capsule.predecessorId with
  | none => rfl
  | some predecessor =>
    dsimp only
    cases s.currentSeals.get? predecessor.resourceId with
    | none => rfl
    | some current =>
      simp only [sealId_plain texts, digest_plain texts, successor_plain texts, install_plain texts]
      funext t
      rw [ofExcept_ok_bind]
      by_cases renamed : current.sealId ≠ capsule.predecessorId
      swap
      · rw [if_neg renamed, if_neg renamed, ofExcept_ok_bind]
      rw [if_pos renamed, if_pos renamed]
      by_cases alike : current.version = predecessor.version + 1 ∧ current.stateRoot = capsule.successorRoot
      swap
      · rw [if_neg alike, if_neg fun all => alike ⟨all.1, all.2.1⟩]
      rw [if_pos alike, ofExcept_ok_bind]
      by_cases capability : current.capabilityHash = Mosaic.digest (.str capsule.capsuleId)
      · rw [raiseIf_bind_neg (not_not.mpr capability), if_pos ⟨alike.1, alike.2, capability⟩]
      · rw [raiseIf_bind_pos capability, if_neg fun all => capability all.2.2]
        rfl

theorem apply_plain (capsule : Capsule) (closure : ClosureProof) :
    apply capsule closure = Instance.apply capsule closure := by
  rw [apply_eq]
  unfold apply
  simp only [verifyClosure_plain texts keys, registerClosure_plain texts keys, advance_plain texts]
  rfl

theorem checkEntries_plain (s : Instance) (entries : List (Capsule × ClosureProof)) :
    checkEntries s entries = s.checkEntries entries := by
  induction entries with
  | nil => rfl
  | cons entry entries ih =>
    obtain ⟨capsule, closure⟩ := entry
    have looked : sealNamed capsule.predecessorId s.currentSeals.values = .ok (s.currentFor capsule) :=
      sealNamed_plain texts _ _
    unfold checkEntries Instance.checkEntries
    simp only [verifyClosure_plain texts keys, looked, ih]
    rfl

theorem applyBundle_plain (bundle : BundleClosure) (entries : List (Capsule × ClosureProof)) :
    applyBundle bundle entries = Instance.applyBundle bundle entries := by
  have installs : ∀ seals : List StateSeal, seals.forM install = modify fun t => seals.foldl installSeal t :=
    fun seals => funext fun t => forM_install (fun _ _ text _ => texts text) t
  unfold applyBundle Instance.applyBundle
  simp only [bundleSeals_plain texts, checkEntries_plain texts keys, installs]
  rfl

end Proofs

/-- On texts that can be encoded, and with a key for each member, a call does what it does there. -/
theorem exec_plain [Keyring] (texts : AllEncode) (keys : AllKeyed) (call : Call) : exec call = call.exec := by
  cases call with
  | createResource => exact congrArg final (createResource_plain texts _ _ _ _)
  | createCapsule => exact congrArg final (createCapsule_plain texts _ _ _ _ _ _ _)
  | witnessReceipt => exact congrArg final (witnessReceipt_plain texts _ _ _)
  | collectAcceptReceipts => exact congrArg final (collectAcceptReceipts_plain texts keys _)
  | collectAbandonReceipts => exact congrArg final (collectAbandonReceipts_plain texts keys _)
  | registerClosure => exact congrArg final (registerClosure_plain texts keys _ _)
  | close => exact congrArg final (close_plain texts keys _ _)
  | abandon => exact congrArg final (abandon_plain texts keys _ _)
  | apply => exact congrArg final (apply_plain texts keys _ _)
  | applyBundle => exact congrArg final (applyBundle_plain texts keys _ _)

/-- So does a run. -/
theorem Run.of_plain [Keyring] (texts : AllEncode) (keys : AllKeyed) {allowed : Instance → Call → Prop}
    {s t : Instance} (run : Mosaic.Run allowed s t) : Run allowed s t := by
  have same : exec = Call.exec := funext (exec_plain texts keys)
  unfold Run
  rw [same]
  exact run

end Mosaic.Strict
