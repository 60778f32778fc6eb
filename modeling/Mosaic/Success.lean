import Mosaic.Runs

namespace Mosaic
open CanonicalJson Effects

variable [Crypto]

theorem Capsule.create_verifies (sound : SignaturesVerify) (client : KeyPair) (predecessor : StateSeal)
    (successorRoot ruleId ruleWitness : String) (attempt : Int) (bundleId : Option String) :
    (Capsule.create client predecessor successorRoot ruleId ruleWitness attempt bundleId).verifyClientSignature =
      true :=
  sound _ _

theorem KeyPair.verify_sign (sound : SignaturesVerify) (pair : KeyPair) (message : Bytes) :
    KeyPair.verify pair.publicKey message (pair.sign message) = true :=
  sound _ _

namespace Instance

variable {s : Instance} {capsule : Capsule}

theorem validateCapsule_ok (valid : s.Valid capsule) : validateCapsule capsule s = .ok ⟨⟩ s := by
  obtain ⟨⟨predecessor, known, epoch⟩, epoch', signature, attempt, root⟩ := valid
  have noNegative : ¬ capsule.attempt < 0 := by omega
  unfold validateCapsule
  rw [bind_apply, get_apply]
  simp [known, epoch, epoch', signature, noNegative, root, bind_apply, raiseIf_apply]

theorem getMember_ok {memberId : String} {member : Member} (known : s.members.get? memberId = some member) :
    getMember memberId s = .ok member s := by
  unfold getMember
  rw [bind_apply, get_apply]
  simp [known]

theorem signReceipt_ok {member : Member} {pair : KeyPair} (loaded : member.keypair = some pair) (status : String) :
    signReceipt member capsule status s =
      .ok (signedReceipt member pair capsule status) (s.addSigned (signedReceipt member pair capsule status)) := by
  unfold signReceipt
  simp [loaded, bind_apply]

theorem headOf_parts {current : StateSeal} (head : s.headOf capsule = some current) :
    ∃ predecessor, s.knownSeals.get? capsule.predecessorId = some predecessor ∧
      s.currentSeals.get? predecessor.resourceId = some current :=
  Option.bind_eq_some_iff.mp head

/-- A free or a released lock is taken. -/
theorem acceptLock_claims (head : s.AtHead capsule)
    (free : ∀ lock, s.locks.get? capsule.predecessorId = some lock → lock.Released capsule) :
    acceptLock capsule s = .ok ⟨⟩ (s.setLock capsule "ACCEPT") := by
  obtain ⟨current, head, named⟩ := head
  obtain ⟨predecessor, known, held⟩ := headOf_parts head
  unfold acceptLock lookupKey
  simp only [bind_apply, get_apply, known, held, pure_apply]
  cases locked : s.locks.get? capsule.predecessorId with
  | none => simp [named, bind_apply, raiseIf_apply]
  | some lock =>
    obtain ⟨released, earlier⟩ := free lock locked
    have other : ¬ (lock.capsuleId = capsule.capsuleId ∧ lock.attempt = capsule.attempt) := by
      rintro ⟨-, same⟩
      omega
    simp [named, released, earlier, other]

/-- The own lock is kept as it is. -/
theorem acceptLock_keeps {lock : Lock} (head : s.AtHead capsule)
    (locked : s.locks.get? capsule.predecessorId = some lock) (mine : lock.IsFor capsule) :
    acceptLock capsule s = .ok ⟨⟩ s := by
  obtain ⟨current, head, named⟩ := head
  obtain ⟨predecessor, known, held⟩ := headOf_parts head
  unfold acceptLock lookupKey
  simp only [bind_apply, get_apply, known, held, pure_apply]
  rw [locked]
  simp [named, mine.1, mine.2]

/-- A lock that is held against the capsule is answered with conflict evidence. -/
theorem acceptLock_conflicts {lock : Lock} {first : Capsule} {evidence : ConflictEvidence} (head : s.AtHead capsule)
    (locked : s.locks.get? capsule.predecessorId = some lock) (other : ¬ lock.IsFor capsule)
    (refused : ¬ lock.Released capsule) (stored : s.capsules.get? lock.capsuleId = some first)
    (made : ConflictEvidence.create first capsule = .ok evidence) :
    acceptLock capsule s = .error (.conflictDetected evidence) (s.addEvidence evidence) := by
  obtain ⟨current, head, named⟩ := head
  obtain ⟨predecessor, known, held⟩ := headOf_parts head
  unfold Lock.IsFor at other
  unfold Lock.Released at refused
  unfold acceptLock lookupKey
  simp only [bind_apply, get_apply, known, held, pure_apply]
  rw [locked]
  simp only [named, ne_eq, not_true_eq_false, if_false, if_neg other, if_neg refused, stored]
  simp [raiseConflict, liftExcept, made, bind_apply]

theorem abandonLock_releases
    (mine : ∀ lock, s.locks.get? capsule.predecessorId = some lock → lock.IsFor capsule)
    (unclosed : s.closures.get? capsule.capsuleId = none) :
    abandonLock capsule s = .ok ⟨⟩ (s.setLock capsule "ABANDON") := by
  have missing : s.closures.contains capsule.capsuleId = false := Dict.contains_eq_false.mpr unclosed
  unfold abandonLock
  simp only [bind_apply, get_apply]
  cases locked : s.locks.get? capsule.predecessorId with
  | none => simp [missing, bind_apply, raiseIf_apply]
  | some lock =>
    have own := mine lock locked
    simp [own.1, own.2, missing, bind_apply, raiseIf_apply]

/-- With the lock settled, the receipt is signed. -/
theorem witnessReceipt_ok {t : Instance} {memberId status : String} {member : Member} {pair : KeyPair}
    (either : status = "ACCEPT" ∨ status = "ABANDON") (valid : s.Valid capsule)
    (known : s.members.get? memberId = some member) (loaded : member.keypair = some pair)
    (settled : (if status = "ACCEPT" then acceptLock capsule else abandonLock capsule) s = .ok ⟨⟩ t) :
    witnessReceipt memberId capsule status s =
      .ok (signedReceipt member pair capsule status) (t.addSigned (signedReceipt member pair capsule status)) := by
  have proper : ¬ (status ≠ "ACCEPT" ∧ status ≠ "ABANDON") := by tauto
  unfold witnessReceipt
  rw [bind_apply, raiseIf_apply, if_neg proper]
  simp only [bind_apply, validateCapsule_ok valid, getMember_ok known, settled, signReceipt_ok loaded]

theorem witnessReceipt_raises {t : Instance} {memberId status : String} {member : Member} {e : PyError}
    (either : status = "ACCEPT" ∨ status = "ABANDON") (valid : s.Valid capsule)
    (known : s.members.get? memberId = some member)
    (raised : (if status = "ACCEPT" then acceptLock capsule else abandonLock capsule) s = .error e t) :
    witnessReceipt memberId capsule status s = .error e t := by
  have proper : ¬ (status ≠ "ACCEPT" ∧ status ≠ "ABANDON") := by tauto
  unfold witnessReceipt
  rw [bind_apply, raiseIf_apply, if_neg proper]
  simp only [bind_apply, validateCapsule_ok valid, getMember_ok known, raised]

theorem registerClosure_ok {closure : ClosureProof} (verified : s.verifyClosure capsule closure = true)
    (clean : s.hasConflictOn capsule.predecessorId = false) (new : s.closures.get? capsule.capsuleId = none) :
    registerClosure capsule closure s = .ok ⟨⟩ (s.addClosure capsule closure) := by
  have missing : s.closures.contains capsule.capsuleId = false := Dict.contains_eq_false.mpr new
  unfold registerClosure
  simp only [bind_apply, get_apply, raiseIf_apply, verified, clean, missing]
  simp

theorem verifyClosure_ids {closure : ClosureProof} (verified : s.verifyClosure capsule closure = true) :
    closure.capsuleId = capsule.capsuleId ∧ closure.predecessorId = capsule.predecessorId ∧
      closure.epoch = capsule.epoch ∧ closure.attempt = capsule.attempt := by
  unfold MosaicProtocol.verifyClosure at verified
  split at verified
  · cases verified
  · rename_i same
    push Not at same
    exact same

/-- An abandon proof is made of the receipts that were handed in. -/
theorem abandon_ok {receipts : List WitnessReceipt} {proof : AbandonProof}
    (unclosed : s.closures.get? capsule.capsuleId = none) (nonempty : receipts ≠ [])
    (heavy : s.threshold ≤ s.weightOfReceipts (s.validReceipts capsule "ABANDON" receipts))
    (made : AbandonProof.create (s.validReceipts capsule "ABANDON" receipts) = .ok proof) :
    abandon capsule receipts s = .ok proof (s.addAbandon capsule proof) := by
  have missing : s.closures.contains capsule.capsuleId = false := Dict.contains_eq_false.mpr unclosed
  have given : receipts.isEmpty = false := by simpa using nonempty
  unfold abandon
  simp only [bind_apply, get_apply, raiseIf_apply, missing, given]
  simp [Nat.not_lt.mpr heavy, made, liftExcept]

@[simp] theorem verifyClosure_addClosure (s : Instance) (capsule : Capsule) (closure : ClosureProof) :
    (s.addClosure capsule closure).verifyClosure = s.verifyClosure := rfl

@[simp] theorem verifyClosure_addAbandon (s : Instance) (capsule : Capsule) (proof : AbandonProof) :
    (s.addAbandon capsule proof).verifyClosure = s.verifyClosure := rfl

/-- A registered closure whose capsule is at the head replaces the seal. -/
theorem apply_installs {closure kept : ClosureProof} {current : StateSeal}
    (verified : s.verifyClosure capsule closure = true) (registered : s.closures.get? capsule.capsuleId = some kept)
    (head : s.headOf capsule = some current) (named : current.sealId = capsule.predecessorId) :
    apply capsule closure s = .ok (nextSeal current capsule) (s.installSeal (nextSeal current capsule)) := by
  obtain ⟨predecessor, known, held⟩ := headOf_parts head
  have contained : s.closures.contains capsule.capsuleId = true := Dict.contains_iff.mpr ⟨kept, registered⟩
  unfold apply
  simp only [bind_apply, get_apply, raiseIf_apply, verified, contained, (verifyClosure_ids verified).1]
  simp only [known, held, named]
  simp [bind_apply]

/-- So does a closure that is not registered yet. -/
theorem apply_registers {closure : ClosureProof} {current : StateSeal}
    (verified : s.verifyClosure capsule closure = true) (clean : s.hasConflictOn capsule.predecessorId = false)
    (new : s.closures.get? capsule.capsuleId = none) (head : s.headOf capsule = some current)
    (named : current.sealId = capsule.predecessorId) :
    apply capsule closure s =
      .ok (nextSeal current capsule) ((s.addClosure capsule closure).installSeal (nextSeal current capsule)) := by
  obtain ⟨predecessor, known, held⟩ := headOf_parts head
  have missing : s.closures.contains capsule.capsuleId = false := Dict.contains_eq_false.mpr new
  unfold apply
  simp only [bind_apply, get_apply, raiseIf_apply, verified, missing, (verifyClosure_ids verified).1]
  simp only [known, held, named]
  simp [bind_apply, registerClosure_ok verified clean new]

end Instance

theorem Call.exec_createResource {s : Instance} {resourceId owner stateRoot secret : String}
    (new : s.currentSeals.get? resourceId = none) :
    (Call.createResource resourceId owner stateRoot secret).exec s =
      s.installSeal ⟨resourceId, s.epoch, 0, stateRoot, digest (.str secret), owner⟩ := by
  have missing : s.currentSeals.contains resourceId = false := Dict.contains_eq_false.mpr new
  refine final_of_ok (a := ⟨resourceId, s.epoch, 0, stateRoot, digest (.str secret), owner⟩) ?_
  unfold Instance.createResource
  simp only [bind_apply, get_apply, raiseIf_apply, missing]
  simp

theorem Call.exec_createCapsule {s : Instance} {client : KeyPair} {predecessor : StateSeal}
    {successorRoot ruleId ruleWitness : String} {attempt : Int} {bundleId : Option String}
    (current : s.currentSeals.get? predecessor.resourceId = some predecessor) (epoch : predecessor.epoch = s.epoch) :
    (Call.createCapsule client predecessor successorRoot ruleId ruleWitness attempt bundleId).exec s =
      s.storeCapsule (.create client predecessor successorRoot ruleId ruleWitness attempt bundleId) := by
  refine final_of_ok (a := .create client predecessor successorRoot ruleId ruleWitness attempt bundleId) ?_
  unfold Instance.createCapsule
  simp only [bind_apply, get_apply, raiseIf_apply, current, epoch]
  simp

/-- A member accepts the capsule: the lock is taken and the receipt is signed. -/
theorem Call.exec_accept {s : Instance} {capsule : Capsule} {memberId : String} {member : Member} {pair : KeyPair}
    (valid : s.Valid capsule) (head : s.AtHead capsule)
    (free : ∀ lock, s.locks.get? capsule.predecessorId = some lock → lock.Released capsule)
    (known : s.members.get? memberId = some member) (loaded : member.keypair = some pair) :
    (Call.witnessReceipt memberId capsule "ACCEPT").exec s =
      (s.setLock capsule "ACCEPT").addSigned (Instance.signedReceipt member pair capsule "ACCEPT") :=
  final_of_ok (Instance.witnessReceipt_ok (Or.inl rfl) valid known loaded
    ((congrFun (if_pos rfl) s).trans (Instance.acceptLock_claims head free)))

theorem Call.exec_conflict {s : Instance} {capsule first : Capsule} {memberId : String} {member : Member} {lock : Lock}
    {evidence : ConflictEvidence} (valid : s.Valid capsule) (head : s.AtHead capsule)
    (locked : s.locks.get? capsule.predecessorId = some lock) (other : ¬ lock.IsFor capsule)
    (refused : ¬ lock.Released capsule) (stored : s.capsules.get? lock.capsuleId = some first)
    (made : ConflictEvidence.create first capsule = .ok evidence) (known : s.members.get? memberId = some member) :
    (Call.witnessReceipt memberId capsule "ACCEPT").exec s = s.addEvidence evidence :=
  final_of_error (Instance.witnessReceipt_raises (Or.inl rfl) valid known
    ((congrFun (if_pos rfl) s).trans (Instance.acceptLock_conflicts head locked other refused stored made)))

theorem Call.exec_release {s : Instance} {capsule : Capsule} {memberId : String} {member : Member} {pair : KeyPair}
    (valid : s.Valid capsule)
    (mine : ∀ lock, s.locks.get? capsule.predecessorId = some lock → lock.IsFor capsule)
    (unclosed : s.closures.get? capsule.capsuleId = none)
    (known : s.members.get? memberId = some member) (loaded : member.keypair = some pair) :
    (Call.witnessReceipt memberId capsule "ABANDON").exec s =
      (s.setLock capsule "ABANDON").addSigned (Instance.signedReceipt member pair capsule "ABANDON") :=
  final_of_ok (Instance.witnessReceipt_ok (Or.inr rfl) valid known loaded
    ((congrFun (if_neg (by decide)) s).trans (Instance.abandonLock_releases mine unclosed)))

theorem Call.exec_registerClosure {s : Instance} {capsule : Capsule} {closure : ClosureProof}
    (verified : s.verifyClosure capsule closure = true) (clean : s.hasConflictOn capsule.predecessorId = false)
    (new : s.closures.get? capsule.capsuleId = none) :
    (Call.registerClosure capsule closure).exec s = s.addClosure capsule closure :=
  final_of_ok (Instance.registerClosure_ok verified clean new)

theorem Call.exec_abandon {s : Instance} {capsule : Capsule} {receipts : List WitnessReceipt} {proof : AbandonProof}
    (unclosed : s.closures.get? capsule.capsuleId = none) (nonempty : receipts ≠ [])
    (heavy : s.threshold ≤ s.weightOfReceipts (s.validReceipts capsule "ABANDON" receipts))
    (made : AbandonProof.create (s.validReceipts capsule "ABANDON" receipts) = .ok proof) :
    (Call.abandon capsule receipts).exec s = s.addAbandon capsule proof :=
  final_of_ok (Instance.abandon_ok unclosed nonempty heavy made)

theorem Call.exec_apply {s : Instance} {capsule : Capsule} {closure kept : ClosureProof} {current : StateSeal}
    (verified : s.verifyClosure capsule closure = true) (registered : s.closures.get? capsule.capsuleId = some kept)
    (head : s.headOf capsule = some current) (named : current.sealId = capsule.predecessorId) :
    (Call.apply capsule closure).exec s = s.installSeal (nextSeal current capsule) :=
  final_of_ok (Instance.apply_installs verified registered head named)

end Mosaic
