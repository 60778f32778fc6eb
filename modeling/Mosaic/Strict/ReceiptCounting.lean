import Mosaic.Strict.Receipts
import Mosaic.Strict.Plain

namespace Mosaic.Strict
open CanonicalJson Effects Instance MosaicProtocol

variable [Crypto] [Texts] [Keyring]

section Voters
variable {s : MosaicProtocol} {capsule : Capsule} {receipts : List WitnessReceipt}

instance (s : MosaicProtocol) (capsule : Capsule) : DecidablePred (Counts s capsule) := fun receipt =>
  decidable_of_iff (((verifyReceipt s receipt).toOption = some true) ∧ receipt.status = "ACCEPT" ∧
    receipt.capsuleId = capsule.capsuleId) (and_congr_left fun _ => by cases verifyReceipt s receipt <;> simp [Except.toOption])

/-- The witnesses of which a valid receipt for the capsule is given. -/
def voters (s : MosaicProtocol) (capsule : Capsule) (receipts : List WitnessReceipt) : Finset String :=
  ((receipts.filter fun receipt => Counts s capsule receipt).map WitnessReceipt.witnessId).toFinset

/-- The voters whose last receipt is a valid one. -/
def lastVoters (s : MosaicProtocol) (capsule : Capsule) (receipts : List WitnessReceipt) : Finset String :=
  (voters s capsule receipts).filter fun w => (lastOf receipts w).any fun receipt => Counts s capsule receipt

theorem mem_voters {w : String} :
    w ∈ voters s capsule receipts ↔ ∃ receipt ∈ receipts, receipt.witnessId = w ∧ Counts s capsule receipt := by
  simp only [voters, List.mem_toFinset, List.mem_map, List.mem_filter, decide_eq_true_eq]
  constructor
  · rintro ⟨receipt, ⟨member, counting⟩, witness⟩
    exact ⟨receipt, member, witness, counting⟩
  · rintro ⟨receipt, member, witness, counting⟩
    exact ⟨receipt, ⟨member, counting⟩, witness⟩

theorem voters_mono {more : List WitnessReceipt} (added : receipts ⊆ more) :
    voters s capsule receipts ⊆ voters s capsule more := by
  intro w member
  obtain ⟨receipt, given, witness, counting⟩ := mem_voters.mp member
  exact mem_voters.mpr ⟨receipt, added given, witness, counting⟩

theorem mem_lastVoters {w : String} :
    w ∈ lastVoters s capsule receipts ↔ ∃ receipt, lastOf receipts w = some receipt ∧ Counts s capsule receipt := by
  simp only [lastVoters, Finset.mem_filter, Option.any_eq_true, decide_eq_true_eq]
  constructor
  · rintro ⟨-, receipt, last, counting⟩
    exact ⟨receipt, last, counting⟩
  · rintro ⟨receipt, last, counting⟩
    obtain ⟨member, witness⟩ := mem_of_lastOf last
    exact ⟨mem_voters.mpr ⟨receipt, member, witness, counting⟩, receipt, last, counting⟩

theorem lastVoters_weigh_le (s : MosaicProtocol) (capsule : Capsule) (receipts : List WitnessReceipt) :
    Quorum.weigh s.weightOf (lastVoters s capsule receipts) ≤ Quorum.weigh s.weightOf (voters s capsule receipts) :=
  Quorum.weigh_mono _ (Finset.filter_subset _ _)

theorem not_heavy_nil (s : MosaicProtocol) (capsule : Capsule) :
    ¬ s.threshold ≤ Quorum.weigh s.weightOf (voters s capsule []) :=
  Nat.not_le.mpr s.threshold_pos

/-- Where every receipt counts, the last ones do. -/
theorem lastVoters_eq_voters (all : ∀ receipt ∈ receipts, Counts s capsule receipt) :
    lastVoters s capsule receipts = voters s capsule receipts := by
  refine Finset.filter_true_of_mem fun w member => ?_
  obtain ⟨given, inList, witness, -⟩ := mem_voters.mp member
  have named : w ∈ (byWitness receipts).keys := by
    rw [byWitness, Dict.mem_keys_ofList, List.map_map]
    exact List.mem_map.mpr ⟨given, inList, witness⟩
  obtain ⟨receipt, found⟩ := Dict.mem_keys.mp named
  rw [← byWitness_get?, found]
  simpa using all receipt (mem_byWitness found).1

/-- The last receipt in the name of each witness can be read. -/
def LastReadable (s : MosaicProtocol) (receipts : List WitnessReceipt) : Prop :=
  ∀ w receipt, lastOf receipts w = some receipt → Readable s receipt

theorem readable_of_counted {status : String} {valid : List WitnessReceipt}
    (counted : countedReceipts s capsule status receipts = .ok valid) : ∀ receipt ∈ receipts, Readable s receipt := by
  induction receipts generalizing valid with
  | nil => exact fun receipt member => (nomatch member)
  | cons receipt receipts ih =>
    obtain ⟨one, first, counted⟩ := except_bind_eq_ok.mp counted
    obtain ⟨rest, later, -⟩ := except_bind_eq_ok.mp counted
    obtain ⟨verified, checked, -⟩ := except_bind_eq_ok.mp first
    refine List.forall_mem_cons.mpr ⟨?_, ih later⟩
    rcases verifyReceipt_cases s receipt with ⟨readable, -⟩ | ⟨-, e, raised⟩
    · exact readable
    · cases raised.symm.trans checked

theorem lastReadable_iff :
    LastReadable s receipts ↔ ∀ receipt ∈ (byWitness receipts).values, Readable s receipt := by
  unfold LastReadable
  simp only [Dict.mem_values, byWitness_get?, forall_exists_index]
  exact forall_comm

theorem validReceipts_of_readable (readable : LastReadable s receipts) :
    validReceipts s capsule "ACCEPT" receipts = .ok (s.validReceipts capsule "ACCEPT" receipts) :=
  countedReceipts_of_readable (lastReadable_iff.mp readable) "ACCEPT"

theorem lastReadable_of_valid {valid : List WitnessReceipt}
    (counted : validReceipts s capsule "ACCEPT" receipts = .ok valid) : LastReadable s receipts :=
  lastReadable_iff.mpr (readable_of_counted counted)

theorem counts_of_mem_valid (readable : LastReadable s receipts) {receipt : WitnessReceipt}
    (member : receipt ∈ s.validReceipts capsule "ACCEPT" receipts) :
    lastOf receipts receipt.witnessId = some receipt ∧ Counts s capsule receipt := by
  obtain ⟨last, counting⟩ := mem_validReceipts.mp member
  exact ⟨last, counts_iff.mpr ⟨readable _ _ last, counting⟩⟩

/-- They weigh what the witnesses weigh whose last receipt is valid. -/
theorem weightOfReceipts_validReceipts (readable : LastReadable s receipts) :
    s.weightOfReceipts (s.validReceipts capsule "ACCEPT" receipts) =
      Quorum.weigh s.weightOf (lastVoters s capsule receipts) := by
  have witnesses : ((s.validReceipts capsule "ACCEPT" receipts).map WitnessReceipt.witnessId).toFinset =
      lastVoters s capsule receipts := by
    ext w
    rw [List.mem_toFinset, List.mem_map, mem_lastVoters]
    constructor
    · rintro ⟨receipt, member, rfl⟩
      exact ⟨receipt, counts_of_mem_valid readable member⟩
    · rintro ⟨receipt, last, counting⟩
      obtain ⟨-, rfl⟩ := mem_of_lastOf last
      exact ⟨receipt, mem_validReceipts.mpr ⟨last, (counts_iff.mp counting).2⟩, rfl⟩
  rw [← witnesses, Quorum.weigh, List.sum_toFinset _ (s.validReceipts_distinct capsule "ACCEPT" receipts), List.map_map]
  rfl

end Voters

variable {s t : Instance} {capsule : Capsule} {receipts : List WitnessReceipt}

/-- What `close` does once it has its receipts. -/
def closeWith (capsule : Capsule) (receipts : List WitnessReceipt) : Py ClosureProof := do
  let s ← get
  let valid ← ofExcept (validReceipts s.toMosaicProtocol capsule "ACCEPT" receipts)
  let weight := s.weightOfReceipts valid
  let threshold := s.threshold
  raiseIf (weight < threshold) (.closureInvalid s!"insufficient closure weight: {weight} < {threshold}")
  raiseIf (s.hasConflictOn capsule.predecessorId) (.closureInvalid "predecessor has conflict evidence")
  let closure ← ofExcept (createdClosure valid)
  registerClosure capsule closure
  return closure

theorem close_eq (capsule : Capsule) (receipts : List WitnessReceipt) :
    close capsule receipts = (do
      validateCapsule capsule
      let receipts ← (if receipts.isEmpty then collectAcceptReceipts capsule else pure receipts)
      closeWith capsule receipts) := rfl

/-- A verified closure on a clean predecessor is registered, or one was before. -/
theorem registerClosure_returns {closure : ClosureProof}
    (verified : verifyClosure s.toMosaicProtocol capsule closure = .ok true)
    (clean : s.hasConflictOn capsule.predecessorId = false) : ∃ t, registerClosure capsule closure s = .ok ⟨⟩ t ∧
      verifyClosure t.toMosaicProtocol capsule closure = .ok true := by
  by_cases contained : s.closures.contains capsule.capsuleId = true
  · refine ⟨s, ?_, verified⟩
    unfold registerClosure
    rw [get_bind_apply, verified, ofExcept_ok_bind, raiseIf_bind_neg (by simp), raiseIf_bind_neg (by simp [clean]),
      if_pos contained]
    rfl
  · refine ⟨_, registerClosure_of_ok verified clean contained, ?_⟩
    rwa [verifyClosure_congr (t := (s.addClosure capsule closure).toMosaicProtocol) (s := s.toMosaicProtocol) rfl rfl rfl]

theorem registerClosure_verified {closure : ClosureProof} {u : PUnit}
    (returned : registerClosure capsule closure s = .ok u t) :
    verifyClosure t.toMosaicProtocol capsule closure = .ok true := by
  unfold registerClosure at returned
  rw [get_bind_apply] at returned
  obtain ⟨verified, checked, returned⟩ := ofExcept_bind_eq_ok.mp returned
  obtain ⟨accepted, returned⟩ := raiseIf_bind_eq_ok returned
  obtain ⟨-, returned⟩ := raiseIf_bind_eq_ok returned
  rw [Bool.not_eq_false] at accepted
  rw [accepted] at checked
  by_cases contained : s.closures.contains capsule.capsuleId = true
  · rw [if_pos contained] at returned
    cases returned
    exact checked
  · rw [if_neg contained] at returned
    cases returned
    rwa [verifyClosure_congr (t := (s.addClosure capsule closure).toMosaicProtocol) (s := s.toMosaicProtocol) rfl rfl rfl]

theorem closeWith_ok (digests : DigestsEncode) (stored : s.capsules.get? capsule.capsuleId = some capsule)
    (clean : s.hasConflictOn capsule.predecessorId = false) (readable : LastReadable s.toMosaicProtocol receipts)
    (heavy : s.threshold ≤ Quorum.weigh s.weightOf (lastVoters s.toMosaicProtocol capsule receipts)) :
    ∃ closure t, closeWith capsule receipts s = .ok closure t ∧
      verifyClosure t.toMosaicProtocol capsule closure = .ok true := by
  rw [← weightOfReceipts_validReceipts readable] at heavy
  have counting : ∀ receipt ∈ s.validReceipts capsule "ACCEPT" receipts, Counts s.toMosaicProtocol capsule receipt :=
    fun receipt member => (counts_of_mem_valid readable member).2
  have nonempty : s.validReceipts capsule "ACCEPT" receipts ≠ [] := by
    intro none
    rw [none] at heavy
    exact absurd heavy (Nat.not_le.mpr s.threshold_pos)
  have made := create_eq_closureOver nonempty fun receipt member => (counts_iff.mp (counting receipt member)).2.alike stored
  rw [← createdClosure_of_encodable digests fun receipt member => (counting receipt member).encodable] at made
  have verified := verifyClosure_of_counts digests stored (s.validReceipts_distinct capsule "ACCEPT" receipts) counting heavy
  obtain ⟨t, registered, kept⟩ := registerClosure_returns verified clean
  refine ⟨_, t, ?_, kept⟩
  unfold closeWith
  rw [get_bind_apply, validReceipts_of_readable readable, ofExcept_ok_bind, raiseIf_bind_neg (Nat.not_lt.mpr heavy),
    raiseIf_bind_neg (by simp [clean]), made, ofExcept_ok_bind]
  exact bind_of_ok registered

theorem closeWith_returns {closure : ClosureProof} (returned : closeWith capsule receipts s = .ok closure t) :
    s.hasConflictOn capsule.predecessorId = false ∧ LastReadable s.toMosaicProtocol receipts ∧
      s.threshold ≤ Quorum.weigh s.weightOf (lastVoters s.toMosaicProtocol capsule receipts) ∧
      verifyClosure t.toMosaicProtocol capsule closure = .ok true := by
  unfold closeWith at returned
  rw [get_bind_apply] at returned
  obtain ⟨valid, counted, returned⟩ := ofExcept_bind_eq_ok.mp returned
  obtain ⟨heavy, returned⟩ := raiseIf_bind_eq_ok returned
  obtain ⟨clean, returned⟩ := raiseIf_bind_eq_ok returned
  obtain ⟨made, -, returned⟩ := ofExcept_bind_eq_ok.mp returned
  obtain ⟨⟨⟩, u, registered, returned⟩ := bind_eq_ok.mp returned
  cases returned
  have readable := lastReadable_of_valid counted
  rw [← validReceipts_ok counted, weightOfReceipts_validReceipts readable] at heavy
  exact ⟨by simpa using clean, readable, not_lt.mp heavy, registerClosure_verified registered⟩

/-- What `validate_capsule` asks of a capsule, and that its signature can be looked at. -/
structure Valid (s : Instance) (capsule : Capsule) : Prop where
  asked : s.Valid capsule
  fine : capsule.unsignedStatement.Encodable

omit [Keyring] in
theorem validateCapsule_iff : validateCapsule capsule s = .ok ⟨⟩ s ↔ Valid s capsule := by
  constructor
  · intro ran
    refine ⟨validateCapsule_guarantees.returns ⟨⟩ s ran, ?_⟩
    unfold validateCapsule at ran
    rw [get_bind_apply] at ran
    cases known : s.knownSeals.get? capsule.predecessorId with
    | none =>
      rw [known] at ran
      cases ran
    | some current =>
      rw [known] at ran
      obtain ⟨-, ran⟩ := raiseIf_bind_eq_ok ran
      obtain ⟨verified, checked, -⟩ := ofExcept_bind_eq_ok.mp ran
      obtain ⟨message, encoded, -⟩ := except_bind_eq_ok.mp checked
      exact (canonicalBytes_eq_ok.mp encoded).1
  · rintro ⟨⟨⟨predecessor, known, epoch⟩, epoch', signature, attempt, root⟩, fine⟩
    have verified : verifyClientSignature capsule = .ok true := by
      refine except_bind_eq_ok.mpr ⟨_, canonicalBytes_eq_ok.mpr ⟨fine, rfl⟩, ?_⟩
      exact congrArg Except.ok signature
    unfold validateCapsule
    rw [get_bind_apply]
    simp only [known]
    rw [raiseIf_bind_neg (by simp [epoch, epoch']), verified, ofExcept_ok_bind, raiseIf_bind_neg (by simp),
      raiseIf_bind_neg (by omega), raiseIf_apply, if_neg root]

/-- The predecessor is current and its lock leaves room for the capsule. -/
structure Admits (s : Instance) (capsule : Capsule) : Prop where
  head : ∃ current, Heads s capsule current
  lock : ∀ lock, s.locks.get? capsule.predecessorId = some lock → lock.IsFor capsule ∨ lock.Released capsule

omit [Keyring] in
theorem Admits.congr (admits : Admits s capsule) (knowns : t.knownSeals = s.knownSeals)
    (currents : t.currentSeals = s.currentSeals) (locks : t.locks = s.locks) : Admits t capsule := by
  obtain ⟨⟨current, head, readable, named⟩, room⟩ := admits
  exact ⟨⟨current, by rwa [headOf, knowns, currents], readable, named⟩, fun lock locked => room lock (locks ▸ locked)⟩

omit [Keyring] in
theorem acceptLock_admitted (admits : Admits s capsule) (stored : s.capsules.get? capsule.capsuleId = some capsule) :
    ∃ locks, acceptLock capsule s = .ok ⟨⟩ { s with locks := locks } ∧
      Admits ({ s with locks := locks } : Instance) capsule := by
  obtain ⟨current, head, readable, named⟩ := admits.head
  obtain ⟨predecessor, known, held⟩ := headOf_parts head
  have read : sealId current = .ok capsule.predecessorId := sealId_eq_ok.mpr ⟨readable, named⟩
  have claimed : Admits { s with locks := s.locks.set capsule.predecessorId ⟨capsule.capsuleId, capsule.attempt, "ACCEPT"⟩ }
      capsule := by
    refine ⟨⟨current, head, readable, named⟩, fun lock locked => ?_⟩
    rw [Dict.get?_set_self] at locked
    cases locked
    exact Or.inl ⟨rfl, rfl⟩
  have same : s.setLock capsule "ACCEPT" =
      { s with locks := s.locks.set capsule.predecessorId ⟨capsule.capsuleId, capsule.attempt, "ACCEPT"⟩ } := by
    rw [setLock, Dict.set_of_get? stored]
  unfold acceptLock lookupKey
  simp only [bind_apply, get_apply, known, held, pure_apply, ofExcept_of_ok read]
  cases locked : s.locks.get? capsule.predecessorId with
  | none =>
    refine ⟨_, ?_, claimed⟩
    simp [bind_apply, raiseIf_apply, same]
  | some lock =>
    rcases admits.lock lock locked with mine | ⟨released, earlier⟩
    · exact ⟨s.locks, by simp [mine.1, mine.2], admits⟩
    · refine ⟨_, ?_, claimed⟩
      have other : ¬ (lock.capsuleId = capsule.capsuleId ∧ lock.attempt = capsule.attempt) := by
        rintro ⟨-, level⟩
        omega
      simp [released, earlier, other, same]

omit [Keyring] in
theorem raiseConflict_raises (first second : Capsule) :
    ∃ e evidence, raiseConflict first second s = .error e { s with conflictEvidence := evidence } := by
  unfold raiseConflict
  cases made : createdEvidence first second with
  | error e => exact ⟨e, s.conflictEvidence, rfl⟩
  | ok evidence => exact ⟨_, s.conflictEvidence.set evidence.evidenceId evidence, rfl⟩

omit [Keyring] in
/-- Where the capsule is not admitted, no member takes the lock for it. -/
theorem acceptLock_refused (valid : Valid s capsule) (refused : ¬ Admits s capsule) :
    ∃ e evidence, acceptLock capsule s = .error e { s with conflictEvidence := evidence } := by
  obtain ⟨predecessor, known, -⟩ := valid.asked.known
  unfold acceptLock lookupKey
  simp only [bind_apply, get_apply, known, pure_apply]
  cases held : s.currentSeals.get? predecessor.resourceId with
  | none => exact ⟨_, s.conflictEvidence, rfl⟩
  | some current =>
    simp only [pure_apply]
    cases read : sealId current with
    | error e => exact ⟨e, s.conflictEvidence, rfl⟩
    | ok currentId =>
      obtain ⟨readable, rfl⟩ := sealId_eq_ok.mp read
      simp only [ofExcept_of_ok rfl]
      have head : current.sealId = capsule.predecessorId → ∃ current, Heads s capsule current :=
        fun named => ⟨current, by rw [headOf, known, Option.bind_some, held], readable, named⟩
      cases locked : s.locks.get? capsule.predecessorId with
      | none =>
        have moved : current.sealId ≠ capsule.predecessorId := by
          intro named
          refine refused ⟨head named, fun lock locked' => ?_⟩
          rw [locked] at locked'
          cases locked'
        exact ⟨.capsuleInvalid "predecessor is not current", s.conflictEvidence,
          by simp [moved, bind_apply, raiseIf_apply]⟩
      | some lock =>
        by_cases named : current.sealId = capsule.predecessorId
        · have other : ¬ (lock.IsFor capsule ∨ lock.Released capsule) := by
            intro room
            refine refused ⟨head named, fun lock' locked' => ?_⟩
            cases Option.some.inj (locked.symm.trans locked')
            exact room
          rw [not_or, Lock.IsFor, Lock.Released] at other
          simp only [named, ne_eq, not_true_eq_false, if_false, if_neg other.1, if_neg other.2]
          cases stored : s.capsules.get? lock.capsuleId with
          | none => exact ⟨_, s.conflictEvidence, rfl⟩
          | some first => exact raiseConflict_raises first capsule
        · simp only [named, ne_eq, not_false_eq_true, if_true]
          split
          · cases stored : s.capsules.get? lock.capsuleId with
            | none => exact ⟨_, s.conflictEvidence, rfl⟩
            | some first => exact raiseConflict_raises first capsule
          · exact ⟨_, s.conflictEvidence, rfl⟩

omit [Keyring] in
theorem witnessReceipt_accept {memberId : String} {member : Member} (valid : Valid s capsule)
    (known : s.members.get? memberId = some member) : witnessReceipt memberId capsule "ACCEPT" s = (do
      acceptLock capsule
      signReceipt member capsule "ACCEPT") s := by
  unfold witnessReceipt
  rw [raiseIf_bind_neg (by simp), bind_of_ok (validateCapsule_iff.mpr valid), bind_of_ok (getMember_ok known)]
  rfl

omit [Keyring] in
theorem signReceipt_of_encodable {member : Member} {pair : KeyPair} (loaded : member.keypair = some pair)
    (fine : (signedReceipt member pair capsule "ACCEPT").statement.Encodable) : signReceipt member capsule "ACCEPT" s =
      .ok (signedReceipt member pair capsule "ACCEPT") (s.addSigned (signedReceipt member pair capsule "ACCEPT")) := by
  have encoded : canonicalBytes (Instance.receiptOf member capsule "ACCEPT").statement = .ok _ := canonicalBytes_eq_ok.mpr ⟨fine, rfl⟩
  unfold signReceipt
  simp only [loaded, encoded]
  rfl

omit [Keyring] in
theorem signReceipt_of_not {member : Member} {pair : KeyPair} (loaded : member.keypair = some pair)
    (bad : ¬ (signedReceipt member pair capsule "ACCEPT").statement.Encodable) :
    signReceipt member capsule "ACCEPT" s = .error .unicodeEncodeError s := by
  have raised : canonicalBytes (Instance.receiptOf member capsule "ACCEPT").statement = .error .unicodeEncodeError := if_neg bad
  unfold signReceipt
  simp only [loaded, raised]
  rfl

/-- The receipt that the member signs here, which can be encoded and looked at. -/
structure Signs (s : Instance) (capsule : Capsule) (memberId : String) (receipt : WitnessReceipt) : Prop where
  own : s.ownReceipt capsule memberId = some receipt
  fine : receipt.statement.Encodable
  readable : Readable s.toMosaicProtocol receipt

omit [Keyring] in
theorem witnessReceipt_admitted {memberId : String} {receipt : WitnessReceipt} (valid : Valid s capsule)
    (admits : Admits s capsule) (stored : s.capsules.get? capsule.capsuleId = some capsule)
    (own : s.ownReceipt capsule memberId = some receipt) (fine : receipt.statement.Encodable) :
    ∃ t, attempt PyError.isConflict (witnessReceipt memberId capsule "ACCEPT") s = .ok (some receipt) t ∧
      s.Witnessed t ∧ Admits t capsule := by
  obtain ⟨member, known, signs⟩ := Option.bind_eq_some_iff.mp own
  obtain ⟨pair, loaded, rfl⟩ := Option.map_eq_some_iff.mp signs
  obtain ⟨locks, settled, admits'⟩ := acceptLock_admitted admits stored
  have signed := signReceipt_of_encodable (s := { s with locks := locks }) loaded fine
  refine ⟨({ s with locks := locks } : Instance).addSigned (signedReceipt member pair capsule "ACCEPT"), ?_,
    ⟨locks, _, rfl⟩, admits'.congr rfl rfl rfl⟩
  rw [attempt, witnessReceipt_accept valid known, bind_of_ok settled, signed]

omit [Keyring] in
/-- A member whose key is not loaded, or whose receipt cannot be encoded, stops the collection. -/
theorem witnessReceipt_unsigned {memberId : String} {member : Member} (valid : Valid s capsule) (admits : Admits s capsule)
    (stored : s.capsules.get? capsule.capsuleId = some capsule) (known : s.members.get? memberId = some member)
    (unsigned : ∀ receipt, s.ownReceipt capsule memberId = some receipt → ¬ receipt.statement.Encodable) :
    ∃ e t, attempt PyError.isConflict (witnessReceipt memberId capsule "ACCEPT") s = .error e t := by
  obtain ⟨locks, settled, -⟩ := acceptLock_admitted admits stored
  rw [attempt, witnessReceipt_accept valid known, bind_of_ok settled]
  cases loaded : member.keypair with
  | none =>
    refine ⟨.mosaicError "validator private key is not loaded on this node", { s with locks := locks }, ?_⟩
    rw [signReceipt, loaded]
    rfl
  | some pair =>
    have bad := unsigned (signedReceipt member pair capsule "ACCEPT") (by rw [ownReceipt, known, Option.bind_some, loaded]; rfl)
    refine ⟨.unicodeEncodeError, { s with locks := locks }, ?_⟩
    rw [signReceipt_of_not loaded bad]
    rfl

omit [Keyring] in
theorem Valid.witnessed (valid : Valid s capsule) (witnessed : s.Witnessed t) : Valid t capsule := by
  obtain ⟨locks, signed, rfl⟩ := witnessed
  exact ⟨⟨valid.asked.1, valid.asked.2, valid.asked.3, valid.asked.4, valid.asked.5⟩, valid.fine⟩

theorem collectFrom_admitted {memberIds : List String} (valid : Valid s capsule) (admits : Admits s capsule)
    (stored : s.capsules.get? capsule.capsuleId = some capsule)
    (signs : ∀ memberId ∈ memberIds, ∃ receipt, Signs s capsule memberId receipt) :
    ∃ t, collectFrom capsule "ACCEPT" PyError.isConflict memberIds s =
      .ok ((memberIds.filterMap (s.ownReceipt capsule)).filter s.verifyReceipt) t ∧ s.Witnessed t := by
  induction memberIds generalizing s with
  | nil => exact ⟨s, rfl, s.locks, s.signed, rfl⟩
  | cons memberId memberIds ih =>
    obtain ⟨receipt, own, fine, readable⟩ := signs memberId List.mem_cons_self
    obtain ⟨u, attempted, ⟨locks, history, rfl⟩, admits'⟩ := witnessReceipt_admitted valid admits stored own fine
    have later : ∀ id ∈ memberIds, ∃ receipt, Signs { s with locks := locks, signed := history } capsule id receipt := by
      intro id member
      obtain ⟨receipt, own, fine, readable⟩ := signs id (List.mem_cons_of_mem memberId member)
      exact ⟨receipt, own, fine, readable⟩
    obtain ⟨t, rest, locks', history', rfl⟩ := ih (s := { s with locks := locks, signed := history })
      (valid.witnessed ⟨locks, history, rfl⟩) admits' stored later
    refine ⟨_, ?_, locks', history', rfl⟩
    have checked : verifyReceipt { s.toMosaicProtocol with locks := locks } receipt = .ok (s.verifyReceipt receipt) :=
      verifyReceipt_of_readable readable
    unfold collectFrom
    rw [bind_of_ok attempted, List.filterMap_cons_some own, List.filter_cons]
    dsimp only
    rw [get_bind_apply, checked, ofExcept_ok_bind, bind_of_ok rest]
    rfl

theorem collectFrom_unsigned {memberIds : List String} (valid : Valid s capsule) (admits : Admits s capsule)
    (stored : s.capsules.get? capsule.capsuleId = some capsule)
    (known : ∀ memberId ∈ memberIds, ∃ member, s.members.get? memberId = some member)
    (unsigned : ∃ memberId ∈ memberIds, ¬ ∃ receipt, Signs s capsule memberId receipt) :
    ∃ e t, collectFrom capsule "ACCEPT" PyError.isConflict memberIds s = .error e t := by
  induction memberIds generalizing s with
  | nil =>
    obtain ⟨memberId, none, -⟩ := unsigned
    cases none
  | cons memberId memberIds ih =>
    unfold collectFrom
    by_cases fine : ∃ receipt, s.ownReceipt capsule memberId = some receipt ∧ receipt.statement.Encodable
    swap
    · obtain ⟨member, here⟩ := known memberId List.mem_cons_self
      obtain ⟨e, t, raised⟩ := witnessReceipt_unsigned valid admits stored here
        fun receipt own encodes => fine ⟨receipt, own, encodes⟩
      exact ⟨e, t, bind_of_error raised⟩
    obtain ⟨receipt, own, fine⟩ := fine
    obtain ⟨u, attempted, ⟨locks, history, rfl⟩, admits'⟩ := witnessReceipt_admitted valid admits stored own fine
    rw [bind_of_ok attempted]
    dsimp only
    rw [get_bind_apply]
    rcases verifyReceipt_cases { s.toMosaicProtocol with locks := locks } receipt with ⟨readable, checked⟩ | ⟨-, e, raised⟩
    swap
    · exact ⟨e, _, by rw [raised]; rfl⟩
    rw [checked, ofExcept_ok_bind]
    have later : ∃ id ∈ memberIds,
        ¬ ∃ receipt, Signs { s with locks := locks, signed := history } capsule id receipt := by
      obtain ⟨id, member, missing⟩ := unsigned
      rcases List.mem_cons.mp member with rfl | later
      · exact absurd ⟨receipt, own, fine, readable⟩ missing
      · refine ⟨id, later, fun signs => missing ?_⟩
        obtain ⟨other, own, fine, readable⟩ := signs
        exact ⟨other, own, fine, readable⟩
    obtain ⟨e, t, raised⟩ := ih (s := { s with locks := locks, signed := history })
      (valid.witnessed ⟨locks, history, rfl⟩) admits' stored
      (fun id member => known id (List.mem_cons_of_mem memberId member)) later
    exact ⟨e, t, bind_of_error raised⟩

theorem collectFrom_refused {memberIds : List String} {collected : List WitnessReceipt} (valid : Valid s capsule)
    (refused : ¬ Admits s capsule)
    (known : ∀ memberId ∈ memberIds, ∃ member, s.members.get? memberId = some member)
    (returned : collectFrom capsule "ACCEPT" PyError.isConflict memberIds s = .ok collected t) : collected = [] := by
  induction memberIds generalizing s collected t with
  | nil =>
    cases returned
    rfl
  | cons memberId memberIds ih =>
    obtain ⟨member, here⟩ := known memberId List.mem_cons_self
    obtain ⟨e, evidence, settled⟩ := acceptLock_refused valid refused
    have raised : witnessReceipt memberId capsule "ACCEPT" s = .error e { s with conflictEvidence := evidence } := by
      rw [witnessReceipt_accept valid here, bind_of_error settled]
    unfold collectFrom at returned
    by_cases caught : PyError.isConflict e = true
    · have attempted : attempt PyError.isConflict (witnessReceipt memberId capsule "ACCEPT") s =
          .ok none { s with conflictEvidence := evidence } := by
        rw [attempt, raised]
        exact if_pos caught
      rw [bind_of_ok attempted] at returned
      exact ih (s := { s with conflictEvidence := evidence })
        ⟨⟨valid.asked.1, valid.asked.2, valid.asked.3, valid.asked.4, valid.asked.5⟩, valid.fine⟩
        (fun admits => refused (admits.congr rfl rfl rfl))
        (fun id member => known id (List.mem_cons_of_mem memberId member)) returned
    · have attempted : attempt PyError.isConflict (witnessReceipt memberId capsule "ACCEPT") s =
          .error e { s with conflictEvidence := evidence } := by
        rw [attempt, raised]
        exact if_neg caught
      rw [bind_of_error attempted] at returned
      cases returned

/-- `close` returns a closure that verifies. -/
def Closes (s : Instance) (capsule : Capsule) (receipts : List WitnessReceipt) : Prop :=
  ∃ closure t, close capsule receipts s = .ok closure t ∧ verifyClosure t.toMosaicProtocol capsule closure = .ok true

/-- The members of the instance can close the capsule among themselves. -/
structure ClosesItself (s : Instance) (capsule : Capsule) : Prop where
  admits : Admits s capsule
  signs : ∀ memberId ∈ s.members.keys, ∃ receipt, Signs s capsule memberId receipt
  heavy : s.threshold ≤ Quorum.weigh s.weightOf (voters s.toMosaicProtocol capsule (s.ownReceipts capsule))

/-- A call that returns has found its closure to verify. -/
theorem close_verifies {closure : ClosureProof} (returned : close capsule receipts s = .ok closure t) :
    verifyClosure t.toMosaicProtocol capsule closure = .ok true := by
  rw [close_eq] at returned
  obtain ⟨-, u, -, returned⟩ := bind_eq_ok.mp returned
  obtain ⟨collected, v, -, returned⟩ := bind_eq_ok.mp returned
  exact (closeWith_returns returned).2.2.2

theorem closes_iff_of_given (digests : DigestsEncode) (valid : Valid s capsule)
    (stored : s.capsules.get? capsule.capsuleId = some capsule) (given : receipts ≠ []) : Closes s capsule receipts ↔
      s.hasConflictOn capsule.predecessorId = false ∧ LastReadable s.toMosaicProtocol receipts ∧
        s.threshold ≤ Quorum.weigh s.weightOf (lastVoters s.toMosaicProtocol capsule receipts) := by
  have start : close capsule receipts s = closeWith capsule receipts s := by
    rw [close_eq, bind_of_ok (validateCapsule_iff.mpr valid), if_neg (by simpa using given)]
    exact bind_of_ok rfl
  unfold Closes
  rw [start]
  constructor
  · rintro ⟨closure, t, returned, -⟩
    obtain ⟨clean, readable, heavy, -⟩ := closeWith_returns returned
    exact ⟨clean, readable, heavy⟩
  · rintro ⟨clean, readable, heavy⟩
    exact closeWith_ok digests stored clean readable heavy

/-- The receipts that are collected are those of the members' own that verify. -/
theorem lastVoters_collected (s : Instance) (capsule : Capsule)
    (readable : ∀ receipt ∈ s.ownReceipts capsule, Readable s.toMosaicProtocol receipt) :
    lastVoters s.toMosaicProtocol capsule ((s.ownReceipts capsule).filter s.verifyReceipt) =
      voters s.toMosaicProtocol capsule (s.ownReceipts capsule) := by
  have counting : ∀ receipt ∈ s.ownReceipts capsule, s.verifyReceipt receipt = true →
      Counts s.toMosaicProtocol capsule receipt := by
    intro receipt member verified
    obtain ⟨memberId, -, own⟩ := List.mem_filterMap.mp member
    obtain ⟨m, known, signs⟩ := Option.bind_eq_some_iff.mp own
    obtain ⟨pair, loaded, rfl⟩ := Option.map_eq_some_iff.mp signs
    exact counts_iff.mpr ⟨readable _ member, verified, rfl, rfl⟩
  rw [lastVoters_eq_voters]
  · ext w
    simp only [mem_voters, List.mem_filter]
    constructor
    · rintro ⟨receipt, ⟨member, -⟩, witness, valid⟩
      exact ⟨receipt, member, witness, valid⟩
    · rintro ⟨receipt, member, witness, valid⟩
      exact ⟨receipt, ⟨member, (counts_iff.mp valid).2.1⟩, witness, valid⟩
  · intro receipt member
    obtain ⟨own, verified⟩ := List.mem_filter.mp member
    exact counting receipt own verified

theorem Signs.readable_own (signs : ∀ memberId ∈ s.members.keys, ∃ receipt, Signs s capsule memberId receipt) :
    ∀ receipt ∈ s.ownReceipts capsule, Readable s.toMosaicProtocol receipt := by
  intro receipt member
  obtain ⟨memberId, inKeys, own⟩ := List.mem_filterMap.mp member
  obtain ⟨other, own', -, readable⟩ := signs memberId ((sortedBy_perm id s.members.keys).mem_iff.mp inKeys)
  cases Option.some.inj (own'.symm.trans own)
  exact readable

theorem closes_iff_of_none (digests : DigestsEncode) (valid : Valid s capsule)
    (stored : s.capsules.get? capsule.capsuleId = some capsule) :
    Closes s capsule [] ↔ s.hasConflictOn capsule.predecessorId = false ∧ ClosesItself s capsule := by
  have start : close capsule [] s = (do
      let receipts ← collectFrom capsule "ACCEPT" PyError.isConflict (sorted s.members.keys)
      closeWith capsule receipts) s := by
    rw [close_eq, bind_of_ok (validateCapsule_iff.mpr valid)]
    rfl
  have members : ∀ memberId, memberId ∈ sorted s.members.keys ↔ memberId ∈ s.members.keys :=
    fun _ => (sortedBy_perm id s.members.keys).mem_iff
  have known : ∀ memberId ∈ sorted s.members.keys, ∃ member, s.members.get? memberId = some member :=
    fun memberId member => Dict.mem_keys.mp ((members memberId).mp member)
  unfold Closes
  rw [start]
  constructor
  · rintro ⟨closure, t, returned, -⟩
    obtain ⟨collected, u, ran, returned⟩ := bind_eq_ok.mp returned
    obtain ⟨clean, -, heavy, -⟩ := closeWith_returns returned
    by_cases admits : Admits s capsule
    · by_cases unsigned : ∃ memberId ∈ sorted s.members.keys, ¬ ∃ receipt, Signs s capsule memberId receipt
      · obtain ⟨e, v, raised⟩ := collectFrom_unsigned valid admits stored known unsigned
        cases raised.symm.trans ran
      · push Not at unsigned
        have signs : ∀ memberId ∈ s.members.keys, ∃ receipt, Signs s capsule memberId receipt :=
          fun memberId member => unsigned memberId ((members memberId).mpr member)
        obtain ⟨v, collects, locks, history, rfl⟩ := collectFrom_admitted valid admits stored unsigned
        cases collects.symm.trans ran
        refine ⟨clean, admits, signs, ?_⟩
        rw [← lastVoters_collected s capsule (Signs.readable_own signs)]
        exact heavy
    · cases collectFrom_refused valid admits known ran
      exact absurd (heavy.trans (lastVoters_weigh_le _ _ _)) (not_heavy_nil _ capsule)
  · rintro ⟨clean, admits, signs, heavy⟩
    obtain ⟨u, collects, locks, history, rfl⟩ := collectFrom_admitted valid admits stored
      fun memberId member => signs memberId ((members memberId).mp member)
    have readable := Signs.readable_own signs
    rw [← lastVoters_collected s capsule readable] at heavy
    have last : LastReadable s.toMosaicProtocol ((s.ownReceipts capsule).filter s.verifyReceipt) :=
      fun w receipt found => readable receipt (List.mem_of_mem_filter (mem_of_lastOf found).1)
    obtain ⟨closure, t, returned, verified⟩ :=
      closeWith_ok (s := { s with locks := locks, signed := history }) digests stored clean last heavy
    exact ⟨closure, t, (bind_of_ok collects).trans returned, verified⟩

/-- Exactly the witnesses with a valid receipt decide whether the capsule closes;
where it does not, the call raises. -/
structure VotersDecide (s : Instance) (capsule : Capsule) (receipts : List WitnessReceipt) : Prop where
  closes : Closes s capsule receipts ↔ s.hasConflictOn capsule.predecessorId = false ∧
    s.threshold ≤ Quorum.weigh s.weightOf (voters s.toMosaicProtocol capsule receipts)
  raises : ¬ Closes s capsule receipts → ∃ e t, close capsule receipts s = .error e t

/-- The predecessor is contested, or the last receipts of the witnesses can be read and carry
what the valid ones do; with no receipts at all, the members do not close the capsule among
themselves. -/
def LastReceiptsCarry (s : Instance) (capsule : Capsule) (receipts : List WitnessReceipt) : Prop :=
  s.hasConflictOn capsule.predecessorId = true ∨
    if receipts = [] then ¬ ClosesItself s capsule
    else s.threshold ≤ Quorum.weigh s.weightOf (voters s.toMosaicProtocol capsule receipts) →
      LastReadable s.toMosaicProtocol receipts ∧
        s.threshold ≤ Quorum.weigh s.weightOf (lastVoters s.toMosaicProtocol capsule receipts)

theorem votersDecide_iff (digests : DigestsEncode) (valid : Valid s capsule)
    (stored : s.capsules.get? capsule.capsuleId = some capsule) (receipts : List WitnessReceipt) :
    VotersDecide s capsule receipts ↔ LastReceiptsCarry s capsule receipts := by
  have raises : ¬ Closes s capsule receipts → ∃ e t, close capsule receipts s = .error e t := by
    intro open_
    exact error_of_not_ok fun closure t returned => open_ ⟨closure, t, returned, close_verifies returned⟩
  have law : VotersDecide s capsule receipts ↔ (Closes s capsule receipts ↔
      s.hasConflictOn capsule.predecessorId = false ∧
        s.threshold ≤ Quorum.weigh s.weightOf (voters s.toMosaicProtocol capsule receipts)) :=
    ⟨fun decided => decided.closes, fun closes => ⟨closes, raises⟩⟩
  have bound := lastVoters_weigh_le s.toMosaicProtocol capsule receipts
  rw [law, LastReceiptsCarry]
  by_cases none : receipts = []
  · subst none
    have light := not_heavy_nil s.toMosaicProtocol capsule
    rw [closes_iff_of_none digests valid stored, if_pos rfl]
    cases s.hasConflictOn capsule.predecessorId <;> simp [light]
  · rw [closes_iff_of_given digests valid stored none, if_neg none]
    cases s.hasConflictOn capsule.predecessorId
    · simp only [true_and, Bool.false_eq_true, false_or]
      constructor
      · exact fun same => same.mpr
      · exact fun carry => ⟨fun both => both.2.trans bound, carry⟩
    · simp

/-- Two tuples of receipts, the second with all the receipts of the first: closing
goes by the valid receipts in both, and what the first closes the second does. -/
structure ClosingByReceipts (s : Instance) (capsule : Capsule) (receipts more : List WitnessReceipt) : Prop where
  first : VotersDecide s capsule receipts
  second : VotersDecide s capsule more
  grows : Closes s capsule receipts → Closes s capsule more

/-- Closing goes by the valid receipts where the last receipts can be read and carry what they do. -/
theorem closing_by_receipts_iff (digests : DigestsEncode) (validated : validateCapsule capsule s = .ok ⟨⟩ s)
    (stored : s.capsules.get? capsule.capsuleId = some capsule) {receipts more : List WitnessReceipt}
    (added : receipts ⊆ more) : ClosingByReceipts s capsule receipts more ↔
      LastReceiptsCarry s capsule receipts ∧ LastReceiptsCarry s capsule more := by
  have valid := validateCapsule_iff.mp validated
  rw [← votersDecide_iff digests valid stored, ← votersDecide_iff digests valid stored]
  constructor
  · rintro ⟨first, second, -⟩
    exact ⟨first, second⟩
  · rintro ⟨first, second⟩
    refine ⟨first, second, fun closed => second.closes.mpr ?_⟩
    obtain ⟨clean, heavy⟩ := first.closes.mp closed
    exact ⟨clean, heavy.trans (Quorum.weigh_mono _ (voters_mono added))⟩

section Solo
variable (pair : KeyPair) (texts : AllEncode) (keys : AllKeyed)

omit texts keys in
/-- In every reachable instance a stored capsule that is valid is closed by its valid
receipts, and more receipts do no harm. -/
def ReceiptsDecide : Prop :=
  ∀ (members : Dict String Member) (epoch : Int) (s : Instance), Run (fun _ _ => True) (.fresh members epoch) s →
    ∀ capsule : Capsule, s.capsules.get? capsule.capsuleId = some capsule → validateCapsule capsule s = .ok ⟨⟩ s →
    ∀ receipts more : List WitnessReceipt, receipts ⊆ more → ClosingByReceipts s capsule receipts more

include texts keys

theorem lastReadable_plain (s : MosaicProtocol) (receipts : List WitnessReceipt) : LastReadable s receipts :=
  fun _ receipt _ => readable_plain texts keys s receipt

theorem givenReceipt_counted (sound : SignaturesVerify) :
    Counts (afterAccept pair).toMosaicProtocol (acceptedCapsule pair) (givenReceipt pair) :=
  counts_iff.mpr ⟨readable_plain texts keys _ _, givenReceipt_counts pair sound⟩

theorem givenReceipt_carries (sound : SignaturesVerify) {receipts : List WitnessReceipt}
    (last : lastOf receipts "w" = some (givenReceipt pair)) :
    LastReceiptsCarry (afterAccept pair) (acceptedCapsule pair) receipts := by
  have given : receipts ≠ [] := by
    rintro rfl
    cases last
  refine Or.inr ?_
  rw [if_neg given]
  refine fun _ => ⟨lastReadable_plain texts keys _ _, ?_⟩
  exact afterAccept_heavy pair sound (mem_lastVoters.mpr ⟨_, last, givenReceipt_counted pair texts keys sound⟩)

omit [Keyring] keys in
theorem acceptedCapsule_validated (sound : SignaturesVerify) :
    validateCapsule (acceptedCapsule pair) (afterAccept pair) = .ok ⟨⟩ (afterAccept pair) :=
  validateCapsule_iff.mpr ⟨afterAccept_valid pair sound, fun text _ => texts text⟩

/-- The receipt without its signature displaces the valid one. -/
theorem unsignedReceipt_displaces (sound : SignaturesVerify)
    (unsigned : ∀ message, KeyPair.verify pair.publicKey message [] = false) : ¬ ReceiptsDecide := by
  intro claimed
  have stored := afterAccept_stored pair sound
  have validated := acceptedCapsule_validated pair texts sound
  have run := Run.of_plain texts keys (afterAccept_run pair)
  obtain ⟨first, second, grows⟩ := claimed _ _ _ run _ stored validated [givenReceipt pair]
    [givenReceipt pair, unsignedReceipt pair] (by simp)
  have voter : "w" ∈ voters (afterAccept pair).toMosaicProtocol (acceptedCapsule pair) [givenReceipt pair] :=
    mem_voters.mpr ⟨_, List.mem_singleton_self _, rfl, givenReceipt_counted pair texts keys sound⟩
  have closed := grows (first.closes.mpr ⟨afterAccept_clean pair sound, afterAccept_heavy pair sound voter⟩)
  obtain ⟨-, -, heavy⟩ := (closes_iff_of_given (fun _ => texts _) (validateCapsule_iff.mp validated) stored
    (by simp)).mp closed
  have none : lastVoters (afterAccept pair).toMosaicProtocol (acceptedCapsule pair)
      [givenReceipt pair, unsignedReceipt pair] = ∅ := by
    refine Finset.eq_empty_of_forall_notMem fun w member => ?_
    obtain ⟨receipt, last, counting⟩ := mem_lastVoters.mp member
    obtain ⟨inList, witness⟩ := mem_of_lastOf last
    have named : w = "w" := by
      rcases List.mem_pair.mp inList with rfl | rfl
      · exact witness.symm
      · exact witness.symm
    subst named
    have forged : receipt = unsignedReceipt pair := (Option.some.inj last).symm
    subst forged
    obtain ⟨m, found, parts⟩ := verifyReceipt_iff.mp (counts_iff.mp counting).2.1
    cases (afterAccept_ready pair sound).member.symm.trans parts.known
    cases (unsigned _).symm.trans parts.signature
  rw [none] at heavy
  exact absurd heavy (Nat.not_le.mpr (afterAccept pair).threshold_pos)

end Solo

omit [Crypto] [Texts] [Keyring] in
/-- One receipt, and the same receipt twice. -/
theorem closing_by_receipts_solo : let _ := Crypto.ideal
    let _ := Texts.all
    let _ := Keyring.all
    ClosingByReceipts (afterAccept idealKey) (acceptedCapsule idealKey) [givenReceipt idealKey]
      [givenReceipt idealKey, givenReceipt idealKey] := by
  intro _ _ _
  have sound := ideal_signaturesVerify
  have texts : AllEncode := fun _ => rfl
  have keys : AllKeyed := fun _ => rfl
  have once : LastReceiptsCarry (afterAccept idealKey) (acceptedCapsule idealKey) [givenReceipt idealKey] :=
    givenReceipt_carries idealKey texts keys sound rfl
  have twice : LastReceiptsCarry (afterAccept idealKey) (acceptedCapsule idealKey)
      [givenReceipt idealKey, givenReceipt idealKey] := givenReceipt_carries idealKey texts keys sound rfl
  exact (closing_by_receipts_iff ideal_digestsEncode (acceptedCapsule_validated idealKey texts sound)
    (afterAccept_stored idealKey sound) (by simp)).mpr ⟨once, twice⟩

omit [Crypto] [Texts] [Keyring] in
/-- Adding a forged receipt turns a success into a failure. -/
theorem receipts_displaced : ¬ ∀ [Crypto] [Texts] [Keyring], CollisionFree → SignaturesVerify → DigestsEncode →
    ReceiptsDecide := by
  intro claimed
  let crypto := Crypto.ideal
  let allTexts := Texts.all
  let allKeys := Keyring.all
  exact unsignedReceipt_displaces idealKey (fun _ => rfl) (fun _ => rfl) ideal_signaturesVerify (fun _ => rfl)
    (claimed ideal_collisionFree ideal_signaturesVerify ideal_digestsEncode)

end Mosaic.Strict
