import Mosaic.Success
import Mosaic.Lib.Quorum

namespace Mosaic
open CanonicalJson Effects

variable [Crypto]

namespace MosaicProtocol

variable {s : MosaicProtocol} {capsule : Capsule} {closure : ClosureProof}

/-- What `verify_receipt` compares with the capsule that is stored under the
identifier in the receipt. -/
structure ReceiptOf (s : MosaicProtocol) (receipt : WitnessReceipt) (member : Member) (stored : Capsule) : Prop where
  known : s.members.get? receipt.witnessId = some member
  found : s.capsules.get? receipt.capsuleId = some stored
  predecessor : receipt.predecessorId = stored.predecessorId
  epoch : receipt.epoch = stored.epoch
  current : stored.epoch = s.epoch
  attempt : receipt.attempt = stored.attempt
  signature : KeyPair.verify member.publicKey (canonicalBytes receipt.statement) receipt.signature = true

theorem verifyReceipt_iff {receipt : WitnessReceipt} :
    s.verifyReceipt receipt = true ↔ ∃ member stored, s.ReceiptOf receipt member stored := by
  unfold verifyReceipt
  constructor
  · intro verified
    split at verified
    · rename_i member stored known found
      simp only [Bool.and_eq_true, decide_eq_true_eq] at verified
      obtain ⟨⟨⟨predecessor, epoch, current⟩, attempt⟩, signature⟩ := verified
      exact ⟨member, stored, known, found, predecessor, epoch, current, attempt, signature⟩
    · cases verified
  · rintro ⟨member, stored, known, found, predecessor, epoch, current, attempt, signature⟩
    rw [known, found]
    simp [predecessor, epoch, current, attempt, signature]

omit [Crypto] in
theorem mem_byWitness {receipts : List WitnessReceipt} {receipt : WitnessReceipt} {w : String}
    (found : (byWitness receipts).get? w = some receipt) : receipt ∈ receipts ∧ receipt.witnessId = w := by
  obtain ⟨r, member, same⟩ := List.mem_map.mp (Dict.mem_of_get?_ofList found)
  cases same
  exact ⟨member, rfl⟩

omit [Crypto] in
/-- One receipt for each witness: the dictionary keeps them in their order. -/
theorem byWitness_values {receipts : List WitnessReceipt}
    (distinct : (receipts.map WitnessReceipt.witnessId).Nodup) :
    (byWitness receipts).values = receipts ∧ (byWitness receipts).keys = receipts.map WitnessReceipt.witnessId := by
  have entries : (byWitness receipts).entries = receipts.map fun receipt => (receipt.witnessId, receipt) :=
    Dict.entries_ofList (by rwa [List.map_map])
  constructor
  · rw [Dict.values, entries, List.map_map]
    exact List.map_id _
  · rw [Dict.keys, entries, List.map_map]
    rfl

/-- A receipt that counts towards a closure of the capsule. -/
def Counts (s : MosaicProtocol) (capsule : Capsule) (receipt : WitnessReceipt) : Prop :=
  s.verifyReceipt receipt = true ∧ receipt.status = "ACCEPT" ∧ receipt.capsuleId = capsule.capsuleId

/-- The identifier that a closure of the capsule by these receipts has. -/
def closureId (capsule : Capsule) (receipts : List WitnessReceipt) : String :=
  digest (proofStatement closureLabel capsule.capsuleId capsule.predecessorId capsule.epoch capsule.attempt
    ((sortedBy WitnessReceipt.witnessId receipts).map WitnessReceipt.receiptId))

structure Accepts (s : MosaicProtocol) (capsule : Capsule) (closure : ClosureProof) : Prop where
  capsuleId : closure.capsuleId = capsule.capsuleId
  predecessor : closure.predecessorId = capsule.predecessorId
  epoch : closure.epoch = capsule.epoch
  attempt : closure.attempt = capsule.attempt
  signers : sorted (byWitness closure.receipts).keys = sorted closure.signerIds
  valid : ∀ receipt ∈ (byWitness closure.receipts).values, s.Counts capsule receipt
  heavy : s.threshold ≤ ((byWitness closure.receipts).keys.map s.weightOf).sum
  proof : closureId capsule (byWitness closure.receipts).values = closure.proofId

theorem verifyClosure_iff : s.verifyClosure capsule closure = true ↔ s.Accepts capsule closure := by
  unfold verifyClosure
  constructor
  · intro verified
    split at verified
    · cases verified
    rename_i same
    dsimp only at verified
    split at verified
    · cases verified
    rename_i signers
    push Not at same signers
    simp only [Bool.and_eq_true, List.all_eq_true, decide_eq_true_eq] at verified
    obtain ⟨⟨valid, heavy⟩, proof⟩ := verified
    exact ⟨same.1, same.2.1, same.2.2.1, same.2.2.2, signers,
      fun receipt member => ⟨(valid receipt member).1.1, (valid receipt member).1.2, (valid receipt member).2⟩,
      heavy, proof⟩
  · rintro ⟨capsuleId, predecessor, epoch, attempt, signers, valid, heavy, proof⟩
    rw [if_neg (by simp [capsuleId, predecessor, epoch, attempt])]
    simp only [signers, ne_eq, not_true_eq_false, if_false, Bool.and_eq_true, List.all_eq_true, decide_eq_true_eq]
    exact ⟨⟨fun receipt member => ⟨⟨(valid receipt member).1, (valid receipt member).2.1⟩,
      (valid receipt member).2.2⟩, heavy⟩, proof⟩

theorem Accepts.receipt {w : String} (accepted : s.Accepts capsule closure)
    (member : w ∈ (byWitness closure.receipts).keys) :
    ∃ receipt ∈ closure.receipts, receipt.witnessId = w ∧ s.Counts capsule receipt := by
  obtain ⟨receipt, found⟩ := Dict.mem_keys.mp member
  obtain ⟨inList, witness⟩ := mem_byWitness found
  exact ⟨receipt, inList, witness, accepted.valid receipt (Dict.mem_values_of_get? found)⟩

theorem totalWeight_eq (s : MosaicProtocol) : s.totalWeight = Quorum.weigh s.weightOf s.members.keys.toFinset := by
  have weights : s.members.values.map Member.weight = s.members.keys.map s.weightOf := by
    simp only [Dict.values, Dict.keys, List.map_map]
    refine List.map_congr_left fun entry member => ?_
    have found : s.members.get? entry.1 = some entry.2 := (Dict.get?_eq_some_iff _).mpr member
    simp [weightOf, found]
  rw [totalWeight, weights, Quorum.weigh, ← List.sum_toFinset _ s.members.keys_nodup]

theorem threshold_pos (s : MosaicProtocol) : 0 < s.threshold := Nat.succ_pos _

/-- The signers of an accepted closure are a quorum of the members. -/
theorem Accepts.quorum (accepted : s.Accepts capsule closure) :
    (byWitness closure.receipts).keys.toFinset ⊆ s.members.keys.toFinset ∧
      2 * Quorum.weigh s.weightOf s.members.keys.toFinset <
        3 * Quorum.weigh s.weightOf (byWitness closure.receipts).keys.toFinset := by
  constructor
  · intro w member
    rw [List.mem_toFinset] at member ⊢
    obtain ⟨receipt, -, rfl, verified, -⟩ := accepted.receipt member
    obtain ⟨m, stored, valid⟩ := verifyReceipt_iff.mp verified
    exact Dict.mem_keys.mpr ⟨m, valid.known⟩
  · have heavy := accepted.heavy
    rw [← List.sum_toFinset _ (Dict.keys_nodup _), threshold, totalWeight_eq] at heavy
    exact Quorum.two_thirds_iff.mp heavy

/-- The closure of the capsule by these receipts. -/
def closureOver (capsule : Capsule) (receipts : List WitnessReceipt) : ClosureProof :=
  let ordered := sortedBy WitnessReceipt.witnessId receipts
  { capsuleId := capsule.capsuleId
    predecessorId := capsule.predecessorId
    epoch := capsule.epoch
    attempt := capsule.attempt
    signerIds := ordered.map WitnessReceipt.witnessId
    receipts := ordered
    proofId := closureId capsule receipts }

/-- Enough receipts that count, one for each witness, close the capsule. -/
theorem accepts_closureOver {receipts : List WitnessReceipt}
    (distinct : (receipts.map WitnessReceipt.witnessId).Nodup)
    (valid : ∀ receipt ∈ receipts, s.Counts capsule receipt) (heavy : s.threshold ≤ s.weightOfReceipts receipts) :
    s.Accepts capsule (closureOver capsule receipts) := by
  have perm := sortedBy_perm WitnessReceipt.witnessId receipts
  have distinct' := (perm.map WitnessReceipt.witnessId).nodup_iff.mpr distinct
  obtain ⟨values, keys⟩ := byWitness_values distinct'
  refine ⟨rfl, rfl, rfl, rfl, ?_, ?_, ?_, ?_⟩
  · simp only [closureOver, keys]
  · simp only [closureOver, values]
    exact fun receipt member => valid receipt (perm.mem_iff.mp member)
  · simp only [closureOver, keys, List.map_map]
    refine heavy.trans_eq ?_
    exact ((perm.map fun receipt => s.weightOf receipt.witnessId).sum_eq).symm
  · simp only [closureOver, values, closureId, sortedBy_sortedBy]

/-- `ClosureProof.create` makes that closure of any receipts for the capsule. -/
theorem create_eq_closureOver {receipts : List WitnessReceipt} (nonempty : receipts ≠ [])
    (alike : ∀ receipt ∈ receipts, receipt.status = "ACCEPT" ∧ receipt.capsuleId = capsule.capsuleId ∧
      receipt.predecessorId = capsule.predecessorId ∧ receipt.epoch = capsule.epoch ∧
      receipt.attempt = capsule.attempt) :
    ClosureProof.create receipts = .ok (closureOver capsule receipts) := by
  have perm := sortedBy_perm WitnessReceipt.witnessId receipts
  unfold ClosureProof.create closureOver closureId
  cases ordered : sortedBy WitnessReceipt.witnessId receipts with
  | nil =>
    rw [ordered] at perm
    exact absurd perm.nil_eq.symm nonempty
  | cons first later =>
    rw [ordered] at perm
    have same := fun receipt (member : receipt ∈ first :: later) => alike receipt (perm.mem_iff.mp member)
    obtain ⟨-, capsuleId, predecessor, epoch, attempt⟩ := same first List.mem_cons_self
    have matching : ¬ (first :: later).any (fun item => decide (item.status ≠ "ACCEPT" ∨
        item.capsuleId ≠ first.capsuleId ∨ item.predecessorId ≠ first.predecessorId ∨
        item.epoch ≠ first.epoch ∨ item.attempt ≠ first.attempt)) = true := by
      simp only [List.any_eq_true, decide_eq_true_eq, not_exists, not_and]
      intro item member
      obtain ⟨status', capsuleId', predecessor', epoch', attempt'⟩ := same item member
      simp [status', capsuleId', predecessor', epoch', attempt', capsuleId, predecessor, epoch, attempt]
    dsimp only
    rw [if_neg matching, capsuleId, predecessor, epoch, attempt]

end MosaicProtocol

theorem AbandonProof.create_singleton {receipt : WitnessReceipt} (status : receipt.status = "ABANDON") :
    ∃ proof, AbandonProof.create [receipt] = .ok proof := by
  unfold AbandonProof.create
  simp [sortedBy, status]

section Solo
variable (pair : KeyPair)

def soloMember : Member := ⟨"w", some pair, 1, none, Or.inl rfl⟩

def soloStart : Instance := .fresh (Dict.empty.set "w" (soloMember pair)) 0

/-- The first seal of a resource that the member owns. -/
def soloSeal (resourceId : String) : StateSeal :=
  ⟨resourceId, 0, 0, "genesis", digest (.str "capability"), pair.identity⟩

def soloCapsule (resourceId root : String) (attempt : Int) : Capsule :=
  Capsule.create pair (soloSeal pair resourceId) root "identity-transition" "valid" attempt none

def soloReceipt (capsule : Capsule) (status : String) : WitnessReceipt :=
  Instance.signedReceipt (soloMember pair) pair capsule status

@[simp] theorem soloCapsule_predecessorId (resourceId root : String) (attempt : Int) :
    (soloCapsule pair resourceId root attempt).predecessorId = (soloSeal pair resourceId).sealId := rfl

@[simp] theorem soloCapsule_attempt (resourceId root : String) (attempt : Int) :
    (soloCapsule pair resourceId root attempt).attempt = attempt := rfl

variable {pair} {s : Instance} {resourceId : String}

theorem soloSeal_inj (free : CollisionFree) {resourceId' : String}
    (same : (soloSeal pair resourceId).sealId = (soloSeal pair resourceId').sealId) : resourceId = resourceId' :=
  congrArg StateSeal.resourceId (StateSeal.eq_of_sealId free same)

theorem soloCapsule_inj (free : CollisionFree) {resourceId' root root' : String} {attempt attempt' : Int}
    (same : (soloCapsule pair resourceId root attempt).capsuleId =
      (soloCapsule pair resourceId' root' attempt').capsuleId) :
    resourceId = resourceId' ∧ root = root' ∧ attempt = attempt' := by
  have content := @Capsule.eq_of_statement _ free (soloCapsule pair resourceId root attempt)
    (soloCapsule pair resourceId' root' attempt') same
  exact ⟨soloSeal_inj free (congrArg Capsule.predecessorId content), congrArg Capsule.successorRoot content,
    congrArg Capsule.attempt content⟩

theorem solo_createResource (epoch : s.epoch = 0) (new : s.currentSeals.get? resourceId = none) :
    (Call.createResource resourceId pair.identity "genesis" "capability").exec s =
      s.installSeal (soloSeal pair resourceId) := by
  rw [Call.exec_createResource new, epoch]
  rfl

/-- The resource of the member is still at its first seal. -/
structure SoloReady (pair : KeyPair) (s : Instance) (resourceId : String) : Prop where
  members : s.members = (soloStart pair).members
  epoch : s.epoch = 0
  known : s.knownSeals.get? (soloSeal pair resourceId).sealId = some (soloSeal pair resourceId)
  current : s.currentSeals.get? resourceId = some (soloSeal pair resourceId)

namespace SoloReady

theorem member (ready : SoloReady pair s resourceId) : s.members.get? "w" = some (soloMember pair) := by
  rw [ready.members]
  exact Dict.get?_set_self _ _ _

theorem valid (ready : SoloReady pair s resourceId) (sound : SignaturesVerify) {root : String} {attempt : Int}
    (proper : root ≠ "") (natural : 0 ≤ attempt) : s.Valid (soloCapsule pair resourceId root attempt) :=
  ⟨⟨_, ready.known, ready.epoch.symm⟩, ready.epoch.symm, Capsule.create_verifies sound _ _ _ _ _ _ _, natural,
    proper⟩

theorem atHead (ready : SoloReady pair s resourceId) (root : String) (attempt : Int) :
    s.AtHead (soloCapsule pair resourceId root attempt) :=
  ⟨soloSeal pair resourceId, Option.bind_eq_some_iff.mpr ⟨_, ready.known, ready.current⟩, rfl⟩

theorem setLock (ready : SoloReady pair s resourceId) (capsule : Capsule) (status : String) :
    SoloReady pair (s.setLock capsule status) resourceId :=
  ⟨ready.members, ready.epoch, ready.known, ready.current⟩

theorem addSigned (ready : SoloReady pair s resourceId) (receipt : WitnessReceipt) :
    SoloReady pair (s.addSigned receipt) resourceId :=
  ⟨ready.members, ready.epoch, ready.known, ready.current⟩

theorem addAbandon (ready : SoloReady pair s resourceId) (capsule : Capsule) (proof : AbandonProof) :
    SoloReady pair (s.addAbandon capsule proof) resourceId :=
  ⟨ready.members, ready.epoch, ready.known, ready.current⟩

theorem accept (ready : SoloReady pair s resourceId) (sound : SignaturesVerify) {root : String} {attempt : Int}
    (proper : root ≠ "") (natural : 0 ≤ attempt) (unlocked : ∀ lock,
      s.locks.get? (soloSeal pair resourceId).sealId = some lock →
        lock.Released (soloCapsule pair resourceId root attempt)) :
    (Call.witnessReceipt "w" (soloCapsule pair resourceId root attempt) "ACCEPT").exec s =
      (s.setLock (soloCapsule pair resourceId root attempt) "ACCEPT").addSigned
        (soloReceipt pair (soloCapsule pair resourceId root attempt) "ACCEPT") :=
  Call.exec_accept (ready.valid sound proper natural) (ready.atHead root attempt) unlocked ready.member rfl

theorem release (ready : SoloReady pair s resourceId) (sound : SignaturesVerify) {root : String} {attempt : Int}
    (proper : root ≠ "") (natural : 0 ≤ attempt) (mine : ∀ lock,
      s.locks.get? (soloSeal pair resourceId).sealId = some lock →
        lock.IsFor (soloCapsule pair resourceId root attempt))
    (unclosed : s.closures.get? (soloCapsule pair resourceId root attempt).capsuleId = none) :
    (Call.witnessReceipt "w" (soloCapsule pair resourceId root attempt) "ABANDON").exec s =
      (s.setLock (soloCapsule pair resourceId root attempt) "ABANDON").addSigned
        (soloReceipt pair (soloCapsule pair resourceId root attempt) "ABANDON") :=
  Call.exec_release (ready.valid sound proper natural) mine unclosed ready.member rfl

end SoloReady

variable (pair) in
theorem solo_verifyReceipt (sound : SignaturesVerify) {s : MosaicProtocol} (stored : Capsule) (status : String)
    (members : s.members = (soloStart pair).members) (epoch : s.epoch = stored.epoch)
    (found : s.capsules.get? stored.capsuleId = some stored) :
    s.verifyReceipt (soloReceipt pair stored status) = true := by
  have known : s.members.get? "w" = some (soloMember pair) := by
    rw [members]
    exact Dict.get?_set_self _ _ _
  exact MosaicProtocol.verifyReceipt_iff.mpr ⟨soloMember pair, stored, known, found, rfl, rfl, epoch.symm, rfl,
    KeyPair.verify_sign sound _ _⟩

variable (pair) in
theorem solo_heavy {s : MosaicProtocol} (stored : Capsule) (status : String)
    (members : s.members = (soloStart pair).members) :
    s.threshold ≤ s.weightOfReceipts [soloReceipt pair stored status] := by
  have known : s.members.get? "w" = some (soloMember pair) := by
    rw [members]
    exact Dict.get?_set_self _ _ _
  have weight : s.weightOf "w" = 1 := by simp [MosaicProtocol.weightOf, known, soloMember]
  have total : s.totalWeight = 1 := by
    rw [MosaicProtocol.totalWeight, members]
    rfl
  simp [MosaicProtocol.threshold, MosaicProtocol.weightOfReceipts, total, soloReceipt, Instance.signedReceipt,
    Instance.receiptOf, soloMember, weight]

variable (pair) in
/-- The receipt of the one member closes every capsule that has the identifier
of the capsule it was signed for. -/
theorem solo_verifyClosure (sound : SignaturesVerify) {s : MosaicProtocol} (capsule stored : Capsule)
    (members : s.members = (soloStart pair).members) (epoch : s.epoch = stored.epoch)
    (found : s.capsules.get? stored.capsuleId = some stored) (same : stored.capsuleId = capsule.capsuleId) :
    s.verifyClosure capsule (MosaicProtocol.closureOver capsule [soloReceipt pair stored "ACCEPT"]) = true := by
  refine MosaicProtocol.verifyClosure_iff.mpr (MosaicProtocol.accepts_closureOver (List.nodup_singleton _) ?_
    (solo_heavy pair stored "ACCEPT" members))
  intro receipt member
  rw [List.mem_singleton.mp member]
  exact ⟨solo_verifyReceipt pair sound stored "ACCEPT" members epoch found, rfl, same⟩

variable (pair) in
/-- Its `ABANDON` receipt abandons the capsule. -/
theorem solo_abandon (sound : SignaturesVerify) (capsule : Capsule) (members : s.members = (soloStart pair).members)
    (epoch : s.epoch = capsule.epoch) (found : s.capsules.get? capsule.capsuleId = some capsule)
    (unclosed : s.closures.get? capsule.capsuleId = none) :
    ∃ proof, (Call.abandon capsule [soloReceipt pair capsule "ABANDON"]).exec s = s.addAbandon capsule proof := by
  have verified := solo_verifyReceipt pair sound capsule "ABANDON" members epoch found
  have valid : s.validReceipts capsule "ABANDON" [soloReceipt pair capsule "ABANDON"] =
      [soloReceipt pair capsule "ABANDON"] := by
    have single : ([soloReceipt pair capsule "ABANDON"].map WitnessReceipt.witnessId).Nodup :=
      List.nodup_singleton _
    rw [MosaicProtocol.validReceipts, (MosaicProtocol.byWitness_values single).1]
    simp only [List.filter_cons, List.filter_nil, verified, Bool.true_and]
    simp [soloReceipt, Instance.signedReceipt, Instance.receiptOf]
  obtain ⟨proof, made⟩ := AbandonProof.create_singleton (rfl : (soloReceipt pair capsule "ABANDON").status = _)
  refine ⟨proof, Call.exec_abandon unclosed (List.cons_ne_nil _ _) ?_ ?_⟩
  · exact valid.symm ▸ solo_heavy pair capsule "ABANDON" members
  · exact valid.symm ▸ made

end Solo

end Mosaic
