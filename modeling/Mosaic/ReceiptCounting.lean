import Mosaic.LockRelease

namespace Mosaic
open CanonicalJson Effects

variable [Crypto]

namespace MosaicProtocol

variable {s : MosaicProtocol} {capsule : Capsule} {receipts : List WitnessReceipt}

/-- The last receipt that is given in the name of a witness. -/
def lastOf (receipts : List WitnessReceipt) (w : String) : Option WitnessReceipt :=
  (receipts.filter fun receipt => receipt.witnessId = w).getLast?

omit [Crypto] in
theorem byWitness_get? (receipts : List WitnessReceipt) (w : String) :
    (byWitness receipts).get? w = lastOf receipts w := by
  rw [byWitness, Dict.get?_ofList, lastOf, List.filter_map, List.getLast?_map, Option.map_map]
  exact congrFun Option.map_id _

omit [Crypto] in
theorem mem_of_lastOf {receipt : WitnessReceipt} {w : String} (last : lastOf receipts w = some receipt) :
    receipt ∈ receipts ∧ receipt.witnessId = w :=
  mem_byWitness ((byWitness_get? receipts w).trans last)

theorem mem_validReceipts {receipt : WitnessReceipt} : receipt ∈ s.validReceipts capsule "ACCEPT" receipts ↔
    lastOf receipts receipt.witnessId = some receipt ∧ s.Counts capsule receipt := by
  unfold validReceipts
  rw [List.mem_filter, Dict.mem_values]
  simp only [Bool.and_eq_true, decide_eq_true_eq, byWitness_get?, Counts, and_assoc]
  refine and_congr_left fun _ => ?_
  constructor
  · rintro ⟨w, last⟩
    obtain ⟨-, rfl⟩ := mem_of_lastOf last
    exact last
  · intro last
    exact ⟨_, last⟩

theorem validReceipts_distinct (s : MosaicProtocol) (capsule : Capsule) (status : String)
    (receipts : List WitnessReceipt) : ((s.validReceipts capsule status receipts).map WitnessReceipt.witnessId).Nodup := by
  have witnesses : (byWitness receipts).values.map WitnessReceipt.witnessId = (byWitness receipts).keys := by
    simp only [Dict.values, Dict.keys, List.map_map]
    refine List.map_congr_left fun entry member => ?_
    exact (mem_byWitness ((Dict.get?_eq_some_iff _).mpr member)).2
  refine List.Nodup.sublist (List.Sublist.map _ List.filter_sublist) ?_
  rw [witnesses]
  exact Dict.keys_nodup _

/-- Receipts that count name what the stored capsule names. -/
theorem Counts.alike {receipt : WitnessReceipt} (counts : s.Counts capsule receipt)
    (stored : s.capsules.get? capsule.capsuleId = some capsule) :
    receipt.status = "ACCEPT" ∧ receipt.capsuleId = capsule.capsuleId ∧
      receipt.predecessorId = capsule.predecessorId ∧ receipt.epoch = capsule.epoch ∧
      receipt.attempt = capsule.attempt := by
  obtain ⟨verified, status, named⟩ := counts
  obtain ⟨member, found, parts⟩ := verifyReceipt_iff.mp verified
  have same : found = capsule := Option.some.inj (parts.found.symm.trans (named ▸ stored))
  subst same
  exact ⟨status, named, parts.predecessor, parts.epoch, parts.attempt⟩

end MosaicProtocol
open MosaicProtocol

namespace Instance

variable {s t : Instance} {capsule : Capsule} {receipts : List WitnessReceipt}

/-- The receipt that a member signs here, if its key is loaded. -/
def ownReceipt (s : Instance) (capsule : Capsule) (memberId : String) : Option WitnessReceipt :=
  (s.members.get? memberId).bind fun member =>
    member.keypair.map fun pair => signedReceipt member pair capsule "ACCEPT"

def ownReceipts (s : Instance) (capsule : Capsule) : List WitnessReceipt :=
  (sorted s.members.keys).filterMap (s.ownReceipt capsule)

/-- Locks were taken and receipts signed, and nothing else. -/
def Witnessed (s t : Instance) : Prop := ∃ locks signed, t = { s with locks := locks, signed := signed }

end Instance

section Solo
variable (pair : KeyPair)

/-- The capsule that the only member has accepted, its receipt, and the receipt
without the signature. -/
def acceptedCapsule : Capsule := soloCapsule pair "p" "a" 0

def givenReceipt : WitnessReceipt := soloReceipt pair (acceptedCapsule pair) "ACCEPT"

def unsignedReceipt : WitnessReceipt := { givenReceipt pair with signature := [] }

theorem afterAccept_run : Run (fun _ _ => True) (soloStart pair) (afterAccept pair) :=
  ((Run.start _ (soloStart pair)).call (createCall pair) trivial).call (acceptCall pair) trivial

theorem afterAccept_stored (sound : SignaturesVerify) :
    (afterAccept pair).capsules.get? (acceptedCapsule pair).capsuleId = some (acceptedCapsule pair) := by
  simp [afterAccept_eq pair sound, acceptedCapsule]

theorem afterAccept_ready (sound : SignaturesVerify) : SoloReady pair (afterAccept pair) "p" := by
  have ready : SoloReady pair ((soloStart pair).installSeal (soloSeal pair "p")) "p" :=
    ⟨rfl, rfl, Dict.get?_set_self _ _ _, rfl⟩
  rw [afterAccept_eq pair sound]
  exact (ready.setLock _ _).addSigned _

theorem afterAccept_valid (sound : SignaturesVerify) : (afterAccept pair).Valid (acceptedCapsule pair) :=
  (afterAccept_ready pair sound).valid sound (by decide) (by decide)

theorem afterAccept_clean (sound : SignaturesVerify) :
    (afterAccept pair).hasConflictOn (acceptedCapsule pair).predecessorId = false := by
  simp [afterAccept_eq pair sound, soloStart, MosaicProtocol.hasConflictOn]

theorem givenReceipt_counts (sound : SignaturesVerify) :
    (afterAccept pair).Counts (acceptedCapsule pair) (givenReceipt pair) := by
  have ready := afterAccept_ready pair sound
  exact ⟨solo_verifyReceipt pair sound _ _ ready.members ready.epoch (afterAccept_stored pair sound), rfl, rfl⟩

theorem afterAccept_heavy (sound : SignaturesVerify) {witnesses : Finset String} (named : "w" ∈ witnesses) :
    (afterAccept pair).threshold ≤ Quorum.weigh (afterAccept pair).weightOf witnesses := by
  have heavy := solo_heavy pair (acceptedCapsule pair) "ACCEPT" (afterAccept_ready pair sound).members
  refine heavy.trans ?_
  have single : {"w"} ⊆ witnesses := Finset.singleton_subset_iff.mpr named
  refine le_trans (le_of_eq ?_) (Quorum.weigh_mono (afterAccept pair).weightOf single)
  rw [Quorum.weigh, Finset.sum_singleton, weightOfReceipts, List.map_singleton, List.sum_singleton]
  rfl

end Solo

end Mosaic
