import Mosaic.Protocol
import Mathlib.Logic.Relation

namespace Mosaic
open CanonicalJson Effects

/-- The lock is held for this capsule and this attempt. -/
def Lock.IsFor (lock : Lock) (capsule : Capsule) : Prop :=
  lock.capsuleId = capsule.capsuleId ∧ lock.attempt = capsule.attempt

/-- A released lock that a later attempt may take over. -/
def Lock.Released (lock : Lock) (capsule : Capsule) : Prop :=
  lock.status = "ABANDON" ∧ lock.attempt < capsule.attempt

variable [Crypto]

namespace Instance

/-- What `validate_capsule` asks of a capsule. -/
structure Valid (s : Instance) (capsule : Capsule) : Prop where
  known : ∃ predecessor, s.knownSeals.get? capsule.predecessorId = some predecessor ∧ predecessor.epoch = s.epoch
  epoch : capsule.epoch = s.epoch
  signature : capsule.verifyClientSignature = true
  attempt : 0 ≤ capsule.attempt
  root : capsule.successorRoot ≠ ""

/-- The seal that is current for the resource of the capsule's predecessor. -/
def headOf (s : Instance) (capsule : Capsule) : Option StateSeal :=
  (s.knownSeals.get? capsule.predecessorId).bind fun predecessor => s.currentSeals.get? predecessor.resourceId

/-- The predecessor of the capsule is still current. -/
def AtHead (s : Instance) (capsule : Capsule) : Prop :=
  ∃ current, s.headOf capsule = some current ∧ current.sealId = capsule.predecessorId

/-- The seals that `apply_bundle` puts in the place of the current ones. -/
def bundleSeals (s : Instance) (entries : List (Capsule × ClosureProof)) : List StateSeal :=
  entries.filterMap fun entry => (s.currentFor entry.1).map fun current => nextSeal current entry.1

/-- What the checking loop of `apply_bundle` asks of an entry. -/
structure Ready (s : Instance) (capsule : Capsule) (closure : ClosureProof) : Prop where
  registered : s.closures.get? capsule.capsuleId = some closure
  verified : s.verifyClosure capsule closure = true
  current : ∃ current, s.currentFor capsule = some current

/-- Installing seals leaves everything else alone. -/
theorem foldl_installSeal (seals : List StateSeal) (s : Instance) : ∃ currents knowns,
    seals.foldl installSeal s = { s with currentSeals := currents, knownSeals := knowns } := by
  induction seals generalizing s with
  | nil => exact ⟨s.currentSeals, s.knownSeals, rfl⟩
  | cons fresh seals ih =>
    obtain ⟨currents, knowns, same⟩ := ih (s.installSeal fresh)
    exact ⟨currents, knowns, same⟩

end Instance
open Instance

/-- What can happen to an instance. -/
inductive Event
  | created (fresh : StateSeal)
  | stored (capsule : Capsule)
  | claimed (capsule : Capsule)
  | released (capsule : Capsule)
  | contested (status : String) (first second : Capsule)
  | signed (capsule : Capsule) (receipt : WitnessReceipt)
  | registered (capsule : Capsule) (closure : ClosureProof)
  | abandoned (capsule : Capsule) (proof : AbandonProof)
  | installed (capsule : Capsule) (closure : ClosureProof)
  | bundled (entries : List (Capsule × ClosureProof))

/-- Everything the operations do, one change at a time, with all that the code
has checked when it makes the change. -/
inductive Update : Event → Instance → Instance → Prop
  | created {s : Instance} {fresh : StateSeal} {secret : String}
      (new : s.currentSeals.get? fresh.resourceId = none) (epoch : fresh.epoch = s.epoch)
      (version : fresh.version = 0) (capability : fresh.capabilityHash = digest (.str secret)) :
      Update (.created fresh) s (s.installSeal fresh)
  | stored {s : Instance} {capsule : Capsule} {predecessor : StateSeal}
      (current : s.currentSeals.get? predecessor.resourceId = some predecessor)
      (named : capsule.predecessorId = predecessor.sealId)
      (content : capsule.capsuleId = digest capsule.unsignedStatement) :
      Update (.stored capsule) s (s.storeCapsule capsule)
  | claimed {s : Instance} {capsule : Capsule} (valid : s.Valid capsule) (head : s.AtHead capsule)
      (free : ∀ lock, s.locks.get? capsule.predecessorId = some lock → lock.Released capsule) :
      Update (.claimed capsule) s (s.setLock capsule "ACCEPT")
  | released {s : Instance} {capsule : Capsule} (valid : s.Valid capsule)
      (mine : ∀ lock, s.locks.get? capsule.predecessorId = some lock → lock.IsFor capsule)
      (unclosed : s.closures.get? capsule.capsuleId = none) :
      Update (.released capsule) s (s.setLock capsule "ABANDON")
  | contested {s : Instance} {status : String} {first second : Capsule} {lock : Lock} {evidence : ConflictEvidence}
      (valid : s.Valid second) (held : s.locks.get? second.predecessorId = some lock)
      (stored : s.capsules.get? lock.capsuleId = some first) (other : ¬ lock.IsFor second)
      (refused : status = "ACCEPT" → s.AtHead second → ¬ lock.Released second)
      (made : ConflictEvidence.create first second = .ok evidence) :
      Update (.contested status first second) s (s.addEvidence evidence)
  | signed {s : Instance} {capsule : Capsule} {status : String} {memberId : String} {member : Member}
      {pair : KeyPair} {lock : Lock} (valid : s.Valid capsule)
      (known : s.members.get? memberId = some member) (loaded : member.keypair = some pair)
      (held : s.locks.get? capsule.predecessorId = some lock) (mine : lock.IsFor capsule)
      (accepting : status = "ACCEPT" → s.AtHead capsule)
      (abandoning : status = "ABANDON" → lock.status = "ABANDON" ∧ s.closures.get? capsule.capsuleId = none)
      (either : status = "ACCEPT" ∨ status = "ABANDON") :
      Update (.signed capsule (signedReceipt member pair capsule status)) s
        (s.addSigned (signedReceipt member pair capsule status))
  | registered {s : Instance} {capsule : Capsule} {closure : ClosureProof}
      (verified : s.verifyClosure capsule closure = true) (clean : s.hasConflictOn capsule.predecessorId = false)
      (new : s.closures.get? capsule.capsuleId = none) :
      Update (.registered capsule closure) s (s.addClosure capsule closure)
  | abandoned {s : Instance} {capsule : Capsule} {proof : AbandonProof} {receipts : List WitnessReceipt}
      (unclosed : s.closures.get? capsule.capsuleId = none)
      (heavy : s.threshold ≤ s.weightOfReceipts (s.validReceipts capsule "ABANDON" receipts))
      (made : AbandonProof.create (s.validReceipts capsule "ABANDON" receipts) = .ok proof) :
      Update (.abandoned capsule proof) s (s.addAbandon capsule proof)
  | installed {s : Instance} {capsule : Capsule} {closure kept : ClosureProof} {current : StateSeal}
      (verified : s.verifyClosure capsule closure = true)
      (registered : s.closures.get? capsule.capsuleId = some kept)
      (head : s.headOf capsule = some current) (named : current.sealId = capsule.predecessorId) :
      Update (.installed capsule closure) s (s.installSeal (nextSeal current capsule))
  | bundled {s : Instance} {entries : List (Capsule × ClosureProof)}
      (ready : ∀ entry ∈ entries, s.Ready entry.1 entry.2) :
      Update (.bundled entries) s ((s.bundleSeals entries).foldl installSeal s)

/-- Some changes, one after the other, each of a kind that `P` allows. -/
def Trace (P : Event → Prop) (s t : Instance) : Prop :=
  Relation.ReflTransGen (fun s t => ∃ event, P event ∧ Update event s t) s t

/-- At most one change, of a kind that `P` allows. -/
def Once (P : Event → Prop) (s t : Instance) : Prop := s = t ∨ ∃ event, P event ∧ Update event s t

theorem Once.trace {P : Event → Prop} {s t : Instance} (once : Once P s t) : Trace P s t := by
  rcases once with rfl | change
  · exact .refl
  · exact .single change

instance {P : Event → Prop} : Std.Refl (Once P) := ⟨fun _ => Or.inl rfl⟩

namespace Trace

variable {P Q : Event → Prop} {s t u : Instance}

instance : Std.Refl (Trace P) := ⟨fun _ => .refl⟩

instance : IsTrans Instance (Trace P) := ⟨fun _ _ _ first second => Relation.ReflTransGen.trans first second⟩

theorem single {event : Event} (update : Update event s t) (allowed : P event) : Trace P s t :=
  Relation.ReflTransGen.single ⟨event, allowed, update⟩

theorem mono (trace : Trace P s t) (more : ∀ event, P event → Q event) : Trace Q s t :=
  Relation.ReflTransGen.mono (fun _ _ ⟨event, allowed, update⟩ => ⟨event, more event allowed, update⟩) _ _ trace

/-- What every allowed change keeps, a whole trace keeps. -/
theorem invariant {I : Instance → Prop} (trace : Trace P s t) (start : I s)
    (keep : ∀ event s t, P event → Update event s t → I s → I t) : I t := by
  induction trace with
  | refl => exact start
  | tail _ last ih =>
    obtain ⟨event, allowed, update⟩ := last
    exact keep event _ _ allowed update ih

end Trace

end Mosaic
