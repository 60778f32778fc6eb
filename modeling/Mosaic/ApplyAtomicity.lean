import Mosaic.ExecutorInStep
import Mosaic.BundleAgreement

namespace Mosaic
open CanonicalJson Effects

variable [Crypto]

namespace Instance

variable {s t : Instance} {capsule : Capsule} {closure : ClosureProof}

/-- What `apply` does once the closure is registered, with the seals that it has
read at its beginning. -/
def advance (s : Instance) (capsule : Capsule) : Py StateSeal :=
  match s.knownSeals.get? capsule.predecessorId with
  | none => throw (.closureInvalid "predecessor not found")
  | some predecessor =>
    match s.currentSeals.get? predecessor.resourceId with
    | none => throw (.closureInvalid "resource state not found")
    | some current =>
      if current.sealId ≠ capsule.predecessorId then
        if current.version = predecessor.version + 1 ∧ current.stateRoot = capsule.successorRoot ∧
            current.capabilityHash = digest (.str capsule.capsuleId) then
          return current
        else
          throw (.closureInvalid "predecessor is not current")
      else do
        modify (·.installSeal (nextSeal current capsule))
        return nextSeal current capsule

theorem apply_eq (capsule : Capsule) (closure : ClosureProof) :
    apply capsule closure = (do
      let s ← get
      raiseIf (closure.capsuleId ≠ capsule.capsuleId) (.closureInvalid "closure belongs to another capsule")
      raiseIf (s.verifyClosure capsule closure = false) (.closureInvalid "closure was not verified")
      (if s.closures.contains capsule.capsuleId then pure ⟨⟩ else registerClosure capsule closure)
      s.advance capsule) := rfl

/-- The resource of the capsule is at its predecessor, or at what looks like the
seal that the capsule asks for. -/
def InPlace (s : Instance) (capsule : Capsule) : Prop :=
  ∃ predecessor current, s.knownSeals.get? capsule.predecessorId = some predecessor ∧
    s.currentSeals.get? predecessor.resourceId = some current ∧
    (current.sealId = capsule.predecessorId ∨ current.version = predecessor.version + 1 ∧
      current.stateRoot = capsule.successorRoot ∧ current.capabilityHash = digest (.str capsule.capsuleId))

theorem advance_raises (away : ¬ s.InPlace capsule) (t : Instance) : ∃ e, s.advance capsule t = .error e t := by
  unfold advance
  cases known : s.knownSeals.get? capsule.predecessorId with
  | none => exact ⟨_, rfl⟩
  | some predecessor =>
    cases held : s.currentSeals.get? predecessor.resourceId with
    | none => exact ⟨_, by simp only [held]; rfl⟩
    | some current =>
      have other : current.sealId ≠ capsule.predecessorId :=
        fun named => away ⟨predecessor, current, known, held, Or.inl named⟩
      have unlike : ¬ (current.version = predecessor.version + 1 ∧ current.stateRoot = capsule.successorRoot ∧
          current.capabilityHash = digest (.str capsule.capsuleId)) :=
        fun alike => away ⟨predecessor, current, known, held, Or.inr alike⟩
      refine ⟨.closureInvalid "predecessor is not current", ?_⟩
      simp only [held, if_pos other, if_neg unlike]
      rfl

/-- What `apply` would register the closure on. -/
structure Registers (s : Instance) (capsule : Capsule) (closure : ClosureProof) : Prop where
  verified : s.verifyClosure capsule closure = true
  new : s.closures.get? capsule.capsuleId = none
  clean : s.hasConflictOn capsule.predecessorId = false

theorem apply_of_registers (registers : s.Registers capsule closure) :
    apply capsule closure s = s.advance capsule (s.addClosure capsule closure) := by
  have missing : ¬ s.closures.contains capsule.capsuleId = true := by simp [registers.new]
  rw [apply_eq, get_bind_apply, raiseIf_bind_neg (not_not.mpr (verifyClosure_ids registers.verified).1),
    raiseIf_bind_neg (by simp [registers.verified]), if_neg missing,
    bind_of_ok (registerClosure_ok registers.verified registers.clean registers.new)]

/-- The dictionaries that decide about transitions are the same. -/
structure SameRecords (s t : Instance) : Prop where
  closures : t.closures = s.closures
  currentSeals : t.currentSeals = s.currentSeals
  knownSeals : t.knownSeals = s.knownSeals
  locks : t.locks = s.locks
  abandons : t.abandons = s.abandons
  conflictEvidence : t.conflictEvidence = s.conflictEvidence

theorem SameRecords.refl (s : Instance) : s.SameRecords s := ⟨rfl, rfl, rfl, rfl, rfl, rfl⟩

/-- Refused after it was registered, the closure stays. -/
theorem apply_leaves_closure (registers : s.Registers capsule closure) (away : ¬ s.InPlace capsule) :
    ∃ e t, apply capsule closure s = .error e t ∧ ¬ s.SameRecords t := by
  obtain ⟨e, refused⟩ := advance_raises away (s.addClosure capsule closure)
  refine ⟨e, _, (apply_of_registers registers).trans refused, fun same => ?_⟩
  have found : (s.addClosure capsule closure).closures.get? capsule.capsuleId = some closure :=
    Dict.get?_set_self _ _ _
  rw [same.closures, registers.new] at found
  cases found

/-- Another capsule has taken the place of the seal. -/
theorem apply_overtaken {first later : Capsule} {closure closure' : ClosureProof} {current : StateSeal}
    (free : CollisionFree) (registers : s.Registers first closure) (differ : later.capsuleId ≠ first.capsuleId)
    (known : s.knownSeals.get? first.predecessorId = some current) (named : current.sealId = first.predecessorId) :
    ∃ e t, apply first closure ((s.addClosure later closure').installSeal (nextSeal current later)) = .error e t ∧
      ¬ ((s.addClosure later closure').installSeal (nextSeal current later)).SameRecords t := by
  have moved : (nextSeal current later).sealId ≠ first.predecessorId := by
    intro same
    have version := congrArg StateSeal.version (StateSeal.eq_of_sealId free (same.trans named.symm))
    simp only [nextSeal] at version
    omega
  refine apply_leaves_closure ⟨registers.verified, ?_, registers.clean⟩ ?_
  · rw [installSeal_closures, addClosure_closures, Dict.get?_set_of_ne _ _ differ, registers.new]
  · rintro ⟨predecessor, now, before, held, either⟩
    rw [installSeal_knownSeals, Dict.get?_set_of_ne _ _ moved] at before
    cases Option.some.inj (known.symm.trans before)
    rw [installSeal_currentSeals] at held
    cases Option.some.inj ((Dict.get?_set_self _ _ _).symm.trans held)
    rcases either with back | ⟨-, -, capability⟩
    · exact moved back
    · exact differ (digest_str_inj free capability)

end Instance

section Overtaken
variable (pair : KeyPair)

/-- The capsule that was accepted after the release is applied. -/
def overtaken : Instance := (Call.apply (laterEntry pair).1 (laterEntry pair).2).exec (afterRelease pair)

theorem overtaken_run : Run (fun _ _ => True) (soloStart pair) (overtaken pair) :=
  (GuardedRun.of_inputs (fun _ _ => trivial) (released pair)).tail trivial

theorem afterRelease_ready (sound : SignaturesVerify) : SoloReady pair (afterRelease pair) "p" := by
  have ready : SoloReady pair ((soloStart pair).installSeal (soloSeal pair "p")) "p" :=
    ⟨rfl, rfl, Dict.get?_set_self _ _ _, rfl⟩
  rw [afterRelease_eq pair sound]
  exact (((((ready.setLock _ _).addSigned _).setLock _ _).addSigned _).setLock _ _).addSigned _

theorem afterRelease_clean (sound : SignaturesVerify) (predecessorId : String) :
    (afterRelease pair).hasConflictOn predecessorId = false := by
  unfold MosaicProtocol.hasConflictOn
  rw [(afterRelease_parts sound).2.1]
  rfl

theorem overtaken_eq (free : CollisionFree) (sound : SignaturesVerify) : overtaken pair =
    ((afterRelease pair).addClosure (laterEntry pair).1 (laterEntry pair).2).installSeal
      (nextSeal (soloSeal pair "p") (laterEntry pair).1) := by
  have verified : (afterRelease pair).verifyClosure (laterEntry pair).1 (laterEntry pair).2 = true :=
    afterRelease_accepts pair free sound (Or.inr rfl)
  have ready := afterRelease_ready pair sound
  refine final_of_ok (Instance.apply_registers verified (afterRelease_clean pair sound _) ?_
    (Option.bind_eq_some_iff.mpr ⟨_, ready.known, ready.current⟩) rfl)
  rw [(afterRelease_parts sound).1, Dict.get?_empty]

/-- The closure of the released capsule is still good, but its predecessor has
been replaced. -/
theorem overtaken_leaves_closure (free : CollisionFree) (sound : SignaturesVerify) :
    ∃ e t, Instance.apply (earlierEntry pair).1 (earlierEntry pair).2 (overtaken pair) = .error e t ∧
      ¬ (overtaken pair).SameRecords t := by
  have differ := @entries_differ _ pair free
  have verified : (afterRelease pair).verifyClosure (earlierEntry pair).1 (earlierEntry pair).2 = true :=
    afterRelease_accepts pair free sound (Or.inl rfl)
  have clean := afterRelease_clean pair sound (earlierEntry pair).1.predecessorId
  have named : (earlierEntry pair).1.predecessorId = (soloSeal pair "p").sealId := rfl
  have known := (afterRelease_ready pair sound).known
  have closures := (@afterRelease_parts _ pair sound).1
  rw [overtaken_eq pair free sound]
  generalize afterRelease pair = r at verified clean known closures
  generalize earlierEntry pair = entry at differ verified clean named
  generalize laterEntry pair = later at differ
  have new : r.closures.get? entry.1.capsuleId = none := by rw [closures, Dict.get?_empty]
  exact Instance.apply_overtaken free ⟨verified, new, clean⟩ differ.symm (named ▸ known) named.symm

end Overtaken

end Mosaic
