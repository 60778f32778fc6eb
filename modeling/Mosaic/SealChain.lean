import Mosaic.LockRelease

namespace Mosaic
open CanonicalJson Effects

variable [Crypto]

namespace Instance

/-- The current seal of a resource is a known seal of this resource. -/
structure Chained (s : Instance) : Prop where
  resource : ∀ r seal', s.currentSeals.get? r = some seal' → seal'.resourceId = r
  known : ∀ r seal', s.currentSeals.get? r = some seal' → s.knownSeals.get? seal'.sealId = some seal'

variable {s t : Instance}

theorem Chained.installSeal (chained : s.Chained) (free : CollisionFree) (fresh : StateSeal) :
    (s.installSeal fresh).Chained := by
  refine ⟨fun r seal' held => ?_, fun r seal' held => ?_⟩ <;> rw [installSeal_currentSeals] at held <;>
    rcases Dict.origin_of_get?_set held with ⟨rfl, rfl⟩ | old
  · rfl
  · exact chained.resource r seal' old
  · exact Dict.get?_set_self _ _ _
  · rw [installSeal_knownSeals, Dict.get?_set]
    split
    · rename_i same
      rw [StateSeal.eq_of_sealId free same]
    · exact chained.known r seal' old

theorem Chained.foldl_installSeal (chained : s.Chained) (free : CollisionFree) (seals : List StateSeal) :
    (seals.foldl Instance.installSeal s).Chained := by
  induction seals generalizing s with
  | nil => exact chained
  | cons fresh seals ih => exact ih (chained.installSeal free fresh)

/-- After some seals are installed, the current seal of a resource is one of
them or the one it was. -/
theorem currentSeals_foldl_installSeal {r : String} {old : StateSeal} (held : s.currentSeals.get? r = some old)
    (seals : List StateSeal) : ∃ new, (seals.foldl Instance.installSeal s).currentSeals.get? r = some new ∧
      (new = old ∨ new ∈ seals ∧ new.resourceId = r) := by
  induction seals using List.reverseRecOn with
  | nil => exact ⟨old, held, Or.inl rfl⟩
  | append_singleton seals fresh ih =>
    rw [List.foldl_append, List.foldl_cons, List.foldl_nil, installSeal_currentSeals, Dict.get?_set]
    by_cases here : fresh.resourceId = r
    · exact ⟨fresh, if_pos here, Or.inr ⟨by simp, here⟩⟩
    · obtain ⟨new, found, either⟩ := ih
      refine ⟨new, (if_neg here).trans found, either.imp_right fun ⟨member, resource⟩ => ⟨?_, resource⟩⟩
      exact List.mem_append_left _ member

theorem nextSeal_ne (current : StateSeal) (capsule : Capsule) (free : CollisionFree) :
    (nextSeal current capsule).sealId ≠ current.sealId := by
  intro same
  have version := congrArg StateSeal.version (StateSeal.eq_of_sealId free same)
  simp only [nextSeal] at version
  omega

theorem mem_bundleSeals {entries : List (Capsule × ClosureProof)} {new : StateSeal}
    (member : new ∈ s.bundleSeals entries) : ∃ entry ∈ entries, ∃ current,
      s.currentFor entry.1 = some current ∧ new = nextSeal current entry.1 := by
  obtain ⟨entry, inEntries, made⟩ := List.mem_filterMap.mp member
  obtain ⟨current, found, rfl⟩ := Option.map_eq_some_iff.mp made
  exact ⟨entry, inEntries, current, found, rfl⟩

theorem currentFor_named {capsule : Capsule} {current : StateSeal} (found : s.currentFor capsule = some current) :
    current.sealId = capsule.predecessorId ∧ ∃ r, s.currentSeals.get? r = some current :=
  ⟨by simpa using List.find?_some found, Dict.mem_values.mp (List.mem_of_find?_eq_some found)⟩

end Instance
open Instance

theorem Update.chained {event : Event} {s t : Instance} (update : Update event s t) (free : CollisionFree)
    (chained : s.Chained) : t.Chained := by
  cases update with
  | created new epoch version capability => exact chained.installSeal free _
  | installed verified registered head named => exact chained.installSeal free _
  | bundled ready => exact chained.foldl_installSeal free _
  | _ => exact ⟨chained.resource, chained.known⟩

theorem Call.exec_chained {s : Instance} (free : CollisionFree) (chained : s.Chained) (call : Call) :
    (call.exec s).Chained :=
  (call.exec_trace s).invariant chained fun _ _ _ _ update before => update.chained free before

/-- The calls that leave the current seals alone. -/
def Call.Still : Call → Prop
  | .createResource _ _ _ _ | .apply _ _ | .applyBundle _ _ => False
  | _ => True

theorem Call.Still.update {call : Call} (still : call.Still) {event : Event} {s t : Instance}
    (allowed : call.events event) (update : Update event s t) :
    t.currentSeals = s.currentSeals ∧ t.knownSeals = s.knownSeals ∧ t.epoch = s.epoch := by
  cases update with
  | created | installed | bundled =>
    rcases allowed with ⟨status, capsule, -, impossible⟩ | change
    · exact impossible.elim
    · cases call <;> first | exact change.elim | exact still.elim
  | _ => exact ⟨rfl, rfl, rfl⟩

theorem Call.Still.currentSeals {call : Call} (still : call.Still) (s : Instance) :
    (call.exec s).currentSeals = s.currentSeals :=
  (call.exec_trace s).invariant (I := fun t => t.currentSeals = s.currentSeals) rfl
    fun _ _ _ allowed update same => (still.update allowed update).1.trans same

theorem Call.still_of_witnessed {call : Call} {status : String} {capsule : Capsule}
    (witnessed : call.witnessed = some (status, capsule)) : call.Still := by
  cases call with
  | createResource | apply | applyBundle => cases witnessed
  | _ => trivial

/-- Registering a closure leaves the seals and what closures are checked against. -/
theorem Once.registered_frame {s t : Instance} {capsule : Capsule} {closure : ClosureProof}
    (once : Once (· = .registered capsule closure) s t) :
    t.currentSeals = s.currentSeals ∧ t.knownSeals = s.knownSeals ∧
      t.verifyClosure = s.verifyClosure := by
  rcases once with rfl | ⟨_, rfl, update⟩
  · exact ⟨rfl, rfl, rfl⟩
  · cases update
    exact ⟨rfl, rfl, rfl⟩

/-- The capsules that a call applies, with the closures it applies them by. -/
def Call.entries : Call → List (Capsule × ClosureProof)
  | .apply capsule closure => [(capsule, closure)]
  | .applyBundle _ entries => entries
  | _ => []

/-- The capsule has moved a resource from one seal to the next, by a closure that
verifies for it; the closure `kept` is registered for it. -/
structure Moved (s t : Instance) (entry : Capsule × ClosureProof) (kept : ClosureProof) (old new : StateSeal) :
    Prop where
  verified : s.verifyClosure entry.1 entry.2 = true
  head : s.AtHead entry.1
  named : entry.1.predecessorId = old.sealId
  made : new = nextSeal old entry.1
  registered : t.closures.get? entry.1.capsuleId = some kept
  verifies : t.verifyClosure = s.verifyClosure

theorem Update.created_keeps {s t : Instance} {fresh : StateSeal} (update : Update (.created fresh) s t)
    {r : String} {old : StateSeal} (held : s.currentSeals.get? r = some old) :
    t.currentSeals.get? r = some old := by
  cases update with
  | created new epoch version capability =>
    refine (Dict.get?_set_of_ne _ _ ?_).trans held
    rintro rfl
    simp [new] at held

/-- The seal that is replaced is the one that the capsule names. -/
theorem Update.installed_moves {s t : Instance} {capsule : Capsule} {closure : ClosureProof}
    (update : Update (.installed capsule closure) s t) (chained : s.Chained) {r : String} {old : StateSeal}
    (held : s.currentSeals.get? r = some old) : ∃ new, t.currentSeals.get? r = some new ∧
      (new = old ∨ s.verifyClosure capsule closure = true ∧ s.AtHead capsule ∧
        capsule.predecessorId = old.sealId ∧ new = nextSeal old capsule) := by
  cases update with
  | @installed _ _ _ kept current verified found head named =>
    by_cases here : current.resourceId = r
    · have atHead : s.AtHead capsule := ⟨current, head, named⟩
      obtain ⟨predecessor, -, heldCurrent⟩ := headOf_parts head
      have resource := chained.resource _ _ heldCurrent
      rw [← resource, here, held] at heldCurrent
      cases Option.some.inj heldCurrent
      exact ⟨nextSeal old capsule, (Dict.get?_set _ _ _ _).trans (if_pos here),
        Or.inr ⟨verified, atHead, named.symm, rfl⟩⟩
    · exact ⟨old, (Dict.get?_set_of_ne _ _ here).trans held, Or.inl rfl⟩

theorem Update.bundled_moves {s t : Instance} {entries : List (Capsule × ClosureProof)}
    (update : Update (.bundled entries) s t) (filed : s.Chained) {r : String} {old : StateSeal}
    (held : s.currentSeals.get? r = some old) : ∃ new, t.currentSeals.get? r = some new ∧
      (new = old ∨ ∃ entry ∈ entries, Moved s t entry entry.2 old new) := by
  cases update with
  | bundled ready =>
    obtain ⟨new, found, rfl | ⟨member, resource⟩⟩ := currentSeals_foldl_installSeal held (s.bundleSeals entries)
    · exact ⟨new, found, Or.inl rfl⟩
    obtain ⟨entry, inEntries, current, matching, rfl⟩ := mem_bundleSeals member
    obtain ⟨named, r', heldCurrent⟩ := currentFor_named matching
    have here : r' = r := (filed.resource r' current heldCurrent).symm.trans resource
    rw [here, held] at heldCurrent
    cases Option.some.inj heldCurrent
    obtain ⟨registered, verified, -⟩ := ready entry inEntries
    obtain ⟨currents, knowns, same⟩ := Instance.foldl_installSeal (s.bundleSeals entries) s
    refine ⟨nextSeal old entry.1, found, Or.inr ⟨entry, inEntries, verified, ?_, named.symm, rfl, ?_, ?_⟩⟩
    · refine ⟨old, Option.bind_eq_some_iff.mpr ⟨old, ?_, ?_⟩, named⟩
      · rw [← named]
        exact filed.known r old held
      · rw [filed.resource r old held]
        exact held
    · rwa [same]
    · rw [same]
      rfl

theorem Call.apply_moves {s : Instance} {capsule : Capsule} {closure : ClosureProof} (chained : s.Chained)
    {r : String} {old : StateSeal} (held : s.currentSeals.get? r = some old) :
    ∃ new, ((Call.apply capsule closure).exec s).currentSeals.get? r = some new ∧
      (new = old ∨ ∃ kept, Moved s ((Call.apply capsule closure).exec s) (capsule, closure) kept old new ∧
        (kept = closure ∨ s.closures.get? capsule.capsuleId = some kept)) := by
  obtain ⟨mid, registered, installed⟩ := Call.exec_apply_parts s capsule closure
  obtain ⟨currents, knowns, verifies⟩ := registered.registered_frame
  rcases installed with same | ⟨_, rfl, update⟩
  · rw [← same]
    exact ⟨old, currents ▸ held, Or.inl rfl⟩
  have midChained : mid.Chained :=
    ⟨fun r' seal' => currents ▸ chained.resource r' seal', fun r' seal' => currents ▸ knowns ▸ chained.known r' seal'⟩
  obtain ⟨new, found, either⟩ := update.installed_moves midChained (currents ▸ held)
  refine ⟨new, found, either.imp_right fun ⟨verified, atHead, named, made⟩ => ?_⟩
  generalize (Call.apply capsule closure).exec s = t at update
  have head : s.AtHead capsule := by
    obtain ⟨current, head, named⟩ := atHead
    exact ⟨current, by rwa [headOf, knowns, currents] at head, named⟩
  cases update with
  | @installed _ _ _ kept current _ found' =>
    refine ⟨kept, ⟨verifies ▸ verified, head, named, made, found', ?_⟩, ?_⟩
    · rw [← verifies]
      rfl
    · rcases registered with rfl | ⟨_, rfl, registered⟩
      · exact Or.inr found'
      · cases registered with
        | registered _ clean fresh =>
          rw [addClosure_closures, Dict.get?_set_self] at found'
          exact Or.inl (Option.some.inj found').symm

/-- One call leaves the current seal of a resource, or moves it by a capsule that
it applies. Only `apply` lets a closure stand that is registered already. -/
theorem Call.exec_moves {s : Instance} {call : Call} (chained : s.Chained) {r : String} {old : StateSeal}
    (held : s.currentSeals.get? r = some old) : ∃ new, (call.exec s).currentSeals.get? r = some new ∧
      (new = old ∨ ∃ entry ∈ call.entries, ∃ kept, Moved s (call.exec s) entry kept old new ∧
        (kept = entry.2 ∨ call = .apply entry.1 entry.2 ∧ s.closures.get? entry.1.capsuleId = some kept)) := by
  by_cases still : call.Still
  · exact ⟨old, (still.currentSeals s).symm ▸ held, Or.inl rfl⟩
  cases call with
  | createResource resourceId owner stateRoot secret =>
    rcases Call.exec_createResource_once s resourceId owner stateRoot secret with same | ⟨_, ⟨fresh, rfl⟩, update⟩
    · exact ⟨old, same ▸ held, Or.inl rfl⟩
    · exact ⟨old, update.created_keeps held, Or.inl rfl⟩
  | apply capsule closure =>
    obtain ⟨new, found, either⟩ := Call.apply_moves chained held
    refine ⟨new, found, either.imp_right fun ⟨kept, moved, origin⟩ => ?_⟩
    exact ⟨_, List.mem_singleton_self _, kept, moved, origin.imp_right fun before => ⟨rfl, before⟩⟩
  | applyBundle bundle entries =>
    rcases Call.exec_applyBundle_once s bundle entries with same | ⟨_, rfl, update⟩
    · exact ⟨old, same ▸ held, Or.inl rfl⟩
    · obtain ⟨new, found, either⟩ := update.bundled_moves chained held
      refine ⟨new, found, either.imp_right fun ⟨entry, applied, moved⟩ => ?_⟩
      exact ⟨entry, applied, entry.2, moved, Or.inl rfl⟩
  | _ => exact absurd trivial still

/-- The registered and verified closure of a capsule has moved a resource from
one seal to the next. -/
structure Advance (t : Instance) (old new : StateSeal) (capsule : Capsule) (closure : ClosureProof) : Prop where
  predecessor : capsule.predecessorId = old.sealId
  registered : t.closures.get? capsule.capsuleId = some closure
  verified : t.verifyClosure capsule closure = true
  version : new.version = old.version + 1
  epoch : new.epoch = old.epoch
  root : new.stateRoot = capsule.successorRoot
  owner : new.owner = capsule.clientId
  capability : new.capabilityHash = digest (.str capsule.capsuleId)

/-- What may become of the current seal of a resource in one call. -/
def Advances (t : Instance) (r : String) (old : StateSeal) : Prop :=
  ∃ new, t.currentSeals.get? r = some new ∧ (new = old ∨ ∃ capsule closure, Advance t old new capsule closure)

/-- An applied capsule that is already registered is registered with a closure
that verifies for it. -/
def Call.Faithful (s : Instance) (call : Call) : Prop :=
  ∀ capsule closure, call = .apply capsule closure → s.verifyClosure capsule closure = true → s.AtHead capsule →
    ∀ kept, s.closures.get? capsule.capsuleId = some kept → s.verifyClosure capsule kept = true

/-- Every current seal is still current, or a seal of a higher version is. -/
def Newer (s t : Instance) : Prop :=
  ∀ r old, s.currentSeals.get? r = some old →
    ∃ new, t.currentSeals.get? r = some new ∧ (new = old ∨ old.version < new.version)

instance : Std.Refl Newer := ⟨fun _ _ old held => ⟨old, held, Or.inl rfl⟩⟩

instance : IsTrans Instance Newer where
  trans s t u first second r old held := by
    obtain ⟨mid, heldMid, later⟩ := first r old held
    obtain ⟨new, heldNew, later'⟩ := second r mid heldMid
    refine ⟨new, heldNew, ?_⟩
    rcases later with rfl | later
    · exact later'
    · rcases later' with rfl | later'
      · exact Or.inr later
      · exact Or.inr (later.trans later')

section MovedBody
variable (pair : KeyPair)

/-- The capsule that was accepted is closed and applied. -/
def afterClosure : Instance := (Call.registerClosure (soloCapsule pair "p" "a" 0) (closureA pair)).exec (afterAccept pair)

def afterApply : Instance := (Call.apply (soloCapsule pair "p" "a" 0) (closureA pair)).exec (afterClosure pair)

theorem afterClosure_eq (sound : SignaturesVerify) :
    afterClosure pair = (afterAccept pair).addClosure (soloCapsule pair "p" "a" 0) (closureA pair) := by
  have state := afterAccept_eq pair sound
  refine Call.exec_registerClosure (afterAccept_verifies pair sound) ?_ ?_ <;>
    simp [state, soloStart, MosaicProtocol.hasConflictOn]

theorem Call.faithful_of_entries {s : Instance} {call : Call} (none : call.entries = []) : call.Faithful s := by
  rintro capsule closure rfl
  cases none

theorem afterApply_run (sound : SignaturesVerify) :
    Run (fun s call => call.Faithful s) (soloStart pair) (afterApply pair) := by
  have accepted : Run (fun s call => call.Faithful s) (soloStart pair) (afterAccept pair) :=
    ((Run.start _ (soloStart pair)).call (createCall pair) (Call.faithful_of_entries rfl)).call (acceptCall pair)
      (Call.faithful_of_entries rfl)
  have closed : Run (fun s call => call.Faithful s) (soloStart pair) (afterClosure pair) :=
    accepted.call (.registerClosure (soloCapsule pair "p" "a" 0) (closureA pair))
      (Call.faithful_of_entries rfl)
  refine closed.call (.apply (soloCapsule pair "p" "a" 0) (closureA pair)) ?_
  rintro _ _ ⟨⟩ verified - kept found
  rw [afterClosure_eq pair sound, Instance.addClosure_closures, Dict.get?_set_self] at found
  cases Option.some.inj found
  exact verified

/-- The capsule on the second resource is accepted and its closure registered. -/
def closureB : ClosureProof :=
  MosaicProtocol.closureOver (soloCapsule pair "q" "b" 0) [soloReceipt pair (soloCapsule pair "q" "b" 0) "ACCEPT"]

theorem closureB_accepted (free : CollisionFree) (sound : SignaturesVerify) :
    (afterTwoResources pair).verifyClosure (soloCapsule pair "q" "b" 0) (closureB pair) = true := by
  have state := afterTwoResources_eq pair free sound
  exact solo_verifyClosure pair sound _ _ (by simp [state]) (by simp [state, soloStart]; rfl) (by simp [state]) rfl

def beforeMove : Instance := (Call.registerClosure (soloCapsule pair "q" "b" 0) (closureB pair)).exec (afterTwoResources pair)

theorem beforeMove_eq (free : CollisionFree) (sound : SignaturesVerify) :
    beforeMove pair = (afterTwoResources pair).addClosure (soloCapsule pair "q" "b" 0) (closureB pair) := by
  have state := afterTwoResources_eq pair free sound
  refine Call.exec_registerClosure (closureB_accepted pair free sound) ?_ ?_
  · simp [state, soloStart, MosaicProtocol.hasConflictOn]
  · simp [state, soloStart]

theorem afterMove_eq (free : CollisionFree) (sound : SignaturesVerify) :
    (Call.apply (movedCapsule pair) (movedClosure pair)).exec (beforeMove pair) =
      (beforeMove pair).installSeal (nextSeal (soloSeal pair "p") (movedCapsule pair)) := by
  have before := beforeMove_eq pair free sound
  have state := afterTwoResources_eq pair free sound
  have sealsDiffer : (soloSeal pair "q").sealId ≠ (soloSeal pair "p").sealId := fun same =>
    absurd (soloSeal_inj free same) (by decide)
  have verified : (beforeMove pair).verifyClosure (movedCapsule pair) (movedClosure pair) = true := by
    rw [before, Instance.verifyClosure_addClosure]
    exact movedClosure_accepted pair free sound
  have registered : (beforeMove pair).closures.get? (movedCapsule pair).capsuleId = some (closureB pair) := by
    rw [before]
    exact Dict.get?_set_self _ _ _
  refine Call.exec_apply verified registered ?_ rfl
  · refine Option.bind_eq_some_iff.mpr ⟨soloSeal pair "p", ?_, ?_⟩
    · simp [before, state, movedCapsule, Dict.get?_set, sealsDiffer]
    · simp [before, state, soloSeal, Dict.get?_set]

/-- After the move the registered closure is not one for the seal that was replaced. -/
theorem afterMove_not_advances (free : CollisionFree) (sound : SignaturesVerify) :
    ¬ Advances ((Call.apply (movedCapsule pair) (movedClosure pair)).exec (beforeMove pair)) "p"
      (soloSeal pair "p") := by
  have before := beforeMove_eq pair free sound
  rw [afterMove_eq pair free sound]
  rintro ⟨new, found, either⟩
  have found' : some (nextSeal (soloSeal pair "p") (movedCapsule pair)) = some new :=
    (Dict.get?_set_self _ _ _).symm.trans found
  cases Option.some.inj found'
  rcases either with same | ⟨capsule, closure, advance⟩
  · have version := congrArg StateSeal.version same
    simp [nextSeal] at version
  have sameId : (soloCapsule pair "q" "b" 0).capsuleId = capsule.capsuleId := digest_str_inj free advance.capability
  have registered := advance.registered
  rw [before, Instance.installSeal_closures, Instance.addClosure_closures, ← sameId, Dict.get?_set_self] at registered
  cases Option.some.inj registered
  have predecessor := (Instance.verifyClosure_ids advance.verified).2.1
  have sealsSame : (soloSeal pair "q").sealId = (soloSeal pair "p").sealId := predecessor.trans advance.predecessor
  exact absurd (soloSeal_inj free sealsSame) (by decide)

theorem beforeMove_run : Run (fun _ _ => True) (soloStart pair) (beforeMove pair) := by
  have accepted : Run (fun _ _ => True) (soloStart pair) (afterTwoResources pair) :=
    GuardedRun.of_inputs (fun _ _ => trivial) (twoResources pair)
  exact accepted.call (.registerClosure (soloCapsule pair "q" "b" 0) (closureB pair)) trivial

theorem beforeMove_held (free : CollisionFree) (sound : SignaturesVerify) :
    (beforeMove pair).currentSeals.get? "p" = some (soloSeal pair "p") := by
  simp [beforeMove_eq pair free sound, afterTwoResources_eq pair free sound, soloSeal, Dict.get?_set]

end MovedBody

end Mosaic
