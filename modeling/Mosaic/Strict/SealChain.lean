import Mosaic.Strict.ApplyAtomicity

namespace Mosaic.Strict
open CanonicalJson Effects Instance

section Calls
variable [Crypto] [Texts] [Keyring] {s t : Instance}

/-- The seals that a call comes to make current. -/
inductive Installs (s : Instance) : Call → StateSeal → Prop
  | created {resourceId owner stateRoot secret : String} (new : s.currentSeals.get? resourceId = none)
      (encoded : Texts.encodes secret = true) :
      Installs s (.createResource resourceId owner stateRoot secret) (firstSeal s resourceId owner stateRoot secret)
  | applied {capsule : Capsule} {closure : ClosureProof} {current : StateSeal} (proceeds : Proceeds s capsule closure)
      (heads : Heads s capsule current) : Installs s (.apply capsule closure) (nextSeal current capsule)
  | bundled {bundle : BundleClosure} {entries : List (Capsule × ClosureProof)} {seals : List StateSeal}
      {fresh : StateSeal} (nonempty : entries ≠ []) (named : bundle.bundleId ≠ "")
      (covers : sorted (entries.map fun entry => entry.2.proofId) = sorted bundle.closureIds)
      (checked : ∀ entry ∈ entries, Checked s entry) (made : bundleSeals s entries = .ok seals)
      (member : fresh ∈ seals) : Installs s (.applyBundle bundle entries) fresh

/-- Every seal that the call comes to make current has an identifier. -/
def Sealable (s : Instance) (call : Call) : Prop := ∀ fresh, Installs s call fresh → fresh.statement.Encodable

/-- An applied capsule that is already registered is registered with a closure that is
verified for it. -/
def Faithful (s : Instance) (call : Call) : Prop :=
  ∀ capsule closure current, call = .apply capsule closure → Proceeds s capsule closure → Heads s capsule current →
    ∀ kept, s.closures.get? capsule.capsuleId = some kept → verifyClosure s.toMosaicProtocol capsule kept = .ok true

/-- The current seal of a resource is one of this resource, and it is known. -/
structure Chained (s : Instance) : Prop where
  resource : ∀ r current, s.currentSeals.get? r = some current → current.resourceId = r
  known : ∀ r current, s.currentSeals.get? r = some current →
    ∃ id, sealId current = .ok id ∧ s.knownSeals.get? id = some current

/-- The registered and verified closure of a capsule has moved a resource from one seal to the
next. -/
structure Advance (t : Instance) (old new : StateSeal) (capsule : Capsule) (closure : ClosureProof) : Prop where
  predecessor : sealId old = .ok capsule.predecessorId
  registered : t.closures.get? capsule.capsuleId = some closure
  verified : verifyClosure t.toMosaicProtocol capsule closure = .ok true
  version : new.version = old.version + 1
  epoch : new.epoch = old.epoch
  root : new.stateRoot = capsule.successorRoot
  owner : new.owner = capsule.clientId
  capability : digest (.str capsule.capsuleId) = .ok new.capabilityHash

/-- What may become of the current seal of a resource in one call. -/
def Advances (t : Instance) (r : String) (old : StateSeal) : Prop :=
  ∃ new, t.currentSeals.get? r = some new ∧ (new = old ∨ ∃ capsule closure, Advance t old new capsule closure)

omit [Keyring] in
theorem Chained.encodable (chained : Chained s) {r : String} {current : StateSeal}
    (held : s.currentSeals.get? r = some current) : current.statement.Encodable := by
  obtain ⟨id, named, -⟩ := chained.known r current held
  exact (sealId_eq_ok.mp named).1

omit [Keyring] in
/-- It is chained as where all texts can be encoded. -/
theorem Chained.plain (chained : Chained s) : s.Chained := by
  refine ⟨chained.resource, fun r current held => ?_⟩
  obtain ⟨id, named, known⟩ := chained.known r current held
  rwa [(sealId_eq_ok.mp named).2]

omit [Keyring] in
theorem Chained.of_plain (chained : s.Chained)
    (encodable : ∀ r current, s.currentSeals.get? r = some current → current.statement.Encodable) : Chained s :=
  ⟨chained.resource, fun r current held => ⟨current.sealId, sealId_of_encodable (encodable r current held),
    chained.known r current held⟩⟩

omit [Keyring] in
theorem Chained.same (chained : Chained s) (currents : t.currentSeals = s.currentSeals)
    (knowns : t.knownSeals = s.knownSeals) : Chained t :=
  ⟨fun r current held => chained.resource r current (currents ▸ held),
    fun r current held => knowns ▸ chained.known r current (currents ▸ held)⟩

omit [Keyring] in
/-- Seals with identifiers may be installed. -/
theorem Chained.foldl_installSeal (chained : Chained s) (free : CollisionFree) {seals : List StateSeal}
    (fine : ∀ fresh ∈ seals, fresh.statement.Encodable) : Chained (seals.foldl installSeal s) := by
  refine .of_plain (chained.plain.foldl_installSeal free seals) ?_
  induction seals using List.reverseRecOn with
  | nil => exact fun r current held => chained.encodable held
  | append_singleton seals fresh ih =>
    intro r current held
    rw [List.foldl_append, List.foldl_cons, List.foldl_nil, installSeal_currentSeals] at held
    rcases Dict.origin_of_get?_set held with ⟨rfl, rfl⟩ | old
    · exact fine current (by simp)
    · exact ih (fun earlier member => fine earlier (by simp [member])) r current old

omit [Keyring] in
theorem Chained.installSeal (chained : Chained s) (free : CollisionFree) {fresh : StateSeal}
    (fine : fresh.statement.Encodable) : Chained (s.installSeal fresh) := by
  have one : ∀ each ∈ [fresh], each.statement.Encodable := by simpa using fine
  exact chained.foldl_installSeal free one

theorem checkEntries_ok {u : Instance} {entries : List (Capsule × ClosureProof)} {result : PUnit}
    (ran : checkEntries s entries t = .ok result u) : u = t ∧ ∀ entry ∈ entries, Checked s entry := by
  have checked := checkEntries_guarantees s t entries
  exact ⟨(checked.step ran).symm, checked.returns _ _ ran⟩

/-- The seals of a bundle are installed, or the instance is what it was. -/
theorem applyBundle_cases {bundle : BundleClosure} {entries : List (Capsule × ClosureProof)}
    (sealable : Sealable s (.applyBundle bundle entries)) :
    exec (.applyBundle bundle entries) s = s ∨ (∀ entry ∈ entries, Checked s entry) ∧
      (∀ fresh ∈ s.bundleSeals entries, fresh.statement.Encodable) ∧
      exec (.applyBundle bundle entries) s = (s.bundleSeals entries).foldl installSeal s := by
  change final (applyBundle bundle entries) s = s ∨ _ ∧ _ ∧ final (applyBundle bundle entries) s = _
  unfold applyBundle
  by_cases improper : entries.isEmpty = true ∨ bundle.bundleId = ""
  · exact Or.inl (final_of_error (raiseIf_bind_pos improper _ _ _))
  by_cases uncovered : sorted (entries.map fun entry => entry.2.proofId) ≠ sorted bundle.closureIds
  · exact Or.inl (final_of_error ((raiseIf_bind_neg improper _ _ _).trans (raiseIf_bind_pos uncovered _ _ _)))
  have passed := fun f : PUnit → Py (List StateSeal) => (raiseIf_bind_neg improper
    (.closureInvalid "invalid bundle application") (fun _ => raiseIf (sorted (entries.map fun entry =>
      entry.2.proofId) ≠ sorted bundle.closureIds) (.closureInvalid "bundle closure does not cover entries") >>= f)
    s).trans (raiseIf_bind_neg uncovered _ _ _)
  cases ran : checkEntries s entries s with
  | error e u =>
    have same : s = u := (checkEntries_guarantees s s entries).step_error ran
    exact Or.inl ((final_of_error ((passed _).trans (bind_of_error ran))).trans same.symm)
  | ok result u =>
    obtain ⟨rfl, checked⟩ := checkEntries_ok ran
    cases made : bundleSeals u entries with
    | error e =>
      refine Or.inl (final_of_error (e := e) ((passed _).trans ((bind_of_ok ran).trans ?_)))
      rw [made]
      rfl
    | ok seals =>
      obtain rfl := bundleSeals_ok made
      push Not at improper
      have fine : ∀ fresh ∈ u.bundleSeals entries, fresh.statement.Encodable := fun fresh member =>
        sealable fresh (.bundled (by simpa using improper.1) improper.2 (not_not.mp uncovered) checked made member)
      refine Or.inr ⟨checked, fine, final_of_ok (a := u.bundleSeals entries) ((passed _).trans
        ((bind_of_ok ran).trans ?_))⟩
      rw [made, ofExcept_ok_bind, bind_of_ok (forM_install fine u)]
      rfl

theorem exec_chained (free : CollisionFree) (chained : Chained s) {call : Call} (sealable : Sealable s call) :
    Chained (exec call s) := by
  by_cases still : call.Still
  · obtain ⟨currents, knowns, -⟩ := exec_still still s
    exact chained.same currents knowns
  cases call with
  | createResource resourceId owner stateRoot secret =>
    rcases createResource_cases fun new encoded => sealable _ (.created new encoded) with same | ⟨fine, -, same⟩
    · rwa [show exec (.createResource resourceId owner stateRoot secret) s = s from same]
    · rw [show exec (.createResource resourceId owner stateRoot secret) s = _ from same]
      exact chained.installSeal free fine
  | apply capsule closure =>
    obtain ⟨currents, knowns⟩ := registering_seals s capsule closure
    have registered := chained.same currents knowns
    have outcome := apply_outcome s capsule closure
    change Chained (final (apply capsule closure) s)
    generalize ran : apply capsule closure s = result at outcome
    cases outcome with
    | refused e stops => rwa [final_of_error ran]
    | stopped e proceeds away unlike => rwa [final_of_error ran]
    | torn current proceeds heads bad => exact absurd (sealable _ (.applied proceeds heads)) bad
    | installed current proceeds heads fine =>
      rw [final_of_ok ran]
      exact registered.installSeal free fine
    | known current proceeds succeeds => rwa [final_of_ok ran]
  | applyBundle bundle entries =>
    rcases applyBundle_cases sealable with same | ⟨-, fine, same⟩
    · rwa [same]
    · rw [same]
      exact chained.foldl_installSeal free fine
  | _ => exact absurd trivial still

theorem apply_advances (chained : Chained s) {capsule : Capsule} {closure : ClosureProof}
    (sealable : Sealable s (.apply capsule closure)) (faithful : Faithful s (.apply capsule closure)) {r : String}
    {old : StateSeal} (held : s.currentSeals.get? r = some old) : Advances (exec (.apply capsule closure) s) r old := by
  obtain ⟨currents, -⟩ := registering_seals s capsule closure
  have outcome := apply_outcome s capsule closure
  change Advances (final (apply capsule closure) s) r old
  generalize ran : apply capsule closure s = result at outcome
  cases outcome with
  | refused e stops => exact ⟨old, by rwa [final_of_error ran], Or.inl rfl⟩
  | stopped e proceeds away unlike => exact ⟨old, by rwa [final_of_error ran, currents], Or.inl rfl⟩
  | torn current proceeds heads bad => exact absurd (sealable _ (.applied proceeds heads)) bad
  | known current proceeds succeeds => exact ⟨old, by rwa [final_of_ok ran, currents], Or.inl rfl⟩
  | installed current proceeds heads fine =>
    obtain ⟨predecessor, -, heldCurrent⟩ := headOf_parts heads.head
    have resource := chained.resource _ _ heldCurrent
    rw [final_of_ok ran]
    by_cases here : current.resourceId = r
    swap
    · refine ⟨old, ?_, Or.inl rfl⟩
      rw [installSeal_currentSeals, currents]
      exact (Dict.get?_set_of_ne _ _ here).trans held
    rw [← resource, here, held] at heldCurrent
    cases Option.some.inj heldCurrent
    refine ⟨nextSeal old capsule, ?_, Or.inr ?_⟩
    · rw [installSeal_currentSeals, currents]
      exact here ▸ Dict.get?_set_self _ _ _
    -- the closure that stands for the capsule is the new one or the one that stood there before
    have stands : ∃ kept, (registering s capsule closure).closures.get? capsule.capsuleId = some kept ∧
        verifyClosure s.toMosaicProtocol capsule kept = .ok true := by
      cases registered : s.closures.get? capsule.capsuleId with
      | some kept =>
        rw [registering_of_known (by simp [registered])]
        exact ⟨kept, registered, faithful capsule closure old rfl proceeds heads kept registered⟩
      | none =>
        refine ⟨closure, ?_, proceeds.verified⟩
        rw [registering, if_neg (by simp [registered])]
        exact Dict.get?_set_self _ _ _
    obtain ⟨kept, registered, verified⟩ := stands
    have verifies : verifyClosure ((registering s capsule closure).installSeal (nextSeal old capsule)).toMosaicProtocol =
        verifyClosure s.toMosaicProtocol := by
      unfold registering
      split <;> exact verifyClosure_congr rfl rfl rfl
    refine ⟨capsule, kept, sealId_eq_ok.mpr ⟨heads.readable, heads.named⟩, registered, ?_, rfl, rfl, rfl, rfl, ?_⟩
    · rw [verifies]
      exact verified
    · exact digest_of_encodable (encodable_str.mpr (encodes_of_verified proceeds.verified))

/-- One call leaves the current seal of a resource, or advances it by one. -/
theorem exec_advances (chained : Chained s) {call : Call} (sealable : Sealable s call) (faithful : Faithful s call)
    {r : String} {old : StateSeal} (held : s.currentSeals.get? r = some old) : Advances (exec call s) r old := by
  by_cases still : call.Still
  · exact ⟨old, by rwa [(exec_still still s).1], Or.inl rfl⟩
  cases call with
  | createResource resourceId owner stateRoot secret =>
    rcases createResource_cases fun new encoded => sealable _ (.created new encoded) with same | ⟨-, new, same⟩
    · exact ⟨old, (congrArg (fun t : Instance => t.currentSeals.get? r) same).trans held, Or.inl rfl⟩
    · refine ⟨old, (congrArg (fun t : Instance => t.currentSeals.get? r) same).trans ?_, Or.inl rfl⟩
      refine (Dict.get?_set_of_ne _ _ ?_).trans held
      rintro rfl
      exact absurd (new.symm.trans held) (by simp)
  | apply capsule closure => exact apply_advances chained sealable faithful held
  | applyBundle bundle entries =>
    rcases applyBundle_cases sealable with same | ⟨checked, -, same⟩
    · exact ⟨old, by rwa [same], Or.inl rfl⟩
    have ready : ∀ entry ∈ entries, s.Ready entry.1 entry.2 := fun entry member =>
      ⟨(checked entry member).registered, verifyClosure_ok (checked entry member).verified, (checked entry member).current⟩
    have update : Update (.bundled entries) s (exec (.applyBundle bundle entries) s) := same ▸ .bundled ready
    obtain ⟨new, found, either⟩ := update.bundled_moves chained.plain held
    refine ⟨new, found, either.imp_right fun ⟨entry, member, moved⟩ => ?_⟩
    obtain ⟨-, -, named, made, registered, -⟩ := moved
    have verified := (checked entry member).verified
    subst made
    refine ⟨entry.1, entry.2, sealId_eq_ok.mpr ⟨chained.encodable held, named.symm⟩, registered, ?_, rfl, rfl, rfl, rfl, ?_⟩
    · obtain ⟨currentSeals, knownSeals, whole⟩ := Instance.foldl_installSeal (s.bundleSeals entries) s
      rw [same, whole]
      have verifies := @verifyClosure_congr _ _ _ s.toMosaicProtocol
        { s.toMosaicProtocol with currentSeals, knownSeals } rfl rfl rfl
      exact (congrFun (congrFun verifies _) _).trans verified
    · exact digest_of_encodable (encodable_str.mpr (encodes_of_verified verified))
  | _ => exact absurd trivial still

/-- The calls of which the claim about the seals holds. -/
def Sealing (s : Instance) (call : Call) : Prop := Sealable s call ∧ Faithful s call

theorem exec_newer (chained : Chained s) {call : Call} (sealing : Sealing s call) : Newer s (exec call s) := by
  intro r old held
  obtain ⟨new, found, same | ⟨capsule, closure, advance⟩⟩ := exec_advances chained sealing.1 sealing.2 held
  · exact ⟨new, found, Or.inl same⟩
  · exact ⟨new, found, Or.inr (by have := advance.version; omega)⟩

/-- The seals of every resource form a chain: current seals are known and filed under their
resource, a call moves a resource at most one seal further, by a capsule with a registered and
verified closure, and no seal comes back. -/
structure SealChain (allowed : Instance → Call → Prop) (s : Instance) : Prop where
  chained : Chained s
  advances : ∀ call, allowed s call → ∀ r old, s.currentSeals.get? r = some old → Advances (exec call s) r old
  forward : ∀ t u, Run allowed s t → Run allowed t u → ∀ r old mid, s.currentSeals.get? r = some old →
    t.currentSeals.get? r = some mid → mid ≠ old → u.currentSeals.get? r ≠ some old

theorem Run.chained (run : Run Sealing s t) (free : CollisionFree) (chained : Chained s) : Chained t :=
  run.invariant chained fun _ _ sealing before => exec_chained free before sealing.1

theorem Run.newer (run : Run Sealing s t) (free : CollisionFree) (chained : Chained s) : Newer s t :=
  run.relates chained (fun _ _ sealing before => exec_chained free before sealing.1)
    fun _ _ sealing before => exec_newer before sealing

/-- Where only capsules are applied whose registered closure is verified for them, and every
seal that is put in place has an identifier, the seals form a chain in every run. -/
theorem seal_chain (free : CollisionFree) {members : Dict String Member} {epoch : Int}
    (run : Run Sealing (.fresh members epoch) s) : SealChain Sealing s := by
  have fresh : Chained (.fresh members epoch) := ⟨fun _ _ held => (nomatch held), fun _ _ held => (nomatch held)⟩
  have chained := run.chained free fresh
  refine ⟨chained, fun call sealing r old held => exec_advances chained sealing.1 sealing.2 held, ?_⟩
  intro t u first second r old mid heldOld heldMid moved back
  obtain ⟨mid', found, either⟩ := first.newer free chained r old heldOld
  cases Option.some.inj (heldMid.symm.trans found)
  obtain ⟨new, found', either'⟩ := second.newer free (first.chained free chained) r mid heldMid
  cases Option.some.inj (back.symm.trans found')
  have later := either.resolve_left moved
  rcases either' with same | later'
  · exact moved same.symm
  · omega

end Calls

section Plain
variable [Crypto] [Texts] [Keyring]

theorem Sealing.of_plain (texts : AllEncode) (keys : AllKeyed) {s : Instance} {call : Call} (faithful : call.Faithful s) :
    Sealing s call := by
  refine ⟨fun _ _ text _ => texts text, ?_⟩
  intro capsule closure current same proceeds heads kept registered
  rw [verifyClosure_plain texts keys, faithful capsule closure same (verifyClosure_ok proceeds.verified)
    ⟨current, heads.head, heads.named⟩ kept registered]

/-- What advances, advances as where all texts can be encoded. -/
theorem Advances.plain {t : Instance} {r : String} {old : StateSeal} (advances : Advances t r old) :
    Mosaic.Advances t r old := by
  obtain ⟨new, found, either⟩ := advances
  refine ⟨new, found, either.imp_right fun ⟨capsule, closure, advance⟩ => ⟨capsule, closure, ?_⟩⟩
  exact ⟨(sealId_eq_ok.mp advance.predecessor).2.symm, advance.registered, verifyClosure_ok advance.verified,
    advance.version, advance.epoch, advance.root, advance.owner, (digest_eq_ok.mp advance.capability).2.symm⟩

end Plain

/-- A capsule is accepted, closed and applied. -/
theorem seal_chain_solo : let _ := Crypto.ideal
    let _ := Texts.all
    let _ := Keyring.all
    ∃ pair : KeyPair, SealChain Sealing (afterApply pair) := by
  intro _ _ _
  have texts : AllEncode := fun _ => rfl
  have keys : AllKeyed := fun _ => rfl
  have run := (afterApply_run idealKey ideal_signaturesVerify).mono fun _ _ faithful => Sealing.of_plain texts keys faithful
  exact ⟨idealKey, seal_chain ideal_collisionFree (Run.of_plain texts keys run)⟩

/-- Without that condition a body with another predecessor can be applied under the identifier
of a registered capsule: the closure of the first resource's new seal is the one of a capsule
on the second. -/
theorem seal_chain_breaks : ¬ ∀ [Crypto] [Texts] [Keyring], CollisionFree → ∀ (members : Dict String Member)
    (epoch : Int) (s : Instance), Run (fun _ _ => True) (.fresh members epoch) s → SealChain (fun _ _ => True) s := by
  intro claim
  let crypto := Crypto.ideal
  let allTexts := Texts.all
  let allKeys := Keyring.all
  have texts : AllEncode := fun _ => rfl
  have keys : AllKeyed := fun _ => rfl
  have chain := claim ideal_collisionFree _ _ _ (Run.of_plain texts keys (beforeMove_run idealKey))
  have advances := (chain.advances (.apply (movedCapsule idealKey) (movedClosure idealKey)) trivial "p"
    (soloSeal idealKey "p") (beforeMove_held idealKey ideal_collisionFree ideal_signaturesVerify)).plain
  rw [exec_plain texts keys] at advances
  exact afterMove_not_advances idealKey ideal_collisionFree ideal_signaturesVerify advances

end Mosaic.Strict
