import Mosaic.Strict.Plain

namespace Mosaic.Strict
open CanonicalJson Effects Instance

variable [Crypto] [Texts] [Keyring] {s t : Instance} {capsule : Capsule} {closure : ClosureProof}

omit [Texts] [Keyring] in
/-- A closure that was registered just now is a change. -/
theorem registering_differs (new : s.closures.get? capsule.capsuleId = none)
    (same : t.closures = (registering s capsule closure).closures) : ¬ s.SameRecords t := by
  intro kept
  have found : t.closures.get? capsule.capsuleId = some closure := by
    rw [same, registering, if_neg (by simp [new])]
    exact Dict.get?_set_self _ _ _
  rw [kept.closures, new] at found
  cases found

omit [Texts] [Keyring] in
theorem registering_of_known (known : s.closures.get? capsule.capsuleId ≠ none) : registering s capsule closure = s :=
  if_pos (by
    obtain ⟨kept, found⟩ := Option.ne_none_iff_exists'.mp known
    exact Dict.contains_iff.mpr ⟨kept, found⟩)

omit [Keyring] in
/-- The seal that is replaced was another one. -/
theorem replaced_differs {current : StateSeal} (filed : Filed s) (heads : Heads s capsule current) :
    s.currentSeals.set current.resourceId (nextSeal current capsule) ≠ s.currentSeals := by
  intro same
  obtain ⟨predecessor, -, held⟩ := headOf_parts heads.head
  have here := filed _ _ held
  have moved := Dict.get?_set_self s.currentSeals current.resourceId (nextSeal current capsule)
  rw [same, here, held] at moved
  have version := congrArg StateSeal.version (Option.some.inj moved)
  simp only [nextSeal] at version
  omega

omit [Texts] [Keyring] in
/-- A seal without an identifier is current already when `apply` raises. -/
theorem torn_currentSeals {current : StateSeal} : (setCurrent (registering s capsule closure)
    (nextSeal current capsule)).currentSeals = s.currentSeals.set current.resourceId (nextSeal current capsule) := by
  rw [setCurrent_currentSeals, (registering_seals s capsule closure).1]
  rfl

/-- A call of `apply` that raises changes nothing, unless it registers the closure before it
finds the resource elsewhere, or replaces a seal by one that has no identifier. -/
theorem failed_apply_iff {members : Dict String Member} {epoch : Int}
    (run : Run (fun _ _ => True) (.fresh members epoch) s) (capsule : Capsule) (closure : ClosureProof) :
    (∀ e t, apply capsule closure s = .error e t → s.SameRecords t) ↔
      (Proceeds s capsule closure →
        (s.closures.get? capsule.capsuleId = none → ∃ current, Heads s capsule current ∨ Succeeds s capsule current) ∧
          ∀ current, Heads s capsule current → (nextSeal current capsule).statement.Encodable) := by
  have outcome := apply_outcome s capsule closure
  generalize ran : apply capsule closure s = result at outcome
  cases outcome with
  | refused e stops =>
    refine ⟨fun _ proceeds => absurd proceeds stops, fun _ e' t raised => ?_⟩
    cases raised
    exact .refl s
  | stopped e proceeds away unlike =>
    constructor
    · intro atomic _
      refine ⟨fun new => ?_, fun current heads => absurd heads (away current)⟩
      exact absurd (atomic _ _ rfl) (registering_differs new rfl)
    · intro placed e' t raised
      cases raised
      by_cases new : s.closures.get? capsule.capsuleId = none
      · obtain ⟨current, heads | succeeds⟩ := (placed proceeds).1 new
        · exact absurd heads (away current)
        · exact absurd succeeds (unlike current)
      · rw [registering_of_known new]
        exact .refl s
  | torn current proceeds heads bad =>
    constructor
    · intro atomic _
      have same := (atomic _ _ rfl).currentSeals
      rw [torn_currentSeals] at same
      exact absurd same (replaced_differs run.filed heads)
    · exact fun placed => absurd ((placed proceeds).2 current heads) bad
  | installed current proceeds heads fine =>
    refine ⟨fun _ _ => ⟨fun _ => ⟨current, Or.inl heads⟩, fun other heads' => ?_⟩, fun _ e t raised => nomatch raised⟩
    cases Option.some.inj (heads.head.symm.trans heads'.head)
    exact fine
  | known current proceeds succeeds =>
    refine ⟨fun _ _ => ⟨fun _ => ⟨current, Or.inr succeeds⟩, fun other heads => ?_⟩, fun _ e t raised => nomatch raised⟩
    obtain ⟨predecessor, known, held, -⟩ := succeeds.known
    have head : s.headOf capsule = some current := Option.bind_eq_some_iff.mpr ⟨predecessor, known, held⟩
    cases Option.some.inj (head.symm.trans heads.head)
    exact absurd heads.named succeeds.renamed

omit [Crypto] [Texts] [Keyring] in
/-- A capsule whose lock was released and whose resource has moved on. -/
theorem failed_apply_iff_overtaken : let _ := Crypto.ideal
    let _ := Texts.all
    let _ := Keyring.all
    ∃ (pair : KeyPair) (s : Instance) (entry : Capsule × ClosureProof), s = overtaken pair ∧ entry = earlierEntry pair ∧
      ((∀ e t, apply entry.1 entry.2 s = .error e t → s.SameRecords t) ↔
        (Proceeds s entry.1 entry.2 → (s.closures.get? entry.1.capsuleId = none →
            ∃ current, Heads s entry.1 current ∨ Succeeds s entry.1 current) ∧
          ∀ current, Heads s entry.1 current → (nextSeal current entry.1).statement.Encodable)) := by
  intro _ _ _
  have run : Run (fun _ _ => True) (soloStart idealKey) (overtaken idealKey) :=
    Run.of_plain (fun _ => rfl) (fun _ => rfl) (overtaken_run idealKey)
  exact ⟨idealKey, _, _, rfl, rfl, failed_apply_iff run _ _⟩

omit [Crypto] [Texts] [Keyring] in
/-- The call for this capsule raises, and its closure is registered from then on. -/
theorem failed_apply_changes : ¬ ∀ [Crypto] [Texts] [Keyring], CollisionFree → SignaturesVerify →
    ∀ (members : Dict String Member) (epoch : Int) (s : Instance), Run (fun _ _ => True) (.fresh members epoch) s →
      ∀ (capsule : Capsule) (closure : ClosureProof) (e : PyError) (t : Instance),
        apply capsule closure s = .error e t → s.SameRecords t := by
  intro claim
  let crypto := Crypto.ideal
  let texts := Texts.all
  let keys := Keyring.all
  have run : Run (fun _ _ => True) (soloStart idealKey) (overtaken idealKey) :=
    Run.of_plain (fun _ => rfl) (fun _ => rfl) (overtaken_run idealKey)
  obtain ⟨e, t, raised, differs⟩ := overtaken_leaves_closure idealKey ideal_collisionFree ideal_signaturesVerify
  rw [← apply_plain (fun _ => rfl) fun _ => rfl] at raised
  exact differs (claim ideal_collisionFree ideal_signaturesVerify _ _ _ run _ _ e t raised)

end Mosaic.Strict
