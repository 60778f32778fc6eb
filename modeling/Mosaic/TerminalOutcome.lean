import Mosaic.ClosureAbandonment

namespace Mosaic
open CanonicalJson Effects

variable [Crypto]

def ConflictEvidence.statement (evidence : ConflictEvidence) : Json :=
  conflictStatement evidence.predecessorId evidence.capsuleA evidence.capsuleB
    [evidence.signatures.1, evidence.signatures.2]

theorem ConflictEvidence.create_ok {first second : Capsule} {evidence : ConflictEvidence}
    (made : ConflictEvidence.create first second = .ok evidence) :
    evidence.evidenceId = digest evidence.statement ∧
      (evidence.capsuleA = first.capsuleId ∧ evidence.capsuleB = second.capsuleId ∨
        evidence.capsuleA = second.capsuleId ∧ evidence.capsuleB = first.capsuleId) := by
  unfold ConflictEvidence.create at made
  split at made
  · cases made
  split at made
  · cases made
  by_cases ordered : first.capsuleId ≤ second.capsuleId
  · simp only [if_pos ordered] at made
    cases Except.ok.inj made
    exact ⟨rfl, Or.inl ⟨rfl, rfl⟩⟩
  · simp only [if_neg ordered] at made
    cases Except.ok.inj made
    exact ⟨rfl, Or.inr ⟨rfl, rfl⟩⟩

theorem ConflictEvidence.capsules_of_digest (free : CollisionFree) {evidence evidence' : ConflictEvidence}
    (same : digest evidence.statement = digest evidence'.statement) :
    evidence.capsuleA = evidence'.capsuleA ∧ evidence.capsuleB = evidence'.capsuleB := by
  have member := lookup_eq_of_digest free same
  have a := member "capsule_a"
  have b := member "capsule_b"
  simp [List.lookup_cons, Json.sortKeys] at a b
  exact ⟨a, b⟩

namespace Instance

/-- Known seals are filed under their identifiers, their resources have current
seals, and a seal that is not the first carries the identifier of a closed
capsule; conflict evidence is filed under its digest. -/
structure Filed (s : Instance) : Prop where
  chained : s.Chained
  sealKey : ∀ k seal', s.knownSeals.get? k = some seal' → seal'.sealId = k
  resource : ∀ k seal', s.knownSeals.get? k = some seal' → s.currentSeals.contains seal'.resourceId = true
  version : ∀ k seal', s.knownSeals.get? k = some seal' → 0 ≤ seal'.version
  capability : ∀ k seal', s.knownSeals.get? k = some seal' → 0 < seal'.version →
    ∃ capsuleId, seal'.capabilityHash = digest (.str capsuleId) ∧ s.closures.contains capsuleId = true
  evidence : ∀ k evidence, s.conflictEvidence.get? k = some evidence → k = digest evidence.statement

variable {s t : Instance}

/-- A seal may be installed when it is a first seal or belongs to a closed capsule. -/
theorem Filed.installSeal (filed : s.Filed) (free : CollisionFree) {fresh : StateSeal} (version : 0 ≤ fresh.version)
    (capability : 0 < fresh.version →
      ∃ capsuleId, fresh.capabilityHash = digest (.str capsuleId) ∧ s.closures.contains capsuleId = true) :
    (s.installSeal fresh).Filed := by
  have cases : ∀ k seal', (s.installSeal fresh).knownSeals.get? k = some seal' →
      seal' = fresh ∧ fresh.sealId = k ∨ s.knownSeals.get? k = some seal' := by
    intro k seal' found
    rw [installSeal_knownSeals, Dict.get?_set] at found
    split at found
    · rename_i here
      exact Or.inl ⟨(Option.some.inj found).symm, here⟩
    · exact Or.inr found
  refine ⟨filed.chained.installSeal free fresh, fun k seal' found => ?_, fun k seal' found => ?_,
    fun k seal' found => ?_, fun k seal' found later => ?_, filed.evidence⟩ <;>
    rcases cases k seal' found with ⟨rfl, rfl⟩ | old
  · rfl
  · exact filed.sealKey k seal' old
  · simp [Dict.contains]
  · exact Dict.contains_set (filed.resource k seal' old)
  · exact version
  · exact filed.version k seal' old
  · exact capability later
  · exact filed.capability k seal' old later

theorem Filed.foldl_installSeal (filed : s.Filed) (free : CollisionFree) {seals : List StateSeal}
    (proper : ∀ fresh ∈ seals, 0 ≤ fresh.version ∧
      ∃ capsuleId, fresh.capabilityHash = digest (.str capsuleId) ∧ s.closures.contains capsuleId = true) :
    (seals.foldl Instance.installSeal s).Filed := by
  induction seals generalizing s with
  | nil => exact filed
  | cons fresh seals ih =>
    rw [List.forall_mem_cons] at proper
    obtain ⟨⟨version, capability⟩, later⟩ := proper
    exact ih (filed.installSeal free version fun _ => capability) later

theorem Filed.head_version (filed : s.Filed) {capsule : Capsule} {current : StateSeal}
    (head : s.headOf capsule = some current) : 0 ≤ current.version := by
  obtain ⟨predecessor, -, held⟩ := headOf_parts head
  exact filed.version _ _ (filed.chained.known _ _ held)

theorem Filed.bundleSeals (filed : s.Filed) {entries : List (Capsule × ClosureProof)}
    (ready : ∀ entry ∈ entries, s.Ready entry.1 entry.2) : ∀ fresh ∈ s.bundleSeals entries,
      0 < fresh.version ∧ ∃ entry ∈ entries, fresh.capabilityHash = digest (.str entry.1.capsuleId) ∧
        s.closures.contains entry.1.capsuleId = true := by
  intro fresh member
  obtain ⟨entry, inEntries, current, matching, rfl⟩ := mem_bundleSeals member
  obtain ⟨-, r, held⟩ := currentFor_named matching
  have version := filed.version _ _ (filed.chained.known _ _ held)
  refine ⟨?_, entry, inEntries, rfl, Dict.contains_iff.mpr ⟨_, (ready entry inEntries).registered⟩⟩
  simp only [nextSeal]
  omega

end Instance
open Instance

theorem Update.filed {event : Event} {s t : Instance} (update : Update event s t) (free : CollisionFree)
    (filed : s.Filed) : t.Filed := by
  cases update with
  | created new epoch version capability => exact filed.installSeal free version.ge fun later => by omega
  | installed verified registered head named =>
    have version := filed.head_version head
    exact filed.installSeal free (by simp only [nextSeal]; omega)
      fun _ => ⟨_, rfl, Dict.contains_iff.mpr ⟨_, registered⟩⟩
  | bundled ready =>
    refine filed.foldl_installSeal free fun fresh member => ?_
    obtain ⟨version, entry, -, capability, closed⟩ := filed.bundleSeals ready fresh member
    exact ⟨version.le, _, capability, closed⟩
  | registered verified clean new =>
    refine ⟨⟨filed.chained.resource, filed.chained.known⟩, filed.sealKey, filed.resource, filed.version, ?_,
      filed.evidence⟩
    intro k seal' found later
    obtain ⟨capsuleId, capability, closed⟩ := filed.capability k seal' found later
    exact ⟨capsuleId, capability, Dict.contains_set closed⟩
  | contested valid held stored other refused made =>
    refine ⟨⟨filed.chained.resource, filed.chained.known⟩, filed.sealKey, filed.resource, filed.version,
      filed.capability, fun k evidence found => ?_⟩
    rw [addEvidence_conflictEvidence, Dict.get?_set] at found
    split at found
    · rename_i here
      cases Option.some.inj found
      exact here.symm.trans (ConflictEvidence.create_ok made).1
    · exact filed.evidence k evidence found
  | _ =>
    exact ⟨⟨filed.chained.resource, filed.chained.known⟩, filed.sealKey, filed.resource, filed.version,
      filed.capability, filed.evidence⟩

/-- Some conflict evidence names the capsule identifier. -/
def Instance.Named (s : Instance) (capsuleId : String) : Prop :=
  ∃ k evidence, s.conflictEvidence.get? k = some evidence ∧
    (capsuleId = evidence.capsuleA ∨ capsuleId = evidence.capsuleB)

/-- A known seal follows the predecessor of the capsule as the capsule asks. -/
def Instance.Succeeded (s : Instance) (capsule : Capsule) : Prop :=
  ∃ predecessor k known, s.knownSeals.get? capsule.predecessorId = some predecessor ∧
    s.knownSeals.get? k = some known ∧ known.version = predecessor.version + 1 ∧
    known.stateRoot = capsule.successorRoot ∧ known.capabilityHash = digest (.str capsule.capsuleId)

theorem Instance.Filed.successorOf_isSome {s : Instance} (filed : s.Filed) (capsule : Capsule) :
    (s.successorOf capsule).isSome = true ↔ s.Succeeded capsule := by
  rw [MosaicProtocol.successorOf, List.find?_isSome]
  constructor
  · rintro ⟨known, member, matching⟩
    simp only [Bool.and_eq_true, decide_eq_true_eq] at matching
    obtain ⟨⟨⟨-, version⟩, root⟩, capability⟩ := matching
    obtain ⟨k, found⟩ := Dict.mem_values.mp member
    cases predecessor : s.knownSeals.get? capsule.predecessorId with
    | none =>
      rw [predecessor, Option.getD_none] at version
      omega
    | some seal' =>
      rw [predecessor, Option.getD_some] at version
      exact ⟨seal', k, known, predecessor, found, version, root, capability⟩
  · rintro ⟨predecessor, k, known, foundPredecessor, found, version, root, capability⟩
    refine ⟨known, Dict.mem_values_of_get? found, ?_⟩
    simp only [foundPredecessor, Option.getD_some, filed.resource k known found, version, root, capability,
      decide_true, Bool.and_self]

theorem Instance.named_iff {s : Instance} {capsuleId : String} : s.Named capsuleId ↔
    (s.conflictEvidence.values.find? fun evidence =>
      capsuleId = evidence.capsuleA ∨ capsuleId = evidence.capsuleB).isSome = true := by
  rw [List.find?_isSome]
  constructor
  · rintro ⟨k, evidence, found, named⟩
    exact ⟨evidence, Dict.mem_values_of_get? found, by simpa using named⟩
  · rintro ⟨evidence, member, named⟩
    obtain ⟨k, found⟩ := Dict.mem_values.mp member
    exact ⟨k, evidence, found, by simpa using named⟩

/-- A seal that follows as asked was installed for this capsule identifier, so it
is closed. -/
theorem Instance.Filed.closed_of_succeeded {s : Instance} (filed : s.Filed) (free : CollisionFree) {capsule : Capsule}
    (succeeded : s.Succeeded capsule) : s.closures.contains capsule.capsuleId = true := by
  obtain ⟨predecessor, k, known, foundPredecessor, found, version, -, capability⟩ := succeeded
  have natural := filed.version _ _ foundPredecessor
  obtain ⟨capsuleId, capability', closed⟩ := filed.capability k known found (by omega)
  rwa [digest_str_inj free (capability.symm.trans capability')]

/-- What `transition_outcome` finds of each kind, in the order in which it looks. -/
def Instance.HasOutcome (s : Instance) (capsule : Capsule) : ECTCStatus → Prop
  | .closed => s.Succeeded capsule
  | .conflict => ¬ s.Succeeded capsule ∧ s.Named capsule.capsuleId
  | .abandoned => ¬ s.Succeeded capsule ∧ ¬ s.Named capsule.capsuleId ∧
      s.abandons.contains capsule.capsuleId = true

theorem Instance.Filed.outcome_iff {s : Instance} (filed : s.Filed) (free : CollisionFree) (capsule : Capsule)
    (status : ECTCStatus) :
    (∃ outcome, s.transitionOutcome capsule = some outcome ∧ outcome.status = status) ↔
      s.HasOutcome capsule status := by
  have closed : s.Succeeded capsule → s.closures.contains capsule.capsuleId = true :=
    filed.closed_of_succeeded free
  cases status <;> simp only [HasOutcome] <;> rw [← filed.successorOf_isSome] at * <;> try rw [Instance.named_iff]
  all_goals
    unfold MosaicProtocol.transitionOutcome Dict.contains at *
    revert closed
    cases s.closures.get? capsule.capsuleId <;> cases s.successorOf capsule <;>
      cases s.conflictEvidence.values.find? (fun evidence =>
        capsule.capsuleId = evidence.capsuleA ∨ capsule.capsuleId = evidence.capsuleB) <;>
      cases s.abandons.get? capsule.capsuleId <;> simp

/-- The change installs a seal for a capsule of this identifier. -/
def Event.Installs (capsuleId : String) : Event → Prop
  | .installed capsule _ => capsule.capsuleId = capsuleId
  | .bundled entries => ∃ entry ∈ entries, entry.1.capsuleId = capsuleId
  | _ => False

/-- The change records a conflict of a capsule of this identifier. -/
def Event.Contests (capsuleId : String) : Event → Prop
  | .contested _ first second => capsuleId = first.capsuleId ∨ capsuleId = second.capsuleId
  | _ => False

theorem Instance.knownSeals_foldl_installSeal {s : Instance} (free : CollisionFree)
    (sealKey : ∀ k seal', s.knownSeals.get? k = some seal' → seal'.sealId = k) (seals : List StateSeal) {k : String}
    {known : StateSeal} (found : s.knownSeals.get? k = some known) :
    (seals.foldl installSeal s).knownSeals.get? k = some known := by
  induction seals using List.reverseRecOn with
  | nil => exact found
  | append_singleton seals fresh ih =>
    rw [List.foldl_append, List.foldl_cons, List.foldl_nil, installSeal_knownSeals, Dict.get?_set]
    split
    · rename_i here
      rw [StateSeal.eq_of_sealId free (here.trans (sealKey k known found).symm)]
    · exact ih

theorem Instance.mem_of_foldl_installSeal {s : Instance} (seals : List StateSeal) {k : String} {known : StateSeal}
    (found : (seals.foldl installSeal s).knownSeals.get? k = some known) :
    s.knownSeals.get? k = some known ∨ known ∈ seals := by
  induction seals using List.reverseRecOn with
  | nil => exact Or.inl found
  | append_singleton seals fresh ih =>
    rw [List.foldl_append, List.foldl_cons, List.foldl_nil, installSeal_knownSeals, Dict.get?_set] at found
    split at found
    · cases Option.some.inj found
      exact Or.inr (by simp)
    · exact (ih found).imp_right fun member => List.mem_append_left _ member

/-- A seal that was installed is known. -/
theorem Instance.known_of_mem_foldl_installSeal (free : CollisionFree) {fresh : StateSeal} {seals : List StateSeal}
    (member : fresh ∈ seals) (s : Instance) :
    (seals.foldl installSeal s).knownSeals.get? fresh.sealId = some fresh := by
  induction seals using List.reverseRecOn with
  | nil => cases member
  | append_singleton seals last ih =>
    rw [List.foldl_append, List.foldl_cons, List.foldl_nil, installSeal_knownSeals, Dict.get?_set]
    by_cases same : last.sealId = fresh.sealId
    · rw [if_pos same, StateSeal.eq_of_sealId free same]
    · rw [if_neg same]
      rcases List.mem_append.mp member with earlier | here
      · exact ih earlier
      · exact absurd (congrArg StateSeal.sealId (List.mem_singleton.mp here)).symm same

namespace Update

variable {event : Event} {s t : Instance}

theorem knownSeals (update : Update event s t) (free : CollisionFree) (filed : s.Filed) {k : String}
    {known : StateSeal} (found : s.knownSeals.get? k = some known) : t.knownSeals.get? k = some known := by
  cases update with
  | created new epoch version capability =>
    exact knownSeals_foldl_installSeal free filed.sealKey [_] found
  | installed verified registered head named =>
    exact knownSeals_foldl_installSeal free filed.sealKey [_] found
  | bundled ready => exact knownSeals_foldl_installSeal free filed.sealKey _ found
  | _ => exact found

/-- A new seal is a first seal or belongs to an installed capsule. -/
theorem knownSeals_cases (update : Update event s t) (filed : s.Filed) {k : String} {known : StateSeal}
    (found : t.knownSeals.get? k = some known) : s.knownSeals.get? k = some known ∨ known.version = 0 ∨
      ∃ capsuleId, event.Installs capsuleId ∧ known.capabilityHash = digest (.str capsuleId) := by
  cases update with
  | created new epoch version capability =>
    rcases mem_of_foldl_installSeal [_] found with old | fresh
    · exact Or.inl old
    · rw [List.mem_singleton.mp fresh]
      exact Or.inr (Or.inl version)
  | installed verified registered head named =>
    rcases mem_of_foldl_installSeal [_] found with old | fresh
    · exact Or.inl old
    · rw [List.mem_singleton.mp fresh]
      exact Or.inr (Or.inr ⟨_, rfl, rfl⟩)
  | bundled ready =>
    rcases mem_of_foldl_installSeal _ found with old | fresh
    · exact Or.inl old
    · obtain ⟨-, entry, inEntries, capability, -⟩ := filed.bundleSeals ready known fresh
      exact Or.inr (Or.inr ⟨_, ⟨entry, inEntries, rfl⟩, capability⟩)
  | _ => exact Or.inl found

theorem closures_contains (update : Update event s t) {capsuleId : String}
    (closed : s.closures.contains capsuleId = true) : t.closures.contains capsuleId = true := by
  cases update with
  | registered verified clean new => exact Dict.contains_set closed
  | bundled ready =>
    obtain ⟨currents, knowns, same⟩ := foldl_installSeal (s.bundleSeals _) s
    rwa [same]
  | _ => exact closed

theorem abandons_contains (update : Update event s t) {capsuleId : String}
    (abandoned : s.abandons.contains capsuleId = true) : t.abandons.contains capsuleId = true := by
  cases update with
  | abandoned unclosed heavy made => exact Dict.contains_set abandoned
  | bundled ready =>
    obtain ⟨currents, knowns, same⟩ := foldl_installSeal (s.bundleSeals _) s
    rwa [same]
  | _ => exact abandoned

theorem named (update : Update event s t) (free : CollisionFree) (filed : s.Filed) {capsuleId : String}
    (named : s.Named capsuleId) : t.Named capsuleId := by
  obtain ⟨k, evidence, found, either⟩ := named
  cases update with
  | @contested _ _ first second lock fresh valid held stored other refused made =>
    by_cases here : fresh.evidenceId = k
    · refine ⟨k, fresh, (Dict.get?_set _ _ _ _).trans (if_pos here), ?_⟩
      have digests := ((ConflictEvidence.create_ok made).1.symm.trans here).trans (filed.evidence k evidence found)
      obtain ⟨sameA, sameB⟩ := ConflictEvidence.capsules_of_digest free digests
      rw [sameA, sameB]
      exact either
    · exact ⟨k, evidence, (Dict.get?_set_of_ne _ _ here).trans found, either⟩
  | bundled ready =>
    obtain ⟨currents, knowns, same⟩ := foldl_installSeal (s.bundleSeals _) s
    rw [same]
    exact ⟨k, evidence, found, either⟩
  | _ => exact ⟨k, evidence, found, either⟩

/-- Only a conflict of its own makes a capsule named. -/
theorem named_cases (update : Update event s t) {capsuleId : String} (named : t.Named capsuleId) :
    s.Named capsuleId ∨ event.Contests capsuleId := by
  obtain ⟨k, evidence, found, either⟩ := named
  cases update with
  | @contested _ _ first second lock fresh valid held stored other refused made =>
    rw [addEvidence_conflictEvidence, Dict.get?_set] at found
    split at found
    · cases Option.some.inj found
      rcases (ConflictEvidence.create_ok made).2 with ⟨a, b⟩ | ⟨a, b⟩
      · rw [a, b] at either
        exact Or.inr either
      · rw [a, b] at either
        exact Or.inr either.symm
    · exact Or.inl ⟨k, evidence, found, either⟩
  | bundled ready =>
    obtain ⟨currents, knowns, same⟩ := foldl_installSeal (s.bundleSeals _) s
    rw [same] at found
    exact Or.inl ⟨k, evidence, found, either⟩
  | _ => exact Or.inl ⟨k, evidence, found, either⟩

theorem succeeded (update : Update event s t) (free : CollisionFree) (filed : s.Filed) {capsule : Capsule}
    (succeeded : s.Succeeded capsule) : t.Succeeded capsule := by
  obtain ⟨predecessor, k, known, foundPredecessor, found, matching⟩ := succeeded
  exact ⟨predecessor, k, known, update.knownSeals free filed foundPredecessor, update.knownSeals free filed found,
    matching⟩

end Update

/-- The predecessor of the capsule is known, or no seal was ever installed for a
capsule of its identifier. -/
def Instance.Settled (s : Instance) (capsule : Capsule) : Prop :=
  (∃ predecessor, s.knownSeals.get? capsule.predecessorId = some predecessor) ∨
    ∀ k known, s.knownSeals.get? k = some known → 0 < known.version →
      known.capabilityHash ≠ digest (.str capsule.capsuleId)

theorem Update.settled {event : Event} {s t : Instance} (update : Update event s t) (free : CollisionFree)
    (filed : s.Filed) {capsule : Capsule} (settled : s.Settled capsule)
    (others : ¬ event.Installs capsule.capsuleId) : t.Settled capsule := by
  rcases settled with ⟨predecessor, found⟩ | none
  · exact Or.inl ⟨predecessor, update.knownSeals free filed found⟩
  · refine Or.inr fun k known found later same => ?_
    rcases update.knownSeals_cases filed found with old | first | ⟨capsuleId, installs, capability⟩
    · exact none k known old later same
    · omega
    · rw [digest_str_inj free (same.symm.trans capability)] at others
      exact others installs

/-- No successor turns up for a settled capsule unless one is installed for it. -/
theorem Update.succeeded_before {event : Event} {s t : Instance} (update : Update event s t) (free : CollisionFree)
    (filed : s.Filed) {capsule : Capsule} (settled : s.Settled capsule)
    (others : ¬ event.Installs capsule.capsuleId) (succeeded : t.Succeeded capsule) : s.Succeeded capsule := by
  obtain ⟨predecessor, k, known, foundPredecessor, found, version, root, capability⟩ := succeeded
  have natural := (update.filed free filed).version _ _ foundPredecessor
  rcases update.knownSeals_cases filed found with old | first | ⟨capsuleId, installs, capability'⟩
  · rcases settled with ⟨predecessor', found'⟩ | none
    · cases Option.some.inj ((update.knownSeals free filed found').symm.trans foundPredecessor)
      exact ⟨predecessor, k, known, found', old, version, root, capability⟩
    · exact absurd capability (none k known old (by omega))
  · omega
  · rw [digest_str_inj free (capability.symm.trans capability')] at others
    exact absurd installs others

/-- The change does not touch a capsule that is contested or abandoned: it neither
installs it, nor contests it once it is abandoned. -/
structure Event.Spares (event : Event) (s : Instance) (capsuleId : String) : Prop where
  installs : event.Installs capsuleId → ¬ s.Named capsuleId ∧ s.abandons.contains capsuleId = false
  contests : event.Contests capsuleId → s.abandons.contains capsuleId = false

/-- An outcome together with what it rests on in the states to come. -/
def Instance.Terminal (s : Instance) (capsule : Capsule) (status : ECTCStatus) : Prop :=
  s.HasOutcome capsule status ∧ (status ≠ .closed → s.Settled capsule)

theorem Update.terminal {event : Event} {s t : Instance} (update : Update event s t) (free : CollisionFree)
    (filed : s.Filed) {capsule : Capsule} {status : ECTCStatus} (terminal : s.Terminal capsule status)
    (spares : event.Spares s capsule.capsuleId) : t.Terminal capsule status := by
  obtain ⟨outcome, settled⟩ := terminal
  cases status with
  | closed => exact ⟨update.succeeded free filed outcome, fun other => absurd rfl other⟩
  | conflict =>
    have settled := settled (by decide)
    obtain ⟨open', named⟩ := outcome
    have others : ¬ event.Installs capsule.capsuleId := fun installs => (spares.installs installs).1 named
    exact ⟨⟨fun succeeded => open' (update.succeeded_before free filed settled others succeeded),
      update.named free filed named⟩, fun _ => update.settled free filed settled others⟩
  | abandoned =>
    have settled := settled (by decide)
    obtain ⟨open', unnamed, abandoned⟩ := outcome
    have others : ¬ event.Installs capsule.capsuleId := fun installs =>
      absurd (abandoned.symm.trans (spares.installs installs).2) (by decide)
    have uncontested : ¬ event.Contests capsule.capsuleId := fun contests =>
      absurd (abandoned.symm.trans (spares.contests contests)) (by decide)
    refine ⟨⟨fun succeeded => open' (update.succeeded_before free filed settled others succeeded), fun named => ?_,
      update.abandons_contains abandoned⟩, fun _ => update.settled free filed settled others⟩
    exact (update.named_cases named).elim unnamed uncontested

/-- Witnessing the capsule records a conflict with `first`, which holds the lock. -/
structure Instance.Contested (s : Instance) (status : String) (capsule first : Capsule) (lock : Lock) : Prop where
  valid : s.Valid capsule
  held : s.locks.get? capsule.predecessorId = some lock
  stored : s.capsules.get? lock.capsuleId = some first
  other : ¬ lock.IsFor capsule
  refused : status = "ACCEPT" → s.AtHead capsule → ¬ lock.Released capsule
  made : ∃ evidence, ConflictEvidence.create first capsule = .ok evidence

/-- The call leaves contested and abandoned capsules alone: no conflict is recorded
for a capsule that was abandoned, and none of either kind is installed. -/
structure Call.Orderly (s : Instance) (call : Call) : Prop where
  contests : ∀ status capsule first lock, call.witnessed = some (status, capsule) →
    s.Contested status capsule first lock →
    s.abandons.contains first.capsuleId = false ∧ s.abandons.contains capsule.capsuleId = false
  applies : ∀ capsule closure, call = .apply capsule closure → s.verifyClosure capsule closure = true →
    s.AtHead capsule → ¬ s.Named capsule.capsuleId ∧ s.abandons.contains capsule.capsuleId = false
  bundles : ∀ bundle entries, call = .applyBundle bundle entries → (∀ entry ∈ entries, s.Ready entry.1 entry.2) →
    ∀ entry ∈ entries, ¬ s.Named entry.1.capsuleId ∧ s.abandons.contains entry.1.capsuleId = false

/-- While a capsule is being witnessed, nothing but its lock has changed for it. -/
structure Instance.Witnessing (s t : Instance) (capsule : Capsule) : Prop where
  epoch : t.epoch = s.epoch
  abandons : t.abandons = s.abandons
  knownSeals : t.knownSeals = s.knownSeals
  currentSeals : t.currentSeals = s.currentSeals
  lock : t.locks.get? capsule.predecessorId = s.locks.get? capsule.predecessorId ∧ t.capsules = s.capsules ∨
    ∃ lock, t.locks.get? capsule.predecessorId = some lock ∧ lock.IsFor capsule

theorem Trace.witnessing_terminal {s t : Instance} {status : String} {witnessed : Capsule} {P : Event → Prop}
    (trace : Trace P s t) (witnesses : ∀ event, P event → witnessing status witnessed event) (free : CollisionFree)
    (filed : s.Filed) (contests : ∀ event first lock, P event → s.Contested status witnessed first lock →
      s.abandons.contains first.capsuleId = false ∧ s.abandons.contains witnessed.capsuleId = false)
    {capsule : Capsule} {outcome : ECTCStatus} (terminal : s.Terminal capsule outcome) :
    t.Filed ∧ t.Terminal capsule outcome ∧ s.Witnessing t witnessed := by
  refine trace.invariant (I := fun u => u.Filed ∧ u.Terminal capsule outcome ∧ s.Witnessing u witnessed)
    ⟨filed, terminal, rfl, rfl, rfl, rfl, Or.inl ⟨rfl, rfl⟩⟩ ?_
  rintro event u v allowed update ⟨filed, terminal, epoch, abandons, knowns, currents, settling⟩
  have kind := witnesses event allowed
  have spares : event.Spares u capsule.capsuleId := by
    refine ⟨fun installs => ?_, fun names => ?_⟩
    · cases update with
      | claimed | released | contested | signed => exact installs.elim
      | _ => exact kind.elim
    · cases update with
      | @contested _ _ first second lock evidence valid held stored other refused made =>
        obtain ⟨rfl, rfl⟩ := kind
        rcases settling with ⟨locks, capsules⟩ | ⟨lock', held', mine⟩
        · have heads : s.headOf second = u.headOf second := by rw [headOf, headOf, knowns, currents]
          have valid' : s.Valid second :=
            ⟨knowns ▸ epoch ▸ valid.known, epoch ▸ valid.epoch, valid.signature, valid.attempt, valid.root⟩
          have safe := contests _ first lock allowed ⟨valid', locks ▸ held, capsules ▸ stored, other, by
            rintro accept ⟨current, head, named⟩
            exact refused accept ⟨current, heads ▸ head, named⟩, evidence, made⟩
          rw [abandons]
          rcases names with same | same <;> rw [same]
          · exact safe.1
          · exact safe.2
        · cases Option.some.inj (held.symm.trans held')
          exact absurd mine other
      | claimed | released | signed => exact names.elim
      | _ => exact kind.elim
  refine ⟨update.filed free filed, update.terminal free filed terminal spares, ?_⟩
  cases update with
  | claimed valid head free =>
    obtain ⟨rfl, -⟩ := kind
    exact ⟨epoch, abandons, knowns, currents, Or.inr ⟨_, Dict.get?_set_self _ _ _, rfl, rfl⟩⟩
  | released valid mine unclosed =>
    obtain ⟨rfl, -⟩ := kind
    exact ⟨epoch, abandons, knowns, currents, Or.inr ⟨_, Dict.get?_set_self _ _ _, rfl, rfl⟩⟩
  | contested | signed => exact ⟨epoch, abandons, knowns, currents, settling⟩
  | _ => exact kind.elim

theorem Trace.terminal_of_orderly {s t : Instance} {call : Call} {status : String} {witnessed : Capsule}
    (trace : Trace (witnessing status witnessed) s t) (orderly : call.Orderly s)
    (same : call.witnessed = some (status, witnessed)) (free : CollisionFree) (filed : s.Filed) {capsule : Capsule}
    {outcome : ECTCStatus} (terminal : s.Terminal capsule outcome) : t.Filed ∧ t.Terminal capsule outcome := by
  obtain ⟨filed', terminal', -⟩ := trace.witnessing_terminal (fun _ => id) free filed
    (fun _ first lock _ => orderly.contests status witnessed first lock same) terminal
  exact ⟨filed', terminal'⟩

/-- A change that neither installs nor contests anything. -/
def Event.Still : Event → Prop
  | .installed _ _ | .bundled _ | .contested _ _ _ => False
  | _ => True

theorem Event.spares_of_still (event : Event) (s : Instance) (capsuleId : String) (still : event.Still) :
    event.Spares s capsuleId := by
  cases event with
  | installed | bundled | contested => exact still.elim
  | _ => exact ⟨False.elim, False.elim⟩

theorem Once.terminal {P : Event → Prop} {s t : Instance} (once : Once P s t) (free : CollisionFree) (filed : s.Filed)
    {capsule : Capsule} {status : ECTCStatus} (terminal : s.Terminal capsule status)
    (spares : ∀ event, P event → Update event s t → event.Spares s capsule.capsuleId) :
    t.Filed ∧ t.Terminal capsule status := by
  rcases once with rfl | ⟨event, allowed, update⟩
  · exact ⟨filed, terminal⟩
  · exact ⟨update.filed free filed, update.terminal free filed terminal (spares event allowed update)⟩

theorem Call.exec_terminal {s : Instance} {call : Call} (free : CollisionFree) (filed : s.Filed)
    (orderly : call.Orderly s) {capsule : Capsule} {status : ECTCStatus} (terminal : s.Terminal capsule status) :
    (call.exec s).Filed ∧ (call.exec s).Terminal capsule status := by
  cases call with
  | createResource resourceId owner stateRoot secret =>
    refine (Call.exec_createResource_once s _ _ _ _).terminal free filed terminal ?_
    rintro _ ⟨fresh, rfl⟩ _
    exact Event.spares_of_still _ _ _ trivial
  | createCapsule =>
    refine (Call.exec_createCapsule_once s _ _ _ _ _ _ _).terminal free filed terminal ?_
    rintro _ ⟨stored, rfl⟩ _
    exact Event.spares_of_still _ _ _ trivial
  | witnessReceipt memberId witnessed kind =>
    have trace := Call.exec_witnessing (.witnessReceipt memberId witnessed kind) s rfl fun _ => id
    exact trace.terminal_of_orderly orderly rfl free filed terminal
  | collectAcceptReceipts witnessed =>
    have trace := Call.exec_witnessing (.collectAcceptReceipts witnessed) s rfl fun _ => id
    exact trace.terminal_of_orderly orderly rfl free filed terminal
  | collectAbandonReceipts witnessed =>
    have trace := Call.exec_witnessing (.collectAbandonReceipts witnessed) s rfl fun _ => id
    exact trace.terminal_of_orderly orderly rfl free filed terminal
  | registerClosure registered closure =>
    refine (Call.exec_registerClosure_once s registered closure).terminal free filed terminal ?_
    rintro _ rfl _
    exact Event.spares_of_still _ _ _ trivial
  | close closed receipts =>
    obtain ⟨t, collected, registered⟩ := Call.exec_close_parts s closed receipts
    obtain ⟨filed, terminal, -⟩ := collected.witnessing_terminal (fun _ => And.right) free filed
      (fun _ first lock given => orderly.contests _ closed first lock (if_pos given.1)) terminal
    refine registered.terminal free filed terminal ?_
    rintro _ ⟨-, closure, rfl⟩ _
    exact Event.spares_of_still _ _ _ trivial
  | abandon abandoned receipts =>
    obtain ⟨t, collected, proved⟩ := Call.exec_abandon_parts s abandoned receipts
    obtain ⟨filed, terminal, -⟩ := collected.witnessing_terminal (fun _ => And.right) free filed
      (fun _ first lock given => orderly.contests _ abandoned first lock (if_pos given.1)) terminal
    refine proved.terminal free filed terminal ?_
    rintro _ ⟨proof, rfl⟩ _
    exact Event.spares_of_still _ _ _ trivial
  | apply applied closure =>
    obtain ⟨t, registered, installed⟩ := Call.exec_apply_parts s applied closure
    obtain ⟨currents, knowns, verifies⟩ := registered.registered_frame
    obtain ⟨filed, terminal⟩ := registered.terminal free filed terminal fun event same _ =>
      Event.spares_of_still event _ _ (by rw [same]; trivial)
    refine installed.terminal free filed terminal ?_
    rintro _ rfl update
    refine ⟨fun same => ?_, False.elim⟩
    have found : ∃ current, t.headOf applied = some current ∧ current.sealId = applied.predecessorId ∧
        t.verifyClosure applied closure = true := by
      generalize (Call.apply applied closure).exec s = u at update
      cases update with
      | installed verified kept head named => exact ⟨_, head, named, verified⟩
    obtain ⟨current, head, named, verified⟩ := found
    rw [headOf, knowns, currents] at head
    rw [verifies] at verified
    have safe := orderly.applies applied closure rfl verified ⟨current, head, named⟩
    rw [same] at safe
    rcases registered with rfl | ⟨_, rfl, update⟩
    · exact safe
    · cases update
      exact safe
  | applyBundle bundle entries =>
    refine (Call.exec_applyBundle_once s bundle entries).terminal free filed terminal ?_
    rintro _ rfl update
    refine ⟨?_, False.elim⟩
    rintro ⟨entry, inEntries, same⟩
    rw [← same]
    generalize (Call.applyBundle bundle entries).exec s = t at update
    cases update with
    | bundled ready => exact orderly.bundles bundle entries rfl ready entry inEntries

theorem Run.filed {allowed : Instance → Call → Prop} {members : Dict String Member} {epoch : Int} {s : Instance}
    (run : Run allowed (.fresh members epoch) s) (free : CollisionFree) : s.Filed := by
  refine run.invariant ⟨⟨?_, ?_⟩, ?_, ?_, ?_, ?_, ?_⟩ fun t call _ filed =>
    (call.exec_trace t).invariant filed fun _ _ _ _ update before => update.filed free before
  all_goals
    intro k value found
    cases found

/-- In every run in which no conflict is recorded for an abandoned capsule and no
contested or abandoned capsule is applied, an outcome that was observed stays. -/
theorem outcomes_terminal (free : CollisionFree) {members : Dict String Member} {epoch : Int} {s t : Instance}
    (reached : Run (fun _ _ => True) (.fresh members epoch) s) {capsule : Capsule} {outcome : TransitionOutcome}
    (found : s.transitionOutcome capsule = some outcome) (settled : s.Settled capsule)
    (run : Run (fun s call => call.Orderly s) s t) :
    ∃ later, t.transitionOutcome capsule = some later ∧ later.status = outcome.status := by
  have filed := reached.filed free
  have start : s.Filed ∧ s.Terminal capsule outcome.status :=
    ⟨filed, (filed.outcome_iff free capsule _).mp ⟨outcome, found, rfl⟩, fun _ => settled⟩
  have last : t.Filed ∧ t.Terminal capsule outcome.status := by
    refine GuardedRun.invariant (P := fun u => u.Filed ∧ u.Terminal capsule outcome.status) run start ?_
    rintro u call orderly ⟨filed, terminal⟩
    exact call.exec_terminal free filed orderly terminal
  exact (last.1.outcome_iff free capsule _).mpr last.2.1

section Contested
variable (pair : KeyPair)

theorem afterAbandon_reached : Run (fun _ _ => True) (soloStart pair) (afterAbandon pair) :=
  (afterAbandon_run pair).mono fun _ _ _ => trivial

theorem afterAbandon_known (sound : SignaturesVerify) : (afterAbandon pair).knownSeals =
    (Dict.empty.set (soloSeal pair "p").sealId (soloSeal pair "p")) := by
  obtain ⟨proof, state⟩ := afterAbandon_eq pair sound
  simp [state, afterRelease0_eq pair sound, soloStart]

/-- The abandoned capsule has the outcome it should have. -/
theorem afterAbandon_outcome (free : CollisionFree) (sound : SignaturesVerify) :
    ∃ outcome, (afterAbandon pair).transitionOutcome (soloCapsule pair "p" "a" 0) = some outcome ∧
      outcome.status = .abandoned := by
  obtain ⟨proof, state⟩ := afterAbandon_eq pair sound
  have filed := (afterAbandon_reached pair).filed free
  refine (filed.outcome_iff free _ _).mpr ⟨?_, ?_, ?_⟩
  · rintro ⟨predecessor, k, known, foundPredecessor, found, version, -⟩
    rw [afterAbandon_known pair sound, Dict.get?_set] at foundPredecessor found
    simp at foundPredecessor found
    rw [← found.2, ← foundPredecessor] at version
    omega
  · rintro ⟨k, evidence, found, -⟩
    simp [state, afterRelease0_eq pair sound, soloStart] at found
  · simp [state, Dict.contains]

def otherCall : Call := .createResource "q" pair.identity "genesis" "capability"

theorem otherCall_orderly (s : Instance) : (otherCall pair).Orderly s := by
  constructor <;> intros <;> simp_all [otherCall, Call.witnessed]

theorem otherCall_run :
    Run (fun s call => call.Orderly s) (afterAbandon pair) ((otherCall pair).exec (afterAbandon pair)) :=
  (Run.start _ _).call (otherCall pair) (otherCall_orderly pair _)

theorem afterAbandon_settled (sound : SignaturesVerify) :
    (afterAbandon pair).Settled (soloCapsule pair "p" "a" 0) := by
  refine Or.inl ⟨soloSeal pair "p", ?_⟩
  rw [afterAbandon_known pair sound]
  exact Dict.get?_set_self _ _ _

omit [Crypto] in
/-- A capsule that was abandoned, while another resource is created. -/
theorem outcomes_terminal_solo : let _ := Crypto.ideal
    ∃ (pair : KeyPair) (outcome : TransitionOutcome),
      (afterAbandon pair).transitionOutcome (soloCapsule pair "p" "a" 0) = some outcome ∧
      ∃ later, ((otherCall pair).exec (afterAbandon pair)).transitionOutcome (soloCapsule pair "p" "a" 0) = some later ∧
        later.status = outcome.status := by
  obtain ⟨outcome, found, -⟩ :=
    @afterAbandon_outcome Crypto.ideal idealKey ideal_collisionFree ideal_signaturesVerify
  have reached := @afterAbandon_reached Crypto.ideal idealKey
  have settled := @afterAbandon_settled Crypto.ideal idealKey ideal_signaturesVerify
  have run := @otherCall_run Crypto.ideal idealKey
  exact ⟨idealKey, outcome, found, @outcomes_terminal Crypto.ideal ideal_collisionFree _ _ _ _ reached _ _ found
    settled run⟩

/-- Another capsule for the seal, at the attempt that was abandoned. -/
def contestCall : Call := .witnessReceipt "w" (soloCapsule pair "p" "b" 0) "ACCEPT"

theorem afterContest_named (free : CollisionFree) (sound : SignaturesVerify) :
    ((contestCall pair).exec (afterAbandon pair)).Named (soloCapsule pair "p" "a" 0).capsuleId := by
  obtain ⟨proof, state⟩ := afterAbandon_eq pair sound
  have before := afterRelease0_eq pair sound
  have ready : SoloReady pair (afterAbandon pair) "p" := by
    rw [state, before]
    have first : SoloReady pair ((soloStart pair).installSeal (soloSeal pair "p")) "p" :=
      ⟨rfl, rfl, Dict.get?_set_self _ _ _, rfl⟩
    exact ((((first.setLock _ _).addSigned _).setLock _ _).addSigned _).addAbandon _ _
  have differ : (soloCapsule pair "p" "a" 0).capsuleId ≠ (soloCapsule pair "p" "b" 0).capsuleId := fun same =>
    absurd (soloCapsule_inj free same).2.1 (by decide)
  obtain ⟨evidence, made⟩ : ∃ evidence, ConflictEvidence.create (soloCapsule pair "p" "a" 0)
      (soloCapsule pair "p" "b" 0) = .ok evidence := by
    unfold ConflictEvidence.create
    simp [differ]
  have held : (afterAbandon pair).locks.get? (soloCapsule pair "p" "b" 0).predecessorId =
      some ⟨(soloCapsule pair "p" "a" 0).capsuleId, 0, "ABANDON"⟩ := by
    simp [state, before]
  have stored : (afterAbandon pair).capsules.get? (soloCapsule pair "p" "a" 0).capsuleId =
      some (soloCapsule pair "p" "a" 0) := by
    simp [state, before]
  rw [contestCall, Call.exec_conflict (ready.valid sound (by decide) (by decide)) (ready.atHead _ _) held
    (fun mine => differ mine.1) (fun free => absurd free.2 (by simp)) stored made ready.member]
  refine ⟨evidence.evidenceId, evidence, Dict.get?_set_self _ _ _, ?_⟩
  rcases (ConflictEvidence.create_ok made).2 with ⟨a, -⟩ | ⟨-, b⟩
  · exact Or.inl a.symm
  · exact Or.inr b.symm

theorem afterContest_reached :
    Run (fun _ _ => True) (afterAbandon pair) ((contestCall pair).exec (afterAbandon pair)) :=
  (Run.start _ _).call (contestCall pair) trivial

/-- The abandoned capsule is now in conflict, so its first outcome is gone. -/
theorem afterContest_outcome (free : CollisionFree) (sound : SignaturesVerify) :
    ¬ ∃ later, ((contestCall pair).exec (afterAbandon pair)).transitionOutcome (soloCapsule pair "p" "a" 0) =
      some later ∧ later.status = .abandoned := by
  have reached : Run (fun _ _ => True) (soloStart pair) ((contestCall pair).exec (afterAbandon pair)) :=
    (afterAbandon_reached pair).trans (afterContest_reached pair)
  have filed := reached.filed free
  rw [filed.outcome_iff free]
  exact fun outcome => outcome.2.1 (afterContest_named pair free sound)

omit [Crypto] in
/-- Without the condition an abandoned capsule turns into one in conflict. -/
theorem outcomes_change : ¬ ∀ [Crypto], CollisionFree → SignaturesVerify →
    ∀ (members : Dict String Member) (epoch : Int) (s t : Instance),
      Run (fun _ _ => True) (.fresh members epoch) s → Run (fun _ _ => True) s t →
      ∀ (capsule : Capsule) (outcome : TransitionOutcome), s.transitionOutcome capsule = some outcome →
        ∃ later, t.transitionOutcome capsule = some later ∧ later.status = outcome.status := by
  intro claim
  obtain ⟨outcome, found, status⟩ :=
    @afterAbandon_outcome Crypto.ideal idealKey ideal_collisionFree ideal_signaturesVerify
  have later := @claim Crypto.ideal ideal_collisionFree ideal_signaturesVerify _ _ _ _
    (@afterAbandon_reached Crypto.ideal idealKey) (@afterContest_reached Crypto.ideal idealKey) _ outcome found
  rw [status] at later
  exact @afterContest_outcome Crypto.ideal idealKey ideal_collisionFree ideal_signaturesVerify later

end Contested

end Mosaic
