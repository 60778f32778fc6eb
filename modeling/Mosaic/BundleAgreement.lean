import Mosaic.TerminalOutcome

namespace Mosaic
open CanonicalJson Effects

variable [Crypto]

namespace Instance

/-- The entries of a bundle applied one by one. -/
def applyEach : List (Capsule × ClosureProof) → Py PUnit
  | [] => pure ⟨⟩
  | entry :: entries => do
    let _ ← apply entry.1 entry.2
    applyEach entries

variable {s t u v : Instance} {capsule : Capsule} {closure : ClosureProof}

def Latest (s : Instance) : Prop :=
  ∀ k known, s.knownSeals.get? k = some known →
    ∀ current, s.currentSeals.get? known.resourceId = some current → known.version ≤ current.version

theorem Latest.installSeal (latest : s.Latest) {fresh : StateSeal}
    (newer : ∀ current, s.currentSeals.get? fresh.resourceId = some current → current.version ≤ fresh.version)
    (filed : ∀ k known, s.knownSeals.get? k = some known → s.currentSeals.contains known.resourceId = true) :
    (s.installSeal fresh).Latest := by
  intro k known found current held
  rw [installSeal_currentSeals, Dict.get?_set] at held
  rw [installSeal_knownSeals, Dict.get?_set] at found
  by_cases new : fresh.sealId = k
  · rw [if_pos new] at found
    cases found
    rw [if_pos rfl] at held
    cases held
    exact le_rfl
  rw [if_neg new] at found
  by_cases here : fresh.resourceId = known.resourceId
  · rw [if_pos here] at held
    cases held
    obtain ⟨older, heldOlder⟩ := Dict.contains_iff.mp (filed k known found)
    exact (latest k known found older heldOlder).trans (newer older (here ▸ heldOlder))
  · rw [if_neg here] at held
    exact latest k known found current held

/-- Seals that are all one step ahead of what is current may be installed together. -/
theorem Latest.foldl_installSeal {ahead : String → Int} {seals : List StateSeal}
    (versions : ∀ fresh ∈ seals, fresh.version = ahead fresh.resourceId) :
    ∀ {s : Instance}, s.Latest → (∀ r current, s.currentSeals.get? r = some current → current.version ≤ ahead r) →
      (∀ k known, s.knownSeals.get? k = some known → s.currentSeals.contains known.resourceId = true) →
      (seals.foldl Instance.installSeal s).Latest := by
  induction seals with
  | nil => exact fun latest _ _ => latest
  | cons fresh seals ih =>
    intro s latest below filed
    rw [List.forall_mem_cons] at versions
    obtain ⟨version, later⟩ := versions
    refine ih later (latest.installSeal ?_ filed) ?_ ?_
    · intro current held
      exact version ▸ below _ current held
    · intro r current held
      rw [installSeal_currentSeals, Dict.get?_set] at held
      by_cases here : fresh.resourceId = r
      · rw [if_pos here] at held
        cases held
        rw [version, here]
      · rw [if_neg here] at held
        exact below r current held
    · intro k known found
      rw [installSeal_knownSeals, Dict.get?_set] at found
      by_cases new : fresh.sealId = k
      · rw [if_pos new] at found
        cases found
        simp [Dict.contains]
      · rw [if_neg new] at found
        exact Dict.contains_set (filed k known found)

/-- A seal that a bundle installs is one step ahead of the current one. -/
theorem bundleSeals_ahead {entries : List (Capsule × ClosureProof)} (chained : s.Chained) {fresh : StateSeal}
    (member : fresh ∈ s.bundleSeals entries) : ∃ entry ∈ entries, ∃ current,
      s.currentSeals.get? fresh.resourceId = some current ∧ current.sealId = entry.1.predecessorId ∧
      fresh = nextSeal current entry.1 := by
  obtain ⟨entry, inEntries, current, matching, rfl⟩ := mem_bundleSeals member
  obtain ⟨named, r, held⟩ := currentFor_named matching
  exact ⟨entry, inEntries, current, (chained.resource r current held).symm ▸ held, named, rfl⟩

end Instance
open Instance

theorem Update.latest {event : Event} {s t : Instance} (update : Update event s t) (filed : s.Filed)
    (latest : s.Latest) : t.Latest := by
  cases update with
  | created new epoch version capability =>
    refine latest.installSeal (fun current held => ?_) filed.resource
    rw [new] at held
    cases held
  | @installed _ capsule _ _ older verified registered head named =>
    refine latest.installSeal (fun current held => ?_) filed.resource
    obtain ⟨predecessor, -, heldOlder⟩ := headOf_parts head
    have same : s.currentSeals.get? older.resourceId = some older :=
      (filed.chained.resource _ _ heldOlder).symm ▸ heldOlder
    have here : current = older := Option.some.inj (held.symm.trans same)
    have version : (nextSeal older capsule).version = older.version + 1 := rfl
    rw [here, version]
    omega
  | @bundled _ entries ready =>
    let ahead : String → Int := fun r => ((s.currentSeals.get? r).map fun current => current.version + 1).getD 0
    refine @Latest.foldl_installSeal _ ahead _ ?_ s latest ?_ filed.resource
    · intro fresh member
      obtain ⟨entry, -, current, held, -, made⟩ := bundleSeals_ahead filed.chained member
      have version : ahead fresh.resourceId = current.version + 1 := by simp only [ahead, held, Option.map_some, Option.getD_some]
      rw [version, made, nextSeal]
    · intro r current held
      have version : ahead r = current.version + 1 := by simp only [ahead, held, Option.map_some, Option.getD_some]
      omega
  | _ => exact latest

theorem Run.latest {allowed : Instance → Call → Prop} {members : Dict String Member} {epoch : Int} {s : Instance}
    (run : Run allowed (.fresh members epoch) s) (free : CollisionFree) : s.Filed ∧ s.Latest := by
  have start : (Instance.fresh members epoch).Filed := (Run.start allowed _).filed free
  refine run.invariant (P := fun t => t.Filed ∧ t.Latest) ⟨start, fun _ _ found => nomatch found⟩ ?_
  rintro t call - both
  refine (call.exec_trace t).invariant (I := fun u => u.Filed ∧ u.Latest) both ?_
  rintro _ _ _ _ update ⟨filed, latest⟩
  exact ⟨update.filed free filed, update.latest filed latest⟩

namespace Instance

variable {s t u v : Instance} {capsule : Capsule} {closure : ClosureProof} {entries : List (Capsule × ClosureProof)}

theorem applyBundle_ok {bundle : BundleClosure} {seals : List StateSeal} (ran : applyBundle bundle entries s = .ok seals t) :
    (∀ entry ∈ entries, s.Ready entry.1 entry.2) ∧ t = (s.bundleSeals entries).foldl installSeal s := by
  unfold applyBundle at ran
  rw [get_bind_apply] at ran
  obtain ⟨-, ran⟩ := raiseIf_bind_eq_ok ran
  obtain ⟨-, ran⟩ := raiseIf_bind_eq_ok ran
  obtain ⟨_, mid, checked, ran⟩ := bind_eq_ok.mp ran
  have guarantees := checkEntries_guarantees (s := s) entries s
  have same : s = mid := guarantees.step checked
  subst same
  cases ran
  exact ⟨guarantees.returns _ _ checked, rfl⟩

theorem currentFor_only {r : String} {current : StateSeal} (currents : s.currentSeals = Dict.empty.set r current)
    (named : capsule.predecessorId = current.sealId) : s.currentFor capsule = some current := by
  unfold currentFor
  rw [currents, named]
  simp [Dict.values, Dict.set, Dict.empty, Dict.setEntries]

/-- An entry that the bundle checks names a current seal. -/
theorem Ready.seal (ready : s.Ready capsule closure) (chained : s.Chained) : ∃ current,
    s.currentFor capsule = some current ∧ current.sealId = capsule.predecessorId ∧
      s.currentSeals.get? current.resourceId = some current ∧ s.knownSeals.get? capsule.predecessorId = some current := by
  obtain ⟨current, matching⟩ := ready.current
  obtain ⟨named, r, held⟩ := currentFor_named matching
  refine ⟨current, matching, named, (chained.resource r current held).symm ▸ held, ?_⟩
  rw [← named]
  exact chained.known r current held

theorem checkEntries_ok (ready : ∀ entry ∈ entries, s.Ready entry.1 entry.2) (t : Instance) :
    checkEntries s entries t = .ok ⟨⟩ t := by
  induction entries with
  | nil => rfl
  | cons entry entries ih =>
    obtain ⟨capsule, closure⟩ := entry
    rw [List.forall_mem_cons] at ready
    obtain ⟨⟨registered, verified, current, matching⟩, later⟩ := ready
    have own : closure.capsuleId = capsule.capsuleId := (verifyClosure_ids verified).1
    unfold checkEntries
    rw [raiseIf_bind_neg (not_not.mpr registered), raiseIf_bind_neg (not_not.mpr own),
      raiseIf_bind_neg (by rw [verified]; exact Bool.true_eq_false.mp),
      raiseIf_bind_neg (by rw [matching]; exact Bool.false_ne_true)]
    exact ih later

theorem applyBundle_returns {bundle : BundleClosure} (nonempty : entries ≠ []) (named : bundle.bundleId ≠ "")
    (covers : sorted (entries.map fun entry => entry.2.proofId) = sorted bundle.closureIds)
    (ready : ∀ entry ∈ entries, s.Ready entry.1 entry.2) :
    applyBundle bundle entries s = .ok (s.bundleSeals entries) ((s.bundleSeals entries).foldl installSeal s) := by
  have proper : ¬ (entries.isEmpty ∨ bundle.bundleId = "") := by simp [nonempty, named]
  unfold applyBundle
  rw [get_bind_apply, raiseIf_bind_neg proper, raiseIf_bind_neg (not_not.mpr covers), bind_of_ok (checkEntries_ok ready s)]
  rfl

/-- Where the closure is registered, `apply` installs the successor of the current
seal or leaves everything as it is. -/
theorem apply_ok {applied : StateSeal} (registered : s.closures.contains capsule.capsuleId = true)
    (ran : apply capsule closure s = .ok applied t) : t = s ∨
      ∃ current, s.headOf capsule = some current ∧ current.sealId = capsule.predecessorId ∧
        t = s.installSeal (nextSeal current capsule) := by
  obtain ⟨mid, first, second⟩ := Call.exec_apply_parts s capsule closure
  have exec : (Call.apply capsule closure).exec s = t := final_of_ok ran
  rw [exec] at second
  have still : mid = s := by
    rcases first with rfl | ⟨_, rfl, update⟩
    · rfl
    · cases update with
      | registered verified clean new =>
        rw [Dict.contains_eq_false.mpr new] at registered
        cases registered
  subst still
  rcases second with rfl | ⟨_, rfl, update⟩
  · exact Or.inl rfl
  · cases update with
    | installed verified kept head named => exact Or.inr ⟨_, head, named, rfl⟩

/-- A capsule whose successor is current is not applied again. -/
theorem apply_again {predecessor : StateSeal} (verified : s.verifyClosure capsule closure = true)
    (registered : s.closures.contains capsule.capsuleId = true)
    (known : s.knownSeals.get? capsule.predecessorId = some predecessor)
    (held : s.currentSeals.get? predecessor.resourceId = some (nextSeal predecessor capsule))
    (moved : (nextSeal predecessor capsule).sealId ≠ capsule.predecessorId) :
    apply capsule closure s = .ok (nextSeal predecessor capsule) s := by
  have own : closure.capsuleId = capsule.capsuleId := (verifyClosure_ids verified).1
  unfold apply
  simp only [bind_apply, get_apply, raiseIf_apply, verified, registered, own, known, held]
  simp only [moved, ne_eq, not_true_eq_false, not_false_eq_true, Bool.true_eq_false, if_true, if_false, pure_apply]
  rw [if_pos ⟨rfl, rfl, rfl⟩]
  rfl

/-- Entries on one seal carry one successor. -/
def Alike (entries : List (Capsule × ClosureProof)) : Prop :=
  ∀ first ∈ entries, ∀ second ∈ entries, first.1.predecessorId = second.1.predecessorId →
    first.1.capsuleId = second.1.capsuleId ∧ first.1.successorRoot = second.1.successorRoot ∧
      first.1.clientId = second.1.clientId

theorem bundleSeals_append (s : Instance) (entries more : List (Capsule × ClosureProof)) :
    s.bundleSeals (entries ++ more) = s.bundleSeals entries ++ s.bundleSeals more := List.filterMap_append

theorem bundleSeals_singleton {current : StateSeal} (entry : Capsule × ClosureProof)
    (matching : s.currentFor entry.1 = some current) : s.bundleSeals [entry] = [nextSeal current entry.1] := by
  simp [bundleSeals, matching]

theorem installSeal_of_current {fresh : StateSeal} (held : s.currentSeals.get? fresh.resourceId = some fresh)
    (known : s.knownSeals.get? fresh.sealId = some fresh) : s.installSeal fresh = s := by
  unfold installSeal
  rw [Dict.set_of_get? held, Dict.set_of_get? known]

/-- Where the bundle has got to, the next entry is applied to the same effect. -/
theorem apply_next (free : CollisionFree) (filed : s.Filed) {earlier : List (Capsule × ClosureProof)}
    {entry : Capsule × ClosureProof} (ready : s.Ready entry.1 entry.2)
    (alike : ∀ other ∈ earlier, other.1.predecessorId = entry.1.predecessorId →
      other.1.capsuleId = entry.1.capsuleId ∧ other.1.successorRoot = entry.1.successorRoot ∧
        other.1.clientId = entry.1.clientId) :
    ∃ applied, apply entry.1 entry.2 ((s.bundleSeals earlier).foldl installSeal s) =
      .ok applied ((s.bundleSeals (earlier ++ [entry])).foldl installSeal s) := by
  obtain ⟨current, matching, named, held, known⟩ := ready.seal filed.chained
  rw [bundleSeals_append, bundleSeals_singleton entry matching, List.foldl_append, List.foldl_cons, List.foldl_nil]
  obtain ⟨currents, knowns, frame⟩ := foldl_installSeal (s.bundleSeals earlier) s
  have later := knownSeals_foldl_installSeal free filed.sealKey (s.bundleSeals earlier) known
  obtain ⟨now, found, same | ⟨member, resource⟩⟩ := currentSeals_foldl_installSeal held (s.bundleSeals earlier)
  · subst same
    refine ⟨_, @apply_installs _ _ _ _ entry.2 _ ?_ ?_ ?_ named⟩
    · rw [frame]
      exact ready.verified
    · rw [frame]
      exact ready.registered
    · exact Option.bind_eq_some_iff.mpr ⟨now, later, found⟩
  · obtain ⟨other, inEarlier, before, heldBefore, namedBefore, rfl⟩ := bundleSeals_ahead filed.chained member
    rw [resource, held] at heldBefore
    cases heldBefore
    obtain ⟨capsuleId, root, client⟩ := alike other inEarlier (namedBefore.symm.trans named)
    have successor : nextSeal current other.1 = nextSeal current entry.1 := by
      rw [nextSeal, nextSeal, capsuleId, root, client]
    have installed := known_of_mem_foldl_installSeal free member s
    rw [successor] at found installed
    refine ⟨nextSeal current entry.1, ?_⟩
    rw [@installSeal_of_current _ _ (nextSeal current entry.1) found installed]
    refine apply_again ?_ ?_ later found (named ▸ nextSeal_ne current entry.1 free)
    · rw [frame]
      exact ready.verified
    · rw [frame]
      exact Dict.contains_iff.mpr ⟨_, ready.registered⟩

theorem applyEach_of_alike (free : CollisionFree) (filed : s.Filed) (rest : List (Capsule × ClosureProof)) :
    ∀ earlier : List (Capsule × ClosureProof), (∀ entry ∈ earlier ++ rest, s.Ready entry.1 entry.2) →
      Alike (earlier ++ rest) → applyEach rest ((s.bundleSeals earlier).foldl installSeal s) =
        .ok ⟨⟩ ((s.bundleSeals (earlier ++ rest)).foldl installSeal s) := by
  induction rest with
  | nil =>
    intro earlier _ _
    rw [List.append_nil]
    rfl
  | cons entry rest ih =>
    intro earlier ready alike
    have inside : entry ∈ earlier ++ entry :: rest := List.mem_append_right _ List.mem_cons_self
    obtain ⟨applied, ran⟩ := apply_next free filed (ready entry inside) fun other (member : other ∈ earlier) =>
      alike other (List.mem_append_left _ member) entry inside
    have split : earlier ++ entry :: rest = (earlier ++ [entry]) ++ rest := by simp
    have remaining := ih (earlier ++ [entry]) (split ▸ ready) (split ▸ alike)
    rw [split, ← remaining]
    exact bind_of_ok ran

/-- `u` is `s` with some current seals replaced by their successors. -/
structure Ahead (s u : Instance) : Prop where
  closures : u.closures = s.closures
  keeps : ∀ k known, s.knownSeals.get? k = some known → u.knownSeals.get? k = some known
  news : ∀ known, u.knownSeals.get? known.sealId = some known →
    s.knownSeals.get? known.sealId = some known ∨ u.currentSeals.get? known.resourceId = some known

theorem Ahead.apply (ahead : s.Ahead u) (filed : s.Filed) (free : CollisionFree) {applied : StateSeal}
    (ready : s.Ready capsule closure) (ran : apply capsule closure u = .ok applied v) : s.Ahead v := by
  obtain ⟨current, matching, named, held, known⟩ := ready.seal filed.chained
  have registered : u.closures.contains capsule.capsuleId = true := by
    rw [ahead.closures]
    exact Dict.contains_iff.mpr ⟨_, ready.registered⟩
  rcases apply_ok registered ran with rfl | ⟨now, head, here, rfl⟩
  · exact ahead
  have same : now = current := StateSeal.eq_of_sealId free (here.trans named.symm)
  subst same
  have heldNow : u.currentSeals.get? now.resourceId = some now := by
    obtain ⟨predecessor, found, held'⟩ := headOf_parts head
    cases Option.some.inj (found.symm.trans (ahead.keeps _ _ known))
    exact held'
  refine ⟨ahead.closures, fun k old found => ?_, fun old found => ?_⟩
  · rw [installSeal_knownSeals, Dict.get?_set]
    split
    next same => rw [StateSeal.eq_of_sealId free (same.trans (filed.sealKey k old found).symm)]
    next => exact ahead.keeps k old found
  · rw [installSeal_knownSeals, Dict.get?_set] at found
    rw [installSeal_currentSeals, Dict.get?_set]
    by_cases new : (nextSeal now capsule).sealId = old.sealId
    · rw [StateSeal.eq_of_sealId free new]
      exact Or.inr (if_pos rfl)
    rw [if_neg new] at found
    rcases ahead.news old found with before | heldOld
    · exact Or.inl before
    by_cases here : (nextSeal now capsule).resourceId = old.resourceId
    · have resource : now.resourceId = old.resourceId := here
      rw [← resource, heldNow] at heldOld
      cases heldOld
      exact Or.inl (named ▸ known)
    · exact Or.inr ((if_neg here).trans heldOld)

theorem Ahead.applyEach (free : CollisionFree) (filed : s.Filed) : ∀ {entries : List (Capsule × ClosureProof)}
    {u v : Instance}, s.Ahead u → (∀ entry ∈ entries, s.Ready entry.1 entry.2) →
      applyEach entries u = .ok ⟨⟩ v → s.Ahead v := by
  intro entries
  induction entries with
  | nil =>
    intro u v ahead _ ran
    cases ran
    exact ahead
  | cons entry entries ih =>
    intro u v ahead ready ran
    obtain ⟨applied, mid, first, rest⟩ := bind_eq_ok.mp ran
    rw [List.forall_mem_cons] at ready
    exact ih (ahead.apply filed free ready.1 first) ready.2 rest

theorem Ahead.refl (s : Instance) : s.Ahead s := ⟨rfl, fun _ _ found => found, fun _ found => Or.inl found⟩

/-- Where the single path ends in the same known seals, entries on one seal carry
one successor: a successor that is known and new is the current one. -/
theorem alike_of_applyEach (free : CollisionFree) (filed : s.Filed) (latest : s.Latest)
    (ready : ∀ entry ∈ entries, s.Ready entry.1 entry.2) (ran : applyEach entries s = .ok ⟨⟩ u)
    (knowns : u.knownSeals = ((s.bundleSeals entries).foldl installSeal s).knownSeals) : Alike entries := by
  have ahead := (Ahead.refl s).applyEach free filed ready ran
  intro first inFirst second inSecond same
  obtain ⟨current, matching, named, held, -⟩ := (ready first inFirst).seal filed.chained
  have current_of : ∀ entry ∈ entries, entry.1.predecessorId = current.sealId →
      u.currentSeals.get? current.resourceId = some (nextSeal current entry.1) := by
    intro entry inEntries predecessor
    obtain ⟨other, matching', named', -⟩ := (ready entry inEntries).seal filed.chained
    have here : other = current := StateSeal.eq_of_sealId free (named'.trans predecessor)
    subst here
    have member : nextSeal other entry.1 ∈ s.bundleSeals entries :=
      List.mem_filterMap.mpr ⟨entry, inEntries, by rw [matching', Option.map_some]⟩
    have found := known_of_mem_foldl_installSeal free member s
    rw [← knowns] at found
    rcases ahead.news _ found with old | now
    · have version := latest _ _ old other held
      simp only [nextSeal] at version
      omega
    · exact now
  have one := current_of first inFirst named.symm
  have two := current_of second inSecond (same.symm.trans named.symm)
  have seals : nextSeal current first.1 = nextSeal current second.1 := Option.some.inj (one.symm.trans two)
  exact ⟨digest_str_inj free (congrArg StateSeal.capabilityHash seals :), (congrArg StateSeal.stateRoot seals :),
    (congrArg StateSeal.owner seals :)⟩

end Instance

/-- An accepted bundle does what its entries do one by one exactly where entries
on one seal carry one successor. -/
theorem bundle_agrees_iff (free : CollisionFree) {members : Dict String Member} {epoch : Int} {s t : Instance}
    (reached : Run (fun _ _ => True) (.fresh members epoch) s) {bundle : BundleClosure}
    {entries : List (Capsule × ClosureProof)} {seals : List StateSeal}
    (accepted : applyBundle bundle entries s = .ok seals t) :
    (∃ u, applyEach entries s = .ok ⟨⟩ u ∧ u.currentSeals = t.currentSeals ∧ u.knownSeals = t.knownSeals) ↔
      ∀ first ∈ entries, ∀ second ∈ entries, first.1.predecessorId = second.1.predecessorId →
        first.1.capsuleId = second.1.capsuleId ∧ first.1.successorRoot = second.1.successorRoot ∧
          first.1.clientId = second.1.clientId := by
  obtain ⟨filed, latest⟩ := reached.latest free
  obtain ⟨ready, rfl⟩ := applyBundle_ok accepted
  constructor
  · rintro ⟨u, ran, -, knowns⟩
    exact alike_of_applyEach free filed latest ready ran knowns
  · intro alike
    exact ⟨_, applyEach_of_alike free filed entries [] ready alike, rfl, rfl⟩

/-- What is made of closures covers their entries, in whatever order. -/
theorem BundleClosure.create_covers {bundleId : String} {closures : List ClosureProof} {bundle : BundleClosure}
    (made : BundleClosure.create bundleId closures = .ok bundle) :
    bundle.bundleId = bundleId ∧ sorted (closures.map ClosureProof.proofId) = sorted bundle.closureIds := by
  have perm := (sortedBy_perm ClosureProof.predecessorId closures).map ClosureProof.proofId
  unfold BundleClosure.create at made
  generalize sortedBy ClosureProof.predecessorId closures = ordered at made perm
  cases ordered with
  | nil => cases made
  | cons first rest =>
    cases Except.ok.inj made
    exact ⟨rfl, sorted_eq_of_perm perm.symm⟩

/-- Ready entries make a bundle, and it is accepted. -/
theorem applyBundle_accepts {s : Instance} {entries : List (Capsule × ClosureProof)} (nonempty : entries ≠ [])
    (ready : ∀ entry ∈ entries, s.Ready entry.1 entry.2) : ∃ bundle seals t, applyBundle bundle entries s = .ok seals t := by
  have listed : entries.map Prod.snd ≠ [] := by simpa using nonempty
  obtain ⟨bundle, made⟩ : ∃ bundle, BundleClosure.create "bundle" (entries.map Prod.snd) = .ok bundle := by
    have filled := (sortedBy_perm ClosureProof.predecessorId (entries.map Prod.snd)).length_eq
    unfold BundleClosure.create
    cases ordered : sortedBy ClosureProof.predecessorId (entries.map Prod.snd) with
    | nil =>
      rw [ordered] at filled
      exact absurd (List.length_eq_zero_iff.mp filled.symm) listed
    | cons first rest => exact ⟨_, rfl⟩
  obtain ⟨named, covers⟩ := BundleClosure.create_covers made
  rw [List.map_map] at covers
  have proper : bundle.bundleId ≠ "" := by
    rw [named]
    decide
  exact ⟨bundle, _, _, applyBundle_returns nonempty proper covers ready⟩

section TwoResources
variable (pair : KeyPair)

/-- The capsules that the member has accepted on its two resources. -/
def bothEntries : List (Capsule × ClosureProof) :=
  [(soloCapsule pair "p" "a" 0, closureA pair), (soloCapsule pair "q" "b" 0, closureB pair)]

/-- Both of them are registered. -/
def bothRegistered : Instance := (Call.registerClosure (soloCapsule pair "p" "a" 0) (closureA pair)).exec (beforeMove pair)

theorem bothRegistered_run : Run (fun _ _ => True) (soloStart pair) (bothRegistered pair) :=
  (beforeMove_run pair).call _ trivial

variable {pair}

theorem bothRegistered_ready (free : CollisionFree) (sound : SignaturesVerify) :
    ∀ entry ∈ bothEntries pair, (bothRegistered pair).Ready entry.1 entry.2 := by
  have before := beforeMove_eq pair free sound
  have state := afterTwoResources_eq pair free sound
  have differ := capsulesDiffer pair free
  have accepted : (beforeMove pair).verifyClosure (soloCapsule pair "p" "a" 0) (closureA pair) = true := by
    rw [before, verifyClosure_addClosure]
    exact closureA_accepted pair free sound
  have after : bothRegistered pair = (beforeMove pair).addClosure (soloCapsule pair "p" "a" 0) (closureA pair) := by
    refine Call.exec_registerClosure accepted ?_ ?_
    · simp [before, state, soloStart, MosaicProtocol.hasConflictOn]
    · rw [before, addClosure_closures, Dict.get?_set_of_ne _ _ differ.symm]
      simp [state, soloStart]
  have held : ∀ resourceId, resourceId = "p" ∨ resourceId = "q" →
      (bothRegistered pair).currentSeals.get? resourceId = some (soloSeal pair resourceId) := by
    rintro _ (rfl | rfl) <;> simp [after, before, state, soloSeal, Dict.get?_set]
  have current : ∀ resourceId, resourceId = "p" ∨ resourceId = "q" → ∀ root,
      ∃ current, (bothRegistered pair).currentFor (soloCapsule pair resourceId root 0) = some current := by
    intro resourceId either root
    have listed := Dict.mem_values_of_get? (held resourceId either)
    exact Option.isSome_iff_exists.mp (List.find?_isSome.mpr ⟨_, listed, decide_eq_true rfl⟩)
  intro entry member
  simp only [bothEntries, List.mem_cons, List.not_mem_nil, or_false] at member
  rcases member with rfl | rfl
  · refine ⟨?_, ?_, current "p" (Or.inl rfl) "a"⟩
    · rw [after]
      exact Dict.get?_set_self _ _ _
    · rw [after, verifyClosure_addClosure]
      exact accepted
  · refine ⟨?_, ?_, current "q" (Or.inr rfl) "b"⟩
    · rw [after, addClosure_closures, Dict.get?_set_of_ne _ _ differ, before]
      exact Dict.get?_set_self _ _ _
    · rw [after, before, verifyClosure_addClosure, verifyClosure_addClosure]
      exact closureB_accepted pair free sound

/-- They are on two seals. -/
theorem bothEntries_alike (free : CollisionFree) : Alike (bothEntries pair) := by
  have differ : (soloSeal pair "p").sealId ≠ (soloSeal pair "q").sealId := fun same =>
    absurd (soloSeal_inj free same) (by decide)
  intro first member second member' same
  simp only [bothEntries, List.mem_cons, List.not_mem_nil, or_false] at member member'
  rcases member with rfl | rfl <;> rcases member' with rfl | rfl
  · exact ⟨rfl, rfl, rfl⟩
  · exact absurd same differ
  · exact absurd same.symm differ
  · exact ⟨rfl, rfl, rfl⟩

omit [Crypto] in
/-- A bundle of two capsules on two resources. -/
theorem bundle_agrees_pair : let _ := Crypto.ideal
    ∃ (s t : Instance) (entries : List (Capsule × ClosureProof)), entries.length = 2 ∧
      (∃ bundle seals, applyBundle bundle entries s = .ok seals t) ∧
      ∃ u, applyEach entries s = .ok ⟨⟩ u ∧ u.currentSeals = t.currentSeals ∧ u.knownSeals = t.knownSeals := by
  intro _
  have ready := @bothRegistered_ready Crypto.ideal idealKey ideal_collisionFree ideal_signaturesVerify
  obtain ⟨bundle, seals, t, accepted⟩ := @applyBundle_accepts Crypto.ideal _ _ (List.cons_ne_nil _ _) ready
  have run := @bothRegistered_run Crypto.ideal idealKey
  have alike := @bothEntries_alike Crypto.ideal idealKey ideal_collisionFree
  exact ⟨_, t, _, rfl, ⟨bundle, seals, accepted⟩, (bundle_agrees_iff ideal_collisionFree run accepted).mpr alike⟩

end TwoResources

section Bundled
variable (pair : KeyPair)

/-- The capsule whose lock was released, and the one that was accepted after it. -/
def earlierEntry : Capsule × ClosureProof :=
  (soloCapsule pair "p" "a" 0, MosaicProtocol.closureOver (soloCapsule pair "p" "a" 0)
    [soloReceipt pair (soloCapsule pair "p" "a" 0) "ACCEPT"])

def laterEntry : Capsule × ClosureProof :=
  (soloCapsule pair "p" "b" 1, MosaicProtocol.closureOver (soloCapsule pair "p" "b" 1)
    [soloReceipt pair (soloCapsule pair "p" "b" 1) "ACCEPT"])

/-- Both are registered. -/
def bothClosed : Instance :=
  (Call.registerClosure (laterEntry pair).1 (laterEntry pair).2).exec
    ((Call.registerClosure (earlierEntry pair).1 (earlierEntry pair).2).exec (afterRelease pair))

theorem bothClosed_run : Run (fun _ _ => True) (soloStart pair) (bothClosed pair) :=
  ((GuardedRun.of_inputs (fun _ _ => trivial) (released pair)).tail trivial).tail trivial

variable {pair}

theorem entries_differ (free : CollisionFree) : (earlierEntry pair).1.capsuleId ≠ (laterEntry pair).1.capsuleId :=
  fun same => absurd (soloCapsule_inj free same).2.1 (by decide)

/-- They are on one seal. -/
theorem entries_not_alike (free : CollisionFree) : ¬ Alike [earlierEntry pair, laterEntry pair] := by
  intro alike
  have shared : (earlierEntry pair).1.predecessorId = (laterEntry pair).1.predecessorId := by
    rw [earlierEntry, laterEntry, soloCapsule_predecessorId, soloCapsule_predecessorId]
  have same := alike _ List.mem_cons_self _ (List.mem_cons_of_mem _ List.mem_cons_self) shared
  exact entries_differ free same.1

/-- What the release leaves: no closures, no conflicts and the first seal. -/
theorem afterRelease_parts (sound : SignaturesVerify) : (afterRelease pair).closures = .empty ∧
    (afterRelease pair).conflictEvidence = .empty ∧
    (afterRelease pair).currentSeals = Dict.empty.set "p" (soloSeal pair "p") := by
  rw [afterRelease_eq pair sound]
  exact ⟨rfl, rfl, rfl⟩

theorem bothClosed_eq (free : CollisionFree) (sound : SignaturesVerify) : bothClosed pair =
    ((afterRelease pair).addClosure (earlierEntry pair).1 (earlierEntry pair).2).addClosure (laterEntry pair).1
      (laterEntry pair).2 := by
  have differ := @entries_differ _ pair free
  have earlier : (afterRelease pair).verifyClosure (earlierEntry pair).1 (earlierEntry pair).2 = true :=
    afterRelease_accepts pair free sound (Or.inl rfl)
  have later : (afterRelease pair).verifyClosure (laterEntry pair).1 (laterEntry pair).2 = true :=
    afterRelease_accepts pair free sound (Or.inr rfl)
  obtain ⟨closures, evidence, -⟩ := @afterRelease_parts _ pair sound
  have clean : ∀ predecessorId, (afterRelease pair).hasConflictOn predecessorId = false := by
    intro predecessorId
    unfold MosaicProtocol.hasConflictOn
    rw [evidence]
    rfl
  unfold bothClosed
  generalize afterRelease pair = r at earlier later closures clean
  generalize earlierEntry pair = first at earlier differ
  generalize laterEntry pair = second at later differ
  have new : r.closures.get? first.1.capsuleId = none := by rw [closures, Dict.get?_empty]
  have new' : (r.addClosure first.1 first.2).closures.get? second.1.capsuleId = none := by
    rw [addClosure_closures, Dict.get?_set_of_ne _ _ differ, closures, Dict.get?_empty]
  have clean' : (r.addClosure first.1 first.2).hasConflictOn second.1.predecessorId = false := clean _
  have later' : (r.addClosure first.1 first.2).verifyClosure second.1 second.2 = true := later
  rw [Call.exec_registerClosure earlier (clean _) new, Call.exec_registerClosure later' clean' new']

theorem bothClosed_ready (free : CollisionFree) (sound : SignaturesVerify) :
    ∀ entry ∈ [earlierEntry pair, laterEntry pair], (bothClosed pair).Ready entry.1 entry.2 := by
  have differ := @entries_differ _ pair free
  have earlier : (afterRelease pair).verifyClosure (earlierEntry pair).1 (earlierEntry pair).2 = true :=
    afterRelease_accepts pair free sound (Or.inl rfl)
  have later : (afterRelease pair).verifyClosure (laterEntry pair).1 (laterEntry pair).2 = true :=
    afterRelease_accepts pair free sound (Or.inr rfl)
  obtain ⟨-, -, currents⟩ := @afterRelease_parts _ pair sound
  have first : (afterRelease pair).currentFor (earlierEntry pair).1 = some (soloSeal pair "p") :=
    currentFor_only currents rfl
  have second : (afterRelease pair).currentFor (laterEntry pair).1 = some (soloSeal pair "p") :=
    currentFor_only currents rfl
  rw [bothClosed_eq free sound]
  generalize afterRelease pair = r at earlier later first second
  generalize earlierEntry pair = entry at earlier differ first
  generalize laterEntry pair = entry' at later differ second
  intro e member
  rcases List.mem_cons.mp member with rfl | member
  · refine ⟨?_, earlier, _, first⟩
    rw [addClosure_closures, Dict.get?_set_of_ne _ _ differ.symm, addClosure_closures, Dict.get?_set_self]
  · cases List.mem_singleton.mp member
    refine ⟨?_, later, _, second⟩
    rw [addClosure_closures, Dict.get?_set_self]

/-- The bundle of both ends where the single path does not. -/
theorem bothClosed_disagrees (free : CollisionFree) (sound : SignaturesVerify) : ∃ bundle entries seals t,
    applyBundle bundle entries (bothClosed pair) = .ok seals t ∧
      ¬ ∃ u, applyEach entries (bothClosed pair) = .ok ⟨⟩ u ∧ u.currentSeals = t.currentSeals ∧
        u.knownSeals = t.knownSeals := by
  obtain ⟨bundle, seals, t, accepted⟩ := applyBundle_accepts (List.cons_ne_nil _ _) (@bothClosed_ready _ pair free sound)
  refine ⟨bundle, _, seals, t, accepted, ?_⟩
  rintro ⟨u, ran, -, knowns⟩
  obtain ⟨filed, latest⟩ := (bothClosed_run pair).latest free
  obtain ⟨ready, state⟩ := applyBundle_ok accepted
  rw [state] at knowns
  exact entries_not_alike free (alike_of_applyEach free filed latest ready ran knowns)

omit [Crypto] in
/-- A bundle of both installs two successors of one seal, of which `apply` refuses
the second. -/
theorem bundle_disagrees : ¬ ∀ [Crypto], CollisionFree → SignaturesVerify →
    ∀ (members : Dict String Member) (epoch : Int) (s : Instance), Run (fun _ _ => True) (.fresh members epoch) s →
      ∀ (bundle : BundleClosure) (entries : List (Capsule × ClosureProof)) (seals : List StateSeal) (t : Instance),
        applyBundle bundle entries s = .ok seals t →
        ∃ u, applyEach entries s = .ok ⟨⟩ u ∧ u.currentSeals = t.currentSeals ∧ u.knownSeals = t.knownSeals := by
  intro claim
  obtain ⟨bundle, entries, seals, t, accepted, fails⟩ := @bothClosed_disagrees Crypto.ideal idealKey
    ideal_collisionFree ideal_signaturesVerify
  have run := @bothClosed_run Crypto.ideal idealKey
  exact fails (@claim Crypto.ideal ideal_collisionFree ideal_signaturesVerify _ _ _ run _ _ _ _ accepted)

end Bundled

end Mosaic
