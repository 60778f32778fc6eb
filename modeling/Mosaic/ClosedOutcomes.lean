import Mosaic.TerminalOutcome

namespace Mosaic
open CanonicalJson Effects

variable [Crypto]

/-- The identifier is the digest of the unsigned statement. -/
def Capsule.Digested (capsule : Capsule) : Prop := capsule.capsuleId = digest capsule.unsignedStatement

/-- The change puts a seal in the place of another for this capsule. -/
def Event.Replaces (capsule : Capsule) : Event → Prop
  | .installed c _ => c = capsule
  | .bundled entries => ∃ entry ∈ entries, entry.1 = capsule
  | _ => False

/-- A call of `apply` or `apply_bundle`. -/
def Call.Applies : Call → Prop
  | .apply _ _ | .applyBundle _ _ => True
  | _ => False

theorem Call.events_replaces {call : Call} {event : Event} {capsule : Capsule} (allowed : call.events event)
    (replaces : event.Replaces capsule) : call.Applies ∧ ∃ entry ∈ call.entries, entry.1 = capsule := by
  cases event with
  | installed c closure =>
    rcases allowed with ⟨status, witnessed, -, impossible⟩ | change
    · exact impossible.elim
    · cases call with
      | apply c' closure' =>
        obtain ⟨rfl, rfl⟩ := change
        exact ⟨trivial, _, List.mem_singleton_self _, replaces⟩
      | _ => exact change.elim
  | bundled entries =>
    rcases allowed with ⟨status, witnessed, -, impossible⟩ | change
    · exact impossible.elim
    · cases call with
      | applyBundle bundle entries' =>
        obtain rfl : entries = entries' := change
        exact ⟨trivial, replaces⟩
      | _ => exact change.elim
  | _ => exact replaces.elim

theorem Call.events_created {call : Call} {fresh : StateSeal} (allowed : call.events (.created fresh)) :
    ¬ call.Applies := by
  rcases allowed with ⟨status, witnessed, -, impossible⟩ | change
  · exact impossible.elim
  · cases call with
    | createResource => exact id
    | _ => exact change.elim

/-- A new seal is a first seal, or follows the seal that its capsule names. -/
theorem Update.knownSeals_origin {event : Event} {s t : Instance} (update : Update event s t) (chained : s.Chained)
    {k : String} {known : StateSeal} (found : t.knownSeals.get? k = some known) :
    s.knownSeals.get? k = some known ∨ (known.version = 0 ∧ ∃ fresh, event = .created fresh) ∨
      ∃ capsule predecessor, event.Replaces capsule ∧
        s.knownSeals.get? capsule.predecessorId = some predecessor ∧ known = nextSeal predecessor capsule := by
  cases update with
  | created new epoch version capability =>
    rcases Instance.mem_of_foldl_installSeal [_] found with old | fresh
    · exact Or.inl old
    · rw [List.mem_singleton.mp fresh]
      exact Or.inr (Or.inl ⟨version, _, rfl⟩)
  | @installed _ capsule closure kept current verified registered head named =>
    rcases Instance.mem_of_foldl_installSeal [_] found with old | fresh
    · exact Or.inl old
    · obtain ⟨predecessor, -, held⟩ := Instance.headOf_parts head
      rw [List.mem_singleton.mp fresh]
      exact Or.inr (Or.inr ⟨capsule, current, rfl, named ▸ chained.known _ _ held, rfl⟩)
  | bundled ready =>
    rcases Instance.mem_of_foldl_installSeal _ found with old | fresh
    · exact Or.inl old
    · obtain ⟨entry, inEntries, current, matching, rfl⟩ := Instance.mem_bundleSeals fresh
      obtain ⟨named, r, held⟩ := Instance.currentFor_named matching
      exact Or.inr (Or.inr ⟨entry.1, current, ⟨entry, inEntries, rfl⟩, named ▸ chained.known _ _ held, rfl⟩)
  | _ => exact Or.inl found

/-- The capsules that the call applies have the digests of their statements. -/
def Call.Digested (call : Call) : Prop := ∀ entry ∈ call.entries, entry.1.Digested

namespace Instance

/-- A known seal that is not a first one follows a known seal by a capsule. -/
def Derived (s : Instance) : Prop :=
  ∀ k known, s.knownSeals.get? k = some known → 0 < known.version → ∃ capsule predecessor,
    capsule.Digested ∧ s.knownSeals.get? capsule.predecessorId = some predecessor ∧ known = nextSeal predecessor capsule

/-- `x` is the seal that the capsule asks for after its predecessor, and is known. -/
def Successor (s : Instance) (capsule : Capsule) (x : StateSeal) : Prop :=
  ∃ predecessor, s.knownSeals.get? capsule.predecessorId = some predecessor ∧ x = nextSeal predecessor capsule ∧
    s.knownSeals.get? x.sealId = some x

end Instance
open Instance

theorem Update.derived {event : Event} {s t : Instance} (update : Update event s t) (free : CollisionFree)
    (filed : s.Filed) (derived : s.Derived) (digested : ∀ capsule, event.Replaces capsule → capsule.Digested) :
    t.Derived := by
  intro k known found later
  rcases update.knownSeals_origin filed.chained found with old | ⟨first, -⟩ | ⟨capsule, predecessor, replaces, before, made⟩
  · obtain ⟨capsule, predecessor, own, before, made⟩ := derived k known old later
    exact ⟨capsule, predecessor, own, update.knownSeals free filed before, made⟩
  · omega
  · exact ⟨capsule, predecessor, digested capsule replaces, update.knownSeals free filed before, made⟩

namespace Call

variable {s : Instance} {call : Call}

theorem exec_filed (free : CollisionFree) (filed : s.Filed) (call : Call) : (call.exec s).Filed :=
  (call.exec_trace s).invariant filed fun _ _ _ _ update before => update.filed free before

theorem exec_derived (free : CollisionFree) (filed : s.Filed) (derived : s.Derived) (digested : call.Digested) :
    (call.exec s).Derived := by
  refine ((call.exec_trace s).invariant (I := fun t => t.Filed ∧ t.Derived) ⟨filed, derived⟩ ?_).2
  rintro event u v allowed update ⟨filed, derived⟩
  refine ⟨update.filed free filed, update.derived free filed derived fun capsule replaces => ?_⟩
  obtain ⟨-, entry, member, rfl⟩ := events_replaces allowed replaces
  exact digested entry member

theorem exec_knownSeals (free : CollisionFree) (filed : s.Filed) (call : Call) {k : String} {known : StateSeal}
    (found : s.knownSeals.get? k = some known) : (call.exec s).knownSeals.get? k = some known := by
  refine ((call.exec_trace s).invariant (I := fun t => t.Filed ∧ t.knownSeals.get? k = some known)
    ⟨filed, found⟩ ?_).2
  rintro event u v - update ⟨filed, found⟩
  exact ⟨update.filed free filed, update.knownSeals free filed found⟩

/-- A seal that a call has made known is a first seal, or the call applies capsules. -/
theorem exec_knownSeals_cases (free : CollisionFree) (filed : s.Filed) (call : Call) {k : String} {known : StateSeal}
    (found : (call.exec s).knownSeals.get? k = some known) : s.knownSeals.get? k = some known ∨
      known.version = 0 ∧ ¬ call.Applies ∨ 0 < known.version ∧ call.Applies := by
  refine ((call.exec_trace s).invariant (I := fun t => t.Filed ∧ ∀ x, t.knownSeals.get? k = some x →
    s.knownSeals.get? k = some x ∨ x.version = 0 ∧ ¬ call.Applies ∨ 0 < x.version ∧ call.Applies)
    ⟨filed, fun x old => Or.inl old⟩ ?_).2 known found
  rintro event u v allowed update ⟨filed, cases⟩
  refine ⟨update.filed free filed, fun x found => ?_⟩
  rcases update.knownSeals_origin filed.chained found with
    old | ⟨first, fresh, rfl⟩ | ⟨capsule, predecessor, replaces, before, rfl⟩
  · exact cases x old
  · exact Or.inr (Or.inl ⟨first, events_created allowed⟩)
  · have natural := filed.version _ _ before
    refine Or.inr (Or.inr ⟨?_, (events_replaces allowed replaces).1⟩)
    simp only [nextSeal]
    omega

end Call

namespace Instance

variable {s t : Instance} {capsule : Capsule} {x : StateSeal}

theorem Successor.unique {y : StateSeal} (first : s.Successor capsule x) (second : s.Successor capsule y) : x = y := by
  obtain ⟨predecessor, known, rfl, -⟩ := first
  obtain ⟨predecessor', known', rfl, -⟩ := second
  rw [Option.some.inj (known.symm.trans known')]

/-- The capability hash of a seal tells the capsule that it was made for. -/
theorem Derived.successor (derived : s.Derived) (free : CollisionFree) (filed : s.Filed) (own : capsule.Digested)
    {k : String} (found : s.knownSeals.get? k = some x) (later : 0 < x.version)
    (capability : x.capabilityHash = digest (.str capsule.capsuleId)) : s.Successor capsule x := by
  obtain ⟨maker, predecessor, digested, known, rfl⟩ := derived k x found later
  have named : maker.capsuleId = capsule.capsuleId := digest_str_inj free capability
  have content := Capsule.eq_of_statement free (digested.symm.trans (named.trans own))
  have before : maker.predecessorId = capsule.predecessorId := by
    simpa only using congrArg Capsule.predecessorId content
  have root : maker.successorRoot = capsule.successorRoot := by
    simpa only using congrArg Capsule.successorRoot content
  have client : maker.clientId = capsule.clientId := by
    simpa only using congrArg Capsule.clientId content
  have made : nextSeal predecessor maker = nextSeal predecessor capsule := by
    simp only [nextSeal, named, root, client]
  refine ⟨predecessor, before ▸ known, made, ?_⟩
  rwa [filed.sealKey k _ found]

theorem Successor.later (successor : s.Successor capsule x) (filed : s.Filed) : 0 < x.version := by
  obtain ⟨predecessor, known, rfl, -⟩ := successor
  have natural := filed.version _ _ known
  simp only [nextSeal]
  omega

theorem Successor.succeeded (successor : s.Successor capsule x) : s.Succeeded capsule := by
  obtain ⟨predecessor, known, rfl, found⟩ := successor
  exact ⟨predecessor, _, _, known, found, rfl, rfl, rfl⟩

/-- What the scan of the known seals finds is the successor. -/
theorem Derived.successorOf (derived : s.Derived) (free : CollisionFree) (filed : s.Filed) (own : capsule.Digested)
    (found : s.successorOf capsule = some x) : s.Successor capsule x := by
  have matching := List.find?_some found
  obtain ⟨k, known⟩ := Dict.mem_values.mp (List.mem_of_find?_eq_some found)
  simp only [Bool.and_eq_true, decide_eq_true_eq] at matching
  obtain ⟨⟨⟨-, version⟩, -⟩, capability⟩ := matching
  refine derived.successor free filed own known ?_ capability
  cases before : s.knownSeals.get? capsule.predecessorId with
  | none =>
    rw [before, Option.getD_none] at version
    omega
  | some predecessor =>
    have natural := filed.version _ _ before
    rw [before, Option.getD_some] at version
    omega

/-- The outcome of a capsule whose successor is known. -/
theorem Successor.outcome (successor : s.Successor capsule x) (free : CollisionFree) (filed : s.Filed)
    (derived : s.Derived) (own : capsule.Digested) : ∃ closure : ClosureProof, s.transitionOutcome capsule = some {
      capsuleId := capsule.capsuleId
      predecessorId := capsule.predecessorId
      status := .closed
      evidenceIds := [closure.proofId]
      successorSealId := some x.sealId } := by
  obtain ⟨y, scanned⟩ := Option.isSome_iff_exists.mp ((filed.successorOf_isSome capsule).mpr successor.succeeded)
  obtain ⟨closure, closed⟩ := Dict.contains_iff.mp (filed.closed_of_succeeded free successor.succeeded)
  rw [successor.unique (derived.successorOf free filed own scanned)]
  refine ⟨closure, ?_⟩
  simp only [MosaicProtocol.transitionOutcome, closed, scanned]

theorem successor_of_closed (free : CollisionFree) (filed : s.Filed) (derived : s.Derived) (own : capsule.Digested)
    {outcome : TransitionOutcome} (found : s.transitionOutcome capsule = some outcome)
    (closed : outcome.status = .closed) : ∃ x, s.Successor capsule x ∧ outcome.successorSealId = some x.sealId := by
  have succeeded := (filed.outcome_iff free capsule .closed).mp ⟨outcome, found, closed⟩
  obtain ⟨x, scanned⟩ := Option.isSome_iff_exists.mp ((filed.successorOf_isSome capsule).mpr succeeded)
  have successor := derived.successorOf free filed own scanned
  obtain ⟨closure, reported⟩ := successor.outcome free filed derived own
  cases Option.some.inj (found.symm.trans reported)
  exact ⟨x, successor, rfl⟩

/-- What an outcome rests on is there, as long as no digest is empty. -/
theorem outcome_complete (named : ∀ value, digest value ≠ "") {outcome : TransitionOutcome}
    (found : s.transitionOutcome capsule = some outcome) : outcome.isEvidenceComplete = true := by
  unfold MosaicProtocol.transitionOutcome at found
  split at found
  · cases found
    simp [TransitionOutcome.isEvidenceComplete, StateSeal.sealId, named]
  · split at found
    · cases found
      rfl
    · split at found
      · cases found
        rfl
      · cases found

end Instance

/-- The instance after the calls. -/
def Instance.after (s : Instance) (calls : List Call) : Instance := calls.foldl (fun s call => call.exec s) s

/-- A call of `apply` or `apply_bundle` makes the seal known. -/
structure Call.Creates (s : Instance) (call : Call) (x : StateSeal) : Prop where
  applies : call.Applies
  new : s.knownSeals.get? x.sealId = none
  known : (call.exec s).knownSeals.get? x.sealId = some x

/-- One of the calls has created the seal that the capsule asks for after its
predecessor. -/
structure CreatedIn (start : Instance) (calls : List Call) (capsule : Capsule) (x : StateSeal) : Prop where
  follows : ∃ predecessor : StateSeal, predecessor.sealId = capsule.predecessorId ∧ x = nextSeal predecessor capsule
  created : ∃ earlier call later, calls = earlier ++ call :: later ∧ call.Creates (start.after earlier) x

namespace Instance

variable {s : Instance} {calls : List Call} {capsule : Capsule} {x : StateSeal}

theorem after_concat (s : Instance) (calls : List Call) (call : Call) :
    s.after (calls ++ [call]) = call.exec (s.after calls) := by
  rw [after, List.foldl_append, List.foldl_cons, List.foldl_nil, after]

theorem after_append (s : Instance) (calls more : List Call) : s.after (calls ++ more) = (s.after calls).after more := by
  rw [after, List.foldl_append, after, after]

theorem after_filed (free : CollisionFree) (filed : s.Filed) (calls : List Call) : (s.after calls).Filed := by
  induction calls using List.reverseRecOn with
  | nil => exact filed
  | append_singleton calls call ih =>
    rw [after_concat]
    exact call.exec_filed free ih

theorem after_derived (free : CollisionFree) (filed : s.Filed) (derived : s.Derived)
    (digested : ∀ call ∈ calls, call.Digested) : (s.after calls).Derived := by
  induction calls using List.reverseRecOn with
  | nil => exact derived
  | append_singleton calls call ih =>
    rw [after_concat]
    have before := ih fun other member => digested other (List.mem_append_left _ member)
    exact Call.exec_derived free (after_filed free filed calls) before (digested call (by simp))

theorem after_knownSeals (free : CollisionFree) (filed : s.Filed) (calls : List Call) {k : String} {known : StateSeal}
    (found : s.knownSeals.get? k = some known) : (s.after calls).knownSeals.get? k = some known := by
  induction calls using List.reverseRecOn with
  | nil => exact found
  | append_singleton calls call ih =>
    rw [after_concat]
    exact call.exec_knownSeals free (after_filed free filed calls) ih

theorem Successor.after (successor : s.Successor capsule x) (free : CollisionFree) (filed : s.Filed)
    (calls : List Call) : (s.after calls).Successor capsule x := by
  obtain ⟨predecessor, known, made, found⟩ := successor
  exact ⟨predecessor, after_knownSeals free filed calls known, made, after_knownSeals free filed calls found⟩

/-- A seal that was not known at the beginning was created on the way. -/
theorem exists_creation (free : CollisionFree) (filed : s.Filed) (new : s.knownSeals.get? x.sealId = none)
    (later : 0 < x.version) (found : (s.after calls).knownSeals.get? x.sealId = some x) :
    ∃ earlier call rest, calls = earlier ++ call :: rest ∧ call.Creates (s.after earlier) x := by
  induction calls using List.reverseRecOn with
  | nil =>
    rw [after, List.foldl_nil, new] at found
    cases found
  | append_singleton calls call ih =>
    rw [after_concat] at found
    have before := after_filed free filed calls
    cases known : (s.after calls).knownSeals.get? x.sealId with
    | some y =>
      cases Option.some.inj ((call.exec_knownSeals free before known).symm.trans found)
      obtain ⟨earlier, first, rest, rfl, creates⟩ := ih known
      exact ⟨earlier, first, rest ++ [call], by simp, creates⟩
    | none =>
      refine ⟨calls, call, [], rfl, ?_, known, found⟩
      rcases call.exec_knownSeals_cases free before found with old | ⟨first, -⟩ | ⟨-, applies⟩
      · cases known.symm.trans old
      · omega
      · exact applies

/-- The seals that were created for a capsule are its successors in the end. -/
theorem createdIn_iff (free : CollisionFree) (filed : s.Filed) (derived : s.Derived) (empty : s.knownSeals = .empty)
    (digested : ∀ call ∈ calls, call.Digested) (own : capsule.Digested) :
    CreatedIn s calls capsule x ↔ (s.after calls).Successor capsule x := by
  constructor
  · rintro ⟨⟨predecessor, -, rfl⟩, earlier, call, rest, rfl, applies, new, known⟩
    have before := after_filed free filed earlier
    have beforeDerived : (s.after earlier).Derived :=
      after_derived free filed derived fun other member => digested other (List.mem_append_left _ member)
    have here : (call.exec (s.after earlier)).Successor capsule (nextSeal predecessor capsule) := by
      refine Derived.successor (call.exec_derived free before beforeDerived (digested call (by simp))) free
        (call.exec_filed free before) own known ?_ rfl
      rcases call.exec_knownSeals_cases free before known with old | ⟨-, other⟩ | ⟨later, -⟩
      · cases new.symm.trans old
      · exact absurd applies other
      · exact later
    rw [after_append]
    exact here.after free (call.exec_filed free before) rest
  · intro successor
    have later := successor.later (after_filed free filed calls)
    obtain ⟨predecessor, known, made, found⟩ := successor
    have new : s.knownSeals.get? x.sealId = none := by rw [empty, Dict.get?_empty]
    exact ⟨⟨predecessor, (after_filed free filed calls).sealKey _ _ known, made⟩,
      exists_creation free filed new later found⟩

end Instance

/-- What is said about the outcome of a capsule after the calls of a run. -/
structure ClosedMeansApplied (start : Instance) (calls : List Call) (capsule : Capsule) : Prop where
  closed : (∃ outcome, (start.after calls).transitionOutcome capsule = some outcome ∧ outcome.status = .closed) ↔
    ∃ x, CreatedIn start calls capsule x
  reports : ∀ outcome x, (start.after calls).transitionOutcome capsule = some outcome → outcome.status = .closed →
    CreatedIn start calls capsule x → outcome.successorSealId = some x.sealId
  stays : ∀ outcome, (start.after calls).transitionOutcome capsule = some outcome → outcome.status = .closed →
    ∀ more, (∀ call ∈ more, call.Digested) → ∃ later, (start.after (calls ++ more)).transitionOutcome capsule = some later ∧
      later.status = .closed ∧ later.successorSealId = outcome.successorSealId
  complete : ∀ outcome, (start.after calls).transitionOutcome capsule = some outcome →
    outcome.isEvidenceComplete = true

/-- A capsule is closed when a call has applied it, and stays so with the same seal. -/
theorem closed_means_applied (free : CollisionFree) (named : ∀ value, digest value ≠ "") (members : Dict String Member)
    (epoch : Int) {calls : List Call} (digested : ∀ call ∈ calls, call.Digested) {capsule : Capsule}
    (own : capsule.Digested) : ClosedMeansApplied (.fresh members epoch) calls capsule := by
  have start : (Instance.fresh members epoch).Filed := (Run.start (fun _ _ => True) (.fresh members epoch)).filed free
  have origin : (Instance.fresh members epoch).Derived := fun _ _ found => nomatch found
  have filed := Instance.after_filed free start calls
  have derived := Instance.after_derived free start origin digested
  have created := fun x => @Instance.createdIn_iff _ _ _ capsule x free start origin rfl digested own
  refine ⟨⟨?_, ?_⟩, ?_, ?_, fun outcome found => Instance.outcome_complete named found⟩
  · rintro ⟨outcome, found, closed⟩
    obtain ⟨x, successor, -⟩ := Instance.successor_of_closed free filed derived own found closed
    exact ⟨x, (created x).mpr successor⟩
  · rintro ⟨x, creation⟩
    obtain ⟨closure, found⟩ := ((created x).mp creation).outcome free filed derived own
    exact ⟨_, found, rfl⟩
  · intro outcome x found closed creation
    obtain ⟨y, successor, reported⟩ := Instance.successor_of_closed free filed derived own found closed
    rw [reported, successor.unique ((created x).mp creation)]
  · intro outcome found closed more later
    obtain ⟨x, successor, reported⟩ := Instance.successor_of_closed free filed derived own found closed
    rw [Instance.after_append]
    obtain ⟨closure, found'⟩ := (successor.after free filed more).outcome free (Instance.after_filed free filed more)
      (Instance.after_derived free filed derived later) own
    exact ⟨_, found', rfl, reported.symm⟩

section Applied
variable (pair : KeyPair)

/-- A capsule is accepted, closed and applied. -/
def appliedCalls : List Call := [createCall pair, acceptCall pair,
  .registerClosure (soloCapsule pair "p" "a" 0) (closureA pair), .apply (soloCapsule pair "p" "a" 0) (closureA pair)]

theorem soloCapsule_digested : (soloCapsule pair "p" "a" 0).Digested := rfl

theorem appliedCalls_digested : ∀ call ∈ appliedCalls pair, call.Digested := by
  intro call member entry applied
  simp only [appliedCalls, List.mem_cons, List.not_mem_nil, or_false] at member
  rcases member with rfl | rfl | rfl | rfl
  · cases applied
  · cases applied
  · cases applied
  · rw [List.mem_singleton.mp applied]
    exact soloCapsule_digested pair

theorem appliedCalls_created (free : CollisionFree) (sound : SignaturesVerify) :
    CreatedIn (soloStart pair) (appliedCalls pair) (soloCapsule pair "p" "a" 0)
      (nextSeal (soloSeal pair "p") (soloCapsule pair "p" "a" 0)) := by
  have before : (soloStart pair).after [createCall pair, acceptCall pair,
      .registerClosure (soloCapsule pair "p" "a" 0) (closureA pair)] = afterClosure pair := rfl
  have state := afterClosure_eq pair sound
  have accepted := afterAccept_eq pair sound
  have verified := afterAccept_verifies pair sound
  have knowns : (afterClosure pair).knownSeals = Dict.empty.set (soloSeal pair "p").sealId (soloSeal pair "p") := by
    rw [state, accepted]
    rfl
  have currents : (afterClosure pair).currentSeals = Dict.empty.set "p" (soloSeal pair "p") := by
    rw [state, accepted]
    rfl
  have registered : (afterClosure pair).closures.get? (soloCapsule pair "p" "a" 0).capsuleId = some (closureA pair) := by
    rw [state, Instance.addClosure_closures, Dict.get?_set_self]
  have verifies : (afterClosure pair).verifyClosure (soloCapsule pair "p" "a" 0) (closureA pair) = true := by
    rw [state, Instance.verifyClosure_addClosure]
    exact verified
  have moved := Instance.nextSeal_ne (soloSeal pair "p") (soloCapsule pair "p" "a" 0) free
  have head : (afterClosure pair).headOf (soloCapsule pair "p" "a" 0) = some (soloSeal pair "p") := by
    refine Option.bind_eq_some_iff.mpr ⟨soloSeal pair "p", ?_, ?_⟩
    · rw [knowns, soloCapsule_predecessorId, Dict.get?_set_self]
    · rw [currents]
      exact Dict.get?_set_self _ _ _
  have applied := Call.exec_apply verifies registered head (soloCapsule_predecessorId pair "p" "a" 0).symm
  refine ⟨⟨soloSeal pair "p", rfl, rfl⟩, [createCall pair, acceptCall pair,
    .registerClosure (soloCapsule pair "p" "a" 0) (closureA pair)], .apply (soloCapsule pair "p" "a" 0) (closureA pair),
    [], rfl, trivial, ?_, ?_⟩
  · rw [before, knowns, Dict.get?_set_of_ne _ _ moved.symm, Dict.get?_empty]
  · rw [before, applied, Instance.installSeal_knownSeals, Dict.get?_set_self]

omit [Crypto] in
/-- The outcome of the applied capsule is closed. -/
theorem closed_means_applied_solo : let _ := Crypto.ideal
    ∃ outcome, ((soloStart idealKey).after (appliedCalls idealKey)).transitionOutcome (soloCapsule idealKey "p" "a" 0) =
      some outcome ∧ outcome.status = .closed := by
  intro _
  have digested := @appliedCalls_digested Crypto.ideal idealKey
  have created := @appliedCalls_created Crypto.ideal idealKey ideal_collisionFree ideal_signaturesVerify
  have own := @soloCapsule_digested Crypto.ideal idealKey
  exact (closed_means_applied ideal_collisionFree ideal_digest_named _ _ digested own).closed.mpr ⟨_, created⟩

end Applied

end Mosaic
