import Mosaic.BundleAgreement
import Mosaic.OwnerAuthorisation

namespace Mosaic
open CanonicalJson Effects

variable [Crypto]

/-- A successor seal carries the mark of its capsule. -/
def StateSeal.IsOf (new : StateSeal) (c : Capsule) : Prop :=
  0 < new.version ∧ new.capabilityHash = digest (.str c.capsuleId)

/-- The call makes a successor of the capsule current, or known. -/
def Call.Installs (s : Instance) (call : Call) (c : Capsule) : Prop :=
  ∃ new : StateSeal, new.IsOf c ∧
    ((∃ r, s.currentSeals.get? r ≠ some new ∧ (call.exec s).currentSeals.get? r = some new) ∨
      ∃ k, s.knownSeals.get? k ≠ some new ∧ (call.exec s).knownSeals.get? k = some new)

/-- The call applies the bundle, with the capsule among its entries and with
capsules of this bundle only. -/
def Call.ForBundle (call : Call) (id : String) (c : Capsule) : Prop :=
  ∃ bundle entries, call = .applyBundle bundle entries ∧ bundle.bundleId = id ∧
    (∃ entry ∈ entries, entry.1.capsuleId = c.capsuleId) ∧ ∀ entry ∈ entries, entry.1.bundleId = some id

/-- What the two ways of applying leave unchecked: what is applied has its own
identifier, a bundled capsule is not applied by itself, and a bundle with one in it
is the one that all its capsules declare. -/
structure Call.Whole (s : Instance) (call : Call) : Prop where
  bound : ∀ entry ∈ call.entries, s.verifyClosure entry.1 entry.2 = true → s.AtHead entry.1 → entry.1.Bound
  single : ∀ capsule closure, call = .apply capsule closure → s.verifyClosure capsule closure = true →
    s.AtHead capsule → capsule.bundleId = none
  together : ∀ bundle entries, call = .applyBundle bundle entries → (∀ entry ∈ entries, s.Ready entry.1 entry.2) →
    ∀ entry ∈ entries, ∀ id, entry.1.bundleId = some id →
      bundle.bundleId = id ∧ ∀ other ∈ entries, other.1.bundleId = some id

namespace Call

variable {s : Instance} {call : Call} {c : Capsule}

theorem Still.knownSeals (still : call.Still) (s : Instance) : (call.exec s).knownSeals = s.knownSeals :=
  (call.exec_trace s).invariant (I := fun t => t.knownSeals = s.knownSeals) rfl
    fun _ _ _ allowed update same => (still.update allowed update).2.1.trans same

/-- A seal that is new as the current one is new altogether. -/
theorem new_of_current (free : CollisionFree) (filed : s.Filed) (latest : s.Latest) {r : String} {new : StateSeal}
    (before : s.currentSeals.get? r ≠ some new) (after : (call.exec s).currentSeals.get? r = some new) :
    s.knownSeals.get? new.sealId ≠ some new ∧ (call.exec s).knownSeals.get? new.sealId = some new := by
  have chained := call.exec_chained free filed.chained
  refine ⟨fun known => ?_, chained.known r new after⟩
  have resource : new.resourceId = r := chained.resource r new after
  obtain ⟨old, held⟩ := Dict.contains_iff.mp (filed.resource _ _ known)
  have version := latest _ _ known old held
  rw [resource] at held
  obtain ⟨moved, found, same | ⟨entry, -, kept, step, -⟩⟩ := call.exec_moves filed.chained held
  · rw [after] at found
    cases found
    exact before (same ▸ held)
  · rw [after] at found
    cases found
    have made : new.version = old.version + 1 := congrArg StateSeal.version step.made
    omega

/-- A capsule whose successor is new was applied by the call, at the head. -/
theorem exec_applies (free : CollisionFree) (filed : s.Filed) {k : String} {new : StateSeal} (mark : new.IsOf c)
    (before : s.knownSeals.get? k ≠ some new) (after : (call.exec s).knownSeals.get? k = some new) :
    ∃ entry ∈ call.entries, entry.1.capsuleId = c.capsuleId ∧ s.verifyClosure entry.1 entry.2 = true ∧
      s.AtHead entry.1 ∧ ∀ bundle entries, call = .applyBundle bundle entries →
        ∀ entry ∈ entries, s.Ready entry.1 entry.2 := by
  have installs : ∀ {event : Event} {t u : Instance}, Update event t u → t.Filed → t.knownSeals.get? k ≠ some new →
      u.knownSeals.get? k = some new → event.Installs c.capsuleId := by
    intro event t u update filed before after
    rcases update.knownSeals_cases filed after with old | first | ⟨capsuleId, installed, marked⟩
    · exact absurd old before
    · exact absurd mark.1 (by omega)
    · rw [digest_str_inj free (mark.2.symm.trans marked)]
      exact installed
  by_cases still : call.Still
  · rw [still.knownSeals s] at after
    exact absurd after before
  cases call with
  | createResource resourceId owner stateRoot secret =>
    rcases exec_createResource_once s resourceId owner stateRoot secret with same | ⟨_, ⟨fresh, rfl⟩, update⟩
    · exact absurd (same ▸ after) before
    · exact (installs update filed before after).elim
  | apply capsule closure =>
    obtain ⟨mid, registered, installed⟩ := exec_apply_parts s capsule closure
    obtain ⟨currents, knowns, verifies⟩ := registered.registered_frame
    have filedMid : mid.Filed := by
      rcases registered with rfl | ⟨_, rfl, update⟩
      · exact filed
      · exact update.filed free filed
    rcases installed with same | ⟨_, rfl, update⟩
    · rw [← same, knowns] at after
      exact absurd after before
    have own := installs update filedMid (knowns ▸ before) after
    generalize (Call.apply capsule closure).exec s = t at update
    cases update with
    | @installed _ _ _ kept current verified found head named =>
      refine ⟨_, List.mem_singleton_self _, own, verifies ▸ verified, ⟨current, ?_, named⟩, ?_⟩
      · rwa [Instance.headOf, knowns, currents] at head
      · rintro _ _ ⟨⟩
  | applyBundle bundle entries =>
    rcases exec_applyBundle_once s bundle entries with same | ⟨_, rfl, update⟩
    · exact absurd (same ▸ after) before
    obtain ⟨entry, inEntries, own⟩ := installs update filed before after
    generalize (Call.applyBundle bundle entries).exec s = t at update
    cases update with
    | bundled ready =>
      obtain ⟨current, -, named, held, known⟩ := (ready entry inEntries).seal filed.chained
      refine ⟨entry, inEntries, own, (ready entry inEntries).verified, ⟨current, ?_, named⟩, ?_⟩
      · exact Option.bind_eq_some_iff.mpr ⟨current, known, held⟩
      · rintro _ _ ⟨⟩
        exact ready
  | _ => exact absurd trivial still

/-- A call that meets the condition installs a bundled capsule for its bundle. -/
theorem Whole.forBundle (whole : call.Whole s) (free : CollisionFree) (filed : s.Filed) (latest : s.Latest)
    (bound : c.Bound) {id : String} (bundled : c.bundleId = some id) (installs : call.Installs s c) :
    call.ForBundle id c := by
  obtain ⟨k, new, mark, before, after⟩ : ∃ k new, StateSeal.IsOf new c ∧ s.knownSeals.get? k ≠ some new ∧
      (call.exec s).knownSeals.get? k = some new := by
    obtain ⟨new, mark, ⟨r, before, after⟩ | ⟨k, before, after⟩⟩ := installs
    · exact ⟨new.sealId, new, mark, call.new_of_current free filed latest before after⟩
    · exact ⟨k, new, mark, before, after⟩
  obtain ⟨entry, applied, own, verified, head, ready⟩ := call.exec_applies free filed mark before after
  have bundle : entry.1.bundleId = some id := by
    have statements : digest entry.1.unsignedStatement = digest c.unsignedStatement :=
      (whole.bound entry applied verified head).symm.trans (own.trans bound)
    exact (congrArg Capsule.bundleId (Capsule.eq_of_statement free statements) :).trans bundled
  cases call with
  | apply capsule closure =>
    cases List.mem_singleton.mp applied
    rw [whole.single capsule closure rfl verified head] at bundle
    cases bundle
  | applyBundle declared entries =>
    obtain ⟨same, all⟩ := whole.together declared entries rfl (ready declared entries rfl) entry applied id bundle
    exact ⟨declared, entries, rfl, same, ⟨entry, applied, own⟩, all⟩
  | _ => cases applied

end Call

/-- Where all calls meet the condition a bundled capsule is installed only with its
bundle, and every successor of one that is known came in so. -/
theorem bundles_visible_whole (free : CollisionFree) {members : Dict String Member} {epoch : Int} {s : Instance}
    (run : Run (fun s call => call.Whole s) (.fresh members epoch) s) {c : Capsule} (bound : c.Bound) {id : String}
    (bundled : c.bundleId = some id) :
    (∀ call : Call, call.Whole s → call.Installs s c → call.ForBundle id c) ∧
      ∀ k new, s.knownSeals.get? k = some new → new.IsOf c → ∃ (mid : Instance) (call : Call),
        Run (fun s call => call.Whole s) (.fresh members epoch) mid ∧ call.Installs mid c ∧ call.ForBundle id c ∧
        Run (fun s call => call.Whole s) (call.exec mid) s := by
  constructor
  · intro call whole installs
    obtain ⟨filed, latest⟩ := run.latest free
    exact whole.forBundle free filed latest bound bundled installs
  · induction run with
    | refl =>
      intro k new found
      cases found
    | @tail t call earlier whole ih =>
      intro k new found mark
      by_cases before : t.knownSeals.get? k = some new
      · obtain ⟨mid, first, reached, installs, forBundle, later⟩ := ih k new before mark
        exact ⟨mid, first, reached, installs, forBundle, later.tail whole⟩
      · obtain ⟨filed, latest⟩ := Run.latest earlier free
        have installs : call.Installs t c := ⟨new, mark, Or.inr ⟨k, before, found⟩⟩
        exact ⟨t, call, earlier, installs, whole.forBundle free filed latest bound bundled installs, .refl⟩

section Bundle
open Instance
variable (pair : KeyPair)

/-- A capsule of the member for a bundle. -/
def bundledOn (resourceId root : String) : Capsule :=
  Capsule.create pair (soloSeal pair resourceId) root "identity-transition" "valid" 0 (some "bundle")

def bundledEntry (resourceId root : String) : Capsule × ClosureProof :=
  (bundledOn pair resourceId root,
    MosaicProtocol.closureOver (bundledOn pair resourceId root) [soloReceipt pair (bundledOn pair resourceId root) "ACCEPT"])

/-- Two of them, one on each of two resources. -/
def bundledEntries : List (Capsule × ClosureProof) := [bundledEntry pair "p" "a", bundledEntry pair "q" "b"]

/-- They are accepted and closed. -/
def bundledCalls : List Call := [
  .createResource "p" pair.identity "genesis" "capability",
  .createResource "q" pair.identity "genesis" "capability",
  .witnessReceipt "w" (bundledOn pair "p" "a") "ACCEPT",
  .witnessReceipt "w" (bundledOn pair "q" "b") "ACCEPT",
  .registerClosure (bundledEntry pair "p" "a").1 (bundledEntry pair "p" "a").2,
  .registerClosure (bundledEntry pair "q" "b").1 (bundledEntry pair "q" "b").2]

def beforeBundle : Instance := (bundledCalls pair).foldl (fun s call => call.exec s) (soloStart pair)

def bundleOfTwo : BundleClosure := ⟨"bundle", (bundledEntries pair).map fun entry => entry.2.proofId, ""⟩

def bundleCall : Call := .applyBundle (bundleOfTwo pair) (bundledEntries pair)

def aloneCall : Call := .apply (bundledEntry pair "p" "a").1 (bundledEntry pair "p" "a").2

variable {pair}

theorem bundledOn_bundleId (resourceId root : String) : (bundledOn pair resourceId root).bundleId = some "bundle" := rfl

theorem bundledOn_bound (resourceId root : String) : (bundledOn pair resourceId root).Bound := rfl

theorem bundledOn_differ (free : CollisionFree) : (bundledOn pair "p" "a").capsuleId ≠ (bundledOn pair "q" "b").capsuleId := by
  intro same
  have content := @Capsule.eq_of_statement _ free (bundledOn pair "p" "a") (bundledOn pair "q" "b") same
  exact absurd (congrArg Capsule.successorRoot content) (by decide : "a" ≠ "b")

theorem seals_differ (free : CollisionFree) : (soloSeal pair "p").sealId ≠ (soloSeal pair "q").sealId := fun same =>
  absurd (soloSeal_inj free same) (by decide)

theorem SoloReady.acceptBundled {s : Instance} {resourceId root : String} (ready : SoloReady pair s resourceId)
    (sound : SignaturesVerify) (proper : root ≠ "") (free : s.locks.get? (soloSeal pair resourceId).sealId = none) :
    (Call.witnessReceipt "w" (bundledOn pair resourceId root) "ACCEPT").exec s =
      (s.setLock (bundledOn pair resourceId root) "ACCEPT").addSigned
        (soloReceipt pair (bundledOn pair resourceId root) "ACCEPT") := by
  have valid : s.Valid (bundledOn pair resourceId root) :=
    ⟨⟨_, ready.known, ready.epoch.symm⟩, ready.epoch.symm, Capsule.create_verifies sound _ _ _ _ _ _ _, le_rfl, proper⟩
  have head : s.AtHead (bundledOn pair resourceId root) :=
    ⟨soloSeal pair resourceId, Option.bind_eq_some_iff.mpr ⟨_, ready.known, ready.current⟩, rfl⟩
  refine Call.exec_accept valid head (fun lock held => ?_) ready.member rfl
  cases free.symm.trans held

/-- The two capsules are accepted. -/
def bundledAccepted (pair : KeyPair) : Instance :=
  (((((soloStart pair).installSeal (soloSeal pair "p")).installSeal (soloSeal pair "q")).setLock
    (bundledOn pair "p" "a") "ACCEPT").addSigned (soloReceipt pair (bundledOn pair "p" "a") "ACCEPT")
    |>.setLock (bundledOn pair "q" "b") "ACCEPT").addSigned (soloReceipt pair (bundledOn pair "q" "b") "ACCEPT")

theorem bundledAccepted_verifies (free : CollisionFree) (sound : SignaturesVerify) :
    ∀ entry ∈ bundledEntries pair, (bundledAccepted pair).verifyClosure entry.1 entry.2 = true := by
  intro entry member
  simp only [bundledEntries, List.mem_cons, List.not_mem_nil, or_false] at member
  rcases member with rfl | rfl
  · refine solo_verifyClosure pair sound _ _ rfl rfl ?_ rfl
    exact (Dict.get?_set_of_ne _ _ (bundledOn_differ free).symm).trans (Dict.get?_set_self _ _ _)
  · exact solo_verifyClosure pair sound _ _ rfl rfl (Dict.get?_set_self _ _ _) rfl

theorem beforeBundle_eq (free : CollisionFree) (sound : SignaturesVerify) : beforeBundle pair =
    ((bundledAccepted pair).addClosure (bundledEntry pair "p" "a").1 (bundledEntry pair "p" "a").2).addClosure
      (bundledEntry pair "q" "b").1 (bundledEntry pair "q" "b").2 := by
  have differ := @seals_differ _ pair free
  have readyP : SoloReady pair (((soloStart pair).installSeal (soloSeal pair "p")).installSeal
      (soloSeal pair "q")) "p" := by
    refine ⟨rfl, rfl, ?_, rfl⟩
    simp [Dict.get?_set, differ.symm]
  have readyQ : SoloReady pair (((soloStart pair).installSeal (soloSeal pair "p")).installSeal
      (soloSeal pair "q")) "q" := ⟨rfl, rfl, Dict.get?_set_self _ _ _, rfl⟩
  unfold beforeBundle bundledCalls
  simp only [List.foldl_cons, List.foldl_nil]
  rw [solo_createResource (by rfl) (by rfl), solo_createResource (by rfl) (by rfl),
    readyP.acceptBundled sound (by decide) (by rfl),
    ((readyQ.setLock _ _).addSigned _).acceptBundled sound (by decide) (Dict.get?_set_of_ne _ _ differ)]
  have verifies := @bundledAccepted_verifies _ pair free sound
  have first : (Call.registerClosure (bundledEntry pair "p" "a").1 (bundledEntry pair "p" "a").2).exec
      (bundledAccepted pair) = _ :=
    Call.exec_registerClosure (verifies _ List.mem_cons_self) rfl rfl
  refine (congrArg _ first).trans ?_
  refine Call.exec_registerClosure ?_ rfl (Dict.get?_set_of_ne _ _ (bundledOn_differ free))
  exact verifies _ (List.mem_cons_of_mem _ List.mem_cons_self)

/-- What there is to apply. -/
theorem beforeBundle_seals (free : CollisionFree) (sound : SignaturesVerify) :
    (beforeBundle pair).currentSeals = (Dict.empty.set "p" (soloSeal pair "p")).set "q" (soloSeal pair "q") ∧
      (beforeBundle pair).knownSeals =
        (Dict.empty.set (soloSeal pair "p").sealId (soloSeal pair "p")).set (soloSeal pair "q").sealId (soloSeal pair "q") := by
  rw [beforeBundle_eq free sound]
  exact ⟨rfl, rfl⟩

theorem beforeBundle_registered (free : CollisionFree) (sound : SignaturesVerify) :
    ∀ entry ∈ bundledEntries pair, (beforeBundle pair).closures.get? entry.1.capsuleId = some entry.2 ∧
      (beforeBundle pair).verifyClosure entry.1 entry.2 = true := by
  intro entry member
  have verified := bundledAccepted_verifies free sound entry member
  rw [beforeBundle_eq free sound, verifyClosure_addClosure, verifyClosure_addClosure]
  refine ⟨?_, verified⟩
  simp only [bundledEntries, List.mem_cons, List.not_mem_nil, or_false] at member
  rcases member with rfl | rfl
  · exact (Dict.get?_set_of_ne _ _ (bundledOn_differ free).symm).trans (Dict.get?_set_self _ _ _)
  · exact Dict.get?_set_self _ _ _

theorem beforeBundle_current (free : CollisionFree) (sound : SignaturesVerify) :
    (beforeBundle pair).currentFor (bundledOn pair "p" "a") = some (soloSeal pair "p") ∧
      (beforeBundle pair).currentFor (bundledOn pair "q" "b") = some (soloSeal pair "q") := by
  have differ := @seals_differ _ pair free
  have named : ∀ resourceId root, (bundledOn pair resourceId root).predecessorId = (soloSeal pair resourceId).sealId :=
    fun _ _ => rfl
  unfold currentFor
  rw [(beforeBundle_seals free sound).1, named, named]
  simp [Dict.values, Dict.set, Dict.empty, Dict.setEntries, differ]

theorem bundleCall_ready (free : CollisionFree) (sound : SignaturesVerify) : ∀ entry ∈ bundledEntries pair,
    (beforeBundle pair).Ready entry.1 entry.2 := by
  obtain ⟨currentP, currentQ⟩ := @beforeBundle_current _ pair free sound
  intro entry member
  obtain ⟨registered, verified⟩ := beforeBundle_registered free sound entry member
  refine ⟨registered, verified, ?_⟩
  simp only [bundledEntries, List.mem_cons, List.not_mem_nil, or_false] at member
  rcases member with rfl | rfl
  · exact ⟨_, currentP⟩
  · exact ⟨_, currentQ⟩

theorem bundledEntries_bundle : ∀ entry ∈ bundledEntries pair, entry.1.Bound ∧ entry.1.bundleId = some "bundle" := by
  intro entry member
  simp only [bundledEntries, List.mem_cons, List.not_mem_nil, or_false] at member
  rcases member with rfl | rfl <;> exact ⟨bundledOn_bound _ _, bundledOn_bundleId _ _⟩

theorem bundleCall_whole (s : Instance) : (bundleCall pair).Whole s := by
  have declare := @bundledEntries_bundle _ pair
  refine ⟨fun entry member _ _ => (declare entry member).1, fun _ _ same => ?_,
    fun bundle entries same _ entry member id declared => ?_⟩
  · cases same
  · cases same
    cases (declare entry member).2.symm.trans declared
    exact ⟨rfl, fun other member' => (declare other member').2⟩

theorem Call.whole_of_entries {s : Instance} {call : Call} (none : call.entries = []) : call.Whole s := by
  refine ⟨fun entry member => ?_, fun _ _ same => ?_, fun bundle entries same _ entry member => ?_⟩
  · rw [none] at member
    cases member
  · rw [same] at none
    cases none
  · rw [same] at none
    rw [show entries = [] from none] at member
    cases member

theorem beforeBundle_run : Run (fun s call => call.Whole s) (soloStart pair) (beforeBundle pair) := by
  have silent : ∀ call ∈ bundledCalls pair, call.entries = [] := by simp [bundledCalls, Call.entries]
  exact GuardedRun.of_listed fun call member _ => Call.whole_of_entries (silent call member)

/-- Its successor, the first after the start. -/
theorem successor_isOf (resourceId root : String) :
    (nextSeal (soloSeal pair resourceId) (bundledOn pair resourceId root)).IsOf (bundledOn pair resourceId root) :=
  ⟨Int.zero_lt_one, rfl⟩

/-- The bundle installs both successors. -/
theorem bundleCall_exec (free : CollisionFree) (sound : SignaturesVerify) :
    (bundleCall pair).exec (beforeBundle pair) =
      ((beforeBundle pair).installSeal (nextSeal (soloSeal pair "p") (bundledOn pair "p" "a"))).installSeal
        (nextSeal (soloSeal pair "q") (bundledOn pair "q" "b")) := by
  have named : (bundleOfTwo pair).bundleId ≠ "" := (by decide : "bundle" ≠ "")
  have ran : applyBundle (bundleOfTwo pair) (bundledEntries pair) (beforeBundle pair) = _ :=
    applyBundle_returns (List.cons_ne_nil _ _) named rfl (bundleCall_ready free sound)
  obtain ⟨currentP, currentQ⟩ := @beforeBundle_current _ pair free sound
  have seals : (beforeBundle pair).bundleSeals (bundledEntries pair) =
      [nextSeal (soloSeal pair "p") (bundledOn pair "p" "a"), nextSeal (soloSeal pair "q") (bundledOn pair "q" "b")] := by
    have both := bundleSeals_append (beforeBundle pair) [bundledEntry pair "p" "a"] [bundledEntry pair "q" "b"]
    rwa [bundleSeals_singleton _ currentP, bundleSeals_singleton _ currentQ] at both
  rw [seals] at ran
  exact final_of_ok ran

theorem bundleCall_known (free : CollisionFree) (sound : SignaturesVerify) :
    ((bundleCall pair).exec (beforeBundle pair)).knownSeals.get?
      (nextSeal (soloSeal pair "q") (bundledOn pair "q" "b")).sealId =
        some (nextSeal (soloSeal pair "q") (bundledOn pair "q" "b")) := by
  rw [bundleCall_exec free sound]
  exact Dict.get?_set_self _ _ _

theorem afterBundle_run : Run (fun s call => call.Whole s) (soloStart pair) ((bundleCall pair).exec (beforeBundle pair)) :=
  beforeBundle_run.call _ (bundleCall_whole _)

/-- By itself a bundled capsule is applied just as well. -/
theorem aloneCall_installs (free : CollisionFree) (sound : SignaturesVerify) :
    (aloneCall pair).Installs (beforeBundle pair) (bundledOn pair "p" "a") := by
  obtain ⟨registered, verified⟩ := beforeBundle_registered free sound _ (@List.mem_cons_self _ (bundledEntry pair "p" "a") _)
  obtain ⟨currents, knowns⟩ := @beforeBundle_seals _ pair free sound
  have head : (beforeBundle pair).headOf (bundledOn pair "p" "a") = some (soloSeal pair "p") := by
    refine Option.bind_eq_some_iff.mpr ⟨soloSeal pair "p", ?_, ?_⟩
    · rw [knowns]
      exact (Dict.get?_set_of_ne _ _ (seals_differ free).symm).trans (Dict.get?_set_self _ _ _)
    · rw [currents]
      rfl
  refine ⟨_, successor_isOf "p" "a", Or.inl ⟨"p", ?_, ?_⟩⟩
  · rw [currents]
    intro same
    have version : (0 : Int) = 0 + 1 := congrArg StateSeal.version (Option.some.inj same)
    omega
  · rw [aloneCall, Call.exec_apply verified registered head rfl]
    exact Dict.get?_set_self _ _ _

omit [Crypto] in
/-- A bundle of two capsules. -/
theorem bundles_visible_whole_pair : let _ := Crypto.ideal
    ∃ (members : Dict String Member) (epoch : Int) (s : Instance) (c : Capsule) (new : StateSeal),
      s.knownSeals.get? new.sealId = some new ∧ new.IsOf c ∧
      (∀ call : Call, call.Whole s → call.Installs s c → call.ForBundle "bundle" c) ∧
      ∀ k new, s.knownSeals.get? k = some new → new.IsOf c → ∃ (mid : Instance) (call : Call),
        Run (fun s call => call.Whole s) (.fresh members epoch) mid ∧ call.Installs mid c ∧
        call.ForBundle "bundle" c ∧ Run (fun s call => call.Whole s) (call.exec mid) s := by
  dsimp only
  have known := @bundleCall_known Crypto.ideal idealKey ideal_collisionFree ideal_signaturesVerify
  have mark := @successor_isOf Crypto.ideal idealKey "q" "b"
  have bound := @bundledOn_bound Crypto.ideal idealKey "q" "b"
  have declared := @bundledOn_bundleId Crypto.ideal idealKey "q" "b"
  have run := @afterBundle_run Crypto.ideal idealKey
  have visible := @bundles_visible_whole Crypto.ideal ideal_collisionFree _ _ _ run _ bound _ declared
  exact ⟨_, _, _, _, _, known, mark, visible⟩

/-- The call by itself is not for the bundle. -/
theorem aloneCall_not_forBundle (id : String) (c : Capsule) : ¬ (aloneCall pair).ForBundle id c := by
  rintro ⟨bundle, entries, same, -⟩
  cases same

omit [Crypto] in
/-- A bundled capsule becomes visible by `apply`. -/
theorem bundled_visible_alone : ¬ ∀ [Crypto], CollisionFree → SignaturesVerify →
    ∀ (members : Dict String Member) (epoch : Int) (s : Instance), Run (fun _ _ => True) (.fresh members epoch) s →
      ∀ (c : Capsule) (id : String), c.Bound → c.bundleId = some id →
        ∀ call : Call, call.Installs s c → call.ForBundle id c := by
  intro claim
  have run := @GuardedRun.mono _ _ _ _ (fun _ _ => True) _ _ (@beforeBundle_run Crypto.ideal idealKey)
    fun _ _ _ => trivial
  have installs := @aloneCall_installs Crypto.ideal idealKey ideal_collisionFree ideal_signaturesVerify
  have bound := @bundledOn_bound Crypto.ideal idealKey "p" "a"
  have declared := @bundledOn_bundleId Crypto.ideal idealKey "p" "a"
  exact @aloneCall_not_forBundle Crypto.ideal idealKey _ _ (@claim Crypto.ideal ideal_collisionFree
    ideal_signaturesVerify _ _ _ run _ _ bound declared _ installs)

end Bundle

end Mosaic
