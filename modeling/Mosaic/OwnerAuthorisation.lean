import Mosaic.SealChain

namespace Mosaic
open CanonicalJson Effects

variable [Crypto]

/-- The capsule has the identifier of its own statement. -/
def Capsule.Bound (capsule : Capsule) : Prop := capsule.capsuleId = digest capsule.unsignedStatement

/-- The key that signs the capsule is the one of the seal's owner. -/
def Capsule.IsBy (capsule : Capsule) (current : StateSeal) : Prop :=
  identityFromPublicKey capsule.clientPublicKey = current.owner

/-- The identifier is that of a capsule signed by the owner of the seal it names. -/
def Owned (capsuleId : String) : Prop :=
  ∃ (capsule : Capsule) (current : StateSeal), capsule.Bound ∧ capsule.capsuleId = capsuleId ∧
    current.sealId = capsule.predecessorId ∧ capsule.IsBy current

/-- No other body under the identifier, on no other seal, is signed by another key. -/
theorem Owned.isBy {capsule : Capsule} {old : StateSeal} (owned : Owned capsule.capsuleId) (free : CollisionFree)
    (bound : capsule.Bound) (named : capsule.predecessorId = old.sealId) : capsule.IsBy old := by
  obtain ⟨stored, current, bound', same, named', isBy⟩ := owned
  have content := Capsule.eq_of_statement free (bound'.symm.trans (same.trans bound))
  have predecessor : stored.predecessorId = capsule.predecessorId := (congrArg Capsule.predecessorId content :)
  have key : stored.clientPublicKey = capsule.clientPublicKey := (congrArg Capsule.clientPublicKey content :)
  have here : current = old := StateSeal.eq_of_sealId free (named'.trans (predecessor.trans named))
  rwa [Capsule.IsBy, key, here] at isBy

/-- What validation leaves unchecked: an accepted capsule has its own identifier
and is signed by the owner of the current seal, and an applied one has its own
identifier. -/
structure Call.Authorised (s : Instance) (call : Call) : Prop where
  accepts : ∀ capsule current, call.witnessed = some ("ACCEPT", capsule) → s.Valid capsule →
    s.headOf capsule = some current → current.sealId = capsule.predecessorId → capsule.Bound ∧ capsule.IsBy current
  applies : ∀ entry ∈ call.entries, s.verifyClosure entry.1 entry.2 = true → s.AtHead entry.1 → entry.1.Bound

theorem Call.exec_owned {s : Instance} {call : Call} (authorised : call.Authorised s)
    (owned : ∀ vote, s.Voted vote → Owned vote.capsuleId) : ∀ vote, (call.exec s).Voted vote → Owned vote.capsuleId := by
  refine ((call.exec_trace s).invariant (I := fun t => (∀ vote, t.Voted vote → Owned vote.capsuleId) ∧
    (call.Still → t.currentSeals = s.currentSeals ∧ t.knownSeals = s.knownSeals ∧ t.epoch = s.epoch))
    ⟨owned, fun _ => ⟨rfl, rfl, rfl⟩⟩ ?_).1
  rintro event t u allowed update ⟨owned, frame⟩
  have frame' : call.Still → u.currentSeals = s.currentSeals ∧ u.knownSeals = s.knownSeals ∧ u.epoch = s.epoch := by
    intro still
    obtain ⟨currents, knowns, epoch⟩ := frame still
    obtain ⟨currents', knowns', epoch'⟩ := still.update allowed update
    exact ⟨currents'.trans currents, knowns'.trans knowns, epoch'.trans epoch⟩
  refine ⟨?_, frame'⟩
  cases update with
  | @signed _ capsule status memberId member pair lock valid known loaded held mine accepting abandoning either =>
    intro vote voted
    rcases Instance.voted_addSigned voted with old | ⟨accept, rfl⟩
    · exact owned vote old
    have witnessed := Call.witnessed_of_signed allowed
    rw [accept] at witnessed
    -- the checks were made in `t`, which has the seals of `s`
    obtain ⟨currents, knowns, epoch⟩ := frame (Call.still_of_witnessed witnessed)
    obtain ⟨current, head, named⟩ := accepting accept
    rw [Instance.headOf, knowns, currents] at head
    have valid' : s.Valid capsule := by
      refine ⟨?_, epoch ▸ valid.epoch, valid.signature, valid.attempt, valid.root⟩
      rw [← knowns, ← epoch]
      exact valid.known
    obtain ⟨bound, isBy⟩ := authorised.accepts capsule current witnessed valid' head named
    exact ⟨capsule, current, bound, rfl, named, isBy⟩
  | bundled ready =>
    obtain ⟨currents, knowns, same⟩ := Instance.foldl_installSeal (t.bundleSeals _) t
    rw [same]
    exact owned
  | _ => exact owned

/-- A call that moves a seal has verified the closures of all it applies. -/
theorem Call.exec_verified {s : Instance} {call : Call} {r : String} {old new : StateSeal}
    (held : s.currentSeals.get? r = some old) (held' : (call.exec s).currentSeals.get? r = some new)
    (moved : new ≠ old) : ∀ entry ∈ call.entries, s.verifyClosure entry.1 entry.2 = true := by
  have changed : (call.exec s).currentSeals ≠ s.currentSeals := by
    intro same
    rw [same, held] at held'
    exact moved (Option.some.inj held').symm
  cases call with
  | apply capsule closure =>
    obtain ⟨mid, registered, installed⟩ := Call.exec_apply_parts s capsule closure
    obtain ⟨currents, knowns, verifies⟩ := registered.registered_frame
    rcases installed with same | ⟨_, rfl, update⟩
    · exact absurd (same ▸ currents) changed
    · have verified : mid.verifyClosure capsule closure = true := by
        generalize (Call.apply capsule closure).exec s = t at update
        cases update
        assumption
      simpa [entries, verifies] using verified
  | applyBundle bundle entries =>
    rcases Call.exec_applyBundle_once s bundle entries with same | ⟨_, rfl, update⟩
    · exact absurd (same ▸ rfl) changed
    · generalize (Call.applyBundle bundle entries).exec s = t at update
      cases update with
      | bundled ready => exact fun entry member => (ready entry member).verified
  | _ => simp [entries]

variable {ι : Type}

/-- The receipts in the closures that a call applies were all signed by the
witnesses they name. -/
def Call.Genuine (home : String → ι) (net : ι → Instance) (call : ι × Call) : Prop :=
  ∀ entry ∈ call.2.entries, Unforged (net call.1).toMosaicProtocol net home ∅ entry.2.receipts

/-- A verified closure carries the vote of some witness. -/
theorem MosaicProtocol.Accepts.voted {s : MosaicProtocol} {capsule : Capsule} {closure : ClosureProof}
    {net : ι → Instance} {home : String → ι} (accepted : s.Accepts capsule closure)
    (unforged : Unforged s net home ∅ closure.receipts) :
    ∃ i vote, (net i).Voted vote ∧ vote.capsuleId = capsule.capsuleId := by
  have heavy := accepted.heavy
  have some : (byWitness closure.receipts).keys ≠ [] := by
    intro none
    rw [none, List.map_nil, List.sum_nil] at heavy
    exact absurd s.threshold_pos (Nat.not_lt.mpr heavy)
  obtain ⟨w, member⟩ := List.exists_mem_of_ne_nil _ some
  obtain ⟨receipt, inList, rfl, verified, status, named⟩ := accepted.receipt member
  obtain ⟨m, stored, valid⟩ := verifyReceipt_iff.mp verified
  obtain ⟨own, signed, same⟩ := unforged receipt inList (Finset.notMem_empty _) m valid.known valid.signature
  obtain ⟨capsuleId, -, -, -, -, status'⟩ := receipt_eq_of_statement same
  exact ⟨_, own.vote, ⟨own, signed, status'.trans status, rfl⟩, capsuleId.trans named⟩

/-- The call moves a resource from one seal to another through the capsule. -/
structure Call.MovesBy (call : Call) (old new : StateSeal) (capsule : Capsule) : Prop where
  applied : ∃ closure, (capsule, closure) ∈ call.entries
  named : capsule.predecessorId = old.sealId
  made : new = nextSeal old capsule

/-- Whenever a current seal changes, it does so through a capsule, and the key
that signed this capsule is the key of the owner. -/
def OwnerAuthorisation (allowed : (ι → Instance) → ι × Call → Prop) (net : ι → Instance) : Prop :=
  ∀ i call, allowed net (i, call) → ∀ r old new, (net i).currentSeals.get? r = some old →
    (call.exec (net i)).currentSeals.get? r = some new → new ≠ old →
    (∃ capsule, call.MovesBy old new capsule) ∧ ∀ capsule, call.MovesBy old new capsule → capsule.IsBy old

/-- Where only capsules are accepted that have their own identifier and are signed
by the owner of the seal they consume, and only capsules are applied that have
their own identifier, every change of a seal is authorised by its owner. -/
theorem owner_authorisation [DecidableEq ι] (free : CollisionFree) {home : String → ι} {start net : ι → Instance}
    (fresh : ∀ i, start i = .fresh (start i).members (start i).epoch)
    (run : Network.Run (fun net call => Call.Genuine home net call ∧ call.2.Authorised (net call.1)) start net) :
    OwnerAuthorisation (fun net call => Call.Genuine home net call ∧ call.2.Authorised (net call.1)) net := by
  have invariant : ∀ i, (net i).Chained ∧ ∀ vote, (net i).Voted vote → Owned vote.capsuleId := by
    refine run.invariant (I := fun s => s.Chained ∧ ∀ vote, s.Voted vote → Owned vote.capsuleId) (fun i => ?_)
      fun net i call allowed before => ⟨call.exec_chained free before.1, call.exec_owned allowed.2 before.2⟩
    rw [fresh i]
    exact ⟨⟨fun r seal' held => (nomatch held), fun r seal' held => (nomatch held)⟩,
      fun vote ⟨receipt, member, _⟩ => (nomatch member)⟩
  rintro i call ⟨genuine, authorised⟩ r old new held held' moved
  have chained := (invariant i).1
  constructor
  · obtain ⟨new', found, same | ⟨entry, applied, kept, moves, -⟩⟩ := call.exec_moves chained held
    · exact absurd (Option.some.inj (held'.symm.trans found) |>.trans same) moved
    · cases Option.some.inj (held'.symm.trans found)
      exact ⟨entry.1, ⟨entry.2, applied⟩, moves.named, moves.made⟩
  · rintro capsule ⟨⟨closure, applied⟩, named, made⟩
    have verified := Call.exec_verified held held' moved _ applied
    have head : (net i).AtHead capsule := by
      refine ⟨old, Option.bind_eq_some_iff.mpr ⟨old, ?_, ?_⟩, named.symm⟩
      · rw [named]
        exact chained.known r old held
      · rw [chained.resource r old held]
        exact held
    have bound := authorised.applies _ applied verified head
    obtain ⟨j, vote, voted, same⟩ :=
      (MosaicProtocol.verifyClosure_iff.mp verified).voted (genuine _ applied)
    exact (same ▸ (invariant j).2 vote voted).isBy free bound named

section Foreign
variable (pair other : KeyPair)

/-- The calls that apply no capsule are genuine, and those that witness none either
are authorised. -/
theorem Call.genuine_of_entries {home : String → ι} {net : ι → Instance} {call : ι × Call}
    (none : call.2.entries = []) : Call.Genuine home net call := by
  intro entry applied
  rw [none] at applied
  cases applied

theorem Call.authorised_of_silent {s : Instance} {call : Call} (silent : call.witnessed = none)
    (none : call.entries = []) : call.Authorised s := by
  refine ⟨fun capsule current witnessed => ?_, fun entry applied => ?_⟩
  · rw [silent] at witnessed
    cases witnessed
  · rw [none] at applied
    cases applied

theorem afterClosure_authorised : Network.Run (fun net call => Call.Genuine (fun _ => ()) net call ∧
    call.2.Authorised (net call.1)) (fun _ : Unit => soloStart pair) fun _ => afterClosure pair := by
  have start : Network.Run (fun net call => Call.Genuine (fun _ => ()) net call ∧ call.2.Authorised (net call.1))
      (fun _ : Unit => soloStart pair) fun _ => soloStart pair := .refl
  have created := start.call (createCall pair) ⟨Call.genuine_of_entries rfl, Call.authorised_of_silent rfl rfl⟩
  refine (created.call (acceptCall pair) ⟨Call.genuine_of_entries rfl, ?_, by simp [acceptCall, Call.entries]⟩).call
    (.registerClosure (soloCapsule pair "p" "a" 0) (closureA pair))
    ⟨Call.genuine_of_entries rfl, Call.authorised_of_silent rfl rfl⟩
  rintro capsule current ⟨⟩ valid head named
  have same : current = soloSeal pair "p" := by
    dsimp only [createCall] at head
    rw [solo_createResource (by rfl) (by rfl)] at head
    simpa [Instance.headOf, soloSeal] using head.symm
  exact ⟨rfl, by rw [same]; rfl⟩

omit [Crypto] in
/-- The owner's capsule is accepted and closed. -/
theorem owner_authorisation_solo : let _ := Crypto.ideal
    ∃ pair : KeyPair, OwnerAuthorisation (fun net call => Call.Genuine (fun _ => ()) net call ∧
      call.2.Authorised (net call.1)) fun _ : Unit => afterClosure pair :=
  let _ := Crypto.ideal
  ⟨idealKey, owner_authorisation ideal_collisionFree (fun _ => rfl)
    (afterClosure_authorised idealKey)⟩

/-- A capsule on the resource of the member, signed by another key. -/
def foreignCapsule : Capsule :=
  Capsule.create other (soloSeal pair "p") "a" "identity-transition" "valid" 0 none

def foreignClosure : ClosureProof :=
  MosaicProtocol.closureOver (foreignCapsule pair other) [soloReceipt pair (foreignCapsule pair other) "ACCEPT"]

@[simp] theorem foreignCapsule_predecessorId :
    (foreignCapsule pair other).predecessorId = (soloSeal pair "p").sealId := rfl

/-- It is accepted and its closure is registered. -/
def foreignCalls : List Call := [
  .createResource "p" pair.identity "genesis" "capability",
  .witnessReceipt "w" (foreignCapsule pair other) "ACCEPT",
  .registerClosure (foreignCapsule pair other) (foreignClosure pair other)]

def afterForeign : Instance := (foreignCalls pair other).foldl (fun s call => call.exec s) (soloStart pair)

theorem afterForeign_eq (sound : SignaturesVerify) : afterForeign pair other =
    ((((soloStart pair).installSeal (soloSeal pair "p")).setLock (foreignCapsule pair other) "ACCEPT").addSigned
      (soloReceipt pair (foreignCapsule pair other) "ACCEPT")).addClosure (foreignCapsule pair other)
      (foreignClosure pair other) := by
  have ready : SoloReady pair ((soloStart pair).installSeal (soloSeal pair "p")) "p" :=
    ⟨rfl, rfl, Dict.get?_set_self _ _ _, rfl⟩
  have valid : ((soloStart pair).installSeal (soloSeal pair "p")).Valid (foreignCapsule pair other) :=
    ⟨⟨_, ready.known, rfl⟩, rfl, Capsule.create_verifies sound _ _ _ _ _ _ _, le_rfl, by simp [foreignCapsule, Capsule.create]⟩
  have accepted : (Call.witnessReceipt "w" (foreignCapsule pair other) "ACCEPT").exec
      ((soloStart pair).installSeal (soloSeal pair "p")) =
      (((soloStart pair).installSeal (soloSeal pair "p")).setLock (foreignCapsule pair other) "ACCEPT").addSigned
        (soloReceipt pair (foreignCapsule pair other) "ACCEPT") :=
    Call.exec_accept valid ⟨_, Option.bind_eq_some_iff.mpr ⟨_, ready.known, ready.current⟩, rfl⟩ (by simp [soloStart])
      ready.member rfl
  unfold afterForeign foreignCalls
  simp only [List.foldl_cons, List.foldl_nil]
  rw [solo_createResource (by rfl) (by rfl), accepted]
  refine Call.exec_registerClosure (solo_verifyClosure pair sound _ _ rfl rfl (by simp) rfl) ?_ (by simp [soloStart])
  simp [soloStart, MosaicProtocol.hasConflictOn]

theorem afterForeign_moves (sound : SignaturesVerify) :
    (Call.apply (foreignCapsule pair other) (foreignClosure pair other)).exec (afterForeign pair other) =
      (afterForeign pair other).installSeal (nextSeal (soloSeal pair "p") (foreignCapsule pair other)) := by
  have state := afterForeign_eq pair other sound
  have registered : (afterForeign pair other).closures.get? (foreignCapsule pair other).capsuleId =
      some (foreignClosure pair other) := by simp [state]
  refine Call.exec_apply ?_ registered ?_ rfl
  · exact solo_verifyClosure pair sound _ _ (by simp [state]) (by simp [state]; rfl) (by simp [state]) rfl
  · refine Option.bind_eq_some_iff.mpr ⟨soloSeal pair "p", ?_, ?_⟩ <;> simp [state]

theorem afterForeign_genuine (sound : SignaturesVerify) :
    Call.Genuine (fun _ => ()) (fun _ : Unit => afterForeign pair other)
      ((), .apply (foreignCapsule pair other) (foreignClosure pair other)) := by
  intro entry applied receipt inList _ _ _ _
  rw [List.mem_singleton.mp applied] at inList
  refine ⟨soloReceipt pair (foreignCapsule pair other) "ACCEPT", ?_, ?_⟩
  · simp [afterForeign_eq pair other sound]
  · rw [List.mem_singleton.mp inList]

/-- The seal of the member moves through the capsule of the other key. -/
theorem afterForeign_unauthorised (sound : SignaturesVerify) (differ : other.identity ≠ pair.identity) :
    ¬ OwnerAuthorisation (Call.Genuine fun _ => ()) fun _ : Unit => afterForeign pair other := by
  intro claim
  let call : Call := .apply (foreignCapsule pair other) (foreignClosure pair other)
  have held : (afterForeign pair other).currentSeals.get? "p" = some (soloSeal pair "p") := by
    simp [afterForeign_eq pair other sound, soloSeal]
  have held' : (call.exec (afterForeign pair other)).currentSeals.get? "p" =
      some (nextSeal (soloSeal pair "p") (foreignCapsule pair other)) := by
    rw [afterForeign_moves pair other sound]
    exact Dict.get?_set_self _ _ _
  have moved : nextSeal (soloSeal pair "p") (foreignCapsule pair other) ≠ soloSeal pair "p" := fun same => by
    have version := congrArg StateSeal.version same
    simp [nextSeal] at version
  have authorised := (claim () call (afterForeign_genuine pair other sound) "p" _ _ held held' moved).2
  have named : (foreignCapsule pair other).IsBy (soloSeal pair "p") :=
    authorised (foreignCapsule pair other) ⟨⟨_, List.mem_singleton_self _⟩, rfl, rfl⟩
  exact differ named

theorem afterForeign_run : Network.Run (Call.Genuine fun _ => ()) (fun _ : Unit => soloStart pair) fun _ =>
    afterForeign pair other := by
  unfold afterForeign foreignCalls
  simp only [List.foldl_cons, List.foldl_nil]
  have start : Network.Run (Call.Genuine fun _ => ()) (fun _ : Unit => soloStart pair) fun _ => soloStart pair := .refl
  have created := start.call (.createResource "p" pair.identity "genesis" "capability") (Call.genuine_of_entries rfl)
  have accepted := created.call (.witnessReceipt "w" (foreignCapsule pair other) "ACCEPT") (Call.genuine_of_entries rfl)
  have registered := accepted.call (.registerClosure (foreignCapsule pair other) (foreignClosure pair other))
    (Call.genuine_of_entries rfl)
  exact registered

omit [Crypto] in
/-- Without these checks any key moves a resource: a capsule that a stranger signs
is accepted, closed and applied. -/
theorem owner_authorisation_breaks : ¬ ∀ [Crypto], CollisionFree → SignaturesVerify →
    ∀ (home : String → Unit) (start net : Unit → Instance), (∀ i, start i = .fresh (start i).members (start i).epoch) →
      Network.Run (Call.Genuine home) start net → OwnerAuthorisation (Call.Genuine home) net := by
  intro claim
  let other : @KeyPair Crypto.ideal := @KeyPair.mk Crypto.ideal [2]
  have differ : @KeyPair.identity Crypto.ideal other ≠ @KeyPair.identity Crypto.ideal idealKey := by decide
  have authorised := @claim Crypto.ideal ideal_collisionFree ideal_signaturesVerify (fun _ => ()) _ _ (fun _ => rfl)
    (@afterForeign_run Crypto.ideal idealKey other)
  exact @afterForeign_unauthorised Crypto.ideal idealKey other ideal_signaturesVerify differ authorised

end Foreign

end Mosaic
