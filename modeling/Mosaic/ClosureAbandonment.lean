import Mosaic.SealChain

namespace Mosaic
open CanonicalJson Effects

variable [Crypto]

/-- No capsule identifier is a key of both `closures` and `abandons`. -/
def Instance.Exclusive (s : Instance) : Prop :=
  ∀ capsuleId, s.closures.contains capsuleId = true → s.abandons.contains capsuleId = false

/-- A call that is about to register a closure is not for an abandoned capsule. -/
def Call.Unabandoned (s : Instance) : Call → Prop
  | .registerClosure capsule closure | .apply capsule closure =>
    s.verifyClosure capsule closure = true → s.hasConflictOn capsule.predecessorId = false →
      s.abandons.contains capsule.capsuleId = false
  | .close capsule receipts => s.Closable capsule receipts → s.abandons.contains capsule.capsuleId = false
  | _ => True

theorem Update.registered_exclusive {s t : Instance} {capsule : Capsule} {closure : ClosureProof}
    (update : Update (.registered capsule closure) s t) (exclusive : s.Exclusive)
    (unabandoned : s.verifyClosure capsule closure = true → s.hasConflictOn capsule.predecessorId = false →
      s.abandons.contains capsule.capsuleId = false) : t.Exclusive := by
  cases update with
  | registered verified clean new =>
    intro capsuleId closed
    by_cases here : capsule.capsuleId = capsuleId
    · exact here ▸ unabandoned verified clean
    · refine exclusive capsuleId ?_
      rw [Instance.addClosure_closures, Dict.contains, Dict.get?_set_of_ne _ _ here] at closed
      exact closed

/-- Everything but a registration keeps the two apart. -/
theorem Update.exclusive {event : Event} {s t : Instance} (update : Update event s t) (exclusive : s.Exclusive)
    (other : ∀ capsule closure, event ≠ .registered capsule closure) : t.Exclusive := by
  cases update with
  | registered verified clean new => exact absurd rfl (other _ _)
  | @abandoned _ capsule proof receipts unclosed heavy made =>
    intro capsuleId closed
    have kept : s.closures.contains capsuleId = true := closed
    have elsewhere : capsule.capsuleId ≠ capsuleId := by
      rintro rfl
      rw [Dict.contains_eq_false.mpr unclosed] at kept
      cases kept
    have apart := exclusive capsuleId kept
    rw [Instance.addAbandon_abandons, Dict.contains, Dict.get?_set_of_ne _ _ elsewhere]
    exact apart
  | bundled ready =>
    obtain ⟨currents, knowns, same⟩ := Instance.foldl_installSeal (s.bundleSeals _) s
    rw [same]
    exact exclusive
  | _ => exact exclusive

theorem Trace.exclusive {P : Event → Prop} {s t : Instance} (trace : Trace P s t) (exclusive : s.Exclusive)
    (other : ∀ capsule closure, ¬ P (.registered capsule closure)) : t.Exclusive :=
  trace.invariant exclusive fun _ _ _ allowed update before =>
    update.exclusive before fun capsule closure same => other capsule closure (same ▸ allowed)

theorem Trace.abandons_of_witnessing {s t : Instance} {P : Event → Prop} {status : String} {capsule : Capsule}
    (trace : Trace P s t) (witnesses : ∀ event, P event → witnessing status capsule event) :
    t.abandons = s.abandons := by
  refine trace.invariant (I := fun u => u.abandons = s.abandons) rfl fun _ _ _ allowed update same => ?_
  have kind := witnesses _ allowed
  cases update with
  | claimed | released | contested | signed => exact same
  | _ => exact kind.elim

theorem Call.exec_exclusive {s : Instance} {call : Call} (exclusive : s.Exclusive) (unabandoned : call.Unabandoned s) :
    (call.exec s).Exclusive := by
  cases call with
  | registerClosure capsule closure =>
    rcases Call.exec_registerClosure_once s capsule closure with same | ⟨_, rfl, update⟩
    · exact same ▸ exclusive
    · exact update.registered_exclusive exclusive unabandoned
  | close capsule receipts =>
    obtain ⟨t, collected, registered⟩ := Call.exec_close_parts s capsule receipts
    have still : t.Exclusive := collected.exclusive exclusive fun _ _ impossible => impossible.2
    rcases registered with same | ⟨_, ⟨closable, closure, rfl⟩, update⟩
    · exact same ▸ still
    · refine update.registered_exclusive still fun _ _ => ?_
      rw [collected.abandons_of_witnessing fun _ => And.right]
      exact unabandoned closable
  | apply capsule closure =>
    obtain ⟨t, registered, installed⟩ := Call.exec_apply_parts s capsule closure
    have still : t.Exclusive := by
      rcases registered with same | ⟨_, rfl, update⟩
      · exact same ▸ exclusive
      · exact update.registered_exclusive exclusive unabandoned
    exact installed.trace.exclusive still fun _ _ => nofun
  | _ =>
    refine (Call.exec_trace _ s).exclusive exclusive ?_
    rintro capsule closure (⟨status, c, -, impossible⟩ | impossible) <;> exact impossible.elim

/-- Where nothing that was abandoned is closed, registered or applied, no capsule is
ever both closed and abandoned. -/
theorem closure_excludes_abandonment {members : Dict String Member} {epoch : Int} {s : Instance}
    (run : Run (fun s call => call.Unabandoned s) (.fresh members epoch) s) : s.Exclusive := by
  refine run.invariant (fun capsuleId closed => ?_) fun t call unabandoned before =>
    Call.exec_exclusive before unabandoned
  cases closed

section Abandoned
variable (pair : KeyPair)

/-- The only member accepts a capsule, releases its lock and abandons it. -/
def afterRelease0 : Instance := (Call.witnessReceipt "w" (soloCapsule pair "p" "a" 0) "ABANDON").exec (afterAccept pair)

def afterAbandon : Instance :=
  (Call.abandon (soloCapsule pair "p" "a" 0) [soloReceipt pair (soloCapsule pair "p" "a" 0) "ABANDON"]).exec
    (afterRelease0 pair)

theorem afterRelease0_eq (sound : SignaturesVerify) : afterRelease0 pair =
    ((((((soloStart pair).installSeal (soloSeal pair "p")).setLock (soloCapsule pair "p" "a" 0) "ACCEPT").addSigned
      (soloReceipt pair (soloCapsule pair "p" "a" 0) "ACCEPT")).setLock (soloCapsule pair "p" "a" 0)
      "ABANDON").addSigned (soloReceipt pair (soloCapsule pair "p" "a" 0) "ABANDON")) := by
  have ready : SoloReady pair ((soloStart pair).installSeal (soloSeal pair "p")) "p" :=
    ⟨rfl, rfl, Dict.get?_set_self _ _ _, rfl⟩
  rw [afterRelease0, afterAccept_eq pair sound,
    ((ready.setLock _ _).addSigned _).release sound (by decide) (by decide) ?_ (by simp [soloStart])]
  intro lock held
  simp at held
  exact held ▸ ⟨rfl, rfl⟩

theorem afterAbandon_eq (sound : SignaturesVerify) :
    ∃ proof, afterAbandon pair = (afterRelease0 pair).addAbandon (soloCapsule pair "p" "a" 0) proof := by
  have state := afterRelease0_eq pair sound
  exact solo_abandon pair sound _ (by simp [state]) (by simp [state, soloStart]; rfl) (by simp [state])
    (by simp [state, soloStart])

theorem afterAbandon_run : Run (fun s call => call.Unabandoned s) (soloStart pair) (afterAbandon pair) := by
  have accepted : Run (fun s call => call.Unabandoned s) (soloStart pair) (afterAccept pair) :=
    ((Run.start _ (soloStart pair)).call (createCall pair) trivial).call (acceptCall pair) trivial
  have released : Run (fun s call => call.Unabandoned s) (soloStart pair) (afterRelease0 pair) :=
    accepted.call (.witnessReceipt "w" (soloCapsule pair "p" "a" 0) "ABANDON") trivial
  exact released.call (.abandon _ _) trivial

omit [Crypto] in
/-- A capsule that was accepted and then abandoned. -/
theorem closure_excludes_abandonment_solo : let _ := Crypto.ideal
    ∃ pair : KeyPair, (afterAbandon pair).abandons.contains (soloCapsule pair "p" "a" 0).capsuleId = true ∧
      (afterAbandon pair).Exclusive :=
  let _ := Crypto.ideal
  ⟨idealKey, (afterAbandon_eq idealKey ideal_signaturesVerify).elim fun _ state => by simp [state, Dict.contains],
    closure_excludes_abandonment (afterAbandon_run idealKey)⟩

/-- The receipt from before the release still registers a closure. -/
def afterLateClosure : Instance :=
  (Call.registerClosure (soloCapsule pair "p" "a" 0) (closureA pair)).exec (afterAbandon pair)

theorem afterLateClosure_run : Run (fun _ _ => True) (soloStart pair) (afterLateClosure pair) := by
  have abandoned : Run (fun _ _ => True) (soloStart pair) (afterAbandon pair) :=
    (afterAbandon_run pair).mono fun _ _ _ => trivial
  exact abandoned.call (.registerClosure (soloCapsule pair "p" "a" 0) (closureA pair)) trivial

theorem afterLateClosure_not_exclusive (sound : SignaturesVerify) : ¬ (afterLateClosure pair).Exclusive := by
  obtain ⟨proof, state⟩ := afterAbandon_eq pair sound
  have before := afterRelease0_eq pair sound
  have verified : (afterAbandon pair).verifyClosure (soloCapsule pair "p" "a" 0) (closureA pair) = true := by
    rw [state, Instance.verifyClosure_addAbandon]
    exact solo_verifyClosure pair sound _ _ (by simp [before]) (by simp [before, soloStart]; rfl) (by simp [before]) rfl
  rw [afterLateClosure, Call.exec_registerClosure verified]
  · intro exclusive
    have apart := exclusive (soloCapsule pair "p" "a" 0).capsuleId (by simp [Dict.contains])
    simp [state] at apart
  · simp [state, before, soloStart, MosaicProtocol.hasConflictOn]
  · simp [state, before, soloStart]

omit [Crypto] in
theorem closure_admits_abandonment : ¬ ∀ [Crypto], CollisionFree → SignaturesVerify →
    ∀ (members : Dict String Member) (epoch : Int) (s : Instance), Run (fun _ _ => True) (.fresh members epoch) s →
      s.Exclusive := by
  intro claim
  exact @afterLateClosure_not_exclusive Crypto.ideal idealKey ideal_signaturesVerify
    (@claim Crypto.ideal ideal_collisionFree ideal_signaturesVerify _ _ _ (@afterLateClosure_run Crypto.ideal idealKey))

end Abandoned

end Mosaic
