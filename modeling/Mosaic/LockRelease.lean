import Mosaic.ClosureExclusivity

namespace Mosaic
open CanonicalJson Effects

variable [Crypto]

/-- The votes that an instance has cast on a seal are all for the capsule that
holds the lock of this seal. -/
def Instance.Kept (s : Instance) : Prop :=
  ∀ vote, s.Voted vote → ∃ lock, s.locks.get? vote.predecessorId = some lock ∧ lock.capsuleId = vote.capsuleId

/-- Accepting the capsule takes no released lock from a capsule for which this
instance has voted. -/
def Instance.Safe (s : Instance) (capsule : Capsule) : Prop :=
  ∀ lock, s.locks.get? capsule.predecessorId = some lock → lock.Released capsule →
    lock.capsuleId ≠ capsule.capsuleId →
    ∀ vote, s.Voted vote → vote.predecessorId = capsule.predecessorId → vote.capsuleId ≠ lock.capsuleId

/-- The calls that only accept what is safe to accept. -/
def Call.Safe (s : Instance) (call : Call) : Prop :=
  ∀ capsule, call.witnessed = some ("ACCEPT", capsule) → s.Safe capsule

theorem Instance.Safe.setLock_kept {s : Instance} {capsule : Capsule} (safe : s.Safe capsule) (kept : s.Kept)
    (free : ∀ lock, s.locks.get? capsule.predecessorId = some lock → lock.Released capsule) (status : String) :
    (s.setLock capsule status).Kept := by
  intro vote voted
  obtain ⟨lock, held, named⟩ := kept vote voted
  by_cases here : capsule.predecessorId = vote.predecessorId
  · refine ⟨_, (Dict.get?_set _ _ _ _).trans (if_pos here), ?_⟩
    have held' : s.locks.get? capsule.predecessorId = some lock := here ▸ held
    by_contra other
    exact safe lock held' (free lock held') (fun same => other (same.symm.trans named)) vote voted here.symm named.symm
  · exact ⟨lock, (Dict.get?_set_of_ne _ _ here).trans held, named⟩

/-- The capsule is the one being accepted and its lock is not yet touched, or it
already holds the lock. -/
def Instance.Settling (s t : Instance) (capsule : Capsule) : Prop :=
  t.locks.get? capsule.predecessorId = s.locks.get? capsule.predecessorId ∧ t.signed = s.signed ∨
    ∃ lock, t.locks.get? capsule.predecessorId = some lock ∧ lock.IsFor capsule

theorem Instance.Settling.safe {s t : Instance} {capsule : Capsule} (settling : s.Settling t capsule)
    (safe : s.Safe capsule)
    (free : ∀ lock, t.locks.get? capsule.predecessorId = some lock → lock.Released capsule) : t.Safe capsule := by
  rcases settling with ⟨locks, signed⟩ | ⟨lock, held, mine⟩
  · intro lock held released other vote ⟨receipt, member, status, same⟩
    exact safe lock (locks ▸ held) released other vote ⟨receipt, signed ▸ member, status, same⟩
  · have later := (free lock held).2
    have same := mine.2
    omega

/-- Votes are for the holder of the lock, also for the one that signs now. -/
theorem Instance.Kept.addSigned {s : Instance} {capsule : Capsule} {receipt : WitnessReceipt} {lock : Lock}
    (kept : s.Kept) (held : s.locks.get? capsule.predecessorId = some lock) (mine : lock.IsFor capsule)
    (vote : receipt.vote = capsule.vote) : (s.addSigned receipt).Kept := by
  intro v voted
  rcases Instance.voted_addSigned voted with old | ⟨-, rfl⟩
  · exact kept v old
  · rw [vote]
    exact ⟨lock, held, mine.1⟩

theorem Call.exec_kept {s : Instance} {call : Call} (safe : call.Safe s) (kept : s.Kept) : (call.exec s).Kept := by
  refine ((call.exec_trace s).invariant (I := fun t => t.Kept ∧
    ∀ capsule, call.witnessed = some ("ACCEPT", capsule) → s.Settling t capsule)
    ⟨kept, fun _ _ => Or.inl ⟨rfl, rfl⟩⟩ ?_).1
  rintro event t u allowed update ⟨kept, settling⟩
  cases update with
  | claimed valid head free =>
    have accepts := Call.witnessed_of_claimed allowed
    refine ⟨((settling _ accepts).safe (safe _ accepts) free).setLock_kept kept free _, fun c accepts' => ?_⟩
    cases accepts.symm.trans accepts'
    exact Or.inr ⟨_, Dict.get?_set_self _ _ _, rfl, rfl⟩
  | @released _ capsule valid mine unclosed =>
    have abandons := Call.witnessed_of_released allowed
    refine ⟨fun vote voted => ?_, fun c accepts => by simp [abandons] at accepts⟩
    obtain ⟨lock, held, named⟩ := kept vote voted
    by_cases here : capsule.predecessorId = vote.predecessorId
    · exact ⟨_, (Dict.get?_set _ _ _ _).trans (if_pos here), (mine lock (here ▸ held)).1.symm.trans named⟩
    · exact ⟨lock, (Dict.get?_set_of_ne _ _ here).trans held, named⟩
  | signed valid known loaded held mine accepting abandoning either =>
    refine ⟨kept.addSigned held mine rfl, fun c accepts => ?_⟩
    cases (Call.witnessed_of_signed allowed).symm.trans accepts
    exact Or.inr ⟨_, held, mine⟩
  | bundled ready =>
    obtain ⟨currents, knowns, same⟩ := Instance.foldl_installSeal (t.bundleSeals _) t
    rw [same]
    exact ⟨kept, settling⟩
  | _ => exact ⟨kept, settling⟩

theorem Network.Run.kept {ι : Type} [DecidableEq ι] {start net : ι → Instance}
    (run : Network.Run (fun net call => call.2.Safe (net call.1)) start net) (unsigned : ∀ i, (start i).signed = []) :
    ∀ i, (net i).Kept := by
  refine run.invariant (fun i vote voted => ?_) fun net i call safe kept => call.exec_kept safe kept
  obtain ⟨receipt, member, -⟩ := voted
  rw [unsigned i] at member
  cases member

/-- Where no instance accepts a capsule over a lock that it has itself voted for
and then released, all closures on a seal are closures of one capsule, whatever
their attempts are. -/
theorem closures_exclusive_across_attempts {ι : Type} [DecidableEq ι] {start net : ι → Instance}
    (unsigned : ∀ i, (start i).signed = [])
    (run : Network.Run (fun net call => call.2.Safe (net call.1)) start net) (home : String → ι)
    {s t : MosaicProtocol} (members : t.members = s.members) {c d : Capsule} {closure closure' : ClosureProof}
    (unforged : Unforged s net home ∅ closure.receipts) (unforged' : Unforged t net home ∅ closure'.receipts)
    (accepted : s.verifyClosure c closure = true) (accepted' : t.verifyClosure d closure' = true)
    (agrees : s.Agrees c) (agrees' : t.Agrees d) (samePredecessor : c.predecessorId = d.predecessorId) :
    c.capsuleId = d.capsuleId := by
  refine MosaicProtocol.closures_together members (Nat.zero_le _) unforged unforged' accepted accepted' agrees agrees'
    (fun v v' => v.predecessorId = v'.predecessorId → v.capsuleId = v'.capsuleId) ?_ samePredecessor
  intro w _ voted voted' same
  obtain ⟨lock, held, named⟩ := run.kept unsigned (home w) _ voted
  obtain ⟨lock', held', named'⟩ := run.kept unsigned (home w) _ voted'
  rw [same, held'] at held
  cases held
  exact named.symm.trans named'

section Release
variable (pair : KeyPair)

/-- The only member creates a resource and accepts a capsule on it. -/
def createCall : Call := .createResource "p" pair.identity "genesis" "capability"

def acceptCall : Call := .witnessReceipt "w" (soloCapsule pair "p" "a" 0) "ACCEPT"

def afterAccept : Instance := (acceptCall pair).exec ((createCall pair).exec (soloStart pair))

theorem afterAccept_eq (sound : SignaturesVerify) : afterAccept pair =
    (((soloStart pair).installSeal (soloSeal pair "p")).setLock (soloCapsule pair "p" "a" 0) "ACCEPT").addSigned
      (soloReceipt pair (soloCapsule pair "p" "a" 0) "ACCEPT") := by
  have ready : SoloReady pair ((soloStart pair).installSeal (soloSeal pair "p")) "p" :=
    ⟨rfl, rfl, Dict.get?_set_self _ _ _, rfl⟩
  unfold afterAccept createCall acceptCall
  rw [solo_createResource (by rfl) (by rfl), ready.accept sound (by decide) (by decide) (by simp [soloStart])]

theorem memberAndClient_safe : Network.Run (fun net call => call.2.Safe (net call.1)) (fun _ : Bool => soloStart pair)
    (memberAndClient pair (afterAccept pair)) := by
  have silent : ∀ call ∈ clientCalls pair, call.witnessed = none := by simp [clientCalls, Call.witnessed]
  have created := @solo_createResource _ pair (soloStart pair) "p" (by rfl) (by rfl)
  have first := @Network.Run.calls _ _ _ (fun net call => call.2.Safe (net call.1)) (fun _ => soloStart pair) _ .refl true
    [createCall pair] ?_
  · have second := first.tail (i := (true, acceptCall pair)) ?_
    · rw [Network.exec, Function.update_self, Function.update_idem] at second
      refine Network.Run.calls second false (clientCalls pair) fun net call member capsule witnessed => ?_
      rw [silent call member] at witnessed
      cases witnessed
    · intro capsule witnessed lock held
      change (createCall pair |>.exec (soloStart pair)).locks.get? _ = _ at held
      rw [createCall, created] at held
      cases held
  · intro net call member capsule witnessed
    cases List.mem_singleton.mp member
    cases witnessed

theorem afterAccept_unforged (sound : SignaturesVerify) (s : MosaicProtocol) :
    Unforged s (memberAndClient pair (afterAccept pair)) (fun _ => true) ∅ (closureA pair).receipts := by
  intro receipt inList _ _ _ _
  rw [List.mem_singleton.mp inList]
  refine ⟨soloReceipt pair (soloCapsule pair "p" "a" 0) "ACCEPT", ?_, rfl⟩
  change _ ∈ (afterAccept pair).signed
  simp [afterAccept_eq pair sound]

theorem afterAccept_agrees (sound : SignaturesVerify) : (afterAccept pair).Agrees (soloCapsule pair "p" "a" 0) := by
  intro stored found
  simp [afterAccept_eq pair sound] at found
  exact found ▸ ⟨rfl, rfl⟩

theorem afterAccept_verifies (sound : SignaturesVerify) :
    (afterAccept pair).verifyClosure (soloCapsule pair "p" "a" 0) (closureA pair) = true := by
  have state := afterAccept_eq pair sound
  exact solo_verifyClosure pair sound _ _ (by simp [state]) (by simp [state, soloStart]; rfl) (by simp [state]) rfl

theorem afterAccept_members (sound : SignaturesVerify) : (clientView pair).members = (afterAccept pair).members := by
  rw [clientView_eq, afterAccept_eq pair sound]
  rfl

omit [Crypto] in
/-- The first acceptance on a seal is safe, and its closure verifies where it was made and at the client. -/
theorem closures_exclusive_across_attempts_client : let _ := Crypto.ideal
    ∃ (pair : KeyPair) (c d : Capsule) (closure closure' : ClosureProof),
      (afterAccept pair).verifyClosure c closure = true ∧ (clientView pair).verifyClosure d closure' = true ∧
        c.capsuleId = d.capsuleId := by
  intro _
  let pair : KeyPair := idealKey
  have sound := ideal_signaturesVerify
  have accepted := afterAccept_verifies pair sound
  have accepted' := closureA_accepted_client pair sound
  have unforged := afterAccept_unforged pair sound (afterAccept pair).toMosaicProtocol
  have unforged' := afterAccept_unforged pair sound (clientView pair).toMosaicProtocol
  have agrees := afterAccept_agrees pair sound
  have agrees' := clientView_agrees pair
  have members := afterAccept_members pair sound
  have run := memberAndClient_safe pair
  have same := closures_exclusive_across_attempts (fun _ => rfl) run (fun _ => true) members unforged unforged' accepted
    accepted' agrees agrees' rfl
  exact ⟨pair, _, _, _, _, accepted, accepted', same⟩

/-- The only member accepts a capsule, releases its lock and accepts another one
at the next attempt. -/
def released : List Call := [
  .createResource "p" pair.identity "genesis" "capability",
  .witnessReceipt "w" (soloCapsule pair "p" "a" 0) "ACCEPT",
  .witnessReceipt "w" (soloCapsule pair "p" "a" 0) "ABANDON",
  .witnessReceipt "w" (soloCapsule pair "p" "b" 1) "ACCEPT"]

def afterRelease : Instance := (released pair).foldl (fun s call => call.exec s) (soloStart pair)

theorem afterRelease_eq (sound : SignaturesVerify) : afterRelease pair =
    ((((((soloStart pair).installSeal (soloSeal pair "p")).setLock (soloCapsule pair "p" "a" 0) "ACCEPT").addSigned
      (soloReceipt pair (soloCapsule pair "p" "a" 0) "ACCEPT")).setLock (soloCapsule pair "p" "a" 0) "ABANDON").addSigned
      (soloReceipt pair (soloCapsule pair "p" "a" 0) "ABANDON") |>.setLock (soloCapsule pair "p" "b" 1)
      "ACCEPT").addSigned (soloReceipt pair (soloCapsule pair "p" "b" 1) "ACCEPT") := by
  have ready : SoloReady pair ((soloStart pair).installSeal (soloSeal pair "p")) "p" :=
    ⟨rfl, rfl, Dict.get?_set_self _ _ _, rfl⟩
  unfold afterRelease released
  simp only [List.foldl_cons, List.foldl_nil]
  rw [solo_createResource (by rfl) (by rfl), ready.accept sound (by decide) (by decide) (by simp [soloStart]),
    ((ready.setLock _ _).addSigned _).release sound (by decide) (by decide) ?_ (by simp [soloStart])]
  · refine ((((ready.setLock _ _).addSigned _).setLock _ _).addSigned _).accept sound (by decide) (by decide) ?_
    intro lock held
    simp at held
    exact held ▸ ⟨rfl, by simp⟩
  · intro lock held
    simp at held
    exact held ▸ ⟨rfl, rfl⟩

theorem afterRelease_accepts (free : CollisionFree) (sound : SignaturesVerify) {capsule : Capsule}
    (either : capsule = soloCapsule pair "p" "a" 0 ∨ capsule = soloCapsule pair "p" "b" 1) :
    (afterRelease pair).verifyClosure capsule
      (MosaicProtocol.closureOver capsule [soloReceipt pair capsule "ACCEPT"]) = true := by
  have state := afterRelease_eq pair sound
  have other : (soloCapsule pair "p" "b" 1).capsuleId ≠ (soloCapsule pair "p" "a" 0).capsuleId := fun same =>
    absurd (soloCapsule_inj free same).2.1 (by decide)
  refine solo_verifyClosure pair sound _ _ (by simp [state]) ?_ ?_ rfl
  · rcases either with rfl | rfl <;> simp [state, soloStart] <;> rfl
  · rcases either with rfl | rfl <;> simp [state, Dict.get?_set, other]

theorem release_unforged (sound : SignaturesVerify) {capsule : Capsule}
    (either : capsule = soloCapsule pair "p" "a" 0 ∨ capsule = soloCapsule pair "p" "b" 1) :
    Unforged (afterRelease pair).toMosaicProtocol (fun _ : Unit => afterRelease pair) (fun _ => ()) ∅
      (MosaicProtocol.closureOver capsule [soloReceipt pair capsule "ACCEPT"]).receipts := by
  intro receipt inList _ _ _ _
  rw [List.mem_singleton.mp inList]
  refine ⟨soloReceipt pair capsule "ACCEPT", ?_, rfl⟩
  rw [afterRelease_eq pair sound]
  rcases either with rfl | rfl <;> simp

omit [Crypto] in
/-- A released vote still counts: its capsule and the one accepted over it are both
closed on one seal. -/
theorem closures_not_exclusive_across_attempts : ¬ ∀ [Crypto], CollisionFree → SignaturesVerify →
    ∀ (start net : Unit → Instance), (∀ i, start i = .fresh (start i).members (start i).epoch) →
      Network.Run (fun _ _ => True) start net →
      ∀ (home : String → Unit) (s t : MosaicProtocol), t.members = s.members → t.epoch = s.epoch →
      ∀ (c d : Capsule) (closure closure' : ClosureProof), Unforged s net home ∅ closure.receipts →
        Unforged t net home ∅ closure'.receipts →
        s.verifyClosure c closure = true → t.verifyClosure d closure' = true →
        c.predecessorId = d.predecessorId → c.attempt ≠ d.attempt → c.capsuleId = d.capsuleId := by
  intro claim
  let _ := Crypto.ideal
  let pair : KeyPair := idealKey
  have free := ideal_collisionFree
  have sound := ideal_signaturesVerify
  have same := claim free sound (fun _ => soloStart pair) (fun _ => afterRelease pair) (fun _ => rfl)
    (Network.Run.of_calls (fun _ _ => trivial) _ _) (fun _ => ()) (afterRelease pair).toMosaicProtocol
    (afterRelease pair).toMosaicProtocol rfl rfl (soloCapsule pair "p" "a" 0) (soloCapsule pair "p" "b" 1) _ _
    (release_unforged pair sound (Or.inl rfl)) (release_unforged pair sound (Or.inr rfl))
    (afterRelease_accepts pair free sound (Or.inl rfl)) (afterRelease_accepts pair free sound (Or.inr rfl)) rfl
    (by simp)
  exact absurd (soloCapsule_inj free same).2.1 (by decide)

end Release

end Mosaic
