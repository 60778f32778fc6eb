import Mosaic.Certified

namespace Mosaic
open CanonicalJson Effects

variable [Crypto]

/-- What an `ACCEPT` commits its witness to. -/
structure Vote where
  predecessorId : String
  attempt : Int
  capsuleId : String

def WitnessReceipt.vote (receipt : WitnessReceipt) : Vote :=
  ⟨receipt.predecessorId, receipt.attempt, receipt.capsuleId⟩

def Capsule.vote (capsule : Capsule) : Vote := ⟨capsule.predecessorId, capsule.attempt, capsule.capsuleId⟩

/-- The votes among the receipts that an instance has signed. -/
def Instance.Voted (s : Instance) (vote : Vote) : Prop :=
  ∃ receipt ∈ s.signed, receipt.status = "ACCEPT" ∧ receipt.vote = vote

/-- The capsule that the instance stores under the identifier of this one names
the same predecessor and attempt. -/
def MosaicProtocol.Agrees (s : MosaicProtocol) (capsule : Capsule) : Prop :=
  ∀ stored, s.capsules.get? capsule.capsuleId = some stored →
    stored.predecessorId = capsule.predecessorId ∧ stored.attempt = capsule.attempt

/-- The statement of the receipt was signed here. -/
def Instance.Emitted (s : Instance) (receipt : WitnessReceipt) : Prop :=
  ∃ own ∈ s.signed, canonicalBytes own.statement = canonicalBytes receipt.statement

/-- Signatures of honest members cannot be forged: a receipt that verifies under
the key of one of them was signed by its instance. -/
def Unforged {ι : Type} (s : MosaicProtocol) (net : ι → Instance) (home : String → ι) (faulty : Finset String)
    (receipts : List WitnessReceipt) : Prop :=
  ∀ receipt ∈ receipts, receipt.witnessId ∉ faulty → ∀ member, s.members.get? receipt.witnessId = some member →
    KeyPair.verify member.publicKey (canonicalBytes receipt.statement) receipt.signature = true →
    (net (home receipt.witnessId)).Emitted receipt

/-- A verified closure of a capsule that agrees with the stored one certifies
the vote for this capsule. -/
theorem MosaicProtocol.Accepts.certified {ι : Type} {s : MosaicProtocol} {capsule : Capsule}
    {closure : ClosureProof} {net : ι → Instance} {home : String → ι} {faulty : Finset String}
    (accepted : s.Accepts capsule closure) (agrees : s.Agrees capsule)
    (unforged : Unforged s net home faulty closure.receipts) :
    Quorum.Certified s.weightOf s.members.keys.toFinset faulty (fun w vote => (net (home w)).Voted vote)
      capsule.vote := by
  refine ⟨_, accepted.quorum.1, accepted.quorum.2, fun w member honest => ?_⟩
  rw [List.mem_toFinset] at member
  obtain ⟨receipt, inList, rfl, verified, status, named⟩ := accepted.receipt member
  obtain ⟨m, stored, valid⟩ := MosaicProtocol.verifyReceipt_iff.mp verified
  obtain ⟨own, signed, same⟩ := unforged receipt inList honest m valid.known valid.signature
  obtain ⟨capsuleId, predecessor, -, -, attempt, status'⟩ := receipt_eq_of_statement same
  obtain ⟨predecessor', attempt'⟩ := agrees stored (named ▸ valid.found)
  refine ⟨own, signed, status'.trans status, ?_⟩
  simp only [WitnessReceipt.vote, Capsule.vote, capsuleId, predecessor, attempt, valid.predecessor, valid.attempt,
    predecessor', attempt', named]

/-- Every vote is covered by the lock of its predecessor, which has moved on to a
higher attempt or still names the capsule; and for one attempt there is one vote. -/
structure Instance.Locked (s : Instance) : Prop where
  covered : ∀ vote, s.Voted vote → ∃ lock, s.locks.get? vote.predecessorId = some lock ∧
    (vote.attempt < lock.attempt ∨ vote.attempt = lock.attempt ∧ vote.capsuleId = lock.capsuleId)
  single : ∀ vote vote', s.Voted vote → s.Voted vote' → vote.predecessorId = vote'.predecessorId →
    vote.attempt = vote'.attempt → vote.capsuleId = vote'.capsuleId

theorem Instance.Locked.of_unsigned {s : Instance} (unsigned : s.signed = []) : s.Locked := by
  have none : ∀ vote, ¬ s.Voted vote := by
    rintro vote ⟨receipt, member, -⟩
    rw [unsigned] at member
    cases member
  exact ⟨fun vote voted => absurd voted (none vote), fun vote _ voted => absurd voted (none vote)⟩

/-- Setting a lock keeps the votes covered where the old lock gives way to it. -/
theorem Instance.Locked.setLock {s : Instance} {capsule : Capsule} (locked : s.Locked) (status : String)
    (yields : ∀ lock, s.locks.get? capsule.predecessorId = some lock →
      lock.IsFor capsule ∨ lock.attempt < capsule.attempt) : (s.setLock capsule status).Locked := by
  refine ⟨fun vote voted => ?_, locked.single⟩
  obtain ⟨lock, held, below⟩ := locked.covered vote voted
  by_cases here : capsule.predecessorId = vote.predecessorId
  · refine ⟨_, (Dict.get?_set _ _ _ _).trans (if_pos here), ?_⟩
    rcases yields lock (here ▸ held) with ⟨sameId, sameAttempt⟩ | later
    · simpa only [sameId, sameAttempt] using below
    · exact Or.inl (by rcases below with earlier | ⟨same, -⟩ <;> dsimp only <;> omega)
  · exact ⟨lock, (Dict.get?_set_of_ne _ _ here).trans held, below⟩

theorem Instance.voted_addSigned {s : Instance} {receipt : WitnessReceipt} {vote : Vote}
    (voted : (s.addSigned receipt).Voted vote) :
    s.Voted vote ∨ receipt.status = "ACCEPT" ∧ receipt.vote = vote := by
  obtain ⟨own, member, status, same⟩ := voted
  rcases List.mem_append.mp member with old | new
  · exact Or.inl ⟨own, old, status, same⟩
  · rw [List.mem_singleton] at new
    subst new
    exact Or.inr ⟨status, same⟩

/-- A receipt for the capsule that holds the lock may be signed. -/
theorem Instance.Locked.addSigned {s : Instance} {capsule : Capsule} {receipt : WitnessReceipt} {lock : Lock}
    (locked : s.Locked) (held : s.locks.get? capsule.predecessorId = some lock) (mine : lock.IsFor capsule)
    (vote : receipt.vote = capsule.vote) : (s.addSigned receipt).Locked := by
  have own : ∀ v, s.Voted v → v.predecessorId = capsule.predecessorId → v.attempt = capsule.attempt →
      v.capsuleId = capsule.capsuleId := by
    intro v voted sameSeal sameAttempt
    obtain ⟨lock', held', below⟩ := locked.covered v voted
    rw [sameSeal, held] at held'
    cases held'
    rcases below with earlier | ⟨-, same⟩
    · have := mine.2
      omega
    · exact same.trans mine.1
  refine ⟨fun v voted => ?_, fun v v' voted voted' sameSeal sameAttempt => ?_⟩
  · rcases Instance.voted_addSigned voted with old | ⟨-, rfl⟩
    · exact locked.covered v old
    · rw [vote]
      exact ⟨lock, held, Or.inr ⟨mine.2.symm, mine.1.symm⟩⟩
  · rcases Instance.voted_addSigned voted with old | ⟨-, rfl⟩ <;>
      rcases Instance.voted_addSigned voted' with old' | ⟨-, rfl⟩
    · exact locked.single v v' old old' sameSeal sameAttempt
    · rw [vote] at sameSeal sameAttempt ⊢
      exact own v old sameSeal sameAttempt
    · rw [vote] at sameSeal sameAttempt ⊢
      exact (own v' old' sameSeal.symm sameAttempt.symm).symm
    · rfl

theorem Update.locked {event : Event} {s t : Instance} (update : Update event s t) (locked : s.Locked) :
    t.Locked := by
  cases update with
  | claimed valid head free => exact locked.setLock _ fun lock held => Or.inr (free lock held).2
  | released valid mine unclosed => exact locked.setLock _ fun lock held => Or.inl (mine lock held)
  | signed valid known loaded held mine accepting abandoning either => exact locked.addSigned held mine rfl
  | bundled ready =>
    obtain ⟨currents, knowns, same⟩ := Instance.foldl_installSeal (s.bundleSeals _) s
    rw [same]
    exact ⟨locked.covered, locked.single⟩
  | _ => exact ⟨locked.covered, locked.single⟩

/-- The locks cover the votes in every instance of every run. -/
theorem Network.Run.locked {ι : Type} [DecidableEq ι] {allowed : (ι → Instance) → ι × Call → Prop}
    {start net : ι → Instance} (run : Network.Run allowed start net) (unsigned : ∀ i, (start i).signed = []) :
    ∀ i, (net i).Locked := by
  refine run.invariant (fun i => .of_unsigned (unsigned i)) fun net i call _ locked => ?_
  exact (call.exec_trace (net i)).invariant locked fun _ _ _ _ update before => update.locked before

/-- The capsules of two verified closures stand in every relation that the votes of
each honest member stand in. -/
theorem MosaicProtocol.closures_together {ι : Type} {net : ι → Instance} {home : String → ι} {s t : MosaicProtocol}
    (members : t.members = s.members) {faulty : Finset String}
    (few : 3 * Quorum.weigh s.weightOf faulty ≤ s.totalWeight) {c d : Capsule} {closure closure' : ClosureProof}
    (unforged : Unforged s net home faulty closure.receipts) (unforged' : Unforged t net home faulty closure'.receipts)
    (accepted : s.verifyClosure c closure = true) (accepted' : t.verifyClosure d closure' = true)
    (agrees : s.Agrees c) (agrees' : t.Agrees d) (together : Vote → Vote → Prop)
    (single : ∀ w ∉ faulty, (net (home w)).Voted c.vote → (net (home w)).Voted d.vote → together c.vote d.vote) :
    together c.vote d.vote := by
  have first := (verifyClosure_iff.mp accepted).certified agrees unforged
  have second := (verifyClosure_iff.mp accepted').certified agrees' unforged'
  have weights : t.weightOf = s.weightOf := by
    funext w
    simp only [weightOf, members]
  rw [members, weights] at second
  rw [totalWeight_eq] at few
  exact first.agree few together single second

/-- Two verified closures of capsules with one predecessor and one attempt are
closures of one capsule, whatever the members of at most a third of the weight
sign, as long as each capsule agrees with the one that the verifying instance
stores under its identifier. -/
theorem closures_exclusive {ι : Type} [DecidableEq ι] {start net : ι → Instance}
    (unsigned : ∀ i, (start i).signed = []) (run : Network.Run (fun _ _ => True) start net) (home : String → ι)
    {s t : MosaicProtocol} (members : t.members = s.members) {faulty : Finset String}
    (few : 3 * Quorum.weigh s.weightOf faulty ≤ s.totalWeight) {c d : Capsule} {closure closure' : ClosureProof}
    (unforged : Unforged s net home faulty closure.receipts)
    (unforged' : Unforged t net home faulty closure'.receipts)
    (accepted : s.verifyClosure c closure = true) (accepted' : t.verifyClosure d closure' = true)
    (agrees : s.Agrees c) (agrees' : t.Agrees d)
    (samePredecessor : c.predecessorId = d.predecessorId) (sameAttempt : c.attempt = d.attempt) :
    c.capsuleId = d.capsuleId := by
  refine MosaicProtocol.closures_together members few unforged unforged' accepted accepted' agrees agrees'
    (fun v v' => v.predecessorId = v'.predecessorId → v.attempt = v'.attempt → v.capsuleId = v'.capsuleId) ?_
    samePredecessor sameAttempt
  intro w _ voted voted'
  exact (run.locked unsigned (home w)).single _ _ voted voted'

section TwoResources
variable (pair : KeyPair)

/-- The only member accepts one capsule on each of two resources. -/
def twoResources : List Call := [
  .createResource "p" pair.identity "genesis" "capability",
  .createResource "q" pair.identity "genesis" "capability",
  .witnessReceipt "w" (soloCapsule pair "p" "a" 0) "ACCEPT",
  .witnessReceipt "w" (soloCapsule pair "q" "b" 0) "ACCEPT"]

def afterTwoResources : Instance := (twoResources pair).foldl (fun s call => call.exec s) (soloStart pair)

theorem afterTwoResources_eq (free : CollisionFree) (sound : SignaturesVerify) :
    afterTwoResources pair =
      (((((soloStart pair).installSeal (soloSeal pair "p")).installSeal (soloSeal pair "q")).setLock
        (soloCapsule pair "p" "a" 0) "ACCEPT").addSigned (soloReceipt pair (soloCapsule pair "p" "a" 0) "ACCEPT")
        |>.setLock (soloCapsule pair "q" "b" 0) "ACCEPT").addSigned
        (soloReceipt pair (soloCapsule pair "q" "b" 0) "ACCEPT") := by
  have sealsDiffer : (soloSeal pair "q").sealId ≠ (soloSeal pair "p").sealId := fun same =>
    absurd (soloSeal_inj free same) (by decide)
  have readyP : SoloReady pair (((soloStart pair).installSeal (soloSeal pair "p")).installSeal
      (soloSeal pair "q")) "p" := by
    refine ⟨rfl, rfl, ?_, rfl⟩
    simp [Dict.get?_set, sealsDiffer]
  have readyQ : SoloReady pair (((soloStart pair).installSeal (soloSeal pair "p")).installSeal
      (soloSeal pair "q")) "q" := ⟨rfl, rfl, Dict.get?_set_self _ _ _, rfl⟩
  unfold afterTwoResources twoResources
  simp only [List.foldl_cons, List.foldl_nil]
  rw [solo_createResource (by rfl) (by rfl), solo_createResource (by rfl) (by rfl),
    readyP.accept sound (by decide) (by decide) (by simp [soloStart])]
  refine ((readyQ.setLock _ _).addSigned _).accept sound (by decide) (by decide) fun lock held => ?_
  simp [Dict.get?_set, sealsDiffer.symm, soloStart] at held

/-- A capsule for the second resource, with its predecessor exchanged. -/
def movedCapsule : Capsule := { soloCapsule pair "q" "b" 0 with predecessorId := (soloSeal pair "p").sealId }

def closureA : ClosureProof :=
  MosaicProtocol.closureOver (soloCapsule pair "p" "a" 0) [soloReceipt pair (soloCapsule pair "p" "a" 0) "ACCEPT"]

def movedClosure : ClosureProof :=
  MosaicProtocol.closureOver (movedCapsule pair) [soloReceipt pair (soloCapsule pair "q" "b" 0) "ACCEPT"]

theorem capsulesDiffer (free : CollisionFree) :
    (soloCapsule pair "p" "a" 0).capsuleId ≠ (soloCapsule pair "q" "b" 0).capsuleId := fun same =>
  absurd (soloCapsule_inj free same).1 (by decide)

theorem closureA_accepted (free : CollisionFree) (sound : SignaturesVerify) :
    (afterTwoResources pair).verifyClosure (soloCapsule pair "p" "a" 0) (closureA pair) = true := by
  have state := afterTwoResources_eq pair free sound
  refine solo_verifyClosure pair sound _ _ (by simp [state]) (by simp [state, soloStart]; rfl) ?_ rfl
  simp [state, Dict.get?_set, (capsulesDiffer pair free).symm]

theorem movedClosure_accepted (free : CollisionFree) (sound : SignaturesVerify) :
    (afterTwoResources pair).verifyClosure (movedCapsule pair) (movedClosure pair) = true := by
  have state := afterTwoResources_eq pair free sound
  exact solo_verifyClosure pair sound _ _ (by simp [state]) (by simp [state, soloStart]; rfl) (by simp [state]) rfl

theorem afterTwoResources_unforged (free : CollisionFree) (sound : SignaturesVerify) {ι : Type} {s : MosaicProtocol}
    {net : ι → Instance} {home : String → ι} (own : net (home "w") = afterTwoResources pair) {capsule stored : Capsule}
    (either : stored = soloCapsule pair "p" "a" 0 ∨ stored = soloCapsule pair "q" "b" 0) :
    Unforged s net home ∅ (MosaicProtocol.closureOver capsule [soloReceipt pair stored "ACCEPT"]).receipts := by
  intro receipt inList _ _ _ _
  rw [List.mem_singleton.mp inList]
  refine ⟨soloReceipt pair stored "ACCEPT", ?_, rfl⟩
  change _ ∈ (net (home "w")).signed
  rw [own, afterTwoResources_eq pair free sound]
  rcases either with rfl | rfl <;> simp

theorem twoResources_unforged (free : CollisionFree) (sound : SignaturesVerify) {capsule stored : Capsule}
    (either : stored = soloCapsule pair "p" "a" 0 ∨ stored = soloCapsule pair "q" "b" 0) :
    Unforged (afterTwoResources pair).toMosaicProtocol (fun _ : Unit => afterTwoResources pair) (fun _ => ()) ∅
      (MosaicProtocol.closureOver capsule [soloReceipt pair stored "ACCEPT"]).receipts :=
  afterTwoResources_unforged pair free sound rfl either

/-- The client makes the first of the capsules at an instance of its own. -/
def clientCalls : List Call := [
  .createResource "p" pair.identity "genesis" "capability",
  .createCapsule pair (soloSeal pair "p") "a" "identity-transition" "valid" 0 none]

def clientView : Instance := (clientCalls pair).foldl (fun s call => call.exec s) (soloStart pair)

theorem clientView_eq : clientView pair =
    ((soloStart pair).installSeal (soloSeal pair "p")).storeCapsule (soloCapsule pair "p" "a" 0) := by
  unfold clientView clientCalls
  simp only [List.foldl_cons, List.foldl_nil]
  rw [solo_createResource (by rfl) (by rfl), Call.exec_createCapsule (Dict.get?_set_self _ _ _) rfl]
  rfl

theorem closureA_accepted_client (sound : SignaturesVerify) :
    (clientView pair).verifyClosure (soloCapsule pair "p" "a" 0) (closureA pair) = true := by
  rw [clientView_eq]
  exact solo_verifyClosure pair sound _ _ rfl rfl (Dict.get?_set_self _ _ _) rfl

theorem clientView_agrees : (clientView pair).Agrees (soloCapsule pair "p" "a" 0) := by
  rw [clientView_eq]
  intro stored found
  cases (Dict.get?_set_self _ _ _).symm.trans found
  exact ⟨rfl, rfl⟩

theorem clientView_members (free : CollisionFree) (sound : SignaturesVerify) :
    (clientView pair).members = (afterTwoResources pair).members := by
  rw [clientView_eq, afterTwoResources_eq pair free sound]
  rfl

/-- The member's instance and the client's. -/
def memberAndClient (s : Instance) : Bool → Instance :=
  Function.update (Function.update (fun _ => soloStart pair) true s) false (clientView pair)

theorem memberAndClient_run : Network.Run (fun _ _ => True) (fun _ : Bool => soloStart pair)
    (memberAndClient pair (afterTwoResources pair)) :=
  have member := Network.Run.calls .refl true (twoResources pair) fun _ _ _ => trivial
  member.calls false (clientCalls pair) fun _ _ _ => trivial

theorem closureA_unforged (free : CollisionFree) (sound : SignaturesVerify) (s : MosaicProtocol) :
    Unforged s (memberAndClient pair (afterTwoResources pair)) (fun _ => true) ∅ (closureA pair).receipts :=
  afterTwoResources_unforged pair free sound rfl (Or.inl rfl)

theorem afterTwoResources_agrees (free : CollisionFree) (sound : SignaturesVerify) :
    (afterTwoResources pair).Agrees (soloCapsule pair "p" "a" 0) := by
  intro stored found
  simp [afterTwoResources_eq pair free sound, Dict.get?_set, (capsulesDiffer pair free).symm] at found
  exact found ▸ ⟨rfl, rfl⟩

omit [Crypto] in
/-- The capsule that the member has accepted is closed there and at its client. -/
theorem closures_exclusive_client : let _ := Crypto.ideal
    ∃ (pair : KeyPair) (c d : Capsule) (closure closure' : ClosureProof),
      (afterTwoResources pair).verifyClosure c closure = true ∧ (clientView pair).verifyClosure d closure' = true ∧
        c.capsuleId = d.capsuleId := by
  intro _
  let pair : KeyPair := idealKey
  have free := ideal_collisionFree
  have sound := ideal_signaturesVerify
  have accepted := closureA_accepted pair free sound
  have accepted' := closureA_accepted_client pair sound
  have unforged := closureA_unforged pair free sound (afterTwoResources pair).toMosaicProtocol
  have unforged' := closureA_unforged pair free sound (clientView pair).toMosaicProtocol
  have agrees := afterTwoResources_agrees pair free sound
  have agrees' := clientView_agrees pair
  have members := clientView_members pair free sound
  have run := memberAndClient_run pair
  have same := closures_exclusive (fun _ => rfl) run (fun _ => true) members (Nat.zero_le _) unforged unforged' accepted
    accepted' agrees agrees' rfl rfl
  exact ⟨pair, _, _, _, _, accepted, accepted', same⟩

omit [Crypto] in
/-- Without the agreement it is not so: the receipts for the capsule on the second
resource close its moved body on the first, next to the capsule accepted there. -/
theorem closures_not_exclusive : ¬ ∀ [Crypto], CollisionFree → SignaturesVerify →
    ∀ (start net : Unit → Instance), (∀ i, start i = .fresh (start i).members (start i).epoch) →
      Network.Run (fun _ _ => True) start net →
      ∀ (home : String → Unit) (s t : MosaicProtocol), t.members = s.members → t.epoch = s.epoch →
      ∀ faulty : Finset String, 3 * Quorum.weigh s.weightOf faulty ≤ s.totalWeight →
      ∀ (c d : Capsule) (closure closure' : ClosureProof), Unforged s net home faulty closure.receipts →
        Unforged t net home faulty closure'.receipts →
        s.verifyClosure c closure = true → t.verifyClosure d closure' = true →
        c.predecessorId = d.predecessorId → c.attempt = d.attempt → c.capsuleId = d.capsuleId := by
  intro claim
  let _ := Crypto.ideal
  let pair : KeyPair := idealKey
  have free := ideal_collisionFree
  have sound := ideal_signaturesVerify
  exact capsulesDiffer pair free (claim free sound (fun _ => soloStart pair) (fun _ => afterTwoResources pair)
    (fun _ => rfl) (Network.Run.of_calls (fun _ _ => trivial) _ _) (fun _ => ())
    (afterTwoResources pair).toMosaicProtocol (afterTwoResources pair).toMosaicProtocol rfl rfl ∅ (Nat.zero_le _)
    (soloCapsule pair "p" "a" 0) (movedCapsule pair) _ _ (twoResources_unforged pair free sound (Or.inl rfl))
    (twoResources_unforged pair free sound (Or.inr rfl)) (closureA_accepted pair free sound)
    (movedClosure_accepted pair free sound) rfl rfl)

end TwoResources

end Mosaic
