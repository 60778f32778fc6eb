import Mosaic.Lib.Balloting
import Mosaic.ReceiptCollection

namespace Mosaic
open CanonicalJson Effects MosaicProtocol Balloting

/-- The messages among some effects. -/
def sentOf (effects : List Effect) : List Message :=
  effects.filterMap fun effect =>
    match effect with
    | .sent message => some message
    | _ => none

@[simp] theorem sentOf_append (effects effects' : List Effect) :
    sentOf (effects ++ effects') = sentOf effects ++ sentOf effects' :=
  List.filterMap_append

variable [Crypto]

/-- Only the epoch and the known seals have a say in whether a capsule is valid. -/
theorem Instance.Valid.congr {s t : Instance} {capsule : Capsule} (valid : s.Valid capsule)
    (knowns : t.knownSeals = s.knownSeals) (epoch : t.epoch = s.epoch) : t.Valid capsule :=
  ⟨knowns ▸ epoch ▸ valid.known, epoch ▸ valid.epoch, valid.signature, valid.attempt, valid.root⟩

/-- A capsule, the seal that it follows, and members that vote on it with their own keys. -/
structure Motion (ι : Type) where
  capsule : Capsule
  old : StateSeal
  member : ι → Member
  pair : ι → KeyPair
  weight : ι → Nat
  threshold : Nat
  loaded : ∀ i, (member i).keypair = some (pair i)
  apart : ∀ i j, (member i).memberId = (member j).memberId → i = j
  named : old.sealId = capsule.predecessorId

namespace Motion

variable {ι : Type} (m : Motion ι)

/-- The receipt by which a member accepts the capsule. -/
def receipt (i : ι) : WitnessReceipt := Instance.signedReceipt (m.member i) (m.pair i) m.capsule "ACCEPT"

def Enough (votes : Finset ι) : Prop := m.threshold ≤ ∑ i ∈ votes, m.weight i

instance : DecidablePred m.Enough := fun _ => inferInstanceAs (Decidable (_ ≤ _))

/-- A closure of the capsule by enough of the members. -/
def Closes [DecidableEq ι] (closure : ClosureProof) : Prop :=
  ∃ votes : List ι, votes.Nodup ∧ m.Enough votes.toFinset ∧ closure = closureOver m.capsule (votes.map m.receipt)

/-- What the messages of the vote are about. -/
inductive Means [DecidableEq ι] : Message → Mail ι → Prop
  | proposal : Means (.capsule m.capsule) .proposal
  | vote (i : ι) : Means (.receipt (m.receipt i)) (.vote i)
  | decision {closure : ClosureProof} (closes : m.Closes closure) : Means (.closure m.capsule closure) .decision

/-- The node of a member stands where the voter does. It knows the other members by
their keys, its seal is the one before the capsule or the one after it, and it has
heard of nothing else about the capsule. -/
structure At (i : ι) (v : Voter ι) (s : MosaicNode) : Prop where
  own : s.protocol.members.get? s.nodeId = some (m.member i)
  others : ∀ j, ∃ w, s.protocol.members.get? (m.member j).memberId = some w ∧ w.publicKey = (m.pair j).publicKey
  weights : ∀ j, s.protocol.weightOf (m.member j).memberId = m.weight j
  threshold : s.protocol.threshold = m.threshold
  valid : s.protocol.Valid m.capsule
  known : s.protocol.knownSeals.get? m.capsule.predecessorId = some m.old
  clean : s.protocol.hasConflictOn m.capsule.predecessorId = false
  stored : s.protocol.capsules.get? m.capsule.capsuleId = if v.holds then some m.capsule else none
  held : v.seen = true → v.holds = true
  seen : m.capsule.capsuleId ∈ s.seenCapsules ↔ v.seen = true
  closed : s.protocol.closures.contains m.capsule.capsuleId = v.decided
  head : s.protocol.currentSeals.get? m.old.resourceId = some (if v.decided then nextSeal m.old m.capsule else m.old)
  unlocked : v.seen = false → s.protocol.locks.get? m.capsule.predecessorId = none
  locked : v.seen = true → v.decided = false →
    ∃ lock, s.protocol.locks.get? m.capsule.predecessorId = some lock ∧ lock.IsFor m.capsule
  pool : ∀ w receipt, (s.poolOf m.capsule.capsuleId).get? w = some receipt ↔
    ∃ j ∈ v.heard, receipt = m.receipt j ∧ w = receipt.witnessId
  history : ∀ j, (m.receipt j).receiptId ∈ s.historyOf (m.receipt j) ↔ j ∈ v.heard
  waiting : ∀ entry ∈ s.pendingCapsules.entries, entry.2 = m.capsule ∧ v.decided = true
  emitted : v.decided = false → ∀ receipts, (closureOver m.capsule receipts).proofId ∉ s.emittedClosures

variable {m} {i : ι} {v : Voter ι} {s t : MosaicNode}

theorem receipt_capsuleId (j : ι) : (m.receipt j).capsuleId = m.capsule.capsuleId := rfl

theorem receipt_inj {j k : ι} (same : (m.receipt j).witnessId = (m.receipt k).witnessId) : j = k := m.apart j k same

namespace At

/-- What is under way for clients, and what was done before, makes no difference. -/
theorem aside (stands : m.At i v s) (pending : Dict String Capsule) (log : List Effect) :
    m.At i v { s with pending := pending, log := log } :=
  ⟨stands.own, stands.others, stands.weights, stands.threshold, stands.valid, stands.known, stands.clean, stands.stored,
    stands.held, stands.seen, stands.closed, stands.head, stands.unlocked, stands.locked, stands.pool, stands.history,
    stands.waiting, stands.emitted⟩

theorem note (stands : m.At i v s) (mail : Mail ι) : m.At i (v.note mail) s :=
  ⟨stands.own, stands.others, stands.weights, stands.threshold, stands.valid, stands.known, stands.clean, stands.stored,
    stands.held, stands.seen, stands.closed, stands.head, stands.unlocked, stands.locked, stands.pool, stands.history,
    stands.waiting, stands.emitted⟩

theorem kept (stands : m.At i v s) : m.At i v.hold (s.kept m.capsule) where
  own := stands.own
  others := stands.others
  weights := stands.weights
  threshold := stands.threshold
  valid := stands.valid.congr rfl rfl
  known := stands.known
  clean := stands.clean
  stored := Dict.get?_set_self _ _ _
  held _ := rfl
  seen := stands.seen
  closed := stands.closed
  head := stands.head
  unlocked := stands.unlocked
  locked := stands.locked
  pool := stands.pool
  history := stands.history
  waiting := stands.waiting
  emitted := stands.emitted

theorem headOf (stands : m.At i v s) :
    s.protocol.headOf m.capsule = some (if v.decided then nextSeal m.old m.capsule else m.old) :=
  Option.bind_eq_some_iff.mpr ⟨m.old, stands.known, stands.head⟩

theorem atHead (stands : m.At i v s) (undecided : v.decided = false) : s.protocol.AtHead m.capsule := by
  refine ⟨m.old, ?_, m.named⟩
  rw [stands.headOf, undecided]
  rfl

end At

/-- The next seal is another one. -/
theorem next_other (free : CollisionFree) (m : Motion ι) :
    (nextSeal m.old m.capsule).sealId ≠ m.capsule.predecessorId := by
  intro same
  have version := congrArg StateSeal.version (StateSeal.eq_of_sealId free (same.trans m.named.symm))
  have later : (nextSeal m.old m.capsule).version = m.old.version + 1 := rfl
  omega

namespace At

theorem behind (stands : m.At i v s) (free : CollisionFree) (decided : v.decided = true) :
    ¬ s.protocol.AtHead m.capsule := by
  rintro ⟨current, head, named⟩
  rw [stands.headOf, decided] at head
  cases head
  exact m.next_other free named

theorem followed (stands : m.At i v s) (decided : v.decided = true) : s.protocol.Followed m.capsule := by
  have head := stands.head
  rw [decided] at head
  exact ⟨m.old, _, stands.known, head, rfl, rfl, rfl⟩

theorem counts (stands : m.At i v s) (sound : SignaturesVerify) (holds : v.holds = true) (j : ι) :
    s.protocol.Counts m.capsule (m.receipt j) := by
  obtain ⟨w, known, key⟩ := stands.others j
  have stored := stands.stored
  rw [holds] at stored
  refine ⟨verifyReceipt_iff.mpr ⟨w, m.capsule, known, stored, rfl, rfl, stands.valid.epoch, rfl, ?_⟩, rfl, rfl⟩
  rw [key]
  exact KeyPair.verify_sign sound _ _

theorem weightOf_map (stands : m.At i v s) (votes : List ι) (distinct : votes.Nodup) [DecidableEq ι] :
    s.protocol.weightOfReceipts (votes.map m.receipt) = ∑ j ∈ votes.toFinset, m.weight j := by
  have weights : (votes.map m.receipt).map (fun receipt => s.protocol.weightOf receipt.witnessId) =
      votes.map m.weight := by
    rw [List.map_map]
    exact List.map_congr_left fun j _ => stands.weights j
  rw [MosaicProtocol.weightOfReceipts, weights, List.sum_toFinset _ distinct]

/-- The pool is made of the receipts that were heard of, in some order. -/
theorem pooled [DecidableEq ι] (stands : m.At i v s) : ∃ votes : List ι, votes.Nodup ∧ votes.toFinset = v.heard ∧
    (s.poolOf m.capsule.capsuleId).values = votes.map m.receipt := by
  have each : ∀ receipt ∈ (s.poolOf m.capsule.capsuleId).values, receipt ∈ Set.range m.receipt := by
    intro receipt member
    obtain ⟨w, found⟩ := Dict.mem_values.mp member
    obtain ⟨j, -, same, -⟩ := (stands.pool w receipt).mp found
    exact ⟨j, same.symm⟩
  have listed : (s.poolOf m.capsule.capsuleId).values ∈ Set.range (List.map m.receipt) := by
    rw [Set.range_list_map]
    exact each
  obtain ⟨votes, same⟩ := listed
  have witnesses : (s.poolOf m.capsule.capsuleId).values.map WitnessReceipt.witnessId =
      (s.poolOf m.capsule.capsuleId).keys := by
    simp only [Dict.values, Dict.keys, List.map_map]
    refine List.map_congr_left fun entry member => ?_
    obtain ⟨j, -, -, witness⟩ := (stands.pool entry.1 entry.2).mp ((Dict.get?_eq_some_iff _).mpr member)
    exact witness.symm
  refine ⟨votes, ?_, ?_, same.symm⟩
  · refine List.Nodup.of_map m.receipt ?_
    rw [same]
    refine List.Nodup.of_map WitnessReceipt.witnessId ?_
    rw [witnesses]
    exact Dict.keys_nodup _
  · ext j
    rw [List.mem_toFinset]
    constructor
    · intro member
      have inPool : m.receipt j ∈ (s.poolOf m.capsule.capsuleId).values := same ▸ List.mem_map_of_mem member
      obtain ⟨w, found⟩ := Dict.mem_values.mp inPool
      obtain ⟨k, heard, same', -⟩ := (stands.pool w _).mp found
      rwa [receipt_inj (congrArg WitnessReceipt.witnessId same')]
    · intro heard
      have inPool := Dict.mem_values_of_get? ((stands.pool _ _).mpr ⟨j, heard, rfl, rfl⟩)
      rw [← same] at inPool
      obtain ⟨k, member, same'⟩ := List.mem_map.mp inPool
      rwa [← receipt_inj (congrArg WitnessReceipt.witnessId same')]

theorem validPool [DecidableEq ι] (stands : m.At i v s) (sound : SignaturesVerify) (holds : v.holds = true) :
    ∃ votes : List ι, votes.Nodup ∧ votes.toFinset = v.heard ∧
      s.validPool m.capsule.capsuleId = votes.map m.receipt := by
  obtain ⟨votes, distinct, heard, same⟩ := stands.pooled
  refine ⟨votes, distinct, heard, ?_⟩
  rw [MosaicNode.validPool, same, List.filter_eq_self.mpr]
  intro receipt member
  obtain ⟨j, -, rfl⟩ := List.mem_map.mp member
  have counts := stands.counts sound holds j
  rw [counts.1, counts.2.1]
  rfl

/-- A closure by enough of the members can be registered where the capsule is stored. -/
theorem registrable [DecidableEq ι] (stands : m.At i v s) (sound : SignaturesVerify) (holds : v.holds = true)
    {closure : ClosureProof} (closes : m.Closes closure) : s.protocol.Registrable m.capsule closure := by
  obtain ⟨votes, distinct, enough, rfl⟩ := closes
  refine ⟨verifyClosure_iff.mpr (accepts_closureOver ?_ ?_ ?_), stands.clean⟩
  · rw [List.map_map]
    exact distinct.map fun j k same => receipt_inj same
  · intro receipt member
    obtain ⟨j, -, rfl⟩ := List.mem_map.mp member
    exact stands.counts sound holds j
  · rw [stands.threshold, stands.weightOf_map votes distinct]
    exact enough

/-- A receipt of a member is written down. -/
theorem noted [DecidableEq ι] (stands : m.At i v s) (j : ι) :
    m.At i { v with heard := insert j v.heard } (s.noted (m.receipt j)) where
  own := stands.own
  others := stands.others
  weights := stands.weights
  threshold := stands.threshold
  valid := stands.valid
  known := stands.known
  clean := stands.clean
  stored := stands.stored
  held := stands.held
  seen := stands.seen
  closed := stands.closed
  head := stands.head
  unlocked := stands.unlocked
  locked := stands.locked
  pool w receipt := by
    have pool : (s.noted (m.receipt j)).poolOf m.capsule.capsuleId = _ :=
      MosaicNode.poolOf_addReceipt s (m.receipt j) m.capsule.capsuleId
    rw [pool, if_pos (receipt_capsuleId j), Dict.get?_set]
    split
    · rename_i here
      subst here
      constructor
      · rintro ⟨⟩
        exact ⟨j, Finset.mem_insert_self _ _, rfl, rfl⟩
      · rintro ⟨k, -, rfl, same⟩
        rw [receipt_inj same]
    · rename_i other
      rw [stands.pool]
      constructor
      · rintro ⟨k, heard, rfl, same⟩
        exact ⟨k, Finset.mem_insert_of_mem heard, rfl, same⟩
      · rintro ⟨k, heard, rfl, same⟩
        rcases Finset.mem_insert.mp heard with rfl | before
        · exact absurd same.symm other
        · exact ⟨k, before, rfl, same⟩
  history k := by
    have history := MosaicNode.mem_historyOf_addReceipt s (m.receipt j) (m.receipt k)
    refine history.trans ?_
    rw [stands.history, Finset.mem_insert]
    constructor
    · rintro (before | ⟨-, same, -⟩)
      · exact Or.inr before
      · exact Or.inl (receipt_inj same).symm
    · rintro (rfl | before)
      · exact Or.inr ⟨rfl, rfl, rfl⟩
      · exact Or.inl before
  waiting := stands.waiting
  emitted := stands.emitted

end At

variable (m) in
/-- What is left of the handlers: own copies of what was sent, and what only clients
wait for. -/
inductive Left (messages : List Message) : Frame → Prop
  | deliver {message : Message} (member : message ∈ messages) : Left messages (.deliver message)
  | finish (capsuleId : String) : Left messages (.finish capsuleId)
  | await : Left messages (.await m.capsule)

theorem Left.mono {messages messages' : List Message} {frame : Frame} (left : m.Left messages frame)
    (more : ∀ message ∈ messages, message ∈ messages') : m.Left messages' frame := by
  cases left with
  | deliver member => exact .deliver (more _ member)
  | finish capsuleId => exact .finish capsuleId
  | await => exact .await

variable (m i s) in
/-- A handler takes the node to where the voter is then, and sends what the voter sends. -/
def Does [DecidableEq ι] (x : PyNode (List Frame)) (w : Voter ι) (mails : List (Mail ι)) : Prop :=
  ∃ effects, (final x s).log = s.log ++ effects ∧ m.At i w (final x s) ∧
    List.Forall₂ m.Means (sentOf effects) mails ∧ ∀ frame ∈ MosaicNode.framesOf x s, m.Left (sentOf effects) frame

variable [DecidableEq ι] {x : PyNode (List Frame)} {w : Voter ι} {mails : List (Mail ι)} {frames : List Frame}

theorem Does.of_ok (effects : List Effect) (ran : x s = .ok frames t) (log : t.log = s.log ++ effects)
    (stands : m.At i w t) (means : List.Forall₂ m.Means (sentOf effects) mails)
    (left : ∀ frame ∈ frames, m.Left (sentOf effects) frame) : m.Does i s x w mails := by
  refine ⟨effects, ?_, ?_, means, ?_⟩
  · rw [final_of_ok ran, log]
  · rwa [final_of_ok ran]
  · rw [MosaicNode.framesOf, ran]
    exact left

theorem Does.done (effects : List Effect) (ran : x s = .ok [] t) (log : t.log = s.log ++ effects)
    (silent : sentOf effects = []) (stands : m.At i w t) : m.Does i s x w [] := by
  refine .of_ok effects ran log stands ?_ fun frame member => absurd member List.not_mem_nil
  rw [silent]
  exact .nil

theorem Does.congr {y : PyNode (List Frame)} (does : m.Does i s y w mails) (same : x s = y s) :
    m.Does i s x w mails := by
  unfold Does MosaicNode.framesOf final
  rw [same]
  exact does

/-- A program whose result is not used. -/
theorem Does.of_unit {y : PyNode PUnit} {effects : List Effect} {pending : Dict String Capsule}
    (moved : final y s = { s with pending := pending, log := s.log ++ effects }) (silent : sentOf effects = [])
    (stands : m.At i v s) : m.Does i s (do y; return []) v [] := by
  have same : final (do y; return ([] : List Frame)) s = final y s := by
    cases ran : y s with
    | ok a t => rw [final_bind_of_ok ran, final_of_ok ran, final_of_ok (pure_apply _ _)]
    | error e t => rw [final_bind_of_error ran, final_of_error ran]
  have none : MosaicNode.framesOf (do y; return ([] : List Frame)) s = [] := by
    unfold MosaicNode.framesOf
    cases ran : y s with
    | ok a t => rw [bind_of_ok ran, pure_apply]
    | error e t => rw [bind_of_error ran]
  refine ⟨effects, ?_, ?_, ?_, ?_⟩
  · rw [same, moved]
  · rw [same, moved]
    exact stands.aside _ _
  · rw [silent]
    exact .nil
  · rw [none]
    exact fun frame member => absurd member List.not_mem_nil

end Motion

/-- What `_finish_pending` does, it does for a client. -/
theorem MosaicNode.finishPending_aside (s : MosaicNode) (capsuleId : String) : ∃ effects pending, sentOf effects = [] ∧
    final (finishPending capsuleId) s = { s with pending := pending, log := s.log ++ effects } := by
  have same : s = { s with pending := s.pending, log := s.log ++ [] } := by rw [List.append_nil]
  unfold finishPending
  rw [final, bind_of_ok (get_apply s)]
  cases s.pending.get? capsuleId with
  | none => exact ⟨[], s.pending, rfl, same⟩
  | some capsule =>
    dsimp only
    cases known : s.protocol.knownSeals.get? capsule.predecessorId with
    | none =>
      have raised : onProtocol (Instance.lookupKey s.protocol.knownSeals capsule.predecessorId) s =
          .error (.keyError capsule.predecessorId) s := onProtocol_error (by rw [Instance.lookupKey, known]; rfl)
      rw [bind_of_error raised]
      exact ⟨[], s.pending, rfl, same⟩
    | some predecessor =>
      rw [bind_of_ok (lookup_ok known)]
      cases held : s.protocol.currentSeals.get? predecessor.resourceId with
      | none =>
        have raised : onProtocol (Instance.lookupKey s.protocol.currentSeals predecessor.resourceId) s =
            .error (.keyError predecessor.resourceId) s := onProtocol_error (by rw [Instance.lookupKey, held]; rfl)
        rw [bind_of_error raised]
        exact ⟨[], s.pending, rfl, same⟩
      | some current =>
        rw [bind_of_ok (lookup_ok held)]
        cases registered : s.protocol.closures.get? capsuleId with
        | none =>
          have raised : onProtocol (Instance.lookupKey s.protocol.closures capsuleId) s =
              .error (.keyError capsuleId) s := onProtocol_error (by rw [Instance.lookupKey, registered]; rfl)
          rw [bind_of_error raised]
          exact ⟨[], s.pending, rfl, same⟩
        | some closure =>
          rw [bind_of_ok (lookup_ok registered)]
          exact ⟨[.replied capsule (.finished capsuleId closure.proofId current)], s.pending.erase capsuleId, rfl, rfl⟩

namespace Motion.At

variable {ι : Type} {m : Motion ι} {i : ι} {v : Voter ι} {s : MosaicNode} [DecidableEq ι]

theorem finishes (stands : m.At i v s) (capsuleId : String) :
    m.Does i s (do MosaicNode.finishPending capsuleId; return []) v [] := by
  obtain ⟨effects, pending, silent, moved⟩ := s.finishPending_aside capsuleId
  exact .of_unit moved silent stands

theorem replies (stands : m.At i v s) (capsule : Capsule) (answer : SubmitReply) :
    m.Does i s (MosaicNode.reply capsule answer) v [] :=
  .done [.replied capsule answer] rfl rfl rfl (stands.aside _ _)

/-- The capsule of a client goes to all. -/
theorem poses (stands : m.At i v s) (room : s.pending.keys.length < s.maxPendingCapsules)
    (idle : s.pending.contains m.capsule.capsuleId = false)
    (unclosed : s.protocol.closures.get? m.capsule.capsuleId = none) :
    m.Does i s (MosaicNode.submit m.capsule) v.hold [.proposal] := by
  have kept := stands.kept
  have validated : outcome (MosaicNode.onProtocol (Instance.validateCapsule m.capsule)) (s.kept m.capsule) =
      .ok (.ok ⟨⟩) (s.kept m.capsule) :=
    outcome_of_ok (MosaicNode.onProtocol_ok (Instance.validateCapsule_ok kept.valid))
  have ran : MosaicNode.submit m.capsule s = .ok [.deliver (.capsule m.capsule), .await m.capsule]
      (((s.kept m.capsule).addPending m.capsule).logEffect (.sent (.capsule m.capsule))) := by
    rw [MosaicNode.submit, bind_of_ok (get_apply s), if_neg (Nat.not_le.mpr room), if_neg (by rw [idle]; decide),
      unclosed]
    exact bind_of_ok validated
  refine .of_ok [.put (.capsule m.capsule), .sent (.capsule m.capsule)] ran ?_ (kept.aside _ _) (.cons .proposal .nil) ?_
  · simp
  · intro frame member
    rcases List.mem_pair.mp member with rfl | rfl
    · exact .deliver (List.mem_singleton_self _)
    · exact .await

/-- A client is refused, or it is answered, or the capsule goes to all. -/
theorem submits (stands : m.At i v s) : m.Does i s (MosaicNode.submit m.capsule) v [] ∨
    m.Does i s (MosaicNode.submit m.capsule) v.hold [.proposal] := by
  by_cases full : s.maxPendingCapsules ≤ s.pending.keys.length
  · refine Or.inl ((stands.replies m.capsule (.rejected none "pending capsule capacity exhausted")).congr ?_)
    rw [MosaicNode.submit, bind_of_ok (get_apply s), if_pos full]
  cases pending : s.pending.contains m.capsule.capsuleId with
  | true =>
    refine Or.inl ((stands.replies m.capsule (.rejected none "capsule already pending")).congr ?_)
    rw [MosaicNode.submit, bind_of_ok (get_apply s), if_neg full, if_pos pending]
  | false =>
    cases registered : s.protocol.closures.get? m.capsule.capsuleId with
    | some existing =>
      refine Or.inl ((stands.replies m.capsule (.finished m.capsule.capsuleId existing.proofId
        (if v.decided then nextSeal m.old m.capsule else m.old))).congr ?_)
      rw [MosaicNode.submit, bind_of_ok (get_apply s), if_neg full, if_neg (by rw [pending]; decide), registered]
      exact (bind_of_ok (MosaicNode.lookup_ok stands.known)).trans (bind_of_ok (MosaicNode.lookup_ok stands.head))
    | none => exact Or.inr (stands.poses (not_le.mp full) pending registered)

/-- The capsule arrives for the first time, and its seal is not locked. -/
theorem accepts (stands : m.At i v s) (unseen : v.seen = false) (undecided : v.decided = false) :
    m.Does i s (MosaicNode.onCapsule m.capsule) { v with holds := true, seen := true } [.vote i] := by
  have fresh : m.capsule.capsuleId ∉ s.seenCapsules := by
    rw [stands.seen, unseen]
    decide
  have accepted := MosaicNode.onCapsule_accepts fresh stands.valid (stands.atHead undecided) (stands.unlocked unseen)
    stands.own (m.loaded i)
  refine .of_ok [.put (.capsule m.capsule), .signed (m.receipt i), .sent (.receipt (m.receipt i))] accepted ?_ ?_
    (.cons (.vote i) .nil) ?_
  · simp [receipt]
  · exact {
      own := stands.own
      others := stands.others
      weights := stands.weights
      threshold := stands.threshold
      valid := stands.valid.congr rfl rfl
      known := stands.known
      clean := stands.clean
      stored := Dict.get?_set_self _ _ _
      held := fun _ => rfl
      seen := iff_of_true (Finset.mem_insert_self _ _) rfl
      closed := stands.closed
      head := stands.head
      unlocked := fun unseen => Bool.noConfusion unseen
      locked := fun _ _ => ⟨_, Dict.get?_set_self _ _ _, rfl, rfl⟩
      pool := stands.pool
      history := stands.history
      waiting := stands.waiting
      emitted := stands.emitted }
  · intro frame member
    cases List.mem_singleton.mp member
    exact .deliver (List.mem_singleton_self _)

/-- It arrives again, and the own lock is kept. -/
theorem acceptsAgain (stands : m.At i v s) (seen : v.seen = true) (undecided : v.decided = false) :
    m.Does i s (MosaicNode.onCapsule m.capsule) v [.vote i] := by
  obtain ⟨lock, locked, mine⟩ := stands.locked seen undecided
  have witnessed : outcome (MosaicNode.witnessReceipt m.capsule) s =
      .ok (.ok (m.receipt i))
        ((s.setProtocol (s.protocol.addSigned (m.receipt i))).logEffect (.signed (m.receipt i))) := by
    have accepted := Instance.witnessReceipt_ok (Or.inl rfl) stands.valid stands.own (m.loaded i)
      ((congrFun (if_pos rfl) _).trans (Instance.acceptLock_keeps (stands.atHead undecided) locked mine))
    refine outcome_of_ok ?_
    rw [MosaicNode.witnessReceipt, bind_of_ok (get_apply s), bind_of_ok (MosaicNode.onProtocol_ok accepted)]
    rfl
  have ran : MosaicNode.onCapsule m.capsule s = .ok [.deliver (.receipt (m.receipt i))]
      (((s.setProtocol (s.protocol.addSigned (m.receipt i))).logEffect (.signed (m.receipt i))).logEffect
        (.sent (.receipt (m.receipt i)))) := by
    rw [MosaicNode.onCapsule, bind_of_ok (get_apply s), if_pos (stands.seen.mpr seen), stands.closed, undecided]
    exact bind_of_ok witnessed
  refine .of_ok [.signed (m.receipt i), .sent (.receipt (m.receipt i))] ran (by simp) ?_ (.cons (.vote i) .nil) ?_
  · have valid : (s.protocol.addSigned (m.receipt i)).Valid m.capsule := stands.valid.congr rfl rfl
    exact ⟨stands.own, stands.others, stands.weights, stands.threshold, valid, stands.known, stands.clean, stands.stored,
      stands.held, stands.seen, stands.closed, stands.head, stands.unlocked, stands.locked, stands.pool, stands.history,
      stands.waiting, stands.emitted⟩
  · intro frame member
    cases List.mem_singleton.mp member
    exact .deliver (List.mem_singleton_self _)

/-- It arrives when its successor is in place already, and waits. -/
theorem comesLate (stands : m.At i v s) (free : CollisionFree) (unseen : v.seen = false) (decided : v.decided = true) :
    m.Does i s (MosaicNode.onCapsule m.capsule) { v with holds := true, seen := true } [] := by
  have fresh : m.capsule.capsuleId ∉ s.seenCapsules := by
    rw [stands.seen, unseen]
    decide
  have head := stands.head
  rw [decided] at head
  have raised : Instance.acceptLock m.capsule (s.protocol.storeCapsule m.capsule) =
      .error (.capsuleInvalid "predecessor is not current") (s.protocol.storeCapsule m.capsule) := by
    have known : (s.protocol.storeCapsule m.capsule).knownSeals.get? m.capsule.predecessorId = some m.old := stands.known
    have held : (s.protocol.storeCapsule m.capsule).currentSeals.get? m.old.resourceId = _ := head
    have unlocked : (s.protocol.storeCapsule m.capsule).locks.get? m.capsule.predecessorId = none := stands.unlocked unseen
    unfold Instance.acceptLock Instance.lookupKey
    simp only [bind_apply, get_apply, known, pure_apply, held, unlocked, raiseIf_apply, if_true]
    rw [if_pos (m.next_other free)]
  have kept := stands.kept
  have witnessed : outcome (MosaicNode.witnessReceipt m.capsule) ((s.addSeen m.capsule.capsuleId).kept m.capsule) =
      .ok (.error (.capsuleInvalid "predecessor is not current")) ((s.addSeen m.capsule.capsuleId).kept m.capsule) := by
    have refused := Instance.witnessReceipt_raises (Or.inl rfl) kept.valid kept.own
      ((congrFun (if_pos rfl) _).trans raised)
    refine outcome_of_error ?_
    rw [MosaicNode.witnessReceipt, bind_of_ok (get_apply _)]
    exact bind_of_error (MosaicNode.onProtocol_error refused)
  have ran : MosaicNode.onCapsule m.capsule s =
      .ok [] (((s.addSeen m.capsule.capsuleId).kept m.capsule).addWaiting m.capsule) := by
    rw [MosaicNode.onCapsule, bind_of_ok (get_apply s), if_neg fresh]
    exact bind_of_ok witnessed
  refine .done [.put (.capsule m.capsule)] ran rfl rfl ?_
  exact {
    own := stands.own
    others := stands.others
    weights := stands.weights
    threshold := stands.threshold
    valid := kept.valid
    known := stands.known
    clean := stands.clean
    stored := Dict.get?_set_self _ _ _
    held := fun _ => rfl
    seen := iff_of_true (Finset.mem_insert_self _ _) rfl
    closed := stands.closed
    head := stands.head
    unlocked := fun unseen => Bool.noConfusion unseen
    locked := fun _ undecided => Bool.noConfusion (decided.symm.trans undecided)
    pool := stands.pool
    history := stands.history
    waiting := fun entry member => by
      have found := (Dict.get?_eq_some_iff _).mpr member
      rw [MosaicNode.addWaiting_pendingCapsules, Dict.get?_set] at found
      split at found
      · exact ⟨(Option.some.inj found).symm, decided⟩
      · exact stands.waiting entry ((Dict.get?_eq_some_iff _).mp found)
    emitted := stands.emitted }

/-- What the capsule does. -/
theorem capsule (stands : m.At i v s) (free : CollisionFree) :
    m.Does i s (MosaicNode.onCapsule m.capsule) (v.learn m.Enough .proposal) (v.answer m.Enough i .proposal) := by
  cases seen : v.seen with
  | false =>
    cases decided : v.decided with
    | false =>
      have accepted := stands.accepts seen decided
      simpa [Voter.learn, Voter.answer, decided] using accepted
    | true =>
      have late := stands.comesLate free seen decided
      simpa [Voter.learn, Voter.answer, decided] using late
  | true =>
    have same : v.learn m.Enough .proposal = v := by
      obtain ⟨holds, seen', decided, heard, taken⟩ := v
      cases stands.held seen
      cases seen
      rfl
    rw [same]
    cases decided : v.decided with
    | false =>
      have again := stands.acceptsAgain seen decided
      simpa [Voter.answer, decided] using again
    | true =>
      have ran : MosaicNode.onCapsule m.capsule s = .ok [] s := by
        rw [MosaicNode.onCapsule, bind_of_ok (get_apply s), if_pos (stands.seen.mpr seen), stands.closed, decided]
        rfl
      have does : m.Does i s (MosaicNode.onCapsule m.capsule) v [] :=
        .done [] ran (List.append_nil _).symm rfl stands
      simpa [Voter.answer, decided] using does

omit [DecidableEq ι] in
/-- The successor is put in the place of the seal. -/
theorem installed (stands : m.At i v s) (free : CollisionFree) (undecided : v.decided = false) (closure : ClosureProof)
    (log : List Effect) : m.At i { v with decided := true }
      { s.setProtocol ((s.protocol.withClosure m.capsule closure).installSeal (nextSeal m.old m.capsule)) with
        log := log } := by
  have made : s.protocol.withClosure m.capsule closure = s.protocol.addClosure m.capsule closure := by
    refine if_neg ?_
    rw [stands.closed, undecided]
    decide
  have known : (s.protocol.knownSeals.set (nextSeal m.old m.capsule).sealId (nextSeal m.old m.capsule)).get?
      m.capsule.predecessorId = some m.old :=
    (Dict.get?_set_of_ne _ _ (m.next_other free)).trans stands.known
  have valid := stands.valid
  rw [made]
  refine {
    own := stands.own
    others := stands.others
    weights := stands.weights
    threshold := stands.threshold
    valid := ⟨⟨m.old, known, ?_⟩, valid.epoch, valid.signature, valid.attempt, valid.root⟩
    known := known
    clean := stands.clean
    stored := stands.stored
    held := stands.held
    seen := stands.seen
    closed := Dict.contains_iff.mpr ⟨closure, Dict.get?_set_self _ _ _⟩
    head := Dict.get?_set_self _ _ _
    unlocked := stands.unlocked
    locked := fun _ undecided => Bool.noConfusion undecided
    pool := stands.pool
    history := stands.history
    waiting := fun entry member => ⟨(stands.waiting entry member).1, rfl⟩
    emitted := fun undecided => Bool.noConfusion undecided }
  obtain ⟨predecessor, here, epoch⟩ := valid.known
  cases stands.known.symm.trans here
  exact epoch

/-- A closure by enough of the members is registered and applied, or it was before. -/
theorem settles (stands : m.At i v s) (free : CollisionFree) (sound : SignaturesVerify) (holds : v.holds = true)
    {closure : ClosureProof} (closes : m.Closes closure) : ∃ t effects,
      MosaicNode.settle m.capsule closure s = .ok ⟨⟩ t ∧ t.log = s.log ++ effects ∧ sentOf effects = [] ∧ m.At i { v with decided := true } t ∧
        t.emittedClosures = s.emittedClosures := by
  have registrable := stands.registrable sound holds closes
  rcases MosaicNode.settle_cases s m.capsule closure with ⟨p, predecessor, current, settles, known, held, ran⟩ |
    ⟨e, strands, -⟩ | ⟨e, refused, -⟩
  · refine ⟨_, closingRows closure predecessor current, ran, rfl, rfl, ?_, rfl⟩
    cases decided : v.decided with
    | false =>
      have made : p = (s.protocol.withClosure m.capsule closure).installSeal (nextSeal m.old m.capsule) := by
        cases settles with
        | installed _ head =>
          rw [stands.headOf, decided] at head
          cases head
          rfl
        | repeated _ behind => exact absurd (stands.atHead decided) behind
      rw [made]
      exact stands.installed free decided closure _
    | true =>
      have made : p = s.protocol := by
        cases settles with
        | installed _ head named => exact absurd ⟨_, head, named⟩ (stands.behind free decided)
        | repeated => exact if_pos (stands.closed.trans decided)
      have same : ({ v with decided := true } : Voter ι) = v := by rw [← decided]
      rw [made, same]
      exact stands.aside s.pending _
  · exact absurd strands.missed (by
      cases decided : v.decided with
      | false => exact absurd (stands.atHead decided) strands.behind
      | true => exact not_not.mpr (stands.followed decided))
  · exact absurd registrable refused

end Motion.At

namespace Motion

variable {ι : Type} {m : Motion ι} {i : ι} {v : Voter ι} {s t : MosaicNode} [DecidableEq ι] {x y : PyNode (List Frame)}
  {w : Voter ι} {mails : List (Mail ι)}

/-- What a handler does after it has written something down. -/
theorem Does.after (does : m.Does i t y w mails) {effects : List Effect} (log : t.log = s.log ++ effects)
    (silent : sentOf effects = []) (same : x s = y t) : m.Does i s x w mails := by
  obtain ⟨later, log', stands, means, left⟩ := does
  have sent : sentOf (effects ++ later) = sentOf later := by rw [sentOf_append, silent, List.nil_append]
  refine ⟨effects ++ later, ?_, ?_, ?_, ?_⟩
  · rw [final, same, ← List.append_assoc, ← log, ← log']
    rfl
  · rw [final, same]
    exact stands
  · rwa [sent]
  · rw [sent, MosaicNode.framesOf, same]
    exact left

end Motion

namespace Motion.At

variable {ι : Type} {m : Motion ι} {i : ι} {v : Voter ι} {s : MosaicNode} [DecidableEq ι]

/-- The votes in the pool are enough, and the node closes the capsule by them. -/
theorem closes (stands : m.At i v s) (free : CollisionFree) (sound : SignaturesVerify) (holds : v.holds = true)
    (undecided : v.decided = false) (enough : m.Enough v.heard) :
    m.Does i s (MosaicNode.tryClose m.capsule) { v with decided := true } [.decision] := by
  obtain ⟨votes, distinct, heard, pool⟩ := stands.validPool sound holds
  have closes : m.Closes (closureOver m.capsule (votes.map m.receipt)) := ⟨votes, distinct, heard ▸ enough, rfl⟩
  obtain ⟨t, effects, settled, log, silent, after, emitted⟩ := stands.settles free sound holds closes
  have heavy : ¬ s.protocol.weightOfReceipts (s.validPool m.capsule.capsuleId) < s.protocol.threshold := by
    rw [pool, stands.weightOf_map votes distinct, stands.threshold, heard, not_lt]
    exact enough
  have made : ClosureProof.create (s.validPool m.capsule.capsuleId) =
      .ok (closureOver m.capsule (votes.map m.receipt)) := by
    rw [pool]
    refine create_eq_closureOver ?_ fun receipt member => ?_
    · intro none
      rw [pool, none] at heavy
      exact heavy s.protocol.threshold_pos
    · obtain ⟨j, -, rfl⟩ := List.mem_map.mp member
      exact ⟨rfl, rfl, rfl, rfl, rfl⟩
  have closed : outcome (do
      let closure ← MosaicNode.onProtocol (Instance.liftExcept (ClosureProof.create (s.validPool m.capsule.capsuleId)))
      MosaicNode.settle m.capsule closure
      return closure) s = .ok (.ok (closureOver m.capsule (votes.map m.receipt))) t := by
    refine outcome_of_ok ?_
    rw [made]
    exact (bind_of_ok (MosaicNode.onProtocol_ok rfl)).trans (bind_of_ok settled)
  have new : (closureOver m.capsule (votes.map m.receipt)).proofId ∉ t.emittedClosures := by
    rw [emitted]
    exact stands.emitted undecided _
  have ran : MosaicNode.tryClose m.capsule s = .ok
      [.deliver (.closure m.capsule (closureOver m.capsule (votes.map m.receipt))), .finish m.capsule.capsuleId]
      ((t.addEmitted (closureOver m.capsule (votes.map m.receipt)).proofId).logEffect
        (.sent (.closure m.capsule (closureOver m.capsule (votes.map m.receipt))))) := by
    rw [MosaicNode.tryClose, bind_of_ok (get_apply s), if_neg (by rw [stands.closed, undecided]; decide)]
    simp only [if_neg heavy]
    rw [bind_of_ok closed]
    dsimp only
    rw [bind_of_ok (get_apply t), if_neg new]
    rfl
  refine .of_ok (effects ++ [.sent (.closure m.capsule (closureOver m.capsule (votes.map m.receipt)))]) ran ?_ ?_ ?_ ?_
  · simp [log]
  · exact ⟨after.own, after.others, after.weights, after.threshold, after.valid, after.known, after.clean, after.stored,
      after.held, after.seen, after.closed, after.head, after.unlocked, after.locked, after.pool, after.history,
      after.waiting, fun undecided => Bool.noConfusion undecided⟩
  · rw [sentOf_append, silent]
    exact .cons (.decision closes) .nil
  · intro frame member
    rw [sentOf_append, silent]
    rcases List.mem_pair.mp member with rfl | rfl
    · exact .deliver (List.mem_singleton_self _)
    · exact .finish _

/-- What a vote does. -/
theorem vote (stands : m.At i v s) (free : CollisionFree) (sound : SignaturesVerify) (j : ι) :
    m.Does i s (MosaicNode.onReceipt (m.receipt j)) (v.learn m.Enough (.vote j)) (v.answer m.Enough i (.vote j)) := by
  by_cases old : j ∈ v.heard
  · have same : v.learn m.Enough (.vote j) = v := by
      simp [Voter.learn, old]
    have none : v.answer m.Enough i (.vote j) = [] := by
      simp [Voter.answer, Voter.learn, old]
    rw [same, none]
    exact .done [] (MosaicNode.onReceipt_repeats ((stands.history j).mpr old)) (List.append_nil _).symm rfl stands
  have new : (m.receipt j).receiptId ∉ s.historyOf (m.receipt j) := fun member => old ((stands.history j).mp member)
  have noted := stands.noted j
  have written : (s.noted (m.receipt j)).log = s.log ++ [.put (.receipt (m.receipt j))] := rfl
  cases holds : v.holds with
  | false =>
    have same : v.learn m.Enough (.vote j) = { v with heard := insert j v.heard } := by
      simp [Voter.learn, holds]
    have none : v.answer m.Enough i (.vote j) = [] := by
      simp [Voter.answer, Voter.learn, holds]
    have missing : s.protocol.capsules.get? m.capsule.capsuleId = Option.none := by
      rw [stands.stored, holds]
      rfl
    have ran : MosaicNode.onReceipt (m.receipt j) s = .ok [] (s.noted (m.receipt j)) := by
      rw [MosaicNode.onReceipt_new new, receipt_capsuleId, missing]
      rfl
    rw [same, none]
    exact .done [.put (.receipt (m.receipt j))] ran rfl rfl noted
  | true =>
    have stored : s.protocol.capsules.get? m.capsule.capsuleId = some m.capsule := by
      rw [stands.stored, holds]
      rfl
    have counted := MosaicNode.onReceipt_counts new stored (stands.counts sound holds j)
    cases decided : v.decided with
    | true =>
      have same : v.learn m.Enough (.vote j) = { v with heard := insert j v.heard } := by
        simp [Voter.learn, decided]
      have none : v.answer m.Enough i (.vote j) = [] := by
        simp [Voter.answer, decided]
      rw [same, none]
      refine (noted.finishes m.capsule.capsuleId).after written rfl (counted.trans ?_)
      rw [MosaicNode.tryClose, bind_of_ok (get_apply _), noted.closed, if_pos decided]
    | false =>
      by_cases enough : m.Enough (insert j v.heard)
      · have same : v.learn m.Enough (.vote j) = { v with heard := insert j v.heard, decided := true } := by
          simp [Voter.learn, old, holds, enough]
        have some' : v.answer m.Enough i (.vote j) = [.decision] := by
          simp [Voter.answer, Voter.learn, old, holds, enough, decided]
        rw [same, some']
        exact (noted.closes free sound holds decided enough).after written rfl counted
      · have same : v.learn m.Enough (.vote j) = { v with heard := insert j v.heard } := by
          simp [Voter.learn, enough]
        have none : v.answer m.Enough i (.vote j) = [] := by
          simp [Voter.answer, Voter.learn, enough, decided]
        have light : MosaicNode.tryClose m.capsule (s.noted (m.receipt j)) = .ok [] (s.noted (m.receipt j)) := by
          obtain ⟨votes, distinct, heard, pool⟩ := noted.validPool sound holds
          refine MosaicNode.tryClose_light (noted.closed.trans decided) ?_
          rw [pool, noted.weightOf_map votes distinct, noted.threshold, heard]
          exact not_le.mp enough
        rw [same, none]
        exact .done [.put (.receipt (m.receipt j))] (counted.trans light) rfl rfl noted

/-- What a closure does. -/
theorem decision (stands : m.At i v s) (free : CollisionFree) (sound : SignaturesVerify) {closure : ClosureProof}
    (closes : m.Closes closure) : m.Does i s (MosaicNode.onClosure m.capsule closure) (v.learn m.Enough .decision)
      (v.answer m.Enough i .decision) := by
  obtain ⟨t, effects, settled, log, silent, after, -⟩ := stands.kept.settles free sound rfl closes
  have idle : ∀ entry ∈ t.pendingCapsules.entries, t.retryable entry.2 = false := by
    intro entry member
    have head := after.head
    rw [(after.waiting entry member).1, MosaicNode.retryable, after.known]
    dsimp only
    rw [head]
    exact decide_eq_false (m.next_other free)
  have retried : outcome (MosaicNode.retryFrom t.pendingCapsules.entries) t = .ok (.ok ([], [])) t :=
    outcome_of_ok (MosaicNode.retryFrom_idle idle)
  have written : t.log = s.log ++ (.put (.capsule m.capsule) :: effects) := by
    rw [log]
    simp
  exact (after.finishes m.capsule.capsuleId).after written silent
    ((MosaicNode.onClosure_run (outcome_of_ok settled)).trans (bind_of_ok retried))

theorem awaits (stands : m.At i v s) : m.Does i s (MosaicNode.awaitClosure m.capsule) v [] := by
  by_cases pending : s.pending.contains m.capsule.capsuleId = true
  · refine ((stands.aside (s.pending.erase m.capsule.capsuleId) s.log).replies m.capsule
      (.rejected (some m.capsule.capsuleId) "closure timeout")).after (List.append_nil _).symm rfl ?_
    rw [MosaicNode.awaitClosure, bind_of_ok (get_apply s), if_pos pending]
    rfl
  · have ran : MosaicNode.awaitClosure m.capsule s = .ok [] s := by
      rw [MosaicNode.awaitClosure, bind_of_ok (get_apply s), if_neg pending]
      rfl
    exact .done [] ran (List.append_nil _).symm rfl stands

end Motion.At

end Mosaic
