import Mosaic.ClosureExclusivity
import Mosaic.NodeRuns

namespace Mosaic
open CanonicalJson Effects

variable [Crypto]

/-- The votes among the receipts that a node has signed in all its incarnations. -/
def VotesIn (log : List Effect) (vote : Vote) : Prop :=
  ∃ receipt, .signed receipt ∈ log ∧ receipt.status = "ACCEPT" ∧ receipt.vote = vote

namespace MosaicNode

/-- The vote stands in the log, or its receipt was just signed. -/
def HasVoted (s : MosaicNode) (vote : Vote) : Prop := VotesIn s.log vote ∨ s.protocol.Voted vote

/-- The locks are never released, and no vote contradicts another one or a lock. -/
structure Pledged (s : MosaicNode) : Prop where
  locked : s.protocol.Locked
  kept : ∀ p lock, s.protocol.locks.get? p = some lock → lock.status = "ACCEPT"
  single : ∀ vote vote', s.HasVoted vote → s.HasVoted vote' → vote.predecessorId = vote'.predecessorId →
    vote.attempt = vote'.attempt → vote.capsuleId = vote'.capsuleId
  agrees : ∀ vote lock, s.HasVoted vote → s.protocol.locks.get? vote.predecessorId = some lock →
    vote.attempt = lock.attempt → vote.capsuleId = lock.capsuleId

/-- Locks stay, and what was voted since then was voted in this incarnation. -/
structure Since (s t : MosaicNode) : Prop where
  locks : ∀ p lock, s.protocol.locks.get? p = some lock → t.protocol.locks.get? p = some lock
  votes : ∀ vote, t.HasVoted vote → s.HasVoted vote ∨ t.protocol.Voted vote

variable {s t u : MosaicNode} {capsule : Capsule}

/-- Changes elsewhere do not matter. -/
theorem Pledged.congr (pledged : s.Pledged) (locks : t.protocol.locks = s.protocol.locks)
    (signed : t.protocol.signed = s.protocol.signed) (votes : ∀ vote, VotesIn t.log vote → VotesIn s.log vote) :
    t.Pledged := by
  have voted : ∀ vote, t.protocol.Voted vote → s.protocol.Voted vote := by
    rintro vote ⟨receipt, member, same⟩
    exact ⟨receipt, signed ▸ member, same⟩
  have hasVoted : ∀ vote, t.HasVoted vote → s.HasVoted vote := fun vote has => has.imp (votes vote) (voted vote)
  refine ⟨⟨fun vote has => ?_, fun vote vote' has has' => pledged.locked.single _ _ (voted _ has) (voted _ has')⟩,
    fun p lock held => pledged.kept p lock (locks ▸ held),
    fun vote vote' has has' => pledged.single _ _ (hasVoted _ has) (hasVoted _ has'),
    fun vote lock has held => pledged.agrees vote lock (hasVoted _ has) (locks ▸ held)⟩
  rw [locks]
  exact pledged.locked.covered vote (voted _ has)

theorem Since.congr (since : s.Since t) (locks : u.protocol.locks = t.protocol.locks)
    (signed : u.protocol.signed = t.protocol.signed) (votes : ∀ vote, VotesIn u.log vote → t.HasVoted vote) :
    s.Since u := by
  have voted : ∀ vote, t.protocol.Voted vote ↔ u.protocol.Voted vote := fun vote => by
    simp only [Instance.Voted, signed]
  refine ⟨fun p lock held => locks ▸ since.locks p lock held, fun vote has => ?_⟩
  rw [← voted vote]
  rcases has with old | new
  · exact since.votes vote (votes vote old)
  · exact Or.inr ((voted vote).mpr new)

omit [Crypto] in
theorem votesIn_append {log : List Effect} {effect : Effect} {vote : Vote} (has : VotesIn (log ++ [effect]) vote) :
    VotesIn log vote ∨ ∃ receipt, effect = .signed receipt ∧ receipt.status = "ACCEPT" ∧ receipt.vote = vote := by
  obtain ⟨receipt, member, status, same⟩ := has
  rcases List.mem_append.mp member with old | new
  · exact Or.inl ⟨receipt, old, status, same⟩
  · exact Or.inr ⟨receipt, (List.mem_singleton.mp new).symm, status, same⟩

/-- A free lock is taken for a capsule that no vote speaks against. -/
theorem Pledged.claim (pledged : t.Pledged) (free : t.protocol.locks.get? capsule.predecessorId = none)
    (safe : ∀ vote, t.HasVoted vote → vote.predecessorId = capsule.predecessorId →
      vote.attempt = capsule.attempt → vote.capsuleId = capsule.capsuleId) :
    (t.setProtocol (t.protocol.setLock capsule "ACCEPT")).Pledged := by
  have yields : ∀ lock, t.protocol.locks.get? capsule.predecessorId = some lock →
      lock.IsFor capsule ∨ lock.attempt < capsule.attempt := by
    intro lock held
    rw [free] at held
    cases held
  refine ⟨pledged.locked.setLock "ACCEPT" yields, fun p lock held => ?_, pledged.single, fun vote lock has held same => ?_⟩
  · change (t.protocol.locks.set _ _).get? p = some lock at held
    rcases Dict.origin_of_get?_set held with ⟨-, rfl⟩ | old
    · rfl
    · exact pledged.kept p lock old
  · change (t.protocol.locks.set _ _).get? vote.predecessorId = some lock at held
    rcases Dict.origin_of_get?_set held with ⟨here, rfl⟩ | old
    · exact safe vote has here same
    · exact pledged.agrees vote lock has old same

/-- The holder of the lock is voted for. -/
theorem Pledged.vote (pledged : t.Pledged) {receipt : WitnessReceipt} {lock : Lock}
    (held : t.protocol.locks.get? capsule.predecessorId = some lock) (mine : lock.IsFor capsule)
    (vote : receipt.vote = capsule.vote) : (t.setProtocol (t.protocol.addSigned receipt)).Pledged := by
  have split : ∀ v, (t.setProtocol (t.protocol.addSigned receipt)).HasVoted v → t.HasVoted v ∨ v = capsule.vote := by
    rintro v (old | new)
    · exact Or.inl (Or.inl old)
    · rcases Instance.voted_addSigned new with old | ⟨-, rfl⟩
      · exact Or.inl (Or.inr old)
      · exact Or.inr vote
  have own : ∀ v, t.HasVoted v → v.predecessorId = capsule.predecessorId → v.attempt = capsule.attempt →
      v.capsuleId = capsule.capsuleId := by
    intro v has samePredecessor sameAttempt
    have agrees := pledged.agrees v lock has (samePredecessor ▸ held) (sameAttempt.trans mine.2.symm)
    exact agrees.trans mine.1
  refine ⟨pledged.locked.addSigned held mine vote, pledged.kept, fun v v' has has' samePredecessor sameAttempt => ?_,
    fun v lock' has held' sameAttempt => ?_⟩
  · rcases split v has with old | rfl <;> rcases split v' has' with old' | rfl
    · exact pledged.single v v' old old' samePredecessor sameAttempt
    · exact own v old samePredecessor sameAttempt
    · exact (own v' old' samePredecessor.symm sameAttempt.symm).symm
    · rfl
  · rcases split v has with old | rfl
    · exact pledged.agrees v lock' old held' sameAttempt
    · cases held.symm.trans held'
      exact mine.1.symm

/-- Where the lock of the capsule's seal is free, no vote of an earlier
incarnation speaks against the capsule. -/
def Remembers (s : MosaicNode) (capsule : Capsule) : Prop :=
  s.protocol.locks.get? capsule.predecessorId = none → ∀ vote, VotesIn s.log vote →
    vote.predecessorId = capsule.predecessorId → vote.attempt = capsule.attempt → vote.capsuleId = capsule.capsuleId

end MosaicNode
open MosaicNode

/-- One change keeps the pledge, where every capsule that may be witnessed is safe
in the state before the step. -/
theorem NodeUpdate.pledged {s t u : MosaicNode} {event : NodeEvent} (update : NodeUpdate event t u)
    (start : s.Pledged) (pledged : t.Pledged) (since : s.Since t)
    (safe : ∀ capsule change, event = .witnessed capsule change → capsule.verifyClientSignature = true →
      s.Remembers capsule) : u.Pledged ∧ s.Since u := by
  -- a change that leaves locks, receipts and votes alone
  have same : u.protocol.locks = t.protocol.locks → u.protocol.signed = t.protocol.signed →
      (∀ vote, VotesIn u.log vote → VotesIn t.log vote) → u.Pledged ∧ s.Since u := fun locks signed votes =>
    ⟨pledged.congr locks signed votes, since.congr locks signed fun vote has => Or.inl (votes vote has)⟩
  have quiet : ∀ effect, u = t.logEffect effect → (∀ receipt, effect ≠ .signed receipt) → u.Pledged ∧ s.Since u := by
    rintro effect rfl silent
    refine same rfl rfl fun vote has => ?_
    rcases votesIn_append has with old | ⟨receipt, signed, -⟩
    · exact old
    · exact absurd signed (silent receipt)
  cases update with
  | stored | arrived =>
    refine same rfl rfl fun vote has => ?_
    rcases votesIn_append has with old | ⟨receipt, signed, -⟩
    · exact old
    · cases signed
  | keptReceipt | sent | finished | answered => exact quiet _ rfl (by simp)
  | @signed _ receipt mine =>
    have votes : ∀ vote, (t.logEffect (.signed receipt)).HasVoted vote → t.HasVoted vote := by
      rintro vote (old | new)
      · rcases votesIn_append old with old | ⟨_, ⟨⟩, status, same⟩
        · exact Or.inl old
        · exact Or.inr ⟨receipt, mine, status, same⟩
      · exact Or.inr new
    exact ⟨⟨pledged.locked, pledged.kept, fun v v' has has' => pledged.single v v' (votes v has) (votes v' has'),
      fun v lock has => pledged.agrees v lock (votes v has)⟩,
      since.congr rfl rfl fun vote has => votes vote (Or.inl has)⟩
  | closed settles known held =>
    obtain ⟨closures, currents, knowns, rfl⟩ := settles.frame
    refine same rfl rfl ?_
    rintro vote ⟨receipt, member, voted⟩
    refine ⟨receipt, ?_, voted⟩
    rcases List.mem_append.mp member with old | new
    · exact old
    · simp [closingRows] at new
  | @stranded _ capsule closure strands =>
    obtain ⟨closures, frame⟩ := t.protocol.withClosure_frame capsule closure
    rw [frame] at same ⊢
    exact same rfl rfl fun _ has => has
  | witnessed seen kind change =>
    cases change with
    | @claimed _ capsule valid head free =>
      obtain ⟨rfl, -⟩ := kind
      have unlocked : t.protocol.locks.get? capsule.predecessorId = none := by
        by_contra held
        obtain ⟨lock, held⟩ := Option.ne_none_iff_exists'.mp held
        exact absurd (pledged.kept _ _ held) ((free lock held).1 ▸ by decide)
      have unlockedBefore : s.protocol.locks.get? capsule.predecessorId = none := by
        by_contra held
        obtain ⟨lock, held⟩ := Option.ne_none_iff_exists'.mp held
        cases unlocked.symm.trans (since.locks _ _ held)
      -- a vote of this incarnation would have left a lock
      have fresh : ∀ (w : MosaicNode), w.Pledged → w.protocol.locks.get? capsule.predecessorId = none →
          ∀ vote, vote.predecessorId = capsule.predecessorId → ¬ w.protocol.Voted vote := by
        intro w pledged free vote here voted
        obtain ⟨lock, held, -⟩ := pledged.locked.covered vote voted
        cases free.symm.trans (here ▸ held)
      refine ⟨pledged.claim unlocked fun vote has here sameAttempt => ?_, fun p lock held => ?_, since.votes⟩
      · rcases since.votes vote has with (old | earlier) | new
        · exact safe capsule _ rfl valid.signature unlockedBefore vote old here sameAttempt
        · exact absurd earlier (fresh s start unlockedBefore vote here)
        · exact absurd new (fresh t pledged unlocked vote here)
      · refine (Dict.get?_set_of_ne _ _ ?_).trans (since.locks p lock held)
        rintro rfl
        cases unlockedBefore.symm.trans held
    | released => exact absurd kind.2 (by decide)
    | contested => exact same rfl rfl fun _ has => has
    | signed valid known loaded held mine accepting abandoning either =>
      obtain ⟨rfl, -⟩ := kind
      refine ⟨pledged.vote held mine rfl, since.locks, fun vote has => ?_⟩
      rcases has with old | new
      · rcases since.votes vote (Or.inl old) with earlier | ⟨r, member, voted⟩
        · exact Or.inl earlier
        · exact Or.inr ⟨r, List.mem_append_left _ member, voted⟩
      · exact Or.inr new
    | _ => exact kind.elim
  | _ => exact same rfl rfl fun _ has => has

omit [Crypto] in
theorem VotesIn.of_take {log : List Effect} {k : Nat} {vote : Vote} (has : VotesIn (log.take k) vote) :
    VotesIn log vote := by
  obtain ⟨receipt, member, voted⟩ := has
  exact ⟨receipt, List.mem_of_mem_take member, voted⟩

theorem NodeConfig.protocol_frame (config : NodeConfig) : ∃ currents knowns, config.protocol =
    { Instance.fresh config.members config.epoch with currentSeals := currents, knownSeals := knowns } :=
  Instance.foldl_installSeal config.initialSeals _

/-- A started node has no locks and has signed nothing. -/
theorem NodeConfig.start_pledged (config : NodeConfig) {log : List Effect}
    (single : ∀ vote vote', VotesIn log vote → VotesIn log vote' → vote.predecessorId = vote'.predecessorId →
      vote.attempt = vote'.attempt → vote.capsuleId = vote'.capsuleId) : (config.start log).node.Pledged := by
  obtain ⟨closures, seen, pool, restored⟩ := (config.fresh log).restore_frame
  obtain ⟨currents, knowns, same⟩ := config.protocol_frame
  rw [← NodeConfig.start_node] at restored
  generalize (config.start log).node = s at restored
  have locks : s.protocol.locks = .empty := by
    rw [restored]
    simp [same]
  have signed : s.protocol.signed = [] := by
    rw [restored]
    simp [same]
  have kept : s.log = log := by
    rw [restored]
    rfl
  have voted : ∀ vote, s.HasVoted vote → VotesIn log vote := by
    rintro vote (old | ⟨receipt, member, -⟩)
    · rwa [kept] at old
    · rw [signed] at member
      cases member
  refine ⟨.of_unsigned signed, fun p lock held => ?_, fun vote vote' has has' => single _ _ (voted _ has) (voted _ has'),
    fun vote lock _ held => ?_⟩ <;>
  · rw [locks] at held
    cases held

/-- Every capsule that the step may witness is remembered. -/
def Running.Remembers (s : Running) (event : LifeEvent) : Prop :=
  ∀ frame, event.taken.frame s = some frame → ∀ capsule, s.node.Candidate frame capsule →
    capsule.verifyClientSignature = true → s.node.Remembers capsule

/-- Within an allowed step the pledge is kept. -/
theorem NodeTrace.pledged {s : Running} {event : LifeEvent} (remembers : s.Remembers event) (start : s.node.Pledged)
    {u : MosaicNode} (trace : NodeTrace (s.Causes event.taken) s.node u) : u.Pledged ∧ s.node.Since u := by
  refine trace.invariant (I := fun u => u.Pledged ∧ s.node.Since u) ⟨start, fun _ _ held => held, fun _ => Or.inl⟩ ?_
  rintro change u v ⟨frame, run, cause⟩ update ⟨pledged, since⟩
  refine update.pledged start pledged since fun capsule event' same signature => ?_
  subst same
  exact remembers frame run capsule cause signature

/-- Over all its restarts a node that only witnesses what its lost locks allow
accepts one capsule for each seal and attempt. -/
theorem accepts_one_across_restarts {config : NodeConfig} {s : Running} (life : Life config Running.Remembers s)
    {receipt receipt' : WitnessReceipt} (signed : .signed receipt ∈ s.node.log) (signed' : .signed receipt' ∈ s.node.log)
    (status : receipt.status = "ACCEPT") (status' : receipt'.status = "ACCEPT")
    (samePredecessor : receipt.predecessorId = receipt'.predecessorId) (sameAttempt : receipt.attempt = receipt'.attempt) :
    receipt.capsuleId = receipt'.capsuleId := by
  have none : ∀ vote, ¬ VotesIn [] vote := by
    rintro vote ⟨receipt, member, -⟩
    cases member
  have pledged : s.node.Pledged := by
    refine life.invariant (config.start_pledged fun vote _ has => absurd has (none vote)) ?_ ?_
    · intro s event remembers before u trace
      exact (trace.pledged remembers before).1
    · intro s event remembers before u trace
      have pledged := (trace.pledged remembers before).1
      refine ⟨config.start_pledged fun v v' has has' => pledged.single v v' (Or.inl has) (Or.inl has'),
        fun change v k cause update _ => config.start_pledged fun w w' has has' => ?_⟩
      have pledged := (NodeTrace.pledged remembers before (trace.tail ⟨change, cause, update⟩)).1
      exact pledged.single w w' (Or.inl has.of_take) (Or.inl has'.of_take)
  exact pledged.single receipt.vote receipt'.vote (Or.inl ⟨receipt, signed, status, rfl⟩)
    (Or.inl ⟨receipt', signed', status', rfl⟩) samePredecessor sameAttempt

section Solo
variable (pair : KeyPair)

/-- The node of the only member, for one resource. -/
def soloConfig : NodeConfig where
  nodeId := "w"
  maxPendingCapsules := 10000
  members := (soloStart pair).members
  epoch := 0
  initialSeals := [soloSeal pair "p"]

/-- The capsule arrives and is accepted. -/
def soloClaim (root : String) : LifeEvent := .input (.receive (.capsule (soloCapsule pair "p" root 0)))

/-- Nothing is under way when the node stops. -/
def soloRestart : LifeEvent := .crash (.resume 1) 0

/-- What the node does when it accepts the capsule. -/
def acceptance (root : String) : List Effect :=
  let capsule := soloCapsule pair "p" root 0
  [.put (.capsule capsule), .signed (soloReceipt pair capsule "ACCEPT"),
    .sent (.receipt (soloReceipt pair capsule "ACCEPT"))]

/-- The node when it has accepted the capsule. -/
@[simps]
def acceptedBy (s : MosaicNode) (root : String) : MosaicNode :=
  let capsule := soloCapsule pair "p" root 0
  { s with
    seenCapsules := insert capsule.capsuleId s.seenCapsules
    protocol := ((s.protocol.storeCapsule capsule).setLock capsule "ACCEPT").addSigned (soloReceipt pair capsule "ACCEPT")
    log := s.log ++ acceptance pair root }

variable {pair}

theorem soloClaim_node (sound : SignaturesVerify) {s : Running} {root : String} (proper : root ≠ "")
    (name : s.node.nodeId = "w") (ready : SoloReady pair s.node.protocol "p")
    (unseen : (soloCapsule pair "p" root 0).capsuleId ∉ s.node.seenCapsules)
    (free : s.node.protocol.locks.get? (soloSeal pair "p").sealId = none) :
    ((soloClaim pair root).exec (soloConfig pair) s).node = acceptedBy pair s.node root := by
  have accepted := MosaicNode.onCapsule_accepts unseen (ready.valid sound proper (by decide)) (ready.atHead root 0)
    free (name ▸ ready.member) rfl
  have node := final_of_ok accepted
  simp only [soloClaim, LifeEvent.exec, Input.exec, Running.receive, node]
  simp [acceptedBy, acceptance, soloReceipt, MosaicNode.setProtocol, MosaicNode.logEffect, MosaicNode.addSeen]

theorem start_acceptance (root : String) : ((soloConfig pair).start (acceptance pair root)).node =
    ((soloConfig pair).fresh (acceptance pair root)).restoreCapsule (soloCapsule pair "p" root 0) := by
  simp only [NodeConfig.start_node, MosaicNode.restore, items, rowsOf, acceptance, NodeConfig.fresh_log,
    List.filterMap_cons, List.filterMap_nil, Row.sealKnown?, Row.sealCurrent?, Row.capsule?, Row.receipt?, Row.closure?]
  rfl

variable (pair)

/-- The node accepts a capsule, restarts, and meets a second capsule on the same seal. -/
def reclaimed : List LifeEvent := [soloClaim pair "a", soloRestart, soloClaim pair "b"]

def afterReclaim : Running :=
  (reclaimed pair).foldl (fun s event => event.exec (soloConfig pair) s) ((soloConfig pair).start [])

variable {pair}

theorem soloStart_ready : SoloReady pair ((soloConfig pair).start []).node.protocol "p" :=
  ⟨rfl, rfl, Dict.get?_set_self _ _ _, rfl⟩

theorem afterClaim_log (sound : SignaturesVerify) :
    ((soloClaim pair "a").exec (soloConfig pair) ((soloConfig pair).start [])).node.log = acceptance pair "a" := by
  rw [soloClaim_node sound (by decide) rfl soloStart_ready (Finset.notMem_empty _) rfl]
  rfl

theorem afterReclaim_log (free : CollisionFree) (sound : SignaturesVerify) :
    (afterReclaim pair).node.log = acceptance pair "a" ++ acceptance pair "b" := by
  have ready : SoloReady pair ((soloConfig pair).fresh (acceptance pair "a")).protocol "p" :=
    ⟨rfl, rfl, Dict.get?_set_self _ _ _, rfl⟩
  have other : (soloCapsule pair "p" "b" 0).capsuleId ≠ (soloCapsule pair "p" "a" 0).capsuleId := fun same =>
    absurd (soloCapsule_inj free same).2.1 (by decide)
  have claimed := @afterClaim_log _ pair sound
  unfold afterReclaim reclaimed
  simp only [List.foldl_cons, List.foldl_nil, soloRestart]
  rw [LifeEvent.exec_crash_zero, claimed, soloClaim_node sound (by decide), acceptedBy_log, NodeConfig.start_node,
    MosaicNode.restore_log, NodeConfig.fresh_log]
  · rw [start_acceptance]
    rfl
  · rw [start_acceptance]
    exact ⟨ready.members, ready.epoch, ready.known, ready.current⟩
  · rw [start_acceptance]
    simpa [MosaicNode.restoreCapsule, NodeConfig.fresh] using other
  · rw [start_acceptance]
    rfl

variable (pair)

/-- The node accepts a capsule and restarts. -/
def claimed : List LifeEvent := [soloClaim pair "a", soloRestart]

def afterClaim : Running :=
  (claimed pair).foldl (fun s event => event.exec (soloConfig pair) s) ((soloConfig pair).start [])

variable {pair}

theorem afterClaim_life : Life (soloConfig pair) Running.Remembers (afterClaim pair) := by
  unfold afterClaim claimed
  simp only [List.foldl_cons, List.foldl_nil]
  refine GuardedRun.tail (GuardedRun.tail GuardedRun.refl ?_) ?_
  · intro frame run capsule candidate _ _ vote has
    obtain ⟨receipt, member, -⟩ := has
    cases member
  · intro frame run
    simp only [LifeEvent.exec, soloRestart, LifeEvent.taken, Input.frame, soloClaim, Input.exec, Running.receive,
      NodeConfig.start] at run
    cases run

theorem afterClaim_signed (sound : SignaturesVerify) :
    .signed (soloReceipt pair (soloCapsule pair "p" "a" 0) "ACCEPT") ∈ (afterClaim pair).node.log := by
  unfold afterClaim claimed
  simp only [List.foldl_cons, List.foldl_nil, soloRestart]
  rw [LifeEvent.exec_crash_zero, afterClaim_log sound, NodeConfig.start_node, MosaicNode.restore_log]
  simp [acceptance]

theorem afterReclaim_life : Life (soloConfig pair) (fun _ _ => True) (afterReclaim pair) :=
  .of_inputs (fun _ _ => trivial) _

theorem afterReclaim_signed (free : CollisionFree) (sound : SignaturesVerify) {root : String}
    (either : root = "a" ∨ root = "b") :
    .signed (soloReceipt pair (soloCapsule pair "p" root 0) "ACCEPT") ∈ (afterReclaim pair).node.log := by
  rw [afterReclaim_log free sound]
  rcases either with rfl | rfl <;> simp [acceptance]

/-- The receipts for two capsules on the seal differ in the capsule only. -/
theorem acceptances_alike (root root' : String) :
    (soloReceipt pair (soloCapsule pair "p" root 0) "ACCEPT").status = "ACCEPT" ∧
      (soloReceipt pair (soloCapsule pair "p" root 0) "ACCEPT").predecessorId =
        (soloReceipt pair (soloCapsule pair "p" root' 0) "ACCEPT").predecessorId ∧
      (soloReceipt pair (soloCapsule pair "p" root 0) "ACCEPT").attempt =
        (soloReceipt pair (soloCapsule pair "p" root' 0) "ACCEPT").attempt := by
  simp [soloReceipt, Instance.signedReceipt, Instance.receiptOf]

omit [Crypto] in
/-- The only capsule so far may be accepted, and the restart is no danger then. -/
theorem accepts_one_across_restarts_solo : let _ := Crypto.ideal
    ∃ receipt : WitnessReceipt, .signed receipt ∈ (afterClaim idealKey).node.log ∧ receipt.status = "ACCEPT" ∧
      ∀ other : WitnessReceipt, .signed other ∈ (afterClaim idealKey).node.log → other.status = "ACCEPT" →
        receipt.predecessorId = other.predecessorId → receipt.attempt = other.attempt →
        receipt.capsuleId = other.capsuleId := by
  have life := @afterClaim_life Crypto.ideal idealKey
  have signed := @afterClaim_signed Crypto.ideal idealKey ideal_signaturesVerify
  exact ⟨_, signed, rfl, fun other member status predecessor attempt =>
    @accepts_one_across_restarts Crypto.ideal _ _ life _ _ signed member rfl status predecessor attempt⟩

omit [Crypto] in
/-- A restarted node has forgotten its locks: it accepts a second capsule for the
seal and the attempt of a capsule that it accepted before. -/
theorem accepts_two_across_a_restart : ¬ ∀ [Crypto], CollisionFree → SignaturesVerify →
    ∀ (config : NodeConfig) (s : Running), Life config (fun _ _ => True) s →
      ∀ receipt receipt' : WitnessReceipt, .signed receipt ∈ s.node.log → .signed receipt' ∈ s.node.log →
        receipt.status = "ACCEPT" → receipt'.status = "ACCEPT" → receipt.predecessorId = receipt'.predecessorId →
        receipt.attempt = receipt'.attempt → receipt.capsuleId = receipt'.capsuleId := by
  intro claim
  have free := ideal_collisionFree
  have first := @afterReclaim_signed Crypto.ideal idealKey free ideal_signaturesVerify "a" (Or.inl rfl)
  have second := @afterReclaim_signed Crypto.ideal idealKey free ideal_signaturesVerify "b" (Or.inr rfl)
  obtain ⟨status, predecessor, attempt⟩ := @acceptances_alike Crypto.ideal idealKey "a" "b"
  obtain ⟨status', -⟩ := @acceptances_alike Crypto.ideal idealKey "b" "a"
  have same := @claim Crypto.ideal free ideal_signaturesVerify _ _ (@afterReclaim_life Crypto.ideal idealKey) _ _
    first second status status' predecessor attempt
  exact absurd (@soloCapsule_inj Crypto.ideal idealKey _ free _ _ _ _ _ same).2.1 (by decide)

end Solo

end Mosaic
