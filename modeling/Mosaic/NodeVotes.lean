import Mosaic.NodeRestart
import Mosaic.NodeSeals

namespace Mosaic
open CanonicalJson Effects

variable [Crypto]

namespace MosaicNode

/-- There is one vote for each seal over all attempts, and a lock on the seal is held
for this vote. -/
structure Sworn (s : MosaicNode) : Prop where
  pledged : s.Pledged
  one : ∀ vote vote', s.HasVoted vote → s.HasVoted vote' → vote.predecessorId = vote'.predecessorId → vote = vote'
  lock : ∀ vote lock, s.HasVoted vote → s.protocol.locks.get? vote.predecessorId = some lock →
    vote.capsuleId = lock.capsuleId ∧ vote.attempt = lock.attempt

/-- Where the lock of the capsule's seal is free, no earlier incarnation voted on the
seal for anything else. -/
def Recalls (s : MosaicNode) (capsule : Capsule) : Prop :=
  s.protocol.locks.get? capsule.predecessorId = none → ∀ vote, VotesIn s.log vote →
    vote.predecessorId = capsule.predecessorId → vote = capsule.vote

variable {s t u : MosaicNode} {capsule : Capsule}

theorem Recalls.remembers (recalls : s.Recalls capsule) : s.Remembers capsule := by
  intro free vote has here _
  rw [recalls free vote has here]
  rfl

/-- Neither a new lock nor a new vote. -/
theorem Sworn.congr (sworn : t.Sworn) (pledged : u.Pledged) (locks : u.protocol.locks = t.protocol.locks)
    (votes : ∀ vote, u.HasVoted vote → t.HasVoted vote) : u.Sworn := by
  refine ⟨pledged, fun vote vote' has has' => sworn.one vote vote' (votes vote has) (votes vote' has'), ?_⟩
  intro vote lock has held
  rw [locks] at held
  exact sworn.lock vote lock (votes vote has) held

/-- The free lock of a seal is taken, on which there are no other votes. -/
theorem Sworn.claim (sworn : t.Sworn) (pledged : (t.setProtocol (t.protocol.setLock capsule "ACCEPT")).Pledged)
    (safe : ∀ vote, t.HasVoted vote → vote.predecessorId = capsule.predecessorId → vote = capsule.vote) :
    (t.setProtocol (t.protocol.setLock capsule "ACCEPT")).Sworn := by
  refine ⟨pledged, sworn.one, fun vote lock has held => ?_⟩
  change (t.protocol.locks.set _ _).get? vote.predecessorId = some lock at held
  rcases Dict.origin_of_get?_set held with ⟨here, rfl⟩ | old
  · rw [safe vote has here]
    exact ⟨rfl, rfl⟩
  · exact sworn.lock vote lock has old

/-- The vote that the lock stands for. -/
theorem Sworn.vote (sworn : t.Sworn) (pledged : u.Pledged) {lock : Lock}
    (held : t.protocol.locks.get? capsule.predecessorId = some lock) (mine : lock.IsFor capsule)
    (locks : u.protocol.locks = t.protocol.locks)
    (votes : ∀ vote, u.HasVoted vote → t.HasVoted vote ∨ vote = capsule.vote) : u.Sworn := by
  have own : ∀ vote, t.HasVoted vote → vote.predecessorId = capsule.predecessorId → vote = capsule.vote := by
    intro vote has here
    obtain ⟨id, attempt⟩ := sworn.lock vote lock has (here ▸ held)
    obtain ⟨predecessorId, _, _⟩ := vote
    simp only [Capsule.vote, Vote.mk.injEq]
    exact ⟨here, attempt.trans mine.2, id.trans mine.1⟩
  refine ⟨pledged, fun vote vote' has has' same => ?_, fun vote lock' has held' => ?_⟩
  · rcases votes vote has with old | rfl <;> rcases votes vote' has' with old' | rfl
    · exact sworn.one vote vote' old old' same
    · exact own vote old same
    · exact (own vote' old' same.symm).symm
    · rfl
  · rw [locks] at held'
    rcases votes vote has with old | rfl
    · exact sworn.lock vote lock' old held'
    · cases held.symm.trans held'
      exact ⟨mine.1.symm, mine.2.symm⟩

end MosaicNode
open MosaicNode

/-- What a change does to the locks and to the votes. -/
theorem NodeUpdate.votes {event : NodeEvent} {t u : MosaicNode} (update : NodeUpdate event t u) :
    (u.protocol.locks = t.protocol.locks ∧ ∀ vote, u.HasVoted vote → t.HasVoted vote) ∨
      ∃ capsule change, event = .witnessed capsule change ∧ capsule.verifyClientSignature = true ∧
        (((∀ lock, t.protocol.locks.get? capsule.predecessorId = some lock → lock.Released capsule) ∧
            u = t.setProtocol (t.protocol.setLock capsule "ACCEPT")) ∨
          (∃ lock, t.protocol.locks.get? capsule.predecessorId = some lock ∧ lock.IsFor capsule) ∧
            u.protocol.locks = t.protocol.locks ∧ ∀ vote, u.HasVoted vote → t.HasVoted vote ∨ vote = capsule.vote) := by
  -- effects that are no receipts
  have quiet : ∀ (v : MosaicNode) (effects : List Effect), (∀ receipt, .signed receipt ∉ effects) →
      v.log = t.log ++ effects → v.protocol.signed = t.protocol.signed → ∀ vote, v.HasVoted vote → t.HasVoted vote := by
    rintro v effects silent log signed vote (⟨receipt, member, voted⟩ | ⟨receipt, member, voted⟩)
    · rw [log, List.mem_append] at member
      exact Or.inl ⟨receipt, member.resolve_right (silent receipt), voted⟩
    · exact Or.inr ⟨receipt, signed ▸ member, voted⟩
  cases update with
  | stored | arrived | keptReceipt | sent | finished | answered =>
    exact Or.inl ⟨rfl, quiet _ _ (by simp) rfl rfl⟩
  | @signed _ receipt mine =>
    refine Or.inl ⟨rfl, ?_⟩
    rintro vote (old | new)
    · rcases votesIn_append old with old | ⟨_, ⟨⟩, status, same⟩
      · exact Or.inl old
      · exact Or.inr ⟨receipt, mine, status, same⟩
    · exact Or.inr new
  | closed settles known held =>
    obtain ⟨closures, currents, knowns, rfl⟩ := settles.frame
    exact Or.inl ⟨rfl, quiet _ _ (by simp [closingRows]) rfl rfl⟩
  | @stranded _ capsule closure strands =>
    obtain ⟨closures, frame⟩ := t.protocol.withClosure_frame capsule closure
    rw [frame]
    exact Or.inl ⟨rfl, fun _ has => has⟩
  | @witnessed _ capsule change p seen kind changed =>
    cases changed with
    | claimed valid head free =>
      obtain ⟨rfl, -⟩ := kind
      exact Or.inr ⟨_, _, rfl, valid.signature, Or.inl ⟨free, rfl⟩⟩
    | released => exact absurd kind.2 (by decide)
    | contested => exact Or.inl ⟨rfl, fun _ has => has⟩
    | signed valid known loaded held mine accepting abandoning either =>
      obtain ⟨rfl, -⟩ := kind
      refine Or.inr ⟨_, _, rfl, valid.signature, Or.inr ⟨⟨_, held, mine⟩, rfl, ?_⟩⟩
      rintro vote (old | new)
      · exact Or.inl (Or.inl old)
      · rcases Instance.voted_addSigned new with old | ⟨-, rfl⟩
        · exact Or.inl (Or.inr old)
        · exact Or.inr rfl
    | _ => exact kind.elim
  | _ => exact Or.inl ⟨rfl, fun _ has => has⟩

/-- One change keeps the oath, where what may be witnessed is recalled in the state
before the step. -/
theorem NodeUpdate.sworn {s t u : MosaicNode} {event : NodeEvent} (update : NodeUpdate event t u) (start : s.Sworn)
    (sworn : t.Sworn) (since : s.Since t) (recalls : ∀ capsule change, event = .witnessed capsule change →
      capsule.verifyClientSignature = true → s.Recalls capsule) : u.Sworn ∧ s.Since u := by
  obtain ⟨pledged, later⟩ := update.pledged start.pledged sworn.pledged since fun capsule change same signature =>
    (recalls capsule change same signature).remembers
  refine ⟨?_, later⟩
  rcases update.votes with ⟨locks, votes⟩ | ⟨capsule, change, same, signature, ⟨free, rfl⟩ | ⟨⟨lock, held, mine⟩, locks, votes⟩⟩
  · exact sworn.congr pledged locks votes
  · -- all locks are for acceptance, so the lock was never taken
    have unlocked : t.protocol.locks.get? capsule.predecessorId = none := by
      by_contra held
      obtain ⟨lock, held⟩ := Option.ne_none_iff_exists'.mp held
      exact absurd (sworn.pledged.kept _ _ held) ((free lock held).1 ▸ by decide)
    have unlockedBefore : s.protocol.locks.get? capsule.predecessorId = none := by
      by_contra held
      obtain ⟨lock, held⟩ := Option.ne_none_iff_exists'.mp held
      cases unlocked.symm.trans (since.locks _ _ held)
    have silent : ∀ (w : MosaicNode), w.Pledged → w.protocol.locks.get? capsule.predecessorId = none →
        ∀ vote, vote.predecessorId = capsule.predecessorId → ¬ w.protocol.Voted vote := by
      intro w pledged free vote here voted
      obtain ⟨lock, held, -⟩ := pledged.locked.covered vote voted
      cases free.symm.trans (here ▸ held)
    refine sworn.claim pledged fun vote has here => ?_
    rcases since.votes vote has with (old | earlier) | new
    · exact recalls capsule change same signature unlockedBefore vote old here
    · exact absurd earlier (silent s start.pledged unlockedBefore vote here)
    · exact absurd new (silent t sworn.pledged unlocked vote here)
  · exact sworn.vote pledged held mine locks votes

/-- Every capsule that the step may witness is recalled. -/
def Running.Recalls (s : Running) (event : LifeEvent) : Prop :=
  ∀ frame, event.taken.frame s = some frame → ∀ capsule, s.node.Candidate frame capsule →
    capsule.verifyClientSignature = true → s.node.Recalls capsule

theorem NodeTrace.sworn {s : Running} {event : LifeEvent} (recalls : s.Recalls event) (start : s.node.Sworn)
    {u : MosaicNode} (trace : NodeTrace (s.Causes event.taken) s.node u) : u.Sworn := by
  refine (trace.invariant (I := fun u => u.Sworn ∧ s.node.Since u) ⟨start, fun _ _ held => held, fun _ => Or.inl⟩ ?_).1
  rintro change u v ⟨frame, run, cause⟩ update ⟨sworn, since⟩
  refine update.sworn start sworn since fun capsule event' same signature => ?_
  subst same
  exact recalls frame run capsule cause signature

/-- A node that starts with a log of single votes. -/
theorem NodeConfig.start_sworn (config : NodeConfig) {log : List Effect}
    (one : ∀ vote vote', VotesIn log vote → VotesIn log vote' → vote.predecessorId = vote'.predecessorId → vote = vote') :
    (config.start log).node.Sworn := by
  have pledged : (config.start log).node.Pledged := config.start_pledged fun vote vote' has has' here _ =>
    congrArg Vote.capsuleId (one vote vote' has has' here)
  obtain ⟨closures, seen, pool, restored⟩ := (config.fresh log).restore_frame
  obtain ⟨currents, knowns, same⟩ := config.protocol_frame
  rw [← NodeConfig.start_node] at restored
  generalize (config.start log).node = s at restored pledged
  have locks : s.protocol.locks = .empty := by
    rw [restored]
    simp [same]
  have kept : s.log = log := by
    rw [restored]
    rfl
  have voted : ∀ vote, s.HasVoted vote → VotesIn log vote := by
    rintro vote (old | now)
    · rwa [kept] at old
    · obtain ⟨lock, held, -⟩ := pledged.locked.covered vote now
      rw [locks] at held
      cases held
  refine ⟨pledged, fun vote vote' has has' => one vote vote' (voted vote has) (voted vote' has'), fun vote lock _ held => ?_⟩
  rw [locks] at held
  cases held

theorem Life.sworn {config : NodeConfig} {allowed : Running → LifeEvent → Prop} {s : Running}
    (life : Life config allowed s) (recalls : ∀ s event, allowed s event → s.Recalls event) : s.node.Sworn := by
  have none : ∀ vote, ¬ VotesIn [] vote := by
    rintro vote ⟨receipt, member, -⟩
    cases member
  refine life.invariant (config.start_sworn fun vote _ has => absurd has (none vote)) ?_ ?_
  · intro s event ok before u trace
    exact trace.sworn (recalls s event ok) before
  · intro s event ok before u trace
    have sworn := trace.sworn (recalls s event ok) before
    refine ⟨config.start_sworn fun vote vote' has has' => sworn.one vote vote' (Or.inl has) (Or.inl has'), ?_⟩
    intro change v k cause update _
    have after := NodeTrace.sworn (recalls s event ok) before (trace.tail ⟨change, cause, update⟩)
    exact config.start_sworn fun vote vote' has has' => after.one vote vote' (Or.inl has.of_take) (Or.inl has'.of_take)

/-- What holds after the changes that an input can cause, and after the restarts that
they leave room for, holds after the event. -/
theorem LifeEvent.exec_invariant {config : NodeConfig} {I : MosaicNode → Prop} {s : Running} (event : LifeEvent)
    (step : ∀ u, NodeTrace (s.Causes event.taken) s.node u → I u)
    (restart : ∀ u, NodeTrace (s.Causes event.taken) s.node u → I (config.start u.log).node ∧
      ∀ change v k, s.Causes event.taken change → NodeUpdate change u v → u.log.length < k →
        I (config.start (v.log.take k)).node) : I (event.exec config s).node := by
  have trace := event.taken.exec_trace s
  cases event with
  | input input => exact step _ trace
  | crash input effects =>
    obtain ⟨u, reached, cut⟩ := trace.take (Nat.le_add_right s.node.log.length effects)
    obtain ⟨whole, part⟩ := restart u reached
    show I (config.start _).node
    rcases cut with same | ⟨change, v, cause, update, later, same⟩
    · exact same.symm ▸ whole
    · exact same.symm ▸ part change v _ cause update later

theorem MosaicNode.Sealed.mono {K L : Capsule → Prop} {initial : List StateSeal} {s : MosaicNode}
    (sealed : s.Sealed K initial) (more : ∀ capsule, K capsule → L capsule) : s.Sealed L initial := by
  have origin : ∀ known, Installed K initial known → Installed L initial known := by
    rintro known (first | ⟨old, capsule, kind, made⟩)
    · exact Or.inl first
    · exact Or.inr ⟨old, capsule, more capsule kind, made⟩
  exact ⟨sealed.chained, sealed.keyed, fun k known found => origin known (sealed.known k known found),
    fun known row => origin known (sealed.rows known row), sealed.filed⟩

theorem LifeEvent.exec_sealed {K : Capsule → Prop} {config : NodeConfig} {s : Running} {event : LifeEvent}
    (free : CollisionFree) (applies : s.Applies K event) (sealed : s.node.Sealed K config.initialSeals) :
    (event.exec config s).node.Sealed K config.initialSeals := by
  refine event.exec_invariant (fun u trace => trace.sealed free applies sealed) fun u trace => ?_
  have before := trace.sealed free applies sealed
  refine ⟨config.start_sealed free before.rows before.filed, fun change v k cause update later => ?_⟩
  have after := NodeTrace.sealed free applies sealed (trace.tail ⟨change, cause, update⟩)
  exact config.start_sealed free (fun known member => after.rows known (List.mem_of_mem_take member))
    (update.filed_take later before.filed after.filed)

/-- No event takes anything off the log. -/
theorem LifeEvent.exec_log (config : NodeConfig) (event : LifeEvent) (s : Running) :
    s.node.log <+: (event.exec config s).node.log := by
  obtain ⟨later, same⟩ := (event.taken.exec_trace s).log_extends
  cases event with
  | input input => exact ⟨later, same⟩
  | crash input effects =>
    simp only [LifeEvent.exec, NodeConfig.start_node, MosaicNode.restore_log, NodeConfig.fresh_log]
    refine ⟨later.take effects, ?_⟩
    rw [← (show s.node.log ++ later = (input.exec s).node.log from same), List.take_length_add_append]

end Mosaic
