import Mosaic.NodeSeals

namespace Mosaic
open CanonicalJson Effects

/-- A capsule of this identifier was put into the store. -/
def KeptIn (log : List Effect) (capsuleId : String) : Prop :=
  ∃ capsule : Capsule, .put (.capsule capsule) ∈ log ∧ capsule.capsuleId = capsuleId

theorem KeptIn.append {log : List Effect} {capsuleId : String} (kept : KeptIn log capsuleId) (effects : List Effect) :
    KeptIn (log ++ effects) capsuleId := by
  obtain ⟨capsule, member, named⟩ := kept
  exact ⟨capsule, List.mem_append_left _ member, named⟩

theorem Row.capsule?_eq {row : Row} {key : String} {capsule : Capsule} :
    row.capsule? = some (key, capsule) ↔ row = .capsule capsule ∧ capsule.capsuleId = key := by
  cases row <;> simp [Row.capsule?]
  grind

theorem mem_items_capsule {log : List Effect} {capsule : Capsule} (member : capsule ∈ items log Row.capsule?) :
    .put (.capsule capsule) ∈ log := by
  obtain ⟨row, key, inLog, picked⟩ := mem_items member
  obtain ⟨rfl, -⟩ := Row.capsule?_eq.mp picked
  exact inLog

variable [Crypto]

/-- The capsules that a node stores, keeps or waits for are of the kind `K`, and
what it stores or has seen it has kept. -/
structure MosaicNode.Holds (K : Capsule → Prop) (s : MosaicNode) : Prop where
  key : ∀ k capsule, s.protocol.capsules.get? k = some capsule → capsule.capsuleId = k
  stored : ∀ k capsule, s.protocol.capsules.get? k = some capsule → K capsule
  kept : ∀ k capsule, s.protocol.capsules.get? k = some capsule → KeptIn s.log k
  seen : ∀ k ∈ s.seenCapsules, KeptIn s.log k
  rows : ∀ capsule, .put (.capsule capsule) ∈ s.log → K capsule
  waiting : ∀ k capsule, s.pendingCapsules.get? k = some capsule → K capsule
  pending : ∀ k capsule, s.pending.get? k = some capsule → K capsule ∧ capsule.capsuleId = k

namespace MosaicNode

variable {K : Capsule → Prop} {s t : MosaicNode} {frame : Frame} {capsule : Capsule} {closure : ClosureProof}

/-- Changes elsewhere do not matter, and the log may grow by other rows. -/
theorem Holds.congr (holds : s.Holds K) (capsules : t.protocol.capsules = s.protocol.capsules)
    (seen : t.seenCapsules ⊆ s.seenCapsules) (pending : ∀ k c, t.pending.get? k = some c → s.pending.get? k = some c)
    (waiting : ∀ k c, t.pendingCapsules.get? k = some c → s.pendingCapsules.get? k = some c) {effects : List Effect}
    (log : t.log = s.log ++ effects) (quiet : ∀ c, .put (.capsule c) ∉ effects) : t.Holds K where
  key := by
    rw [capsules]
    exact holds.key
  stored := by
    rw [capsules]
    exact holds.stored
  kept k c found := by
    rw [capsules] at found
    rw [log]
    exact (holds.kept k c found).append effects
  seen k member := by
    rw [log]
    exact (holds.seen k (seen member)).append effects
  rows c member := by
    rw [log, List.mem_append] at member
    exact holds.rows c (member.resolve_right (quiet c))
  waiting k c found := holds.waiting k c (waiting k c found)
  pending k c found := holds.pending k c (pending k c found)

/-- A capsule of the kind is stored that was kept. -/
theorem Holds.store (holds : s.Holds K) (kind : K capsule) (row : KeptIn s.log capsule.capsuleId) {p : Instance}
    (capsules : p.capsules = s.protocol.capsules.set capsule.capsuleId capsule) : (s.setProtocol p).Holds K := by
  have cases : ∀ k c, p.capsules.get? k = some c →
      k = capsule.capsuleId ∧ c = capsule ∨ s.protocol.capsules.get? k = some c := by
    intro k c found
    rw [capsules] at found
    exact Dict.origin_of_get?_set found
  refine ⟨fun k c found => ?_, fun k c found => ?_, fun k c found => ?_, holds.seen, holds.rows, holds.waiting,
    holds.pending⟩ <;> rcases cases k c found with ⟨rfl, rfl⟩ | old
  · rfl
  · exact holds.key k c old
  · exact kind
  · exact holds.stored k c old
  · exact row
  · exact holds.kept k c old

theorem Holds.keep (holds : s.Holds K) (kind : K capsule) : (s.kept capsule).Holds K := by
  have logged : (s.logEffect (.put (.capsule capsule))).Holds K := by
    refine ⟨holds.key, holds.stored, fun k c found => (holds.kept k c found).append _,
      fun k member => (holds.seen k member).append _, fun c member => ?_, holds.waiting, holds.pending⟩
    rcases List.mem_append.mp member with old | new
    · exact holds.rows c old
    · cases List.mem_singleton.mp new
      exact kind
  exact logged.store kind ⟨capsule, by simp, rfl⟩ rfl

/-- What a frame may have the node store, keep or witness. -/
def Offers (s : MosaicNode) (frame : Frame) (capsule : Capsule) : Prop :=
  frame.Carries capsule ∨ s.Candidate frame capsule

theorem Holds.offers (holds : s.Holds K) (carries : ∀ c, frame.Carries c → K c) (offers : s.Offers frame capsule) :
    K capsule := by
  rcases offers with carried | candidate
  · exact carries capsule carried
  · cases frame with
    | deliver message =>
      cases message with
      | capsule d => exact carries capsule candidate
      | closure d closure =>
        obtain ⟨k, entry⟩ := candidate
        exact holds.waiting k capsule ((Dict.get?_eq_some_iff _).mpr entry)
      | _ => exact candidate.elim
    | retry entries capsuleId => exact carries capsule candidate
    | _ => exact candidate.elim

/-- The capsule that is closed is stored under its own identifier. -/
theorem Closing.stored (holds : s.Holds K) {p : Instance} (closing : s.Closing frame capsule closure p) :
    p.capsules.get? capsule.capsuleId = some capsule := by
  cases closing with
  | delivered => exact Dict.get?_set_self _ _ _
  | collected new stored =>
    have key := holds.key _ _ stored
    rwa [key]

end MosaicNode
open MosaicNode

/-- A change keeps the kind of all capsules, where what is stored, kept, witnessed
or waited for is of the kind. -/
theorem NodeUpdate.holds {K : Capsule → Prop} {s t : MosaicNode} {event : NodeEvent} (update : NodeUpdate event s t)
    (holds : s.Holds K) (kind : ∀ capsule, event = .stored capsule ∨ event = .arrived capsule ∨
      (∃ change, event = .witnessed capsule change) ∨ event = .queued capsule ∨ event = .submitted capsule → K capsule) :
    t.Holds K := by
  -- a change of other parts with at most one effect, which is no row of a capsule
  have quiet : ∀ effects, t.protocol.capsules = s.protocol.capsules → t.seenCapsules = s.seenCapsules →
      t.pending = s.pending → t.pendingCapsules = s.pendingCapsules → t.log = s.log ++ effects →
      (∀ c, .put (.capsule c) ∉ effects) → t.Holds K := by
    intro effects capsules seen pending waiting log none
    exact holds.congr capsules seen.subset (pending ▸ fun _ _ => id) (waiting ▸ fun _ _ => id) log none
  have still : t.log = s.log → t.log = s.log ++ [] := fun same => same.trans (List.append_nil _).symm
  cases update with
  | stored => exact holds.keep (kind _ (Or.inl rfl))
  | @arrived _ capsule =>
    have kept := holds.keep (kind capsule (Or.inr (Or.inl rfl)))
    refine ⟨kept.key, kept.stored, kept.kept, fun k member => ?_, kept.rows, kept.waiting, kept.pending⟩
    rcases Finset.mem_insert.mp member with rfl | old
    · exact ⟨capsule, by simp, rfl⟩
    · exact kept.seen k old
  | @witnessed _ capsule change p seen kinds update =>
    have row := holds.seen _ seen
    have known : K capsule := kind capsule (Or.inr (Or.inr (Or.inl ⟨change, rfl⟩)))
    cases update with
    | claimed valid head free =>
      obtain ⟨rfl, -⟩ := kinds
      exact holds.store known row rfl
    | contested | signed => exact quiet [] rfl rfl rfl rfl (still rfl) (by simp)
    | released => exact absurd kinds.2 (by decide)
    | _ => exact kinds.elim
  | closed settles known held =>
    obtain ⟨closures, currents, knowns, rfl⟩ := settles.frame
    exact quiet _ rfl rfl rfl rfl rfl (by simp [closingRows])
  | @stranded _ capsule closure strands =>
    obtain ⟨closures, frame⟩ := s.protocol.withClosure_frame capsule closure
    refine quiet [] ?_ rfl rfl rfl (still rfl) (by simp)
    rw [frame]
    rfl
  | keptReceipt | signed | sent | finished | answered => exact quiet _ rfl rfl rfl rfl rfl (by simp)
  | pooled | emitted => exact quiet [] rfl rfl rfl rfl (still rfl) (by simp)
  | @submitted _ capsule =>
    refine ⟨holds.key, holds.stored, holds.kept, holds.seen, holds.rows, holds.waiting, fun k c found => ?_⟩
    rw [addPending_pending] at found
    rcases Dict.origin_of_get?_set found with ⟨rfl, rfl⟩ | old
    · exact ⟨kind _ (Or.inr (Or.inr (Or.inr (Or.inr rfl)))), rfl⟩
    · exact holds.pending k c old
  | @queued _ capsule =>
    refine ⟨holds.key, holds.stored, holds.kept, holds.seen, holds.rows, fun k c found => ?_, holds.pending⟩
    rw [addWaiting_pendingCapsules] at found
    rcases Dict.origin_of_get?_set found with ⟨-, rfl⟩ | old
    · exact kind _ (Or.inr (Or.inr (Or.inr (Or.inl rfl))))
    · exact holds.waiting k c old
  | @woken _ capsuleId =>
    refine holds.congr rfl (Finset.erase_subset _ _) (fun _ _ => id) (fun k c found => ?_) (still rfl) (by simp)
    rw [wake_pendingCapsules, Dict.get?_erase] at found
    split at found
    · cases found
    · exact found
  | @popped _ capsuleId =>
    refine holds.congr rfl (fun _ => id) (fun k c found => ?_) (fun _ _ => id) (still rfl) (by simp)
    rw [popPending_pending, Dict.get?_erase] at found
    split at found
    · cases found
    · exact found

/-- What causes such a change is offered by the frame. -/
theorem MosaicNode.Causes.offers {s : MosaicNode} {frame : Frame} {event : NodeEvent} (causes : s.Causes frame event)
    {capsule : Capsule} (about : event = .stored capsule ∨ event = .arrived capsule ∨
      (∃ change, event = .witnessed capsule change) ∨ event = .queued capsule ∨ event = .submitted capsule) :
    s.Offers frame capsule := by
  rcases about with rfl | rfl | ⟨change, rfl⟩ | rfl | rfl
  · exact Or.inl causes
  · exact Or.inr causes
  · exact Or.inr causes
  · exact Or.inr causes
  · refine Or.inl ?_
    have same : frame = .deliver (.submit capsule) := causes
    rw [same]
    rfl

theorem NodeConfig.start_holds {K : Capsule → Prop} (config : NodeConfig) {log : List Effect}
    (rows : ∀ capsule, .put (.capsule capsule) ∈ log → K capsule) : (config.start log).node.Holds K := by
  have fresh : (config.fresh log).Holds K := by
    obtain ⟨currents, knowns, protocol⟩ := Instance.foldl_installSeal config.initialSeals
      (.fresh config.members config.epoch)
    have capsules : (config.fresh log).protocol.capsules = .empty := by
      rw [NodeConfig.fresh_protocol, NodeConfig.protocol, protocol]
      rfl
    refine ⟨?_, ?_, ?_, ?_, rows, ?_, ?_⟩
    · rw [capsules]
      rintro k capsule ⟨⟩
    · rw [capsules]
      rintro k capsule ⟨⟩
    · rw [capsules]
      rintro k capsule ⟨⟩
    · intro k member
      exact absurd member (Finset.notMem_empty k)
    · rintro k capsule ⟨⟩
    · rintro k capsule ⟨⟩
  have still : ∀ s t : MosaicNode, s.log = log ∧ s.Holds K → t.protocol.capsules = s.protocol.capsules →
      t.seenCapsules = s.seenCapsules → t.pending = s.pending → t.pendingCapsules = s.pendingCapsules →
      t.log = s.log → t.log = log ∧ t.Holds K := by
    rintro s t ⟨same, holds⟩ capsules seen pending waiting logs
    exact ⟨logs.trans same, holds.congr capsules seen.subset (pending ▸ fun _ _ => id) (waiting ▸ fun _ _ => id)
      (logs.trans (List.append_nil _).symm) (by simp)⟩
  rw [NodeConfig.start_node]
  refine (restore_invariant (I := fun u => u.log = log ∧ u.Holds K) ⟨rfl, fresh⟩ ?_ ?_ ?_ ?_ ?_).2
  · exact fun s before known _ => still s _ before rfl rfl rfl rfl rfl
  · exact fun s before current _ => still s _ before rfl rfl rfl rfl rfl
  · rintro s ⟨same, holds⟩ capsule member
    have row := mem_items_capsule member
    have stored := holds.store (rows capsule row) ⟨capsule, same.symm ▸ row, rfl⟩
      (p := s.protocol.storeCapsule capsule) rfl
    refine ⟨same, stored.key, stored.stored, stored.kept, fun k seen => ?_, stored.rows, stored.waiting, stored.pending⟩
    rcases Finset.mem_insert.mp seen with rfl | old
    · exact ⟨capsule, same.symm ▸ row, rfl⟩
    · exact stored.seen k old
  · exact fun s before receipt _ => still s _ before rfl rfl rfl rfl rfl
  · intro s before closure _
    obtain ⟨closures, same⟩ := s.restoreClosure_frame closure
    rw [same]
    exact still s _ before rfl rfl rfl rfl rfl

/-- All capsules that a node can get hold of are of the kind `K`, those that its
waiting handlers carry too. -/
structure Running.Holds (K : Capsule → Prop) (s : Running) : Prop where
  node : s.node.Holds K
  frames : ∀ thread ∈ s.threads, ∀ frame ∈ thread, ∀ capsule, frame.Carries capsule → K capsule

/-- The capsules of an arriving message are of the kind `K`. -/
def LifeEvent.Brings (K : Capsule → Prop) (event : LifeEvent) : Prop :=
  ∀ message, event.taken = .receive message → ∀ capsule, message.Carries capsule → K capsule

namespace Running.Holds

variable {K : Capsule → Prop} {s : Running} {event : LifeEvent}

theorem carries (holds : s.Holds K) (brings : event.Brings K) {frame : Frame}
    (run : event.taken.frame s = some frame) {capsule : Capsule} (carried : frame.Carries capsule) : K capsule := by
  unfold LifeEvent.Brings at brings
  cases taken : event.taken with
  | receive message =>
    rw [taken] at run
    cases run
    exact brings message taken capsule carried
  | resume thread =>
    rw [taken] at run
    obtain ⟨frames, here, first⟩ := Option.bind_eq_some_iff.mp run
    exact holds.frames frames (List.mem_of_getElem? here) frame (List.mem_of_head? first) capsule carried

theorem trace (holds : s.Holds K) (brings : event.Brings K) {u : MosaicNode}
    (trace : NodeTrace (s.Causes event.taken) s.node u) : u.Holds K := by
  refine trace.invariant holds.node ?_
  rintro change u v ⟨frame, run, causes⟩ update before
  refine update.holds before fun capsule about => ?_
  exact holds.node.offers (fun c => holds.carries brings run) (causes.offers about)

theorem exec (holds : s.Holds K) (config : NodeConfig) (brings : event.Brings K) : (event.exec config s).Holds K := by
  have node := holds.trace brings (event.taken.exec_trace s)
  cases event with
  | crash input effects =>
    refine ⟨config.start_holds fun capsule member => node.rows capsule (List.mem_of_mem_take member), ?_⟩
    intro thread member
    cases member
  | input input =>
    refine ⟨node, ?_⟩
    have carried : ∀ frame, input.frame s = some frame → ∀ capsule, frame.Carries capsule → K capsule :=
      fun frame run capsule => Running.Holds.carries holds brings run
    -- the frames that are left carry what the frame that ran could get hold of
    have left : ∀ frame, input.frame s = some frame → ∀ next ∈ framesOf (runFrame frame) s.node,
        ∀ capsule, next.Carries capsule → K capsule := by
      intro frame run next member capsule carries
      rcases s.node.framesOf_leaves frame next member capsule carries with own | candidate | ⟨k, stored⟩
      · exact carried frame run capsule own
      · exact holds.node.offers (carried frame run) (Or.inr candidate)
      · exact holds.node.stored k capsule stored
    cases input with
    | receive message =>
      intro thread member
      rcases List.mem_append.mp member with old | new
      · exact holds.frames thread old
      · cases List.mem_singleton.mp new
        exact left _ rfl
    | resume k =>
      simp only [LifeEvent.exec, Input.exec, Running.resume]
      cases here : s.threads[k]? with
      | none => exact holds.frames
      | some thread =>
        cases thread with
        | nil => exact holds.frames
        | cons frame later =>
          intro thread member next inThread
          rcases List.mem_or_eq_of_mem_set member with old | rfl
          · exact holds.frames thread old next inThread
          · have run : (Input.resume k).frame s = some frame := by simp [Input.frame, here]
            rcases List.mem_append.mp inThread with new | rest
            · exact left frame run next new
            · exact holds.frames _ (List.mem_of_getElem? here) next (List.mem_cons_of_mem _ rest)

end Running.Holds

theorem NodeConfig.start_running {K : Capsule → Prop} (config : NodeConfig) : (config.start []).Holds K := by
  refine ⟨config.start_holds (by simp), ?_⟩
  intro thread member
  cases member

theorem Life.holds {K : Capsule → Prop} {config : NodeConfig} {allowed : Running → LifeEvent → Prop} {s : Running}
    (life : Life config allowed s) (brings : ∀ s event, allowed s event → event.Brings K) : s.Holds K :=
  GuardedRun.invariant (P := Running.Holds K) life config.start_running
    fun u event ok before => before.exec config (brings u event ok)

end Mosaic
