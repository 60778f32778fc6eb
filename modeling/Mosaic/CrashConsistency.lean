import Mosaic.NodeRecovery
import Mosaic.SealAuthenticity

namespace Mosaic
open CanonicalJson Effects MosaicProtocol

variable [Crypto]

/-- Every closed capsule has its successor, and every current seal is an initial
one or the successor of its predecessor by a closed capsule. -/
structure MosaicNode.Consistent (initial : List StateSeal) (s : MosaicNode) : Prop where
  closed : ∀ k, s.protocol.closures.contains k = true →
    ∃ capsule, s.protocol.capsules.get? k = some capsule ∧ s.protocol.Succeeded capsule
  current : ∀ r current, s.protocol.currentSeals.get? r = some current → current ∈ initial ∨
    ∃ predecessor capsule, s.protocol.knownSeals.get? capsule.predecessorId = some predecessor ∧
      s.protocol.capsules.get? capsule.capsuleId = some capsule ∧
      s.protocol.closures.contains capsule.capsuleId = true ∧ current = nextSeal predecessor capsule

namespace NodeConfig

variable {config : NodeConfig} {log log' : List Effect}

/-- The store ends between the closure and the successor seal of a closing, where
the capsule had no successor before. -/
def Splits (config : NodeConfig) (log : List Effect) : Prop :=
  ∃ older closure tail, log = older ++ .put (.closure closure) :: tail ∧
    (tail = [] ∨ ∃ predecessor, tail = [.put (.sealKnown predecessor)]) ∧
    ∀ capsule, .put (.capsule capsule) ∈ log → capsule.capsuleId = closure.capsuleId →
      ¬ config.SucceededIn log capsule

theorem Complete.not_splits (complete : config.Complete log) : ¬ config.Splits log := by
  rintro ⟨older, closure, tail, same, -, missing⟩
  obtain ⟨capsule, row, named, succeeded⟩ := complete closure (by rw [same]; simp)
  exact missing capsule row named.symm succeeded

/-- The log may grow by rows of other kinds, and by closures whose capsules have
their successors. -/
theorem Complete.mono (complete : config.Complete log) (more : log ⊆ log')
    (cases : ∀ closure, .put (.closure closure) ∈ log' → .put (.closure closure) ∈ log ∨
      ∃ capsule, .put (.capsule capsule) ∈ log' ∧ closure.capsuleId = capsule.capsuleId ∧
        config.SucceededIn log' capsule) : config.Complete log' := by
  intro closure row
  rcases cases closure row with old | new
  · obtain ⟨capsule, kept, named, succeeded⟩ := complete closure old
    exact ⟨capsule, more kept, named, succeeded.mono more⟩
  · exact new

section Closing

variable {kept : Capsule} {closure : ClosureProof} {predecessor current : StateSeal}

theorem Complete.cut (complete : config.Complete log) {k : Nat}
    (cut : log' = log ++ (closingRows closure predecessor current).take k)
    (done : ∃ capsule, .put (.capsule capsule) ∈ log' ∧ closure.capsuleId = capsule.capsuleId ∧
      config.SucceededIn log' capsule) : config.Complete log' := by
  refine complete.mono (cut ▸ fun _ member => List.mem_append_left _ member) fun other member => ?_
  rw [cut, List.mem_append] at member
  refine member.imp_right fun new => ?_
  obtain rfl : other = closure := by simpa [closingRows] using List.mem_of_mem_take new
  exact done

/-- A closing is complete with its third row. -/
theorem Complete.closing (complete : config.Complete log) (row : .put (.capsule kept) ∈ log)
    (named : closure.capsuleId = kept.capsuleId) (before : predecessor.sealId = kept.predecessorId)
    (follows : Instance.Follows predecessor kept current) (k : Nat) :
    config.Complete (log ++ (closingRows closure predecessor current).take (k + 3)) := by
  refine complete.cut rfl ⟨kept, List.mem_append_left _ row, named, predecessor, current, Or.inr ?_, Or.inr ?_, before,
    follows⟩ <;>
    simp [closingRows]

/-- A closing that is cut off leaves a complete store or a gap. -/
theorem Complete.closing_cut (complete : config.Complete log) (row : .put (.capsule kept) ∈ log)
    (named : closure.capsuleId = kept.capsuleId) (before : predecessor.sealId = kept.predecessorId)
    (follows : Instance.Follows predecessor kept current) (k : Nat) :
    config.Complete (log ++ (closingRows closure predecessor current).take k) ∨
      config.Splits (log ++ (closingRows closure predecessor current).take k) := by
  have gap : ∀ tail k, (closingRows closure predecessor current).take k = .put (.closure closure) :: tail →
      (tail = [] ∨ ∃ predecessor, tail = [.put (.sealKnown predecessor)]) →
      config.Complete (log ++ (closingRows closure predecessor current).take k) ∨
        config.Splits (log ++ (closingRows closure predecessor current).take k) := by
    intro tail k same few
    by_cases done : ∃ capsule, .put (.capsule capsule) ∈ log ++ (closingRows closure predecessor current).take k ∧
        closure.capsuleId = capsule.capsuleId ∧
        config.SucceededIn (log ++ (closingRows closure predecessor current).take k) capsule
    · exact Or.inl (complete.cut rfl done)
    · refine Or.inr ⟨log, closure, tail, by rw [same], few, fun capsule inCut named' succeeded => ?_⟩
      exact done ⟨capsule, inCut, named'.symm, succeeded⟩
  match k with
  | 0 =>
    refine Or.inl ?_
    rw [List.take_zero, List.append_nil]
    exact complete
  | 1 => exact gap [] 1 rfl (Or.inl rfl)
  | 2 => exact gap [_] 2 rfl (Or.inr ⟨predecessor, rfl⟩)
  | k + 3 => exact Or.inl (complete.closing row named before follows k)

end Closing

theorem start_succeeded (free : CollisionFree) {capsule : Capsule} :
    (config.start log).node.protocol.Succeeded capsule ↔ config.SucceededIn log capsule := by
  constructor
  · rintro ⟨predecessor, k, known, found, found', marks⟩
    obtain ⟨named, recalls⟩ := (start_known free).mp found
    exact ⟨predecessor, known, recalls, ((start_known free).mp found').2, named, marks⟩
  · rintro ⟨predecessor, known, recalls, recalls', named, marks⟩
    exact ⟨predecessor, _, known, (start_known free).mpr ⟨named, recalls⟩, (start_known free).mpr ⟨rfl, recalls'⟩,
      marks⟩

/-- The capsule that is restored under an identifier is alike to every one in the
store. -/
theorem start_alike (free : CollisionFree) (proper : config.Proper log) {kept : Capsule}
    (row : .put (.capsule kept) ∈ log) :
    ∃ capsule, (config.start log).node.protocol.capsules.get? kept.capsuleId = some capsule ∧ kept.Alike capsule := by
  obtain ⟨capsule, found, row', same⟩ := (config.start_recalled log).capsule ⟨kept, row, rfl⟩
  exact ⟨capsule, found, (proper.bound kept row).alike free (proper.bound capsule row') same.symm⟩

/-- Every current seal that is restored comes from a restored closure. -/
theorem start_current_origin (free : CollisionFree) (proper : config.Proper log) {r : String} {current : StateSeal}
    (held : (config.start log).node.protocol.currentSeals.get? r = some current) :
    current ∈ config.initialSeals ∨ ∃ predecessor capsule,
      (config.start log).node.protocol.knownSeals.get? capsule.predecessorId = some predecessor ∧
      (config.start log).node.protocol.capsules.get? capsule.capsuleId = some capsule ∧
      (config.start log).node.protocol.closures.contains capsule.capsuleId = true ∧
      current = nextSeal predecessor capsule := by
  rcases proper.origin_of_recalls (start_current free proper.toSound held) with
    initial | ⟨kept, closure, old, row, closureRow, named, seal', recalls, made⟩
  · exact Or.inl initial
  · obtain ⟨capsule, found, alike⟩ := start_alike free proper row
    refine Or.inr ⟨old, capsule, (start_known free).mpr ⟨?_, recalls⟩, alike.capsuleId ▸ found, ?_, ?_⟩
    · rw [seal', alike.predecessorId]
    · exact (start_contains free proper _).mpr ⟨closure, closureRow, named.trans alike.capsuleId⟩
    · rw [made, alike.nextSeal]

theorem start_consistent_iff (free : CollisionFree) (proper : config.Proper log) :
    (config.start log).node.Consistent config.initialSeals ↔ config.Complete log := by
  constructor
  · intro consistent closure row
    obtain ⟨capsule, found, succeeded⟩ :=
      consistent.closed closure.capsuleId ((start_contains free proper _).mpr ⟨closure, row, rfl⟩)
    obtain ⟨kept, keptRow, accepted⟩ := proper.accepted closure row
    obtain ⟨p, -, -, -, accepts⟩ := accepted
    obtain ⟨capsule', found', row', same⟩ := (config.start_recalled log).capsule ⟨kept, keptRow, rfl⟩
    rw [← accepts.capsuleId, found] at found'
    cases found'
    exact ⟨capsule, row', accepts.capsuleId.trans same.symm, (start_succeeded free).mp succeeded⟩
  · intro complete
    refine ⟨fun k contained => ?_, fun r current => start_current_origin free proper⟩
    obtain ⟨closure, row, rfl⟩ := (start_contains free proper k).mp contained
    obtain ⟨kept, keptRow, named, succeeded⟩ := complete closure row
    obtain ⟨capsule, found, alike⟩ := start_alike free proper keptRow
    exact ⟨capsule, named ▸ found, alike.succeeded ((start_succeeded free).mpr succeeded)⟩

end NodeConfig

/-- What is in the store when the handler that takes the input is killed. -/
def Running.left (s : Running) (input : Input) (effects : Nat) : List Effect :=
  (input.exec s).node.log.take (s.node.log.length + effects)

/-- The capsules that arrive are genuine, and no crash leaves a gap in a closing. -/
def Running.Careful (config : NodeConfig) (s : Running) (event : LifeEvent) : Prop :=
  event.Brings Capsule.Bound ∧ ∀ input effects, event = .crash input effects → ¬ config.Splits (s.left input effects)

theorem NodeUpdate.complete_take {config : NodeConfig} {s t : MosaicNode} {event : NodeEvent}
    (update : NodeUpdate event s t) (free : CollisionFree) (backed : s.Backed config) (genuine : event.Genuine)
    (complete : config.Complete s.log) : config.Complete t.log ∧ ∀ k, s.log.length < k →
      config.Complete (t.log.take k) ∨ config.Splits (t.log.take k) := by
  have quiet : ∀ effects, t.log = s.log ++ effects → (∀ closure, .put (.closure closure) ∉ effects) →
      config.Complete t.log ∧ ∀ k, s.log.length < k →
        config.Complete (t.log.take k) ∨ config.Splits (t.log.take k) := by
    intro effects same none
    have grows : ∀ some ⊆ effects, config.Complete (s.log ++ some) := fun some part =>
      complete.mono (fun _ member => List.mem_append_left _ member) fun closure member =>
        Or.inl ((List.mem_append.mp member).resolve_right fun new => none closure (part new))
    refine ⟨same ▸ grows effects fun _ => id, fun k later => Or.inl ?_⟩
    rw [same, List.take_append, List.take_of_length_le later.le]
    exact grows _ (List.take_subset _ _)
  cases update with
  | @closed _ capsule closure p predecessor current settles known held =>
    obtain ⟨kept, row, alike, accepted, -⟩ := backed.closes free settles genuine known held
    obtain ⟨knownBefore, follows, -⟩ := settles.seals free backed.sealed.chained known held
    have before := (backed.sealed.keyed _ _ knownBefore).trans alike.predecessorId
    have follows' : Instance.Follows predecessor kept current := by
      obtain ⟨signature, rfl⟩ := alike
      exact follows
    obtain ⟨q, -, -, -, accepts⟩ := accepted
    refine ⟨complete.closing row accepts.capsuleId before follows' 1, fun k later => ?_⟩
    change config.Complete ((s.log ++ closingRows closure predecessor current).take k) ∨
      config.Splits ((s.log ++ closingRows closure predecessor current).take k)
    rw [List.take_append, List.take_of_length_le later.le]
    exact complete.closing_cut row accepts.capsuleId before follows' _
  | stored | arrived | keptReceipt | signed | sent | finished | answered => exact quiet _ rfl (by simp)
  | _ => exact quiet [] (List.append_nil _).symm (by simp)

/-- A node with genuine capsules and a complete store. -/
structure Running.Sane (config : NodeConfig) (s : Running) : Prop where
  holds : s.Holds Capsule.Bound
  backed : s.node.Backed config
  complete : config.Complete s.node.log

namespace Running.Sane

variable {config : NodeConfig} {s : Running} {event : LifeEvent} {u : MosaicNode}

theorem trace (sane : s.Sane config) (free : CollisionFree) (brings : event.Brings Capsule.Bound)
    (trace : NodeTrace (s.Causes event.taken) s.node u) : u.Backed config ∧ config.Complete u.log := by
  refine trace.invariant (I := fun u => u.Backed config ∧ config.Complete u.log) ⟨sane.backed, sane.complete⟩ ?_
  rintro change v w cause update ⟨backed, complete⟩
  have genuine := sane.holds.genuine brings cause
  exact ⟨update.backed free backed genuine, (update.complete_take free backed genuine complete).1⟩

/-- Wherever the handler is killed, a node can be restarted from the store, which
is complete or has a gap. -/
theorem left (sane : s.Sane config) (free : CollisionFree) {input : Input} (effects : Nat)
    (brings : (LifeEvent.crash input effects).Brings Capsule.Bound) :
    config.Proper (s.left input effects) ∧
      (config.Complete (s.left input effects) ∨ config.Splits (s.left input effects)) := by
  obtain ⟨u, reached, cut⟩ := (input.exec_trace s).take (Nat.le_add_right s.node.log.length effects)
  obtain ⟨backed, complete⟩ := sane.trace free brings reached
  unfold Running.left
  rcases cut with same | ⟨change, v, cause, update, later, same⟩ <;> rw [same]
  · exact ⟨backed.proper, Or.inl complete⟩
  · have genuine := sane.holds.genuine brings cause
    exact ⟨update.proper_take free backed genuine later, (update.complete_take free backed genuine complete).2 _ later⟩

theorem exec (sane : s.Sane config) (free : CollisionFree) (careful : s.Careful config event) :
    (event.exec config s).Sane config := by
  obtain ⟨brings, whole⟩ := careful
  have holds := sane.holds.exec config brings
  cases event with
  | input input =>
    obtain ⟨backed, complete⟩ := sane.trace free brings (input.exec_trace s)
    exact ⟨holds, backed, complete⟩
  | crash input effects =>
    obtain ⟨proper, either⟩ := sane.left free effects brings
    have same : ((LifeEvent.crash input effects).exec config s).node.log = s.left input effects :=
      (config.fresh _).restore_log
    exact ⟨holds, NodeConfig.start_backed free proper, same ▸ either.resolve_right (whole _ _ rfl)⟩

end Running.Sane

theorem Life.sane {config : NodeConfig} {allowed : Running → LifeEvent → Prop} {s : Running}
    (life : Life config allowed s) (free : CollisionFree)
    (careful : ∀ s event, allowed s event → s.Careful config event) : s.Sane config := by
  refine GuardedRun.invariant (P := Running.Sane config) life ?_ fun u event ok before =>
    before.exec free (careful u event ok)
  exact ⟨config.start_running, NodeConfig.start_backed free config.proper_nil, fun closure member => nomatch member⟩

/-- A node that is killed anywhere in a handler restarts into a consistent state
exactly if no closing was cut off between its closure and its successor seal. -/
theorem restart_consistent_iff (free : CollisionFree) {config : NodeConfig} {s : Running}
    (life : Life config (Running.Careful config) s) (input : Input) (effects : Nat)
    (brings : (LifeEvent.crash input effects).Brings Capsule.Bound) :
    ((LifeEvent.crash input effects).exec config s).node.Consistent config.initialSeals ↔
      ¬ config.Splits (s.left input effects) := by
  obtain ⟨proper, either⟩ := (life.sane free fun _ _ careful => careful).left free effects brings
  exact (NodeConfig.start_consistent_iff free proper).trans
    ⟨fun complete => complete.not_splits, either.resolve_right⟩

section Solo
variable (pair : KeyPair)

/-- The node has accepted the capsule. -/
def soloClaimed : Running := (soloClaim pair "a").exec (soloConfig pair) ((soloConfig pair).start [])

/-- The closure of the capsule arrives. -/
def soloInput : Input := .receive (.closure (soloCapsule pair "p" "a" 0) (soloClosure pair (soloCapsule pair "p" "a" 0)))

variable {pair}

theorem soloInput_brings (effects : Nat) : (LifeEvent.crash (soloInput pair) effects).Brings Capsule.Bound := by
  intro message same capsule carries
  simp only [LifeEvent.taken, soloInput, Input.receive.injEq] at same
  subst same
  rw [carries]
  rfl

theorem soloClaim_brings : (soloClaim pair "a").Brings Capsule.Bound := by
  intro message same capsule carries
  simp only [LifeEvent.taken, soloClaim, Input.receive.injEq] at same
  subst same
  rw [carries]
  rfl

theorem soloClaimed_careful : Life (soloConfig pair) (Running.Careful (soloConfig pair)) (soloClaimed pair) := by
  refine GuardedRun.refl.tail (i := soloClaim pair "a") ⟨soloClaim_brings, ?_⟩
  rintro input effects ⟨⟩

/-- What the killed handler leaves: the acceptance and some rows of the closing. -/
theorem soloInput_left (sound : SignaturesVerify) : ∃ predecessor current, ∀ effects,
    (soloClaimed pair).left (soloInput pair) effects = acceptance pair "a" ++
      (.put (.capsule (soloCapsule pair "p" "a" 0)) ::
        closingRows (soloClosure pair (soloCapsule pair "p" "a" 0)) predecessor current).take effects := by
  have start := @soloStart_ready _ pair
  have accepted : (soloClaimed pair).node = acceptedBy pair ((soloConfig pair).start []).node "a" :=
    soloClaim_node sound (by decide) rfl start (Finset.notMem_empty _) rfl
  have ready : SoloReady pair (soloClaimed pair).node.protocol "p" := by
    rw [accepted]
    exact ⟨start.members, start.epoch, start.known, start.current⟩
  have installs := @soloDelivery_installs _ pair sound (soloConfig pair) (soloClaimed pair) (soloCapsule pair "p" "a" 0)
  obtain ⟨t, node, -, -, -, predecessor, current, -, -, log⟩ := installs ready (by rw [accepted]; rfl)
    (by rw [accepted]; rfl) (by rw [accepted]; rfl) rfl rfl
  refine ⟨predecessor, current, fun effects => ?_⟩
  change (((soloDelivery pair (soloCapsule pair "p" "a" 0)).exec (soloConfig pair) (soloClaimed pair)).node.log).take _ = _
  have before : (soloClaimed pair).node.log = acceptance pair "a" := afterClaim_log sound
  rw [node, log, before, List.take_length_add_append]

/-- All five rows are in the store: the closing has no gap. -/
theorem soloInput_whole (sound : SignaturesVerify) :
    ¬ (soloConfig pair).Splits ((soloClaimed pair).left (soloInput pair) 5) := by
  obtain ⟨predecessor, current, left⟩ := @soloInput_left _ pair sound
  rintro ⟨older, closure, tail, same, few, -⟩
  rw [left] at same
  have last := congrArg List.getLast? same
  rcases few with rfl | ⟨predecessor', rfl⟩ <;> simp [closingRows, acceptance] at last

/-- Two rows of the closing are in the store: the capsule and its closure. -/
theorem soloInput_splits (sound : SignaturesVerify) :
    (soloConfig pair).Splits ((soloClaimed pair).left (soloInput pair) 2) := by
  obtain ⟨predecessor, current, left⟩ := @soloInput_left _ pair sound
  refine ⟨acceptance pair "a" ++ [.put (.capsule (soloCapsule pair "p" "a" 0))],
    soloClosure pair (soloCapsule pair "p" "a" 0), [], ?_, Or.inl rfl, ?_⟩
  · rw [left, List.append_assoc]
    rfl
  rintro capsule - - ⟨known, other, recalls, recalls', -, version, -⟩
  have only : ∀ known, (soloConfig pair).Recalls ((soloClaimed pair).left (soloInput pair) 2) known →
      known.version = 0 := by
    rintro known (initial | row)
    · rw [List.mem_singleton.mp initial]
      rfl
    · rw [left] at row
      simp [acceptance, closingRows] at row
  rw [only known recalls, only other recalls'] at version
  omega

theorem soloInput_inconsistent (free : CollisionFree) (sound : SignaturesVerify) :
    ¬ ((LifeEvent.crash (soloInput pair) 2).exec (soloConfig pair) (soloClaimed pair)).node.Consistent
      (soloConfig pair).initialSeals := by
  have sane := (@soloClaimed_careful _ pair).sane free fun _ _ careful => careful
  obtain ⟨proper, -⟩ := sane.left free 2 (soloInput_brings 2)
  intro consistent
  exact ((NodeConfig.start_consistent_iff free proper).mp consistent).not_splits (soloInput_splits sound)

omit [Crypto] in
/-- A node that is killed after the last row of the closing is consistent. -/
theorem restart_consistent_solo : let _ := Crypto.ideal
    ((LifeEvent.crash (soloInput idealKey) 5).exec (soloConfig idealKey) (soloClaimed idealKey)).node.Consistent
      (soloConfig idealKey).initialSeals := by
  have whole := @soloInput_whole Crypto.ideal idealKey ideal_signaturesVerify
  have brings := @soloInput_brings Crypto.ideal idealKey 5
  have life := @soloClaimed_careful Crypto.ideal idealKey
  exact (@restart_consistent_iff Crypto.ideal ideal_collisionFree _ _ life _ 5 brings).mpr whole

omit [Crypto] in
/-- A node that is killed between the closure and the seals restarts with a closed
capsule without a successor. -/
theorem restart_inconsistent : ¬ ∀ [Crypto], CollisionFree → SignaturesVerify →
    ∀ (config : NodeConfig) (s : Running), Life config (fun _ event => event.Brings Capsule.Bound) s →
      ∀ (input : Input) (effects : Nat), (LifeEvent.crash input effects).Brings Capsule.Bound →
        ((LifeEvent.crash input effects).exec config s).node.Consistent config.initialSeals := by
  intro claim
  have brings := @soloInput_brings Crypto.ideal idealKey 2
  have life := (@soloClaimed_careful Crypto.ideal idealKey).mono fun _ _ careful => careful.1
  exact @soloInput_inconsistent Crypto.ideal idealKey ideal_collisionFree ideal_signaturesVerify
    (@claim Crypto.ideal ideal_collisionFree ideal_signaturesVerify _ _ life _ 2 brings)

end Solo

end Mosaic
