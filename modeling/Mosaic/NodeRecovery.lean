import Mosaic.NodeStore
import Mosaic.NodeRestart

namespace Mosaic
open CanonicalJson Effects MosaicProtocol

variable [Crypto]

namespace Instance

variable {s : Instance} {capsule : Capsule} {closure : ClosureProof}

theorem get?_withClosure (s : Instance) (capsule : Capsule) (closure : ClosureProof) (k : String) :
    (s.withClosure capsule closure).closures.get? k =
      (s.closures.get? k).or (if capsule.capsuleId = k then some closure else none) := by
  unfold withClosure
  by_cases contained : s.closures.contains capsule.capsuleId = true
  · rw [if_pos contained]
    by_cases here : capsule.capsuleId = k
    · obtain ⟨kept, found⟩ := Dict.contains_iff.mp contained
      rw [here] at found
      simp [found]
    · simp [here]
  · rw [if_neg contained, addClosure_closures, Dict.get?_set]
    by_cases here : capsule.capsuleId = k
    · rw [Bool.not_eq_true, Dict.contains_eq_false, here] at contained
      simp [here, contained]
    · simp [here]

theorem registrable_withClosure {other : Capsule} {restored : ClosureProof}
    (registrable : s.Registrable other restored) : (s.withClosure capsule closure).Registrable other restored := by
  refine ⟨(congrFun₂ (verifyClosure_withClosure s capsule closure) _ _).trans registrable.verified, ?_⟩
  obtain ⟨closures, same⟩ := withClosure_frame s capsule closure
  rw [same]
  exact registrable.clean

end Instance

namespace MosaicNode

variable {s : MosaicNode} {capsule : Capsule} {closure : ClosureProof}

theorem restoreClosure_registers (stored : s.protocol.capsules.get? closure.capsuleId = some capsule)
    (registrable : s.protocol.Registrable capsule closure) :
    s.restoreClosure closure = s.setProtocol (s.protocol.withClosure capsule closure) := by
  unfold restoreClosure
  simp only [stored, final_of_ok (Instance.registerClosure_registrable registrable)]

/-- Where all closures can be registered, the first one of each capsule is. -/
theorem get?_foldl_restoreClosure {restored : List ClosureProof}
    (ready : ∀ closure ∈ restored, ∃ capsule, s.protocol.capsules.get? closure.capsuleId = some capsule ∧
      s.protocol.Registrable capsule closure) (k : String) :
    (restored.foldl restoreClosure s).protocol.closures.get? k =
      (s.protocol.closures.get? k).or (restored.find? (·.capsuleId = k)) := by
  induction restored generalizing s with
  | nil => simp
  | cons closure restored ih =>
    obtain ⟨⟨capsule, stored, registrable⟩, later⟩ := List.forall_mem_cons.mp ready
    have named := (Instance.verifyClosure_ids registrable.verified).1
    rw [List.foldl_cons, restoreClosure_registers stored registrable, ih]
    · rw [setProtocol_protocol, Instance.get?_withClosure, Option.or_assoc, List.find?_cons, ← named]
      by_cases here : closure.capsuleId = k <;> simp [here]
    · intro closure' member
      obtain ⟨capsule', stored', registrable'⟩ := later closure' member
      refine ⟨capsule', ?_, Instance.registrable_withClosure registrable'⟩
      obtain ⟨closures, frame⟩ := s.protocol.withClosure_frame capsule closure
      rw [setProtocol_protocol, frame]
      exact stored'

end MosaicNode

theorem mem_items_sealKnown {log : List Effect} {known : StateSeal} (member : known ∈ items log Row.sealKnown?) :
    .put (.sealKnown known) ∈ log := by
  obtain ⟨row, key, inLog, picked⟩ := mem_items member
  obtain ⟨rfl, -⟩ := Row.sealKnown?_eq.mp picked
  exact inLog

omit [Crypto] in
theorem mem_items_sealCurrent {log : List Effect} {current : StateSeal} (member : current ∈ items log Row.sealCurrent?) :
    .put (.sealCurrent current) ∈ log := by
  obtain ⟨row, key, inLog, picked⟩ := mem_items member
  obtain ⟨rfl, -⟩ := Row.sealCurrent?_eq.mp picked
  exact inLog

omit [Crypto] in
theorem Row.closure?_eq {row : Row} {key : String} {closure : ClosureProof} :
    row.closure? = some (key, closure) ↔ row = .closure closure ∧ closure.proofId = key := by
  cases row <;> simp [Row.closure?]
  grind

omit [Crypto] in
theorem mem_items_closure {log : List Effect} {closure : ClosureProof} (member : closure ∈ items log Row.closure?) :
    .put (.closure closure) ∈ log := by
  obtain ⟨row, key, inLog, picked⟩ := mem_items member
  obtain ⟨rfl, -⟩ := Row.closure?_eq.mp picked
  exact inLog

namespace NodeConfig

variable {config : NodeConfig} {log : List Effect}

/-- The node that is started on the store, apart from its closures. -/
theorem start_frame (config : NodeConfig) (log : List Effect) : ∃ closures seen pool, (config.start log).node =
    { (config.fresh log).setProtocol { (config.fresh log).recalled with closures := closures } with
      seenCapsules := seen, receiptPool := pool } :=
  (config.fresh log).restore_frame

/-- The protocol object of a starting node before it registers its closures again. -/
structure Recalled (config : NodeConfig) (log : List Effect) (p : Instance) : Prop where
  members : p.members = config.members
  epoch : p.epoch = config.epoch
  evidence : p.conflictEvidence = .empty
  knowns : p.knownSeals = config.protocol.knownSeals.writeAll StateSeal.sealId (items log Row.sealKnown?)
  currents : p.currentSeals = config.protocol.currentSeals.writeAll StateSeal.resourceId (items log Row.sealCurrent?)
  capsules : p.capsules = (Dict.empty : Dict String Capsule).writeAll Capsule.capsuleId (items log Row.capsule?)

theorem fresh_recalled (config : NodeConfig) (log : List Effect) :
    config.Recalled log (config.fresh log).recalled ∧ (config.fresh log).recalled.closures = .empty := by
  obtain ⟨currents, knowns, protocol⟩ := config.protocol_frame
  have members : config.protocol.members = config.members := by
    rw [protocol]
    rfl
  have epoch : config.protocol.epoch = config.epoch := by
    rw [protocol]
    rfl
  have evidence : config.protocol.conflictEvidence = .empty := by
    rw [protocol]
    rfl
  have capsules : config.protocol.capsules = .empty := by
    rw [protocol]
    rfl
  have closures : config.protocol.closures = .empty := by
    rw [protocol]
    rfl
  refine ⟨⟨members, epoch, evidence, rfl, rfl, ?_⟩, closures⟩
  rw [← capsules]
  rfl

theorem start_recalled (config : NodeConfig) (log : List Effect) :
    config.Recalled log (config.start log).node.protocol := by
  obtain ⟨closures, seen, pool, same⟩ := config.start_frame log
  obtain ⟨recalled, -⟩ := config.fresh_recalled log
  rw [same]
  exact ⟨recalled.members, recalled.epoch, recalled.evidence, recalled.knowns, recalled.currents, recalled.capsules⟩

theorem protocol_keyed (config : NodeConfig) (free : CollisionFree) :
    ∀ k known, config.protocol.knownSeals.get? k = some known → known.sealId = k :=
  (config.fresh_sealed (K := fun _ => True) free).keyed

/-- A started node knows what its store recalls. -/
theorem start_known (free : CollisionFree) {k : String} {known : StateSeal} :
    (config.start log).node.protocol.knownSeals.get? k = some known ↔
      known.sealId = k ∧ config.Recalls log known := by
  rw [(config.start_recalled log).knowns]
  constructor
  · intro found
    rcases Dict.get?_writeAll found with ⟨member, same⟩ | ⟨old, -⟩
    · exact ⟨same, Or.inr (mem_items_sealKnown member)⟩
    · refine ⟨config.protocol_keyed free k known old, Or.inl ?_⟩
      rcases Instance.mem_of_foldl_installSeal _ old with none | initial
      · cases none
      · exact initial
  · rintro ⟨rfl, recalls⟩
    have unique : ∀ other, (config.protocol.knownSeals.writeAll StateSeal.sealId (items log Row.sealKnown?)).get?
        known.sealId = some other → other = known := by
      intro other found
      rcases Dict.get?_writeAll found with ⟨-, same⟩ | ⟨old, -⟩
      · exact StateSeal.eq_of_sealId free same
      · exact StateSeal.eq_of_sealId free (config.protocol_keyed free _ _ old)
    suffices some : ∃ other, (config.protocol.knownSeals.writeAll StateSeal.sealId (items log Row.sealKnown?)).get?
        known.sealId = some other by
      obtain ⟨other, found⟩ := some
      obtain rfl := unique other found
      exact found
    by_cases written : ∃ other ∈ items log Row.sealKnown?, other.sealId = known.sealId
    · obtain ⟨other, member, same⟩ := written
      rw [← same]
      exact Dict.get?_writeAll_of_mem member
    push Not at written
    rw [Dict.get?_writeAll_of_missing written]
    rcases recalls with initial | row
    · exact ⟨known, Instance.known_of_mem_foldl_installSeal free initial _⟩
    · obtain ⟨other, member, row', inLog, picked⟩ := items_of_put row (Row.sealKnown?_eq.mpr ⟨rfl, rfl⟩)
      obtain ⟨-, same⟩ := Row.sealKnown?_eq.mp picked
      exact absurd same (written other member)

theorem start_current (free : CollisionFree) (rows : config.Sound log) {r : String} {current : StateSeal}
    (held : (config.start log).node.protocol.currentSeals.get? r = some current) : config.Recalls log current := by
  rw [(config.start_recalled log).currents] at held
  rcases Dict.get?_writeAll held with ⟨member, -⟩ | ⟨old, -⟩
  · exact rows.current current (mem_items_sealCurrent member)
  · have initial := (config.fresh_sealed (K := fun _ => True) free).chained.known _ _ old
    rcases Instance.mem_of_foldl_installSeal _ initial with none | initial
    · cases none
    · exact Or.inl initial

theorem Recalled.capsule {p : Instance} (recalled : config.Recalled log p) {k : String} (kept : KeptIn log k) :
    ∃ capsule, p.capsules.get? k = some capsule ∧ .put (.capsule capsule) ∈ log ∧ capsule.capsuleId = k := by
  obtain ⟨capsule, row, rfl⟩ := kept
  obtain ⟨other, member, row', -, picked⟩ := items_of_put row (Row.capsule?_eq.mpr ⟨rfl, rfl⟩)
  have some := @Dict.get?_writeAll_of_mem _ _ _ Capsule.capsuleId .empty _ _ member
  rw [(Row.capsule?_eq.mp picked).2, ← recalled.capsules] at some
  obtain ⟨found, here⟩ := some
  refine ⟨found, here, ?_⟩
  rw [recalled.capsules] at here
  rcases Dict.get?_writeAll here with ⟨member, same⟩ | ⟨old, -⟩
  · exact ⟨mem_items_capsule member, same⟩
  · cases old

/-- A store from which a node can be restarted: it is sound, its capsules are
genuine, and its current seals are known. -/
structure Proper (config : NodeConfig) (log : List Effect) : Prop extends config.Sound log where
  bound : ∀ capsule, .put (.capsule capsule) ∈ log → capsule.Bound
  filed : ∀ current, .put (.sealCurrent current) ∈ log → .put (.sealKnown current) ∈ log

/-- An accepted closure can be registered again. -/
theorem Recalled.registrable {p : Instance} (recalled : config.Recalled log p) (free : CollisionFree)
    (proper : config.Proper log) {closure : ClosureProof} (row : .put (.closure closure) ∈ log) :
    ∃ capsule, p.capsules.get? closure.capsuleId = some capsule ∧ p.Registrable capsule closure := by
  obtain ⟨kept, keptRow, accepted⟩ := proper.accepted closure row
  obtain ⟨q, members, epoch, stored, accepts⟩ := id accepted
  obtain ⟨capsule, found, capsuleRow, same⟩ := recalled.capsule ⟨kept, keptRow, rfl⟩
  have alike : kept.Alike capsule := (proper.bound _ keptRow).alike free (proper.bound _ capsuleRow) same.symm
  refine ⟨capsule, accepts.capsuleId ▸ found, MosaicProtocol.verifyClosure_iff.mpr ?_, ?_⟩
  · exact accepts.congr (recalled.members.trans members.symm) (recalled.epoch.trans epoch.symm) stored (same ▸ found)
      alike
  · rw [MosaicProtocol.hasConflictOn, recalled.evidence]
    rfl

/-- Of the closures of a capsule the first one in the store is registered. -/
theorem start_closures (free : CollisionFree) (proper : config.Proper log) (k : String) :
    (config.start log).node.protocol.closures.get? k = (items log Row.closure?).find? (·.capsuleId = k) := by
  obtain ⟨seen, pool, same⟩ := (config.fresh log).restore_eq
  obtain ⟨recalled, none⟩ := config.fresh_recalled log
  rw [start_node, same, MosaicNode.get?_foldl_restoreClosure]
  · change ((config.fresh log).recalled.closures.get? k).or _ = _
    rw [none]
    rfl
  · intro closure member
    exact recalled.registrable free proper (mem_items_closure member)

/-- Closures with the same identifier are closures of the same capsule. -/
theorem Accepted.capsuleId_eq (free : CollisionFree) {c d : Capsule} {closure other : ClosureProof}
    (accepted : config.Accepted c closure) (accepted' : config.Accepted d other) (same : closure.proofId = other.proofId) :
    closure.capsuleId = other.capsuleId := by
  obtain ⟨p, -, -, -, accepts⟩ := accepted
  obtain ⟨p', -, -, -, accepts'⟩ := accepted'
  have digests := accepts.proof.trans (same.trans accepts'.proof.symm)
  unfold closureId proofStatement at digests
  have member := lookup_eq_of_digest free digests "capsule_id"
  simp [List.lookup_cons, Json.sortKeys] at member
  rw [accepts.capsuleId, accepts'.capsuleId, member]

/-- The closure that is in the store under the identifier of a closure that was
put there. -/
theorem Sound.kept (rows : config.Sound log) (free : CollisionFree) {closure : ClosureProof}
    (row : .put (.closure closure) ∈ log) : ∃ kept ∈ items log Row.closure?, kept.capsuleId = closure.capsuleId := by
  obtain ⟨kept, member, row', inLog, picked⟩ := items_of_put row (Row.closure?_eq.mpr ⟨rfl, rfl⟩)
  obtain ⟨rfl, same⟩ := Row.closure?_eq.mp picked
  obtain ⟨c, -, accepted⟩ := rows.accepted closure row
  obtain ⟨d, -, accepted'⟩ := rows.accepted kept inLog
  exact ⟨kept, member, accepted'.capsuleId_eq free accepted same⟩

theorem start_contains (free : CollisionFree) (proper : config.Proper log) (k : String) :
    (config.start log).node.protocol.closures.contains k = true ↔
      ∃ closure, .put (.closure closure) ∈ log ∧ closure.capsuleId = k := by
  rw [Dict.contains_iff]
  simp only [start_closures free proper]
  constructor
  · rintro ⟨closure, found⟩
    exact ⟨closure, mem_items_closure (List.mem_of_find?_eq_some found), by simpa using List.find?_some found⟩
  · rintro ⟨closure, row, rfl⟩
    obtain ⟨kept, member, same⟩ := proper.kept free row
    exact Option.isSome_iff_exists.mp (List.find?_isSome.mpr ⟨kept, member, by simpa using same⟩)

theorem start_backed (free : CollisionFree) (proper : config.Proper log) : (config.start log).node.Backed config := by
  have same : (config.start log).node.log = log := (config.fresh log).restore_log
  have recalled := config.start_recalled log
  refine ⟨config.start_holds proper.bound, config.start_sealed free (fun known row => ?_) proper.filed,
    recalled.members, recalled.epoch, same.symm ▸ proper.toSound, fun k known found => ?_⟩
  · rcases proper.origin known row with initial | ⟨capsule, closure, old, -, -, -, named, -, made⟩
    · exact Or.inl initial
    · exact Or.inr ⟨old, capsule, trivial, named, made⟩
  · rw [same]
    exact ((start_known free).mp found).2

theorem proper_nil (config : NodeConfig) : config.Proper [] := by
  refine ⟨⟨?_, ?_, ?_⟩, ?_, ?_⟩ <;> simp

end NodeConfig

theorem MosaicNode.Backed.proper {config : NodeConfig} {s : MosaicNode} (backed : s.Backed config) :
    config.Proper s.log :=
  ⟨backed.rows, backed.holds.rows, backed.sealed.filed⟩

/-- Wherever the log of a step is cut off, a node can be restarted from it. -/
theorem NodeUpdate.proper_take {config : NodeConfig} {s t : MosaicNode} {event : NodeEvent}
    (update : NodeUpdate event s t) (free : CollisionFree) (backed : s.Backed config) (genuine : event.Genuine) {k : Nat}
    (later : s.log.length < k) : config.Proper (t.log.take k) := by
  have after := update.backed free backed genuine
  exact ⟨update.sound_take free backed genuine later.le,
    fun capsule member => after.holds.rows capsule (List.mem_of_mem_take member),
    update.filed_take later backed.sealed.filed after.sealed.filed⟩

/-- In every life in which all capsules are genuine, crashes at any point
included. -/
theorem Life.backed {config : NodeConfig} {allowed : Running → LifeEvent → Prop} {s : Running}
    (life : Life config allowed s) (free : CollisionFree)
    (brings : ∀ s event, allowed s event → event.Brings Capsule.Bound) :
    s.Holds Capsule.Bound ∧ s.node.Backed config := by
  refine GuardedRun.invariant (P := fun s => s.Holds Capsule.Bound ∧ s.node.Backed config) life
    ⟨config.start_running, NodeConfig.start_backed free config.proper_nil⟩ ?_
  rintro s event ok ⟨holds, backed⟩
  have bring := brings s event ok
  refine ⟨holds.exec config bring, ?_⟩
  have trace := event.taken.exec_trace s
  cases event with
  | input input => exact trace.backed free holds bring backed
  | crash input effects =>
    obtain ⟨u, reached, cut⟩ := trace.take (Nat.le_add_right s.node.log.length effects)
    have before := NodeTrace.backed free holds bring backed reached
    simp only [LifeEvent.exec]
    rcases cut with same | ⟨change, v, cause, update, later, same⟩
    · exact same.symm ▸ NodeConfig.start_backed free before.proper
    · have genuine := holds.genuine bring cause
      exact same.symm ▸ NodeConfig.start_backed free (update.proper_take free before genuine later)

end Mosaic
