import Mosaic.SealChain
import Mosaic.NodeRuns

namespace Mosaic
open CanonicalJson Effects

variable [Crypto]

omit [Crypto] in
theorem mem_items {α : Type} {log : List Effect} {pick : Row → Option (String × α)} {a : α}
    (member : a ∈ items log pick) : ∃ row key, .put row ∈ log ∧ pick row = some (key, a) := by
  obtain ⟨⟨key, b⟩, inSorted, rfl⟩ := List.mem_map.mp member
  have inEntries := (sortedBy_perm _ _).mem_iff.mp inSorted
  have written := Dict.mem_of_get?_ofList ((Dict.get?_eq_some_iff _).mpr inEntries)
  obtain ⟨effect, inLog, picked⟩ := List.mem_filterMap.mp written
  cases effect with
  | put row => exact ⟨row, key, inLog, picked⟩
  | _ => cases picked

omit [Crypto] in
/-- A row that was put is still there, or another one under its key. -/
theorem items_of_put {α : Type} {log : List Effect} {pick : Row → Option (String × α)} {row : Row} {key : String} {a : α}
    (inLog : .put row ∈ log) (picked : pick row = some (key, a)) :
    ∃ b ∈ items log pick, ∃ row', .put row' ∈ log ∧ pick row' = some (key, b) := by
  have written : key ∈ (rowsOf log pick).keys :=
    Dict.mem_keys_ofList.mpr (List.mem_map.mpr ⟨(key, a), List.mem_filterMap.mpr ⟨_, inLog, picked⟩, rfl⟩)
  obtain ⟨b, found⟩ := Dict.mem_keys.mp written
  have pair := Dict.mem_of_get?_ofList found
  obtain ⟨effect, inLog', picked'⟩ := List.mem_filterMap.mp pair
  have member : b ∈ items log pick :=
    List.mem_map.mpr ⟨(key, b), (sortedBy_perm _ _).mem_iff.mpr ((Dict.get?_eq_some_iff _).mp found), rfl⟩
  cases effect with
  | put row' => exact ⟨b, member, row', inLog', picked'⟩
  | _ => cases picked'

theorem Row.sealKnown?_eq {row : Row} {key : String} {known : StateSeal} :
    row.sealKnown? = some (key, known) ↔ row = .sealKnown known ∧ known.sealId = key := by
  cases row <;> simp [Row.sealKnown?]
  grind

omit [Crypto] in
theorem Row.sealCurrent?_eq {row : Row} {key : String} {current : StateSeal} :
    row.sealCurrent? = some (key, current) ↔ row = .sealCurrent current ∧ current.resourceId = key := by
  cases row <;> simp [Row.sealCurrent?]
  grind

/-- A seal that the node was started with, or the successor that a capsule of the
kind `K` has put in the place of the seal it names. -/
def Installed (K : Capsule → Prop) (initial : List StateSeal) (current : StateSeal) : Prop :=
  current ∈ initial ∨ ∃ old capsule, K capsule ∧ old.sealId = capsule.predecessorId ∧ current = nextSeal old capsule

/-- All seals that a node has, in memory and in its store, were installed, and
they are filed properly. -/
structure MosaicNode.Sealed (K : Capsule → Prop) (initial : List StateSeal) (s : MosaicNode) : Prop where
  chained : s.protocol.Chained
  keyed : ∀ k known, s.protocol.knownSeals.get? k = some known → known.sealId = k
  known : ∀ k known, s.protocol.knownSeals.get? k = some known → Installed K initial known
  rows : ∀ known, .put (.sealKnown known) ∈ s.log → Installed K initial known
  filed : ∀ current, .put (.sealCurrent current) ∈ s.log → .put (.sealKnown current) ∈ s.log

namespace MosaicNode

variable {K : Capsule → Prop} {initial : List StateSeal} {s t : MosaicNode}

theorem Sealed.current (sealed : s.Sealed K initial) {r : String} {current : StateSeal}
    (held : s.protocol.currentSeals.get? r = some current) : Installed K initial current :=
  sealed.known _ _ (sealed.chained.known r current held)

/-- Changes elsewhere do not matter. -/
theorem Sealed.congr (sealed : s.Sealed K initial) (currents : t.protocol.currentSeals = s.protocol.currentSeals)
    (knowns : t.protocol.knownSeals = s.protocol.knownSeals)
    (known : ∀ known, .put (.sealKnown known) ∈ t.log ↔ .put (.sealKnown known) ∈ s.log)
    (current : ∀ current, .put (.sealCurrent current) ∈ t.log → .put (.sealCurrent current) ∈ s.log) :
    t.Sealed K initial := by
  refine ⟨⟨?_, ?_⟩, ?_, ?_, fun row member => sealed.rows row ((known row).mp member),
    fun row member => (known row).mpr (sealed.filed row (current row member))⟩
  · exact currents ▸ sealed.chained.resource
  · exact currents ▸ knowns ▸ sealed.chained.known
  · exact knowns ▸ sealed.keyed
  · exact knowns ▸ sealed.known

/-- Installing a seal of the right origin. -/
theorem Sealed.installSeal (sealed : s.Sealed K initial) (free : CollisionFree) {fresh : StateSeal}
    (origin : Installed K initial fresh) : (s.setProtocol (s.protocol.installSeal fresh)).Sealed K initial := by
  refine ⟨sealed.chained.installSeal free fresh, fun k known found => ?_, fun k known found => ?_, sealed.rows,
    sealed.filed⟩ <;> rw [setProtocol_protocol, Instance.installSeal_knownSeals] at found <;>
    rcases Dict.origin_of_get?_set found with ⟨rfl, rfl⟩ | old
  · rfl
  · exact sealed.keyed k known old
  · exact origin
  · exact sealed.known k known old

/-- The rows of a closing are rows of seals that the node has. -/
theorem Sealed.closingRows (sealed : s.Sealed K initial) {closure : ClosureProof} {capsule : Capsule}
    {predecessor current : StateSeal} (known : s.protocol.knownSeals.get? capsule.predecessorId = some predecessor)
    (held : s.protocol.currentSeals.get? predecessor.resourceId = some current) :
    { s with log := s.log ++ Mosaic.closingRows closure predecessor current }.Sealed K initial := by
  refine ⟨sealed.chained, sealed.keyed, sealed.known, fun row member => ?_, fun row member => ?_⟩
  · rcases List.mem_append.mp member with old | new
    · exact sealed.rows row old
    · simp only [Mosaic.closingRows, List.mem_cons, Effect.put.injEq, Row.sealKnown.injEq, reduceCtorEq, false_or,
        or_false, List.not_mem_nil] at new
      rcases new with rfl | rfl
      · exact sealed.known _ _ known
      · exact sealed.current held
  · rcases List.mem_append.mp member with old | new
    · exact List.mem_append_left _ (sealed.filed row old)
    · simp only [Mosaic.closingRows, List.mem_cons, Effect.put.injEq, Row.sealCurrent.injEq, reduceCtorEq, false_or,
        or_false, List.not_mem_nil] at new
      subst new
      exact List.mem_append_right _ (by simp [Mosaic.closingRows])

theorem Sealed.settles (sealed : s.Sealed K initial) (free : CollisionFree) {capsule : Capsule} {closure : ClosureProof}
    {p : Instance} (settles : s.protocol.Settles capsule closure p)
    (applies : s.protocol.AtHead capsule → K capsule) : (s.setProtocol p).Sealed K initial := by
  obtain ⟨closures, frame⟩ := s.protocol.withClosure_frame capsule closure
  have registered : (s.setProtocol (s.protocol.withClosure capsule closure)).Sealed K initial := by
    rw [frame]
    exact sealed.congr rfl rfl (fun _ => Iff.rfl) fun _ => id
  cases settles with
  | installed registrable head named =>
    exact registered.installSeal free (Or.inr ⟨_, capsule, applies ⟨_, head, named⟩, named, rfl⟩)
  | repeated => exact registered

end MosaicNode
open MosaicNode

theorem NodeUpdate.sealed {K : Capsule → Prop} {initial : List StateSeal} {s t : MosaicNode} {event : NodeEvent}
    (update : NodeUpdate event s t) (free : CollisionFree) (sealed : s.Sealed K initial)
    (applies : ∀ p capsule closure, event = .closed p capsule closure → p.Registrable capsule closure →
      p.AtHead capsule → K capsule) : t.Sealed K initial := by
  have quiet : ∀ effect, t.protocol.currentSeals = s.protocol.currentSeals →
      t.protocol.knownSeals = s.protocol.knownSeals → t.log = s.log ++ [effect] →
      (∀ known, effect ≠ .put (.sealKnown known)) → (∀ current, effect ≠ .put (.sealCurrent current)) →
      t.Sealed K initial := by
    intro effect currents knowns log notKnown notCurrent
    refine sealed.congr currents knowns (fun known => ?_) fun current member => ?_
    · rw [log, List.mem_append, List.mem_singleton]
      exact or_iff_left (notKnown known).symm
    · rw [log, List.mem_append, List.mem_singleton] at member
      exact member.resolve_right (notCurrent current).symm
  cases update with
  | stored | arrived | keptReceipt | signed | sent | finished | answered =>
    exact quiet _ rfl rfl rfl (by simp) (by simp)
  | @closed _ capsule closure p predecessor current settles known held =>
    have settled := sealed.settles free settles fun head => by
      cases settles with
      | installed registrable => exact applies _ _ _ rfl registrable head
      | repeated registrable => exact applies _ _ _ rfl registrable head
    exact settled.closingRows known held
  | @stranded _ capsule closure strands =>
    obtain ⟨closures, frame⟩ := s.protocol.withClosure_frame capsule closure
    rw [frame]
    exact sealed.congr rfl rfl (fun _ => Iff.rfl) fun _ => id
  | witnessed seen kind change =>
    cases change with
    | claimed | released | contested | signed => exact sealed.congr rfl rfl (fun _ => Iff.rfl) fun _ => id
    | _ => exact kind.elim
  | _ => exact sealed.congr rfl rfl (fun _ => Iff.rfl) fun _ => id

namespace NodeConfig

variable {K : Capsule → Prop} (config : NodeConfig)

theorem fresh_sealed (free : CollisionFree) : (config.fresh []).Sealed K config.initialSeals := by
  suffices general : ∀ (seals : List StateSeal) (s : MosaicNode), (∀ fresh ∈ seals, fresh ∈ config.initialSeals) →
      s.Sealed K config.initialSeals →
      (s.setProtocol (seals.foldl Instance.installSeal s.protocol)).Sealed K config.initialSeals by
    refine general config.initialSeals
      ((config.fresh []).setProtocol (.fresh config.members config.epoch)) (fun _ => id) ?_
    refine ⟨⟨?_, ?_⟩, ?_, ?_, ?_, ?_⟩ <;> intros <;> contradiction
  intro seals
  induction seals with
  | nil => exact fun s _ sealed => sealed
  | cons fresh seals ih =>
    intro s initial sealed
    obtain ⟨first, later⟩ := List.forall_mem_cons.mp initial
    exact ih (s.setProtocol (s.protocol.installSeal fresh)) later (sealed.installSeal free (Or.inl first))

/-- A node that starts with proper rows has proper seals. -/
theorem start_sealed (free : CollisionFree) {log : List Effect}
    (rows : ∀ known, .put (.sealKnown known) ∈ log → Installed K config.initialSeals known)
    (filed : ∀ current, .put (.sealCurrent current) ∈ log → .put (.sealKnown current) ∈ log) :
    (config.start log).node.Sealed K config.initialSeals := by
  have initial := config.fresh_sealed (K := K) free
  have knownRow : ∀ known ∈ items log Row.sealKnown?, .put (.sealKnown known) ∈ log := by
    intro known member
    obtain ⟨row, key, inLog, picked⟩ := mem_items member
    obtain ⟨rfl, -⟩ := Row.sealKnown?_eq.mp picked
    exact inLog
  have currentRow : ∀ current ∈ items log Row.sealCurrent?, .put (.sealCurrent current) ∈ log := by
    intro current member
    obtain ⟨row, key, inLog, picked⟩ := mem_items member
    obtain ⟨rfl, -⟩ := Row.sealCurrent?_eq.mp picked
    exact inLog
  obtain ⟨closures, seen, pool, restored⟩ := (config.fresh log).restore_frame
  rw [start_node, restored]
  have knowns : (config.fresh log).recalled.knownSeals =
      config.protocol.knownSeals.writeAll StateSeal.sealId (items log Row.sealKnown?) := rfl
  have currents : (config.fresh log).recalled.currentSeals =
      config.protocol.currentSeals.writeAll StateSeal.resourceId (items log Row.sealCurrent?) := rfl
  generalize (config.fresh log).recalled = p at knowns currents
  have keyed : ∀ k known, p.knownSeals.get? k = some known → known.sealId = k := by
    intro k known found
    rw [knowns] at found
    rcases Dict.get?_writeAll found with ⟨-, same⟩ | ⟨old, -⟩
    · exact same
    · exact initial.keyed k known old
  refine ⟨⟨fun r current held => ?_, fun r current held => ?_⟩, keyed, fun k known found => ?_, rows, filed⟩
  · change p.currentSeals.get? r = some current at held
    rw [currents] at held
    rcases Dict.get?_writeAll held with ⟨-, same⟩ | ⟨old, -⟩
    · exact same
    · exact initial.chained.resource r current old
  · change p.currentSeals.get? r = some current at held
    have some : ∃ known, p.knownSeals.get? current.sealId = some known := by
      rw [currents] at held
      rw [knowns]
      rcases Dict.get?_writeAll held with ⟨member, -⟩ | ⟨old, -⟩
      · have picked := Row.sealKnown?_eq.mpr ⟨rfl, (rfl : current.sealId = current.sealId)⟩
        obtain ⟨known, inItems, row, -, picked'⟩ := items_of_put (filed current (currentRow current member)) picked
        rw [← (Row.sealKnown?_eq.mp picked').2]
        exact Dict.get?_writeAll_of_mem inItems
      · by_cases written : ∃ known ∈ items log Row.sealKnown?, known.sealId = current.sealId
        · obtain ⟨known, inItems, same⟩ := written
          rw [← same]
          exact Dict.get?_writeAll_of_mem inItems
        · push Not at written
          exact ⟨current, (Dict.get?_writeAll_of_missing written).trans (initial.chained.known r current old)⟩
    obtain ⟨known, found⟩ := some
    rw [StateSeal.eq_of_sealId free (keyed _ _ found)] at found
    exact found
  · change p.knownSeals.get? k = some known at found
    rw [knowns] at found
    rcases Dict.get?_writeAll found with ⟨member, -⟩ | ⟨old, -⟩
    · exact rows known (knownRow known member)
    · exact initial.known k known old

end NodeConfig

/-- In every cut of a log the row of a current seal comes after its row as a known
seal. -/
theorem NodeUpdate.filed_take {s t : MosaicNode} {event : NodeEvent} (update : NodeUpdate event s t) {k : Nat}
    (later : s.log.length < k) (filed : ∀ current, .put (.sealCurrent current) ∈ s.log → .put (.sealKnown current) ∈ s.log)
    (filed' : ∀ current, .put (.sealCurrent current) ∈ t.log → .put (.sealKnown current) ∈ t.log) :
    ∀ current, .put (.sealCurrent current) ∈ t.log.take k → .put (.sealKnown current) ∈ t.log.take k := by
  obtain ⟨effects, same, short | ⟨capsule, closure, predecessor, now, -, rfl⟩⟩ := update.log
  · rw [List.take_of_length_le (by rw [same, List.length_append]; omega)]
    exact filed'
  intro current member
  rw [same, List.take_append] at member ⊢
  rw [List.take_of_length_le later.le] at member ⊢
  rcases List.mem_append.mp member with old | new
  · exact List.mem_append_left _ (filed current old)
  refine List.mem_append_right _ ?_
  -- only the last of the four rows is a row of a current seal
  rcases Nat.lt_or_ge (k - s.log.length) 4 with cut | whole
  · obtain ⟨m, cutAt⟩ : ∃ m, k - s.log.length = m + 1 := ⟨k - s.log.length - 1, by omega⟩
    rw [cutAt] at new cut
    have few : m = 0 ∨ m = 1 ∨ m = 2 := by omega
    rcases few with rfl | rfl | rfl <;> simp [closingRows] at new
  · rw [List.take_of_length_le (by simpa [closingRows] using whole)] at new ⊢
    simp only [closingRows, List.mem_cons, Effect.put.injEq, Row.sealCurrent.injEq, reduceCtorEq, false_or, or_false,
      List.not_mem_nil] at new
    simp [closingRows, new]

/-- Where a capsule is only put in the place of the seal it names when it is of the
kind `K`. -/
def Running.Applies (K : Capsule → Prop) (s : Running) (event : LifeEvent) : Prop :=
  ∀ frame, event.taken.frame s = some frame → ∀ capsule closure p, s.node.Closing frame capsule closure p →
    p.Registrable capsule closure → p.AtHead capsule → K capsule

theorem NodeTrace.sealed {K : Capsule → Prop} {initial : List StateSeal} {s : Running} {event : LifeEvent}
    (free : CollisionFree) (applies : s.Applies K event) (sealed : s.node.Sealed K initial) {u : MosaicNode}
    (trace : NodeTrace (s.Causes event.taken) s.node u) : u.Sealed K initial := by
  refine trace.invariant sealed ?_
  rintro change u v ⟨frame, run, cause⟩ update before
  refine update.sealed free before fun p capsule closure same registrable head => ?_
  subst same
  exact applies frame run capsule closure p cause registrable head

/-- Restarts included, all seals come from capsules of the kind `K`. -/
theorem Life.sealed {K : Capsule → Prop} {config : NodeConfig} {allowed : Running → LifeEvent → Prop} {s : Running}
    (life : Life config allowed s) (free : CollisionFree)
    (applies : ∀ s event, allowed s event → s.Applies K event) : s.node.Sealed K config.initialSeals := by
  refine life.invariant (config.fresh_sealed free) ?_ ?_
  · intro s event ok before u trace
    exact trace.sealed free (applies s event ok) before
  · intro s event ok before u trace
    have sealed := trace.sealed free (applies s event ok) before
    refine ⟨config.start_sealed free sealed.rows sealed.filed, fun change v k cause update later => ?_⟩
    have sealed' := NodeTrace.sealed free (applies s event ok) before (trace.tail ⟨change, cause, update⟩)
    exact config.start_sealed free (fun known member => sealed'.rows known (List.mem_of_mem_take member))
      (update.filed_take later sealed.filed sealed'.filed)

end Mosaic
