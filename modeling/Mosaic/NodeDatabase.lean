import Mosaic.NodeRestart
import Mosaic.Storage
import Mosaic.Wire

namespace Mosaic
open CanonicalJson Effects

section Rows
variable [Crypto]

def Row.kind : Row → String
  | .capsule _ => "capsule"
  | .receipt _ => "receipt"
  | .closure _ => "closure"
  | .sealKnown _ => "seal_known"
  | .sealCurrent _ => "seal_current"

def Row.key : Row → String
  | .capsule c => c.capsuleId
  | .receipt r => r.receiptId
  | .closure proof => proof.proofId
  | .sealKnown known => known.sealId
  | .sealCurrent current => current.resourceId

def Row.payload : Row → Json
  | .capsule c => capsuleToWire c
  | .receipt r => receiptToWire r
  | .closure proof => closureToWire proof
  | .sealKnown known => sealToWire known
  | .sealCurrent current => sealToWire current

/-- The object of the kind that the effect puts, with its key. -/
def Effect.object (kind : String) : Effect → Option (String × Json)
  | .put row => if row.kind = kind then some (row.key, row.payload) else none
  | _ => none

/-- `_persist`. -/
def Effect.persist : Effect → Option StoreCall
  | .put row => some (.put none row.kind row.key row.payload true)
  | _ => none

def rowKinds : List String := ["capsule", "receipt", "closure", "seal_known", "seal_current"]

/-- Of the kinds of the node the file has the rows of the log; the calls may also be
about other kinds, take snapshots and delete events. -/
def Filed (calls : List StoreCall) (log : List Effect) : Prop :=
  ∀ kind ∈ rowKinds, StoreCall.committed calls kind = log.filterMap (Effect.object kind)

theorem filed_persist (log : List Effect) : Filed (log.filterMap Effect.persist) log := by
  intro kind _
  rw [StoreCall.committed, List.filterMap_filterMap]
  refine List.filterMap_congr fun effect _ => ?_
  cases effect <;> rfl

end Rows

section Restore
variable [Crypto] [FloatFormat]

/-- `for _, payload in self.store.items(kind)`. -/
def MosaicNode.restoreKind {α : Type} (read : Json → Except ReadError α) (step : MosaicNode → α → MosaicNode) (db : Database)
    (kind : String) (s : MosaicNode) : Except ReadError MosaicNode := do
  let rows ← db.items kind
  rows.foldlM (fun s row => do
    let a ← read row.2
    return step s a) s

/-- `_restore` of the rows in the file; an exception ends the node before it serves. -/
def MosaicNode.restoreFrom (ints : IntReading) (db : Database) (s : MosaicNode) : Except ReadError MosaicNode := do
  let known ← restoreKind (sealFromWire ints) restoreSealKnown db "seal_known" s
  let current ← restoreKind (sealFromWire ints) restoreSealCurrent db "seal_current" known
  let stored ← restoreKind (capsuleFromWire ints) restoreCapsule db "capsule" current
  let pooled ← restoreKind (receiptFromWire ints) restoreReceipt db "receipt" stored
  restoreKind (closureFromWire ints) restoreClosure db "closure" pooled

omit [FloatFormat] in
/-- The effects that put rows of the kind put what `pick` finds in them. -/
theorem object_eq {α : Type} {kind : String} {pick : Row → Option (String × α)} {write : α → Json}
    (same : ∀ row : Row, (if row.kind = kind then some (row.key, row.payload) else none) =
      (pick row).map fun entry => (entry.1, write entry.2)) (log : List Effect) :
    log.filterMap (Effect.object kind) =
      (log.filterMap fun effect => match effect with
        | .put row => pick row
        | _ => none).map fun entry => (entry.1, write entry.2) := by
  rw [List.map_filterMap]
  refine List.filterMap_congr fun effect _ => ?_
  cases effect with
  | put row => exact same row
  | _ => rfl

omit [Crypto] [FloatFormat] in
theorem get?_ofList_map {α β : Type} (pairs : List (String × α)) (f : α → β) (key : String) :
    (Dict.ofList (pairs.map fun entry => (entry.1, f entry.2))).get? key = ((Dict.ofList pairs).get? key).map f := by
  rw [Dict.get?_ofList, Dict.get?_ofList, List.filter_map, List.getLast?_map, Option.map_map, Option.map_map]
  rfl

namespace MosaicNode

/-- The rows of a kind are restored as they were put. -/
theorem restoreKind_eq {α : Type} {kind : String} {write : α → Json} {read : Json → Except ReadError α}
    (pick : Row → Option (String × α)) (step : MosaicNode → α → MosaicNode) (reads : Reads read write) (held : ∀ a, (write a).Held)
    (same : ∀ row : Row, (if row.kind = kind then some (row.key, row.payload) else none) =
      (pick row).map fun entry => (entry.1, write entry.2)) (ints : IntReading) {calls : List StoreCall} {log : List Effect}
    (filed : StoreCall.committed calls kind = log.filterMap (Effect.object kind)) (s : MosaicNode) :
    restoreKind read step (StoreCall.run ints calls .blank) kind s = .ok ((Mosaic.items log pick).foldl step s) := by
  have rows : ∀ key, ((StoreCall.run ints calls .blank).objects.get? (kind, key)).map ObjectRow.payload =
      ((rowsOf log pick).get? key).map fun a => dumps (write a) := by
    intro key
    rw [Database.object_run, filed, object_eq same, get?_ofList_map, Option.map_map, Option.map_map]
    rfl
  have loop : ∀ (entries : List (String × α)) (t : MosaicNode),
      (entries.map fun entry => (entry.1, (write entry.2).sortKeys)).foldlM (fun s row => do
        let a ← read row.2
        return step s a) t = (.ok ((entries.map Prod.snd).foldl step t) : Except ReadError MosaicNode) := by
    intro entries
    induction entries with
    | nil => exact fun _ => rfl
    | cons entry entries ih =>
      intro t
      have here := reads entry.2 (write entry.2).sortKeys (sortKeys_sortKeys _)
      rw [List.map_cons, List.foldlM_cons, here]
      exact ih (step t entry.2)
  rw [restoreKind, Database.items_eq (fun _ a _ => held a) rows]
  exact loop _ s

/-- A node that reads the file that has its rows restores what its log says. -/
theorem restoreFrom_eq (ints : IntReading) {calls : List StoreCall} {s : MosaicNode} (filed : Filed calls s.log) :
    s.restoreFrom ints (StoreCall.run ints calls .blank) = .ok s.restore := by
  have known := restoreKind_eq Row.sealKnown? restoreSealKnown (reads_sealToWire ints) held_sealToWire
    (fun row => by cases row <;> rfl) ints (filed "seal_known" (by decide))
  have current := restoreKind_eq Row.sealCurrent? restoreSealCurrent (reads_sealToWire ints) held_sealToWire
    (fun row => by cases row <;> rfl) ints (filed "seal_current" (by decide))
  have stored := restoreKind_eq Row.capsule? restoreCapsule (reads_capsuleToWire ints) held_capsuleToWire
    (fun row => by cases row <;> rfl) ints (filed "capsule" (by decide))
  have pooled := restoreKind_eq Row.receipt? restoreReceipt (reads_receiptToWire ints) held_receiptToWire
    (fun row => by cases row <;> rfl) ints (filed "receipt" (by decide))
  have closed := restoreKind_eq Row.closure? restoreClosure (reads_closureToWire ints) held_closureToWire
    (fun row => by cases row <;> rfl) ints (filed "closure" (by decide))
  unfold restoreFrom
  simp only [known, current, stored, pooled, closed, bind, Except.bind]
  rfl

end MosaicNode

/-- A node with its file, or nothing where the node could not start. The log of the node
is what it has done; nothing is read from it. -/
abbrev FiledNode := Option (Running × Database)

/-- The node is started on the file. -/
def NodeConfig.boot (config : NodeConfig) (ints : IntReading) (log : List Effect) (db : Database) : FiledNode :=
  match (config.fresh log).restoreFrom ints db with
  | .ok node => some (⟨node, []⟩, db)
  | .error _ => none

/-- Something happens to the node, or the file is written by somebody else. -/
inductive FileEvent
  | live (event : LifeEvent)
  | store (call : StoreCall)

/-- What was put into the file since the log had so many effects. -/
def putSince (ints : IntReading) (before : Nat) (log : List Effect) (db : Database) : Database :=
  StoreCall.run ints ((log.drop before).filterMap Effect.persist) db

/-- A killed handler has put the rows of its first effects, and the node starts from the
file that is there then. -/
def FileEvent.exec (config : NodeConfig) (ints : IntReading) (event : FileEvent) (filed : FiledNode) : FiledNode :=
  filed.bind fun (s, db) =>
    match event with
    | .live (.input input) => some (input.exec s, putSince ints s.node.log.length (input.exec s).node.log db)
    | .live (.crash input effects) =>
      let log := (input.exec s).node.log.take (s.node.log.length + effects)
      config.boot ints log (putSince ints s.node.log.length log db)
    | .store call => some (s, call.exec ints db)

/-- The others leave the kinds of the node alone. -/
def FileEvent.Allowed (allowed : Running → LifeEvent → Prop) (filed : FiledNode) : FileEvent → Prop
  | .live event => ∀ s db, filed = some (s, db) → allowed s event
  | .store call => ∀ kind ∈ rowKinds, call.writes kind = none

/-- The node on its file lives as the node with its log does. -/
structure FiledNode.Refines (config : NodeConfig) (allowed : Running → LifeEvent → Prop) (ints : IntReading)
    (filed : FiledNode) (s : Running) (db : Database) : Prop where
  here : filed = some (s, db)
  life : Life config allowed s
  rows : ∃ calls, db = StoreCall.run ints calls .blank ∧ Filed calls s.node.log

omit [FloatFormat] in
theorem Filed.append {calls : List StoreCall} {log : List Effect} (filed : Filed calls log) (later : List Effect) :
    Filed (calls ++ later.filterMap Effect.persist) (log ++ later) := by
  intro kind member
  have old := filed kind member
  have new := filed_persist later kind member
  rw [StoreCall.committed] at old new ⊢
  rw [List.filterMap_append, List.filterMap_append, old, new]

omit [FloatFormat] in
theorem filed_putSince (ints : IntReading) {s : Running} {db : Database} {log : List Effect}
    (rows : ∃ calls, db = StoreCall.run ints calls .blank ∧ Filed calls s.node.log) (grown : s.node.log <+: log) :
    ∃ calls, putSince ints s.node.log.length log db = StoreCall.run ints calls .blank ∧ Filed calls log := by
  obtain ⟨calls, rfl, filed⟩ := rows
  obtain ⟨later, rfl⟩ := grown
  refine ⟨calls ++ later.filterMap Effect.persist, ?_, filed.append later⟩
  rw [putSince, List.drop_left, StoreCall.run_append]

theorem NodeConfig.boot_eq (config : NodeConfig) (ints : IntReading) {calls : List StoreCall} {log : List Effect}
    (filed : Filed calls log) :
    config.boot ints log (StoreCall.run ints calls .blank) = some (config.start log, StoreCall.run ints calls .blank) := by
  have restored := @MosaicNode.restoreFrom_eq _ _ ints calls (config.fresh log) filed
  rw [boot, restored]
  rfl

/-- A node that keeps its rows in a file, where other rows are written, snapshots are
taken and events are deleted, and that is killed and started on the file again, lives as
the node does that remembers all its effects; and it always starts. -/
theorem filed_node_refines {config : NodeConfig} {allowed : Running → LifeEvent → Prop} {ints : IntReading}
    {filed : FiledNode} (run : GuardedRun (FileEvent.exec config ints) (FileEvent.Allowed allowed)
      (config.boot ints [] .blank) filed) : ∃ s db, filed.Refines config allowed ints s db := by
  have empty : Filed [] [] := fun _ _ => rfl
  have boot := config.boot_eq ints empty
  induction run with
  | refl => exact ⟨_, _, boot, .refl, [], rfl, empty⟩
  | @tail filed event _ ok ih =>
    obtain ⟨s, db, rfl, life, rows⟩ := ih
    cases event with
    | store call =>
      refine ⟨s, call.exec ints db, rfl, life, ?_⟩
      obtain ⟨calls, rfl, filed⟩ := rows
      refine ⟨calls ++ [call], by rw [StoreCall.run_append]; rfl, fun kind member => ?_⟩
      rw [StoreCall.committed, List.filterMap_append, List.filterMap_cons, ok kind member]
      simpa [StoreCall.committed] using filed kind member
    | live event =>
      have later : Life config allowed (event.exec config s) := life.tail (ok s db rfl)
      have trace := (event.taken.exec_trace s).log_extends
      cases event with
      | input input => exact ⟨_, _, rfl, later, filed_putSince ints rows trace⟩
      | crash input effects =>
        have grown : s.node.log <+: (input.exec s).node.log.take (s.node.log.length + effects) :=
          List.prefix_take_iff.mpr ⟨trace, Nat.le_add_right _ _⟩
        obtain ⟨calls, put, filed⟩ := filed_putSince ints rows grown
        refine ⟨_, putSince ints s.node.log.length _ db, ?_, later, calls, put, ?_⟩
        · show config.boot ints _ (putSince ints s.node.log.length _ db) = _
          rw [put]
          exact config.boot_eq ints filed
        · simp only [LifeEvent.exec, NodeConfig.start_node, MosaicNode.restore_log, NodeConfig.fresh_log]
          exact filed

/-- A capsule is accepted, the old events are deleted, and the node starts again. -/
def restartOnFile (pair : KeyPair) : FiledNode :=
  [.live (soloClaim pair "a"), .store (.pruneEventsBefore none 2 []), .live soloRestart].foldl
    (fun filed event => FileEvent.exec (soloConfig pair) plainInts event filed)
    ((soloConfig pair).boot plainInts [] .blank)

theorem restartOnFile_run (pair : KeyPair) :
    GuardedRun (FileEvent.exec (soloConfig pair) plainInts) (FileEvent.Allowed fun _ _ => True)
      ((soloConfig pair).boot plainInts [] .blank) (restartOnFile pair) := by
  unfold restartOnFile
  simp only [List.foldl_cons, List.foldl_nil]
  refine ((GuardedRun.refl.tail ?_).tail ?_).tail ?_
  · exact fun _ _ _ => trivial
  · exact fun _ _ => rfl
  · exact fun _ _ _ => trivial

end Restore

theorem filed_node_refines_solo : let _ := Crypto.ideal; let _ := FloatFormat.half
    ∃ s db, (restartOnFile idealKey).Refines (soloConfig idealKey) (fun _ _ => True) plainInts s db := by
  intro _ _
  exact filed_node_refines (restartOnFile_run idealKey)

end Mosaic
