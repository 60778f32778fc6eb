import Mosaic.EventAppends
import Mosaic.LedgerPersistence
import Mosaic.Lib.Journal

namespace Mosaic
open CanonicalJson Effects

inductive StorageFault
  | storageError (message : String)
  | reading (error : ReadError)

/-- A row of `mosaic_objects`, besides its key. -/
structure ObjectRow where
  payload : String
  version : Nat

structure EventRow where
  seq : Nat
  eventKind : String
  objectKey : String
  payload : String
  deriving DecidableEq

structure SnapshotRow where
  baseEventSeq : Int
  payload : String

/-- The SQLite file of a node, without the time stamps of the rows. A table that is missing is
empty; `sequence` is the largest number that `AUTOINCREMENT` has given. -/
structure Database where
  mosaicMeta : Dict String String
  objects : Dict (String × String) ObjectRow
  events : List EventRow
  sequence : Nat
  snapshots : Dict String SnapshotRow

/-- What `get_snapshot` returns. -/
structure Snapshot where
  snapshotId : String
  baseEventSeq : Int
  payload : Json

abbrev PyStore := EStateM StorageFault Database

def currentSchemaVersion : Int := 2

namespace Database

/-- The file before it is opened for the first time. -/
def blank : Database where
  mosaicMeta := .empty
  objects := .empty
  events := []
  sequence := 0
  snapshots := .empty

/-- `BEGIN IMMEDIATE`, the statements and `commit`. What SQLite raises is rolled back;
that can be an error of the disk. -/
def transaction {α : Type} (disk : Option String) (statements : Database → Except String (α × Database)) : PyStore α :=
  fun db =>
    match disk with
    | some message => .error (.storageError message) db
    | none =>
      match statements db with
      | .ok (a, t) => .ok a t
      | .error message => .error (.storageError message) db

/-- `INSERT ... ON CONFLICT(kind, object_key) DO UPDATE`. -/
@[simps]
def writeObject (db : Database) (kind objectKey encoded : String) : Database :=
  { db with
    objects := db.objects.set (kind, objectKey)
      ⟨encoded, match db.objects.get? (kind, objectKey) with
        | some row => row.version + 1
        | none => 1⟩ }

@[simps]
def addEvent (db : Database) (kind objectKey encoded : String) : Database :=
  { db with
    events := db.events ++ [⟨db.sequence + 1, kind, objectKey, encoded⟩]
    sequence := db.sequence + 1 }

def put (disk : Option String) (kind objectKey : String) (payload : Json) (event : Bool) : PyStore PUnit :=
  let encoded := dumps payload
  transaction disk fun db =>
    let written := db.writeObject kind objectKey encoded
    .ok (⟨⟩, if event then written.addEvent kind objectKey encoded else written)

/-- `SELECT COALESCE(MAX(seq), 0)`. -/
def latest (db : Database) : Nat := (db.events.map EventRow.seq).foldl max 0

def createSnapshot (disk : Option String) (snapshotId : String) (payload : Json) (baseEventSeq : Option Int) :
    PyStore PUnit := do
  raiseIf (snapshotId = "") (.storageError "snapshot id cannot be empty")
  let encoded := dumps payload
  let db ← get
  let base := baseEventSeq.getD db.latest
  raiseIf (base < 0 ∨ db.latest < base) (.storageError "snapshot base event sequence is invalid")
  transaction disk fun db => .ok (⟨⟩, { db with snapshots := db.snapshots.set snapshotId ⟨base, encoded⟩ })

/-- An event that `DELETE` takes. -/
def Prunes (sequence : Int) (retainEventKinds : List String) (row : EventRow) : Prop :=
  row.seq < sequence ∧ row.eventKind ∉ retainEventKinds

instance (sequence : Int) (retainEventKinds : List String) (row : EventRow) :
    Decidable (Prunes sequence retainEventKinds row) := inferInstanceAs (Decidable (_ ∧ _))

/-- Integers of more than 64 bits cannot be bound. -/
def pruneEventsBefore (disk : Option String) (sequence : Int) (retainEventKinds : List String) : PyStore Int := do
  raiseIf (sequence < 0) (.storageError "event sequence cannot be negative")
  transaction disk fun db =>
    if 2 ^ 63 ≤ sequence then .error "Python int too large to convert to SQLite INTEGER"
    else
      let kept := db.events.filter fun row => !decide (Prunes sequence retainEventKinds row)
      .ok ((db.events.length - kept.length : Nat), { db with events := kept })

def schemaVersion (ints : IntReading) (db : Database) (missing : Int) : Except ReadError Int :=
  match db.mosaicMeta.get? "schema_version" with
  | some value => ints.read (.str value)
  | none => .ok missing

def migrate (fromVersion toVersion : Int) : PyStore PUnit :=
  if fromVersion ≤ 1 ∧ 1 < toVersion then return ⟨⟩
  else throw (.storageError s!"no migration path from schema {fromVersion} to {toVersion}")

/-- `__init__`; the version that is written is that of the program. -/
def createOrMigrate (ints : IntReading) : PyStore PUnit := do
  let db ← get
  let version ← ofExcept ((schemaVersion ints db 1).mapError .reading)
  raiseIf (currentSchemaVersion < version) (.storageError s!"unsupported future storage schema: {version}")
  if version < currentSchemaVersion then migrate version currentSchemaVersion
  modify fun db => { db with mosaicMeta := db.mosaicMeta.set "schema_version" (toString currentSchemaVersion) }

/-- The rows of a kind, under their keys. -/
def rowsOfKind (db : Database) (kind : String) : List (String × ObjectRow) :=
  db.objects.entries.filterMap fun entry => if entry.1.1 = kind then some (entry.1.2, entry.2) else none

section Reading
variable [FloatFormat]

/-- `json.loads`. -/
def decode (payload : String) : Except ReadError Json :=
  match loads payload.toList with
  | some value => .ok value
  | none => .error .valueError

def get (db : Database) (kind objectKey : String) : Except ReadError (Option Json) :=
  match db.objects.get? (kind, objectKey) with
  | some row => do
    let value ← decode row.payload
    return some value
  | none => .ok none

def items (db : Database) (kind : String) : Except ReadError (List (String × Json)) :=
  (sortedBy Prod.fst (db.rowsOfKind kind)).mapM fun row => do
    let value ← decode row.2.payload
    return (row.1, value)

def readSnapshot (snapshotId : String) (row : SnapshotRow) : Except ReadError Snapshot := do
  let payload ← decode row.payload
  return ⟨snapshotId, row.baseEventSeq, payload⟩

def getSnapshot (db : Database) (snapshotId : String) : Except ReadError (Option Snapshot) :=
  match db.snapshots.get? snapshotId with
  | some row => do
    let snapshot ← readSnapshot snapshotId row
    return some snapshot
  | none => .ok none

end Reading

end Database

/-- A call that writes, with the error of the disk that it meets, or the file is opened
again. A process that is killed has committed its last transaction or not. -/
inductive StoreCall
  | put (disk : Option String) (kind objectKey : String) (payload : Json) (event : Bool)
  | createSnapshot (disk : Option String) (snapshotId : String) (payload : Json) (baseEventSeq : Option Int)
  | pruneEventsBefore (disk : Option String) (sequence : Int) (retainEventKinds : List String)
  | reopen

namespace StoreCall

def exec (ints : IntReading) : StoreCall → Database → Database
  | .put disk kind objectKey payload event => final (Database.put disk kind objectKey payload event)
  | .createSnapshot disk snapshotId payload base => final (Database.createSnapshot disk snapshotId payload base)
  | .pruneEventsBefore disk sequence retained => final (Database.pruneEventsBefore disk sequence retained)
  | .reopen => final (Database.createOrMigrate ints)

/-- One call after the other. -/
def run (ints : IntReading) (calls : List StoreCall) (db : Database) : Database :=
  calls.foldl (fun db call => call.exec ints db) db

/-- The object of the kind that the call commits, with its key. -/
def writes (kind : String) : StoreCall → Option (String × Json)
  | .put none kind' objectKey payload _ => if kind' = kind then some (objectKey, payload) else none
  | _ => none

/-- The event that the call commits. -/
def logs : StoreCall → Option (String × String × Json)
  | .put none kind objectKey payload true => some (kind, objectKey, payload)
  | _ => none

/-- The call deletes the event. -/
def Removes (row : EventRow) : StoreCall → Prop
  | .pruneEventsBefore none sequence retained => sequence < 2 ^ 63 ∧ Database.Prunes sequence retained row
  | _ => False

end StoreCall

open Database

/-- What a call changes of the objects, the events and the number of the last event. -/
inductive StoreUpdate : StoreCall → Database → Database → Prop
  | wrote {db : Database} {kind objectKey : String} {payload : Json} : StoreUpdate (.put none kind objectKey payload false) db
      (db.writeObject kind objectKey (dumps payload))
  | logged {db : Database} {kind objectKey : String} {payload : Json} : StoreUpdate (.put none kind objectKey payload true) db
      ((db.writeObject kind objectKey (dumps payload)).addEvent kind objectKey (dumps payload))
  | pruned {db : Database} {sequence : Int} {retained : List String} (natural : 0 ≤ sequence) (small : sequence < 2 ^ 63) :
      StoreUpdate (.pruneEventsBefore none sequence retained) db
        { db with events := db.events.filter fun row => !decide (Prunes sequence retained row) }
  | other {call : StoreCall} {db t : Database} (objects : t.objects = db.objects) (events : t.events = db.events)
      (sequence : t.sequence = db.sequence) (writes : ∀ kind, call.writes kind = none)
      (logs : call.logs = none) (removes : ∀ row ∈ db.events, ¬ call.Removes row) : StoreUpdate call db t

/-- The snapshot is written or not, and nothing else. -/
theorem Database.final_createSnapshot (disk : Option String) (snapshotId : String) (payload : Json) (base : Option Int)
    (db : Database) : final (createSnapshot disk snapshotId payload base) db = db ∨
      ∃ row, final (createSnapshot disk snapshotId payload base) db =
        { db with snapshots := db.snapshots.set snapshotId row } := by
  unfold createSnapshot
  by_cases unnamed : snapshotId = ""
  · rw [final, raiseIf_bind_pos unnamed]
    exact Or.inl rfl
  rw [final, raiseIf_bind_neg unnamed, get_bind_apply]
  by_cases outside : base.getD db.latest < 0 ∨ (db.latest : Int) < base.getD db.latest
  · rw [raiseIf_bind_pos outside]
    exact Or.inl rfl
  rw [raiseIf_bind_neg outside]
  cases disk with
  | some message => exact Or.inl rfl
  | none => exact Or.inr ⟨_, rfl⟩

/-- Opening the file writes the version or nothing. -/
theorem Database.final_createOrMigrate (ints : IntReading) (db : Database) :
    ∃ mosaicMeta, final (createOrMigrate ints) db = { db with mosaicMeta := mosaicMeta } := by
  unfold createOrMigrate
  rw [final, get_bind_apply]
  cases (schemaVersion ints db 1).mapError StorageFault.reading with
  | error fault => exact ⟨_, rfl⟩
  | ok version =>
    rw [ofExcept_ok_bind]
    by_cases future : currentSchemaVersion < version
    · rw [raiseIf_bind_pos future]
      exact ⟨_, rfl⟩
    rw [raiseIf_bind_neg future]
    by_cases older : version < currentSchemaVersion
    · have path : version ≤ 1 ∧ 1 < currentSchemaVersion := by
        rw [currentSchemaVersion] at older ⊢
        omega
      simp only [if_pos older, migrate, if_pos path]
      exact ⟨_, rfl⟩
    · simp only [if_neg older]
      exact ⟨_, rfl⟩

/-- Events are deleted, or nothing happens. -/
theorem Database.final_pruneEventsBefore (disk : Option String) (sequence : Int) (retained : List String) (db : Database) :
    final (Database.pruneEventsBefore disk sequence retained) db =
      if disk = none ∧ 0 ≤ sequence ∧ sequence < 2 ^ 63 then
        { db with events := db.events.filter fun row => !decide (Prunes sequence retained row) }
      else db := by
  rw [Database.pruneEventsBefore, final]
  by_cases negative : sequence < 0
  · rw [raiseIf_bind_pos negative, if_neg (by omega)]
  rw [raiseIf_bind_neg negative]
  cases disk with
  | some message => rfl
  | none =>
    by_cases large : 2 ^ 63 ≤ sequence
    · simp only [transaction, if_pos large]
      rw [if_neg (by omega)]
    · simp only [transaction, if_neg large]
      rw [if_pos ⟨trivial, by omega, by omega⟩]

theorem StoreCall.exec_update (ints : IntReading) (call : StoreCall) (db : Database) : StoreUpdate call db (call.exec ints db) := by
  cases call with
  | put disk kind objectKey payload event =>
    cases disk with
    | some message => exact .other rfl rfl rfl (fun _ => rfl) rfl fun _ _ => id
    | none =>
      cases event with
      | false => exact .wrote
      | true => exact .logged
  | createSnapshot disk snapshotId payload base =>
    rw [exec]
    rcases final_createSnapshot disk snapshotId payload base db with same | ⟨row, same⟩ <;>
    · rw [same]
      exact .other rfl rfl rfl (fun _ => rfl) rfl fun _ _ => id
  | reopen =>
    obtain ⟨mosaicMeta, same⟩ := final_createOrMigrate ints db
    rw [exec, same]
    exact .other rfl rfl rfl (fun _ => rfl) rfl fun _ _ => id
  | pruneEventsBefore disk sequence retained =>
    rw [exec, final_pruneEventsBefore]
    split
    · rename_i passed
      obtain ⟨rfl, natural, small⟩ := passed
      exact .pruned natural small
    · rename_i refused
      refine .other rfl rfl rfl (fun _ => rfl) rfl fun row _ removes => ?_
      cases disk with
      | some message => exact removes
      | none =>
        obtain ⟨small, below, -⟩ := removes
        exact refused ⟨rfl, by omega, small⟩

theorem StoreCall.run_append (ints : IntReading) (calls calls' : List StoreCall) (db : Database) :
    run ints (calls ++ calls') db = run ints calls' (run ints calls db) := List.foldl_append

/-- The objects of the kind that the calls have committed, as a dictionary. -/
def StoreCall.committed (calls : List StoreCall) (kind : String) : List (String × Json) := calls.filterMap (·.writes kind)

theorem StoreUpdate.object {call : StoreCall} {db t : Database} (update : StoreUpdate call db t) (kind objectKey : String) :
    t.objects.get? (kind, objectKey) = (match call.writes kind with
      | some (key, payload) => if key = objectKey then
          some ⟨dumps payload, (db.objects.get? (kind, objectKey)).elim 1 fun row => row.version + 1⟩
        else db.objects.get? (kind, objectKey)
      | none => db.objects.get? (kind, objectKey)) := by
  have written : ∀ (kind' key : String) (payload : Json), (db.writeObject kind' key (dumps payload)).objects.get? (kind, objectKey) =
      if kind' = kind ∧ key = objectKey then
        some ⟨dumps payload, (db.objects.get? (kind, objectKey)).elim 1 fun row => row.version + 1⟩
      else db.objects.get? (kind, objectKey) := by
    intro kind' key payload
    rw [writeObject_objects, Dict.get?_set]
    simp only [Prod.mk.injEq]
    split
    · rename_i here
      obtain ⟨rfl, rfl⟩ := here
      cases db.objects.get? (kind', key) <;> rfl
    · rfl
  cases update with
  | @wrote _ kind' key payload =>
    rw [written, StoreCall.writes]
    by_cases here : kind' = kind <;> simp [here]
  | @logged _ kind' key payload =>
    rw [addEvent_objects, written, StoreCall.writes]
    by_cases here : kind' = kind <;> simp [here]
  | pruned => rfl
  | other objects _ _ writes => rw [objects, writes kind]

/-- The row of an object has the last payload that was put, and counts the puts. -/
theorem Database.object_run (ints : IntReading) (calls : List StoreCall) (kind objectKey : String) :
    (StoreCall.run ints calls blank).objects.get? (kind, objectKey) =
      ((Dict.ofList (StoreCall.committed calls kind)).get? objectKey).map fun payload =>
        ⟨dumps payload, ((StoreCall.committed calls kind).filter fun entry => entry.1 = objectKey).length⟩ := by
  induction calls using List.reverseRecOn with
  | nil => rfl
  | append_singleton calls call ih =>
    have update := call.exec_update ints (StoreCall.run ints calls blank)
    rw [StoreCall.run_append, StoreCall.run, List.foldl_cons, List.foldl_nil, update.object kind objectKey, ih,
      StoreCall.committed, StoreCall.committed, List.filterMap_append]
    cases wrote : call.writes kind with
    | none => simp [wrote]
    | some entry =>
      obtain ⟨key, payload⟩ := entry
      rw [List.filterMap_cons, wrote, List.filterMap_nil, Dict.ofList_append_singleton, Dict.get?_set]
      by_cases here : key = objectKey
      · subst here
        have count : ((Dict.ofList (calls.filterMap (·.writes kind))).get? key).map (fun _ => ()) = none ↔
            (calls.filterMap (·.writes kind)).filter (fun entry => entry.1 = key) = [] := by
          rw [Dict.get?_ofList]
          simp
        cases stored : (Dict.ofList (calls.filterMap (·.writes kind))).get? key with
        | none =>
          rw [stored] at count
          simp [List.filter_append, count.mp rfl]
        | some old => simp [List.filter_append]
      · simp [here, List.filter_append]

section Reading
variable [FloatFormat]

theorem decode_dumps {payload : Json} (held : payload.Held) : decode (dumps payload) = .ok payload.sortKeys := by
  rw [decode, loads_dumps held]

omit [FloatFormat] in
theorem mem_rowsOfKind {db : Database} {kind objectKey : String} {row : ObjectRow} :
    (objectKey, row) ∈ db.rowsOfKind kind ↔ db.objects.get? (kind, objectKey) = some row := by
  rw [Dict.get?_eq_some_iff, rowsOfKind, List.mem_filterMap]
  constructor
  · rintro ⟨⟨⟨kind', key⟩, row'⟩, member, picked⟩
    split at picked
    · rename_i here
      cases here
      cases picked
      exact member
    · cases picked
  · intro member
    exact ⟨_, member, if_pos rfl⟩

omit [FloatFormat] in
theorem nodup_rowsOfKind (db : Database) (kind : String) : ((db.rowsOfKind kind).map Prod.fst).Nodup := by
  have keys : (db.rowsOfKind kind).map Prod.fst =
      db.objects.keys.filterMap fun key => if key.1 = kind then some key.2 else none := by
    rw [rowsOfKind, List.map_filterMap, Dict.keys, List.filterMap_map]
    refine List.filterMap_congr fun entry _ => ?_
    by_cases here : entry.1.1 = kind <;> simp [here]
  rw [keys]
  refine db.objects.keys_nodup.filterMap fun a a' b picked picked' => ?_
  simp only [Option.mem_def, Option.ite_none_right_eq_some, Option.some.injEq] at picked picked'
  exact Prod.ext (picked.1.trans picked'.1.symm) (picked.2.trans picked'.2.symm)

omit [FloatFormat] in
/-- Sorting commutes with a change that leaves the keys alone. -/
theorem map_sortedBy {α β : Type} {key : α → String} (key' : β → String) {f : α → β} (same : ∀ a, key' (f a) = key a)
    (items : List α) : (sortedBy key items).map f = sortedBy key' (items.map f) := by
  refine List.map_insertionSort _ _ f items fun a _ b _ => ?_
  rw [same, same]

/-- A kind of which the rows are those of a dictionary is read in the order of the keys. -/
theorem Database.items_eq {α : Type} {db : Database} {kind : String} {d : Dict String α} {write : α → Json}
    (held : ∀ key a, d.get? key = some a → (write a).Held)
    (rows : ∀ key, (db.objects.get? (kind, key)).map ObjectRow.payload = (d.get? key).map fun a => dumps (write a)) :
    db.items kind = .ok ((sortedBy Prod.fst d.entries).map fun entry => (entry.1, (write entry.2).sortKeys)) := by
  have nodup : (((db.rowsOfKind kind).map fun row => (row.1, row.2.payload)).map Prod.fst).Nodup := by
    rw [List.map_map]
    exact nodup_rowsOfKind db kind
  -- the rows and the entries have the same keys, and so they are sorted alike
  have perm : ((db.rowsOfKind kind).map fun row => (row.1, row.2.payload)).Perm
      (d.entries.map fun entry => (entry.1, dumps (write entry.2))) := by
    have nodup' : ((d.entries.map fun entry => (entry.1, dumps (write entry.2))).map Prod.fst).Nodup := by
      rw [List.map_map]
      exact d.nodup
    refine (List.perm_ext_iff_of_nodup nodup.of_map nodup'.of_map).mpr ?_
    rintro ⟨key, payload⟩
    have here := rows key
    simp only [List.mem_map, Prod.mk.injEq, Prod.exists, mem_rowsOfKind]
    constructor
    · rintro ⟨_, row, found, rfl, rfl⟩
      rw [found, Option.map_some] at here
      obtain ⟨a, there, same⟩ := Option.map_eq_some_iff.mp here.symm
      exact ⟨_, a, (Dict.get?_eq_some_iff _).mp there, rfl, same⟩
    · rintro ⟨_, a, there, rfl, same⟩
      rw [(Dict.get?_eq_some_iff _).mpr there, Option.map_some] at here
      obtain ⟨row, found, text⟩ := Option.map_eq_some_iff.mp here
      exact ⟨_, row, found, rfl, text.trans same⟩
  have sortedAlike : (sortedBy Prod.fst (db.rowsOfKind kind)).map (fun row => (row.1, row.2.payload)) =
      (sortedBy Prod.fst d.entries).map fun entry => (entry.1, dumps (write entry.2)) := by
    rw [map_sortedBy Prod.fst fun _ => rfl, map_sortedBy Prod.fst fun _ => rfl]
    refine sortedBy_eq_of_perm perm fun a inRows b inRows' same => ?_
    exact List.inj_on_of_nodup_map nodup inRows inRows' same
  have read : ∀ rows : List (String × ObjectRow), (rows.mapM fun row => do
        let value ← decode row.2.payload
        return (row.1, value)) =
      (rows.map fun row => (row.1, row.2.payload)).mapM fun row => do
        let value ← decode row.2
        return (row.1, value) := by
    intro rows
    rw [List.mapM_map]
    rfl
  rw [Database.items, read, sortedAlike, List.mapM_map]
  refine mapM_of_ok fun entry member => ?_
  have found := (Dict.get?_eq_some_iff _).mpr ((sortedBy_perm _ _).mem_iff.mp member)
  simp only [Function.comp_apply, decode_dumps (held _ _ found)]
  rfl

/-- After any calls on a new file, with errors of the disk and restarts anywhere, the
objects of a kind are those of a dictionary to which the committed payloads were written
one after the other; they come back in the order of their keys, and each counts how
often it was written. -/
theorem Database.objects_committed (ints : IntReading) (calls : List StoreCall)
    (held : ∀ kind, ∀ entry ∈ StoreCall.committed calls kind, entry.2.Held) (kind : String) :
    let db := StoreCall.run ints calls blank
    let objects := Dict.ofList (StoreCall.committed calls kind)
    (∀ objectKey, db.get kind objectKey = .ok ((objects.get? objectKey).map Json.sortKeys)) ∧
    db.items kind = .ok ((sortedBy Prod.fst objects.entries).map fun entry => (entry.1, entry.2.sortKeys)) ∧
    ∀ objectKey row, db.objects.get? (kind, objectKey) = some row →
      row.version = ((StoreCall.committed calls kind).filter fun entry => entry.1 = objectKey).length := by
  intro db objects
  have rows := object_run ints calls kind
  have held' : ∀ key payload, objects.get? key = some payload → payload.Held := fun key payload found =>
    held kind (key, payload) (Dict.mem_of_get?_ofList found)
  refine ⟨fun objectKey => ?_, ?_, fun objectKey row found => ?_⟩
  · rw [Database.get, rows objectKey]
    cases found : (Dict.ofList (StoreCall.committed calls kind)).get? objectKey with
    | none => simp only [Option.map_none]
    | some payload =>
      simp only [Option.map_some, decode_dumps (held' _ _ found)]
      rfl
  · refine @items_eq _ _ _ _ _ id held' fun key => ?_
    rw [rows key, Option.map_map]
    rfl
  · rw [rows objectKey] at found
    obtain ⟨payload, -, rfl⟩ := Option.map_eq_some_iff.mp found
    rfl

end Reading

/-- Two payloads for one object, and one that meets a full disk between them. -/
def soloPuts : List StoreCall :=
  [.put none "seal" "asset" (.obj [("version", .int 0)]) true,
    .put (some "database or disk is full") "seal" "asset" (.obj [("version", .int 7)]) true, .reopen,
    .put none "seal" "asset" (.obj [("version", .int 1)]) false]

theorem Database.objects_committed_two : let _ := FloatFormat.half
    (StoreCall.run plainInts soloPuts blank).items "seal" = .ok [("asset", .obj [("version", .int 1)])] := by
  intro _
  have held : ∀ kind, ∀ entry ∈ StoreCall.committed soloPuts kind, entry.2.Held := by
    intro kind entry member
    by_cases here : "seal" = kind
    · subst here
      simp only [StoreCall.committed, soloPuts, StoreCall.writes, List.filterMap_cons, List.filterMap_nil, if_true,
        List.mem_cons, List.not_mem_nil, or_false] at member
      rcases member with rfl | rfl <;> simp [Json.Held, HeldFields]
    · simp [StoreCall.committed, soloPuts, StoreCall.writes, here] at member
  exact (objects_committed plainInts soloPuts held "seal").2.1

theorem StoreUpdate.sequence {call : StoreCall} {db t : Database} (update : StoreUpdate call db t) :
    t.sequence = db.sequence + call.logs.toList.length := by
  cases update with
  | wrote | logged | pruned => rfl
  | other _ _ sequence _ logs => rw [sequence, logs]; rfl

theorem StoreUpdate.mem_events {call : StoreCall} {db t : Database} (update : StoreUpdate call db t) {row : EventRow} :
    row ∈ t.events ↔ (row ∈ db.events ∧ ¬ call.Removes row) ∨
      ∃ payload, call.logs = some (row.eventKind, row.objectKey, payload) ∧ row.payload = dumps payload ∧
        row.seq = db.sequence + 1 := by
  cases update with
  | wrote => simp [StoreCall.Removes, StoreCall.logs]
  | @logged _ kind objectKey payload =>
    simp only [addEvent_events, writeObject_events, writeObject_sequence, List.mem_append, List.mem_singleton,
      StoreCall.Removes, not_false_eq_true, and_true, StoreCall.logs, Option.some.injEq, Prod.mk.injEq]
    refine or_congr Iff.rfl ⟨?_, ?_⟩
    · rintro rfl
      exact ⟨payload, ⟨rfl, rfl, rfl⟩, rfl, rfl⟩
    · rintro ⟨_, ⟨rfl, rfl, rfl⟩, text, number⟩
      cases row
      simp only at text number ⊢
      rw [text, number]
  | @pruned _ sequence retained natural small =>
    have removes : StoreCall.Removes row (.pruneEventsBefore none sequence retained) ↔ Prunes sequence retained row :=
      and_iff_right small
    rw [removes]
    simp [StoreCall.logs]
  | other _ events _ _ logs removes =>
    rw [events, logs]
    constructor
    · exact fun member => Or.inl ⟨member, removes row member⟩
    · rintro (⟨member, -⟩ | ⟨_, ⟨⟩, -⟩)
      exact member

/-- The events that the calls have committed. -/
def StoreCall.logged (calls : List StoreCall) : List (String × String × Json) := calls.filterMap logs

theorem Database.sequence_run (ints : IntReading) (calls : List StoreCall) :
    (StoreCall.run ints calls blank).sequence = (StoreCall.logged calls).length := by
  induction calls using List.reverseRecOn with
  | nil => rfl
  | append_singleton calls call ih =>
    have update := call.exec_update ints (StoreCall.run ints calls blank)
    rw [StoreCall.run_append, StoreCall.run, List.foldl_cons, List.foldl_nil, update.sequence, ih, StoreCall.logged,
      StoreCall.logged, List.filterMap_append, List.length_append]
    cases logs : call.logs <;> simp [logs]

/-- The journal that the objects and the events make together. -/
def Database.journal (db : Database) : Journal (String × String) String where
  values key := (db.objects.get? key).map ObjectRow.payload
  entries := db.events.map fun row => ⟨row.seq, (row.eventKind, row.objectKey), row.payload⟩
  last := db.sequence

namespace Database

theorem journal_logged (db : Database) (kind objectKey encoded : String) :
    ((db.writeObject kind objectKey encoded).addEvent kind objectKey encoded).journal =
      db.journal.record (kind, objectKey) encoded := by
  unfold journal Journal.record
  congr 1
  · funext key
    rw [addEvent_objects, writeObject_objects, Dict.get?_set, Function.update_apply]
    by_cases here : (kind, objectKey) = key
    · rw [if_pos here, if_pos here.symm]
      rfl
    · rw [if_neg here, if_neg (Ne.symm here)]
  · simp

theorem journal_pruned (db : Database) (sequence : Int) (retained : List String) :
    ({ db with events := db.events.filter fun row => !decide (Prunes sequence retained row) } : Database).journal =
      db.journal.drop fun entry => decide ((entry.number : Int) < sequence ∧ entry.key.1 ∉ retained) := by
  unfold journal Journal.drop
  rw [List.filter_map]
  rfl

end Database

theorem StoreUpdate.numbered {call : StoreCall} {db t : Database} (update : StoreUpdate call db t)
    (numbered : db.journal.Numbered) : t.journal.Numbered := by
  cases update with
  | wrote => exact ⟨numbered.rising, numbered.bounded⟩
  | logged =>
    rw [journal_logged]
    exact numbered.record _ _
  | pruned =>
    rw [journal_pruned]
    exact numbered.drop _
  | other _ events sequence =>
    refine ⟨?_, ?_⟩
    · simpa only [Database.journal, events] using numbered.rising
    · simpa only [Database.journal, events, sequence] using numbered.bounded

theorem Database.numbered_run (ints : IntReading) (calls : List StoreCall) :
    (StoreCall.run ints calls blank).journal.Numbered := by
  induction calls using List.reverseRecOn with
  | nil => exact ⟨.nil, fun _ member => nomatch member⟩
  | append_singleton calls call ih =>
    rw [StoreCall.run_append]
    exact (call.exec_update ints _).numbered ih

/-- The events in the file are those that were committed and not deleted since. -/
theorem Database.mem_events_run (ints : IntReading) (calls : List StoreCall) (row : EventRow) :
    row ∈ (StoreCall.run ints calls blank).events ↔ ∃ before call after payload, calls = before ++ call :: after ∧
      call.logs = some (row.eventKind, row.objectKey, payload) ∧ row.payload = dumps payload ∧
        row.seq = (StoreCall.logged before).length + 1 ∧ ∀ later ∈ after, ¬ later.Removes row := by
  induction calls using List.reverseRecOn with
  | nil =>
    refine ⟨(nomatch ·), ?_⟩
    rintro ⟨before, call, after, _, split, -⟩
    simp at split
  | append_singleton calls call ih =>
    have update := call.exec_update ints (StoreCall.run ints calls blank)
    rw [StoreCall.run_append, StoreCall.run, List.foldl_cons, List.foldl_nil, update.mem_events, ih, sequence_run]
    constructor
    · rintro (⟨⟨before, first, after, payload, rfl, logs, text, number, kept⟩, stays⟩ | ⟨payload, logs, text, number⟩)
      · refine ⟨before, first, after ++ [call], payload, by simp, logs, text, number, fun later member => ?_⟩
        rcases List.mem_append.mp member with old | new
        · exact kept later old
        · rw [List.mem_singleton.mp new]
          exact stays
      · exact ⟨calls, call, [], payload, rfl, logs, text, number, fun _ member => nomatch member⟩
    · rintro ⟨before, first, after, payload, split, logs, text, number, kept⟩
      rcases List.eq_nil_or_concat after with rfl | ⟨after, last, rfl⟩
      · obtain ⟨rfl, same⟩ := List.append_inj' split rfl
        cases same
        exact Or.inr ⟨payload, logs, text, number⟩
      · have ends : calls ++ [call] = (before ++ first :: after) ++ [last] := by simpa using split
        obtain ⟨rfl, same⟩ := List.append_inj' ends rfl
        cases same
        refine Or.inl ⟨⟨before, first, after, payload, rfl, logs, text, number, fun later member => ?_⟩, ?_⟩
        · exact kept later (by simp [member])
        · exact kept call (by simp)

/-- The events in the file are those that were committed and that no later call has
deleted. The `n`-th event that was ever committed has the number `n`, whatever was
deleted before it, and the events stand in the order of their numbers. -/
theorem Database.events_committed (ints : IntReading) (calls : List StoreCall) :
    (∀ row, row ∈ (StoreCall.run ints calls blank).events ↔ ∃ before call after payload, calls = before ++ call :: after ∧
      call.logs = some (row.eventKind, row.objectKey, payload) ∧ row.payload = dumps payload ∧
        row.seq = (StoreCall.logged before).length + 1 ∧ ∀ later ∈ after, ¬ later.Removes row) ∧
    (StoreCall.run ints calls blank).events.Pairwise (fun a b => a.seq < b.seq) := by
  refine ⟨mem_events_run ints calls, ?_⟩
  have rising := (numbered_run ints calls).rising
  rw [Database.journal, List.pairwise_map] at rising
  exact rising

/-- Every payload that the call puts is recorded, no event after the base is deleted, and
the snapshot is left alone. -/
structure StoreCall.Continues (call : StoreCall) (snapshotId : String) (base : Int) : Prop where
  recorded : ∀ disk kind objectKey payload, call ≠ .put disk kind objectKey payload false
  spares : ∀ disk sequence retained, call = .pruneEventsBefore disk sequence retained → sequence ≤ base + 1
  keeps : ∀ disk payload base, call ≠ .createSnapshot disk snapshotId payload base

/-- `latest` is a number that was given and the largest one that is left. -/
theorem Database.latest_spec {db : Database} (numbered : db.journal.Numbered) :
    (∀ row ∈ db.events, row.seq ≤ db.latest) ∧ db.latest ≤ db.sequence := by
  have fold : ∀ (numbers : List Nat) (start : Nat), start ≤ numbers.foldl max start ∧
      (∀ n ∈ numbers, n ≤ numbers.foldl max start) ∧
      ∀ bound, start ≤ bound → (∀ n ∈ numbers, n ≤ bound) → numbers.foldl max start ≤ bound := by
    intro numbers
    induction numbers with
    | nil => exact fun start => ⟨le_rfl, by simp, fun _ below _ => below⟩
    | cons n numbers ih =>
      intro start
      obtain ⟨above, all, least⟩ := ih (max start n)
      refine ⟨(le_max_left _ _).trans above, fun m member => ?_, fun bound below others => ?_⟩
      · rcases List.mem_cons.mp member with rfl | later
        · exact (le_max_right _ _).trans above
        · exact all m later
      · obtain ⟨here, later⟩ := List.forall_mem_cons.mp others
        exact least bound (max_le below here) later
  obtain ⟨-, all, least⟩ := fold (db.events.map EventRow.seq) 0
  refine ⟨fun row member => all _ (List.mem_map_of_mem member), least _ (Nat.zero_le _) fun n member => ?_⟩
  obtain ⟨row, inEvents, rfl⟩ := List.mem_map.mp member
  exact numbered.bounded _ (List.mem_map_of_mem inEvents)

theorem StoreUpdate.steps {call : StoreCall} {db t : Database} (update : StoreUpdate call db t) {snapshotId : String}
    {base : Nat} (continues : call.Continues snapshotId base) :
    Relation.ReflTransGen (Journal.Step base) db.journal t.journal := by
  cases update with
  | wrote => exact absurd rfl (continues.recorded _ _ _ _)
  | logged =>
    rw [journal_logged]
    exact .single (.record _ _ _)
  | pruned =>
    rw [journal_pruned]
    refine .single (.drop _ _ fun entry dropped => ?_)
    have below := continues.spares _ _ _ rfl
    obtain ⟨number, -⟩ := of_decide_eq_true dropped
    omega
  | other objects events sequence =>
    have same : t.journal = db.journal := by rw [Database.journal, Database.journal, objects, events, sequence]
    rw [same]

theorem StoreCall.steps_run (ints : IntReading) {calls : List StoreCall} {db : Database} {snapshotId : String} {base : Nat}
    (continues : ∀ call ∈ calls, call.Continues snapshotId base) :
    Relation.ReflTransGen (Journal.Step base) db.journal (run ints calls db).journal := by
  induction calls generalizing db with
  | nil => exact .refl
  | cons call calls ih =>
    obtain ⟨first, later⟩ := List.forall_mem_cons.mp continues
    exact ((call.exec_update ints db).steps first).trans (ih later)

theorem StoreCall.exec_snapshots (ints : IntReading) {call : StoreCall} {snapshotId : String} {base : Int}
    (continues : call.Continues snapshotId base) (db : Database) :
    (call.exec ints db).snapshots.get? snapshotId = db.snapshots.get? snapshotId := by
  cases call with
  | put disk kind objectKey payload event => cases disk <;> cases event <;> rfl
  | createSnapshot disk snapshotId' payload base' =>
    rw [exec]
    rcases final_createSnapshot disk snapshotId' payload base' db with same | ⟨row, same⟩
    · rw [same]
    · have other : snapshotId' ≠ snapshotId := by
        rintro rfl
        exact continues.keeps _ _ _ rfl
      rw [same]
      exact Dict.get?_set_of_ne _ _ other
  | pruneEventsBefore disk sequence retained =>
    rw [exec, final_pruneEventsBefore]
    split <;> rfl
  | reopen =>
    obtain ⟨mosaicMeta, same⟩ := final_createOrMigrate ints db
    rw [exec, same]

theorem StoreCall.run_snapshots (ints : IntReading) {calls : List StoreCall} {snapshotId : String} {base : Int}
    (continues : ∀ call ∈ calls, call.Continues snapshotId base) (db : Database) :
    (run ints calls db).snapshots.get? snapshotId = db.snapshots.get? snapshotId := by
  induction calls generalizing db with
  | nil => rfl
  | cons call calls ih =>
    obtain ⟨first, later⟩ := List.forall_mem_cons.mp continues
    exact (ih later _).trans (call.exec_snapshots ints first db)

theorem Database.createSnapshot_ok {snapshotId : String} (named : snapshotId ≠ "") (payload : Json) (db : Database) :
    createSnapshot none snapshotId payload none db =
      .ok ⟨⟩ { db with snapshots := db.snapshots.set snapshotId ⟨db.latest, dumps payload⟩ } := by
  have inside : ¬ ((db.latest : Int) < 0 ∨ (db.latest : Int) < db.latest) := by omega
  unfold createSnapshot
  rw [raiseIf_bind_neg named, get_bind_apply]
  exact raiseIf_bind_neg inside _ _ _

theorem Database.getSnapshot_of_row [FloatFormat] {db : Database} {snapshotId : String} {base : Int} {payload : Json}
    (held : payload.Held) (found : db.snapshots.get? snapshotId = some ⟨base, dumps payload⟩) :
    db.getSnapshot snapshotId = .ok (some ⟨snapshotId, base, payload.sortKeys⟩) := by
  rw [getSnapshot, found]
  simp only [readSnapshot, decode_dumps held]
  rfl

/-- A snapshot is taken, and from then on everything is recorded, no event after the
snapshot is deleted and its row is not written again. It can still be read. The objects
are those of the time of the snapshot, with the events after its number written over them
once more. -/
theorem Database.snapshot_replays [FloatFormat] (ints : IntReading) (before after : List StoreCall) (snapshotId : String)
    (payload : Json) (held : payload.Held) (named : snapshotId ≠ "")
    (continues : ∀ call ∈ after, call.Continues snapshotId (StoreCall.run ints before blank).latest) :
    let db := StoreCall.run ints (before ++ .createSnapshot none snapshotId payload none :: after) blank
    ∃ base : Nat, db.getSnapshot snapshotId = .ok (some ⟨snapshotId, base, payload.sortKeys⟩) ∧
      db.journal.values = Journal.replay base db.journal.entries (StoreCall.run ints before blank).journal.values := by
  intro db
  have numbered := numbered_run ints before
  have whole : db = StoreCall.run ints (before ++ .createSnapshot none snapshotId payload none :: after) blank := rfl
  rw [StoreCall.run_append, StoreCall.run, List.foldl_cons] at whole
  generalize StoreCall.run ints before blank = start at numbered continues whole ⊢
  obtain ⟨bounded, given⟩ := latest_spec numbered
  rw [StoreCall.exec, final_of_ok (createSnapshot_ok named payload start)] at whole
  refine ⟨start.latest, getSnapshot_of_row held ?_, ?_⟩
  · rw [whole]
    refine (StoreCall.run_snapshots ints continues _).trans ?_
    exact Dict.get?_set_self _ _ _
  · have none : ∀ entry ∈ start.journal.entries, entry.number ≤ start.latest := by
      intro entry member
      obtain ⟨row, inEvents, rfl⟩ := List.mem_map.mp member
      exact bounded row inEvents
    have steps := @StoreCall.steps_run ints after
      { start with snapshots := start.snapshots.set snapshotId ⟨start.latest, dumps payload⟩ } snapshotId start.latest
      continues
    rw [whole]
    exact Journal.values_eq_replay none given steps

/-- One event before the snapshot and one after it; the first of them is deleted. -/
theorem Database.snapshot_replays_one : let _ := FloatFormat.half
    let db := StoreCall.run plainInts [.put none "seal" "asset" (.int 0) true, .createSnapshot none "s" (.int 0) none,
      .put none "seal" "asset" (.int 1) true, .pruneEventsBefore none 2 []] blank
    ∃ base : Nat, db.getSnapshot "s" = .ok (some ⟨"s", base, .int 0⟩) ∧
      db.journal.values = Journal.replay base db.journal.entries
        (StoreCall.run plainInts [.put none "seal" "asset" (.int 0) true] blank).journal.values := by
  intro _
  refine snapshot_replays plainInts [.put none "seal" "asset" (.int 0) true]
    [.put none "seal" "asset" (.int 1) true, .pruneEventsBefore none 2 []] "s" (.int 0) trivial (by decide) ?_
  have latest : (StoreCall.run plainInts [.put none "seal" "asset" (.int 0) true] blank).latest = 1 := rfl
  rw [latest]
  intro call member
  simp only [List.mem_cons, List.not_mem_nil, or_false] at member
  rcases member with rfl | rfl
  · exact ⟨by simp, by simp, by simp⟩
  · refine ⟨by simp, ?_, by simp⟩
    intro disk sequence retained same
    cases same
    decide

end Mosaic
