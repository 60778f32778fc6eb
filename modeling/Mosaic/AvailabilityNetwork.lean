import Mathlib.Data.Set.List
import Mosaic.Availability
import Mosaic.Lib.DictSum
import Mosaic.Lib.Effects
import Mosaic.Lib.GuardedRun

namespace Mosaic
open CanonicalJson Effects

structure AvailabilityStore where
  codec : ErasureCodec
  objects : Dict String (Dict Int ErasureShard)

namespace AvailabilityStore

/-- `AvailabilityStore(codec)`. -/
def fresh (codec : ErasureCodec) : AvailabilityStore := ⟨codec, .empty⟩

/-- `self._objects[object_id][shard_index]`. -/
def find? (s : AvailabilityStore) (objectId : String) (index : Int) : Option ErasureShard :=
  (s.objects.get? objectId).bind (·.get? index)

/-- `self._objects.setdefault(object_id, {})`. -/
def existing (s : AvailabilityStore) (objectId : String) : Dict Int ErasureShard :=
  (s.objects.get? objectId).getD .empty

/-- `existing[shard.shard_index] = shard`, in the dictionary of the object. -/
def insert (s : AvailabilityStore) (shard : ErasureShard) : AvailabilityStore :=
  { s with objects := s.objects.set shard.objectId ((s.existing shard.objectId).set shard.shardIndex shard) }

variable [Crypto]

def put (shard : ErasureShard) : EStateM AvailabilityFault AvailabilityStore PUnit := do
  let s ← get
  raiseIf (shard.totalShards ≠ s.codec.totalShards ∨ shard.dataShards ≠ s.codec.dataShards)
    (.availabilityError "shard codec parameters do not match store")
  raiseIf (shard.verify = false) (.availabilityError "invalid shard")
  set { s with objects := s.objects.set shard.objectId (s.existing shard.objectId) }
  raiseIf (∃ first ∈ (s.existing shard.objectId).values.head?, first.contentDigest ≠ shard.contentDigest)
    (.availabilityError "object shard content digest mismatch")
  modify fun s => s.insert shard

end AvailabilityStore

/-- The dictionary that `shard_to_wire` makes. -/
structure ShardWire where
  objectId : String
  contentDigest : String
  shardIndex : Int
  totalShards : Int
  dataShards : Int
  payload : String
  shardDigest : String
  deriving DecidableEq

def shardToWire (shard : ErasureShard) : ShardWire where
  objectId := shard.objectId
  contentDigest := shard.contentDigest
  shardIndex := shard.shardIndex
  totalShards := shard.totalShards
  dataShards := shard.dataShards
  payload := hex shard.payload
  shardDigest := shard.shardDigest

/-- What a coordinator raises: its own error, what the provider store raises and the
`ValueError` of `bytes.fromhex`. -/
inductive AvailabilityNetworkFault
  | availabilityNetworkError (message : String)
  | raised (fault : AvailabilityFault)
  | valueError (message : String)
  deriving DecidableEq

def shardFromWire (data : ShardWire) : Except AvailabilityNetworkFault ErasureShard :=
  match fromHex data.payload.toList with
  | none => .error (.valueError "non-hexadecimal number found in fromhex() arg")
  | some payload => .ok ⟨data.objectId, data.contentDigest, data.shardIndex, data.totalShards, data.dataShards,
      payload, data.shardDigest⟩

/-- `f"{shard.object_id}:{shard.shard_index}"`. -/
def rowKey (shard : ErasureShard) : String :=
  String.ofList (shard.objectId.toList ++ ':' :: renderInt shard.shardIndex)

/-- A durable store: a row is written over the one with its kind and its key, and
the rows of a kind come back in some order. -/
structure DurableStore (σ : Type) where
  put : String → String → ShardWire → σ → σ
  items : String → σ → List (String × ShardWire)
  items_put : ∀ kind key payload rows,
    (items kind (put kind key payload rows)).Perm ((key, payload) :: (items kind rows).filter (·.1 ≠ key))

structure AvailabilityCoordinator (σ : Type) where
  providerStore : AvailabilityStore
  durableStore : Option σ

abbrev Coordination (σ : Type) := EStateM AvailabilityNetworkFault (AvailabilityCoordinator σ)

namespace AvailabilityCoordinator

variable [Crypto] {σ : Type}

def onProvider {α : Type} (x : EStateM AvailabilityFault AvailabilityStore α) : Coordination σ α := fun c =>
  match x c.providerStore with
  | .ok a s => .ok a { c with providerStore := s }
  | .error fault s => .error (.raised fault) { c with providerStore := s }

def isAvailabilityError : AvailabilityNetworkFault → Bool
  | .raised (.availabilityError _) => true
  | _ => false

/-- `raise AvailabilityNetworkError(str(exc)) from exc`. -/
def toNetworkError : AvailabilityNetworkFault → AvailabilityNetworkFault
  | .raised (.availabilityError message) => .availabilityNetworkError message
  | fault => fault

def put (store : DurableStore σ) (shard : ErasureShard) : Coordination σ PUnit := do
  rethrow isAvailabilityError toNetworkError (onProvider (AvailabilityStore.put shard))
  modify fun c => { c with
    durableStore := c.durableStore.map (store.put "availability_shard" (rowKey shard) (shardToWire shard)) }

/-- `for shard in repaired: self.put(shard)`. -/
def putAll (store : DurableStore σ) : List ErasureShard → Coordination σ PUnit
  | [] => return ⟨⟩
  | shard :: shards => do
    put store shard
    putAll store shards

def repair (store : DurableStore σ) (sourceShards : List ErasureShard) (missingIndices : List Int) :
    Coordination σ (List ErasureShard) := do
  raiseIf sourceShards.isEmpty (.availabilityNetworkError "repair requires source shards")
  let c ← get
  rethrow isAvailabilityError toNetworkError (do
    let repaired ← ofExcept ((c.providerStore.codec.repair sourceShards missingIndices).mapError .raised)
    putAll store repaired
    return repaired)

/-- The loop of `restore_from_store` over the rows. -/
def restoreRows : List (String × ShardWire) → Int → Coordination σ Int
  | [], restored => return restored
  | (_, payload) :: rows, restored => do
    let shard ← ofExcept (shardFromWire payload)
    onProvider (AvailabilityStore.put shard)
    restoreRows rows (restored + 1)

def restoreFromStore (store : DurableStore σ) : Coordination σ Int := do
  let c ← get
  match c.durableStore with
  | none => return 0
  | some rows => restoreRows (store.items "availability_shard" rows) 0

end AvailabilityCoordinator

/-- A call on a coordinator. -/
inductive AvailabilityCall
  | put (shard : ErasureShard)
  | repair (sourceShards : List ErasureShard) (missingIndices : List Int)

def AvailabilityCall.exec [Crypto] {σ : Type} (store : DurableStore σ) :
    AvailabilityCall → AvailabilityCoordinator σ → AvailabilityCoordinator σ
  | .put shard, c => final (AvailabilityCoordinator.put store shard) c
  | .repair sourceShards missingIndices, c => final (AvailabilityCoordinator.repair store sourceShards missingIndices) c

theorem shardFromWire_toWire (shard : ErasureShard) : shardFromWire (shardToWire shard) = .ok shard := by
  unfold shardFromWire shardToWire
  rw [fromHex_hex]

/-- The last colon of a key stands before the index. -/
theorem rowKey_injective {shard other : ErasureShard} (same : rowKey shard = rowKey other) :
    shard.objectId = other.objectId ∧ shard.shardIndex = other.shardIndex := by
  have reversed := congrArg List.reverse (String.ofList_injective same)
  simp only [List.reverse_append, List.reverse_cons, List.append_assoc, List.singleton_append] at reversed
  have digits : ∀ i : Int, ∀ c ∈ (renderInt i).reverse, isNumberChar c = true :=
    fun i c member => renderInt_chars i c (List.mem_reverse.mp member)
  have colon : ∀ rest, Delimited (':' :: rest) := fun rest => delimited_cons (by decide)
  obtain ⟨indices, rest⟩ := number_append_inj (digits _) (digits _) (colon _) (colon _) reversed
  have names := (List.cons.inj rest).2
  exact ⟨String.toList_injective (List.reverse_injective names), renderInt_injective (List.reverse_injective indices)⟩

namespace AvailabilityStore

variable {s t : AvailabilityStore} {shard : ErasureShard} {objectId : String} {index : Int}

theorem find?_insert (s : AvailabilityStore) (shard : ErasureShard) (objectId : String) (index : Int) :
    (s.insert shard).find? objectId index =
      if shard.objectId = objectId ∧ shard.shardIndex = index then some shard else s.find? objectId index := by
  unfold find? insert existing
  rw [Dict.get?_set]
  by_cases sameObject : shard.objectId = objectId
  · subst sameObject
    rw [if_pos rfl, Option.bind_some, Dict.get?_set]
    by_cases sameIndex : shard.shardIndex = index
    · rw [if_pos sameIndex, if_pos ⟨rfl, sameIndex⟩]
    · rw [if_neg sameIndex, if_neg fun both => sameIndex both.2]
      cases s.objects.get? shard.objectId with
      | none => rfl
      | some shards => rfl
  · rw [if_neg sameObject, if_neg fun both => sameObject both.1]

/-- A shard goes to the same place when the dictionary of its object has been made. -/
theorem insert_existing (s : AvailabilityStore) (shard : ErasureShard) :
    insert { s with objects := s.objects.set shard.objectId (s.existing shard.objectId) } shard = s.insert shard := by
  unfold insert existing
  rw [Dict.get?_set_self, Dict.set_set]
  rfl

variable [Crypto]

/-- It verifies and has the parameters of the codec. -/
structure Fits (codec : ErasureCodec) (shard : ErasureShard) : Prop where
  total : shard.totalShards = codec.totalShards
  data : shard.dataShards = codec.dataShards
  verified : shard.verify = true

/-- Shards that fit, each in its place, with one content digest for each object. -/
structure Coherent (codec : ErasureCodec) (s : AvailabilityStore) : Prop where
  same : s.codec = codec
  placed : ∀ objectId index shard, s.find? objectId index = some shard →
    shard.objectId = objectId ∧ shard.shardIndex = index
  fits : ∀ objectId index shard, s.find? objectId index = some shard → Fits codec shard
  agree : ∀ objectId i j first second, s.find? objectId i = some first → s.find? objectId j = some second →
    first.contentDigest = second.contentDigest
  filled : ∀ objectId shards, s.objects.get? objectId = some shards → ∃ first, first ∈ shards.values.head?

/-- The content digest is that of the stored shards. -/
def Agrees (s : AvailabilityStore) (shard : ErasureShard) : Prop :=
  ∀ index other, s.find? shard.objectId index = some other → other.contentDigest = shard.contentDigest

theorem fresh_coherent (codec : ErasureCodec) : Coherent codec (fresh codec) where
  same := rfl
  placed := fun _ _ _ found => nomatch found
  fits := fun _ _ _ found => nomatch found
  agree := fun _ _ _ _ _ found => nomatch found
  filled := fun _ _ found => nomatch found

theorem Coherent.insert {codec : ErasureCodec} (coherent : Coherent codec s) (fits : Fits codec shard)
    (agrees : s.Agrees shard) : Coherent codec (s.insert shard) := by
  have either : ∀ {objectId index found}, (s.insert shard).find? objectId index = some found →
      found = shard ∧ shard.objectId = objectId ∧ shard.shardIndex = index ∨ s.find? objectId index = some found := by
    intro objectId index found held
    rw [find?_insert] at held
    by_cases here : shard.objectId = objectId ∧ shard.shardIndex = index
    · rw [if_pos here] at held
      exact Or.inl ⟨(Option.some.inj held).symm, here⟩
    · rw [if_neg here] at held
      exact Or.inr held
  constructor
  case same => exact coherent.same
  case placed =>
    intro objectId index found held
    rcases either held with ⟨rfl, here⟩ | old
    · exact here
    · exact coherent.placed objectId index found old
  case fits =>
    intro objectId index found held
    rcases either held with ⟨rfl, -⟩ | old
    · exact fits
    · exact coherent.fits objectId index found old
  case agree =>
    intro objectId i j first second held held'
    rcases either held with ⟨rfl, rfl, -⟩ | old <;> rcases either held' with ⟨rfl, sameObject, -⟩ | old'
    · rfl
    · exact (agrees j second old').symm
    · subst sameObject
      exact agrees i first old
    · exact coherent.agree objectId i j first second old old'
  case filled =>
    intro objectId shards held
    unfold AvailabilityStore.insert at held
    rw [Dict.get?_set] at held
    by_cases sameObject : shard.objectId = objectId
    · rw [if_pos sameObject] at held
      cases held
      have stored : shard ∈ ((s.existing shard.objectId).set shard.shardIndex shard).values :=
        Dict.mem_values_of_get? (Dict.get?_set_self _ _ _)
      exact Option.isSome_iff_exists.mp (List.isSome_head?.mpr (List.ne_nil_of_mem stored))
    · rw [if_neg sameObject] at held
      exact coherent.filled objectId shards held

/-- The stored shards of an object all have the content digest of the first one. -/
theorem Coherent.agrees_of_head {codec : ErasureCodec} (coherent : Coherent codec s)
    (same : ∀ first ∈ (s.existing shard.objectId).values.head?, first.contentDigest = shard.contentDigest) :
    s.Agrees shard := by
  intro index other found
  obtain ⟨shards, held, at'⟩ := Option.bind_eq_some_iff.mp found
  obtain ⟨first, head⟩ := coherent.filled shard.objectId shards held
  have stored : s.existing shard.objectId = shards := by
    unfold existing
    rw [held, Option.getD_some]
  obtain ⟨index', first'⟩ := Dict.mem_values.mp (List.mem_of_mem_head? head)
  have firstFound : s.find? shard.objectId index' = some first := by
    unfold find?
    rw [held, Option.bind_some, first']
  rw [coherent.agree shard.objectId index index' other first found firstFound]
  exact same first (stored ▸ head)

/-- `put` adds a shard that fits and agrees. Any other it refuses, and leaves the
store as it was. -/
theorem put_cases {codec : ErasureCodec} (coherent : Coherent codec s) (shard : ErasureShard) :
    (∃ message, put shard s = .error (.availabilityError message) s) ∧ ¬ (Fits codec shard ∧ s.Agrees shard) ∨
      Fits codec shard ∧ s.Agrees shard ∧ put shard s = .ok ⟨⟩ (s.insert shard) := by
  unfold put
  rw [get_bind_apply]
  by_cases foreign : shard.totalShards ≠ s.codec.totalShards ∨ shard.dataShards ≠ s.codec.dataShards
  · rw [raiseIf_bind_pos foreign]
    refine Or.inl ⟨⟨_, rfl⟩, fun both => ?_⟩
    rw [coherent.same] at foreign
    exact foreign.elim (absurd both.1.total) (absurd both.1.data)
  rw [raiseIf_bind_neg foreign]
  by_cases invalid : shard.verify = false
  · rw [raiseIf_bind_pos invalid]
    refine Or.inl ⟨⟨_, rfl⟩, fun both => ?_⟩
    rw [both.1.verified] at invalid
    cases invalid
  rw [raiseIf_bind_neg invalid]
  push Not at foreign
  rw [coherent.same] at foreign
  have fits : Fits codec shard := ⟨foreign.1, foreign.2, Bool.eq_true_of_not_eq_false invalid⟩
  by_cases mismatch : ∃ first ∈ (s.existing shard.objectId).values.head?, first.contentDigest ≠ shard.contentDigest
  · -- there is a first shard, so `setdefault` found the dictionary of the object
    obtain ⟨first, head, other⟩ := mismatch
    have stored : s.objects.get? shard.objectId = some (s.existing shard.objectId) := by
      unfold existing at head ⊢
      cases held : s.objects.get? shard.objectId with
      | none =>
        rw [held] at head
        cases head
      | some shards => rfl
    obtain ⟨index, placed⟩ := Dict.mem_values.mp (List.mem_of_mem_head? head)
    have found : s.find? shard.objectId index = some first := by
      unfold find?
      rw [stored, Option.bind_some, placed]
    refine Or.inl ⟨⟨"object shard content digest mismatch", ?_⟩, fun both => other (both.2 index first found)⟩
    rw [bind_apply]
    exact (raiseIf_bind_pos ⟨first, head, other⟩ _ _ _).trans (by rw [Dict.set_of_get? stored])
  · refine Or.inr ⟨fits, coherent.agrees_of_head ?_, ?_⟩
    · intro first head
      by_contra other
      exact mismatch ⟨first, head, other⟩
    · rw [bind_apply]
      exact (raiseIf_bind_neg mismatch _ _ _).trans (congrArg (EStateM.Result.ok PUnit.unit) (insert_existing s shard))

/-- The shards are put one after the other. -/
def insertAll (s : AvailabilityStore) (shards : List ErasureShard) : AvailabilityStore := shards.foldl insert s

omit [Crypto] in
/-- Shards in different places are all found. -/
theorem find?_insertAll {shards : List ErasureShard} (distinct : (shards.map rowKey).Nodup) (s : AvailabilityStore)
    (objectId : String) (index : Int) (found : ErasureShard) :
    (s.insertAll shards).find? objectId index = some found ↔
      found ∈ shards ∧ found.objectId = objectId ∧ found.shardIndex = index ∨
        s.find? objectId index = some found ∧
          ∀ other ∈ shards, ¬ (other.objectId = objectId ∧ other.shardIndex = index) := by
  induction shards generalizing s with
  | nil => simp [insertAll]
  | cons shard shards ih =>
    rw [List.map_cons, List.nodup_cons] at distinct
    have apart : ∀ other ∈ shards, ¬ (other.objectId = shard.objectId ∧ other.shardIndex = shard.shardIndex) := by
      rintro other member ⟨sameObject, sameIndex⟩
      refine distinct.1 (List.mem_map.mpr ⟨other, member, ?_⟩)
      unfold rowKey
      rw [sameObject, sameIndex]
    rw [insertAll, List.foldl_cons, ← insertAll, ih distinct.2, find?_insert]
    by_cases here : shard.objectId = objectId ∧ shard.shardIndex = index
    · obtain ⟨rfl, rfl⟩ := here
      rw [if_pos ⟨rfl, rfl⟩]
      constructor
      · rintro (⟨member, placed⟩ | ⟨same, -⟩)
        · exact absurd placed (apart found member)
        · cases same
          exact Or.inl ⟨List.mem_cons_self, rfl, rfl⟩
      · rintro (⟨member, placed⟩ | ⟨-, none⟩)
        · rcases List.mem_cons.mp member with rfl | later
          · exact Or.inr ⟨rfl, apart⟩
          · exact absurd placed (apart found later)
        · exact absurd ⟨rfl, rfl⟩ (none shard List.mem_cons_self)
    · rw [if_neg here]
      constructor
      · rintro (⟨member, placed⟩ | ⟨old, none⟩)
        · exact Or.inl ⟨List.mem_cons_of_mem _ member, placed⟩
        · exact Or.inr ⟨old, List.forall_mem_cons.mpr ⟨here, none⟩⟩
      · rintro (⟨member, placed⟩ | ⟨old, none⟩)
        · rcases List.mem_cons.mp member with rfl | later
          · exact absurd placed here
          · exact Or.inl ⟨later, placed⟩
        · exact Or.inr ⟨old, fun other member => none other (List.mem_cons_of_mem _ member)⟩

/-- `==` of two maps of shards. -/
def SameObjects (a b : AvailabilityStore) : Prop :=
  ∀ objectId, Option.Rel (fun shards shards' => ∀ index, shards.get? index = shards'.get? index)
    (a.objects.get? objectId) (b.objects.get? objectId)

theorem SameObjects.of_find? {codec codec' : ErasureCodec} (coherent : Coherent codec s) (coherent' : Coherent codec' t)
    (same : ∀ objectId index, s.find? objectId index = t.find? objectId index) : SameObjects s t := by
  have shown : ∀ {u : AvailabilityStore} {codec'' : ErasureCodec}, Coherent codec'' u → ∀ {objectId shards},
      u.objects.get? objectId = some shards → ∃ index shard, u.find? objectId index = some shard := by
    intro u codec'' coherent'' objectId shards held
    obtain ⟨first, head⟩ := coherent''.filled objectId shards held
    obtain ⟨index, placed⟩ := Dict.mem_values.mp (List.mem_of_mem_head? head)
    exact ⟨index, first, by unfold find?; rw [held, Option.bind_some, placed]⟩
  intro objectId
  have here := same objectId
  cases left : s.objects.get? objectId with
  | none =>
    cases right : t.objects.get? objectId with
    | none => exact .none
    | some shards =>
      obtain ⟨index, shard, found⟩ := shown coherent' right
      rw [← here, find?, left] at found
      cases found
  | some shards =>
    cases right : t.objects.get? objectId with
    | none =>
      obtain ⟨index, shard, found⟩ := shown coherent left
      rw [here, find?, right] at found
      cases found
    | some shards' =>
      refine .some fun index => ?_
      have both := here index
      simpa only [find?, left, right, Option.bind_some] using both

end AvailabilityStore

open AvailabilityStore

/-- One row for each stored shard, and no others. -/
structure Recorded (rows : List (String × ShardWire)) (s : AvailabilityStore) : Prop where
  distinct : (rows.map Prod.fst).Nodup
  stored : ∀ row, row ∈ rows ↔ ∃ objectId index shard, s.find? objectId index = some shard ∧
    row = (rowKey shard, shardToWire shard)

theorem Recorded.insert [Crypto] {rows rows' : List (String × ShardWire)} {codec : ErasureCodec} {s : AvailabilityStore}
    {shard : ErasureShard} (recorded : Recorded rows s) (coherent : Coherent codec s)
    (written : rows'.Perm ((rowKey shard, shardToWire shard) :: rows.filter (·.1 ≠ rowKey shard))) :
    Recorded rows' (s.insert shard) := by
  constructor
  · rw [(written.map Prod.fst).nodup_iff, List.map_cons, List.nodup_cons]
    refine ⟨fun member => ?_, (recorded.distinct.sublist (List.filter_sublist.map _))⟩
    obtain ⟨row, kept, same⟩ := List.mem_map.mp member
    exact absurd same (by simpa using (List.mem_filter.mp kept).2)
  · intro row
    rw [written.mem_iff, List.mem_cons, List.mem_filter, recorded.stored]
    constructor
    · rintro (rfl | ⟨⟨objectId, index, other, found, rfl⟩, differs⟩)
      · exact ⟨shard.objectId, shard.shardIndex, shard, by rw [find?_insert, if_pos ⟨rfl, rfl⟩], rfl⟩
      · refine ⟨objectId, index, other, ?_, rfl⟩
        rw [find?_insert, if_neg]
        · exact found
        · rintro ⟨sameObject, sameIndex⟩
          obtain ⟨object, at'⟩ := coherent.placed objectId index other found
          have key : rowKey other = rowKey shard := by
            unfold rowKey
            rw [object, at', sameObject, sameIndex]
          simp [key] at differs
    · rintro ⟨objectId, index, other, found, rfl⟩
      rw [find?_insert] at found
      by_cases here : shard.objectId = objectId ∧ shard.shardIndex = index
      · rw [if_pos here] at found
        cases found
        exact Or.inl rfl
      · rw [if_neg here] at found
        refine Or.inr ⟨⟨objectId, index, other, found, rfl⟩, ?_⟩
        obtain ⟨object, at'⟩ := coherent.placed objectId index other found
        rw [decide_eq_true_eq]
        intro same
        obtain ⟨sameObject, sameIndex⟩ := rowKey_injective same
        exact here ⟨sameObject.symm.trans object, sameIndex.symm.trans at'⟩

namespace AvailabilityCoordinator

variable [Crypto] {σ : Type} {store : DurableStore σ} {codec : ErasureCodec} {c : AvailabilityCoordinator σ}
  {shard : ErasureShard}

/-- The rows of the durable store are those of the stored shards. -/
structure Persisted (store : DurableStore σ) (codec : ErasureCodec) (c : AvailabilityCoordinator σ) : Prop where
  coherent : Coherent codec c.providerStore
  recorded : ∃ rows, c.durableStore = some rows ∧ Recorded (store.items "availability_shard" rows) c.providerStore

/-- What is persisted stays so. -/
def Persists (store : DurableStore σ) (codec : ErasureCodec) (c d : AvailabilityCoordinator σ) : Prop :=
  Persisted store codec c → Persisted store codec d

instance : Std.Refl (Persists store codec) := ⟨fun _ persisted => persisted⟩

instance : IsTrans (AvailabilityCoordinator σ) (Persists store codec) :=
  ⟨fun _ _ _ first second => second ∘ first⟩

omit [Crypto] in
theorem onProvider_of_ok {α : Type} {x : EStateM AvailabilityFault AvailabilityStore α} {a : α} {s : AvailabilityStore}
    (run : x c.providerStore = .ok a s) : onProvider x c = .ok a { c with providerStore := s } := by
  simp only [onProvider, run]

omit [Crypto] in
theorem onProvider_of_error {α : Type} {x : EStateM AvailabilityFault AvailabilityStore α} {fault : AvailabilityFault}
    {s : AvailabilityStore} (run : x c.providerStore = .error fault s) :
    onProvider x c = .error (.raised fault) { c with providerStore := s } := by
  simp only [onProvider, run]

/-- A shard that the provider takes also gets its row. -/
theorem put_of_ok {s : AvailabilityStore} (accepted : AvailabilityStore.put shard c.providerStore = .ok ⟨⟩ s) :
    put store shard c = .ok ⟨⟩ { c with
      providerStore := s
      durableStore := c.durableStore.map (store.put "availability_shard" (rowKey shard) (shardToWire shard)) } :=
  bind_of_ok (rethrow_of_ok (onProvider_of_ok accepted))

theorem put_persists (store : DurableStore σ) (codec : ErasureCodec) (c : AvailabilityCoordinator σ)
    (shard : ErasureShard) : Guarantees (Persists store codec) c (put store shard) (fun _ _ => True) := by
  refine ⟨fun persisted => ?_, fun _ _ _ => trivial⟩
  obtain ⟨coherent, rows, durable, recorded⟩ := persisted
  rcases put_cases coherent shard with ⟨⟨message, refused⟩, -⟩ | ⟨fits, agrees, accepted⟩
  · have ran : put store shard c = .error (.availabilityNetworkError message) c :=
      bind_of_error (rethrow_of_error (onProvider_of_error refused))
    rw [final_of_error ran]
    exact ⟨coherent, rows, durable, recorded⟩
  · rw [final_of_ok (put_of_ok accepted)]
    refine ⟨coherent.insert fits agrees, _, by rw [durable]; rfl, ?_⟩
    exact recorded.insert coherent (store.items_put _ _ _ _)

theorem putAll_persists (store : DurableStore σ) (codec : ErasureCodec) (shards : List ErasureShard) :
    ∀ c : AvailabilityCoordinator σ, Guarantees (Persists store codec) c (putAll store shards) (fun _ _ => True) := by
  induction shards with
  | nil => exact fun c => .pure trivial
  | cons shard shards ih => exact fun c => (put_persists store codec c shard).bind fun _ d _ _ => ih d

theorem repair_persists (store : DurableStore σ) (codec : ErasureCodec) (c : AvailabilityCoordinator σ)
    (sourceShards : List ErasureShard) (missingIndices : List Int) :
    Guarantees (Persists store codec) c (repair store sourceShards missingIndices) (fun _ _ => True) := by
  refine .raiseIf_bind fun _ => .get_bind (.rethrow ?_)
  cases (c.providerStore.codec.repair sourceShards missingIndices).mapError AvailabilityNetworkFault.raised with
  | error fault => exact .throw fault
  | ok repaired => exact (putAll_persists store codec repaired c).bind fun _ _ _ _ => .pure trivial

/-- Shards that fit and agree are all accepted. -/
theorem restoreRows_ok {shards : List ErasureShard} (restored : Int) (coherent : Coherent codec c.providerStore)
    (fits : ∀ shard ∈ shards, Fits codec shard) (agrees : ∀ shard ∈ shards, c.providerStore.Agrees shard)
    (alike : ∀ shard ∈ shards, ∀ other ∈ shards, shard.objectId = other.objectId →
      shard.contentDigest = other.contentDigest) :
    restoreRows (shards.map fun shard => (rowKey shard, shardToWire shard)) restored c =
        .ok (restored + shards.length) { c with providerStore := c.providerStore.insertAll shards } ∧
      Coherent codec (c.providerStore.insertAll shards) := by
  induction shards generalizing c restored with
  | nil => exact ⟨by simp [restoreRows, insertAll], coherent⟩
  | cons shard shards ih =>
    have first := fits shard List.mem_cons_self
    have firstAgrees := agrees shard List.mem_cons_self
    obtain ⟨-, refused⟩ | ⟨-, -, accepted⟩ := put_cases coherent shard
    · exact absurd ⟨first, firstAgrees⟩ refused
    have later : ∀ other ∈ shards, (c.providerStore.insert shard).Agrees other := by
      intro other member index found held
      rw [find?_insert] at held
      by_cases here : shard.objectId = other.objectId ∧ shard.shardIndex = index
      · rw [if_pos here] at held
        cases held
        exact alike _ List.mem_cons_self other (List.mem_cons_of_mem _ member) here.1
      · rw [if_neg here] at held
        exact agrees other (List.mem_cons_of_mem _ member) index found held
    obtain ⟨ran, after⟩ := ih (c := { c with providerStore := c.providerStore.insert shard }) (restored + 1)
      (coherent.insert first firstAgrees) (fun other member => fits other (List.mem_cons_of_mem _ member)) later
      fun a member b member' => alike a (List.mem_cons_of_mem _ member) b (List.mem_cons_of_mem _ member')
    refine ⟨?_, after⟩
    have wire : (ofExcept (shardFromWire (shardToWire shard)) : Coordination σ ErasureShard) c = .ok shard c := by
      rw [shardFromWire_toWire]
      rfl
    rw [List.map_cons, restoreRows, bind_of_ok wire, bind_of_ok (onProvider_of_ok accepted), ran, List.length_cons]
    congr 1
    push_cast
    omega

/-- A fresh provider store takes all rows, and then has the same shards. -/
theorem Persisted.restores (persisted : Persisted store codec c) :
    ∃ (count : Int) (restored : AvailabilityCoordinator σ),
      restoreFromStore store { c with providerStore := .fresh codec } = .ok count restored ∧
        SameObjects restored.providerStore c.providerStore := by
  obtain ⟨coherent, rows, durable, distinct, stored⟩ := persisted
  obtain ⟨shards, listed⟩ : ∃ shards : List ErasureShard,
      shards.map (fun shard => (rowKey shard, shardToWire shard)) = store.items "availability_shard" rows := by
    refine Set.mem_range.mp ?_
    rw [Set.range_list_map]
    intro row member
    obtain ⟨-, -, shard, -, rfl⟩ := (stored row).mp member
    exact ⟨shard, rfl⟩
  have wireInjective : ∀ {a b : ErasureShard}, shardToWire a = shardToWire b → a = b := by
    intro a b same
    have back := shardFromWire_toWire a
    rw [same, shardFromWire_toWire] at back
    exact (Except.ok.inj back).symm
  have mem : ∀ shard, shard ∈ shards ↔ c.providerStore.find? shard.objectId shard.shardIndex = some shard := by
    intro shard
    have member : shard ∈ shards ↔ (rowKey shard, shardToWire shard) ∈ store.items "availability_shard" rows := by
      rw [← listed]
      refine ⟨List.mem_map_of_mem, fun mapped => ?_⟩
      obtain ⟨other, found, same⟩ := List.mem_map.mp mapped
      exact wireInjective (Prod.ext_iff.mp same).2 ▸ found
    rw [member, stored]
    constructor
    · rintro ⟨objectId, index, other, found, same⟩
      have here := wireInjective (Prod.ext_iff.mp same).2
      subst here
      obtain ⟨rfl, rfl⟩ := coherent.placed objectId index shard found
      exact found
    · exact fun found => ⟨_, _, shard, found, rfl⟩
  have fits : ∀ shard ∈ shards, Fits codec shard := fun shard member => coherent.fits _ _ shard ((mem shard).mp member)
  have alike : ∀ shard ∈ shards, ∀ other ∈ shards, shard.objectId = other.objectId →
      shard.contentDigest = other.contentDigest := by
    intro shard member other member' same
    have here := (mem shard).mp member
    rw [same] at here
    exact coherent.agree _ _ _ shard other here ((mem other).mp member')
  obtain ⟨ran, after⟩ := restoreRows_ok (c := { c with providerStore := .fresh codec }) 0
    (fresh_coherent codec) fits (fun _ _ _ _ found => nomatch found) alike
  have keys : (shards.map rowKey).Nodup := by
    rw [← listed, List.map_map] at distinct
    exact distinct
  refine ⟨0 + shards.length, { c with providerStore := (fresh codec).insertAll shards }, ?_,
    SameObjects.of_find? after coherent fun objectId index => ?_⟩
  · unfold restoreFromStore
    rw [get_bind_apply, durable]
    change restoreRows (store.items "availability_shard" rows) 0 _ = _
    rw [← listed, ← durable]
    exact ran
  · ext found
    rw [find?_insertAll keys, mem]
    constructor
    · rintro (⟨held, rfl, rfl⟩ | ⟨old, -⟩)
      · exact held
      · cases old
    · intro held
      obtain ⟨rfl, rfl⟩ := coherent.placed objectId index found held
      exact Or.inl ⟨held, rfl, rfl⟩

end AvailabilityCoordinator

variable [Crypto]

theorem AvailabilityCall.exec_persisted {σ : Type} {store : DurableStore σ} {codec : ErasureCodec}
    (call : AvailabilityCall) {c : AvailabilityCoordinator σ} (persisted : c.Persisted store codec) :
    (call.exec store c).Persisted store codec := by
  cases call with
  | put shard => exact (AvailabilityCoordinator.put_persists store codec c shard).moves persisted
  | repair sourceShards missingIndices =>
    exact (AvailabilityCoordinator.repair_persists store codec c sourceShards missingIndices).moves persisted

/-- Whatever was put and repaired, the rows restore the same shards, and those of
an object verify and agree. -/
theorem provider_restored {σ : Type} (store : DurableStore σ) (codec : ErasureCodec) (rows : σ)
    (unused : store.items "availability_shard" rows = []) {c : AvailabilityCoordinator σ}
    (run : GuardedRun (AvailabilityCall.exec store) (fun _ _ => True) ⟨.fresh codec, some rows⟩ c) :
    (∃ (count : Int) (restored : AvailabilityCoordinator σ),
      AvailabilityCoordinator.restoreFromStore store { c with providerStore := .fresh codec } = .ok count restored ∧
        SameObjects restored.providerStore c.providerStore) ∧
      ∀ objectId, (∀ index shard, c.providerStore.find? objectId index = some shard →
          shard.objectId = objectId ∧ shard.shardIndex = index ∧ Fits codec shard) ∧
        ∀ i j first second, c.providerStore.find? objectId i = some first →
          c.providerStore.find? objectId j = some second → first.contentDigest = second.contentDigest := by
  have start : (⟨.fresh codec, some rows⟩ : AvailabilityCoordinator σ).Persisted store codec := by
    refine ⟨fresh_coherent codec, rows, rfl, ?_⟩
    rw [unused]
    refine ⟨List.nodup_nil, fun row => ⟨nofun, ?_⟩⟩
    rintro ⟨_, _, _, found, -⟩
    cases found
  have persisted := run.invariant start fun _ call _ before => call.exec_persisted before
  refine ⟨persisted.restores, fun objectId => ⟨fun index shard found => ?_, persisted.coherent.agree objectId⟩⟩
  obtain ⟨sameObject, sameIndex⟩ := persisted.coherent.placed objectId index shard found
  exact ⟨sameObject, sameIndex, persisted.coherent.fits objectId index shard found⟩

/-- `SELECT object_key, payload ... WHERE kind=? ORDER BY object_key`. -/
def tableItems (kind : String) (rows : Dict (String × String) ShardWire) : List (String × ShardWire) :=
  ((rows.entries.filter (·.1.1 = kind)).map fun row => (row.1.2, row.2)).insertionSort (·.1 ≤ ·.1)

omit [Crypto] in
theorem mem_tableItems {kind key : String} {rows : Dict (String × String) ShardWire} {payload : ShardWire} :
    (key, payload) ∈ tableItems kind rows ↔ rows.get? (kind, key) = some payload := by
  rw [tableItems, List.mem_insertionSort, List.mem_map, Dict.get?_eq_some_iff]
  constructor
  · rintro ⟨⟨⟨kind', key'⟩, payload'⟩, member, same⟩
    obtain ⟨stored, here⟩ := List.mem_filter.mp member
    cases same
    cases of_decide_eq_true here
    exact stored
  · exact fun member => ⟨_, List.mem_filter.mpr ⟨member, decide_eq_true rfl⟩, rfl⟩

omit [Crypto] in
theorem tableItems_nodup (kind : String) (rows : Dict (String × String) ShardWire) : (tableItems kind rows).Nodup := by
  unfold tableItems
  rw [(List.perm_insertionSort _ _).nodup_iff]
  refine List.Nodup.map_on ?_ (List.Nodup.of_map Prod.fst rows.nodup |>.filter _)
  rintro ⟨⟨kind₁, key₁⟩, payload₁⟩ member ⟨⟨kind₂, key₂⟩, payload₂⟩ member' same
  have here := of_decide_eq_true (List.mem_filter.mp member).2
  have there := of_decide_eq_true (List.mem_filter.mp member').2
  cases same
  exact Prod.ext (Prod.ext (here.trans there.symm) rfl) rfl

/-- The table of objects. -/
def objectTable : DurableStore (Dict (String × String) ShardWire) where
  put kind key payload rows := rows.set (kind, key) payload
  items := tableItems
  items_put kind key payload rows := by
    refine (List.perm_ext_iff_of_nodup (tableItems_nodup kind _) ?_).mpr ?_
    · rw [List.nodup_cons]
      refine ⟨fun member => ?_, (tableItems_nodup kind rows).filter _⟩
      simpa using (List.mem_filter.mp member).2
    · rintro ⟨key', payload'⟩
      rw [mem_tableItems, Dict.get?_set, List.mem_cons, List.mem_filter, mem_tableItems]
      by_cases same : key = key'
      · subst same
        simp [eq_comm]
      · have other : ¬ (kind, key) = (kind, key') := fun pair => same (Prod.ext_iff.mp pair).2
        simp [other, Ne.symm same]

/-- One data shard and a copy of it. -/
def mirrorCodec : ErasureCodec := ⟨1, 1, by decide, by decide, by decide⟩

def mirrorShard : ErasureShard := .create "object" "content" 1 2 1 [7]

theorem mirrorShard_fits : Fits mirrorCodec mirrorShard :=
  ⟨rfl, rfl, by simp [mirrorShard, ErasureShard.verify, ErasureShard.create]⟩

theorem mirrorShard_stored :
    (AvailabilityCall.exec objectTable (.put mirrorShard) ⟨.fresh mirrorCodec, some .empty⟩).providerStore.find?
      "object" 1 = some mirrorShard := by
  obtain ⟨-, refused⟩ | ⟨-, -, accepted⟩ := put_cases (fresh_coherent mirrorCodec) mirrorShard
  · exact absurd ⟨mirrorShard_fits, fun _ _ found => nomatch found⟩ refused
  · have ran : AvailabilityCoordinator.put objectTable mirrorShard ⟨.fresh mirrorCodec, some .empty⟩ = _ :=
      AvailabilityCoordinator.put_of_ok accepted
    rw [AvailabilityCall.exec, final_of_ok ran]
    exact (find?_insert _ _ _ _).trans (if_pos ⟨rfl, rfl⟩)

omit [Crypto] in
/-- The shard comes back from its row. -/
theorem provider_restored_mirror : let _ := Crypto.ideal
    ∃ c : AvailabilityCoordinator (Dict (String × String) ShardWire),
      c.providerStore.find? "object" 1 = some mirrorShard ∧ ∃ (count : Int) (restored : AvailabilityCoordinator _),
        AvailabilityCoordinator.restoreFromStore objectTable { c with providerStore := .fresh mirrorCodec } =
          .ok count restored ∧ SameObjects restored.providerStore c.providerStore := by
  intro _
  have unused : objectTable.items "availability_shard" .empty = [] := rfl
  exact ⟨_, mirrorShard_stored,
    (provider_restored objectTable mirrorCodec .empty unused (GuardedRun.refl.tail trivial)).1⟩

end Mosaic
