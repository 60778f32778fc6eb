import Mosaic.ShardRepair

namespace Mosaic
open CanonicalJson Effects GF256

structure SamplingProof where
  objectId : String
  contentDigest : String
  sampledIndices : List Int
  shardDigests : List String
  proofId : String
  deriving DecidableEq

namespace SamplingProof

variable [Crypto]

def idOf (objectId contentDigest : String) (sampledIndices : List Int) (shardDigests : List String) : String :=
  digest (.obj
    [("protocol", .str "MOSAIC/SAMPLING-PROOF/v1"),
     ("object_id", .str objectId),
     ("content_digest", .str contentDigest),
     ("sampled_indices", .list (sampledIndices.map .int)),
     ("shard_digests", .list (shardDigests.map .str))])

def create (shards : List ErasureShard) (sampleIndices : List Int) : Except AvailabilityFault SamplingProof :=
  let shardMap := ErasureCodec.shardMap shards
  let indices := sampleIndices.dedup.insertionSort (· ≤ ·)
  if indices = [] ∨ ∃ index ∈ indices, shardMap.get? index = none then
    .error (.availabilityError "sampling index is missing")
  else
    let selected := indices.filterMap shardMap.get?
    if selected.any fun item => !item.verify then .error (.availabilityError "sampling contains invalid shard")
    else
      match selected with
      | [] => .error (.indexError "tuple index out of range")
      | first :: _ =>
        if selected.any fun item =>
            item.objectId ≠ first.objectId ∨ item.contentDigest ≠ first.contentDigest then
          .error (.availabilityError "sampling shards do not match object")
        else
          let digests := selected.map (·.shardDigest)
          .ok ⟨first.objectId, first.contentDigest, indices, digests,
            idOf first.objectId first.contentDigest indices digests⟩

def verify (proof : SamplingProof) : Bool :=
  proof.sampledIndices ≠ [] ∧
    proof.proofId = idOf proof.objectId proof.contentDigest proof.sampledIndices proof.shardDigests ∧
    proof.sampledIndices.length = proof.shardDigests.length

/-- A proof is known by its id. -/
theorem eq_of_proofId (free : CollisionFree) {proof other : SamplingProof} (verified : proof.verify = true)
    (verified' : other.verify = true) (same : proof.proofId = other.proofId) : proof = other := by
  obtain ⟨-, id, -⟩ := of_decide_eq_true verified
  obtain ⟨-, id', -⟩ := of_decide_eq_true verified'
  have preimage := id.symm.trans (same.trans id')
  have objects := lookup_eq_of_digest free preimage "object_id"
  have contents := lookup_eq_of_digest free preimage "content_digest"
  have indices := lookup_eq_of_digest free preimage "sampled_indices"
  have digests := lookup_eq_of_digest free preimage "shard_digests"
  have object : proof.objectId = other.objectId := Json.str.inj (Option.some.inj objects)
  have content : proof.contentDigest = other.contentDigest := Json.str.inj (Option.some.inj contents)
  have sampled : proof.sampledIndices = other.sampledIndices :=
    items_eq_of_sortKeys (fun a b equal => by simpa [Json.sortKeys] using equal) (Option.some.inj indices)
  have shards : proof.shardDigests = other.shardDigests :=
    items_eq_of_sortKeys (fun a b equal => by simpa [Json.sortKeys] using equal) (Option.some.inj digests)
  cases proof
  cases other
  cases object
  cases content
  cases sampled
  cases shards
  cases same
  rfl

end SamplingProof

namespace AvailabilityStore

def availableWeight (s : AvailabilityStore) (objectId : String) (providerWeights : Dict Int Int) : Int :=
  ((s.existing objectId).keys.map fun index => (providerWeights.get? index).getD 0).sum

variable [Crypto]

def publish (objectId : String) (payload : Bytes) :
    EStateM AvailabilityFault AvailabilityStore (List ErasureShard) := do
  let s ← get
  let shards ← ofExcept (s.codec.encode objectId payload)
  modify fun s => { s with objects := s.objects.set objectId (ErasureCodec.shardMap shards) }
  return shards

def sample (s : AvailabilityStore) (objectId : String) (sampleIndices : List Int) :
    Except AvailabilityFault SamplingProof :=
  SamplingProof.create (s.shards objectId) sampleIndices

def recover (s : AvailabilityStore) (objectId : String) : Except AvailabilityFault Bytes :=
  s.codec.recover (s.shards objectId)

end AvailabilityStore

def AvailabilityCoordinator.fetch {σ : Type} (c : AvailabilityCoordinator σ) (objectId : String) (shardIndex : Int) :
    Except AvailabilityNetworkFault ErasureShard :=
  match (c.providerStore.shards objectId).find? (·.shardIndex = shardIndex) with
  | some shard => .ok shard
  | none => .error (.availabilityNetworkError "requested shard is not stored by provider")

/-- A call that may change the store of a provider. -/
inductive ProviderCall
  | publish (objectId : String) (payload : Bytes)
  | put (shard : ErasureShard)
  | repair (objectId : String) (sourceShards : Option (List ErasureShard))

def ProviderCall.exec [Crypto] : ProviderCall → AvailabilityStore → AvailabilityStore
  | .publish objectId payload, s => final (AvailabilityStore.publish objectId payload) s
  | .put shard, s => final (AvailabilityStore.put shard) s
  | .repair objectId sourceShards, s => final (AvailabilityStore.repair objectId sourceShards) s

section Raising

/-- A computation that fails does so at once or further on. -/
theorem except_bind_eq_error {ε α β : Type} {x : Except ε α} {f : α → Except ε β} {e : ε} :
    x >>= f = .error e ↔ x = .error e ∨ ∃ a, x = .ok a ∧ f a = .error e := by
  cases x with
  | error e' => simp [bind, Except.bind]
  | ok a => simp [bind, Except.bind]

theorem combine_raises {width : Nat} {row : List UInt8} {vector : List Bytes} {fault : AvailabilityFault}
    (raised : combine width row vector = .error fault) : ∃ message, fault = .availabilityError message := by
  unfold combine at raised
  generalize row.zip vector = terms, List.replicate width (0 : UInt8) = before at raised
  induction terms generalizing before with
  | nil => cases raised
  | cons term terms ih =>
    rw [List.foldlM_cons] at raised
    rcases except_bind_eq_error.mp raised with now | ⟨result, -, later⟩
    · split at now
      · cases now
        exact ⟨_, rfl⟩
      · split at now <;> cases now
    · exact ih _ later

theorem matrixVector_raises {matrix : List (List UInt8)} {vector : List Bytes} {fault : AvailabilityFault}
    (someShard : vector ≠ []) (raised : matrixVector matrix vector = .error fault) :
    ∃ message, fault = .availabilityError message := by
  unfold matrixVector at raised
  split at raised
  · cases raised
    exact ⟨_, rfl⟩
  · rename_i passed
    clear passed
    split at raised
    · exact absurd rfl someShard
    · induction matrix with
      | nil => cases raised
      | cons row matrix ih =>
        rw [List.mapM_cons] at raised
        rcases except_bind_eq_error.mp raised with now | ⟨line, -, raised⟩
        · exact combine_raises now
        rcases except_bind_eq_error.mp raised with later | ⟨lines, -, returned⟩
        · exact ih later
        · cases returned

namespace ErasureCodec

variable [Crypto] {codec : ErasureCodec} {shards repaired : List ErasureShard} {missing : List Int}

omit [Crypto] in
theorem mem_selection {shard : ErasureShard} (member : shard ∈ codec.selection shards) : shard ∈ shards := by
  obtain ⟨index, -, found⟩ := List.mem_filterMap.mp member
  obtain ⟨item, listed, pair⟩ := List.mem_map.mp (Dict.mem_of_get?_ofList found)
  cases pair
  exact listed

omit [Crypto] in
/-- With enough indices as many shards are used as there are data shards. -/
theorem length_selection (enough : codec.dataShards ≤ (shardMap shards).keys.length) :
    (codec.selection shards).length = codec.dataShards := by
  have found : ∀ index ∈ ((shardMap shards).keys.insertionSort (· ≤ ·)).take codec.dataShards,
      ((shardMap shards).get? index).isSome = true := by
    intro index member
    have listed := (List.perm_insertionSort _ _).mem_iff.mp (List.mem_of_mem_take member)
    exact Dict.contains_iff.mpr (Dict.mem_keys.mp listed)
  rw [selection, List.length_filterMap_eq_countP, List.countP_eq_length.mpr found, List.length_take,
    List.length_insertionSort]
  omega

/-- Whatever it is given, `recover` fails with an `AvailabilityError` only. -/
theorem recover_raises {fault : AvailabilityFault} (raised : codec.recover shards = .error fault) :
    ∃ message, fault = .availabilityError message := by
  unfold recover at raised
  split at raised
  · cases raised
    exact ⟨_, rfl⟩
  rename_i enough
  have count := length_selection (Nat.not_lt.mp enough)
  dsimp only at raised
  split at raised
  · cases raised
    exact ⟨_, rfl⟩
  rename_i valid
  split at raised
  · rename_i none
    have := codec.dataPositive
    rw [none, List.length_nil] at count
    omega
  rename_i first others selected
  split at raised
  · cases raised
    exact ⟨_, rfl⟩
  rename_i compatible
  have square : Shaped codec.dataShards codec.dataShards
      ((codec.selection shards).map fun item => codec.matrix.getD item.shardIndex.toNat []) := by
    refine ⟨by rw [List.length_map, count], fun row member => ?_⟩
    obtain ⟨item, used, rfl⟩ := List.mem_map.mp member
    have verified : item.verify = true := by
      by_contra fails
      exact valid (List.any_eq_true.mpr ⟨item, used, by simp [fails]⟩)
    have total : item.totalShards = codec.totalShards := by
      by_contra differ
      exact compatible (List.any_eq_true.mpr ⟨item, selected ▸ used, by simp [differ]⟩)
    have bounds := (of_decide_eq_true verified).2.1
    exact codec.matrix_shaped.getD_length (by omega)
  rcases except_bind_eq_error.mp raised with singular | ⟨dataMatrix, -, raised⟩
  · rcases matrixInverse_cases square codec.dataPositive with ⟨inverse, inverted, -⟩ | ⟨failed, -⟩
    · cases inverted.symm.trans singular
    · cases failed.symm.trans singular
      exact ⟨_, rfl⟩
  rcases except_bind_eq_error.mp raised with mismatch | ⟨dataPayloads, -, raised⟩
  · exact matrixVector_raises (by simp [selected]) mismatch
  · split at raised
    · cases raised
      exact ⟨_, rfl⟩
    · cases raised

/-- A repair makes shards of what it recovered, under the name of its first source. -/
theorem encoded_of_repair (ran : codec.repair shards missing = .ok repaired) :
    ∃ first payload encoded, codec.recover shards = .ok payload ∧ codec.encode first payload = .ok encoded ∧
      ∀ shard ∈ repaired, shard ∈ encoded := by
  unfold repair at ran
  obtain ⟨payload, recovered, ran⟩ := except_bind_eq_ok.mp ran
  cases shards with
  | nil => cases ran
  | cons first others =>
    obtain ⟨encoded, made, ran⟩ := except_bind_eq_ok.mp ran
    dsimp only at ran
    split at ran
    · cases ran
    cases ran
    refine ⟨first.objectId, payload, encoded, recovered, made, fun shard member => ?_⟩
    obtain ⟨index, -, found⟩ := List.mem_filterMap.mp member
    obtain ⟨item, listed, pair⟩ := List.mem_map.mp (Dict.mem_of_get?_ofList found)
    cases pair
    exact listed

/-- The shards of an object carry its name and the digest of its payload. -/
theorem described_of_encode {objectId : String} {payload : Bytes}
    (encoded : codec.encode objectId payload = .ok shards) :
    objectId ≠ "" ∧ ∃ lines, shards = (List.range codec.totalShards).map (codec.shardOf objectId payload lines) := by
  have named : objectId ≠ "" := by
    intro empty
    rw [encode, if_pos empty] at encoded
    cases encoded
  have short : payload.length < 2 ^ 64 := by
    by_contra long
    exact codec.encode_long long shards encoded
  obtain ⟨width, data, lines, -, made⟩ := codec.encode_eq named short
  exact ⟨named, lines, Except.ok.inj (encoded.symm.trans made)⟩

end ErasureCodec

end Raising

theorem contentDigestOf_injective [Crypto] (free : CollisionFree) : Function.Injective contentDigestOf := by
  intro payload payload' same
  have field := lookup_eq_of_digest free same "payload"
  exact hex_injective (Json.str.inj (Option.some.inj field))

namespace AvailabilityStore

variable [Crypto] {s t u : AvailabilityStore} {objectId : String} {payload : Bytes} {shards : List ErasureShard}

/-- A shard that fits and has the digest of the object is added. Otherwise every object
keeps its shards. -/
theorem put_effect (shard : ErasureShard) (s : AvailabilityStore) :
    Fits s.codec shard ∧ s.Fixes shard.objectId shard.contentDigest ∧ final (put shard) s = s.insert shard ∨
      (final (put shard) s).codec = s.codec ∧ ∀ other, (final (put shard) s).existing other = s.existing other := by
  by_cases foreign : shard.totalShards ≠ s.codec.totalShards ∨ shard.dataShards ≠ s.codec.dataShards
  · have refused : put shard s = .error (.availabilityError "shard codec parameters do not match store") s :=
      raiseIf_bind_pos foreign _ _ s
    rw [final_of_error refused]
    exact Or.inr ⟨rfl, fun _ => rfl⟩
  by_cases invalid : shard.verify = false
  · have refused : put shard s = .error (.availabilityError "invalid shard") s :=
      (raiseIf_bind_neg foreign _ _ s).trans (raiseIf_bind_pos invalid _ _ s)
    rw [final_of_error refused]
    exact Or.inr ⟨rfl, fun _ => rfl⟩
  by_cases mismatch : ∃ first ∈ (s.existing shard.objectId).values.head?, first.contentDigest ≠ shard.contentDigest
  · -- `setdefault` has come before the check
    have refused : put shard s = .error (.availabilityError "object shard content digest mismatch")
        { s with objects := s.objects.set shard.objectId (s.existing shard.objectId) } :=
      (raiseIf_bind_neg foreign _ _ s).trans ((raiseIf_bind_neg invalid _ _ s).trans (raiseIf_bind_pos mismatch _ _ _))
    rw [final_of_error refused]
    refine Or.inr ⟨rfl, fun other => ?_⟩
    change ((s.objects.set _ _).get? other).getD .empty = s.existing other
    rw [Dict.get?_set]
    split
    · rename_i same
      rw [Option.getD_some, same]
    · rfl
  · push Not at foreign mismatch
    have fits : Fits s.codec shard := ⟨foreign.1, foreign.2, Bool.eq_true_of_not_eq_false invalid⟩
    exact Or.inl ⟨fits, mismatch, final_of_ok (put_of_fits fits mismatch)⟩

/-- A fact about the shards of one object that survives when a shard that may come is added to them. -/
structure Stable (objectId : String) (mayCome : ErasureShard → Prop) (P : AvailabilityStore → Prop) : Prop where
  congr : ∀ {s t}, t.codec = s.codec → t.existing objectId = s.existing objectId → P s → P t
  insert : ∀ {s shard}, P s → mayCome shard → shard.objectId = objectId → Fits s.codec shard →
    s.Fixes objectId shard.contentDigest → P (s.insert shard)

section Stability
variable {mayCome : ErasureShard → Prop} {P : AvailabilityStore → Prop}

theorem Stable.put {shard : ErasureShard} (stable : Stable objectId mayCome P) (before : P s)
    (comes : shard.objectId = objectId → mayCome shard) : P (final (put shard) s) := by
  rcases put_effect shard s with ⟨fits, fixes, after⟩ | ⟨codec, others⟩
  · rw [after]
    by_cases mine : shard.objectId = objectId
    · exact stable.insert before (comes mine) mine fits (mine ▸ fixes)
    · refine stable.congr (s := s) rfl ?_ before
      unfold existing AvailabilityStore.insert
      rw [Dict.get?_set_of_ne _ _ mine]
  · exact stable.congr codec (others objectId) before

theorem Stable.putEach (stable : Stable objectId mayCome P) (before : P s)
    (comes : ∀ shard ∈ shards, shard.objectId = objectId → mayCome shard) :
    P (final (shards.forM AvailabilityStore.put) s) := by
  induction shards generalizing s with
  | nil => exact before
  | cons shard shards ih =>
    obtain ⟨first, later⟩ := List.forall_mem_cons.mp comes
    have after := stable.put before first
    cases placed : AvailabilityStore.put shard s with
    | ok a t =>
      rw [final_of_ok placed] at after
      have rest : final ((shard :: shards).forM AvailabilityStore.put) s =
          final (shards.forM AvailabilityStore.put) t := final_bind_of_ok placed
      rw [rest]
      exact ih after later
    | error fault t =>
      rw [final_of_error placed] at after
      have stop : final ((shard :: shards).forM AvailabilityStore.put) s = t := final_bind_of_error placed
      rw [stop]
      exact after

theorem Stable.publish {other : String} (stable : Stable objectId mayCome P) (before : P s)
    (differ : other ≠ objectId) :
    P (final (publish other payload) s) := by
  unfold AvailabilityStore.publish
  rw [final_bind_of_ok (get_apply s)]
  cases encoded : s.codec.encode other payload with
  | error fault =>
    rw [final_of_error (ofExcept_error_bind fault _ s)]
    exact before
  | ok made =>
    rw [final_bind_of_ok (ofExcept_of_ok rfl s)]
    refine stable.congr (s := s) rfl ?_ before
    exact congrArg (·.getD Dict.empty) (Dict.get?_set_of_ne s.objects _ differ)

/-- A repair puts shards that were encoded from what its sources gave. -/
theorem Stable.repair {other : String} {sourceShards : Option (List ErasureShard)} (stable : Stable objectId mayCome P)
    (before : P s) (comes : ∀ payload encoded, s.codec.encode objectId payload = .ok encoded →
      ∀ shard ∈ encoded, mayCome shard) :
    P (final (repair other sourceShards) s) := by
  unfold AvailabilityStore.repair
  rw [final_bind_of_ok (get_apply s)]
  dsimp only
  split
  · exact before
  cases made : s.codec.repair (s.sources other sourceShards) (s.missingIndices other) with
  | error fault =>
    rw [final_of_error (ofExcept_error_bind fault _ s)]
    exact before
  | ok repaired =>
    rw [final_bind_of_ok (ofExcept_of_ok rfl s)]
    obtain ⟨first, payload, encoded, -, coded, listed⟩ := ErasureCodec.encoded_of_repair made
    obtain ⟨-, lines, shardsOf⟩ := ErasureCodec.described_of_encode coded
    have each : ∀ shard ∈ repaired, shard.objectId = objectId → mayCome shard := by
      intro shard member mine
      have inside := listed shard member
      rw [shardsOf] at inside
      obtain ⟨index, -, rfl⟩ := List.mem_map.mp inside
      obtain rfl : first = objectId := mine
      exact comes payload encoded coded _ (listed _ member)
    have after := stable.putEach before each
    cases placed : repaired.forM AvailabilityStore.put s with
    | ok a t =>
      rw [final_of_ok placed] at after
      rw [final_bind_of_ok placed]
      exact after
    | error fault t =>
      rw [final_of_error placed] at after
      rw [final_bind_of_error placed]
      exact after

end Stability

omit [Crypto] in
theorem existing_insert (s : AvailabilityStore) (shard : ErasureShard) :
    (s.insert shard).existing shard.objectId = (s.existing shard.objectId).set shard.shardIndex shard :=
  congrArg (·.getD Dict.empty) (Dict.get?_set_self s.objects shard.objectId _)

/-- All shards of the object are there, each in its place, and about one payload. -/
structure Whole (objectId contentDigest : String) (s : AvailabilityStore) : Prop where
  keys : (s.existing objectId).keys.Perm ((List.range s.codec.totalShards).map fun i : Nat => (i : Int))
  described : ∀ index shard, (s.existing objectId).get? index = some shard →
    shard.objectId = objectId ∧ shard.shardIndex = index ∧ shard.contentDigest = contentDigest ∧ Fits s.codec shard

/-- What a store gives of an object with this payload. -/
structure Offers (objectId : String) (payload : Bytes) (s : AvailabilityStore) : Prop where
  complete : s.missingIndices objectId = []
  recovers : ∀ recovered, s.recover objectId = .ok recovered → recovered = payload
  fails : ∀ fault, s.recover objectId = .error fault → ∃ message, fault = .availabilityError message
  fetches : ∀ (σ : Type) (rows : Option σ) (index : Int), 0 ≤ index → index < s.codec.totalShards → ∃ shard,
    AvailabilityCoordinator.fetch ⟨s, rows⟩ objectId index = .ok shard ∧ shard.verify = true ∧
      shard.objectId = objectId ∧ shard.shardIndex = index ∧ shard.contentDigest = contentDigestOf payload
  samples : ∀ indices : List Int, indices ≠ [] → (∀ i ∈ indices, 0 ≤ i ∧ i < s.codec.totalShards) →
    ∃ proof, s.sample objectId indices = .ok proof ∧ proof.verify = true ∧ proof.objectId = objectId ∧
      proof.contentDigest = contentDigestOf payload ∧ (∀ i, i ∈ proof.sampledIndices ↔ i ∈ indices) ∧
      ∀ other : SamplingProof, other.verify = true → other.proofId = proof.proofId → other = proof
  refuses : ∀ indices : List Int, (indices = [] ∨ ∃ i ∈ indices, ¬ (0 ≤ i ∧ i < s.codec.totalShards)) →
    s.sample objectId indices = .error (.availabilityError "sampling index is missing")
  weighs : ∀ weights, s.availableWeight objectId weights =
    ((List.range s.codec.totalShards).map fun i : Nat => (weights.get? i).getD 0).sum

namespace Whole

variable {contentDigest : String}

omit [Crypto] in
theorem mem_indices {total : Nat} {index : Int} :
    index ∈ (List.range total).map (fun i : Nat => (i : Int)) ↔ 0 ≤ index ∧ index < total := by
  rw [List.mem_map]
  constructor
  · rintro ⟨i, below, rfl⟩
    have := List.mem_range.mp below
    omega
  · intro inside
    exact ⟨index.toNat, List.mem_range.mpr (by omega), by omega⟩

theorem present (whole : Whole objectId contentDigest s) {index : Int}
    (inside : 0 ≤ index ∧ index < s.codec.totalShards) :
    ∃ shard, (s.existing objectId).get? index = some shard := by
  exact Dict.mem_keys.mp (whole.keys.mem_iff.mpr (mem_indices.mpr inside))

/-- There is a first shard, and it has the digest. -/
theorem fixed (whole : Whole objectId contentDigest s) {other : String} (fixes : s.Fixes objectId other) :
    other = contentDigest := by
  have some0 : (s.existing objectId).values ≠ [] := by
    have zero : (0 : Int) ≤ 0 ∧ (0 : Int) < s.codec.totalShards := by
      have := s.codec.dataPositive
      unfold ErasureCodec.totalShards
      omega
    obtain ⟨shard, found⟩ := whole.present zero
    exact List.ne_nil_of_mem (Dict.mem_values_of_get? found)
  obtain ⟨first, others, list⟩ := List.exists_cons_of_ne_nil some0
  have head : first ∈ (s.existing objectId).values.head? := by
    rw [list]
    rfl
  obtain ⟨index, found⟩ := Dict.mem_values.mp (List.mem_of_mem_head? head)
  rw [← fixes first head]
  exact (whole.described index first found).2.2.1

theorem stable (objectId contentDigest : String) : Stable objectId (fun _ => True) (Whole objectId contentDigest) where
  congr := by
    intro s t codec same whole
    constructor
    · rw [same, codec]
      exact whole.keys
    · rw [same, codec]
      exact whole.described
  insert := by
    intro s shard whole _ mine fits fixes
    subst mine
    have bounds := (of_decide_eq_true fits.verified).2.1
    rw [fits.total] at bounds
    have listed : shard.shardIndex ∈ (s.existing shard.objectId).keys := whole.keys.mem_iff.mpr (mem_indices.mpr bounds)
    constructor
    · rw [existing_insert, Dict.keys_set, if_pos listed]
      exact whole.keys
    · intro index held found
      rw [existing_insert, Dict.get?_set] at found
      split at found
      · rename_i here
        cases found
        exact ⟨rfl, here, whole.fixed fixes, fits⟩
      · exact whole.described index held found

omit [Crypto] in
theorem values_named {d : Dict Int ErasureShard}
    (named : ∀ index shard, d.get? index = some shard → shard.shardIndex = index) :
    ErasureCodec.shardMap d.values = d := by
  have here : ∀ e ∈ d.entries, e.2.shardIndex = e.1 :=
    fun e member => named e.1 e.2 ((Dict.get?_eq_some_iff d).mpr member)
  exact Dict.ofList_values here

/-- The dictionary that `recover` and `sample` make is the stored one. -/
theorem shardMap_shards (whole : Whole objectId contentDigest s) :
    ErasureCodec.shardMap (s.shards objectId) = s.existing objectId :=
  values_named fun index shard found => (whole.described index shard found).2.1

theorem samples (whole : Whole objectId contentDigest s) {indices : List Int} (some : indices ≠ [])
    (inside : ∀ i ∈ indices, 0 ≤ i ∧ i < s.codec.totalShards) :
    ∃ proof, s.sample objectId indices = .ok proof ∧ proof.verify = true ∧ proof.objectId = objectId ∧
      proof.contentDigest = contentDigest ∧ ∀ i, i ∈ proof.sampledIndices ↔ i ∈ indices := by
  have sorted : ∀ i, i ∈ indices.dedup.insertionSort (· ≤ ·) ↔ i ∈ indices :=
    fun i => (List.perm_insertionSort _ _).mem_iff.trans List.mem_dedup
  unfold sample SamplingProof.create
  rw [whole.shardMap_shards]
  generalize indices.dedup.insertionSort (· ≤ ·) = order at sorted
  have nonempty : order ≠ [] := by
    rintro rfl
    exact some (List.eq_nil_iff_forall_not_mem.mpr fun i member => List.not_mem_nil ((sorted i).mpr member))
  have found : ∀ i ∈ order, ∃ shard, (s.existing objectId).get? i = Option.some shard :=
    fun i member => whole.present (inside i ((sorted i).mp member))
  have passed : ¬ (order = [] ∨ ∃ i ∈ order, (s.existing objectId).get? i = none) := by
    rintro (empty | ⟨i, member, missing⟩)
    · exact nonempty empty
    · obtain ⟨shard, held⟩ := found i member
      cases missing.symm.trans held
  have described : ∀ item ∈ order.filterMap (s.existing objectId).get?,
      item.objectId = objectId ∧ item.contentDigest = contentDigest ∧ item.verify = true := by
    intro item chosen
    obtain ⟨i, -, held⟩ := List.mem_filterMap.mp chosen
    obtain ⟨named, -, digest, fits⟩ := whole.described i item held
    exact ⟨named, digest, fits.verified⟩
  have count : (order.filterMap (s.existing objectId).get?).length = order.length := by
    rw [List.length_filterMap_eq_countP, List.countP_eq_length]
    intro i member
    exact Dict.contains_iff.mpr (found i member)
  simp only [if_neg passed]
  generalize order.filterMap (s.existing objectId).get? = selected at described count
  have valid : ¬ (selected.any fun item => !item.verify) = true := by
    intro bad
    obtain ⟨item, chosen, fails⟩ := List.any_eq_true.mp bad
    rw [(described item chosen).2.2] at fails
    cases fails
  rw [if_neg valid]
  cases selected with
  | nil =>
    rw [List.length_nil] at count
    exact absurd (List.length_eq_zero_iff.mp count.symm) nonempty
  | cons first others =>
    have named := described first List.mem_cons_self
    have alike : ¬ ((first :: others).any fun item =>
        item.objectId ≠ first.objectId ∨ item.contentDigest ≠ first.contentDigest) = true := by
      intro bad
      obtain ⟨item, chosen, differ⟩ := List.any_eq_true.mp bad
      have other := described item chosen
      rcases of_decide_eq_true differ with object | content
      · exact object (other.1.trans named.1.symm)
      · exact content (other.2.1.trans named.2.1.symm)
    dsimp only
    rw [if_neg alike]
    refine ⟨_, rfl, decide_eq_true ⟨nonempty, rfl, ?_⟩, named.1, named.2.1, sorted⟩
    rw [List.length_map, count]

theorem fetches {σ : Type} (whole : Whole objectId contentDigest s) (rows : Option σ) {index : Int} (low : 0 ≤ index)
    (high : index < s.codec.totalShards) :
    ∃ shard, AvailabilityCoordinator.fetch ⟨s, rows⟩ objectId index = .ok shard ∧ shard.verify = true ∧
      shard.objectId = objectId ∧ shard.shardIndex = index ∧ shard.contentDigest = contentDigest := by
  obtain ⟨held, found⟩ := whole.present ⟨low, high⟩
  unfold AvailabilityCoordinator.fetch
  cases first : (s.shards objectId).find? (·.shardIndex = index) with
  | none =>
    have absent := List.find?_eq_none.mp first held (Dict.mem_values_of_get? found)
    exact absurd (decide_eq_true (whole.described index held found).2.1) absent
  | some shard =>
    obtain ⟨index', found'⟩ := Dict.mem_values.mp (List.mem_of_find?_eq_some first)
    obtain ⟨named, -, digest, fits⟩ := whole.described index' shard found'
    have here := of_decide_eq_true (List.find?_eq_some_iff_append.mp first).1
    exact ⟨shard, rfl, fits.verified, named, here, digest⟩

theorem refuses (whole : Whole objectId contentDigest s) {indices : List Int}
    (bad : indices = [] ∨ ∃ i ∈ indices, ¬ (0 ≤ i ∧ i < s.codec.totalShards)) :
    s.sample objectId indices = .error (.availabilityError "sampling index is missing") := by
  unfold sample SamplingProof.create
  rw [whole.shardMap_shards]
  refine if_pos ?_
  rcases bad with rfl | ⟨i, member, outside⟩
  · exact Or.inl rfl
  · refine Or.inr ⟨i, (List.perm_insertionSort _ _).mem_iff.mpr (List.mem_dedup.mpr member), ?_⟩
    rw [Dict.get?_eq_none_iff, whole.keys.mem_iff]
    exact fun listed => outside (mem_indices.mp listed)

theorem offers (free : CollisionFree) (whole : Whole objectId (contentDigestOf payload) s) :
    Offers objectId payload s where
  complete := by
    refine List.eq_nil_iff_forall_not_mem.mpr fun index member => ?_
    obtain ⟨inside, absent⟩ := mem_missingIndices.mp member
    exact absent (whole.keys.mem_iff.mpr (mem_indices.mpr inside))
  recovers := by
    intro recovered ran
    obtain ⟨-, used, chosen, -, digests⟩ := ErasureCodec.recover_ok ran
    obtain ⟨index, found⟩ := Dict.mem_values.mp (ErasureCodec.mem_selection chosen)
    exact contentDigestOf_injective free ((digests used chosen).symm.trans (whole.described index used found).2.2.1)
  fails := fun fault raised => ErasureCodec.recover_raises raised
  fetches := fun _ rows _ low high => whole.fetches rows low high
  samples := by
    intro indices some inside
    obtain ⟨proof, made, verified, about, digest, listed⟩ := whole.samples some inside
    exact ⟨proof, made, verified, about, digest, listed,
      fun other verified' same => SamplingProof.eq_of_proofId free verified' verified same⟩
  refuses := fun _ bad => whole.refuses bad
  weighs := by
    intro weights
    unfold availableWeight
    rw [(whole.keys.map _).sum_eq, List.map_map]
    rfl

end Whole

/-- The object has come here as it was encoded: published, or put shard by shard in some order. -/
inductive Arrives (objectId : String) (payload : Bytes) (shards : List ErasureShard) (s t : AvailabilityStore) : Prop
  | published (ran : publish objectId payload s = .ok shards t)
  | received (unknown : s.existing objectId = .empty) (encoded : s.codec.encode objectId payload = .ok shards)
      {order : List ErasureShard} (every : order.Perm shards) (ran : order.forM put s = .ok ⟨⟩ t)

omit [Crypto] in
theorem existing_insertAll_own (named : ∀ shard ∈ shards, shard.objectId = objectId) (s : AvailabilityStore) :
    (s.insertAll shards).existing objectId =
      shards.foldl (fun held shard => held.set shard.shardIndex shard) (s.existing objectId) := by
  induction shards generalizing s with
  | nil => rfl
  | cons shard shards ih =>
    obtain ⟨rfl, later⟩ := List.forall_mem_cons.mp named
    rw [insertAll, List.foldl_cons, ← insertAll, ih later, existing_insert, List.foldl_cons]

theorem Arrives.stored (arrives : Arrives objectId payload shards s t) :
    s.codec.encode objectId payload = .ok shards ∧ t.codec = s.codec ∧
      ∃ order, order.Perm shards ∧ t.existing objectId = ErasureCodec.shardMap order := by
  cases arrives with
  | published ran =>
    unfold publish at ran
    rw [get_bind_apply] at ran
    cases encoded : s.codec.encode objectId payload with
    | error fault =>
      rw [encoded, ofExcept_error_bind] at ran
      cases ran
    | ok made =>
      rw [encoded, ofExcept_ok_bind] at ran
      cases ran
      exact ⟨rfl, rfl, shards, .refl _, congrArg (·.getD Dict.empty) (Dict.get?_set_self s.objects objectId _)⟩
  | @received unknown encoded order every ran =>
    obtain ⟨-, rfl⟩ := putEach_ok ran
    refine ⟨encoded, insertAll_codec s order, order, every, ?_⟩
    obtain ⟨-, lines, rfl⟩ := ErasureCodec.described_of_encode encoded
    have named : ∀ shard ∈ order, shard.objectId = objectId := by
      intro shard member
      obtain ⟨i, -, rfl⟩ := List.mem_map.mp (every.mem_iff.mp member)
      rfl
    rw [existing_insertAll_own named, unknown, ErasureCodec.shardMap, Dict.ofList, List.foldl_map]

/-- The object is as it was encoded. -/
structure Intact (codec : ErasureCodec) (objectId : String) (shards : List ErasureShard)
    (s : AvailabilityStore) : Prop where
  same : s.codec = codec
  named : ∀ index shard, (s.existing objectId).get? index = some shard → shard.shardIndex = index
  stored : (s.shards objectId).Perm shards

namespace Intact

variable {codec : ErasureCodec}

theorem of_arrives (arrives : Arrives objectId payload shards s t) : Intact s.codec objectId shards t := by
  obtain ⟨encoded, codec, order, every, stored⟩ := arrives.stored
  obtain ⟨-, lines, rfl⟩ := ErasureCodec.described_of_encode encoded
  have distinct : ((order.map fun item => (item.shardIndex, item)).map Prod.fst).Nodup := by
    have indices := (every.map fun item : ErasureShard => item.shardIndex).nodup_iff.mpr
    rw [List.map_map] at indices ⊢
    exact indices (List.nodup_range.map Int.ofNat_injective)
  have entries : (t.existing objectId).entries = order.map fun item => (item.shardIndex, item) := by
    rw [stored]
    exact Dict.entries_ofList distinct
  refine ⟨codec, fun index shard found => ?_, ?_⟩
  · rw [Dict.get?_eq_some_iff, entries] at found
    obtain ⟨item, -, pair⟩ := List.mem_map.mp found
    cases pair
    rfl
  · rw [AvailabilityStore.shards, Dict.values, entries, List.map_map]
    exact (List.map_id order).symm ▸ every

/-- All the shards are there. -/
theorem whole (intact : Intact codec objectId shards s) (encoded : codec.encode objectId payload = .ok shards)
    (hashed : contentDigestOf payload ≠ "") : Whole objectId (contentDigestOf payload) s := by
  obtain ⟨named, lines, rfl⟩ := ErasureCodec.described_of_encode encoded
  constructor
  · have indices : (s.existing objectId).keys = (s.shards objectId).map (·.shardIndex) := by
      unfold AvailabilityStore.shards Dict.keys Dict.values
      rw [List.map_map]
      refine List.map_congr_left fun e member => ?_
      exact (intact.named e.1 e.2 ((Dict.get?_eq_some_iff _).mpr member)).symm
    rw [indices, intact.same]
    refine (intact.stored.map _).trans ?_
    rw [List.map_map]
    exact .refl _
  · intro index shard found
    have listed := intact.stored.mem_iff.mp (Dict.mem_values_of_get? found)
    have here := intact.named index shard found
    obtain ⟨i, below, rfl⟩ := List.mem_map.mp listed
    refine ⟨rfl, here, rfl, by rw [intact.same]; rfl, by rw [intact.same]; rfl, ?_⟩
    exact ErasureCodec.verify_shardOf named hashed (List.mem_range.mp below)

/-- A shard of the object that is put once more goes over itself. -/
theorem stable (hashed : contentDigestOf payload ≠ "") (encoded : codec.encode objectId payload = .ok shards) :
    Stable objectId (fun shard => shard.contentDigest = contentDigestOf payload → shard ∈ shards)
      (Intact codec objectId shards) where
  congr := by
    intro s t codec same intact
    refine ⟨codec.trans intact.same, same ▸ intact.named, ?_⟩
    rw [AvailabilityStore.shards, same]
    exact intact.stored
  insert := by
    intro s shard intact comes mine _ fixes
    subst mine
    have listed := comes ((intact.whole encoded hashed).fixed fixes)
    obtain ⟨index, found⟩ := Dict.mem_values.mp (intact.stored.mem_iff.mpr listed)
    obtain rfl := intact.named index shard found
    have after := (existing_insert s shard).trans (Dict.set_of_get? found)
    exact ⟨intact.same, after ▸ intact.named, by rw [AvailabilityStore.shards, after]; exact intact.stored⟩

end Intact

end AvailabilityStore

namespace ErasureCodec

/-- All shards together are recovered from those that hold the payload itself. -/
theorem regular_range (codec : ErasureCodec) :
    (toMatrix codec.dataShards codec.dataShards (codec.submatrix (List.range codec.totalShards))).det ≠ 0 := by
  have most : codec.dataShards ≤ codec.totalShards := Nat.le_add_right _ _
  have lowest : codec.lowest (List.range codec.totalShards) = List.range codec.dataShards := by
    rw [ErasureCodec.lowest, List.Pairwise.insertionSort_eq List.pairwise_le_range, List.take_range,
      Nat.min_eq_left most]
  have identity : toMatrix codec.dataShards codec.dataShards (codec.submatrix (List.range codec.totalShards)) = 1 := by
    funext i j
    have row : (codec.submatrix (List.range codec.totalShards)).getD i [] = identityRow codec.dataShards i := by
      have inside : i.val < codec.totalShards := by omega
      rw [submatrix, lowest, pick, List.getD_eq_getElem _ _ (by simp), List.getElem_map, List.getElem_range, matrix,
        List.getD_eq_getElem _ _ (by simpa using inside), List.getElem_map, List.getElem_range, if_pos i.isLt]
    rw [toMatrix, Matrix.of_apply, entry, row, getD_identityRow j.isLt, Matrix.one_apply]
    simp only [Fin.ext_iff, eq_comm]
  rw [identity, Matrix.det_one]
  exact one_ne_zero

theorem lowest_perm {codec : ErasureCodec} {positions positions' : List Nat} (same : positions.Perm positions') :
    codec.lowest positions = codec.lowest positions' := by
  unfold lowest
  congr 1
  refine List.Perm.eq_of_pairwise' (List.pairwise_insertionSort _ _) (List.pairwise_insertionSort _ _) ?_
  exact (List.perm_insertionSort _ _).trans (same.trans (List.perm_insertionSort _ _).symm)

/-- In any order, all the shards give the payload. -/
theorem recover_all [Crypto] {codec : ErasureCodec} {objectId : String} {payload : Bytes}
    {shards held : List ErasureShard}
    (hashed : contentDigestOf payload ≠ "") (encoded : codec.encode objectId payload = .ok shards)
    (every : held.Perm shards) : codec.recover held = .ok payload := by
  have named := (described_of_encode encoded).1
  have short : payload.length < 2 ^ 64 := by
    by_contra long
    exact codec.encode_long long shards encoded
  obtain ⟨width, data, lines, coded, made⟩ := codec.encode_eq named short
  cases encoded.symm.trans made
  have listed : ∀ shard ∈ held, codec.shardOf objectId payload lines shard.shardIndex.toNat = shard := by
    intro shard member
    obtain ⟨i, -, rfl⟩ := List.mem_map.mp (every.mem_iff.mp member)
    rfl
  have order : (held.map fun shard => shard.shardIndex.toNat).Perm (List.range codec.totalShards) := by
    refine (every.map _).trans ?_
    rw [List.map_map]
    exact .of_eq (List.map_id _)
  have same : (held.map fun shard => shard.shardIndex.toNat).map (codec.shardOf objectId payload lines) = held := by
    rw [List.map_map]
    exact (List.map_congr_left listed).trans (List.map_id held)
  have regular := codec.regular_range
  rw [submatrix, ← lowest_perm order] at regular
  have found := recover_of_det_ne_zero coded named hashed (order.nodup_iff.mpr List.nodup_range)
    (fun i member => List.mem_range.mp (order.mem_iff.mp member)) (by
      rw [order.length_eq, List.length_range]
      exact Nat.le_add_right _ _) regular
  rw [same] at found
  exact found

end ErasureCodec

namespace ProviderCall

/-- It publishes the object once more. -/
def Republishes (objectId : String) : ProviderCall → Prop
  | .publish other _ => other = objectId
  | _ => False

/-- It puts a shard under the name of the object that was not made for it. -/
def Forges (objectId : String) (shards : List ErasureShard) : ProviderCall → Prop
  | .put shard => shard.objectId = objectId ∧ shard ∉ shards
  | _ => False

variable [Crypto] {objectId : String} {mayCome : ErasureShard → Prop} {P : AvailabilityStore → Prop}
  {s : AvailabilityStore}

theorem exec_stable (call : ProviderCall) (stable : AvailabilityStore.Stable objectId mayCome P) (before : P s)
    (once : ¬ call.Republishes objectId) (put : ∀ shard, call = .put shard → shard.objectId = objectId → mayCome shard)
    (encoded : ∀ payload shards, s.codec.encode objectId payload = .ok shards → ∀ shard ∈ shards, mayCome shard) :
    P (call.exec s) := by
  cases call with
  | publish other payload => exact stable.publish before once
  | put shard => exact stable.put before (put shard rfl)
  | repair other sourceShards => exact stable.repair before encoded

end ProviderCall

namespace AvailabilityStore

variable [Crypto] {s t : AvailabilityStore} {objectId : String} {payload : Bytes} {shards : List ErasureShard}

/-- An object that has come to a provider is whole for good. It is recovered or recovery
fails, and while no shard is put in its name that was not made for it, it is recovered. -/
theorem object_kept (free : CollisionFree) (hashed : contentDigestOf payload ≠ "")
    (arrives : Arrives objectId payload shards s t) :
    (∀ u, GuardedRun ProviderCall.exec (fun _ call => ¬ call.Republishes objectId) t u → Offers objectId payload u) ∧
    ∀ u, GuardedRun ProviderCall.exec (fun _ call => ¬ call.Republishes objectId ∧ ¬ call.Forges objectId shards) t u →
      (u.shards objectId).Perm shards ∧ u.recover objectId = .ok payload := by
  have encoded := arrives.stored.1
  have start := Intact.of_arrives arrives
  constructor
  · intro u run
    have kept := run.invariant (P := Whole objectId (contentDigestOf payload)) (start.whole encoded hashed)
      fun s call once before => call.exec_stable (Whole.stable objectId _) before once (fun _ _ _ => trivial)
        fun _ _ _ _ _ => trivial
    exact kept.offers free
  · intro u run
    have kept := run.invariant (P := Intact s.codec objectId shards) start fun s' call allowed before => by
      refine call.exec_stable (Intact.stable hashed encoded) before allowed.1 ?_ ?_
      · rintro shard rfl mine -
        by_contra foreign
        exact allowed.2 ⟨mine, foreign⟩
      · intro other made coded shard member digest
        obtain ⟨-, lines, described⟩ := ErasureCodec.described_of_encode coded
        have about : shard.contentDigest = contentDigestOf other := by
          rw [described] at member
          obtain ⟨i, -, rfl⟩ := List.mem_map.mp member
          rfl
        obtain rfl := contentDigestOf_injective free (about.symm.trans digest)
        rw [before.same] at coded
        cases encoded.symm.trans coded
        exact member
    refine ⟨kept.stored, ?_⟩
    rw [recover, kept.same]
    exact ErasureCodec.recover_all hashed encoded kept.stored

omit [Crypto] in
/-- A shard with another digest is refused, and a repair has nothing to do. -/
theorem object_kept_mirror : let _ := Crypto.ideal
    ∃ shards t, publish "object" [7] (fresh mirrorCodec) = .ok shards t ∧
      Offers "object" [7] ((ProviderCall.put mirrorShard).exec t) ∧
      ((ProviderCall.repair "object" none).exec t).recover "object" = .ok [7] := by
  intro _
  have name : "object" ≠ "" := by decide
  have short : ([7] : Bytes).length < 2 ^ 64 := by decide
  obtain ⟨width, data, lines, -, encoded⟩ := mirrorCodec.encode_eq name short
  have ran : ∃ t, publish "object" [7] (fresh mirrorCodec) =
      .ok ((List.range mirrorCodec.totalShards).map (mirrorCodec.shardOf "object" [7] lines)) t := by
    have here : (fresh mirrorCodec).codec.encode "object" [7] = _ := encoded
    unfold publish
    rw [get_bind_apply, here, ofExcept_ok_bind]
    exact ⟨_, rfl⟩
  obtain ⟨t, ran⟩ := ran
  obtain ⟨offers, recovers⟩ := object_kept ideal_collisionFree (ideal_digest_named _) (.published ran)
  have other : ¬ (ProviderCall.put mirrorShard).Republishes "object" := id
  have repair : ¬ (ProviderCall.repair "object" none).Republishes "object" := id
  exact ⟨_, t, ran, offers _ (.tail .refl other), (recovers _ (.tail .refl ⟨repair, id⟩)).2⟩

end AvailabilityStore

end Mosaic
