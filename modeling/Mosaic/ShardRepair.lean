import Mosaic.AvailabilityNetwork
import Mosaic.ErasureRecovery

namespace Mosaic
open CanonicalJson Effects GF256

namespace AvailabilityStore

/-- `tuple(self._objects.get(object_id, {}).values())`. -/
def shards (s : AvailabilityStore) (objectId : String) : List ErasureShard := (s.existing objectId).values

def missingIndices (s : AvailabilityStore) (objectId : String) : List Int :=
  ((List.range s.codec.totalShards).map fun index : Nat => (index : Int)).filter
    fun index => index ∉ (s.existing objectId).keys

/-- `tuple(source_shards) if source_shards is not None else self.shards(object_id)`. -/
def sources (s : AvailabilityStore) (objectId : String) (sourceShards : Option (List ErasureShard)) : List ErasureShard :=
  sourceShards.getD (s.shards objectId)

variable [Crypto]

def repair (objectId : String) (sourceShards : Option (List ErasureShard)) :
    EStateM AvailabilityFault AvailabilityStore (List ErasureShard) := do
  let s ← get
  let source := s.sources objectId sourceShards
  let missing := s.missingIndices objectId
  if missing = [] then
    return []
  else
    let repaired ← ofExcept (s.codec.repair source missing)
    repaired.forM put
    return repaired

end AvailabilityStore

theorem fromBytes_lt (value : Bytes) : fromBytes value < 256 ^ value.length := by
  induction value using List.reverseRecOn with
  | nil => simp [fromBytes]
  | append_singleton bytes byte ih =>
    have last := byte.toNat_lt
    have step : fromBytes (bytes ++ [byte]) = 256 * fromBytes bytes + byte.toNat := by
      simp [fromBytes, List.foldl_append]
    rw [step, List.length_append, List.length_singleton, Nat.pow_succ]
    omega

namespace ErasureCodec

variable [Crypto] {codec : ErasureCodec} {shards repaired : List ErasureShard} {missing : List Int} {payload : Bytes}

/-- A payload that was recovered fits its header, and is the one that the used
shards are about. -/
theorem recover_ok (ran : codec.recover shards = .ok payload) : payload.length < 2 ^ 64 ∧
    ∃ first ∈ codec.selection shards, first.verify = true ∧
      ∀ used ∈ codec.selection shards, used.contentDigest = contentDigestOf payload := by
  unfold recover at ran
  split at ran
  · cases ran
  dsimp only at ran
  split at ran
  · cases ran
  rename_i valid
  split at ran
  · cases ran
  rename_i first others selected
  split at ran
  · cases ran
  rename_i compatible
  obtain ⟨dataMatrix, -, ran⟩ := except_bind_eq_ok.mp ran
  obtain ⟨dataPayloads, -, ran⟩ := except_bind_eq_ok.mp ran
  split at ran
  · cases ran
  rename_i digests
  cases ran
  rw [not_not] at digests
  have verified : ∀ used ∈ codec.selection shards, used.verify = true := by
    intro used member
    by_contra fails
    exact valid (List.any_eq_true.mpr ⟨used, member, by simp [fails]⟩)
  have alike : ∀ used ∈ codec.selection shards, used.contentDigest = first.contentDigest := by
    intro used member
    by_contra differ
    rw [selected] at member
    exact compatible (List.any_eq_true.mpr ⟨used, selected ▸ member, by simp [differ]⟩)
  have inside : first ∈ codec.selection shards := by
    rw [selected]
    exact List.mem_cons_self
  refine ⟨?_, first, inside, verified first inside, fun used member => (alike used member).trans digests.symm⟩
  have header := fromBytes_lt (dataPayloads.flatten.take 8)
  have short : (dataPayloads.flatten.take 8).length ≤ 8 := List.length_take_le _ _
  have bound : 256 ^ (dataPayloads.flatten.take 8).length ≤ 256 ^ 8 := Nat.pow_le_pow_right (by decide) short
  have cut := List.length_take_le (fromBytes (dataPayloads.flatten.take 8)) (dataPayloads.flatten.drop 8)
  omega

/-- Only the shards that are used count. -/
theorem recover_congr {shards' : List ErasureShard} (enough : ¬ (shardMap shards).keys.length < codec.dataShards)
    (enough' : ¬ (shardMap shards').keys.length < codec.dataShards)
    (same : codec.selection shards = codec.selection shards') : codec.recover shards = codec.recover shards' := by
  rw [recover, recover, if_neg enough, if_neg enough', same]

/-- What a repair gives back: shards of what was recovered, under the name of the
first shard of the list. -/
theorem repair_returns {first : ErasureShard} {others : List ErasureShard}
    (recovered : codec.recover (first :: others) = .ok payload) (named : first.objectId ≠ "")
    (inside : ∀ i ∈ missing, 0 ≤ i ∧ i < codec.totalShards) :
    ∃ lines, codec.repair (first :: others) missing = .ok ((missing.dedup.insertionSort (· ≤ ·)).map
      fun i => codec.shardOf first.objectId payload lines i.toNat) := by
  obtain ⟨short, -⟩ := recover_ok recovered
  obtain ⟨-, -, lines, -, encoded⟩ := codec.encode_eq named short
  exact ⟨lines, repair_cons_eq recovered encoded inside⟩

theorem repair_ok (ran : codec.repair shards missing = .ok repaired) :
    ∃ first others payload lines, shards = first :: others ∧ first.objectId ≠ "" ∧
      codec.recover shards = .ok payload ∧ (∀ i ∈ missing, 0 ≤ i ∧ i < codec.totalShards) ∧
      repaired = (missing.dedup.insertionSort (· ≤ ·)).map fun i => codec.shardOf first.objectId payload lines i.toNat := by
  have whole := ran
  unfold repair at ran
  obtain ⟨payload, recovered, ran⟩ := except_bind_eq_ok.mp ran
  cases shards with
  | nil => cases ran
  | cons first others =>
    obtain ⟨encoded, made, ran⟩ := except_bind_eq_ok.mp ran
    have named : first.objectId ≠ "" := by
      intro empty
      rw [encode, if_pos empty] at made
      cases made
    have inside : ∀ i ∈ missing, 0 ≤ i ∧ i < codec.totalShards := by
      intro i member
      dsimp only at ran
      split at ran
      · cases ran
      rename_i passed
      by_contra outside
      refine passed (List.any_eq_true.mpr ⟨i, ?_, ?_⟩)
      · exact (List.perm_insertionSort _ _).mem_iff.mpr (List.mem_dedup.mpr member)
      · simp only [decide_eq_true_eq]
        omega
    obtain ⟨lines, returned⟩ := repair_returns recovered named inside
    exact ⟨first, others, payload, lines, rfl, named, recovered, inside, Except.ok.inj (whole.symm.trans returned)⟩

/-- The first shard of the list is not of the object that is recovered. -/
structure Misnames (codec : ErasureCodec) (shards : List ErasureShard) (missing : List Int) : Prop where
  wanted : missing ≠ []
  inside : ∀ i ∈ missing, 0 ≤ i ∧ i < codec.totalShards
  decodes : ∃ payload, codec.recover shards = .ok payload
  foreign : ∃ first ∈ shards.head?, first.objectId ≠ "" ∧ ∃ used ∈ codec.selection shards, used.objectId ≠ first.objectId

theorem Misnames.fails (misnames : codec.Misnames shards missing) :
    ∃ repaired, codec.repair shards missing = .ok repaired ∧
      ∃ shard ∈ repaired, ∃ used ∈ codec.selection shards, shard.objectId ≠ used.objectId := by
  obtain ⟨wanted, inside, ⟨payload, recovered⟩, first, head, named, used, member, differ⟩ := misnames
  obtain ⟨others, rfl⟩ := List.head?_eq_some_iff.mp head
  obtain ⟨lines, returned⟩ := repair_returns recovered named inside
  obtain ⟨i, listed⟩ := List.exists_mem_of_ne_nil missing wanted
  have sorted : i ∈ missing.dedup.insertionSort (· ≤ ·) :=
    (List.perm_insertionSort _ _).mem_iff.mpr (List.mem_dedup.mpr listed)
  exact ⟨_, returned, _, List.mem_map_of_mem sorted, used, member, differ.symm⟩

/-- Outside of these lists every repaired shard is of the object that was recovered. -/
theorem names_of_not_misnames (right : ¬ codec.Misnames shards missing)
    (ran : codec.repair shards missing = .ok repaired) :
    ∀ shard ∈ repaired, ∀ used ∈ codec.selection shards,
      shard.objectId = used.objectId ∧ shard.contentDigest = used.contentDigest := by
  obtain ⟨first, others, payload, lines, rfl, named, recovered, inside, rfl⟩ := repair_ok ran
  obtain ⟨-, -, -, -, digests⟩ := recover_ok recovered
  intro shard member used chosen
  obtain ⟨i, sorted, rfl⟩ := List.mem_map.mp member
  refine ⟨?_, (digests used chosen).symm⟩
  by_contra differ
  have listed : i ∈ missing := List.mem_dedup.mp ((List.perm_insertionSort _ _).mem_iff.mp sorted)
  exact right ⟨List.ne_nil_of_mem listed, inside, ⟨payload, recovered⟩, first, rfl, named, used, chosen, Ne.symm differ⟩

end ErasureCodec

namespace AvailabilityStore

variable {s t : AvailabilityStore} {shard : ErasureShard} {shards : List ErasureShard} {objectId : String}
  {index : Int}

theorem mem_keys_existing : index ∈ (s.existing objectId).keys ↔ ∃ shard, s.find? objectId index = some shard := by
  unfold find? existing
  cases s.objects.get? objectId with
  | none => simp
  | some held => simp [Dict.mem_keys]

theorem mem_keys_insert : index ∈ ((s.insert shard).existing objectId).keys ↔
    shard.objectId = objectId ∧ shard.shardIndex = index ∨ index ∈ (s.existing objectId).keys := by
  rw [mem_keys_existing, mem_keys_existing, find?_insert]
  split
  · rename_i here
    simp [here]
  · rename_i other
    simp [other]

theorem mem_keys_insertAll : index ∈ ((s.insertAll shards).existing objectId).keys ↔
    (∃ shard ∈ shards, shard.objectId = objectId ∧ shard.shardIndex = index) ∨ index ∈ (s.existing objectId).keys := by
  induction shards generalizing s with
  | nil => simp [insertAll]
  | cons shard shards ih =>
    rw [insertAll, List.foldl_cons, ← insertAll, ih, mem_keys_insert]
    simp only [List.mem_cons, exists_eq_or_imp]
    rw [or_assoc]
    exact or_left_comm

theorem existing_insertAll (foreign : ∀ shard ∈ shards, shard.objectId ≠ objectId) :
    (s.insertAll shards).existing objectId = s.existing objectId := by
  induction shards generalizing s with
  | nil => rfl
  | cons shard shards ih =>
    obtain ⟨first, later⟩ := List.forall_mem_cons.mp foreign
    rw [insertAll, List.foldl_cons, ← insertAll, ih later]
    unfold existing insert
    rw [Dict.get?_set_of_ne _ _ first]

theorem insertAll_codec (s : AvailabilityStore) (shards : List ErasureShard) : (s.insertAll shards).codec = s.codec := by
  induction shards generalizing s with
  | nil => rfl
  | cons shard shards ih => exact ih (s.insert shard)

theorem mem_missingIndices : index ∈ s.missingIndices objectId ↔
    (0 ≤ index ∧ index < s.codec.totalShards) ∧ index ∉ (s.existing objectId).keys := by
  unfold missingIndices
  rw [List.mem_filter, List.mem_map, decide_eq_true_eq]
  refine and_congr_left fun _ => ⟨?_, fun inside => ⟨index.toNat, ?_, ?_⟩⟩
  · rintro ⟨number, below, rfl⟩
    have := List.mem_range.mp below
    omega
  · exact List.mem_range.mpr (by omega)
  · omega

/-- The content digest that the first stored shard of the object fixes. -/
def Fixes (s : AvailabilityStore) (objectId contentDigest : String) : Prop :=
  ∀ stored ∈ (s.existing objectId).values.head?, stored.contentDigest = contentDigest

theorem Fixes.insert (fixes : s.Fixes shard.objectId shard.contentDigest) :
    (s.insert shard).Fixes shard.objectId shard.contentDigest := by
  intro stored head
  have after : (s.insert shard).existing shard.objectId =
      (s.existing shard.objectId).set shard.shardIndex shard := by
    unfold existing AvailabilityStore.insert
    rw [Dict.get?_set_self]
    rfl
  rw [after] at head
  rcases Dict.head?_values_set (Option.mem_def.mp head) with rfl | old
  · rfl
  · exact fixes stored old

variable [Crypto]

theorem put_of_fits (fits : Fits s.codec shard) (fixes : s.Fixes shard.objectId shard.contentDigest) :
    put shard s = .ok ⟨⟩ (s.insert shard) := by
  have same : ¬ (shard.totalShards ≠ s.codec.totalShards ∨ shard.dataShards ≠ s.codec.dataShards) := by
    simp [fits.total, fits.data]
  have agree : ¬ ∃ first ∈ (s.existing shard.objectId).values.head?, first.contentDigest ≠ shard.contentDigest := by
    rintro ⟨first, head, differ⟩
    exact differ (fixes first head)
  unfold put
  rw [get_bind_apply, raiseIf_bind_neg same, raiseIf_bind_neg (by simp [fits.verified]), bind_apply]
  exact (raiseIf_bind_neg agree _ _ _).trans (congrArg (EStateM.Result.ok PUnit.unit) (insert_existing s shard))

theorem put_ok (ran : put shard s = .ok ⟨⟩ t) : s.Fixes shard.objectId shard.contentDigest ∧ t = s.insert shard := by
  have again := ran
  unfold put at ran
  rw [get_bind_apply] at ran
  obtain ⟨same, ran⟩ := raiseIf_bind_eq_ok ran
  obtain ⟨verified, ran⟩ := raiseIf_bind_eq_ok ran
  obtain ⟨⟨⟩, u, created, ran⟩ := bind_eq_ok.mp ran
  cases created
  obtain ⟨agree, -⟩ := raiseIf_bind_eq_ok ran
  push Not at same agree
  have fits : Fits s.codec shard := ⟨same.1, same.2, Bool.eq_true_of_not_eq_false verified⟩
  cases again.symm.trans (put_of_fits fits agree)
  exact ⟨agree, rfl⟩

theorem putEach_of_fits (fits : ∀ shard ∈ shards, Fits s.codec shard)
    {contentDigest : String} (alike : ∀ shard ∈ shards, shard.objectId = objectId ∧ shard.contentDigest = contentDigest)
    (fixes : s.Fixes objectId contentDigest) : shards.forM put s = .ok ⟨⟩ (s.insertAll shards) := by
  induction shards generalizing s with
  | nil => rfl
  | cons shard shards ih =>
    obtain ⟨first, later⟩ := List.forall_mem_cons.mp fits
    obtain ⟨⟨rfl, rfl⟩, others⟩ := List.forall_mem_cons.mp alike
    have rest := ih (s := s.insert shard) later others fixes.insert
    exact (bind_of_ok (put_of_fits first fixes)).trans rest

theorem putEach_ok (ran : shards.forM put s = .ok ⟨⟩ t) :
    (∀ first ∈ shards.head?, s.Fixes first.objectId first.contentDigest) ∧ t = s.insertAll shards := by
  induction shards generalizing s with
  | nil =>
    cases ran
    exact ⟨nofun, rfl⟩
  | cons shard shards ih =>
    obtain ⟨⟨⟩, u, placed, later⟩ := bind_eq_ok.mp ran
    obtain ⟨fixes, rfl⟩ := put_ok placed
    refine ⟨fun first head => ?_, (ih later).2⟩
    cases Option.some.inj head
    exact fixes

/-- The first source shard is of another object, which has room for what is repaired. -/
structure Misdirects (s : AvailabilityStore) (objectId : String) (sourceShards : Option (List ErasureShard)) : Prop where
  wanted : s.missingIndices objectId ≠ []
  decodes : ∃ payload, s.codec.recover (s.sources objectId sourceShards) = .ok payload
  foreign : ∃ first ∈ (s.sources objectId sourceShards).head?, first.objectId ≠ "" ∧ first.objectId ≠ objectId ∧
    ∀ used ∈ s.codec.selection (s.sources objectId sourceShards), s.Fixes first.objectId used.contentDigest

variable {sourceShards : Option (List ErasureShard)} {repaired : List ErasureShard}

omit [Crypto] in
theorem missing_inside (s : AvailabilityStore) (objectId : String) :
    ∀ i ∈ s.missingIndices objectId, 0 ≤ i ∧ i < s.codec.totalShards :=
  fun _ member => (mem_missingIndices.mp member).1

/-- Nothing is missing, or the codec repairs and all its shards are put. -/
theorem repair_ok (ran : repair objectId sourceShards s = .ok repaired t) :
    s.missingIndices objectId = [] ∧ t = s ∨ s.missingIndices objectId ≠ [] ∧
      s.codec.repair (s.sources objectId sourceShards) (s.missingIndices objectId) = .ok repaired ∧
        repaired.forM put s = .ok ⟨⟩ t := by
  unfold repair at ran
  rw [get_bind_apply] at ran
  split at ran
  · rename_i complete
    cases ran
    exact Or.inl ⟨complete, rfl⟩
  · rename_i wanted
    cases made : s.codec.repair (s.sources objectId sourceShards) (s.missingIndices objectId) with
    | error fault =>
      rw [made, ofExcept_error_bind] at ran
      cases ran
    | ok shards =>
      rw [made, ofExcept_ok_bind] at ran
      obtain ⟨⟨⟩, u, placed, ran⟩ := bind_eq_ok.mp ran
      cases ran
      exact Or.inr ⟨wanted, rfl, placed⟩

theorem Misdirects.fails (misdirects : s.Misdirects objectId sourceShards) :
    ∃ repaired t, repair objectId sourceShards s = .ok repaired t ∧ t.missingIndices objectId ≠ [] := by
  obtain ⟨wanted, ⟨payload, recovered⟩, first, head, named, other, fixes⟩ := misdirects
  obtain ⟨others, list⟩ := List.head?_eq_some_iff.mp head
  rw [list] at recovered fixes
  obtain ⟨-, used, chosen, verified, digests⟩ := ErasureCodec.recover_ok recovered
  obtain ⟨lines, returned⟩ := ErasureCodec.repair_returns recovered named (s.missing_inside objectId)
  have hashed : contentDigestOf payload ≠ "" := by
    rw [← digests used chosen]
    exact (of_decide_eq_true verified).1.2
  generalize made : (((s.missingIndices objectId).dedup.insertionSort (· ≤ ·)).map
    fun i => s.codec.shardOf first.objectId payload lines i.toNat) = shards at returned
  have alike : ∀ shard ∈ shards, shard.objectId = first.objectId ∧ shard.contentDigest = contentDigestOf payload := by
    intro shard member
    rw [← made] at member
    obtain ⟨i, -, rfl⟩ := List.mem_map.mp member
    exact ⟨rfl, rfl⟩
  have fits : ∀ shard ∈ shards, Fits s.codec shard := by
    intro shard member
    rw [← made] at member
    obtain ⟨i, sorted, rfl⟩ := List.mem_map.mp member
    have inside := s.missing_inside objectId i (List.mem_dedup.mp ((List.perm_insertionSort _ _).mem_iff.mp sorted))
    exact ⟨rfl, rfl, ErasureCodec.verify_shardOf named hashed (by omega)⟩
  have placed := putEach_of_fits fits alike (digests used chosen ▸ fixes used chosen)
  refine ⟨shards, s.insertAll shards, ?_, ?_⟩
  · unfold repair
    rw [get_bind_apply, if_neg wanted, list, returned, ofExcept_ok_bind, bind_of_ok placed]
    rfl
  · have untouched : (s.insertAll shards).existing objectId = s.existing objectId :=
      existing_insertAll fun shard member => (alike shard member).1 ▸ other
    unfold missingIndices
    rw [untouched, insertAll_codec]
    exact wanted

/-- Outside of these cases the object is whole afterwards, and the others are as before. -/
theorem whole_of_not_misdirects (right : ¬ s.Misdirects objectId sourceShards)
    (ran : repair objectId sourceShards s = .ok repaired t) :
    t.missingIndices objectId = [] ∧ ∀ other, other ≠ objectId → t.shards other = s.shards other := by
  rcases repair_ok ran with ⟨complete, rfl⟩ | ⟨wanted, made, placed⟩
  · exact ⟨complete, fun _ _ => rfl⟩
  obtain ⟨fixes, rfl⟩ := putEach_ok placed
  obtain ⟨first, others, payload, lines, list, named, recovered, -, rfl⟩ := ErasureCodec.repair_ok made
  obtain ⟨-, -, -, -, digests⟩ := ErasureCodec.recover_ok recovered
  have sorted : ∀ i, i ∈ (s.missingIndices objectId).dedup.insertionSort (· ≤ ·) ↔ i ∈ s.missingIndices objectId :=
    fun i => (List.perm_insertionSort _ _).mem_iff.trans List.mem_dedup
  have mine : first.objectId = objectId := by
    by_contra differ
    refine right ⟨wanted, ⟨payload, recovered⟩, first, by rw [list]; rfl, named, differ, fun used chosen => ?_⟩
    obtain ⟨missing, listed⟩ := List.exists_mem_of_ne_nil _ wanted
    obtain ⟨i, rest, order⟩ := List.exists_cons_of_ne_nil (List.ne_nil_of_mem ((sorted missing).mpr listed))
    rw [digests used chosen]
    exact fixes (s.codec.shardOf first.objectId payload lines i.toNat) (by rw [order]; rfl)
  subst mine
  constructor
  · refine List.eq_nil_iff_forall_not_mem.mpr fun i member => ?_
    obtain ⟨inside, absent⟩ := mem_missingIndices.mp member
    rw [insertAll_codec] at inside
    rw [mem_keys_insertAll] at absent
    push Not at absent
    have listed : i ∈ s.missingIndices first.objectId := mem_missingIndices.mpr ⟨inside, absent.2⟩
    refine absent.1 _ (List.mem_map_of_mem ((sorted i).mpr listed)) rfl ?_
    exact Int.toNat_of_nonneg inside.1
  · intro other differ
    unfold AvailabilityStore.shards
    rw [existing_insertAll]
    intro shard member
    obtain ⟨i, -, rfl⟩ := List.mem_map.mp member
    exact differ.symm

end AvailabilityStore

/-- A repair gives back shards of the object that was recovered, and makes the named
object whole, exactly where the first shard of the list does not lead it astray. -/
theorem repair_right_iff [Crypto] (codec : ErasureCodec) (shards : List ErasureShard) (missing : List Int)
    (s : AvailabilityStore) (objectId : String) (sourceShards : Option (List ErasureShard)) :
    ((∀ repaired, codec.repair shards missing = .ok repaired →
        ∀ shard ∈ repaired, ∀ used ∈ codec.selection shards,
          shard.objectId = used.objectId ∧ shard.contentDigest = used.contentDigest) ↔
      ¬ codec.Misnames shards missing) ∧
    ((∀ repaired t, AvailabilityStore.repair objectId sourceShards s = .ok repaired t →
        t.missingIndices objectId = [] ∧ ∀ other, other ≠ objectId → t.shards other = s.shards other) ↔
      ¬ s.Misdirects objectId sourceShards) := by
  constructor
  · constructor
    · intro names misnames
      obtain ⟨repaired, ran, shard, member, used, chosen, differ⟩ := misnames.fails
      exact differ (names repaired ran shard member used chosen).1
    · exact fun right repaired ran => ErasureCodec.names_of_not_misnames right ran
  · constructor
    · intro whole misdirects
      obtain ⟨repaired, t, ran, missing⟩ := misdirects.fails
      exact missing (whole repaired t ran).1
    · exact fun right repaired t ran => AvailabilityStore.whole_of_not_misdirects right ran

section Stray
variable [Crypto]

omit [Crypto] in
theorem mirrorCodec_regular : (toMatrix 1 1 (mirrorCodec.submatrix [0])).det ≠ 0 := by
  rw [Matrix.det_fin_one]
  decide

/-- A shard of the one object and then one of the other, with the lower index. -/
theorem strayShards_recover (named : ∀ value, digest value ≠ "") : ∃ stray shard : ErasureShard,
    (stray.objectId = "a" ∧ stray.shardIndex = 1 ∧ stray.verify = true) ∧
      (shard.objectId = "b" ∧ shard.shardIndex = 0 ∧ shard.verify = true) ∧
      mirrorCodec.recover [shard] = .ok [7] ∧ mirrorCodec.recover [stray, shard] = .ok [7] ∧
      mirrorCodec.selection [stray, shard] = [shard] := by
  have objectId : "b" ≠ "" := by decide
  have payload : ([7] : Bytes).length < 2 ^ 64 := by decide
  obtain ⟨width, data, lines, coded, -⟩ := mirrorCodec.encode_eq objectId payload
  let stray := mirrorCodec.shardOf "a" [8] lines 1
  let shard := mirrorCodec.shardOf "b" [7] lines 0
  have verified : stray.verify = true := ErasureCodec.verify_shardOf (by decide) (named _) (by decide)
  have verified' : shard.verify = true := ErasureCodec.verify_shardOf (by decide) (named _) (by decide)
  have alone : mirrorCodec.recover ([0].map (mirrorCodec.shardOf "b" [7] lines)) = .ok [7] :=
    ErasureCodec.recover_of_det_ne_zero coded (by decide) (named _) (by decide) (by decide) (by decide) mirrorCodec_regular
  have chosen : mirrorCodec.selection [stray, shard] = [shard] := rfl
  refine ⟨stray, shard, ⟨rfl, rfl, verified⟩, ⟨rfl, rfl, verified'⟩, alone, ?_, chosen⟩
  have enough : ¬ (2 : Nat) < 1 := by decide
  have enough' : ¬ (1 : Nat) < 1 := by decide
  rw [← alone]
  exact ErasureCodec.recover_congr enough enough' chosen

omit [Crypto] in
/-- The object `b` is recovered, and the shard that comes back is named `a`. And
`b` is repaired where `a` was asked for. -/
theorem repair_strays : let _ := Crypto.ideal
    (¬ ∀ (codec : ErasureCodec) (shards : List ErasureShard) (missing : List Int), (∀ shard ∈ shards, shard.verify = true) →
      ∀ repaired, codec.repair shards missing = .ok repaired → ∀ shard ∈ repaired, ∀ used ∈ codec.selection shards,
        shard.objectId = used.objectId ∧ shard.contentDigest = used.contentDigest) ∧
    ¬ ∀ (s : AvailabilityStore) (objectId : String) (source : List ErasureShard), (∀ shard ∈ source, shard.verify = true) →
      ∀ repaired t, AvailabilityStore.repair objectId (some source) s = .ok repaired t →
        t.missingIndices objectId = [] ∧ ∀ other, other ≠ objectId → t.shards other = s.shards other := by
  intro _
  obtain ⟨stray, shard, ⟨strayName, -, verified⟩, ⟨shardName, -, verified'⟩, alone, mixed, chosen⟩ :=
    strayShards_recover ideal_digest_named
  constructor
  · intro claim
    have misnames : mirrorCodec.Misnames [stray, shard] [1] := by
      refine ⟨by decide, by decide, ⟨_, mixed⟩, stray, rfl, by rw [strayName]; decide, shard, ?_, ?_⟩
      · rw [chosen]
        exact List.mem_singleton_self _
      · rw [strayName, shardName]
        decide
    obtain ⟨repaired, ran, made, member, used, inUse, differ⟩ := misnames.fails
    exact differ (claim _ _ _ (by simp [verified, verified']) repaired ran made member used inUse).1
  · intro claim
    have misdirects : (AvailabilityStore.fresh mirrorCodec).Misdirects "a" (some [shard]) :=
      ⟨by decide, ⟨_, alone⟩, shard, rfl, by rw [shardName]; decide, by rw [shardName]; decide, fun _ _ => nofun⟩
    obtain ⟨repaired, t, ran, missing⟩ := misdirects.fails
    exact missing (claim _ _ _ (by simp [verified']) repaired t ran).1

end Stray

end Mosaic
