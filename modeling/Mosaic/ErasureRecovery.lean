import Mosaic.ErasureMatrix

namespace Mosaic
open GF256 Matrix CanonicalJson

/-- Reading back the digits from the one of weight `256 ^ last` upwards. -/
theorem fromBytes_digits (number last count : Nat) :
    fromBytes ((List.range count).map fun i => UInt8.ofNat (number / 256 ^ (last + count - 1 - i))) =
      number / 256 ^ last % 256 ^ count := by
  induction count generalizing last with
  | zero => simp [fromBytes, Nat.mod_one]
  | succ count ih =>
    have higher : (List.range count).map (fun i => UInt8.ofNat (number / 256 ^ (last + (count + 1) - 1 - i))) =
        (List.range count).map fun i => UInt8.ofNat (number / 256 ^ (last + 1 + count - 1 - i)) := by
      refine List.map_congr_left fun i _ => ?_
      rw [show last + (count + 1) - 1 - i = last + 1 + count - 1 - i by omega]
    have previous := ih (last + 1)
    rw [fromBytes] at previous
    rw [List.range_succ, List.map_append, fromBytes, List.foldl_append, higher, previous]
    simp only [List.map_cons, List.map_nil, List.foldl_cons, List.foldl_nil, UInt8.toNat_ofNat']
    have weight : number / 256 ^ (last + 1) = number / 256 ^ last / 256 := by
      rw [Nat.div_div_eq_div_mul]
      rfl
    have modulus : 256 ^ (count + 1) = 256 * 256 ^ count := Nat.pow_succ'
    rw [show last + (count + 1) - 1 - count = last by omega, weight, modulus, Nat.mod_mul, Nat.add_comm]

theorem toBytes8_eq {length : Nat} (short : length < 2 ^ 64) :
    ∃ header, toBytes8 length = some header ∧ header.length = 8 ∧ fromBytes header = length := by
  have inside : (0 : Int) ≤ length ∧ (length : Int) < 2 ^ 64 := ⟨by omega, by exact_mod_cast short⟩
  refine ⟨_, if_pos inside, by simp, ?_⟩
  have digits := fromBytes_digits length 0 8
  rw [Nat.pow_zero, Nat.div_one, Nat.mod_eq_of_lt (show length < 256 ^ 8 from short)] at digits
  simpa only [Nat.zero_add, Int.toNat_natCast] using digits

theorem toBytes8_none {length : Nat} (long : ¬ length < 2 ^ 64) : toBytes8 length = none := by
  refine if_neg ?_
  rintro ⟨-, below⟩
  exact long (by exact_mod_cast below)

namespace ErasureCodec

theorem flatten_cuts (size : Nat) (padded : Bytes) (count : Nat) :
    ((List.range count).map fun index => (padded.drop (index * size)).take size).flatten =
      padded.take (count * size) := by
  induction count with
  | zero => simp
  | succ count ih =>
    rw [List.range_succ, List.map_append, List.flatten_append, ih, Nat.succ_mul, List.take_add]
    simp

/-- Cutting into slices of equal length. -/
theorem slices_eq {size count : Nat} {padded : Bytes} (positive : 0 < size) (whole : padded.length = count * size) :
    Shaped count size (slices size padded) ∧ (slices size padded).flatten = padded := by
  have number : (padded.length + size - 1) / size = count := by
    rw [whole, Nat.add_sub_assoc positive, Nat.add_comm, Nat.add_mul_div_right _ _ positive,
      Nat.div_eq_of_lt (by omega), Nat.zero_add]
  refine ⟨⟨by simp [slices, number], fun row member => ?_⟩, ?_⟩
  · obtain ⟨index, inside, rfl⟩ := List.mem_map.mp member
    rw [number, List.mem_range] at inside
    have later : (index + 1) * size ≤ count * size := Nat.mul_le_mul_right size inside
    rw [Nat.succ_mul] at later
    rw [List.length_take, List.length_drop, whole]
    omega
  · rw [slices, number, flatten_cuts, ← whole, List.take_length]

variable (codec : ErasureCodec)

theorem matrix_shaped : Shaped codec.totalShards codec.dataShards codec.matrix := by
  refine ⟨by rw [matrix, List.length_map, List.length_range], fun row member => ?_⟩
  obtain ⟨index, -, rfl⟩ := List.mem_map.mp member
  split
  · rw [identityRow, List.length_map, List.length_range]
  · rw [List.length_map, List.length_range]

/-- The positions that are used when the shards at these positions are there. -/
def lowest (positions : List Nat) : List Nat := (positions.insertionSort (· ≤ ·)).take codec.dataShards

theorem length_lowest {positions : List Nat} (enough : codec.dataShards ≤ positions.length) :
    (codec.lowest positions).length = codec.dataShards := by
  rw [lowest, List.length_take, List.length_insertionSort, Nat.min_eq_left enough]

theorem mem_of_lowest {positions : List Nat} {i : Nat} (member : i ∈ codec.lowest positions) : i ∈ positions :=
  (List.perm_insertionSort _ _).mem_iff.mp (List.mem_of_mem_take member)

/-- The rows that `recover` inverts. -/
def submatrix (positions : List Nat) : List (List UInt8) := pick codec.matrix (codec.lowest positions)

/-- What `encode` computes: the slices of the framed payload, and their images. -/
structure Coded (payload : Bytes) (width : Nat) (data lines : List Bytes) : Prop where
  dataShaped : Shaped codec.dataShards width data
  linesShaped : Shaped codec.totalShards width lines
  product : toMatrix codec.totalShards width lines =
    toMatrix codec.totalShards codec.dataShards codec.matrix * toMatrix codec.dataShards width data
  frame : ∃ header padding, header.length = 8 ∧ fromBytes header = payload.length ∧
    data.flatten = header ++ payload ++ padding

section Encoding
variable [Crypto]

def shardOf (objectId : String) (payload : Bytes) (lines : List Bytes) (index : Nat) : ErasureShard :=
  .create objectId (contentDigestOf payload) index codec.totalShards codec.dataShards (lines.getD index [])

theorem encode_eq {objectId : String} (named : objectId ≠ "") {payload : Bytes} (short : payload.length < 2 ^ 64) :
    ∃ width data lines, codec.Coded payload width data lines ∧
      codec.encode objectId payload = .ok ((List.range codec.totalShards).map (codec.shardOf objectId payload lines)) := by
  obtain ⟨header, packed, headerLength, number⟩ := toBytes8_eq short
  have k := codec.dataPositive
  let framed := header ++ payload
  let width := (framed.length + codec.dataShards - 1) / codec.dataShards
  let padded := framed.rightpad (width * codec.dataShards) 0
  have framedLength : framed.length = 8 + payload.length := by rw [List.length_append, headerLength]
  have fits : framed.length ≤ width * codec.dataShards := by
    have rest : codec.dataShards * width + (framed.length + codec.dataShards - 1) % codec.dataShards =
        framed.length + codec.dataShards - 1 := Nat.div_add_mod _ _
    have small := Nat.mod_lt (framed.length + codec.dataShards - 1) k
    rw [Nat.mul_comm]
    omega
  have positive : 0 < width := Nat.div_pos (by omega) k
  have whole : padded.length = codec.dataShards * width := by
    rw [List.length_rightpad, Nat.max_eq_left fits, Nat.mul_comm]
  obtain ⟨shaped, flat⟩ := slices_eq positive whole
  obtain ⟨lines, run, shapedLines, product⟩ := matrixVector_eq codec.matrix_shaped shaped
    (Nat.lt_of_lt_of_le k (Nat.le_add_right _ _)) k
  refine ⟨width, slices width padded, lines, ⟨shaped, shapedLines, product, header, _, headerLength, number, flat⟩, ?_⟩
  have encoded : codec.encode objectId payload = .ok (lines.mapIdx fun index item =>
      ErasureShard.create objectId (contentDigestOf payload) index codec.totalShards codec.dataShards item) := by
    simp only [encode, if_neg named, packed]
    change (matrixVector codec.matrix (slices width padded) >>= _) = _
    rw [run]
    rfl
  refine encoded.trans (congrArg Except.ok ?_)
  refine List.ext_getElem (by simp [shapedLines.rows]) fun i inside inside' => ?_
  have bound : i < lines.length := by simpa using inside
  simp only [List.getElem_mapIdx, List.getElem_map, List.getElem_range, shardOf, List.getD_eq_getElem _ _ bound]

theorem encode_long {objectId : String} {payload : Bytes} (long : ¬ payload.length < 2 ^ 64) (shards : List ErasureShard) :
    codec.encode objectId payload ≠ .ok shards := by
  intro returned
  by_cases empty : objectId = ""
  · rw [encode, if_pos empty] at returned
    cases returned
  · rw [encode, if_neg empty, toBytes8_none long] at returned
    cases returned

end Encoding

section Decoding
variable [Crypto] {codec : ErasureCodec} {objectId : String} {payload : Bytes} {width : Nat} {data lines : List Bytes}
  {positions : List Nat}

theorem shardMap_entries (distinct : positions.Nodup) :
    (shardMap (positions.map (codec.shardOf objectId payload lines))).entries =
      positions.map fun i : Nat => ((i : Int), codec.shardOf objectId payload lines i) := by
  rw [shardMap, List.map_map]
  refine Dict.entries_ofList ?_
  rw [List.map_map]
  exact distinct.map Int.ofNat_injective

theorem shardMap_keys (distinct : positions.Nodup) :
    (shardMap (positions.map (codec.shardOf objectId payload lines))).keys = positions.map fun i : Nat => (i : Int) := by
  rw [Dict.keys, shardMap_entries distinct, List.map_map]
  rfl

theorem shardMap_get? (distinct : positions.Nodup) {i : Nat} (member : i ∈ positions) :
    (shardMap (positions.map (codec.shardOf objectId payload lines))).get? i =
      some (codec.shardOf objectId payload lines i) := by
  rw [Dict.get?_eq_some_iff, shardMap_entries distinct]
  exact List.mem_map_of_mem member

theorem selection_eq (distinct : positions.Nodup) :
    codec.selection (positions.map (codec.shardOf objectId payload lines)) =
      (codec.lowest positions).map (codec.shardOf objectId payload lines) := by
  have order : (positions.map fun i : Nat => (i : Int)).insertionSort (· ≤ ·) =
      (positions.insertionSort (· ≤ ·)).map fun i : Nat => (i : Int) :=
    (List.map_insertionSort _ _ _ _ fun a _ b _ => (Int.ofNat_le (m := a) (n := b)).symm).symm
  rw [selection, shardMap_keys distinct, order, ← List.map_take, List.filterMap_map]
  have found : ∀ i ∈ codec.lowest positions,
      ((shardMap (positions.map (codec.shardOf objectId payload lines))).get? ∘ fun i : Nat => (i : Int)) i =
        (some ∘ codec.shardOf objectId payload lines) i :=
    fun i member => shardMap_get? distinct (mem_of_lowest codec member)
  exact (List.filterMap_congr found).trans (congrFun List.filterMap_eq_map _)

theorem verify_shardOf (named : objectId ≠ "") (hashed : contentDigestOf payload ≠ "") {i : Nat}
    (inside : i < codec.totalShards) : (codec.shardOf objectId payload lines i).verify = true := by
  have k := codec.dataPositive
  have most : codec.dataShards ≤ codec.totalShards := Nat.le_add_right _ _
  refine decide_eq_true ⟨⟨named, hashed⟩, ⟨?_, ?_⟩, ⟨?_, ?_⟩, rfl⟩
  · exact Int.natCast_nonneg i
  · exact Int.ofNat_lt.mpr inside
  · exact Int.natCast_pos.mpr k
  · exact Int.ofNat_le.mpr most

/-- Past its checks, `recover` inverts and multiplies. -/
theorem recover_eq (named : objectId ≠ "") (hashed : contentDigestOf payload ≠ "") (distinct : positions.Nodup)
    (inside : ∀ i ∈ positions, i < codec.totalShards) (enough : codec.dataShards ≤ positions.length) :
    codec.recover (positions.map (codec.shardOf objectId payload lines)) = (do
      let dataMatrix ← matrixInverse (codec.submatrix positions)
      let dataPayloads ← matrixVector dataMatrix (pick lines (codec.lowest positions))
      let framed := dataPayloads.flatten
      let payload' := (framed.drop 8).take (fromBytes (framed.take 8))
      if contentDigestOf payload' ≠ contentDigestOf payload then
        .error (.availabilityError "recovered payload digest mismatch")
      else return payload') := by
  have within (i : Nat) (member : i ∈ codec.lowest positions) : i < codec.totalShards :=
    inside i (mem_of_lowest codec member)
  have count : ¬ (shardMap (positions.map (codec.shardOf objectId payload lines))).keys.length < codec.dataShards := by
    rw [shardMap_keys distinct, List.length_map]
    omega
  have valid : ¬ (((codec.lowest positions).map (codec.shardOf objectId payload lines)).any
      fun item => !item.verify) = true := by
    simp only [List.any_map, List.any_eq_true, not_exists, not_and, Function.comp_apply]
    intro i member
    simp [verify_shardOf named hashed (within i member)]
  obtain ⟨first, others, cut⟩ := List.exists_cons_of_length_pos
    ((codec.length_lowest enough).symm ▸ codec.dataPositive : 0 < (codec.lowest positions).length)
  have compatible : ¬ (((codec.lowest positions).map (codec.shardOf objectId payload lines)).any fun item =>
      item.objectId ≠ (codec.shardOf objectId payload lines first).objectId ∨
        item.contentDigest ≠ (codec.shardOf objectId payload lines first).contentDigest ∨
        item.totalShards ≠ codec.totalShards ∨ item.dataShards ≠ codec.dataShards) = true := by
    simp [List.any_map, shardOf, ErasureShard.create]
  have rows : ((codec.lowest positions).map (codec.shardOf objectId payload lines)).map
      (fun item => codec.matrix.getD item.shardIndex.toNat []) = codec.submatrix positions := by
    rw [List.map_map]
    rfl
  have payloads : ((codec.lowest positions).map (codec.shardOf objectId payload lines)).map (·.payload) =
      pick lines (codec.lowest positions) := by
    rw [List.map_map]
    rfl
  have head : (codec.lowest positions).map (codec.shardOf objectId payload lines) =
      codec.shardOf objectId payload lines first :: others.map (codec.shardOf objectId payload lines) := by
    rw [cut, List.map_cons]
  rw [recover, if_neg count]
  simp only [selection_eq distinct]
  rw [if_neg valid]
  split
  · rename_i none
    rw [head] at none
    cases none
  · rename_i first' others' cut'
    obtain rfl : codec.shardOf objectId payload lines first = first' := (List.cons.inj (head.symm.trans cut')).1
    rw [if_neg compatible, rows, payloads]
    rfl

/-- With independent rows the payload is found again. -/
theorem recover_of_det_ne_zero (coded : codec.Coded payload width data lines) (named : objectId ≠ "")
    (hashed : contentDigestOf payload ≠ "") (distinct : positions.Nodup)
    (inside : ∀ i ∈ positions, i < codec.totalShards) (enough : codec.dataShards ≤ positions.length)
    (regular : (toMatrix codec.dataShards codec.dataShards (codec.submatrix positions)).det ≠ 0) :
    codec.recover (positions.map (codec.shardOf objectId payload lines)) = .ok payload := by
  have k := codec.dataPositive
  have within : ∀ i ∈ codec.lowest positions, i < codec.totalShards :=
    fun i member => inside i (mem_of_lowest codec member)
  have count := codec.length_lowest enough
  have shapedRows := codec.matrix_shaped.pick within
  have shapedLines := coded.linesShaped.pick within
  have product := pick_product within coded.product
  rw [count] at shapedRows shapedLines product
  obtain ⟨inverse, inverted, shapedInverse, left⟩ :=
    (matrixInverse_cases shapedRows k).resolve_right fun singular => regular singular.2
  obtain ⟨dataPayloads, multiplied, shapedPayloads, value⟩ := matrixVector_eq shapedInverse shapedLines k k
  have same : dataPayloads = data := by
    refine eq_of_toMatrix shapedPayloads coded.dataShaped ?_
    rw [value, product, ← Matrix.mul_assoc, left, Matrix.one_mul]
  obtain ⟨header, padding, headerLength, number, flat⟩ := coded.frame
  have front : dataPayloads.flatten.take 8 = header := by
    rw [same, flat, List.append_assoc, List.take_left' headerLength]
  have body : (dataPayloads.flatten.drop 8).take payload.length = payload := by
    rw [same, flat, List.append_assoc, List.drop_left' headerLength, List.take_left' rfl]
  rw [recover_eq named hashed distinct inside enough, submatrix, inverted]
  change (matrixVector inverse (pick lines (codec.lowest positions)) >>= _) = _
  rw [multiplied]
  change (if contentDigestOf ((dataPayloads.flatten.drop 8).take (fromBytes (dataPayloads.flatten.take 8))) ≠ _ then _
    else _) = _
  rw [front, number, body, if_neg (not_not.mpr rfl)]
  rfl

/-- With dependent rows `recover` raises. -/
theorem recover_of_det_eq_zero (named : objectId ≠ "") (hashed : contentDigestOf payload ≠ "")
    (distinct : positions.Nodup) (inside : ∀ i ∈ positions, i < codec.totalShards)
    (enough : codec.dataShards ≤ positions.length)
    (singular : (toMatrix codec.dataShards codec.dataShards (codec.submatrix positions)).det = 0) :
    codec.recover (positions.map (codec.shardOf objectId payload lines)) =
      .error (.availabilityError "erasure matrix is singular") := by
  have within : ∀ i ∈ codec.lowest positions, i < codec.totalShards :=
    fun i member => inside i (mem_of_lowest codec member)
  have shapedRows := codec.matrix_shaped.pick within
  rw [codec.length_lowest enough] at shapedRows
  rcases matrixInverse_cases shapedRows codec.dataPositive with ⟨inverse, -, -, left⟩ | ⟨raised, -⟩
  · have determinant := congrArg Matrix.det left
    rw [Matrix.det_mul, Matrix.det_one] at determinant
    rw [submatrix] at singular
    rw [singular, mul_zero] at determinant
    exact absurd determinant.symm one_ne_zero
  · rw [recover_eq named hashed distinct inside enough, submatrix, raised]
    rfl

/-- What was recovered is encoded under the name of the first shard. -/
theorem repair_cons_eq {first : ErasureShard} {others : List ErasureShard}
    (recovered : codec.recover (first :: others) = .ok payload)
    (encoded : codec.encode first.objectId payload =
      .ok ((List.range codec.totalShards).map (codec.shardOf first.objectId payload lines)))
    {indices : List Int} (inside : ∀ i ∈ indices, 0 ≤ i ∧ i < codec.totalShards) :
    codec.repair (first :: others) indices = .ok ((indices.dedup.insertionSort (· ≤ ·)).map
      fun i => codec.shardOf first.objectId payload lines i.toNat) := by
  have sortedInside (i : Int) (member : i ∈ indices.dedup.insertionSort (· ≤ ·)) : 0 ≤ i ∧ i < codec.totalShards :=
    inside i (List.mem_dedup.mp ((List.perm_insertionSort _ _).mem_iff.mp member))
  have passed : ¬ ((indices.dedup.insertionSort (· ≤ ·)).any fun i => i < 0 ∨ i ≥ codec.totalShards) = true := by
    simp only [List.any_eq_true, decide_eq_true_eq, not_exists, not_and, not_or, not_lt, not_le, ge_iff_le]
    exact sortedInside
  have found : ∀ i ∈ indices.dedup.insertionSort (· ≤ ·),
      (shardMap ((List.range codec.totalShards).map (codec.shardOf first.objectId payload lines))).get? i =
        (some ∘ fun i : Int => codec.shardOf first.objectId payload lines i.toNat) i := by
    intro i member
    obtain ⟨lower, upper⟩ := sortedInside i member
    have known : (shardMap ((List.range codec.totalShards).map (codec.shardOf first.objectId payload lines))).get?
        i.toNat = some (codec.shardOf first.objectId payload lines i.toNat) :=
      shardMap_get? List.nodup_range (List.mem_range.mpr (show i.toNat < codec.totalShards by omega))
    rwa [Int.toNat_of_nonneg lower] at known
  rw [repair, recovered]
  change (codec.encode first.objectId payload >>= _) = _
  rw [encoded]
  change (if _ then _ else _) = _
  rw [if_neg passed, List.filterMap_congr found, List.filterMap_eq_map]
  rfl

theorem repair_eq (nonempty : positions ≠ [])
    (recovered : codec.recover (positions.map (codec.shardOf objectId payload lines)) = .ok payload)
    (encoded : codec.encode objectId payload =
      .ok ((List.range codec.totalShards).map (codec.shardOf objectId payload lines)))
    {indices : List Int} (inside : ∀ i ∈ indices, 0 ≤ i ∧ i < codec.totalShards) :
    codec.repair (positions.map (codec.shardOf objectId payload lines)) indices =
      .ok ((indices.dedup.insertionSort (· ≤ ·)).map fun i => codec.shardOf objectId payload lines i.toNat) := by
  cases positions with
  | nil => exact absurd rfl nonempty
  | cons first others => exact repair_cons_eq recovered encoded inside

end Decoding

section Restoring
variable [Crypto]

/-- From the shards at the positions come back the payload and the shards at any
indices. -/
def Restores (codec : ErasureCodec) (objectId : String) (payload : Bytes) (positions : List Nat) : Prop :=
  ∃ shards, codec.encode objectId payload = .ok shards ∧
    codec.recover (positions.filterMap (shards[·]?)) = .ok payload ∧
    ∀ indices : List Int, (∀ i ∈ indices, 0 ≤ i ∧ i < codec.totalShards) →
      codec.repair (positions.filterMap (shards[·]?)) indices =
        .ok ((indices.dedup.insertionSort (· ≤ ·)).filterMap fun i => shards[i.toNat]?)

variable {codec : ErasureCodec} {objectId : String} {payload : Bytes} {lines : List Bytes}

theorem filterMap_shards {κ : Type} {position : κ → Nat} {keys : List κ}
    (inside : ∀ key ∈ keys, position key < codec.totalShards) :
    (keys.filterMap fun key => ((List.range codec.totalShards).map (codec.shardOf objectId payload lines))[position key]?) =
      keys.map fun key => codec.shardOf objectId payload lines (position key) := by
  have found : ∀ key ∈ keys,
      ((List.range codec.totalShards).map (codec.shardOf objectId payload lines))[position key]? =
        (some ∘ fun key => codec.shardOf objectId payload lines (position key)) key := by
    intro key member
    rw [List.getElem?_map, List.getElem?_range (inside key member)]
    rfl
  rw [List.filterMap_congr found, List.filterMap_eq_map]

variable {positions : List Nat}

/-- What restores has been encoded, and from independent rows. -/
theorem Restores.regular (restored : codec.Restores objectId payload positions) (named : objectId ≠ "")
    (hashed : contentDigestOf payload ≠ "") (distinct : positions.Nodup)
    (inside : ∀ i ∈ positions, i < codec.totalShards) (enough : codec.dataShards ≤ positions.length) :
    payload.length < 2 ^ 64 ∧ (toMatrix codec.dataShards codec.dataShards (codec.submatrix positions)).det ≠ 0 := by
  obtain ⟨shards, encoded, recovered, -⟩ := restored
  have short : payload.length < 2 ^ 64 := by
    by_contra long
    exact codec.encode_long long shards encoded
  obtain ⟨width, data, lines, coded, encoded'⟩ := codec.encode_eq named short
  obtain rfl := Except.ok.inj (encoded'.symm.trans encoded)
  refine ⟨short, fun singular => ?_⟩
  rw [filterMap_shards inside, recover_of_det_eq_zero named hashed distinct inside enough singular] at recovered
  cases recovered

/-- Any `k` or more shards restore the object exactly when its length fits in the
header and the rows of the `k` lowest of them are independent. -/
theorem restores_iff (codec : ErasureCodec) {objectId : String} (named : objectId ≠ "") (payload : Bytes)
    (hashed : contentDigestOf payload ≠ "") {positions : List Nat} (distinct : positions.Nodup)
    (inside : ∀ i ∈ positions, i < codec.totalShards) (enough : codec.dataShards ≤ positions.length) :
    codec.Restores objectId payload positions ↔ payload.length < 2 ^ 64 ∧
      (toMatrix codec.dataShards codec.dataShards (codec.submatrix positions)).det ≠ 0 := by
  constructor
  · intro restored
    exact restored.regular named hashed distinct inside enough
  · rintro ⟨short, regular⟩
    obtain ⟨width, data, lines, coded, encoded⟩ := codec.encode_eq named short
    have chosen : (positions.filterMap fun i =>
        ((List.range codec.totalShards).map (codec.shardOf objectId payload lines))[i]?) =
          positions.map fun i => codec.shardOf objectId payload lines i := filterMap_shards inside
    have recovered := recover_of_det_ne_zero coded named hashed distinct inside enough regular
    have nonempty : positions ≠ [] := by
      rintro rfl
      exact absurd codec.dataPositive (Nat.not_lt.mpr enough)
    refine ⟨_, encoded, by rw [chosen]; exact recovered, fun indices inRange => ?_⟩
    have restored := repair_eq nonempty recovered encoded inRange
    have wanted : ∀ i ∈ indices.dedup.insertionSort (· ≤ ·), i.toNat < codec.totalShards := by
      intro i member
      have bounds := inRange i (List.mem_dedup.mp ((List.perm_insertionSort _ _).mem_iff.mp member))
      omega
    rw [chosen, filterMap_shards wanted]
    exact restored

end Restoring

theorem restores_iff_small :
    let _ := Crypto.ideal
    Restores ⟨3, 2, by decide, by decide, by decide⟩ "object" [7, 8] [4, 0, 2] ↔ [7, 8].length < 2 ^ 64 ∧
      (toMatrix 3 3 (submatrix ⟨3, 2, by decide, by decide, by decide⟩ [4, 0, 2])).det ≠ 0 :=
  @restores_iff Crypto.ideal ⟨3, 2, by decide, by decide, by decide⟩ "object" (by decide) [7, 8]
    (ideal_digest_named _) [4, 0, 2] (by decide) (by decide) (by decide)

/-- Four data shards and six more. The rows of the shards 1, 4, 5 and 9 are dependent. -/
def fourOfTen : ErasureCodec := ⟨4, 6, by decide, by decide, by decide⟩

theorem fourOfTen_singular : (toMatrix 4 4 (fourOfTen.submatrix [1, 4, 5, 9])).det = 0 := by
  refine Matrix.exists_mulVec_eq_zero_iff.mp ⟨fun j => GF256.mk ([1, 0, 217, 133].getD j 0), ?_, ?_⟩
  · intro zero
    exact absurd (congrFun zero 0) (by decide)
  · funext i
    revert i
    decide +kernel

theorem any_four_of_ten_fails :
    let _ := Crypto.ideal
    ¬ ∀ (codec : ErasureCodec) (objectId : String), objectId ≠ "" → ∀ (payload : Bytes) (positions : List Nat),
      positions.Nodup → (∀ i ∈ positions, i < codec.totalShards) → codec.dataShards ≤ positions.length →
      codec.Restores objectId payload positions := by
  intro _ all
  have distinct : [1, 4, 5, 9].Nodup := by decide
  have inside : ∀ i ∈ [1, 4, 5, 9], i < fourOfTen.totalShards := by decide
  have enough : fourOfTen.dataShards ≤ [1, 4, 5, 9].length := by decide
  have restored := all fourOfTen "object" (by decide) [] [1, 4, 5, 9] distinct inside enough
  exact (restored.regular (by decide) (ideal_digest_named _) distinct inside enough).2 fourOfTen_singular

end ErasureCodec

end Mosaic
