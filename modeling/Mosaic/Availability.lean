import Mosaic.GaloisField
import Mosaic.Staking

namespace Mosaic
open CanonicalJson

/-- `grid[row][column]`, for indices in range. -/
def entry (grid : List (List UInt8)) (row column : Nat) : UInt8 := (grid.getD row []).getD column 0

def identityRow (size index : Nat) : List UInt8 :=
  (List.range size).map fun column => if column = index then 1 else 0

/-- `grid[a], grid[b] = grid[b], grid[a]`. -/
def exchange (grid : List (List UInt8)) (a b : Nat) : List (List UInt8) :=
  (grid.set a (grid.getD b [])).set b (grid.getD a [])

/-- `[left ^ _gf_mul(factor, right) for left, right in zip(entries, scaled)]`, for
the factor that clears the column. -/
def clearRow (column : Nat) (scaled entries : List UInt8) : List UInt8 :=
  let factor := entries.getD column 0
  if factor = 0 then entries else entries.zipWith (fun left right => left ^^^ gfMul factor right) scaled

/-- The inner loop of `_matrix_inverse`, with the scaled pivot row in its place. No
other row is read while a row is cleared, so they are cleared together. -/
def clearOthers (column : Nat) (scaled : List UInt8) (grid : List (List UInt8)) : List (List UInt8) :=
  (grid.set column scaled).mapIdx fun row entries => if row = column then entries else clearRow column scaled entries

/-- One round of the outer loop. -/
def eliminateColumn (size : Nat) (augmented : List (List UInt8)) (column : Nat) :
    Except AvailabilityFault (List (List UInt8)) :=
  match (List.range' column (size - column)).find? fun row => entry augmented row column ≠ 0 with
  | none => .error (.availabilityError "erasure matrix is singular")
  | some pivot => do
    let swapped := exchange augmented column pivot
    let inverse ← gfInv (entry swapped column column)
    return clearOthers column ((swapped.getD column []).map (gfMul · inverse)) swapped

def matrixInverse (matrix : List (List UInt8)) : Except AvailabilityFault (List (List UInt8)) :=
  let size := matrix.length
  if size = 0 ∨ ∃ row ∈ matrix, row.length ≠ size then .error (.availabilityError "matrix must be square")
  else do
    let augmented := matrix.mapIdx fun index row => row ++ identityRow size index
    let reduced ← (List.range size).foldlM (eliminateColumn size) augmented
    return reduced.map (·.drop size)

/-- One row of `_matrix_vector`: the shards, scaled by the coefficients of the row
and added up. -/
def combine (width : Nat) (row : List UInt8) (vector : List Bytes) : Except AvailabilityFault Bytes :=
  (row.zip vector).foldlM
    (fun result term =>
      if term.2.length ≠ width then .error (.availabilityError "shards have inconsistent sizes")
      else if term.1 = 0 then .ok result
      else .ok (result.zipWith (fun value byte => value ^^^ gfMul term.1 byte) term.2))
    (List.replicate width 0)

def matrixVector (matrix : List (List UInt8)) (vector : List Bytes) : Except AvailabilityFault (List Bytes) :=
  if matrix = [] ∨ (matrix.headD []).length ≠ vector.length then
    .error (.availabilityError "matrix/vector dimensions do not match")
  else
    match vector with
    | [] => .error (.indexError "list index out of range")
    | first :: _ => matrix.mapM fun row => combine first.length row vector

structure ErasureShard where
  objectId : String
  contentDigest : String
  shardIndex : Int
  totalShards : Int
  dataShards : Int
  payload : Bytes
  shardDigest : String
  deriving DecidableEq

section Codec
variable [Crypto]

def ErasureShard.digestOf (payload : Bytes) : String :=
  digest (.obj [("protocol", .str "MOSAIC/ERASURE-SHARD/v1"), ("payload", .str (hex payload))])

def ErasureShard.create (objectId contentDigest : String) (shardIndex totalShards dataShards : Int)
    (payload : Bytes) : ErasureShard :=
  ⟨objectId, contentDigest, shardIndex, totalShards, dataShards, payload, digestOf payload⟩

def ErasureShard.verify (shard : ErasureShard) : Bool :=
  (shard.objectId ≠ "" ∧ shard.contentDigest ≠ "") ∧
    (0 ≤ shard.shardIndex ∧ shard.shardIndex < shard.totalShards) ∧
    (0 < shard.dataShards ∧ shard.dataShards ≤ shard.totalShards) ∧
    shard.shardDigest = ErasureShard.digestOf shard.payload

/-- The digest of a whole object. -/
def contentDigestOf (payload : Bytes) : String :=
  digest (.obj [("protocol", .str "MOSAIC/OBJECT-DATA/v1"), ("payload", .str (hex payload))])

structure ErasureCodec where
  dataShards : Nat
  parityShards : Nat
  dataPositive : 0 < dataShards
  parityPositive : 0 < parityShards
  supported : dataShards + parityShards ≤ 255

namespace ErasureCodec

def init (dataShards parityShards : Int) : Except AvailabilityFault ErasureCodec :=
  if empty : dataShards ≤ 0 ∨ parityShards ≤ 0 then
    .error (.availabilityError "data and parity shard counts must be positive")
  else if large : dataShards + parityShards > 255 then
    .error (.availabilityError "GF(256) supports at most 255 shards")
  else .ok ⟨dataShards.toNat, parityShards.toNat, by omega, by omega, by omega⟩

omit [Crypto] in
/-- The constructor accepts exactly the parameters that a codec may have. -/
theorem init_ok_iff {dataShards parityShards : Int} :
    (∃ codec, init dataShards parityShards = .ok codec) ↔
      0 < dataShards ∧ 0 < parityShards ∧ dataShards + parityShards ≤ 255 := by
  unfold init
  constructor
  · rintro ⟨codec, returned⟩
    split at returned
    · cases returned
    · split at returned
      · cases returned
      · omega
  · rintro ⟨someData, someParity, few⟩
    rw [dif_neg (by omega), dif_neg (by omega)]
    exact ⟨_, rfl⟩

variable (codec : ErasureCodec)

def totalShards : Nat := codec.dataShards + codec.parityShards

def matrix : List (List UInt8) :=
  (List.range codec.totalShards).map fun row =>
    if row < codec.dataShards then identityRow codec.dataShards row
    else (List.range codec.dataShards).map fun column => gfPow (UInt8.ofNat (row + 1)) column

/-- `[padded[offset : offset + size] for offset in range(0, len(padded), size)]`. -/
def slices (size : Nat) (padded : Bytes) : List Bytes :=
  (List.range ((padded.length + size - 1) / size)).map fun index => (padded.drop (index * size)).take size

def encode (objectId : String) (payload : Bytes) : Except AvailabilityFault (List ErasureShard) :=
  if objectId = "" then .error (.availabilityError "object id cannot be empty")
  else
    let contentDigest := contentDigestOf payload
    match toBytes8 payload.length with
    | none => .error (.overflowError "int too big to convert")
    | some length => do
      let framed := length ++ payload
      let shardSize := (framed.length + codec.dataShards - 1) / codec.dataShards
      let padded := framed.rightpad (shardSize * codec.dataShards) 0
      let allPayloads ← matrixVector codec.matrix (slices shardSize padded)
      return allPayloads.mapIdx fun index item =>
        ErasureShard.create objectId contentDigest index codec.totalShards codec.dataShards item

/-- `{item.shard_index: item for item in shards}`. -/
def shardMap (shards : List ErasureShard) : Dict Int ErasureShard :=
  Dict.ofList (shards.map fun item => (item.shardIndex, item))

/-- The shards that are used: those with the lowest indices. -/
def selection (shards : List ErasureShard) : List ErasureShard :=
  (((shardMap shards).keys.insertionSort (· ≤ ·)).take codec.dataShards).filterMap (shardMap shards).get?

def recover (shards : List ErasureShard) : Except AvailabilityFault Bytes :=
  if (shardMap shards).keys.length < codec.dataShards then
    .error (.availabilityError "not enough shards for recovery")
  else
    let selected := codec.selection shards
    if selected.any fun item => !item.verify then .error (.availabilityError "invalid shard in recovery set")
    else
      match selected with
      | [] => .error (.indexError "tuple index out of range")
      | first :: _ =>
        if selected.any fun item =>
            item.objectId ≠ first.objectId ∨ item.contentDigest ≠ first.contentDigest ∨
              item.totalShards ≠ codec.totalShards ∨ item.dataShards ≠ codec.dataShards then
          .error (.availabilityError "incompatible shards")
        else do
          let submatrix := selected.map fun item => codec.matrix.getD item.shardIndex.toNat []
          let dataMatrix ← matrixInverse submatrix
          let dataPayloads ← matrixVector dataMatrix (selected.map (·.payload))
          let framed := dataPayloads.flatten
          let payload := (framed.drop 8).take (fromBytes (framed.take 8))
          if contentDigestOf payload ≠ first.contentDigest then
            .error (.availabilityError "recovered payload digest mismatch")
          else return payload

def repair (shards : List ErasureShard) (missingIndices : List Int) :
    Except AvailabilityFault (List ErasureShard) := do
  let payload ← codec.recover shards
  match shards with
  | [] => .error (.indexError "tuple index out of range")
  | first :: _ =>
    let encoded ← codec.encode first.objectId payload
    let missing := missingIndices.dedup.insertionSort (· ≤ ·)
    if missing.any fun index => index < 0 ∨ index ≥ codec.totalShards then
      .error (.availabilityError "repair index is outside shard set")
    else return missing.filterMap (shardMap encoded).get?

end ErasureCodec

end Codec

end Mosaic
