import Mosaic.Certificates
import Mosaic.Lib.Dict
import Mathlib.Data.List.Dedup
import Mathlib.Data.List.Lex
import Mathlib.Data.Prod.Lex

namespace Mosaic.Nexus
open CanonicalJson

structure ObjectState where
  objectId : String
  version : Int
  owner : String
  payload : String
  domainId : String
  deriving DecidableEq

structure InputRef where
  domainId : String
  objectId : String
  expectedVersion : Int
  deriving DecidableEq

structure WriteIntent where
  domainId : String
  objectId : String
  expectedVersion : Int
  newOwner : String
  newPayload : String
  deriving DecidableEq

structure Operation where
  opId : String
  epoch : Int
  signer : String
  signerPublicKey : Bytes
  domainIds : List String
  inputs : List InputRef
  writes : List WriteIntent
  parentCertificates : List String
  nonce : Int
  signature : Bytes
  deriving DecidableEq

structure Vote where
  validatorId : String
  epoch : Int
  domainId : String
  objectVersions : List (String × Int)
  opId : String
  dependencyDigest : String
  phase : String
  signature : Bytes
  deriving DecidableEq

structure Certificate where
  certificateId : String
  epoch : Int
  domainIds : List String
  opId : String
  phase : String
  signers : List String
  signatures : List (String × Bytes)
  statementDigest : String
  deriving DecidableEq

structure JoinCertificate where
  certificateId : String
  epoch : Int
  opId : String
  domainCertificates : List Certificate
  signers : List String
  signatures : List (String × Bytes)
  statementDigest : String
  deriving DecidableEq

structure EpochTransitionCertificate where
  certificateId : String
  fromEpoch : Int
  toEpoch : Int
  validatorIds : List String
  signers : List String
  signatures : List (String × Bytes)
  statementDigest : String
  deriving DecidableEq

structure DataAvailabilityCertificate where
  certificateId : String
  epoch : Int
  opId : String
  payloadDigest : String
  signers : List String
  signatures : List (String × Bytes)
  statementDigest : String
  deriving DecidableEq

structure AbortCertificate where
  certificateId : String
  epoch : Int
  opId : String
  domainIds : List String
  reasonDigest : String
  signers : List String
  signatures : List (String × Bytes)
  statementDigest : String
  deriving DecidableEq

/-- What the modelled code raises: its own exceptions and three built-in ones. -/
inductive NexusError
  | quorumError (message : String)
  | domainExecutionError (message : String)
  | joinError (message : String)
  | reconfigurationError (message : String)
  | keyError (key : String)
  | indexError
  | unicodeEncodeError
  deriving DecidableEq

/-- `sorted(items)` for pairs: by the first component, then by the second, which
`rank` compares. -/
def sortedPairs {α β : Type} [LinearOrder β] (rank : α → β) (items : List (String × α)) : List (String × α) :=
  items.insertionSort fun a b => toLex (a.1, rank a.2) ≤ toLex (b.1, rank b.2)

/-- Python compares byte strings lexicographically. -/
def sortedSignatures (signatures : List (String × Bytes)) : List (String × Bytes) :=
  sortedPairs (fun signature : Bytes => signature.map UInt8.toNat) signatures

/-- `sorted(set(items))`. -/
def sortedSet (items : List String) : List String := sorted items.dedup

theorem sortedPairs_perm {α β : Type} [LinearOrder β] (rank : α → β) (items : List (String × α)) :
    (sortedPairs rank items).Perm items := List.perm_insertionSort _ items

theorem sortedPairs_sortedPairs {α β : Type} [LinearOrder β] (rank : α → β) (items : List (String × α)) :
    sortedPairs rank (sortedPairs rank items) = sortedPairs rank items := by
  have total : Std.Total fun a b : String × α => toLex (a.1, rank a.2) ≤ toLex (b.1, rank b.2) :=
    ⟨fun a b => le_total (toLex (a.1, rank a.2)) (toLex (b.1, rank b.2))⟩
  have trans : IsTrans (String × α) fun a b => toLex (a.1, rank a.2) ≤ toLex (b.1, rank b.2) :=
    ⟨fun _ _ _ => le_trans⟩
  exact (List.pairwise_insertionSort _ items).insertionSort_eq

/-- Sorted pairs have sorted first components. -/
theorem sorted_map_fst {α β : Type} [LinearOrder β] (rank : α → β) (items : List (String × α)) :
    sorted ((sortedPairs rank items).map Prod.fst) = (sortedPairs rank items).map Prod.fst := by
  have total : Std.Total fun a b : String × α => toLex (a.1, rank a.2) ≤ toLex (b.1, rank b.2) :=
    ⟨fun a b => le_total (toLex (a.1, rank a.2)) (toLex (b.1, rank b.2))⟩
  have trans : IsTrans (String × α) fun a b => toLex (a.1, rank a.2) ≤ toLex (b.1, rank b.2) :=
    ⟨fun _ _ _ => le_trans⟩
  have pairs := List.pairwise_insertionSort (fun a b : String × α => toLex (a.1, rank a.2) ≤ toLex (b.1, rank b.2)) items
  have firsts : ((sortedPairs rank items).map Prod.fst).Pairwise fun a b => id a ≤ id b := by
    refine List.pairwise_map.mpr (pairs.imp fun {a b} below => ?_)
    rcases Prod.Lex.toLex_le_toLex.mp below with less | ⟨same, -⟩
    · exact le_of_lt less
    · exact le_of_eq same
  exact firsts.insertionSort_eq

theorem sortedSignatures_perm (signatures : List (String × Bytes)) : (sortedSignatures signatures).Perm signatures :=
  sortedPairs_perm _ signatures

theorem sortedSignatures_sortedSignatures (signatures : List (String × Bytes)) :
    sortedSignatures (sortedSignatures signatures) = sortedSignatures signatures := sortedPairs_sortedPairs _ signatures

theorem mem_sortedSignatures {signatures : List (String × Bytes)} {pair : String × Bytes} :
    pair ∈ sortedSignatures signatures ↔ pair ∈ signatures := (sortedSignatures_perm signatures).mem_iff

@[simp] theorem mem_sorted {items : List String} {item : String} : item ∈ sorted items ↔ item ∈ items :=
  (sortedBy_perm id items).mem_iff

@[simp] theorem mem_sortedSet {items : List String} {item : String} : item ∈ sortedSet items ↔ item ∈ items := by
  simp [sortedSet]

theorem nodup_sortedSet (items : List String) : (sortedSet items).Nodup :=
  (sortedBy_perm id items.dedup).nodup_iff.mpr (List.nodup_dedup items)

theorem sortedSet_sortedSet (items : List String) : sortedSet (sortedSet items) = sortedSet items := by
  rw [sortedSet, (nodup_sortedSet items).dedup]
  exact sortedBy_sortedBy id _

/-- `vars(item)`. -/
def InputRef.vars (item : InputRef) : Json := .obj [
  ("domain_id", .str item.domainId),
  ("object_id", .str item.objectId),
  ("expected_version", .int item.expectedVersion)]

def WriteIntent.vars (item : WriteIntent) : Json := .obj [
  ("domain_id", .str item.domainId),
  ("object_id", .str item.objectId),
  ("expected_version", .int item.expectedVersion),
  ("new_owner", .str item.newOwner),
  ("new_payload", .str item.newPayload)]

def stringsJson (items : List String) : Json := .list (items.map .str)

def versionsJson (objectVersions : List (String × Int)) : Json :=
  .list (objectVersions.map fun item => .list [.str item.1, .int item.2])

def signaturesJson (signatures : List (String × Bytes)) : Json :=
  .list (signatures.map fun item => .list [.str item.1, .str (hex item.2)])

/-- What `create` hashes into the identifier. -/
def Operation.unsignedFields (operation : Operation) : List (String × Json) := [
  ("epoch", .int operation.epoch),
  ("signer", .str operation.signer),
  ("public_key", .str (hex operation.signerPublicKey)),
  ("domain_ids", stringsJson operation.domainIds),
  ("inputs", .list (operation.inputs.map InputRef.vars)),
  ("writes", .list (operation.writes.map WriteIntent.vars)),
  ("parents", stringsJson operation.parentCertificates),
  ("nonce", .int operation.nonce)]

def Operation.signingPayload (operation : Operation) : Bytes :=
  canonicalBytes (.obj (("op_id", .str operation.opId) :: operation.unsignedFields))

/-- The statement that a vote signs. -/
def voteStatement (phase : String) (epoch : Int) (domainId : String) (objectVersions : List (String × Int))
    (opId dependencyDigest : String) : Json := .obj [
  ("protocol", .str "CCD/NEXUS/v1"),
  ("phase", .str phase),
  ("epoch", .int epoch),
  ("domain_id", .str domainId),
  ("object_versions", versionsJson objectVersions),
  ("op_id", .str opId),
  ("dependency_digest", .str dependencyDigest)]

def Vote.statement (vote : Vote) : Json :=
  voteStatement vote.phase vote.epoch vote.domainId vote.objectVersions vote.opId vote.dependencyDigest

section Keys
variable [Crypto]

structure Validator where
  validatorId : String
  keypair : KeyPair
  weight : Int

def Validator.signVote (validator : Validator) (epoch : Int) (domainId : String)
    (objectVersions : List (String × Int)) (opId dependencyDigest phase : String) : Vote where
  validatorId := validator.validatorId
  epoch := epoch
  domainId := domainId
  objectVersions := objectVersions
  opId := opId
  dependencyDigest := dependencyDigest
  phase := phase
  signature := validator.keypair.sign
    (canonicalBytes (voteStatement phase epoch domainId objectVersions opId dependencyDigest))

def Operation.verifySignature (operation : Operation) : Bool :=
  KeyPair.verify operation.signerPublicKey operation.signingPayload operation.signature

def Operation.dependencyDigest (operation : Operation) : String := digest (.obj [
  ("parents", stringsJson operation.parentCertificates),
  ("inputs", .list (operation.inputs.map InputRef.vars))])

def Operation.create (keypair : KeyPair) (epoch : Int) (inputs : List InputRef) (writes : List WriteIntent)
    (domainIds parentCertificates : List String) (nonce : Int) : Operation :=
  let unsigned : Operation := {
    opId := ""
    epoch
    signer := keypair.identity
    signerPublicKey := keypair.publicKey
    domainIds := sortedSet domainIds
    inputs, writes
    parentCertificates := sortedSet parentCertificates
    nonce
    signature := [] }
  let named : Operation := { unsigned with opId := digest (.obj unsigned.unsignedFields) }
  { named with signature := keypair.sign named.signingPayload }

/-- The identifier that every kind of certificate carries. -/
def certificateId (statementDigest : String) (signers : List String) (signatures : List (String × Bytes)) : String :=
  digest (.obj [
    ("statement", .str statementDigest),
    ("signers", stringsJson signers),
    ("signatures", signaturesJson signatures)])

end Keys

theorem versionsJson_inj {versions versions' : List (String × Int)}
    (same : (versionsJson versions).sortKeys = (versionsJson versions').sortKeys) : versions = versions' := by
  refine items_eq_of_sortKeys (fun item item' same => ?_) same
  simp [Json.sortKeys, sortItems_eq_map] at same
  exact Prod.ext same.1 same.2

theorem InputRef.vars_inj {items items' : List InputRef}
    (same : (Json.list (items.map InputRef.vars)).sortKeys = (Json.list (items'.map InputRef.vars)).sortKeys) :
    items = items' := by
  refine items_eq_of_sortKeys (fun item item' same => ?_) same
  have member := lookup_eq_of_sortKeys same
  have domain := member "domain_id"
  have object := member "object_id"
  have version := member "expected_version"
  simp [List.lookup_cons, Json.sortKeys] at domain object version
  cases item
  cases item'
  simp_all

theorem WriteIntent.vars_inj {items items' : List WriteIntent}
    (same : (Json.list (items.map WriteIntent.vars)).sortKeys = (Json.list (items'.map WriteIntent.vars)).sortKeys) :
    items = items' := by
  refine items_eq_of_sortKeys (fun item item' same => ?_) same
  have member := lookup_eq_of_sortKeys same
  have domain := member "domain_id"
  have object := member "object_id"
  have version := member "expected_version"
  have owner := member "new_owner"
  have payload := member "new_payload"
  simp [List.lookup_cons, Json.sortKeys] at domain object version owner payload
  cases item
  cases item'
  simp_all

/-- A vote signs its phase, epoch, domain, object versions, operation and
dependency digest. -/
theorem Vote.eq_of_statement {vote vote' : Vote}
    (same : canonicalBytes vote.statement = canonicalBytes vote'.statement) :
    { vote with validatorId := vote'.validatorId, signature := vote'.signature } = vote' := by
  have member := lookup_eq_of_canonicalBytes same
  have phase := member "phase"
  have epoch := member "epoch"
  have domain := member "domain_id"
  have versions := member "object_versions"
  have operation := member "op_id"
  have dependency := member "dependency_digest"
  simp [List.lookup_cons, Json.sortKeys] at phase epoch domain versions operation dependency
  have versions := versionsJson_inj versions
  cases vote
  cases vote'
  simp_all

end Mosaic.Nexus
