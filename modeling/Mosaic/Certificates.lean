import Mosaic.Crypto

namespace Mosaic
open CanonicalJson

/-- `sorted(items, key=key)`; Python compares strings by code points and keeps
the order of items with equal keys, as insertion does. -/
def sortedBy {α : Type} (key : α → String) (items : List α) : List α :=
  items.insertionSort (fun a b => key a ≤ key b)

def sorted (items : List String) : List String := sortedBy id items

theorem sortedBy_perm {α : Type} (key : α → String) (items : List α) : (sortedBy key items).Perm items :=
  List.perm_insertionSort _ items

theorem sortedBy_of_pairwise {α : Type} {key : α → String} {items : List α}
    (ordered : items.Pairwise fun a b => key a ≤ key b) : sortedBy key items = items := by
  have total : Std.Total fun a b : α => key a ≤ key b := ⟨fun a b => le_total (key a) (key b)⟩
  have trans : IsTrans α fun a b : α => key a ≤ key b := ⟨fun _ _ _ => le_trans⟩
  exact ordered.insertionSort_eq

theorem sortedBy_pairwise {α : Type} (key : α → String) (items : List α) :
    (sortedBy key items).Pairwise fun a b => key a ≤ key b := by
  have total : Std.Total fun a b : α => key a ≤ key b := ⟨fun a b => le_total (key a) (key b)⟩
  have trans : IsTrans α fun a b : α => key a ≤ key b := ⟨fun _ _ _ => le_trans⟩
  exact List.pairwise_insertionSort _ items

theorem sortedBy_sortedBy {α : Type} (key : α → String) (items : List α) :
    sortedBy key (sortedBy key items) = sortedBy key items := sortedBy_of_pairwise (sortedBy_pairwise key items)

/-- Items with different keys are sorted to one list, however they come. -/
theorem sortedBy_eq_of_perm {α : Type} {key : α → String} {items items' : List α} (perm : items.Perm items')
    (distinct : ∀ a ∈ items, ∀ b ∈ items, key a = key b → a = b) : sortedBy key items = sortedBy key items' := by
  have same : (sortedBy key items).Perm (sortedBy key items') :=
    (sortedBy_perm key items).trans (perm.trans (sortedBy_perm key items').symm)
  refine List.Perm.eq_of_pairwise ?_ (sortedBy_pairwise key items) (sortedBy_pairwise key items') same
  intro a b inItems inItems' below above
  exact distinct a ((sortedBy_perm key items).mem_iff.mp inItems) b
    (perm.mem_iff.mpr ((sortedBy_perm key items').mem_iff.mp inItems')) (le_antisymm below above)

theorem sorted_eq_of_perm {items items' : List String} (perm : items.Perm items') : sorted items = sorted items' :=
  sortedBy_eq_of_perm perm fun _ _ _ _ => id

section Data
variable [Crypto]

/-- One validator with a key. The source also builds members with neither a key pair
nor a public key, which raise where the key is read: see `Strict.publicKey`. Stake
weights are not negative. -/
structure Member where
  memberId : String
  keypair : Option KeyPair
  weight : Nat
  publicKeyOverride : Option Bytes
  hasKey : keypair.isSome ∨ publicKeyOverride.isSome

def Member.publicKey (member : Member) : Bytes :=
  match member.keypair with
  | some pair => pair.publicKey
  | none => member.publicKeyOverride.getD []

end Data

structure StateSeal where
  resourceId : String
  epoch : Int
  version : Int
  stateRoot : String
  capabilityHash : String
  owner : String
  deriving DecidableEq

structure Capsule where
  capsuleId : String
  predecessorId : String
  successorRoot : String
  ruleId : String
  ruleWitness : String
  bundleId : Option String
  attempt : Int
  epoch : Int
  clientId : String
  clientPublicKey : Bytes
  clientSignature : Bytes
  deriving DecidableEq

structure WitnessReceipt where
  capsuleId : String
  predecessorId : String
  witnessId : String
  epoch : Int
  attempt : Int
  status : String
  signature : Bytes
  deriving DecidableEq

structure ClosureProof where
  capsuleId : String
  predecessorId : String
  epoch : Int
  attempt : Int
  signerIds : List String
  receipts : List WitnessReceipt
  proofId : String
  deriving DecidableEq

structure ConflictEvidence where
  predecessorId : String
  capsuleA : String
  capsuleB : String
  signatures : Bytes × Bytes
  evidenceId : String
  deriving DecidableEq

structure AbandonProof where
  predecessorId : String
  capsuleId : String
  epoch : Int
  attempt : Int
  signerIds : List String
  receipts : List WitnessReceipt
  proofId : String
  deriving DecidableEq

structure BundleClosure where
  bundleId : String
  closureIds : List String
  proofId : String
  deriving DecidableEq

/-- What the modelled code raises. The first four are `MosaicError` and its
subclasses. -/
inductive PyError
  | mosaicError (message : String)
  | capsuleInvalid (message : String)
  | closureInvalid (message : String)
  | conflictDetected (evidence : ConflictEvidence)
  | executionError (message : String)
  | keyError (key : String)
  | typeError (message : String)
  | attributeError (message : String)
  | unicodeEncodeError

def PyError.isMosaicError : PyError → Bool
  | .mosaicError _ | .capsuleInvalid _ | .closureInvalid _ | .conflictDetected _ => true
  | .executionError _ | .keyError _ | .typeError _ | .attributeError _ | .unicodeEncodeError => false

def PyError.isConflict : PyError → Bool
  | .conflictDetected _ => true
  | _ => false

def StateSeal.statement (s : StateSeal) : Json := .obj [
  ("resource_id", .str s.resourceId),
  ("epoch", .int s.epoch),
  ("version", .int s.version),
  ("state_root", .str s.stateRoot),
  ("capability_hash", .str s.capabilityHash),
  ("owner", .str s.owner)]

def optionJson : Option String → Json
  | none => .null
  | some s => .str s

def Capsule.unsignedStatement (capsule : Capsule) : Json := .obj [
  ("protocol", .str "MOSAIC/CAPSULE/v0.1"),
  ("predecessor_id", .str capsule.predecessorId),
  ("successor_root", .str capsule.successorRoot),
  ("rule_id", .str capsule.ruleId),
  ("rule_witness", .str capsule.ruleWitness),
  ("bundle_id", optionJson capsule.bundleId),
  ("attempt", .int capsule.attempt),
  ("epoch", .int capsule.epoch),
  ("client_id", .str capsule.clientId),
  ("client_public_key", .str (hex capsule.clientPublicKey))]

def WitnessReceipt.statementFields (receipt : WitnessReceipt) : List (String × Json) := [
  ("protocol", .str "MOSAIC/RECEIPT/v0.1"),
  ("capsule_id", .str receipt.capsuleId),
  ("predecessor_id", .str receipt.predecessorId),
  ("witness_id", .str receipt.witnessId),
  ("epoch", .int receipt.epoch),
  ("attempt", .int receipt.attempt),
  ("status", .str receipt.status)]

def WitnessReceipt.statement (receipt : WitnessReceipt) : Json := .obj receipt.statementFields

/-- What a closure or an abandon proof hashes; only the label differs. -/
def proofStatement (label capsuleId predecessorId : String) (epoch attempt : Int)
    (receiptIds : List String) : Json := .obj [
  ("protocol", .str label),
  ("capsule_id", .str capsuleId),
  ("predecessor_id", .str predecessorId),
  ("epoch", .int epoch),
  ("attempt", .int attempt),
  ("receipts", .list (receiptIds.map .str))]

def closureLabel : String := "MOSAIC/CLOSURE/v0.1"

def abandonLabel : String := "MOSAIC/ABANDON/v0.1"

section Create
variable [Crypto]

def StateSeal.sealId (s : StateSeal) : String := digest s.statement

def Capsule.verifyClientSignature (capsule : Capsule) : Bool :=
  KeyPair.verify capsule.clientPublicKey (canonicalBytes capsule.unsignedStatement) capsule.clientSignature

def Capsule.create (client : KeyPair) (predecessor : StateSeal) (successorRoot ruleId ruleWitness : String)
    (attempt : Int) (bundleId : Option String) : Capsule :=
  let unsigned : Capsule := {
    capsuleId := ""
    predecessorId := predecessor.sealId
    successorRoot, ruleId, ruleWitness, bundleId, attempt
    epoch := predecessor.epoch
    clientId := client.identity
    clientPublicKey := client.publicKey
    clientSignature := [] }
  { unsigned with
    capsuleId := digest unsigned.unsignedStatement
    clientSignature := client.sign (canonicalBytes unsigned.unsignedStatement) }

def WitnessReceipt.receiptId (receipt : WitnessReceipt) : String :=
  digest (.obj (receipt.statementFields ++ [("signature", .str (hex receipt.signature))]))

def ClosureProof.create (receipts : List WitnessReceipt) : Except PyError ClosureProof :=
  let ordered := sortedBy WitnessReceipt.witnessId receipts
  match ordered with
  | [] => .error (.closureInvalid "closure requires receipts")
  | first :: _ =>
    if ordered.any (fun item => item.status ≠ "ACCEPT" ∨ item.capsuleId ≠ first.capsuleId ∨
        item.predecessorId ≠ first.predecessorId ∨ item.epoch ≠ first.epoch ∨ item.attempt ≠ first.attempt) then
      .error (.closureInvalid "receipts do not describe one capsule")
    else
      .ok {
        capsuleId := first.capsuleId
        predecessorId := first.predecessorId
        epoch := first.epoch
        attempt := first.attempt
        signerIds := ordered.map WitnessReceipt.witnessId
        receipts := ordered
        proofId := digest (proofStatement closureLabel first.capsuleId first.predecessorId first.epoch
          first.attempt (ordered.map WitnessReceipt.receiptId)) }

def AbandonProof.create (receipts : List WitnessReceipt) : Except PyError AbandonProof :=
  let ordered := sortedBy WitnessReceipt.witnessId receipts
  match ordered with
  | [] => .error (.closureInvalid "abandon proof requires abandon receipts")
  | first :: _ =>
    if ordered.any (fun item => item.status ≠ "ABANDON") then
      .error (.closureInvalid "abandon proof requires abandon receipts")
    else if ordered.any (fun item => item.capsuleId ≠ first.capsuleId ∨
        item.predecessorId ≠ first.predecessorId ∨ item.epoch ≠ first.epoch ∨ item.attempt ≠ first.attempt) then
      .error (.closureInvalid "abandon receipts do not match")
    else
      .ok {
        predecessorId := first.predecessorId
        capsuleId := first.capsuleId
        epoch := first.epoch
        attempt := first.attempt
        signerIds := ordered.map WitnessReceipt.witnessId
        receipts := ordered
        proofId := digest (proofStatement abandonLabel first.capsuleId first.predecessorId first.epoch
          first.attempt (ordered.map WitnessReceipt.receiptId)) }

def conflictStatement (predecessorId capsuleA capsuleB : String) (signatures : List Bytes) : Json := .obj [
  ("protocol", .str "MOSAIC/CONFLICT/v0.1"),
  ("predecessor_id", .str predecessorId),
  ("capsule_a", .str capsuleA),
  ("capsule_b", .str capsuleB),
  ("signatures", .list (signatures.map fun s => .str (hex s)))]

def ConflictEvidence.create (first second : Capsule) : Except PyError ConflictEvidence :=
  if first.predecessorId ≠ second.predecessorId then
    .error (.mosaicError "conflict requires one predecessor")
  else if first.capsuleId = second.capsuleId then
    .error (.mosaicError "conflict requires distinct capsules")
  else
    let (a, b) := if first.capsuleId ≤ second.capsuleId then (first, second) else (second, first)
    .ok {
      predecessorId := first.predecessorId
      capsuleA := a.capsuleId
      capsuleB := b.capsuleId
      signatures := (a.clientSignature, b.clientSignature)
      evidenceId := digest (conflictStatement first.predecessorId a.capsuleId b.capsuleId
        [a.clientSignature, b.clientSignature]) }

def BundleClosure.create (bundleId : String) (closures : List ClosureProof) : Except PyError BundleClosure :=
  let ordered := sortedBy ClosureProof.predecessorId closures
  match ordered with
  | [] => .error (.closureInvalid "bundle closure requires domain closures")
  | _ :: _ =>
    .ok {
      bundleId
      closureIds := ordered.map ClosureProof.proofId
      proofId := digest (.obj [
        ("protocol", .str "MOSAIC/BUNDLE-CLOSURE/v0.1"),
        ("bundle_id", .str bundleId),
        ("closures", .list (ordered.map fun item => .str item.proofId))]) }

end Create

theorem receipt_eq_of_statement {r r' : WitnessReceipt}
    (same : canonicalBytes r.statement = canonicalBytes r'.statement) :
    r.capsuleId = r'.capsuleId ∧ r.predecessorId = r'.predecessorId ∧ r.witnessId = r'.witnessId ∧
      r.epoch = r'.epoch ∧ r.attempt = r'.attempt ∧ r.status = r'.status := by
  have member := lookup_eq_of_canonicalBytes same
  have capsule := member "capsule_id"
  have predecessor := member "predecessor_id"
  have witness := member "witness_id"
  have epoch := member "epoch"
  have attempt := member "attempt"
  have status := member "status"
  simp [WitnessReceipt.statementFields, List.lookup_cons, Json.sortKeys] at capsule predecessor witness epoch attempt status
  exact ⟨capsule, predecessor, witness, epoch, attempt, status⟩

theorem sortKeys_optionJson_inj {a b : Option String} (same : (optionJson a).sortKeys = (optionJson b).sortKeys) :
    a = b := by
  cases a <;> cases b <;> simp_all [optionJson, Json.sortKeys]

variable [Crypto]

/-- A seal identifier names one seal only. -/
theorem StateSeal.eq_of_sealId (free : CollisionFree) {s t : StateSeal} (same : s.sealId = t.sealId) : s = t := by
  have member := lookup_eq_of_digest free same
  have resource := member "resource_id"
  have epoch := member "epoch"
  have version := member "version"
  have root := member "state_root"
  have capability := member "capability_hash"
  have owner := member "owner"
  simp [List.lookup_cons, Json.sortKeys] at resource epoch version root capability owner
  cases s
  cases t
  simp_all

/-- Two capsules whose unsigned statements have one digest differ at most in
their identifiers and signatures. -/
theorem Capsule.eq_of_statement (free : CollisionFree) {c d : Capsule}
    (same : digest c.unsignedStatement = digest d.unsignedStatement) :
    { c with capsuleId := d.capsuleId, clientSignature := d.clientSignature } = d := by
  have member := lookup_eq_of_digest free same
  have predecessor := member "predecessor_id"
  have root := member "successor_root"
  have rule := member "rule_id"
  have witness := member "rule_witness"
  have bundle := member "bundle_id"
  have attempt := member "attempt"
  have epoch := member "epoch"
  have client := member "client_id"
  have key := member "client_public_key"
  simp [List.lookup_cons, Json.sortKeys] at predecessor root rule witness bundle attempt epoch client key
  have bundle := sortKeys_optionJson_inj bundle
  have key := hex_injective key
  cases c
  cases d
  simp_all

end Mosaic
