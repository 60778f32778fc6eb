import Mathlib.Data.Prod.Lex
import Mosaic.Lib.Ranking
import Mosaic.Membership

namespace Mosaic
open CanonicalJson Effects

/-- `RandomnessBeacon.verify`. -/
def RandomnessBeacon.verify [Crypto] (beacon : RandomnessBeacon) : Bool :=
  if beacon.mode = "reveal" then
    beacon.revealIds ≠ [] && beacon.proofId = digest (beaconStatement "MOSAIC/RANDOMNESS-BEACON/v1" "reveal_ids"
      beacon.epoch beacon.round beacon.revealIds beacon.beaconValue)
  else if beacon.mode = "commitment-fallback" then
    beacon.commitmentIds ≠ [] && beacon.proofId = digest (beaconStatement "MOSAIC/RANDOMNESS-FALLBACK/v1"
      "commitment_ids" beacon.epoch beacon.round beacon.commitmentIds beacon.beaconValue)
  else false

theorem RandomnessBeacon.verify_reveal [Crypto] {beacon : RandomnessBeacon} (mode : beacon.mode = "reveal") :
    beacon.verify = true ↔ beacon.revealIds ≠ [] ∧ beacon.proofId = digest (beaconStatement
      "MOSAIC/RANDOMNESS-BEACON/v1" "reveal_ids" beacon.epoch beacon.round beacon.revealIds beacon.beaconValue) := by
  unfold verify
  rw [if_pos mode, Bool.and_eq_true, decide_eq_true_eq, decide_eq_true_eq]

theorem RandomnessBeacon.verify_fallback [Crypto] {beacon : RandomnessBeacon} (mode : beacon.mode = "commitment-fallback") :
    beacon.verify = true ↔ beacon.commitmentIds ≠ [] ∧ beacon.proofId = digest (beaconStatement
      "MOSAIC/RANDOMNESS-FALLBACK/v1" "commitment_ids" beacon.epoch beacon.round beacon.commitmentIds
      beacon.beaconValue) := by
  have other : beacon.mode ≠ "reveal" := by
    rw [mode]
    decide
  unfold verify
  rw [if_neg other, if_pos mode, Bool.and_eq_true, decide_eq_true_eq, decide_eq_true_eq]

structure CommitteeSelectionProof where
  epoch : Int
  committeeSize : Int
  selectedIds : List String
  selectedTickets : List (String × Int)
  seed : Bytes
  proofId : String
  beaconId : Option String := none
  deriving DecidableEq

/-- The triple `(score, validator_id, slot)`. -/
structure Ticket where
  score : Nat
  validatorId : String
  slot : Nat
  deriving DecidableEq

/-- Tuples are compared from the left. -/
def Ticket.tuple (ticket : Ticket) : Nat ×ₗ String ×ₗ Nat :=
  toLex (ticket.score, toLex (ticket.validatorId, ticket.slot))

theorem Ticket.tuple_injective : Function.Injective Ticket.tuple := by
  intro ticket other same
  obtain ⟨score, rest⟩ := Prod.mk.inj (toLex_inj.mp same)
  obtain ⟨validatorId, slot⟩ := Prod.mk.inj (toLex_inj.mp rest)
  cases ticket
  cases other
  simp_all

instance : LinearOrder Ticket := LinearOrder.lift' Ticket.tuple Ticket.tuple_injective

/-- `(item[1], item[2])`. -/
def Ticket.named (ticket : Ticket) : String × Int := (ticket.validatorId, ticket.slot)

/-- `items[:stop]`; a negative `stop` counts from the end. -/
def sliceTo {α : Type} (items : List α) (stop : Int) : List α :=
  items.take (if stop < 0 then items.length + stop else stop).toNat

/-- `dict.fromkeys(items)`. -/
def fromKeys (items : List String) : List String := (Dict.ofList (items.map fun item => (item, ()))).keys

namespace MembershipManager

variable [Crypto]

/-- The tickets of one validator. -/
def validatorTickets (m : MembershipManager) (selectionSeed : Bytes) (validator : ValidatorRecord) :
    Except EconomyError (List Ticket) :=
  let ticketCount := min validator.stake m.maxTicketsPerValidator
  (List.range ticketCount.toNat).mapM fun (slot : Nat) => do
    let count ← bigEndian8 slot
    let score := fromBytes (sha256Digest
      (literal "MOSAIC/TICKET/v1" ++ selectionSeed ++ literal validator.validatorId ++ count))
    return { score, validatorId := validator.validatorId, slot }

/-- `_tickets`. -/
def tickets (m : MembershipManager) (snapshot : MembershipSnapshot) (seed : Option Bytes) :
    Except EconomyError (List Ticket) := do
  let selectionSeed := seed.getD snapshot.seed
  let tickets ← (snapshot.validators.filter ValidatorRecord.votes).mapM (m.validatorTickets selectionSeed)
  return tickets.flatten

/-- What the identifier of a proof hashes. -/
def committeeStatement (epoch size : Int) (selected : List (String × Int)) (seed : Bytes) (beaconId : Option String) :
    Json := .obj [
  ("protocol", .str "MOSAIC/COMMITTEE/v1"),
  ("epoch", .int epoch),
  ("size", .int size),
  ("selected", .list (selected.map fun item => .list [.str item.1, .int item.2])),
  ("seed", .str (hex seed)),
  ("beacon_id", (beaconId.map Json.str).getD .null)]

def selectCommittee (m : MembershipManager) (committeeSize : Int) (beacon : Option RandomnessBeacon) :
    Except EconomyError CommitteeSelectionProof := do
  refuseIf (committeeSize ≤ 0) (.membership "committee size must be positive")
  refuseIf (beacon.any fun b => !b.verify || b.epoch ≠ m.epoch) (.membership "invalid randomness beacon")
  let selectionSeed := (beacon.map RandomnessBeacon.beaconValue).getD m.seed
  let tickets := (← m.tickets m.snapshot (some selectionSeed)).insertionSort (· ≤ ·)
  let selected := sliceTo tickets (min committeeSize tickets.length)
  let selectedIds := fromKeys (selected.map Ticket.validatorId)
  let selectedTickets := selected.map Ticket.named
  let beaconId := beacon.map RandomnessBeacon.proofId
  return {
    epoch := m.epoch
    committeeSize
    selectedIds
    selectedTickets
    seed := selectionSeed
    proofId := digest (committeeStatement m.epoch committeeSize selectedTickets selectionSeed beaconId)
    beaconId }

/-- The branches of `verify_selection` on the beacon of the proof. -/
def seedBacked (m : MembershipManager) (proof : CommitteeSelectionProof) (beacon : Option RandomnessBeacon) : Bool :=
  match proof.beaconId with
  | none => proof.seed = m.snapshot.seed
  | some beaconId =>
    match beacon with
    | none => false
    | some b => b.verify && b.proofId = beaconId && proof.seed = b.beaconValue && b.epoch = proof.epoch

/-- Unlike `select_committee` it takes any size. -/
def verifySelection (m : MembershipManager) (proof : CommitteeSelectionProof) (beacon : Option RandomnessBeacon) :
    Except EconomyError Bool := do
  if proof.epoch ≠ m.snapshot.epoch then
    return false
  if m.seedBacked proof beacon = false then
    return false
  let tickets := (← m.tickets m.snapshot (some proof.seed)).insertionSort (· ≤ ·)
  let expected := (sliceTo tickets (min proof.committeeSize tickets.length)).map Ticket.named
  if expected ≠ proof.selectedTickets then
    return false
  let expectedIds := fromKeys (expected.map Prod.fst)
  return expectedIds = proof.selectedIds &&
    digest (committeeStatement proof.epoch proof.committeeSize proof.selectedTickets proof.seed proof.beaconId) =
      proof.proofId

end MembershipManager

end Mosaic
