import Mosaic.Lib.Base64
import Mosaic.Lib.Framing
import Mosaic.Lib.JsonReading
import Mosaic.Lib.JsonRoundTrip
import Mosaic.Node

namespace Mosaic
open CanonicalJson Effects

def b64 (value : Bytes) : String := String.ofList (Base64.encode value)

/-- A value without `encode` is no text. -/
def unb64 : Json → Except ReadError Bytes
  | .str value =>
    match Base64.decode value.toList with
    | some bytes => .ok bytes
    | none => .error .valueError
  | _ => .error .attributeError

def optionalText : Json → Except ReadError (Option String)
  | .null => .ok none
  | .str value => .ok (some value)
  | _ => .error .untyped

def sealToWire (s : StateSeal) : Json := .obj [
  ("resource_id", .str s.resourceId),
  ("epoch", .int s.epoch),
  ("version", .int s.version),
  ("state_root", .str s.stateRoot),
  ("capability_hash", .str s.capabilityHash),
  ("owner", .str s.owner)]

def sealFromWire (ints : IntReading) (data : Json) : Except ReadError StateSeal := do
  let resourceId ← field "resource_id" Json.text data
  let epoch ← field "epoch" ints.read data
  let version ← field "version" ints.read data
  let stateRoot ← field "state_root" Json.text data
  let capabilityHash ← field "capability_hash" Json.text data
  let owner ← field "owner" Json.text data
  return { resourceId, epoch, version, stateRoot, capabilityHash, owner }

def capsuleToWire (capsule : Capsule) : Json := .obj [
  ("capsule_id", .str capsule.capsuleId),
  ("predecessor_id", .str capsule.predecessorId),
  ("successor_root", .str capsule.successorRoot),
  ("rule_id", .str capsule.ruleId),
  ("rule_witness", .str capsule.ruleWitness),
  ("bundle_id", optionJson capsule.bundleId),
  ("attempt", .int capsule.attempt),
  ("epoch", .int capsule.epoch),
  ("client_id", .str capsule.clientId),
  ("client_public_key", .str (b64 capsule.clientPublicKey)),
  ("client_signature", .str (b64 capsule.clientSignature))]

def capsuleFromWire (ints : IntReading) (data : Json) : Except ReadError Capsule := do
  let capsuleId ← field "capsule_id" Json.text data
  let predecessorId ← field "predecessor_id" Json.text data
  let successorRoot ← field "successor_root" Json.text data
  let ruleId ← field "rule_id" Json.text data
  let ruleWitness ← field "rule_witness" Json.text data
  let bundleId ← field "bundle_id" optionalText data
  let attempt ← field "attempt" ints.read data
  let epoch ← field "epoch" ints.read data
  let clientId ← field "client_id" Json.text data
  let clientPublicKey ← field "client_public_key" unb64 data
  let clientSignature ← field "client_signature" unb64 data
  return { capsuleId, predecessorId, successorRoot, ruleId, ruleWitness, bundleId, attempt, epoch, clientId,
           clientPublicKey, clientSignature }

def receiptToWire (receipt : WitnessReceipt) : Json := .obj [
  ("capsule_id", .str receipt.capsuleId),
  ("predecessor_id", .str receipt.predecessorId),
  ("witness_id", .str receipt.witnessId),
  ("epoch", .int receipt.epoch),
  ("attempt", .int receipt.attempt),
  ("status", .str receipt.status),
  ("signature", .str (b64 receipt.signature))]

def receiptFromWire (ints : IntReading) (data : Json) : Except ReadError WitnessReceipt := do
  let capsuleId ← field "capsule_id" Json.text data
  let predecessorId ← field "predecessor_id" Json.text data
  let witnessId ← field "witness_id" Json.text data
  let epoch ← field "epoch" ints.read data
  let attempt ← field "attempt" ints.read data
  let status ← field "status" Json.text data
  let signature ← field "signature" unb64 data
  return { capsuleId, predecessorId, witnessId, epoch, attempt, status, signature }

def closureToWire (closure : ClosureProof) : Json := .obj [
  ("capsule_id", .str closure.capsuleId),
  ("predecessor_id", .str closure.predecessorId),
  ("epoch", .int closure.epoch),
  ("attempt", .int closure.attempt),
  ("signer_ids", .list (closure.signerIds.map .str)),
  ("receipts", .list (closure.receipts.map receiptToWire)),
  ("proof_id", .str closure.proofId)]

def closureFromWire (ints : IntReading) (data : Json) : Except ReadError ClosureProof := do
  let capsuleId ← field "capsule_id" Json.text data
  let predecessorId ← field "predecessor_id" Json.text data
  let epoch ← field "epoch" ints.read data
  let attempt ← field "attempt" ints.read data
  let signerIds ← field "signer_ids" (listOf Json.text) data
  let receipts ← field "receipts" (listOf (receiptFromWire ints)) data
  let proofId ← field "proof_id" Json.text data
  return { capsuleId, predecessorId, epoch, attempt, signerIds, receipts, proofId }

def messageToWire : Message → Json
  | .submit capsule => .obj [("type", .str "SUBMIT"), ("capsule", capsuleToWire capsule)]
  | .capsule capsule => .obj [("type", .str "CAPSULE"), ("capsule", capsuleToWire capsule)]
  | .receipt receipt => .obj [("type", .str "RECEIPT"), ("receipt", receiptToWire receipt)]
  | .closure capsule closure => .obj [
      ("type", .str "CLOSURE"), ("capsule", capsuleToWire capsule), ("closure", closureToWire closure)]

/-- What `_dispatch` reads before it calls a handler of the protocol. Messages of any
other type are answered elsewhere. -/
def messageFromWire (ints : IntReading) (message : Json) : Except ReadError (Option Message) := do
  let kind ← message.get "type" .null
  if kind.isText "SUBMIT" then
    let capsule ← field "capsule" (capsuleFromWire ints) message
    return some (.submit capsule)
  else if kind.isText "CAPSULE" then
    let capsule ← field "capsule" (capsuleFromWire ints) message
    return some (.capsule capsule)
  else if kind.isText "RECEIPT" then
    let receipt ← field "receipt" (receiptFromWire ints) message
    return some (.receipt receipt)
  else if kind.isText "CLOSURE" then
    let capsule ← field "capsule" (capsuleFromWire ints) message
    let closure ← field "closure" (closureFromWire ints) message
    return some (.closure capsule closure)
  else
    return none

def maxFrame : Nat := 4 * 1024 * 1024

/-- `text.encode("utf-8")`. -/
def utf8 (text : String) : Bytes := text.toByteArray.data.toList

/-- `bytes.decode("utf-8")`. -/
def ofUtf8 (bytes : Bytes) : Option String := String.fromUTF8? ⟨bytes.toArray⟩

/-- The last three are `ValueError`s. -/
inductive FrameFault
  | incompleteRead
  | valueError (message : String)
  | unicodeDecodeError
  | jsonDecodeError
  deriving DecidableEq

def writeFrame (message : Json) : Except FrameFault Bytes :=
  let payload := utf8 (dumps message)
  if maxFrame < payload.length then .error (.valueError "frame too large") else .ok (Framing.frame payload)

/-- The message, and the bytes that are left on the connection. -/
def readFrame [FloatFormat] (stream : Bytes) : Except FrameFault (Json × Bytes) :=
  match Framing.readFrame maxFrame stream with
  | .incomplete => .error .incompleteRead
  | .invalidLength => .error (.valueError "invalid frame length")
  | .payload payload rest =>
    match ofUtf8 payload with
    | none => .error .unicodeDecodeError
    | some text =>
      match loads text.toList with
      | none => .error .jsonDecodeError
      | some message => .ok (message, rest)

theorem reads_b64 : Reads unb64 fun value => .str (b64 value) := by
  intro value v same
  rw [eq_str_of_sortKeys same, unb64, b64, String.toList_ofList, Base64.decode_encode]

theorem reads_optionalText : Reads optionalText optionJson := by
  intro value v same
  cases value with
  | none =>
    cases v with
    | null => rfl
    | bool _ | int _ | float _ | str _ | list _ | obj _ => simp [optionJson, Json.sortKeys] at same
  | some text =>
    rw [eq_str_of_sortKeys same]
    rfl

section Reading
variable (ints : IntReading)

theorem reads_sealToWire : Reads (sealFromWire ints) sealToWire := by
  intro s v same
  have resourceId := reads_text.field same "resource_id" rfl
  have epoch := ints.reads.field same "epoch" rfl
  have version := ints.reads.field same "version" rfl
  have stateRoot := reads_text.field same "state_root" rfl
  have capabilityHash := reads_text.field same "capability_hash" rfl
  have owner := reads_text.field same "owner" rfl
  simp only [sealFromWire, resourceId, epoch, version, stateRoot, capabilityHash, owner]
  rfl

theorem reads_capsuleToWire : Reads (capsuleFromWire ints) capsuleToWire := by
  intro capsule v same
  have capsuleId := reads_text.field same "capsule_id" rfl
  have predecessorId := reads_text.field same "predecessor_id" rfl
  have successorRoot := reads_text.field same "successor_root" rfl
  have ruleId := reads_text.field same "rule_id" rfl
  have ruleWitness := reads_text.field same "rule_witness" rfl
  have bundleId := reads_optionalText.field same "bundle_id" rfl
  have attempt := ints.reads.field same "attempt" rfl
  have epoch := ints.reads.field same "epoch" rfl
  have clientId := reads_text.field same "client_id" rfl
  have clientPublicKey := reads_b64.field same "client_public_key" rfl
  have clientSignature := reads_b64.field same "client_signature" rfl
  simp only [capsuleFromWire, capsuleId, predecessorId, successorRoot, ruleId, ruleWitness, bundleId, attempt, epoch,
    clientId, clientPublicKey, clientSignature]
  rfl

theorem reads_receiptToWire : Reads (receiptFromWire ints) receiptToWire := by
  intro receipt v same
  have capsuleId := reads_text.field same "capsule_id" rfl
  have predecessorId := reads_text.field same "predecessor_id" rfl
  have witnessId := reads_text.field same "witness_id" rfl
  have epoch := ints.reads.field same "epoch" rfl
  have attempt := ints.reads.field same "attempt" rfl
  have status := reads_text.field same "status" rfl
  have signature := reads_b64.field same "signature" rfl
  simp only [receiptFromWire, capsuleId, predecessorId, witnessId, epoch, attempt, status, signature]
  rfl

theorem reads_closureToWire : Reads (closureFromWire ints) closureToWire := by
  intro closure v same
  have capsuleId := reads_text.field same "capsule_id" rfl
  have predecessorId := reads_text.field same "predecessor_id" rfl
  have epoch := ints.reads.field same "epoch" rfl
  have attempt := ints.reads.field same "attempt" rfl
  have signerIds := reads_text.listOf.field same "signer_ids" rfl
  have receipts := (reads_receiptToWire ints).listOf.field same "receipts" rfl
  have proofId := reads_text.field same "proof_id" rfl
  simp only [closureFromWire, capsuleId, predecessorId, epoch, attempt, signerIds, receipts, proofId]
  rfl

/-- The type of a message, read as a text. -/
theorem kind_of_sortKeys {v : Json} {fields : List (String × Json)} {kind : String}
    (same : v.sortKeys = (Json.obj fields).sortKeys) (there : fields.lookup "type" = some (.str kind)) :
    v.get "type" .null = .ok (.str kind) := by
  obtain ⟨vs, rfl, -⟩ := eq_obj_of_sortKeys same
  have lookups := lookup_eq_of_sortKeys same "type"
  rw [there] at lookups
  obtain ⟨u, found, equal⟩ := Option.map_eq_some_iff.mp lookups
  rw [Json.get, found, Option.getD_some, eq_str_of_sortKeys equal]

/-- A message is understood as it was meant. -/
theorem messageFromWire_of_sortKeys (message : Message) {v : Json}
    (same : v.sortKeys = (messageToWire message).sortKeys) : messageFromWire ints v = .ok (some message) := by
  cases message with
  | submit capsule =>
    have kind := kind_of_sortKeys same rfl
    have read := (reads_capsuleToWire ints).field same "capsule" rfl
    simp only [messageFromWire, kind, read]
    rfl
  | capsule capsule =>
    have kind := kind_of_sortKeys same rfl
    have read := (reads_capsuleToWire ints).field same "capsule" rfl
    simp only [messageFromWire, kind, read]
    rfl
  | receipt receipt =>
    have kind := kind_of_sortKeys same rfl
    have read := (reads_receiptToWire ints).field same "receipt" rfl
    simp only [messageFromWire, kind, read]
    rfl
  | closure capsule closure =>
    have kind := kind_of_sortKeys same rfl
    have first := (reads_capsuleToWire ints).field same "capsule" rfl
    have second := (reads_closureToWire ints).field same "closure" rfl
    simp only [messageFromWire, kind, first, second]
    rfl

end Reading

section Held
variable [FloatFormat]

theorem heldItems_iff {items : List Json} : HeldItems items ↔ ∀ item ∈ items, item.Held := by
  induction items with
  | nil => simp [HeldItems]
  | cons item items ih => rw [HeldItems, ih, List.forall_mem_cons]

theorem heldItems_map {α : Type} {write : α → Json} (held : ∀ a, (write a).Held) (items : List α) :
    HeldItems (items.map write) := by
  rw [heldItems_iff]
  intro item member
  obtain ⟨a, -, rfl⟩ := List.mem_map.mp member
  exact held a

theorem held_str (text : String) : (Json.str text).Held := by simp [Json.Held]

theorem held_sealToWire (s : StateSeal) : (sealToWire s).Held := by simp [sealToWire, Json.Held, HeldFields]

theorem held_capsuleToWire (capsule : Capsule) : (capsuleToWire capsule).Held := by
  have bundle : (optionJson capsule.bundleId).Held := by cases capsule.bundleId <;> simp [optionJson, Json.Held]
  simp [capsuleToWire, Json.Held, HeldFields, bundle]

theorem held_receiptToWire (receipt : WitnessReceipt) : (receiptToWire receipt).Held := by
  simp [receiptToWire, Json.Held, HeldFields]

theorem held_closureToWire (closure : ClosureProof) : (closureToWire closure).Held := by
  have signers := heldItems_map held_str closure.signerIds
  have receipts := heldItems_map held_receiptToWire closure.receipts
  simp [closureToWire, HeldFields, Json.Held, signers, receipts]

theorem held_messageToWire (message : Message) : (messageToWire message).Held := by
  cases message with
  | submit capsule => simp [messageToWire, Json.Held, HeldFields, held_capsuleToWire]
  | capsule capsule => simp [messageToWire, Json.Held, HeldFields, held_capsuleToWire]
  | receipt receipt => simp [messageToWire, Json.Held, HeldFields, held_receiptToWire]
  | closure capsule closure => simp [messageToWire, Json.Held, HeldFields, held_capsuleToWire, held_closureToWire]

end Held

theorem ofUtf8_utf8 (text : String) : ofUtf8 (utf8 text) = some text := by
  have same : (⟨(utf8 text).toArray⟩ : ByteArray) = text.toByteArray := rfl
  rw [ofUtf8, same, String.fromUTF8?, dif_pos text.isValidUTF8]
  rfl

theorem utf8_of_ofUtf8 {bytes : Bytes} {text : String} (read : ofUtf8 bytes = some text) : bytes = utf8 text := by
  unfold ofUtf8 String.fromUTF8? at read
  split at read
  · cases read
    rfl
  · cases read

theorem length_utf8_of_ascii {text : List Char} (small : ∀ c ∈ text, c.toNat < 128) :
    (utf8 (String.ofList text)).length = text.length := by
  rw [utf8, String.toByteArray_ofList]
  induction text with
  | nil => rfl
  | cons c text ih =>
    obtain ⟨here, later⟩ := List.forall_mem_cons.mp small
    have size : c.utf8Size = 1 := Char.utf8Size_eq_one_iff.mpr (UInt32.le_iff_toNat_le.mpr (Nat.le_of_lt_succ here))
    have rest := ih later
    simp only [List.utf8Encode, List.data_toByteArray, List.flatMap_cons, List.length_append,
      String.length_utf8EncodeChar, size, List.length_cons] at rest ⊢
    omega

/-- A frame has as many bytes as its text has characters. -/
theorem length_utf8_dumps (message : Json) : (utf8 (dumps message)).length = (dumps message).length := by
  have small : ∀ c ∈ (dumps message).toList, c.toNat < 128 := fun c member =>
    (printable_dumps member).2.trans (by decide)
  have same := length_utf8_of_ascii small
  rwa [String.ofList_toList] at same

theorem dumps_sortKeys (message : Json) : dumps message.sortKeys = dumps message := by
  rw [dumps, dumps, sortKeys_sortKeys]

section Frames
variable [FloatFormat] {message : Json} {stream rest bytes : Bytes}

theorem utf8_ne_nil {text : String} (read : loads text.toList = some message) : utf8 text ≠ [] := by
  intro none
  have empty : text = "" := String.toByteArray_inj.mp (ByteArray.ext (Array.toList_inj.mp none))
  rw [empty] at read
  cases read

/-- What is taken from a connection is a text of JSON behind its length. -/
theorem readFrame_eq_ok : readFrame stream = .ok (message, rest) ↔
    ∃ header text, header.length = 4 ∧ Framing.spelled header = (utf8 text).length ∧
      stream = header ++ utf8 text ++ rest ∧ (utf8 text).length ≤ maxFrame ∧ loads text.toList = some message := by
  constructor
  · intro read
    unfold readFrame at read
    split at read
    · cases read
    · cases read
    · rename_i payload rest' framed
      split at read
      · cases read
      · rename_i text decoded
        split at read
        · cases read
        · rename_i message' parsed
          cases read
          cases utf8_of_ofUtf8 decoded
          obtain ⟨header, four, length, whole, -, fits⟩ := Framing.readFrame_eq_payload.mp framed
          exact ⟨header, text, four, length, whole, fits, parsed⟩
  · rintro ⟨header, text, four, length, rfl, fits, parsed⟩
    have framed := Framing.readFrame_of_header four length (utf8_ne_nil parsed) fits rest
    simp only [readFrame, framed, ofUtf8_utf8, parsed]

omit [FloatFormat] in
theorem writeFrame_eq_ok : writeFrame message = .ok bytes ↔
    (utf8 (dumps message)).length ≤ maxFrame ∧ bytes = Framing.frame (utf8 (dumps message)) := by
  unfold writeFrame
  dsimp only
  split
  · rename_i large
    exact ⟨(nomatch ·), fun both => absurd both.1 (not_le.mpr large)⟩
  · rename_i fits
    exact ⟨fun written => ⟨not_lt.mp fits, (Except.ok.inj written).symm⟩, fun both => congrArg Except.ok both.2.symm⟩

/-- A message that was written is read, up to the order of its members. -/
theorem readFrame_writeFrame (held : message.Held) (written : writeFrame message = .ok bytes) (rest : Bytes) :
    readFrame (bytes ++ rest) = .ok (message.sortKeys, rest) := by
  obtain ⟨fits, rfl⟩ := writeFrame_eq_ok.mp written
  refine readFrame_eq_ok.mpr ⟨_, dumps message, rfl, Framing.spelled_bigEndian4 ?_, rfl, fits, loads_dumps held⟩
  exact lt_of_le_of_lt fits (by decide)

/-- A message that is cut short is waited for. -/
theorem readFrame_cut (held : message.Held) (written : writeFrame message = .ok bytes) {cut : Bytes}
    (short : cut <+: bytes) (proper : cut ≠ bytes) : readFrame cut = .error .incompleteRead := by
  obtain ⟨fits, rfl⟩ := writeFrame_eq_ok.mp written
  rw [readFrame, Framing.readFrame_cut (utf8_ne_nil (loads_dumps held)) fits (by decide) short proper]

omit [FloatFormat] in
theorem length_writeFrame (written : writeFrame message = .ok bytes) : bytes.length = (dumps message).length + 4 := by
  obtain ⟨-, rfl⟩ := writeFrame_eq_ok.mp written
  rw [Framing.frame, List.length_append, length_utf8_dumps, Nat.add_comm]
  rfl

/-- A message is too large for a frame, or it is read as it was meant, whatever follows
it; of a message that is cut short nothing is read. The reader counts the bytes that
the writer counts. -/
theorem message_delivered (ints : IntReading) (message : Message) :
    writeFrame (messageToWire message) = .error (.valueError "frame too large") ∧
        maxFrame < (dumps (messageToWire message)).length ∨
      ∃ bytes frame, writeFrame (messageToWire message) = .ok bytes ∧ bytes.length = (dumps frame).length + 4 ∧
        messageFromWire ints frame = .ok (some message) ∧ (∀ rest, readFrame (bytes ++ rest) = .ok (frame, rest)) ∧
        ∀ cut, cut <+: bytes → cut ≠ bytes → readFrame cut = .error .incompleteRead := by
  have held := held_messageToWire message
  have count := length_utf8_dumps (messageToWire message)
  cases written : writeFrame (messageToWire message) with
  | error fault =>
    unfold writeFrame at written
    dsimp only at written
    split at written
    · rename_i large
      cases written
      exact Or.inl ⟨rfl, count ▸ large⟩
    · cases written
  | ok bytes =>
    refine Or.inr ⟨bytes, (messageToWire message).sortKeys, rfl, ?_, ?_, ?_, ?_⟩
    · rw [dumps_sortKeys, length_writeFrame written]
    · exact messageFromWire_of_sortKeys ints message (sortKeys_sortKeys _)
    · exact readFrame_writeFrame held written
    · exact fun cut => readFrame_cut held written

end Frames

end Mosaic
