import Mosaic.Crypto
import Mosaic.Lib.JsonReading
import Mosaic.Lib.JsonParser
import Mosaic.Lib.Lines

namespace Mosaic
open CanonicalJson Lines

/-- What `append` raises. Keywords that name a parameter make the call itself fail. -/
inductive EventLogFault
  | eventLogError (message : String)
  | typeError
  deriving DecidableEq

/-- Where `str.splitlines` ends a line. -/
def isLineBreak (c : Char) : Bool := c.toNat ∈ [10, 11, 12, 13, 28, 29, 30, 133, 8232, 8233]

/-- `str.isspace`. -/
def isWhitespace (c : Char) : Bool :=
  9 ≤ c.toNat && c.toNat ≤ 13 || 28 ≤ c.toNat && c.toNat ≤ 32 || 8192 ≤ c.toNat && c.toNat ≤ 8202 ||
    c.toNat ∈ [133, 160, 5760, 8232, 8233, 8239, 8287, 12288]

/-- `not line.strip()`. -/
def isBlank (line : List Char) : Bool := line.all isWhitespace

section Log
variable [Crypto] [FloatFormat]

/-- What `time.time()` returns. -/
structure ClockTime where
  literal : FloatLiteral
  held : (Json.float literal).Held

/-- The keyword arguments of `append`. -/
structure Payload where
  fields : List (String × Json)
  held : (Json.obj fields).Held

structure EventLog where
  file : Option (List Char)
  networkId : String
  softwareVersion : String
  lastHash : String

/-- `digest({"event": event, "previous_event_hash": previous})`. -/
def eventDigest (event : Json) (previous : String) : String :=
  digest (.obj [("event", event), ("previous_event_hash", .str previous)])

/-- The members of `event` before it has an id. -/
def eventBody (log : EventLog) (time : ClockTime) (kind nodeId : String) (payload : Payload) : List (String × Json) := [
  ("protocol", .str "MOSAIC/TESTNET-EVENT/v1"),
  ("network_id", .str log.networkId),
  ("software_version", .str log.softwareVersion),
  ("wall_time", .float time.literal),
  ("kind", .str kind),
  ("node_id", .str nodeId),
  ("previous_event_hash", .str log.lastHash),
  ("payload", .obj payload.fields)]

/-- An event body with its `event_id`. -/
def identified (body : List (String × Json)) : List (String × Json) :=
  body ++ [("event_id", .str (digest (.obj body)))]

def hashed (event : List (String × Json)) (hash : String) : List (String × Json) :=
  event ++ [("event_hash", .str hash)]

/-- `json.loads(line)`. -/
def parseLine (line : List Char) : Except ReadError Json :=
  match loads line with
  | some value => .ok value
  | none => .error .valueError

def readLines (lines : List (List Char)) : Except ReadError (List Json) :=
  (lines.filter fun line => !isBlank line).mapM parseLine

/-- What `__init__` keeps of the events in its file. -/
def lastHashOf (events : List Json) : Except ReadError String :=
  events.foldlM (fun _ event => field "event_hash" Json.text event) "GENESIS"

def verifyEvents (previous : String) : List Json → Except ReadError Bool
  | [] => .ok true
  | event :: events => do
    let before ← event.get "previous_event_hash" .null
    if !before.isText previous then return false
    else
      let eventHash ← event.get "event_hash" .null
      let expected := eventDigest (event.without "event_hash") previous
      if !eventHash.isText expected then return false else verifyEvents expected events

namespace EventLog

def text (log : EventLog) : List Char := log.file.getD []

def read (log : EventLog) : Except ReadError (List Json) := readLines (splitLines isLineBreak log.text)

/-- `EventLog(path, network_id, software_version)`. -/
def new (file : Option (List Char)) (networkId softwareVersion : String) : Except ReadError EventLog := do
  let events ← EventLog.read ⟨file, networkId, softwareVersion, "GENESIS"⟩
  let lastHash ← lastHashOf events
  return ⟨file, networkId, softwareVersion, lastHash⟩

def append (log : EventLog) (time : ClockTime) (kind nodeId : String) (payload : Payload) :
    Except EventLogFault (Json × EventLog) :=
  if ∃ key ∈ ["self", "kind", "node_id"], key ∈ payload.fields.map Prod.fst then .error .typeError
  else if kind = "" ∨ nodeId = "" then .error (.eventLogError "event kind and node_id are required")
  else
    let event := identified (eventBody log time kind nodeId payload)
    let hash := eventDigest (.obj event) log.lastHash
    let written := Json.obj (hashed event hash)
    .ok (written, { log with
      file := some (log.text ++ ((dumps written).toList ++ ['\n']))
      lastHash := hash })

def verify (log : EventLog) : Except ReadError Bool := do
  let events ← log.read
  verifyEvents "GENESIS" events

end EventLog

end Log

end Mosaic
