import Mosaic.Security
import Mosaic.Lib.AsciiJson
import Mosaic.Lib.JsonReading

namespace Mosaic
open CanonicalJson Effects

/-- What the model leaves open about JSON values. -/
class JsonValues where
  /-- The integer that a floating-point number is equal to. -/
  whole : FloatLiteral → Option Int
  /-- `str(value)`. -/
  str : Json → String

/-- A key of the replay guard. -/
inductive MessageId
  | text (value : String)
  | int (value : Int)
  | float (literal : FloatLiteral)

/-- Numbers are compared by their values. There is only one `NaN`, and it is
equal to itself as a key. -/
instance [JsonValues] : BEq MessageId where
  beq
    | .text value, .text value' => value == value'
    | .int value, .int value' => value == value'
    | .float literal, .float literal' => literal.text == literal'.text
    | .int value, .float literal => JsonValues.whole literal == some value
    | .float literal, .int value => JsonValues.whole literal == some value
    | _, _ => false

/-- `message.get("message_id") or json.dumps(message, ...)`. -/
def frameId : Json → Except SecurityFault Json
  | .obj fields =>
    let value := (fields.lookup "message_id").getD .null
    .ok (if value.truthy then value else .str (dumps (.obj fields)))
  | _ => .error .attributeError

/-- The value as a key of a dictionary. A null is never asked for: it is not truthy. -/
def messageId : Json → Option MessageId
  | .str value => some (.text value)
  | .int value => some (.int value)
  | .bool value => some (.int (if value then 1 else 0))
  | .float literal => some (.float literal)
  | .null | .list _ | .obj _ => none

structure GateMetrics where
  rateLimited : Nat := 0
  replayRejected : Nat := 0
  receivedMessages : Nat := 0
  receivedBytes : Nat := 0
  receivedBytesByType : Dict String Nat := .empty

/-- The part of a node that frames pass through. -/
structure FrameGate (T : Type) where
  maxConnectionsPerPeer : Int
  peerRateCapacity : T
  peerRateRefill : T
  rateLimiter : TokenBucket T
  replayGuard : ReplayGuard MessageId T
  peerLimiters : Dict String (TokenBucket T) := .empty
  peerConnections : Dict String Int := .empty
  metrics : GateMetrics := {}

/-- The times at which the two buckets and the guard look at the clock. -/
structure FrameTimes (T : Type) where
  all : T
  peer : T
  guard : T

inductive Verdict
  | rateLimited
  | replayRejected
  | passed
deriving DecidableEq

namespace FrameGate

variable {T : Type}

def withMetrics (f : GateMetrics → GateMetrics) (g : FrameGate T) : FrameGate T := { g with metrics := f g.metrics }

def withRateLimiter (b : TokenBucket T) (g : FrameGate T) : FrameGate T := { g with rateLimiter := b }

def withPeerLimiter (peer : String) (b : TokenBucket T) (g : FrameGate T) : FrameGate T :=
  { g with peerLimiters := g.peerLimiters.set peer b }

def withReplayGuard (guard : ReplayGuard MessageId T) (g : FrameGate T) : FrameGate T := { g with replayGuard := guard }

def withConnections (connections : Dict String Int) (g : FrameGate T) : FrameGate T :=
  { g with peerConnections := connections }

def countLimited (m : GateMetrics) : GateMetrics := { m with rateLimited := m.rateLimited + 1 }

def countReplay (m : GateMetrics) : GateMetrics := { m with replayRejected := m.replayRejected + 1 }

def countReceived [JsonValues] (message : Json) (m : GateMetrics) : GateMetrics :=
  let wireBytes := (dumps message).length + 4
  let messageType := JsonValues.str <| match message with
    | .obj fields => (fields.lookup "type").getD (.str "unknown")
    | _ => .str "unknown"
  { m with
    receivedMessages := m.receivedMessages + 1
    receivedBytes := m.receivedBytes + wireBytes
    receivedBytesByType :=
      m.receivedBytesByType.set messageType ((m.receivedBytesByType.get? messageType).getD 0 + wireBytes) }

variable [JsonValues] [Zero T] [One T] [Add T] [Sub T] [Mul T] [Min T] [Max T] [LE T] [LT T] [DecidableLE T] [DecidableLT T]

/-- A peer connects. The bucket is made whether or not the peer has one already. -/
def connect (peer : String) (now : T) : EStateM SecurityFault (FrameGate T) Bool := do
  let g ← get
  let active := (g.peerConnections.get? peer).getD 0
  if g.maxConnectionsPerPeer ≤ active then
    modify (withMetrics countLimited)
    return false
  else
    modify (withConnections (g.peerConnections.set peer (active + 1)))
    let fresh ← ofExcept (TokenBucket.create g.peerRateCapacity g.peerRateRefill now)
    modify (withPeerLimiter peer ((g.peerLimiters.get? peer).getD fresh))
    return true

/-- The bucket of a peer, which was put there when the peer connected. -/
def allowPeer (peer : String) (now : T) : EStateM SecurityFault (FrameGate T) Bool := do
  let g ← get
  let limiter ← ofExcept (match g.peerLimiters.get? peer with
    | some limiter => .ok limiter
    | none => .error .keyError)
  onPart (fun _ => limiter) (withPeerLimiter peer) (TokenBucket.allow 1 now)

/-- `self.rate_limiter.allow() and limiter.allow()`. -/
def allow (peer : String) (times : FrameTimes T) : EStateM SecurityFault (FrameGate T) Bool := do
  let allowed ← onPart rateLimiter withRateLimiter (TokenBucket.allow 1 times.all)
  if allowed then allowPeer peer times.peer else return false

/-- `self.replay_guard.accept(message_id)`. A value that cannot be a key is
found out about only after the old entries are gone. -/
def acceptId (id : Json) (now : T) : EStateM SecurityFault (ReplayGuard MessageId T) Bool :=
  match messageId id with
  | some key => ReplayGuard.accept key now
  | none => do
    modify (ReplayGuard.expire now)
    throw .typeError

/-- A frame of a peer was read. -/
def receive (peer : String) (message : Json) (times : FrameTimes T) : EStateM SecurityFault (FrameGate T) Verdict := do
  let allowed ← allow peer times
  if allowed then
    let id ← ofExcept (frameId message)
    let new ← onPart replayGuard withReplayGuard (acceptId id times.guard)
    if new then
      modify (withMetrics (countReceived message))
      return .passed
    else
      modify (withMetrics countReplay)
      return .replayRejected
  else
    modify (withMetrics countLimited)
    return .rateLimited

/-- A connection is closed, after whatever became of its frame. -/
def disconnect (peer : String) (g : FrameGate T) : FrameGate T :=
  let left := max 0 ((g.peerConnections.get? peer).getD 1 - 1)
  let connections := g.peerConnections.set peer left
  g.withConnections (if left = 0 then connections.erase peer else connections)

end FrameGate

/-- What happens at the gate, in any order. -/
inductive GateEvent (T : Type)
  | connect (peer : String) (now : T)
  | frame (peer : String) (message : Json) (times : FrameTimes T)
  | disconnect (peer : String)

namespace FrameGate

variable {T : Type} [JsonValues] [Zero T] [One T] [Add T] [Sub T] [Mul T] [Min T] [Max T] [LE T] [LT T] [DecidableLE T]
  [DecidableLT T]

/-- What a frame raises is caught, and the connection goes on to its end. -/
def step (g : FrameGate T) : GateEvent T → FrameGate T
  | .connect peer now => final (connect peer now) g
  | .frame peer message times => final (receive peer message times) g
  | .disconnect peer => g.disconnect peer

def after (g : FrameGate T) (events : List (GateEvent T)) : FrameGate T := events.foldl step g

/-- What becomes of a frame that raises nothing. -/
def verdict (g : FrameGate T) (peer : String) (message : Json) (times : FrameTimes T) : Option Verdict :=
  match receive peer message times g with
  | .ok verdict _ => some verdict
  | .error _ _ => none

/-- The key that the guard looks for. -/
def keyOf (message : Json) : Option MessageId :=
  match frameId message with
  | .ok id => messageId id
  | .error _ => none

/-- Whether the frame names its own identifier. -/
def named : Json → Bool
  | .obj fields => ((fields.lookup "message_id").getD .null).truthy
  | _ => false

variable {g : FrameGate T} {peer : String} {message : Json} {times : FrameTimes T} {id : MessageId} {t : T}

omit [JsonValues] in
theorem replayGuard_allowPeer (peer : String) (now : T) (g : FrameGate T) :
    (final (allowPeer peer now) g).replayGuard = g.replayGuard := by
  have start : allowPeer peer now = (get >>= fun g => ofExcept (match g.peerLimiters.get? peer with
      | some limiter => .ok limiter
      | none => .error .keyError) >>= fun limiter =>
        onPart (fun _ => limiter) (withPeerLimiter peer) (TokenBucket.allow 1 now)) := rfl
  rw [start, final_bind_of_ok (get_apply g)]
  cases g.peerLimiters.get? peer with
  | none => rfl
  | some limiter =>
    rw [final_bind_of_ok (ofExcept_of_ok rfl g), final_onPart]
    rfl

omit [JsonValues] in
/-- The buckets leave the guard alone. -/
theorem replayGuard_allow (peer : String) (times : FrameTimes T) (g : FrameGate T) :
    (final (allow peer times) g).replayGuard = g.replayGuard := by
  have first : (final (onPart rateLimiter withRateLimiter (TokenBucket.allow 1 times.all)) g).replayGuard =
      g.replayGuard := by
    rw [final_onPart]
    rfl
  cases run : onPart rateLimiter withRateLimiter (TokenBucket.allow 1 times.all) g with
  | error e next =>
    rw [final_of_error run] at first
    rw [allow, final_bind_of_error run, first]
  | ok allowed next =>
    rw [final_of_ok run] at first
    rw [allow, final_bind_of_ok run]
    cases allowed with
    | true => exact (replayGuard_allowPeer peer times.peer next).trans first
    | false => exact first

/-- A frame either does not come as far as the guard, or the guard decides. -/
theorem receive_cases (peer : String) (message : Json) (times : FrameTimes T) (g : FrameGate T) :
    (final (receive peer message times) g).replayGuard = g.replayGuard ∧
        (∀ verdict ∈ g.verdict peer message times, verdict = .rateLimited) ∨
      ∃ id, frameId message = .ok id ∧
        (final (receive peer message times) g).replayGuard = final (acceptId id times.guard) g.replayGuard ∧
        g.verdict peer message times = match acceptId id times.guard g.replayGuard with
          | .ok new _ => some (if new then .passed else .replayRejected)
          | .error _ _ => none := by
  have kept := replayGuard_allow peer times g
  cases admitted : allow peer times g with
  | error e next =>
    have run : receive peer message times g = .error e next := bind_of_error admitted
    rw [final_of_error admitted] at kept
    refine Or.inl ⟨by rw [final_of_error run, kept], ?_⟩
    rw [verdict, run]
    simp
  | ok allowed next =>
    rw [final_of_ok admitted] at kept
    have run := bind_of_ok (f := fun allowed => if allowed then
        ofExcept (frameId message) >>= fun id => onPart replayGuard withReplayGuard (acceptId id times.guard) >>= fun new =>
          if new then modify (withMetrics (countReceived message)) >>= fun _ => return Verdict.passed
          else modify (withMetrics countReplay) >>= fun _ => return Verdict.replayRejected
      else modify (withMetrics countLimited) >>= fun _ => return Verdict.rateLimited) admitted
    change receive peer message times g = _ at run
    cases allowed with
    | false =>
      refine Or.inl ⟨by rw [final, run]; exact kept, ?_⟩
      rw [verdict, run]
      rintro verdict ⟨⟩
      rfl
    | true =>
      rw [if_pos rfl] at run
      cases identified : frameId message with
      | error e =>
        rw [identified] at run
        refine Or.inl ⟨by rw [final, run]; exact kept, ?_⟩
        rw [verdict, run]
        rintro verdict ⟨⟩
      | ok id =>
        rw [identified, ofExcept_ok_bind] at run
        refine Or.inr ⟨id, rfl, ?_⟩
        rw [← kept]
        cases judged : acceptId id times.guard next.replayGuard with
        | error e guard =>
          rw [bind_of_error (onPart_of_error judged)] at run
          rw [final_of_error run, final_of_error judged, verdict, run]
          exact ⟨rfl, rfl⟩
        | ok new guard =>
          rw [bind_of_ok (onPart_of_ok judged)] at run
          rw [final_of_ok judged]
          cases new with
          | true =>
            rw [verdict, final, run]
            exact ⟨rfl, rfl⟩
          | false =>
            rw [verdict, final, run]
            exact ⟨rfl, rfl⟩

omit [Zero T] [One T] [Add T] [Mul T] [Min T] [Max T] [LE T] [DecidableLE T] in
theorem acceptId_of_some {id : Json} {key : MessageId} (found : messageId id = some key) (now : T) :
    acceptId id now = ReplayGuard.accept key now := by rw [acceptId, found]

omit [Zero T] [One T] [Add T] [Mul T] [Min T] [Max T] [LE T] [DecidableLE T] in
theorem acceptId_of_none {id : Json} (found : messageId id = none) (now : T) (guard : ReplayGuard MessageId T) :
    acceptId id now guard = .error .typeError (guard.expire now) := by
  rw [acceptId, found]
  rfl

omit [JsonValues] in
theorem keyOf_of_ok {id : Json} (identified : frameId message = .ok id) : keyOf message = messageId id := by
  rw [keyOf, identified]

/-- A frame is rejected as a replay when the guard holds its key. -/
theorem refused_of_rejected (rejected : g.verdict peer message times = some .replayRejected) :
    ∃ key next, keyOf message = some key ∧ ReplayGuard.accept key times.guard g.replayGuard = .ok false next := by
  rcases receive_cases peer message times g with ⟨-, limited⟩ | ⟨id, identified, -, decided⟩
  · cases limited _ rejected
  · rw [rejected] at decided
    cases judged : acceptId id times.guard g.replayGuard with
    | error e next =>
      rw [judged] at decided
      cases decided
    | ok new next =>
      rw [judged] at decided
      cases new with
      | true => cases decided
      | false =>
        cases found : messageId id with
        | none =>
          rw [acceptId_of_none found] at judged
          cases judged
        | some key =>
          rw [acceptId_of_some found] at judged
          exact ⟨key, next, (keyOf_of_ok identified).trans found, judged⟩

/-- Only a frame that passes puts an entry into the guard: its key and its time. -/
theorem mem_receive {entry : MessageId × T} (member : entry ∈ (final (receive peer message times) g).replayGuard.seen) :
    entry ∈ g.replayGuard.seen ∨
      g.verdict peer message times = some .passed ∧ keyOf message = some entry.1 ∧ entry.2 = times.guard := by
  rcases receive_cases peer message times g with ⟨kept, -⟩ | ⟨id, identified, moved, decided⟩
  · rw [kept] at member
    exact Or.inl member
  · rw [moved] at member
    cases found : messageId id with
    | none =>
      rw [final_of_error (acceptId_of_none found times.guard g.replayGuard)] at member
      exact Or.inl (List.mem_filter.mp member).1
    | some key =>
      rw [acceptId_of_some found] at member decided
      rcases ReplayGuard.mem_final_accept member with old | ⟨rfl, next, taken⟩
      · exact Or.inl old
      · rw [taken] at decided
        exact Or.inr ⟨decided, (keyOf_of_ok identified).trans found, rfl⟩

theorem ttlSeconds_receive (peer : String) (message : Json) (times : FrameTimes T) (g : FrameGate T) :
    (final (receive peer message times) g).replayGuard.ttlSeconds = g.replayGuard.ttlSeconds := by
  rcases receive_cases peer message times g with ⟨kept, -⟩ | ⟨id, -, moved, -⟩
  · rw [kept]
  · rw [moved]
    cases found : messageId id with
    | none => rw [final_of_error (acceptId_of_none found times.guard g.replayGuard), ReplayGuard.expire, ReplayGuard.withSeen]
    | some key =>
      rw [acceptId_of_some found]
      exact (ReplayGuard.final_accept_bounds _ _ _).2

omit [JsonValues] [One T] [Add T] [Sub T] [Mul T] [Min T] [Max T] [LT T] [DecidableLT T] in
theorem replayGuard_connect (peer : String) (now : T) (g : FrameGate T) :
    (final (connect peer now) g).replayGuard = g.replayGuard := by
  unfold connect
  rw [final_bind_of_ok (get_apply g)]
  by_cases full : g.maxConnectionsPerPeer ≤ (g.peerConnections.get? peer).getD 0
  · rw [if_pos full]
    rfl
  · rw [if_neg full, final_bind_of_ok (modify_apply _ g)]
    cases TokenBucket.create g.peerRateCapacity g.peerRateRefill now with
    | error e => rfl
    | ok fresh => rfl

theorem step_cases (g : FrameGate T) (event : GateEvent T) :
    (g.step event).replayGuard = g.replayGuard ∨
      ∃ peer message times, event = .frame peer message times ∧ g.step event = final (receive peer message times) g := by
  cases event with
  | connect peer now => exact Or.inl (replayGuard_connect peer now g)
  | frame peer message times => exact Or.inr ⟨peer, message, times, rfl, rfl⟩
  | disconnect peer => exact Or.inl rfl

theorem after_snoc (g : FrameGate T) (events : List (GateEvent T)) (event : GateEvent T) :
    g.after (events ++ [event]) = (g.after events).step event := List.foldl_concat _ _ _ _

theorem ttlSeconds_after (g : FrameGate T) (events : List (GateEvent T)) :
    (g.after events).replayGuard.ttlSeconds = g.replayGuard.ttlSeconds := by
  induction events using List.reverseRecOn with
  | nil => rfl
  | append_singleton events event ih =>
    rw [after_snoc]
    rcases step_cases (g.after events) event with kept | ⟨peer, message, times, -, moved⟩
    · rw [kept, ih]
    · rw [moved, ttlSeconds_receive, ih]

/-- What is in the guard came with a frame that passed. -/
theorem origin_of_mem {events : List (GateEvent T)} (empty : g.replayGuard.seen = [])
    {entry : MessageId × T} (member : entry ∈ (g.after events).replayGuard.seen) :
    ∃ before peer message times between, events = before ++ .frame peer message times :: between ∧
      (g.after before).verdict peer message times = some .passed ∧ keyOf message = some entry.1 ∧
      entry.2 = times.guard := by
  induction events using List.reverseRecOn with
  | nil =>
    change entry ∈ g.replayGuard.seen at member
    rw [empty] at member
    cases member
  | append_singleton events event ih =>
    have older (old : entry ∈ (g.after events).replayGuard.seen) :
        ∃ before peer message times between, events ++ [event] = before ++ .frame peer message times :: between ∧
          (g.after before).verdict peer message times = some .passed ∧ keyOf message = some entry.1 ∧
          entry.2 = times.guard := by
      obtain ⟨before, peer, message, times, between, rfl, came⟩ := ih old
      exact ⟨before, peer, message, times, between ++ [event], by rw [List.append_assoc, List.cons_append], came⟩
    rw [after_snoc] at member
    rcases step_cases (g.after events) event with kept | ⟨peer, message, times, rfl, moved⟩
    · rw [kept] at member
      exact older member
    · rw [moved] at member
      rcases mem_receive member with old | came
      · exact older old
      · exact ⟨events, peer, message, times, [], rfl, came⟩

omit [JsonValues] in
/-- A frame that names no identifier has its own text for a key. -/
theorem keyOf_of_unnamed (unnamed : named message = false) {key : MessageId} (found : keyOf message = some key) :
    key = .text (dumps message) := by
  cases message with
  | obj fields =>
    have identified : frameId (.obj fields) = .ok (.str (dumps (.obj fields))) :=
      congrArg Except.ok (if_neg (by change ¬ named (.obj fields) = true; rw [unnamed]; decide))
    rw [keyOf_of_ok identified] at found
    exact (Option.some.inj found).symm
  | null | bool _ | int _ | float _ | str _ | list _ => cases found

/-- A frame is rejected as a replay only if a frame with the same key passed and is
not yet too old. If neither of the two names an identifier, they are the same. -/
theorem replay_of_key (empty : g.replayGuard.seen = []) {events : List (GateEvent T)}
    (rejected : (g.after events).verdict peer message times = some .replayRejected) :
    ∃ before peer' message' times' between, events = before ++ .frame peer' message' times' :: between ∧
      (g.after before).verdict peer' message' times' = some .passed ∧
      ¬ g.replayGuard.ttlSeconds < times.guard - times'.guard ∧
      (∃ key key', keyOf message = some key ∧ keyOf message' = some key' ∧ (key' == key) = true) ∧
      (named message = false → named message' = false → message'.sortKeys = message.sortKeys) := by
  obtain ⟨key, next, found, refused⟩ := refused_of_rejected rejected
  obtain ⟨entry, member, same, recent⟩ := ReplayGuard.seen_of_holds (ReplayGuard.accept_refused refused).1
  obtain ⟨before, peer', message', times', between, split, passed, found', time⟩ := origin_of_mem empty member
  rw [ttlSeconds_after, time] at recent
  refine ⟨before, peer', message', times', between, split, passed, recent, ⟨key, entry.1, found, found', same⟩, ?_⟩
  intro unnamed unnamed'
  rw [keyOf_of_unnamed unnamed found, keyOf_of_unnamed unnamed' found'] at same
  exact sortKeys_eq_of_dumps (eq_of_beq (same : (dumps message' == dumps message) = true))

end FrameGate

namespace FrameGate

/-- Values where no floating-point number is an integer and only texts are printed. -/
@[reducible] def plainValues : JsonValues where
  whole _ := none
  str
    | .str value => value
    | _ => ""

def openGate : FrameGate Int where
  maxConnectionsPerPeer := 64
  peerRateCapacity := 1000
  peerRateRefill := 1000
  rateLimiter := { capacity := 1000, refillPerSecond := 1000, tokens := 1000, updatedAt := 0 }
  replayGuard := { maxEntries := 100000, ttlSeconds := 300 }

def metricsFrame : Json := .obj [("type", .str "METRICS"), ("message_id", .str "first")]

def capsuleFrame : Json := .obj [("type", .str "CAPSULE"), ("message_id", .str "first")]

def twoSenders : List (GateEvent Int) :=
  [.connect "10.0.0.1" 0, .connect "10.0.0.2" 0, .frame "10.0.0.1" metricsFrame ⟨1, 1, 1⟩]

/-- The second sender's frame is rejected, though no frame with its content was read. -/
theorem other_frame_rejected :
    let _ := plainValues
    ¬ ∀ (g : FrameGate Int) (events : List (GateEvent Int)) (peer : String) (message : Json) (times : FrameTimes Int),
      g.replayGuard.seen = [] → (g.after events).verdict peer message times = some .replayRejected →
      ∃ before peer' message' times' between, events = before ++ .frame peer' message' times' :: between ∧
        (g.after before).verdict peer' message' times' = some .passed ∧
        ¬ g.replayGuard.ttlSeconds < times.guard - times'.guard ∧ message'.sortKeys = message.sortKeys := by
  intro _ claimed
  have rejected : (openGate.after twoSenders).verdict "10.0.0.2" capsuleFrame ⟨2, 2, 2⟩ = some .replayRejected := by
    decide
  obtain ⟨before, peer', message', times', between, split, -, -, same⟩ :=
    claimed openGate twoSenders "10.0.0.2" capsuleFrame ⟨2, 2, 2⟩ rfl rejected
  have read : .frame peer' message' times' ∈ twoSenders := by
    rw [split]
    exact List.mem_append_right _ List.mem_cons_self
  have only : message' = metricsFrame := by
    simp only [twoSenders, List.mem_cons, reduceCtorEq, List.not_mem_nil, or_false, false_or, GateEvent.frame.injEq] at read
    exact read.2.1
  subst only
  have types : some (Json.str "METRICS") = some (.str "CAPSULE") := lookup_eq_of_sortKeys same "type"
  exact absurd (Json.str.inj (Option.some.inj types)) (by decide)

/-- The same frame sent twice. -/
theorem replay_of_key_twice :
    let _ := plainValues
    ∃ before peer' message' times' between, twoSenders = before ++ .frame peer' message' times' :: between ∧
      (openGate.after before).verdict peer' message' times' = some .passed ∧
      ¬ openGate.replayGuard.ttlSeconds < 2 - times'.guard ∧
      (∃ key key', keyOf metricsFrame = some key ∧ keyOf message' = some key' ∧ (key' == key) = true) ∧
      (named metricsFrame = false → named message' = false → message'.sortKeys = metricsFrame.sortKeys) := by
  intro _
  have rejected : (openGate.after twoSenders).verdict "10.0.0.2" metricsFrame ⟨2, 2, 2⟩ = some .replayRejected := by
    decide
  exact replay_of_key rfl rejected

end FrameGate

end Mosaic
