import Mosaic.EventAppends
import Mosaic.FrameGate
import Mosaic.LedgerPersistence
import Mosaic.NodeRuns
import Mosaic.Wire

namespace Mosaic
open CanonicalJson Effects

variable {T : Type}

/-- A handler of a connection. It reads one frame. -/
structure Connection where
  peer : String
  served : Bool

section Behind
variable [Crypto]

structure Server (T : Type) where
  gate : FrameGate T
  connections : List Connection
  running : Running

/-- What a server is started with. -/
structure ServerConfig (T : Type) where
  node : NodeConfig
  maxConnectionsPerPeer : Int
  peerRateCapacity : T
  peerRateRefill : T
  rateLimiter : TokenBucket T
  replayGuard : ReplayGuard MessageId T

/-- The gate of a server that has just been started. -/
@[simps]
def ServerConfig.gate (config : ServerConfig T) : FrameGate T where
  maxConnectionsPerPeer := config.maxConnectionsPerPeer
  peerRateCapacity := config.peerRateCapacity
  peerRateRefill := config.peerRateRefill
  rateLimiter := config.rateLimiter
  replayGuard := config.replayGuard

/-- Nothing but the log of effects outlives a server. -/
@[simps]
def ServerConfig.start (config : ServerConfig T) (log : List Effect) : Server T where
  gate := config.gate
  connections := []
  running := config.node.start log

inductive ServerEvent (T : Type)
  | connect (peer : String) (now : T)
  | bytes (connection : Nat) (stream : Bytes) (times : FrameTimes T)
  | disconnect (connection : Nat)
  | resume (thread : Nat)

/-- What happens in the life of a server. A crash comes after so many of the effects
of an event. -/
inductive ServerLifeEvent (T : Type)
  | event (event : ServerEvent T)
  | crash (event : ServerEvent T) (effects : Nat)

def ServerLifeEvent.taken : ServerLifeEvent T → ServerEvent T
  | .event e | .crash e _ => e

/-- `_dispatch`, where the message is one for the protocol. What a handler raises is
caught. -/
def dispatchFrame (ints : IntReading) (frame : Json) (running : Running) : Running :=
  match messageFromWire ints frame with
  | .ok (some message) => running.receive message
  | _ => running

namespace Server

variable [FloatFormat] [JsonValues] [Zero T] [One T] [Add T] [Sub T] [Mul T] [Min T] [Max T] [LE T] [LT T]
  [DecidableLE T] [DecidableLT T]

/-- `_handle`, up to its `try`. -/
def connect (peer : String) (now : T) (s : Server T) : Server T :=
  match FrameGate.connect peer now s.gate with
  | .ok true gate => { s with gate, connections := s.connections ++ [⟨peer, false⟩] }
  | .ok false gate | .error _ gate => { s with gate }

/-- The handler of a connection has read these bytes when its connection ends. -/
def read (ints : IntReading) (connection : Nat) (stream : Bytes) (times : FrameTimes T) (s : Server T) : Server T :=
  match s.connections[connection]? with
  | some ⟨peer, false⟩ =>
    let served := { s with connections := s.connections.set connection ⟨peer, true⟩ }
    match readFrame stream with
    | .error _ => served
    | .ok (frame, _) =>
      match FrameGate.receive peer frame times s.gate with
      | .ok .passed gate => { served with gate, running := dispatchFrame ints frame s.running }
      | .ok _ gate | .error _ gate => { served with gate }
  | _ => s

/-- The `finally` of `_handle`. -/
def disconnect (connection : Nat) (s : Server T) : Server T :=
  match s.connections[connection]? with
  | some ⟨peer, _⟩ => { s with gate := s.gate.disconnect peer, connections := s.connections.eraseIdx connection }
  | none => s

def exec (ints : IntReading) (s : Server T) : ServerEvent T → Server T
  | .connect peer now => s.connect peer now
  | .bytes connection stream times => s.read ints connection stream times
  | .disconnect connection => s.disconnect connection
  | .resume thread => { s with running := s.running.resume thread }

/-- Values of other types than they should have may go on through the code, which the
model does not follow. -/
def Typed (ints : IntReading) (event : ServerLifeEvent T) : Prop :=
  ∀ connection stream times, event.taken = .bytes connection stream times → ∀ frame rest,
    readFrame stream = .ok (frame, rest) → messageFromWire ints frame ≠ .error .untyped

end Server

variable [FloatFormat] [JsonValues] [Zero T] [One T] [Add T] [Sub T] [Mul T] [Min T] [Max T] [LE T] [LT T]
  [DecidableLE T] [DecidableLT T]

def ServerLifeEvent.exec (ints : IntReading) (config : ServerConfig T) : ServerLifeEvent T → Server T → Server T
  | .event e, s => s.exec ints e
  | .crash e effects, s => config.start ((s.exec ints e).running.node.log.take (s.running.node.log.length + effects))

/-- The lives of a server from its first start. -/
abbrev ServerLife (ints : IntReading) (config : ServerConfig T) (s : Server T) : Prop :=
  GuardedRun (ServerLifeEvent.exec ints config) (fun _ event => Server.Typed ints event) (config.start []) s

/-- Any lives of a server, whatever it reads. -/
abbrev ServerRun (ints : IntReading) (config : ServerConfig T) (s : Server T) : Prop :=
  GuardedRun (ServerLifeEvent.exec ints config) (fun _ _ => True) (config.start []) s

/-- A message that a handler sees has come in a whole frame. -/
def Input.Framed (ints : IntReading) : Input → Prop
  | .receive message => ∃ stream frame rest, readFrame stream = .ok (frame, rest) ∧
      messageFromWire ints frame = .ok (some message)
  | .resume _ => True

omit [FloatFormat] [JsonValues] in
theorem dispatchFrame_eq (ints : IntReading) (frame : Json) (running : Running) :
    dispatchFrame ints frame running = running ∨
      ∃ message, messageFromWire ints frame = .ok (some message) ∧
        dispatchFrame ints frame running = running.receive message := by
  unfold dispatchFrame
  split
  · rename_i message read
    exact Or.inr ⟨message, read, rfl⟩
  · exact Or.inl rfl

/-- An event of a server leaves the node alone, or it is an input of the node. -/
theorem Server.exec_running (ints : IntReading) (s : Server T) (event : ServerEvent T) :
    (s.exec ints event).running = s.running ∨
      ∃ input : Input, input.Framed ints ∧ (s.exec ints event).running = input.exec s.running := by
  cases event with
  | connect peer now =>
    refine Or.inl ?_
    simp only [exec, connect]
    split <;> rfl
  | bytes connection stream times =>
    simp only [exec, read]
    split
    · split
      · exact Or.inl rfl
      · rename_i frame rest framed
        split
        · rcases dispatchFrame_eq ints frame s.running with same | ⟨message, understood, same⟩
          · exact Or.inl same
          · exact Or.inr ⟨.receive message, ⟨stream, frame, rest, framed, understood⟩, same⟩
        · exact Or.inl rfl
        · exact Or.inl rfl
    · exact Or.inl rfl
  | disconnect connection =>
    refine Or.inl ?_
    simp only [exec, disconnect]
    split <;> rfl
  | resume thread => exact Or.inr ⟨.resume thread, trivial, rfl⟩

/-- Whatever bytes come in, whatever connections come and go, and whenever the server
crashes: the node behind the port lives the life of a node that is given the messages
in whole frames. -/
theorem ServerLife.node {ints : IntReading} {config : ServerConfig T} {s : Server T} (life : ServerLife ints config s) :
    Life config.node (fun _ event => event.taken.Framed ints) s.running := by
  refine life.invariant (P := fun s => Life config.node (fun _ event => event.taken.Framed ints) s.running) .refl ?_
  intro s event _ lived
  cases event with
  | event e =>
    rcases s.exec_running ints e with same | ⟨input, framed, same⟩
    · exact same.symm ▸ lived
    · have taken : (LifeEvent.input input).taken.Framed ints := framed
      change Life _ _ (s.exec ints e).running
      rw [same]
      exact lived.tail taken
  | crash e effects =>
    rcases s.exec_running ints e with same | ⟨input, framed, same⟩
    · -- Nothing happened before the crash.
      have ends : ((ServerLifeEvent.crash e effects).exec ints config s).running = config.node.start s.running.node.log := by
        simp only [ServerLifeEvent.exec, ServerConfig.start_running, same]
        rw [List.take_of_length_le (by omega)]
      have taken : (LifeEvent.crash (.resume 0) 0).taken.Framed ints := trivial
      rw [ends, ← LifeEvent.exec_crash_zero config.node (.resume 0) s.running]
      exact lived.tail taken
    · have ends : ((ServerLifeEvent.crash e effects).exec ints config s).running =
          (LifeEvent.crash input effects).exec config.node s.running := by
        simp only [ServerLifeEvent.exec, ServerConfig.start_running, LifeEvent.exec, same]
      have taken : (LifeEvent.crash input effects).taken.Framed ints := framed
      rw [ends]
      exact lived.tail taken

end Behind

namespace FrameGate

/-- The same connections are counted, and the same number of them is allowed. -/
structure SameDoor (g h : FrameGate T) : Prop where
  connections : h.peerConnections = g.peerConnections
  most : h.maxConnectionsPerPeer = g.maxConnectionsPerPeer
  capacity : h.peerRateCapacity = g.peerRateCapacity
  refill : h.peerRateRefill = g.peerRateRefill

instance : Std.Refl (SameDoor (T := T)) := ⟨fun _ => ⟨rfl, rfl, rfl, rfl⟩⟩

instance : IsTrans (FrameGate T) SameDoor := ⟨fun _ _ _ first second =>
  ⟨second.connections.trans first.connections, second.most.trans first.most, second.capacity.trans first.capacity,
    second.refill.trans first.refill⟩⟩

section Doors
variable [Zero T] [LE T] [DecidableLE T] {g : FrameGate T}

theorem connect_full {peer : String} (full : g.maxConnectionsPerPeer ≤ (g.peerConnections.get? peer).getD 0) (now : T) :
    connect peer now g = .ok false (withMetrics countLimited g) := by
  unfold connect
  rw [get_bind_apply, if_pos full]
  rfl

/-- Where the buckets can be made, a peer that has room for a connection is let in. -/
theorem connect_room {peer : String} (positive : ¬ (g.peerRateCapacity ≤ 0 ∨ g.peerRateRefill ≤ 0))
    (room : ¬ g.maxConnectionsPerPeer ≤ (g.peerConnections.get? peer).getD 0) (now : T) :
    ∃ h, connect peer now g = .ok true h ∧ h.maxConnectionsPerPeer = g.maxConnectionsPerPeer ∧
      h.peerRateCapacity = g.peerRateCapacity ∧ h.peerRateRefill = g.peerRateRefill ∧
      h.peerConnections = g.peerConnections.set peer ((g.peerConnections.get? peer).getD 0 + 1) := by
  have made : TokenBucket.create g.peerRateCapacity g.peerRateRefill now =
      .ok { capacity := g.peerRateCapacity, refillPerSecond := g.peerRateRefill, tokens := g.peerRateCapacity,
            updatedAt := now } := by
    unfold TokenBucket.create refuseIf
    rw [if_neg positive]
    rfl
  unfold connect
  rw [get_bind_apply, if_neg room, bind_of_ok (modify_apply _ _), made, ofExcept_ok_bind, bind_of_ok (modify_apply _ _)]
  exact ⟨_, rfl, rfl, rfl, rfl, rfl⟩

end Doors

end FrameGate

namespace Server
variable [Crypto]

/-- The connections of a peer that are open. -/
def openTo (s : Server T) (peer : String) : Nat := s.connections.countP fun connection => connection.peer = peer

/-- Every open connection is counted, and no other. -/
structure Counted (config : ServerConfig T) (s : Server T) : Prop where
  most : s.gate.maxConnectionsPerPeer = config.maxConnectionsPerPeer
  capacity : s.gate.peerRateCapacity = config.peerRateCapacity
  refill : s.gate.peerRateRefill = config.peerRateRefill
  counts : ∀ peer, s.gate.peerConnections.get? peer = if s.openTo peer = 0 then none else some (s.openTo peer : Int)
  bounded : ∀ peer, s.openTo peer ≠ 0 → (s.openTo peer : Int) ≤ config.maxConnectionsPerPeer

theorem start_counted (config : ServerConfig T) (log : List Effect) : Counted config (config.start log) where
  most := rfl
  capacity := rfl
  refill := rfl
  counts _ := rfl
  bounded _ some' := absurd rfl some'

theorem Counted.active {config : ServerConfig T} {s : Server T} (counted : s.Counted config) (peer : String) :
    (s.gate.peerConnections.get? peer).getD 0 = s.openTo peer := by
  rw [counted.counts peer]
  split
  · rename_i none
    rw [none]
    rfl
  · rfl

/-- A connection is one of those to its peer. -/
theorem openTo_there {s : Server T} {index : Nat} {connection : Connection}
    (there : s.connections[index]? = some connection) (peer : String) : s.openTo peer =
      (s.connections.eraseIdx index).countP (fun other => other.peer = peer) + if connection.peer = peer then 1 else 0 := by
  obtain ⟨inside, rfl⟩ := List.getElem?_eq_some_iff.mp there
  have perm := List.getElem_cons_eraseIdx_perm inside
  rw [openTo, ← perm.countP_eq, List.countP_cons]
  simp only [decide_eq_true_eq]

theorem openTo_set {s : Server T} {index : Nat} {connection : Connection}
    (there : s.connections[index]? = some connection) (served : Connection) (same : served.peer = connection.peer)
    (peer : String) :
    (s.connections.set index served).countP (fun other => other.peer = peer) = s.openTo peer := by
  obtain ⟨inside, -⟩ := List.getElem?_eq_some_iff.mp there
  have perm := List.set_perm_cons_eraseIdx inside served
  rw [openTo_there there, perm.countP_eq, List.countP_cons, same]
  simp only [decide_eq_true_eq]

/-- Another gate with the same door, and other connections of the same number. -/
theorem Counted.congr {config : ServerConfig T} {s t : Server T} (counted : s.Counted config)
    (door : s.gate.SameDoor t.gate) (same : ∀ peer, t.openTo peer = s.openTo peer) : t.Counted config where
  most := door.most.trans counted.most
  capacity := door.capacity.trans counted.capacity
  refill := door.refill.trans counted.refill
  counts peer := by rw [door.connections, same, counted.counts]
  bounded peer := by rw [same]; exact counted.bounded peer

section Doors
variable {config : ServerConfig T} {s : Server T}

theorem openTo_append (gate : FrameGate T) (connection : Connection) (peer : String) :
    openTo { s with gate, connections := s.connections ++ [connection] } peer =
      s.openTo peer + if connection.peer = peer then 1 else 0 := by
  rw [openTo, List.countP_append, List.countP_singleton]
  simp only [decide_eq_true_eq]
  rfl

theorem Counted.disconnect (counted : s.Counted config) (index : Nat) : (s.disconnect index).Counted config := by
  unfold Server.disconnect
  split
  · rename_i peer served there
    have split := openTo_there there
    have active := counted.active peer
    have counts := counted.counts
    have here := split peer
    rw [if_pos rfl] at here
    have left : max 0 ((s.gate.peerConnections.get? peer).getD 1 - 1) =
        ((s.connections.eraseIdx index).countP fun other => other.peer = peer : Nat) := by
      rw [counts peer, if_neg (by omega), Option.getD_some, here]
      omega
    refine ⟨counted.most, counted.capacity, counted.refill, fun other => ?_, fun other some' => ?_⟩
    · change Dict.get? (if max 0 ((s.gate.peerConnections.get? peer).getD 1 - 1) = 0 then _ else _) other = _
      rw [left, openTo]
      dsimp only
      have apart := split other
      by_cases same : peer = other
      · subst same
        by_cases none : (s.connections.eraseIdx index).countP (fun other => other.peer = peer) = 0
        · rw [none, if_pos Nat.cast_zero, if_pos rfl, Dict.get?_erase, if_pos rfl]
        · rw [if_neg (by omega), if_neg none, Dict.get?_set, if_pos rfl]
      · rw [if_neg same, Nat.add_zero] at apart
        rw [← apart, ← counts other]
        split_ifs
        · rw [Dict.get?_erase, if_neg same, Dict.get?_set_of_ne _ _ same]
        · rw [Dict.get?_set_of_ne _ _ same]
    · have before := counted.bounded other
      have apart := split other
      rw [openTo] at some' ⊢
      dsimp only at some' ⊢
      have bound := before (by omega)
      omega
  · exact counted

variable [Zero T] [LE T] [DecidableLE T]

/-- A connection is turned away, or it is let in and counted. -/
theorem Counted.connect_cases (counted : s.Counted config)
    (positive : ¬ (config.peerRateCapacity ≤ 0 ∨ config.peerRateRefill ≤ 0)) (peer : String) (now : T) :
    config.maxConnectionsPerPeer ≤ s.openTo peer ∧
        s.connect peer now = { s with gate := FrameGate.withMetrics FrameGate.countLimited s.gate } ∨
      (s.openTo peer : Int) < config.maxConnectionsPerPeer ∧ ∃ gate,
        s.connect peer now = { s with gate, connections := s.connections ++ [⟨peer, false⟩] } ∧
        gate.maxConnectionsPerPeer = s.gate.maxConnectionsPerPeer ∧ gate.peerRateCapacity = s.gate.peerRateCapacity ∧
        gate.peerRateRefill = s.gate.peerRateRefill ∧
        gate.peerConnections = s.gate.peerConnections.set peer (s.openTo peer + 1) := by
  have active := counted.active peer
  by_cases full : s.gate.maxConnectionsPerPeer ≤ (s.gate.peerConnections.get? peer).getD 0
  · have refused := FrameGate.connect_full full now
    rw [active, counted.most] at full
    refine Or.inl ⟨full, ?_⟩
    unfold Server.connect
    rw [refused]
  · have valid : ¬ (s.gate.peerRateCapacity ≤ 0 ∨ s.gate.peerRateRefill ≤ 0) := by
      rwa [counted.capacity, counted.refill]
    obtain ⟨gate, entered, most, capacity, refill, connections⟩ := FrameGate.connect_room valid full now
    rw [active, counted.most] at full
    rw [active] at connections
    refine Or.inr ⟨not_le.mp full, gate, ?_, most, capacity, refill, connections⟩
    unfold Server.connect
    rw [entered]

theorem Counted.connect (counted : s.Counted config) (positive : ¬ (config.peerRateCapacity ≤ 0 ∨ config.peerRateRefill ≤ 0))
    (peer : String) (now : T) : (s.connect peer now).Counted config := by
  rcases counted.connect_cases positive peer now with
    ⟨-, turned⟩ | ⟨room, gate, entered, most, capacity, refill, connections⟩
  · rw [turned]
    exact counted.congr ⟨rfl, rfl, rfl, rfl⟩ fun _ => rfl
  · rw [entered]
    refine ⟨most.trans counted.most, capacity.trans counted.capacity, refill.trans counted.refill, fun other => ?_,
      fun other some' => ?_⟩
    · rw [openTo_append]
      dsimp only
      rw [connections, Dict.get?_set]
      by_cases same : peer = other
      · subst same
        rw [if_pos rfl, if_pos rfl, if_neg (by omega), Nat.cast_add, Nat.cast_one]
      · rw [if_neg same, if_neg same, counted.counts, Nat.add_zero]
    · rw [openTo_append] at some' ⊢
      dsimp only at some' ⊢
      by_cases same : peer = other
      · subst same
        rw [if_pos rfl]
        omega
      · rw [if_neg same] at some' ⊢
        exact counted.bounded other some'

end Doors

end Server

section Frames
variable [Zero T] [One T] [Add T] [Sub T] [Mul T] [Min T] [Max T] [LE T] [LT T] [DecidableLE T] [DecidableLT T]

namespace FrameGate
variable {g : FrameGate T}

theorem allowPeer_door (peer : String) (now : T) : Guarantees SameDoor g (allowPeer peer now) fun _ _ => True := by
  have bucket (limiter : TokenBucket T) : Guarantees (fun _ _ => True) limiter (TokenBucket.allow 1 now) fun _ _ => True :=
    ⟨trivial, fun _ _ _ => trivial⟩
  have spent (limiter : TokenBucket T) : Guarantees SameDoor g
      (onPart (fun _ => limiter) (withPeerLimiter peer) (TokenBucket.allow 1 now)) fun _ _ => True :=
    ((bucket limiter).onPart (T := SameDoor) fun t _ => ⟨rfl, rfl, rfl, rfl⟩).mono fun _ _ _ _ => trivial
  refine .get_bind (.read_bind (Q := fun _ _ => True) (.ofExcept fun _ _ => trivial) fun limiter _ => spent limiter)

theorem allow_door (peer : String) (times : FrameTimes T) : Guarantees SameDoor g (allow peer times) fun _ _ => True := by
  have bucket : Guarantees (fun _ _ => True) g.rateLimiter (TokenBucket.allow 1 times.all) fun _ _ => True :=
    ⟨trivial, fun _ _ _ => trivial⟩
  have spent : Guarantees SameDoor g (onPart rateLimiter withRateLimiter (TokenBucket.allow 1 times.all))
      fun _ _ => True :=
    (bucket.onPart (T := SameDoor) fun t _ => ⟨rfl, rfl, rfl, rfl⟩).mono fun _ _ _ _ => trivial
  refine spent.bind fun allowed h _ _ => ?_
  cases allowed with
  | true => exact allowPeer_door peer times.peer
  | false => exact .pure trivial

/-- Reading a frame leaves the count of the connections alone. -/
theorem receive_door [JsonValues] (peer : String) (message : Json) (times : FrameTimes T) :
    Guarantees SameDoor g (receive peer message times) fun _ _ => True := by
  have counted (f : GateMetrics → GateMetrics) (h : FrameGate T) (verdict : Verdict) :
      Guarantees SameDoor h (do modify (withMetrics f); return verdict : EStateM SecurityFault (FrameGate T) Verdict)
        fun _ _ => True :=
    (Guarantees.update (P := fun _ _ => True) ⟨rfl, rfl, rfl, rfl⟩ trivial).bind fun _ _ _ _ => .pure trivial
  have judged (h : FrameGate T) (id : Json) : Guarantees SameDoor h
      (onPart replayGuard withReplayGuard (acceptId id times.guard)) fun _ _ => True := by
    have guard : Guarantees (fun _ _ => True) h.replayGuard (acceptId id times.guard) fun _ _ => True :=
      ⟨trivial, fun _ _ _ => trivial⟩
    exact (guard.onPart (T := SameDoor) fun t _ => ⟨rfl, rfl, rfl, rfl⟩).mono fun _ _ _ _ => trivial
  refine (allow_door peer times).bind fun allowed h _ _ => ?_
  cases allowed with
  | false => exact counted _ h _
  | true =>
    refine Guarantees.bind (Q := fun _ _ => True) (.ofExcept fun _ _ => trivial) fun id u _ _ => ?_
    refine (judged u id).bind fun new v _ _ => ?_
    cases new with
    | true => exact counted _ v _
    | false => exact counted _ v _

end FrameGate

variable [Crypto] [FloatFormat] [JsonValues]

theorem Server.Counted.read {config : ServerConfig T} {s : Server T} (counted : s.Counted config) (ints : IntReading) (index : Nat) (stream : Bytes)
    (times : FrameTimes T) : (s.read ints index stream times).Counted config := by
  unfold Server.read
  split
  · rename_i peer there
    have same := openTo_set there ⟨peer, true⟩ rfl
    split
    · exact counted.congr ⟨rfl, rfl, rfl, rfl⟩ same
    · rename_i frame rest framed
      have door := (FrameGate.receive_door (g := s.gate) peer frame times)
      dsimp only
      split
      · rename_i gate received
        exact counted.congr (door.step received) same
      · rename_i verdict gate other received
        exact counted.congr (door.step received) same
      · rename_i e gate received
        exact counted.congr (door.step_error received) same
  · exact counted

theorem ServerRun.counted {ints : IntReading} {config : ServerConfig T} {s : Server T} (run : ServerRun ints config s)
    (positive : ¬ (config.peerRateCapacity ≤ 0 ∨ config.peerRateRefill ≤ 0)) : s.Counted config := by
  refine run.invariant (Server.start_counted config []) fun s event _ counted => ?_
  cases event with
  | crash e effects => exact Server.start_counted config _
  | event e =>
    cases e with
    | connect peer now => exact counted.connect positive peer now
    | bytes index stream times => exact counted.read ints index stream times
    | disconnect index => exact counted.disconnect index
    | resume thread => exact counted.congr ⟨rfl, rfl, rfl, rfl⟩ fun _ => rfl

/-- As long as a server lives, its gate counts the open connections of each peer, never
more than are allowed, and forgets a peer without any; and it turns a connection away
when the peer has all that are allowed, and at no other time. -/
theorem ServerRun.connections_counted {ints : IntReading} {config : ServerConfig T} {s : Server T}
    (run : ServerRun ints config s) (positive : ¬ (config.peerRateCapacity ≤ 0 ∨ config.peerRateRefill ≤ 0))
    (peer : String) :
    s.gate.peerConnections.get? peer = (if s.openTo peer = 0 then none else some (s.openTo peer : Int)) ∧
      (s.openTo peer ≠ 0 → (s.openTo peer : Int) ≤ config.maxConnectionsPerPeer) ∧
      ∀ now, (s.connect peer now).openTo peer =
        if (s.openTo peer : Int) < config.maxConnectionsPerPeer then s.openTo peer + 1 else s.openTo peer := by
  have counted := run.counted positive
  refine ⟨counted.counts peer, counted.bounded peer, fun now => ?_⟩
  rcases counted.connect_cases positive peer now with ⟨full, turned⟩ | ⟨room, gate, entered, -⟩
  · rw [turned, if_neg (not_lt.mpr full)]
    rfl
  · rw [entered, Server.openTo_append, if_pos rfl, if_pos room]

end Frames

section Quiet

/-- A receipt for a capsule that nobody has. -/
def quietReceipt : WitnessReceipt := ⟨"", "", "", 0, 0, "ACCEPT", []⟩

theorem quietReceipt_fits : (dumps (messageToWire (.receipt quietReceipt))).length ≤ maxFrame := by decide +kernel

def quietBytes : Bytes := Framing.frame (utf8 (dumps (messageToWire (.receipt quietReceipt))))

theorem quietBytes_written : writeFrame (messageToWire (.receipt quietReceipt)) = .ok quietBytes :=
  writeFrame_eq_ok.mpr ⟨(length_utf8_dumps _).trans_le quietReceipt_fits, rfl⟩

theorem quietBytes_read [FloatFormat] : readFrame quietBytes = .ok ((messageToWire (.receipt quietReceipt)).sortKeys, []) := by
  have read := readFrame_writeFrame (held_messageToWire _) quietBytes_written []
  rwa [List.append_nil] at read

theorem quietBytes_understood : messageFromWire plainInts (messageToWire (.receipt quietReceipt)).sortKeys =
    .ok (some (.receipt quietReceipt)) := messageFromWire_of_sortKeys plainInts _ (sortKeys_sortKeys _)

variable [Crypto]

def quietServer : ServerConfig Int where
  node := ⟨"w", 10, .empty, 0, []⟩
  maxConnectionsPerPeer := 64
  peerRateCapacity := 1000
  peerRateRefill := 1000
  rateLimiter := { capacity := 1000, refillPerSecond := 1000, tokens := 1000, updatedAt := 0 }
  replayGuard := { maxEntries := 100000, ttlSeconds := 300 }

theorem quiet_log : ((quietServer.node.start []).receive (.receipt quietReceipt)).node.log =
    [.put (.receipt quietReceipt)] := rfl

variable [FloatFormat] [JsonValues]

/-- A peer connects, and its handler reads the receipt. -/
def afterConnect : Server Int :=
  (ServerLifeEvent.event (.connect "10.0.0.1" 0)).exec plainInts quietServer (quietServer.start [])

def afterReceipt : Server Int :=
  (ServerLifeEvent.event (.bytes 0 quietBytes ⟨1, 1, 1⟩)).exec plainInts quietServer afterConnect

theorem afterConnect_life : ServerLife plainInts quietServer afterConnect := by
  refine GuardedRun.refl.tail ?_
  rintro connection stream times ⟨⟩

theorem afterReceipt_life : ServerLife plainInts quietServer afterReceipt := by
  refine afterConnect_life.tail ?_
  rintro connection stream times ⟨⟩ frame rest read untyped
  rw [quietBytes_read] at read
  cases read
  rw [quietBytes_understood] at untyped
  cases untyped

theorem afterReceipt_running : (afterReceipt).running =
    (quietServer.node.start []).receive (.receipt quietReceipt) := by
  have passes : ∃ gate, FrameGate.receive "10.0.0.1" (messageToWire (.receipt quietReceipt)).sortKeys ⟨1, 1, 1⟩
      (afterConnect).gate = .ok .passed gate := ⟨_, rfl⟩
  obtain ⟨gate, passed⟩ := passes
  have there : (afterConnect).connections[0]? = some ⟨"10.0.0.1", false⟩ := rfl
  have ran : afterReceipt = (afterConnect).read plainInts 0 quietBytes ⟨1, 1, 1⟩ := rfl
  rw [ran, Server.read, there]
  simp only [quietBytes_read, passed, dispatchFrame, quietBytes_understood]
  rfl

end Quiet

/-- The receipt comes to the handler, and into the store. -/
theorem ServerLife.node_receipt : let _ := Crypto.ideal; let _ := FloatFormat.half; let _ := FrameGate.plainValues
    .put (.receipt quietReceipt) ∈ afterReceipt.running.node.log ∧
      Life quietServer.node (fun _ event => event.taken.Framed plainInts) afterReceipt.running := by
  intro _ _ _
  refine ⟨?_, ServerLife.node afterReceipt_life⟩
  rw [afterReceipt_running, quiet_log]
  exact List.mem_singleton.mpr rfl

/-- The one connection is counted. -/
theorem ServerRun.connections_counted_one :
    let _ := Crypto.ideal; let _ := FloatFormat.half; let _ := FrameGate.plainValues
    afterConnect.gate.peerConnections.get? "10.0.0.1" = some 1 := by
  intro _ _ _
  have open' : afterConnect.openTo "10.0.0.1" = 1 := rfl
  have run : ServerRun plainInts quietServer afterConnect := afterConnect_life.mono fun _ _ _ => trivial
  have counted := (ServerRun.connections_counted run (by decide) "10.0.0.1").1
  rw [open'] at counted
  exact counted

end Mosaic
