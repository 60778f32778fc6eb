import Mosaic.EventChain

namespace Mosaic
open CanonicalJson Effects Lines HashChain

theorem isWhitespace_of_isSpace {c : Char} (space : isSpace c = true) : isWhitespace c = true := by
  simp only [isSpace, Bool.or_eq_true, decide_eq_true_eq] at space
  rcases space with ((rfl | rfl) | rfl) | rfl <;> decide

theorem isWhitespace_printable {c : Char} (white : isWhitespace c = true) (printable : Printable c) : c = ' ' := by
  obtain ⟨lower, upper⟩ := printable
  simp only [isWhitespace, Bool.or_eq_true, Bool.and_eq_true, decide_eq_true_eq, List.mem_cons, List.not_mem_nil,
    or_false] at white
  have code : c.toNat = 32 := by omega
  rw [← Char.ofNat_toNat c, code]

/-- White space does not begin a value. -/
theorem begin_whitespace {c : Char} (white : isWhitespace c = true) (stack : List Frame) : begin c stack = none := by
  by_cases printable : Printable c
  · rw [isWhitespace_printable white printable]
    rfl
  · have other {d : Char} (printable' : Printable d) : c ≠ d := by
      rintro rfl
      exact printable printable'
    have word : isNumberChar c = false := by
      rw [← Bool.not_eq_true]
      exact fun number => printable (printable_number number)
    rw [begin, if_neg (other ⟨by decide, by decide⟩), if_neg (other ⟨by decide, by decide⟩),
      if_neg (other ⟨by decide, by decide⟩), word, if_neg Bool.false_ne_true]

theorem not_isLineBreak_of_printable {c : Char} (printable : Printable c) : isLineBreak c = false := by
  obtain ⟨lower, upper⟩ := printable
  simp only [isLineBreak, List.mem_cons, List.not_mem_nil, or_false, decide_eq_false_iff_not, not_or]
  omega

theorem line_free {written : Json} {c : Char} (member : c ∈ (dumps written).toList) : isLineBreak c = false :=
  not_isLineBreak_of_printable (printable_dumps member)

section Lines
variable [FloatFormat] {lines lines' : List (List Char)} {line : List Char} {events : List Json}

theorem readLines_append : readLines (lines ++ lines') =
    readLines lines >>= fun events => readLines lines' >>= fun events' => .ok (events ++ events') := by
  rw [readLines, List.filter_append, List.mapM_append]
  rfl

theorem readLines_blank (blank : isBlank line = true) : readLines [line] = .ok [] := by
  rw [readLines, List.filter_cons_of_neg (by simp [blank])]
  rfl

theorem readLines_single (some' : isBlank line = false) :
    readLines [line] = parseLine line >>= fun event => .ok [event] := by
  rw [readLines, List.filter_cons_of_pos (by simp [some'])]
  rfl

/-- After white space that JSON does not know nothing is read. -/
theorem loads_after_whitespace {before : List Char} (blank : isBlank before = true)
    (other : ∃ c ∈ before, isSpace c = false) (rest : List Char) : loads (before ++ rest) = none := by
  induction before with
  | nil =>
    obtain ⟨c, member, -⟩ := other
    cases member
  | cons c before ih =>
    obtain ⟨white, later⟩ := Bool.and_eq_true_iff.mp blank
    cases space : isSpace c with
    | false => exact loads_of_begin space (begin_whitespace white []) _
    | true =>
      obtain ⟨d, member, notSpace⟩ := other
      have further : d ∈ before := by
        refine (List.mem_cons.mp member).resolve_left ?_
        rintro rfl
        rw [space] at notSpace
        cases notSpace
      have here : ∀ e ∈ [c], isSpace e = true := by simpa using space
      exact (loads_spaces here _).trans (ih later ⟨d, further, notSpace⟩)

/-- The lines of the file before and after an event has been written. -/
theorem lines_before (text : List Char) : readLines (splitLines isLineBreak text) =
    readLines (splitLines isLineBreak (finished isLineBreak text)) >>= fun events =>
      readLines (if unfinished isLineBreak text = [] then [] else [unfinished isLineBreak text]) >>= fun last =>
        .ok (events ++ last) := by
  rw [splitLines_eq, readLines_append]

theorem lines_after (text : List Char) (written : Json) :
    readLines (splitLines isLineBreak (text ++ ((dumps written).toList ++ ['\n']))) =
      readLines (splitLines isLineBreak (finished isLineBreak text)) >>= fun events =>
        readLines [unfinished isLineBreak text ++ (dumps written).toList] >>= fun last => .ok (events ++ last) := by
  rw [splitLines_append_line text (fun _ => line_free) (by decide), readLines_append]

end Lines

section Written
variable [Crypto] [FloatFormat] {log log' : EventLog} {time : ClockTime} {kind nodeId : String} {payload : Payload}
  {event : Json} {events : List Json}

/-- The members of the event that `append` writes. -/
def appended (log : EventLog) (time : ClockTime) (kind nodeId : String) (payload : Payload) : List (String × Json) :=
  let event := identified (eventBody log time kind nodeId payload)
  hashed event (eventDigest (.obj event) log.lastHash)

/-- A call that is not refused. -/
structure Accepted (kind nodeId : String) (payload : Payload) : Prop where
  keywords : ∀ key ∈ ["self", "kind", "node_id"], key ∉ payload.fields.map Prod.fst
  kind : kind ≠ ""
  nodeId : nodeId ≠ ""

theorem append_eq_ok : log.append time kind nodeId payload = .ok (event, log') ↔ Accepted kind nodeId payload ∧
    event = .obj (appended log time kind nodeId payload) ∧ log' = { log with
      file := some (log.text ++ ((dumps (.obj (appended log time kind nodeId payload))).toList ++ ['\n']))
      lastHash := link log.lastHash (.obj (identified (eventBody log time kind nodeId payload))) } := by
  unfold EventLog.append
  by_cases clash : ∃ key ∈ ["self", "kind", "node_id"], key ∈ payload.fields.map Prod.fst
  · rw [if_pos clash]
    refine iff_of_false (fun same => by cases same) fun both => ?_
    obtain ⟨key, named, given⟩ := clash
    exact both.1.keywords key named given
  rw [if_neg clash]
  by_cases empty : kind = "" ∨ nodeId = ""
  · rw [if_pos empty]
    refine iff_of_false (fun same => by cases same) fun both => ?_
    exact empty.elim both.1.kind both.1.nodeId
  rw [if_neg empty]
  have accepted : Accepted kind nodeId payload :=
    ⟨fun key named given => clash ⟨key, named, given⟩, fun none => empty (Or.inl none), fun none => empty (Or.inr none)⟩
  constructor
  · intro same
    cases same
    exact ⟨accepted, rfl, rfl⟩
  · rintro ⟨-, rfl, rfl⟩
    rfl

theorem bodyOf_appended : bodyOf (.obj (appended log time kind nodeId payload)) =
    .obj (identified (eventBody log time kind nodeId payload)) := by
  simp [bodyOf, Json.without, appended, hashed, identified, eventBody]

/-- The event fits after the hash that the handle keeps. -/
theorem chained_appended : Chained log.lastHash (.obj (appended log time kind nodeId payload)) := by
  refine ⟨_, rfl, rfl, ?_⟩
  rw [bodyOf_appended]
  rfl

theorem held_appended : (Json.obj (appended log time kind nodeId payload)).Held := by
  have time' := time.held
  have payload' := payload.held
  rw [Json.Held] at time'
  rw [Json.Held] at payload'
  rw [Json.Held]
  refine ⟨by simp [appended, hashed, identified, eventBody], ?_⟩
  simp only [appended, hashed, identified, eventBody, List.cons_append, List.nil_append, HeldFields, Json.Held, true_and,
    and_true]
  exact ⟨time', payload'⟩

theorem dumps_appended : ∃ rest, (dumps (.obj (appended log time kind nodeId payload))).toList = '{' :: rest :=
  ⟨_, String.toList_ofList⟩

/-- A line that an event has been written to is no blank line. -/
theorem written_not_blank (before : List Char) :
    isBlank (before ++ (dumps (.obj (appended log time kind nodeId payload))).toList) = false := by
  obtain ⟨rest, line⟩ := @dumps_appended _ _ log time kind nodeId payload
  rw [line, isBlank, List.all_eq_false]
  exact ⟨'{', List.mem_append_right _ List.mem_cons_self, by decide⟩

/-- After white space the event is read back. -/
theorem loads_after_spaces {spaces : List Char} (blank : ∀ c ∈ spaces, isSpace c = true) :
    loads (spaces ++ (dumps (.obj (appended log time kind nodeId payload))).toList) =
      some (Json.obj (appended log time kind nodeId payload)).sortKeys := by
  rw [loads_spaces blank, loads_dumps held_appended]

namespace EventLog

/-- The handle keeps the hash of the last event in the file. -/
def Current (log : EventLog) : Prop := ∃ events, log.read = .ok events ∧ lastHashOf events = .ok log.lastHash

/-- The last line of the file is ended, or it holds white space only. -/
def LineEnded (log : EventLog) : Prop := ∀ c ∈ unfinished isLineBreak log.text, isSpace c = true

theorem verify_eq_ok : log.verify = .ok true ↔ ∃ events, log.read = .ok events ∧ verifyEvents "GENESIS" events = .ok true :=
  except_bind_eq_ok

end EventLog

/-- An event on a line of its own comes after those that were there. -/
theorem read_appended_of_ended (ended : log.LineEnded) (read : log.read = .ok events)
    (ran : log.append time kind nodeId payload = .ok (event, log')) :
    log'.read = .ok (events ++ [event.sortKeys]) := by
  obtain ⟨-, rfl, rfl⟩ := append_eq_ok.mp ran
  have blank : isBlank (unfinished isLineBreak log.text) = true :=
    List.all_eq_true.mpr fun c member => isWhitespace_of_isSpace (ended c member)
  have nothing : readLines (if unfinished isLineBreak log.text = [] then [] else [unfinished isLineBreak log.text]) =
      .ok [] := by
    split
    · rfl
    · exact readLines_blank blank
  have parsed : loads (unfinished isLineBreak log.text ++ (dumps (.obj (appended log time kind nodeId payload))).toList) =
      some (Json.obj (appended log time kind nodeId payload)).sortKeys := loads_after_spaces ended
  rw [EventLog.read, lines_before, nothing] at read
  obtain ⟨before, readBefore, same⟩ := except_bind_eq_ok.mp read
  cases same
  refine (lines_after log.text _).trans ?_
  rw [readBefore, readLines_single (written_not_blank _), parseLine, parsed, List.append_nil]
  rfl

/-- An event that goes on with a line makes the file unreadable. -/
theorem read_appended_of_unfinished (unended : ¬ log.LineEnded) (read : log.read = .ok events)
    (objects : ∀ event ∈ events, ∃ fields, event = .obj fields)
    (ran : log.append time kind nodeId payload = .ok (event, log')) (events' : List Json) :
    log'.read ≠ .ok events' := by
  obtain ⟨-, rfl, rfl⟩ := append_eq_ok.mp ran
  have some' : ∃ c ∈ unfinished isLineBreak log.text, isSpace c = false := by
    simpa [EventLog.LineEnded] using unended
  have garbled : loads (unfinished isLineBreak log.text ++
      (dumps (.obj (appended log time kind nodeId payload))).toList) = none := by
    cases blank : isBlank (unfinished isLineBreak log.text) with
    | true => exact loads_after_whitespace blank some' _
    | false =>
      -- the last line has an event, and no more data may follow it
      have long : unfinished isLineBreak log.text ≠ [] := by
        obtain ⟨c, member, -⟩ := some'
        exact List.ne_nil_of_mem member
      rw [EventLog.read, lines_before, if_neg long, readLines_single blank] at read
      obtain ⟨before, -, read⟩ := except_bind_eq_ok.mp read
      obtain ⟨last, readLast, same⟩ := except_bind_eq_ok.mp read
      obtain ⟨value, parsed, only⟩ := except_bind_eq_ok.mp readLast
      cases only
      cases same
      obtain ⟨fields, rfl⟩ := objects value (List.mem_append_right _ (List.mem_singleton_self _))
      have whole : loads (unfinished isLineBreak log.text) = some (.obj fields) := by
        rw [parseLine] at parsed
        split at parsed
        · cases parsed
          assumption
        · cases parsed
      obtain ⟨rest, line⟩ := @dumps_appended _ _ log time kind nodeId payload
      rw [line]
      exact loads_append_of_obj whole (by decide) rest
  intro readAfter
  have readAfter := (lines_after log.text _).symm.trans readAfter
  rw [readLines_single (written_not_blank _), parseLine, garbled] at readAfter
  obtain ⟨before, -, readAfter⟩ := except_bind_eq_ok.mp readAfter
  cases readAfter

theorem verify_appended_iff (verified : log.verify = .ok true)
    (ran : log.append time kind nodeId payload = .ok (event, log')) :
    log'.verify = .ok true ↔ log.Current ∧ log.LineEnded := by
  obtain ⟨events, read, chain⟩ := EventLog.verify_eq_ok.mp verified
  have last := lastHashOf_verified chain
  have fits : Chained log.lastHash event.sortKeys := by
    obtain ⟨-, rfl, -⟩ := append_eq_ok.mp ran
    exact chained_appended.congr (sortKeys_sortKeys _)
  rw [EventLog.verify_eq_ok]
  constructor
  · rintro ⟨events', readAfter, chainAfter⟩
    have ended : log.LineEnded := by
      by_contra unended
      exact read_appended_of_unfinished unended read (isObj_of_verified chain) ran events' readAfter
    rw [read_appended_of_ended ended read ran, Except.ok.injEq] at readAfter
    subst readAfter
    obtain ⟨-, next⟩ := verifyEvents_snoc.mp chainAfter
    refine ⟨⟨events, read, ?_⟩, ended⟩
    rw [last, next.previous_eq fits]
  · rintro ⟨⟨events', read', current⟩, ended⟩
    rw [read, Except.ok.injEq] at read'
    subst read'
    refine ⟨_, read_appended_of_ended ended read ran, verifyEvents_snoc.mpr ⟨chain, ?_⟩⟩
    rw [last, Except.ok.injEq] at current
    rw [current]
    exact fits

/-- The file of a log that verifies can be opened again. -/
theorem EventLog.reopens (verified : log.verify = .ok true) (networkId softwareVersion : String) :
    ∃ reopened, EventLog.new log.file networkId softwareVersion = .ok reopened ∧ reopened.verify = .ok true := by
  obtain ⟨events, read, chain⟩ := EventLog.verify_eq_ok.mp verified
  refine ⟨⟨log.file, networkId, softwareVersion, tip link "GENESIS" (events.map bodyOf)⟩, ?_,
    EventLog.verify_eq_ok.mpr ⟨events, read, chain⟩⟩
  exact except_bind_eq_ok.mpr ⟨events, read, except_bind_eq_ok.mpr ⟨_, lastHashOf_verified chain, rfl⟩⟩

/-- The last hash commits to the whole log, and an event can be appended to a log
that verifies when the handle is up to date and the last line is ended. -/
theorem event_log_commits (free : CollisionFree) (never : NeverGenesis) :
    (∀ events events' : List Json, verifyEvents "GENESIS" events = .ok true → verifyEvents "GENESIS" events' = .ok true →
      lastHashOf events = lastHashOf events' → events.map Json.sortKeys = events'.map Json.sortKeys) ∧
    ∀ (log : EventLog) (time : ClockTime) (kind nodeId : String) (payload : Payload), log.verify = .ok true →
      ((∃ event log', log.append time kind nodeId payload = .ok (event, log') ∧ log'.verify = .ok true ∧
        ∀ networkId softwareVersion, ∃ reopened, EventLog.new log'.file networkId softwareVersion = .ok reopened ∧
          reopened.verify = .ok true) ↔ Accepted kind nodeId payload ∧ log.Current ∧ log.LineEnded) := by
  refine ⟨fun _ _ verified verified' same => events_eq_of_lastHash free never verified verified' same, ?_⟩
  intro log time kind nodeId payload verified
  constructor
  · rintro ⟨event, log', ran, verifiedAfter, -⟩
    exact ⟨(append_eq_ok.mp ran).1, (verify_appended_iff verified ran).mp verifiedAfter⟩
  · rintro ⟨accepted, ready⟩
    obtain ⟨event, log', ran⟩ : ∃ event log', log.append time kind nodeId payload = .ok (event, log') :=
      ⟨_, _, append_eq_ok.mpr ⟨accepted, rfl, rfl⟩⟩
    have verifiedAfter := (verify_appended_iff verified ran).mpr ready
    exact ⟨event, log', ran, verifiedAfter, EventLog.reopens verifiedAfter⟩

end Written

section First

/-- Every number is read as one half. -/
@[reducible] def FloatFormat.half : FloatFormat where
  rounded _ := ⟨['0', '.', '5'], List.all_eq_true.mp rfl, ⟨'0', ['.', '5'], rfl, rfl⟩, ⟨'.', by simp, rfl, by decide⟩⟩

def halfPast : @ClockTime FloatFormat.half := @ClockTime.mk FloatFormat.half (FloatFormat.half.rounded []) ⟨rfl, rfl⟩

def portPayload : @Payload FloatFormat.half :=
  @Payload.mk FloatFormat.half [("port", .int 20300)] ⟨by simp, trivial, trivial⟩

def freshLog : EventLog := ⟨none, "mosaic-testnet-0", "0.1.0", "GENESIS"⟩

theorem ideal_neverGenesis : @NeverGenesis Crypto.ideal := by
  intro value same
  have bytes : canonicalBytes value = (String.ofList "GENESIS".toList).toByteArray.data.toList :=
    ideal_collisionFree same
  have texts := String.ofList_injective (String.toByteArray_inj.mp (ByteArray.ext (Array.toList_inj.mp bytes)))
  obtain ⟨c, cs, starts, shape⟩ := render_head value.sortKeys
  rw [starts] at texts
  cases (List.cons.inj texts).1
  cases shape

theorem accepted_port : let _ := FloatFormat.half; Accepted "node_started" "w0" portPayload := by
  intro _
  refine ⟨?_, by decide, by decide⟩
  change ∀ key ∈ ["self", "kind", "node_id"], key ∉ ["port"]
  decide

theorem event_log_commits_fresh : let _ := Crypto.ideal; let _ := FloatFormat.half
    ∃ event log', freshLog.append halfPast "node_started" "w0" portPayload = .ok (event, log') ∧
      log'.verify = .ok true := by
  intro _ _
  obtain ⟨event, log', ran, verified, -⟩ := ((event_log_commits ideal_collisionFree ideal_neverGenesis).2 freshLog
    halfPast "node_started" "w0" portPayload rfl).mpr
      ⟨accepted_port, ⟨[], rfl, rfl⟩, fun _ member => nomatch member⟩
  exact ⟨event, log', ran, verified⟩

/-- The line of the first event without the break at its end. -/
def unendedLog [Crypto] [FloatFormat] (time : ClockTime) (payload : Payload) : EventLog :=
  let event := appended freshLog time "node_started" "w0" payload
  { freshLog with
    file := some (dumps (.obj event)).toList
    lastHash := link "GENESIS" (bodyOf (.obj event)) }

theorem unendedLog_verify [Crypto] [FloatFormat] (time : ClockTime) (payload : Payload) :
    (unendedLog time payload).verify = .ok true := by
  let event := appended freshLog time "node_started" "w0" payload
  have some' : (dumps (.obj event)).toList ≠ [] := by
    obtain ⟨rest, line⟩ := @dumps_appended _ _ freshLog time "node_started" "w0" payload
    rw [line]
    exact List.cons_ne_nil _ _
  have parsed : loads (dumps (.obj event)).toList = some (Json.obj event).sortKeys := loads_dumps held_appended
  have read : (unendedLog time payload).read = .ok [(Json.obj event).sortKeys] := by
    change readLines (splitLines isLineBreak (dumps (.obj event)).toList) = _
    have long := @written_not_blank _ _ freshLog time "node_started" "w0" payload []
    rw [List.nil_append] at long
    rw [splitLines_line (fun _ => line_free) some', readLines_single long, parseLine, parsed]
    rfl
  have fits : Chained "GENESIS" (Json.obj event).sortKeys := chained_appended.congr (sortKeys_sortKeys _)
  exact EventLog.verify_eq_ok.mpr ⟨_, read, verifyEvents_cons.mpr ⟨fits, rfl⟩⟩

theorem unendedLog_not_ended [Crypto] [FloatFormat] (time : ClockTime) (payload : Payload) :
    ¬ (unendedLog time payload).LineEnded := by
  intro ended
  obtain ⟨rest, line⟩ := @dumps_appended _ _ freshLog time "node_started" "w0" payload
  have whole : unfinished isLineBreak (unendedLog time payload).text = '{' :: rest :=
    (unfinished_line fun _ => line_free).trans line
  have brace := ended '{' (by rw [whole]; exact List.mem_cons_self)
  exact absurd brace (by decide)

/-- A log that verifies and whose file does not end in a line break. -/
theorem unended_append_fails : let _ := Crypto.ideal; let _ := FloatFormat.half
    ¬ ∀ (log : EventLog) (time : ClockTime) (kind nodeId : String) (payload : Payload), log.verify = .ok true →
      Accepted kind nodeId payload → ∃ event log', log.append time kind nodeId payload = .ok (event, log') ∧
        log'.verify = .ok true := by
  intro _ _ claim
  have verified := unendedLog_verify halfPast portPayload
  obtain ⟨event, log', ran, verifiedAfter⟩ := claim _ halfPast _ _ portPayload verified accepted_port
  exact unendedLog_not_ended halfPast portPayload ((verify_appended_iff verified ran).mp verifiedAfter).2

end First

section Handle
variable [Crypto] [FloatFormat] {log log' : EventLog} {time : ClockTime} {kind nodeId : String} {payload : Payload}
  {event : Json} {events : List Json}

/-- A log to which events can be appended. -/
structure EventLog.Sound (log : EventLog) : Prop where
  verified : log.verify = .ok true
  current : log.Current
  ended : log.LineEnded

theorem EventLog.Sound.append (sound : log.Sound) (ran : log.append time kind nodeId payload = .ok (event, log')) :
    log'.Sound := by
  obtain ⟨events, read, current⟩ := sound.current
  have readAfter := read_appended_of_ended sound.ended read ran
  refine ⟨(verify_appended_iff sound.verified ran).mpr ⟨sound.current, sound.ended⟩, ⟨_, readAfter, ?_⟩, ?_⟩
  · obtain ⟨-, rfl, rfl⟩ := append_eq_ok.mp ran
    have same : (Json.obj (sortFields (appended log time kind nodeId payload))).sortKeys =
        (Json.obj (appended log time kind nodeId payload)).sortKeys := sortKeys_sortKeys (.obj _)
    have hash := (chained_appended.congr same).hash
    rw [link_congr (without_congr same _)] at hash
    rw [lastHashOf_snoc current, Json.sortKeys, hash]
    exact congrArg (fun body => Except.ok (link log.lastHash body)) bodyOf_appended
  · obtain ⟨-, rfl, rfl⟩ := append_eq_ok.mp ran
    intro c member
    have none : unfinished isLineBreak (log.text ++
        ((dumps (.obj (appended log time kind nodeId payload))).toList ++ ['\n'])) = [] := by
      rw [← List.append_assoc]
      exact unfinished_eq_nil.mpr (Ended.snoc (by decide) _)
    have absent := member
    rw [EventLog.text, Option.getD_some, none] at absent
    cases absent

/-- One call of `append`. -/
structure AppendCall where
  time : ClockTime
  kind : String
  nodeId : String
  payload : Payload

/-- The handle after a call, whether or not it raised. -/
def EventLog.exec (log : EventLog) (call : AppendCall) : EventLog :=
  match log.append call.time call.kind call.nodeId call.payload with
  | .ok (_, log') => log'
  | .error _ => log

theorem EventLog.Sound.exec (sound : log.Sound) (call : AppendCall) : (log.exec call).Sound := by
  unfold EventLog.exec
  split
  · rename_i ran
    exact sound.append ran
  · exact sound

/-- A log that one handle has written verifies after every run of calls. -/
theorem EventLog.Sound.run (sound : log.Sound) (calls : List AppendCall) : (calls.foldl EventLog.exec log).Sound := by
  induction calls generalizing log with
  | nil => exact sound
  | cons call calls ih => exact ih (sound.exec call)

theorem new_sound (networkId softwareVersion : String) (opened : EventLog.new none networkId softwareVersion = .ok log) :
    log.Sound := by
  cases opened
  exact ⟨rfl, ⟨[], rfl, rfl⟩, fun _ member => nomatch member⟩

/-- A handle that another one has overtaken keeps a hash that is not the last. -/
theorem EventLog.Sound.overtaken (free : CollisionFree) (never : NeverGenesis) (sound : log.Sound)
    (ran : log.append time kind nodeId payload = .ok (event, log')) :
    ¬ ({ log' with lastHash := log.lastHash } : EventLog).Current := by
  rintro ⟨events', read', current'⟩
  have readAfter : log'.read = .ok events' := read'
  obtain ⟨events, read, chain⟩ := EventLog.verify_eq_ok.mp sound.verified
  obtain ⟨_, readAgain, current⟩ := sound.current
  cases read.symm.trans readAgain
  cases readAfter.symm.trans (read_appended_of_ended sound.ended read ran)
  obtain ⟨_, readOnce, chainAfter⟩ := EventLog.verify_eq_ok.mp (sound.append ran).verified
  cases readAfter.symm.trans readOnce
  have same := events_eq_of_lastHash free never chain chainAfter (current.trans current'.symm)
  have lengths := congrArg List.length same
  simp at lengths

end Handle

end Mosaic
