import Mosaic.EventLog
import Mosaic.Lib.HashChain
import Mosaic.Lib.JsonRoundTrip

namespace Mosaic
open CanonicalJson Effects Lines HashChain

section Chain
variable [Crypto] {previous : String} {event : Json} {events events' : List Json}

/-- No digest is the hash that a log starts from. -/
def NeverGenesis : Prop := ∀ value : Json, digest value ≠ "GENESIS"

/-- What an event adds to the chain. -/
abbrev link (previous : String) (body : Json) : String := eventDigest body previous

abbrev bodyOf (event : Json) : Json := event.without "event_hash"

/-- An event that fits after a hash. -/
def Chained (previous : String) (event : Json) : Prop :=
  ∃ fields, event = .obj fields ∧ fields.lookup "previous_event_hash" = some (.str previous) ∧
    fields.lookup "event_hash" = some (.str (link previous (bodyOf event)))

omit [Crypto] in
theorem refuse_unless {ε : Type} {passed : Bool} {rest : Except ε Bool} :
    (if !passed then pure false else rest) = .ok true ↔ passed = true ∧ rest = .ok true := by
  cases passed with
  | false => exact iff_of_false (fun same => by cases same) fun both => Bool.false_ne_true both.1
  | true => exact (and_iff_right rfl).symm

theorem verifyEvents_cons : verifyEvents previous (event :: events) = .ok true ↔
    Chained previous event ∧ verifyEvents (link previous (bodyOf event)) events = .ok true := by
  rw [verifyEvents]
  constructor
  · intro ran
    obtain ⟨before, readBefore, ran⟩ := except_bind_eq_ok.mp ran
    obtain ⟨fits, ran⟩ := refuse_unless.mp ran
    obtain ⟨eventHash, readHash, ran⟩ := except_bind_eq_ok.mp ran
    obtain ⟨correct, ran⟩ := refuse_unless.mp ran
    obtain ⟨fields, rfl, atPrevious⟩ := Json.get_isText_iff.mp ⟨before, readBefore, fits⟩
    obtain ⟨fields', same, atHash⟩ := Json.get_isText_iff.mp ⟨eventHash, readHash, correct⟩
    cases same
    exact ⟨⟨fields, rfl, atPrevious, atHash⟩, ran⟩
  · rintro ⟨⟨fields, rfl, atPrevious, atHash⟩, later⟩
    obtain ⟨before, readBefore, fits⟩ := Json.get_isText_iff.mpr ⟨fields, rfl, atPrevious⟩
    obtain ⟨eventHash, readHash, correct⟩ := Json.get_isText_iff.mpr ⟨fields, rfl, atHash⟩
    refine except_bind_eq_ok.mpr ⟨before, readBefore, refuse_unless.mpr ⟨fits, ?_⟩⟩
    exact except_bind_eq_ok.mpr ⟨eventHash, readHash, refuse_unless.mpr ⟨correct, later⟩⟩

theorem verifyEvents_append : verifyEvents previous (events ++ events') = .ok true ↔
    verifyEvents previous events = .ok true ∧ verifyEvents (tip link previous (events.map bodyOf)) events' = .ok true := by
  induction events generalizing previous with
  | nil => exact (and_iff_right rfl).symm
  | cons event events ih => rw [List.cons_append, verifyEvents_cons, verifyEvents_cons, ih, and_assoc]; rfl

theorem verifyEvents_snoc : verifyEvents previous (events ++ [event]) = .ok true ↔
    verifyEvents previous events = .ok true ∧ Chained (tip link previous (events.map bodyOf)) event := by
  rw [verifyEvents_append, verifyEvents_cons]
  exact and_congr_right fun _ => and_iff_left rfl

/-- An event fits after one hash only. -/
theorem Chained.previous_eq {previous' : String} (chained : Chained previous event) (chained' : Chained previous' event) :
    previous = previous' := by
  obtain ⟨fields, rfl, atPrevious, -⟩ := chained
  obtain ⟨_, ⟨⟩, atPrevious', -⟩ := chained'
  rw [atPrevious] at atPrevious'
  exact Json.str.inj (Option.some.inj atPrevious')

theorem Chained.hash (chained : Chained previous event) :
    field "event_hash" Json.text event = .ok (link previous (bodyOf event)) := by
  obtain ⟨fields, rfl, -, atHash⟩ := chained
  rw [field, Json.member, atHash]
  rfl

/-- The events of a log that verifies are dictionaries. -/
theorem isObj_of_verified (verified : verifyEvents previous events = .ok true) :
    ∀ event ∈ events, ∃ fields, event = .obj fields := by
  induction events generalizing previous with
  | nil => simp
  | cons event events ih =>
    obtain ⟨⟨fields, same, -⟩, later⟩ := verifyEvents_cons.mp verified
    exact List.forall_mem_cons.mpr ⟨⟨fields, same⟩, ih later⟩

omit [Crypto] in
theorem lastHashOf_snoc {hash : String} (before : lastHashOf events = .ok hash) (event : Json) :
    lastHashOf (events ++ [event]) = field "event_hash" Json.text event := by
  rw [lastHashOf] at before
  rw [lastHashOf, List.foldlM_append, before]
  exact bind_pure (field "event_hash" Json.text event)

/-- The last hash of a log that verifies. -/
theorem lastHashOf_verified (verified : verifyEvents "GENESIS" events = .ok true) :
    lastHashOf events = .ok (tip link "GENESIS" (events.map bodyOf)) := by
  induction events using List.reverseRecOn with
  | nil => rfl
  | append_singleton events event ih =>
    obtain ⟨before, chained⟩ := verifyEvents_snoc.mp verified
    rw [lastHashOf_snoc (ih before), chained.hash, List.map_append, List.map_singleton, tip_snoc]

theorem link_congr {body body' : Json} (same : body.sortKeys = body'.sortKeys) : link previous body = link previous body' := by
  rw [link, link, eventDigest, eventDigest, digest, digest, canonicalBytes, canonicalBytes]
  simp only [Json.sortKeys, sortFields, same]

/-- Whether an event fits does not depend on the order of its members. -/
theorem Chained.congr {event' : Json} (chained : Chained previous event) (same : event'.sortKeys = event.sortKeys) :
    Chained previous event' := by
  obtain ⟨fields, rfl, atPrevious, atHash⟩ := chained
  obtain ⟨fields', rfl, -⟩ := eq_obj_of_sortKeys same
  have found {key text : String} (there : fields.lookup key = some (.str text)) :
      fields'.lookup key = some (.str text) := by
    have lookups := lookup_eq_of_sortKeys same key
    rw [there] at lookups
    obtain ⟨value, there', equal⟩ := Option.map_eq_some_iff.mp lookups
    rw [there', eq_str_of_sortKeys equal]
  refine ⟨fields', rfl, found atPrevious, ?_⟩
  rw [link_congr (without_congr same _)]
  exact found atHash

theorem binding_link (free : CollisionFree) (never : NeverGenesis) : Binding link "GENESIS" Json.sortKeys where
  before previous previous' body body' same := by
    have members : some (Json.str previous) = some (.str previous') :=
      lookup_eq_of_digest free same "previous_event_hash"
    exact Json.str.inj (Option.some.inj members)
  body previous previous' body body' same := by
    have members : some body.sortKeys = some body'.sortKeys := lookup_eq_of_digest free same "event"
    exact Option.some.inj members
  fresh previous body := never _

/-- Two events that fit after one hash are equal where their bodies are. -/
theorem Chained.sortKeys_eq {event' : Json} (chained : Chained previous event) (chained' : Chained previous event')
    (same : (bodyOf event).sortKeys = (bodyOf event').sortKeys) : event.sortKeys = event'.sortKeys := by
  obtain ⟨fields, rfl, -, atHash⟩ := chained
  obtain ⟨fields', rfl, -, atHash'⟩ := chained'
  rw [link_congr same] at atHash
  exact sortKeys_eq_of_without atHash atHash' same

theorem events_eq_of_bodies (verified : verifyEvents previous events = .ok true)
    (verified' : verifyEvents previous events' = .ok true)
    (same : (events.map bodyOf).map Json.sortKeys = (events'.map bodyOf).map Json.sortKeys) :
    events.map Json.sortKeys = events'.map Json.sortKeys := by
  induction events generalizing previous events' with
  | nil =>
    cases events' with
    | nil => rfl
    | cons event' events' => cases same
  | cons event events ih =>
    cases events' with
    | nil => cases same
    | cons event' events' =>
      obtain ⟨here, later⟩ := List.cons.inj same
      obtain ⟨chained, verified⟩ := verifyEvents_cons.mp verified
      obtain ⟨chained', verified'⟩ := verifyEvents_cons.mp verified'
      rw [← link_congr here] at verified'
      rw [List.map_cons, List.map_cons, chained.sortKeys_eq chained' here, ih verified verified' later]

/-- Logs that verify and have one last hash are the same log. -/
theorem events_eq_of_lastHash (free : CollisionFree) (never : NeverGenesis)
    (verified : verifyEvents "GENESIS" events = .ok true) (verified' : verifyEvents "GENESIS" events' = .ok true)
    (same : lastHashOf events = lastHashOf events') : events.map Json.sortKeys = events'.map Json.sortKeys := by
  rw [lastHashOf_verified verified, lastHashOf_verified verified', Except.ok.injEq] at same
  exact events_eq_of_bodies verified verified' ((binding_link free never).commits same)

end Chain

end Mosaic
