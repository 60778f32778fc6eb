import Mosaic.Lib.Effects
import Mosaic.Lib.RecentQueue
import Mathlib.Algebra.Order.Field.Basic

namespace Mosaic
open Effects

inductive SecurityFault
  | securityError (message : String)
  | keyError
  | typeError
  | attributeError

/-- The messages that were seen, in the order in which they came. Times are of any type with the
operations that the code uses. -/
structure ReplayGuard (ι T : Type) where
  maxEntries : Int
  ttlSeconds : T
  seen : List (ι × T) := []

namespace ReplayGuard

variable {ι T : Type} [BEq ι] [Sub T] [LT T] [DecidableLT T]

def withSeen (g : ReplayGuard ι T) (seen : List (ι × T)) : ReplayGuard ι T := { g with seen := seen }

/-- The entries that are not too old. -/
def expire (now : T) (g : ReplayGuard ι T) : ReplayGuard ι T :=
  g.withSeen (g.seen.filter fun entry => ¬ g.ttlSeconds < now - entry.2)

/-- `message_id in self._seen`. -/
def holds (g : ReplayGuard ι T) (messageId : ι) : Bool := g.seen.any fun entry => entry.1 == messageId

def accept (messageId : ι) (now : T) : EStateM SecurityFault (ReplayGuard ι T) Bool := do
  modify (expire now)
  let g ← get
  if g.holds messageId then
    return false
  else
    modify fun g => g.withSeen (RecentQueue.trim g.maxEntries (g.seen ++ [(messageId, now)]))
    -- `popitem` has nothing left to take when the bound is negative.
    raiseIf (g.maxEntries < 0) .keyError
    return true

end ReplayGuard

structure TokenBucket (T : Type) where
  capacity : T
  refillPerSecond : T
  tokens : T
  updatedAt : T

namespace TokenBucket

variable {T : Type} [Zero T] [Add T] [Sub T] [Mul T] [Min T] [Max T] [LE T] [LT T] [DecidableLE T] [DecidableLT T]

/-- `__post_init__`. -/
def create (capacity refillPerSecond now : T) : Except SecurityFault (TokenBucket T) := do
  refuseIf (capacity ≤ 0 ∨ refillPerSecond ≤ 0) (.securityError "bucket parameters must be positive")
  return { capacity, refillPerSecond, tokens := capacity, updatedAt := now }

/-- The tokens that have come in since the last call. -/
def refill (now : T) (b : TokenBucket T) : TokenBucket T :=
  { b with
    tokens := min b.capacity (b.tokens + max 0 (now - b.updatedAt) * b.refillPerSecond)
    updatedAt := now }

def spend (amount : T) (b : TokenBucket T) : TokenBucket T := { b with tokens := b.tokens - amount }

def allow (amount now : T) : EStateM SecurityFault (TokenBucket T) Bool := do
  raiseIf (amount ≤ 0) (.securityError "amount must be positive")
  modify (refill now)
  let b ← get
  if b.tokens < amount then
    return false
  else
    modify (spend amount)
    return true

end TokenBucket

namespace ReplayGuard

variable {ι T : Type} [BEq ι] [Sub T] [LT T] [DecidableLT T] {g next : ReplayGuard ι T} {messageId : ι} {now : T}

/-- The guard when it has taken a message. -/
def taken (g : ReplayGuard ι T) (messageId : ι) (now : T) : ReplayGuard ι T :=
  (g.expire now).withSeen (RecentQueue.trim g.maxEntries ((g.expire now).seen ++ [(messageId, now)]))

theorem accept_eq (g : ReplayGuard ι T) (messageId : ι) (now : T) : accept messageId now g =
    if (g.expire now).holds messageId then .ok false (g.expire now)
    else if g.maxEntries < 0 then .error .keyError (g.taken messageId now)
    else .ok true (g.taken messageId now) := by
  have start : accept messageId now g = (if (g.expire now).holds messageId = true then return false else do
      modify fun g => g.withSeen (RecentQueue.trim g.maxEntries (g.seen ++ [(messageId, now)]))
      raiseIf ((g.expire now).maxEntries < 0) .keyError
      return true : EStateM SecurityFault (ReplayGuard ι T) Bool) (g.expire now) := rfl
  rw [start]
  by_cases held : (g.expire now).holds messageId = true
  · rw [if_pos held, if_pos held]
    rfl
  · rw [if_neg held, if_neg held, bind_apply, modify_apply]
    by_cases negative : g.maxEntries < 0
    · rw [if_pos negative]
      exact raiseIf_bind_pos negative _ _ _
    · rw [if_neg negative]
      exact raiseIf_bind_neg negative _ _ _

theorem accept_refused (ran : accept messageId now g = .ok false next) :
    (g.expire now).holds messageId = true ∧ next = g.expire now := by
  rw [accept_eq] at ran
  split at ran
  · rename_i held
    cases ran
    exact ⟨held, rfl⟩
  · split at ran <;> cases ran

/-- A message that is refused was seen, and not too long ago. -/
theorem seen_of_holds (held : (g.expire now).holds messageId = true) :
    ∃ entry ∈ g.seen, (entry.1 == messageId) = true ∧ ¬ g.ttlSeconds < now - entry.2 := by
  obtain ⟨entry, member, same⟩ := List.any_eq_true.mp held
  obtain ⟨inSeen, recent⟩ := List.mem_filter.mp member
  exact ⟨entry, inSeen, same, of_decide_eq_true recent⟩

omit [BEq ι] in
/-- Nothing comes in but the message of the call. -/
theorem mem_taken {entry : ι × T} (member : entry ∈ (g.taken messageId now).seen) :
    entry ∈ g.seen ∨ entry = (messageId, now) := by
  have inQueue := (RecentQueue.trim_suffix _ _).subset member
  rcases List.mem_append.mp inQueue with old | new
  · exact Or.inl (List.mem_filter.mp old).1
  · exact Or.inr (List.mem_singleton.mp new)

/-- However the call ends, an entry was there or is that of a call that returns. -/
theorem mem_final_accept {entry : ι × T} (member : entry ∈ (final (accept messageId now) g).seen) :
    entry ∈ g.seen ∨ entry = (messageId, now) ∧ ∃ next, accept messageId now g = .ok true next := by
  have run := accept_eq g messageId now
  by_cases held : (g.expire now).holds messageId = true
  · rw [if_pos held] at run
    rw [final_of_ok run] at member
    exact Or.inl (List.mem_filter.mp member).1
  · rw [if_neg held] at run
    by_cases negative : g.maxEntries < 0
    · rw [if_pos negative] at run
      rw [final_of_error run, taken, withSeen, RecentQueue.trim_of_neg negative] at member
      cases member
    · rw [if_neg negative] at run
      rw [final_of_ok run] at member
      exact (mem_taken member).imp_right fun same => ⟨same, _, run⟩

/-- The bounds are never changed. -/
theorem final_accept_bounds (g : ReplayGuard ι T) (messageId : ι) (now : T) :
    (final (accept messageId now) g).maxEntries = g.maxEntries ∧
      (final (accept messageId now) g).ttlSeconds = g.ttlSeconds := by
  have run := accept_eq g messageId now
  by_cases held : (g.expire now).holds messageId = true
  · rw [if_pos held] at run
    rw [final_of_ok run]
    exact ⟨rfl, rfl⟩
  · rw [if_neg held] at run
    by_cases negative : g.maxEntries < 0
    · rw [if_pos negative] at run
      rw [final_of_error run]
      exact ⟨rfl, rfl⟩
    · rw [if_neg negative] at run
      rw [final_of_ok run]
      exact ⟨rfl, rfl⟩

end ReplayGuard

end Mosaic
