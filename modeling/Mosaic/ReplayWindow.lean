import Mosaic.Security
import Mathlib.Algebra.Order.Group.Defs
import Mathlib.Algebra.Order.Group.Unbundled.Basic
import Mathlib.Data.Finset.Card

namespace Mosaic
open Effects

namespace ReplayGuard

variable {ι T : Type}

def fresh (maxEntries : Int) (ttlSeconds : T) : ReplayGuard ι T := { maxEntries, ttlSeconds }

section Runs
variable [BEq ι] [Sub T] [LT T] [DecidableLT T]

/-- Whether the call takes the message. -/
def takes (g : ReplayGuard ι T) (messageId : ι) (now : T) : Bool :=
  match accept messageId now g with
  | .ok answer _ => answer
  | .error _ _ => false

/-- The guard after the calls. -/
def after (g : ReplayGuard ι T) : List (ι × T) → ReplayGuard ι T
  | [] => g
  | (messageId, now) :: calls => after (final (accept messageId now) g) calls

/-- The messages that the calls take. -/
def accepted (g : ReplayGuard ι T) : List (ι × T) → List ι
  | [] => []
  | (messageId, now) :: calls =>
    if g.takes messageId now then messageId :: accepted (final (accept messageId now) g) calls
    else accepted (final (accept messageId now) g) calls

variable {g : ReplayGuard ι T} {messageId : ι} {now : T}

theorem after_append (g : ReplayGuard ι T) (earlier later : List (ι × T)) :
    g.after (earlier ++ later) = (g.after earlier).after later := by
  induction earlier generalizing g with
  | nil => rfl
  | cons call earlier ih => exact ih _

theorem takes_of_ok {next : ReplayGuard ι T} (run : accept messageId now g = .ok true next) :
    g.takes messageId now = true := by rw [takes, run]

/-- What a guard with a bound makes of a call. -/
theorem accept_cases (natural : 0 ≤ g.maxEntries) (messageId : ι) (now : T) :
    (g.expire now).holds messageId = true ∧ accept messageId now g = .ok false (g.expire now) ∨
      (g.expire now).holds messageId = false ∧ accept messageId now g = .ok true (g.taken messageId now) := by
  have run := accept_eq g messageId now
  cases held : (g.expire now).holds messageId with
  | true => exact Or.inl ⟨rfl, run.trans (if_pos held)⟩
  | false =>
    rw [held, if_neg (by decide), if_neg (by omega)] at run
    exact Or.inr ⟨rfl, run⟩

theorem after_bounds (g : ReplayGuard ι T) (calls : List (ι × T)) :
    (g.after calls).maxEntries = g.maxEntries ∧ (g.after calls).ttlSeconds = g.ttlSeconds := by
  induction calls generalizing g with
  | nil => exact ⟨rfl, rfl⟩
  | cons call calls ih =>
    obtain ⟨entries, ttl⟩ := ih (final (accept call.1 call.2) g)
    obtain ⟨entries', ttl'⟩ := final_accept_bounds g call.1 call.2
    exact ⟨entries.trans entries', ttl.trans ttl'⟩

/-- A call leaves no more than the bound where there were no more. -/
theorem length_final_accept (natural : 0 ≤ g.maxEntries) (few : (g.seen.length : Int) ≤ g.maxEntries) (messageId : ι)
    (now : T) : ((final (accept messageId now) g).seen.length : Int) ≤ g.maxEntries := by
  rcases accept_cases natural messageId now with ⟨-, run⟩ | ⟨-, run⟩
  · have fewer : (g.expire now).seen.length ≤ g.seen.length := List.length_filter_le _ _
    rw [final_of_ok run]
    omega
  · rw [final_of_ok run]
    exact RecentQueue.length_trim_le natural _

theorem length_after (natural : 0 ≤ g.maxEntries) (few : (g.seen.length : Int) ≤ g.maxEntries) (calls : List (ι × T)) :
    ((g.after calls).seen.length : Int) ≤ g.maxEntries := by
  induction calls generalizing g with
  | nil => exact few
  | cons call calls ih =>
    obtain ⟨entries, -⟩ := final_accept_bounds g call.1 call.2
    have here := length_final_accept natural few call.1 call.2
    rw [← entries] at natural here ⊢
    exact ih natural here

/-- What is in the guard was taken by one of the calls. -/
theorem origin_of_mem {calls : List (ι × T)} (empty : g.seen = []) {messageId : ι} {t : T}
    (member : (messageId, t) ∈ (g.after calls).seen) :
    ∃ before between, calls = before ++ (messageId, t) :: between ∧ (g.after before).takes messageId t = true := by
  induction calls using List.reverseRecOn with
  | nil =>
    rw [after, empty] at member
    cases member
  | append_singleton calls call ih =>
    rw [after_append] at member
    rcases mem_final_accept member with old | ⟨same, next, run⟩
    · obtain ⟨before, between, split, taken⟩ := ih old
      exact ⟨before, between ++ [call], by rw [split, List.append_assoc, List.cons_append], taken⟩
    · cases same
      exact ⟨calls, [], rfl, takes_of_ok run⟩

end Runs

section Window
variable [DecidableEq ι] [AddCommGroup T] [LinearOrder T] {g : ReplayGuard ι T} {messageId : ι}
  {t : T} {others : Finset ι}

/-- The message is in the guard, and what came after it are distinct others. -/
def Retains (g : ReplayGuard ι T) (messageId : ι) (t : T) (others : Finset ι) : Prop :=
  (g.seen.map Prod.fst).Nodup ∧ ∃ older newer, g.seen = older ++ (messageId, t) :: newer ∧ ∀ entry ∈ newer, entry.1 ∈ others

theorem nodup_queued (distinct : (g.seen.map Prod.fst).Nodup) {now : T} (new : (g.expire now).holds messageId = false) :
    (((g.expire now).seen ++ [(messageId, now)]).map Prod.fst).Nodup := by
  rw [List.map_append, List.map_singleton]
  refine List.nodup_append.mpr ⟨distinct.sublist (List.filter_sublist.map _), List.nodup_singleton _, ?_⟩
  rintro a member b here rfl
  cases List.mem_singleton.mp here
  obtain ⟨entry, inSeen, same⟩ := List.mem_map.mp member
  have held : (g.expire now).holds messageId = true := List.any_eq_true.mpr ⟨entry, inSeen, by simpa using same⟩
  rw [new] at held
  cases held

theorem nodup_final_accept (natural : 0 ≤ g.maxEntries) (distinct : (g.seen.map Prod.fst).Nodup) (messageId : ι) (now : T) :
    ((final (accept messageId now) g).seen.map Prod.fst).Nodup := by
  rcases accept_cases natural messageId now with ⟨-, run⟩ | ⟨new, run⟩
  · rw [final_of_ok run]
    exact distinct.sublist (List.filter_sublist.map _)
  · rw [final_of_ok run]
    exact (nodup_queued distinct new).sublist ((RecentQueue.trim_suffix _ _).sublist.map _)

/-- A message that is recent stays until too many others have come. -/
theorem Retains.final_accept (natural : 0 ≤ g.maxEntries) (retains : g.Retains messageId t others)
    (few : (others.card : Int) ≤ g.maxEntries - 1) {messageId' : ι} {now : T} (recent : now - t ≤ g.ttlSeconds)
    (other : g.takes messageId' now = true → messageId' ≠ messageId → messageId' ∈ others) :
    (final (accept messageId' now) g).Retains messageId t others := by
  obtain ⟨distinct, older, newer, seen, newest⟩ := retains
  have distinct' := nodup_final_accept natural distinct messageId' now
  let young (entry : ι × T) : Bool := ¬ g.ttlSeconds < now - entry.2
  have expired : (g.expire now).seen = older.filter young ++ (messageId, t) :: newer.filter young := by
    have here : young (messageId, t) = true := decide_eq_true (not_lt.mpr recent)
    change g.seen.filter young = _
    rw [seen, List.filter_append, List.filter_cons_of_pos here]
  have newest' : ∀ entry ∈ newer.filter young, entry.1 ∈ others := fun entry member =>
    newest entry (List.mem_filter.mp member).1
  refine ⟨distinct', ?_⟩
  rcases accept_cases natural messageId' now with ⟨-, run⟩ | ⟨new, run⟩
  · rw [final_of_ok run]
    exact ⟨_, _, expired, newest'⟩
  · have different : messageId' ≠ messageId := by
      rintro rfl
      have held : (g.expire now).holds messageId' = true := by
        refine List.any_eq_true.mpr ⟨(messageId', t), ?_, by simp⟩
        rw [expired]
        exact List.mem_append_right _ List.mem_cons_self
      rw [new] at held
      cases held
    have joins := other (takes_of_ok run) different
    have newest'' : ∀ entry ∈ newer.filter young ++ [(messageId', now)], entry.1 ∈ others := by
      intro entry member
      rcases List.mem_append.mp member with old | here
      · exact newest' entry old
      · cases List.mem_singleton.mp here
        exact joins
    have short : (((messageId, t) :: (newer.filter young ++ [(messageId', now)])).length : Int) ≤ g.maxEntries := by
      have queued := nodup_queued distinct new
      rw [expired, List.append_assoc, List.cons_append] at queued
      have apart : ((newer.filter young ++ [(messageId', now)]).map Prod.fst).Nodup :=
        queued.sublist (((List.sublist_cons_self _ _).trans (List.sublist_append_right _ _)).map _)
      have inside : ((newer.filter young ++ [(messageId', now)]).map Prod.fst).toFinset ⊆ others := by
        intro id member
        obtain ⟨entry, inQueue, rfl⟩ := List.mem_map.mp (List.mem_toFinset.mp member)
        exact newest'' entry inQueue
      have count := Finset.card_le_card inside
      rw [List.toFinset_card_of_nodup apart, List.length_map] at count
      rw [List.length_cons]
      omega
    rw [final_of_ok run]
    obtain ⟨kept, -, trimmed⟩ := RecentQueue.trim_append short (older.filter young)
    refine ⟨kept, newer.filter young ++ [(messageId', now)], ?_, newest''⟩
    change RecentQueue.trim g.maxEntries ((g.expire now).seen ++ [(messageId', now)]) = _
    rw [expired, List.append_assoc, List.cons_append, trimmed]

theorem Retains.after (natural : 0 ≤ g.maxEntries) (retains : g.Retains messageId t others)
    (few : (others.card : Int) ≤ g.maxEntries - 1) {calls : List (ι × T)}
    (recent : ∀ call ∈ calls, call.2 - t ≤ g.ttlSeconds) (inside : ∀ id ∈ g.accepted calls, id ≠ messageId → id ∈ others) :
    (g.after calls).Retains messageId t others := by
  induction calls generalizing g with
  | nil => exact retains
  | cons call calls ih =>
    obtain ⟨messageId', now⟩ := call
    obtain ⟨here, later⟩ := List.forall_mem_cons.mp recent
    obtain ⟨entries, ttl⟩ := final_accept_bounds g messageId' now
    have kept := retains.final_accept natural few here fun taken different => by
      refine inside messageId' ?_ different
      rw [accepted, if_pos taken]
      exact List.mem_cons_self
    refine ih (entries ▸ natural) kept (entries ▸ few) (fun call member => ttl ▸ later call member) fun id member => ?_
    refine inside id ?_
    rw [accepted]
    split
    · exact List.mem_cons_of_mem _ member
    · exact member

/-- A message that was just taken is the last in the guard. -/
theorem retains_taken (natural : 0 ≤ g.maxEntries) (distinct : (g.seen.map Prod.fst).Nodup)
    (few : (others.card : Int) ≤ g.maxEntries - 1) (taken : g.takes messageId t = true) :
    (final (accept messageId t) g).Retains messageId t others := by
  refine ⟨nodup_final_accept natural distinct messageId t, ?_⟩
  rcases accept_cases natural messageId t with ⟨-, run⟩ | ⟨-, run⟩
  · rw [takes, run] at taken
    cases taken
  · have short : ([(messageId, t)].length : Int) ≤ g.maxEntries := by
      rw [List.length_singleton]
      omega
    obtain ⟨kept, -, trimmed⟩ := RecentQueue.trim_append short (g.expire t).seen
    rw [final_of_ok run]
    exact ⟨kept, [], trimmed, by simp⟩

theorem Retains.refuses (natural : 0 ≤ g.maxEntries) (retains : g.Retains messageId t others) {now : T}
    (recent : now - t ≤ g.ttlSeconds) : accept messageId now g = .ok false (g.expire now) := by
  obtain ⟨-, older, newer, seen, -⟩ := retains
  rcases accept_cases natural messageId now with ⟨-, run⟩ | ⟨new, -⟩
  · exact run
  · have held : (g.expire now).holds messageId = true := by
      refine List.any_eq_true.mpr ⟨(messageId, t), List.mem_filter.mpr ⟨?_, decide_eq_true (not_lt.mpr recent)⟩, by simp⟩
      rw [seen]
      exact List.mem_append_right _ List.mem_cons_self
    rw [new] at held
    cases held

theorem nodup_after (natural : 0 ≤ g.maxEntries) (distinct : (g.seen.map Prod.fst).Nodup) (calls : List (ι × T)) :
    ((g.after calls).seen.map Prod.fst).Nodup := by
  induction calls generalizing g with
  | nil => exact distinct
  | cons call calls ih =>
    obtain ⟨entries, -⟩ := final_accept_bounds g call.1 call.2
    exact ih (entries ▸ natural) (nodup_final_accept natural distinct call.1 call.2)

/-- What was taken recently is refused if few others were taken after it. -/
theorem refused_within (natural : 0 ≤ g.maxEntries) (distinct : (g.seen.map Prod.fst).Nodup)
    (taken : g.takes messageId t = true) {between : List (ι × T)} (early : ∀ call ∈ between, call.2 - t ≤ g.ttlSeconds)
    (few : ((((final (accept messageId t) g).accepted between).toFinset.erase messageId).card : Int) ≤ g.maxEntries - 1)
    {now : T} (recent : now - t ≤ g.ttlSeconds) :
    ∃ next, accept messageId now ((final (accept messageId t) g).after between) = .ok false next := by
  obtain ⟨entries, ttl⟩ := final_accept_bounds g messageId t
  obtain ⟨entries', ttl'⟩ := after_bounds (final (accept messageId t) g) between
  have start := retains_taken natural distinct few taken
  rw [← entries] at natural few
  rw [← ttl] at early recent
  have kept := start.after natural few early fun other member different =>
    Finset.mem_erase.mpr ⟨different, List.mem_toFinset.mpr member⟩
  rw [← entries'] at natural
  rw [← ttl'] at recent
  exact ⟨_, kept.refuses natural recent⟩

/-- The guard holds no more messages than it may. It refuses a message only if it
took it recently, and it refuses what it took recently if few others came in
between. -/
theorem replay_window [IsOrderedAddMonoid T] {maxEntries : Int} (natural : 0 ≤ maxEntries) (ttlSeconds : T)
    {calls : List (ι × T)} (ordered : (calls.map Prod.snd).Pairwise (· ≤ ·)) :
    (∀ earlier later, calls = earlier ++ later →
      (((fresh maxEntries ttlSeconds : ReplayGuard ι T).after earlier).seen.length : Int) ≤ maxEntries) ∧
    ∀ earlier id t' later, calls = earlier ++ (id, t') :: later →
      ∃ answer next, accept id t' ((fresh maxEntries ttlSeconds).after earlier) = .ok answer next ∧
        (answer = false → ∃ before t between, earlier = before ++ (id, t) :: between ∧
          ((fresh maxEntries ttlSeconds).after before).takes id t = true ∧ t' - t ≤ ttlSeconds) ∧
        ∀ before t between, earlier = before ++ (id, t) :: between →
          ((fresh maxEntries ttlSeconds).after before).takes id t = true →
          ((((fresh maxEntries ttlSeconds).after (before ++ [(id, t)])).accepted between).toFinset.erase id).card ≤
            maxEntries - 1 → t' - t ≤ ttlSeconds → answer = false := by
  constructor
  · intro earlier _ _
    exact length_after (g := fresh maxEntries ttlSeconds) natural natural earlier
  · intro earlier id t' later split
    have bounds := after_bounds (fresh maxEntries ttlSeconds : ReplayGuard ι T) earlier
    have natural' : 0 ≤ ((fresh maxEntries ttlSeconds : ReplayGuard ι T).after earlier).maxEntries := bounds.1 ▸ natural
    obtain ⟨answer, next, run⟩ :
        ∃ answer next, accept id t' ((fresh maxEntries ttlSeconds).after earlier) = .ok answer next := by
      rcases accept_cases natural' id t' with ⟨-, run⟩ | ⟨-, run⟩
      · exact ⟨_, _, run⟩
      · exact ⟨_, _, run⟩
    refine ⟨answer, next, run, ?_, ?_⟩
    · rintro rfl
      obtain ⟨⟨id', t⟩, member, same, recent⟩ := seen_of_holds (accept_refused run).1
      cases eq_of_beq same
      obtain ⟨before, between, split', taken⟩ := origin_of_mem rfl member
      rw [bounds.2] at recent
      exact ⟨before, t, between, split', taken, not_lt.mp recent⟩
    · intro before t between split' taken few recent
      subst split'
      obtain ⟨entries, ttl⟩ := after_bounds (fresh maxEntries ttlSeconds : ReplayGuard ι T) before
      change _ = maxEntries at entries
      change _ = ttlSeconds at ttl
      rw [after_append, after, after] at few
      rw [after_append, after] at run
      set g := (fresh maxEntries ttlSeconds : ReplayGuard ι T).after before
      have distinct : (g.seen.map Prod.fst).Nodup :=
        nodup_after (g := fresh maxEntries ttlSeconds) natural List.nodup_nil before
      rw [← entries] at natural few
      rw [← ttl] at recent
      have early : ∀ call ∈ between, call.2 - t ≤ g.ttlSeconds := by
        intro call member
        have order : call.2 ≤ t' := by
          rw [split, List.map_append, List.pairwise_append] at ordered
          refine ordered.2.2 call.2 (List.mem_map_of_mem ?_) t' List.mem_cons_self
          exact List.mem_append_right _ (List.mem_cons_of_mem _ member)
        exact (sub_le_sub_right order t).trans recent
      obtain ⟨_, refused⟩ := refused_within natural distinct taken early few recent
      rw [refused] at run
      cases run
      rfl

/-- A repeated message is refused while the guard remembers it. -/
theorem replay_window_repeated :
    ∃ next, accept "a" (5 : Int) ((fresh 2 10).after [("a", 0), ("b", 3)]) = .ok false next := by
  have natural : (0 : Int) ≤ 2 := by decide
  have ordered : (([("a", 0), ("b", 3), ("a", 5)] : List (String × Int)).map Prod.snd).Pairwise (· ≤ ·) := by decide
  obtain ⟨-, window⟩ := replay_window natural 10 ordered
  obtain ⟨answer, next, run, -, refuses⟩ := window [("a", 0), ("b", 3)] "a" 5 [] rfl
  have refused := refuses [] 0 [("b", 3)] rfl (by decide) (by decide) (by decide)
  rw [refused] at run
  exact ⟨next, run⟩

end Window

end ReplayGuard

end Mosaic
