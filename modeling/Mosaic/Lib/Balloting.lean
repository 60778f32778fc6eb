import Mosaic.Lib.GuardedRun
import Mathlib.Data.Fintype.Basic

namespace Balloting

inductive Mail (ι : Type*)
  | proposal
  | vote (of : ι)
  | decision

/-- A voter, with the mails that it has taken. -/
structure Voter (ι : Type*) where
  holds : Bool
  seen : Bool
  decided : Bool
  heard : Finset ι
  taken : List (Mail ι)

variable {ι : Type*}

namespace Voter

/-- Nothing has happened yet. -/
def fresh : Voter ι := ⟨false, false, false, ∅, []⟩

/-- The voter has the proposal, but it has not been asked yet. -/
@[simps]
def hold (v : Voter ι) : Voter ι := { v with holds := true }

@[simps]
def note (v : Voter ι) (mail : Mail ι) : Voter ι := { v with taken := v.taken ++ [mail] }

/-- What a voter makes of a mail. -/
def learn [DecidableEq ι] (enough : Finset ι → Prop) [DecidablePred enough] : Mail ι → Voter ι → Voter ι
  | .proposal, v => { v with holds := true, seen := true }
  | .vote j, v =>
    { v with
      heard := insert j v.heard
      decided := v.decided || decide (j ∉ v.heard ∧ v.holds = true ∧ enough (insert j v.heard)) }
  | .decision, v => { v with holds := true, decided := true }

/-- What it sends to all of them. -/
def answer [DecidableEq ι] (enough : Finset ι → Prop) [DecidablePred enough] (me : ι) (mail : Mail ι) (v : Voter ι) :
    List (Mail ι) :=
  match mail with
  | .proposal => if v.decided then [] else [.vote me]
  | .vote _ => if (v.learn enough mail).decided = true ∧ v.decided = false then [.decision] else []
  | .decision => []

end Voter

/-- All voters and all that was sent. -/
structure Assembly (ι : Type*) where
  voter : ι → Voter ι
  sent : List (Mail ι)

/-- A voter is handed the proposal and sends it to all, or it takes a mail. -/
inductive Event (ι : Type*)
  | submit (i : ι)
  | take (i : ι) (mail : Mail ι)

namespace Assembly

def start : Assembly ι := ⟨fun _ => .fresh, []⟩

section Defs
variable [DecidableEq ι] (enough : Finset ι → Prop) [DecidablePred enough]

def exec : Event ι → Assembly ι → Assembly ι
  | .submit i, a => ⟨Function.update a.voter i (a.voter i).hold, a.sent ++ [.proposal]⟩
  | .take i mail, a =>
    ⟨Function.update a.voter i (((a.voter i).learn enough mail).note mail), a.sent ++ (a.voter i).answer enough i mail⟩

/-- Only what was sent arrives. -/
def Allowed (a : Assembly ι) : Event ι → Prop
  | .submit _ => True
  | .take _ mail => mail ∈ a.sent

abbrev Run (a : Assembly ι) : Prop := GuardedRun (exec enough) Allowed start a

end Defs

/-- Everything that was sent has been taken by all. -/
def Quiet (a : Assembly ι) : Prop := ∀ mail ∈ a.sent, ∀ i, mail ∈ (a.voter i).taken

end Assembly

namespace Voter

/-- What a voter knows comes from what was sent, and while it is undecided the votes
are not enough that it knows beside its own. -/
structure Sound (enough : Finset ι → Prop) (sent : List (Mail ι)) (i : ι) (v : Voter ι) : Prop where
  held : v.seen = true → v.holds = true
  voted : v.seen = true → v.decided = true ∨ .vote i ∈ sent
  cast : .vote i ∈ sent → v.seen = true
  heard : ∀ j ∈ v.heard, .vote j ∈ sent
  light : v.decided = false → i ∈ v.heard → ¬ enough v.heard
  told : v.decided = true → .decision ∈ sent
  saw : .proposal ∈ v.taken → v.seen = true
  counted : ∀ j, .vote j ∈ v.taken → j ∈ v.heard
  learned : .decision ∈ v.taken → v.decided = true

variable {enough : Finset ι → Prop} {sent mails : List (Mail ι)} {i : ι} {v : Voter ι} {mail : Mail ι}

theorem fresh_sound : (fresh : Voter ι).Sound enough [] i := by
  constructor <;> simp [fresh]

theorem Sound.mono (sound : v.Sound enough sent i) (other : .vote i ∉ mails) : v.Sound enough (sent ++ mails) i where
  held := sound.held
  voted seen := (sound.voted seen).imp_right (List.mem_append_left mails)
  cast member := sound.cast ((List.mem_append.mp member).resolve_right other)
  heard j member := List.mem_append_left mails (sound.heard j member)
  light := sound.light
  told decided := List.mem_append_left mails (sound.told decided)
  saw := sound.saw
  counted := sound.counted
  learned := sound.learned

theorem Sound.hold (sound : v.Sound enough sent i) : v.hold.Sound enough sent i :=
  ⟨fun _ => rfl, sound.voted, sound.cast, sound.heard, sound.light, sound.told, sound.saw, sound.counted, sound.learned⟩

variable [DecidableEq ι] [DecidablePred enough]

theorem answer_own {k : ι} (member : .vote k ∈ v.answer enough i mail) : k = i := by
  cases mail with
  | proposal =>
    simp only [answer] at member
    split at member
    · cases member
    · cases List.mem_singleton.mp member
      rfl
  | vote j =>
    simp only [answer] at member
    split at member
    · cases List.mem_singleton.mp member
    · cases member
  | decision => cases member

/-- Taking a mail that was sent keeps a voter sound. -/
theorem Sound.take (sound : v.Sound enough sent i) (arrived : mail ∈ sent) :
    ((v.learn enough mail).note mail).Sound enough (sent ++ v.answer enough i mail) i := by
  cases mail with
  | proposal =>
    refine ⟨fun _ => rfl, fun _ => ?_, fun _ => rfl, fun j member => List.mem_append_left _ (sound.heard j member),
      sound.light, fun decided => List.mem_append_left _ (sound.told decided), fun _ => rfl, fun j member => ?_,
      fun member => ?_⟩
    · cases decided : v.decided with
      | true => exact Or.inl decided
      | false =>
        refine Or.inr (List.mem_append_right _ ?_)
        simp [answer, decided]
    · exact sound.counted j (by simpa [learn] using member)
    · exact sound.learned (by simpa [learn] using member)
  | vote j =>
    have heard : ∀ k ∈ insert j v.heard, Mail.vote k ∈ sent := by
      intro k member
      rcases Finset.mem_insert.mp member with rfl | before
      · exact arrived
      · exact sound.heard k before
    refine ⟨sound.held, fun seen => ?_, fun member => ?_, fun k member => List.mem_append_left _ (heard k member), ?_,
      fun decided => ?_, fun member => ?_, fun k member => ?_, fun member => ?_⟩
    · rcases sound.voted seen with decided | voted
      · exact Or.inl (by simp [learn, decided])
      · exact Or.inr (List.mem_append_left _ voted)
    · rcases List.mem_append.mp member with old | new
      · exact sound.cast old
      · simp only [answer] at new
        split at new
        · cases List.mem_singleton.mp new
        · cases new
    · intro undecided own
      simp only [note_decided, learn, Bool.or_eq_false_iff, decide_eq_false_iff_not] at undecided
      obtain ⟨before, new⟩ := undecided
      by_cases old : j ∈ v.heard
      · have same : insert j v.heard = v.heard := Finset.insert_eq_of_mem old
        simp only [note_heard, learn, same] at own ⊢
        exact sound.light before own
      · -- the own vote was sent, so the voter holds the proposal
        have holds := sound.held (sound.cast (heard i own))
        exact fun enough' => new ⟨old, holds, enough'⟩
    · cases before : v.decided with
      | true => exact List.mem_append_left _ (sound.told before)
      | false =>
        refine List.mem_append_right _ ?_
        simp only [answer]
        rw [if_pos ⟨decided, before⟩]
        exact List.mem_singleton_self _
    · exact sound.saw (by simpa [learn] using member)
    · rcases List.mem_append.mp member with old | new
      · exact Finset.mem_insert_of_mem (sound.counted k old)
      · cases List.mem_singleton.mp new
        exact Finset.mem_insert_self j _
    · have before := sound.learned (by simpa [learn] using member)
      simp [learn, before]
  | decision =>
    refine ⟨fun _ => rfl, fun _ => Or.inl rfl, fun member => ?_,
      fun j member => List.mem_append_left _ (sound.heard j member), fun undecided => Bool.noConfusion undecided,
      fun _ => List.mem_append_left _ arrived, fun member => ?_, fun j member => ?_, fun _ => rfl⟩
    · exact sound.cast (by simpa [answer] using member)
    · exact sound.saw (by simpa [learn] using member)
    · exact sound.counted j (by simpa [learn] using member)

end Voter

namespace Assembly

variable {enough : Finset ι → Prop} {a : Assembly ι}

def Sound (enough : Finset ι → Prop) (a : Assembly ι) : Prop := ∀ i, (a.voter i).Sound enough a.sent i

variable [DecidableEq ι]

/-- One voter goes on and sends something that is no vote of another one. -/
theorem Sound.update {i : ι} {w : Voter ι} {mails : List (Mail ι)} (sound : a.Sound enough)
    (here : w.Sound enough (a.sent ++ mails) i) (own : ∀ k, .vote k ∈ mails → k = i) :
    Sound enough ⟨Function.update a.voter i w, a.sent ++ mails⟩ := by
  intro k
  show (Function.update a.voter i w k).Sound enough (a.sent ++ mails) k
  by_cases same : k = i
  · subst same
    rwa [Function.update_self]
  · rw [Function.update_of_ne same]
    exact (sound k).mono fun member => same (own k member)

variable [DecidablePred enough]

theorem Sound.exec {event : Event ι} (sound : a.Sound enough) (allowed : a.Allowed event) :
    (exec enough event a).Sound enough := by
  cases event with
  | submit i =>
    have none : ∀ k : ι, .vote k ∉ [Mail.proposal] := fun k member => nomatch List.mem_singleton.mp member
    exact sound.update ((sound i).hold.mono (none i)) fun k member => absurd member (none k)
  | take i mail => exact sound.update ((sound i).take allowed) fun k => Voter.answer_own

theorem Run.sound (run : a.Run enough) : a.Sound enough :=
  GuardedRun.invariant run (fun _ => Voter.fresh_sound) fun _ _ allowed sound => sound.exec allowed

/-- When nothing is under way any more, a proposal that was sent is decided by
every voter, where the votes of all of them are enough. -/
theorem Run.decided [Fintype ι] (run : a.Run enough) (everyone : enough Finset.univ) (quiet : a.Quiet)
    (posed : .proposal ∈ a.sent) (i : ι) : (a.voter i).decided = true := by
  have sound := run.sound
  by_cases some' : ∃ k, (a.voter k).decided = true
  · obtain ⟨k, decided⟩ := some'
    exact (sound i).learned (quiet _ ((sound k).told decided) i)
  · -- otherwise every voter has heard of every vote
    have open' : ∀ k, (a.voter k).decided = false := fun k => by
      cases decided : (a.voter k).decided with
      | true => exact absurd ⟨k, decided⟩ some'
      | false => rfl
    have voted : ∀ k, Mail.vote k ∈ a.sent := by
      intro k
      refine ((sound k).voted ((sound k).saw (quiet _ posed k))).resolve_left ?_
      rw [open' k]
      decide
    have all : (a.voter i).heard = Finset.univ :=
      Finset.eq_univ_of_forall fun j => (sound i).counted j (quiet _ (voted j) i)
    refine absurd everyone ?_
    rw [← all]
    refine (sound i).light (open' i) ?_
    rw [all]
    exact Finset.mem_univ i

end Assembly

end Balloting
