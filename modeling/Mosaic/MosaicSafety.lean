import Mathlib.Data.Set.Card
import Mathlib.Data.Finset.Card
import Mosaic.Lib.GuardedRun

namespace Mosaic

/-- The constants, with what the module assumes of them. -/
structure MosaicSafety (U : Type) where
  validators : Finset U
  byzantine : Finset U
  capsules : Set U
  resources : Set U
  stateRoots : Set U
  threshold : ℕ
  genesis : U
  none : U
  capsulePredecessor : U → U
  capsuleSuccessor : U → U
  validators_nonempty : validators.Nonempty
  byzantine_subset : byzantine ⊆ validators
  capsules_nonempty : capsules.Nonempty
  resources_nonempty : resources.Nonempty
  stateRoots_nonempty : stateRoots.Nonempty
  threshold_pos : 0 < threshold
  threshold_le : threshold ≤ validators.card
  genesis_notMem : genesis ∉ capsules
  none_notMem : none ∉ capsules
  capsulePredecessor_mem : ∀ c ∈ capsules, capsulePredecessor c ∈ insert genesis capsules
  capsuleSuccessor_mem : ∀ c ∈ capsules, capsuleSuccessor c ∈ stateRoots

@[ext]
structure ClosureRecord (U : Type) where
  capsule : U
  resource : U
  predecessor : U
  successor : U
  quorum : Finset U

structure ConflictRecord (U : Type) where
  resource : U
  first : U
  second : U
  predecessor : U

structure AbandonRecord (U : Type) where
  resource : U
  capsule : U
  predecessor : U
  proof : U

structure Application (U : Type) where
  capsule : U
  resource : U

/-- The variables. -/
structure SafetyVars (U : Type) where
  current : U → U
  locks : U → U → U
  closures : Set (ClosureRecord U)
  conflicts : Set (ConflictRecord U)
  abandons : Set (AbandonRecord U)
  applied : Set (Application U)
  execution : U → U

inductive SafetyAction (U : Type)
  | issueAccept (c r v : U)
  | recordConflict (c1 c2 r : U)
  | close (c r : U) (q : Finset U)
  | apply (c r : U)
  | abandon (c r : U)
  | execute (c r : U)

namespace MosaicSafety

variable {U : Type} [DecidableEq U] (m : MosaicSafety U)

def Quorum (q : Finset U) : Prop := q ⊆ m.validators ∧ m.threshold ≤ q.card

def SameContext (c1 c2 : U) : Prop := m.capsulePredecessor c1 = m.capsulePredecessor c2

def Compatible (c1 c2 : U) : Prop := c1 = c2 ∨ ¬ m.SameContext c1 c2

def closureRecord (c r : U) (q : Finset U) : ClosureRecord U := ⟨c, r, m.capsulePredecessor c, m.capsuleSuccessor c, q⟩

structure Init (s : SafetyVars U) : Prop where
  current : ∀ r ∈ m.resources, s.current r ∈ insert m.genesis m.capsules
  locks : s.locks = fun _ _ => m.none
  closures : s.closures = ∅
  conflicts : s.conflicts = ∅
  abandons : s.abandons = ∅
  applied : s.applied = ∅
  execution : s.execution = fun _ => m.none

/-- What the actions ask of the unprimed variables. -/
def Enabled (s : SafetyVars U) : SafetyAction U → Prop
  | .issueAccept c r v => c ∈ m.capsules ∧ r ∈ m.resources ∧ v ∈ m.validators ∧ s.locks r v = m.none
  | .recordConflict c1 c2 r => c1 ∈ m.capsules ∧ c2 ∈ m.capsules ∧ r ∈ m.resources ∧ c1 ≠ c2 ∧ m.SameContext c1 c2
  | .close c r q => c ∈ m.capsules ∧ r ∈ m.resources ∧ m.Quorum q ∧ s.current r = m.capsulePredecessor c ∧
      ∀ v ∈ q, s.locks r v = c
  | .apply c r => c ∈ m.capsules ∧ r ∈ m.resources ∧
      ∃ closure ∈ s.closures, closure.capsule = c ∧ closure.resource = r ∧ closure.predecessor = s.current r
  | .abandon c r => c ∈ m.capsules ∧ r ∈ m.resources ∧ c ≠ s.current r ∧
      ∀ x ∈ s.closures, ¬ (x.capsule = c ∧ x.resource = r)
  | .execute c r => c ∈ m.capsules ∧ r ∈ m.resources ∧ ∃ a ∈ s.applied, a.capsule = c ∧ a.resource = r

/-- The primed variables. -/
def next : SafetyAction U → SafetyVars U → SafetyVars U
  | .issueAccept c r v, s => { s with locks := Function.update s.locks r (Function.update (s.locks r) v c) }
  | .recordConflict c1 c2 r, s => { s with conflicts := s.conflicts ∪ {⟨r, c1, c2, m.capsulePredecessor c1⟩} }
  | .close c r q, s => { s with closures := s.closures ∪ {m.closureRecord c r q} }
  | .apply c r, s => { s with current := Function.update s.current r c, applied := s.applied ∪ {⟨c, r⟩} }
  | .abandon c r, s => { s with abandons := s.abandons ∪ {⟨r, c, m.capsulePredecessor c, c⟩} }
  | .execute c _, s => { s with execution := Function.update s.execution c (m.capsuleSuccessor c) }

/-- The states that are reached from an initial one, each action enabled where it
is taken. -/
def Reachable (s : SafetyVars U) : Prop := ∃ s₀, m.Init s₀ ∧ GuardedRun m.next m.Enabled s₀ s

variable (s : SafetyVars U)

def NoApplyWithoutClosure : Prop :=
  ∀ a ∈ s.applied, ∃ closure ∈ s.closures, closure.capsule = a.capsule ∧ closure.resource = a.resource

def PredecessorBinding : Prop := ∀ closure ∈ s.closures, closure.predecessor = m.capsulePredecessor closure.capsule

def SealBinding : Prop := ∀ closure ∈ s.closures, closure.successor = m.capsuleSuccessor closure.capsule

def NoTwoIncompatibleClosures : Prop :=
  ∀ c1 ∈ m.capsules, ∀ c2 ∈ m.capsules, ∀ r ∈ m.resources,
    (∃ x ∈ s.closures, x.capsule = c1 ∧ x.resource = r) ∧ (∃ y ∈ s.closures, y.capsule = c2 ∧ y.resource = r) →
      m.Compatible c1 c2

def FirstClaimNonEquivocation : Prop :=
  ∀ r ∈ m.resources, ∀ v ∈ m.validators \ m.byzantine, {c ∈ m.capsules | s.locks r v = c}.encard ≤ 1

def ConflictEvidencePreserved : Prop :=
  ∀ e ∈ s.conflicts, e.first ≠ e.second ∧ e.predecessor = m.capsulePredecessor e.first ∧
    e.predecessor = m.capsulePredecessor e.second

def AbandonEvidencePreserved : Prop :=
  ∀ a ∈ s.abandons, a.capsule ∈ m.capsules ∧ a.proof ∈ m.capsules ∧
    a.predecessor = m.capsulePredecessor a.capsule ∧
      ∀ x ∈ s.closures, ¬ (x.capsule = a.capsule ∧ x.resource = a.resource)

def DeterministicExecution : Prop :=
  ∀ c ∈ m.capsules, s.execution c ≠ m.none → s.execution c = m.capsuleSuccessor c

structure ECTC : Prop where
  i1 : NoApplyWithoutClosure s
  i2 : m.PredecessorBinding s
  i3 : m.SealBinding s
  i4 : m.NoTwoIncompatibleClosures s
  i5 : m.FirstClaimNonEquivocation s
  i6 : m.ConflictEvidencePreserved s
  i7 : m.AbandonEvidencePreserved s
  i8 : m.DeterministicExecution s

/-- All that the invariants say, but for closures of abandoned capsules. -/
structure Sound : Prop where
  held : ∀ x ∈ s.closures, ∀ v ∈ x.quorum, s.locks x.resource v = x.capsule
  quorum : ∀ x ∈ s.closures, m.Quorum x.quorum
  capsule : ∀ x ∈ s.closures, x.capsule ∈ m.capsules
  made : ∀ x ∈ s.closures, x = m.closureRecord x.capsule x.resource x.quorum
  applied : NoApplyWithoutClosure s
  conflicts : m.ConflictEvidencePreserved s
  abandoned : ∀ a ∈ s.abandons, a.capsule ∈ m.capsules ∧ a.proof ∈ m.capsules ∧
    a.predecessor = m.capsulePredecessor a.capsule
  executed : m.DeterministicExecution s

/-- No capsule is both abandoned and closed. -/
def Apart : Prop := ∀ a ∈ s.abandons, ∀ x ∈ s.closures, ¬ (x.capsule = a.capsule ∧ x.resource = a.resource)

variable {m s}

omit [DecidableEq U] in
theorem Init.sound (init : m.Init s) : m.Sound s := by
  obtain ⟨-, -, closures, conflicts, abandons, applied, execution⟩ := init
  constructor
  case executed =>
    intro c _ some
    rw [execution] at some
    exact absurd rfl some
  case applied =>
    intro a member
    rw [applied] at member
    exact member.elim
  case conflicts =>
    intro e member
    rw [conflicts] at member
    exact member.elim
  case abandoned =>
    intro a member
    rw [abandons] at member
    exact member.elim
  all_goals
    intro x member
    rw [closures] at member
    exact member.elim

omit [DecidableEq U] in
theorem Init.apart (init : m.Init s) : Apart s := by
  intro a member
  rw [init.abandons] at member
  exact member.elim

/-- A lock that is held by a capsule is not given away. -/
theorem Sound.locks_next (sound : m.Sound s) {c r v : U} (free : s.locks r v = m.none) :
    ∀ x ∈ s.closures, ∀ w ∈ x.quorum,
      Function.update s.locks r (Function.update (s.locks r) v c) x.resource w = x.capsule := by
  intro x member w inQuorum
  have held := sound.held x member w inQuorum
  by_cases here : x.resource = r
  · subst here
    rw [Function.update_self]
    by_cases mine : w = v
    · subst mine
      exact absurd (free.symm.trans held ▸ sound.capsule x member) m.none_notMem
    · rwa [Function.update_of_ne mine]
  · rwa [Function.update_of_ne here]

theorem Sound.next (sound : m.Sound s) {action : SafetyAction U} (enabled : m.Enabled s action) :
    m.Sound (m.next action s) := by
  obtain ⟨held, quorum, capsule, made, applied, conflicts, abandoned, executed⟩ := sound
  cases action with
  | issueAccept c r v =>
    have locks := Sound.locks_next ⟨held, quorum, capsule, made, applied, conflicts, abandoned, executed⟩
      (c := c) enabled.2.2.2
    exact ⟨locks, quorum, capsule, made, applied, conflicts, abandoned, executed⟩
  | recordConflict c1 c2 r =>
    obtain ⟨-, -, -, differ, same⟩ := enabled
    refine ⟨held, quorum, capsule, made, applied, ?_, abandoned, executed⟩
    rintro e (old | rfl)
    · exact conflicts e old
    · exact ⟨differ, rfl, same⟩
  | close c r q =>
    obtain ⟨known, -, enough, -, locked⟩ := enabled
    refine ⟨?_, ?_, ?_, ?_, ?_, conflicts, abandoned, executed⟩
    · rintro x (old | rfl)
      · exact held x old
      · exact locked
    · rintro x (old | rfl)
      · exact quorum x old
      · exact enough
    · rintro x (old | rfl)
      · exact capsule x old
      · exact known
    · rintro x (old | rfl)
      · exact made x old
      · rfl
    · intro a member
      obtain ⟨closure, found, marks⟩ := applied a member
      exact ⟨closure, Or.inl found, marks⟩
  | apply c r =>
    obtain ⟨-, -, closure, found, named, resource, -⟩ := enabled
    refine ⟨held, quorum, capsule, made, ?_, conflicts, abandoned, executed⟩
    rintro a (old | rfl)
    · exact applied a old
    · exact ⟨closure, found, named, resource⟩
  | abandon c r =>
    obtain ⟨known, -, -, -⟩ := enabled
    refine ⟨held, quorum, capsule, made, applied, conflicts, ?_, executed⟩
    rintro a (old | rfl)
    · exact abandoned a old
    · exact ⟨known, known, rfl⟩
  | execute c r =>
    refine ⟨held, quorum, capsule, made, applied, conflicts, abandoned, ?_⟩
    intro d known some
    by_cases here : d = c
    · subst here
      exact Function.update_self _ _ _
    · simp only [MosaicSafety.next, Function.update_of_ne here] at some ⊢
      exact executed d known some

/-- Two quorums share a validator, who has locked the resource for one capsule. -/
theorem Sound.exclusive (sound : m.Sound s) (heavy : 2 * m.validators.card < 3 * m.threshold)
    {x y : ClosureRecord U} (closed : x ∈ s.closures) (closed' : y ∈ s.closures) (same : x.resource = y.resource) :
    x.capsule = y.capsule := by
  obtain ⟨inX, manyX⟩ := sound.quorum x closed
  obtain ⟨inY, manyY⟩ := sound.quorum y closed'
  have crowded : m.validators.card < x.quorum.card + y.quorum.card := by omega
  obtain ⟨v, shared⟩ := Finset.inter_nonempty_of_card_lt_card_add_card inX inY crowded
  rw [Finset.mem_inter] at shared
  have first := sound.held x closed v shared.1
  have second := sound.held y closed' v shared.2
  rw [same] at first
  exact first.symm.trans second

theorem Sound.ectc (sound : m.Sound s) (heavy : 2 * m.validators.card < 3 * m.threshold) (apart : Apart s) :
    m.ECTC s where
  i1 := sound.applied
  i2 := fun x closed => congrArg ClosureRecord.predecessor (sound.made x closed)
  i3 := fun x closed => congrArg ClosureRecord.successor (sound.made x closed)
  i4 := by
    rintro c1 - c2 - r - ⟨⟨x, closed, rfl, here⟩, ⟨y, closed', rfl, there⟩⟩
    exact Or.inl (sound.exclusive heavy closed closed' (here.trans there.symm))
  i5 := by
    intro r _ v _
    refine Set.encard_le_one_iff.mpr ?_
    rintro c d ⟨-, first⟩ ⟨-, second⟩
    exact first.symm.trans second
  i6 := sound.conflicts
  i7 := by
    intro a member
    obtain ⟨capsule, proof, predecessor⟩ := sound.abandoned a member
    exact ⟨capsule, proof, predecessor, apart a member⟩
  i8 := sound.executed

/-- A capsule that was abandoned is not closed. -/
def Heeds (s : SafetyVars U) (action : SafetyAction U) : Prop :=
  ∀ c r q, action = .close c r q → ∀ a ∈ s.abandons, ¬ (a.capsule = c ∧ a.resource = r)

theorem Apart.next (apart : Apart s) {action : SafetyAction U} (enabled : m.Enabled s action) (heeds : Heeds s action) :
    Apart (m.next action s) := by
  cases action with
  | close c r q =>
    rintro a member x (old | rfl)
    · exact apart a member x old
    · rintro ⟨capsule, resource⟩
      exact heeds c r q rfl a member ⟨capsule.symm, resource.symm⟩
  | abandon c r =>
    rintro a (old | rfl)
    · exact apart a old
    · exact enabled.2.2.2
  | _ => exact apart

theorem Reachable.sound (reachable : m.Reachable s) : m.Sound s := by
  obtain ⟨s₀, init, run⟩ := reachable
  exact run.invariant init.sound fun _ _ enabled sound => sound.next enabled

/-- Closed capsules are current and abandoned ones are not. -/
structure Resting (s : SafetyVars U) : Prop where
  closed : ∀ x ∈ s.closures, x.capsule = s.current x.resource
  abandoned : ∀ a ∈ s.abandons, a.capsule ≠ s.current a.resource

omit [DecidableEq U] in
theorem Resting.apart (resting : Resting s) : Apart s := by
  rintro a member x closed ⟨capsule, resource⟩
  exact resting.abandoned a member (by rw [← capsule, ← resource, resting.closed x closed])

theorem Resting.next (resting : Resting s) (own : ∀ c ∈ m.capsules, m.capsulePredecessor c = c)
    {action : SafetyAction U} (enabled : m.Enabled s action) : Resting (m.next action s) := by
  obtain ⟨closed, abandoned⟩ := resting
  cases action with
  | close c r q =>
    obtain ⟨known, -, -, current, -⟩ := enabled
    refine ⟨?_, abandoned⟩
    rintro x (old | rfl)
    · exact closed x old
    · exact (current.trans (own c known)).symm
  | abandon c r =>
    refine ⟨closed, ?_⟩
    rintro a (old | rfl)
    · exact abandoned a old
    · exact enabled.2.2.1
  | apply c r =>
    -- the capsule was current before
    obtain ⟨known, -, closure, found, rfl, rfl, -⟩ := enabled
    have same : Function.update s.current closure.resource closure.capsule = s.current := by
      rw [closed closure found, Function.update_eq_self]
    have frame : (m.next (.apply closure.capsule closure.resource) s).current = s.current := same
    exact ⟨fun x member => frame ▸ closed x member, fun a member => frame ▸ abandoned a member⟩
  | _ => exact ⟨closed, abandoned⟩

theorem Reachable.apart (reachable : m.Reachable s) (own : ∀ c ∈ m.capsules, m.capsulePredecessor c = c) : Apart s := by
  obtain ⟨s₀, init, run⟩ := reachable
  have start : m.Sound s₀ ∧ Resting s₀ := by
    refine ⟨init.sound, fun x member => ?_, fun a member => ?_⟩
    · rw [init.closures] at member
      exact member.elim
    · rw [init.abandons] at member
      exact member.elim
  have both := run.invariant (P := fun s => m.Sound s ∧ Resting s) start
    fun _ _ enabled before => ⟨before.1.next enabled, before.2.next own enabled⟩
  exact both.2.apart

/-- All of the validators lock the resource for the capsule. -/
theorem exists_locked {c r : U} (known : c ∈ m.capsules) (resource : r ∈ m.resources)
    (free : ∀ v ∈ m.validators, s.locks r v = m.none) : ∃ t, GuardedRun m.next m.Enabled s t ∧
      t.current = s.current ∧ t.abandons = s.abandons ∧ ∀ v ∈ m.validators, t.locks r v = c := by
  suffices general : ∀ voters : Finset U, voters ⊆ m.validators → ∃ t, GuardedRun m.next m.Enabled s t ∧
      t.current = s.current ∧ t.abandons = s.abandons ∧ (∀ v ∈ voters, t.locks r v = c) ∧
        ∀ v ∈ m.validators, v ∉ voters → t.locks r v = m.none by
    obtain ⟨t, run, current, abandons, locked, -⟩ := general m.validators (Finset.Subset.refl _)
    exact ⟨t, run, current, abandons, locked⟩
  intro voters
  induction voters using Finset.induction_on with
  | empty => exact fun _ => ⟨s, .refl, rfl, rfl, by simp, fun v member _ => free v member⟩
  | insert w voters new ih =>
    intro inside
    rw [Finset.insert_subset_iff] at inside
    obtain ⟨t, run, current, abandons, locked, open'⟩ := ih inside.2
    have enabled : m.Enabled t (.issueAccept c r w) := ⟨known, resource, inside.1, open' w inside.1 new⟩
    refine ⟨_, run.tail enabled, current, abandons, fun v member => ?_, fun v member other => ?_⟩
    · simp only [MosaicSafety.next, Function.update_self]
      by_cases here : v = w
      · rw [here, Function.update_self]
      · rw [Function.update_of_ne here]
        exact locked v ((Finset.mem_insert.mp member).resolve_left here)
    · rw [Finset.mem_insert, not_or] at other
      simp only [MosaicSafety.next, Function.update_self, Function.update_of_ne other.1]
      exact open' v member other.2

/-- A capsule on another one is abandoned, then accepted by all and closed. -/
theorem exists_abandoned_closed {c : U} (known : c ∈ m.capsules) (other : m.capsulePredecessor c ≠ c) :
    ∃ s, m.Reachable s ∧ ¬ Apart s := by
  obtain ⟨r, resource⟩ := m.resources_nonempty
  obtain ⟨s₀, init, current, unlocked⟩ : ∃ s₀ : SafetyVars U, m.Init s₀ ∧ s₀.current r = m.capsulePredecessor c ∧
      ∀ v, s₀.locks r v = m.none :=
    ⟨⟨fun _ => m.capsulePredecessor c, fun _ _ => m.none, ∅, ∅, ∅, ∅, fun _ => m.none⟩,
      ⟨fun _ _ => m.capsulePredecessor_mem c known, rfl, rfl, rfl, rfl, rfl, rfl⟩, rfl, fun _ => rfl⟩
  have abandon : m.Enabled s₀ (.abandon c r) := by
    refine ⟨known, resource, ?_, fun x member => ?_⟩
    · rw [current]
      exact other.symm
    · rw [init.closures] at member
      exact member.elim
  have first : GuardedRun m.next m.Enabled s₀ (m.next (.abandon c r) s₀) := GuardedRun.refl.tail abandon
  obtain ⟨t, run, same, abandons, locked⟩ := exists_locked (s := m.next (.abandon c r) s₀) known resource
    fun v _ => unlocked v
  have close : m.Enabled t (.close c r m.validators) :=
    ⟨known, resource, ⟨Finset.Subset.refl _, m.threshold_le⟩, by rw [same]; exact current, locked⟩
  refine ⟨_, ⟨s₀, init, (first.trans run).tail close⟩, fun apart => ?_⟩
  have abandoned : (⟨r, c, m.capsulePredecessor c, c⟩ : AbandonRecord U) ∈ (m.next (.close c r m.validators) t).abandons := by
    change _ ∈ t.abandons
    rw [abandons]
    exact Or.inr rfl
  exact apart _ abandoned (m.closureRecord c r m.validators) (Or.inr rfl) ⟨rfl, rfl⟩

/-- Where two thirds are needed, the invariants hold in every run that does not
close what was abandoned. They hold in all runs only where no capsule has another
predecessor than itself. -/
theorem ectc_holds (m : MosaicSafety U) (heavy : 2 * m.validators.card < 3 * m.threshold) :
    (∀ s₀ s, m.Init s₀ → GuardedRun m.next (fun s action => m.Enabled s action ∧ Heeds s action) s₀ s → m.ECTC s) ∧
      ((∀ s, m.Reachable s → m.ECTC s) ↔ ∀ c ∈ m.capsules, m.capsulePredecessor c = c) := by
  constructor
  · intro s₀ s init run
    have both := run.invariant (P := fun s => m.Sound s ∧ Apart s) ⟨init.sound, init.apart⟩
      fun _ _ allowed before => ⟨before.1.next allowed.1, before.2.next allowed.1 allowed.2⟩
    exact both.1.ectc heavy both.2
  · constructor
    · intro holds c known
      by_contra other
      obtain ⟨s, reachable, together⟩ := exists_abandoned_closed known other
      exact together fun a member => ((holds s reachable).i7 a member).2.2.2
    · intro own s reachable
      exact reachable.sound.ectc heavy (reachable.apart own)

end MosaicSafety

/-- The numbers stand for the validator, the capsule, the resource, the state root,
the genesis and the absent value. -/
def soloSafety : MosaicSafety ℕ where
  validators := {0}
  byzantine := ∅
  capsules := {1}
  resources := {2}
  stateRoots := {3}
  threshold := 1
  genesis := 4
  none := 5
  capsulePredecessor := fun _ => 4
  capsuleSuccessor := fun _ => 3
  validators_nonempty := Finset.singleton_nonempty 0
  byzantine_subset := Finset.empty_subset _
  capsules_nonempty := Set.singleton_nonempty 1
  resources_nonempty := Set.singleton_nonempty 2
  stateRoots_nonempty := Set.singleton_nonempty 3
  threshold_pos := Nat.one_pos
  threshold_le := le_of_eq (Finset.card_singleton 0).symm
  genesis_notMem := by simp
  none_notMem := by simp
  capsulePredecessor_mem := by simp
  capsuleSuccessor_mem := by simp

theorem soloSafety_heavy : 2 * soloSafety.validators.card < 3 * soloSafety.threshold := by decide

/-- The capsule is accepted and closed, and nothing is abandoned on the way. -/
theorem soloSafety_closes : ∃ s₀ s, soloSafety.Init s₀ ∧ s.closures.Nonempty ∧
    GuardedRun soloSafety.next (fun s action => soloSafety.Enabled s action ∧ MosaicSafety.Heeds s action) s₀ s := by
  let s₀ : SafetyVars ℕ := ⟨fun _ => 4, fun _ _ => 5, ∅, ∅, ∅, ∅, fun _ => 5⟩
  have init : soloSafety.Init s₀ := ⟨fun _ _ => Or.inl rfl, rfl, rfl, rfl, rfl, rfl, rfl⟩
  have member : 0 ∈ soloSafety.validators := Finset.mem_singleton_self 0
  have accepted : soloSafety.Enabled s₀ (.issueAccept 1 2 0) := ⟨rfl, rfl, member, rfl⟩
  let s₁ := soloSafety.next (.issueAccept 1 2 0) s₀
  have locked : ∀ v ∈ soloSafety.validators, s₁.locks 2 v = 1 := by
    intro v inside
    rw [Finset.mem_singleton.mp inside]
    simp [s₁, MosaicSafety.next]
  have closed : soloSafety.Enabled s₁ (.close 1 2 soloSafety.validators) :=
    ⟨rfl, rfl, ⟨Finset.Subset.refl _, soloSafety.threshold_le⟩, rfl, locked⟩
  have none : ∀ action, MosaicSafety.Heeds s₀ action := fun _ _ _ _ _ a abandoned => abandoned.elim
  have none' : ∀ action, MosaicSafety.Heeds s₁ action := fun _ _ _ _ _ a abandoned => abandoned.elim
  refine ⟨s₀, soloSafety.next (.close 1 2 soloSafety.validators) s₁, init, ?_, ?_⟩
  · exact ⟨soloSafety.closureRecord 1 2 soloSafety.validators, Or.inr rfl⟩
  · exact (GuardedRun.refl.tail ⟨accepted, none _⟩).tail ⟨closed, none' _⟩

/-- The capsule is on the genesis, so the invariants do not hold everywhere. -/
theorem ectc_holds_solo : (∃ s, soloSafety.Reachable s ∧ s.closures.Nonempty ∧ soloSafety.ECTC s) ∧
    ¬ ∀ s, soloSafety.Reachable s → soloSafety.ECTC s := by
  obtain ⟨guarded, everywhere⟩ := soloSafety.ectc_holds soloSafety_heavy
  refine ⟨?_, fun holds => ?_⟩
  · obtain ⟨s₀, s, init, closed, run⟩ := soloSafety_closes
    exact ⟨s, ⟨s₀, init, run.mono fun _ _ allowed => allowed.1⟩, closed, guarded s₀ s init run⟩
  · have own := everywhere.mp holds 1 rfl
    cases own

/-- An abandoned capsule is closed after all. -/
theorem ectc_fails : ¬ ∀ (U : Type) [DecidableEq U] (m : MosaicSafety U),
    2 * m.validators.card < 3 * m.threshold → ∀ s, m.Reachable s → m.ECTC s := by
  intro claim
  obtain ⟨s, reachable, together⟩ := MosaicSafety.exists_abandoned_closed (m := soloSafety) (c := 1) rfl (by decide)
  exact together fun a member => ((claim ℕ soloSafety soloSafety_heavy s reachable).i7 a member).2.2.2

end Mosaic
