import Mosaic.Nexus.JoinAtomicity
import Mosaic.Lib.GuardedRun

namespace Mosaic.Nexus
open CanonicalJson Effects

variable [Crypto]

/-- The calls that decide an operation. -/
inductive JoinCall
  | finalize (operation : Operation)
  | abort (operation : Operation) (reason : String)

/-- An abort certificate that has been issued, and what for. -/
structure IssuedAbort where
  operation : Operation
  reason : String
  certificate : AbortCertificate

/-- The domains, and every abort certificate that the coordinator has issued. -/
structure Journal where
  heap : Heap
  aborts : List IssuedAbort

namespace JoinCoordinator

def exec (join : JoinCoordinator) : JoinCall → Journal → Journal
  | .finalize operation, journal => { journal with heap := final (join.finalize operation) journal.heap }
  | .abort operation reason, journal =>
    match join.abort operation reason journal.heap with
    | .ok certificate h => ⟨h, journal.aborts ++ [⟨operation, reason, certificate⟩]⟩
    | .error _ h => { journal with heap := h }

/-- Nothing that was aborted is committed in a domain. -/
def Exclusive (join : JoinCoordinator) (journal : Journal) : Prop :=
  ∀ issued ∈ journal.aborts, ∀ i ∈ join.domains.values,
    issued.operation.opId ∉ (journal.heap.executors i).committedOperations

/-- The call does not contradict an earlier one: nothing is finalized after it was
aborted, or aborted after it was committed. -/
def Undecided (join : JoinCoordinator) (journal : Journal) : JoinCall → Prop
  | .finalize operation => ∀ issued ∈ journal.aborts, issued.operation.opId ≠ operation.opId
  | .abort operation _ => ∀ i ∈ join.domains.values,
      operation.opId ∉ (journal.heap.executors i).committedOperations

variable {join : JoinCoordinator} {s t : Heap} {operation : Operation} {journal : Journal}

/-- Nothing but the operation has become committed. -/
def CommitsOnly (operation : Operation) (s t : Heap) : Prop :=
  ∀ i, (t.executors i).committedOperations ⊆ insert operation.opId (s.executors i).committedOperations

instance : Std.Refl (CommitsOnly operation) := ⟨fun _ _ => Finset.subset_insert _ _⟩

instance : IsTrans Heap (CommitsOnly operation) where
  trans _ _ _ first second i := by
    refine (second i).trans (Finset.insert_subset (Finset.mem_insert_self _ _) (first i))

theorem commitsOnly_store {i : Nat} {d : DomainExecutor}
    (commits : d.committedOperations ⊆ insert operation.opId (s.executors i).committedOperations) :
    CommitsOnly operation s (s.store i d) := by
  intro j
  by_cases here : j = i
  · rw [here, Heap.store_self]
    exact commits
  · rcases Heap.store_other (h := s) (d := d) here with untouched | ⟨-, set⟩
    · rw [untouched]
      exact Finset.subset_insert _ _
    · rw [set]
      exact Finset.subset_insert _ _

theorem commitsOnly_applyDomain {name : String} {certificate : Certificate} :
    Guarantees (CommitsOnly operation) s (join.applyDomain operation name certificate) fun _ _ => True := by
  unfold applyDomain
  refine .read_bind (.ofExcept (Q := fun _ _ => True) fun _ _ => trivial) fun i _ => ?_
  have applies : Guarantees (fun d u => u.committedOperations ⊆ insert operation.opId d.committedOperations)
      (s.executors i) (DomainExecutor.applyCommitted operation certificate) fun _ _ => True := by
    rcases (s.executors i).applyCommitted_cases operation certificate with ⟨error, run⟩ | ⟨-, -, run⟩
    · exact .of_error run (Finset.subset_insert _ _)
    · exact .of_ok run (Finset.Subset.refl _) trivial
  exact (applies.onPart (T := CommitsOnly operation) fun d commits => commitsOnly_store commits).mono
    fun _ _ _ _ => trivial

/-- However it ends, `finalize` commits no other operation. -/
theorem commitsOnly_finalize : Guarantees (CommitsOnly operation) s (join.finalize operation) fun _ _ => True := by
  rw [finalize_eq]
  have collects : Guarantees (CommitsOnly operation) s (join.collect operation) fun _ _ => True := by
    refine (quiet_collect.weaken fun t quiet i => ?_).mono fun _ _ _ _ => trivial
    rw [(quiet.sameState i).committedOperations]
    exact Finset.subset_insert _ _
  refine collects.bind fun collected t _ _ => ?_
  refine .bind (Q := fun _ _ => True) (.forM fun _ _ _ _ => commitsOnly_applyDomain) fun _ _ _ _ => .pure trivial

/-- `abort` changes no domain, and returns only what verifies. -/
theorem reads_abort {reason : String} : Guarantees Eq s (join.abort operation reason) fun certificate t =>
    join.verifyAbort t operation certificate reason = .ok true := by
  unfold abort
  refine .raiseIf_bind fun _ => .get_bind ?_
  refine .read_bind (.ofExcept (Q := fun _ _ => True) fun _ _ => trivial) fun i _ => ?_
  refine .read_bind (Q := fun accepted t => join.verifyAbort t operation _ reason = .ok accepted)
    (.ofExcept fun accepted => id) fun accepted verified => ?_
  refine .raiseIf_bind fun passed => .pure ?_
  rwa [not_not.mp passed] at verified

theorem Exclusive.exec (exclusive : join.Exclusive journal) {call : JoinCall} (undecided : join.Undecided journal call) :
    join.Exclusive (join.exec call journal) := by
  cases call with
  | finalize operation =>
    intro issued member i inDomains committed
    have only : CommitsOnly operation journal.heap (final (join.finalize operation) journal.heap) :=
      commitsOnly_finalize.moves
    rcases Finset.mem_insert.mp (only i committed) with same | before
    · exact undecided issued member same
    · exact exclusive issued member i inDomains before
  | abort operation reason =>
    have quiet : journal.heap = final (join.abort operation reason) journal.heap := reads_abort.moves
    intro issued member i inDomains
    cases run : join.abort operation reason journal.heap with
    | error e t =>
      rw [final_of_error run] at quiet
      simp only [JoinCoordinator.exec, run, ← quiet] at member ⊢
      exact exclusive issued member i inDomains
    | ok certificate t =>
      rw [final_of_ok run] at quiet
      simp only [JoinCoordinator.exec, run, ← quiet] at member ⊢
      rcases List.mem_append.mp member with before | new
      · exact exclusive issued before i inDomains
      · rw [List.mem_singleton.mp new]
        exact undecided i inDomains

end JoinCoordinator

theorem soloJoin_aborts (verifies : SignaturesVerify) (pair : KeyPair) (operation : Operation) :
    ∃ certificate, soloJoin.abort operation "timeout" (soloHeap pair) = .ok certificate (soloHeap pair) :=
  JoinCoordinator.abort_ok (soloJoin_committee _) (soloValidators_wellFormed pair) verifies operation "timeout"
    (by decide)

/-- A coordinator of one domain aborts an operation and then finalizes one, be it
another or the same. -/
theorem soloJoin_decides (verifies : SignaturesVerify) (pair : KeyPair) (nonce : Int) :
    ∃ certificate t, (rewrite pair ["a"] 0).opId ∈ (t.executors 0).committedOperations ∧
      soloJoin.exec (.abort (rewrite pair ["a"] nonce) "timeout") ⟨soloHeap pair, []⟩ =
        ⟨soloHeap pair, [⟨rewrite pair ["a"] nonce, "timeout", certificate⟩]⟩ ∧
      soloJoin.exec (.finalize (rewrite pair ["a"] 0)) ⟨soloHeap pair, [⟨rewrite pair ["a"] nonce, "timeout", certificate⟩]⟩ =
        ⟨t, [⟨rewrite pair ["a"] nonce, "timeout", certificate⟩]⟩ := by
  obtain ⟨certificate, aborts⟩ := soloJoin_aborts verifies pair (rewrite pair ["a"] nonce)
  obtain ⟨joined, t, finalizes, committed⟩ := soloJoin_finalizes verifies pair
  refine ⟨certificate, t, committed, ?_, ?_⟩
  · simp only [JoinCoordinator.exec, aborts, List.nil_append]
  · simp only [JoinCoordinator.exec, final_of_ok finalizes]

theorem soloJoin_decides_apart (free : CollisionFree) (verifies : SignaturesVerify) (pair : KeyPair) :
    ∃ certificate t, (rewrite pair ["a"] 0).opId ∈ (t.executors 0).committedOperations ∧
      GuardedRun soloJoin.exec soloJoin.Undecided ⟨soloHeap pair, []⟩
        ⟨t, [⟨rewrite pair ["a"] 1, "timeout", certificate⟩]⟩ := by
  obtain ⟨certificate, t, committed, aborts, finalizes⟩ := soloJoin_decides verifies pair 1
  refine ⟨certificate, t, committed, ?_⟩
  rw [← finalizes, ← aborts]
  refine .tail (.tail .refl fun i _ => Finset.notMem_empty _) ?_
  rw [aborts]
  intro issued member
  rw [List.mem_singleton.mp member]
  exact rewrite_opId free pair fun _ => by omega

namespace JoinCoordinator

variable {join : JoinCoordinator} {journal : Journal}

/-- Where no call contradicts an earlier one, abort and commit exclude each other
from any start on. -/
theorem abort_excludes_commit {h : Heap}
    (run : GuardedRun join.exec join.Undecided ⟨h, []⟩ journal) : join.Exclusive journal :=
  run.invariant (by nofun) fun _ _ undecided exclusive => exclusive.exec undecided

omit [Crypto] in
theorem abort_excludes_commit_solo : let _ := Crypto.ideal
    ∃ journal : Journal, journal.aborts.length = 1 ∧
      (rewrite idealKey ["a"] 0).opId ∈ (journal.heap.executors 0).committedOperations ∧ soloJoin.Exclusive journal := by
  intro _
  obtain ⟨certificate, t, committed, run⟩ := soloJoin_decides_apart ideal_collisionFree ideal_signaturesVerify idealKey
  exact ⟨_, rfl, committed, abort_excludes_commit run⟩

omit [Crypto] in
/-- The same operation is aborted and then committed. -/
theorem abort_does_not_exclude_commit : let _ := Crypto.ideal
    ¬ ∀ (join : JoinCoordinator) (h : Heap) (calls : List JoinCall),
      join.Exclusive (calls.foldl (fun journal call => join.exec call journal) ⟨h, []⟩) := by
  intro _ claim
  obtain ⟨certificate, t, committed, aborts, finalizes⟩ := soloJoin_decides ideal_signaturesVerify idealKey 0
  have exclusive := claim soloJoin (soloHeap idealKey)
    [.abort (rewrite idealKey ["a"] 0) "timeout", .finalize (rewrite idealKey ["a"] 0)]
  rw [List.foldl_cons, aborts, List.foldl_cons, finalizes, List.foldl_nil] at exclusive
  exact exclusive _ (List.mem_singleton_self _) 0 (List.mem_singleton_self _) committed

end JoinCoordinator

end Mosaic.Nexus
