import Mosaic.Nexus.JoinProgress

namespace Mosaic.Nexus
open CanonicalJson Effects

variable [Crypto]

namespace JoinCoordinator
open Heap

variable {join : JoinCoordinator} {h s t : Heap} {operation : Operation}

/-- The domain has a certificate with which it can apply the operation. -/
def Ready (join : JoinCoordinator) (operation : Operation) (name : String) (certificate : Certificate) (h : Heap) : Prop :=
  ∃ i, join.domains.get? name = some i ∧ (h.executors i).Valid operation ∧
    (h.executors i).committee.verifyCertificate certificate (h.executors i).epoch (h.executors i).domainId
      ((h.executors i).objectVersions operation) operation = .ok true

theorem Ready.of_sameState {name : String} {certificate : Certificate} {i : Nat} (known : join.domains.get? name = some i)
    (same : (s.executors i).SameState (t.executors i)) (ready : join.Ready operation name certificate s) :
    join.Ready operation name certificate t := by
  obtain ⟨j, there, valid, accepted⟩ := ready
  cases known.symm.trans there
  exact ⟨i, known, valid.of_sameState same, same.verifyCertificate.trans accepted⟩

theorem Ready.quiet {name : String} {certificate : Certificate} (ready : join.Ready operation name certificate s)
    (quiet : Quiet s t) : join.Ready operation name certificate t := by
  obtain ⟨i, known, -⟩ := id ready
  exact ready.of_sameState known (quiet.sameState i)

theorem quiet_prepareAll : Guarantees Quiet s (join.prepareAll operation) fun certificates _ =>
    operation.domainIds.toFinset = join.domains.keys.toFinset ∧
      certificates.length = (sortedSet operation.domainIds).length := by
  unfold prepareAll
  refine .raiseIf_bind fun same => ?_
  refine Guarantees.mono (.mapM (P := fun _ _ _ => True) (fun _ _ _ _ _ => id) fun name _ t _ => ?_)
    fun certificates _ _ all => ⟨not_not.mp same, all.length_eq.symm⟩
  refine .read_bind (.ofExcept (Q := fun _ _ => True) fun _ _ => trivial) fun i _ => ?_
  refine (Guarantees.onPart DomainExecutor.collects_prepare fun d collects => ?_).mono fun _ _ _ _ => trivial
  exact quiet_store collects.sameState

theorem quiet_issueJoinCertificate {certificates : List Certificate} :
    Guarantees Quiet s (join.issueJoinCertificate operation certificates) fun _ _ =>
      certificates.length = operation.domainIds.length := by
  unfold issueJoinCertificate
  refine .raiseIf_bind fun length => ?_
  refine .read_bind (.ofExcept (Q := fun _ _ => True) fun _ _ => trivial) fun domains _ => ?_
  refine .raiseIf_bind fun _ => .raiseIf_bind fun _ => ?_
  refine .read_bind (.ofExcept (Q := fun _ _ => True) fun _ _ => trivial) fun statement _ => .get_bind ?_
  refine .read_bind (.ofExcept (Q := fun _ _ => True) fun _ _ => trivial) fun i _ => ?_
  have counts : Guarantees Quiet s (onDomain i (DomainExecutor.onCommittee (modify fun c =>
      c.countMessages statement (((s.executors i).committee.signAll statement).map Prod.snd)))) fun _ _ => True :=
    (Guarantees.onPart DomainExecutor.collects_countMessages fun d collects =>
      quiet_store collects.sameState).mono fun _ _ _ _ => trivial
  exact counts.bind fun _ _ _ _ => .pure (not_not.mp length)

theorem quiet_commitDomain {name : String} :
    Guarantees Quiet s (join.commitDomain operation name) (join.Ready operation name) := by
  unfold commitDomain
  refine .read_bind (.ofExcept (Q := fun i _ => join.domains.get? name = some i) fun i found => ?_) fun i known =>
    .get_bind ?_
  · unfold domain at found
    split at found
    · cases found
      assumption
    · cases found
  · split
    · exact .throw _
    · refine (Guarantees.onPart DomainExecutor.collects_commitCertificate fun d collects =>
        quiet_store collects.sameState).mono fun certificate u quiet post => ?_
      obtain ⟨d, rfl, valid, -, certified⟩ := post
      have same := quiet.sameState i
      rw [store_self] at same
      refine ⟨i, known, ?_, ?_⟩
      · rw [store_self]
        exact valid.of_sameState same
      · rw [store_self]
        exact certified.accepted

theorem quiet_commits : Guarantees Quiet s ((sorted operation.domainIds).mapM (join.commitDomain operation))
    fun commits t => List.Forall₂ (fun name certificate => join.Ready operation name certificate t)
      (sorted operation.domainIds) commits :=
  .mapM (fun _ _ _ _ quiet ready => ready.quiet quiet) fun _ _ _ _ => quiet_commitDomain

/-- The operation has been applied in the listed domains, and nowhere else. -/
structure AppliedIn (join : JoinCoordinator) (operation : Operation) (pairs : List (String × Certificate)) (s t : Heap) :
    Prop where
  committeeOf : t.committeeOf = s.committeeOf
  listed : ∀ pair ∈ pairs, ∀ i, join.domains.get? pair.1 = some i →
    t.executors i = (s.executors i).applied operation pair.2
  others : ∀ i, (∀ pair ∈ pairs, join.domains.get? pair.1 ≠ some i) → t.executors i = s.executors i

theorem applyDomain_ok {name : String} {certificate : Certificate} (ready : join.Ready operation name certificate s) :
    ∃ t, join.applyDomain operation name certificate s = .ok ⟨⟩ t ∧ join.AppliedIn operation [(name, certificate)] s t := by
  obtain ⟨i, known, valid, accepted⟩ := ready
  have ran := DomainExecutor.applyCommitted_of_valid valid accepted
  refine ⟨s.store i ((s.executors i).applied operation certificate), ?_, rfl, ?_, ?_⟩
  · have found : join.domain name = .ok i := by
      unfold domain
      rw [known]
    unfold applyDomain
    rw [bind_of_ok (ofExcept_of_ok found s)]
    exact onPart_of_ok ran
  · intro pair member j known'
    cases List.mem_singleton.mp member
    cases known.symm.trans known'
    exact store_self _ _ _
  · intro j elsewhere
    refine store_of_committee (h := s) (d := (s.executors i).applied operation certificate) rfl ?_
    rintro rfl
    exact elsewhere _ (List.mem_singleton_self _) known

/-- Domains that are all ready apply the operation one after the other; none of
them can be made unready by the others. -/
theorem applyAll_ok (distinct : join.domains.values.Nodup) (pairs : List (String × Certificate))
    (names : (pairs.map Prod.fst).Nodup) (ready : ∀ pair ∈ pairs, join.Ready operation pair.1 pair.2 s) :
    ∃ t, (pairs.forM fun item => join.applyDomain operation item.1 item.2) s = .ok ⟨⟩ t ∧
      join.AppliedIn operation pairs s t := by
  induction pairs generalizing s with
  | nil => exact ⟨s, rfl, rfl, nofun, fun _ _ => rfl⟩
  | cons pair pairs ih =>
    rw [List.map_cons, List.nodup_cons] at names
    obtain ⟨u, first, here⟩ := applyDomain_ok (ready pair (by simp))
    have untouched : ∀ other ∈ pairs, ∀ i, join.domains.get? other.1 = some i → u.executors i = s.executors i := by
      intro other member i known
      refine here.others i fun pair' member' known' => ?_
      cases List.mem_singleton.mp member'
      exact names.1 (name_inj distinct known' known ▸ List.mem_map_of_mem member)
    obtain ⟨t, later, rest⟩ := @ih u names.2 fun other member => by
      have before := ready other (List.mem_cons_of_mem _ member)
      obtain ⟨i, known, -⟩ := id before
      exact before.of_sameState known (untouched other member i known ▸ .refl _)
    refine ⟨t, ?_, rest.committeeOf.trans here.committeeOf, ?_, ?_⟩
    · rw [List.forM_eq_forM, List.forM_cons, bind_of_ok first]
      exact later
    · intro other member i known
      rcases List.mem_cons.mp member with rfl | inPairs
      · rw [rest.others i, here.listed _ (List.mem_singleton_self _) i known]
        intro pair' member' known'
        exact names.1 (name_inj distinct known known' ▸ List.mem_map_of_mem member')
      · rw [rest.listed other inPairs i known, untouched other inPairs i known]
    · intro i elsewhere
      rw [rest.others i fun other member => elsewhere other (List.mem_cons_of_mem _ member)]
      exact here.others i fun other member => by
        cases List.mem_singleton.mp member
        exact elsewhere pair (by simp)

/-- `finalize` up to the point from which nothing can fail. -/
def collect (join : JoinCoordinator) (operation : Operation) : PyJoin (JoinCertificate × List Certificate) := do
  let prepared ← join.prepareAll operation
  let certificate ← join.issueJoinCertificate operation prepared
  let h ← get
  let accepted ← ofExcept (join.verifyJoinCertificate h operation certificate)
  raiseIf (¬ accepted) (.joinError "issued Join certificate failed verification")
  let commits ← (sorted operation.domainIds).mapM (join.commitDomain operation)
  return (certificate, commits)

theorem finalize_eq : join.finalize operation = (do
    let collected ← join.collect operation
    ((sorted operation.domainIds).zip collected.2).forM fun item => join.applyDomain operation item.1 item.2
    return collected.1) := by
  simp only [finalize, collect, bind_assoc, pure_bind]

/-- Every domain of the operation is ready, each once. -/
structure Collected (join : JoinCoordinator) (operation : Operation) (commits : List Certificate) (t : Heap) : Prop where
  domains : operation.domainIds.toFinset = join.domains.keys.toFinset
  distinct : operation.domainIds.Nodup
  ready : List.Forall₂ (fun name certificate => join.Ready operation name certificate t)
    (sorted operation.domainIds) commits

omit [Crypto] in
theorem nodup_of_length {items : List String} (same : (sortedSet items).length = items.length) : items.Nodup := by
  have lengths : items.dedup.length = items.length := by
    rw [← same]
    exact ((sortedBy_perm id items.dedup).length_eq).symm
  exact List.dedup_eq_self.mp ((List.dedup_sublist items).eq_of_length lengths)

theorem quiet_collect : Guarantees Quiet s (join.collect operation) fun collected t =>
    join.Collected operation collected.2 t := by
  unfold collect
  refine quiet_prepareAll.bind fun prepared u _ first => ?_
  refine quiet_issueJoinCertificate.bind fun certificate v _ second => .get_bind ?_
  refine .read_bind (.ofExcept (Q := fun _ _ => True) fun _ _ => trivial) fun accepted _ => .raiseIf_bind fun _ => ?_
  refine quiet_commits.bind fun commits w _ ready => .pure ⟨first.1, ?_, ready⟩
  exact nodup_of_length (first.2.symm.trans second)

/-- Agreeable domains are brought to that point. -/
theorem collect_ok (verifies : SignaturesVerify) (distinct : join.domains.values.Nodup) (nonempty : join.domains.values ≠ [])
    (once : operation.domainIds.Nodup) (all : operation.domainIds.toFinset = join.domains.keys.toFinset)
    (agreeable : join.Agreeable operation s) : ∃ collected t, join.collect operation s = .ok collected t := by
  have names : sortedSet operation.domainIds = sorted operation.domainIds := by
    rw [sortedSet, once.dedup]
  obtain ⟨certificates, u, prepares, agreeable', prepared⟩ := prepareAll_ok verifies distinct all agreeable
  rw [names] at prepared
  -- one of the domains stands for the committee that they share
  obtain ⟨leader, i, known, shared⟩ := agreeable'.leads nonempty
  have willing := agreeable'.willing leader i known
  have perm := sortedBy_perm id operation.domainIds
  obtain ⟨certificate, c, issues, same, accepted⟩ := issueJoinCertificate_ok verifies shared willing.wellFormed
    (covers_of_prepared prepared) (sortedBy_sortedBy id _) (List.toFinset_eq_of_perm _ _ perm) perm.length_eq
  -- counting messages changes nothing that the domains look at
  have agreeable'' : join.Agreeable operation (u.store i (DomainExecutor.setCommittee c (u.executors i))) := by
    refine agreeable'.store known (DomainExecutor.collects_of_same same).sameState (willing.consistent.of_same same)
      fun key rival _ => ?_
    simp only [DomainExecutor.setCommittee, QuorumCommittee.supporters, QuorumCommittee.supporting, same.votesAt]
  obtain ⟨commits, t, commits'⟩ := commitAll_ok verifies distinct agreeable''
    (show (sorted operation.domainIds).Nodup from perm.nodup_iff.mpr once) fun name member => by
    obtain ⟨part, -, ready⟩ := exists_of_forall₂ prepared member
    exact ⟨part, ready.store distinct known (Or.inr rfl)⟩
  refine ⟨(certificate, commits), t, ?_⟩
  unfold collect
  rw [bind_of_ok prepares, bind_of_ok issues, get_bind_apply, bind_of_ok (ofExcept_of_ok accepted _),
    raiseIf_bind_neg (by simp), bind_of_ok commits']
  rfl

end JoinCoordinator

/-- Every local input has moved on by one version, to what its write intent says;
nothing else has, and the operation is committed. -/
structure DomainExecutor.Advanced (d : DomainExecutor) (operation : Operation) (t : DomainExecutor) : Prop where
  inputs : ∀ item ∈ d.localInputs operation, ∃ intent ∈ d.localWrites operation, ∃ state : ObjectState,
    intent.objectId = item.objectId ∧ d.objects.get? item.objectId = some state ∧ state.version = item.expectedVersion ∧
      t.objects.get? item.objectId = some {
        objectId := state.objectId
        version := state.version + 1
        owner := intent.newOwner
        payload := intent.newPayload
        domainId := state.domainId }
  others : ∀ key, key ∉ (d.localInputs operation).map InputRef.objectId → t.objects.get? key = d.objects.get? key
  committed : t.committedOperations = insert operation.opId d.committedOperations

theorem DomainExecutor.advanced_of_valid {d : DomainExecutor} {operation : Operation} {certificate : Certificate}
    (valid : d.Valid operation) : d.Advanced operation (d.applied operation certificate) where
  inputs item member := by
    obtain ⟨intent, inWrites, object, version⟩ := valid.intent_of_input member
    obtain ⟨state, found, -, current, -⟩ := valid.current item member
    have written := get?_overwrite_of_mem d.objects valid.localWrites_distinct inWrites
    rw [object, found, Option.map_some] at written
    exact ⟨intent, inWrites, state, object, found, current, written⟩
  others key elsewhere := by
    refine get?_overwrite_of_notMem fun member => elsewhere ?_
    obtain ⟨intent, inWrites, rfl⟩ := List.mem_map.mp member
    obtain ⟨item, inInputs, object, -⟩ := valid.input_of_intent inWrites
    exact List.mem_map.mpr ⟨item, inInputs, object⟩
  committed := rfl

theorem DomainExecutor.Advanced.of_sameState {d u t : DomainExecutor} {operation : Operation} (same : d.SameState u)
    (advanced : u.Advanced operation t) : d.Advanced operation t where
  inputs := by
    have inputs := advanced.inputs
    rwa [same.localInputs, same.localWrites, same.objects] at inputs
  others := by
    have others := advanced.others
    rwa [same.localInputs, same.objects] at others
  committed := by
    rw [advanced.committed, same.committedOperations]

namespace JoinCoordinator
open Heap

variable {join : JoinCoordinator} {s t u : Heap} {operation : Operation}

/-- From that point on nothing fails. -/
theorem finalize_of_collect (distinct : join.domains.values.Nodup) {collected : JoinCertificate × List Certificate}
    (run : join.collect operation s = .ok collected u) :
    ∃ t, join.finalize operation s = .ok collected.1 t ∧
      join.AppliedIn operation ((sorted operation.domainIds).zip collected.2) u t := by
  have ready := quiet_collect.returns _ _ run
  obtain ⟨length, pairs⟩ := List.forall₂_iff_zip.mp ready.ready
  have names : (((sorted operation.domainIds).zip collected.2).map Prod.fst).Nodup := by
    rw [List.map_fst_zip length.le]
    exact (sortedBy_perm id operation.domainIds).nodup_iff.mpr ready.distinct
  obtain ⟨t, applies, applied⟩ := applyAll_ok distinct _ names fun pair member => pairs member
  refine ⟨t, ?_, applied⟩
  rw [finalize_eq, bind_of_ok run, bind_of_ok applies]
  rfl

/-- Either the call raises with all domains as they were, or every domain was
ready and all of them have applied the operation. -/
theorem finalize_cases (distinct : join.domains.values.Nodup) (operation : Operation) (s : Heap) :
    (∃ e t, join.finalize operation s = .error e t ∧ Quiet s t) ∨
      ∃ certificate commits u t, join.finalize operation s = .ok certificate t ∧ Quiet s u ∧
        join.Collected operation commits u ∧
        join.AppliedIn operation ((sorted operation.domainIds).zip commits) u t := by
  cases run : join.collect operation s with
  | error e t => exact Or.inl ⟨e, t, finalize_eq ▸ bind_of_error run, final_of_error run ▸ quiet_collect.moves⟩
  | ok collected u =>
    obtain ⟨t, finalizes, applied⟩ := finalize_of_collect distinct run
    exact Or.inr ⟨collected.1, collected.2, u, t, finalizes, quiet_collect.step run, quiet_collect.returns _ _ run, applied⟩

theorem Collected.advanced {commits : List Certificate} (ready : join.Collected operation commits u) (quiet : Quiet s u)
    (applied : join.AppliedIn operation ((sorted operation.domainIds).zip commits) u t) {name : String} {i : Nat}
    (known : join.domains.get? name = some i) : (s.executors i).Advanced operation (t.executors i) := by
  have inDomains : name ∈ sorted operation.domainIds := by
    have inKeys : name ∈ join.domains.keys.toFinset := List.mem_toFinset.mpr (Dict.mem_keys.mpr ⟨i, known⟩)
    rw [← ready.domains, List.mem_toFinset] at inKeys
    exact (sortedBy_perm id operation.domainIds).mem_iff.mpr inKeys
  obtain ⟨length, pairs⟩ := List.forall₂_iff_zip.mp ready.ready
  have names : ((sorted operation.domainIds).zip commits).map Prod.fst = sorted operation.domainIds :=
    List.map_fst_zip length.le
  rw [← names, List.mem_map] at inDomains
  obtain ⟨pair, member, rfl⟩ := inDomains
  obtain ⟨j, there, valid, -⟩ := pairs member
  cases known.symm.trans there
  rw [applied.listed pair member i known]
  exact (DomainExecutor.advanced_of_valid valid).of_sameState (quiet.sameState i)

/-- Agreeable domains apply the operation. -/
theorem finalize_ok (verifies : SignaturesVerify) (distinct : join.domains.values.Nodup) (nonempty : join.domains.values ≠ [])
    (once : operation.domainIds.Nodup) (all : operation.domainIds.toFinset = join.domains.keys.toFinset)
    (agreeable : join.Agreeable operation s) :
    ∃ certificate t, join.finalize operation s = .ok certificate t ∧
      ∀ name i, join.domains.get? name = some i → operation.opId ∈ (t.executors i).committedOperations := by
  obtain ⟨collected, u, run⟩ := collect_ok verifies distinct nonempty once all agreeable
  obtain ⟨t, finalizes, applied⟩ := finalize_of_collect distinct run
  refine ⟨collected.1, t, finalizes, fun name i known => ?_⟩
  have advanced := (quiet_collect.returns _ _ run).advanced (quiet_collect.step run) applied known
  exact advanced.committed ▸ Finset.mem_insert_self _ _

end JoinCoordinator

/-- A coordinator of the domain `d`. -/
def soloJoin : JoinCoordinator := ⟨.set .empty "d" 0⟩

/-- Every reference leads to an executor of its own, with one object. -/
def soloHeap (pair : KeyPair) : Heap := ⟨fun _ => soloExecutor pair, id, fun _ _ _ => rfl⟩

theorem soloJoin_committee (h : Heap) : soloJoin.committee h = .ok 0 := rfl

theorem soloExecutor_willing (verifies : SignaturesVerify) (pair : KeyPair) (nonce : Int) :
    (soloExecutor pair).Willing (rewrite pair ["a"] nonce) where
  wellFormed := soloValidators_wellFormed pair
  consistent := QuorumCommittee.consistent_new _
  natural := le_rfl
  valid := soloExecutor_valid verifies pair nonce
  undecided phase _ := soloExecutor_undecided pair _ phase

theorem soloJoin_agreeable (verifies : SignaturesVerify) (pair : KeyPair) :
    soloJoin.Agreeable (rewrite pair ["a"] 0) (soloHeap pair) where
  shared i member j member' := by
    rw [List.mem_singleton.mp member, List.mem_singleton.mp member']
  named name i known := by
    cases List.mem_singleton.mp ((Dict.get?_eq_some_iff _).mp known)
    rfl
  willing name i known := soloExecutor_willing verifies pair 0

theorem soloJoin_finalizes (verifies : SignaturesVerify) (pair : KeyPair) :
    ∃ certificate t, soloJoin.finalize (rewrite pair ["a"] 0) (soloHeap pair) = .ok certificate t ∧
      (rewrite pair ["a"] 0).opId ∈ (t.executors 0).committedOperations := by
  obtain ⟨certificate, t, run, committed⟩ := @JoinCoordinator.finalize_ok _ soloJoin (soloHeap pair) (rewrite pair ["a"] 0)
    verifies (List.nodup_singleton 0) (List.cons_ne_nil _ _) (nodup_sortedSet _) rfl (soloJoin_agreeable verifies pair)
  exact ⟨certificate, t, run, committed "d" 0 (Dict.get?_set_self _ _ _)⟩

/-- A coordinator of the domains `d` and `e`. -/
def pairJoin : JoinCoordinator := ⟨(Dict.empty.set "d" 0).set "e" 1⟩

/-- An executor of the domain, with one object. -/
def ownerOf (pair : KeyPair) (domain object : String) : DomainExecutor :=
  (DomainExecutor.new domain 0 (.new (soloValidators pair))).setObject ⟨object, 0, pair.identity, "old", domain⟩ object

/-- Two executors that refer to one committee. -/
def pairHeap (pair : KeyPair) : Heap where
  executors i := if i = 0 then ownerOf pair "d" "a" else ownerOf pair "e" "b"
  committeeOf _ := 0
  shared i j _ := by
    split <;> split <;> rfl

/-- An operation that rewrites an object of each domain. -/
def rewriteBoth (pair : KeyPair) : Operation :=
  .create pair 0 [⟨"d", "a", 0⟩, ⟨"e", "b", 0⟩] [⟨"d", "a", 0, pair.identity, "new"⟩, ⟨"e", "b", 0, pair.identity, "new"⟩]
    ["d", "e"] [] 0

theorem ownerOf_valid (verifies : SignaturesVerify) (pair : KeyPair) {domain object : String}
    (listed : ⟨domain, object, 0⟩ ∈ (rewriteBoth pair).inputs) : (ownerOf pair domain object).Valid (rewriteBoth pair) where
  epoch := rfl
  declared := mem_sortedSet.mpr (List.mem_map_of_mem (f := InputRef.domainId) listed)
  signature := create_verifies verifies pair _ _ _ _ _ _
  fresh := Finset.notMem_empty _
  nonempty := List.cons_ne_nil _ _
  domains domain := by
    change domain ∈ ["d", "e"] ↔ domain ∈ sortedSet ["d", "e"]
    rw [mem_sortedSet]
  inputsDistinct := by
    change [("d", "a"), ("e", "b")].Nodup
    decide
  writesDistinct := by
    change [("d", "a"), ("e", "b")].Nodup
    decide
  paired _ := Iff.rfl
  versions item member intent member' _ := by
    have first : item.expectedVersion = 0 := by
      rcases List.mem_pair.mp member with rfl | rfl <;> rfl
    have second : intent.expectedVersion = 0 := by
      rcases List.mem_pair.mp member' with rfl | rfl <;> rfl
    rw [first, second]
  hasLocal := List.ne_nil_of_mem (List.mem_filter.mpr ⟨listed, decide_eq_true rfl⟩)
  current item member := by
    obtain ⟨inInputs, isLocal⟩ := List.mem_filter.mp member
    have domain' : item.domainId = domain := of_decide_eq_true isLocal
    -- the two inputs are of different domains
    have only : item = ⟨domain, object, 0⟩ := by
      rcases List.mem_pair.mp inInputs with rfl | rfl <;> rcases List.mem_pair.mp listed with same | same <;> cases same
      · rfl
      · exact absurd domain' (by decide)
      · exact absurd domain' (by decide)
      · rfl
    rw [only]
    exact ⟨_, Dict.get?_set_self _ _ _, rfl, rfl, rfl⟩

theorem ownerOf_willing (verifies : SignaturesVerify) (pair : KeyPair) {domain object : String}
    (listed : ⟨domain, object, 0⟩ ∈ (rewriteBoth pair).inputs) : (ownerOf pair domain object).Willing (rewriteBoth pair) where
  wellFormed := soloValidators_wellFormed pair
  consistent := QuorumCommittee.consistent_new _
  natural := le_rfl
  valid := ownerOf_valid verifies pair listed
  undecided _ _ _ _ := rfl

theorem pairJoin_agreeable (verifies : SignaturesVerify) (pair : KeyPair) :
    pairJoin.Agreeable (rewriteBoth pair) (pairHeap pair) where
  shared _ _ _ _ := rfl
  named name i known := by
    rcases List.mem_pair.mp ((Dict.get?_eq_some_iff _).mp known) with ⟨⟨⟩⟩ | ⟨⟨⟩⟩ <;> rfl
  willing name i known := by
    rcases List.mem_pair.mp ((Dict.get?_eq_some_iff _).mp known) with ⟨⟨⟩⟩ | ⟨⟨⟩⟩
    · exact ownerOf_willing verifies pair List.mem_cons_self
    · exact ownerOf_willing verifies pair (List.mem_cons_of_mem _ (List.mem_singleton_self _))

namespace JoinCoordinator
open Heap

variable {join : JoinCoordinator}

/-- Either every domain is left as it was, or every domain has applied the
operation. -/
theorem join_atomic (distinct : join.domains.values.Nodup) (operation : Operation) (s : Heap) :
    (∀ e t, join.finalize operation s = .error e t → ∀ i, (t.executors i).objects = (s.executors i).objects ∧
      (t.executors i).committedOperations = (s.executors i).committedOperations) ∧
    ∀ certificate t, join.finalize operation s = .ok certificate t →
      operation.domainIds.toFinset = join.domains.keys.toFinset ∧
        ∀ name i, join.domains.get? name = some i → (s.executors i).Advanced operation (t.executors i) := by
  rcases finalize_cases distinct operation s with ⟨e, t, run, quiet⟩ | ⟨certificate, commits, u, t, run, quiet, ready, applied⟩
  · rw [run]
    refine ⟨fun e' t' same i => ?_, nofun⟩
    cases same
    exact ⟨(quiet.sameState i).objects, (quiet.sameState i).committedOperations⟩
  · rw [run]
    refine ⟨nofun, fun certificate' t' same => ⟨ready.domains, fun name i known => ?_⟩⟩
    cases same
    exact ready.advanced quiet applied known

omit [Crypto] in
theorem join_atomic_pair : let _ := Crypto.ideal
    ∃ certificate t, pairJoin.finalize (rewriteBoth idealKey) (pairHeap idealKey) = .ok certificate t ∧
      (ownerOf idealKey "d" "a").Advanced (rewriteBoth idealKey) (t.executors 0) ∧
      (ownerOf idealKey "e" "b").Advanced (rewriteBoth idealKey) (t.executors 1) := by
  intro _
  have distinct : pairJoin.domains.values.Nodup := by
    change [0, 1].Nodup
    decide
  have all : (rewriteBoth idealKey).domainIds.toFinset = pairJoin.domains.keys.toFinset :=
    List.toFinset_eq_of_perm _ _ (sortedBy_perm id ["d", "e"])
  obtain ⟨certificate, t, run, -⟩ := @finalize_ok Crypto.ideal pairJoin (pairHeap idealKey) (rewriteBoth idealKey)
    ideal_signaturesVerify distinct (List.cons_ne_nil _ _) (nodup_sortedSet _) all
    (@pairJoin_agreeable Crypto.ideal ideal_signaturesVerify idealKey)
  have advanced := ((@join_atomic Crypto.ideal _ distinct _ _).2 certificate t run).2
  exact ⟨certificate, t, run, advanced "d" 0 rfl, advanced "e" 1 rfl⟩

end JoinCoordinator

end Mosaic.Nexus
