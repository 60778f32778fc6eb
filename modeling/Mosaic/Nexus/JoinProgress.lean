import Mosaic.Nexus.Join
import Mosaic.Nexus.Progress

namespace Mosaic.Nexus
open CanonicalJson Effects

variable [Crypto]

namespace Heap

variable {h s t : Heap} {i : Nat} {d : DomainExecutor}

/-- No executor's objects, committed operations or validators have changed. -/
structure Quiet (s t : Heap) : Prop where
  committeeOf : t.committeeOf = s.committeeOf
  sameState : ∀ i, (s.executors i).SameState (t.executors i)

instance : Std.Refl Quiet := ⟨fun s => ⟨rfl, fun i => .refl (s.executors i)⟩⟩

instance : IsTrans Heap Quiet where
  trans _ _ _ first second := ⟨second.committeeOf.trans first.committeeOf,
    fun i => (first.sameState i).trans (second.sameState i)⟩

theorem quiet_store (same : (h.executors i).SameState d) : Quiet h (h.store i d) := by
  refine ⟨rfl, fun j => ?_⟩
  by_cases here : j = i
  · rw [here, store_self]
    exact same
  · rcases store_other (h := h) (d := d) here with untouched | ⟨refers, set⟩
    · rw [untouched]
      exact .refl _
    · rw [set]
      refine ⟨rfl, rfl, rfl, rfl, ?_⟩
      rw [h.shared j i refers]
      exact same.validators

theorem store_committee {j : Nat} (refers : h.committeeOf j = h.committeeOf i) :
    ((h.store i d).executors j).committee = d.committee := by
  have shared := (h.store i d).shared j i refers
  rwa [store_self] at shared

theorem store_preparedCertificates {j : Nat} (apart : j ≠ i) :
    ((h.store i d).executors j).preparedCertificates = (h.executors j).preparedCertificates := by
  rcases store_other (h := h) (d := d) apart with untouched | ⟨-, set⟩
  · rw [untouched]
  · rw [set]
    rfl

end Heap

/-- The executor takes the operation: it is valid here, and nobody has voted otherwise. -/
structure DomainExecutor.Willing (d : DomainExecutor) (operation : Operation) : Prop where
  wellFormed : d.committee.WellFormed
  consistent : d.committee.Consistent
  natural : 0 ≤ d.epoch
  valid : d.Valid operation
  undecided : ∀ phase ∈ ["PREPARE", "COMMIT"], d.Undecided operation phase

namespace JoinCoordinator
open DomainExecutor

variable {join : JoinCoordinator} {h : Heap} {operation : Operation} {name : String} {i : Nat}

theorem signaturesValid_of_shared (shared : join.committee h = .ok i) {statement : Json} {signers : List String}
    {signatures : List (String × Bytes)} : join.signaturesValid h statement signers signatures =
      .ok ((h.executors i).committee.signaturesValid statement signers signatures) := by
  unfold signaturesValid QuorumCommittee.signaturesValid
  split
  · rename_i covered
    simp only [shared, covered, decide_true]
    rfl
  · rename_i uncovered
    simp only [uncovered, decide_false, Bool.false_and]
    rfl

/-- What all validators of a well-formed committee have signed is accepted. -/
structure SignedByAll (join : JoinCoordinator) (h : Heap) (c : QuorumCommittee) (statement : Json)
    (signatures : List (String × Bytes)) : Prop where
  signers : sorted (signatures.map Prod.fst) = signatures.map Prod.fst
  items : sortedSignatures signatures = signatures
  distinct : (signatures.map Prod.fst).Nodup
  known : (signatures.map Prod.fst).all fun item => (c.validators.get? item).isSome
  valid : join.signaturesValid h statement (signatures.map Prod.fst) signatures = .ok true
  weighs : (do
    let weight ← c.weightOf (signatures.map Prod.fst)
    return c.threshold ≤ weight && true) = (.ok true : Except NexusError Bool)

theorem signedByAll (join : JoinCoordinator) (shared : join.committee h = .ok i) (wf : (h.executors i).committee.WellFormed)
    (verifies : SignaturesVerify) (statement : Json) :
    join.SignedByAll h (h.executors i).committee statement ((h.executors i).committee.signAll statement) := by
  obtain ⟨weight, weighed, enough⟩ := wf.weightOf_signers statement
  refine ⟨QuorumCommittee.signers_sorted _, QuorumCommittee.signAll_sorted _, wf.nodup_signers, ?_, ?_, ?_⟩
  · exact List.all_eq_true.mpr (QuorumCommittee.weightOf_eq_ok.mp weighed).1
  · rw [signaturesValid_of_shared shared, wf.signaturesValid_signAll verifies]
  · rw [weighed, except_bind_eq_ok]
    exact ⟨weight, rfl, congrArg Except.ok (by simpa using enough)⟩

theorem SignedByAll.verifyAbort (shared : join.committee h = .ok i) {operation : Operation} {reason : String}
    {signatures : List (String × Bytes)}
    (signed : join.SignedByAll h (h.executors i).committee (abortStatement operation reason) signatures) :
    join.verifyAbort h operation {
      certificateId := certificateId (digest (abortStatement operation reason)) (signatures.map Prod.fst) signatures
      epoch := operation.epoch
      opId := operation.opId
      domainIds := sorted operation.domainIds
      reasonDigest := digest (.str reason)
      signers := signatures.map Prod.fst
      signatures
      statementDigest := digest (abortStatement operation reason) } reason = .ok true := by
  unfold JoinCoordinator.verifyAbort
  simp only [signed.valid, signed.signers, signed.items, and_self, if_true, shared]
  exact signed.weighs

/-- A well-formed committee signs every abort that has a reason. -/
theorem abort_ok (shared : join.committee h = .ok i) (wf : (h.executors i).committee.WellFormed)
    (verifies : SignaturesVerify) (operation : Operation) (reason : String) (given : ¬ reason.toList.all isSpace) :
    ∃ certificate, join.abort operation reason h = .ok certificate h := by
  unfold abort
  rw [raiseIf_bind_neg given, get_bind_apply, shared, ofExcept_ok_bind,
    bind_of_ok (ofExcept_of_ok (SignedByAll.verifyAbort shared (signedByAll join shared wf verifies _)) h),
    raiseIf_bind_neg (by simp)]
  exact ⟨_, rfl⟩

omit [Crypto] in
theorem name_inj (distinct : join.domains.values.Nodup) {name name' : String} {i : Nat}
    (known : join.domains.get? name = some i) (known' : join.domains.get? name' = some i) : name = name' := by
  have first := (Dict.get?_eq_some_iff _).mp known
  have second := (Dict.get?_eq_some_iff _).mp known'
  exact congrArg Prod.fst (List.inj_on_of_nodup_map distinct first second rfl)

omit [Crypto] in
theorem domain_of_known (known : join.domains.get? name = some i) : join.domain name = .ok i := by
  unfold domain
  rw [known]

/-- All domains take the operation, and one committee decides for them. -/
structure Agreeable (join : JoinCoordinator) (operation : Operation) (h : Heap) : Prop where
  shared : ∀ i ∈ join.domains.values, ∀ j ∈ join.domains.values, h.committeeOf j = h.committeeOf i
  named : ∀ name i, join.domains.get? name = some i → (h.executors i).domainId = name
  willing : ∀ name i, join.domains.get? name = some i → (h.executors i).Willing operation

/-- Votes for the operation leave the domains agreeable. -/
theorem Agreeable.store (agreeable : join.Agreeable operation h) (known : join.domains.get? name = some i)
    {d : DomainExecutor} (same : (h.executors i).SameState d) (consistent : d.committee.Consistent)
    (rivals : SameRivals operation (h.executors i).committee d.committee) : join.Agreeable operation (h.store i d) where
  shared := agreeable.shared
  named name' j known' := ((Heap.quiet_store same).sameState j).domainId.trans (agreeable.named name' j known')
  willing name' j known' := by
    have refers := agreeable.shared i (Dict.mem_values_of_get? known) j (Dict.mem_values_of_get? known')
    have committee := Heap.store_committee (h := h) (d := d) refers
    have state := (Heap.quiet_store same).sameState j
    have willing := agreeable.willing name' j known'
    refine ⟨willing.wellFormed.of_validators state.validators, committee ▸ consistent, state.epoch ▸ willing.natural,
      willing.valid.of_sameState state, fun phase listed rival different => ?_⟩
    rw [voteKey, state.domainId, state.epoch, state.objectVersions, committee, rivals _ rival different,
      ← h.shared j i refers]
    exact willing.undecided phase listed rival different

theorem Agreeable.leads (agreeable : join.Agreeable operation h) (nonempty : join.domains.values ≠ []) :
    ∃ name i, join.domains.get? name = some i ∧ join.committee h = .ok i := by
  unfold committee
  cases values : join.domains.values with
  | nil => exact absurd values nonempty
  | cons i others =>
    have first : i ∈ join.domains.values := values ▸ List.mem_cons_self
    obtain ⟨name, known⟩ := Dict.mem_values.mp first
    refine ⟨name, i, known, if_pos fun j member => ?_⟩
    exact agreeable.shared i first j (values ▸ List.mem_cons_of_mem i member)

/-- The domain has prepared the operation. -/
def Prepared (join : JoinCoordinator) (operation : Operation) (name : String) (certificate : Certificate) (h : Heap) : Prop :=
  (∃ i, join.domains.get? name = some i ∧ (h.executors i).preparedCertificates.get? operation.opId = some certificate) ∧
    certificate.domainIds = [name] ∧ certificate.opId = operation.opId ∧ certificate.phase = "PREPARE"

theorem Prepared.store (distinct : join.domains.values.Nodup) {certificate : Certificate} {name' : String}
    (known : join.domains.get? name' = some i) {d : DomainExecutor} (prepared : join.Prepared operation name certificate h)
    (kept : name ≠ name' ∨ d.preparedCertificates = (h.executors i).preparedCertificates) :
    join.Prepared operation name certificate (h.store i d) := by
  obtain ⟨⟨j, known', held⟩, about⟩ := prepared
  refine ⟨⟨j, known', ?_⟩, about⟩
  by_cases here : j = i
  · subst here
    rw [Heap.store_self]
    rcases kept with apart | same
    · exact absurd (name_inj distinct known' known) apart
    · rwa [same]
  · rwa [Heap.store_preparedCertificates here]

/-- An agreeable domain prepares the operation, and the others are left as they are. -/
theorem prepareDomain_ok (verifies : SignaturesVerify) (distinct : join.domains.values.Nodup)
    (known : join.domains.get? name = some i) (agreeable : join.Agreeable operation h) :
    ∃ certificate t, (do
        let i ← ofExcept (join.domain name)
        onDomain i (prepare operation none)) h = .ok certificate t ∧
      join.Agreeable operation t ∧ join.Prepared operation name certificate t ∧
      ∀ name' certificate', name' ≠ name → join.Prepared operation name' certificate' h →
        join.Prepared operation name' certificate' t := by
  obtain ⟨wf, consistent, natural, valid, undecided⟩ := agreeable.willing name i known
  obtain ⟨certificate, d, prepares, phase, consistent', rivals, -⟩ := prepare_ok verifies wf natural consistent valid
    (undecided "PREPARE" (by simp))
  have step := collects_prepare.step prepares
  obtain ⟨-, kept, certified⟩ := collects_prepare.returns _ _ prepares
  obtain ⟨⟨-, -, -, domains, opId, -⟩, -⟩ := QuorumCommittee.verifyCertificate_eq_true.mp certified.accepted
  rw [step.domainId, agreeable.named name i known] at domains
  refine ⟨certificate, h.store i d, ?_, agreeable.store known step.sameState consistent' rivals,
    ⟨⟨i, known, ?_⟩, domains, opId, phase⟩, fun name' certificate' apart prepared => ?_⟩
  · rw [bind_of_ok (ofExcept_of_ok (domain_of_known known) h)]
    exact onPart_of_ok prepares
  · rwa [Heap.store_self]
  · exact prepared.store distinct known (Or.inl apart)

/-- So does one that has prepared it commit it. -/
theorem commitDomain_ok (verifies : SignaturesVerify) (distinct : join.domains.values.Nodup)
    (agreeable : join.Agreeable operation h) {certificate : Certificate}
    (prepared : join.Prepared operation name certificate h) :
    ∃ commit t, join.commitDomain operation name h = .ok commit t ∧ join.Agreeable operation t ∧
      ∀ name' certificate', join.Prepared operation name' certificate' h → join.Prepared operation name' certificate' t := by
  obtain ⟨i, known, held⟩ := prepared.1
  obtain ⟨wf, consistent, natural, valid, undecided⟩ := agreeable.willing name i known
  obtain ⟨commit, d, commits, consistent', rivals, same⟩ := commitCertificate_ok verifies wf natural consistent valid
    (undecided "COMMIT" (by simp)) held
  have step := collects_commitCertificate.step commits
  refine ⟨commit, h.store i d, ?_, agreeable.store known step.sameState consistent' rivals, fun name' certificate' other => ?_⟩
  · unfold commitDomain
    rw [bind_of_ok (ofExcept_of_ok (domain_of_known known) h), get_bind_apply, held]
    exact onPart_of_ok commits
  · exact other.store distinct known (Or.inr same)

/-- What the certificates of prepared domains say. -/
structure Covers (operation : Operation) (names : List String) (certificates : List Certificate) : Prop where
  headed : ∀ part ∈ certificates, part.firstDomain = .ok part.domainKey
  keys : certificates.map Certificate.domainKey = names
  parts : ∀ part ∈ certificates, ¬ (part.opId ≠ operation.opId ∨ part.phase ≠ "PREPARE")

theorem covers_of_prepared {names : List String} {certificates : List Certificate}
    (prepared : List.Forall₂ (fun name certificate => join.Prepared operation name certificate h) names certificates) :
    Covers operation names certificates := by
  induction prepared with
  | nil => exact ⟨by simp, rfl, by simp⟩
  | @cons name certificate names certificates first _ rest =>
    obtain ⟨-, domains, opId, phase⟩ := first
    have key : certificate.domainKey = name := by rw [Certificate.domainKey, domains, List.headD_cons]
    refine ⟨fun part member => ?_, by rw [List.map_cons, rest.keys, key], fun part member => ?_⟩
    · rcases List.mem_cons.mp member with rfl | later
      · rw [Certificate.firstDomain, domains, key]
      · exact rest.headed part later
    · rcases List.mem_cons.mp member with rfl | later
      · simp [opId, phase]
      · exact rest.parts part later

section Covers
variable {names : List String} {certificates : List Certificate}

omit [Crypto] in
theorem Covers.domains (covers : Covers operation names certificates) :
    certificates.mapM Certificate.firstDomain = .ok names := by
  rw [mapM_of_ok covers.headed, covers.keys]

omit [Crypto] in
theorem Covers.statement (covers : Covers operation names certificates) :
    ∃ statement, joinStatement operation certificates = .ok statement := by
  have items : ∀ part ∈ certificates, (do
      let domain ← part.firstDomain
      return .obj [("domain", .str domain), ("certificate_id", .str part.certificateId),
        ("statement_digest", .str part.statementDigest)] : Except NexusError Json) =
          .ok (.obj [("domain", .str part.domainKey), ("certificate_id", .str part.certificateId),
            ("statement_digest", .str part.statementDigest)]) := by
    intro part member
    rw [covers.headed part member]
    rfl
  unfold joinStatement
  rw [mapM_of_ok items]
  exact ⟨_, rfl⟩

omit [Crypto] in
theorem Covers.inOrder (covers : Covers operation names certificates)
    (ordered : sorted names = names) : sortedBy Certificate.domainKey certificates = certificates := by
  refine sortedBy_of_pairwise ?_
  have pairwise := sortedBy_pairwise id names
  rw [show sortedBy id names = names from ordered, ← covers.keys] at pairwise
  exact List.pairwise_map.mp pairwise

omit [Crypto] in
theorem Covers.own (covers : Covers operation names certificates) :
    ¬ ∃ part ∈ certificates, part.opId ≠ operation.opId ∨ part.phase ≠ "PREPARE" := by
  rintro ⟨part, member, other⟩
  exact covers.parts part member other

theorem SignedByAll.verifyJoinCertificate (shared : join.committee h = .ok i)
    (covers : Covers operation names certificates) (ordered : sorted names = names)
    (all : names.toFinset = operation.domainIds.toFinset) {statement : Json}
    (stated : joinStatement operation certificates = .ok statement) {signatures : List (String × Bytes)}
    (signed : join.SignedByAll h (h.executors i).committee statement signatures) :
    join.verifyJoinCertificate h operation {
      certificateId := certificateId (digest statement) (signatures.map Prod.fst) signatures
      epoch := operation.epoch
      opId := operation.opId
      domainCertificates := sortedBy Certificate.domainKey certificates
      signers := signatures.map Prod.fst
      signatures
      statementDigest := digest statement } = .ok true := by
  rw [covers.inOrder ordered]
  unfold JoinCoordinator.verifyJoinCertificate
  rw [if_neg (by simp), except_bind_eq_ok]
  refine ⟨names, covers.domains, ?_⟩
  rw [if_neg (not_not.mpr all), if_neg covers.own, covers.inOrder ordered, except_bind_eq_ok]
  refine ⟨statement, stated, ?_⟩
  rw [signed.valid, except_bind_eq_ok]
  refine ⟨true, rfl, ?_⟩
  rw [if_pos (by simp [signed.signers, signed.items, signed.distinct]), shared, except_bind_eq_ok]
  refine ⟨i, rfl, ?_⟩
  dsimp only
  rw [if_pos signed.known]
  exact signed.weighs

/-- The certificates are joined, and nothing but messages is counted. -/
theorem issueJoinCertificate_ok (verifies : SignaturesVerify) (shared : join.committee h = .ok i)
    (wf : (h.executors i).committee.WellFormed) (covers : Covers operation names certificates) (ordered : sorted names = names)
    (all : names.toFinset = operation.domainIds.toFinset) (length : names.length = operation.domainIds.length) :
    ∃ certificate c, join.issueJoinCertificate operation certificates h =
        .ok certificate (h.store i (setCommittee c (h.executors i))) ∧ (h.executors i).committee.SameVotes c ∧
      join.verifyJoinCertificate (h.store i (setCommittee c (h.executors i))) operation certificate = .ok true := by
  obtain ⟨statement, stated⟩ := covers.statement
  let signatures := (h.executors i).committee.signAll statement
  let c := (h.executors i).committee.countMessages statement (signatures.map Prod.snd)
  have counted : (h.executors i).committee.SameVotes c := QuorumCommittee.sameVotes_countMessages _ _ _
  have shared' : join.committee (h.store i (setCommittee c (h.executors i))) = .ok i := shared
  have signed := signedByAll join shared' (by rw [Heap.store_self]; exact wf.of_validators counted.validators)
    verifies statement
  have same : ((h.store i (setCommittee c (h.executors i))).executors i).committee.signAll statement = signatures := by
    rw [Heap.store_self]
    rfl
  rw [same] at signed
  have complete : certificates.length = operation.domainIds.length := by
    rw [← length, ← covers.keys, List.length_map]
  have counts : onDomain i (onCommittee (modify fun c => c.countMessages statement (signatures.map Prod.snd))) h =
      .ok ⟨⟩ (h.store i (setCommittee c (h.executors i))) := onPart_of_ok (onPart_of_ok (modify_apply _ _))
  refine ⟨_, c, ?_, counted, SignedByAll.verifyJoinCertificate shared' covers ordered all stated signed⟩
  unfold issueJoinCertificate
  rw [raiseIf_bind_neg (not_not.mpr complete), bind_of_ok (ofExcept_of_ok covers.domains h),
    raiseIf_bind_neg (not_not.mpr all), raiseIf_bind_neg covers.own, bind_of_ok (ofExcept_of_ok stated h), get_bind_apply,
    bind_of_ok (ofExcept_of_ok shared h), bind_of_ok counts]
  rfl

end Covers

/-- One agreeable domain after the other prepares the operation. -/
theorem prepareAll_ok (verifies : SignaturesVerify) (distinct : join.domains.values.Nodup)
    (all : operation.domainIds.toFinset = join.domains.keys.toFinset) (agreeable : join.Agreeable operation h) :
    ∃ certificates t, join.prepareAll operation h = .ok certificates t ∧ join.Agreeable operation t ∧
      List.Forall₂ (fun name certificate => join.Prepared operation name certificate t)
        (sortedSet operation.domainIds) certificates := by
  unfold prepareAll
  rw [raiseIf_bind_neg (not_not.mpr all)]
  obtain ⟨certificates, t, ran, agreeable', prepared, -⟩ := mapM_returns (fun name member s agreeable => by
    have listed : name ∈ join.domains.keys.toFinset := all ▸ List.mem_toFinset.mpr (mem_sortedSet.mp member)
    obtain ⟨i, known⟩ := Dict.mem_keys.mp (List.mem_toFinset.mp listed)
    exact prepareDomain_ok verifies distinct known agreeable) (nodup_sortedSet operation.domainIds) agreeable
  exact ⟨certificates, t, ran, agreeable', prepared⟩

/-- Then one after the other commits it. -/
theorem commitAll_ok (verifies : SignaturesVerify) (distinct : join.domains.values.Nodup)
    (agreeable : join.Agreeable operation h) {names : List String} (once : names.Nodup)
    (prepared : ∀ name ∈ names, ∃ certificate, join.Prepared operation name certificate h) :
    ∃ commits t, names.mapM (join.commitDomain operation) h = .ok commits t := by
  obtain ⟨commits, t, ran, -⟩ := @mapM_returns _ _ _ _
    (fun s => join.Agreeable operation s ∧ ∀ name ∈ names, ∃ certificate, join.Prepared operation name certificate s)
    (fun _ _ _ => True) (join.commitDomain operation) names h (fun name member s holds => by
      obtain ⟨certificate, ready⟩ := holds.2 name member
      obtain ⟨commit, t, ran, agreeable', kept⟩ := commitDomain_ok verifies distinct holds.1 ready
      refine ⟨commit, t, ran, ⟨agreeable', fun name' member' => ?_⟩, trivial, fun _ _ _ _ => trivial⟩
      obtain ⟨certificate', ready'⟩ := holds.2 name' member'
      exact ⟨certificate', kept name' certificate' ready'⟩) once ⟨agreeable, prepared⟩
  exact ⟨commits, t, ran⟩

end JoinCoordinator

end Mosaic.Nexus

