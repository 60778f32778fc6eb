import Mosaic.Nexus.DomainSteps

namespace Mosaic.Nexus
open CanonicalJson Effects

variable [Crypto]

namespace QuorumCommittee

/-- The validators stand under their own names and have some weight together. -/
structure WellFormed (c : QuorumCommittee) : Prop where
  named : ∀ entry ∈ c.validators.entries, entry.2.validatorId = entry.1
  weighty : 0 < c.totalWeight

variable {c d : QuorumCommittee} {key other : ConflictKey} {choice rival : String × String} {operation : Operation}

theorem WellFormed.of_validators (wf : c.WellFormed) (same : d.validators = c.validators) : d.WellFormed where
  named := same ▸ wf.named
  weighty := by
    have weight := wf.weighty
    rwa [totalWeight, same]

theorem WellFormed.names (wf : c.WellFormed) : c.validators.values.map Validator.validatorId = c.validators.keys := by
  rw [Dict.values, Dict.keys, List.map_map]
  exact List.map_congr_left wf.named

theorem WellFormed.known (wf : c.WellFormed) {validator : Validator} (member : validator ∈ c.validators.values) :
    c.validators.get? validator.validatorId = some validator := by
  obtain ⟨entry, inEntries, rfl⟩ := List.mem_map.mp member
  rw [Dict.get?_eq_some_iff, wf.named entry inEntries]
  exact inEntries

theorem WellFormed.enough (wf : c.WellFormed) {voters : Finset String} (all : voters = c.validators.keys.toFinset) :
    c.threshold ≤ c.weigh voters := by
  have positive := wf.weighty
  rw [all, ← totalWeight_eq_weigh, threshold]
  omega

theorem signAll_sorted (statement : Json) : sortedSignatures (c.signAll statement) = c.signAll statement :=
  sortedSignatures_sortedSignatures _

theorem signers_sorted (statement : Json) :
    sorted ((c.signAll statement).map Prod.fst) = (c.signAll statement).map Prod.fst := sorted_map_fst _ _

theorem WellFormed.mem_signers (wf : c.WellFormed) {statement : Json} {item : String} :
    item ∈ (c.signAll statement).map Prod.fst ↔ item ∈ c.validators.keys := by
  rw [← wf.names, signAll, ((sortedSignatures_perm _).map Prod.fst).mem_iff, List.map_map]
  rfl

theorem WellFormed.nodup_signers (wf : c.WellFormed) {statement : Json} :
    ((c.signAll statement).map Prod.fst).Nodup := by
  rw [signAll, ((sortedSignatures_perm _).map Prod.fst).nodup_iff, List.map_map]
  exact wf.names ▸ c.validators.nodup

theorem WellFormed.weightOf_signers (wf : c.WellFormed) (statement : Json) :
    ∃ weight, c.weightOf ((c.signAll statement).map Prod.fst) = .ok weight ∧ c.threshold ≤ weight := by
  refine ⟨_, weightOf_eq_ok.mpr ⟨fun item member => ?_, rfl⟩, wf.enough ?_⟩
  · exact Option.isSome_iff_exists.mpr (Dict.mem_keys.mp (wf.mem_signers.mp member))
  · ext item
    rw [List.mem_toFinset, List.mem_toFinset, wf.mem_signers]

theorem WellFormed.signaturesValid_signAll (wf : c.WellFormed) (verifies : SignaturesVerify) (statement : Json) :
    c.signaturesValid statement ((c.signAll statement).map Prod.fst) (c.signAll statement) = true := by
  refine signaturesValid_eq_true.mpr ⟨fun _ => Iff.rfl, fun item signature found => ?_⟩
  have signed := mem_sortedSignatures.mp (mem_sortedSignatures.mp (Dict.mem_of_get?_ofList found))
  obtain ⟨validator, member, same⟩ := List.mem_map.mp signed
  cases same
  exact ⟨validator, wf.known member, verifies _ _⟩

theorem WellFormed.verifyDac_signed (wf : c.WellFormed) (verifies : SignaturesVerify) (operation : Operation) :
    c.verifyDac operation {
      certificateId := certificateId (digest (availabilityStatement operation))
        ((c.signAll (availabilityStatement operation)).map Prod.fst) (c.signAll (availabilityStatement operation))
      epoch := operation.epoch
      opId := operation.opId
      payloadDigest := operation.opId
      signers := (c.signAll (availabilityStatement operation)).map Prod.fst
      signatures := c.signAll (availabilityStatement operation)
      statementDigest := digest (availabilityStatement operation) } = .ok true := by
  obtain ⟨weight, weighed, enough⟩ := wf.weightOf_signers (availabilityStatement operation)
  unfold verifyDac
  rw [if_pos (by simp only [signers_sorted, signAll_sorted, and_self])]
  rw [except_bind_eq_ok]
  refine ⟨weight, weighed, ?_⟩
  rw [wf.signaturesValid_signAll verifies, decide_eq_true enough]
  rfl

theorem WellFormed.issueDac (wf : c.WellFormed) (verifies : SignaturesVerify) (operation : Operation) :
    ∃ certificate d, QuorumCommittee.issueDac operation c = .ok certificate d ∧ c.SameVotes d ∧
      d.verifyDac operation certificate = .ok true := by
  have counted := c.sameVotes_countMessages (availabilityStatement operation)
    ((c.signAll (availabilityStatement operation)).map Prod.snd)
  refine ⟨_, _, ?_, counted, (wf.of_validators counted.validators).verifyDac_signed verifies operation⟩
  unfold QuorumCommittee.issueDac
  rw [get_bind_apply, bind_of_ok (modify_apply _ _), wf.verifyDac_signed verifies operation, ofExcept_ok_bind,
    raiseIf_bind_neg (by simp)]
  rfl

end QuorumCommittee

namespace DomainExecutor
open QuorumCommittee

variable {d : DomainExecutor} {operation : Operation} {phase : String}

/-- The key under which the votes for an operation are filed here. -/
def voteKey (d : DomainExecutor) (operation : Operation) (phase : String) : ConflictKey :=
  ⟨d.epoch, d.domainId, d.objectVersions operation, phase⟩

/-- Nobody has voted under the key for another operation. -/
def Undecided (d : DomainExecutor) (operation : Operation) (phase : String) : Prop :=
  ∀ rival, rival ≠ (operation.opId, operation.dependencyDigest) →
    d.committee.supporters (d.voteKey operation phase) rival = ∅

/-- The executor has changed in nothing but its votes, and those of the
validators have been added. -/
structure Voted (d : DomainExecutor) (key : ConflictKey) (choice : String × String) (names : List String)
    (t : DomainExecutor) : Prop where
  frame : t = { d with committee := t.committee, signedVotes := t.signedVotes }
  consistent : t.committee.Consistent
  validators : t.committee.validators = d.committee.validators
  supporters : ∀ other rival item, item ∈ t.committee.supporters other rival ↔
    item ∈ d.committee.supporters other rival ∨ other = key ∧ rival = choice ∧ item ∈ names
  log : ∀ entry ∈ t.signedVotes, entry ∈ d.signedVotes ∨ entry.2.phase = key.phase

/-- What else has been voted for stands as it did. -/
def SameRivals (operation : Operation) (c d : QuorumCommittee) : Prop :=
  ∀ key rival, rival ≠ (operation.opId, operation.dependencyDigest) → d.supporters key rival = c.supporters key rival

theorem Voted.rivals {key : ConflictKey} {names : List String} {t : DomainExecutor}
    (voted : d.Voted key (operation.opId, operation.dependencyDigest) names t) :
    SameRivals operation d.committee t.committee := by
  refine fun other rival different => Finset.ext fun item => ?_
  refine (voted.supporters other rival item).trans (or_iff_left ?_)
  rintro ⟨-, same, -⟩
  exact different same

/-- One validator after the other signs, and each vote is accepted. -/
theorem votes_ok (verifies : SignaturesVerify) {epoch : Int} {domainId : String} {objectVersions : List (String × Int)}
    {opId dependencyDigest : String} (natural : 0 ≤ epoch) (consistent : d.committee.Consistent)
    (validators : List Validator)
    (known : ∀ validator ∈ validators, d.committee.validators.get? validator.validatorId = some validator)
    (undecided : ∀ rival, rival ≠ (opId, dependencyDigest) →
      d.committee.supporters ⟨epoch, domainId, objectVersions, phase⟩ rival = ∅) :
    ∃ t, (validators.forM fun validator => do
        modify (logVote validator (validator.signVote epoch domainId objectVersions opId dependencyDigest phase))
        onCommittee (QuorumCommittee.recordVote
          (validator.signVote epoch domainId objectVersions opId dependencyDigest phase))) d = .ok ⟨⟩ t ∧
      d.Voted ⟨epoch, domainId, objectVersions, phase⟩ (opId, dependencyDigest) (validators.map Validator.validatorId) t := by
  induction validators generalizing d with
  | nil => exact ⟨d, rfl, rfl, consistent, rfl, by simp, fun _ => Or.inl⟩
  | cons validator validators ih =>
    let vote := validator.signVote epoch domainId objectVersions opId dependencyDigest phase
    have there := known validator (by simp)
    have fits : d.committee.Recordable vote := by
      refine ⟨⟨validator, there, verifies _ _⟩, natural, fun previous filed => ?_⟩
      change (d.committee.statementsAt ⟨epoch, domainId, objectVersions, phase⟩).get? validator.validatorId = _ at filed
      rw [consistent.choices, Option.map_eq_some_iff] at filed
      obtain ⟨old, found, rfl⟩ := filed
      by_contra different
      have voted := consistent.mem_supporters.mpr ⟨old, found, rfl⟩
      rw [undecided old.choice different] at voted
      exact absurd voted (Finset.notMem_empty _)
    obtain ⟨c, same, run⟩ := recordVote_of_recordable fits
    have first : (do
        modify (logVote validator vote)
        onCommittee (QuorumCommittee.recordVote vote) : PyDomain PUnit) d =
          .ok ⟨⟩ (setCommittee (c.file vote) (logVote validator vote d)) := by
      rw [bind_of_ok (modify_apply _ _)]
      exact onPart_of_ok run
    have after : ∀ other rival item, item ∈ (c.file vote).supporters other rival ↔
        item ∈ d.committee.supporters other rival ∨
          ⟨epoch, domainId, objectVersions, phase⟩ = other ∧ (opId, dependencyDigest) = rival ∧
            validator.validatorId = item := by
      intro other rival item
      have added : item ∈ (final (QuorumCommittee.recordVote vote) d.committee).supporters other rival ↔ _ :=
        consistent.mem_supporters_recordVote fits
      rwa [final_of_ok run] at added
    have consistent' := consistent.recordVote vote
    rw [final_of_ok run] at consistent'
    obtain ⟨t, later, voted⟩ := @ih (setCommittee (c.file vote) (logVote validator vote d)) consistent'
      (fun other member => by
        change (c.file vote).validators.get? other.validatorId = some other
        rw [show (c.file vote).validators = d.committee.validators from same.validators]
        exact known other (List.mem_cons_of_mem _ member))
      (fun rival different => by
        refine Finset.eq_empty_iff_forall_notMem.mpr fun item member => ?_
        rcases (after _ _ _).mp member with before | ⟨-, mine, -⟩
        · rw [undecided rival different] at before
          exact absurd before (Finset.notMem_empty item)
        · exact different mine.symm)
    refine ⟨t, ?_, ?_, voted.consistent, voted.validators.trans same.validators, fun other rival item => ?_,
      fun entry member => ?_⟩
    · rw [List.forM_eq_forM, List.forM_cons, bind_of_ok first]
      exact later
    · rw [voted.frame]
      rfl
    · rw [voted.supporters]
      change item ∈ (c.file vote).supporters other rival ∨ _ ↔ _
      rw [after, List.map_cons, List.mem_cons]
      constructor
      · rintro ((before | ⟨rfl, rfl, rfl⟩) | ⟨rfl, rfl, later⟩)
        · exact Or.inl before
        · exact Or.inr ⟨rfl, rfl, Or.inl rfl⟩
        · exact Or.inr ⟨rfl, rfl, Or.inr later⟩
      · rintro (before | ⟨rfl, rfl, rfl | later⟩)
        · exact Or.inl (Or.inl before)
        · exact Or.inl (Or.inr ⟨rfl, rfl, rfl⟩)
        · exact Or.inr ⟨rfl, rfl, later⟩
    · rcases voted.log entry member with before | phase
      · rcases List.mem_append.mp before with old | new
        · exact Or.inl old
        · exact Or.inr (by rw [List.mem_singleton.mp new]; rfl)
      · exact Or.inr phase

theorem recordVotes_ok (verifies : SignaturesVerify) (wf : d.committee.WellFormed) (natural : 0 ≤ d.epoch)
    (consistent : d.committee.Consistent) (undecided : d.Undecided operation phase) :
    ∃ t, recordVotes operation phase d = .ok ⟨⟩ t ∧ d.Voted (d.voteKey operation phase)
      (operation.opId, operation.dependencyDigest) d.committee.validators.keys t := by
  obtain ⟨t, run, voted⟩ := votes_ok verifies natural consistent d.committee.validators.values
    (fun validator member => wf.known member) undecided
  rw [wf.names] at voted
  exact ⟨t, run, voted⟩

/-- Once every validator has voted for the operation there is a certificate for it, and it is accepted. -/
theorem certificate_ok (wf : d.committee.WellFormed) (consistent : d.committee.Consistent)
    (phases : phase ∈ ["PREPARE", "COMMIT"])
    (all : ∀ item ∈ d.committee.validators.keys, item ∈ d.committee.supporters (d.voteKey operation phase)
      (operation.opId, operation.dependencyDigest)) :
    ∃ certificate, d.committee.issueCertificate d.epoch d.domainId (d.objectVersions operation) operation phase =
        .ok certificate ∧
      d.committee.verifyCertificate certificate d.epoch d.domainId (d.objectVersions operation) operation = .ok true ∧
      certificate.phase = phase := by
  have enough : d.committee.threshold ≤ d.committee.weigh (d.committee.supporters (d.voteKey operation phase)
      (operation.opId, operation.dependencyDigest)) := by
    refine wf.enough (Finset.ext fun item => ?_)
    rw [List.mem_toFinset]
    refine ⟨fun member => ?_, all item⟩
    exact Dict.mem_keys.mpr (Option.isSome_iff_exists.mp
      (consistent.known_of_supporting (List.mem_toFinset.mp member)))
  exact ⟨_, consistent.issueCertificate_eq_ok.mpr ⟨enough, rfl⟩, consistent.verify_assemble phases enough, rfl⟩

theorem certify_ok (failure : String) (wf : d.committee.WellFormed) (consistent : d.committee.Consistent)
    (phases : phase ∈ ["PREPARE", "COMMIT"])
    (all : ∀ item ∈ d.committee.validators.keys, item ∈ d.committee.supporters (d.voteKey operation phase)
      (operation.opId, operation.dependencyDigest)) :
    ∃ certificate, certify operation phase failure d = .ok certificate d ∧ certificate.phase = phase := by
  obtain ⟨certificate, issued, accepted, same⟩ := certificate_ok wf consistent phases all
  refine ⟨certificate, ?_, same⟩
  unfold certify
  rw [get_bind_apply, bind_of_ok (ofExcept_of_ok issued d), bind_of_ok (ofExcept_of_ok accepted d),
    raiseIf_bind_neg (by simp)]
  rfl

/-- A committee that has not voted otherwise prepares every valid operation. -/
theorem prepare_ok (verifies : SignaturesVerify) (wf : d.committee.WellFormed) (natural : 0 ≤ d.epoch)
    (consistent : d.committee.Consistent) (valid : d.Valid operation) (undecided : d.Undecided operation "PREPARE") :
    ∃ certificate t, prepare operation none d = .ok certificate t ∧ certificate.phase = "PREPARE" ∧
      t.committee.Consistent ∧ SameRivals operation d.committee t.committee ∧
      ∀ entry ∈ t.signedVotes, entry ∈ d.signedVotes ∨ entry.2.phase = "PREPARE" := by
  obtain ⟨dac, c, issued, same, available⟩ := wf.issueDac verifies operation
  have supporters : ∀ key choice, c.supporters key choice = d.committee.supporters key choice := by
    intro key choice
    simp only [QuorumCommittee.supporters, QuorumCommittee.supporting, same.votesAt]
  obtain ⟨v, recorded, voted⟩ := @recordVotes_ok _ (keepAvailability operation dac (setCommittee c d)) operation "PREPARE" verifies
    (wf.of_validators same.validators) natural (consistent.of_same same)
    (fun rival different => (supporters _ _).trans (undecided rival different))
  have key : v.voteKey operation "PREPARE" = d.voteKey operation "PREPARE" := by
    rw [voted.frame]
    rfl
  obtain ⟨certificate, certified, phase⟩ := @certify_ok _ v operation "PREPARE"
    "issued prepare certificate failed verification"
    (wf.of_validators (voted.validators.trans same.validators)) voted.consistent (by simp) (fun item member => by
      rw [key, voted.supporters]
      exact Or.inr ⟨rfl, rfl, voted.validators ▸ member⟩)
  refine ⟨certificate, keepPrepared operation certificate v, ?_, phase, voted.consistent, fun key rival different => ?_,
    voted.log⟩
  · have checked := ofExcept_of_ok (validateOperation_eq_ok.mpr valid) d
    have supplied : availabilityOr operation none d = .ok dac (setCommittee c d) := onPart_of_ok issued
    have accepted : (ofExcept ((setCommittee c d).committee.verifyDac operation dac) : PyDomain Bool) (setCommittee c d) =
        .ok true (setCommittee c d) := ofExcept_of_ok available _
    unfold prepare
    rw [get_bind_apply, bind_of_ok checked, bind_of_ok supplied, get_bind_apply,
      bind_of_ok accepted, raiseIf_bind_neg (by simp),
      bind_of_ok (modify_apply _ _), bind_of_ok recorded, bind_of_ok certified, bind_of_ok (modify_apply _ _)]
    rfl
  · exact (voted.rivals key rival different).trans (supporters key rival)

theorem commitCertificate_ok (verifies : SignaturesVerify) (wf : d.committee.WellFormed) (natural : 0 ≤ d.epoch)
    (consistent : d.committee.Consistent) (valid : d.Valid operation) (undecided : d.Undecided operation "COMMIT")
    {prepared : Certificate} (known : d.preparedCertificates.get? operation.opId = some prepared) :
    ∃ certificate t, commitCertificate operation prepared d = .ok certificate t ∧ t.committee.Consistent ∧
      SameRivals operation d.committee t.committee ∧ t.preparedCertificates = d.preparedCertificates := by
  obtain ⟨v, recorded, voted⟩ := recordVotes_ok verifies wf natural consistent undecided
  have key : v.voteKey operation "COMMIT" = d.voteKey operation "COMMIT" := by
    rw [voted.frame]
    rfl
  obtain ⟨certificate, certified, -⟩ := @certify_ok _ v operation "COMMIT"
    "issued commit certificate failed verification" (wf.of_validators voted.validators) voted.consistent (by simp)
    (fun item member => by
      rw [key, voted.supporters]
      exact Or.inr ⟨rfl, rfl, voted.validators ▸ member⟩)
  refine ⟨certificate, v, ?_, voted.consistent, voted.rivals, by rw [voted.frame]⟩
  unfold commitCertificate
  rw [get_bind_apply, bind_of_ok (ofExcept_of_ok (validateOperation_eq_ok.mpr valid) d),
    raiseIf_bind_neg (by simp [known]), raiseIf_bind_neg (not_not.mpr known), bind_of_ok recorded]
  exact certified

theorem Undecided.of_collects {t : DomainExecutor} (undecided : d.Undecided operation phase) (collects : Collects d t)
    (rivals : SameRivals operation d.committee t.committee) : t.Undecided operation phase := by
  intro rival different
  rw [voteKey, collects.epoch, collects.domainId, collects.sameState.objectVersions]
  exact (rivals _ rival different).trans (undecided rival different)

/-- Where nobody has voted otherwise a valid operation becomes final. -/
theorem finalize_ok (verifies : SignaturesVerify) (wf : d.committee.WellFormed) (natural : 0 ≤ d.epoch)
    (consistent : d.committee.Consistent) (valid : d.Valid operation)
    (undecided : ∀ phase ∈ ["PREPARE", "COMMIT"], d.Undecided operation phase) :
    ∃ certificate t, finalize operation d = .ok certificate t ∧ operation.opId ∈ t.committedOperations := by
  obtain ⟨prepared, u, prepares, -, consistent', rivals, -⟩ := prepare_ok verifies wf natural consistent valid
    (undecided "PREPARE" (by simp))
  have step := collects_prepare.step prepares
  obtain ⟨-, kept, -⟩ := collects_prepare.returns _ _ prepares
  obtain ⟨certificate, v, commits, -⟩ := commitCertificate_ok verifies (wf.of_validators step.validators)
    (step.epoch ▸ natural) consistent' (valid.of_collects step) ((undecided "COMMIT" (by simp)).of_collects step rivals) kept
  have step' := collects_commitCertificate.step commits
  obtain ⟨-, -, certified⟩ := collects_commitCertificate.returns _ _ commits
  have applies := applyCommitted_of_valid ((valid.of_collects step).of_collects step') certified.accepted
  refine ⟨certificate, v.applied operation certificate, ?_, Finset.mem_insert_self _ _⟩
  unfold finalize commit
  rw [bind_of_ok prepares, bind_of_ok commits, bind_of_ok applies]
  rfl

end DomainExecutor

/-- One validator of weight one. -/
def soloValidators (pair : KeyPair) : Dict String Validator := Dict.empty.set "v" ⟨"v", pair, 1⟩

/-- An operation that rewrites objects of one domain at version zero. -/
def rewrite (pair : KeyPair) (objects : List String) (nonce : Int) : Operation :=
  .create pair 0 (objects.map fun object => ⟨"d", object, 0⟩)
    (objects.map fun object => ⟨"d", object, 0, pair.identity, "new"⟩) ["d"] [] nonce

@[simp] theorem rewrite_inputs (pair : KeyPair) (objects : List String) (nonce : Int) :
    (rewrite pair objects nonce).inputs = objects.map fun object => ⟨"d", object, 0⟩ := rfl

theorem rewrite_opId (free : CollisionFree) (pair : KeyPair) {objects objects' : List String} {nonce nonce' : Int}
    (different : objects = objects' → nonce ≠ nonce') :
    (rewrite pair objects nonce).opId ≠ (rewrite pair objects' nonce').opId := by
  intro same
  have inputs := lookup_eq_of_digest free same "inputs"
  have counter := lookup_eq_of_digest free same "nonce"
  simp only [Operation.unsignedFields, List.lookup_cons] at inputs counter
  have items := InputRef.vars_inj (Option.some.inj inputs)
  refine different (List.map_injective_iff.mpr (fun object object' same => ?_) items) ?_
  · exact congrArg InputRef.objectId same
  · simpa [Json.sortKeys] using counter

theorem soloValidators_wellFormed (pair : KeyPair) : (QuorumCommittee.new (soloValidators pair)).WellFormed where
  named entry member := by
    cases List.mem_singleton.mp member
    rfl
  weighty := by
    change (0 : Int) < 1
    exact Int.one_pos

/-- An executor with one object. -/
def soloExecutor (pair : KeyPair) : DomainExecutor :=
  (DomainExecutor.new "d" 0 (.new (soloValidators pair))).setObject ⟨"a", 0, pair.identity, "old", "d"⟩ "a"

theorem create_verifies (verifies : SignaturesVerify) (pair : KeyPair) (epoch : Int) (inputs : List InputRef)
    (writes : List WriteIntent) (domainIds parents : List String) (nonce : Int) :
    (Operation.create pair epoch inputs writes domainIds parents nonce).verifySignature = true := verifies _ _

theorem soloExecutor_valid (verifies : SignaturesVerify) (pair : KeyPair) (nonce : Int) :
    (soloExecutor pair).Valid (rewrite pair ["a"] nonce) where
  epoch := rfl
  declared := mem_sortedSet.mpr (List.mem_singleton_self _)
  signature := create_verifies verifies pair _ _ _ _ _ _
  fresh := Finset.notMem_empty _
  nonempty := List.cons_ne_nil _ _
  domains domain := by
    change domain ∈ ["d"] ↔ domain ∈ sortedSet ["d"]
    rw [mem_sortedSet]
  inputsDistinct := List.nodup_singleton _
  writesDistinct := List.nodup_singleton _
  paired _ := Iff.rfl
  versions item member intent member' _ := by
    cases List.mem_singleton.mp member
    cases List.mem_singleton.mp member'
    rfl
  hasLocal := List.cons_ne_nil _ _
  current item member := by
    cases List.mem_singleton.mp (List.mem_filter.mp member).1
    exact ⟨_, rfl, rfl, rfl, rfl⟩

theorem soloExecutor_undecided (pair : KeyPair) (operation : Operation) (phase : String) :
    (soloExecutor pair).Undecided operation phase := fun _ _ => rfl

end Mosaic.Nexus
