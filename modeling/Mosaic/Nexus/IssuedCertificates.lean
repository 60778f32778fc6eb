import Mosaic.Nexus.CertificateConflicts

namespace Mosaic.Nexus
open CanonicalJson Effects

variable [Crypto]

namespace QuorumCommittee

variable {c : QuorumCommittee} {key : ConflictKey} {choice : String × String} {vote : Vote} {votes : List Vote}
  {item : String}

/-- The vote is recorded, not rejected. -/
def Takes (c : QuorumCommittee) (vote : Vote) : Prop := ∃ t, recordVote vote c = .ok ⟨⟩ t

theorem takes_iff : c.Takes vote ↔ c.Recordable vote := by
  rcases recordVote_cases c vote with ⟨fits, d, -, run⟩ | ⟨unfit, error, d, -, run⟩
  · exact iff_of_true ⟨_, run⟩ fits
  · refine iff_of_false ?_ unfit
    rintro ⟨t, ran⟩
    rw [run] at ran
    cases ran

/-- The validator has cast a vote in the run that was taken. -/
def Voted (c : QuorumCommittee) (votes : List Vote) (key : ConflictKey) (choice : String × String) (item : String) : Prop :=
  ∃ before vote later, votes = before ++ vote :: later ∧ (recordAll before c).Takes vote ∧
    vote.conflictKey = key ∧ vote.choice = choice ∧ vote.validatorId = item

theorem recordAll_snoc (votes : List Vote) (vote : Vote) (c : QuorumCommittee) :
    recordAll (votes ++ [vote]) c = final (recordVote vote) (recordAll votes c) := recordAll_append votes [vote] c

theorem voted_snoc : c.Voted (votes ++ [vote]) key choice item ↔ c.Voted votes key choice item ∨
    (recordAll votes c).Takes vote ∧ vote.conflictKey = key ∧ vote.choice = choice ∧ vote.validatorId = item := by
  constructor
  · rintro ⟨before, other, later, split, cast⟩
    rcases List.eq_nil_or_concat' later with rfl | ⟨later, last, rfl⟩
    · obtain ⟨rfl, same⟩ := List.append_inj' split rfl
      cases same
      exact Or.inr cast
    · rw [← List.cons_append, ← List.append_assoc] at split
      obtain ⟨rfl, -⟩ := List.append_inj' split rfl
      exact Or.inl ⟨before, other, later, rfl, cast⟩
  · rintro (⟨before, other, later, rfl, cast⟩ | cast)
    · exact ⟨before, other, later ++ [vote], by rw [List.append_assoc, List.cons_append], cast⟩
    · exact ⟨votes, vote, [], rfl, cast⟩

/-- The supporters are those who have voted for it. -/
theorem Consistent.mem_supporters_recordAll (sound : c.Consistent) (votes : List Vote) :
    item ∈ (recordAll votes c).supporters key choice ↔ item ∈ c.supporters key choice ∨ c.Voted votes key choice item := by
  induction votes using List.reverseRecOn with
  | nil =>
    refine (or_iff_left ?_).symm
    rintro ⟨before, vote, later, split, -⟩
    simp at split
  | append_singleton votes vote ih =>
    obtain ⟨sound', -⟩ := recordAll_keeps votes c sound
    rw [recordAll_snoc, voted_snoc, ← or_assoc, ← ih, takes_iff]
    rcases recordVote_cases (recordAll votes c) vote with ⟨fits, -⟩ | ⟨unfit, error, d, same, run⟩
    · rw [sound'.mem_supporters_recordVote fits]
      exact or_congr_right (and_iff_right fits).symm
    · rw [final_of_error run, or_iff_left fun cast => unfit cast.1]
      simp only [supporters, supporting, same.votesAt]

theorem signers_assemble (epoch : Int) (domainId : String) (objectVersions : List (String × Int)) (operation : Operation)
    (phase : String) (supporting : List Vote) :
    (assemble epoch domainId objectVersions operation phase supporting).signers.toFinset =
      (supporting.map Vote.validatorId).toFinset := by
  ext item
  simp [assemble]

end QuorumCommittee

open QuorumCommittee in
/-- Whatever votes have been recorded or rejected, an issued certificate is
accepted, and it names each validator once whose recorded vote is for the
operation, and nobody else. -/
theorem issued_verifies (validators : Dict String Validator) (votes : List Vote) {epoch : Int} {domainId : String}
    {objectVersions : List (String × Int)} {operation : Operation} {phase : String} {certificate : Certificate}
    (last : phase ∈ ["PREPARE", "COMMIT"])
    (issued : (recordAll votes (new validators)).issueCertificate epoch domainId objectVersions operation phase =
      .ok certificate) :
    (recordAll votes (new validators)).verifyCertificate certificate epoch domainId objectVersions operation = .ok true ∧
      certificate.signers.Nodup ∧ ∀ item, item ∈ certificate.signers ↔
        (new validators).Voted votes ⟨epoch, domainId, objectVersions, phase⟩
          (operation.opId, operation.dependencyDigest) item := by
  have fresh := consistent_new validators
  obtain ⟨sound, -⟩ := recordAll_keeps votes _ fresh
  obtain ⟨enough, rfl⟩ := sound.issueCertificate_eq_ok.mp issued
  refine ⟨sound.verify_assemble last enough, nodup_sortedSet _, fun item => ?_⟩
  rw [← List.mem_toFinset, signers_assemble]
  refine (fresh.mem_supporters_recordAll votes).trans (or_iff_right ?_)
  rw [supporters_new]
  exact Finset.notMem_empty item

open QuorumCommittee in
omit [Crypto] in
/-- A committee of one issues what it has voted for. -/
theorem issued_verifies_solo : let _ := Crypto.ideal
    ∃ votes certificate, (recordAll votes (new (soloValidators idealKey))).verifyCertificate certificate 0 "d" [("a", 0)]
      (rewrite idealKey ["a"] 0) = .ok true ∧ "v" ∈ certificate.signers := by
  intro _
  have sound := consistent_new (soloValidators idealKey)
  have quorum := soloValidators_quorate idealKey
  obtain ⟨votes, here, -⟩ := @Consistent.cast _ _ ⟨0, "d", [("a", 0)], "COMMIT"⟩
    ((rewrite idealKey ["a"] 0).opId, (rewrite idealKey ["a"] 0).dependencyDigest) ideal_signaturesVerify sound ["v"]
    (fun item member => quorum.eligible item (List.mem_toFinset.mpr member)) fun _ _ _ _ => Finset.notMem_empty _
  obtain ⟨sound', same⟩ := recordAll_keeps votes _ sound
  have voters : (recordAll votes (new (soloValidators idealKey))).supporters ⟨0, "d", [("a", 0)], "COMMIT"⟩
      ((rewrite idealKey ["a"] 0).opId, (rewrite idealKey ["a"] 0).dependencyDigest) = {"v"} := by
    rw [here, supporters_new]
    rfl
  have issued := sound'.issueCertificate_eq_ok.mpr ⟨by
    rw [voters, threshold_congr same, weigh_congr same]
    exact quorum.enough, rfl⟩
  have last : "COMMIT" ∈ ["PREPARE", "COMMIT"] := by decide
  obtain ⟨accepted, -, -⟩ := issued_verifies (soloValidators idealKey) votes last issued
  refine ⟨votes, _, accepted, List.mem_toFinset.mp ?_⟩
  rw [signers_assemble]
  exact (Finset.ext_iff.mp voters "v").mpr (Finset.mem_singleton_self "v")

end Mosaic.Nexus
