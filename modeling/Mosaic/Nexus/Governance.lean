import Mosaic.Nexus.Progress

namespace Mosaic.Nexus
open CanonicalJson Effects

section Governance
variable [Crypto]

structure EpochManager where
  epoch : Int
  committee : QuorumCommittee

namespace EpochManager

def statement (m : EpochManager) (newValidators : Dict String Validator) : Json := .obj [
  ("protocol", .str "CCD/NEXUS/v1"),
  ("phase", .str "EPOCH_TRANSITION"),
  ("from_epoch", .int m.epoch),
  ("to_epoch", .int (m.epoch + 1)),
  ("validator_ids", stringsJson (sorted newValidators.keys))]

def verifyTransition (m : EpochManager) (certificate : EpochTransitionCertificate)
    (newValidators : Dict String Validator) : Except NexusError Bool := do
  let statement := m.statement newValidators
  let expectedDigest := digest statement
  let signatures := sortedSignatures certificate.signatures
  let expectedId := certificateId expectedDigest (sorted certificate.signers) signatures
  let validSignatures := m.committee.signaturesValid statement certificate.signers certificate.signatures
  if certificate.certificateId = expectedId ∧
      certificate.fromEpoch = m.epoch ∧
      certificate.toEpoch = m.epoch + 1 ∧
      certificate.validatorIds = sorted newValidators.keys ∧
      certificate.statementDigest = expectedDigest then
    let weight ← m.committee.weightOf certificate.signers
    return m.committee.threshold ≤ weight && validSignatures
  else
    return false

def proposeTransition (m : EpochManager) (newValidators : Dict String Validator) :
    Except NexusError EpochTransitionCertificate := do
  refuseIf (newValidators.keys = []) (.reconfigurationError "new committee cannot be empty")
  let statement := m.statement newValidators
  let signatures := m.committee.signAll statement
  let signers := signatures.map Prod.fst
  let certificate : EpochTransitionCertificate := {
    certificateId := certificateId (digest statement) signers signatures
    fromEpoch := m.epoch
    toEpoch := m.epoch + 1
    validatorIds := sorted newValidators.keys
    signers
    signatures
    statementDigest := digest statement }
  let accepted ← m.verifyTransition certificate newValidators
  refuseIf (¬ accepted) (.reconfigurationError "issued transition certificate failed verification")
  return certificate

def applyTransition (m : EpochManager) (certificate : EpochTransitionCertificate)
    (newValidators : Dict String Validator) : Except NexusError EpochManager := do
  let accepted ← m.verifyTransition certificate newValidators
  refuseIf (¬ accepted) (.reconfigurationError "invalid epoch transition certificate")
  return { epoch := m.epoch + 1, committee := .new newValidators }

variable {m next : EpochManager} {certificate : EpochTransitionCertificate} {validators others : Dict String Validator}

theorem applyTransition_eq_ok : m.applyTransition certificate validators = .ok next ↔
    m.verifyTransition certificate validators = .ok true ∧ next = ⟨m.epoch + 1, .new validators⟩ := by
  unfold applyTransition
  rw [except_bind_eq_ok]
  constructor
  · rintro ⟨accepted, verified, run⟩
    obtain ⟨passed, same⟩ := refuseIf_bind_eq_ok.mp run
    rw [not_not.mp passed] at verified
    exact ⟨verified, (Except.ok.inj same).symm⟩
  · rintro ⟨verified, rfl⟩
    exact ⟨true, verified, refuseIf_bind_eq_ok.mpr ⟨by simp, rfl⟩⟩

theorem verifyTransition_eq_true : m.verifyTransition certificate validators = .ok true ↔
    (certificate.certificateId = certificateId (digest (m.statement validators)) (sorted certificate.signers)
        (sortedSignatures certificate.signatures) ∧
      certificate.fromEpoch = m.epoch ∧ certificate.toEpoch = m.epoch + 1 ∧
      certificate.validatorIds = sorted validators.keys ∧
      certificate.statementDigest = digest (m.statement validators)) ∧
    (∀ item ∈ certificate.signers, (m.committee.validators.get? item).isSome) ∧
    m.committee.threshold ≤ m.committee.weigh certificate.signers.toFinset ∧
    m.committee.signaturesValid (m.statement validators) certificate.signers certificate.signatures = true := by
  unfold verifyTransition
  dsimp only
  split
  · rename_i passed
    rw [except_bind_eq_ok]
    simp only [passed, true_and, QuorumCommittee.weightOf_eq_ok]
    constructor
    · rintro ⟨_, ⟨known, rfl⟩, same⟩
      have all := Except.ok.inj same
      simp only [Bool.and_eq_true, decide_eq_true_iff] at all
      exact ⟨known, all⟩
    · rintro ⟨known, enough, valid⟩
      refine ⟨_, ⟨known, rfl⟩, ?_⟩
      rw [valid, decide_eq_true enough]
      rfl
  · rename_i failed
    exact ⟨fun refused => absurd (Except.ok.inj refused) Bool.false_ne_true, fun accepted => absurd accepted.1 failed⟩

/-- A well-formed committee can agree on every successor that is not empty. -/
theorem proposeTransition_ok (verifies : SignaturesVerify) (wf : m.committee.WellFormed) (some' : validators.keys ≠ []) :
    ∃ certificate, m.proposeTransition validators = .ok certificate ∧
      m.applyTransition certificate validators = .ok ⟨m.epoch + 1, .new validators⟩ := by
  let signatures := m.committee.signAll (m.statement validators)
  obtain ⟨weight, weighed, enough⟩ := wf.weightOf_signers (m.statement validators)
  obtain ⟨known, rfl⟩ := QuorumCommittee.weightOf_eq_ok.mp weighed
  have accepted : m.verifyTransition ⟨certificateId (digest (m.statement validators)) (signatures.map Prod.fst) signatures,
      m.epoch, m.epoch + 1, sorted validators.keys, signatures.map Prod.fst, signatures,
      digest (m.statement validators)⟩ validators = .ok true := by
    refine verifyTransition_eq_true.mpr ⟨⟨?_, rfl, rfl, rfl, rfl⟩, known, enough, wf.signaturesValid_signAll verifies _⟩
    rw [QuorumCommittee.signers_sorted, QuorumCommittee.signAll_sorted]
  refine ⟨_, refuseIf_bind_eq_ok.mpr ⟨some', ?_⟩, applyTransition_eq_ok.mpr ⟨accepted, rfl⟩⟩
  exact except_bind_eq_ok.mpr ⟨true, accepted, refuseIf_bind_eq_ok.mpr ⟨by simp, rfl⟩⟩

/-- The same validators, with the same keys and weights. -/
structure SameCommittee (validators others : Dict String Validator) : Prop where
  ids : ∀ item, item ∈ others.keys ↔ item ∈ validators.keys
  validator : ∀ item validator other, validators.get? item = some validator → others.get? item = some other →
    other.keypair.publicKey = validator.keypair.publicKey ∧ other.weight = validator.weight

/-- The ids are part of the certificate. -/
theorem applyTransition_ids {next' : EpochManager} (accepted : m.applyTransition certificate validators = .ok next)
    (accepted' : m.applyTransition certificate others = .ok next') : others.keys.Perm validators.keys := by
  obtain ⟨⟨⟨-, -, -, listed, -⟩, -⟩, -⟩ := applyTransition_eq_ok.mp accepted |>.imp_left verifyTransition_eq_true.mp
  obtain ⟨⟨⟨-, -, -, listed', -⟩, -⟩, -⟩ := applyTransition_eq_ok.mp accepted' |>.imp_left verifyTransition_eq_true.mp
  have same : sorted others.keys = sorted validators.keys := listed'.symm.trans listed
  exact ((sortedBy_perm id _).symm.trans (.of_eq same)).trans (sortedBy_perm id _)

/-- Only the ids are. -/
theorem applyTransition_of_ids (accepted : m.applyTransition certificate validators = .ok next)
    (same : others.keys = validators.keys) : m.applyTransition certificate others = .ok ⟨m.epoch + 1, .new others⟩ := by
  obtain ⟨verified, -⟩ := applyTransition_eq_ok.mp accepted
  have stated : m.statement others = m.statement validators := by
    simp only [statement, same]
  refine applyTransition_eq_ok.mpr ⟨verifyTransition_eq_true.mpr ?_, rfl⟩
  rw [stated, same]
  exact verifyTransition_eq_true.mp verified

theorem applyTransition_reweighed (accepted : m.applyTransition certificate validators = .ok next)
    {item : String} {validator : Validator} (there : validators.get? item = some validator) :
    m.applyTransition certificate (validators.set item { validator with weight := validator.weight + 1 }) =
      .ok ⟨m.epoch + 1, .new (validators.set item { validator with weight := validator.weight + 1 })⟩ := by
  refine applyTransition_of_ids accepted ?_
  rw [Dict.keys_set, if_pos (Dict.mem_keys.mpr ⟨validator, there⟩)]

theorem not_sameCommittee_reweighed {item : String} {validator : Validator}
    (there : validators.get? item = some validator) :
    ¬ SameCommittee validators (validators.set item { validator with weight := validator.weight + 1 }) := by
  intro same
  obtain ⟨-, weight⟩ := same.validator item validator _ there (Dict.get?_set_self _ _ _)
  simp only at weight
  omega

/-- A committee of one succeeds itself. -/
theorem soloManager_transition (verifies : SignaturesVerify) (pair : KeyPair) :
    ∃ certificate, applyTransition ⟨0, .new (soloValidators pair)⟩ certificate (soloValidators pair) =
      .ok ⟨1, .new (soloValidators pair)⟩ := by
  have some' : (soloValidators pair).keys ≠ [] := List.cons_ne_nil _ _
  obtain ⟨certificate, -, accepted⟩ := proposeTransition_ok (m := ⟨0, .new (soloValidators pair)⟩) verifies
    (soloValidators_wellFormed pair) some'
  exact ⟨certificate, accepted⟩

/-- A certificate that is accepted fixes the next committee only where that is
empty; the ids are fixed in any case. -/
theorem transition_fixes_committee (accepted : m.applyTransition certificate validators = .ok next) :
    ((∀ others next', m.applyTransition certificate others = .ok next' → SameCommittee validators others) ↔
      validators.keys = []) ∧
    ∀ others next', m.applyTransition certificate others = .ok next' → others.keys.Perm validators.keys := by
  refine ⟨⟨fun fixes => ?_, fun none others next' accepted' => ?_⟩, fun others next' => applyTransition_ids accepted⟩
  · by_contra some'
    obtain ⟨item, member⟩ := List.exists_mem_of_ne_nil _ some'
    obtain ⟨validator, there⟩ := Dict.mem_keys.mp member
    exact not_sameCommittee_reweighed there (fixes _ _ (applyTransition_reweighed accepted there))
  · have same := applyTransition_ids accepted accepted'
    refine ⟨fun item => same.mem_iff, fun item validator other there _ => ?_⟩
    have member := Dict.mem_keys.mpr ⟨validator, there⟩
    rw [none] at member
    exact absurd member List.not_mem_nil

omit [Crypto] in
theorem transition_fixes_committee_solo : let _ := Crypto.ideal
    ∃ certificate next, EpochManager.applyTransition ⟨0, .new (soloValidators idealKey)⟩ certificate
        (soloValidators idealKey) = .ok next ∧
      ¬ ∀ others next', EpochManager.applyTransition ⟨0, .new (soloValidators idealKey)⟩ certificate others = .ok next' →
        SameCommittee (soloValidators idealKey) others := by
  intro _
  obtain ⟨certificate, accepted⟩ := soloManager_transition ideal_signaturesVerify idealKey
  exact ⟨certificate, _, accepted, fun fixes =>
    List.cons_ne_nil _ _ ((transition_fixes_committee accepted).1.mp fixes)⟩

omit [Crypto] in
/-- The one validator is given another weight. -/
theorem transition_does_not_fix_committee : let _ := Crypto.ideal
    ¬ ∀ (m : EpochManager) (certificate : EpochTransitionCertificate) (validators others : Dict String Validator)
      (next next' : EpochManager), m.applyTransition certificate validators = .ok next →
        m.applyTransition certificate others = .ok next' → SameCommittee validators others := by
  intro _ claim
  obtain ⟨certificate, accepted⟩ := soloManager_transition ideal_signaturesVerify idealKey
  have there : (soloValidators idealKey).get? "v" = some ⟨"v", idealKey, 1⟩ := Dict.get?_set_self _ _ _
  exact not_sameCommittee_reweighed there (claim _ _ _ _ _ _ accepted (applyTransition_reweighed accepted there))

end EpochManager
end Governance

end Mosaic.Nexus
