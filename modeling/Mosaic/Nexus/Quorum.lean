import Mosaic.Nexus.Models
import Mosaic.Lib.Effects
import Mosaic.Lib.DictSum
import Mathlib.Algebra.BigOperators.Group.Finset.Basic

namespace Mosaic.Nexus
open CanonicalJson Effects

structure EquivocationEvidence where
  validatorId : String
  firstOpId : String
  secondOpId : String
  epoch : Int
  domainId : String
  objectVersions : List (String × Int)
  deriving DecidableEq

/-- The key under which votes exclude each other. -/
structure ConflictKey where
  epoch : Int
  domainId : String
  objectVersions : List (String × Int)
  phase : String
  deriving DecidableEq

def Vote.conflictKey (vote : Vote) : ConflictKey := ⟨vote.epoch, vote.domainId, vote.objectVersions, vote.phase⟩

/-- What a vote is for. -/
def Vote.choice (vote : Vote) : String × String := (vote.opId, vote.dependencyDigest)

section Committee
variable [Crypto]

structure QuorumCommittee where
  validators : Dict String Validator
  votes : Dict ConflictKey (Dict String Vote)
  statements : Dict ConflictKey (Dict String (String × String))
  evidence : List EquivocationEvidence
  messageCount : Nat
  messageBytes : Nat

abbrev PyQuorum := EStateM NexusError QuorumCommittee

namespace QuorumCommittee

/-- `QuorumCommittee(validators)`. -/
def new (validators : Dict String Validator) : QuorumCommittee where
  validators := validators
  votes := .empty
  statements := .empty
  evidence := []
  messageCount := 0
  messageBytes := 0

def totalWeight (c : QuorumCommittee) : Int := c.validators.sumBy Validator.weight

def threshold (c : QuorumCommittee) : Int := 2 * c.totalWeight / 3 + 1

/-- `self.validators[item].weight` -/
def weightAt (c : QuorumCommittee) (item : String) : Except NexusError Int :=
  match c.validators.get? item with
  | some validator => .ok validator.weight
  | none => .error (.keyError item)

/-- `weight_of(set(validator_ids))`: a `KeyError` where one of them is unknown. -/
def weightOf (c : QuorumCommittee) (validatorIds : List String) : Except NexusError Int := do
  let weights ← validatorIds.dedup.mapM c.weightAt
  return weights.sum

def votesAt (c : QuorumCommittee) (key : ConflictKey) : Dict String Vote := (c.votes.get? key).getD .empty

def statementsAt (c : QuorumCommittee) (key : ConflictKey) : Dict String (String × String) :=
  (c.statements.get? key).getD .empty

def file (c : QuorumCommittee) (vote : Vote) : QuorumCommittee :=
  { c with
    statements := c.statements.set vote.conflictKey
      ((c.statementsAt vote.conflictKey).set vote.validatorId vote.choice)
    votes := c.votes.set vote.conflictKey ((c.votesAt vote.conflictKey).set vote.validatorId vote) }

def countMessages (c : QuorumCommittee) (statement : Json) (signatures : List Bytes) : QuorumCommittee :=
  { c with
    messageCount := c.messageCount + signatures.length
    messageBytes := c.messageBytes +
      (signatures.map fun signature => (canonicalBytes statement).length + signature.length).sum }

def accuse (c : QuorumCommittee) (vote : Vote) (previous : String × String) : QuorumCommittee :=
  { c with
    evidence := c.evidence ++ [{
      validatorId := vote.validatorId
      firstOpId := previous.1
      secondOpId := vote.opId
      epoch := vote.epoch
      domainId := vote.domainId
      objectVersions := vote.objectVersions }] }

def recordVote (vote : Vote) : PyQuorum PUnit := do
  let c ← get
  match c.validators.get? vote.validatorId with
  | none => throw (.quorumError "vote is from an unknown validator")
  | some validator =>
    raiseIf (vote.epoch < 0) (.quorumError "epoch must be non-negative")
    raiseIf (¬ KeyPair.verify validator.keypair.publicKey (canonicalBytes vote.statement) vote.signature)
      (.quorumError "invalid validator signature")
    match (c.statementsAt vote.conflictKey).get? vote.validatorId with
    | none =>
      modify fun c => (c.countMessages vote.statement [vote.signature]).file vote
    | some previous =>
      if previous ≠ vote.choice then
        modify fun c => c.accuse vote previous
        throw (.quorumError "validator equivocated on the same object version")
      modify fun c => c.file vote

/-- The statement as a certificate hashes it: the same members as in a vote,
written down with the phase last. -/
def certifiedStatement (phase : String) (epoch : Int) (domainId : String) (objectVersions : List (String × Int))
    (operation : Operation) : Json := .obj [
  ("protocol", .str "CCD/NEXUS/v1"),
  ("epoch", .int epoch),
  ("domain_id", .str domainId),
  ("object_versions", versionsJson objectVersions),
  ("op_id", .str operation.opId),
  ("dependency_digest", .str operation.dependencyDigest),
  ("phase", .str phase)]

/-- The votes filed under a key that are for one operation. -/
def supporting (c : QuorumCommittee) (key : ConflictKey) (choice : String × String) : List Vote :=
  (c.votesAt key).values.filter fun vote => vote.choice = choice

/-- The certificate made of the votes that match. -/
def assemble (epoch : Int) (domainId : String) (objectVersions : List (String × Int)) (operation : Operation)
    (phase : String) (supporting : List Vote) : Certificate :=
  let signers := supporting.map Vote.validatorId
  let statementDigest := digest (certifiedStatement phase epoch domainId objectVersions operation)
  let signatureItems := sortedSignatures (supporting.map fun vote => (vote.validatorId, vote.signature))
  { certificateId := certificateId statementDigest (sortedSet signers) signatureItems
    epoch
    domainIds := [domainId]
    opId := operation.opId
    phase
    signers := sortedSet signers
    signatures := signatureItems
    statementDigest }

def issueCertificate (c : QuorumCommittee) (epoch : Int) (domainId : String) (objectVersions : List (String × Int))
    (operation : Operation) (phase : String) : Except NexusError Certificate := do
  let supporting := c.supporting ⟨epoch, domainId, objectVersions, phase⟩ (operation.opId, operation.dependencyDigest)
  let weight ← c.weightOf (supporting.map Vote.validatorId)
  if weight < c.threshold then
    throw (.quorumError s!"insufficient quorum: weight={weight}, required={c.threshold}")
  else
    return assemble epoch domainId objectVersions operation phase supporting

/-- `signatures_valid`, the same in every verifier: the signatures are by the
signers, and each is by a validator over the statement. -/
def signaturesValid (c : QuorumCommittee) (statement : Json) (signers : List String)
    (signatures : List (String × Bytes)) : Bool :=
  let signatureMap := Dict.ofList (sortedSignatures signatures)
  decide (signatureMap.keys.toFinset = signers.toFinset) &&
  signatureMap.entries.all fun item =>
    match c.validators.get? item.1 with
    | some validator => KeyPair.verify validator.keypair.publicKey (canonicalBytes statement) item.2
    | none => false

def verifyCertificate (c : QuorumCommittee) (certificate : Certificate) (epoch : Int) (domainId : String)
    (objectVersions : List (String × Int)) (operation : Operation) : Except NexusError Bool := do
  let expectedStatement := digest (certifiedStatement certificate.phase epoch domainId objectVersions operation)
  let expectedSignatures := sortedSignatures certificate.signatures
  let expectedId := certificateId expectedStatement (sortedSet certificate.signers) expectedSignatures
  let statement := voteStatement certificate.phase epoch domainId objectVersions operation.opId operation.dependencyDigest
  if certificate.certificateId = expectedId ∧
      certificate.statementDigest = expectedStatement ∧
      certificate.epoch = epoch ∧
      certificate.domainIds = [domainId] ∧
      certificate.opId = operation.opId ∧
      certificate.phase ∈ ["PREPARE", "COMMIT"] ∧
      certificate.signers.Nodup then
    let weight ← c.weightOf certificate.signers
    return c.threshold ≤ weight && certificate.signers.all (fun item => (c.validators.get? item).isSome) &&
      c.signaturesValid statement certificate.signers certificate.signatures
  else
    return false

def availabilityStatement (operation : Operation) : Json := .obj [
  ("protocol", .str "CCD/NEXUS/v1"),
  ("phase", .str "DAC"),
  ("epoch", .int operation.epoch),
  ("op_id", .str operation.opId),
  ("payload_digest", .str operation.opId)]

/-- Every validator signs the statement. -/
def signAll (c : QuorumCommittee) (statement : Json) : List (String × Bytes) :=
  sortedSignatures (c.validators.values.map fun validator =>
    (validator.validatorId, validator.keypair.sign (canonicalBytes statement)))

def verifyDac (c : QuorumCommittee) (operation : Operation) (certificate : DataAvailabilityCertificate) :
    Except NexusError Bool := do
  let statement := availabilityStatement operation
  let expectedDigest := digest statement
  let signatures := sortedSignatures certificate.signatures
  let expectedId := certificateId expectedDigest (sorted certificate.signers) signatures
  if certificate.certificateId = expectedId ∧
      certificate.statementDigest = expectedDigest ∧
      certificate.epoch = operation.epoch ∧
      certificate.opId = operation.opId ∧
      certificate.payloadDigest = operation.opId then
    let weight ← c.weightOf certificate.signers
    return c.threshold ≤ weight && c.signaturesValid statement certificate.signers certificate.signatures
  else
    return false

def issueDac (operation : Operation) : PyQuorum DataAvailabilityCertificate := do
  let c ← get
  let statement := availabilityStatement operation
  let statementDigest := digest statement
  let signatures := c.signAll statement
  let signers := signatures.map Prod.fst
  modify fun c => c.countMessages statement (signatures.map Prod.snd)
  let certificate : DataAvailabilityCertificate := {
    certificateId := certificateId statementDigest signers signatures
    epoch := operation.epoch
    opId := operation.opId
    payloadDigest := operation.opId
    signers
    signatures
    statementDigest }
  let accepted ← ofExcept (c.verifyDac operation certificate)
  raiseIf (¬ accepted) (.quorumError "issued DAC failed verification")
  return certificate

theorem threshold_congr {c d : QuorumCommittee} (same : d.validators = c.validators) : d.threshold = c.threshold := by
  simp only [threshold, totalWeight, same]

theorem verifyCertificate_congr {c d : QuorumCommittee} (same : d.validators = c.validators) :
    d.verifyCertificate = c.verifyCertificate := by
  cases c
  cases d
  cases same
  rfl

/-- What validators weigh together. -/
def weigh (c : QuorumCommittee) (validatorIds : Finset String) : Int :=
  ∑ item ∈ validatorIds, c.validators.amountAt Validator.weight item

theorem weigh_congr {c d : QuorumCommittee} (same : d.validators = c.validators) (voters : Finset String) :
    d.weigh voters = c.weigh voters := by
  simp only [weigh, same]

theorem totalWeight_eq_weigh (c : QuorumCommittee) : c.totalWeight = c.weigh c.validators.keys.toFinset := by
  rw [weigh, List.sum_toFinset _ c.validators.keys_nodup, totalWeight, Dict.sumBy, Dict.values, Dict.keys,
    List.map_map, List.map_map]
  congr 1
  refine List.map_congr_left fun entry member => ?_
  exact (Dict.amountAt_of_some ((Dict.get?_eq_some_iff _).mpr member)).symm

theorem weightAt_eq_ok {c : QuorumCommittee} {item : String} {weight : Int} :
    c.weightAt item = .ok weight ↔ ∃ validator, c.validators.get? item = some validator ∧ validator.weight = weight := by
  unfold weightAt
  cases c.validators.get? item with
  | none => simp
  | some validator => simp

theorem weightOf_eq_ok {c : QuorumCommittee} {validatorIds : List String} {weight : Int} :
    c.weightOf validatorIds = .ok weight ↔
      (∀ item ∈ validatorIds, (c.validators.get? item).isSome) ∧ weight = c.weigh validatorIds.toFinset := by
  have value : ∀ item weight, c.weightAt item = .ok weight → c.validators.amountAt Validator.weight item = weight := by
    intro item weight ran
    obtain ⟨validator, found, rfl⟩ := weightAt_eq_ok.mp ran
    exact Dict.amountAt_of_some found
  have known : ∀ item, c.weightAt item = .ok (c.validators.amountAt Validator.weight item) ↔
      (c.validators.get? item).isSome := by
    intro item
    rw [weightAt_eq_ok, Option.isSome_iff_exists]
    refine exists_congr fun validator => and_iff_left_of_imp fun found => ?_
    rw [Dict.amountAt_of_some found]
  have total : (validatorIds.dedup.map (c.validators.amountAt Validator.weight)).sum =
      c.weigh validatorIds.toFinset := by
    rw [weigh, ← List.sum_toFinset _ (List.nodup_dedup validatorIds)]
    congr 1
    ext item
    simp
  simp only [weightOf, except_bind_eq_ok, mapM_eq_ok value, known, List.mem_dedup]
  constructor
  · rintro ⟨_, ⟨all, rfl⟩, same⟩
    cases same
    exact ⟨all, total⟩
  · rintro ⟨all, rfl⟩
    exact ⟨_, ⟨all, rfl⟩, by rw [total]; rfl⟩

theorem mapM_weightAt_error {c : QuorumCommittee} {items : List String} {error : NexusError}
    (raised : items.mapM c.weightAt = .error error) : ∃ key, error = .keyError key := by
  induction items with
  | nil => cases raised
  | cons item items ih =>
    rw [List.mapM_cons] at raised
    cases here : c.weightAt item with
    | error e =>
      rw [here] at raised
      cases raised
      unfold weightAt at here
      cases found : c.validators.get? item with
      | none =>
        rw [found] at here
        cases here
        exact ⟨item, rfl⟩
      | some validator =>
        rw [found] at here
        cases here
    | ok weight =>
      rw [here] at raised
      cases later : items.mapM c.weightAt with
      | error e =>
        rw [later] at raised
        cases raised
        exact ih later
      | ok weights =>
        rw [later] at raised
        cases raised

theorem weightOf_error {c : QuorumCommittee} {validatorIds : List String} {error : NexusError}
    (raised : c.weightOf validatorIds = .error error) : ∃ key, error = .keyError key := by
  unfold weightOf at raised
  cases weighed : validatorIds.dedup.mapM c.weightAt with
  | error e =>
    rw [weighed] at raised
    cases raised
    exact mapM_weightAt_error weighed
  | ok weights =>
    rw [weighed] at raised
    cases raised

/-- A weight is refused for nothing but a validator that is not known. -/
theorem weightOf_cases (c : QuorumCommittee) (validatorIds : List String) :
    (∀ item ∈ validatorIds, (c.validators.get? item).isSome) ∧
        c.weightOf validatorIds = .ok (c.weigh validatorIds.toFinset) ∨
      ¬ (∀ item ∈ validatorIds, (c.validators.get? item).isSome) ∧
        ∃ key, c.weightOf validatorIds = .error (.keyError key) := by
  cases ran : c.weightOf validatorIds with
  | ok weight =>
    obtain ⟨known, rfl⟩ := weightOf_eq_ok.mp ran
    exact Or.inl ⟨known, rfl⟩
  | error error =>
    refine Or.inr ⟨fun known => ?_, ?_⟩
    · rw [weightOf_eq_ok.mpr ⟨known, rfl⟩] at ran
      cases ran
    · obtain ⟨key, rfl⟩ := weightOf_error ran
      exact ⟨key, rfl⟩

/-- The two committees hold the same votes of the same validators. -/
structure SameVotes (c d : QuorumCommittee) : Prop where
  validators : d.validators = c.validators
  votes : d.votes = c.votes
  statements : d.statements = c.statements

theorem SameVotes.refl (c : QuorumCommittee) : SameVotes c c := ⟨rfl, rfl, rfl⟩

instance : Std.Refl SameVotes := ⟨SameVotes.refl⟩

instance : IsTrans QuorumCommittee SameVotes where
  trans _ _ _ first second := ⟨second.validators.trans first.validators, second.votes.trans first.votes,
    second.statements.trans first.statements⟩

theorem sameVotes_countMessages (c : QuorumCommittee) (statement : Json) (signatures : List Bytes) :
    SameVotes c (c.countMessages statement signatures) := ⟨rfl, rfl, rfl⟩

theorem sameVotes_accuse (c : QuorumCommittee) (vote : Vote) (previous : String × String) :
    SameVotes c (c.accuse vote previous) := ⟨rfl, rfl, rfl⟩

/-- The signature is by the validator that the vote names. -/
def Attested (c : QuorumCommittee) (vote : Vote) : Prop :=
  ∃ validator, c.validators.get? vote.validatorId = some validator ∧
    KeyPair.verify validator.keypair.publicKey (canonicalBytes vote.statement) vote.signature = true

/-- A vote that `record_vote` accepts. -/
structure Recordable (c : QuorumCommittee) (vote : Vote) : Prop where
  attested : c.Attested vote
  epoch : 0 ≤ vote.epoch
  single : ∀ previous, (c.statementsAt vote.conflictKey).get? vote.validatorId = some previous → previous = vote.choice

theorem recordVote_of_recordable {c : QuorumCommittee} {vote : Vote} (fits : c.Recordable vote) :
    ∃ d, SameVotes c d ∧ recordVote vote c = .ok ⟨⟩ (d.file vote) := by
  obtain ⟨⟨validator, known, verified⟩, epoch, single⟩ := fits
  unfold recordVote
  rw [get_bind_apply]
  simp only [known]
  rw [raiseIf_bind_neg (by omega), raiseIf_bind_neg (by simp [verified])]
  cases filed : (c.statementsAt vote.conflictKey).get? vote.validatorId with
  | none => exact ⟨_, sameVotes_countMessages c _ _, rfl⟩
  | some previous =>
    cases single previous filed
    exact ⟨c, .refl c, by simp⟩

/-- A vote is filed or rejected; a rejected one leaves at most evidence. -/
theorem recordVote_cases (c : QuorumCommittee) (vote : Vote) :
    c.Recordable vote ∧ (∃ d, SameVotes c d ∧ recordVote vote c = .ok ⟨⟩ (d.file vote)) ∨
      ¬ c.Recordable vote ∧ ∃ error d, SameVotes c d ∧ recordVote vote c = .error error d := by
  by_cases fits : c.Recordable vote
  · exact Or.inl ⟨fits, recordVote_of_recordable fits⟩
  refine Or.inr ⟨fits, ?_⟩
  unfold recordVote
  rw [get_bind_apply]
  cases known : c.validators.get? vote.validatorId with
  | none => exact ⟨_, c, .refl c, rfl⟩
  | some validator =>
    dsimp only
    by_cases early : vote.epoch < 0
    · exact ⟨_, c, .refl c, raiseIf_bind_pos early _ _ _⟩
    rw [raiseIf_bind_neg early]
    by_cases verified : KeyPair.verify validator.keypair.publicKey (canonicalBytes vote.statement) vote.signature
    swap
    · exact ⟨_, c, .refl c, raiseIf_bind_pos verified _ _ _⟩
    rw [raiseIf_bind_neg (not_not.mpr verified)]
    have attested : c.Attested vote := ⟨validator, known, verified⟩
    cases filed : (c.statementsAt vote.conflictKey).get? vote.validatorId with
    | none =>
      refine absurd ⟨attested, by omega, fun previous there => ?_⟩ fits
      rw [filed] at there
      cases there
    | some previous =>
      by_cases same : previous = vote.choice
      · refine absurd ⟨attested, by omega, fun other there => ?_⟩ fits
        rw [filed] at there
        exact Option.some.inj there ▸ same
      · refine ⟨.quorumError "validator equivocated on the same object version", _, sameVotes_accuse c vote previous, ?_⟩
        simp [bind_apply, same]

theorem validators_recordVote (c : QuorumCommittee) (vote : Vote) :
    (final (recordVote vote) c).validators = c.validators := by
  rcases recordVote_cases c vote with ⟨-, d, same, run⟩ | ⟨-, error, d, same, run⟩
  · rw [final_of_ok run]
    exact same.validators
  · rw [final_of_error run]
    exact same.validators

theorem votesAt_file (c : QuorumCommittee) (vote : Vote) (key : ConflictKey) :
    (c.file vote).votesAt key =
      if vote.conflictKey = key then (c.votesAt key).set vote.validatorId vote else c.votesAt key := by
  unfold votesAt file
  rw [Dict.get?_set]
  split
  · rename_i here
    simp [votesAt, here]
  · rfl

theorem statementsAt_file (c : QuorumCommittee) (vote : Vote) (key : ConflictKey) :
    (c.file vote).statementsAt key =
      if vote.conflictKey = key then (c.statementsAt key).set vote.validatorId vote.choice else c.statementsAt key := by
  unfold statementsAt file
  rw [Dict.get?_set]
  split
  · rename_i here
    simp [statementsAt, here]
  · rfl

/-- What holds of every committee that has recorded votes: they stand under
their keys and validators, and beside each one its choice. -/
structure Consistent (c : QuorumCommittee) : Prop where
  choices : ∀ key item, (c.statementsAt key).get? item = ((c.votesAt key).get? item).map Vote.choice
  placed : ∀ key item vote, (c.votesAt key).get? item = some vote → vote.validatorId = item ∧ vote.conflictKey = key
  attested : ∀ key item vote, (c.votesAt key).get? item = some vote → c.Attested vote ∧ 0 ≤ vote.epoch

theorem consistent_new (validators : Dict String Validator) : (new validators).Consistent where
  choices _ _ := rfl
  placed := nofun
  attested := nofun

theorem SameVotes.votesAt {c d : QuorumCommittee} (same : SameVotes c d) (key : ConflictKey) :
    d.votesAt key = c.votesAt key := by simp only [QuorumCommittee.votesAt, same.votes]

theorem SameVotes.statementsAt {c d : QuorumCommittee} (same : SameVotes c d) (key : ConflictKey) :
    d.statementsAt key = c.statementsAt key := by simp only [QuorumCommittee.statementsAt, same.statements]

theorem SameVotes.attested {c d : QuorumCommittee} (same : SameVotes c d) {vote : Vote} :
    d.Attested vote ↔ c.Attested vote := by simp only [Attested, same.validators]

theorem Consistent.of_same {c d : QuorumCommittee} (sound : c.Consistent) (same : SameVotes c d) : d.Consistent where
  choices key item := by rw [same.statementsAt, same.votesAt, sound.choices]
  placed key item vote filed := sound.placed key item vote (same.votesAt key ▸ filed)
  attested key item vote filed := by
    rw [same.attested]
    exact sound.attested key item vote (same.votesAt key ▸ filed)

theorem Consistent.file {c : QuorumCommittee} (sound : c.Consistent) {vote : Vote} (attested : c.Attested vote)
    (epoch : 0 ≤ vote.epoch) : (c.file vote).Consistent where
  choices key item := by
    rw [statementsAt_file, votesAt_file]
    split
    · rw [Dict.get?_set, Dict.get?_set]
      split
      · rfl
      · exact sound.choices key item
    · exact sound.choices key item
  placed key item other filed := by
    rw [votesAt_file] at filed
    split at filed
    · rename_i here
      rw [Dict.get?_set] at filed
      split at filed
      · rename_i mine
        cases Option.some.inj filed
        exact ⟨mine, here⟩
      · exact sound.placed key item other filed
    · exact sound.placed key item other filed
  attested key item other filed := by
    rw [votesAt_file] at filed
    split at filed
    · rw [Dict.get?_set] at filed
      split at filed
      · cases Option.some.inj filed
        exact ⟨attested, epoch⟩
      · exact sound.attested key item other filed
    · exact sound.attested key item other filed

theorem Consistent.recordVote {c : QuorumCommittee} (sound : c.Consistent) (vote : Vote) :
    (final (recordVote vote) c).Consistent := by
  rcases recordVote_cases c vote with ⟨fits, d, same, run⟩ | ⟨-, error, d, same, run⟩
  · rw [final_of_ok run]
    exact (sound.of_same same).file (same.attested.mpr fits.attested) fits.epoch
  · rw [final_of_error run]
    exact sound.of_same same

/-- The validators who voted for it. -/
def supporters (c : QuorumCommittee) (key : ConflictKey) (choice : String × String) : Finset String :=
  ((c.supporting key choice).map Vote.validatorId).toFinset

variable {c : QuorumCommittee} {key : ConflictKey} {choice : String × String} {operation : Operation}
  {epoch : Int} {domainId phase : String} {objectVersions : List (String × Int)} {certificate : Certificate}

theorem Consistent.mem_supporting (sound : c.Consistent) {vote : Vote} :
    vote ∈ c.supporting key choice ↔ (c.votesAt key).get? vote.validatorId = some vote ∧ vote.choice = choice := by
  rw [supporting, List.mem_filter, decide_eq_true_iff]
  refine and_congr_left fun _ => ?_
  rw [Dict.get?_eq_some_iff]
  constructor
  · intro member
    obtain ⟨⟨item, filed⟩, inEntries, rfl⟩ := List.mem_map.mp member
    have here := (sound.placed key item filed ((Dict.get?_eq_some_iff _).mpr inEntries)).1
    simpa only [here] using inEntries
  · intro member
    exact List.mem_map.mpr ⟨_, member, rfl⟩

theorem Consistent.mem_supporters (sound : c.Consistent) {item : String} :
    item ∈ c.supporters key choice ↔ ∃ vote, (c.votesAt key).get? item = some vote ∧ vote.choice = choice := by
  rw [supporters, List.mem_toFinset, List.mem_map]
  constructor
  · rintro ⟨vote, member, rfl⟩
    exact ⟨vote, sound.mem_supporting.mp member⟩
  · rintro ⟨vote, filed, same⟩
    obtain rfl := (sound.placed key item vote filed).1
    exact ⟨vote, sound.mem_supporting.mpr ⟨filed, same⟩, rfl⟩

theorem Consistent.known_of_supporting (sound : c.Consistent) {item : String}
    (member : item ∈ (c.supporting key choice).map Vote.validatorId) : (c.validators.get? item).isSome := by
  obtain ⟨vote, voted, rfl⟩ := List.mem_map.mp member
  obtain ⟨⟨validator, known, -⟩, -⟩ := sound.attested key _ vote (sound.mem_supporting.mp voted).1
  simp [known]

/-- Recording a vote adds one supporter, and takes none away. -/
theorem Consistent.mem_supporters_recordVote (sound : c.Consistent) {vote : Vote} (fits : c.Recordable vote)
    {item : String} :
    item ∈ (final (QuorumCommittee.recordVote vote) c).supporters key choice ↔
      item ∈ c.supporters key choice ∨ vote.conflictKey = key ∧ vote.choice = choice ∧ vote.validatorId = item := by
  obtain ⟨d, same, run⟩ := recordVote_of_recordable fits
  rw [(sound.recordVote vote).mem_supporters, sound.mem_supporters, final_of_ok run, votesAt_file, same.votesAt]
  by_cases here : vote.conflictKey = key
  swap
  · simp [here]
  subst here
  rw [if_pos rfl, Dict.get?_set]
  by_cases mine : vote.validatorId = item
  swap
  · simp [mine]
  subst mine
  rw [if_pos rfl]
  constructor
  · rintro ⟨_, ⟨⟩, chosen⟩
    exact Or.inr ⟨rfl, chosen, rfl⟩
  · rintro (⟨old, filed, chosen⟩ | ⟨-, chosen, -⟩)
    · -- the validator had already voted, hence for the same operation
      have before : (c.statementsAt vote.conflictKey).get? vote.validatorId = some old.choice := by
        rw [sound.choices, filed]
        rfl
      exact ⟨vote, rfl, (fits.single _ before).symm.trans chosen⟩
    · exact ⟨vote, rfl, chosen⟩

/-- A certificate is issued exactly where the supporters reach the threshold. -/
theorem Consistent.issueCertificate_eq_ok (sound : c.Consistent) :
    c.issueCertificate epoch domainId objectVersions operation phase = .ok certificate ↔
      c.threshold ≤ c.weigh (c.supporters ⟨epoch, domainId, objectVersions, phase⟩
        (operation.opId, operation.dependencyDigest)) ∧
      certificate = assemble epoch domainId objectVersions operation phase
        (c.supporting ⟨epoch, domainId, objectVersions, phase⟩ (operation.opId, operation.dependencyDigest)) := by
  have known : ∀ item ∈ (c.supporting ⟨epoch, domainId, objectVersions, phase⟩
      (operation.opId, operation.dependencyDigest)).map Vote.validatorId, (c.validators.get? item).isSome :=
    fun item => sound.known_of_supporting
  have weight := weightOf_eq_ok.mpr ⟨known, rfl⟩
  unfold issueCertificate
  rw [except_bind_eq_ok]
  constructor
  · rintro ⟨_, weighed, ran⟩
    cases weight.symm.trans weighed
    split at ran
    · cases ran
    · rename_i enough
      cases ran
      exact ⟨not_lt.mp enough, rfl⟩
  · rintro ⟨enough, rfl⟩
    exact ⟨_, weight, if_neg (not_lt.mpr enough)⟩

theorem signaturesValid_eq_true {statement : Json} {signers : List String} {signatures : List (String × Bytes)} :
    c.signaturesValid statement signers signatures = true ↔
      (∀ item, item ∈ signatures.map Prod.fst ↔ item ∈ signers) ∧
      ∀ item signature, (Dict.ofList (sortedSignatures signatures)).get? item = some signature →
        ∃ validator, c.validators.get? item = some validator ∧
          KeyPair.verify validator.keypair.publicKey (canonicalBytes statement) signature = true := by
  have keys : ∀ item, item ∈ (Dict.ofList (sortedSignatures signatures)).keys ↔ item ∈ signatures.map Prod.fst := by
    intro item
    rw [Dict.mem_keys_ofList]
    exact ((sortedPairs_perm _ signatures).map Prod.fst).mem_iff
  unfold signaturesValid
  rw [Bool.and_eq_true, decide_eq_true_iff, Finset.ext_iff, List.all_eq_true]
  simp only [List.mem_toFinset, keys, Prod.forall, ← Dict.get?_eq_some_iff]
  refine and_congr_right fun _ => forall_congr' fun item => forall_congr' fun signature => forall_congr' fun _ => ?_
  cases c.validators.get? item with
  | none => simp
  | some validator => simp

/-- What an accepted certificate has passed. -/
theorem verifyCertificate_eq_true :
    c.verifyCertificate certificate epoch domainId objectVersions operation = .ok true ↔
      (certificate.certificateId = certificateId
          (digest (certifiedStatement certificate.phase epoch domainId objectVersions operation))
          (sortedSet certificate.signers) (sortedSignatures certificate.signatures) ∧
        certificate.statementDigest =
          digest (certifiedStatement certificate.phase epoch domainId objectVersions operation) ∧
        certificate.epoch = epoch ∧ certificate.domainIds = [domainId] ∧ certificate.opId = operation.opId ∧
        certificate.phase ∈ ["PREPARE", "COMMIT"] ∧ certificate.signers.Nodup) ∧
      (∀ item ∈ certificate.signers, (c.validators.get? item).isSome) ∧
      c.threshold ≤ c.weigh certificate.signers.toFinset ∧
      c.signaturesValid (voteStatement certificate.phase epoch domainId objectVersions operation.opId
        operation.dependencyDigest) certificate.signers certificate.signatures = true := by
  unfold verifyCertificate
  dsimp only
  split
  · rename_i passed
    rw [except_bind_eq_ok]
    simp only [passed, true_and, weightOf_eq_ok]
    constructor
    · rintro ⟨_, ⟨known, rfl⟩, same⟩
      have all := Except.ok.inj same
      simp only [Bool.and_eq_true, decide_eq_true_iff] at all
      exact ⟨known, all.1.1, all.2⟩
    · rintro ⟨known, enough, valid⟩
      refine ⟨_, ⟨known, rfl⟩, ?_⟩
      have all : certificate.signers.all (fun item => (c.validators.get? item).isSome) = true :=
        List.all_eq_true.mpr known
      rw [all, valid, decide_eq_true enough]
      rfl
  · rename_i failed
    exact ⟨fun refused => absurd (Except.ok.inj refused) Bool.false_ne_true, fun accepted => absurd accepted.1 failed⟩

/-- What a vote states is fixed by the key it is filed under and its choice. -/
theorem statement_of_conflictKey {vote : Vote} (here : vote.conflictKey = ⟨epoch, domainId, objectVersions, phase⟩)
    (chosen : vote.choice = (operation.opId, operation.dependencyDigest)) :
    vote.statement = voteStatement phase epoch domainId objectVersions operation.opId operation.dependencyDigest := by
  simp only [Vote.conflictKey, ConflictKey.mk.injEq] at here
  simp only [Vote.choice, Prod.mk.injEq] at chosen
  simp only [Vote.statement, here, chosen]

/-- A certificate assembled from enough filed votes is accepted. -/
theorem Consistent.verify_assemble (sound : c.Consistent) (final : phase ∈ ["PREPARE", "COMMIT"])
    (enough : c.threshold ≤ c.weigh (c.supporters ⟨epoch, domainId, objectVersions, phase⟩
      (operation.opId, operation.dependencyDigest))) :
    c.verifyCertificate (assemble epoch domainId objectVersions operation phase
      (c.supporting ⟨epoch, domainId, objectVersions, phase⟩ (operation.opId, operation.dependencyDigest)))
      epoch domainId objectVersions operation = .ok true := by
  have placed : ∀ vote ∈ c.supporting ⟨epoch, domainId, objectVersions, phase⟩
      (operation.opId, operation.dependencyDigest), vote.conflictKey = ⟨epoch, domainId, objectVersions, phase⟩ ∧
        vote.choice = (operation.opId, operation.dependencyDigest) ∧ c.Attested vote := by
    intro vote voted
    obtain ⟨filed, chosen⟩ := sound.mem_supporting.mp voted
    exact ⟨(sound.placed _ _ _ filed).2, chosen, (sound.attested _ _ _ filed).1⟩
  have known : ∀ item ∈ (c.supporting ⟨epoch, domainId, objectVersions, phase⟩
      (operation.opId, operation.dependencyDigest)).map Vote.validatorId, (c.validators.get? item).isSome :=
    fun item => sound.known_of_supporting
  rw [supporters] at enough
  generalize c.supporting ⟨epoch, domainId, objectVersions, phase⟩ (operation.opId, operation.dependencyDigest)
    = supporting at placed known enough
  have ids : (supporting.map fun vote => (vote.validatorId, vote.signature)).map Prod.fst =
      supporting.map Vote.validatorId := by simp
  refine verifyCertificate_eq_true.mpr ⟨⟨?_, rfl, rfl, rfl, rfl, final, nodup_sortedSet _⟩, ?_, ?_, ?_⟩
  · have signers := sortedSet_sortedSet (supporting.map Vote.validatorId)
    have items := sortedSignatures_sortedSignatures (supporting.map fun vote => (vote.validatorId, vote.signature))
    simp only [assemble, signers, items]
  · intro item member
    exact known item (mem_sortedSet.mp member)
  · have same : (sortedSet (supporting.map Vote.validatorId)).toFinset = (supporting.map Vote.validatorId).toFinset := by
      ext item
      simp
    change c.threshold ≤ c.weigh (sortedSet (supporting.map Vote.validatorId)).toFinset
    rwa [same]
  · refine signaturesValid_eq_true.mpr ⟨fun item => ?_, fun item signature found => ?_⟩
    · change item ∈ (sortedSignatures _).map Prod.fst ↔ item ∈ sortedSet _
      rw [((sortedSignatures_perm _).map Prod.fst).mem_iff, ids, mem_sortedSet]
    · have signed := mem_sortedSignatures.mp (mem_sortedSignatures.mp (Dict.mem_of_get?_ofList found))
      obtain ⟨vote, voted, same⟩ := List.mem_map.mp signed
      cases same
      obtain ⟨here, chosen, validator, there, verified⟩ := placed vote voted
      rw [statement_of_conflictKey here chosen] at verified
      exact ⟨validator, there, verified⟩

end QuorumCommittee
end Committee

end Mosaic.Nexus
