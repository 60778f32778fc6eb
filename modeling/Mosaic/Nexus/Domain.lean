import Mosaic.Nexus.Quorum

namespace Mosaic.Nexus
open CanonicalJson Effects

def InputRef.key (item : InputRef) : String × String := (item.domainId, item.objectId)

def WriteIntent.key (item : WriteIntent) : String × String := (item.domainId, item.objectId)

section Executor
variable [Crypto]

/-- The last field is not in the source: it lists the votes that validators
have signed for this executor, each with the key it was signed with. -/
structure DomainExecutor where
  domainId : String
  epoch : Int
  committee : QuorumCommittee
  objects : Dict String ObjectState
  committedOperations : Finset String
  availabilityCertificates : Dict String DataAvailabilityCertificate
  preparedCertificates : Dict String Certificate
  commitCertificates : Dict String Certificate
  signedVotes : List (Bytes × Vote)

abbrev PyDomain := EStateM NexusError DomainExecutor

namespace DomainExecutor

/-- `DomainExecutor(domain_id, epoch, committee)`. -/
def new (domainId : String) (epoch : Int) (committee : QuorumCommittee) : DomainExecutor where
  domainId := domainId
  epoch := epoch
  committee := committee
  objects := .empty
  committedOperations := ∅
  availabilityCertificates := .empty
  preparedCertificates := .empty
  commitCertificates := .empty
  signedVotes := []

def setCommittee (committee : QuorumCommittee) (d : DomainExecutor) : DomainExecutor := { d with committee }

/-- A call on `self.committee`. -/
def onCommittee {α : Type} (x : PyQuorum α) : PyDomain α := onPart committee setCommittee x

def setObject (d : DomainExecutor) (state : ObjectState) (key : String) : DomainExecutor :=
  { d with objects := d.objects.set key state }

def addObject (state : ObjectState) : PyDomain PUnit := do
  let d ← get
  raiseIf (state.domainId ≠ d.domainId) (.domainExecutionError "object belongs to another domain")
  raiseIf ((d.objects.get? state.objectId).isSome) (.domainExecutionError "object already exists")
  modify fun d => d.setObject state state.objectId

def localInputs (d : DomainExecutor) (operation : Operation) : List InputRef :=
  operation.inputs.filter fun item => item.domainId = d.domainId

def localWrites (d : DomainExecutor) (operation : Operation) : List WriteIntent :=
  operation.writes.filter fun item => item.domainId = d.domainId

def objectVersions (d : DomainExecutor) (operation : Operation) : List (String × Int) :=
  sortedPairs id ((d.localInputs operation).map fun item => (item.objectId, item.expectedVersion))

def validateInput (d : DomainExecutor) (operation : Operation) (item : InputRef) : Except NexusError PUnit :=
  match d.objects.get? item.objectId with
  | none => .error (.domainExecutionError s!"unknown object: {item.objectId}")
  | some state => do
    refuseIf (state.domainId ≠ d.domainId) (.domainExecutionError "input references another domain")
    refuseIf (state.version ≠ item.expectedVersion) (.domainExecutionError
      s!"stale version for {item.objectId}: expected {item.expectedVersion}, found {state.version}")
    refuseIf (state.owner ≠ operation.signer) (.domainExecutionError "operation signer does not own input")

def validateOperation (d : DomainExecutor) (operation : Operation) : Except NexusError PUnit := do
  refuseIf (operation.epoch ≠ d.epoch) (.domainExecutionError "operation belongs to another epoch")
  refuseIf (d.domainId ∉ operation.domainIds) (.domainExecutionError "operation does not declare this domain")
  refuseIf (¬ operation.verifySignature) (.domainExecutionError "invalid client signature")
  refuseIf (operation.opId ∈ d.committedOperations) (.domainExecutionError "operation is already committed")
  refuseIf (operation.inputs = []) (.domainExecutionError "operation must have at least one input")
  refuseIf ((operation.inputs.map InputRef.domainId).toFinset ≠ operation.domainIds.toFinset)
    (.domainExecutionError "domain declaration does not match inputs")
  refuseIf ((operation.inputs.map InputRef.key).toFinset.card ≠ operation.inputs.length)
    (.domainExecutionError "duplicate input object")
  refuseIf ((operation.writes.map WriteIntent.key).toFinset.card ≠ operation.writes.length)
    (.domainExecutionError "duplicate write intent")
  let inputMap : Dict (String × String) InputRef := Dict.ofList (operation.inputs.map fun item => (item.key, item))
  let writeMap : Dict (String × String) WriteIntent := Dict.ofList (operation.writes.map fun item => (item.key, item))
  refuseIf (inputMap.keys.toFinset ≠ writeMap.keys.toFinset)
    (.domainExecutionError "prototype requires one write intent per input")
  refuseIf (∃ entry ∈ inputMap.entries, ∃ intent ∈ writeMap.get? entry.1,
      intent.expectedVersion ≠ entry.2.expectedVersion)
    (.domainExecutionError "write version disagrees with input version")
  refuseIf (d.localInputs operation = []) (.domainExecutionError "operation has no input in this domain")
  (d.localInputs operation).forM (d.validateInput operation)

def logVote (validator : Validator) (vote : Vote) (d : DomainExecutor) : DomainExecutor :=
  { d with signedVotes := d.signedVotes ++ [(validator.keypair.publicKey, vote)] }

def recordVotes (operation : Operation) (phase : String) : PyDomain PUnit := do
  let d ← get
  d.committee.validators.values.forM fun validator => do
    let vote := validator.signVote d.epoch d.domainId (d.objectVersions operation) operation.opId
      operation.dependencyDigest phase
    modify (logVote validator vote)
    onCommittee (QuorumCommittee.recordVote vote)

/-- `issue_certificate` followed by the check of what it issued. -/
def certify (operation : Operation) (phase failure : String) : PyDomain Certificate := do
  let d ← get
  let certificate ← ofExcept
    (d.committee.issueCertificate d.epoch d.domainId (d.objectVersions operation) operation phase)
  let accepted ← ofExcept
    (d.committee.verifyCertificate certificate d.epoch d.domainId (d.objectVersions operation) operation)
  raiseIf (¬ accepted) (.quorumError failure)
  return certificate

/-- `availability_certificate or self.committee.issue_dac(operation)` -/
def availabilityOr (operation : Operation) : Option DataAvailabilityCertificate → PyDomain DataAvailabilityCertificate
  | some certificate => pure certificate
  | none => onCommittee (QuorumCommittee.issueDac operation)

def keepAvailability (operation : Operation) (dac : DataAvailabilityCertificate) (d : DomainExecutor) : DomainExecutor :=
  { d with availabilityCertificates := d.availabilityCertificates.set operation.opId dac }

def keepPrepared (operation : Operation) (certificate : Certificate) (d : DomainExecutor) : DomainExecutor :=
  { d with preparedCertificates := d.preparedCertificates.set operation.opId certificate }

def prepare (operation : Operation) (availability : Option DataAvailabilityCertificate) : PyDomain Certificate := do
  let d ← get
  ofExcept (d.validateOperation operation)
  let dac ← availabilityOr operation availability
  let answered ← get
  let available ← ofExcept (answered.committee.verifyDac operation dac)
  raiseIf (¬ available) (.quorumError "operation data is not available to the quorum")
  modify (keepAvailability operation dac)
  recordVotes operation "PREPARE"
  let certificate ← certify operation "PREPARE" "issued prepare certificate failed verification"
  modify (keepPrepared operation certificate)
  return certificate

def commitCertificate (operation : Operation) (prepareCertificate : Certificate) : PyDomain Certificate := do
  let d ← get
  ofExcept (d.validateOperation operation)
  raiseIf (d.preparedCertificates.get? operation.opId = none)
    (.domainExecutionError "operation has not been prepared")
  raiseIf (d.preparedCertificates.get? operation.opId ≠ some prepareCertificate)
    (.domainExecutionError "unknown prepare certificate")
  recordVotes operation "COMMIT"
  certify operation "COMMIT" "issued commit certificate failed verification"

/-- The object that a write intent makes of the one before. -/
def successor (intent : WriteIntent) (state : ObjectState) : ObjectState where
  objectId := state.objectId
  version := state.version + 1
  owner := intent.newOwner
  payload := intent.newPayload
  domainId := state.domainId

def applyIntent (intent : WriteIntent) : PyDomain PUnit := do
  let d ← get
  match d.objects.get? intent.objectId with
  | none => throw (.keyError intent.objectId)
  | some state => modify fun d => d.setObject (successor intent state) intent.objectId

def markCommitted (operation : Operation) (certificate : Certificate) (d : DomainExecutor) : DomainExecutor :=
  { d with
    committedOperations := insert operation.opId d.committedOperations
    commitCertificates := d.commitCertificates.set operation.opId certificate }

def applyCommitted (operation : Operation) (certificate : Certificate) : PyDomain PUnit := do
  let d ← get
  ofExcept (d.validateOperation operation)
  let accepted ← ofExcept
    (d.committee.verifyCertificate certificate d.epoch d.domainId (d.objectVersions operation) operation)
  raiseIf (¬ accepted) (.quorumError "invalid commit certificate")
  raiseIf (operation.opId ∈ d.committedOperations) (.domainExecutionError "operation would be applied twice")
  (d.localWrites operation).forM applyIntent
  modify (markCommitted operation certificate)

def commit (operation : Operation) (prepareCertificate : Certificate) : PyDomain Certificate := do
  let certificate ← commitCertificate operation prepareCertificate
  applyCommitted operation certificate
  return certificate

def finalize (operation : Operation) : PyDomain Certificate := do
  let prepared ← prepare operation none
  commit operation prepared

theorem addObject_ok {d : DomainExecutor} {state : ObjectState} (own : state.domainId = d.domainId)
    (free : d.objects.get? state.objectId = none) :
    addObject state d = .ok ⟨⟩ (d.setObject state state.objectId) := by
  unfold addObject
  rw [get_bind_apply, raiseIf_bind_neg (not_not.mpr own), raiseIf_bind_neg (by simp [free])]
  rfl

theorem addObject_cases (d : DomainExecutor) (state : ObjectState) :
    (∃ error, addObject state d = .error error d) ∨
      state.domainId = d.domainId ∧ d.objects.get? state.objectId = none ∧
        addObject state d = .ok ⟨⟩ (d.setObject state state.objectId) := by
  by_cases own : state.domainId = d.domainId
  swap
  · exact Or.inl ⟨_, raiseIf_bind_pos own _ _ d⟩
  cases there : d.objects.get? state.objectId with
  | none => exact Or.inr ⟨own, rfl, addObject_ok own there⟩
  | some old =>
    left
    refine ⟨.domainExecutionError "object already exists", ?_⟩
    unfold addObject
    rw [get_bind_apply, raiseIf_bind_neg (not_not.mpr own), raiseIf_bind_pos (by simp [there])]

structure Valid (d : DomainExecutor) (operation : Operation) : Prop where
  epoch : operation.epoch = d.epoch
  declared : d.domainId ∈ operation.domainIds
  signature : operation.verifySignature = true
  fresh : operation.opId ∉ d.committedOperations
  nonempty : operation.inputs ≠ []
  domains : ∀ domain, domain ∈ operation.inputs.map InputRef.domainId ↔ domain ∈ operation.domainIds
  inputsDistinct : (operation.inputs.map InputRef.key).Nodup
  writesDistinct : (operation.writes.map WriteIntent.key).Nodup
  paired : ∀ key, key ∈ operation.inputs.map InputRef.key ↔ key ∈ operation.writes.map WriteIntent.key
  versions : ∀ item ∈ operation.inputs, ∀ intent ∈ operation.writes, intent.key = item.key →
    intent.expectedVersion = item.expectedVersion
  hasLocal : d.localInputs operation ≠ []
  current : ∀ item ∈ d.localInputs operation, ∃ state, d.objects.get? item.objectId = some state ∧
    state.domainId = d.domainId ∧ state.version = item.expectedVersion ∧ state.owner = operation.signer

variable {d : DomainExecutor} {operation : Operation} {certificate : Certificate}

theorem validateInput_eq_ok {item : InputRef} :
    d.validateInput operation item = .ok ⟨⟩ ↔ ∃ state, d.objects.get? item.objectId = some state ∧
      state.domainId = d.domainId ∧ state.version = item.expectedVersion ∧ state.owner = operation.signer := by
  unfold validateInput
  cases d.objects.get? item.objectId with
  | none => simp
  | some state => simp [refuseIf_bind_eq_ok, refuseIf_eq_ok]

theorem validateOperation_eq_ok : d.validateOperation operation = .ok ⟨⟩ ↔ d.Valid operation := by
  have card : ∀ {α β : Type} [DecidableEq β] (key : α → β) (items : List α),
      (items.map key).toFinset.card = items.length ↔ (items.map key).Nodup := by
    intro α β _ key items
    have whole := @Multiset.toFinset_card_eq_card_iff_nodup β _ (items.map key)
    simpa using whole
  simp only [validateOperation, refuseIf_bind_eq_ok, not_not, forM_eq_ok, validateInput_eq_ok, card,
    Finset.ext_iff, List.mem_toFinset, Dict.mem_keys_ofList, List.map_map, Function.comp_def]
  constructor
  · rintro ⟨epoch, declared, signature, fresh, nonempty, domains, inputs, writes, paired, versions, hasLocal, current⟩
    refine ⟨epoch, declared, signature, fresh, nonempty, domains, inputs, writes, paired, ?_, hasLocal, current⟩
    intro item inInputs intent inWrites same
    by_contra disagree
    refine versions ⟨(item.key, item), ?_, intent, ?_, disagree⟩
    · exact (Dict.get?_eq_some_iff _).mp ((Dict.get?_ofList_keyed inputs).mpr ⟨inInputs, rfl⟩)
    · exact (Dict.get?_ofList_keyed writes).mpr ⟨inWrites, same⟩
  · intro valid
    refine ⟨valid.epoch, valid.declared, valid.signature, valid.fresh, valid.nonempty, valid.domains,
      valid.inputsDistinct, valid.writesDistinct, valid.paired, ?_, valid.hasLocal, valid.current⟩
    rintro ⟨⟨key, item⟩, entry, intent, found, disagree⟩
    obtain ⟨inInputs, rfl⟩ := (Dict.get?_ofList_keyed valid.inputsDistinct).mp ((Dict.get?_eq_some_iff _).mpr entry)
    obtain ⟨inWrites, same⟩ := (Dict.get?_ofList_keyed valid.writesDistinct).mp found
    exact disagree (valid.versions item inInputs intent inWrites same)

def overwrite (objects : Dict String ObjectState) (intent : WriteIntent) : Dict String ObjectState :=
  match objects.get? intent.objectId with
  | none => objects
  | some state => objects.set intent.objectId (successor intent state)

/-- What the executor is once it has applied the operation. -/
def applied (d : DomainExecutor) (operation : Operation) (certificate : Certificate) : DomainExecutor :=
  markCommitted operation certificate { d with objects := (d.localWrites operation).foldl overwrite d.objects }

omit [Crypto] in
theorem get?_overwrite (objects : Dict String ObjectState) (intent : WriteIntent) (key : String) :
    (overwrite objects intent).get? key =
      if intent.objectId = key then (objects.get? key).map (successor intent) else objects.get? key := by
  unfold overwrite
  by_cases here : intent.objectId = key
  · rw [if_pos here, ← here]
    cases found : objects.get? intent.objectId with
    | none => exact found
    | some state => simp
  · rw [if_neg here]
    cases objects.get? intent.objectId with
    | none => rfl
    | some state => exact Dict.get?_set_of_ne _ _ here

omit [Crypto] in
theorem isSome_overwrite (objects : Dict String ObjectState) (intent : WriteIntent) (key : String) :
    ((overwrite objects intent).get? key).isSome = (objects.get? key).isSome := by
  rw [get?_overwrite]
  split
  · rw [Option.isSome_map]
  · rfl

omit [Crypto] in
theorem get?_overwrite_of_notMem {intents : List WriteIntent} {objects : Dict String ObjectState} {key : String}
    (other : key ∉ intents.map WriteIntent.objectId) : (intents.foldl overwrite objects).get? key = objects.get? key := by
  induction intents generalizing objects with
  | nil => rfl
  | cons intent intents ih =>
    rw [List.map_cons, List.mem_cons, not_or] at other
    rw [List.foldl_cons, ih other.2, get?_overwrite, if_neg (Ne.symm other.1)]

omit [Crypto] in
/-- Intents for different objects do not get in each other's way. -/
theorem get?_overwrite_of_mem (objects : Dict String ObjectState) {intents : List WriteIntent}
    (distinct : (intents.map WriteIntent.objectId).Nodup) {intent : WriteIntent} (member : intent ∈ intents) :
    (intents.foldl overwrite objects).get? intent.objectId =
      (objects.get? intent.objectId).map (successor intent) := by
  induction intents generalizing objects with
  | nil => cases member
  | cons first intents ih =>
    rw [List.map_cons, List.nodup_cons] at distinct
    rw [List.foldl_cons]
    rcases List.mem_cons.mp member with rfl | later
    · rw [get?_overwrite_of_notMem distinct.1, get?_overwrite, if_pos rfl]
    · have other : first.objectId ≠ intent.objectId := fun same =>
        distinct.1 (same ▸ List.mem_map_of_mem later)
      rw [ih (overwrite objects first) distinct.2 later, get?_overwrite, if_neg other]

theorem applyIntents_of_known {intents : List WriteIntent}
    (known : ∀ intent ∈ intents, (d.objects.get? intent.objectId).isSome) :
    intents.forM applyIntent d = .ok ⟨⟩ { d with objects := intents.foldl overwrite d.objects } := by
  induction intents generalizing d with
  | nil => rfl
  | cons intent intents ih =>
    obtain ⟨state, found⟩ := Option.isSome_iff_exists.mp (known intent (by simp))
    have first : applyIntent intent d = .ok ⟨⟩ { d with objects := overwrite d.objects intent } := by
      unfold applyIntent overwrite
      rw [get_bind_apply]
      simp only [found]
      rfl
    rw [List.forM_eq_forM, List.forM_cons, bind_of_ok first]
    exact ih fun intent' member => by
      rw [isSome_overwrite]
      exact known intent' (List.mem_cons_of_mem _ member)

namespace Valid

theorem localWrites_distinct (valid : d.Valid operation) : ((d.localWrites operation).map WriteIntent.objectId).Nodup := by
  have keys : ((d.localWrites operation).map WriteIntent.key).Nodup :=
    valid.writesDistinct.sublist (List.filter_sublist.map _)
  have local' : (d.localWrites operation).map WriteIntent.key =
      ((d.localWrites operation).map WriteIntent.objectId).map (Prod.mk d.domainId) := by
    rw [List.map_map]
    refine List.map_congr_left fun intent member => ?_
    have here := (List.mem_filter.mp member).2
    rw [decide_eq_true_iff] at here
    exact Prod.ext here rfl
  rw [local'] at keys
  exact keys.of_map

/-- Every local write intent is for a local input, at its version. -/
theorem input_of_intent (valid : d.Valid operation) {intent : WriteIntent} (member : intent ∈ d.localWrites operation) :
    ∃ item ∈ d.localInputs operation, item.objectId = intent.objectId ∧ item.expectedVersion = intent.expectedVersion := by
  obtain ⟨inWrites, here⟩ := List.mem_filter.mp member
  rw [decide_eq_true_iff] at here
  obtain ⟨item, inInputs, same⟩ := List.mem_map.mp ((valid.paired intent.key).mpr (List.mem_map_of_mem inWrites))
  obtain ⟨domain, object⟩ := Prod.mk.inj same
  exact ⟨item, List.mem_filter.mpr ⟨inInputs, decide_eq_true (domain.trans here)⟩, object,
    (valid.versions item inInputs intent inWrites same.symm).symm⟩

theorem intent_of_input (valid : d.Valid operation) {item : InputRef} (member : item ∈ d.localInputs operation) :
    ∃ intent ∈ d.localWrites operation, intent.objectId = item.objectId ∧ intent.expectedVersion = item.expectedVersion := by
  obtain ⟨inInputs, here⟩ := List.mem_filter.mp member
  rw [decide_eq_true_iff] at here
  obtain ⟨intent, inWrites, same⟩ := List.mem_map.mp ((valid.paired item.key).mp (List.mem_map_of_mem inInputs))
  obtain ⟨domain, object⟩ := Prod.mk.inj same
  exact ⟨intent, List.mem_filter.mpr ⟨inWrites, decide_eq_true (domain.trans here)⟩, object,
    valid.versions item inInputs intent inWrites same⟩

theorem known_of_intent (valid : d.Valid operation) {intent : WriteIntent} (member : intent ∈ d.localWrites operation) :
    ∃ state, d.objects.get? intent.objectId = some state ∧ state.domainId = d.domainId ∧
      state.version = intent.expectedVersion ∧ state.owner = operation.signer := by
  obtain ⟨item, inInputs, object, version⟩ := valid.input_of_intent member
  rw [← object, ← version]
  exact valid.current item inInputs

end Valid

theorem applyCommitted_of_valid (valid : d.Valid operation)
    (accepted : d.committee.verifyCertificate certificate d.epoch d.domainId (d.objectVersions operation) operation =
      .ok true) : applyCommitted operation certificate d = .ok ⟨⟩ (d.applied operation certificate) := by
  have written : (d.localWrites operation).forM applyIntent d = .ok ⟨⟩ _ :=
    applyIntents_of_known fun intent member => by
      obtain ⟨state, found, -⟩ := valid.known_of_intent member
      rw [found]
      rfl
  unfold applyCommitted
  rw [get_bind_apply, bind_of_ok (ofExcept_of_ok (validateOperation_eq_ok.mpr valid) d),
    bind_of_ok (ofExcept_of_ok accepted d), raiseIf_bind_neg (by simp), raiseIf_bind_neg valid.fresh]
  exact bind_of_ok written

/-- An operation is applied as a whole, or nothing happens. -/
theorem applyCommitted_cases (d : DomainExecutor) (operation : Operation) (certificate : Certificate) :
    (∃ error, applyCommitted operation certificate d = .error error d) ∨
      d.Valid operation ∧
        d.committee.verifyCertificate certificate d.epoch d.domainId (d.objectVersions operation) operation = .ok true ∧
        applyCommitted operation certificate d = .ok ⟨⟩ (d.applied operation certificate) := by
  cases checked : d.validateOperation operation with
  | error error =>
    refine Or.inl ⟨error, ?_⟩
    unfold applyCommitted
    rw [get_bind_apply, checked, ofExcept_error_bind]
  | ok _ =>
    have valid := validateOperation_eq_ok.mp checked
    cases verified : d.committee.verifyCertificate certificate d.epoch d.domainId (d.objectVersions operation) operation with
    | error error =>
      refine Or.inl ⟨error, ?_⟩
      unfold applyCommitted
      rw [get_bind_apply, checked, ofExcept_ok_bind, verified, ofExcept_error_bind]
    | ok accepted =>
      cases accepted with
      | true => exact Or.inr ⟨valid, rfl, applyCommitted_of_valid valid verified⟩
      | false =>
        refine Or.inl ⟨.quorumError "invalid commit certificate", ?_⟩
        unfold applyCommitted
        rw [get_bind_apply, checked, ofExcept_ok_bind, verified, ofExcept_ok_bind, raiseIf_bind_pos (by simp)]

end DomainExecutor
end Executor

end Mosaic.Nexus
