import Mosaic.Nexus.Progress

namespace Mosaic.Nexus
open CanonicalJson Effects

variable [Crypto]

/-- The identifier is the digest that `create` computes. -/
def Operation.Bound (operation : Operation) : Prop := operation.opId = digest (.obj operation.unsignedFields)

namespace DomainExecutor

/-- The executor would apply the operation with this certificate. -/
def Accepts (d : DomainExecutor) (certificate : Certificate) (operation : Operation) : Prop :=
  d.validateOperation operation = .ok ⟨⟩ ∧
    d.committee.verifyCertificate certificate d.epoch d.domainId (d.objectVersions operation) operation = .ok true

/-- Both operations give every object the same new owner and payload. -/
def SameWrites (d : DomainExecutor) (operation other : Operation) : Prop :=
  ∀ object owner payload,
    (∃ intent ∈ d.localWrites operation, intent.objectId = object ∧ intent.newOwner = owner ∧ intent.newPayload = payload) ↔
      ∃ intent ∈ d.localWrites other, intent.objectId = object ∧ intent.newOwner = owner ∧ intent.newPayload = payload

end DomainExecutor

theorem Operation.writes_of_bound (free : CollisionFree) {operation other : Operation} (bound : operation.Bound)
    (bound' : other.Bound) (same : operation.opId = other.opId) : operation.writes = other.writes := by
  have digests : digest (.obj operation.unsignedFields) = digest (.obj other.unsignedFields) :=
    bound.symm.trans (same.trans bound')
  have writes := lookup_eq_of_digest free digests "writes"
  simp only [Operation.unsignedFields, List.lookup_cons] at writes
  exact WriteIntent.vars_inj (Option.some.inj writes)

/-- The intent with another payload. -/
def WriteIntent.altered (intent : WriteIntent) : WriteIntent := { intent with newPayload := intent.newPayload ++ "'" }

/-- The operation with every payload changed and its identifier kept. -/
def Operation.altered (operation : Operation) : Operation :=
  { operation with writes := operation.writes.map WriteIntent.altered }

/-- Its signer signs it again. -/
def Operation.resigned (key : Crypto.PrivateKey) (operation : Operation) : Operation :=
  { operation.altered with signature := Crypto.sign key operation.altered.signingPayload }

namespace DomainExecutor

variable {d : DomainExecutor} {certificate : Certificate} {operation : Operation} {key : Crypto.PrivateKey}

theorem localWrites_resigned :
    d.localWrites (operation.resigned key) = (d.localWrites operation).map WriteIntent.altered := by
  change (operation.writes.map WriteIntent.altered).filter _ = _
  rw [List.filter_map]
  rfl

theorem Valid.resigned (verifies : SignaturesVerify) (valid : d.Valid operation)
    (held : operation.signerPublicKey = Crypto.publicKey key) : d.Valid (operation.resigned key) := by
  have keys : (operation.resigned key).writes.map WriteIntent.key = operation.writes.map WriteIntent.key := by
    change (operation.writes.map WriteIntent.altered).map WriteIntent.key = _
    rw [List.map_map]
    rfl
  refine ⟨valid.epoch, valid.declared, ?_, valid.fresh, valid.nonempty, valid.domains, valid.inputsDistinct,
    keys ▸ valid.writesDistinct, fun name => keys ▸ valid.paired name, ?_, valid.hasLocal, valid.current⟩
  · change KeyPair.verify operation.signerPublicKey operation.altered.signingPayload _ = true
    rw [held]
    exact verifies key _
  · intro item inInputs intent inWrites same
    obtain ⟨original, there, rfl⟩ := List.mem_map.mp inWrites
    exact valid.versions item inInputs original there same

/-- The certificate does not tell the two operations apart. -/
theorem Accepts.resigned (verifies : SignaturesVerify) (accepts : d.Accepts certificate operation)
    (held : operation.signerPublicKey = Crypto.publicKey key) : d.Accepts certificate (operation.resigned key) := by
  obtain ⟨checked, accepted⟩ := accepts
  exact ⟨validateOperation_eq_ok.mpr ((validateOperation_eq_ok.mp checked).resigned verifies held), accepted⟩

omit [Crypto] in
theorem altered_ne (intent : WriteIntent) : intent.altered.newPayload ≠ intent.newPayload := by
  intro same
  have lengths := congrArg String.length same
  simp [WriteIntent.altered] at lengths

theorem exists_localWrite (valid : d.Valid operation) : ∃ intent, intent ∈ d.localWrites operation := by
  obtain ⟨item, member⟩ := List.exists_mem_of_ne_nil _ valid.hasLocal
  obtain ⟨intent, inWrites, -⟩ := valid.intent_of_input member
  exact ⟨intent, inWrites⟩

theorem not_sameWrites_resigned (valid : d.Valid operation) : ¬ d.SameWrites operation (operation.resigned key) := by
  intro same
  obtain ⟨intent, member⟩ := exists_localWrite valid
  obtain ⟨other, inAltered, object, -, payload⟩ := (same _ _ _).mp ⟨intent, member, rfl, rfl, rfl⟩
  rw [localWrites_resigned] at inAltered
  obtain ⟨original, there, rfl⟩ := List.mem_map.mp inAltered
  have self : original = intent := List.inj_on_of_nodup_map valid.localWrites_distinct there member object
  subst self
  exact altered_ne original payload

theorem applied_resigned_ne (valid : d.Valid operation) (valid' : d.Valid (operation.resigned key)) :
    (d.applied operation certificate).objects ≠ (d.applied (operation.resigned key) certificate).objects := by
  intro same
  obtain ⟨intent, member⟩ := exists_localWrite valid
  obtain ⟨state, found, -⟩ := valid.known_of_intent member
  have altered : intent.altered ∈ d.localWrites (operation.resigned key) := by
    rw [localWrites_resigned]
    exact List.mem_map_of_mem member
  have here := get?_overwrite_of_mem d.objects valid.localWrites_distinct member
  have there := get?_overwrite_of_mem d.objects valid'.localWrites_distinct altered
  change (d.localWrites operation).foldl overwrite d.objects =
    (d.localWrites (operation.resigned key)).foldl overwrite d.objects at same
  rw [same] at here
  have states := here.symm.trans there
  change (d.objects.get? intent.objectId).map _ = (d.objects.get? intent.objectId).map _ at states
  rw [found, Option.map_some, Option.map_some] at states
  exact altered_ne intent (congrArg ObjectState.payload (Option.some.inj states)).symm

end DomainExecutor

open DomainExecutor in
/-- A certificate fixes the writes of the operations whose identifiers are their
digests. For every operation it is accepted for there is another one, with the
identifier kept, that its signer can put in its place. -/
theorem certificate_binds_writes (free : CollisionFree) (verifies : SignaturesVerify) (d : DomainExecutor)
    (certificate : Certificate) :
    (∀ operation other : Operation, d.Accepts certificate operation → d.Accepts certificate other →
      operation.Bound → other.Bound → d.SameWrites operation other ∧
        (d.applied operation certificate).objects = (d.applied other certificate).objects) ∧
    ∀ (operation : Operation) (key : Crypto.PrivateKey), d.Accepts certificate operation →
      operation.signerPublicKey = Crypto.publicKey key → ∃ other : Operation, d.Accepts certificate other ∧
        other.opId = operation.opId ∧ ¬ d.SameWrites operation other ∧
          (d.applied operation certificate).objects ≠ (d.applied other certificate).objects := by
  constructor
  · intro operation other accepts accepts' bound bound'
    have named := (QuorumCommittee.verifyCertificate_eq_true.mp accepts.2).1.2.2.2.2.1
    have named' := (QuorumCommittee.verifyCertificate_eq_true.mp accepts'.2).1.2.2.2.2.1
    have writes := Operation.writes_of_bound free bound bound' (named.symm.trans named')
    have locals : d.localWrites operation = d.localWrites other := by rw [localWrites, writes, localWrites]
    constructor
    · intro object owner payload
      rw [locals]
    · change (d.localWrites operation).foldl overwrite d.objects = (d.localWrites other).foldl overwrite d.objects
      rw [locals]
  · intro operation key accepts held
    have accepts' := accepts.resigned verifies held
    have valid := validateOperation_eq_ok.mp accepts.1
    exact ⟨operation.resigned key, accepts', rfl, not_sameWrites_resigned valid,
      applied_resigned_ne valid (validateOperation_eq_ok.mp accepts'.1)⟩

/-- Every prepared operation is accepted with its certificate. -/
theorem exists_accepted (verifies : SignaturesVerify) (pair : KeyPair) :
    ∃ (d : DomainExecutor) (certificate : Certificate), d.Accepts certificate (rewrite pair ["a"] 0) := by
  obtain ⟨certificate, t, run, -⟩ := DomainExecutor.prepare_ok verifies (soloValidators_wellFormed pair) le_rfl
    (QuorumCommittee.consistent_new _) (soloExecutor_valid verifies pair 0) fun _ _ => rfl
  obtain ⟨valid, -, certified⟩ := DomainExecutor.collects_prepare.returns _ _ run
  exact ⟨t, certificate, DomainExecutor.validateOperation_eq_ok.mpr
    (valid.of_collects (DomainExecutor.collects_prepare.step run)), certified.accepted⟩

theorem rewrite_bound (pair : KeyPair) (objects : List String) (nonce : Int) : (rewrite pair objects nonce).Bound := rfl

omit [Crypto] in
theorem certificate_binds_writes_solo : let _ := Crypto.ideal
    ∃ (d : DomainExecutor) (certificate : Certificate) (operation other : Operation), operation.Bound ∧
      d.Accepts certificate operation ∧ d.Accepts certificate other ∧ other.opId = operation.opId ∧
        ¬ d.SameWrites operation other := by
  intro _
  obtain ⟨d, certificate, accepts⟩ := exists_accepted ideal_signaturesVerify idealKey
  obtain ⟨other, accepts', named, different, -⟩ :=
    (certificate_binds_writes ideal_collisionFree ideal_signaturesVerify d certificate).2 _ idealKey.privateKey accepts rfl
  exact ⟨d, certificate, _, other, rewrite_bound idealKey ["a"] 0, accepts, accepts', named, different⟩

omit [Crypto] in
theorem certificate_does_not_bind : let _ := Crypto.ideal
    ¬ ∀ (d : DomainExecutor) (certificate : Certificate) (operation other : Operation),
      d.Accepts certificate operation → d.Accepts certificate other → d.SameWrites operation other := by
  intro _ claim
  obtain ⟨d, certificate, accepts⟩ := exists_accepted ideal_signaturesVerify idealKey
  have held : (rewrite idealKey ["a"] 0).signerPublicKey = Crypto.publicKey idealKey.privateKey := rfl
  exact DomainExecutor.not_sameWrites_resigned (DomainExecutor.validateOperation_eq_ok.mp accepts.1)
    (claim d certificate _ _ accepts (accepts.resigned ideal_signaturesVerify held))

end Mosaic.Nexus
