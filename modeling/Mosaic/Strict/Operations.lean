import Mosaic.Strict.Values
import Mosaic.Runs
import Mosaic.Success

namespace Mosaic.Strict
open CanonicalJson Effects Instance

variable [Crypto] [Texts] {s t : Instance} {capsule : Capsule} {closure : ClosureProof} {fresh : StateSeal}

theorem install_of_encodable (fine : fresh.statement.Encodable) : install fresh s = .ok ⟨⟩ (s.installSeal fresh) := by
  unfold install sealId
  rw [digest_of_encodable fine]
  rfl

/-- A seal whose texts cannot be encoded is made current, and then it has no identifier. -/
theorem install_of_not (bad : ¬ fresh.statement.Encodable) :
    install fresh s = .error .unicodeEncodeError (setCurrent s fresh) := by
  unfold install sealId
  rw [digest_of_not bad]
  rfl

theorem forM_install {seals : List StateSeal} (fine : ∀ fresh ∈ seals, fresh.statement.Encodable) (s : Instance) :
    seals.forM install s = .ok ⟨⟩ (seals.foldl installSeal s) := by
  induction seals generalizing s with
  | nil => rfl
  | cons fresh seals ih =>
    obtain ⟨first, later⟩ := List.forall_mem_cons.mp fine
    rw [List.forM_eq_forM, List.forM_cons, bind_of_ok (install_of_encodable first), List.foldl_cons]
    exact ih later _

theorem validateCapsule_guarantees : Guarantees Eq s (validateCapsule capsule) (fun _ _ => s.Valid capsule) := by
  unfold validateCapsule
  refine .get_bind ?_
  cases known : s.knownSeals.get? capsule.predecessorId with
  | none => exact .of_error rfl rfl
  | some current =>
    refine .raiseIf_bind fun epochs => .ofExcept_bind fun verified checked => ?_
    refine .raiseIf_bind fun signature => .raiseIf_bind fun attempt => ?_
    unfold raiseIf
    by_cases root : capsule.successorRoot = ""
    · exact .of_error (if_pos root) rfl
    · push Not at epochs
      refine .of_ok (if_neg root) rfl ⟨⟨current, known, epochs.2⟩, epochs.1, ?_, by omega, root⟩
      rw [verifyClientSignature_ok checked]
      simpa using signature

theorem raiseConflict_guarantees {status : String} {first : Capsule} {lock : Lock} (valid : s.Valid capsule)
    (held : s.locks.get? capsule.predecessorId = some lock) (stored : s.capsules.get? lock.capsuleId = some first)
    (other : ¬ lock.IsFor capsule) (refused : status = "ACCEPT" → s.AtHead capsule → ¬ lock.Released capsule)
    (Q : PUnit → Instance → Prop) :
    Guarantees (Trace (witnessing status capsule)) s (raiseConflict first capsule) Q := by
  unfold raiseConflict
  refine .ofExcept_bind fun evidence made => ?_
  exact .of_error rfl (.single (.contested valid held stored other refused (createdEvidence_ok made)) ⟨rfl, rfl⟩)

theorem acceptLock_guarantees (valid : s.Valid capsule) :
    Guarantees (Trace (witnessing "ACCEPT" capsule)) s (acceptLock capsule) (fun _ t =>
      t.members = s.members ∧ t.Valid capsule ∧ t.AtHead capsule ∧
        ∃ lock, t.locks.get? capsule.predecessorId = some lock ∧ lock.IsFor capsule) := by
  unfold acceptLock
  refine .get_bind (.read_bind (lookupKey_guarantees _ _) fun predecessor known => ?_)
  refine .read_bind (lookupKey_guarantees _ _) fun current held => ?_
  refine .ofExcept_bind fun currentId hashed => ?_
  obtain ⟨-, rfl⟩ := sealId_eq_ok.mp hashed
  have head : s.headOf capsule = some current := by simpa only [headOf, known, Option.bind_some] using held
  have claim : s.AtHead capsule → (∀ lock, s.locks.get? capsule.predecessorId = some lock → lock.Released capsule) →
      Guarantees (Trace (witnessing "ACCEPT" capsule)) s (modify (·.setLock capsule "ACCEPT") : Py PUnit) (fun _ t =>
        t.members = s.members ∧ t.Valid capsule ∧ t.AtHead capsule ∧
          ∃ lock, t.locks.get? capsule.predecessorId = some lock ∧ lock.IsFor capsule) := by
    intro atHead free
    refine .update (.single (.claimed valid atHead free) ⟨rfl, rfl⟩) ?_
    exact ⟨rfl, ⟨valid.1, valid.2, valid.3, valid.4, valid.5⟩, atHead, _, Dict.get?_set_self _ _ _, rfl, rfl⟩
  cases locked : s.locks.get? capsule.predecessorId with
  | none =>
    refine .raiseIf_bind fun atHead => claim ⟨current, head, not_not.mp atHead⟩ fun lock locked' => ?_
    rw [locked] at locked'
    cases locked'
  | some lock =>
    by_cases named : current.sealId = capsule.predecessorId
    · have atHead : s.AtHead capsule := ⟨current, head, named⟩
      simp only [named, ne_eq, not_true_eq_false, if_false]
      by_cases mine : lock.capsuleId = capsule.capsuleId ∧ lock.attempt = capsule.attempt
      · rw [if_pos mine]
        exact .pure ⟨rfl, valid, atHead, lock, locked, mine⟩
      rw [if_neg mine]
      by_cases taken : lock.status = "ABANDON" ∧ lock.attempt < capsule.attempt
      · rw [if_pos taken]
        refine claim atHead fun lock' locked' => ?_
        rw [locked] at locked'
        cases locked'
        exact taken
      rw [if_neg taken]
      refine .read_bind (lookupKey_guarantees _ _) fun first stored => ?_
      exact raiseConflict_guarantees valid locked stored mine (fun _ _ => taken) _
    · simp only [named, ne_eq, not_false_eq_true, if_true]
      by_cases same : lock.capsuleId = capsule.capsuleId
      · simp only [same, not_true_eq_false, if_false]
        exact .throw _
      simp only [same, not_false_eq_true, if_true]
      cases stored : s.capsules.get? lock.capsuleId with
      | none => exact .throw _
      | some first =>
        refine raiseConflict_guarantees valid locked stored (fun mine => same mine.1) ?_ _
        rintro - ⟨head', found, named'⟩
        rw [head] at found
        cases found
        exact absurd named' named

theorem abandonLock_guarantees (valid : s.Valid capsule) :
    Guarantees (Trace (witnessing "ABANDON" capsule)) s (abandonLock capsule) (fun _ t =>
      t.members = s.members ∧ t.Valid capsule ∧ t.closures.get? capsule.capsuleId = none ∧
        ∃ lock, t.locks.get? capsule.predecessorId = some lock ∧ lock.IsFor capsule ∧ lock.status = "ABANDON") := by
  have release : (∀ lock, s.locks.get? capsule.predecessorId = some lock → lock.IsFor capsule) →
      Guarantees (Trace (witnessing "ABANDON" capsule)) s (do
        raiseIf (s.closures.contains capsule.capsuleId) (PyError.mosaicError "cannot abandon a closed capsule")
        modify (·.setLock capsule "ABANDON")) (fun _ t =>
        t.members = s.members ∧ t.Valid capsule ∧ t.closures.get? capsule.capsuleId = none ∧
          ∃ lock, t.locks.get? capsule.predecessorId = some lock ∧ lock.IsFor capsule ∧
            lock.status = "ABANDON") := by
    intro mine
    refine .raiseIf_bind fun unclosed => ?_
    rw [Bool.not_eq_true, Dict.contains_eq_false] at unclosed
    refine .update (.single (.released valid mine unclosed) ⟨rfl, rfl⟩) ?_
    exact ⟨rfl, ⟨valid.1, valid.2, valid.3, valid.4, valid.5⟩, unclosed, _, Dict.get?_set_self _ _ _,
      ⟨rfl, rfl⟩, rfl⟩
  unfold abandonLock
  refine .get_bind ?_
  cases locked : s.locks.get? capsule.predecessorId with
  | none =>
    refine release fun lock locked' => ?_
    rw [locked] at locked'
    cases locked'
  | some lock =>
    by_cases other : lock.capsuleId ≠ capsule.capsuleId ∨ lock.attempt ≠ capsule.attempt
    · simp only [if_pos other]
      cases stored : s.capsules.get? lock.capsuleId with
      | none => exact .throw _
      | some first =>
        exact raiseConflict_guarantees valid locked stored
          (fun mine => other.elim (· mine.1) (· mine.2)) (by simp) _
    · simp only [if_neg other]
      refine release fun lock' locked' => ?_
      rw [locked] at locked'
      cases locked'
      push Not at other
      exact other

/-- Also where the receipt cannot be encoded, nothing has changed but the lock. -/
theorem witnessReceipt_guarantees (memberId status : String) :
    Guarantees (Trace (witnessing status capsule)) s (witnessReceipt memberId capsule status)
      (fun receipt t => receipt ∈ t.signed) := by
  unfold witnessReceipt
  refine .raiseIf_bind fun either => .read_bind validateCapsule_guarantees fun _ valid => ?_
  refine .read_bind (getMember_guarantees memberId) fun member known => ?_
  have sign : ∀ t : Instance, t.members = s.members → t.Valid capsule →
      (∃ lock, t.locks.get? capsule.predecessorId = some lock ∧ lock.IsFor capsule ∧
        (status = "ABANDON" → lock.status = "ABANDON" ∧ t.closures.get? capsule.capsuleId = none)) →
      (status = "ACCEPT" → t.AtHead capsule) →
      Guarantees (Trace (witnessing status capsule)) t (signReceipt member capsule status)
        (fun receipt t => receipt ∈ t.signed) := by
    rintro t members valid ⟨lock, held, mine, abandoning⟩ accepting
    unfold signReceipt
    cases loaded : member.keypair with
    | none => exact .throw _
    | some pair =>
      refine .ofExcept_bind fun message encoded => ?_
      obtain ⟨-, rfl⟩ := canonicalBytes_eq_ok.mp encoded
      have known : t.members.get? memberId = some member := members ▸ known
      refine .of_ok rfl (.single (.signed valid known loaded held mine accepting abandoning ?_) ⟨rfl, rfl⟩) ?_
      · tauto
      · simp [addSigned]
  by_cases accept : status = "ACCEPT"
  · subst accept
    refine .bind (acceptLock_guarantees valid) ?_
    rintro ⟨⟩ t - ⟨members, valid, head, lock, held, mine⟩
    exact sign t members valid ⟨lock, held, mine, by simp⟩ fun _ => head
  · obtain rfl : status = "ABANDON" := by tauto
    refine .bind (abandonLock_guarantees valid) ?_
    rintro ⟨⟩ t - ⟨members, valid, unclosed, lock, held, mine, released⟩
    exact sign t members valid ⟨lock, held, mine, fun _ => ⟨released, unclosed⟩⟩ (by simp)

theorem createCapsule_guarantees (client : KeyPair) (predecessor : StateSeal)
    (successorRoot ruleId ruleWitness : String) (attempt : Int) (bundleId : Option String) :
    Guarantees (Once fun event => ∃ capsule, event = .stored capsule) s
      (createCapsule client predecessor successorRoot ruleId ruleWitness attempt bundleId)
      (fun capsule t => t.capsules.get? capsule.capsuleId = some capsule) := by
  unfold createCapsule
  refine .get_bind (.raiseIf_bind fun current => .raiseIf_bind fun epoch => ?_)
  refine .ofExcept_bind fun capsule made => ?_
  obtain rfl := createdCapsule_ok made
  exact .of_ok rfl (.inr ⟨_, ⟨_, rfl⟩, .stored (not_not.mp current) rfl rfl⟩) (Dict.get?_set_self _ _ _)

/-- The seal that `create_resource` makes. -/
def firstSeal (s : Instance) (resourceId owner stateRoot capabilitySecret : String) : StateSeal where
  resourceId := resourceId
  epoch := s.epoch
  version := 0
  stateRoot := stateRoot
  capabilityHash := Mosaic.digest (.str capabilitySecret)
  owner := owner

/-- A resource is created, or the instance is what it was. -/
theorem createResource_cases {resourceId owner stateRoot secret : String}
    (sealable : s.currentSeals.get? resourceId = none → Texts.encodes secret = true →
      (firstSeal s resourceId owner stateRoot secret).statement.Encodable) :
    final (createResource resourceId owner stateRoot secret) s = s ∨
      (firstSeal s resourceId owner stateRoot secret).statement.Encodable ∧ s.currentSeals.get? resourceId = none ∧
        final (createResource resourceId owner stateRoot secret) s =
          s.installSeal (firstSeal s resourceId owner stateRoot secret) := by
  unfold createResource
  by_cases new : s.currentSeals.get? resourceId = none
  swap
  · have old : s.currentSeals.contains resourceId = true := by
      obtain ⟨current, held⟩ := Option.ne_none_iff_exists'.mp new
      exact Dict.contains_iff.mpr ⟨current, held⟩
    exact Or.inl (final_of_error (raiseIf_bind_pos old _ _ _))
  have missing : ¬ s.currentSeals.contains resourceId = true := by simp [new]
  by_cases encoded : Texts.encodes secret = true
  swap
  · have bad : ¬ (Json.str secret).Encodable := fun fine => encoded (encodable_str.mp fine)
    refine Or.inl (final_of_error (e := .unicodeEncodeError) ?_)
    rw [get_bind_apply, raiseIf_bind_neg missing, digest_of_not bad]
    rfl
  have fine := sealable new encoded
  refine Or.inr ⟨fine, new, final_of_ok (a := firstSeal s resourceId owner stateRoot secret) ?_⟩
  rw [get_bind_apply, raiseIf_bind_neg missing, digest_of_encodable (encodable_str.mpr encoded), ofExcept_ok_bind]
  exact bind_of_ok (install_of_encodable fine)

variable [Keyring]

theorem collectFrom_guarantees (status : String) (caught : PyError → Bool) (memberIds : List String) :
    Guarantees (Trace (witnessing status capsule)) s (collectFrom capsule status caught memberIds)
      (fun _ _ => True) := by
  induction memberIds generalizing s with
  | nil => exact .pure trivial
  | cons memberId memberIds ih =>
    refine .bind (witnessReceipt_guarantees memberId status).attempt fun receipt t _ _ => ?_
    cases receipt with
    | none => exact ih
    | some receipt =>
      refine .get_bind (.ofExcept_bind fun verified _ => ?_)
      exact .bind ih fun rest u _ _ => .pure trivial

theorem collectAcceptReceipts_guarantees :
    Guarantees (Trace (witnessing "ACCEPT" capsule)) s (collectAcceptReceipts capsule) (fun _ _ => True) :=
  .get_bind (collectFrom_guarantees _ _ _)

theorem collectAbandonReceipts_guarantees :
    Guarantees (Trace (witnessing "ABANDON" capsule)) s (collectAbandonReceipts capsule) (fun _ _ => True) :=
  .get_bind (collectFrom_guarantees _ _ _)

theorem registerClosure_guarantees (closure : ClosureProof) :
    Guarantees (Once (· = .registered capsule closure)) s (registerClosure capsule closure)
      (fun _ t => ∃ kept, t.closures.get? capsule.capsuleId = some kept) := by
  unfold registerClosure
  refine .get_bind (.ofExcept_bind fun verified checked => ?_)
  refine .raiseIf_bind fun accepted => .raiseIf_bind fun clean => ?_
  cases known : s.closures.get? capsule.capsuleId with
  | some kept =>
    rw [if_pos (Dict.contains_iff.mpr ⟨kept, known⟩)]
    exact .pure ⟨kept, known⟩
  | none =>
    have missing : ¬ s.closures.contains capsule.capsuleId = true := by simpa using known
    rw [if_neg missing]
    refine .of_ok rfl (.inr ⟨_, rfl, .registered ?_ ?_ known⟩) ⟨closure, Dict.get?_set_self _ _ _⟩
    · rw [verifyClosure_ok checked]
      simpa using accepted
    · simpa using clean

theorem close_guarantees (receipts : List WitnessReceipt) :
    Guarantees (Relation.Comp (Trace fun event => receipts = [] ∧ witnessing "ACCEPT" capsule event)
        (Once fun event => ∃ closure, event = .registered capsule closure)) s
      (close capsule receipts) (fun _ _ => True) := by
  unfold close
  refine .read_bind validateCapsule_guarantees fun _ valid =>
    .seq (collected_guarantees collectAcceptReceipts_guarantees receipts) ?_
  intro collected t trace same
  refine .get_bind (.ofExcept_bind fun counted _ => ?_)
  refine .raiseIf_bind fun heavy => .raiseIf_bind fun clean => .ofExcept_bind fun closure made => ?_
  have register := @registerClosure_guarantees _ _ t capsule _ closure
  refine (register.seq (S := Eq) fun _ u _ _ => .pure trivial).weaken ?_
  rintro u ⟨_, register, rfl⟩
  exact register.imp_right fun ⟨_, same, update⟩ => ⟨_, ⟨closure, same⟩, update⟩

theorem abandon_guarantees (receipts : List WitnessReceipt) :
    Guarantees (Relation.Comp (Trace fun event => receipts = [] ∧ witnessing "ABANDON" capsule event)
        (Once fun event => ∃ proof, event = .abandoned capsule proof)) s (abandon capsule receipts)
      (fun _ _ => True) := by
  unfold abandon
  refine .get_bind (.raiseIf_bind fun unclosed => ?_)
  rw [Bool.not_eq_true, Dict.contains_eq_false] at unclosed
  refine .seq (collected_guarantees collectAbandonReceipts_guarantees receipts) ?_
  intro collected t trace _
  refine .get_bind (.ofExcept_bind fun counted valid => ?_)
  obtain rfl := validReceipts_ok valid
  refine .raiseIf_bind fun heavy => .ofExcept_bind fun proof made => ?_
  refine .of_ok rfl (.inr ⟨_, ⟨proof, rfl⟩, .abandoned ?_ (not_lt.mp heavy) (createdAbandon_ok made)⟩) trivial
  refine trace.invariant (I := fun u => u.closures.get? capsule.capsuleId = none) unclosed ?_
  rintro event u v ⟨-, allowed⟩ update before
  cases update <;> first | exact before | exact allowed.elim

/-- `apply` comes past its checks, and the closure is registered or will be. -/
structure Proceeds (s : Instance) (capsule : Capsule) (closure : ClosureProof) : Prop where
  verified : verifyClosure s.toMosaicProtocol capsule closure = .ok true
  registrable : s.closures.contains capsule.capsuleId = true ∨ s.hasConflictOn capsule.predecessorId = false

/-- The current seal of the capsule's resource has an identifier, and the capsule names it. -/
structure Heads (s : Instance) (capsule : Capsule) (current : StateSeal) : Prop where
  head : s.headOf capsule = some current
  readable : current.statement.Encodable
  named : current.sealId = capsule.predecessorId

/-- The current seal of the capsule's resource looks like the one that the capsule asks for. -/
structure Succeeds (s : Instance) (capsule : Capsule) (current : StateSeal) : Prop where
  known : ∃ predecessor, s.knownSeals.get? capsule.predecessorId = some predecessor ∧
    s.currentSeals.get? predecessor.resourceId = some current ∧ current.version = predecessor.version + 1
  readable : current.statement.Encodable
  renamed : current.sealId ≠ capsule.predecessorId
  root : current.stateRoot = capsule.successorRoot
  capability : current.capabilityHash = Mosaic.digest (.str capsule.capsuleId)

/-- The instance with the closure registered. -/
def registering (s : Instance) (capsule : Capsule) (closure : ClosureProof) : Instance :=
  if s.closures.contains capsule.capsuleId then s else s.addClosure capsule closure

omit [Texts] [Keyring] in
theorem registering_seals (s : Instance) (capsule : Capsule) (closure : ClosureProof) :
    (registering s capsule closure).currentSeals = s.currentSeals ∧
      (registering s capsule closure).knownSeals = s.knownSeals := by
  unfold registering
  split <;> exact ⟨rfl, rfl⟩

omit [Keyring] in
theorem encodes_of_proofId {label capsuleId predecessorId id : String} {epoch attempt : Int}
    {receipts : List WitnessReceipt} (hashed : proofId label capsuleId predecessorId epoch attempt receipts = .ok id) :
    Texts.encodes capsuleId = true := by
  obtain ⟨ids, -, hashed⟩ := except_bind_eq_ok.mp hashed
  refine (digest_eq_ok.mp hashed).1 capsuleId ?_
  simp [proofStatement, Json.texts, fieldTexts]

/-- A capsule whose closure was verified has an identifier that can be encoded. -/
theorem encodes_of_verified (verified : verifyClosure s.toMosaicProtocol capsule closure = .ok true) :
    Texts.encodes capsule.capsuleId = true := by
  unfold verifyClosure at verified
  split at verified
  · cases verified
  dsimp only at verified
  split at verified
  · cases verified
  obtain ⟨valid, -, verified⟩ := except_bind_eq_ok.mp verified
  obtain ⟨id, hashed, -⟩ := except_bind_eq_ok.mp verified
  exact encodes_of_proofId hashed

theorem registerClosure_of_ok (verified : verifyClosure s.toMosaicProtocol capsule closure = .ok true)
    (clean : s.hasConflictOn capsule.predecessorId = false) (new : ¬ s.closures.contains capsule.capsuleId = true) :
    registerClosure capsule closure s = .ok ⟨⟩ (s.addClosure capsule closure) := by
  unfold registerClosure
  rw [get_bind_apply, verified, ofExcept_ok_bind, raiseIf_bind_neg (by simp), raiseIf_bind_neg (by simp [clean]), if_neg new]
  rfl

theorem apply_of_proceeds (proceeds : Proceeds s capsule closure) :
    apply capsule closure s = advance s capsule (registering s capsule closure) := by
  obtain ⟨verified, registrable⟩ := proceeds
  have ids := verifyClosure_ids (verifyClosure_ok verified)
  unfold apply registering
  rw [get_bind_apply, raiseIf_bind_neg (not_not.mpr ids.1), verified, ofExcept_ok_bind, raiseIf_bind_neg (by simp)]
  by_cases old : s.closures.contains capsule.capsuleId = true
  · rw [if_pos old, if_pos old]
    rfl
  · rw [if_neg old, if_neg old, bind_of_ok (registerClosure_of_ok verified (registrable.resolve_left old) old)]

theorem apply_of_not_proceeds (stops : ¬ Proceeds s capsule closure) : ∃ e, apply capsule closure s = .error e s := by
  unfold apply
  rw [get_bind_apply]
  by_cases other : closure.capsuleId ≠ capsule.capsuleId
  · exact ⟨_, raiseIf_bind_pos other _ _ _⟩
  rw [raiseIf_bind_neg other]
  cases checked : verifyClosure s.toMosaicProtocol capsule closure with
  | error e => exact ⟨e, ofExcept_error_bind _ _ _⟩
  | ok verified =>
    rw [ofExcept_ok_bind]
    cases verified with
    | false => exact ⟨_, raiseIf_bind_pos rfl _ _ _⟩
    | true =>
      have old : ¬ s.closures.contains capsule.capsuleId = true := fun old => stops ⟨checked, Or.inl old⟩
      have contested : s.hasConflictOn capsule.predecessorId = true :=
        Bool.not_eq_false _ ▸ fun clean => stops ⟨checked, Or.inr clean⟩
      rw [raiseIf_bind_neg (by simp), if_neg old]
      refine ⟨_, bind_of_error (e := .closureInvalid "predecessor has conflict evidence") ?_⟩
      unfold registerClosure
      rw [get_bind_apply, checked, ofExcept_ok_bind, raiseIf_bind_neg (by simp), raiseIf_bind_pos contested]

omit [Keyring] in
/-- The seal is replaced; only the identifier of the new one may fail. -/
theorem advance_of_heads {current : StateSeal} (heads : Heads s capsule current)
    (identified : Texts.encodes capsule.capsuleId = true) (u : Instance) :
    advance s capsule u = (do
      install (nextSeal current capsule)
      return nextSeal current capsule : Py StateSeal) u := by
  obtain ⟨head, readable, named⟩ := heads
  obtain ⟨predecessor, known, held⟩ := headOf_parts head
  unfold advance successor
  simp only [known, held, sealId_of_encodable readable, digest_of_encodable (encodable_str.mpr identified)]
  rw [ofExcept_ok_bind, if_neg (not_not.mpr named)]
  rfl

omit [Keyring] in
theorem advance_of_succeeds {current : StateSeal} (succeeds : Succeeds s capsule current)
    (identified : Texts.encodes capsule.capsuleId = true) (u : Instance) : advance s capsule u = .ok current u := by
  obtain ⟨⟨predecessor, known, held, version⟩, readable, renamed, root, capability⟩ := succeeds
  unfold advance
  simp only [known, held, sealId_of_encodable readable, digest_of_encodable (encodable_str.mpr identified)]
  rw [ofExcept_ok_bind, if_pos renamed, if_pos ⟨version, root⟩, ofExcept_ok_bind, raiseIf_bind_neg (not_not.mpr capability)]
  rfl

omit [Keyring] in
/-- In all other cases `apply` raises after the closure is registered. -/
theorem advance_of_neither (away : ∀ current, ¬ Heads s capsule current) (unlike : ∀ current, ¬ Succeeds s capsule current)
    (identified : Texts.encodes capsule.capsuleId = true) (u : Instance) : ∃ e, advance s capsule u = .error e u := by
  unfold advance
  cases known : s.knownSeals.get? capsule.predecessorId with
  | none => exact ⟨_, rfl⟩
  | some predecessor =>
    cases held : s.currentSeals.get? predecessor.resourceId with
    | none =>
      simp only [held]
      exact ⟨_, rfl⟩
    | some current =>
      simp only [held]
      by_cases readable : current.statement.Encodable
      swap
      · rw [sealId, digest_of_not readable]
        exact ⟨_, ofExcept_error_bind _ _ _⟩
      rw [sealId_of_encodable readable, ofExcept_ok_bind]
      have head : s.headOf capsule = some current := Option.bind_eq_some_iff.mpr ⟨predecessor, known, held⟩
      have renamed : current.sealId ≠ capsule.predecessorId := fun named => away current ⟨head, readable, named⟩
      rw [if_pos renamed]
      by_cases alike : current.version = predecessor.version + 1 ∧ current.stateRoot = capsule.successorRoot
      swap
      · rw [if_neg alike]
        exact ⟨_, rfl⟩
      have other : current.capabilityHash ≠ Mosaic.digest (.str capsule.capsuleId) := fun same =>
        unlike current ⟨⟨predecessor, known, held, alike.1⟩, readable, renamed, alike.2, same⟩
      rw [if_pos alike, digest_of_encodable (encodable_str.mpr identified), ofExcept_ok_bind]
      exact ⟨_, raiseIf_bind_pos other _ _ _⟩

/-- Everything that a call of `apply` can come to. -/
inductive ApplyOutcome (s : Instance) (capsule : Capsule) (closure : ClosureProof) :
    EStateM.Result PyError Instance StateSeal → Prop
  | refused (e : PyError) : ¬ Proceeds s capsule closure → ApplyOutcome s capsule closure (.error e s)
  | stopped (e : PyError) : Proceeds s capsule closure → (∀ current, ¬ Heads s capsule current) →
      (∀ current, ¬ Succeeds s capsule current) →
      ApplyOutcome s capsule closure (.error e (registering s capsule closure))
  | torn (current : StateSeal) : Proceeds s capsule closure → Heads s capsule current →
      ¬ (nextSeal current capsule).statement.Encodable → ApplyOutcome s capsule closure
        (.error .unicodeEncodeError (setCurrent (registering s capsule closure) (nextSeal current capsule)))
  | installed (current : StateSeal) : Proceeds s capsule closure → Heads s capsule current →
      (nextSeal current capsule).statement.Encodable → ApplyOutcome s capsule closure
        (.ok (nextSeal current capsule) ((registering s capsule closure).installSeal (nextSeal current capsule)))
  | known (current : StateSeal) : Proceeds s capsule closure → Succeeds s capsule current →
      ApplyOutcome s capsule closure (.ok current (registering s capsule closure))

theorem apply_outcome (s : Instance) (capsule : Capsule) (closure : ClosureProof) :
    ApplyOutcome s capsule closure (apply capsule closure s) := by
  by_cases proceeds : Proceeds s capsule closure
  swap
  · obtain ⟨e, raised⟩ := apply_of_not_proceeds proceeds
    rw [raised]
    exact .refused e proceeds
  rw [apply_of_proceeds proceeds]
  have identified := encodes_of_verified proceeds.verified
  by_cases heads : ∃ current, Heads s capsule current
  · obtain ⟨current, heads⟩ := heads
    rw [advance_of_heads heads identified]
    by_cases fine : (nextSeal current capsule).statement.Encodable
    · rw [bind_of_ok (install_of_encodable fine)]
      exact .installed current proceeds heads fine
    · rw [bind_of_error (install_of_not fine)]
      exact .torn current proceeds heads fine
  by_cases succeeds : ∃ current, Succeeds s capsule current
  · obtain ⟨current, succeeds⟩ := succeeds
    rw [advance_of_succeeds succeeds identified]
    exact .known current proceeds succeeds
  obtain ⟨e, raised⟩ := advance_of_neither (not_exists.mp heads) (not_exists.mp succeeds) identified
    (registering s capsule closure)
  rw [raised]
  exact .stopped e proceeds (not_exists.mp heads) (not_exists.mp succeeds)

end Mosaic.Strict
