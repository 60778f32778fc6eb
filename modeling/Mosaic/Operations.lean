import Mosaic.Updates

namespace Mosaic
open CanonicalJson Effects

variable [Crypto]

/-- What witnessing a capsule can change. -/
def witnessing (status : String) (capsule : Capsule) : Event → Prop
  | .claimed c => c = capsule ∧ status = "ACCEPT"
  | .released c => c = capsule ∧ status = "ABANDON"
  | .contested kind _ second => second = capsule ∧ kind = status
  | .signed c receipt => c = capsule ∧ receipt.status = status
  | _ => False

namespace Instance

variable {s : Instance} {capsule : Capsule}

theorem lookupKey_guarantees {α : Type} (dictionary : Dict String α) (key : String) :
    Guarantees Eq s (lookupKey dictionary key) (fun value _ => dictionary.get? key = some value) := by
  unfold lookupKey
  cases found : dictionary.get? key with
  | some value => exact .of_ok rfl rfl rfl
  | none => exact .of_error rfl rfl

theorem liftExcept_guarantees {α : Type} (result : Except PyError α) :
    Guarantees Eq s (liftExcept result) (fun value _ => result = .ok value) := by
  cases result with
  | ok value => exact .of_ok rfl rfl rfl
  | error e => exact .of_error rfl rfl

theorem getMember_guarantees (memberId : String) :
    Guarantees Eq s (getMember memberId) (fun member _ => s.members.get? memberId = some member) := by
  unfold getMember
  refine .get_bind ?_
  cases found : s.members.get? memberId with
  | some member => exact .of_ok rfl rfl rfl
  | none => exact .of_error rfl rfl

theorem validateCapsule_guarantees :
    Guarantees Eq s (validateCapsule capsule) (fun _ _ => s.Valid capsule) := by
  unfold validateCapsule
  refine .get_bind ?_
  cases known : s.knownSeals.get? capsule.predecessorId with
  | none => exact .of_error rfl rfl
  | some current =>
    refine .raiseIf_bind fun epochs => .raiseIf_bind fun signature => .raiseIf_bind fun attempt => ?_
    unfold raiseIf
    by_cases root : capsule.successorRoot = ""
    · exact .of_error (if_pos root) rfl
    · push Not at epochs
      exact .of_ok (if_neg root) rfl ⟨⟨current, known, epochs.2⟩, epochs.1, by simpa using signature,
        by omega, root⟩

theorem raiseConflict_guarantees {status : String} {first : Capsule} {lock : Lock} (valid : s.Valid capsule)
    (held : s.locks.get? capsule.predecessorId = some lock) (stored : s.capsules.get? lock.capsuleId = some first)
    (other : ¬ lock.IsFor capsule) (refused : status = "ACCEPT" → s.AtHead capsule → ¬ lock.Released capsule)
    (Q : PUnit → Instance → Prop) :
    Guarantees (Trace (witnessing status capsule)) s (raiseConflict first capsule) Q := by
  unfold raiseConflict
  cases made : ConflictEvidence.create first capsule with
  | error e => exact .of_error rfl .refl
  | ok evidence =>
    exact .of_error rfl (.single (.contested valid held stored other refused made) ⟨rfl, rfl⟩)

theorem acceptLock_guarantees (valid : s.Valid capsule) :
    Guarantees (Trace (witnessing "ACCEPT" capsule)) s (acceptLock capsule) (fun _ t =>
      t.members = s.members ∧ t.Valid capsule ∧ t.AtHead capsule ∧
        ∃ lock, t.locks.get? capsule.predecessorId = some lock ∧ lock.IsFor capsule) := by
  unfold acceptLock
  refine .get_bind (.read_bind (lookupKey_guarantees _ _) fun predecessor known => ?_)
  refine .read_bind (lookupKey_guarantees _ _) fun current held => ?_
  have head : s.headOf capsule = some current := by simpa only [headOf, known, Option.bind_some] using held
  cases locked : s.locks.get? capsule.predecessorId with
  | none =>
    refine .raiseIf_bind fun atHead => ?_
    have atHead : s.AtHead capsule := ⟨current, head, not_not.mp atHead⟩
    refine .update (.single (.claimed valid atHead ?_) ⟨rfl, rfl⟩) ?_
    · rintro lock locked'
      rw [locked] at locked'
      cases locked'
    · exact ⟨rfl, ⟨valid.1, valid.2, valid.3, valid.4, valid.5⟩, atHead, _, Dict.get?_set_self _ _ _, rfl, rfl⟩
  | some lock =>
    by_cases named : current.sealId = capsule.predecessorId
    · have atHead : s.AtHead capsule := ⟨current, head, named⟩
      simp only [named, ne_eq, not_true_eq_false, if_false]
      by_cases mine : lock.capsuleId = capsule.capsuleId ∧ lock.attempt = capsule.attempt
      · rw [if_pos mine]
        exact .pure ⟨rfl, valid, atHead, lock, locked, mine⟩
      rw [if_neg mine]
      by_cases taken : lock.status = "ABANDON" ∧ lock.attempt < capsule.attempt
      · rw [if_pos taken]
        refine .update (.single (.claimed valid atHead ?_) ⟨rfl, rfl⟩) ?_
        · rintro lock' locked'
          rw [locked] at locked'
          cases locked'
          exact taken
        · exact ⟨rfl, ⟨valid.1, valid.2, valid.3, valid.4, valid.5⟩, atHead, _, Dict.get?_set_self _ _ _, rfl, rfl⟩
      rw [if_neg taken]
      refine .read_bind (lookupKey_guarantees _ _) fun first stored => ?_
      exact raiseConflict_guarantees valid locked stored mine (fun _ _ => taken) _
    · simp only [named, ne_eq, not_false_eq_true, if_true]
      by_cases same : lock.capsuleId = capsule.capsuleId
      · simp only [same, not_true_eq_false, if_false]
        exact .throw _
      simp only [same, not_false_eq_true, if_true]
      cases stored : s.capsules.get? lock.capsuleId with
      | none => exact .throw _
      | some first =>
        refine raiseConflict_guarantees valid locked stored (fun mine => same mine.1) ?_ _
        rintro - ⟨head', found, named'⟩
        rw [head] at found
        cases found
        exact absurd named' named

theorem abandonLock_guarantees (valid : s.Valid capsule) :
    Guarantees (Trace (witnessing "ABANDON" capsule)) s (abandonLock capsule) (fun _ t =>
      t.members = s.members ∧ t.Valid capsule ∧ t.closures.get? capsule.capsuleId = none ∧
        ∃ lock, t.locks.get? capsule.predecessorId = some lock ∧ lock.IsFor capsule ∧ lock.status = "ABANDON") := by
  have release : (∀ lock, s.locks.get? capsule.predecessorId = some lock → lock.IsFor capsule) →
      Guarantees (Trace (witnessing "ABANDON" capsule)) s (do
        raiseIf (s.closures.contains capsule.capsuleId) (PyError.mosaicError "cannot abandon a closed capsule")
        modify (·.setLock capsule "ABANDON")) (fun _ t =>
        t.members = s.members ∧ t.Valid capsule ∧ t.closures.get? capsule.capsuleId = none ∧
          ∃ lock, t.locks.get? capsule.predecessorId = some lock ∧ lock.IsFor capsule ∧
            lock.status = "ABANDON") := by
    intro mine
    refine .raiseIf_bind fun unclosed => ?_
    rw [Bool.not_eq_true, Dict.contains_eq_false] at unclosed
    refine .update (.single (.released valid mine unclosed) ⟨rfl, rfl⟩) ?_
    exact ⟨rfl, ⟨valid.1, valid.2, valid.3, valid.4, valid.5⟩, unclosed, _, Dict.get?_set_self _ _ _,
      ⟨rfl, rfl⟩, rfl⟩
  unfold abandonLock
  refine .get_bind ?_
  cases locked : s.locks.get? capsule.predecessorId with
  | none =>
    refine release fun lock locked' => ?_
    rw [locked] at locked'
    cases locked'
  | some lock =>
    by_cases other : lock.capsuleId ≠ capsule.capsuleId ∨ lock.attempt ≠ capsule.attempt
    · simp only [if_pos other]
      cases stored : s.capsules.get? lock.capsuleId with
      | none => exact .throw _
      | some first =>
        exact raiseConflict_guarantees valid locked stored
          (fun mine => other.elim (· mine.1) (· mine.2)) (by simp) _
    · simp only [if_neg other]
      refine release fun lock' locked' => ?_
      rw [locked] at locked'
      cases locked'
      push Not at other
      exact other

/-- Whatever `witness_receipt` is called with, it claims, releases or contests
the lock of the predecessor and then signs; nothing else changes. -/
theorem witnessReceipt_guarantees (memberId status : String) :
    Guarantees (Trace (witnessing status capsule)) s (witnessReceipt memberId capsule status)
      (fun receipt t => receipt ∈ t.signed) := by
  unfold witnessReceipt
  refine .raiseIf_bind fun either => .read_bind validateCapsule_guarantees fun _ valid => ?_
  refine .read_bind (getMember_guarantees memberId) fun member known => ?_
  have sign : ∀ t : Instance, t.members = s.members → t.Valid capsule →
      (∃ lock, t.locks.get? capsule.predecessorId = some lock ∧ lock.IsFor capsule ∧
        (status = "ABANDON" → lock.status = "ABANDON" ∧ t.closures.get? capsule.capsuleId = none)) →
      (status = "ACCEPT" → t.AtHead capsule) →
      Guarantees (Trace (witnessing status capsule)) t (signReceipt member capsule status)
        (fun receipt t => receipt ∈ t.signed) := by
    rintro t members valid ⟨lock, held, mine, abandoning⟩ accepting
    unfold signReceipt
    cases loaded : member.keypair with
    | none => exact .throw _
    | some pair =>
      have known : t.members.get? memberId = some member := members ▸ known
      refine .of_ok rfl (.single (.signed valid known loaded held mine accepting abandoning ?_) ⟨rfl, rfl⟩) ?_
      · tauto
      · simp [addSigned]
  by_cases accept : status = "ACCEPT"
  · subst accept
    refine .bind (acceptLock_guarantees valid) ?_
    rintro ⟨⟩ t - ⟨members, valid, head, lock, held, mine⟩
    exact sign t members valid ⟨lock, held, mine, by simp⟩ fun _ => head
  · obtain rfl : status = "ABANDON" := by tauto
    refine .bind (abandonLock_guarantees valid) ?_
    rintro ⟨⟩ t - ⟨members, valid, unclosed, lock, held, mine, released⟩
    exact sign t members valid ⟨lock, held, mine, fun _ => ⟨released, unclosed⟩⟩ (by simp)

theorem collectFrom_guarantees (status : String) (caught : PyError → Bool) (memberIds : List String) :
    Guarantees (Trace (witnessing status capsule)) s (collectFrom capsule status caught memberIds)
      (fun _ _ => True) := by
  induction memberIds generalizing s with
  | nil => exact .pure trivial
  | cons memberId memberIds ih =>
    refine .bind (witnessReceipt_guarantees memberId status).attempt fun receipt t _ _ => .get_bind ?_
    exact .bind ih fun rest u _ _ => .pure trivial

theorem collectAcceptReceipts_guarantees :
    Guarantees (Trace (witnessing "ACCEPT" capsule)) s (collectAcceptReceipts capsule) (fun _ _ => True) :=
  .get_bind (collectFrom_guarantees _ _ _)

theorem collectAbandonReceipts_guarantees :
    Guarantees (Trace (witnessing "ABANDON" capsule)) s (collectAbandonReceipts capsule) (fun _ _ => True) :=
  .get_bind (collectFrom_guarantees _ _ _)

theorem createResource_guarantees (resourceId owner stateRoot capabilitySecret : String) :
    Guarantees (Once fun event => ∃ fresh, event = .created fresh) s
      (createResource resourceId owner stateRoot capabilitySecret) (fun _ _ => True) := by
  unfold createResource
  refine .get_bind (.raiseIf_bind fun new => ?_)
  rw [Bool.not_eq_true, Dict.contains_eq_false] at new
  exact .of_ok rfl (.inr ⟨_, ⟨_, rfl⟩, .created new rfl rfl rfl⟩) trivial

theorem createCapsule_guarantees (client : KeyPair) (predecessor : StateSeal)
    (successorRoot ruleId ruleWitness : String) (attempt : Int) (bundleId : Option String) :
    Guarantees (Once fun event => ∃ capsule, event = .stored capsule) s
      (createCapsule client predecessor successorRoot ruleId ruleWitness attempt bundleId)
      (fun capsule t => t.capsules.get? capsule.capsuleId = some capsule) := by
  unfold createCapsule
  refine .get_bind (.raiseIf_bind fun current => .raiseIf_bind fun epoch => ?_)
  exact .of_ok rfl (.inr ⟨_, ⟨_, rfl⟩, .stored (not_not.mp current) rfl rfl⟩) (Dict.get?_set_self _ _ _)

theorem registerClosure_guarantees (closure : ClosureProof) :
    Guarantees (Once (· = .registered capsule closure)) s (registerClosure capsule closure)
      (fun _ t => ∃ kept, t.closures.get? capsule.capsuleId = some kept) := by
  unfold registerClosure
  refine .get_bind (.raiseIf_bind fun verified => .raiseIf_bind fun clean => ?_)
  cases known : s.closures.get? capsule.capsuleId with
  | some kept =>
    have contained : s.closures.contains capsule.capsuleId = true := Dict.contains_iff.mpr ⟨kept, known⟩
    rw [if_pos contained]
    exact .pure ⟨kept, known⟩
  | none =>
    have missing : ¬ s.closures.contains capsule.capsuleId = true := by simpa using known
    rw [if_neg missing]
    refine .of_ok rfl (.inr ⟨_, rfl, .registered ?_ ?_ known⟩) ⟨closure, Dict.get?_set_self _ _ _⟩
    · simpa using verified
    · simpa using clean

/-- Receipts are collected only when none were handed in. -/
theorem collected_guarantees {status : String} {collect : Py (List WitnessReceipt)}
    (collects : Guarantees (Trace (witnessing status capsule)) s collect (fun _ _ => True))
    (receipts : List WitnessReceipt) :
    Guarantees (Trace fun event => receipts = [] ∧ witnessing status capsule event) s
      (if receipts.isEmpty then collect else pure receipts)
      (fun collected t => receipts ≠ [] → collected = receipts ∧ t = s) := by
  cases receipts with
  | nil =>
    exact (collects.weaken fun t trace => trace.mono fun _ allowed => ⟨rfl, allowed⟩).mono fun _ _ _ _ =>
      absurd rfl
  | cons => exact .pure fun _ => ⟨rfl, rfl⟩

/-- What `close` has found when it registers a closure. -/
structure Closable (s : Instance) (capsule : Capsule) (receipts : List WitnessReceipt) : Prop where
  valid : s.Valid capsule
  clean : receipts ≠ [] → s.hasConflictOn capsule.predecessorId = false
  heavy : receipts ≠ [] → s.threshold ≤ s.weightOfReceipts (s.validReceipts capsule "ACCEPT" receipts)

theorem close_guarantees (receipts : List WitnessReceipt) :
    Guarantees (Relation.Comp (Trace fun event => receipts = [] ∧ witnessing "ACCEPT" capsule event)
        (Once fun event => s.Closable capsule receipts ∧ ∃ closure, event = .registered capsule closure)) s
      (close capsule receipts) (fun _ _ => True) := by
  unfold close
  refine .read_bind validateCapsule_guarantees fun _ valid =>
    .seq (collected_guarantees collectAcceptReceipts_guarantees receipts) ?_
  intro collected t trace same
  refine .get_bind (.raiseIf_bind fun heavy => .raiseIf_bind fun clean => ?_)
  refine .read_bind (liftExcept_guarantees _) fun closure made => ?_
  have closable : s.Closable capsule receipts := by
    refine ⟨valid, fun nonempty => ?_, fun nonempty => ?_⟩ <;> obtain ⟨rfl, rfl⟩ := same nonempty
    · simpa using clean
    · exact not_lt.mp heavy
  have register := @registerClosure_guarantees _ t capsule closure
  refine (register.seq (S := Eq) fun _ u _ _ => .pure trivial).weaken ?_
  rintro u ⟨_, register, rfl⟩
  exact register.imp_right fun ⟨_, same, update⟩ => ⟨_, ⟨closable, closure, same⟩, update⟩

theorem abandon_guarantees (receipts : List WitnessReceipt) :
    Guarantees (Relation.Comp (Trace fun event => receipts = [] ∧ witnessing "ABANDON" capsule event)
        (Once fun event => ∃ proof, event = .abandoned capsule proof)) s (abandon capsule receipts)
      (fun _ _ => True) := by
  unfold abandon
  refine .get_bind (.raiseIf_bind fun unclosed => ?_)
  rw [Bool.not_eq_true, Dict.contains_eq_false] at unclosed
  refine .seq (collected_guarantees collectAbandonReceipts_guarantees receipts) ?_
  intro collected t trace _
  refine .get_bind (.raiseIf_bind fun heavy => .read_bind (liftExcept_guarantees _) fun proof made => ?_)
  refine .of_ok rfl (.inr ⟨_, ⟨proof, rfl⟩, .abandoned ?_ (not_lt.mp heavy) made⟩) trivial
  refine trace.invariant (I := fun u => u.closures.get? capsule.capsuleId = none) unclosed ?_
  rintro event u v ⟨-, allowed⟩ update before
  cases update <;> first | exact before | exact allowed.elim

/-- The closure is registered if it was not, and then the seal may be replaced. -/
theorem apply_guarantees (closure : ClosureProof) :
    Guarantees (Relation.Comp (Once (· = .registered capsule closure)) (Once (· = .installed capsule closure))) s
      (apply capsule closure) (fun _ _ => True) := by
  unfold apply
  refine .get_bind (.raiseIf_bind fun named => .raiseIf_bind fun verified => .seq (Q := fun _ t =>
    t.verifyClosure capsule closure = true ∧ ∃ kept, t.closures.get? capsule.capsuleId = some kept) ?_ ?_)
  · have verified : s.verifyClosure capsule closure = true := by simpa using verified
    by_cases contained : s.closures.contains capsule.capsuleId = true
    · rw [if_pos contained]
      exact .pure ⟨verified, Dict.contains_iff.mp contained⟩
    · rw [if_neg contained]
      refine (registerClosure_guarantees closure).mono fun _ t moved kept => ⟨?_, kept⟩
      rcases moved with rfl | ⟨_, rfl, update⟩
      · exact verified
      · cases update
        exact verified
  rintro ⟨⟩ t moved ⟨verified, kept, registered⟩
  have seals : t.knownSeals = s.knownSeals ∧ t.currentSeals = s.currentSeals := by
    rcases moved with rfl | ⟨_, rfl, update⟩
    · exact ⟨rfl, rfl⟩
    · cases update
      exact ⟨rfl, rfl⟩
  cases known : s.knownSeals.get? capsule.predecessorId with
  | none => exact .throw _
  | some predecessor =>
    dsimp only
    cases held : s.currentSeals.get? predecessor.resourceId with
    | none => exact .throw _
    | some current =>
      have head : t.headOf capsule = some current := by
        rw [headOf, seals.1, seals.2, known, Option.bind_some, held]
      by_cases other : current.sealId ≠ capsule.predecessorId
      · simp only [if_pos other]
        split
        · exact .pure trivial
        · exact .throw _
      · simp only [if_neg other]
        exact .of_ok rfl (.inr ⟨_, rfl, .installed verified registered head (not_not.mp other)⟩) trivial

theorem checkEntries_guarantees (entries : List (Capsule × ClosureProof)) (t : Instance) :
    Guarantees Eq t (checkEntries s entries) (fun _ _ => ∀ entry ∈ entries, s.Ready entry.1 entry.2) := by
  induction entries with
  | nil => exact .pure (by simp)
  | cons entry entries ih =>
    obtain ⟨capsule, closure⟩ := entry
    refine .raiseIf_bind fun registered => .raiseIf_bind fun named => .raiseIf_bind fun verified =>
      .raiseIf_bind fun current => ih.mono fun _ _ _ ready => ?_
    refine List.forall_mem_cons.mpr ⟨⟨not_not.mp registered, by simpa using verified, ?_⟩, ready⟩
    rwa [Bool.not_eq_true, Option.isNone_eq_false_iff, Option.isSome_iff_exists] at current

theorem applyBundle_guarantees (bundle : BundleClosure) (entries : List (Capsule × ClosureProof)) :
    Guarantees (Once (· = .bundled entries)) s (applyBundle bundle entries) (fun _ _ => True) := by
  unfold applyBundle
  refine .get_bind (.raiseIf_bind fun proper => .raiseIf_bind fun covers => ?_)
  refine .read_bind (checkEntries_guarantees entries s) fun _ ready => ?_
  exact .of_ok rfl (.inr ⟨_, rfl, .bundled ready⟩) trivial

end Instance

end Mosaic
