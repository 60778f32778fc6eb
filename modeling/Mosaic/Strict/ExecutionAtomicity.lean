import Mosaic.Strict.Execution
import Mosaic.Strict.ApplyAtomicity
import Mosaic.Strict.Plain

namespace Mosaic.Strict
open CanonicalJson Effects Instance

section Calls
variable [Crypto] [Texts] [Keyring] {ledger next : Ledger} {capsule : Capsule} {closure : ClosureProof}
  {tx : ExecutionTransaction} {receipt : ExecutionReceipt} {binding : ExecutionBinding} {applied : StateSeal}
  {error : PyError}

/-- What `execute_for_capsule` has checked when it returns. -/
structure Follows (e next : DeterministicExecutor) (tx : ExecutionTransaction) (capsule : Capsule) (closure : ClosureProof)
    (s : MosaicProtocol) (receipt : ExecutionReceipt) : Prop where
  verified : verifyClosure s capsule closure = .ok true
  witness : capsule.ruleWitness = tx.txId
  known : ∃ predecessor, s.knownSeals.get? capsule.predecessorId = some predecessor ∧
    computeStateRoot e.state = .ok predecessor.stateRoot ∧ receipt.preStateRoot = predecessor.stateRoot ∧
    capsule.successorRoot ≠ predecessor.stateRoot
  success : receipt.success = true
  post : receipt.postStateRoot = capsule.successorRoot
  executed : execute tx e = .ok receipt next

theorem executeForCapsule_ok {e e' : DeterministicExecutor} {s : MosaicProtocol}
    (ran : executeForCapsule tx capsule closure s e = .ok (receipt, binding) e') :
    Follows e e' tx capsule closure s receipt := by
  unfold executeForCapsule at ran
  rw [get_bind_apply] at ran
  obtain ⟨-, ran⟩ := raiseIf_bind_eq_ok ran
  cases checked : verifyClosure s capsule closure with
  | error error =>
    rw [checked, ofExcept_error_bind] at ran
    cases ran
  | ok verified =>
    rw [checked, ofExcept_ok_bind] at ran
    obtain ⟨accepted, ran⟩ := raiseIf_bind_eq_ok ran
    cases known : s.knownSeals.get? capsule.predecessorId with
    | none =>
      rw [known] at ran
      cases ran
    | some predecessor =>
      rw [known] at ran
      dsimp only at ran
      cases rooted : computeStateRoot e.state with
      | error error =>
        rw [rooted, ofExcept_error_bind] at ran
        cases ran
      | ok root =>
        rw [rooted, ofExcept_ok_bind] at ran
        obtain ⟨same, ran⟩ := raiseIf_bind_eq_ok ran
        obtain ⟨witness, ran⟩ := raiseIf_bind_eq_ok ran
        obtain ⟨advances, ran⟩ := raiseIf_bind_eq_ok ran
        obtain ⟨executed, mid, ran, kept⟩ := bind_eq_ok.mp ran
        rw [not_not] at same witness
        by_cases wrong : executed.success = false ∨ executed.preStateRoot ≠ predecessor.stateRoot ∨
            executed.postStateRoot ≠ capsule.successorRoot
        · rw [if_pos wrong] at kept
          cases kept
        rw [if_neg wrong] at kept
        push Not at wrong
        cases bound : createdBinding capsule.capsuleId capsule.predecessorId executed with
        | error error =>
          rw [bound, ofExcept_error_bind] at kept
          cases kept
        | ok made =>
          rw [bound, ofExcept_ok_bind] at kept
          cases kept
          refine ⟨?_, witness, ⟨predecessor, known, by rw [rooted, same], wrong.2.1, advances⟩, by simpa using wrong.1,
            wrong.2.2, ran⟩
          rw [checked, (Bool.not_eq_false verified).mp accepted]

/-- A seal that `apply` returns has the root that the capsule asks for. -/
theorem apply_root {s t : Instance} (returned : apply capsule closure s = .ok applied t) :
    applied.stateRoot = capsule.successorRoot := by
  have outcome := apply_outcome s capsule closure
  rw [returned] at outcome
  cases outcome with
  | installed current proceeds heads fine => rfl
  | known current proceeds succeeds => exact succeeds.root

/-- The last check of the block never fails. -/
theorem applied_root {executor e : DeterministicExecutor} {s t : Instance}
    (ran : executeForCapsule tx capsule closure s.toMosaicProtocol executor = .ok (receipt, binding) e)
    (returned : apply capsule closure s = .ok applied t) : applied.stateRoot = receipt.postStateRoot :=
  (apply_root returned).trans (executeForCapsule_ok ran).post.symm

/-- An exception comes from the executor, which `apply` does not follow, or from `apply`. -/
theorem applyExecution_error (raised : applyExecution capsule closure tx ledger = .error error next) :
    (next.executor.state = ledger.executor.state ∧ next.executor.nonces = ledger.executor.nonces ∧
        next.executor.receipts = ledger.executor.receipts) ∧
      ((∀ result e, executeForCapsule tx capsule closure ledger.protocol.toMosaicProtocol ledger.executor ≠
            .ok result e) ∧ next.protocol = ledger.protocol ∨
        (∃ result e, executeForCapsule tx capsule closure ledger.protocol.toMosaicProtocol ledger.executor =
            .ok result e) ∧ apply capsule closure ledger.protocol = .error error next.protocol) := by
  unfold applyExecution executeAndApply Ledger.onExecutor Ledger.onProtocol at raised
  rw [get_bind_apply] at raised
  cases ran : executeForCapsule tx capsule closure ledger.protocol.toMosaicProtocol ledger.executor with
  | error error' e =>
    rw [bind_of_error (onPart_of_error ran)] at raised
    cases raised
    exact ⟨⟨rfl, rfl, rfl⟩, Or.inl ⟨fun _ _ returned => (nomatch returned), rfl⟩⟩
  | ok result e =>
    obtain ⟨receipt, binding⟩ := result
    rw [bind_of_ok (onPart_of_ok ran)] at raised
    dsimp only at raised
    cases applied : apply capsule closure ledger.protocol with
    | error error' t =>
      rw [bind_of_error (onPart_of_error (s := Ledger.mk ledger.protocol e) applied)] at raised
      cases raised
      exact ⟨⟨rfl, rfl, rfl⟩, Or.inr ⟨⟨_, _, rfl⟩, rfl⟩⟩
    | ok installed t =>
      have agrees : ¬ installed.stateRoot ≠ receipt.postStateRoot := not_not.mpr (applied_root ran applied)
      rw [bind_of_ok (onPart_of_ok (s := Ledger.mk ledger.protocol e) applied), raiseIf_bind_neg agrees] at raised
      cases raised

theorem applyExecution_ok (returned : applyExecution capsule closure tx ledger = .ok (applied, receipt, binding) next) :
    executeForCapsule tx capsule closure ledger.protocol.toMosaicProtocol ledger.executor =
        .ok (receipt, binding) next.executor ∧
      apply capsule closure ledger.protocol = .ok applied next.protocol := by
  unfold applyExecution executeAndApply Ledger.onExecutor Ledger.onProtocol at returned
  rw [get_bind_apply] at returned
  cases ran : executeForCapsule tx capsule closure ledger.protocol.toMosaicProtocol ledger.executor with
  | error error' e =>
    rw [bind_of_error (onPart_of_error ran)] at returned
    cases returned
  | ok result e =>
    obtain ⟨receipt', binding'⟩ := result
    rw [bind_of_ok (onPart_of_ok ran)] at returned
    dsimp only at returned
    cases applied : apply capsule closure ledger.protocol with
    | error error' t =>
      rw [bind_of_error (onPart_of_error (s := Ledger.mk ledger.protocol e) applied)] at returned
      cases returned
    | ok installed t =>
      have agrees : ¬ installed.stateRoot ≠ receipt'.postStateRoot := not_not.mpr (applied_root ran applied)
      rw [bind_of_ok (onPart_of_ok (s := Ledger.mk ledger.protocol e) applied), raiseIf_bind_neg agrees] at returned
      cases returned
      exact ⟨rfl, rfl⟩

theorem applyExecution_of_error {t : Instance} {result : ExecutionReceipt × ExecutionBinding}
    {e : DeterministicExecutor}
    (ran : executeForCapsule tx capsule closure ledger.protocol.toMosaicProtocol ledger.executor = .ok result e)
    (raised : apply capsule closure ledger.protocol = .error error t) :
    applyExecution capsule closure tx ledger = .error error ⟨t, ledger.executor.restoring e⟩ := by
  obtain ⟨receipt, binding⟩ := result
  unfold applyExecution executeAndApply Ledger.onExecutor Ledger.onProtocol
  rw [get_bind_apply, bind_of_ok (onPart_of_ok ran)]
  dsimp only
  rw [bind_of_error (onPart_of_error (s := Ledger.mk ledger.protocol e) raised)]

/-- The executor and the seals are what they were. -/
structure Unmoved (ledger next : Ledger) : Prop where
  state : next.executor.state = ledger.executor.state
  nonces : next.executor.nonces = ledger.executor.nonces
  receipts : next.executor.receipts = ledger.executor.receipts
  currentSeals : next.protocol.currentSeals = ledger.protocol.currentSeals
  knownSeals : next.protocol.knownSeals = ledger.protocol.knownSeals

/-- The transaction is executed for the capsule, and `apply` replaces the seal by one that
has no identifier. -/
def Tears (ledger : Ledger) (capsule : Capsule) (closure : ClosureProof) (tx : ExecutionTransaction) : Prop :=
  (∃ result e, executeForCapsule tx capsule closure ledger.protocol.toMosaicProtocol ledger.executor = .ok result e) ∧
    Proceeds ledger.protocol capsule closure ∧
    ∃ current, Heads ledger.protocol capsule current ∧ ¬ (nextSeal current capsule).statement.Encodable

theorem applyExecution_unmoved_iff (filed : Filed ledger.protocol) (capsule : Capsule) (closure : ClosureProof)
    (tx : ExecutionTransaction) :
    (∀ error next, applyExecution capsule closure tx ledger = .error error next → Unmoved ledger next) ↔
      ¬ Tears ledger capsule closure tx := by
  constructor
  · rintro atomic ⟨⟨result, e, ran⟩, proceeds, current, heads, bad⟩
    have raised : apply capsule closure ledger.protocol = .error .unicodeEncodeError
        (setCurrent (registering ledger.protocol capsule closure) (nextSeal current capsule)) := by
      rw [apply_of_proceeds proceeds, advance_of_heads heads (encodes_of_verified proceeds.verified)]
      exact bind_of_error (install_of_not bad)
    have same := (atomic _ _ (applyExecution_of_error ran raised)).currentSeals
    exact replaced_differs filed heads (torn_currentSeals.symm.trans same)
  · intro whole error next raised
    obtain ⟨⟨state, nonces, receipts⟩, ⟨-, same⟩ | ⟨ran, applied⟩⟩ := applyExecution_error raised
    · exact ⟨state, nonces, receipts, by rw [same], by rw [same]⟩
    have outcome := apply_outcome ledger.protocol capsule closure
    obtain ⟨currents, knowns⟩ := registering_seals ledger.protocol capsule closure
    generalize protocol : next.protocol = t at applied
    rw [applied] at outcome
    cases outcome with
    | refused e stops => exact ⟨state, nonces, receipts, by rw [protocol], by rw [protocol]⟩
    | stopped e proceeds away unlike =>
      exact ⟨state, nonces, receipts, by rw [protocol, currents], by rw [protocol, knowns]⟩
    | torn current proceeds heads bad => exact absurd ⟨ran, proceeds, current, heads, bad⟩ whole

/-- `apply_execution` takes both the executor and the seals forward, to one root, or neither,
unless the seal that it puts in place has no identifier; its last check never raises. -/
theorem apply_execution_atomic_iff {members : Dict String Member} {epoch : Int} {s : Instance}
    (run : Run (fun _ _ => True) (.fresh members epoch) s) (executor : DeterministicExecutor) (capsule : Capsule)
    (closure : ClosureProof) (tx : ExecutionTransaction) :
    ((∀ error next, applyExecution capsule closure tx ⟨s, executor⟩ = .error error next → Unmoved ⟨s, executor⟩ next) ↔
        ¬ Tears ⟨s, executor⟩ capsule closure tx) ∧
      (∀ applied receipt binding next,
        applyExecution capsule closure tx ⟨s, executor⟩ = .ok (applied, receipt, binding) next →
          applied.stateRoot = receipt.postStateRoot ∧ receipt.postStateRoot = capsule.successorRoot) ∧
      ∀ receipt binding e applied t,
        executeForCapsule tx capsule closure s.toMosaicProtocol executor = .ok (receipt, binding) e →
        apply capsule closure s = .ok applied t → applied.stateRoot = receipt.postStateRoot := by
  refine ⟨applyExecution_unmoved_iff run.filed capsule closure tx, fun applied receipt binding next returned => ?_,
    fun receipt binding e applied t ran returned => applied_root ran returned⟩
  obtain ⟨ran, returned⟩ := applyExecution_ok returned
  exact ⟨applied_root ran returned, (executeForCapsule_ok ran).post⟩

end Calls

section Torn
variable [Crypto] (pair : KeyPair)

/-- What the primitives make is another text. -/
structure Spared [Crypto] : Prop where
  hash : ∀ bytes, surrogate ≠ Crypto.sha256 bytes
  hexed : ∀ bytes, surrogate ≠ hex bytes
  identity : ∀ pair : KeyPair, surrogate ≠ pair.identity

theorem Spared.digest (spared : Spared) (value : Json) : surrogate ≠ Mosaic.digest value := spared.hash _

omit [Crypto] in
theorem ideal_spared : @Spared Crypto.ideal := by
  have bytewise : ∀ bytes : Bytes, '\uFFFD' ∉ bytes.map fun b => Char.ofNat b.toNat := by
    intro bytes member
    obtain ⟨b, -, same⟩ := List.mem_map.mp member
    have number := congrArg Char.toNat same
    have bound := b.toNat_lt
    rw [Char.ofNat, dif_pos (Or.inl (by omega))] at number
    have large : b.toNat = 65533 := number
    omega
  have digits : ∀ n < 16, Nat.digitChar n ≠ '\uFFFD' := by decide
  have inside : ∀ {chars : List Char}, surrogate = String.ofList chars → '\uFFFD' ∈ chars := by
    intro chars same
    rw [← String.ofList_injective (same : String.ofList ['\uFFFD'] = String.ofList chars)]
    exact List.mem_singleton_self _
  refine @Spared.mk Crypto.ideal (fun bytes same => bytewise bytes (inside same)) (fun bytes same => ?_)
    (fun pair same => ?_)
  · obtain ⟨b, -, member⟩ := List.mem_flatMap.mp (inside same)
    have bound := b.toNat_lt
    rcases List.mem_pair.mp member with high | low
    · exact digits _ (by omega) high.symm
    · exact digits _ (by omega) low.symm
  · refine bytewise (@KeyPair.publicKey Crypto.ideal pair) ?_
    have member := List.mem_of_mem_take (inside same)
    rwa [show (@Crypto.sha256 Crypto.ideal (@KeyPair.publicKey Crypto.ideal pair)).toList = _ from String.toList_ofList] at member

theorem ledgerSeal_spared (spared : Spared) : surrogate ∉ (ledgerSeal pair).statement.texts := by
  have root := spared.digest (.obj [("protocol", .str "MOSAIC/STATE-ROOT/v1"), ("state", emptyExecutor.state.toSorted)])
  have secret := spared.digest (.str "capability")
  have owner := spared.identity pair
  simp [StateSeal.statement, Json.texts, fieldTexts, ledgerSeal, DeterministicExecutor.stateRoot, Mosaic.computeStateRoot, root, secret, owner]
  simp [surrogate]

theorem roundCapsule_spared (spared : Spared) {root txId : String} (rooted : surrogate ≠ root) (named : surrogate ≠ txId) :
    surrogate ∉ (roundCapsule pair (ledgerSeal pair) root txId).unsignedStatement.texts := by
  have predecessor := spared.digest (ledgerSeal pair).statement
  have client := spared.identity pair
  have key := spared.hexed pair.publicKey
  simp [Capsule.unsignedStatement, Json.texts, fieldTexts, roundCapsule, Capsule.create, optionJson, StateSeal.sealId,
    rooted, named, predecessor, client, key]
  simp [surrogate]


/-- The member's receipt for the capsule, and what hashes it. -/
theorem soloReceipt_spared (spared : Spared) {capsule : Capsule} (identified : surrogate ≠ capsule.capsuleId)
    (predecessor : surrogate ≠ capsule.predecessorId) :
    surrogate ∉ (soloReceipt pair capsule "ACCEPT").statement.texts ∧
      surrogate ∉ (idStatement (soloReceipt pair capsule "ACCEPT")).texts := by
  have signature := spared.hexed (soloReceipt pair capsule "ACCEPT").signature
  simp [idStatement, WitnessReceipt.statement, WitnessReceipt.statementFields, Json.texts, fieldTexts, signature]
  simp [soloReceipt, Instance.signedReceipt, Instance.receiptOf, soloMember, identified, predecessor]
  simp [surrogate]

theorem proofStatement_spared (spared : Spared) {capsule : Capsule} (identified : surrogate ≠ capsule.capsuleId)
    (predecessor : surrogate ≠ capsule.predecessorId) (receipts : List WitnessReceipt) :
    surrogate ∉ (proofStatement closureLabel capsule.capsuleId capsule.predecessorId capsule.epoch capsule.attempt
      (receipts.map WitnessReceipt.receiptId)).texts := by
  have ids : ∀ receipt : WitnessReceipt, surrogate ≠ receipt.receiptId := fun receipt => spared.digest _
  simp [proofStatement, Json.texts, fieldTexts, identified, predecessor, mem_itemTexts_map_str, (ids _).symm, -List.map_map]
  simp [surrogate, closureLabel]

/-- The capsule in another client's name. -/
def renamed (capsule : Capsule) : Capsule := { capsule with clientId := surrogate }


omit pair in
theorem stage_of_verified [Texts] {e : DeterministicExecutor} {tx : ExecutionTransaction}
    (verified : verifyTransaction tx = .ok true) (few : tx.instructions.length ≤ e.maxInstructions)
    (nonce : tx.nonce = e.expectedNonce tx.caller) :
    stage e tx = runInstructions tx.gasLimit tx.instructions e.state 0 [] := by
  unfold stage
  rw [verified]
  dsimp only [bind, Except.bind, pure, Except.pure]
  rw [if_neg (by simp), if_neg (not_lt.mpr few), if_neg (not_not.mpr nonce)]

theorem successReceipt_of_encodable [Texts] {e : DeterministicExecutor} {tx : ExecutionTransaction} {staged : State}
    {gasUsed : Nat} {events : List Json} (post : computeStateRoot staged = .ok (Mosaic.computeStateRoot staged))
    (eventRoot : digest (.list events) = .ok (Mosaic.digest (.list events)))
    (diff : diffDigest e.state staged = .ok (DeterministicExecutor.diffDigest e.state staged)) :
    successReceipt e e.stateRoot tx staged gasUsed events = .ok (e.successReceipt tx staged gasUsed events) :=
  except_bind_eq_ok.mpr ⟨_, post, except_bind_eq_ok.mpr ⟨_, eventRoot, except_bind_eq_ok.mpr ⟨_, diff, rfl⟩⟩⟩

section Scenario
variable {pair} [Texts] (others : ∀ text, text ≠ surrogate → Texts.encodes text = true) (spared : Spared)
  {root txId : String}
include others spared

theorem createLedger (s : Instance) (epoch : s.epoch = 0) (new : s.currentSeals.get? "p" = none) :
    createResource "p" pair.identity emptyExecutor.stateRoot "capability" s =
      .ok (ledgerSeal pair) (s.installSeal (ledgerSeal pair)) := by
  have secret : digest (.str "capability") = .ok (Mosaic.digest (.str "capability")) :=
    digest_of_encodable (encodable_of_absent others (by simp [Json.texts, surrogate]))
  have missing : ¬ s.currentSeals.contains "p" = true := by simp [new]
  unfold createResource
  rw [get_bind_apply, raiseIf_bind_neg missing, secret, ofExcept_ok_bind, epoch]
  exact bind_of_ok (install_of_encodable (encodable_of_absent others (ledgerSeal_spared pair spared)))

theorem createRound (rooted : surrogate ≠ root) (named : surrogate ≠ txId) {s : Instance} (epoch : s.epoch = 0)
    (held : s.currentSeals.get? "p" = some (ledgerSeal pair)) :
    createCapsule pair (ledgerSeal pair) root "identity-transition" txId 0 none s =
      .ok (roundCapsule pair (ledgerSeal pair) root txId)
        (s.storeCapsule (roundCapsule pair (ledgerSeal pair) root txId)) := by
  have made : createdCapsule pair (ledgerSeal pair) root "identity-transition" txId 0 none =
      .ok (roundCapsule pair (ledgerSeal pair) root txId) :=
    createdCapsule_of_encodable (encodable_of_absent others (ledgerSeal_spared pair spared))
      (encodable_of_absent others (roundCapsule_spared pair spared rooted named))
  have current : ¬ s.currentSeals.get? (ledgerSeal pair).resourceId ≠ some (ledgerSeal pair) := not_not.mpr held
  have sameEpoch : ¬ (ledgerSeal pair).epoch ≠ s.epoch := not_not.mpr epoch.symm
  unfold createCapsule
  rw [get_bind_apply, raiseIf_bind_neg current, raiseIf_bind_neg sameEpoch, made, ofExcept_ok_bind]
  rfl

variable [Keyring] (keys : AllKeyed)
include keys

/-- The closure is as good for the renamed capsule. -/
theorem renamed_verified (sound : SignaturesVerify) {s : Instance}
    (members : s.members = (soloStart pair).members) (epoch : s.epoch = 0)
    (stored : s.capsules.get? (roundCapsule pair (ledgerSeal pair) root txId).capsuleId =
      some (roundCapsule pair (ledgerSeal pair) root txId)) :
    verifyClosure s.toMosaicProtocol (renamed (roundCapsule pair (ledgerSeal pair) root txId))
      (roundClosure pair (ledgerSeal pair) root txId) = .ok true := by
  have identified : surrogate ≠ (roundCapsule pair (ledgerSeal pair) root txId).capsuleId := spared.digest _
  have predecessor : surrogate ≠ (roundCapsule pair (ledgerSeal pair) root txId).predecessorId := spared.digest _
  have receipts : ∀ receipt ∈ (MosaicProtocol.byWitness (roundClosure pair (ledgerSeal pair) root txId).receipts).values,
      receipt = soloReceipt pair (roundCapsule pair (ledgerSeal pair) root txId) "ACCEPT" := by
    intro receipt member
    obtain ⟨w, found⟩ := Dict.mem_values.mp member
    exact List.mem_singleton.mp (MosaicProtocol.mem_byWitness found).1
  obtain ⟨statement, hashed⟩ := soloReceipt_spared pair spared identified predecessor
  rw [verifyClosure_of_readable]
  · exact congrArg Except.ok (solo_verifyClosure pair sound (renamed _) _ members epoch stored rfl)
  · intro receipt member
    rw [receipts receipt member]
    exact fun _ => ⟨fun member _ => Or.inr (keys member.memberId), encodable_of_absent others statement⟩
  · intro receipt member
    rw [receipts receipt member]
    exact encodable_of_absent others hashed
  · exact encodable_of_absent others (proofStatement_spared spared identified predecessor _)

omit [Keyring] keys in
theorem setTx_staged (sound : SignaturesVerify) : ∃ gasUsed events,
    tried emptyExecutor emptyExecutor.stateRoot (setTx pair) =
      .ok (writtenState, emptyExecutor.successReceipt (setTx pair) writtenState gasUsed events) := by
  have hashed : ∀ value : Json, surrogate ∉ value.texts → digest value = .ok (Mosaic.digest value) :=
    fun value absent => digest_of_encodable (encodable_of_absent others absent)
  have statement : surrogate ∉ (setTx pair).statement.texts := by
    have caller := spared.identity pair
    have key := spared.hexed pair.publicKey
    simp [ExecutionTransaction.statement, setTx, ExecutionTransaction.signed, Json.texts, fieldTexts, itemTexts,
      ExecutionInstruction.toJson, Value.toJson, caller, key]
    simp [surrogate]
  have encoded : canonicalBytes (setTx pair).statement = .ok (CanonicalJson.canonicalBytes (setTx pair).statement) :=
    canonicalBytes_eq_ok.mpr ⟨encodable_of_absent others statement, rfl⟩
  have verified : verifyTransaction (setTx pair) = .ok true := by
    have signature : KeyPair.verify (setTx pair).callerPublicKey
        (CanonicalJson.canonicalBytes (setTx pair).statement) (setTx pair).signature = true :=
      KeyPair.verify_sign sound pair _
    refine except_bind_eq_ok.mpr ⟨(), rfl, except_bind_eq_ok.mpr ⟨_, hashed _ statement, ?_⟩⟩
    have named : ¬ (setTx pair).txId ≠ Mosaic.digest (setTx pair).statement := not_not.mpr rfl
    rw [if_neg named]
    exact except_bind_eq_ok.mpr ⟨_, encoded, congrArg Except.ok signature⟩
  have key : Texts.encodes "k" = true := others _ (by simp [surrogate])
  have instructions : runInstructions 100 (setTx pair).instructions emptyExecutor.state 0 [] =
      .ok (writtenState, 10, [.obj [("operation", .str "SET"), ("key", .str "k"), ("before", .null), ("after", .int 1)]]) := by
    have valid : validateInstruction ⟨"SET", .json (.str "k"), .json (.int 1)⟩ = .ok "k" := by
      have value : canonicalBytes (.int 1) = .ok (CanonicalJson.canonicalBytes (.int 1)) :=
        canonicalBytes_eq_ok.mpr ⟨encodable_int 1, rfl⟩
      have text : keyText ⟨"SET", .json (.str "k"), .json (.int 1)⟩ = .ok "k" := by
        unfold keyText
        simp only [key]
        rfl
      unfold validateInstruction
      rw [text]
      dsimp only [Value.toJson]
      rw [value]
      rfl
    change runInstructions 100 [⟨"SET", .json (.str "k"), .json (.int 1)⟩] _ _ _ = _
    unfold runInstructions
    rw [valid]
    rfl
  have few : ((setTx pair).instructions.length : Int) ≤ emptyExecutor.maxInstructions := (by decide : (1 : Int) ≤ 128)
  refine ⟨_, _, except_bind_eq_ok.mpr ⟨_, (stage_of_verified verified few rfl).trans instructions,
    except_bind_eq_ok.mpr ⟨_, successReceipt_of_encodable (hashed _ ?_) (hashed _ ?_) (hashed _ ?_), rfl⟩⟩⟩
  · have written : State.toSorted writtenState = .obj [("k", .int 1)] := rfl
    simp [written, Json.texts, fieldTexts, surrogate]
  · simp [Json.texts, fieldTexts, itemTexts, surrogate]
  · have before : emptyExecutor.state.entries = [] := rfl
    have after : writtenState.entries = [("k", .int 1)] := rfl
    simp [before, after, Json.texts, fieldTexts, surrogate]

omit [Keyring] keys in
/-- The transaction is executed. -/
theorem setTx_executed (sound : SignaturesVerify) : ∃ next gasUsed events, execute (setTx pair) emptyExecutor =
    .ok (emptyExecutor.successReceipt (setTx pair) writtenState gasUsed events) next := by
  obtain ⟨gasUsed, events, staged⟩ := @setTx_staged _ pair _ others spared sound
  have root : computeStateRoot emptyExecutor.state = .ok emptyExecutor.stateRoot := by
    have empty : State.toSorted emptyExecutor.state = .obj [] := rfl
    exact digest_of_encodable (encodable_of_absent others (by simp [empty, Json.texts, fieldTexts, surrogate]))
  have ran : ∃ next, execute (setTx pair) emptyExecutor =
      .ok (emptyExecutor.successReceipt (setTx pair) writtenState gasUsed events) next := by
    have new : emptyExecutor.receipts.get? (setTx pair).txId = none := rfl
    unfold execute
    rw [get_bind_apply, new]
    dsimp only
    rw [root, ofExcept_ok_bind, staged]
    exact ⟨_, rfl⟩
  obtain ⟨next, ran⟩ := ran
  exact ⟨next, gasUsed, events, ran⟩

omit [Keyring] keys in
theorem binding_created {capsuleId predecessorId : String} (identified : surrogate ≠ capsuleId)
    (predecessor : surrogate ≠ predecessorId) {tx : ExecutionTransaction} (named : surrogate ≠ tx.txId)
    {e : DeterministicExecutor} (proper : e.stateRoot ≠ "") (staged : State) (gasUsed : Nat) (events : List Json) :
    ∃ binding, createdBinding capsuleId predecessorId (e.successReceipt tx staged gasUsed events) = .ok binding := by
  have pre : surrogate ≠ e.stateRoot := spared.digest _
  have post : surrogate ≠ Mosaic.computeStateRoot staged := spared.digest _
  have eventRoot := spared.digest (.list events)
  have diff : surrogate ≠ DeterministicExecutor.diffDigest e.state staged := spared.digest _
  unfold createdBinding
  dsimp only [DeterministicExecutor.successReceipt]
  refine ⟨_, (if_neg Bool.noConfusion).trans ((if_neg proper).trans (except_bind_eq_ok.mpr ⟨_,
    digest_of_encodable (encodable_of_absent others ?_), except_bind_eq_ok.mpr ⟨_,
      digest_of_encodable (encodable_of_absent others ?_), rfl⟩⟩))⟩
  · simp [Json.texts, fieldTexts, named, pre, post, eventRoot, diff]
    simp [surrogate]
  · have receipt := fun value => spared.digest value
    simp [Json.texts, fieldTexts, identified, predecessor, pre, receipt]
    simp [surrogate]

omit keys in
theorem renamed_executes (sound : SignaturesVerify) (proper : ∀ value, Mosaic.digest value ≠ "")
    (differ : Mosaic.computeStateRoot writtenState ≠ emptyExecutor.stateRoot) {s : Instance} {capsule : Capsule}
    {closure : ClosureProof} (same : capsule.capsuleId = closure.capsuleId)
    (verified : verifyClosure s.toMosaicProtocol capsule closure = .ok true)
    (known : s.knownSeals.get? capsule.predecessorId = some (ledgerSeal pair))
    (witness : capsule.ruleWitness = (setTx pair).txId)
    (root : capsule.successorRoot = Mosaic.computeStateRoot writtenState)
    (identified : surrogate ≠ capsule.capsuleId) (predecessor : surrogate ≠ capsule.predecessorId) :
    ∃ result e, executeForCapsule (setTx pair) capsule closure s.toMosaicProtocol emptyExecutor = .ok result e := by
  obtain ⟨next, gasUsed, events, ran⟩ := @setTx_executed _ pair _ others spared sound
  have start : computeStateRoot emptyExecutor.state = .ok emptyExecutor.stateRoot := by
    have empty : State.toSorted emptyExecutor.state = .obj [] := rfl
    exact digest_of_encodable (encodable_of_absent others (by simp [empty, Json.texts, fieldTexts, surrogate]))
  have named : surrogate ≠ (setTx pair).txId := spared.digest _
  obtain ⟨binding, made⟩ := binding_created others spared identified predecessor named (proper _) writtenState gasUsed events
  have pre : (ledgerSeal pair).stateRoot = emptyExecutor.stateRoot := rfl
  have advances : capsule.successorRoot ≠ (ledgerSeal pair).stateRoot := by rwa [root, pre]
  refine ⟨(emptyExecutor.successReceipt (setTx pair) writtenState gasUsed events, binding), next, ?_⟩
  unfold executeForCapsule
  rw [get_bind_apply, raiseIf_bind_neg (not_not.mpr same), verified, ofExcept_ok_bind, raiseIf_bind_neg (by simp), known]
  dsimp only
  rw [start, ofExcept_ok_bind, raiseIf_bind_neg (not_not.mpr pre), raiseIf_bind_neg (not_not.mpr witness),
    raiseIf_bind_neg advances, bind_of_ok ran]
  have fits : ¬ ((emptyExecutor.successReceipt (setTx pair) writtenState gasUsed events).success = false ∨
      (emptyExecutor.successReceipt (setTx pair) writtenState gasUsed events).preStateRoot ≠
        (ledgerSeal pair).stateRoot ∨
      (emptyExecutor.successReceipt (setTx pair) writtenState gasUsed events).postStateRoot ≠ capsule.successorRoot) := by
    rintro (failed | other | other)
    · cases failed
    · exact other rfl
    · exact other root.symm
  rw [if_neg fits, made, ofExcept_ok_bind]
  rfl

/-- The capsule with the root that the transaction leads to. -/
def tornCapsule (pair : KeyPair) : Capsule :=
  roundCapsule pair (ledgerSeal pair) (Mosaic.computeStateRoot writtenState) (setTx pair).txId

def tornClosure (pair : KeyPair) : ClosureProof :=
  roundClosure pair (ledgerSeal pair) (Mosaic.computeStateRoot writtenState) (setTx pair).txId

/-- The instance that has the capsule. -/
def tornStart (pair : KeyPair) : Instance := (ledgerStart pair).storeCapsule (tornCapsule pair)

omit keys in
theorem tornStart_run : Run (fun _ _ => True) (soloStart pair) (tornStart pair) := by
  have first : exec (.createResource "p" pair.identity emptyExecutor.stateRoot "capability") (soloStart pair) =
      ledgerStart pair := final_of_ok (createLedger others spared _ rfl rfl)
  have second : exec (.createCapsule pair (ledgerSeal pair) (Mosaic.computeStateRoot writtenState)
      "identity-transition" (setTx pair).txId 0 none) (ledgerStart pair) = tornStart pair :=
    final_of_ok (createRound others spared (spared.digest _) (spared.digest _) rfl (ledgerStart_held pair))
  rw [← second, ← first]
  exact (GuardedRun.refl.tail trivial).tail trivial

theorem torn (sound : SignaturesVerify) (proper : ∀ value, Mosaic.digest value ≠ "")
    (differ : Mosaic.computeStateRoot writtenState ≠ emptyExecutor.stateRoot)
    (refused : Texts.encodes surrogate = false) :
    Tears ⟨tornStart pair, emptyExecutor⟩ (renamed (tornCapsule pair)) (tornClosure pair) (setTx pair) := by
  have verified : verifyClosure (tornStart pair).toMosaicProtocol (renamed (tornCapsule pair)) (tornClosure pair) =
      .ok true := renamed_verified others spared keys sound rfl rfl (Dict.get?_set_self _ _ _)
  have known : (tornStart pair).knownSeals.get? (renamed (tornCapsule pair)).predecessorId = some (ledgerSeal pair) :=
    Dict.get?_set_self _ _ _
  have head : (tornStart pair).headOf (renamed (tornCapsule pair)) = some (ledgerSeal pair) :=
    Option.bind_eq_some_iff.mpr ⟨_, known, Dict.get?_set_self _ _ _⟩
  refine ⟨renamed_executes others spared sound proper differ rfl verified known rfl rfl (spared.digest _)
    (spared.digest _), ⟨verified, Or.inr rfl⟩, ledgerSeal pair,
    ⟨head, encodable_of_absent others (ledgerSeal_spared pair spared), rfl⟩, fun fine => ?_⟩
  have encoded := fine surrogate (by simp [StateSeal.statement, nextSeal, renamed, Json.texts, fieldTexts])
  exact Bool.false_ne_true (refused.symm.trans encoded)

end Scenario

/-- The seal of the genuine capsule has an identifier. -/
theorem whole [Texts] [Keyring] (others : ∀ text, text ≠ surrogate → Texts.encodes text = true) (spared : Spared) :
    ¬ Tears ⟨tornStart pair, emptyExecutor⟩ (tornCapsule pair) (tornClosure pair) (setTx pair) := by
  rintro ⟨-, -, current, heads, bad⟩
  have head : (tornStart pair).headOf (tornCapsule pair) = some (ledgerSeal pair) :=
    Option.bind_eq_some_iff.mpr ⟨_, Dict.get?_set_self _ _ _, Dict.get?_set_self _ _ _⟩
  cases Option.some.inj (head.symm.trans heads.head)
  refine bad (encodable_of_absent others ?_)
  have root : surrogate ≠ Mosaic.computeStateRoot writtenState := spared.digest _
  have capability := spared.digest (.str (tornCapsule pair).capsuleId)
  have owner : surrogate ≠ (tornCapsule pair).clientId := spared.identity pair
  have successor : (tornCapsule pair).successorRoot = Mosaic.computeStateRoot writtenState := rfl
  simp [StateSeal.statement, nextSeal, Json.texts, fieldTexts, successor, root, capability, owner]
  simp [surrogate, ledgerSeal]

omit [Crypto] in
/-- The genuine capsule goes through as a whole or not at all, the renamed one does not. -/
theorem apply_execution_atomic_renamed : let _ := Crypto.ideal
    let _ := Texts.lone
    let _ := Keyring.all
    ∃ pair : KeyPair,
      (∀ error next, applyExecution (tornCapsule pair) (tornClosure pair) (setTx pair) ⟨tornStart pair, emptyExecutor⟩ =
        .error error next → Unmoved ⟨tornStart pair, emptyExecutor⟩ next) ∧
      ¬ ∀ error next, applyExecution (renamed (tornCapsule pair)) (tornClosure pair) (setTx pair)
        ⟨tornStart pair, emptyExecutor⟩ = .error error next → Unmoved ⟨tornStart pair, emptyExecutor⟩ next := by
  intro _ texts keys
  have others : ∀ text, text ≠ surrogate → Texts.encodes text = true := fun text other => decide_eq_true other
  have run := @tornStart_run _ idealKey _ others ideal_spared _
  have tears := @torn _ idealKey _ others ideal_spared _ (fun _ => rfl) ideal_signaturesVerify ideal_digest_named
    (roots_differ ideal_collisionFree) (decide_eq_false (not_not.mpr rfl))
  refine ⟨idealKey, (apply_execution_atomic_iff run emptyExecutor _ _ _).1.mpr ?_, fun atomic => ?_⟩
  · exact whole idealKey others ideal_spared
  · exact (apply_execution_atomic_iff run emptyExecutor _ _ _).1.mp atomic tears

omit [Crypto] in
/-- A capsule in the name of a client that cannot be encoded, with the closure of the genuine
one, leaves the seal replaced when the call has raised. -/
theorem apply_execution_tears : ¬ ∀ [Crypto] [Texts] [Keyring], CollisionFree → SignaturesVerify →
    ∀ (members : Dict String Member) (epoch : Int) (s : Instance), Run (fun _ _ => True) (.fresh members epoch) s →
      ∀ (executor : DeterministicExecutor) (capsule : Capsule) (closure : ClosureProof) (tx : ExecutionTransaction)
        (error : PyError) (next : Ledger), applyExecution capsule closure tx ⟨s, executor⟩ = .error error next →
          Unmoved ⟨s, executor⟩ next := by
  intro claim
  let crypto := Crypto.ideal
  let texts := Texts.lone
  let keys := Keyring.all
  have others : ∀ text, text ≠ surrogate → Texts.encodes text = true := fun text other => decide_eq_true other
  have run := @tornStart_run _ idealKey _ others ideal_spared _
  have tears := @torn _ idealKey _ others ideal_spared _ (fun _ => rfl) ideal_signaturesVerify ideal_digest_named
    (roots_differ ideal_collisionFree) (decide_eq_false (not_not.mpr rfl))
  exact (applyExecution_unmoved_iff run.filed _ _ _).mp
    (fun error next => claim ideal_collisionFree ideal_signaturesVerify _ _ _ run _ _ _ _ error next) tears

end Torn

end Mosaic.Strict
