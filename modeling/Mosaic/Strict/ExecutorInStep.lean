import Mosaic.Strict.ExecutionAtomicity

namespace Mosaic.Strict
open CanonicalJson Effects Instance

section Calls
variable [Crypto] [Texts]

theorem tried_root {tx : ExecutionTransaction} {e : DeterministicExecutor} {preRoot : String} {staged : State}
    {receipt : ExecutionReceipt} (ran : tried e preRoot tx = .ok (staged, receipt)) :
    computeStateRoot staged = .ok receipt.postStateRoot := by
  obtain ⟨⟨state, gasUsed, events⟩, -, ran⟩ := except_bind_eq_ok.mp ran
  obtain ⟨made, received, ran⟩ := except_bind_eq_ok.mp ran
  obtain ⟨postRoot, rooted, received⟩ := except_bind_eq_ok.mp received
  obtain ⟨eventRoot, -, received⟩ := except_bind_eq_ok.mp received
  obtain ⟨diff, -, received⟩ := except_bind_eq_ok.mp received
  cases received
  cases ran
  exact rooted

/-- `execute` returns the receipt of an earlier call, or returns a receipt of
a failure, or the state root has become the one in the receipt. -/
theorem execute_ok {tx : ExecutionTransaction} {e next : DeterministicExecutor} {receipt : ExecutionReceipt}
    (ran : execute tx e = .ok receipt next) :
    e.receipts.get? tx.txId = some receipt ∨ receipt.success = false ∨
      computeStateRoot next.state = .ok receipt.postStateRoot := by
  unfold execute at ran
  rw [get_bind_apply] at ran
  cases cached : e.receipts.get? tx.txId with
  | some earlier =>
    rw [cached] at ran
    cases ran
    exact Or.inl rfl
  | none =>
    rw [cached] at ran
    dsimp only at ran
    refine Or.inr ?_
    cases rooted : computeStateRoot e.state with
    | error error =>
      rw [rooted, ofExcept_error_bind] at ran
      cases ran
    | ok preRoot =>
      rw [rooted, ofExcept_ok_bind] at ran
      cases staged : tried e preRoot tx with
      | ok result =>
        obtain ⟨state, made⟩ := result
        rw [staged] at ran
        cases ran
        exact Or.inr (tried_root staged)
      | error error =>
        rw [staged] at ran
        cases error with
        | executionError message =>
          dsimp only at ran
          cases made : failureReceipt e preRoot tx message with
          | error error =>
            rw [made, ofExcept_error_bind] at ran
            cases ran
          | ok failed =>
            rw [made, ofExcept_ok_bind] at ran
            cases ran
            refine Or.inl ?_
            obtain ⟨eventRoot, -, made⟩ := except_bind_eq_ok.mp made
            obtain ⟨diff, -, made⟩ := except_bind_eq_ok.mp made
            cases made
            rfl
        | _ => cases ran

variable [Keyring] {ledger next : Ledger} {capsule : Capsule} {closure : ClosureProof} {tx : ExecutionTransaction}

/-- The executor is at the state root of the resource's current seal. -/
def InStep (r : String) (ledger : Ledger) : Prop :=
  ∃ current, ledger.protocol.currentSeals.get? r = some current ∧
    computeStateRoot ledger.executor.state = .ok current.stateRoot

/-- The executor has a receipt for the transaction from an earlier run that leads from the state
root of today to the root of the capsule, and `apply` will install the capsule. -/
structure Replays (ledger : Ledger) (capsule : Capsule) (closure : ClosureProof) (tx : ExecutionTransaction) : Prop where
  proceeds : Proceeds ledger.protocol capsule closure
  head : ∃ current, Heads ledger.protocol capsule current
  witness : capsule.ruleWitness = tx.txId
  advances : computeStateRoot ledger.executor.state ≠ .ok capsule.successorRoot
  cached : ∃ receipt, ledger.executor.receipts.get? tx.txId = some receipt ∧ receipt.success = true ∧
    computeStateRoot ledger.executor.state = .ok receipt.preStateRoot ∧ receipt.postStateRoot = capsule.successorRoot

theorem InStep.applyExecution {r : String} {applied : StateSeal} {receipt : ExecutionReceipt}
    {binding : ExecutionBinding} (inStep : InStep r ledger) (filed : Filed ledger.protocol)
    (onResource : ∀ predecessor, ledger.protocol.knownSeals.get? capsule.predecessorId = some predecessor →
      predecessor.resourceId = r) (fresh : ¬ Replays ledger capsule closure tx)
    (returned : applyExecution capsule closure tx ledger = .ok (applied, receipt, binding) next) : InStep r next := by
  obtain ⟨ran, applies⟩ := applyExecution_ok returned
  have follows := executeForCapsule_ok ran
  obtain ⟨predecessor, known, rooted, pre, advances⟩ := follows.known
  have moving : computeStateRoot ledger.executor.state ≠ .ok capsule.successorRoot := by
    rw [rooted]
    exact fun same => advances (Except.ok.inj same).symm
  have outcome := apply_outcome ledger.protocol capsule closure
  obtain ⟨currents, -⟩ := registering_seals ledger.protocol capsule closure
  generalize protocol : next.protocol = t at applies
  rw [applies] at outcome
  cases outcome with
  | known current proceeds succeeds =>
    -- the seal is in place already, at a root that the executor has left
    obtain ⟨predecessor', known', held, -⟩ := succeeds.known
    obtain ⟨now, heldNow, root⟩ := inStep
    rw [onResource predecessor' known'] at held
    cases Option.some.inj (held.symm.trans heldNow)
    rw [succeeds.root] at root
    exact absurd root moving
  | installed current proceeds heads fine =>
    obtain ⟨predecessor', known', held⟩ := headOf_parts heads.head
    have resource := filed _ _ held
    rw [onResource predecessor' known'] at resource
    refine ⟨nextSeal current capsule, ?_, ?_⟩
    · rw [protocol, installSeal_currentSeals, currents]
      exact resource ▸ Dict.get?_set_self _ _ _
    have post : computeStateRoot next.executor.state = .ok receipt.postStateRoot := by
      rcases execute_ok follows.executed with cached | failed | post
      · exact absurd ⟨proceeds, ⟨current, heads⟩, follows.witness, moving, receipt, cached, follows.success,
          pre ▸ rooted, follows.post⟩ fresh
      · exact absurd (failed.symm.trans follows.success) Bool.false_ne_true
      · exact post
    rw [post, follows.post]
    rfl

/-- What happens to a ledger. -/
def execLedger : LedgerCall → Ledger → Ledger
  | .protocol call, ledger => { ledger with protocol := exec call ledger.protocol }
  | .applyExecution capsule closure tx, ledger => final (applyExecution capsule closure tx) ledger

/-- The current seal of the resource changes only through `apply_execution`, which is called
for capsules on this resource. -/
def OnResource (r : String) (ledger : Ledger) : LedgerCall → Prop
  | .protocol call => (exec call ledger.protocol).currentSeals.get? r = ledger.protocol.currentSeals.get? r
  | .applyExecution capsule _ _ => ∀ predecessor,
      ledger.protocol.knownSeals.get? capsule.predecessorId = some predecessor → predecessor.resourceId = r

/-- The executor does not answer with a receipt of an earlier run, and the seal that is put
in place has an identifier. -/
def Sound (ledger : Ledger) : LedgerCall → Prop
  | .protocol _ => True
  | .applyExecution capsule closure tx => ¬ Replays ledger capsule closure tx ∧ ¬ Tears ledger capsule closure tx

theorem execLedger_filed (filed : Filed ledger.protocol) (call : LedgerCall) : Filed (execLedger call ledger).protocol := by
  cases call with
  | protocol call => exact exec_filed call filed
  | applyExecution capsule closure tx =>
    change Filed (final (applyExecution capsule closure tx) ledger).protocol
    have applied := exec_filed (.apply capsule closure) filed
    cases ran : applyExecution capsule closure tx ledger with
    | ok result next =>
      rw [final_of_ok ran]
      obtain ⟨-, returned⟩ := applyExecution_ok ran
      exact final_of_ok returned ▸ applied
    | error error next =>
      rw [final_of_error ran]
      obtain ⟨-, ⟨-, same⟩ | ⟨-, raised⟩⟩ := applyExecution_error ran
      · rwa [same]
      · exact final_of_error raised ▸ applied

theorem execLedger_inStep {r : String} {call : LedgerCall} (inStep : InStep r ledger) (filed : Filed ledger.protocol)
    (onResource : OnResource r ledger call) (sound : Sound ledger call) : InStep r (execLedger call ledger) := by
  cases call with
  | protocol call =>
    obtain ⟨current, held, root⟩ := inStep
    exact ⟨current, onResource.trans held, root⟩
  | applyExecution capsule closure tx =>
    change InStep r (final (applyExecution capsule closure tx) ledger)
    cases ran : applyExecution capsule closure tx ledger with
    | ok result next =>
      obtain ⟨applied, receipt, binding⟩ := result
      rw [final_of_ok ran]
      exact inStep.applyExecution filed onResource sound.1 ran
    | error error next =>
      have unmoved := (applyExecution_unmoved_iff filed capsule closure tx).mpr sound.2 error next ran
      obtain ⟨current, held, root⟩ := inStep
      rw [final_of_error ran]
      exact ⟨current, unmoved.currentSeals ▸ held, unmoved.state ▸ root⟩

/-- Where no receipt of an earlier run is used again and no seal without an identifier is put
in place, the executor and the seals of its resource stay in step. -/
theorem executor_in_step {members : Dict String Member} {epoch : Int} {s : Instance}
    (reached : Run (fun _ _ => True) (.fresh members epoch) s) {r : String} {initial : StateSeal}
    (held : s.currentSeals.get? r = some initial) {state : State} {maxInstructions : Int}
    (root : computeStateRoot state = .ok initial.stateRoot) {ledger : Ledger}
    (run : GuardedRun execLedger (fun ledger call => OnResource r ledger call ∧ Sound ledger call)
      ⟨s, .fresh state maxInstructions⟩ ledger) : InStep r ledger := by
  refine (run.invariant (P := fun ledger => Filed ledger.protocol ∧ InStep r ledger)
    ⟨reached.filed, initial, held, root⟩ ?_).2
  rintro ledger call ⟨onResource, sound⟩ ⟨filed, inStep⟩
  exact ⟨execLedger_filed filed call, execLedger_inStep inStep filed onResource sound⟩

end Calls

section Plain
variable [Crypto] [Texts] (texts : AllEncode)
include texts

omit [Crypto] in
theorem keyText_plain (item : ExecutionInstruction) : keyText item = item.keyText := by
  unfold keyText
  split
  · rename_i text same
    rw [if_neg fun refused => Bool.false_ne_true (refused.2.symm.trans (texts text))]
  · rfl

omit [Crypto] in
theorem validateInstruction_plain (item : ExecutionInstruction) : validateInstruction item = item.validate := by
  unfold validateInstruction ExecutionInstruction.validate
  rw [keyText_plain texts, canonicalBytes_plain texts]
  rfl

omit [Crypto] in
theorem runInstructions_plain (gasLimit : Int) (items : List ExecutionInstruction) (staged : State) (gasUsed : Nat)
    (events : List Json) : runInstructions gasLimit items staged gasUsed events =
      DeterministicExecutor.runInstructions gasLimit items staged gasUsed events := by
  induction items generalizing staged gasUsed events with
  | nil => rfl
  | cons item items ih =>
    unfold runInstructions DeterministicExecutor.runInstructions
    simp only [validateInstruction_plain texts, ih]

theorem verifyTransaction_plain (tx : ExecutionTransaction) : verifyTransaction tx = tx.verify := by
  unfold verifyTransaction ExecutionTransaction.verify
  rw [digest_plain texts, canonicalBytes_plain texts]
  by_cases invalid : tx.nonce < 0 ∨ tx.gasLimit ≤ 0 ∨ tx.instructions.isEmpty = true
  · rw [if_pos invalid, if_pos invalid]
  rw [if_neg invalid, if_neg invalid]
  cases tx.encodable with
  | error e => rfl
  | ok =>
    by_cases named : tx.txId = Mosaic.digest tx.statement
    · have same : (if tx.txId ≠ Mosaic.digest tx.statement then .ok false else .ok (KeyPair.verify tx.callerPublicKey
          (CanonicalJson.canonicalBytes tx.statement) tx.signature) : Except PyError Bool) = .ok _ := if_neg (not_not.mpr named)
      refine same.trans ?_
      rw [decide_eq_true named]
      rfl
    · have same : (if tx.txId ≠ Mosaic.digest tx.statement then .ok false else .ok (KeyPair.verify tx.callerPublicKey
          (CanonicalJson.canonicalBytes tx.statement) tx.signature) : Except PyError Bool) = .ok _ := if_pos named
      refine same.trans ?_
      rw [decide_eq_false named]
      rfl

theorem stage_plain (e : DeterministicExecutor) (tx : ExecutionTransaction) : stage e tx = e.stage tx := by
  unfold stage DeterministicExecutor.stage
  simp only [verifyTransaction_plain texts, runInstructions_plain texts]

theorem successReceipt_plain (e : DeterministicExecutor) (tx : ExecutionTransaction) (staged : State) (gasUsed : Nat)
    (events : List Json) : successReceipt e e.stateRoot tx staged gasUsed events =
      .ok (e.successReceipt tx staged gasUsed events) :=
  successReceipt_of_encodable (digest_plain texts _) (digest_plain texts _) (digest_plain texts _)

theorem execute_plain (tx : ExecutionTransaction) : execute tx = DeterministicExecutor.execute tx := by
  have root : ∀ e : DeterministicExecutor, computeStateRoot e.state = .ok e.stateRoot := fun e => digest_plain texts _
  have failure : ∀ (e : DeterministicExecutor) message, failureReceipt e e.stateRoot tx message =
      .ok (e.failureReceipt tx message) := fun e message =>
    except_bind_eq_ok.mpr ⟨_, digest_plain texts _, except_bind_eq_ok.mpr ⟨_, digest_plain texts _, rfl⟩⟩
  unfold execute DeterministicExecutor.execute
  funext e
  rw [get_bind_apply, get_bind_apply]
  cases e.receipts.get? tx.txId with
  | some receipt => rfl
  | none =>
    dsimp only
    rw [root, ofExcept_ok_bind]
    unfold tried
    rw [stage_plain texts]
    cases e.stage tx with
    | ok result =>
      obtain ⟨staged, gasUsed, events⟩ := result
      have made := successReceipt_plain texts e tx staged gasUsed events
      dsimp only [bind, Except.bind]
      rw [made]
      rfl
    | error error =>
      cases error with
      | executionError message =>
        dsimp only [bind, Except.bind]
        rw [failure]
        rfl
      | _ => rfl

theorem createdBinding_plain (capsuleId predecessorId : String) (receipt : ExecutionReceipt) :
    createdBinding capsuleId predecessorId receipt = ExecutionBinding.create capsuleId predecessorId receipt := by
  unfold createdBinding ExecutionBinding.create
  simp only [digest_plain texts]
  rfl

variable [Keyring] (keys : AllKeyed)
include keys

theorem executeForCapsule_plain (tx : ExecutionTransaction) (capsule : Capsule) (closure : ClosureProof)
    (s : MosaicProtocol) : executeForCapsule tx capsule closure s =
      DeterministicExecutor.executeForCapsule tx capsule closure s := by
  have root : ∀ e : DeterministicExecutor, computeStateRoot e.state = .ok e.stateRoot := fun e => digest_plain texts _
  unfold executeForCapsule DeterministicExecutor.executeForCapsule
  simp only [verifyClosure_plain texts keys, root, execute_plain texts, createdBinding_plain texts]
  rfl

theorem applyExecution_plain (capsule : Capsule) (closure : ClosureProof) (tx : ExecutionTransaction) :
    applyExecution capsule closure tx = Ledger.applyExecution capsule closure tx := by
  unfold applyExecution Ledger.applyExecution executeAndApply Ledger.executeAndApply
  simp only [executeForCapsule_plain texts keys, apply_plain texts keys]
  rfl

theorem execLedger_plain : execLedger = LedgerCall.exec := by
  funext call ledger
  cases call with
  | protocol call => rw [execLedger, LedgerCall.exec, exec_plain texts keys]
  | applyExecution capsule closure tx => rw [execLedger, LedgerCall.exec, applyExecution_plain texts keys]

theorem OnResource.of_plain {r : String} {ledger : Ledger} {call : LedgerCall} (onResource : call.OnResource r ledger) :
    OnResource r ledger call := by
  cases call with
  | protocol call => exact (congrArg (fun t : Instance => t.currentSeals.get? r)
      (congrFun (exec_plain texts keys call) ledger.protocol)).trans onResource
  | applyExecution capsule closure tx => exact onResource

omit keys in
theorem Sound.of_plain {ledger : Ledger} {call : LedgerCall} (fresh : call.Fresh ledger) : Sound ledger call := by
  cases call with
  | protocol call => trivial
  | applyExecution capsule closure tx =>
    have root : computeStateRoot ledger.executor.state = .ok ledger.executor.stateRoot := digest_plain texts _
    refine ⟨fun replays => fresh ?_, fun tears => ?_⟩
    · obtain ⟨proceeds, ⟨current, heads⟩, witness, advances, receipt, cached, success, pre, post⟩ := replays
      refine ⟨verifyClosure_ok proceeds.verified, proceeds.registrable, ⟨current, heads.head, heads.named⟩, witness, ?_,
        receipt, cached, success, ?_, post⟩
      · exact fun same => advances (root.trans (congrArg Except.ok same.symm))
      · exact (Except.ok.inj (root.symm.trans pre)).symm
    · obtain ⟨-, -, current, -, bad⟩ := tears
      exact bad fun text _ => texts text

theorem GuardedRun.of_plain {allowed allowed' : Ledger → LedgerCall → Prop} {ledger next : Ledger}
    (more : ∀ ledger call, allowed ledger call → allowed' ledger call)
    (run : GuardedRun LedgerCall.exec allowed ledger next) : GuardedRun execLedger allowed' ledger next := by
  rw [execLedger_plain texts keys]
  exact run.mono more

end Plain

/-- The first transaction is executed and its capsule applied. -/
theorem executor_in_step_once : let _ := Crypto.ideal
    let _ := Texts.all
    let _ := Keyring.all
    ∃ ledger : Ledger, ledger.executor.state = writtenState ∧ InStep "p" ledger := by
  intro _ _ _
  have texts : AllEncode := fun _ => rfl
  have keys : AllKeyed := fun _ => rfl
  obtain ⟨ledger, run, written⟩ := firstRound_inStep idealKey ideal_collisionFree ideal_signaturesVerify
    ideal_digest_named
  refine ⟨ledger, written, executor_in_step (Run.of_plain texts keys (ledgerStart_run idealKey))
    (ledgerStart_held idealKey) (digest_plain texts _) (GuardedRun.of_plain texts keys (fun ledger call ok => ?_) run)⟩
  exact ⟨OnResource.of_plain texts keys ok.1, Sound.of_plain texts ok.2⟩

/-- With a receipt of an earlier run the seal moves without the executor. -/
theorem executor_out_of_step : ¬ ∀ [Crypto] [Texts] [Keyring], CollisionFree → SignaturesVerify →
    ∀ (members : Dict String Member) (epoch : Int) (s : Instance), Run (fun _ _ => True) (.fresh members epoch) s →
      ∀ (r : String) (initial : StateSeal), s.currentSeals.get? r = some initial →
      ∀ (state : State) (maxInstructions : Int), computeStateRoot state = .ok initial.stateRoot →
      ∀ ledger : Ledger, GuardedRun execLedger (fun ledger call => OnResource r ledger call)
        ⟨s, .fresh state maxInstructions⟩ ledger → InStep r ledger := by
  intro claim
  let crypto := Crypto.ideal
  let allTexts := Texts.all
  let allKeys := Keyring.all
  have texts : AllEncode := fun _ => rfl
  have keys : AllKeyed := fun _ => rfl
  obtain ⟨ledger, run, outOfStep⟩ := thirdRound_outOfStep idealKey ideal_collisionFree ideal_signaturesVerify
    ideal_digest_named
  obtain ⟨current, held, root⟩ := claim ideal_collisionFree ideal_signaturesVerify _ _ _
    (Run.of_plain texts keys (ledgerStart_run idealKey)) _ _ (ledgerStart_held idealKey) _ _ (digest_plain texts _)
    ledger (GuardedRun.of_plain texts keys (fun _ _ ok => OnResource.of_plain texts keys ok) run)
  exact outOfStep ⟨current, held, (Except.ok.inj ((digest_plain texts _).symm.trans root)).symm⟩

end Mosaic.Strict
