import Mosaic.SealChain
import Mosaic.Execution

namespace Mosaic
open CanonicalJson Effects

variable [Crypto]

namespace DeterministicExecutor

variable {e next : DeterministicExecutor} {tx : ExecutionTransaction} {receipt : ExecutionReceipt}

/-- What `execute_for_capsule` has checked when it returns. -/
structure Follows (e next : DeterministicExecutor) (tx : ExecutionTransaction) (capsule : Capsule) (closure : ClosureProof)
    (s : MosaicProtocol) (receipt : ExecutionReceipt) : Prop where
  verified : s.verifyClosure capsule closure = true
  witness : capsule.ruleWitness = tx.txId
  known : ∃ predecessor, s.knownSeals.get? capsule.predecessorId = some predecessor ∧
    predecessor.stateRoot = e.stateRoot
  advances : capsule.successorRoot ≠ e.stateRoot
  success : receipt.success = true
  pre : receipt.preStateRoot = e.stateRoot
  post : receipt.postStateRoot = capsule.successorRoot
  executed : execute tx e = .ok receipt next

end DeterministicExecutor

namespace Ledger

variable {ledger : Ledger} {capsule : Capsule} {closure : ClosureProof} {tx : ExecutionTransaction}

/-- The executor is at the state root of the resource's current seal. -/
def InStep (r : String) (ledger : Ledger) : Prop :=
  ∃ current, ledger.protocol.currentSeals.get? r = some current ∧ current.stateRoot = ledger.executor.stateRoot

/-- The executor has a receipt for the transaction from an earlier run that leads
from the state root of today to the root of the capsule, and `apply` will install
the capsule. -/
structure Replays (ledger : Ledger) (capsule : Capsule) (closure : ClosureProof) (tx : ExecutionTransaction) : Prop where
  verified : ledger.protocol.verifyClosure capsule closure = true
  registrable : ledger.protocol.closures.contains capsule.capsuleId = true ∨
    ledger.protocol.hasConflictOn capsule.predecessorId = false
  head : ledger.protocol.AtHead capsule
  witness : capsule.ruleWitness = tx.txId
  advances : capsule.successorRoot ≠ ledger.executor.stateRoot
  cached : ∃ receipt, ledger.executor.receipts.get? tx.txId = some receipt ∧ receipt.success = true ∧
    receipt.preStateRoot = ledger.executor.stateRoot ∧ receipt.postStateRoot = capsule.successorRoot

end Ledger

/-- What happens to a ledger: a call on the protocol object, or `apply_execution`. -/
inductive LedgerCall
  | protocol (call : Call)
  | applyExecution (capsule : Capsule) (closure : ClosureProof) (tx : ExecutionTransaction)

namespace LedgerCall

def exec : LedgerCall → Ledger → Ledger
  | .protocol call, ledger => { ledger with protocol := call.exec ledger.protocol }
  | .applyExecution capsule closure tx, ledger => final (Ledger.applyExecution capsule closure tx) ledger

/-- The current seal of the resource changes only through `apply_execution`, which
is called for capsules on this resource. -/
def OnResource (r : String) (ledger : Ledger) : LedgerCall → Prop
  | .protocol call => (call.exec ledger.protocol).currentSeals.get? r = ledger.protocol.currentSeals.get? r
  | .applyExecution capsule _ _ => ∀ predecessor,
      ledger.protocol.knownSeals.get? capsule.predecessorId = some predecessor → predecessor.resourceId = r

/-- The executor does not answer with a receipt of an earlier run. -/
def Fresh (ledger : Ledger) : LedgerCall → Prop
  | .protocol _ => True
  | .applyExecution capsule closure tx => ¬ ledger.Replays capsule closure tx

end LedgerCall

theorem ExecutionTransaction.verify_of_signature {tx : ExecutionTransaction} (natural : 0 ≤ tx.nonce)
    (positive : 0 < tx.gasLimit) (nonempty : tx.instructions.isEmpty = false) (encodes : tx.encodable = .ok ())
    (named : tx.txId = digest tx.statement)
    (signature : KeyPair.verify tx.callerPublicKey (canonicalBytes tx.statement) tx.signature = true) :
    tx.verify = .ok true := by
  have valid : ¬ (tx.nonce < 0 ∨ tx.gasLimit ≤ 0 ∨ tx.instructions.isEmpty) := by
    rintro (negative | small | empty)
    · exact absurd natural (not_le.mpr negative)
    · exact absurd positive (not_lt.mpr small)
    · exact Bool.false_ne_true (nonempty.symm.trans empty)
  unfold verify
  rw [if_neg valid, encodes, signature, Bool.and_true, decide_eq_true named]
  rfl

theorem ExecutionTransaction.signed_verify (sound : SignaturesVerify) (caller : KeyPair) {nonce gasLimit : Int}
    {instructions : List ExecutionInstruction} (natural : 0 ≤ nonce) (positive : 0 < gasLimit)
    (nonempty : instructions.isEmpty = false) (encodes : (signed caller nonce gasLimit instructions).encodable = .ok ()) :
    (signed caller nonce gasLimit instructions).verify = .ok true :=
  verify_of_signature natural positive nonempty encodes rfl (KeyPair.verify_sign sound caller _)

theorem ExecutionTransaction.create_verify (sound : SignaturesVerify) {caller : KeyPair} {nonce gasLimit : Int}
    {instructions : List ExecutionInstruction} {tx : ExecutionTransaction} (natural : 0 ≤ nonce) (positive : 0 < gasLimit)
    (nonempty : instructions.isEmpty = false) (created : create caller nonce gasLimit instructions = .ok tx) :
    tx.verify = .ok true := by
  simp only [create] at created
  cases encodes : (signed caller nonce gasLimit instructions).encodable with
  | error e =>
    rw [encodes] at created
    cases created
  | ok done =>
    rw [encodes] at created
    cases created
    exact signed_verify sound caller natural positive nonempty encodes

namespace DeterministicExecutor

variable {e next : DeterministicExecutor} {tx : ExecutionTransaction} {receipt : ExecutionReceipt}

theorem execute_stages {staged : State} {gasUsed : Nat} {events : List Json}
    (new : e.receipts.get? tx.txId = none) (stages : e.stage tx = .ok (staged, gasUsed, events)) :
    execute tx e = .ok (e.successReceipt tx staged gasUsed events) { e with
      state := staged
      nonces := e.nonces.set tx.caller (e.expectedNonce tx.caller + 1)
      receipts := e.receipts.set tx.txId (e.successReceipt tx staged gasUsed events) } := by
  unfold execute
  rw [bind_apply, get_apply]
  simp only [new, stages]
  rfl

theorem execute_cached (cached : e.receipts.get? tx.txId = some receipt) : execute tx e = .ok receipt e := by
  unfold execute
  rw [bind_apply, get_apply]
  simp only [cached]
  rfl

/-- What `execute_for_capsule` checks is also enough for it to return, as long as
state roots are not empty. -/
theorem executeForCapsule_returns {capsule : Capsule} {closure : ClosureProof} {s : MosaicProtocol}
    (follows : e.Follows next tx capsule closure s receipt) (named : capsule.capsuleId = closure.capsuleId)
    (nonempty : e.stateRoot ≠ "") :
    ∃ binding, executeForCapsule tx capsule closure s e = .ok (receipt, binding) next := by
  obtain ⟨predecessor, known, root⟩ := follows.known
  have pre : receipt.preStateRoot = predecessor.stateRoot := follows.pre.trans root.symm
  have binds : ∃ binding, ExecutionBinding.create capsule.capsuleId capsule.predecessorId receipt = .ok binding := by
    unfold ExecutionBinding.create
    simp [follows.success, follows.pre, nonempty, pure, Except.pure]
  obtain ⟨binding, made⟩ := binds
  refine ⟨binding, ?_⟩
  unfold executeForCapsule
  simp only [bind_apply, get_apply, raiseIf_apply, not_not.mpr named, follows.verified, known, root, follows.witness,
    follows.advances, Bool.true_eq_false, ne_eq, not_true_eq_false, if_false]
  rw [follows.executed]
  simp only [follows.success, follows.pre, follows.post, made, ofExcept, Bool.true_eq_false, not_true_eq_false,
    or_self, if_false]
  rfl

end DeterministicExecutor

section Rounds
variable {pair : KeyPair}

/-- A resource is at this seal, its conflicts are none and its locks are on older
seals, so that the next capsule goes through. -/
structure SoloAt (pair : KeyPair) (s : Instance) (r : String) (current : StateSeal) : Prop where
  members : s.members = (soloStart pair).members
  epoch : s.epoch = 0
  resource : current.resourceId = r
  sealEpoch : current.epoch = 0
  known : s.knownSeals.get? current.sealId = some current
  held : s.currentSeals.get? r = some current
  clean : s.conflictEvidence = .empty
  locks : ∀ k lock, s.locks.get? k = some lock → ∃ older : StateSeal, older.sealId = k ∧ older.version < current.version

/-- The capsule that carries a transaction to the given state root. -/
def roundCapsule (pair : KeyPair) (current : StateSeal) (root txId : String) : Capsule :=
  Capsule.create pair current root "identity-transition" txId 0 none

def roundClosure (pair : KeyPair) (current : StateSeal) (root txId : String) : ClosureProof :=
  MosaicProtocol.closureOver (roundCapsule pair current root txId)
    [soloReceipt pair (roundCapsule pair current root txId) "ACCEPT"]

/-- The instance after the member has accepted the capsule. -/
def roundAccepted (pair : KeyPair) (s : Instance) (current : StateSeal) (root txId : String) : Instance :=
  (s.setLock (roundCapsule pair current root txId) "ACCEPT").addSigned
    (soloReceipt pair (roundCapsule pair current root txId) "ACCEPT")

namespace SoloAt

variable {s : Instance} {r : String} {current : StateSeal}

theorem accept (ready : SoloAt pair s r current) (free : CollisionFree) (sound : SignaturesVerify) {root txId : String}
    (proper : root ≠ "") :
    (Call.witnessReceipt "w" (roundCapsule pair current root txId) "ACCEPT").exec s =
      roundAccepted pair s current root txId := by
  have valid : s.Valid (roundCapsule pair current root txId) :=
    ⟨⟨current, ready.known, ready.sealEpoch.trans ready.epoch.symm⟩, ready.sealEpoch.trans ready.epoch.symm,
      Capsule.create_verifies sound _ _ _ _ _ _ _, le_rfl, proper⟩
  have head : s.AtHead (roundCapsule pair current root txId) :=
    ⟨current, Option.bind_eq_some_iff.mpr ⟨current, ready.known, ready.resource ▸ ready.held⟩, rfl⟩
  have member : s.members.get? "w" = some (soloMember pair) := by
    rw [ready.members]
    exact Dict.get?_set_self _ _ _
  refine Call.exec_accept valid head (fun lock held => ?_) member rfl
  obtain ⟨older, same, earlier⟩ := ready.locks _ _ held
  rw [StateSeal.eq_of_sealId free same] at earlier
  exact absurd earlier (lt_irrefl _)

theorem verified (ready : SoloAt pair s r current) (sound : SignaturesVerify) (root txId : String) :
    (roundAccepted pair s current root txId).verifyClosure (roundCapsule pair current root txId)
      (roundClosure pair current root txId) = true :=
  solo_verifyClosure pair sound _ _ ready.members (ready.epoch.trans ready.sealEpoch.symm) (Dict.get?_set_self _ _ _) rfl

/-- The accepted capsule moves the resource to its next seal. -/
theorem applied (ready : SoloAt pair s r current) (sound : SignaturesVerify) (root txId : String) :
    ∃ t, Instance.apply (roundCapsule pair current root txId) (roundClosure pair current root txId)
        (roundAccepted pair s current root txId) = .ok (nextSeal current (roundCapsule pair current root txId)) t ∧
      SoloAt pair t r (nextSeal current (roundCapsule pair current root txId)) := by
  have named : current.sealId = (roundCapsule pair current root txId).predecessorId := rfl
  have verified := ready.verified sound root txId
  generalize accepted : roundAccepted pair s current root txId = u at verified
  have head : u.headOf (roundCapsule pair current root txId) = some current := by
    subst accepted
    exact Option.bind_eq_some_iff.mpr ⟨current, ready.known, ready.resource ▸ ready.held⟩
  have clean : u.hasConflictOn (roundCapsule pair current root txId).predecessorId = false := by
    simp [← accepted, roundAccepted, MosaicProtocol.hasConflictOn, ready.clean]
  have moved : ∀ t : Instance, t.members = u.members → t.epoch = u.epoch → t.conflictEvidence = u.conflictEvidence →
      t.locks = u.locks →
      SoloAt pair (t.installSeal (nextSeal current (roundCapsule pair current root txId))) r
        (nextSeal current (roundCapsule pair current root txId)) := by
    subst accepted
    intro t members epoch conflicts locks
    refine ⟨members.trans ready.members, epoch.trans ready.epoch, ready.resource, ready.sealEpoch,
      Dict.get?_set_self _ _ _, ?_, conflicts.trans ready.clean, fun k lock held => ?_⟩
    · rw [← ready.resource]
      exact Dict.get?_set_self _ _ _
    · rw [Instance.installSeal_locks, locks, roundAccepted, Instance.addSigned_toMosaicProtocol,
        Instance.setLock_locks, Dict.get?_set] at held
      split at held
      · rename_i here
        exact ⟨current, here, by simp [nextSeal]⟩
      · obtain ⟨older, same, earlier⟩ := ready.locks k lock held
        exact ⟨older, same, by simp only [nextSeal]; omega⟩
  cases closed : u.closures.get? (roundCapsule pair current root txId).capsuleId with
  | some kept => exact ⟨_, Instance.apply_installs verified closed head named, moved u rfl rfl rfl rfl⟩
  | none =>
    exact ⟨_, Instance.apply_registers verified clean closed head named, moved (u.addClosure _ _) rfl rfl rfl rfl⟩

end SoloAt

/-- The capsule of the transaction is accepted and then applied with its execution. -/
def acceptRound (pair : KeyPair) (current : StateSeal) (root txId : String) : LedgerCall :=
  .protocol (.witnessReceipt "w" (roundCapsule pair current root txId) "ACCEPT")

def applyRound (pair : KeyPair) (current : StateSeal) (root : String) (tx : ExecutionTransaction) : LedgerCall :=
  .applyExecution (roundCapsule pair current root tx.txId) (roundClosure pair current root tx.txId) tx

/-- A round goes through whenever the executor returns a receipt that fits, also an old one. -/
theorem SoloAt.round {s : Instance} {r : String} {current : StateSeal} {e next : DeterministicExecutor}
    {tx : ExecutionTransaction} {receipt : ExecutionReceipt} (ready : SoloAt pair s r current) (free : CollisionFree)
    (sound : SignaturesVerify) (proper : ∀ value, digest value ≠ "") (root : current.stateRoot = e.stateRoot)
    (executed : DeterministicExecutor.execute tx e = .ok receipt next) (success : receipt.success = true)
    (pre : receipt.preStateRoot = e.stateRoot) (advances : receipt.postStateRoot ≠ e.stateRoot)
    (post : receipt.postStateRoot ≠ "") :
    ∃ t, (applyRound pair current receipt.postStateRoot tx).exec
        ((acceptRound pair current receipt.postStateRoot tx.txId).exec ⟨s, e⟩) = ⟨t, next⟩ ∧
      SoloAt pair t r (nextSeal current (roundCapsule pair current receipt.postStateRoot tx.txId)) := by
  obtain ⟨t, applies, later⟩ := ready.applied sound receipt.postStateRoot tx.txId
  refine ⟨t, ?_, later⟩
  have accepted : (acceptRound pair current receipt.postStateRoot tx.txId).exec ⟨s, e⟩ =
      ⟨roundAccepted pair s current receipt.postStateRoot tx.txId, e⟩ := by
    rw [acceptRound, LedgerCall.exec, ready.accept free sound post]
  have follows : e.Follows next tx (roundCapsule pair current receipt.postStateRoot tx.txId)
      (roundClosure pair current receipt.postStateRoot tx.txId)
      (roundAccepted pair s current receipt.postStateRoot tx.txId).toMosaicProtocol receipt :=
    ⟨ready.verified sound _ _, rfl, ⟨current, ready.known, root⟩, advances, success, pre, rfl, executed⟩
  obtain ⟨binding, ran⟩ := DeterministicExecutor.executeForCapsule_returns follows rfl (proper _)
  have agrees : ¬ (nextSeal current (roundCapsule pair current receipt.postStateRoot tx.txId)).stateRoot ≠
      receipt.postStateRoot := not_not.mpr rfl
  rw [accepted]
  refine @final_of_ok _ _ _ _ _ _ ⟨nextSeal current (roundCapsule pair current receipt.postStateRoot tx.txId), receipt,
    binding⟩ ?_
  unfold Ledger.applyExecution Ledger.executeAndApply
  simp only [bind_apply, get_apply, Ledger.onExecutor, Ledger.onProtocol, onPart, raiseIf_apply]
  rw [ran]
  dsimp only
  rw [applies]
  dsimp only
  rw [if_neg agrees]
  rfl

theorem SoloAt.onResource {s : Instance} {r : String} {current : StateSeal} (ready : SoloAt pair s r current)
    (free : CollisionFree) (sound : SignaturesVerify) (e : DeterministicExecutor) {root : String}
    (tx : ExecutionTransaction) (proper : root ≠ "") :
    (acceptRound pair current root tx.txId).OnResource r ⟨s, e⟩ ∧
      (applyRound pair current root tx).OnResource r ((acceptRound pair current root tx.txId).exec ⟨s, e⟩) := by
  constructor
  · exact congrArg (fun d => Dict.get? d r) (@Call.Still.currentSeals _ (.witnessReceipt _ _ _) trivial s)
  · intro predecessor known
    rw [acceptRound, LedgerCall.exec, ready.accept free sound proper] at known
    cases Option.some.inj (ready.known.symm.trans known)
    exact ready.resource

/-- A run may go on with a round. -/
theorem SoloAt.round_run {start : Ledger} {s : Instance} {r : String} {current : StateSeal}
    {e next : DeterministicExecutor} {tx : ExecutionTransaction} {receipt : ExecutionReceipt}
    (run : GuardedRun LedgerCall.exec (fun ledger call => call.OnResource r ledger) start ⟨s, e⟩)
    (ready : SoloAt pair s r current) (free : CollisionFree) (sound : SignaturesVerify)
    (proper : ∀ value, digest value ≠ "") (root : current.stateRoot = e.stateRoot)
    (executed : DeterministicExecutor.execute tx e = .ok receipt next) (success : receipt.success = true)
    (pre : receipt.preStateRoot = e.stateRoot) (advances : receipt.postStateRoot ≠ e.stateRoot)
    (post : receipt.postStateRoot ≠ "") :
    ∃ t, GuardedRun LedgerCall.exec (fun ledger call => call.OnResource r ledger) start ⟨t, next⟩ ∧
      SoloAt pair t r (nextSeal current (roundCapsule pair current receipt.postStateRoot tx.txId)) := by
  obtain ⟨t, reached, later⟩ := ready.round free sound proper root executed success pre advances post
  obtain ⟨accepting, applying⟩ := ready.onResource free sound e tx post
  exact ⟨t, reached ▸ (run.tail accepting).tail applying, later⟩

namespace DeterministicExecutor

theorem stage_of_verify {e : DeterministicExecutor} {tx : ExecutionTransaction} (verified : tx.verify = .ok true)
    (few : tx.instructions.length ≤ e.maxInstructions) (nonce : tx.nonce = e.expectedNonce tx.caller) :
    e.stage tx = runInstructions tx.gasLimit tx.instructions e.state 0 [] := by
  unfold stage
  rw [verified]
  have fewer : ¬ e.maxInstructions < tx.instructions.length := not_lt.mpr few
  simp only [nonce, fewer, ne_eq, not_true_eq_false, if_false]
  rfl

end DeterministicExecutor

/-- The client writes a key and deletes it again. -/
def setTx (pair : KeyPair) : ExecutionTransaction :=
  .signed pair 0 100 [⟨"SET", .json (.str "k"), .json (.int 1)⟩]

def deleteTx (pair : KeyPair) : ExecutionTransaction :=
  .signed pair 1 100 [⟨"DELETE", .json (.str "k"), .json .null⟩]

def emptyExecutor : DeterministicExecutor := .fresh .empty 128

def writtenState : State := Dict.empty.set "k" (.int 1)

/-- What is left in the executor after the two transactions, in either order of interest. -/
structure RanTo (pair : KeyPair) (e next : DeterministicExecutor) (tx : ExecutionTransaction) (state : State)
    (nonce : Int) (receipt : ExecutionReceipt) : Prop where
  executed : DeterministicExecutor.execute tx e = .ok receipt next
  success : receipt.success = true
  pre : receipt.preStateRoot = e.stateRoot
  post : receipt.postStateRoot = computeStateRoot state
  state : next.state = state
  nonce : next.expectedNonce pair.identity = nonce
  limit : next.maxInstructions = e.maxInstructions
  receipts : next.receipts = e.receipts.set tx.txId receipt

theorem RanTo.of_stage {e : DeterministicExecutor} {tx : ExecutionTransaction} {staged : State} {gasUsed : Nat}
    {events : List Json} (caller : tx.caller = pair.identity) (new : e.receipts.get? tx.txId = none)
    (stages : e.stage tx = .ok (staged, gasUsed, events)) :
    ∃ next receipt, RanTo pair e next tx staged (e.expectedNonce pair.identity + 1) receipt := by
  refine ⟨_, _, DeterministicExecutor.execute_stages new stages, rfl, rfl, rfl, rfl, ?_, rfl, rfl⟩
  simp [DeterministicExecutor.expectedNonce, caller]

theorem setTx_runs (pair : KeyPair) (sound : SignaturesVerify) :
    ∃ next receipt, RanTo pair emptyExecutor next (setTx pair) writtenState 1 receipt := by
  have verified : (setTx pair).verify = .ok true :=
    ExecutionTransaction.signed_verify sound pair (by decide) (by decide) rfl rfl
  have few : (1 : Int) ≤ 128 := by decide
  exact RanTo.of_stage rfl rfl (DeterministicExecutor.stage_of_verify verified few rfl)

theorem deleteTx_runs {pair : KeyPair} (sound : SignaturesVerify) {e : DeterministicExecutor}
    (state : e.state = writtenState) (nonce : e.expectedNonce pair.identity = 1) (limit : e.maxInstructions = 128)
    (new : e.receipts.get? (deleteTx pair).txId = none) :
    ∃ next receipt, RanTo pair e next (deleteTx pair) (writtenState.erase "k") 2 receipt := by
  have verified : (deleteTx pair).verify = .ok true :=
    ExecutionTransaction.signed_verify sound pair (by decide) (by decide) rfl rfl
  have few : ((deleteTx pair).instructions.length : Int) ≤ e.maxInstructions := by
    rw [limit]
    exact (by decide : (1 : Int) ≤ 128)
  have stages := DeterministicExecutor.stage_of_verify verified few nonce.symm
  rw [state] at stages
  have ran : ∃ next receipt, RanTo pair e next (deleteTx pair) (writtenState.erase "k")
      (e.expectedNonce pair.identity + 1) receipt := RanTo.of_stage rfl new stages
  rwa [nonce] at ran

theorem txIds_differ (pair : KeyPair) (free : CollisionFree) : (setTx pair).txId ≠ (deleteTx pair).txId := by
  intro same
  have nonces := lookup_eq_of_digest free same "nonce"
  simp [List.lookup_cons, Json.sortKeys] at nonces

theorem roots_differ (free : CollisionFree) : computeStateRoot writtenState ≠ emptyExecutor.stateRoot := by
  intro same
  have states := lookup_eq_of_digest free same "state"
  have written : State.toSorted writtenState = .obj [("k", .int 1)] := rfl
  have empty : State.toSorted emptyExecutor.state = .obj [] := rfl
  simp [List.lookup_cons, written, empty, Json.sortKeys, sortFields] at states

/-- The first seal of the resource that the executor follows. -/
def ledgerSeal (pair : KeyPair) : StateSeal :=
  ⟨"p", 0, 0, emptyExecutor.stateRoot, digest (.str "capability"), pair.identity⟩

def ledgerStart (pair : KeyPair) : Instance := (soloStart pair).installSeal (ledgerSeal pair)

theorem ledgerStart_held (pair : KeyPair) : (ledgerStart pair).currentSeals.get? "p" = some (ledgerSeal pair) :=
  Dict.get?_set_self _ _ _

theorem ledgerStart_run (pair : KeyPair) : Run (fun _ _ => True) (soloStart pair) (ledgerStart pair) := by
  have created := (Run.start (fun _ _ => True) (soloStart pair)).call
    (.createResource "p" pair.identity emptyExecutor.stateRoot "capability") trivial
  rwa [Call.exec_createResource (by rfl)] at created

theorem ledgerStart_ready (pair : KeyPair) : SoloAt pair (ledgerStart pair) "p" (ledgerSeal pair) :=
  ⟨rfl, rfl, rfl, rfl, Dict.get?_set_self _ _ _, Dict.get?_set_self _ _ _, rfl, fun _ _ held => nomatch held⟩

/-- The first transaction goes through in step. -/
theorem firstRound_inStep (pair : KeyPair) (free : CollisionFree) (sound : SignaturesVerify)
    (proper : ∀ value, digest value ≠ "") :
    ∃ ledger, GuardedRun LedgerCall.exec (fun ledger call => call.OnResource "p" ledger ∧ call.Fresh ledger)
      ⟨ledgerStart pair, emptyExecutor⟩ ledger ∧ ledger.executor.state = writtenState := by
  obtain ⟨next, receipt, ran⟩ := setTx_runs pair sound
  have advances : receipt.postStateRoot ≠ emptyExecutor.stateRoot := ran.post ▸ roots_differ free
  have post : receipt.postStateRoot ≠ "" := ran.post ▸ proper _
  have ready := ledgerStart_ready pair
  obtain ⟨t, applied, -⟩ := ready.round free sound proper rfl ran.executed ran.success ran.pre advances post
  obtain ⟨accepting, applying⟩ := ready.onResource free sound emptyExecutor (setTx pair) post
  refine ⟨_, (GuardedRun.refl.tail ⟨accepting, trivial⟩).tail ⟨applying, fun replays => ?_⟩, ?_⟩
  · obtain ⟨earlier, cached, -⟩ := replays.cached
    cases cached
  · rw [applied]
    exact ran.state

/-- After the key is deleted the first transaction is carried by a new capsule: its
old receipt fits, and the seal moves without the executor. -/
theorem thirdRound_outOfStep (pair : KeyPair) (free : CollisionFree) (sound : SignaturesVerify)
    (proper : ∀ value, digest value ≠ "") :
    ∃ ledger, GuardedRun LedgerCall.exec (fun ledger call => call.OnResource "p" ledger)
      ⟨ledgerStart pair, emptyExecutor⟩ ledger ∧ ¬ ledger.InStep "p" := by
  obtain ⟨second, written, first⟩ := setTx_runs pair sound
  have new : second.receipts.get? (deleteTx pair).txId = none := by
    rw [first.receipts, Dict.get?_set_of_ne _ _ (txIds_differ pair free)]
    rfl
  obtain ⟨third, deleted, back⟩ := deleteTx_runs sound first.state first.nonce first.limit new
  have secondRoot : second.stateRoot = written.postStateRoot :=
    (congrArg computeStateRoot first.state).trans first.post.symm
  have thirdRoot : third.stateRoot = emptyExecutor.stateRoot := congrArg computeStateRoot back.state
  have advances : written.postStateRoot ≠ emptyExecutor.stateRoot := first.post ▸ roots_differ free
  have returns : deleted.postStateRoot = emptyExecutor.stateRoot := back.post
  have cached : third.receipts.get? (setTx pair).txId = some written := by
    rw [back.receipts, Dict.get?_set_of_ne _ _ (txIds_differ pair free).symm, first.receipts, Dict.get?_set_self]
  obtain ⟨s, run, ready⟩ := SoloAt.round_run .refl (ledgerStart_ready pair) free sound proper rfl first.executed
    first.success first.pre advances (first.post ▸ proper _)
  obtain ⟨t, run, ready⟩ := ready.round_run run free sound proper secondRoot.symm back.executed back.success back.pre
    (by rw [returns, secondRoot]; exact advances.symm) (back.post ▸ proper _)
  obtain ⟨u, run, ready⟩ := ready.round_run run free sound proper (returns.trans thirdRoot.symm)
    (DeterministicExecutor.execute_cached cached) first.success (first.pre.trans thirdRoot.symm)
    (by rwa [thirdRoot]) (first.post ▸ proper _)
  refine ⟨_, run, ?_⟩
  rintro ⟨current, held, root⟩
  cases Option.some.inj (held.symm.trans ready.held)
  exact advances (root.trans thirdRoot)

end Rounds

end Mosaic
