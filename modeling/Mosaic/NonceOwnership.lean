import Mosaic.ExactlyOnce

namespace Mosaic
open CanonicalJson Effects

/-- No error about a nonce. -/
def NoNonceError {α : Type} (x : Except PyError α) : Prop := x ≠ .error (.executionError "invalid transaction nonce")

namespace NoNonceError

variable {α β : Type}

theorem ok (a : α) : NoNonceError (.ok a) := fun same => nomatch same

theorem error {message : String} (other : message ≠ "invalid transaction nonce") :
    NoNonceError (.error (.executionError message) : Except PyError α) := by
  intro same
  cases same
  exact other rfl

theorem bind {x : Except PyError α} {f : α → Except PyError β} (first : NoNonceError x)
    (next : ∀ a, NoNonceError (f a)) : NoNonceError (x >>= f) := by
  cases x with
  | ok a => exact next a
  | error error =>
    intro same
    cases same
    exact first rfl

theorem guarded {c : Prop} [Decidable c] {x y : Except PyError α} (yes : NoNonceError x) (no : NoNonceError y) :
    NoNonceError (if c then x else y) := by
  by_cases holds : c
  · rwa [if_pos holds]
  · rwa [if_neg holds]

theorem keyText (item : ExecutionInstruction) : NoNonceError item.keyText := by
  intro raised
  unfold ExecutionInstruction.keyText attributeError at raised
  split at raised
  all_goals
    split at raised <;> simp at raised

theorem encodable (values : List Value) : NoNonceError (encodable values) := by
  intro raised
  unfold Mosaic.encodable at raised
  split at raised
  · cases raised
  · split at raised <;> cases raised

theorem validate (item : ExecutionInstruction) : NoNonceError item.validate := by
  unfold ExecutionInstruction.validate
  refine guarded (error (by decide)) (bind (keyText item) fun key => bind (encodable _) fun _ => ?_)
  exact guarded (error (by decide)) (guarded (error (by decide)) (guarded (error (by decide)) (ok key)))

theorem stepState (item : ExecutionInstruction) (key : String) (staged : State) :
    NoNonceError (DeterministicExecutor.stepState item key staged) := by
  unfold DeterministicExecutor.stepState
  refine guarded (ok _) (guarded (ok _) (guarded ?_ (ok _)))
  split
  · exact ok _
  · exact error (by decide)

/-- The instructions do not look at nonces. -/
theorem runInstructions (gasLimit : Int) (items : List ExecutionInstruction) :
    ∀ (staged : State) (gasUsed : Nat) (events : List Json),
      NoNonceError (DeterministicExecutor.runInstructions gasLimit items staged gasUsed events) := by
  induction items with
  | nil => exact fun staged gasUsed events => ok (staged, gasUsed, events)
  | cons item items ih =>
    intro staged gasUsed events
    unfold DeterministicExecutor.runInstructions
    refine bind (validate item) fun key => guarded (error (by decide)) ?_
    exact bind (stepState item key staged) fun next => ih _ _ _

end NoNonceError

variable [Crypto]

namespace ExecutionTransaction

/-- It passes `verify` under a key of that identity. -/
def SignedBy (tx : ExecutionTransaction) (c : String) : Prop :=
  tx.verify = .ok true ∧ identityFromPublicKey tx.callerPublicKey = c

/-- It names its own signer as the caller or, where it does not verify, has an
identifier that nobody has signed. `verify` asks for neither. -/
structure Sincere (tx : ExecutionTransaction) : Prop where
  caller : tx.verify = .ok true → tx.caller = identityFromPublicKey tx.callerPublicKey
  named : tx.verify = .ok false → ∀ other : ExecutionTransaction, other.verify = .ok true → other.txId ≠ tx.txId

/-- An identifier fixes the signer. -/
theorem SignedBy.of_txId (free : CollisionFree) {tx other : ExecutionTransaction} {c : String}
    (signed : other.SignedBy c) (verified : tx.verify = .ok true) (same : other.txId = tx.txId) : tx.SignedBy c := by
  obtain ⟨valid, identity⟩ := signed
  refine ⟨verified, ?_⟩
  obtain ⟨-, named⟩ := DeterministicExecutor.verify_parts verified
  obtain ⟨-, named'⟩ := DeterministicExecutor.verify_parts valid
  have statements : digest tx.statement = digest other.statement := named.symm.trans (same.symm.trans named')
  have keys := lookup_eq_of_digest free statements "caller_public_key"
  simp only [List.lookup_cons] at keys
  have hexes : hex tx.callerPublicKey = hex other.callerPublicKey := by simpa [Json.sortKeys] using keys
  rw [hex_injective hexes, identity]

/-- What `verify` raises is never an `ExecutionError`. -/
theorem verify_error {tx : ExecutionTransaction} {error : PyError} (fails : tx.verify = .error error) (message : String) :
    error ≠ .executionError message := by
  have encoder : tx.encodable = .error error := by
    unfold verify at fails
    by_cases invalid : tx.nonce < 0 ∨ tx.gasLimit ≤ 0 ∨ tx.instructions.isEmpty
    · rw [if_pos invalid] at fails
      cases fails
    rw [if_neg invalid] at fails
    cases encodes : tx.encodable with
    | error found =>
      rw [encodes] at fails
      cases fails
      rfl
    | ok =>
      rw [encodes] at fails
      cases fails
  rintro rfl
  unfold encodable Mosaic.encodable at encoder
  split at encoder
  · cases encoder
  · split at encoder <;> cases encoder

end ExecutionTransaction

/-- The transactions that a call executes. -/
def ExecutorCall.transactions : ExecutorCall → List ExecutionTransaction
  | .execute tx => [tx]
  | .executeForCapsule tx _ _ _ => [tx]
  | .executeBatch txs => txs

/-- Every transaction that has no receipt yet is sincere. -/
def ExecutorCall.Sincere (e : DeterministicExecutor) (call : ExecutorCall) : Prop :=
  ∀ tx ∈ call.transactions, e.receipts.get? tx.txId = none → tx.Sincere

/-- Nothing in the call is signed by the caller. -/
def ExecutorCall.Foreign (c : String) (call : ExecutorCall) : Prop := ∀ tx ∈ call.transactions, ¬ tx.SignedBy c

namespace DeterministicExecutor

variable {e mid next : DeterministicExecutor} {tx : ExecutionTransaction} {txs others : List ExecutionTransaction}

/-- Nonces that move and receipts that appear are due to transactions of the list
which the caller in question has signed. -/
structure Attributed (txs : List ExecutionTransaction) (e next : DeterministicExecutor) : Prop where
  nonces : ∀ c, next.nonces.get? c ≠ e.nonces.get? c → ∃ tx ∈ txs, tx.SignedBy c ∧ tx.caller = c
  receipts : ∀ c (other : ExecutionTransaction), other.SignedBy c →
    next.receipts.get? other.txId ≠ e.receipts.get? other.txId → ∃ tx ∈ txs, tx.SignedBy c ∧ tx.txId = other.txId

theorem Attributed.refl (txs : List ExecutionTransaction) (e : DeterministicExecutor) : Attributed txs e e :=
  ⟨fun _ moved => absurd rfl moved, fun _ _ _ moved => absurd rfl moved⟩

/-- Nothing is left of what happened in between. -/
theorem Attributed.restoring (txs : List ExecutionTransaction) (e mid : DeterministicExecutor) :
    Attributed txs e (e.restoring mid) :=
  ⟨fun _ moved => absurd rfl moved, fun _ _ _ moved => absurd rfl moved⟩

theorem Attributed.trans (first : Attributed txs e mid) (second : Attributed others mid next) :
    Attributed (txs ++ others) e next := by
  constructor
  · intro c moved
    by_cases early : mid.nonces.get? c = e.nonces.get? c
    · obtain ⟨tx, member, signed⟩ := second.nonces c (early ▸ moved)
      exact ⟨tx, List.mem_append_right _ member, signed⟩
    · obtain ⟨tx, member, signed⟩ := first.nonces c early
      exact ⟨tx, List.mem_append_left _ member, signed⟩
  · intro c other signed moved
    by_cases early : mid.receipts.get? other.txId = e.receipts.get? other.txId
    · obtain ⟨tx, member, found⟩ := second.receipts c other signed (early ▸ moved)
      exact ⟨tx, List.mem_append_right _ member, found⟩
    · obtain ⟨tx, member, found⟩ := first.receipts c other signed early
      exact ⟨tx, List.mem_append_left _ member, found⟩

/-- A receipt under an identifier that nobody else has signed. -/
theorem attributed_receipts (own : ∀ c (other : ExecutionTransaction), other.SignedBy c → other.txId = tx.txId → tx.SignedBy c)
    (receipt : ExecutionReceipt) (c : String) (other : ExecutionTransaction) (signed : other.SignedBy c)
    (moved : (e.record tx receipt).receipts.get? other.txId ≠ e.receipts.get? other.txId) :
    ∃ found ∈ [tx], found.SignedBy c ∧ found.txId = other.txId := by
  rw [get?_record] at moved
  by_cases same : tx.txId = other.txId
  · exact ⟨tx, List.mem_singleton_self tx, own c other signed same.symm, same⟩
  · rw [if_neg same] at moved
    exact absurd rfl moved

theorem execute_unverifiable {error : PyError} (fails : tx.verify = .error error) : final (execute tx) e = e := by
  cases cached : e.receipts.get? tx.txId with
  | some receipt => exact final_of_ok (execute_cached cached)
  | none =>
    have staged : e.stage tx = .error error := by
      unfold stage
      rw [fails]
      rfl
    have ran : execute tx e = .error error e := by
      unfold execute
      rw [bind_apply, get_apply]
      simp only [cached, staged]
      cases error with
      | executionError message => exact absurd rfl (ExecutionTransaction.verify_error fails message)
      | _ => rfl
    exact final_of_error ran

theorem execute_attributed (free : CollisionFree) (sincere : e.receipts.get? tx.txId = none → tx.Sincere) :
    Attributed [tx] e (final (execute tx) e) := by
  cases verified : tx.verify with
  | error error =>
    rw [execute_unverifiable verified]
    exact .refl _ _
  | ok accepted =>
    have own : e.receipts.get? tx.txId = none → ∀ c (other : ExecutionTransaction), other.SignedBy c →
        other.txId = tx.txId → tx.SignedBy c := by
      intro new c other signed same
      cases accepted with
      | true => exact signed.of_txId free verified same
      | false => exact absurd same ((sincere new).named verified other signed.1)
    have executes := execute_executes e tx
    generalize final (execute tx) e = next at executes
    cases executes with
    | nothing => exact .refl _ _
    | failed receipt new fails => exact ⟨fun _ moved => absurd rfl moved, attributed_receipts (own new) receipt⟩
    | took state receipt new verified inOrder succeeds =>
      refine ⟨fun c moved => ?_, attributed_receipts (own new) receipt⟩
      have caller := (sincere new).caller verified
      by_cases same : tx.caller = c
      · exact ⟨tx, List.mem_singleton_self tx, ⟨verified, caller.symm.trans same⟩, same⟩
      · exact absurd (Dict.get?_set_of_ne _ _ same) moved

/-- Receipts are not lost. -/
theorem execute_keeps (e : DeterministicExecutor) (tx : ExecutionTransaction) {id : String}
    (new : (final (execute tx) e).receipts.get? id = none) : e.receipts.get? id = none := by
  have recorded : ∀ (before : DeterministicExecutor) (receipt : ExecutionReceipt),
      (before.record tx receipt).receipts.get? id = none → before.receipts.get? id = none := by
    intro before receipt none
    rw [get?_record] at none
    by_cases same : tx.txId = id
    · rw [if_pos same] at none
      cases none
    · rwa [if_neg same] at none
  have executes := execute_executes e tx
  generalize final (execute tx) e = next at executes new
  cases executes with
  | nothing => exact new
  | failed receipt _ _ => exact recorded e receipt new
  | took state receipt _ _ _ _ => exact recorded _ receipt new

theorem executeAll_attributed (free : CollisionFree) (txs : List ExecutionTransaction) :
    ∀ {e : DeterministicExecutor}, (∀ tx ∈ txs, e.receipts.get? tx.txId = none → tx.Sincere) →
      Attributed txs e (final (executeAll txs) e) := by
  induction txs with
  | nil => exact fun {e} _ => .refl [] e
  | cons tx txs ih =>
    intro e sincere
    have first := execute_attributed free (sincere tx List.mem_cons_self)
    have later : ∀ other ∈ txs, (final (execute tx) e).receipts.get? other.txId = none → other.Sincere :=
      fun other member new => sincere other (List.mem_cons_of_mem tx member) (execute_keeps e tx new)
    unfold executeAll
    cases ran : execute tx e with
    | error error mid =>
      rw [final_of_error ran] at first
      rw [final_bind_of_error ran]
      exact first.trans (.refl txs mid)
    | ok receipt mid =>
      rw [final_of_ok ran] at first later
      have rest := ih later
      rw [final_bind_of_ok ran]
      cases more : executeAll txs mid with
      | error error last =>
        rw [final_of_error more] at rest
        rw [final_bind_of_error more]
        exact first.trans rest
      | ok receipts last =>
        rw [final_of_ok more] at rest
        rw [final_bind_of_ok more]
        exact first.trans rest

/-- The batch stays as `executeAll` left it, is taken back or was empty. -/
theorem executeBatch_cases (e : DeterministicExecutor) (txs : List ExecutionTransaction) :
    final (executeBatch txs) e = e ∨ final (executeBatch txs) e = final (executeAll txs) e ∨
      ∃ mid, final (executeBatch txs) e = e.restoring mid := by
  unfold executeBatch
  by_cases empty : txs.isEmpty = true
  · exact Or.inl (final_of_error (raiseIf_bind_pos empty _ _ _))
  have passed : (raiseIf (txs.isEmpty = true) (.executionError "empty execution batch") : Execution PUnit) e = .ok ⟨⟩ e :=
    raiseIf_eq_ok.mpr ⟨empty, rfl⟩
  rw [final_bind_of_ok passed, final_bind_of_ok (get_apply e)]
  refine Or.inr ?_
  cases ran : executeAll txs e with
  | error error mid =>
    rw [final_bind_of_error ran]
    exact Or.inl (final_of_error ran).symm
  | ok receipts mid =>
    rw [final_bind_of_ok ran]
    by_cases success : receipts.all (·.success) = true
    · rw [if_pos success]
      exact Or.inl (final_of_ok ran).symm
    · rw [if_neg success]
      exact Or.inr ⟨mid, rfl⟩

end DeterministicExecutor

open DeterministicExecutor in
theorem ExecutorCall.exec_attributed (free : CollisionFree) {e : DeterministicExecutor} {call : ExecutorCall}
    (sincere : call.Sincere e) : Attributed call.transactions e (call.exec e) := by
  cases call with
  | execute tx => exact execute_attributed free (sincere tx (List.mem_singleton_self tx))
  | executeForCapsule tx capsule closure s =>
    have exec : ExecutorCall.exec (.executeForCapsule tx capsule closure s) e =
        final (DeterministicExecutor.executeForCapsule tx capsule closure s) e := rfl
    rcases (executeForCapsule_leaves e tx capsule closure s).moves with same | executed | ⟨mid, restored⟩
    · rw [exec, same]
      exact .refl _ e
    · rw [exec, executed]
      exact execute_attributed free (sincere tx (List.mem_singleton_self tx))
    · rw [exec, restored]
      exact .restoring _ e mid
  | executeBatch txs =>
    have exec : ExecutorCall.exec (.executeBatch txs) e = final (DeterministicExecutor.executeBatch txs) e := rfl
    rcases executeBatch_cases e txs with same | executed | ⟨mid, restored⟩
    · rw [exec, same]
      exact .refl _ e
    · rw [exec, executed]
      exact executeAll_attributed free txs sincere
    · rw [exec, restored]
      exact .restoring _ e mid

namespace DeterministicExecutor

variable {e next : DeterministicExecutor} {tx : ExecutionTransaction} {receipt : ExecutionReceipt}

theorem stage_noNonceError (verified : tx.verify = .ok true) (inSequence : tx.nonce = e.expectedNonce tx.caller) :
    NoNonceError (e.stage tx) := by
  unfold stage
  rw [verified]
  refine NoNonceError.guarded (NoNonceError.error (by decide)) ?_
  rw [if_neg (not_not.mpr inSequence)]
  exact NoNonceError.runInstructions _ _ _ _ _

/-- It gets a receipt of its own, which does not complain about the nonce. -/
theorem execute_inSequence (verified : tx.verify = .ok true) (inSequence : tx.nonce = e.expectedNonce tx.caller)
    (new : e.receipts.get? tx.txId = none) (ran : execute tx e = .ok receipt next) :
    receipt.error ≠ some "invalid transaction nonce" ∧ next.receipts.get? tx.txId = some receipt := by
  have quiet := stage_noNonceError verified inSequence
  cases staged : e.stage tx with
  | ok result =>
    obtain ⟨state, gasUsed, events⟩ := result
    rw [execute_stages new staged] at ran
    cases ran
    exact ⟨nofun, Dict.get?_set_self _ _ _⟩
  | error error =>
    unfold execute at ran
    rw [bind_apply, get_apply] at ran
    simp only [new, staged] at ran
    cases error with
    | executionError message =>
      cases ran
      refine ⟨fun complains => quiet ?_, Dict.get?_set_self _ _ _⟩
      rw [staged, Option.some.inj complains]
    | _ => cases ran

end DeterministicExecutor

open DeterministicExecutor

/-- Where the transactions are sincere, only those that a caller has signed move
its nonce or put receipts under the identifiers of its transactions. Whatever
others execute, its next transaction gets a receipt of its own and no complaint
about the nonce. -/
theorem nonces_owned (free : CollisionFree) (c : String) :
    (∀ (e : DeterministicExecutor) (call : ExecutorCall), call.Sincere e →
      Attributed call.transactions e (call.exec e)) ∧
    ∀ e e' : DeterministicExecutor,
      GuardedRun ExecutorCall.exec (fun e call => call.Sincere e ∧ call.Foreign c) e e' →
        e'.nonces.get? c = e.nonces.get? c ∧ ∀ tx : ExecutionTransaction, tx.SignedBy c →
          e'.receipts.get? tx.txId = e.receipts.get? tx.txId ∧
          (tx.caller = c → tx.nonce = e.expectedNonce c → e.receipts.get? tx.txId = none →
            ∀ receipt next, execute tx e' = .ok receipt next →
              receipt.error ≠ some "invalid transaction nonce" ∧ next.receipts.get? tx.txId = some receipt) := by
  refine ⟨fun e call sincere => call.exec_attributed free sincere, fun e e' run => ?_⟩
  have nonces : e'.nonces.get? c = e.nonces.get? c := by
    refine run.invariant (P := fun t => t.nonces.get? c = e.nonces.get? c) rfl fun t call allowed before => ?_
    by_contra moved
    obtain ⟨tx, member, signed, -⟩ := (call.exec_attributed free allowed.1).nonces c (before ▸ moved)
    exact allowed.2 tx member signed
  refine ⟨nonces, fun tx signed => ?_⟩
  have receipts : e'.receipts.get? tx.txId = e.receipts.get? tx.txId := by
    refine run.invariant (P := fun t => t.receipts.get? tx.txId = e.receipts.get? tx.txId) rfl
      fun t call allowed before => ?_
    by_contra moved
    obtain ⟨other, member, signed', -⟩ :=
      (call.exec_attributed free allowed.1).receipts c tx signed (before ▸ moved)
    exact allowed.2 other member signed'
  refine ⟨receipts, fun caller inSequence new receipt next ran => ?_⟩
  have expected : e'.expectedNonce c = e.expectedNonce c := by
    unfold DeterministicExecutor.expectedNonce
    rw [nonces]
  refine execute_inSequence signed.1 ?_ (receipts.trans new) ran
  rw [caller, expected, inSequence]

/-- A second key. -/
def otherIdealKey : @KeyPair Crypto.ideal := @KeyPair.mk Crypto.ideal [2]

omit [Crypto] in
theorem ideal_identities_differ : @KeyPair.identity Crypto.ideal otherIdealKey ≠ @KeyPair.identity Crypto.ideal idealKey := by
  decide

theorem setTx_verify (pair : KeyPair) (sound : SignaturesVerify) : (setTx pair).verify = .ok true :=
  ExecutionTransaction.signed_verify sound pair (by decide) (by decide) rfl rfl

/-- Another client executes first. -/
theorem setTx_foreign (pair other : KeyPair) (sound : SignaturesVerify) (differ : other.identity ≠ pair.identity) :
    ∃ e, GuardedRun ExecutorCall.exec (fun e call => call.Sincere e ∧ call.Foreign pair.identity) emptyExecutor e ∧
      e.expectedNonce other.identity = 1 := by
  obtain ⟨next, receipt, ran⟩ := setTx_runs other sound
  have sincere : (setTx other).Sincere := ⟨fun _ => rfl, fun fails => by rw [setTx_verify other sound] at fails; cases fails⟩
  have allowed : ExecutorCall.Sincere emptyExecutor (.execute (setTx other)) ∧
      ExecutorCall.Foreign pair.identity (.execute (setTx other)) := by
    constructor
    · intro tx member _
      rwa [List.mem_singleton.mp member]
    · intro tx member signed
      rw [List.mem_singleton.mp member] at signed
      exact differ signed.2
  have executed : ExecutorCall.exec (.execute (setTx other)) emptyExecutor = next := final_of_ok ran.executed
  exact ⟨next, executed ▸ GuardedRun.refl.tail allowed, ran.nonce⟩

omit [Crypto] in
/-- The first transaction of one client after that of another. -/
theorem nonces_owned_pair : let _ := Crypto.ideal
    ∃ e : DeterministicExecutor, e.expectedNonce otherIdealKey.identity = 1 ∧ (setTx idealKey).verify = .ok true ∧
      ∀ receipt next, execute (setTx idealKey) e = .ok receipt next →
        receipt.error ≠ some "invalid transaction nonce" ∧ next.receipts.get? (setTx idealKey).txId = some receipt := by
  intro _
  obtain ⟨e, run, nonce⟩ := setTx_foreign idealKey otherIdealKey ideal_signaturesVerify ideal_identities_differ
  have verified := setTx_verify idealKey ideal_signaturesVerify
  obtain ⟨-, own⟩ := (nonces_owned ideal_collisionFree idealKey.identity).2 emptyExecutor e run
  exact ⟨e, nonce, verified, (own (setTx idealKey) ⟨verified, rfl⟩).2 rfl rfl rfl⟩

/-- Its content as it stands, signed by some key. -/
def ExecutionTransaction.resign (tx : ExecutionTransaction) (key : KeyPair) : ExecutionTransaction :=
  { tx with
    txId := digest tx.statement
    signature := key.sign (canonicalBytes tx.statement) }

theorem ExecutionTransaction.resign_verify (sound : SignaturesVerify) {tx : ExecutionTransaction} {key : KeyPair}
    (natural : 0 ≤ tx.nonce) (positive : 0 < tx.gasLimit) (nonempty : tx.instructions.isEmpty = false)
    (encodes : tx.encodable = .ok ()) (own : tx.callerPublicKey = key.publicKey) :
    (tx.resign key).verify = .ok true := by
  have signature : KeyPair.verify tx.callerPublicKey (canonicalBytes tx.statement)
      (key.sign (canonicalBytes tx.statement)) = true := own ▸ KeyPair.verify_sign sound key _
  exact verify_of_signature natural positive nonempty encodes rfl signature

/-- Signed by one client in the name of another. -/
def spoofedTx (pair other : KeyPair) : ExecutionTransaction :=
  ExecutionTransaction.resign { setTx other with caller := pair.identity } other

theorem spoofedTx_verify (pair other : KeyPair) (sound : SignaturesVerify) : (spoofedTx pair other).verify = .ok true :=
  ExecutionTransaction.resign_verify sound (by decide : (0 : Int) ≤ 0) (by decide : (0 : Int) < 100) rfl rfl rfl

/-- The nonce of the client in whose name it is moves. -/
theorem spoofedTx_moves (pair other : KeyPair) (sound : SignaturesVerify) :
    (ExecutorCall.exec (.execute (spoofedTx pair other)) emptyExecutor).nonces.get? pair.identity = some 1 := by
  have verified := spoofedTx_verify pair other sound
  have few : ((spoofedTx pair other).instructions.length : Int) ≤ emptyExecutor.maxInstructions :=
    (by decide : (1 : Int) ≤ 128)
  have executed := execute_stages (e := emptyExecutor) rfl (stage_of_verify verified few rfl)
  have exec : ExecutorCall.exec (.execute (spoofedTx pair other)) emptyExecutor = _ := final_of_ok executed
  rw [exec]
  exact Dict.get?_set_self _ _ _

/-- A transaction of the client whose content no longer fits its identifier. -/
def brokenTx (pair : KeyPair) : ExecutionTransaction := { setTx pair with nonce := -1 }

theorem brokenTx_blocks (pair : KeyPair) : ∃ receipt : ExecutionReceipt, receipt.success = false ∧
    (ExecutorCall.exec (.execute (brokenTx pair)) emptyExecutor).receipts.get? (setTx pair).txId = some receipt := by
  exact ⟨_, rfl, Dict.get?_set_self _ _ _⟩

omit [Crypto] in
/-- A nonce moves without a transaction of its caller, and a transaction that does
not verify takes the place of the one whose identifier it has. -/
theorem nonces_not_owned : let _ := Crypto.ideal
    (¬ ∀ (call : ExecutorCall) (c : String), (call.exec emptyExecutor).nonces.get? c ≠ emptyExecutor.nonces.get? c →
      ∃ tx ∈ call.transactions, tx.SignedBy c) ∧
    ¬ ∀ (call : ExecutorCall) (c : String) (tx : ExecutionTransaction), tx.SignedBy c →
      (call.exec emptyExecutor).receipts.get? tx.txId ≠ emptyExecutor.receipts.get? tx.txId →
        ∃ found ∈ call.transactions, found.SignedBy c := by
  intro _
  constructor
  · intro claim
    have moved := spoofedTx_moves idealKey otherIdealKey ideal_signaturesVerify
    obtain ⟨tx, member, signed⟩ := claim (.execute (spoofedTx idealKey otherIdealKey)) idealKey.identity (by
      rw [moved]
      exact nofun)
    rw [List.mem_singleton.mp member] at signed
    exact ideal_identities_differ signed.2
  · intro claim
    obtain ⟨receipt, -, blocks⟩ := brokenTx_blocks idealKey
    obtain ⟨tx, member, signed⟩ := claim (.execute (brokenTx idealKey)) idealKey.identity (setTx idealKey)
      ⟨setTx_verify idealKey ideal_signaturesVerify, rfl⟩ (by
        rw [blocks]
        exact nofun)
    rw [List.mem_singleton.mp member] at signed
    cases signed.1

end Mosaic
