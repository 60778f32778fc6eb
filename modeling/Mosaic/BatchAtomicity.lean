import Mosaic.NonceOwnership

namespace Mosaic
open CanonicalJson Effects

variable [Crypto]

namespace DeterministicExecutor

variable {e mid next : DeterministicExecutor} {tx : ExecutionTransaction} {txs : List ExecutionTransaction}
  {receipt : ExecutionReceipt} {receipts : List ExecutionReceipt}

/-- The transactions one after the other, none of which raises. -/
inductive Executed : DeterministicExecutor → List ExecutionTransaction → List ExecutionReceipt →
    DeterministicExecutor → Prop
  | nil {e : DeterministicExecutor} : Executed e [] [] e
  | cons {e mid next : DeterministicExecutor} {tx : ExecutionTransaction} {txs : List ExecutionTransaction}
      {receipt : ExecutionReceipt} {receipts : List ExecutionReceipt} (first : execute tx e = .ok receipt mid)
      (rest : Executed mid txs receipts next) : Executed e (tx :: txs) (receipt :: receipts) next

/-- The transaction has no receipt, and staging it fails with an error that is no
execution error. -/
structure Escapes (e : DeterministicExecutor) (tx : ExecutionTransaction) : Prop where
  new : e.receipts.get? tx.txId = none
  foreign : ∃ error, e.stage tx = .error error ∧ ∀ message, error ≠ .executionError message

theorem Escapes.raises (escapes : e.Escapes tx) : ∃ error, execute tx e = .error error e := by
  obtain ⟨new, error, staged, foreign⟩ := escapes
  refine ⟨error, ?_⟩
  unfold execute
  rw [get_bind_apply]
  simp only [new, staged]
  cases error with
  | executionError message => exact absurd rfl (foreign message)
  | _ => rfl

theorem execute_raises {error : PyError} (raised : execute tx e = .error error next) : next = e ∧ e.Escapes tx := by
  unfold execute at raised
  rw [get_bind_apply] at raised
  cases cached : e.receipts.get? tx.txId with
  | some receipt =>
    rw [cached] at raised
    cases raised
  | none =>
    rw [cached] at raised
    dsimp only at raised
    cases staged : e.stage tx with
    | ok result =>
      rw [staged] at raised
      cases raised
    | error error =>
      rw [staged] at raised
      cases error with
      | executionError message => cases raised
      | _ =>
        cases raised
        exact ⟨rfl, cached, _, staged, fun _ same => nomatch same⟩

theorem executeAll_returns (returned : executeAll txs e = .ok receipts next) : Executed e txs receipts next := by
  induction txs generalizing e receipts with
  | nil =>
    cases returned
    exact .nil
  | cons tx txs ih =>
    unfold executeAll at returned
    obtain ⟨receipt, mid, first, returned⟩ := bind_eq_ok.mp returned
    obtain ⟨later, last, rest, returned⟩ := bind_eq_ok.mp returned
    cases returned
    exact .cons first (ih rest)

/-- Some transaction escapes after those before it were executed. -/
def Interrupted (e : DeterministicExecutor) (txs earlier : List ExecutionTransaction) (mid : DeterministicExecutor) : Prop :=
  ∃ receipts tx later, txs = earlier ++ tx :: later ∧ Executed e earlier receipts mid ∧ mid.Escapes tx

theorem executeAll_raises {error : PyError} (raised : executeAll txs e = .error error next) :
    ∃ earlier, e.Interrupted txs earlier next := by
  induction txs generalizing e with
  | nil => cases raised
  | cons tx txs ih =>
    unfold executeAll at raised
    cases first : execute tx e with
    | error error mid =>
      rw [bind_of_error first] at raised
      cases raised
      obtain ⟨rfl, escapes⟩ := execute_raises first
      exact ⟨[], [], tx, txs, rfl, .nil, escapes⟩
    | ok receipt mid =>
      rw [bind_of_ok first] at raised
      cases rest : executeAll txs mid with
      | ok receipts last =>
        rw [bind_of_ok rest] at raised
        cases raised
      | error error last =>
        rw [bind_of_error rest] at raised
        cases raised
        obtain ⟨earlier, receipts, other, later, split, executed, escapes⟩ := ih rest
        exact ⟨tx :: earlier, receipt :: receipts, other, later, by rw [split, List.cons_append],
          .cons first executed, escapes⟩

theorem Interrupted.executeAll {earlier : List ExecutionTransaction} (interrupted : e.Interrupted txs earlier mid) :
    ∃ error, executeAll txs e = .error error mid := by
  obtain ⟨receipts, tx, later, rfl, executed, escapes⟩ := interrupted
  induction executed with
  | nil =>
    obtain ⟨error, raised⟩ := escapes.raises
    unfold DeterministicExecutor.executeAll
    exact ⟨error, bind_of_error raised⟩
  | cons first rest ih =>
    obtain ⟨error, raised⟩ := ih escapes
    rw [List.cons_append]
    unfold DeterministicExecutor.executeAll
    exact ⟨error, (bind_of_ok first).trans (bind_of_error raised)⟩

theorem execute_records (returned : execute tx e = .ok receipt next) : next.receipts.get? tx.txId = some receipt := by
  unfold execute at returned
  rw [get_bind_apply] at returned
  cases cached : e.receipts.get? tx.txId with
  | some earlier =>
    rw [cached] at returned
    cases returned
    exact cached
  | none =>
    rw [cached] at returned
    dsimp only at returned
    cases staged : e.stage tx with
    | ok result =>
      rw [staged] at returned
      cases returned
      exact Dict.get?_set_self _ _ _
    | error error =>
      rw [staged] at returned
      cases error <;> cases returned
      exact Dict.get?_set_self _ _ _

theorem Executed.keeps {id : String} (executed : Executed e txs receipts next)
    (recorded : e.receipts.get? id ≠ none) : next.receipts.get? id ≠ none := by
  induction executed with
  | nil => exact recorded
  | cons first rest ih =>
    refine ih fun none => recorded ?_
    exact execute_keeps _ _ ((final_of_ok first).symm ▸ none)

/-- Whatever was executed has a receipt afterwards. -/
theorem Executed.recorded (executed : Executed e txs receipts next) :
    ∀ tx ∈ txs, next.receipts.get? tx.txId ≠ none := by
  induction executed with
  | nil => exact fun tx member => nomatch member
  | cons first rest ih =>
    intro tx member
    rcases List.mem_cons.mp member with rfl | later
    · refine rest.keeps ?_
      rw [execute_records first]
      exact Option.some_ne_none _
    · exact ih tx later

/-- Transactions that all have receipts change nothing. -/
theorem Executed.cached (executed : Executed e txs receipts next)
    (recorded : ∀ tx ∈ txs, ∃ receipt, e.receipts.get? tx.txId = some receipt) : next = e := by
  induction executed with
  | nil => rfl
  | cons first rest ih =>
    obtain ⟨receipt, found⟩ := recorded _ List.mem_cons_self
    cases (execute_cached found).symm.trans first
    exact ih fun tx member => recorded tx (List.mem_cons_of_mem _ member)

/-- The dictionaries that an executor works on are the same. -/
structure SameDictionaries (e next : DeterministicExecutor) : Prop where
  state : next.state = e.state
  nonces : next.nonces = e.nonces
  receipts : next.receipts = e.receipts

/-- The batch returns when all of it succeeds, one transaction after the other, and
raises with the dictionaries as they were. -/
structure AllOrNothing (e : DeterministicExecutor) (txs : List ExecutionTransaction) : Prop where
  returns : ∀ receipts next, executeBatch txs e = .ok receipts next →
    Executed e txs receipts next ∧ ∀ receipt ∈ receipts, receipt.success = true
  raises : ∀ error next, executeBatch txs e = .error error next → e.SameDictionaries next

theorem executeBatch_of_empty : ∃ error, executeBatch [] e = .error error e :=
  ⟨_, raiseIf_bind_pos rfl _ _ _⟩

theorem executeBatch_eq (given : txs ≠ []) : executeBatch txs e = (do
    let receipts ← executeAll txs
    if receipts.all (·.success) then return receipts
    else do
      modify e.restoring
      throw (.executionError "execution batch reverted atomically") : Execution (List ExecutionReceipt)) e := by
  unfold executeBatch
  rw [raiseIf_bind_neg (by simpa using given), get_bind_apply]

theorem executeBatch_returns (returned : executeBatch txs e = .ok receipts next) :
    Executed e txs receipts next ∧ ∀ receipt ∈ receipts, receipt.success = true := by
  have given : txs ≠ [] := by
    rintro rfl
    obtain ⟨error, raised⟩ := @executeBatch_of_empty _ e
    cases raised.symm.trans returned
  rw [executeBatch_eq given] at returned
  obtain ⟨all, mid, ran, returned⟩ := bind_eq_ok.mp returned
  by_cases success : all.all (·.success) = true
  · rw [if_pos success] at returned
    cases returned
    exact ⟨executeAll_returns ran, by simpa using success⟩
  · rw [if_neg success] at returned
    cases returned

/-- A batch raises with everything taken back, or where it was interrupted. -/
theorem executeBatch_raises {error : PyError} (raised : executeBatch txs e = .error error next) :
    e.SameDictionaries next ∨ ∃ earlier, e.Interrupted txs earlier next := by
  by_cases given : txs = []
  · subst given
    obtain ⟨error, refused⟩ := @executeBatch_of_empty _ e
    cases refused.symm.trans raised
    exact Or.inl ⟨rfl, rfl, rfl⟩
  rw [executeBatch_eq given] at raised
  cases ran : executeAll txs e with
  | error error mid =>
    rw [bind_of_error ran] at raised
    cases raised
    exact Or.inr (executeAll_raises ran)
  | ok all mid =>
    rw [bind_of_ok ran] at raised
    by_cases success : all.all (·.success) = true
    · rw [if_pos success] at raised
      cases raised
    · rw [if_neg success] at raised
      cases raised
      exact Or.inl ⟨rfl, rfl, rfl⟩

theorem Interrupted.executeBatch {earlier : List ExecutionTransaction} (interrupted : e.Interrupted txs earlier mid) :
    ∃ error, executeBatch txs e = .error error mid := by
  have given : txs ≠ [] := by
    obtain ⟨receipts, tx, later, rfl, -⟩ := interrupted
    simp
  obtain ⟨error, raised⟩ := interrupted.executeAll
  exact ⟨error, by rw [executeBatch_eq given, bind_of_error raised]⟩

/-- A transaction that was executed before the interruption stays, unless it had its
receipt already. -/
theorem Interrupted.differs {earlier : List ExecutionTransaction} (interrupted : e.Interrupted txs earlier mid)
    (installed : ∃ tx ∈ earlier, e.receipts.get? tx.txId = none) : ¬ e.SameDictionaries mid := by
  obtain ⟨tx, member, new⟩ := installed
  obtain ⟨receipts, -, -, -, executed, -⟩ := interrupted
  intro same
  exact executed.recorded tx member (same.receipts ▸ new)

/-- A batch is all or nothing where only transactions that have their receipts come
before one that escapes. -/
theorem batch_all_or_nothing_iff (e : DeterministicExecutor) (txs : List ExecutionTransaction) :
    e.AllOrNothing txs ↔ ∀ earlier mid, e.Interrupted txs earlier mid →
      ∀ tx ∈ earlier, ∃ receipt, e.receipts.get? tx.txId = some receipt := by
  constructor
  · intro atomic earlier mid interrupted tx member
    by_contra new
    have new : e.receipts.get? tx.txId = none := by
      rw [Option.eq_none_iff_forall_ne_some]
      exact fun receipt found => new ⟨receipt, found⟩
    obtain ⟨error, raised⟩ := interrupted.executeBatch
    exact interrupted.differs ⟨tx, member, new⟩ (atomic.raises error mid raised)
  · intro recorded
    refine ⟨fun receipts next => executeBatch_returns, fun error next raised => ?_⟩
    rcases executeBatch_raises raised with same | ⟨earlier, interrupted⟩
    · exact same
    · have found := recorded earlier next interrupted
      obtain ⟨receipts, tx, later, -, executed, -⟩ := interrupted
      obtain rfl := executed.cached found
      exact ⟨rfl, rfl, rfl⟩

end DeterministicExecutor
open DeterministicExecutor

/-- A transaction whose key is no text that can be encoded. -/
def surrogateTx : ExecutionTransaction where
  txId := ""
  caller := "client"
  callerPublicKey := []
  nonce := 0
  gasLimit := 100
  instructions := [⟨"SET", .notUtf8 "str", .json .null⟩]
  signature := []

theorem surrogateTx_escapes {e : DeterministicExecutor} (new : e.receipts.get? "" = none) : e.Escapes surrogateTx :=
  ⟨new, .unicodeEncodeError, rfl, fun _ same => nomatch same⟩

/-- The transaction before it stays in the executor. -/
theorem surrogateTx_interrupts (pair : KeyPair) (sound : SignaturesVerify) (named : ∀ value, digest value ≠ "") :
    ¬ emptyExecutor.AllOrNothing [setTx pair, surrogateTx] := by
  obtain ⟨next, receipt, ran⟩ := setTx_runs pair sound
  have other : (setTx pair).txId ≠ "" := named _
  have new : next.receipts.get? "" = none := by
    rw [ran.receipts, Dict.get?_set_of_ne _ _ other]
    rfl
  have interrupted : emptyExecutor.Interrupted [setTx pair, surrogateTx] [setTx pair] next :=
    ⟨[receipt], surrogateTx, [], rfl, .cons ran.executed .nil, surrogateTx_escapes new⟩
  intro atomic
  obtain ⟨error, raised⟩ := interrupted.executeBatch
  exact interrupted.differs ⟨setTx pair, List.mem_singleton_self _, rfl⟩ (atomic.raises error next raised)

omit [Crypto] in
theorem batch_interrupted : ¬ ∀ [Crypto], CollisionFree → SignaturesVerify →
    ∀ (e : DeterministicExecutor) (txs : List ExecutionTransaction), e.AllOrNothing txs := by
  intro claim
  exact @surrogateTx_interrupts Crypto.ideal idealKey ideal_signaturesVerify ideal_digest_named
    (@claim Crypto.ideal ideal_collisionFree ideal_signaturesVerify _ _)

end Mosaic
