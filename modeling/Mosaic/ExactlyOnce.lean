import Mathlib.Data.Set.Card
import Mosaic.ExecutorInStep

namespace Mosaic
open CanonicalJson Effects

variable [Crypto]

/-- A call on an executor. -/
inductive ExecutorCall
  | execute (tx : ExecutionTransaction)
  | executeForCapsule (tx : ExecutionTransaction) (capsule : Capsule) (closure : ClosureProof) (s : MosaicProtocol)
  | executeBatch (txs : List ExecutionTransaction)

def ExecutorCall.exec : ExecutorCall → DeterministicExecutor → DeterministicExecutor
  | .execute tx, e => final (DeterministicExecutor.execute tx) e
  | .executeForCapsule tx capsule closure s, e => final (DeterministicExecutor.executeForCapsule tx capsule closure s) e
  | .executeBatch txs, e => final (DeterministicExecutor.executeBatch txs) e

namespace DeterministicExecutor

variable {e next : DeterministicExecutor} {tx : ExecutionTransaction}

/-- The executor has a successful receipt for a transaction of the caller, which
its identifier names. -/
structure Took (e : DeterministicExecutor) (c : String) (tx : ExecutionTransaction) : Prop where
  caller : tx.caller = c
  named : tx.txId = digest tx.statement
  receipt : ∃ receipt, e.receipts.get? tx.txId = some receipt ∧ receipt.success = true

/-- What `execute` can do, whether it returns or raises. -/
inductive Executes (e : DeterministicExecutor) (tx : ExecutionTransaction) : DeterministicExecutor → Prop
  | nothing : Executes e tx e
  | failed (receipt : ExecutionReceipt) (new : e.receipts.get? tx.txId = none) (fails : receipt.success = false) :
      Executes e tx (e.record tx receipt)
  | took (state : State) (receipt : ExecutionReceipt) (new : e.receipts.get? tx.txId = none)
      (verified : tx.verify = .ok true) (inOrder : tx.nonce = e.expectedNonce tx.caller)
      (succeeds : receipt.success = true) :
      Executes e tx (record { e with state, nonces := e.nonces.set tx.caller (e.expectedNonce tx.caller + 1) } tx receipt)

theorem stage_ok {result : State × Nat × List Json} (staged : e.stage tx = .ok result) :
    tx.verify = .ok true ∧ tx.nonce = e.expectedNonce tx.caller := by
  unfold stage at staged
  cases verified : tx.verify with
  | error error =>
    rw [verified] at staged
    cases staged
  | ok accepted =>
    rw [verified] at staged
    cases accepted with
    | false => cases staged
    | true =>
      refine ⟨rfl, ?_⟩
      by_contra other
      by_cases many : e.maxInstructions < tx.instructions.length <;> simp [bind, Except.bind, other, many] at staged

theorem execute_executes (e : DeterministicExecutor) (tx : ExecutionTransaction) :
    e.Executes tx (final (execute tx) e) := by
  cases cached : e.receipts.get? tx.txId with
  | some receipt =>
    rw [final_of_ok (execute_cached cached)]
    exact .nothing
  | none =>
    cases staged : e.stage tx with
    | ok result =>
      obtain ⟨state, gasUsed, events⟩ := result
      obtain ⟨verified, inOrder⟩ := stage_ok staged
      rw [final_of_ok (execute_stages cached staged)]
      exact .took state _ cached verified inOrder rfl
    | error error =>
      unfold execute
      rw [final_bind_of_ok (get_apply e)]
      simp only [cached, staged]
      cases error with
      | executionError message => exact .failed _ cached rfl
      | _ => exact .nothing

/-- The successful receipts belong to verified transactions, one for each nonce of
a caller that is used up. -/
structure InOrder (e : DeterministicExecutor) : Prop where
  natural : ∀ c, 0 ≤ e.expectedNonce c
  earned : ∀ id receipt, e.receipts.get? id = some receipt → receipt.success = true →
    ∃ tx : ExecutionTransaction, tx.verify = .ok true ∧ tx.txId = id ∧ tx.nonce < e.expectedNonce tx.caller
  filled : ∀ c k, 0 ≤ k → k < e.expectedNonce c → ∃ tx, e.Took c tx ∧ tx.nonce = k
  alone : ∀ c tx tx', e.Took c tx → e.Took c tx' → tx.nonce = tx'.nonce → tx.txId = tx'.txId

omit [Crypto] in
theorem get?_record (e : DeterministicExecutor) (tx : ExecutionTransaction) (receipt : ExecutionReceipt) (id : String) :
    (e.record tx receipt).receipts.get? id = if tx.txId = id then some receipt else e.receipts.get? id :=
  Dict.get?_set _ _ _ _

theorem verify_parts (verified : tx.verify = .ok true) : 0 ≤ tx.nonce ∧ tx.txId = digest tx.statement := by
  unfold ExecutionTransaction.verify at verified
  by_cases invalid : tx.nonce < 0 ∨ tx.gasLimit ≤ 0 ∨ tx.instructions.isEmpty
  · rw [if_pos invalid] at verified
    cases verified
  rw [if_neg invalid] at verified
  push Not at invalid
  refine ⟨invalid.1, ?_⟩
  cases encodes : tx.encodable with
  | error error =>
    rw [encodes] at verified
    cases verified
  | ok =>
    rw [encodes] at verified
    have both := Except.ok.inj verified
    exact of_decide_eq_true (Bool.and_eq_true_iff.mp both).1

/-- An identifier fixes the caller and the nonce. -/
theorem caller_nonce_of_txId (free : CollisionFree) {tx tx' : ExecutionTransaction} (named : tx.txId = digest tx.statement)
    (named' : tx'.txId = digest tx'.statement) (same : tx.txId = tx'.txId) :
    tx.caller = tx'.caller ∧ tx.nonce = tx'.nonce := by
  have statements : digest tx.statement = digest tx'.statement := named.symm.trans (same.trans named')
  have callers := lookup_eq_of_digest free statements "caller"
  have nonces := lookup_eq_of_digest free statements "nonce"
  simp only [List.lookup_cons] at callers nonces
  exact ⟨by simpa [Json.sortKeys] using callers, by simpa [Json.sortKeys] using nonces⟩

/-- What took effect has a nonce that is used up. -/
theorem InOrder.bound (ordered : e.InOrder) (free : CollisionFree) {c : String} (took : e.Took c tx) :
    0 ≤ tx.nonce ∧ tx.nonce < e.expectedNonce c := by
  obtain ⟨receipt, held, success⟩ := took.receipt
  obtain ⟨source, verified, same, bound⟩ := ordered.earned _ receipt held success
  obtain ⟨natural, named⟩ := verify_parts verified
  obtain ⟨callers, nonces⟩ := caller_nonce_of_txId free named took.named same
  rw [callers, nonces, took.caller] at bound
  exact ⟨nonces ▸ natural, bound⟩

theorem fresh_inOrder (state : State) (maxInstructions : Int) : (fresh state maxInstructions).InOrder where
  natural := fun _ => le_rfl
  earned := fun _ _ held => nomatch held
  filled := fun _ k natural below => absurd natural (not_le.mpr below)
  alone := fun _ _ _ took => by
    obtain ⟨_, held, _⟩ := took.receipt
    cases held

/-- A failing receipt under a new identifier takes nothing. -/
theorem InOrder.failed (ordered : e.InOrder) {receipt : ExecutionReceipt} (new : e.receipts.get? tx.txId = none)
    (fails : receipt.success = false) : (e.record tx receipt).InOrder := by
  have earlier : ∀ id other, (e.record tx receipt).receipts.get? id = some other → other.success = true →
      e.receipts.get? id = some other := by
    intro id other held success
    rw [get?_record] at held
    by_cases same : tx.txId = id
    · rw [if_pos same] at held
      cases held
      rw [fails] at success
      cases success
    · rwa [if_neg same] at held
  have later : ∀ id other, e.receipts.get? id = some other → (e.record tx receipt).receipts.get? id = some other := by
    intro id other held
    have differs : tx.txId ≠ id := by
      rintro rfl
      rw [new] at held
      cases held
    rwa [get?_record, if_neg differs]
  have took : ∀ c other, (e.record tx receipt).Took c other ↔ e.Took c other := by
    intro c other
    constructor
    · rintro ⟨caller, named, found, held, success⟩
      exact ⟨caller, named, found, earlier _ _ held success, success⟩
    · rintro ⟨caller, named, found, held, success⟩
      exact ⟨caller, named, found, later _ _ held, success⟩
  constructor
  · exact ordered.natural
  · intro id other held success
    exact ordered.earned id other (earlier id other held success) success
  · intro c k natural below
    obtain ⟨other, taken, nonce⟩ := ordered.filled c k natural below
    exact ⟨other, (took c other).mpr taken, nonce⟩
  · intro c first second takenFirst takenSecond nonces
    exact ordered.alone c first second ((took c first).mp takenFirst) ((took c second).mp takenSecond) nonces

/-- The next transaction of a caller uses up its nonce. -/
theorem InOrder.took (ordered : e.InOrder) (free : CollisionFree) {state : State} {receipt : ExecutionReceipt}
    (new : e.receipts.get? tx.txId = none) (verified : tx.verify = .ok true)
    (inOrder : tx.nonce = e.expectedNonce tx.caller) (succeeds : receipt.success = true) :
    (record { e with state, nonces := e.nonces.set tx.caller (e.expectedNonce tx.caller + 1) } tx receipt).InOrder := by
  obtain ⟨natural, named⟩ := verify_parts verified
  set after := record { e with state, nonces := e.nonces.set tx.caller (e.expectedNonce tx.caller + 1) } tx receipt
    with defined
  have nonces : ∀ c, after.expectedNonce c = if tx.caller = c then e.expectedNonce tx.caller + 1 else e.expectedNonce c := by
    intro c
    show ((e.nonces.set tx.caller _).get? c).getD 0 = _
    rw [Dict.get?_set]
    split <;> rfl
  have grows : ∀ c, e.expectedNonce c ≤ after.expectedNonce c := by
    intro c
    rw [nonces c]
    split
    next same => subst same; omega
    next => exact le_rfl
  have receipts : ∀ id, after.receipts.get? id = if tx.txId = id then some receipt else e.receipts.get? id :=
    fun id => get?_record _ tx receipt id
  -- another transaction than this one was there before
  have earlier : ∀ c other, after.Took c other → tx.txId ≠ other.txId → e.Took c other := by
    rintro c other ⟨caller, named', found, held, success⟩ differs
    rw [receipts, if_neg differs] at held
    exact ⟨caller, named', found, held, success⟩
  have later : ∀ c other, e.Took c other → after.Took c other := by
    rintro c other ⟨caller, named', found, held, success⟩
    have differs : tx.txId ≠ other.txId := by
      intro same
      rw [← same, new] at held
      cases held
    exact ⟨caller, named', found, by rw [receipts, if_neg differs, held], success⟩
  have itself : after.Took tx.caller tx := ⟨rfl, named, receipt, by rw [receipts, if_pos rfl], succeeds⟩
  -- a transaction of the same caller that was there before has a smaller nonce
  have below : ∀ c other, e.Took c other → tx.caller = c → other.nonce ≠ tx.nonce := by
    rintro c other taken rfl same
    have bound := (ordered.bound free taken).2
    omega
  constructor
  · intro c
    exact (ordered.natural c).trans (grows c)
  · intro id other held success
    rw [receipts] at held
    by_cases same : tx.txId = id
    · refine ⟨tx, verified, same, ?_⟩
      rw [nonces, if_pos rfl]
      omega
    · rw [if_neg same] at held
      obtain ⟨source, accepted, found, bound⟩ := ordered.earned id other held success
      exact ⟨source, accepted, found, bound.trans_le (grows _)⟩
  · intro c k positive bound
    rw [nonces] at bound
    by_cases old : k < e.expectedNonce c
    · obtain ⟨other, taken, nonce⟩ := ordered.filled c k positive old
      exact ⟨other, later c other taken, nonce⟩
    · have mine : tx.caller = c := by
        by_contra differs
        rw [if_neg differs] at bound
        exact old bound
      rw [if_pos mine] at bound
      subst mine
      exact ⟨tx, itself, by omega⟩
  · intro c first second takenFirst takenSecond same
    by_cases one : tx.txId = first.txId
    · by_cases two : tx.txId = second.txId
      · exact one.symm.trans two
      · obtain ⟨callers, equal⟩ := caller_nonce_of_txId free named takenFirst.named one
        exact absurd (same.symm.trans equal.symm)
          (below c second (earlier c second takenSecond two) (callers.trans takenFirst.caller))
    · by_cases two : tx.txId = second.txId
      · obtain ⟨callers, equal⟩ := caller_nonce_of_txId free named takenSecond.named two
        exact absurd (same.trans equal.symm)
          (below c first (earlier c first takenFirst one) (callers.trans takenSecond.caller))
      · exact ordered.alone c first second (earlier c first takenFirst one) (earlier c second takenSecond two) same

theorem Executes.inOrder (executes : e.Executes tx next) (free : CollisionFree) (ordered : e.InOrder) : next.InOrder := by
  cases executes with
  | nothing => exact ordered
  | failed receipt new fails => exact ordered.failed new fails
  | took state receipt new verified inOrder succeeds => exact ordered.took free new verified inOrder succeeds

/-- The order of an executor is that of its nonces and receipts. -/
theorem InOrder.restoring (ordered : e.InOrder) (current : DeterministicExecutor) : (e.restoring current).InOrder :=
  ⟨ordered.natural, ordered.earned,
    fun c k natural below => by
      obtain ⟨tx, taken, nonce⟩ := ordered.filled c k natural below
      exact ⟨tx, ⟨taken.caller, taken.named, taken.receipt⟩, nonce⟩,
    fun c tx tx' taken taken' =>
      ordered.alone c tx tx' ⟨taken.caller, taken.named, taken.receipt⟩ ⟨taken'.caller, taken'.named, taken'.receipt⟩⟩

theorem InOrder.executeAll (free : CollisionFree) (txs : List ExecutionTransaction) :
    ∀ {e : DeterministicExecutor}, e.InOrder → (final (executeAll txs) e).InOrder := by
  induction txs with
  | nil => exact fun ordered => ordered
  | cons tx txs ih =>
    intro e ordered
    have first := (execute_executes e tx).inOrder free ordered
    unfold DeterministicExecutor.executeAll
    cases ran : execute tx e with
    | error error mid =>
      rw [final_of_error ran] at first
      rwa [final_bind_of_error ran]
    | ok receipt mid =>
      rw [final_of_ok ran] at first
      have rest := ih first
      rw [final_bind_of_ok ran]
      cases more : DeterministicExecutor.executeAll txs mid with
      | error error last =>
        rw [final_of_error more] at rest
        rwa [final_bind_of_error more]
      | ok receipts last =>
        rw [final_of_ok more] at rest
        rwa [final_bind_of_ok more]

theorem InOrder.executeBatch (ordered : e.InOrder) (free : CollisionFree) (txs : List ExecutionTransaction) :
    (final (executeBatch txs) e).InOrder := by
  unfold DeterministicExecutor.executeBatch
  by_cases empty : txs.isEmpty = true
  · rwa [final_of_error (raiseIf_bind_pos empty _ _ _)]
  have all := ordered.executeAll free txs
  have passed : (raiseIf (txs.isEmpty = true) (.executionError "empty execution batch") : Execution PUnit) e = .ok ⟨⟩ e :=
    raiseIf_eq_ok.mpr ⟨empty, rfl⟩
  rw [final_bind_of_ok passed, final_bind_of_ok (get_apply e)]
  cases ran : DeterministicExecutor.executeAll txs e with
  | error error mid =>
    rw [final_of_error ran] at all
    rwa [final_bind_of_error ran]
  | ok receipts mid =>
    rw [final_of_ok ran] at all
    rw [final_bind_of_ok ran]
    by_cases success : receipts.all (·.success) = true
    · rwa [if_pos success]
    · rw [if_neg success]
      exact ordered.restoring mid

/-- The executor stays as it is, is as `execute` leaves it, or has taken it back. -/
def Leaves (tx : ExecutionTransaction) (e next : DeterministicExecutor) : Prop :=
  next = e ∨ next = final (execute tx) e ∨ ∃ mid, next = e.restoring mid

instance (tx : ExecutionTransaction) : Std.Refl (Leaves tx) := ⟨fun _ => Or.inl rfl⟩

theorem executeForCapsule_leaves (e : DeterministicExecutor) (tx : ExecutionTransaction) (capsule : Capsule)
    (closure : ClosureProof) (s : MosaicProtocol) :
    Guarantees (Leaves tx) e (executeForCapsule tx capsule closure s) (fun _ _ => True) := by
  unfold executeForCapsule
  refine .get_bind (.raiseIf_bind fun _ => .raiseIf_bind fun _ => ?_)
  cases s.knownSeals.get? capsule.predecessorId with
  | none => exact .throw _
  | some predecessor =>
    refine .raiseIf_bind fun _ => .raiseIf_bind fun _ => .raiseIf_bind fun _ => ⟨?_, fun _ _ _ => trivial⟩
    cases ran : execute tx e with
    | error error mid =>
      rw [final_bind_of_error ran]
      exact Or.inr (Or.inl (final_of_error ran).symm)
    | ok receipt mid =>
      have executed : mid = final (execute tx) e := (final_of_ok ran).symm
      rw [final_bind_of_ok ran]
      by_cases wrong : receipt.success = false ∨ receipt.preStateRoot ≠ predecessor.stateRoot ∨
          receipt.postStateRoot ≠ capsule.successorRoot
      · rw [if_pos wrong]
        exact Or.inr (Or.inr ⟨mid, rfl⟩)
      · rw [if_neg wrong]
        cases ExecutionBinding.create capsule.capsuleId capsule.predecessorId receipt <;> exact Or.inr (Or.inl executed)

theorem InOrder.executeForCapsule (ordered : e.InOrder) (free : CollisionFree) (tx : ExecutionTransaction)
    (capsule : Capsule) (closure : ClosureProof) (s : MosaicProtocol) :
    (final (executeForCapsule tx capsule closure s) e).InOrder := by
  rcases (executeForCapsule_leaves e tx capsule closure s).moves with same | executed | ⟨mid, restored⟩
  · rwa [same]
  · rw [executed]
    exact (execute_executes e tx).inOrder free ordered
  · rw [restored]
    exact ordered.restoring mid

end DeterministicExecutor

theorem ExecutorCall.exec_inOrder (free : CollisionFree) (call : ExecutorCall) {e : DeterministicExecutor}
    (ordered : e.InOrder) : (call.exec e).InOrder := by
  cases call with
  | execute tx => exact (DeterministicExecutor.execute_executes e tx).inOrder free ordered
  | executeForCapsule tx capsule closure s => exact ordered.executeForCapsule free tx capsule closure s
  | executeBatch txs => exact ordered.executeBatch free txs

/-- However an executor was used, the transactions of a caller that took effect
are exactly as many as its nonce says, one for each nonce before it. -/
theorem exactly_once (free : CollisionFree) {state : State} {maxInstructions : Int} {e : DeterministicExecutor}
    (run : GuardedRun ExecutorCall.exec (fun _ _ => True) (.fresh state maxInstructions) e) (c : String) :
    ∃ n : ℕ, e.expectedNonce c = n ∧ {id | ∃ tx, e.Took c tx ∧ tx.txId = id}.ncard = n ∧
      (∀ k : Int, (∃ tx, e.Took c tx ∧ tx.nonce = k) ↔ 0 ≤ k ∧ k < n) ∧
      ∀ tx tx', e.Took c tx → e.Took c tx' → tx.nonce = tx'.nonce → tx.txId = tx'.txId := by
  have ordered : e.InOrder := run.invariant (DeterministicExecutor.fresh_inOrder state maxInstructions)
    fun _ call _ ordered => call.exec_inOrder free ordered
  obtain ⟨n, count⟩ := Int.eq_ofNat_of_zero_le (ordered.natural c)
  have nonces : ∀ k : Int, (∃ tx, e.Took c tx ∧ tx.nonce = k) ↔ 0 ≤ k ∧ k < n := by
    intro k
    constructor
    · rintro ⟨tx, taken, rfl⟩
      exact count ▸ ordered.bound free taken
    · rintro ⟨natural, below⟩
      exact ordered.filled c k natural (count ▸ below)
  refine ⟨n, count, ?_, nonces, ordered.alone c⟩
  have holder : ∀ i : ℕ, i < n → ∃ tx, e.Took c tx ∧ tx.nonce = i := by
    intro i below
    exact (nonces i).mpr ⟨by omega, by omega⟩
  choose tx taken nonce using holder
  refine Set.ncard_eq_of_bijective (fun i below => (tx i below).txId) ?_ ?_ ?_
  · rintro id ⟨other, takenOther, rfl⟩
    obtain ⟨natural, below⟩ := (nonces other.nonce).mp ⟨other, takenOther, rfl⟩
    obtain ⟨i, place⟩ := Int.eq_ofNat_of_zero_le natural
    have bound : i < n := by omega
    exact ⟨i, bound, ordered.alone c _ _ (taken i bound) takenOther ((nonce i bound).trans place.symm)⟩
  · intro i below
    exact ⟨tx i below, taken i below, rfl⟩
  · intro i j below below' same
    obtain ⟨-, nonces⟩ := DeterministicExecutor.caller_nonce_of_txId free (taken i below).named (taken j below').named same
    rw [nonce, nonce] at nonces
    omega

/-- Two transactions of one client, one after the other. -/
theorem twoTransactions_run (pair : KeyPair) (free : CollisionFree) (sound : SignaturesVerify) :
    ∃ e, GuardedRun ExecutorCall.exec (fun _ _ => True) emptyExecutor e ∧ e.expectedNonce pair.identity = 2 := by
  obtain ⟨second, written, first⟩ := setTx_runs pair sound
  have new : second.receipts.get? (deleteTx pair).txId = none := by
    rw [first.receipts, Dict.get?_set_of_ne _ _ (txIds_differ pair free)]
    rfl
  obtain ⟨third, deleted, back⟩ := deleteTx_runs sound first.state first.nonce first.limit new
  have set : ExecutorCall.exec (.execute (setTx pair)) emptyExecutor = second := final_of_ok first.executed
  have delete : ExecutorCall.exec (.execute (deleteTx pair)) second = third := final_of_ok back.executed
  have one : GuardedRun ExecutorCall.exec (fun _ _ => True) emptyExecutor second := set ▸ GuardedRun.refl.tail trivial
  exact ⟨third, delete ▸ one.tail trivial, back.nonce⟩

omit [Crypto] in
/-- Both took effect, with the nonces 0 and 1. -/
theorem exactly_once_twice : let _ := Crypto.ideal
    ∃ e : DeterministicExecutor, e.expectedNonce idealKey.identity = 2 ∧ ∃ n : ℕ,
      e.expectedNonce idealKey.identity = n ∧
      {id | ∃ tx, e.Took idealKey.identity tx ∧ tx.txId = id}.ncard = n ∧
      (∀ k : Int, (∃ tx, e.Took idealKey.identity tx ∧ tx.nonce = k) ↔ 0 ≤ k ∧ k < n) ∧
      ∀ tx tx', e.Took idealKey.identity tx → e.Took idealKey.identity tx' → tx.nonce = tx'.nonce →
        tx.txId = tx'.txId := by
  intro _
  obtain ⟨e, run, nonce⟩ := twoTransactions_run idealKey ideal_collisionFree ideal_signaturesVerify
  exact ⟨e, nonce, exactly_once ideal_collisionFree run idealKey.identity⟩

end Mosaic
