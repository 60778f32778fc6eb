import Mosaic.BatchAtomicity
import Mosaic.Lib.Lockstep
import Mosaic.Storage

namespace Mosaic
open CanonicalJson Effects

theorem sortKeys_obj {fields fields' : List (String × Json)}
    (same : (fields.map fun entry => (entry.1, entry.2.sortKeys)) = fields'.map fun entry => (entry.1, entry.2.sortKeys)) :
    (Json.obj fields).sortKeys = (Json.obj fields').sortKeys := by
  rw [Json.sortKeys, Json.sortKeys, sortFields_eq, sortFields_eq, same]

theorem digest_congr [Crypto] {v w : Json} (same : v.sortKeys = w.sortKeys) : digest v = digest w := by
  rw [digest, digest, canonicalBytes, canonicalBytes, same]

theorem asInt_congr {v w : Json} (same : v.sortKeys = w.sortKeys) : asInt v = asInt w := by
  cases v <;> cases w <;> simp_all [Json.sortKeys, asInt]

/-- The states answer alike. -/
def State.Alike (s t : State) : Prop := ∀ key, (s.get? key).map Json.sortKeys = (t.get? key).map Json.sortKeys

namespace State.Alike

variable {s t : State}

theorem set (alike : s.Alike t) (key : String) {v w : Json} (same : v.sortKeys = w.sortKeys) :
    State.Alike (Dict.set s key v) (Dict.set t key w) := by
  intro k
  rw [Dict.get?_set, Dict.get?_set]
  by_cases here : key = k
  · rw [if_pos here, if_pos here, Option.map_some, Option.map_some, same]
  · rw [if_neg here, if_neg here]
    exact alike k

theorem erase (alike : s.Alike t) (key : String) : State.Alike (Dict.erase s key) (Dict.erase t key) := by
  intro k
  rw [Dict.get?_erase, Dict.get?_erase]
  by_cases here : key = k
  · rw [if_pos here, if_pos here]
  · rw [if_neg here, if_neg here]
    exact alike k

/-- What stands where there may be nothing. -/
theorem getD (alike : s.Alike t) (key : String) (default : Json) :
    ((s.get? key).getD default).sortKeys = ((t.get? key).getD default).sortKeys := by
  have here := alike key
  cases left : s.get? key <;> cases right : t.get? key <;> simp_all

theorem entries (alike : s.Alike t) : (Json.obj s.entries).sortKeys = (Json.obj t.entries).sortKeys := by
  have perm : (Dict.mapValues s Json.sortKeys).entries.Perm (Dict.mapValues t Json.sortKeys).entries := by
    refine Dict.entries_perm fun key => ?_
    rw [Dict.get?_mapValues, Dict.get?_mapValues]
    exact alike key
  have sorted := sortFields_eq_of_perm perm (Dict.mapValues s Json.sortKeys).nodup
  rw [sortFields_eq, sortFields_eq] at sorted
  rw [Json.sortKeys, Json.sortKeys, sortFields_eq, sortFields_eq]
  simpa only [Dict.mapValues, List.map_map, Function.comp_def, sortKeys_sortKeys] using congrArg Json.obj sorted

theorem toSorted (alike : s.Alike t) : (State.toSorted s).sortKeys = (State.toSorted t).sortKeys := by
  have keys : sorted (Dict.keys s) = sorted (Dict.keys t) := by
    refine sorted_eq_of_perm ((List.perm_ext_iff_of_nodup s.keys_nodup t.keys_nodup).mpr fun key => ?_)
    have here := alike key
    rw [Dict.mem_keys, Dict.mem_keys]
    cases left : s.get? key <;> cases right : t.get? key <;> simp_all
  rw [State.toSorted, State.toSorted, keys]
  refine sortKeys_obj ?_
  rw [List.map_filterMap, List.map_filterMap]
  refine List.filterMap_congr fun key _ => ?_
  have here := alike key
  cases left : s.get? key <;> cases right : t.get? key <;> simp_all

end State.Alike

section Answers
variable [Crypto]

theorem computeStateRoot_congr {s t : State} (alike : s.Alike t) : computeStateRoot s = computeStateRoot t :=
  digest_congr (sortKeys_obj (by simp [Json.sortKeys, alike.toSorted]))

/-- What a call returns. -/
inductive ExecutorAnswer
  | receipt (receipt : ExecutionReceipt)
  | bound (receipt : ExecutionReceipt) (binding : ExecutionBinding)
  | receipts (receipts : List ExecutionReceipt)

def ExecutorCall.invoke : ExecutorCall → Execution ExecutorAnswer
  | .execute tx => ExecutorAnswer.receipt <$> DeterministicExecutor.execute tx
  | .executeForCapsule tx capsule closure s =>
    (fun result => ExecutorAnswer.bound result.1 result.2) <$>
      DeterministicExecutor.executeForCapsule tx capsule closure s
  | .executeBatch txs => ExecutorAnswer.receipts <$> DeterministicExecutor.executeBatch txs

namespace DeterministicExecutor

/-- What the calls return or raise, one after the other. -/
def answers : List ExecutorCall → DeterministicExecutor → List (Except PyError ExecutorAnswer)
  | [], _ => []
  | call :: calls, e =>
    match call.invoke e with
    | .ok answer next => .ok answer :: answers calls next
    | .error error next => .error error :: answers calls next

/-- Executors that answer every transaction alike. -/
structure Alike (e f : DeterministicExecutor) : Prop where
  limit : e.maxInstructions = f.maxInstructions
  state : State.Alike e.state f.state
  nonces : ∀ caller, e.nonces.get? caller = f.nonces.get? caller
  receipts : ∀ id, e.receipts.get? id = f.receipts.get? id

/-- What the instructions have made of two states. -/
structure StagedAlike (a b : State × Nat × List Json) : Prop where
  state : State.Alike a.1 b.1
  gasUsed : a.2.1 = b.2.1
  events : a.2.2.map Json.sortKeys = b.2.2.map Json.sortKeys

variable {e f : DeterministicExecutor} {s t : State}

theorem Alike.stateRoot (alike : e.Alike f) : e.stateRoot = f.stateRoot := computeStateRoot_congr alike.state

omit [Crypto] in
theorem Alike.expectedNonce (alike : e.Alike f) (caller : String) : e.expectedNonce caller = f.expectedNonce caller := by
  rw [DeterministicExecutor.expectedNonce, alike.nonces, DeterministicExecutor.expectedNonce]

omit [Crypto] in
theorem stepState_alike (alike : s.Alike t) (item : ExecutionInstruction) (key : String) :
    Matches State.Alike (stepState item key s) (stepState item key t) := by
  have current := asInt_congr (alike.getD key (.int 0))
  refine .ite (.ok (alike.set key rfl)) (.ite (.ok (alike.erase key)) (.ite ?_ (.ok alike)))
  rw [current]
  cases asInt ((t.get? key).getD (.int 0)) with
  | none => exact .error _
  | some value =>
    cases asInt item.value.toJson with
    | none => exact .error _
    | some change => exact .ok (alike.set key rfl)

omit [Crypto] in
theorem event_alike {s' t' : State} (before : s.Alike t) (after : s'.Alike t') (item : ExecutionInstruction) (key : String) :
    (event item key s s').sortKeys = (event item key t t').sortKeys :=
  sortKeys_obj (by simp [before.getD key, after.getD key])

omit [Crypto] in
theorem runInstructions_alike (gasLimit : Int) (items : List ExecutionInstruction) (alike : s.Alike t) (gasUsed : Nat)
    {events events' : List Json} (same : events.map Json.sortKeys = events'.map Json.sortKeys) :
    Matches StagedAlike (runInstructions gasLimit items s gasUsed events)
      (runInstructions gasLimit items t gasUsed events') := by
  induction items generalizing s t gasUsed events events' with
  | nil => exact .ok ⟨alike, rfl, same⟩
  | cons item items ih =>
    refine .after fun key => ?_
    by_cases beyond : gasLimit < (gasUsed + (gasCost item.operation).getD 0 : Nat)
    · simp only [if_pos beyond]
      exact .error _
    simp only [if_neg beyond]
    refine (stepState_alike alike item key).bind fun s' t' next => ih next _ ?_
    rw [List.map_append, List.map_append, same, List.map_singleton, List.map_singleton, event_alike alike next]

theorem stage_alike (alike : e.Alike f) (tx : ExecutionTransaction) : Matches StagedAlike (e.stage tx) (f.stage tx) := by
  unfold stage
  rw [alike.limit, alike.expectedNonce]
  refine .after fun verified => ?_
  refine .ite (.error _) (.ite (.error _) (.ite (.error _) ?_))
  exact runInstructions_alike _ _ alike.state 0 rfl

theorem diffDigest_congr {s' t' : State} (before : s.Alike t) (after : s'.Alike t') :
    diffDigest s s' = diffDigest t t' :=
  digest_congr (sortKeys_obj (by simp only [List.map_cons, List.map_nil, before.entries, after.entries]))

omit [Crypto] in
theorem Alike.record (alike : e.Alike f) (tx : ExecutionTransaction) (receipt : ExecutionReceipt) :
    (e.record tx receipt).Alike (f.record tx receipt) := by
  refine ⟨alike.limit, alike.state, alike.nonces, fun id => ?_⟩
  rw [DeterministicExecutor.record, DeterministicExecutor.record, Dict.get?_set, Dict.get?_set, alike.receipts]

theorem execute_alike (alike : e.Alike f) (tx : ExecutionTransaction) : Unison Alike Eq (execute tx) (execute tx) e f := by
  unfold execute
  refine .get_bind ?_
  rw [alike.receipts]
  cases f.receipts.get? tx.txId with
  | some receipt => exact .pure rfl alike
  | none =>
    cases stage_alike alike tx with
    | raised left right =>
      rw [left, right]
      rename_i error
      have failed : e.failureReceipt tx = f.failureReceipt tx := by
        funext message
        rw [failureReceipt, failureReceipt, alike.stateRoot, diffDigest_congr alike.state alike.state]
      cases error with
      | executionError message =>
        rw [failed]
        exact .returned rfl rfl rfl (alike.record tx _)
      | _ => exact .throw _ alike
    | @returned a b left right related =>
      obtain ⟨state, gasUsed, events⟩ := related
      obtain ⟨staged, gas, log⟩ := a
      obtain ⟨staged', gas', log'⟩ := b
      simp only at state gasUsed events
      subst gasUsed
      have root : digest (.list log) = digest (.list log') :=
        digest_congr (by rw [Json.sortKeys, Json.sortKeys, sortItems_eq_map, sortItems_eq_map, events])
      have succeeded : e.successReceipt tx staged gas log = f.successReceipt tx staged' gas log' := by
        rw [successReceipt, successReceipt, alike.stateRoot, computeStateRoot_congr state, root,
          diffDigest_congr alike.state state]
      rw [left, right]
      simp only [succeeded, alike.expectedNonce]
      have nonces : ∀ caller, (e.nonces.set tx.caller (f.expectedNonce tx.caller + 1)).get? caller =
          (f.nonces.set tx.caller (f.expectedNonce tx.caller + 1)).get? caller := by
        intro caller
        rw [Dict.get?_set, Dict.get?_set, alike.nonces]
      have next : Alike { e with state := staged, nonces := e.nonces.set tx.caller (f.expectedNonce tx.caller + 1) }
          { f with state := staged', nonces := f.nonces.set tx.caller (f.expectedNonce tx.caller + 1) } :=
        ⟨alike.limit, state, nonces, alike.receipts⟩
      exact .returned rfl rfl rfl (next.record tx _)

omit [Crypto] in
theorem Alike.restoring (alike : e.Alike f) {e' f' : DeterministicExecutor} (later : e'.Alike f') :
    (e.restoring e').Alike (f.restoring f') := ⟨later.limit, alike.state, alike.nonces, alike.receipts⟩

theorem executeAll_alike (alike : e.Alike f) (txs : List ExecutionTransaction) :
    Unison Alike Eq (executeAll txs) (executeAll txs) e f := by
  induction txs generalizing e f with
  | nil => exact .pure rfl alike
  | cons tx txs ih =>
    refine (execute_alike alike tx).bind fun receipt _ e' f' same later => ?_
    subst same
    refine (ih later).bind fun receipts _ e'' f'' same last => ?_
    subst same
    exact .pure rfl last

theorem executeBatch_alike (alike : e.Alike f) (txs : List ExecutionTransaction) :
    Unison Alike Eq (executeBatch txs) (executeBatch txs) e f := by
  unfold executeBatch
  refine .raiseIf_bind Iff.rfl alike fun _ => .get_bind ?_
  refine (executeAll_alike alike txs).bind fun receipts _ e' f' same later => ?_
  subst same
  by_cases success : receipts.all (·.success) = true
  · rw [if_pos success, if_pos success]
    exact .pure rfl later
  · rw [if_neg success, if_neg success]
    exact .raised rfl rfl (alike.restoring later)

theorem executeForCapsule_alike (alike : e.Alike f) (tx : ExecutionTransaction) (capsule : Capsule) (closure : ClosureProof)
    (s : MosaicProtocol) :
    Unison Alike Eq (executeForCapsule tx capsule closure s) (executeForCapsule tx capsule closure s) e f := by
  unfold executeForCapsule
  refine .get_bind (.raiseIf_bind Iff.rfl alike fun _ => .raiseIf_bind Iff.rfl alike fun _ => ?_)
  cases s.knownSeals.get? capsule.predecessorId with
  | none => exact .throw _ alike
  | some predecessor =>
    rw [alike.stateRoot]
    refine .raiseIf_bind Iff.rfl alike fun _ => .raiseIf_bind Iff.rfl alike fun _ => .raiseIf_bind Iff.rfl alike fun _ => ?_
    refine (execute_alike alike tx).bind fun receipt _ e' f' same later => ?_
    subst same
    split
    · exact .raised rfl rfl (alike.restoring later)
    · cases ExecutionBinding.create capsule.capsuleId capsule.predecessorId receipt with
      | ok binding => exact .returned rfl rfl rfl later
      | error error => exact .raised rfl rfl later

theorem invoke_alike (alike : e.Alike f) (call : ExecutorCall) : Unison Alike Eq call.invoke call.invoke e f := by
  cases call with
  | execute tx => exact (execute_alike alike tx).map fun _ _ same => same ▸ rfl
  | executeForCapsule tx capsule closure s => exact (executeForCapsule_alike alike tx capsule closure s).map fun _ _ same => same ▸ rfl
  | executeBatch txs => exact (executeBatch_alike alike txs).map fun _ _ same => same ▸ rfl

theorem Alike.answers (alike : e.Alike f) (calls : List ExecutorCall) :
    DeterministicExecutor.answers calls e = DeterministicExecutor.answers calls f := by
  induction calls generalizing e f with
  | nil => rfl
  | cons call calls ih =>
    rw [DeterministicExecutor.answers, DeterministicExecutor.answers]
    cases invoke_alike alike call with
    | returned run run' same ends =>
      subst same
      rw [run, run']
      exact congrArg _ (ih ends)
    | raised run run' ends =>
      rw [run, run']
      exact congrArg _ (ih ends)

end DeterministicExecutor

end Answers

section Store
variable [Crypto]

def receiptDict (receipt : ExecutionReceipt) : Json := .obj [
  ("tx_id", .str receipt.txId),
  ("pre_state_root", .str receipt.preStateRoot),
  ("post_state_root", .str receipt.postStateRoot),
  ("gas_used", .int receipt.gasUsed),
  ("event_root", .str receipt.eventRoot),
  ("state_diff_digest", .str receipt.stateDiffDigest),
  ("success", .bool receipt.success),
  ("error", receipt.error.elim .null .str)]

/-- `int(value)`, where gas is expected. -/
def readGas (ints : IntReading) (value : Json) : Except ReadError Nat := do
  let gas ← ints.read value
  if gas < 0 then throw .untyped
  return gas.toNat

def readError : Json → Except ReadError (Option String)
  | .null => .ok none
  | .str message => .ok (some message)
  | _ => .error .untyped

/-- `ExecutionReceipt(...)`. -/
def receiptOf (ints : IntReading) (value : Json) : Except ReadError ExecutionReceipt := do
  let txId ← field "tx_id" Json.text value
  let preStateRoot ← field "pre_state_root" Json.text value
  let postStateRoot ← field "post_state_root" Json.text value
  let gasUsed ← field "gas_used" (readGas ints) value
  let eventRoot ← field "event_root" Json.text value
  let stateDiffDigest ← field "state_diff_digest" Json.text value
  let success ← field "success" (fun v => .ok v.truthy) value
  let error ← value.get "error" .null >>= readError
  return { txId, preStateRoot, postStateRoot, gasUsed, eventRoot, stateDiffDigest, success, error }

/-- `dict(initial_state or {})`. -/
def readState (value : Json) : Except ReadError State :=
  if value.truthy then
    match value with
    | .obj fields => .ok (.ofList fields)
    | .list _ => .error .untyped
    | .str _ => .error .valueError
    | _ => .error .typeError
  else .ok .empty

inductive ExecutorFault
  | executionError (message : String)
  | reading (error : ReadError)

namespace DeterministicExecutor

def toDict (e : DeterministicExecutor) : Json := .obj [
  ("protocol", .str "MOSAIC/EXECUTION-STATE/v1"),
  ("state", .obj e.state.entries),
  ("nonces", .obj (e.nonces.entries.map fun entry => (entry.1, .int entry.2))),
  ("receipts", .obj (e.receipts.entries.map fun entry => (entry.1, receiptDict entry.2))),
  ("state_root", .str e.stateRoot)]

def persist (disk : Option String) (e : DeterministicExecutor) : StoreCall :=
  .put disk "execution_state" "executor" e.toDict false

/-- The executor that the payload describes. -/
def ofPayload (ints : IntReading) (maxInstructions : Int) (payload : Json) : Except ReadError DeterministicExecutor := do
  let state ← field "state" readState payload
  let nonces ← field "nonces" (dictOf ints.read) payload
  let receipts ← field "receipts" (dictOf (receiptOf ints)) payload
  return { state, maxInstructions, nonces, receipts }

def fromStore [FloatFormat] (ints : IntReading) (db : Database) (maxInstructions : Int) :
    Except ExecutorFault DeterministicExecutor := do
  let stored ← (db.get "execution_state" "executor").mapError .reading
  match stored with
  | none => throw (.executionError "execution state is missing")
  | some payload =>
    let executor ← (ofPayload ints maxInstructions payload).mapError .reading
    let root ← (payload.member "state_root").mapError .reading
    refuseIf (root.isText executor.stateRoot = false) (.executionError "execution state root mismatch")
    return executor

omit [Crypto] in
theorem reads_receiptDict (ints : IntReading) : Reads (receiptOf ints) receiptDict := by
  have gas : Reads (readGas ints) fun gas : Nat => .int gas := by
    intro gas v same
    have natural : ¬ (gas : Int) < 0 := by omega
    rw [readGas, ints.reads (gas : Int) v same]
    simp only [bind, Except.bind, if_neg natural]
    rfl
  have errors : Reads readError fun error : Option String => error.elim .null .str := by
    intro error v same
    cases error with
    | none => cases v <;> simp_all [Json.sortKeys, readError]
    | some message =>
      rw [eq_str_of_sortKeys same]
      rfl
  intro receipt v same
  have txId := reads_text.field same "tx_id" rfl
  have preStateRoot := reads_text.field same "pre_state_root" rfl
  have postStateRoot := reads_text.field same "post_state_root" rfl
  have gasUsed := gas.field same "gas_used" rfl
  have eventRoot := reads_text.field same "event_root" rfl
  have stateDiffDigest := reads_text.field same "state_diff_digest" rfl
  have success := reads_truthy.field same "success" rfl
  have error := errors.get same "error" .null rfl
  simp only [receiptOf, txId, preStateRoot, postStateRoot, gasUsed, eventRoot, stateDiffDigest, success, error]
  rfl

omit [Crypto] in
/-- The state is read as one that answers alike. -/
theorem readState_alike {s : State} {v : Json} (same : v.sortKeys = (Json.obj s.entries).sortKeys) :
    ∃ t, readState v = .ok t ∧ s.Alike t := by
  obtain ⟨fields, rfl, sorted⟩ := eq_obj_of_sortKeys same
  have lookups := lookup_eq_of_sortKeys same
  have distinct : (fields.map Prod.fst).Nodup := by
    have keys := (perm_of_sortFields sorted).map Prod.fst
    rw [List.map_map, List.map_map] at keys
    exact keys.nodup_iff.mpr s.nodup
  refine ⟨.ofList fields, ?_, fun key => ?_⟩
  · cases fields <;> rfl
  · rw [← Dict.lookup_entries, ← Dict.lookup_entries, Dict.entries_ofList distinct]
    exact (lookups key).symm

variable {e : DeterministicExecutor}

theorem ofPayload_toDict (ints : IntReading) {payload : Json} (same : payload.sortKeys = e.toDict.sortKeys) :
    ∃ f, ofPayload ints e.maxInstructions payload = .ok f ∧ e.Alike f := by
  obtain ⟨u, atState, sameState⟩ := member_of_sortKeys same "state" rfl
  obtain ⟨state, readsState, alike⟩ := readState_alike sameState
  obtain ⟨v, atNonces, sameNonces⟩ := member_of_sortKeys same "nonces" rfl
  obtain ⟨nonces, readNonces, orderNonces⟩ := ints.reads.dictOf sameNonces
  obtain ⟨w, atReceipts, sameReceipts⟩ := member_of_sortKeys same "receipts" rfl
  obtain ⟨receipts, readReceipts, orderReceipts⟩ := (reads_receiptDict ints).dictOf sameReceipts
  refine ⟨⟨state, e.maxInstructions, nonces, receipts⟩, ?_, rfl, alike, fun caller => ?_, fun id => ?_⟩
  · have state := except_bind_eq_ok.mpr ⟨u, atState, readsState⟩
    have nonces := except_bind_eq_ok.mpr ⟨v, atNonces, readNonces⟩
    have receipts := except_bind_eq_ok.mpr ⟨w, atReceipts, readReceipts⟩
    simp only [ofPayload, field, state, nonces, receipts]
    rfl
  · exact (Dict.get?_of_perm orderNonces caller).symm
  · exact (Dict.get?_of_perm orderReceipts id).symm

end DeterministicExecutor

variable [FloatFormat]

def State.Holds (s : State) : Prop := ∀ key value, s.get? key = some value → value.Held

/-- The values that the call can write. -/
def ExecutorCall.Holds (call : ExecutorCall) : Prop :=
  ∀ tx ∈ call.transactions, ∀ item ∈ tx.instructions, item.value.toJson.Held

omit [Crypto] in
theorem State.Holds.set {s : State} (holds : s.Holds) (key : String) {value : Json} (held : value.Held) :
    State.Holds (Dict.set s key value) := by
  intro k v found
  rw [Dict.get?_set] at found
  split at found
  · cases found
    exact held
  · exact holds k v found

namespace DeterministicExecutor

variable {e : DeterministicExecutor} {s t : State}

omit [Crypto] in
theorem stepState_holds {item : ExecutionInstruction} {key : String} (holds : s.Holds) (held : item.value.toJson.Held)
    (stepped : stepState item key s = .ok t) : t.Holds := by
  unfold stepState at stepped
  split at stepped
  · cases stepped
    exact holds.set key held
  · split at stepped
    · cases stepped
      intro k v found
      rw [Dict.get?_erase] at found
      split at found
      · cases found
      · exact holds k v found
    · split at stepped
      · split at stepped
        · cases stepped
          exact holds.set key (by simp [Json.Held])
        · cases stepped
      · cases stepped
        exact holds

omit [Crypto] in
theorem runInstructions_holds {gasLimit : Int} {items : List ExecutionInstruction} {gasUsed : Nat} {events : List Json}
    {result : State × Nat × List Json} (holds : s.Holds) (held : ∀ item ∈ items, item.value.toJson.Held)
    (ran : runInstructions gasLimit items s gasUsed events = .ok result) : State.Holds result.1 := by
  induction items generalizing s gasUsed events with
  | nil =>
    cases ran
    exact holds
  | cons item items ih =>
    obtain ⟨here, later⟩ := List.forall_mem_cons.mp held
    rw [runInstructions] at ran
    obtain ⟨key, -, ran⟩ := except_bind_eq_ok.mp ran
    by_cases beyond : gasLimit < (gasUsed + (gasCost item.operation).getD 0 : Nat)
    · simp only [if_pos beyond] at ran
      cases ran
    · simp only [if_neg beyond] at ran
      obtain ⟨next, stepped, ran⟩ := except_bind_eq_ok.mp ran
      exact ih (stepState_holds holds here stepped) later ran

theorem stage_holds {tx : ExecutionTransaction} {result : State × Nat × List Json} (holds : State.Holds e.state)
    (held : ∀ item ∈ tx.instructions, item.value.toJson.Held) (staged : e.stage tx = .ok result) :
    State.Holds result.1 := by
  unfold stage at staged
  obtain ⟨verified, -, staged⟩ := except_bind_eq_ok.mp staged
  by_cases refused : verified = false
  · simp only [if_pos refused] at staged
    cases staged
  by_cases many : e.maxInstructions < tx.instructions.length
  · simp only [if_neg refused, if_pos many] at staged
    cases staged
  by_cases other : tx.nonce ≠ e.expectedNonce tx.caller
  · simp only [if_neg refused, if_neg many, if_pos other] at staged
    cases staged
  · simp only [if_neg refused, if_neg many, if_neg other] at staged
    exact runInstructions_holds holds held staged

theorem execute_holds {tx : ExecutionTransaction} (holds : State.Holds e.state)
    (held : ∀ item ∈ tx.instructions, item.value.toJson.Held) : State.Holds (final (execute tx) e).state := by
  unfold execute
  rw [final, get_bind_apply]
  cases e.receipts.get? tx.txId with
  | some receipt => exact holds
  | none =>
    cases staged : e.stage tx with
    | ok result => exact stage_holds holds held staged
    | error error => cases error <;> exact holds

theorem executeAll_holds {txs : List ExecutionTransaction} (holds : State.Holds e.state)
    (held : ∀ tx ∈ txs, ∀ item ∈ tx.instructions, item.value.toJson.Held) :
    State.Holds (final (executeAll txs) e).state := by
  induction txs generalizing e with
  | nil => exact holds
  | cons tx txs ih =>
    obtain ⟨here, later⟩ := List.forall_mem_cons.mp held
    have first := execute_holds holds here
    unfold executeAll
    cases ran : execute tx e with
    | error error mid =>
      rw [final_of_error ran] at first
      rw [final_bind_of_error ran]
      exact first
    | ok receipt mid =>
      rw [final_of_ok ran] at first
      have rest := ih first later
      rw [final_bind_of_ok ran]
      cases more : executeAll txs mid with
      | error error last =>
        rw [final_of_error more] at rest
        rw [final_bind_of_error more]
        exact rest
      | ok receipts last =>
        rw [final_of_ok more] at rest
        rw [final_bind_of_ok more]
        exact rest

theorem exec_holds {call : ExecutorCall} (holds : State.Holds e.state) (held : call.Holds) :
    State.Holds (call.exec e).state := by
  cases call with
  | execute tx => exact execute_holds holds (held tx (List.mem_singleton_self tx))
  | executeForCapsule tx capsule closure s =>
    have exec : ExecutorCall.exec (.executeForCapsule tx capsule closure s) e =
        final (executeForCapsule tx capsule closure s) e := rfl
    rcases (executeForCapsule_leaves e tx capsule closure s).moves with same | executed | ⟨mid, restored⟩
    · rw [exec, same]
      exact holds
    · rw [exec, executed]
      exact execute_holds holds (held tx (List.mem_singleton_self tx))
    · rw [exec, restored]
      exact holds
  | executeBatch txs =>
    have exec : ExecutorCall.exec (.executeBatch txs) e = final (executeBatch txs) e := rfl
    rcases executeBatch_cases e txs with same | executed | ⟨mid, restored⟩
    · rw [exec, same]
      exact holds
    · rw [exec, executed]
      exact executeAll_holds holds held
    · rw [exec, restored]
      exact holds

theorem held_toDict (holds : State.Holds e.state) : e.toDict.Held := by
  have state : HeldFields e.state.entries := by
    refine heldFields_iff.mpr fun entry member => holds entry.1 entry.2 ?_
    exact (Dict.get?_eq_some_iff _).mpr member
  have nonces : HeldFields (e.nonces.entries.map fun entry => (entry.1, Json.int entry.2)) := by
    refine heldFields_iff.mpr fun entry member => ?_
    obtain ⟨_, -, rfl⟩ := List.mem_map.mp member
    simp [Json.Held]
  have receipts : HeldFields (e.receipts.entries.map fun entry => (entry.1, receiptDict entry.2)) := by
    refine heldFields_iff.mpr fun entry member => ?_
    obtain ⟨⟨_, receipt⟩, -, rfl⟩ := List.mem_map.mp member
    cases found : receipt.error <;> simp [receiptDict, Json.Held, HeldFields, found]
  have keys : ∀ {α : Type} (d : Dict String α) (write : α → Json),
      ((d.entries.map fun entry => (entry.1, write entry.2)).map Prod.fst).Nodup := by
    intro α d write
    rw [List.map_map]
    exact d.nodup
  have noncesKeys := keys e.nonces .int
  have receiptsKeys := keys e.receipts receiptDict
  simp only [toDict, Json.Held, HeldFields, List.map_cons, List.map_nil, state, nonces, receipts, e.state.nodup, noncesKeys,
    receiptsKeys]
  decide

end DeterministicExecutor

theorem setTx_holds (pair : KeyPair) : ExecutorCall.Holds (.execute (setTx pair)) := by
  intro tx member item within
  cases List.mem_singleton.mp member
  cases List.mem_singleton.mp within
  simp [Value.toJson, Json.Held]

end Store

end Mosaic
