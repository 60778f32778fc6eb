import Mosaic.Nexus.TwoPhases

namespace Mosaic.Nexus
open CanonicalJson Effects

variable [Crypto]

/-- Whether a program returns. -/
def returned {α : Type} (x : PyDomain α) (d : DomainExecutor) : Bool :=
  match x d with
  | .ok _ _ => true
  | .error _ _ => false

theorem returned_of_ok {α : Type} {x : PyDomain α} {d t : DomainExecutor} {a : α} (run : x d = .ok a t) :
    returned x d = true := by rw [returned, run]

theorem returned_of_error {α : Type} {x : PyDomain α} {d t : DomainExecutor} {e : NexusError} (run : x d = .error e t) :
    returned x d = false := by rw [returned, run]

namespace DomainCall

def returns : DomainCall → DomainExecutor → Bool
  | addObject state => returned (DomainExecutor.addObject state)
  | prepare operation availability => returned (DomainExecutor.prepare operation availability)
  | commitCertificate operation prepared => returned (DomainExecutor.commitCertificate operation prepared)
  | applyCommitted operation certificate => returned (DomainExecutor.applyCommitted operation certificate)
  | commit operation prepared => returned (DomainExecutor.commit operation prepared)
  | finalize operation => returned (DomainExecutor.finalize operation)
  | signedElsewhere _ _ => fun _ => true
  | recordedElsewhere vote => returned (DomainExecutor.onCommittee (QuorumCommittee.recordVote vote))

/-- The operation that the call applies. -/
def applies (call : DomainCall) (d : DomainExecutor) : Option Operation :=
  if call.returns d then call.operation else none

end DomainCall

namespace DomainExecutor

/-- The executor after the calls. -/
def after (d : DomainExecutor) (calls : List DomainCall) : DomainExecutor := calls.foldl (fun d call => call.exec d) d

/-- The operations that the calls apply, in their order. -/
def appliedBy (d : DomainExecutor) : List DomainCall → List Operation
  | [] => []
  | call :: calls => (call.applies d).toList ++ appliedBy (call.exec d) calls

/-- The version that an object had when it came to the executor. -/
def firstVersion (d : DomainExecutor) (calls : List DomainCall) (key : String) : Option Int :=
  match d.objects.get? key, calls with
  | some state, _ => some state.version
  | none, [] => none
  | none, call :: calls => firstVersion (call.exec d) calls key

/-- The local inputs of an operation, by their names. -/
def inputIds (d : DomainExecutor) (operation : Operation) : List String :=
  (d.localInputs operation).map InputRef.objectId

/-- How often an object is among the inputs. -/
def uses (d : DomainExecutor) (key : String) (operations : List Operation) : Nat :=
  operations.countP fun operation => key ∈ d.inputIds operation

/-- The versions of objects that an operation uses up. -/
def consumes (d : DomainExecutor) (operation : Operation) : List (String × Int) :=
  (d.localInputs operation).map fun item => (item.objectId, item.expectedVersion)

variable {d t : DomainExecutor} {operation : Operation} {call : DomainCall} {calls : List DomainCall} {key : String}

/-- How a call changes objects and committed operations, and what it applies. -/
inductive Change (d : DomainExecutor) (call : DomainCall) : Prop
  | nothing (domainId : (call.exec d).domainId = d.domainId) (applies : call.applies d = none)
      (objects : (call.exec d).objects = d.objects)
      (committed : (call.exec d).committedOperations = d.committedOperations)
  | added (domainId : (call.exec d).domainId = d.domainId) (applies : call.applies d = none) (state : ObjectState)
      (returns : call.returns d = true) (free : d.objects.get? state.objectId = none)
      (objects : (call.exec d).objects = d.objects.set state.objectId state)
      (committed : (call.exec d).committedOperations = d.committedOperations)
  | applied (domainId : (call.exec d).domainId = d.domainId) (operation : Operation)
      (applies : call.applies d = some operation) (returns : call.returns d = true) (valid : d.Valid operation)
      (objects : (call.exec d).objects = (d.localWrites operation).foldl overwrite d.objects)
      (committed : (call.exec d).committedOperations = insert operation.opId d.committedOperations)

theorem applies_of_silent (silent : call.operation = none) (d : DomainExecutor) : call.applies d = none := by
  rw [DomainCall.applies, silent, ite_self]

theorem applies_of_raised (raised : call.returns d = false) : call.applies d = none := by
  rw [DomainCall.applies, raised]
  rfl

theorem applies_of_returned (returns : call.returns d = true) : call.applies d = call.operation := by
  rw [DomainCall.applies, if_pos returns]

/-- A call that only collects changes nothing here. -/
theorem Collects.change (collects : Collects d (call.exec d)) (applies : call.applies d = none) : d.Change call :=
  .nothing collects.domainId applies collects.objects collects.committedOperations

theorem Finalized.change {certificate : Certificate} (done : d.Finalized operation certificate (call.exec d))
    (returns : call.returns d = true) (named : call.operation = some operation) : d.Change call := by
  obtain ⟨u, collects, valid, -, same⟩ := done
  refine .applied ?_ operation ((applies_of_returned returns).trans named) returns
    (valid.of_sameState collects.sameState.symm) ?_ ?_
  · rw [same]
    exact collects.domainId
  · rw [same]
    change (u.localWrites operation).foldl overwrite u.objects = _
    rw [collects.objects, collects.sameState.localWrites]
  · rw [same]
    change insert operation.opId u.committedOperations = _
    rw [collects.committedOperations]

theorem change_exec (d : DomainExecutor) (call : DomainCall) : d.Change call := by
  cases call with
  | addObject state =>
    rcases addObject_cases d state with ⟨error, raised⟩ | ⟨-, free, ran⟩
    · have stays : (DomainCall.addObject state).exec d = d := final_of_error raised
      exact .nothing (by rw [stays]) (applies_of_silent rfl d) (by rw [stays]) (by rw [stays])
    · have moves : (DomainCall.addObject state).exec d = d.setObject state state.objectId := final_of_ok ran
      exact .added (by rw [moves]; rfl) (applies_of_silent rfl d) state (returned_of_ok ran) free (by rw [moves]; rfl)
        (by rw [moves]; rfl)
  | prepare operation availability => exact collects_prepare.moves.change (applies_of_silent rfl d)
  | commitCertificate operation prepared => exact collects_commitCertificate.moves.change (applies_of_silent rfl d)
  | applyCommitted operation certificate =>
    rcases applyCommitted_cases d operation certificate with ⟨error, raised⟩ | ⟨valid, -, ran⟩
    · have stays : (DomainCall.applyCommitted operation certificate).exec d = d := final_of_error raised
      exact .nothing (by rw [stays]) (applies_of_raised (returned_of_error raised)) (by rw [stays]) (by rw [stays])
    · have moves : (DomainCall.applyCommitted operation certificate).exec d = d.applied operation certificate :=
        final_of_ok ran
      have returns : (DomainCall.applyCommitted operation certificate).returns d = true := returned_of_ok ran
      exact .applied (by rw [moves]; rfl) operation (applies_of_returned returns) returns valid (by rw [moves]; rfl)
        (by rw [moves]; rfl)
  | commit operation prepared =>
    rcases commit_cases d operation prepared with ⟨error, t, raised, collects⟩ | ⟨certificate, t, ran, done⟩
    · have moves : (DomainCall.commit operation prepared).exec d = t := final_of_error raised
      exact (moves ▸ collects).change (applies_of_raised (returned_of_error raised))
    · have moves : (DomainCall.commit operation prepared).exec d = t := final_of_ok ran
      exact (moves ▸ done).change (returned_of_ok ran) rfl
  | finalize operation =>
    rcases finalize_cases d operation with ⟨error, t, raised, collects⟩ | ⟨certificate, t, ran, done⟩
    · have moves : (DomainCall.finalize operation).exec d = t := final_of_error raised
      exact (moves ▸ collects).change (applies_of_raised (returned_of_error raised))
    · have moves : (DomainCall.finalize operation).exec d = t := final_of_ok ran
      exact (moves ▸ done).change (returned_of_ok ran) rfl
  | signedElsewhere publicKey vote => exact .nothing rfl (applies_of_silent rfl d) rfl rfl
  | recordedElsewhere vote =>
    have moves : (DomainCall.recordedElsewhere vote).exec d =
        setCommittee (final (QuorumCommittee.recordVote vote) d.committee) d := final_onPart committee setCommittee _ _
    exact .nothing (by rw [moves]; rfl) (applies_of_silent rfl d) (by rw [moves]; rfl) (by rw [moves]; rfl)

/-- What a call does that applies an operation. -/
structure Application (d : DomainExecutor) (call : DomainCall) (operation : Operation) : Prop where
  valid : d.Valid operation
  objects : (call.exec d).objects = (d.localWrites operation).foldl overwrite d.objects
  committed : (call.exec d).committedOperations = insert operation.opId d.committedOperations

theorem application_of_applies (applies : call.applies d = some operation) : d.Application call operation := by
  cases change_exec d call with
  | nothing _ silent =>
    rw [silent] at applies
    cases applies
  | added _ silent =>
    rw [silent] at applies
    cases applies
  | applied _ other applies' _ valid objects committed =>
    cases applies'.symm.trans applies
    exact ⟨valid, objects, committed⟩

theorem domainId_exec (d : DomainExecutor) (call : DomainCall) : (call.exec d).domainId = d.domainId := by
  cases change_exec d call with
  | nothing domainId => exact domainId
  | added domainId => exact domainId
  | applied domainId => exact domainId

theorem inputIds_exec (d : DomainExecutor) (call : DomainCall) : (call.exec d).inputIds = d.inputIds := by
  funext operation
  simp only [inputIds, localInputs, domainId_exec]

theorem consumes_exec (d : DomainExecutor) (call : DomainCall) : (call.exec d).consumes = d.consumes := by
  funext operation
  simp only [consumes, localInputs, domainId_exec]

namespace Valid

/-- An operation leaves alone what is not among its inputs. -/
theorem get?_of_notMem (valid : d.Valid operation) (other : key ∉ d.inputIds operation) :
    ((d.localWrites operation).foldl overwrite d.objects).get? key = d.objects.get? key := by
  refine get?_overwrite_of_notMem fun member => other ?_
  obtain ⟨intent, inWrites, rfl⟩ := List.mem_map.mp member
  obtain ⟨item, inInputs, same, -⟩ := valid.input_of_intent inWrites
  exact List.mem_map.mpr ⟨item, inInputs, same⟩

/-- Each input becomes what its write intent says. -/
theorem get?_of_mem (valid : d.Valid operation) (input : key ∈ d.inputIds operation) :
    ∃ intent ∈ d.localWrites operation, intent.objectId = key ∧ ∃ state, d.objects.get? key = some state ∧
      ((d.localWrites operation).foldl overwrite d.objects).get? key = some (successor intent state) := by
  obtain ⟨item, inInputs, rfl⟩ := List.mem_map.mp input
  obtain ⟨intent, inWrites, same, -⟩ := valid.intent_of_input inInputs
  obtain ⟨state, found, -⟩ := valid.current item inInputs
  refine ⟨intent, inWrites, same, state, found, ?_⟩
  rw [← same, get?_overwrite_of_mem d.objects valid.localWrites_distinct inWrites, same, found, Option.map_some]

theorem nodup_consumes (valid : d.Valid operation) : (d.consumes operation).Nodup := by
  have distinct : ((d.localInputs operation).map InputRef.key).Nodup :=
    valid.inputsDistinct.sublist (List.filter_sublist.map _)
  refine List.Nodup.map_on ?_ distinct.of_map
  intro item member item' member' same
  have here := of_decide_eq_true (List.mem_filter.mp member).2
  have here' := of_decide_eq_true (List.mem_filter.mp member').2
  exact List.inj_on_of_nodup_map distinct member member'
    (Prod.ext (here.trans here'.symm) (Prod.mk.inj same).1)

/-- What an operation uses up is the version that the object has. -/
theorem version_of_consumes (valid : d.Valid operation) {version : Int} (used : (key, version) ∈ d.consumes operation) :
    key ∈ d.inputIds operation ∧ ∃ state, d.objects.get? key = some state ∧ state.version = version := by
  obtain ⟨item, member, same⟩ := List.mem_map.mp used
  obtain ⟨rfl, rfl⟩ := Prod.mk.inj same
  obtain ⟨state, found, -, current, -⟩ := valid.current item member
  exact ⟨List.mem_map_of_mem member, state, found, current⟩

end Valid

/-- An object that is there stays, and its version counts what uses it. -/
theorem version_exec {state : ObjectState} (held : d.objects.get? key = some state) (call : DomainCall) :
    ∃ next, (call.exec d).objects.get? key = some next ∧
      next.version = state.version + d.uses key (call.applies d).toList := by
  cases change_exec d call with
  | nothing _ applies objects _ =>
    refine ⟨state, by rw [objects, held], ?_⟩
    rw [applies]
    exact (add_zero _).symm
  | added _ applies other _ free objects _ =>
    have apart : other.objectId ≠ key := by
      rintro rfl
      rw [held] at free
      cases free
    refine ⟨state, by rw [objects, Dict.get?_set_of_ne _ _ apart, held], ?_⟩
    rw [applies]
    exact (add_zero _).symm
  | applied _ operation applies _ valid objects _ =>
    by_cases input : key ∈ d.inputIds operation
    · obtain ⟨intent, -, -, old, found, written⟩ := valid.get?_of_mem input
      cases held.symm.trans found
      refine ⟨successor intent state, by rw [objects, written], ?_⟩
      have one : d.uses key (call.applies d).toList = 1 := by
        rw [applies]
        exact List.countP_singleton.trans (if_pos (decide_eq_true input))
      rw [one]
      rfl
    · refine ⟨state, by rw [objects, valid.get?_of_notMem input, held], ?_⟩
      have none : d.uses key (call.applies d).toList = 0 := by
        rw [applies]
        exact List.countP_singleton.trans (if_neg (by simpa using input))
      rw [none]
      exact (add_zero _).symm

/-- What is not there is used by no operation that is applied. -/
theorem uses_of_absent (absent : d.objects.get? key = none) (call : DomainCall) :
    d.uses key (call.applies d).toList = 0 := by
  refine List.countP_eq_zero.mpr fun operation member input => ?_
  have applied := application_of_applies (Option.mem_toList.mp member)
  obtain ⟨_, -, -, state, found, -⟩ := applied.valid.get?_of_mem (of_decide_eq_true input)
  rw [absent] at found
  cases found

theorem appliedBy_cons (d : DomainExecutor) (call : DomainCall) (calls : List DomainCall) :
    d.appliedBy (call :: calls) = (call.applies d).toList ++ (call.exec d).appliedBy calls := rfl

theorem uses_cons (d : DomainExecutor) (key : String) (call : DomainCall) (calls : List DomainCall) :
    d.uses key (d.appliedBy (call :: calls)) =
      d.uses key (call.applies d).toList + (call.exec d).uses key ((call.exec d).appliedBy calls) := by
  rw [appliedBy_cons, uses, List.countP_append, uses, uses, inputIds_exec]

theorem firstVersion_of_some {state : ObjectState} (held : d.objects.get? key = some state) (calls : List DomainCall) :
    d.firstVersion calls key = some state.version := by
  unfold firstVersion
  rw [held]

theorem firstVersion_of_none (absent : d.objects.get? key = none) (call : DomainCall) (calls : List DomainCall) :
    d.firstVersion (call :: calls) key = (call.exec d).firstVersion calls key := by
  conv_lhs => unfold firstVersion
  rw [absent]

/-- The version of an object counts the operations that had it as an input. -/
theorem version_after (calls : List DomainCall) {state : ObjectState}
    (held : (d.after calls).objects.get? key = some state) :
    ∃ first, d.firstVersion calls key = some first ∧ state.version = first + d.uses key (d.appliedBy calls) := by
  induction calls generalizing d with
  | nil => exact ⟨state.version, firstVersion_of_some held [], (add_zero _).symm⟩
  | cons call calls ih =>
    obtain ⟨first, start, count⟩ := ih (d := call.exec d) held
    rw [uses_cons, Nat.cast_add]
    cases here : d.objects.get? key with
    | none =>
      refine ⟨first, (firstVersion_of_none here call calls).trans start, ?_⟩
      rw [uses_of_absent here, count]
      omega
    | some old =>
      obtain ⟨next, found, moved⟩ := version_exec here call
      cases (firstVersion_of_some found calls).symm.trans start
      refine ⟨old.version, firstVersion_of_some here _, ?_⟩
      rw [count, moved]
      omega

theorem consumed_cons (d : DomainExecutor) (call : DomainCall) (calls : List DomainCall) :
    (d.appliedBy (call :: calls)).flatMap d.consumes =
      (call.applies d).toList.flatMap d.consumes ++ ((call.exec d).appliedBy calls).flatMap (call.exec d).consumes := by
  rw [appliedBy_cons, List.flatMap_append, consumes_exec]

/-- What a call uses up is the version that is there, and afterwards it is older. -/
theorem older_of_consumes {version : Int} (used : (key, version) ∈ (call.applies d).toList.flatMap d.consumes) :
    (∃ state, d.objects.get? key = some state ∧ state.version = version) ∧
      ∃ next, (call.exec d).objects.get? key = some next ∧ version < next.version := by
  obtain ⟨operation, applied, consumed⟩ := List.mem_flatMap.mp used
  obtain ⟨valid, objects, -⟩ := application_of_applies (Option.mem_toList.mp applied)
  obtain ⟨input, state, found, rfl⟩ := valid.version_of_consumes consumed
  obtain ⟨intent, -, -, old, found', written⟩ := valid.get?_of_mem input
  cases found.symm.trans found'
  exact ⟨⟨state, found, rfl⟩, successor intent state, by rw [objects, written], Int.lt_succ state.version⟩

/-- No operation of the run uses up a version from before. -/
theorem version_le_of_consumed (calls : List DomainCall) {state : ObjectState} (held : d.objects.get? key = some state)
    {version : Int} (used : (key, version) ∈ (d.appliedBy calls).flatMap d.consumes) : state.version ≤ version := by
  induction calls generalizing d state with
  | nil => cases used
  | cons call calls ih =>
    rw [consumed_cons] at used
    rcases List.mem_append.mp used with now | later
    · obtain ⟨⟨old, found, rfl⟩, -⟩ := older_of_consumes now
      cases held.symm.trans found
      exact le_refl _
    · obtain ⟨next, found, moved⟩ := version_exec held call
      have rest := ih found later
      omega

/-- No version of an object is used up twice. -/
theorem nodup_consumed (d : DomainExecutor) (calls : List DomainCall) :
    ((d.appliedBy calls).flatMap d.consumes).Nodup := by
  induction calls generalizing d with
  | nil => exact List.nodup_nil
  | cons call calls ih =>
    rw [consumed_cons]
    refine List.nodup_append.mpr ⟨?_, ih _, ?_⟩
    · cases applies : call.applies d with
      | none => exact List.nodup_nil
      | some operation =>
        change ([operation].flatMap d.consumes).Nodup
        rw [List.flatMap_singleton]
        exact (application_of_applies applies).valid.nodup_consumes
    · rintro ⟨key, version⟩ now _ later rfl
      obtain ⟨-, next, found, older⟩ := older_of_consumes now
      exact absurd (version_le_of_consumed calls found later) (not_le.mpr older)

/-- What is committed stays committed, and what is applied is committed. -/
theorem committed_exec (d : DomainExecutor) (call : DomainCall) :
    d.committedOperations ⊆ (call.exec d).committedOperations ∧ ∀ operation, call.applies d = some operation →
      operation.opId ∉ d.committedOperations ∧ operation.opId ∈ (call.exec d).committedOperations := by
  constructor
  · cases change_exec d call with
    | nothing _ _ _ committed => exact committed ▸ subset_rfl
    | added _ _ _ _ _ _ committed => exact committed ▸ subset_rfl
    | applied _ _ _ _ _ _ committed => exact committed ▸ Finset.subset_insert _ _
  · intro operation applies
    obtain ⟨valid, -, committed⟩ := application_of_applies applies
    exact ⟨valid.fresh, committed ▸ Finset.mem_insert_self _ _⟩

theorem fresh_of_applied (calls : List DomainCall) (member : operation ∈ d.appliedBy calls) :
    operation.opId ∉ d.committedOperations := by
  induction calls generalizing d with
  | nil => cases member
  | cons call calls ih =>
    obtain ⟨more, applied⟩ := committed_exec d call
    rcases List.mem_append.mp member with now | later
    · exact (applied operation (Option.mem_toList.mp now)).1
    · exact fun before => ih later (more before)

/-- No operation is applied twice, nor another of the same name. -/
theorem nodup_opIds (d : DomainExecutor) (calls : List DomainCall) : ((d.appliedBy calls).map Operation.opId).Nodup := by
  induction calls generalizing d with
  | nil => exact List.nodup_nil
  | cons call calls ih =>
    rw [appliedBy_cons, List.map_append]
    refine List.nodup_append.mpr ⟨?_, ih _, ?_⟩
    · cases call.applies d with
      | none => exact List.nodup_nil
      | some operation => exact List.nodup_singleton _
    · rintro opId now _ later rfl
      obtain ⟨operation, here, named⟩ := List.mem_map.mp now
      obtain ⟨other, there, named'⟩ := List.mem_map.mp later
      have committed := ((committed_exec d call).2 operation (Option.mem_toList.mp here)).2
      exact fresh_of_applied calls there (named' ▸ named ▸ committed)

/-- In every run each version of an object is used up at most once: the version
counts the operations that have used the object, no version and no name is used
twice, an operation changes its local inputs as its write intents say and nothing
else, and a call that raises changes nothing. -/
theorem versions_consumed_once (d : DomainExecutor) (calls : List DomainCall) :
    (∀ key state, (d.after calls).objects.get? key = some state →
      ∃ first, d.firstVersion calls key = some first ∧ state.version - first = d.uses key (d.appliedBy calls)) ∧
    ((d.appliedBy calls).flatMap d.consumes).Nodup ∧ ((d.appliedBy calls).map Operation.opId).Nodup ∧
    ∀ call : DomainCall,
      (∀ operation, call.applies (d.after calls) = some operation → ∀ key,
        (key ∉ (d.after calls).inputIds operation →
          (call.exec (d.after calls)).objects.get? key = (d.after calls).objects.get? key) ∧
        (key ∈ (d.after calls).inputIds operation →
          ∃ intent ∈ (d.after calls).localWrites operation, intent.objectId = key ∧
            ∃ state, (d.after calls).objects.get? key = some state ∧
              (call.exec (d.after calls)).objects.get? key = some (successor intent state))) ∧
      (call.returns (d.after calls) = false →
        (call.exec (d.after calls)).objects = (d.after calls).objects ∧
          (call.exec (d.after calls)).committedOperations = (d.after calls).committedOperations) := by
  refine ⟨fun key state held => ?_, nodup_consumed d calls, nodup_opIds d calls, fun call => ⟨?_, fun raised => ?_⟩⟩
  · obtain ⟨first, start, count⟩ := version_after calls held
    exact ⟨first, start, by omega⟩
  · intro operation applies key
    obtain ⟨valid, objects, -⟩ := application_of_applies applies
    rw [objects]
    exact ⟨valid.get?_of_notMem, valid.get?_of_mem⟩
  · cases change_exec (d.after calls) call with
    | nothing _ _ objects committed => exact ⟨objects, committed⟩
    | added _ _ _ returns =>
      rw [raised] at returns
      cases returns
    | applied _ _ _ returns =>
      rw [raised] at returns
      cases returns

end DomainExecutor

end Mosaic.Nexus
