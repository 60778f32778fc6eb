import Mosaic.Operations
import Mosaic.Lib.GuardedRun

namespace Mosaic
open CanonicalJson Effects

variable [Crypto]

/-- A call of one of the methods that change a protocol object. -/
inductive Call
  | createResource (resourceId owner stateRoot capabilitySecret : String)
  | createCapsule (client : KeyPair) (predecessor : StateSeal) (successorRoot ruleId ruleWitness : String)
      (attempt : Int) (bundleId : Option String)
  | witnessReceipt (memberId : String) (capsule : Capsule) (status : String)
  | collectAcceptReceipts (capsule : Capsule)
  | collectAbandonReceipts (capsule : Capsule)
  | registerClosure (capsule : Capsule) (closure : ClosureProof)
  | close (capsule : Capsule) (receipts : List WitnessReceipt)
  | abandon (capsule : Capsule) (receipts : List WitnessReceipt)
  | apply (capsule : Capsule) (closure : ClosureProof)
  | applyBundle (bundle : BundleClosure) (entries : List (Capsule × ClosureProof))

namespace Call

/-- The instance after the call, whether it returned or raised. -/
def exec : Call → Instance → Instance
  | createResource resourceId owner stateRoot secret =>
    final (Instance.createResource resourceId owner stateRoot secret)
  | createCapsule client predecessor successorRoot ruleId ruleWitness attempt bundleId =>
    final (Instance.createCapsule client predecessor successorRoot ruleId ruleWitness attempt bundleId)
  | witnessReceipt memberId capsule status => final (Instance.witnessReceipt memberId capsule status)
  | collectAcceptReceipts capsule => final (Instance.collectAcceptReceipts capsule)
  | collectAbandonReceipts capsule => final (Instance.collectAbandonReceipts capsule)
  | registerClosure capsule closure => final (Instance.registerClosure capsule closure)
  | close capsule receipts => final (Instance.close capsule receipts)
  | abandon capsule receipts => final (Instance.abandon capsule receipts)
  | apply capsule closure => final (Instance.apply capsule closure)
  | applyBundle bundle entries => final (Instance.applyBundle bundle entries)

/-- The capsule that a call witnesses, and with which status. -/
def witnessed : Call → Option (String × Capsule)
  | witnessReceipt _ capsule status => some (status, capsule)
  | collectAcceptReceipts capsule => some ("ACCEPT", capsule)
  | collectAbandonReceipts capsule => some ("ABANDON", capsule)
  | close capsule receipts => if receipts = [] then some ("ACCEPT", capsule) else none
  | abandon capsule receipts => if receipts = [] then some ("ABANDON", capsule) else none
  | _ => none

/-- What a call can change beyond what witnessing changes. -/
def changes : Call → Event → Prop
  | createResource _ _ _ _, .created _ => True
  | createCapsule _ _ _ _ _ _ _, .stored _ => True
  | registerClosure capsule closure, .registered c proof => c = capsule ∧ proof = closure
  | close capsule _, .registered c _ => c = capsule
  | abandon capsule _, .abandoned c _ => c = capsule
  | apply capsule closure, .registered c proof => c = capsule ∧ proof = closure
  | apply capsule closure, .installed c proof => c = capsule ∧ proof = closure
  | applyBundle _ entries, .bundled es => es = entries
  | _, _ => False

def events (call : Call) (event : Event) : Prop :=
  (∃ status capsule, call.witnessed = some (status, capsule) ∧ witnessing status capsule event) ∨
    call.changes event

theorem witnessed_of_claimed {call : Call} {capsule : Capsule} (event : call.events (.claimed capsule)) :
    call.witnessed = some ("ACCEPT", capsule) := by
  rcases event with ⟨status, c, witnessed, rfl, rfl⟩ | change
  · exact witnessed
  · cases call <;> exact change.elim

theorem witnessed_of_released {call : Call} {capsule : Capsule} (event : call.events (.released capsule)) :
    call.witnessed = some ("ABANDON", capsule) := by
  rcases event with ⟨status, c, witnessed, rfl, rfl⟩ | change
  · exact witnessed
  · cases call <;> exact change.elim

theorem witnessed_of_signed {call : Call} {capsule : Capsule} {receipt : WitnessReceipt}
    (event : call.events (.signed capsule receipt)) : call.witnessed = some (receipt.status, capsule) := by
  rcases event with ⟨status, c, witnessed, rfl, rfl⟩ | change
  · exact witnessed
  · cases call <;> exact change.elim

theorem exec_createResource_once (s : Instance) (resourceId owner stateRoot secret : String) :
    Once (fun event => ∃ fresh, event = .created fresh) s
      ((createResource resourceId owner stateRoot secret).exec s) :=
  (Instance.createResource_guarantees _ _ _ _).moves

theorem exec_createCapsule_once (s : Instance) (client : KeyPair) (predecessor : StateSeal)
    (successorRoot ruleId ruleWitness : String) (attempt : Int) (bundleId : Option String) :
    Once (fun event => ∃ capsule, event = .stored capsule) s
      ((createCapsule client predecessor successorRoot ruleId ruleWitness attempt bundleId).exec s) :=
  (Instance.createCapsule_guarantees _ _ _ _ _ _ _).moves

theorem exec_registerClosure_once (s : Instance) (capsule : Capsule) (closure : ClosureProof) :
    Once (· = .registered capsule closure) s ((registerClosure capsule closure).exec s) :=
  (Instance.registerClosure_guarantees closure).moves

theorem exec_close_parts (s : Instance) (capsule : Capsule) (receipts : List WitnessReceipt) :
    ∃ t, Trace (fun event => receipts = [] ∧ witnessing "ACCEPT" capsule event) s t ∧
      Once (fun event => s.Closable capsule receipts ∧ ∃ closure, event = .registered capsule closure) t
        ((close capsule receipts).exec s) :=
  (Instance.close_guarantees receipts).moves

theorem exec_abandon_parts (s : Instance) (capsule : Capsule) (receipts : List WitnessReceipt) :
    ∃ t, Trace (fun event => receipts = [] ∧ witnessing "ABANDON" capsule event) s t ∧
      Once (fun event => ∃ proof, event = .abandoned capsule proof) t ((abandon capsule receipts).exec s) :=
  (Instance.abandon_guarantees receipts).moves

theorem exec_apply_parts (s : Instance) (capsule : Capsule) (closure : ClosureProof) :
    ∃ t, Once (· = .registered capsule closure) s t ∧
      Once (· = .installed capsule closure) t ((apply capsule closure).exec s) :=
  (Instance.apply_guarantees closure).moves

theorem exec_applyBundle_once (s : Instance) (bundle : BundleClosure) (entries : List (Capsule × ClosureProof)) :
    Once (· = .bundled entries) s ((applyBundle bundle entries).exec s) :=
  (Instance.applyBundle_guarantees bundle entries).moves

/-- A call changes an instance only by the changes it is meant for. -/
theorem exec_trace (call : Call) (s : Instance) : Trace call.events s (call.exec s) := by
  cases call with
  | createResource resourceId owner stateRoot secret =>
    refine (exec_createResource_once s resourceId owner stateRoot secret).trace.mono ?_
    rintro _ ⟨fresh, rfl⟩
    exact Or.inr trivial
  | createCapsule =>
    refine (exec_createCapsule_once s _ _ _ _ _ _ _).trace.mono ?_
    rintro _ ⟨capsule, rfl⟩
    exact Or.inr trivial
  | witnessReceipt memberId capsule status =>
    exact (Instance.witnessReceipt_guarantees memberId status).moves.mono fun event allowed =>
      Or.inl ⟨status, capsule, rfl, allowed⟩
  | collectAcceptReceipts capsule =>
    exact Instance.collectAcceptReceipts_guarantees.moves.mono fun event allowed =>
      Or.inl ⟨_, capsule, rfl, allowed⟩
  | collectAbandonReceipts capsule =>
    exact Instance.collectAbandonReceipts_guarantees.moves.mono fun event allowed =>
      Or.inl ⟨_, capsule, rfl, allowed⟩
  | registerClosure capsule closure =>
    refine (exec_registerClosure_once s capsule closure).trace.mono ?_
    rintro _ rfl
    exact Or.inr ⟨rfl, rfl⟩
  | close capsule receipts =>
    obtain ⟨t, collected, registered⟩ := exec_close_parts s capsule receipts
    refine (collected.mono ?_).trans (registered.trace.mono ?_)
    · rintro event ⟨rfl, allowed⟩
      exact Or.inl ⟨_, capsule, rfl, allowed⟩
    · rintro _ ⟨-, closure, rfl⟩
      exact Or.inr rfl
  | abandon capsule receipts =>
    obtain ⟨t, collected, abandoned⟩ := exec_abandon_parts s capsule receipts
    refine (collected.mono ?_).trans (abandoned.trace.mono ?_)
    · rintro event ⟨rfl, allowed⟩
      exact Or.inl ⟨_, capsule, rfl, allowed⟩
    · rintro _ ⟨proof, rfl⟩
      exact Or.inr rfl
  | apply capsule closure =>
    obtain ⟨t, registered, installed⟩ := exec_apply_parts s capsule closure
    refine (registered.trace.mono ?_).trans (installed.trace.mono ?_)
    · rintro _ rfl
      exact Or.inr ⟨rfl, rfl⟩
    · rintro _ rfl
      exact Or.inr ⟨rfl, rfl⟩
  | applyBundle bundle entries =>
    refine (exec_applyBundle_once s bundle entries).trace.mono ?_
    rintro _ rfl
    exact Or.inr rfl

/-- A call that only witnesses changes only what witnessing changes. -/
theorem exec_witnessing (call : Call) (s : Instance) {status : String} {capsule : Capsule}
    (witnessed : call.witnessed = some (status, capsule)) (only : ∀ event, ¬ call.changes event) :
    Trace (witnessing status capsule) s (call.exec s) := by
  refine (call.exec_trace s).mono ?_
  rintro event (⟨status', capsule', same, allowed⟩ | change)
  · cases Option.some.inj (witnessed.symm.trans same)
    exact allowed
  · exact absurd change (only event)

end Call

/-- Runs of one instance by calls that are allowed where they are made. -/
abbrev Run (allowed : Instance → Call → Prop) (start s : Instance) : Prop :=
  GuardedRun Call.exec allowed start s

theorem Run.start (allowed : Instance → Call → Prop) (s : Instance) : Run allowed s s := .refl

theorem Run.call {allowed : Instance → Call → Prop} {s t : Instance} (run : Run allowed s t) (call : Call)
    (ok : allowed t call) : Run allowed s (call.exec t) :=
  run.tail ok

/-- Several instances, one of which is called. -/
def Network.exec {ι : Type} [DecidableEq ι] (call : ι × Call) (net : ι → Instance) : ι → Instance :=
  Function.update net call.1 (call.2.exec (net call.1))

/-- Runs of several instances, interleaved in any order. -/
abbrev Network.Run {ι : Type} [DecidableEq ι] (allowed : (ι → Instance) → ι × Call → Prop)
    (start net : ι → Instance) : Prop :=
  GuardedRun Network.exec allowed start net

theorem Network.exec_unit (s : Instance) (call : Call) :
    Network.exec ((), call) (fun _ => s) = fun _ => call.exec s := by
  funext
  exact Function.update_self _ _ _

theorem Network.Run.call {allowed : (Unit → Instance) → Unit × Call → Prop} {start : Unit → Instance} {s : Instance}
    (run : Network.Run allowed start fun _ => s) (call : Call) (ok : allowed (fun _ => s) ((), call)) :
    Network.Run allowed start fun _ => call.exec s :=
  Network.exec_unit s call ▸ run.tail ok

/-- Where every call is allowed, a single instance can be called by itself. -/
theorem Network.Run.of_calls {allowed : (Unit → Instance) → Unit × Call → Prop} (ok : ∀ net call, allowed net call)
    (s : Instance) (calls : List Call) :
    Network.Run allowed (fun _ => s) fun _ => calls.foldl (fun t call => call.exec t) s := by
  induction calls generalizing s with
  | nil => exact .refl
  | cons call calls ih =>
    have step := @GuardedRun.tail _ _ Network.exec _ _ _ _ .refl (ok (fun _ => s) ((), call))
    exact GuardedRun.trans (Network.exec_unit s call ▸ step) (ih (call.exec s))

/-- One instance of a network is called several times. -/
theorem Network.Run.calls {ι : Type} [DecidableEq ι] {allowed : (ι → Instance) → ι × Call → Prop}
    {start net : ι → Instance} (run : Network.Run allowed start net) (i : ι) (calls : List Call)
    (ok : ∀ net, ∀ call ∈ calls, allowed net (i, call)) :
    Network.Run allowed start (Function.update net i (calls.foldl (fun s call => call.exec s) (net i))) := by
  induction calls generalizing net with
  | nil => simpa using run
  | cons call calls ih =>
    have rest := ih (run.tail (ok net call List.mem_cons_self)) fun net other member =>
      ok net other (List.mem_cons_of_mem _ member)
    rwa [Network.exec, Function.update_self, Function.update_idem] at rest

/-- What every allowed change keeps in an instance, every run keeps in all. -/
theorem Network.Run.invariant {ι : Type} [DecidableEq ι] {allowed : (ι → Instance) → ι × Call → Prop}
    {start net : ι → Instance} {I : Instance → Prop} (run : Network.Run allowed start net)
    (initial : ∀ i, I (start i))
    (keep : ∀ net i call, allowed net (i, call) → I (net i) → I (call.exec (net i))) : ∀ i, I (net i) := by
  refine GuardedRun.invariant (P := fun net => ∀ i, I (net i)) run initial ?_
  rintro net ⟨i, call⟩ ok before j
  by_cases same : j = i
  · subst same
    simpa only [exec, Function.update_self] using keep net j call ok (before j)
  · simpa only [exec, Function.update_of_ne same] using before j

end Mosaic
