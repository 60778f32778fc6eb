import Mosaic.Strict.Operations
import Mosaic.SealChain

namespace Mosaic.Strict
open CanonicalJson Effects Instance

variable [Crypto] [Texts] [Keyring] {s t : Instance}

/-- The instance after a call, whether it returned or raised. -/
def exec : Call → Instance → Instance
  | .createResource resourceId owner stateRoot secret => final (createResource resourceId owner stateRoot secret)
  | .createCapsule client predecessor successorRoot ruleId ruleWitness attempt bundleId =>
    final (createCapsule client predecessor successorRoot ruleId ruleWitness attempt bundleId)
  | .witnessReceipt memberId capsule status => final (witnessReceipt memberId capsule status)
  | .collectAcceptReceipts capsule => final (collectAcceptReceipts capsule)
  | .collectAbandonReceipts capsule => final (collectAbandonReceipts capsule)
  | .registerClosure capsule closure => final (registerClosure capsule closure)
  | .close capsule receipts => final (close capsule receipts)
  | .abandon capsule receipts => final (abandon capsule receipts)
  | .apply capsule closure => final (apply capsule closure)
  | .applyBundle bundle entries => final (applyBundle bundle entries)

/-- Runs of one instance by calls that are allowed where they are made. -/
abbrev Run (allowed : Instance → Call → Prop) (start s : Instance) : Prop := GuardedRun exec allowed start s

/-- A call that does not put a seal in place makes changes that can be made on texts that
can be encoded. -/
theorem exec_trace_of_still {call : Call} (still : call.Still) (s : Instance) : Trace call.events s (exec call s) := by
  cases call with
  | createResource | apply | applyBundle => exact still.elim
  | createCapsule =>
    refine (createCapsule_guarantees _ _ _ _ _ _ _).moves.trace.mono ?_
    rintro _ ⟨capsule, rfl⟩
    exact Or.inr trivial
  | witnessReceipt memberId capsule status =>
    exact (witnessReceipt_guarantees memberId status).moves.mono fun event allowed =>
      Or.inl ⟨status, capsule, rfl, allowed⟩
  | collectAcceptReceipts capsule =>
    exact collectAcceptReceipts_guarantees.moves.mono fun event allowed => Or.inl ⟨_, capsule, rfl, allowed⟩
  | collectAbandonReceipts capsule =>
    exact collectAbandonReceipts_guarantees.moves.mono fun event allowed => Or.inl ⟨_, capsule, rfl, allowed⟩
  | registerClosure capsule closure =>
    refine (registerClosure_guarantees closure).moves.trace.mono ?_
    rintro _ rfl
    exact Or.inr ⟨rfl, rfl⟩
  | close capsule receipts =>
    obtain ⟨t, collected, registered⟩ := (close_guarantees receipts).moves
    refine (collected.mono ?_).trans (registered.trace.mono ?_)
    · rintro event ⟨rfl, allowed⟩
      exact Or.inl ⟨_, capsule, rfl, allowed⟩
    · rintro _ ⟨closure, rfl⟩
      exact Or.inr rfl
  | abandon capsule receipts =>
    obtain ⟨t, collected, abandoned⟩ := (abandon_guarantees receipts).moves
    refine (collected.mono ?_).trans (abandoned.trace.mono ?_)
    · rintro event ⟨rfl, allowed⟩
      exact Or.inl ⟨_, capsule, rfl, allowed⟩
    · rintro _ ⟨proof, rfl⟩
      exact Or.inr rfl

theorem exec_still {call : Call} (still : call.Still) (s : Instance) :
    (exec call s).currentSeals = s.currentSeals ∧ (exec call s).knownSeals = s.knownSeals ∧
      (exec call s).epoch = s.epoch := by
  refine (exec_trace_of_still still s).invariant
    (I := fun t => t.currentSeals = s.currentSeals ∧ t.knownSeals = s.knownSeals ∧ t.epoch = s.epoch)
    ⟨rfl, rfl, rfl⟩ ?_
  rintro event t u allowed update ⟨currents, knowns, epoch⟩
  obtain ⟨currents', knowns', epoch'⟩ := still.update allowed update
  exact ⟨currents'.trans currents, knowns'.trans knowns, epoch'.trans epoch⟩

/-- The current seal of a resource is one of this resource. -/
def Filed (s : Instance) : Prop := ∀ r current, s.currentSeals.get? r = some current → current.resourceId = r

/-- What keeps the seals under their resources. -/
def Files (s t : Instance) : Prop := Filed s → Filed t

instance : Std.Refl Files := ⟨fun _ => id⟩

instance : IsTrans Instance Files := ⟨fun _ _ _ first second => second ∘ first⟩

omit [Texts] [Keyring] in
theorem Filed.set (filed : Filed s) {fresh : StateSeal}
    (same : t.currentSeals = s.currentSeals.set fresh.resourceId fresh) : Filed t := by
  intro r current held
  rw [same] at held
  rcases Dict.origin_of_get?_set held with ⟨rfl, rfl⟩ | old
  · rfl
  · exact filed r current old

omit [Keyring] in
/-- Also a seal whose identifier fails is filed under its resource. -/
theorem install_guarantees (fresh : StateSeal) : Guarantees Files s (install fresh) fun _ _ => True := by
  by_cases fine : fresh.statement.Encodable
  · exact .of_ok (install_of_encodable fine) (fun filed => filed.set rfl) trivial
  · exact .of_error (install_of_not fine) fun filed => filed.set rfl

/-- What the checking loop of `apply_bundle` has found when it returns. -/
structure Checked (s : Instance) (entry : Capsule × ClosureProof) : Prop where
  registered : s.closures.get? entry.1.capsuleId = some entry.2
  verified : verifyClosure s.toMosaicProtocol entry.1 entry.2 = .ok true
  current : ∃ current, s.currentFor entry.1 = some current

theorem checkEntries_guarantees (s t : Instance) (entries : List (Capsule × ClosureProof)) :
    Guarantees Eq t (checkEntries s entries) fun _ _ => ∀ entry ∈ entries, Checked s entry := by
  induction entries with
  | nil => exact .pure (by simp)
  | cons entry entries ih =>
    obtain ⟨capsule, closure⟩ := entry
    refine .raiseIf_bind fun registered => .raiseIf_bind fun same => .ofExcept_bind fun verified checked => ?_
    refine .raiseIf_bind fun accepted => .ofExcept_bind fun current looked => .raiseIf_bind fun present => ?_
    refine ih.mono fun _ _ _ ready => List.forall_mem_cons.mpr ⟨⟨not_not.mp registered, ?_, ?_⟩, ready⟩
    · rwa [(Bool.not_eq_false verified).mp accepted] at checked
    · rw [Bool.not_eq_true, Option.isNone_eq_false_iff, Option.isSome_iff_exists] at present
      exact present.imp fun found same => (sealNamed_ok looked).trans same

theorem exec_filed (call : Call) : Files s (exec call s) := by
  by_cases still : call.Still
  · intro filed r current held
    rw [(exec_still still s).1] at held
    exact filed r current held
  cases call with
  | createResource resourceId owner stateRoot secret =>
    have made : Guarantees Files s (createResource resourceId owner stateRoot secret) fun _ _ => True := by
      refine .get_bind (.raiseIf_bind fun _ => .ofExcept_bind fun capability _ => ?_)
      exact (install_guarantees _).bind fun _ _ _ _ => .pure trivial
    exact made.moves
  | apply capsule closure =>
    intro filed
    have filed' : Filed (registering s capsule closure) := fun r current held =>
      filed r current ((registering_seals s capsule closure).1 ▸ held)
    have outcome := apply_outcome s capsule closure
    change Filed (final (apply capsule closure) s)
    generalize ran : apply capsule closure s = result at outcome
    cases outcome with
    | refused e stops =>
      rw [final_of_error ran]
      exact filed
    | stopped e proceeds away unlike =>
      rw [final_of_error ran]
      exact filed'
    | torn current proceeds heads bad =>
      rw [final_of_error ran]
      exact filed'.set rfl
    | installed current proceeds heads fine =>
      rw [final_of_ok ran]
      exact filed'.set rfl
    | known current proceeds succeeds =>
      rw [final_of_ok ran]
      exact filed'
  | applyBundle bundle entries =>
    have made : Guarantees Files s (applyBundle bundle entries) fun _ _ => True := by
      refine .get_bind (.raiseIf_bind fun _ => .raiseIf_bind fun _ => ?_)
      refine .read_bind (checkEntries_guarantees s s entries) fun _ _ => .ofExcept_bind fun seals _ => ?_
      refine .bind (.forM fun fresh _ t _ => install_guarantees fresh) fun _ _ _ _ => .pure trivial
    exact made.moves
  | _ => exact absurd trivial still

theorem Run.filed {allowed : Instance → Call → Prop} {members : Dict String Member} {epoch : Int}
    (run : Run allowed (.fresh members epoch) s) : Filed s :=
  run.invariant (P := Filed) (fun _ _ held => nomatch held) fun _ call _ filed => exec_filed call filed

end Mosaic.Strict
