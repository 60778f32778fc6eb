import Mosaic.EconomyRuns
import Mosaic.Strict.Onboarding

namespace Mosaic.Strict
open CanonicalJson Effects Mosaic.Economy

theorem discard_error {α : Type} {x : PyEconomy α} {s t : Economy} {e : EconomyError} :
    (discard x) s = .error e t ↔ x s = .error e t := by
  have same : discard x = x >>= fun _ => pure ⟨⟩ := rfl
  rw [same, bind_apply]
  cases x s <;> simp

variable [Crypto] [Texts] {s t : Economy}

namespace JointCall
open Mosaic.MembershipManager

/-- The call that the operation makes of the ledger when it comes to that. -/
def settlementCall (s : Economy) : JointCall → Option SettlementCall
  | admitValidator _ _ bond => s.manager.admissionCall bond
  | exit validatorId _ =>
    s.manager.bondCall validatorId fun bondId => .requestUnbond bondId s.manager.epoch s.manager.withdrawalDelay
  | withdraw validatorId currentEpoch =>
    s.manager.bondCall validatorId fun bondId => .withdraw bondId (currentEpoch.getD s.manager.epoch)
  | slash evidence penalty => do
    let record ← s.manager.records.get? evidence.offenderId
    s.manager.bondCall evidence.offenderId fun bondId =>
      .slash bondId (penalty.getD record.stake) evidence.epoch evidence.evidenceId none
  | onboard _ bond _ => s.manager.admissionCall (some bond)

/-- When the operation raises, manager and ledger are as before. -/
def Atomic (s : Economy) (call : JointCall) : Prop :=
  ∀ e t, call.run s = .error e t → t.manager = s.manager ∧ t.ledger = s.ledger

/-- What the operation finds right before it asks the ledger is followed by nothing that raises. -/
def Completes (s : Economy) : JointCall → Prop
  | admitValidator request approverIds bond =>
    MembershipManager.Admissible s.manager request bond → MembershipManager.Certifiable s.manager request approverIds
  | exit validatorId epoch => ∀ record, s.manager.records.get? validatorId = some record →
    s.manager.Exitable validatorId epoch → MembershipManager.Leavable s.manager validatorId
  | withdraw validatorId currentEpoch => ∀ record, s.manager.records.get? validatorId = some record →
    s.manager.Backed validatorId → MembershipManager.Removable s.manager validatorId record (currentEpoch.getD s.manager.epoch)
  | slash evidence penalty => ∀ record, s.manager.records.get? evidence.offenderId = some record →
    MembershipManager.Punishable s.manager evidence →
      MembershipManager.Timely s.manager evidence record (penalty.getD record.stake)
  | onboard request bond approverIds => Onboardable s request bond →
    MembershipManager.Admissible s.manager request (some bond) → AdmissionCoordinator.Recordable s request approverIds

/-- Nothing is in the way any more when the ledger is paid. -/
def Settled (s : Economy) (call : JointCall) : Prop :=
  ∀ c, call.settlementCall s = some c → SettlementCall.Accepts s.ledger c → call.Completes s

end JointCall

theorem raised_atomic {call : JointCall} {α : Type} {x : PyEconomy α} (run : call.run = discard x)
    (raises : ∃ e, x s = .error e s) : call.Atomic s := by
  obtain ⟨e, raised⟩ := raises
  intro _ t ran
  rw [run] at ran
  cases raised.symm.trans (discard_error.mp ran)
  exact ⟨rfl, rfl⟩

/-- When the ledger call is atomic, the operation fails to be just where it raises after the ledger
has been paid. -/
theorem Ends.atomic_iff {call : JointCall} {α : Type} {x : PyEconomy α} {admitted late : Prop}
    (ends : Ends x s admitted (call.settlementCall s) late) (run : call.run = discard x) (sound : s.ledger.Sound)
    (quiet : ∀ c, call.settlementCall s = some c → SettlementCall.Atomic s.ledger c) :
    call.Atomic s ↔
      ∀ c, call.settlementCall s = some c → SettlementCall.Accepts s.ledger c → admitted → ¬ late := by
  rw [JointCall.Atomic, run]
  cases ends with
  | refused refused run =>
    refine iff_of_true (fun e t ran => ?_) fun _ _ _ able => absurd able refused
    cases run.symm.trans (discard_error.mp ran)
    exact ⟨rfl, rfl⟩
  | unpaid _ made ledger run =>
    refine iff_of_true (fun e t ran => ?_) fun c made' accepts => ?_
    · cases run.symm.trans (discard_error.mp ran)
      exact ⟨rfl, quiet _ made _ _ ledger⟩
    · cases made.symm.trans made'
      obtain ⟨events, l, returned⟩ := (SettlementLedger.returns_iff sound _).mpr accepts
      cases ledger.symm.trans returned
  | late holds made paid late run =>
    refine iff_of_false (fun atomic => ?_) fun timely => ?_
    · exact SettlementLedger.returned_ne sound paid (atomic _ _ (discard_error.mpr run)).2
    · exact timely _ made ((SettlementLedger.returns_iff sound _).mp ⟨_, _, paid⟩) holds late
  | returned _ _ _ timely _ _ run =>
    refine iff_of_true (fun e t ran => ?_) fun _ _ _ _ => timely
    cases run.symm.trans (discard_error.mp ran)

/-- An operation on a validator that is known. -/
theorem Ends.atomic_held_iff {call : JointCall} {α : Type} {x : PyEconomy α} {admitted : Prop}
    {late : ValidatorRecord → Prop} {validatorId : String} (run : call.run = discard x)
    (unknown : s.manager.records.get? validatorId = none → ∃ e, x s = .error e s)
    (ends : ∀ record, s.manager.records.get? validatorId = some record →
      Ends x s admitted (call.settlementCall s) (¬ late record)) (sound : s.ledger.Sound)
    (quiet : ∀ c, call.settlementCall s = some c → SettlementCall.Atomic s.ledger c) :
    call.Atomic s ↔ ∀ c, call.settlementCall s = some c → SettlementCall.Accepts s.ledger c →
      ∀ record, s.manager.records.get? validatorId = some record → admitted → late record := by
  cases held : s.manager.records.get? validatorId with
  | none =>
    refine iff_of_true (raised_atomic run (unknown held)) fun _ _ _ record found => ?_
    cases found
  | some record =>
    refine ((ends record held).atomic_iff run sound quiet).trans (forall₃_congr fun c _ _ => ?_)
    constructor
    · intro timely other here able
      cases here
      exact not_not.mp (timely able)
    · exact fun timely able => not_not.mpr (timely record rfl able)

/-- Given that the call of the ledger is atomic, an operation of the manager or of the coordinator is
atomic over both just where nothing makes it raise when the ledger has been paid. -/
theorem membership_atomic_iff (digests : DigestsEncode) {config : LedgerConfig}
    (reached : SettlementCall.Reached config s.ledger) (shared : s.manager.settlement = true) {call : JointCall}
    (quiet : ∀ c, call.settlementCall s = some c → SettlementCall.Atomic s.ledger c) : call.Atomic s ↔ call.Settled s := by
  have sound := SettlementLedger.sound_of_reached reached
  cases call with
  | admitValidator request approverIds bond =>
    refine ((MembershipManager.admit_ends digests shared request approverIds bond).atomic_iff rfl sound quiet).trans ?_
    exact forall₄_congr fun _ _ _ _ => not_not
  | exit validatorId epoch =>
    exact Ends.atomic_held_iff rfl (MembershipManager.exit_unknown · epoch)
      (fun _ held => MembershipManager.exit_ends shared held epoch) sound quiet
  | withdraw validatorId currentEpoch =>
    exact Ends.atomic_held_iff rfl (MembershipManager.withdraw_unknown · currentEpoch)
      (fun _ held => MembershipManager.withdraw_ends shared held currentEpoch) sound quiet
  | slash evidence penalty =>
    refine Ends.atomic_held_iff rfl (MembershipManager.slash_unknown · penalty) (fun record held => ?_) sound quiet
    have made : JointCall.settlementCall s (.slash evidence penalty) = s.manager.bondCall evidence.offenderId fun bondId =>
        .slash bondId (penalty.getD record.stake) evidence.epoch evidence.evidenceId none := by
      simp [JointCall.settlementCall, held]
    rw [made]
    exact MembershipManager.slash_ends shared held penalty
  | onboard request bond approverIds =>
    refine ((AdmissionCoordinator.onboard_ends digests shared request bond approverIds).atomic_iff rfl sound quiet).trans ?_
    refine forall₃_congr fun _ _ _ => ?_
    rw [and_imp]
    exact forall₂_congr fun _ _ => not_not

omit [Crypto] [Texts] in
/-- A withdrawal of a validator that has not left is refused by the ledger, and nothing is changed. -/
theorem membership_atomic_active : let _ := Crypto.ideal; let _ := Texts.lone
    (JointCall.withdraw "v" none).Atomic (stakedEconomy idealKey) := by
  intro _ _
  have held := @stakedLedger_position _ idealKey
  have reached := stakedLedger_reached ideal_collisionFree ideal_signaturesVerify ideal_named (by decide)
  have refused : ¬ SettlementCall.Accepts (stakedLedger idealKey) (.withdraw "b" 0) := by
    rintro ⟨found, able, -⟩
    cases held.symm.trans able.held
    cases able.inactive
  have call : JointCall.settlementCall (stakedEconomy idealKey) (.withdraw "v" none) = some (.withdraw "b" 0) := rfl
  refine (membership_atomic_iff (s := stakedEconomy idealKey) ideal_digestsEncode reached rfl fun c made e t ran => ?_).mpr
    fun c made accepts => ?_
  · cases call.symm.trans made
    cases SettlementLedger.withdraw_concludes (SettlementLedger.sound_of_reached reached) held 0 with
    | refused _ run =>
      cases (single_error run).symm.trans ran
      rfl
    | stopped able _ _ | returned able _ _ => cases able.inactive
  · cases call.symm.trans made
    exact absurd accepts refused

section Future
variable {pair : KeyPair}

omit [Texts] in
theorem soloEvidence_punishable : (stakedEconomy pair).manager.Punishable (soloEvidence 1) where
  verified := soloEvidence_verify (by decide)
  new := rfl
  backed := fun _ none => by cases none

omit [Texts] in
theorem soloEvidence_accepted (free : CollisionFree) (named : (soloEvidence 1).evidenceId ≠ "") :
    (Mosaic.SettlementCall.slash "b" 10 1 (soloEvidence 1).evidenceId none).Accepts (stakedEconomy pair).ledger := by
  refine ⟨_, ⟨by decide, named, Finset.notMem_empty _, stakedLedger_position⟩, ?_⟩
  rintro (recorded | ⟨some, -⟩)
  · exact stakedLedger_new free (by decide) (by decide) recorded
  · exact some rfl

omit [Crypto] [Texts] in
/-- The ledger has slashed the bond when the manager finds that the evidence is of an epoch to come. -/
theorem future_slash_not_atomic : let _ := Crypto.ideal; let _ := Texts.all
    ∃ s, EconomyCall.Reached s ∧ s.manager.settlement = true ∧ ∃ call : JointCall,
      (∀ c, call.settlementCall s = some c → SettlementCall.Atomic s.ledger c) ∧ ¬ call.Atomic s := by
  intro _ _
  have reached := stakedEconomy_reached ideal_collisionFree ideal_signaturesVerify ideal_named
  have accepted := @soloEvidence_accepted _ idealKey ideal_collisionFree (ideal_digest_named _)
  obtain ⟨events, l, returns⟩ := (returns_iff reached.sound _).mpr accepted
  rw [← SettlementCall.run_all] at returns
  have held : (stakedEconomy idealKey).manager.records.get? "v" = some (Mosaic.MembershipManager.admittedRecord (soloRequest idealKey)) := rfl
  refine ⟨_, reached, rfl, .slash (soloEvidence 1) none, fun c made e t ran => ?_, fun atomic => ?_⟩
  · cases made
    cases returns.symm.trans ran
  · have ends : Ends _ (stakedEconomy idealKey) _ _ _ := @MembershipManager.slash_ends _ _ _ (soloEvidence 1) _ rfl held none
    cases ends with
    | refused refused _ => exact refused ⟨soloEvidence_punishable, encodable_all _⟩
    | unpaid _ made ledger _ =>
      cases made
      cases returns.symm.trans ledger
    | late _ made paid _ run =>
      exact SettlementLedger.returned_ne reached.sound paid (atomic _ _ (discard_error.mpr run)).2
    | returned _ _ _ timely _ _ _ =>
      refine timely fun able => able.timely (Or.inl ?_)
      change (0 : Int) < 1
      decide

end Future

end Mosaic.Strict
