import Mosaic.MembershipOutcomes

namespace Mosaic
open CanonicalJson Effects Economy

/-- The operations of the manager. -/
def EconomyCall.OfManager : EconomyCall → Prop
  | .admitValidator .. | .exit .. | .withdraw .. | .slash .. | .penalizeNonReveal .. | .advanceEpoch
  | .restoreAdmission .. => True
  | _ => False

variable [Crypto]

namespace BeaconRoundCoordinator

variable {R : Economy → Economy → Prop} [Std.Refl R] {s : Economy}
  (stores : ∀ (store : EconomyStore) (s : Economy), R s (s.setStore store))

include stores

omit [Crypto] [Std.Refl R] in
theorem onStore_keeps {α : Type} {x : EStateM EconomyError EconomyStore α} :
    Guarantees R s (onStore x) (fun _ _ => True) := by
  refine ⟨?_, fun _ _ _ => trivial⟩
  rw [onStore, final_onPart]
  exact stores _ s

omit [Crypto] in
theorem putRow_keeps {kind objectKey : String} {payload : EconomyRow} :
    Guarantees R s (putRow kind objectKey payload) (fun _ _ => True) := by
  refine .get_bind ?_
  split
  · exact onStore_keeps stores
  · exact .pure trivial

variable [IsTrans Economy R] (tables : ∀ (rounds : BeaconRounds) (s : Economy), R s (s.setRounds rounds))

include tables

theorem submitCommitment_keeps {commitment : RandomnessCommitment} :
    Guarantees R s (submitCommitment commitment) (fun _ _ => True) := by
  refine .get_bind ?_
  dsimp only
  split
  · exact .throw _
  · exact .raiseIf_bind fun _ => .raiseIf_bind fun _ => .raiseIf_bind fun _ => .raiseIf_bind fun _ =>
      Guarantees.bind (Q := fun _ _ => True) (.update (tables _ _) trivial) fun _ _ _ _ => putRow_keeps stores

theorem submitReveal_keeps {reveal : RandomnessReveal} :
    Guarantees R s (submitReveal reveal) (fun _ _ => True) := by
  refine .get_bind ?_
  dsimp only
  split
  · exact .throw _
  · split
    · exact .throw _
    · exact .raiseIf_bind fun _ => .raiseIf_bind fun _ => .raiseIf_bind fun _ =>
        Guarantees.bind (Q := fun _ _ => True) (.update (tables _ _) trivial) fun _ _ _ _ => putRow_keeps stores

end BeaconRoundCoordinator

/-- The relation holds between the states before and after an operation of
ledger, store or manager. -/
structure Kept (R : Economy → Economy → Prop) : Prop where
  ledger : ∀ (call : SettlementCall) (s : Economy), R s (s.setLedger (call.exec s.ledger))
  store : ∀ (store : EconomyStore) (s : Economy), R s (s.setStore store)
  manager : ∀ (call : EconomyCall) (s : Economy), call.OfManager → R s (call.exec s)

theorem RandomnessIncentiveManager.distributeRewards_performs (epoch total : Int) (weights : Dict String Int) :
    Performs (SettlementLedger.distributeRewards epoch total weights) (.distributeRewards epoch total weights) := by
  intro l
  cases run : SettlementLedger.distributeRewards epoch total weights l with
  | ok events t => exact Or.inl ⟨events, events, t, rfl, run⟩
  | error e t => exact Or.inr ⟨e, e, t, rfl, run⟩

namespace Kept

variable {R : Economy → Economy → Prop} {α : Type} {s : Economy}

section Operations
variable (kept : Kept R)
include kept

theorem onLedger {y : PyLedger α} {call : SettlementCall} (performs : Performs y call) :
    Guarantees R s (onLedger y) (fun _ _ => True) := by
  have step := kept.ledger call s
  rcases performs s.ledger with ⟨b, events, l, run, same⟩ | ⟨e, e', l, run, same⟩
  · rw [SettlementCall.exec, final_of_ok same] at step
    exact .of_ok (onPart_of_ok run) step trivial
  · rw [SettlementCall.exec, final_of_error same] at step
    exact .of_error (onPart_of_error run) step

theorem ledgerCall {call : SettlementCall} : Guarantees R s (Economy.onLedger call.run) (fun _ _ => True) :=
  kept.onLedger fun l => by
    cases run : call.run l with
    | ok events t => exact Or.inl ⟨events, events, t, rfl, rfl⟩
    | error e t => exact Or.inr ⟨e, e, t, rfl, rfl⟩

theorem onStore {x : EStateM EconomyError EconomyStore α} : Guarantees R s (onStore x) (fun _ _ => True) :=
  BeaconRoundCoordinator.onStore_keeps kept.store

theorem persist : Guarantees R s persist (fun _ _ => True) := .get_bind kept.onStore

theorem penalizeNonReveal {validatorId : String} {epoch round penalty : Int} :
    Guarantees R s (MembershipManager.penalizeNonReveal validatorId epoch round penalty) (fun _ _ => True) := by
  have step := kept.manager (.penalizeNonReveal validatorId epoch round penalty) s trivial
  rw [EconomyCall.exec, EconomyCall.run, final_discard] at step
  exact ⟨step, fun _ _ _ => trivial⟩

theorem admitValidator {request : AdmissionRequest} {approverIds : List String} {bond : Option StakeBond} :
    Guarantees R s (MembershipManager.admitValidator request approverIds bond) (fun _ _ => True) := by
  have step := kept.manager (.admitValidator request approverIds bond) s trivial
  rw [EconomyCall.exec, EconomyCall.run, final_discard] at step
  exact ⟨step, fun _ _ _ => trivial⟩

theorem restoreAdmission {request : AdmissionRequest} {bond : StakeBond} :
    Guarantees R s (MembershipManager.restoreAdmission request bond) (fun _ _ => True) :=
  ⟨kept.manager (.restoreAdmission request bond) s trivial, fun _ _ _ => trivial⟩

end Operations

variable [Std.Refl R] [IsTrans Economy R] (kept : Kept R)

omit [Crypto] [IsTrans Economy R] in
theorem ofExcept {x : Except EconomyError α} : Guarantees R s (ofExcept x : PyEconomy α) (fun _ _ => True) := by
  cases x with
  | ok a => exact .of_ok rfl (refl_of R s) trivial
  | error e => exact .of_error rfl (refl_of R s)

include kept

section Rounds
variable {validatorBonds : Dict String String} {round : Int}

theorem penalize {penalty : Int} {validatorId : String} :
    Guarantees R s (RandomnessIncentiveManager.penalize validatorBonds round penalty validatorId) (fun _ _ => True) := by
  refine .get_bind ?_
  cases validatorBonds.get? validatorId with
  | none => exact .throw _
  | some bondId =>
    exact (kept.onLedger (slash_performs _ _ _ _)).rethrow.bind fun _ _ _ _ =>
      kept.penalizeNonReveal.rethrow.bind fun _ _ _ _ => .pure trivial

theorem penalizeAll {penalty : Int} {validatorIds : List String} :
    Guarantees R s (RandomnessIncentiveManager.penalizeAll validatorBonds round penalty validatorIds)
      (fun _ _ => True) := by
  induction validatorIds generalizing s with
  | nil => exact .pure trivial
  | cons validatorId validatorIds ih =>
    unfold RandomnessIncentiveManager.penalizeAll
    split
    · exact ih
    · exact kept.penalize.bind fun _ _ _ _ => ih.bind fun _ _ _ _ => .pure trivial

theorem reward {revealMap : Dict String RandomnessReveal} {revealReward : Int} :
    Guarantees R s (RandomnessIncentiveManager.reward validatorBonds revealMap round revealReward)
      (fun _ _ => True) := by
  refine .get_bind ?_
  split
  · exact (kept.onLedger (RandomnessIncentiveManager.distributeRewards_performs _ _ _)).rethrow.bind fun _ _ _ _ =>
      .pure trivial
  · exact .pure trivial

theorem settleRound {commitments : List RandomnessCommitment} {reveals : List RandomnessReveal}
    {revealReward nonRevealPenalty : Int} :
    Guarantees R s
      (RandomnessIncentiveManager.settleRound commitments reveals validatorBonds round revealReward nonRevealPenalty)
      (fun _ _ => True) :=
  .get_bind (.raiseIf_bind fun _ => .raiseIf_bind fun _ => .raiseIf_bind fun _ => .raiseIf_bind fun _ =>
    .raiseIf_bind fun _ => .raiseIf_bind fun _ => ofExcept.rethrow.bind fun _ _ _ _ =>
      kept.penalizeAll.bind fun _ _ _ _ => kept.reward.bind fun _ _ _ _ => .get_bind (.pure trivial))

end Rounds

theorem record {request : AdmissionRequest} {bond : StakeBond} {certificate : AdmissionCertificate} :
    Guarantees R s (AdmissionCoordinator.record request bond certificate) (fun _ _ => True) :=
  .get_bind (.raiseIf_bind fun _ => kept.persist.bind fun _ _ _ _ => kept.onStore)

theorem onboard {request : AdmissionRequest} {bond : StakeBond} {approverIds : List String} :
    Guarantees R s (AdmissionCoordinator.admitValidator request bond approverIds) (fun _ _ => True) :=
  .get_bind (.raiseIf_bind fun _ => .raiseIf_bind fun _ => .raiseIf_bind fun _ => .raiseIf_bind fun _ =>
    .raiseIf_bind fun _ => kept.admitValidator.rethrow.bind fun _ _ _ _ =>
      kept.record.bind fun _ _ _ _ => .pure trivial)

theorem restoreAll {rows : List (AdmissionRequest × StakeBond)} :
    Guarantees R s (AdmissionCoordinator.restoreAll rows) (fun _ _ => True) := by
  induction rows generalizing s with
  | nil => exact .pure trivial
  | cons row rows ih => exact kept.restoreAdmission.bind fun _ _ _ _ => ih

theorem restoreFromStore : Guarantees R s AdmissionCoordinator.restoreFromStore (fun _ _ => True) :=
  .get_bind (.raiseIf_bind fun _ => kept.restoreAll.bind fun _ _ _ _ =>
    .get_bind (.raiseIf_bind fun _ => .pure trivial))

section Tables
variable (tables : ∀ (rounds : BeaconRounds) (s : Economy), R s (s.setRounds rounds))
include tables

theorem finalize {round revealReward nonRevealPenalty : Int} :
    Guarantees R s (BeaconRoundCoordinator.finalize round revealReward nonRevealPenalty) (fun _ _ => True) := by
  refine .get_bind ?_
  dsimp only
  split
  · exact .pure trivial
  · refine .raiseIf_bind fun _ => kept.settleRound.rethrow.bind fun _ _ _ _ =>
      Guarantees.bind (Q := fun _ _ => True) (.update (tables _ _) trivial) fun _ t _ _ => .get_bind ?_
    split
    · exact kept.persist.bind fun _ _ _ _ => kept.onStore.bind fun _ _ _ _ => .pure trivial
    · exact .pure trivial

/-- What the operations and a change of the tables keep, every call keeps. -/
theorem exec (bound : ∀ s : Economy, R s s.bindOnboarding) (call : EconomyCall) (s : Economy) : R s (call.exec s) := by
  have discards : ∀ {β : Type} {x : PyEconomy β}, Guarantees R s x (fun _ _ => True) → R s (final (discard x) s) := by
    intro β x keeps
    rw [final_discard]
    exact keeps.moves
  cases call with
  | ledger call => exact discards kept.ledgerCall
  | admitValidator request approverIds bond => exact kept.manager (.admitValidator request approverIds bond) s trivial
  | exit validatorId epoch => exact kept.manager (.exit validatorId epoch) s trivial
  | withdraw validatorId currentEpoch => exact kept.manager (.withdraw validatorId currentEpoch) s trivial
  | slash evidence penalty => exact kept.manager (.slash evidence penalty) s trivial
  | penalizeNonReveal validatorId epoch round penalty =>
    exact kept.manager (.penalizeNonReveal validatorId epoch round penalty) s trivial
  | advanceEpoch => exact kept.manager .advanceEpoch s trivial
  | restoreAdmission request bond => exact kept.manager (.restoreAdmission request bond) s trivial
  | settleRound => exact discards kept.settleRound
  | submitCommitment => exact (BeaconRoundCoordinator.submitCommitment_keeps kept.store tables).moves
  | submitReveal => exact (BeaconRoundCoordinator.submitReveal_keeps kept.store tables).moves
  | finalize => exact discards (kept.finalize tables)
  | onboard => exact discards kept.onboard
  | bindStore => exact bound s
  | restoreFromStore => exact discards kept.restoreFromStore

end Tables

end Kept

end Mosaic
