import Mosaic.EconomyRuns

namespace Mosaic
open CanonicalJson Effects Economy MembershipManager

/-- A validator is registered under its own identifier. -/
def MembershipManager.Keyed (m : MembershipManager) : Prop :=
  ∀ v record, m.records.get? v = some record → record.validatorId = v

theorem MembershipManager.Keyed.set {m m' : MembershipManager} (keyed : m.Keyed) (record : ValidatorRecord)
    (records : m'.records = m.records.set record.validatorId record) : m'.Keyed := by
  intro v other held
  rw [records] at held
  rcases Dict.origin_of_get?_set held with ⟨rfl, rfl⟩ | old
  · rfl
  · exact keyed v other old

structure Economy.Quiet (s t : Economy) : Prop where
  rounds : t.rounds = s.rounds
  keyed : s.manager.Keyed → t.manager.Keyed

variable {α : Type} {s t : Economy}

namespace Economy

instance : Std.Refl Quiet := ⟨fun _ => ⟨rfl, id⟩⟩

instance : IsTrans Economy Quiet :=
  ⟨fun _ _ _ first second => ⟨second.rounds.trans first.rounds, second.keyed ∘ first.keyed⟩⟩

theorem Quiet.of_same (rounds : t.rounds = s.rounds) (records : t.manager.records = s.manager.records) : s.Quiet t := by
  refine ⟨rounds, fun keyed v record held => ?_⟩
  rw [records] at held
  exact keyed v record held

theorem quiet_updateManager {f : MembershipManager → MembershipManager}
    (keeps : s.manager.Keyed → (f s.manager).Keyed) : Guarantees Quiet s (updateManager f) (fun _ _ => True) :=
  .update ⟨rfl, keeps⟩ trivial

theorem quiet_ofExcept {x : Except EconomyError α} :
    Guarantees Quiet s (ofExcept x : PyEconomy α) (fun _ _ => True) := by
  cases x with
  | ok a => exact .of_ok rfl (.of_same rfl rfl) trivial
  | error e => exact .of_error rfl (.of_same rfl rfl)

end Economy

variable [Crypto]

theorem Finishes.quiet {x : PyEconomy α} {admitted late : Prop} {call : Option SettlementCall}
    {done : MembershipManager} (finishes : Finishes x s admitted call late done)
    (keeps : s.manager.Keyed → done.Keyed) : Guarantees Quiet s x (fun _ _ => True) := by
  cases finishes with
  | refused _ run => exact .of_error run (.of_same rfl rfl)
  | unpaid _ _ _ run => exact .of_error run (.of_same rfl rfl)
  | late _ _ _ run => exact .of_error run (.of_same rfl rfl)
  | returned _ _ _ run => exact .of_ok run ⟨rfl, keeps⟩ trivial

/-- The snapshot depends on what the records answer, not on how they came. -/
theorem MembershipManager.buildSnapshot_congr {m m' : MembershipManager}
    (records : ∀ v, m.records.get? v = m'.records.get? v) (epoch : m.epoch = m'.epoch) (seed : m.seed = m'.seed)
    (keyed : m.Keyed) :
    m.buildSnapshot = m'.buildSnapshot := by
  have same : sortedBy ValidatorRecord.validatorId m.records.values =
      sortedBy ValidatorRecord.validatorId m'.records.values := by
    refine sortedBy_eq_of_perm ((Dict.entries_perm records).map Prod.snd) ?_
    intro a inA b inB named
    obtain ⟨v, atV⟩ := Dict.mem_values.mp inA
    obtain ⟨w, atW⟩ := Dict.mem_values.mp inB
    have both : v = w := (keyed v a atV).symm.trans (named.trans (keyed w b atW))
    subst both
    exact Option.some_inj.mp (atV.symm.trans atW)
  unfold buildSnapshot
  rw [same, epoch, seed]

namespace MembershipManager

theorem admit_quiet {request : AdmissionRequest} {approverIds : List String} {bond : Option StakeBond} :
    Guarantees Quiet s (admitValidator request approverIds bond) (fun _ _ => True) := by
  refine (admit_finishes s request approverIds bond).quiet fun keyed => ?_
  cases bond with
  | none => exact keyed.set (admittedRecord request) rfl
  | some b => exact keyed.set (admittedRecord request) rfl

theorem exit_quiet {validatorId : String} {epoch : Option Int} :
    Guarantees Quiet s (exit validatorId epoch) (fun _ _ => True) := by
  cases held : s.manager.records.get? validatorId with
  | none =>
    obtain ⟨e, raised⟩ := exit_unknown held epoch
    exact .of_error raised (.of_same rfl rfl)
  | some record =>
    refine (exit_finishes held epoch).quiet fun keyed => ?_
    have named := keyed validatorId record held
    subst named
    exact keyed.set (s.manager.exitedRecord record) rfl

theorem withdraw_quiet {validatorId : String} {currentEpoch : Option Int} :
    Guarantees Quiet s (withdraw validatorId currentEpoch) (fun _ _ => True) := by
  cases held : s.manager.records.get? validatorId with
  | none =>
    obtain ⟨e, raised⟩ := withdraw_unknown held currentEpoch
    exact .of_error raised (.of_same rfl rfl)
  | some record =>
    refine (withdraw_finishes held currentEpoch).quiet fun keyed v other there => ?_
    change (s.manager.records.erase validatorId).get? v = some other at there
    rw [Dict.get?_erase] at there
    split at there
    · cases there
    · exact keyed v other there

theorem slash_quiet {evidence : SlashEvidence} {penalty : Option Int} :
    Guarantees Quiet s (slash evidence penalty) (fun _ _ => True) := by
  cases held : s.manager.records.get? evidence.offenderId with
  | none =>
    obtain ⟨e, raised⟩ := slash_unknown held penalty
    exact .of_error raised (.of_same rfl rfl)
  | some record =>
    refine (slash_finishes held penalty).quiet fun keyed => ?_
    have named := keyed evidence.offenderId record held
    refine keyed.set (slashedRecord record (penalty.getD record.stake)) ?_
    change s.manager.records.set evidence.offenderId _ = _
    rw [← named]
    rfl

theorem penalizeNonReveal_quiet {validatorId : String} {epoch round penalty : Int} :
    Guarantees Quiet s (penalizeNonReveal validatorId epoch round penalty) (fun _ _ => True) := by
  refine .get_bind (.raiseIf_bind fun _ => .raiseIf_bind fun _ => ?_)
  cases held : s.manager.records.get? validatorId with
  | none => exact .throw _
  | some record =>
    refine .raiseIf_bind fun _ => (quiet_updateManager fun keyed => ?_).bind fun _ _ _ _ => .pure trivial
    have named := keyed validatorId record held
    subst named
    exact keyed.set (dockedRecord record penalty) rfl

theorem advanceEpoch_quiet : Guarantees Quiet s advanceEpoch (fun _ _ => True) :=
  .get_bind ((quiet_updateManager id).bind fun _ _ _ _ => quiet_ofExcept.bind fun _ _ _ _ =>
    quiet_ofExcept.bind fun _ _ _ _ => (quiet_updateManager id).bind fun _ _ _ _ => .get_bind (.pure trivial))

theorem restoreAdmission_quiet {request : AdmissionRequest} {bond : StakeBond} :
    Guarantees Quiet s (restoreAdmission request bond) (fun _ _ => True) :=
  .get_bind (.raiseIf_bind fun _ => .raiseIf_bind fun _ => .raiseIf_bind fun _ => .raiseIf_bind fun _ =>
    quiet_updateManager fun keyed => keyed.set (admittedRecord request) rfl)

end MembershipManager

/-- No operation of ledger, store or manager writes to the tables. -/
theorem quiet_kept : Kept Quiet where
  ledger _ _ := .of_same rfl rfl
  store _ _ := .of_same rfl rfl
  manager call s own := by
    have discards : ∀ {β : Type} {x : PyEconomy β}, Guarantees Quiet s x (fun _ _ => True) →
        s.Quiet (final (discard x) s) := by
      intro β x quiet
      rw [final_discard]
      exact quiet.moves
    cases call with
    | admitValidator => exact discards MembershipManager.admit_quiet
    | exit => exact discards MembershipManager.exit_quiet
    | withdraw => exact discards MembershipManager.withdraw_quiet
    | slash => exact discards MembershipManager.slash_quiet
    | penalizeNonReveal => exact discards MembershipManager.penalizeNonReveal_quiet
    | advanceEpoch => exact discards MembershipManager.advanceEpoch_quiet
    | restoreAdmission => exact MembershipManager.restoreAdmission_quiet.moves
    | _ => exact own.elim

end Mosaic
