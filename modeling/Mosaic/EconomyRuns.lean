import Mosaic.CompositeCalls

namespace Mosaic
open CanonicalJson Effects Economy

/-- The snapshot lists the records. -/
def MembershipManager.Tracked (m : MembershipManager) : Prop :=
  m.snapshot.validators = sortedBy ValidatorRecord.validatorId m.records.values

/-- The snapshot lets those vote whose records say so. -/
theorem MembershipManager.byId_iff {m : MembershipManager} (tracked : m.Tracked)
    (keyed : ∀ v record, m.records.get? v = some record → record.validatorId = v) {v : String} {record : ValidatorRecord} :
    m.snapshot.byId.get? v = some record ↔ m.records.get? v = some record ∧ record.votes = true := by
  have voter : ∀ {w other}, m.snapshot.byId.get? w = some other → m.records.get? w = some other ∧ other.votes = true := by
    intro w other found
    obtain ⟨item, member, same⟩ := List.mem_map.mp (Dict.mem_of_get?_ofList found)
    cases same
    obtain ⟨listed, votes⟩ := List.mem_filter.mp member
    rw [tracked] at listed
    obtain ⟨key, held⟩ := Dict.mem_values.mp ((sortedBy_perm _ _).mem_iff.mp listed)
    rw [keyed key other held]
    exact ⟨held, votes⟩
  refine ⟨voter, ?_⟩
  rintro ⟨held, votes⟩
  have listed : record ∈ m.snapshot.validators := by
    rw [tracked]
    exact (sortedBy_perm _ _).mem_iff.mpr (Dict.mem_values_of_get? held)
  have key : v ∈ m.snapshot.byId.keys := by
    refine Dict.mem_keys_ofList.mpr (List.mem_map.mpr ⟨(v, record), ?_, rfl⟩)
    refine List.mem_map.mpr ⟨record, List.mem_filter.mpr ⟨listed, votes⟩, ?_⟩
    rw [keyed v record held]
  obtain ⟨other, found⟩ := Dict.mem_keys.mp key
  cases held.symm.trans (voter found).1
  exact found

variable [Crypto]

/-- The ledger of `t` comes from that of `s` by settlement calls, and its
manager was made with the same arguments. -/
structure Economy.Moves (s t : Economy) : Prop where
  ledger : GuardedRun SettlementCall.exec (fun _ _ => True) s.ledger t.ledger
  config : t.manager.toMembershipConfig = s.manager.toMembershipConfig
  tracked : s.manager.Tracked → t.manager.Tracked

namespace Economy

instance : Std.Refl Moves := ⟨fun _ => ⟨.refl, rfl, id⟩⟩

instance : IsTrans Economy Moves where
  trans _ _ _ first second :=
    ⟨first.ledger.trans second.ledger, second.config.trans first.config, second.tracked ∘ first.tracked⟩

variable {α : Type} {s t : Economy}

/-- What is done besides ledger and manager. -/
theorem Moves.of_same (ledger : t.ledger = s.ledger) (manager : t.manager = s.manager) : s.Moves t :=
  ⟨ledger ▸ .refl, congrArg _ manager, fun tracked => manager ▸ tracked⟩

theorem Moves.of_exec (s : Economy) (call : SettlementCall) : s.Moves (s.setLedger (call.exec s.ledger)) :=
  ⟨.tail .refl trivial, rfl, id⟩

theorem moves_updateManager {f : MembershipManager → MembershipManager}
    (config : (f s.manager).toMembershipConfig = s.manager.toMembershipConfig)
    (tracked : s.manager.Tracked → (f s.manager).Tracked) : Guarantees Moves s (updateManager f) (fun _ _ => True) :=
  .update ⟨.refl, config, tracked⟩ trivial

theorem moves_rebuilt {f : MembershipManager → MembershipManager}
    (config : (f s.manager).toMembershipConfig = s.manager.toMembershipConfig) :
    Guarantees Moves s (updateManager fun m => (f m).rebuilt) (fun _ _ => True) :=
  moves_updateManager config fun _ => rfl

theorem moves_ofExcept {x : Except EconomyError α} :
    Guarantees Moves s (ofExcept x : PyEconomy α) (fun _ _ => True) := by
  cases x with
  | ok a => exact .of_ok rfl (.of_same rfl rfl) trivial
  | error e => exact .of_error rfl (.of_same rfl rfl)

end Economy

/-- An operation that ends in one of the ways above moves the ledger by its call. -/
theorem Finishes.moves {α : Type} {x : PyEconomy α} {s : Economy} {admitted late : Prop} {call : Option SettlementCall}
    {done : MembershipManager} (finishes : Finishes x s admitted call late done)
    (config : done.toMembershipConfig = s.manager.toMembershipConfig) (tracked : done.Tracked) :
    Guarantees Moves s x (fun _ _ => True) := by
  have paid : ∀ {l}, Paid call s.ledger l → s.Moves (s.setLedger l) := by
    intro l paid
    cases call with
    | none => exact .of_same paid rfl
    | some c =>
      obtain ⟨events, ran⟩ := paid
      have step := Moves.of_exec s c
      rwa [SettlementCall.exec, final_of_ok ran] at step
  cases finishes with
  | refused _ run => exact .of_error run (.of_same rfl rfl)
  | @unpaid c e e' l _ _ ledger run =>
    have step := Moves.of_exec s c
    rw [SettlementCall.exec, final_of_error ledger] at step
    exact .of_error run step
  | late _ settled _ run => exact .of_error run (paid settled)
  | returned _ settled _ run => exact .of_ok run ⟨(paid settled).ledger, config, fun _ => tracked⟩ trivial

theorem MembershipManager.admitted_config (m : MembershipManager) (request : AdmissionRequest) (bond : Option StakeBond) :
    (m.admitted request bond).toMembershipConfig = m.toMembershipConfig ∧ (m.admitted request bond).Tracked := by
  cases bond <;> exact ⟨rfl, rfl⟩

variable {s : Economy}

namespace MembershipManager

theorem penalizeNonReveal_moves {validatorId : String} {epoch round penalty : Int} :
    Guarantees Moves s (penalizeNonReveal validatorId epoch round penalty) (fun _ _ => True) := by
  refine .get_bind (.raiseIf_bind fun _ => .raiseIf_bind fun _ => ?_)
  cases s.manager.records.get? validatorId with
  | none => exact .throw _
  | some record => exact .raiseIf_bind fun _ => (moves_rebuilt rfl).bind fun _ _ _ _ => .pure trivial

theorem advanceEpoch_moves : Guarantees Moves s advanceEpoch (fun _ _ => True) :=
  .get_bind ((moves_updateManager rfl id).bind fun _ _ _ _ => moves_ofExcept.bind fun _ _ _ _ =>
    moves_ofExcept.bind fun _ _ _ _ => (moves_rebuilt rfl).bind fun _ _ _ _ =>
      .get_bind (.pure trivial))

theorem restoreAdmission_moves {request : AdmissionRequest} {bond : StakeBond} :
    Guarantees Moves s (restoreAdmission request bond) (fun _ _ => True) :=
  .get_bind (.raiseIf_bind fun _ => .raiseIf_bind fun _ => .raiseIf_bind fun _ => .raiseIf_bind fun _ =>
    moves_rebuilt rfl)

theorem admit_moves {request : AdmissionRequest} {approverIds : List String} {bond : Option StakeBond} :
    Guarantees Moves s (admitValidator request approverIds bond) (fun _ _ => True) :=
  (admit_finishes s request approverIds bond).moves (admitted_config _ request bond).1 (admitted_config _ request bond).2

theorem exit_moves {validatorId : String} {epoch : Option Int} :
    Guarantees Moves s (exit validatorId epoch) (fun _ _ => True) := by
  cases held : s.manager.records.get? validatorId with
  | none =>
    obtain ⟨e, raised⟩ := exit_unknown held epoch
    exact .of_error raised (.of_same rfl rfl)
  | some record => exact (exit_finishes held epoch).moves rfl rfl

theorem withdraw_moves {validatorId : String} {currentEpoch : Option Int} :
    Guarantees Moves s (withdraw validatorId currentEpoch) (fun _ _ => True) := by
  cases held : s.manager.records.get? validatorId with
  | none =>
    obtain ⟨e, raised⟩ := withdraw_unknown held currentEpoch
    exact .of_error raised (.of_same rfl rfl)
  | some record => exact (withdraw_finishes held currentEpoch).moves rfl rfl

theorem slash_moves {evidence : SlashEvidence} {penalty : Option Int} :
    Guarantees Moves s (slash evidence penalty) (fun _ _ => True) := by
  cases held : s.manager.records.get? evidence.offenderId with
  | none =>
    obtain ⟨e, raised⟩ := slash_unknown held penalty
    exact .of_error raised (.of_same rfl rfl)
  | some record => exact (slash_finishes held penalty).moves rfl rfl

end MembershipManager

/-- Every operation moves the ledger by its own calls. -/
theorem moves_kept : Kept Moves where
  ledger call s := .of_exec s call
  store _ _ := .of_same rfl rfl
  manager call s own := by
    have discards : ∀ {β : Type} {x : PyEconomy β}, Guarantees Moves s x (fun _ _ => True) →
        s.Moves (final (discard x) s) := by
      intro β x moves
      rw [final_discard]
      exact moves.moves
    cases call with
    | admitValidator => exact discards MembershipManager.admit_moves
    | exit => exact discards MembershipManager.exit_moves
    | withdraw => exact discards MembershipManager.withdraw_moves
    | slash => exact discards MembershipManager.slash_moves
    | penalizeNonReveal => exact discards MembershipManager.penalizeNonReveal_moves
    | advanceEpoch => exact discards MembershipManager.advanceEpoch_moves
    | restoreAdmission => exact MembershipManager.restoreAdmission_moves.moves
    | _ => exact own.elim

namespace EconomyCall

theorem exec_moves (call : EconomyCall) (s : Economy) : s.Moves (call.exec s) :=
  moves_kept.exec (fun _ _ => .of_same rfl rfl) (fun _ => .of_same rfl rfl) call s

theorem run_moves {t : Economy} {allowed : Economy → EconomyCall → Prop} (run : GuardedRun exec allowed s t) : s.Moves t :=
  run.relates (P := fun _ => True) trivial (fun _ _ _ _ => trivial) fun t call _ _ => call.exec_moves t

/-- The ledger of a reached economy is a reached ledger. -/
theorem Reached.ledger (reached : Reached s) : ∃ config, SettlementCall.Reached config s.ledger := by
  obtain ⟨config, manager, store, beaconBound, run⟩ := reached
  exact ⟨config, (run_moves run).ledger⟩

theorem Reached.sound (reached : Reached s) : s.ledger.Sound := by
  obtain ⟨config, ledger⟩ := Reached.ledger reached
  exact SettlementLedger.sound_of_reached ledger

theorem Reached.tracked (reached : Reached s) : s.manager.Tracked := by
  obtain ⟨ledger, manager, store, beaconBound, run⟩ := reached
  exact (run_moves run).tracked rfl

end EconomyCall

section Solo
variable {pair : KeyPair}

theorem StakeBond.create_verify (verifies : SignaturesVerify) (owner : KeyPair) (bondId asset : String)
    {amount activationEpoch unlockEpoch : Int} (positive : 0 < amount) (natural : 0 ≤ activationEpoch)
    (later : activationEpoch ≤ unlockEpoch) :
    (StakeBond.create owner bondId amount asset activationEpoch unlockEpoch).verify = true := by
  have signed := verifies owner.privateKey (canonicalBytes
    (StakeBond.create owner bondId amount asset activationEpoch unlockEpoch).statement)
  simp only [StakeBond.verify, Bool.and_eq_true, decide_eq_true_eq]
  exact ⟨⟨⟨positive, natural⟩, later⟩, signed⟩

theorem AdmissionRequest.create_verify (verifies : SignaturesVerify) (applicant : KeyPair)
    (validatorId depositId : String) (stake requestedEpoch : Int) (bondId : Option String) :
    (AdmissionRequest.create applicant validatorId stake depositId requestedEpoch bondId).verify = true :=
  verifies applicant.privateKey _

theorem SlashEvidence.create_verify {offenderId : String} {epoch : Int} {first second : Json} {witnessIds : List String}
    {evidence : SlashEvidence} (created : create offenderId epoch first second witnessIds = .ok evidence)
    (named : offenderId ≠ "") (natural : 0 ≤ epoch) : evidence.verify = true := by
  unfold create at created
  split at created
  · cases created
  · rename_i conflict
    cases created
    simp [verify, named, natural, conflict]

def stakedConfig : MembershipConfig where
  genesisSeed := []
  settlement := true

/-- A new economy in which the owner of the key was funded. -/
def fundedEconomy (pair : KeyPair) : Economy :=
  (Economy.fresh plainLedger stakedConfig {} false).setLedger (fundedLedger plainLedger pair.identity 10)

def soloBond (pair : KeyPair) : StakeBond := .create pair "b" 10 "MOSAIC" 0 0

def soloRequest (pair : KeyPair) : AdmissionRequest := .create pair "v" 10 "d" 0 (some "b")

def stakedLedger (pair : KeyPair) : SettlementLedger :=
  ((fundedLedger plainLedger pair.identity 10).bonded (soloBond pair)).addEvent
    ((fundedLedger plainLedger pair.identity 10).bondEvent (soloBond pair) 0)

/-- The owner of the key was admitted with all that it has. -/
def stakedEconomy (pair : KeyPair) : Economy :=
  ((fundedEconomy pair).setLedger (stakedLedger pair)).setManager
    ((fundedEconomy pair).manager.admitted (soloRequest pair) (some (soloBond pair)))

theorem soloBond_bondable (verifies : SignaturesVerify) :
    (fundedLedger plainLedger pair.identity 10).Bondable (soloBond pair) 0 where
  verified := StakeBond.create_verify verifies pair "b" "MOSAIC" (by decide) (by decide) (by decide)
  asset := rfl
  arrived := le_rfl
  new := rfl
  enough := by
    have balance : (fundedLedger plainLedger pair.identity 10).balanceOf pair.identity = 10 := fundedLedger_balance
    exact balance.ge

theorem soloRequest_admissible (verifies : SignaturesVerify) :
    (fundedEconomy pair).manager.Admissible (soloRequest pair) (some (soloBond pair)) where
  verified := AdmissionRequest.create_verify verifies pair "v" "d" 10 0 (some "b")
  stake := by
    change (1 : Int) ≤ 10
    decide
  fresh := le_rfl
  bonded := by simp
  new := rfl
  unused := Finset.notMem_empty _
  fits := by
    rintro _ ⟨⟩
    exact ⟨(soloBond_bondable verifies).verified, rfl, rfl, rfl, le_rfl⟩

theorem stakedEconomy_run (free : CollisionFree) (verifies : SignaturesVerify) :
    ∃ certificate, MembershipManager.admitValidator (soloRequest pair) [] (some (soloBond pair)) (fundedEconomy pair) =
      .ok certificate (stakedEconomy pair) := by
  have paid : (SettlementCall.bond (soloBond pair) 0).run (fundedLedger plainLedger pair.identity 10) =
      .ok [_] (stakedLedger pair) :=
    single_ok ((SettlementLedger.bond_concludes _ (soloBond pair) 0).ok (soloBond_bondable verifies) (event_new free (by decide)))
  exact (MembershipManager.admit_finishes (fundedEconomy pair) (soloRequest pair) [] (some (soloBond pair))).of_paid
    (soloRequest_admissible verifies) ⟨_, paid⟩ id

theorem stakedLedger_position :
    (stakedLedger pair).bonds.get? "b" = some (SettlementLedger.bondedPosition (soloBond pair)) :=
  Dict.get?_set_self _ _ _

/-- Nothing but a funding and a bonding was recorded. -/
theorem stakedLedger_new (free : CollisionFree) {kind account relatedId : String} {epoch amount : Int}
    {metadata : List (String × String)} (other : kind ≠ "FUND") (other' : kind ≠ "BOND") :
    ¬ (stakedLedger pair).Recorded
      (SettlementLedger.eventFor plainLedger kind epoch account amount relatedId metadata) := by
  intro recorded
  rcases (SettlementLedger.recorded_addEvent _ _ _).mp recorded with same | old
  · exact other' (SettlementLedger.eventFor_inj free same).1.symm
  · have old' : (fundedLedger plainLedger pair.identity 10).Recorded
      (SettlementLedger.eventFor plainLedger kind epoch account amount relatedId metadata) := old
    exact event_new free other old'

/-- Evidence against the one validator. -/
def soloEvidence (epoch : Int) : SlashEvidence where
  offenderId := "v"
  epoch := epoch
  firstDigest := "x"
  secondDigest := "y"
  witnessIds := []
  evidenceId := digest (slashStatement "v" epoch "x" "y" [])

theorem soloEvidence_verify {epoch : Int} (natural : 0 ≤ epoch) : (soloEvidence epoch).verify = true := by
  simp [SlashEvidence.verify, soloEvidence, natural]

theorem fundedEconomy_reached (named : pair.identity ≠ "") : EconomyCall.Reached (fundedEconomy pair) := by
  have ran : (EconomyCall.ledger (.fund pair.identity 10 0 (some "source"))).run
      (Economy.fresh plainLedger stakedConfig {} false) = .ok ⟨⟩ (fundedEconomy pair) :=
    bind_of_ok (onPart_of_ok (fundedLedger_run ⟨by decide, named⟩))
  refine ⟨plainLedger, stakedConfig, {}, false, ?_⟩
  rw [← final_of_ok ran]
  exact .tail .refl trivial

theorem stakedEconomy_reached (free : CollisionFree) (verifies : SignaturesVerify) (named : pair.identity ≠ "") :
    EconomyCall.Reached (stakedEconomy pair) := by
  obtain ⟨config, manager, store, beaconBound, run⟩ := fundedEconomy_reached named
  obtain ⟨certificate, admitted⟩ := stakedEconomy_run free verifies
  have ran : (EconomyCall.admitValidator (soloRequest pair) [] (some (soloBond pair))).run (fundedEconomy pair) =
      .ok ⟨⟩ (stakedEconomy pair) := bind_of_ok admitted
  refine ⟨config, manager, store, beaconBound, ?_⟩
  rw [← final_of_ok ran]
  exact run.tail trivial

omit [Crypto] in
theorem ideal_named : let _ := Crypto.ideal
    idealKey.identity ≠ "" := by
  decide

end Solo

end Mosaic
