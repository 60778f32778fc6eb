import Mosaic.StakeAgreement

namespace Mosaic
open CanonicalJson Effects Economy MembershipManager

/-- The call touches no bond of the manager. -/
def SettlementCall.Spares (names : Dict String String) : SettlementCall → Prop
  | .requestUnbond bondId .. | .withdraw bondId .. | .slash bondId .. => ∀ v, names.get? v ≠ some bondId
  | .fund .. | .bond .. | .chargeFee .. | .distributeRewards .. => True

/-- The slash does not bring back a validator that has left. -/
def FairSlash (record : ValidatorRecord) (amount : Int) : Prop :=
  record.active = true ∨ record.jailed = true ∨ record.stake ≤ amount

namespace EconomyCall

/-- The bonds of the manager are touched only through the manager, and rounds
are settled with its own bonds. -/
def Through (s : Economy) : EconomyCall → Prop
  | ledger call => call.Spares s.manager.validatorBonds
  | settleRound _ _ validatorBonds _ _ _ => validatorBonds = s.manager.validatorBonds
  | penalizeNonReveal .. | restoreAdmission .. | restoreFromStore => False
  | _ => True

/-- A slash hits a validator that is active or jailed, or takes all of its stake. -/
def Fair (s : Economy) : EconomyCall → Prop
  | slash evidence penalty => ∀ record, s.manager.records.get? evidence.offenderId = some record →
    FairSlash record (penalty.getD record.stake)
  | _ => True

end EconomyCall

variable [Crypto] {fair : Prop} {s t : Economy}

namespace Economy

/-- A manager with a ledger, in which stake is kept twice. -/
structure Staked (s : Economy) : Prop where
  settlement : s.manager.settlement = true
  sound : s.ledger.Sound
  agrees : s.Agrees

omit [Crypto] in
/-- Every bond of the manager is in the ledger. -/
theorem Agrees.position (agrees : s.Agrees) {v bondId : String} (named : s.manager.validatorBonds.get? v = some bondId) :
    s.ledger.bonds.get? bondId ≠ none := by
  obtain ⟨record, held⟩ := Option.ne_none_iff_exists'.mp (agrees.registered v bondId named)
  obtain ⟨_, found, named', there, -⟩ := agrees.bonded v record held
  cases named.symm.trans named'
  rw [there]
  exact Option.some_ne_none found

theorem ledger_step (staked : s.Staked) {call : SettlementCall} (spares : call.Spares s.manager.validatorBonds)
    {events : List SettlementEvent} {l : SettlementLedger} (ran : call.run s.ledger = .ok events l) :
    StakeStep fair s (s.setLedger l) := by
  have after := staked.sound.bondsAfter ran
  refine .kept rfl rfl fun v bondId named => ?_
  have there := staked.agrees.position named
  change l.bonds.get? bondId = s.ledger.bonds.get? bondId
  cases call with
  | fund | chargeFee | distributeRewards =>
    have same : l.bonds = s.ledger.bonds := after
    rw [same]
  | bond b currentEpoch =>
    obtain ⟨new, bonds⟩ := after
    rw [bonds, Dict.get?_set_of_ne]
    rintro rfl
    exact there new
  | requestUnbond other =>
    obtain ⟨_, _, bonds⟩ := after
    rw [bonds, Dict.get?_set_of_ne]
    rintro rfl
    exact spares v named
  | withdraw other =>
    have bonds : l.bonds = s.ledger.bonds.erase other := after
    rw [bonds, Dict.get?_erase, if_neg]
    rintro rfl
    exact spares v named
  | slash other =>
    obtain ⟨_, _, _, bonds⟩ := after
    rw [bonds, Dict.get?_set_of_ne]
    rintro rfl
    exact spares v named

theorem admit_step (staked : s.Staked) {request : AdmissionRequest} {approverIds : List String}
    {bond : Option StakeBond} {certificate : AdmissionCertificate}
    (ran : admitValidator request approverIds bond s = .ok certificate t) : StakeStep fair s t := by
  cases admit_finishes s request approverIds bond with
  | refused _ run | unpaid _ _ _ run | late _ _ _ run => cases run.symm.trans ran
  | @returned a l able paid _ run =>
    cases run.symm.trans ran
    cases bond with
    | none => exact absurd rfl (able.bonded staked.settlement)
    | some b =>
      have call : s.manager.admissionCall (some b) = some (.bond b s.manager.epoch) := by
        simp [admissionCall, staked.settlement]
      rw [call] at paid
      obtain ⟨events, ok⟩ := paid
      obtain ⟨free, bonds⟩ := staked.sound.bondsAfter ok
      exact .admitted able.new free rfl rfl bonds rfl (able.fits b rfl).amount ⟨rfl, rfl⟩ rfl

/-- The call that an operation has made on the bond of a validator. -/
theorem bondCall_paid (staked : s.Staked) {v : String} {record : ValidatorRecord} {call : String → SettlementCall}
    {l : SettlementLedger} (held : s.manager.records.get? v = some record)
    (paid : Paid (s.manager.bondCall v call) s.ledger l) :
    ∃ bondId found events, s.manager.validatorBonds.get? v = some bondId ∧ s.ledger.bonds.get? bondId = some found ∧
      (call bondId).run s.ledger = .ok events l := by
  obtain ⟨bondId, found, named, position, -⟩ := staked.agrees.bonded v record held
  have made : s.manager.bondCall v call = some (call bondId) := by
    simp [bondCall, staked.settlement, named]
  rw [made] at paid
  obtain ⟨events, ran⟩ := paid
  exact ⟨bondId, found, events, named, position, ran⟩

theorem exit_step (staked : s.Staked) {v : String} {epoch : Option Int} {certificate : ExitCertificate}
    (ran : exit v epoch s = .ok certificate t) : StakeStep fair s t := by
  cases held : s.manager.records.get? v with
  | none =>
    obtain ⟨e, raised⟩ := exit_unknown held epoch
    cases raised.symm.trans ran
  | some record =>
    cases exit_finishes held epoch with
    | refused _ run | unpaid _ _ _ run | late _ _ _ run => cases run.symm.trans ran
    | returned able paid _ run =>
      cases run.symm.trans ran
      obtain ⟨bondId, found, events, named, position, ok⟩ := bondCall_paid staked held paid
      obtain ⟨found', position', bonds⟩ := staked.sound.bondsAfter ok
      cases position.symm.trans position'
      exact .changed held named position rfl rfl bonds rfl id fun _ _ _ _ => ⟨rfl, fun _ => rfl⟩

theorem withdraw_step (staked : s.Staked) {v : String} {currentEpoch : Option Int} {receipt : WithdrawalReceipt}
    (ran : withdraw v currentEpoch s = .ok receipt t) : StakeStep fair s t := by
  cases held : s.manager.records.get? v with
  | none =>
    obtain ⟨e, raised⟩ := withdraw_unknown held currentEpoch
    cases raised.symm.trans ran
  | some record =>
    cases withdraw_finishes held currentEpoch with
    | refused _ run | unpaid _ _ _ run | late _ _ _ run => cases run.symm.trans ran
    | returned able paid _ run =>
      cases run.symm.trans ran
      obtain ⟨bondId, found, events, named, -, ok⟩ := bondCall_paid staked held paid
      exact .withdrawn named rfl rfl (staked.sound.bondsAfter ok)

omit [Crypto] in
/-- The two clamps take the same off the same stake. -/
theorem penalized_stake {found : BondPosition} {record : ValidatorRecord} (amount : Int)
    (same : found.amount = record.stake) :
    (SettlementLedger.penalized found (min amount found.amount)).amount = max 0 (record.stake - amount) := by
  simp only [SettlementLedger.penalized]
  omega

omit [Crypto] in
theorem penalized_active {found : BondPosition} {record : ValidatorRecord} (amount : Int)
    (same : found.amount = record.stake) :
    (SettlementLedger.penalized found (min amount found.amount)).active = (found.active && decide (amount < record.stake)) := by
  have left : decide (min amount found.amount < found.amount) = decide (amount < record.stake) := by
    rw [decide_eq_decide]
    omega
  simp only [SettlementLedger.penalized, left]

omit [Crypto] in
/-- Whether something is left of a stake. -/
theorem left_of_stake (stake amount : Int) :
    decide (0 < max 0 (stake - amount)) = decide (amount < stake) ∧
      (decide (max 0 (stake - amount) = 0) = !decide (amount < stake)) := by
  by_cases less : amount < stake
  · have some : 0 < max 0 (stake - amount) := by omega
    have nonzero : max 0 (stake - amount) ≠ 0 := by omega
    simp only [some, nonzero, less, decide_true, decide_false, Bool.not_true, and_self]
  · have none : max 0 (stake - amount) = 0 := by omega
    simp [none, less]

omit [Crypto] in
theorem slashed_flags {found : BondPosition} {record : ValidatorRecord} {amount : Int} (fair : FairSlash record amount)
    (same : found.amount = record.stake) (active : found.active = record.active)
    (jailed : record.jailed = true → record.active = false) :
    (SettlementLedger.penalized found (min amount found.amount)).active = (slashedRecord record amount).active ∧
      ((slashedRecord record amount).jailed = true → (slashedRecord record amount).active = false) := by
  obtain ⟨left, none⟩ := left_of_stake record.stake amount
  rw [penalized_active amount same, active]
  simp only [slashedRecord, left, none]
  rcases fair with still | locked | whole
  · have free : record.jailed = false := by
      by_contra held
      rw [jailed (by simpa using held)] at still
      cases still
    simp [still, free]
  · simp [locked, jailed locked]
  · have nothing : ¬ amount < record.stake := by omega
    simp [nothing]

omit [Crypto] in
theorem docked_flags {found : BondPosition} {record : ValidatorRecord} {amount : Int}
    (same : found.amount = record.stake) (active : found.active = record.active)
    (jailed : record.jailed = true → record.active = false) :
    (SettlementLedger.penalized found (min amount found.amount)).active = (dockedRecord record amount).active ∧
      ((dockedRecord record amount).jailed = true → (dockedRecord record amount).active = false) := by
  obtain ⟨left, none⟩ := left_of_stake record.stake amount
  rw [penalized_active amount same, active]
  simp only [dockedRecord, left, none]
  refine ⟨Bool.and_comm _ _, fun locked => ?_⟩
  rcases (Bool.or_eq_true _ _).mp locked with nothing | before
  · rw [Bool.not_eq_true'] at nothing
    rw [nothing, Bool.false_and]
  · rw [jailed before, Bool.and_false]

theorem slash_step (staked : s.Staked) {evidence : SlashEvidence} {penalty : Option Int} {record' : ValidatorRecord}
    (ran : slash evidence penalty s = .ok record' t) : StakeStep ((EconomyCall.slash evidence penalty).Fair s) s t := by
  cases held : s.manager.records.get? evidence.offenderId with
  | none =>
    obtain ⟨e, raised⟩ := slash_unknown held penalty
    cases raised.symm.trans ran
  | some record =>
    cases slash_finishes held penalty with
    | refused _ run | unpaid _ _ _ run | late _ _ _ run => cases run.symm.trans ran
    | returned able paid _ run =>
      cases run.symm.trans ran
      obtain ⟨bondId, found, events, named, position, ok⟩ := bondCall_paid staked held paid
      obtain ⟨found', position', positive, bonds⟩ := staked.sound.bondsAfter ok
      cases position.symm.trans position'
      exact .changed held named position rfl rfl bonds rfl (penalized_stake _) fun fair same active jailed =>
        slashed_flags (fair record held) same active jailed

theorem Staked.of_steps (staked : s.Staked) (moves : s.Moves t) (steps : StakeSteps fair s t) : t.Staked where
  settlement := by
    rw [moves.config]
    exact staked.settlement
  sound := moves.ledger.invariant staked.sound fun _ call _ sound => sound.exec call
  agrees := staked.agrees.steps steps

open RandomnessIncentiveManager

variable {names : Dict String String} {round : Int}

theorem penalizeNonReveal_ok {v : String} {epoch penalty : Int} {record' : ValidatorRecord}
    (ran : penalizeNonReveal v epoch round penalty s = .ok record' t) : ∃ record,
      s.manager.records.get? v = some record ∧ t = s.setManager
        ((s.manager.setRecord v (dockedRecord record penalty)).addNonReveal (nonRevealId v epoch round)).rebuilt := by
  obtain ⟨-, ran⟩ := raiseIf_bind_eq_ok (s := s) ran
  obtain ⟨-, ran⟩ := raiseIf_bind_eq_ok ran
  cases held : s.manager.records.get? v with
  | none =>
    simp only [held] at ran
    cases ran
  | some record =>
    simp only [held] at ran
    obtain ⟨-, ran⟩ := raiseIf_bind_eq_ok ran
    cases ran
    exact ⟨record, rfl, rfl⟩

theorem penalize_step (staked : s.Staked) (own : names = s.manager.validatorBonds) {penalty : Int} {v : String}
    {ids : List String} (ran : penalize names round penalty v s = .ok ids t) :
    StakeStep fair s t ∧ t.manager.validatorBonds = s.manager.validatorBonds := by
  unfold penalize at ran
  rw [get_bind_apply, own] at ran
  cases named : s.manager.validatorBonds.get? v with
  | none =>
    simp only [named] at ran
    cases ran
  | some bondId =>
    simp only [named] at ran
    obtain ⟨events, u, slashed, ran⟩ := bind_eq_ok.mp ran
    obtain ⟨l, ok, rfl⟩ := onPart_eq_ok.mp (rethrow_eq_ok.mp slashed)
    obtain ⟨record', w, docked, ran⟩ := bind_eq_ok.mp ran
    obtain ⟨record, held, rfl⟩ := penalizeNonReveal_ok (rethrow_eq_ok.mp docked)
    cases ran
    have call : (SettlementCall.slash bondId penalty s.manager.snapshot.epoch
      (evidenceId s.manager.snapshot.epoch round v) none).run s.ledger = .ok events l := ok
    obtain ⟨found, position, positive, bonds⟩ := staked.sound.bondsAfter call
    exact ⟨.changed held named position rfl rfl bonds rfl (penalized_stake _) fun _ same active jailed =>
      docked_flags same active jailed, rfl⟩

theorem penalizeAll_steps (staked : s.Staked) (own : names = s.manager.validatorBonds) {penalty : Int}
    {validatorIds ids : List String} (ran : penalizeAll names round penalty validatorIds s = .ok ids t) :
    StakeSteps fair s t ∧ t.manager.validatorBonds = s.manager.validatorBonds := by
  induction validatorIds generalizing s ids with
  | nil =>
    cases ran
    exact ⟨.refl, rfl⟩
  | cons v validatorIds ih =>
    unfold penalizeAll at ran
    split at ran
    · exact ih staked own ran
    · obtain ⟨first, u, penalized, ran⟩ := bind_eq_ok.mp ran
      obtain ⟨later, w, rest, ran⟩ := bind_eq_ok.mp ran
      cases ran
      have moves : s.Moves u := moves_kept.penalize.step penalized
      obtain ⟨step, same⟩ := @penalize_step _ fair _ _ _ _ staked own _ _ _ penalized
      obtain ⟨steps, same'⟩ := ih (staked.of_steps moves (.single step)) (own.trans same.symm) rest
      exact ⟨.head step steps, same'.trans same⟩

theorem reward_step (staked : s.Staked) {revealMap : Dict String RandomnessReveal} {revealReward : Int}
    {ids : List String} (ran : reward names revealMap round revealReward s = .ok ids t) : StakeStep fair s t := by
  unfold reward at ran
  rw [get_bind_apply] at ran
  split at ran
  · obtain ⟨events, u, paid, ran⟩ := bind_eq_ok.mp ran
    obtain ⟨l, ok, rfl⟩ := onPart_eq_ok.mp (rethrow_eq_ok.mp paid)
    cases ran
    exact @ledger_step _ fair s staked (.distributeRewards _ _ _) trivial events l ok
  · cases ran
    exact .kept rfl rfl fun _ _ _ => rfl

omit [Crypto] in
theorem ofExcept_ok {α : Type} {x : Except EconomyError α} {a : α} (ran : (ofExcept x : PyEconomy α) s = .ok a t) :
    t = s := by
  cases x <;> cases ran
  rfl

theorem settleRound_steps (staked : s.Staked) (own : names = s.manager.validatorBonds)
    {commitments : List RandomnessCommitment} {reveals : List RandomnessReveal} {revealReward nonRevealPenalty : Int}
    {settlement : RandomnessRoundSettlement}
    (ran : settleRound commitments reveals names round revealReward nonRevealPenalty s = .ok settlement t) :
    StakeSteps fair s t := by
  unfold settleRound at ran
  rw [get_bind_apply] at ran
  obtain ⟨-, ran⟩ := raiseIf_bind_eq_ok ran
  obtain ⟨-, ran⟩ := raiseIf_bind_eq_ok ran
  obtain ⟨-, ran⟩ := raiseIf_bind_eq_ok ran
  obtain ⟨-, ran⟩ := raiseIf_bind_eq_ok ran
  obtain ⟨-, ran⟩ := raiseIf_bind_eq_ok ran
  obtain ⟨-, ran⟩ := raiseIf_bind_eq_ok ran
  obtain ⟨made, u, beacon, ran⟩ := bind_eq_ok.mp ran
  cases ofExcept_ok (rethrow_eq_ok.mp beacon)
  obtain ⟨penalties, v, penalized, ran⟩ := bind_eq_ok.mp ran
  obtain ⟨rewards, w, rewarded, ran⟩ := bind_eq_ok.mp ran
  cases ran
  have moves : s.Moves v := moves_kept.penalizeAll.step penalized
  obtain ⟨steps, -⟩ := @penalizeAll_steps _ fair _ _ _ _ staked own _ _ _ penalized
  exact steps.tail (reward_step (staked.of_steps moves steps) rewarded)

theorem advanceEpoch_step {snapshot : MembershipSnapshot} (ran : advanceEpoch s = .ok snapshot t) : StakeStep fair s t := by
  unfold advanceEpoch at ran
  rw [get_bind_apply] at ran
  obtain ⟨⟨⟩, u, counted, ran⟩ := bind_eq_ok.mp ran
  cases counted
  obtain ⟨root, v, hex, ran⟩ := bind_eq_ok.mp ran
  cases ofExcept_ok hex
  obtain ⟨count, w, bytes, ran⟩ := bind_eq_ok.mp ran
  cases ofExcept_ok bytes
  obtain ⟨⟨⟩, x, seeded, ran⟩ := bind_eq_ok.mp ran
  cases seeded
  cases ran
  exact .kept rfl rfl fun _ _ _ => rfl

omit [Crypto] in
/-- What leaves ledger and manager alone is a step. -/
theorem step_of_same (ledger : t.ledger = s.ledger) (manager : t.manager = s.manager) : StakeStep fair s t := by
  refine .kept (by rw [manager]) (by rw [manager]) fun v bondId _ => ?_
  rw [ledger]

/-- What is done aside of ledger and manager. -/
def Aside (s t : Economy) : Prop := t.ledger = s.ledger ∧ t.manager = s.manager

instance : Std.Refl Aside := ⟨fun _ => ⟨rfl, rfl⟩⟩

instance : IsTrans Economy Aside :=
  ⟨fun _ _ _ first second => ⟨second.1.trans first.1, second.2.trans first.2⟩⟩

omit [Crypto] in
theorem onStore_ok {α : Type} {x : EStateM EconomyError EconomyStore α} {a : α} (ran : onStore x s = .ok a t) :
    Aside s t :=
  (BeaconRoundCoordinator.onStore_keeps fun _ _ => ⟨rfl, rfl⟩ : Guarantees Aside s (onStore x) _).step ran

theorem submitCommitment_step {commitment : RandomnessCommitment} {a : PUnit}
    (ran : BeaconRoundCoordinator.submitCommitment commitment s = .ok a t) : StakeStep fair s t := by
  obtain ⟨ledger, manager⟩ : Aside s t :=
    (BeaconRoundCoordinator.submitCommitment_keeps (fun _ _ => ⟨rfl, rfl⟩) fun _ _ => ⟨rfl, rfl⟩).step ran
  exact step_of_same ledger manager

theorem submitReveal_step {reveal : RandomnessReveal} {a : PUnit}
    (ran : BeaconRoundCoordinator.submitReveal reveal s = .ok a t) : StakeStep fair s t := by
  obtain ⟨ledger, manager⟩ : Aside s t :=
    (BeaconRoundCoordinator.submitReveal_keeps (fun _ _ => ⟨rfl, rfl⟩) fun _ _ => ⟨rfl, rfl⟩).step ran
  exact step_of_same ledger manager

theorem finalize_steps (staked : s.Staked) {round revealReward nonRevealPenalty : Int}
    {settlement : RandomnessRoundSettlement}
    (ran : BeaconRoundCoordinator.finalize round revealReward nonRevealPenalty s = .ok settlement t) :
    StakeSteps fair s t := by
  unfold BeaconRoundCoordinator.finalize at ran
  rw [get_bind_apply] at ran
  cases before : s.rounds.settlements.get? (s.manager.snapshot.epoch, round) with
  | some settlement =>
    simp only [before] at ran
    cases ran
    exact .refl
  | none =>
    simp only [before] at ran
    obtain ⟨-, ran⟩ := raiseIf_bind_eq_ok ran
    obtain ⟨made, u, settled, ran⟩ := bind_eq_ok.mp ran
    have steps : StakeSteps fair s u := settleRound_steps staked rfl (rethrow_eq_ok.mp settled)
    refine steps.tail ?_
    obtain ⟨⟨⟩, v, kept, ran⟩ := bind_eq_ok.mp ran
    cases kept
    rw [get_bind_apply] at ran
    split at ran
    · obtain ⟨⟨⟩, w, persisted, ran⟩ := bind_eq_ok.mp ran
      obtain ⟨⟨⟩, x, put, ran⟩ := bind_eq_ok.mp ran
      cases ran
      have first := onStore_ok (s := _) persisted
      have second := onStore_ok put
      exact step_of_same (second.1.trans first.1) (second.2.trans first.2)
    · cases ran
      exact step_of_same rfl rfl

theorem onboard_step (staked : s.Staked) {request : AdmissionRequest} {bond : StakeBond} {approverIds : List String}
    {certificate : AdmissionCertificate}
    (ran : AdmissionCoordinator.admitValidator request bond approverIds s = .ok certificate t) :
    StakeSteps fair s t := by
  cases AdmissionCoordinator.admit_onboards s request bond approverIds with
  | refused _ run | rejected _ _ run | unrecorded _ _ _ _ _ run => cases run.symm.trans ran
  | returned _ admitted _ ledger manager run =>
    cases run.symm.trans ran
    exact .tail (.single (admit_step staked admitted)) (step_of_same ledger manager)

end Economy

namespace EconomyCall

/-- The call returns, and the bonds of the manager are touched only through it. -/
structure Allowed (s : Economy) (call : EconomyCall) : Prop where
  returns : ∃ t, call.run s = .ok ⟨⟩ t
  through : call.Through s

/-- A call that returns makes stake steps. -/
theorem Allowed.steps (staked : s.Staked) {call : EconomyCall} (allowed : call.Allowed s) :
    StakeSteps (call.Fair s) s (call.exec s) := by
  obtain ⟨⟨t, ran⟩, through⟩ := allowed
  rw [exec, final_of_ok ran]
  cases call with
  | ledger call =>
    obtain ⟨events, ran⟩ := discard_ok ran
    obtain ⟨l, ok, rfl⟩ := onPart_eq_ok.mp ran
    exact .single (ledger_step staked through ok)
  | admitValidator =>
    obtain ⟨certificate, ran⟩ := discard_ok ran
    exact .single (admit_step staked ran)
  | exit =>
    obtain ⟨certificate, ran⟩ := discard_ok ran
    exact .single (exit_step staked ran)
  | withdraw =>
    obtain ⟨receipt, ran⟩ := discard_ok ran
    exact .single (withdraw_step staked ran)
  | slash =>
    obtain ⟨record, ran⟩ := discard_ok ran
    exact .single (slash_step staked ran)
  | advanceEpoch =>
    obtain ⟨snapshot, ran⟩ := discard_ok ran
    exact .single (advanceEpoch_step ran)
  | settleRound =>
    obtain ⟨settlement, ran⟩ := discard_ok ran
    exact settleRound_steps staked through ran
  | submitCommitment => exact .single (submitCommitment_step ran)
  | submitReveal => exact .single (submitReveal_step ran)
  | finalize =>
    obtain ⟨settlement, ran⟩ := discard_ok ran
    exact finalize_steps staked ran
  | onboard =>
    obtain ⟨certificate, ran⟩ := discard_ok ran
    exact onboard_step staked ran
  | bindStore =>
    cases ran
    exact .single (step_of_same rfl rfl)
  | penalizeNonReveal | restoreAdmission | restoreFromStore => exact through.elim

theorem Allowed.staked (staked : s.Staked) {call : EconomyCall} (allowed : call.Allowed s) : (call.exec s).Staked :=
  staked.of_steps (call.exec_moves s) (allowed.steps staked)

end EconomyCall

end Mosaic
