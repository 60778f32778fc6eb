import Mosaic.StakeBacking

namespace Mosaic
open CanonicalJson Effects Economy MembershipManager

namespace Economy

/-- Every validator that votes has a bond that is active. -/
def Backed (s : Economy) : Prop :=
  ∀ v record, s.manager.snapshot.byId.get? v = some record → ∃ bondId found,
    s.manager.validatorBonds.get? v = some bondId ∧ s.ledger.bonds.get? bondId = some found ∧ found.active = true ∧
      found.unbonding = false

variable {s : Economy}

theorem fresh_staked [Crypto] {ledger : LedgerConfig} {manager : MembershipConfig} {store : EconomyStore}
    {beaconBound : Bool} (shared : manager.settlement = true) : (Economy.fresh ledger manager store beaconBound).Staked where
  settlement := shared
  sound := SettlementLedger.fresh_sound ledger
  agrees := by
    refine ⟨?_, ?_, ?_, ?_⟩
    · intro v record held
      cases held
    · intro v record held
      cases held
    · intro v bondId named
      cases named
    · intro v w bondId named
      cases named

variable [Crypto] {allowed : Economy → EconomyCall → Prop}

theorem staked_of_run {t : Economy} (staked : s.Staked) (run : GuardedRun EconomyCall.exec allowed s t)
    (ok : ∀ u call, allowed u call → call.Allowed u) : t.Staked :=
  run.invariant staked fun u call here staked => (ok u call here).staked staked

/-- The flags stay together in fair calls. -/
theorem aligned_of_run {t : Economy} (staked : s.Staked) (aligned : s.Aligned) (run : GuardedRun EconomyCall.exec allowed s t)
    (ok : ∀ u call, allowed u call → call.Allowed u ∧ call.Fair u) : t.Aligned := by
  have both : t.Staked ∧ t.Aligned := by
    refine run.invariant (P := fun u => u.Staked ∧ u.Aligned) ⟨staked, aligned⟩ fun u call here before => ?_
    obtain ⟨may, fair⟩ := ok u call here
    exact ⟨may.staked before.1, before.2.steps before.1.agrees fair (may.steps before.1)⟩
  exact both.2

omit [Crypto] in
theorem Aligned.backed (aligned : s.Aligned) (staked : s.Staked) (tracked : s.manager.Tracked) : s.Backed := by
  intro v record found
  obtain ⟨held, votes⟩ := (MembershipManager.byId_iff tracked staked.agrees.keyed).mp found
  obtain ⟨bondId, position, named, there, -⟩ := staked.agrees.bonded v record held
  have active : record.active = true := (Bool.and_eq_true_iff.mp votes).1
  have flag : position.active = true := (aligned v record bondId position held named there).1.trans active
  refine ⟨bondId, position, named, there, flag, ?_⟩
  have apart := (staked.sound.bonds bondId position there).apart
  simpa [flag] using apart

/-- A slash that brings a validator back leaves it without an active bond. -/
theorem unfair_unbacked (aligned : s.Aligned) (staked : s.Staked) (tracked : s.manager.Tracked) {call : EconomyCall}
    (allowed : call.Allowed s) (unfair : ¬ call.Fair s) : ¬ (call.exec s).Backed := by
  have staked' := allowed.staked staked
  have tracked' := (call.exec_moves s).tracked tracked
  obtain ⟨⟨t, ran⟩, -⟩ := allowed
  rw [EconomyCall.exec, final_of_ok ran] at staked' tracked' ⊢
  cases call with
  | slash evidence penalty =>
    obtain ⟨record, held, unfair⟩ : ∃ record, s.manager.records.get? evidence.offenderId = some record ∧
        ¬ FairSlash record (penalty.getD record.stake) := by
      simpa [EconomyCall.Fair] using unfair
    obtain ⟨inactive, free, more⟩ : record.active = false ∧ record.jailed = false ∧
        penalty.getD record.stake < record.stake := by
      simpa [FairSlash] using unfair
    obtain ⟨record', ran⟩ := discard_ok ran
    cases slash_finishes held penalty with
    | refused _ run | unpaid _ _ _ run | late _ _ _ run => cases run.symm.trans ran
    | @returned a l able paid _ run =>
      cases run.symm.trans ran
      obtain ⟨bondId, found, events, named, position, ok⟩ := bondCall_paid staked held paid
      obtain ⟨found', position', positive, bonds⟩ := staked.sound.bondsAfter ok
      cases position.symm.trans position'
      have there : (s.manager.punished evidence record (penalty.getD record.stake)).records.get? evidence.offenderId =
          some (slashedRecord record (penalty.getD record.stake)) := Dict.get?_set_self _ _ _
      have votes : (slashedRecord record (penalty.getD record.stake)).votes = true := by
        have some : 0 < max 0 (record.stake - penalty.getD record.stake) := by omega
        have nonzero : max 0 (record.stake - penalty.getD record.stake) ≠ 0 := by omega
        simp [ValidatorRecord.votes, slashedRecord, free, some, nonzero]
      intro backed
      obtain ⟨other, kept, named', held', active, -⟩ :=
        backed _ _ ((MembershipManager.byId_iff tracked' staked'.agrees.keyed).mpr ⟨there, votes⟩)
      cases named.symm.trans named'
      rw [setManager_ledger, setLedger_ledger, bonds, Dict.get?_set_self] at held'
      cases held'
      have flag := (aligned _ record bondId found held named position).1
      simp [SettlementLedger.penalized, flag, inactive] at active
  | _ => exact absurd trivial unfair

end Economy

variable [Crypto]

/-- In a run of calls that return, in which the bonds of the manager are touched
only through it, every validator has a bond of its own that holds its stake. -/
theorem stake_agrees {ledger : LedgerConfig} {manager : MembershipConfig} {store : EconomyStore} {beaconBound : Bool}
    {s : Economy} (shared : manager.settlement = true)
    (run : GuardedRun EconomyCall.exec (fun s call => call.Allowed s) (.fresh ledger manager store beaconBound) s) :
    (∀ v record, s.manager.records.get? v = some record → ∃ bondId found,
      s.manager.validatorBonds.get? v = some bondId ∧ s.ledger.bonds.get? bondId = some found ∧
        found.amount = record.stake) ∧
      ∀ v w bondId, v ≠ w → s.manager.validatorBonds.get? v = some bondId →
        s.manager.validatorBonds.get? w ≠ some bondId := by
  have agrees := (staked_of_run (fresh_staked shared) run fun _ _ here => here).agrees
  exact ⟨agrees.bonded, fun v w bondId other first second => other (agrees.distinct v w bondId first second)⟩

section Solo
variable {pair : KeyPair}

theorem stakedEconomy_fair (free : CollisionFree) (verifies : SignaturesVerify) (named : pair.identity ≠ "") :
    GuardedRun EconomyCall.exec (fun s call => call.Allowed s ∧ call.Fair s) (.fresh plainLedger stakedConfig {} false)
      (stakedEconomy pair) := by
  have funded : (EconomyCall.ledger (.fund pair.identity 10 0 (some "source"))).run
      (Economy.fresh plainLedger stakedConfig {} false) = .ok ⟨⟩ (fundedEconomy pair) :=
    bind_of_ok (onPart_of_ok (fundedLedger_run ⟨by decide, named⟩))
  obtain ⟨certificate, admitted⟩ : ∃ certificate,
      MembershipManager.admitValidator (soloRequest pair) [] (some (soloBond pair)) (fundedEconomy pair) =
        .ok certificate (stakedEconomy pair) := stakedEconomy_run free verifies
  have staked : (EconomyCall.admitValidator (soloRequest pair) [] (some (soloBond pair))).run (fundedEconomy pair) =
      .ok ⟨⟩ (stakedEconomy pair) := bind_of_ok admitted
  rw [← final_of_ok staked]
  refine .tail ?_ ⟨⟨⟨_, staked⟩, trivial⟩, trivial⟩
  rw [← final_of_ok funded]
  exact .tail .refl ⟨⟨⟨_, funded⟩, trivial⟩, trivial⟩

omit [Crypto] in
/-- The one validator has its ten coins in its bond. -/
theorem stake_agrees_solo : let _ := Crypto.ideal
    ∃ bondId found, (stakedEconomy idealKey).manager.validatorBonds.get? "v" = some bondId ∧
      (stakedEconomy idealKey).ledger.bonds.get? bondId = some found ∧ found.amount = 10 := by
  intro _
  have run := (stakedEconomy_fair ideal_collisionFree ideal_signaturesVerify ideal_named).mono fun _ _ ok => ok.1
  exact (stake_agrees rfl run).1 "v" (admittedRecord (soloRequest idealKey)) rfl

end Solo

/-- In a run of such calls that are fair every validator that votes has an
active bond, and it takes an unfair call to change that. -/
theorem voting_power_backed_iff {ledger : LedgerConfig} {manager : MembershipConfig} {store : EconomyStore}
    {beaconBound : Bool} {s : Economy} (shared : manager.settlement = true)
    (run : GuardedRun EconomyCall.exec (fun s call => call.Allowed s ∧ call.Fair s)
      (.fresh ledger manager store beaconBound) s) :
    s.Backed ∧ ∀ call : EconomyCall, call.Allowed s → ((call.exec s).Backed ↔ call.Fair s) := by
  have start : (Economy.fresh ledger manager store beaconBound).Staked := fresh_staked shared
  have staked := staked_of_run start run fun _ _ here => here.1
  have aligned : s.Aligned := by
    refine aligned_of_run start (fun v record bondId found held => ?_) run fun _ _ here => here
    cases held
  have tracked : s.manager.Tracked := (EconomyCall.run_moves run).tracked rfl
  refine ⟨aligned.backed staked tracked, fun call allowed => ⟨fun backed => ?_, fun fair => ?_⟩⟩
  · by_contra unfair
    exact unfair_unbacked aligned staked tracked allowed unfair backed
  · have moves := call.exec_moves s
    exact (aligned.steps staked.agrees fair (allowed.steps staked)).backed (allowed.staked staked) (moves.tracked tracked)

section Returning
variable {pair : KeyPair}

omit [Crypto] in
theorem voting_power_backed_solo : let _ := Crypto.ideal
    (stakedEconomy idealKey).Backed := by
  intro _
  exact (voting_power_backed_iff rfl (stakedEconomy_fair ideal_collisionFree ideal_signaturesVerify ideal_named)).1

/-- The ledger when the validator has left. -/
def leftLedger (pair : KeyPair) : SettlementLedger :=
  ((stakedLedger pair).setPosition (SettlementLedger.leaving (SettlementLedger.bondedPosition (soloBond pair)) 0 2)
    "b").addEvent ((stakedLedger pair).unbondEvent "b" (SettlementLedger.bondedPosition (soloBond pair)) 0)

def leftEconomy (pair : KeyPair) : Economy :=
  ((stakedEconomy pair).setLedger (leftLedger pair)).setManager
    ((stakedEconomy pair).manager.exited "v" (admittedRecord (soloRequest pair)))

theorem leftEconomy_run (free : CollisionFree) :
    (EconomyCall.exit "v" none).run (stakedEconomy pair) = .ok ⟨⟩ (leftEconomy pair) := by
  have able : (stakedLedger pair).Unbondable "b" (SettlementLedger.bondedPosition (soloBond pair)) 2 :=
    ⟨stakedLedger_position, by decide, rfl, rfl⟩
  have paid : (SettlementCall.requestUnbond "b" 0 2).run (stakedLedger pair) = .ok [_] (leftLedger pair) :=
    single_ok ((SettlementLedger.requestUnbond_concludes stakedLedger_position 0 2).ok able
      (stakedLedger_new free (by decide) (by decide)))
  have held : (stakedEconomy pair).manager.records.get? "v" = some (admittedRecord (soloRequest pair)) := rfl
  obtain ⟨a, run⟩ := (exit_finishes held none).of_paid ⟨rfl, fun _ none => nomatch none⟩ ⟨_, paid⟩ id
  exact bind_of_ok run

theorem leftEconomy_punishable : (leftEconomy pair).manager.Punishable (soloEvidence 0) where
  verified := soloEvidence_verify le_rfl
  new := rfl
  backed := fun _ none => nomatch none

theorem leftLedger_new (free : CollisionFree) {account relatedId : String} {epoch amount : Int} :
    ¬ (leftLedger pair).Recorded (SettlementLedger.eventFor plainLedger "SLASH" epoch account amount relatedId []) := by
  intro recorded
  rcases (SettlementLedger.recorded_addEvent _ _ _).mp recorded with same | old
  · exact absurd (SettlementLedger.eventFor_inj free same).1 (by decide)
  · have old' : (stakedLedger pair).Recorded
      (SettlementLedger.eventFor plainLedger "SLASH" epoch account amount relatedId []) := old
    exact stakedLedger_new free (by decide) (by decide) old'

theorem leftEconomy_accepts (free : CollisionFree) (named : (soloEvidence 0).evidenceId ≠ "") :
    (SettlementCall.slash "b" 1 0 (soloEvidence 0).evidenceId none).Accepts (leftLedger pair) := by
  have position : (leftLedger pair).bonds.get? "b" =
      some (SettlementLedger.leaving (SettlementLedger.bondedPosition (soloBond pair)) 0 2) := Dict.get?_set_self _ _ _
  refine ⟨_, ⟨by decide, named, Finset.notMem_empty _, position⟩, ?_⟩
  rintro (recorded | ⟨some, -⟩)
  · exact leftLedger_new free recorded
  · exact some rfl

/-- One coin is taken from the validator that has left. -/
theorem returning_slash (free : CollisionFree) (named : (soloEvidence 0).evidenceId ≠ "") (sound : (leftLedger pair).Sound) :
    ∃ t, (EconomyCall.slash (soloEvidence 0) (some 1)).run (leftEconomy pair) = .ok ⟨⟩ t := by
  have held : (leftEconomy pair).manager.records.get? "v" =
      some ((stakedEconomy pair).manager.exitedRecord (admittedRecord (soloRequest pair))) := Dict.get?_set_self _ _ _
  have timely : ¬ (leftEconomy pair).manager.Untimely (soloEvidence 0) 1 := by
    rintro (future | small)
    · exact absurd future (lt_irrefl 0)
    · exact absurd small (by decide)
  have finishes := @slash_finishes _ _ (soloEvidence 0) _ held (some 1)
  have accepts := @leftEconomy_accepts _ pair free named
  obtain ⟨record, l, -, ran⟩ := finishes.ok sound leftEconomy_punishable (fun c made => by cases made; exact accepts) timely
  exact ⟨_, bind_of_ok ran⟩

omit [Crypto] in
/-- A validator leaves and is slashed by one of its ten coins: it votes again,
and its bond is still on its way out. -/
theorem returning_validator_unbacked : let _ := Crypto.ideal
    ∃ s, GuardedRun EconomyCall.exec (fun s call => call.Allowed s) (.fresh plainLedger stakedConfig {} false) s ∧
      ¬ s.Backed := by
  intro _
  have fair := stakedEconomy_fair ideal_collisionFree ideal_signaturesVerify ideal_named
  have left := @leftEconomy_run _ idealKey ideal_collisionFree
  have fair' : GuardedRun EconomyCall.exec (fun s call => call.Allowed s ∧ call.Fair s)
      (.fresh plainLedger stakedConfig {} false) (leftEconomy idealKey) := by
    rw [← final_of_ok left]
    exact fair.tail ⟨⟨⟨_, left⟩, trivial⟩, trivial⟩
  have start : (Economy.fresh plainLedger stakedConfig {} false).Staked := fresh_staked rfl
  have staked := staked_of_run start fair' fun _ _ here => here.1
  have aligned : (leftEconomy idealKey).Aligned := by
    refine aligned_of_run start (fun v record bondId found held => ?_) fair' fun _ _ here => here
    cases held
  have allowed : (EconomyCall.slash (soloEvidence 0) (some 1)).Allowed (leftEconomy idealKey) :=
    ⟨returning_slash ideal_collisionFree (ideal_digest_named _) staked.sound, trivial⟩
  refine ⟨_, (fair'.mono fun _ _ ok => ok.1).tail allowed, ?_⟩
  refine unfair_unbacked aligned staked ((EconomyCall.run_moves fair').tracked rfl) allowed fun fair => ?_
  have slash := fair _ (Dict.get?_set_self _ _ _)
  rcases slash with active | jailed | whole
  · cases active
  · cases jailed
  · exact absurd whole (by decide)

end Returning

end Mosaic
