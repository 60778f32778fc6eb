import Mosaic.SettlementSteps
import Mosaic.Strict.Settlement

namespace Mosaic
open CanonicalJson Effects

/-- The event is in the ledger, or another one with its identifier. -/
def SettlementLedger.Recorded (s : SettlementLedger) (event : SettlementEvent) : Prop :=
  s.events.get? event.eventId ≠ none

instance (s : SettlementLedger) (event : SettlementEvent) : Decidable (s.Recorded event) :=
  inferInstanceAs (Decidable (¬ _ = _))

/-- What the identifier of the event hashes. -/
def SettlementEvent.statement (event : SettlementEvent) : Json :=
  SettlementLedger.eventStatement event.kind event.epoch event.account event.amount event.asset event.relatedId event.metadata

/-- The ledger does not take the event: its texts cannot be encoded, or it is recorded. -/
def SettlementLedger.Barred [Texts] (s : SettlementLedger) (event : SettlementEvent) : Prop :=
  ¬ event.statement.Encodable ∨ s.Recorded event

theorem SettlementLedger.barred_all (s : SettlementLedger) (event : SettlementEvent) :
    @Barred Texts.all s event = s.Recorded event :=
  propext ⟨fun barred => barred.resolve_left (not_not.mpr (encodable_all _)), Or.inr⟩

theorem SettlementLedger.not_barred [Texts] {s : SettlementLedger} {event : SettlementEvent} (new : ¬ s.Barred event) :
    event.statement.Encodable ∧ s.events.get? event.eventId = none :=
  ⟨not_not.mp (not_or.mp new).1, not_not.mp (not_or.mp new).2⟩

namespace Strict
variable [Crypto]

section Encoding
variable [Texts]

theorem Economy.digest_of_encodable {value : Json} (fine : value.Encodable) :
    Economy.digest value = .ok (Mosaic.digest value) := by
  rw [Economy.digest, Economy.canonicalBytes, if_pos fine]
  rfl

theorem Economy.digest_raises {value : Json} (refused : ¬ value.Encodable) :
    Economy.digest value = .error surrogatesError := by
  rw [Economy.digest, Economy.canonicalBytes, if_neg refused]
  rfl

theorem Economy.digest_eq_ok {value : Json} {id : String} (hashed : Economy.digest value = .ok id) :
    value.Encodable ∧ id = Mosaic.digest value := by
  by_cases fine : value.Encodable
  · rw [digest_of_encodable fine] at hashed
    cases hashed
    exact ⟨fine, rfl⟩
  · rw [digest_raises fine] at hashed
    cases hashed

theorem StakeBond.verify_of_encodable {bond : StakeBond} (fine : bond.statement.Encodable) :
    StakeBond.verify bond = .ok bond.verify := by
  rw [StakeBond.verify, Economy.canonicalBytes, if_pos fine, Mosaic.StakeBond.verify]
  split
  · rename_i right
    simp [right]
  · rename_i wrong
    simp only [← Bool.decide_and, and_assoc, wrong, decide_false, Bool.false_and]
    rfl

/-- A bond that cannot be encoded is refused in one way or the other. -/
theorem StakeBond.verify_refuses {bond : StakeBond} (refused : ¬ bond.statement.Encodable) :
    StakeBond.verify bond = .ok false ∨ StakeBond.verify bond = .error surrogatesError := by
  rw [StakeBond.verify, Economy.canonicalBytes, if_neg refused]
  split
  · exact Or.inr rfl
  · exact Or.inl rfl

namespace SettlementLedger
open Mosaic.SettlementLedger

variable {s : SettlementLedger} {kind account relatedId : String} {epoch amount : Int} {metadata : List (String × String)}

theorem recordEvent_ok (new : ¬ s.Barred (eventFor s.toLedgerConfig kind epoch account amount relatedId metadata)) :
    recordEvent kind epoch account amount relatedId metadata s =
      .ok (eventFor s.toLedgerConfig kind epoch account amount relatedId metadata)
        (s.addEvent (eventFor s.toLedgerConfig kind epoch account amount relatedId metadata)) := by
  obtain ⟨fine, absent⟩ := not_barred new
  have hashed : Economy.digest (eventStatement kind epoch account amount s.asset relatedId metadata) =
      .ok (eventFor s.toLedgerConfig kind epoch account amount relatedId metadata).eventId :=
    Economy.digest_of_encodable fine
  simp only [recordEvent, bind_apply, get_apply, ofExcept_of_ok hashed, raiseIf_apply, Dict.contains, absent,
    Option.isSome_none, Bool.false_eq_true, if_false, modify_apply, pure_apply]
  rfl

theorem recordEvent_raises (barred : s.Barred (eventFor s.toLedgerConfig kind epoch account amount relatedId metadata)) :
    ∃ e, recordEvent kind epoch account amount relatedId metadata s = .error e s := by
  have start : recordEvent kind epoch account amount relatedId metadata s =
      (ofExcept (Economy.digest (eventStatement kind epoch account amount s.asset relatedId metadata)) >>= fun eventId => do
        raiseIf (s.events.contains eventId) (EconomyError.settlement "duplicate settlement event")
        let event : SettlementEvent := { eventId, kind, epoch, account, amount, asset := s.asset, relatedId, metadata }
        modify fun s : SettlementLedger => s.addEvent event
        return event) s := rfl
  by_cases fine : (eventStatement kind epoch account amount s.asset relatedId metadata).Encodable
  · have old := Option.isSome_iff_ne_none.mpr (barred.resolve_left (not_not.mpr fine))
    rw [Economy.digest_of_encodable fine, ofExcept_ok_bind] at start
    exact ⟨_, start.trans (raiseIf_bind_pos old _ _ _)⟩
  · rw [Economy.digest_raises fine] at start
    exact ⟨_, start⟩

end SettlementLedger

end Encoding

namespace SettlementLedger
open Mosaic.SettlementLedger

theorem recordEvent_all : @recordEvent _ Texts.all = Mosaic.SettlementLedger.recordEvent := by
  funext kind epoch account amount relatedId metadata s
  let _ := Texts.all
  simp only [recordEvent, Economy.digest_of_encodable (encodable_all _)]
  rfl

theorem fundingId_all (account : String) (amount epoch : Int) (sourceId : Option String) :
    @fundingId _ Texts.all account amount epoch sourceId =
      .ok (Mosaic.SettlementLedger.fundingId account amount epoch sourceId) := by
  let _ := Texts.all
  cases sourceId with
  | none => exact Economy.digest_of_encodable (encodable_all _)
  | some source =>
    unfold fundingId Mosaic.SettlementLedger.fundingId
    dsimp only
    split
    · exact Economy.digest_of_encodable (encodable_all _)
    · rfl

theorem fund_all : @fund _ Texts.all = Mosaic.SettlementLedger.fund := by
  funext account amount epoch sourceId
  let _ := Texts.all
  rw [fund, fundingId_all, recordEvent_all]
  rfl

theorem bond_all : @bond _ Texts.all = Mosaic.SettlementLedger.bond := by
  funext b currentEpoch
  let _ := Texts.all
  rw [bond, StakeBond.verify_of_encodable (encodable_all _), recordEvent_all]
  rfl

theorem requestUnbond_all : @requestUnbond _ Texts.all = Mosaic.SettlementLedger.requestUnbond := by
  funext bondId currentEpoch delay
  let _ := Texts.all
  rw [requestUnbond, recordEvent_all]
  rfl

theorem withdraw_all : @withdraw _ Texts.all = Mosaic.SettlementLedger.withdraw := by
  funext bondId currentEpoch
  let _ := Texts.all
  rw [withdraw, recordEvent_all]
  rfl

theorem slash_all : @slash _ Texts.all = Mosaic.SettlementLedger.slash := by
  funext bondId amount epoch evidenceId reporter
  let _ := Texts.all
  rw [slash, recordEvent_all]
  rfl

theorem chargeFee_all : @chargeFee _ Texts.all = Mosaic.SettlementLedger.chargeFee := by
  funext payer amount epoch txId
  let _ := Texts.all
  rw [chargeFee, recordEvent_all]
  rfl

theorem rewardFrom_all (epoch total totalWeight : Int) (entries : List (String × Int)) (distributed : Int) :
    @rewardFrom _ Texts.all epoch total totalWeight distributed entries =
      Mosaic.SettlementLedger.rewardFrom epoch total totalWeight distributed entries := by
  induction entries generalizing distributed with
  | nil => rfl
  | cons entry entries ih => simp only [rewardFrom, Mosaic.SettlementLedger.rewardFrom, recordEvent_all, ih]

theorem distributeRewards_all : @distributeRewards _ Texts.all = Mosaic.SettlementLedger.distributeRewards := by
  funext epoch total weights
  simp only [distributeRewards, rewardFrom_all]
  rfl

end SettlementLedger

theorem SettlementCall.run_all (call : SettlementCall) : @SettlementCall.run _ Texts.all call = call.run := by
  let _ := Texts.all
  cases call with
  | fund account amount epoch sourceId => rw [run, SettlementLedger.fund_all]; rfl
  | bond b currentEpoch => rw [run, SettlementLedger.bond_all]; rfl
  | requestUnbond bondId currentEpoch delay => rw [run, SettlementLedger.requestUnbond_all]; rfl
  | withdraw bondId currentEpoch => rw [run, SettlementLedger.withdraw_all]; rfl
  | slash bondId amount epoch evidenceId reporter => rw [run, SettlementLedger.slash_all]; rfl
  | chargeFee payer amount epoch txId => rw [run, SettlementLedger.chargeFee_all]; rfl
  | distributeRewards epoch total weights => rw [run, SettlementLedger.distributeRewards_all]; rfl

end Strict

end Mosaic
