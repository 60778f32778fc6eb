import Mosaic.Strict.SettlementSteps

namespace Mosaic
open CanonicalJson Effects

/-- An operation that changes the ledger to `t` and records an event last: it
refuses, it is stopped by the event when all is done, or it returns. -/
inductive Concludes (x : PyLedger SettlementEvent) (s : SettlementLedger) (admitted : Prop) (t : SettlementLedger)
    (event : SettlementEvent) (blocked : Prop := s.Recorded event) : Prop
  | refused {e : EconomyError} (refused : ¬ admitted) (run : x s = .error e s)
  | stopped {e : EconomyError} (admitted : admitted) (old : blocked) (run : x s = .error e t)
  | returned (admitted : admitted) (new : ¬ blocked) (run : x s = .ok event (t.addEvent event))

theorem single_ok {x : PyLedger SettlementEvent} {s t : SettlementLedger} {event : SettlementEvent}
    (run : x s = .ok event t) : (([·]) <$> x) s = .ok [event] t := bind_of_ok run

theorem single_error {x : PyLedger SettlementEvent} {s t : SettlementLedger} {e : EconomyError} (run : x s = .error e t) :
    (([·]) <$> x) s = .error e t := bind_of_error run

theorem Concludes.ok {x : PyLedger SettlementEvent} {s t : SettlementLedger} {admitted blocked : Prop} {event : SettlementEvent}
    (concludes : Concludes x s admitted t event blocked) (holds : admitted) (new : ¬ blocked) :
    x s = .ok event (t.addEvent event) := by
  cases concludes with
  | refused refused _ => exact absurd holds refused
  | stopped _ old _ => exact absurd old new
  | returned _ _ run => exact run

/-- What a call has done that is this operation and returned. -/
theorem Concludes.of_single_ok {x : PyLedger SettlementEvent} {s t u : SettlementLedger} {admitted blocked : Prop}
    {event : SettlementEvent} {events : List SettlementEvent} (concludes : Concludes x s admitted u event blocked)
    (ran : (([·]) <$> x) s = .ok events t) : admitted ∧ ¬ blocked ∧ t = u.addEvent event := by
  cases concludes with
  | refused _ run => cases (single_error run).symm.trans ran
  | stopped _ _ run => cases (single_error run).symm.trans ran
  | returned holds new run =>
    cases (single_ok run).symm.trans ran
    exact ⟨holds, new, rfl⟩

/-- A call that is this operation and raised was refused, or stopped when all was
done. -/
theorem Concludes.of_single_error {x : PyLedger SettlementEvent} {s t u : SettlementLedger} {admitted blocked : Prop}
    {event : SettlementEvent} {e : EconomyError} (concludes : Concludes x s admitted u event blocked)
    (ran : (([·]) <$> x) s = .error e t) : t = s ∨ admitted ∧ t = u := by
  cases concludes with
  | refused _ run =>
    cases (single_error run).symm.trans ran
    exact Or.inl rfl
  | stopped holds _ run =>
    cases (single_error run).symm.trans ran
    exact Or.inr ⟨holds, rfl⟩
  | returned _ _ run => cases (single_ok run).symm.trans ran

namespace SettlementLedger

theorem recorded_addEvent (s : SettlementLedger) (event other : SettlementEvent) :
    (s.addEvent event).Recorded other ↔ event.eventId = other.eventId ∨ s.Recorded other := by
  simp only [SettlementLedger.Recorded, addEvent_events, Dict.get?_set]
  by_cases same : event.eventId = other.eventId <;> simp [same]

variable [Crypto] {s t : SettlementLedger}

/-- Events that differ in what they say have different identifiers. -/
theorem eventFor_inj (free : CollisionFree) {config : LedgerConfig} {kind kind' account account' relatedId relatedId' : String}
    {epoch epoch' amount amount' : Int} {metadata metadata' : List (String × String)}
    (same : (eventFor config kind epoch account amount relatedId metadata).eventId =
      (eventFor config kind' epoch' account' amount' relatedId' metadata').eventId) :
    kind = kind' ∧ epoch = epoch' ∧ account = account' ∧ amount = amount' ∧ relatedId = relatedId' := by
  have member := lookup_eq_of_digest free same
  have kinds := member "kind"
  have epochs := member "epoch"
  have accounts := member "account"
  have amounts := member "amount"
  have related := member "related_id"
  simp [List.lookup_cons, Json.sortKeys] at kinds epochs accounts amounts related
  exact ⟨kinds, epochs, accounts, amounts, related⟩

def Fundable (account : String) (amount : Int) : Prop := 0 < amount ∧ account ≠ ""

def fundEvent (s : SettlementLedger) (account : String) (amount epoch : Int) (sourceId : Option String) : SettlementEvent :=
  eventFor s.toLedgerConfig "FUND" epoch account amount (fundingId account amount epoch sourceId) [("source", "external")]

structure Bondable (s : SettlementLedger) (bond : StakeBond) (currentEpoch : Int) : Prop where
  verified : bond.verify = true
  asset : bond.asset = s.asset
  arrived : bond.activationEpoch ≤ currentEpoch
  new : s.bonds.get? bond.bondId = none
  enough : bond.amount ≤ s.balanceOf bond.owner

def bondedPosition (bond : StakeBond) : BondPosition where
  bondId := bond.bondId
  owner := bond.owner
  asset := bond.asset
  amount := bond.amount
  unlockEpoch := bond.unlockEpoch

def bonded (s : SettlementLedger) (bond : StakeBond) : SettlementLedger :=
  (s.credited bond.owner (-bond.amount)).setPosition (bondedPosition bond) bond.bondId

def bondEvent (s : SettlementLedger) (bond : StakeBond) (currentEpoch : Int) : SettlementEvent :=
  eventFor s.toLedgerConfig "BOND" currentEpoch bond.owner bond.amount bond.bondId []

theorem amount_pos_of_verify {bond : StakeBond} (verified : bond.verify = true) : 0 < bond.amount := by
  simp only [StakeBond.verify, Bool.and_eq_true, decide_eq_true_eq] at verified
  exact verified.1.1.1

structure Unbondable (s : SettlementLedger) (bondId : String) (found : BondPosition) (delay : Int) : Prop where
  held : s.bonds.get? bondId = some found
  natural : 0 ≤ delay
  active : found.active = true
  still : found.unbonding = false

def leaving (found : BondPosition) (currentEpoch delay : Int) : BondPosition :=
  { found with
    unlockEpoch := max found.unlockEpoch (currentEpoch + delay)
    active := false
    unbonding := true }

def unbondEvent (s : SettlementLedger) (bondId : String) (found : BondPosition) (currentEpoch : Int) : SettlementEvent :=
  eventFor s.toLedgerConfig "UNBOND_REQUEST" currentEpoch found.owner 0 bondId []

structure Withdrawable (s : SettlementLedger) (bondId : String) (found : BondPosition) (currentEpoch : Int) : Prop where
  held : s.bonds.get? bondId = some found
  inactive : found.active = false
  unbonding : found.unbonding = true
  unlocked : found.unlockEpoch ≤ currentEpoch

/-- The position is gone and its owner has what was left of it. -/
def paidOut (s : SettlementLedger) (bondId : String) (found : BondPosition) : SettlementLedger :=
  (s.dropPosition bondId).credited found.owner found.amount

def withdrawEvent (s : SettlementLedger) (bondId : String) (found : BondPosition) (currentEpoch : Int) : SettlementEvent :=
  eventFor s.toLedgerConfig "WITHDRAW" currentEpoch found.owner found.amount bondId []

structure Payable (s : SettlementLedger) (payer : String) (amount : Int) (txId : String) : Prop where
  positive : 0 < amount
  named : txId ≠ ""
  enough : amount ≤ s.balanceOf payer

def charged (s : SettlementLedger) (payer : String) (amount : Int) : SettlementLedger :=
  (s.credited payer (-amount)).credited s.treasury amount

def feeEvent (s : SettlementLedger) (payer : String) (amount epoch : Int) (txId : String) : SettlementEvent :=
  eventFor s.toLedgerConfig "FEE" epoch payer amount txId []

structure Slashable (s : SettlementLedger) (bondId : String) (found : BondPosition) (amount : Int) (evidenceId : String) :
    Prop where
  positive : 0 < amount
  named : evidenceId ≠ ""
  new : evidenceId ∉ s.slashEvidenceIds
  held : s.bonds.get? bondId = some found

def slashEvent (s : SettlementLedger) (found : BondPosition) (penalty epoch : Int) (evidenceId : String) :
    SettlementEvent := eventFor s.toLedgerConfig "SLASH" epoch found.owner penalty evidenceId []

def reporterEvent (s : SettlementLedger) (reporter : String) (reward epoch : Int) (evidenceId : String) :
    SettlementEvent := eventFor s.toLedgerConfig "REPORTER_REWARD" epoch reporter reward evidenceId []

/-- The penalty is off the bond and the evidence is used. -/
def penalizedBy (s : SettlementLedger) (bondId : String) (found : BondPosition) (penalty : Int) (evidenceId : String) :
    SettlementLedger := (s.addEvidence evidenceId).setPosition (penalized found penalty) bondId

/-- The event is recorded and the treasury has its part. -/
def slashed (s : SettlementLedger) (bondId : String) (found : BondPosition) (penalty reward epoch : Int)
    (evidenceId : String) : SettlementLedger :=
  ((s.penalizedBy bondId found penalty evidenceId).addEvent (s.slashEvent found penalty epoch evidenceId)).credited
    s.treasury (penalty - reward)

omit [Crypto] in
theorem Sound.of_penalizedBy (sound : s.Sound) {bondId evidenceId : String} {found : BondPosition} {amount penalty : Int}
    (admitted : s.Slashable bondId found amount evidenceId) (least : penalty = min amount found.amount) :
    0 ≤ penalty ∧ (s.penalizedBy bondId found penalty evidenceId).Sound := by
  have proper := sound.bonds bondId found admitted.held
  have natural : 0 ≤ penalty := by
    have := proper.amount
    have := admitted.positive
    omega
  exact ⟨natural, (sound.addEvidence evidenceId).setPosition (sound_penalized proper least admitted.positive) bondId⟩

theorem Sound.of_slashed (sound : s.Sound) {bondId evidenceId : String} {found : BondPosition}
    {amount penalty reward epoch : Int} (admitted : s.Slashable bondId found amount evidenceId)
    (least : penalty = min amount found.amount) (part : reward ≤ penalty) :
    (s.slashed bondId found penalty reward epoch evidenceId).Sound := by
  obtain ⟨natural, taken⟩ := sound.of_penalizedBy admitted least
  have recorded : ((s.penalizedBy bondId found penalty evidenceId).addEvent
      (s.slashEvent found penalty epoch evidenceId)).Sound := taken.addEvent natural rfl
  refine recorded.credited ?_ s.treasuryNamed
  have := recorded.balanceOf s.treasury
  omega

/-- An event of the slash is in the ledger already. -/
def SlashBlocked (s : SettlementLedger) (found : BondPosition) (penalty reward epoch : Int) (evidenceId : String)
    (reporter : Option String) : Prop :=
  s.Recorded (s.slashEvent found penalty epoch evidenceId) ∨
    reward ≠ 0 ∧ (s.addEvent (s.slashEvent found penalty epoch evidenceId)).Recorded
      (s.reporterEvent (reporter.getD "") reward epoch evidenceId)

/-- A slash refuses, it is stopped by one of its events when the penalty is off the bond, or it
returns. `blocked` tells of the penalty and of the reporter's share when an event stops it. -/
inductive SlashCases (x : PyLedger (List SettlementEvent)) (s : SettlementLedger) (bondId : String) (amount epoch : Int)
    (evidenceId : String) (reporter : Option String) (blocked : BondPosition → Int → Int → Prop) : Prop
  | refused {e : EconomyError} (refused : ∀ found, ¬ s.Slashable bondId found amount evidenceId) (run : x s = .error e s)
  | stopped {found : BondPosition} {penalty reward : Int} {e : EconomyError} {t : SettlementLedger}
      (admitted : s.Slashable bondId found amount evidenceId)
      (least : penalty = min amount found.amount) (share : reward = reporterShare s.toLedgerConfig penalty reporter)
      (stopped : blocked found penalty reward) (touched : evidenceId ∈ t.slashEvidenceIds) (sound : t.Sound)
      (run : x s = .error e t)
  | returned {found : BondPosition} {penalty reward : Int} (admitted : s.Slashable bondId found amount evidenceId)
      (least : penalty = min amount found.amount) (share : reward = reporterShare s.toLedgerConfig penalty reporter)
      (nothing : reward = 0) (clear : ¬ blocked found penalty reward)
      (run : x s = .ok [s.slashEvent found penalty epoch evidenceId] (s.slashed bondId found penalty reward epoch evidenceId))
  | rewarded {found : BondPosition} {penalty reward : Int} (admitted : s.Slashable bondId found amount evidenceId)
      (least : penalty = min amount found.amount) (share : reward = reporterShare s.toLedgerConfig penalty reporter)
      (something : reward ≠ 0) (clear : ¬ blocked found penalty reward)
      (run : x s = .ok [s.slashEvent found penalty epoch evidenceId, s.reporterEvent (reporter.getD "") reward epoch evidenceId]
        (((s.slashed bondId found penalty reward epoch evidenceId).credited (reporter.getD "") reward).addEvent
          (s.reporterEvent (reporter.getD "") reward epoch evidenceId)))

end SettlementLedger

namespace Strict.SettlementLedger
open Mosaic.SettlementLedger

variable [Crypto] [Texts] {s t : SettlementLedger}

/-- The last line of an operation. -/
theorem Concludes.of_recordEvent {x : PyLedger SettlementEvent} {admitted : Prop} {kind account relatedId : String}
    {epoch amount : Int} {metadata : List (String × String)} (holds : admitted)
    (rest : x s = recordEvent kind epoch account amount relatedId metadata t) (config : t.toLedgerConfig = s.toLedgerConfig)
    (events : t.events = s.events) :
    Concludes x s admitted t (eventFor s.toLedgerConfig kind epoch account amount relatedId metadata)
      (s.Barred (eventFor s.toLedgerConfig kind epoch account amount relatedId metadata)) := by
  rw [← config]
  have same : s.Barred (eventFor t.toLedgerConfig kind epoch account amount relatedId metadata) =
      t.Barred (eventFor t.toLedgerConfig kind epoch account amount relatedId metadata) := by
    simp only [Barred, SettlementLedger.Recorded, events]
  rw [same]
  by_cases barred : t.Barred (eventFor t.toLedgerConfig kind epoch account amount relatedId metadata)
  · obtain ⟨e, raised⟩ := recordEvent_raises barred
    exact .stopped holds barred (rest.trans raised)
  · exact .returned holds barred (rest.trans (recordEvent_ok barred))

theorem fundingId_ok {account related : String} {amount epoch : Int} {sourceId : Option String}
    (made : fundingId account amount epoch sourceId = .ok related) :
    related = Mosaic.SettlementLedger.fundingId account amount epoch sourceId := by
  unfold fundingId at made
  unfold Mosaic.SettlementLedger.fundingId
  cases sourceId with
  | none => exact (Economy.digest_eq_ok made).2
  | some source =>
    dsimp only at made ⊢
    split at made
    · rename_i empty
      rw [if_pos empty]
      exact (Economy.digest_eq_ok made).2
    · rename_i named
      rw [if_neg named]
      cases made
      rfl

theorem fundingId_eq {account : String} (fine : Texts.encodes account = true) (amount epoch : Int) (sourceId : Option String) :
    fundingId account amount epoch sourceId = .ok (Mosaic.SettlementLedger.fundingId account amount epoch sourceId) := by
  have unnamed : fundingId.unnamed account amount epoch =
      .ok (Mosaic.SettlementLedger.fundingId.unnamed account amount epoch) := by
    refine Economy.digest_of_encodable ?_
    simp (disch := decide) [fine, encodes_of_all]
  cases sourceId with
  | none => exact unnamed
  | some source =>
    unfold fundingId Mosaic.SettlementLedger.fundingId
    dsimp only
    split
    · exact unnamed
    · rfl

omit [Crypto] in
theorem encodes_account {event : SettlementEvent} (fine : event.statement.Encodable) : Texts.encodes event.account = true := by
  simp [SettlementEvent.statement, eventStatement] at fine
  exact fine.2.2.2.1.2

/-- `fund` records its event before it credits the account. -/
theorem fund_cases (s : SettlementLedger) (account : String) (amount epoch : Int) (sourceId : Option String) :
    ((¬ Fundable account amount ∨ s.Barred (s.fundEvent account amount epoch sourceId)) ∧
        ∃ e, fund account amount epoch sourceId s = .error e s) ∨
      (Fundable account amount ∧ ¬ s.Barred (s.fundEvent account amount epoch sourceId) ∧
        fund account amount epoch sourceId s = .ok (s.fundEvent account amount epoch sourceId)
          ((s.addEvent (s.fundEvent account amount epoch sourceId)).credited account amount)) := by
  by_cases invalid : amount ≤ 0 ∨ account = ""
  · refine Or.inl ⟨Or.inl fun able => ?_, _, raiseIf_bind_pos invalid _ _ _⟩
    rcases invalid with small | nameless
    · exact absurd able.1 (by omega)
    · exact able.2 nameless
  obtain ⟨positive, named⟩ := not_or.mp invalid
  have start : fund account amount epoch sourceId s =
      (ofExcept (fundingId account amount epoch sourceId) >>= fun related => do
        let event ← recordEvent "FUND" epoch account amount related [("source", "external")]
        credit account amount
        return event) s := raiseIf_bind_neg invalid _ _ _
  by_cases barred : s.Barred (s.fundEvent account amount epoch sourceId)
  · refine Or.inl ⟨Or.inr barred, ?_⟩
    cases related : fundingId account amount epoch sourceId with
    | error e =>
      rw [related] at start
      exact ⟨e, start⟩
    | ok id =>
      rw [related, ofExcept_ok_bind] at start
      cases fundingId_ok related
      obtain ⟨e, raised⟩ := recordEvent_raises barred
      exact ⟨e, start.trans (bind_of_error raised)⟩
  · have fine : Texts.encodes account = true := encodes_account (not_barred barred).1
    rw [fundingId_eq fine, ofExcept_ok_bind, bind_of_ok (recordEvent_ok barred),
      bind_of_ok (credit_ok named (by omega))] at start
    exact Or.inr ⟨⟨by omega, named⟩, barred, start⟩

theorem bond_concludes (s : SettlementLedger) (b : StakeBond) (currentEpoch : Int) :
    Concludes (bond b currentEpoch) s (s.Bondable b currentEpoch ∧ b.statement.Encodable) (s.bonded b)
      (s.bondEvent b currentEpoch) (s.Barred (s.bondEvent b currentEpoch)) := by
  by_cases fine : b.statement.Encodable
  case neg =>
    rcases StakeBond.verify_refuses fine with wrong | raised
    · refine .refused (e := .settlement "invalid stake bond") (fun able => fine able.2) ?_
      simp [bond, bind_apply, raiseIf_apply, ofExcept_of_ok wrong]
    · refine .refused (e := surrogatesError) (fun able => fine able.2) ?_
      rw [bond, raised, ofExcept_error_bind]
  have verdict : (ofExcept (StakeBond.verify b) : PyLedger Bool) s = .ok b.verify s :=
    ofExcept_of_ok (StakeBond.verify_of_encodable fine) s
  by_cases verified : b.verify = false
  · refine .refused (e := .settlement "invalid stake bond") (fun able => ?_) ?_
    · rw [able.1.verified] at verified
      cases verified
    · simp [bond, bind_apply, raiseIf_apply, verdict, verified]
  by_cases asset : b.asset ≠ s.asset
  · refine .refused (e := .settlement "stake asset does not match ledger") (fun able => asset able.1.asset) ?_
    simp [bond, bind_apply, raiseIf_apply, verdict, verified, asset]
  by_cases early : currentEpoch < b.activationEpoch
  · refine .refused (e := .settlement "bond activation epoch has not arrived") (fun able => ?_) ?_
    · have := able.1.arrived
      omega
    · simp [bond, bind_apply, raiseIf_apply, verdict, verified, asset, early]
  by_cases settled : s.bonds.contains b.bondId = true
  · refine .refused (e := .settlement "bond already settled") (fun able => ?_) ?_
    · simp [Dict.contains, able.1.new] at settled
    · simp [bond, bind_apply, raiseIf_apply, verdict, verified, asset, early, settled]
  have verified' : b.verify = true := by simpa using verified
  have positive := amount_pos_of_verify verified'
  have start : bond b currentEpoch s = (debit b.owner b.amount >>= fun _ => do
      modify (·.setPosition (bondedPosition b) b.bondId)
      recordEvent "BOND" currentEpoch b.owner b.amount b.bondId []) s := by
    unfold bond
    simp only [bind_apply, verdict, get_apply, raiseIf_apply, if_neg verified, if_neg asset, if_neg early, if_neg settled]
    rfl
  by_cases enough : b.amount ≤ s.balanceOf b.owner
  · refine Concludes.of_recordEvent ⟨⟨verified', not_not.mp asset, by omega, ?_, enough⟩, fine⟩ ?_ rfl rfl
    · simpa using settled
    · rw [start, bind_of_ok (debit_ok (by omega) enough)]
      rfl
  · have poor : s.balanceOf b.owner < b.amount := by omega
    obtain ⟨e, raised⟩ := debit_raises poor
    exact .refused (fun able => enough able.1.enough) (start.trans (bind_of_error raised))

theorem requestUnbond_unknown {bondId : String} (unknown : s.bonds.get? bondId = none) (currentEpoch delay : Int) :
    ∃ e, requestUnbond bondId currentEpoch delay s = .error e s := by
  obtain ⟨e, raised⟩ := position_raises unknown
  exact ⟨e, bind_of_error raised⟩

theorem requestUnbond_concludes {bondId : String} {found : BondPosition} (held : s.bonds.get? bondId = some found)
    (currentEpoch delay : Int) :
    Concludes (requestUnbond bondId currentEpoch delay) s (s.Unbondable bondId found delay)
      (s.setPosition (leaving found currentEpoch delay) bondId) (s.unbondEvent bondId found currentEpoch)
      (s.Barred (s.unbondEvent bondId found currentEpoch)) := by
  have start : requestUnbond bondId currentEpoch delay s = _ := bind_of_ok (position_ok held)
  by_cases refused : delay < 0 ∨ found.active = false ∨ found.unbonding = true
  · refine .refused (e := .settlement "bond cannot enter unbonding") (fun able => ?_) ?_
    · rcases refused with negative | inactive | unbonding
      · exact absurd able.natural (by omega)
      · rw [able.active] at inactive
        cases inactive
      · rw [able.still] at unbonding
        cases unbonding
    · rw [start, bind_apply, raiseIf_apply, if_pos refused]
  · obtain ⟨natural, active, still⟩ : ¬ delay < 0 ∧ found.active = true ∧ found.unbonding = false := by
      simpa only [not_or, Bool.not_eq_false, Bool.not_eq_true] using refused
    refine Concludes.of_recordEvent ⟨held, by omega, active, still⟩ ?_ rfl rfl
    rw [start, bind_apply, raiseIf_apply, if_neg refused]
    rfl

theorem withdraw_unknown {bondId : String} (unknown : s.bonds.get? bondId = none) (currentEpoch : Int) :
    ∃ e, withdraw bondId currentEpoch s = .error e s := by
  obtain ⟨e, raised⟩ := position_raises unknown
  exact ⟨e, bind_of_error raised⟩

theorem withdraw_concludes (sound : s.Sound) {bondId : String} {found : BondPosition}
    (held : s.bonds.get? bondId = some found) (currentEpoch : Int) :
    Concludes (withdraw bondId currentEpoch) s (s.Withdrawable bondId found currentEpoch) (s.paidOut bondId found)
      (s.withdrawEvent bondId found currentEpoch) (s.Barred (s.withdrawEvent bondId found currentEpoch)) := by
  have start : withdraw bondId currentEpoch s = _ := bind_of_ok (position_ok held)
  by_cases active : found.active = true
  · refine .refused (e := .settlement "bond is still active; request unbonding first") (fun able => ?_) ?_
    · rw [able.inactive] at active
      cases active
    · rw [start, bind_apply, raiseIf_apply, if_pos active]
  by_cases refused : found.unbonding = false ∨ currentEpoch < found.unlockEpoch
  · refine .refused (e := .settlement "withdrawal delay has not elapsed") (fun able => ?_) ?_
    · rcases refused with still | early
      · rw [able.unbonding] at still
        cases still
      · exact absurd able.unlocked (by omega)
    · rw [start, bind_apply, raiseIf_apply, if_neg active]
      dsimp only
      rw [bind_apply, raiseIf_apply, if_pos refused]
  · obtain ⟨unbonding, late⟩ : found.unbonding = true ∧ ¬ currentEpoch < found.unlockEpoch := by
      simpa only [not_or, Bool.not_eq_false] using refused
    have proper := sound.bonds bondId found held
    have credited : credit found.owner found.amount (s.dropPosition bondId) = .ok ⟨⟩ (s.paidOut bondId found) :=
      credit_ok proper.owned proper.amount
    refine Concludes.of_recordEvent ⟨held, by simpa using active, unbonding, by omega⟩ ?_ rfl rfl
    rw [start, bind_apply, raiseIf_apply, if_neg active]
    dsimp only
    rw [bind_apply, raiseIf_apply, if_neg refused]
    exact bind_of_ok credited

theorem chargeFee_concludes (s : SettlementLedger) (payer : String) (amount epoch : Int) (txId : String) :
    Concludes (chargeFee payer amount epoch txId) s (s.Payable payer amount txId) (s.charged payer amount)
      (s.feeEvent payer amount epoch txId) (s.Barred (s.feeEvent payer amount epoch txId)) := by
  by_cases refused : amount ≤ 0 ∨ txId = ""
  · refine .refused (e := .settlement "fee amount and tx id are required") (fun able => ?_) ?_
    · rcases refused with small | nameless
      · exact absurd able.positive (by omega)
      · exact able.named nameless
    · simp only [chargeFee, bind_apply, raiseIf_apply, if_pos refused]
  obtain ⟨positive, named⟩ := not_or.mp refused
  have start : chargeFee payer amount epoch txId s = (debit payer amount >>= fun _ => do
      let t ← get
      credit t.treasury amount
      recordEvent "FEE" epoch payer amount txId []) s := by
    unfold chargeFee
    simp only [bind_apply, raiseIf_apply, if_neg refused]
  by_cases enough : amount ≤ s.balanceOf payer
  · have credited : credit s.treasury amount (s.credited payer (-amount)) = .ok ⟨⟩ (s.charged payer amount) :=
      credit_ok s.treasuryNamed (by omega)
    refine Concludes.of_recordEvent ⟨by omega, named, enough⟩ ?_ rfl rfl
    rw [start, bind_of_ok (debit_ok (by omega) enough)]
    exact bind_of_ok credited
  · have poor : s.balanceOf payer < amount := by omega
    obtain ⟨e, raised⟩ := debit_raises poor
    exact .refused (fun able => enough able.enough) (start.trans (bind_of_error raised))

/-- An event of the slash is not taken. -/
def SlashBarred (s : SettlementLedger) (epoch : Int) (evidenceId : String) (reporter : Option String)
    (found : BondPosition) (penalty reward : Int) : Prop :=
  s.Barred (s.slashEvent found penalty epoch evidenceId) ∨
    reward ≠ 0 ∧ (s.addEvent (s.slashEvent found penalty epoch evidenceId)).Barred
      (s.reporterEvent (reporter.getD "") reward epoch evidenceId)

theorem slash_cases (sound : s.Sound) (bondId : String) (amount epoch : Int) (evidenceId : String)
    (reporter : Option String) : SlashCases (slash bondId amount epoch evidenceId reporter) s bondId amount epoch evidenceId
      reporter (SlashBarred s epoch evidenceId reporter) := by
  by_cases invalid : amount ≤ 0 ∨ evidenceId = ""
  · refine .refused (e := .settlement "slash amount and evidence are required") (fun found able => ?_) ?_
    · rcases invalid with small | nameless
      · exact absurd able.positive (by omega)
      · exact able.named nameless
    · simp only [slash, bind_apply, raiseIf_apply, if_pos invalid]
  by_cases used : evidenceId ∈ s.slashEvidenceIds
  · refine .refused (e := .settlement "slash evidence already settled") (fun found able => able.new used) ?_
    simp only [slash, bind_apply, raiseIf_apply, if_neg invalid, get_apply, if_pos used]
  cases held : s.bonds.get? bondId with
  | none =>
    obtain ⟨e, raised⟩ := position_raises held
    refine .refused (fun found able => ?_) (e := e) ?_
    · cases held.symm.trans able.held
    · simp only [slash, bind_apply, raiseIf_apply, if_neg invalid, get_apply, if_neg used, raised]
  | some found =>
    obtain ⟨positive, named⟩ := not_or.mp invalid
    have able : s.Slashable bondId found amount evidenceId := ⟨by omega, named, used, held⟩
    have proper := sound.bonds bondId found held
    obtain ⟨penalty, least⟩ : ∃ penalty, penalty = min amount found.amount := ⟨_, rfl⟩
    have natural : 0 ≤ penalty := by
      have := proper.amount
      omega
    obtain ⟨reward, share⟩ : ∃ reward, reward = reporterShare s.toLedgerConfig penalty reporter := ⟨_, rfl⟩
    obtain ⟨low, high⟩ := reporterShare_bounds s.toLedgerConfig natural reporter
    rw [← share] at low high
    have start : slash bondId amount epoch evidenceId reporter s =
        (recordEvent "SLASH" epoch found.owner penalty evidenceId [] >>= fun event => do
          credit s.treasury (penalty - reward)
          if reward ≠ 0 then do
            credit (reporter.getD "") reward
            let second ← recordEvent "REPORTER_REWARD" epoch (reporter.getD "") reward evidenceId []
            return [event, second]
          else
            return [event]) (s.penalizedBy bondId found penalty evidenceId) := by
      unfold slash
      simp only [bind_apply, raiseIf_apply, if_neg invalid, get_apply, if_neg used, position_ok held, modify_apply,
        share, least]
      rfl
    by_cases old : s.Barred (s.slashEvent found penalty epoch evidenceId)
    · have raises : ∃ e, recordEvent "SLASH" epoch found.owner penalty evidenceId []
          (s.penalizedBy bondId found penalty evidenceId) = .error e (s.penalizedBy bondId found penalty evidenceId) :=
        recordEvent_raises old
      obtain ⟨e, raised⟩ := raises
      exact .stopped able least share (Or.inl old) (Finset.mem_insert_self _ _) (sound.of_penalizedBy able least).2
        (start.trans (bind_of_error raised))
    have recorded : recordEvent "SLASH" epoch found.owner penalty evidenceId []
        (s.penalizedBy bondId found penalty evidenceId) = .ok (s.slashEvent found penalty epoch evidenceId)
          ((s.penalizedBy bondId found penalty evidenceId).addEvent (s.slashEvent found penalty epoch evidenceId)) :=
      recordEvent_ok old
    have credited : credit s.treasury (penalty - reward)
        ((s.penalizedBy bondId found penalty evidenceId).addEvent (s.slashEvent found penalty epoch evidenceId)) =
          .ok ⟨⟩ (s.slashed bondId found penalty reward epoch evidenceId) :=
      credit_ok s.treasuryNamed (by omega)
    rw [bind_of_ok recorded, bind_of_ok credited] at start
    by_cases nothing : reward = 0
    · rw [if_neg (not_not.mpr nothing)] at start
      refine .returned able least share nothing ?_ start
      rintro (first | ⟨something, -⟩)
      · exact old first
      · exact something nothing
    rw [if_pos nothing] at start
    have named : reporter.getD "" ≠ "" := reporter_named (share ▸ nothing)
    rw [bind_of_ok (credit_ok named low)] at start
    by_cases old' : ((s.slashed bondId found penalty reward epoch evidenceId).credited (reporter.getD "") reward).Barred
        (s.reporterEvent (reporter.getD "") reward epoch evidenceId)
    · have raises : ∃ e, recordEvent "REPORTER_REWARD" epoch (reporter.getD "") reward evidenceId []
          ((s.slashed bondId found penalty reward epoch evidenceId).credited (reporter.getD "") reward) = .error e _ :=
        recordEvent_raises old'
      obtain ⟨e, raised⟩ := raises
      have slashed := @Sound.of_slashed _ _ sound _ _ _ _ _ _ epoch able least high
      have rewarded : ((s.slashed bondId found penalty reward epoch evidenceId).credited (reporter.getD "") reward).Sound := by
        refine slashed.credited ?_ named
        have := slashed.balanceOf (reporter.getD "")
        omega
      exact .stopped able least share (Or.inr ⟨nothing, old'⟩) (Finset.mem_insert_self _ _) rewarded
        (start.trans (bind_of_error raised))
    · have recorded' : recordEvent "REPORTER_REWARD" epoch (reporter.getD "") reward evidenceId []
          ((s.slashed bondId found penalty reward epoch evidenceId).credited (reporter.getD "") reward) =
            .ok (s.reporterEvent (reporter.getD "") reward epoch evidenceId) _ := recordEvent_ok old'
      refine .rewarded able least share nothing ?_ (start.trans (bind_of_ok recorded'))
      rintro (first | ⟨-, second⟩)
      · exact old first
      · exact old' second

end Strict.SettlementLedger

namespace SettlementLedger
variable [Crypto] {s : SettlementLedger}

theorem fund_cases (s : SettlementLedger) (account : String) (amount epoch : Int) (sourceId : Option String) :
    ((¬ Fundable account amount ∨ s.Recorded (s.fundEvent account amount epoch sourceId)) ∧
        ∃ e, fund account amount epoch sourceId s = .error e s) ∨
      (Fundable account amount ∧ ¬ s.Recorded (s.fundEvent account amount epoch sourceId) ∧
        fund account amount epoch sourceId s = .ok (s.fundEvent account amount epoch sourceId)
          ((s.addEvent (s.fundEvent account amount epoch sourceId)).credited account amount)) := by
  have cases' := @Strict.SettlementLedger.fund_cases _ Texts.all s account amount epoch sourceId
  rwa [Strict.SettlementLedger.fund_all, barred_all] at cases'

theorem fund_ok {account : String} {amount epoch : Int} {sourceId : Option String} (able : Fundable account amount)
    (new : ¬ s.Recorded (s.fundEvent account amount epoch sourceId)) :
    fund account amount epoch sourceId s = .ok (s.fundEvent account amount epoch sourceId)
      ((s.addEvent (s.fundEvent account amount epoch sourceId)).credited account amount) := by
  rcases fund_cases s account amount epoch sourceId with ⟨unable | old, -⟩ | ⟨-, -, run⟩
  · exact absurd able unable
  · exact absurd old new
  · exact run

theorem bond_concludes (s : SettlementLedger) (b : StakeBond) (currentEpoch : Int) :
    Concludes (bond b currentEpoch) s (s.Bondable b currentEpoch) (s.bonded b) (s.bondEvent b currentEpoch) := by
  have concludes := @Strict.SettlementLedger.bond_concludes _ Texts.all s b currentEpoch
  rwa [Strict.SettlementLedger.bond_all, barred_all, and_iff_left (encodable_all _)] at concludes

theorem requestUnbond_unknown {bondId : String} (unknown : s.bonds.get? bondId = none) (currentEpoch delay : Int) :
    ∃ e, requestUnbond bondId currentEpoch delay s = .error e s := by
  obtain ⟨e, raised⟩ := position_raises unknown
  exact ⟨e, bind_of_error raised⟩

theorem requestUnbond_concludes {bondId : String} {found : BondPosition} (held : s.bonds.get? bondId = some found)
    (currentEpoch delay : Int) :
    Concludes (requestUnbond bondId currentEpoch delay) s (s.Unbondable bondId found delay)
      (s.setPosition (leaving found currentEpoch delay) bondId) (s.unbondEvent bondId found currentEpoch) := by
  have concludes := @Strict.SettlementLedger.requestUnbond_concludes _ Texts.all s bondId found held currentEpoch delay
  rwa [Strict.SettlementLedger.requestUnbond_all, barred_all] at concludes

theorem withdraw_unknown {bondId : String} (unknown : s.bonds.get? bondId = none) (currentEpoch : Int) :
    ∃ e, withdraw bondId currentEpoch s = .error e s := by
  obtain ⟨e, raised⟩ := position_raises unknown
  exact ⟨e, bind_of_error raised⟩

theorem withdraw_concludes (sound : s.Sound) {bondId : String} {found : BondPosition}
    (held : s.bonds.get? bondId = some found) (currentEpoch : Int) :
    Concludes (withdraw bondId currentEpoch) s (s.Withdrawable bondId found currentEpoch) (s.paidOut bondId found)
      (s.withdrawEvent bondId found currentEpoch) := by
  have concludes := @Strict.SettlementLedger.withdraw_concludes _ Texts.all s sound bondId found held currentEpoch
  rwa [Strict.SettlementLedger.withdraw_all, barred_all] at concludes

theorem chargeFee_concludes (s : SettlementLedger) (payer : String) (amount epoch : Int) (txId : String) :
    Concludes (chargeFee payer amount epoch txId) s (s.Payable payer amount txId) (s.charged payer amount)
      (s.feeEvent payer amount epoch txId) := by
  have concludes := @Strict.SettlementLedger.chargeFee_concludes _ Texts.all s payer amount epoch txId
  rwa [Strict.SettlementLedger.chargeFee_all, barred_all] at concludes

theorem slash_cases (sound : s.Sound) (bondId : String) (amount epoch : Int) (evidenceId : String)
    (reporter : Option String) : SlashCases (slash bondId amount epoch evidenceId reporter) s bondId amount epoch evidenceId
      reporter fun found penalty reward => s.SlashBlocked found penalty reward epoch evidenceId reporter := by
  have cases' := @Strict.SettlementLedger.slash_cases _ Texts.all s sound bondId amount epoch evidenceId reporter
  rw [Strict.SettlementLedger.slash_all] at cases'
  convert cases' using 4
  simp only [SlashBlocked, Strict.SettlementLedger.SlashBarred, barred_all]

end SettlementLedger

end Mosaic
