import Mosaic.CommitReveal
import Mosaic.MembershipRestart

namespace Mosaic
open CanonicalJson Effects Economy MembershipManager

structure ValidatorRecord.Sound (record : ValidatorRecord) : Prop where
  natural : 0 ≤ record.stake
  jailed : record.jailed = true ↔ record.stake = 0
  active : record.active = true → 0 < record.stake ∧ record.jailed = false

section Records
variable {record : ValidatorRecord}

theorem admittedRecord_sound {request : AdmissionRequest} (positive : 0 < request.stake) :
    (admittedRecord request).Sound where
  natural := positive.le
  jailed := by
    have present : request.stake ≠ 0 := by omega
    simp [admittedRecord, present]
  active _ := ⟨positive, rfl⟩

theorem ValidatorRecord.Sound.exited (sound : record.Sound) (m : MembershipManager) : (m.exitedRecord record).Sound where
  natural := sound.natural
  jailed := sound.jailed
  active active := by cases active

/-- A record that is jailed has nothing left, so a slash cannot bring it back. -/
theorem ValidatorRecord.Sound.slashed (sound : record.Sound) {amount : Int} (positive : 0 < amount) :
    (slashedRecord record amount).Sound where
  natural := le_max_left _ _
  jailed := by
    have natural := sound.natural
    simp only [slashedRecord, Bool.or_eq_true, decide_eq_true_eq, sound.jailed]
    omega
  active := by
    intro active
    simp only [slashedRecord, Bool.and_eq_true, decide_eq_true_eq, Bool.not_eq_true', Bool.or_eq_false_iff,
      decide_eq_false_iff_not] at active ⊢
    exact ⟨active.1, by omega, active.2⟩

theorem ValidatorRecord.Sound.docked (sound : record.Sound) {penalty : Int} (positive : 0 < penalty) :
    (dockedRecord record penalty).Sound where
  natural := le_max_left _ _
  jailed := by
    have natural := sound.natural
    simp only [dockedRecord, Bool.or_eq_true, decide_eq_true_eq, sound.jailed]
    omega
  active := by
    intro active
    simp only [dockedRecord, Bool.and_eq_true, decide_eq_true_eq, Bool.or_eq_false_iff,
      decide_eq_false_iff_not] at active ⊢
    exact ⟨active.1, by omega, (sound.active active.2).2⟩

end Records

/-- The records are sound, each under its identifier and on a deposit of its own. -/
structure MembershipManager.Books (m : MembershipManager) : Prop where
  keyed : m.Keyed
  sound : ∀ v record, m.records.get? v = some record → record.Sound
  used : ∀ v record, m.records.get? v = some record → record.depositId ∈ m.deposits
  apart : ∀ v w record record', m.records.get? v = some record → m.records.get? w = some record' →
    record.depositId = record'.depositId → v = w

namespace MembershipManager.Books

variable {m m' : MembershipManager}

/-- A record is written anew, on the deposit that it has. -/
theorem revise (books : m.Books) {v : String} {record record' : ValidatorRecord}
    (held : m.records.get? v = some record) (sound : record'.Sound) (named : record'.validatorId = record.validatorId)
    (deposit : record'.depositId = record.depositId)
    (records : m'.records = m.records.set v record') (deposits : m'.deposits = m.deposits) : m'.Books := by
  have origin : ∀ {w other}, m'.records.get? w = some other →
      (w = v ∧ other = record') ∨ m.records.get? w = some other := by
    intro w other found
    rw [records] at found
    exact Dict.origin_of_get?_set found
  -- every record of `m'` stands for one of `m` with the same deposit
  have before : ∀ {w other}, m'.records.get? w = some other →
      ∃ old, m.records.get? w = some old ∧ old.validatorId = other.validatorId ∧ old.depositId = other.depositId := by
    intro w other found
    rcases origin found with ⟨rfl, rfl⟩ | old
    · exact ⟨record, held, named.symm, deposit.symm⟩
    · exact ⟨other, old, rfl, rfl⟩
  refine ⟨fun w other found => ?_, fun w other found => ?_, fun w other found => ?_,
    fun w w' other other' found found' same => ?_⟩
  · obtain ⟨old, heldOld, sameName, -⟩ := before found
    rw [← sameName]
    exact books.keyed w old heldOld
  · rcases origin found with ⟨-, rfl⟩ | old
    · exact sound
    · exact books.sound w other old
  · obtain ⟨old, heldOld, -, sameDeposit⟩ := before found
    rw [deposits, ← sameDeposit]
    exact books.used w old heldOld
  · obtain ⟨old, heldOld, -, sameDeposit⟩ := before found
    obtain ⟨old', heldOld', -, sameDeposit'⟩ := before found'
    exact books.apart w w' old old' heldOld heldOld' (sameDeposit.trans (same.trans sameDeposit'.symm))

/-- A validator comes in on a deposit that was not used. -/
theorem register (books : m.Books) {request : AdmissionRequest} (positive : 0 < request.stake)
    (unused : request.depositId ∉ m.deposits)
    (records : m'.records = m.records.set request.validatorId (admittedRecord request))
    (deposits : m'.deposits = insert request.depositId m.deposits) : m'.Books := by
  have origin : ∀ {w other}, m'.records.get? w = some other →
      (w = request.validatorId ∧ other = admittedRecord request) ∨ m.records.get? w = some other := by
    intro w other found
    rw [records] at found
    exact Dict.origin_of_get?_set found
  have strange : ∀ {w other}, m.records.get? w = some other → other.depositId ≠ request.depositId := by
    intro w other old same
    rw [← same] at unused
    exact unused (books.used w other old)
  refine ⟨books.keyed.set (admittedRecord request) records, fun w other found => ?_, fun w other found => ?_,
    fun w w' other other' found found' same => ?_⟩
  · rcases origin found with ⟨-, rfl⟩ | old
    · exact admittedRecord_sound positive
    · exact books.sound w other old
  · rw [deposits]
    rcases origin found with ⟨-, rfl⟩ | old
    · exact Finset.mem_insert_self _ _
    · exact Finset.mem_insert_of_mem (books.used w other old)
  · rcases origin found with ⟨here, rfl⟩ | old <;> rcases origin found' with ⟨here', rfl⟩ | old'
    · exact here.trans here'.symm
    · exact absurd same.symm (strange old')
    · exact absurd same (strange old)
    · exact books.apart w w' other other' old old' same

theorem drop (books : m.Books) (v : String) (records : m'.records = m.records.erase v)
    (deposits : m'.deposits = m.deposits) : m'.Books := by
  have origin : ∀ {w other}, m'.records.get? w = some other → m.records.get? w = some other := by
    intro w other found
    rw [records, Dict.get?_erase] at found
    split at found
    · cases found
    · exact found
  refine ⟨fun w other found => books.keyed w other (origin found), fun w other found => books.sound w other (origin found),
    fun w other found => ?_, fun w w' other other' found found' => books.apart w w' other other' (origin found) (origin found')⟩
  rw [deposits]
  exact books.used w other (origin found)

theorem of_same (books : m.Books) (records : m'.records = m.records) (deposits : m'.deposits = m.deposits) : m'.Books := by
  obtain ⟨keyed, sound, used, apart⟩ := books
  refine ⟨?_, ?_, ?_, ?_⟩
  · unfold Keyed
    rwa [records]
  · rwa [records]
  · rwa [records, deposits]
  · rwa [records]

end MembershipManager.Books

variable [Crypto]

/-- SHA-256 is given in hexadecimal digits. -/
def HexDigests : Prop := ∀ message : Bytes, ∃ value : Bytes, Crypto.sha256 message = hex value

/-- As long as epochs fit into eight bytes, the snapshot is of this state. -/
structure MembershipManager.Current (m : MembershipManager) : Prop where
  natural : 0 ≤ m.epoch
  current : m.epoch < 2 ^ 64 → m.snapshot = m.buildSnapshot

/-- What every operation does to a manager. -/
structure Economy.Orderly (s t : Economy) : Prop where
  config : t.manager.toMembershipConfig = s.manager.toMembershipConfig
  deposits : s.manager.deposits ⊆ t.manager.deposits
  books : 1 ≤ s.manager.minimumStake → s.manager.Books → t.manager.Books
  current : HexDigests → s.manager.Current → t.manager.Current
  seeded : s.manager.snapshot.seed = s.manager.seed → t.manager.snapshot.seed = t.manager.seed

namespace Economy

variable {s t : Economy}

instance : Std.Refl Orderly := ⟨fun _ => ⟨rfl, Finset.Subset.refl _, fun _ => id, fun _ => id, id⟩⟩

instance : IsTrans Economy Orderly where
  trans s t u first second := by
    refine ⟨second.config.trans first.config, first.deposits.trans second.deposits, fun positive books => ?_,
      fun hexed current => second.current hexed (first.current hexed current), second.seeded ∘ first.seeded⟩
    refine second.books ?_ (first.books positive books)
    rwa [first.config]

theorem Orderly.of_same (manager : t.manager = s.manager) : s.Orderly t := by
  refine ⟨?_, ?_, fun _ books => ?_, fun _ current => ?_, fun seeded => ?_⟩ <;> rw [manager]
  · exact books
  · exact current
  · exact seeded

/-- The manager writes its records and takes a new snapshot. -/
theorem Orderly.of_rebuilt {m : MembershipManager} (manager : t.manager = m.rebuilt)
    (config : m.toMembershipConfig = s.manager.toMembershipConfig) (epoch : m.epoch = s.manager.epoch)
    (deposits : s.manager.deposits ⊆ m.deposits)
    (books : 1 ≤ s.manager.minimumStake → s.manager.Books → m.Books) : s.Orderly t := by
  refine ⟨?_, ?_, fun positive before => ?_, fun _ current => ⟨?_, fun _ => ?_⟩, fun _ => ?_⟩ <;> rw [manager]
  · exact config
  · exact deposits
  · exact (books positive before).of_same rfl rfl
  · exact epoch ▸ current.natural
  · rfl
  · rfl

end Economy

/-- An operation is orderly when what it installs at its end is. -/
theorem Finishes.orderly {α : Type} {x : PyEconomy α} {s : Economy} {admitted late : Prop} {call : Option SettlementCall}
    {done : MembershipManager} (finishes : Finishes x s admitted call late done)
    (orderly : admitted → ∀ t : Economy, t.manager = done → s.Orderly t) : Guarantees Orderly s x (fun _ _ => True) := by
  cases finishes with
  | refused _ run => exact .of_error run (.of_same rfl)
  | unpaid _ _ _ run => exact .of_error run (.of_same rfl)
  | late _ _ _ run => exact .of_error run (.of_same rfl)
  | returned holds _ _ run => exact .of_ok run (orderly holds _ rfl) trivial

namespace MembershipManager

variable {s : Economy}

theorem admit_orderly (request : AdmissionRequest) (approverIds : List String) (bond : Option StakeBond) :
    Guarantees Orderly s (admitValidator request approverIds bond) (fun _ _ => True) := by
  refine (admit_finishes s request approverIds bond).orderly fun able t installed => ?_
  have registered : ∀ m : MembershipManager, m.toMembershipConfig = s.manager.toMembershipConfig →
      m.records = s.manager.records → m.deposits = s.manager.deposits → m.epoch = s.manager.epoch →
      t.manager = m.register request → s.Orderly t := by
    intro m config records deposits epoch same
    refine .of_rebuilt same config epoch ?_ fun positive books => ?_
    · rw [addDeposit_deposits, setRecord_deposits, deposits]
      exact Finset.subset_insert _ _
    · have enough := able.stake
      refine books.register (by omega) able.unused ?_ ?_
      · rw [addDeposit_records, setRecord_records, records]
      · rw [addDeposit_deposits, setRecord_deposits, deposits]
  cases bond with
  | none => exact registered s.manager rfl rfl rfl rfl installed
  | some b => exact registered (s.manager.addBond request.validatorId b) rfl rfl rfl rfl installed

theorem exit_orderly (validatorId : String) (epoch : Option Int) :
    Guarantees Orderly s (exit validatorId epoch) (fun _ _ => True) := by
  cases held : s.manager.records.get? validatorId with
  | none =>
    obtain ⟨e, raised⟩ := exit_unknown held epoch
    exact .of_error raised (.of_same rfl)
  | some record =>
    refine (exit_finishes held epoch).orderly fun _ t installed => ?_
    refine .of_rebuilt installed rfl rfl (Finset.Subset.refl _) fun _ books => ?_
    have sound := (books.sound validatorId record held).exited s.manager
    exact books.revise held sound rfl rfl rfl rfl

theorem withdraw_orderly (validatorId : String) (currentEpoch : Option Int) :
    Guarantees Orderly s (withdraw validatorId currentEpoch) (fun _ _ => True) := by
  cases held : s.manager.records.get? validatorId with
  | none =>
    obtain ⟨e, raised⟩ := withdraw_unknown held currentEpoch
    exact .of_error raised (.of_same rfl)
  | some record =>
    refine (withdraw_finishes held currentEpoch).orderly fun _ t installed => ?_
    exact .of_rebuilt installed rfl rfl (Finset.Subset.refl _) fun _ books => books.drop validatorId rfl rfl

theorem slash_orderly (evidence : SlashEvidence) (penalty : Option Int) :
    Guarantees Orderly s (slash evidence penalty) (fun _ _ => True) := by
  cases held : s.manager.records.get? evidence.offenderId with
  | none =>
    obtain ⟨e, raised⟩ := slash_unknown held penalty
    exact .of_error raised (.of_same rfl)
  | some record =>
    cases slash_finishes held penalty with
    | refused _ run => exact .of_error run (.of_same rfl)
    | unpaid _ _ _ run => exact .of_error run (.of_same rfl)
    | late _ _ _ run => exact .of_error run (.of_same rfl)
    | returned _ _ timely run =>
      obtain ⟨-, positive⟩ := not_or.mp timely
      refine .of_ok run (.of_rebuilt rfl rfl rfl (Finset.Subset.refl _) fun _ books => ?_) trivial
      have sound := (books.sound evidence.offenderId record held).slashed (not_le.mp positive)
      exact books.revise held sound rfl rfl rfl rfl

theorem penalizeNonReveal_orderly (validatorId : String) (epoch round penalty : Int) :
    Guarantees Orderly s (penalizeNonReveal validatorId epoch round penalty) (fun _ _ => True) := by
  refine .get_bind (.raiseIf_bind fun _ => .raiseIf_bind fun positive => ?_)
  cases held : s.manager.records.get? validatorId with
  | none => exact .throw _
  | some record =>
    refine .raiseIf_bind fun _ => Guarantees.bind (Q := fun _ _ => True) (.update ?_ trivial) fun _ _ _ _ => .pure trivial
    refine .of_rebuilt rfl rfl rfl (Finset.Subset.refl _) fun _ books => ?_
    have sound := (books.sound validatorId record held).docked (not_le.mp positive)
    exact books.revise held sound rfl rfl rfl rfl

theorem restoreAdmission_orderly (request : AdmissionRequest) (bond : StakeBond) :
    Guarantees Orderly s (restoreAdmission request bond) (fun _ _ => True) := by
  refine .get_bind (.raiseIf_bind fun _ => .raiseIf_bind fun policy => .raiseIf_bind fun duplicated =>
    .raiseIf_bind fun _ => .update ?_ trivial)
  refine .of_rebuilt rfl rfl rfl (Finset.subset_insert _ _) fun positive books => ?_
  obtain ⟨enough, -⟩ := not_or.mp policy
  obtain ⟨-, unused⟩ := not_or.mp duplicated
  exact books.register (by omega) unused rfl rfl

/-- The epoch is counted even where the bytes of the seed cannot be put
together. -/
theorem advanceEpoch_cases (s : Economy) :
    (∃ snapshot seed, advanceEpoch s =
      .ok snapshot (s.setManager ((s.manager.setEpoch (s.manager.epoch + 1)).setSeed seed).rebuilt)) ∨
    ((fromHex s.manager.snapshot.root.toList = none ∨ toBytes8 (s.manager.epoch + 1) = none) ∧
      ∃ e, advanceEpoch s = .error e (s.setManager (s.manager.setEpoch (s.manager.epoch + 1)))) := by
  cases read : fromHex s.manager.snapshot.root.toList with
  | none =>
    refine Or.inr ⟨Or.inl rfl, .valueError "non-hexadecimal number found in fromhex() arg", ?_⟩
    simp only [advanceEpoch, bind_apply, get_apply, updateManager, modify_apply, hexBytes, read]
    rfl
  | some root =>
    cases counted : toBytes8 (s.manager.epoch + 1) with
    | none =>
      refine Or.inr ⟨Or.inr rfl, .overflowError
        (if s.manager.epoch + 1 < 0 then "can't convert negative int to unsigned" else "int too big to convert"), ?_⟩
      simp only [advanceEpoch, bind_apply, get_apply, updateManager, modify_apply, hexBytes, read, bigEndian8, counted]
      rfl
    | some count =>
      obtain ⟨seed, made⟩ : ∃ seed, seed = sha256Digest
          (literal "MOSAIC/EPOCH-SEED/v1" ++ s.manager.seed ++ root ++ count) := ⟨_, rfl⟩
      refine Or.inl ⟨((s.manager.setEpoch (s.manager.epoch + 1)).setSeed seed).buildSnapshot, seed, ?_⟩
      simp only [advanceEpoch, bind_apply, get_apply, updateManager, modify_apply, hexBytes, read, bigEndian8, counted]
      rw [made]
      rfl

omit [Crypto] in
theorem toBytes8_isSome {n : Int} (natural : 0 ≤ n) (small : n < 2 ^ 64) : toBytes8 n ≠ none := by
  rw [toBytes8, if_pos ⟨natural, small⟩]
  exact Option.some_ne_none _

/-- Where the snapshot is of this state and the next epoch fits, nothing is in
the way of the seed. -/
theorem Current.advances {m : MembershipManager} (hexed : HexDigests) (current : m.Current) (small : m.epoch + 1 < 2 ^ 64) :
    ¬ (fromHex m.snapshot.root.toList = none ∨ toBytes8 (m.epoch + 1) = none) := by
  have natural := current.natural
  rintro (unread | uncounted)
  · rw [current.current (by omega)] at unread
    obtain ⟨value, written⟩ : ∃ value, m.buildSnapshot.root = hex value := hexed _
    rw [written, fromHex_hex] at unread
    cases unread
  · exact toBytes8_isSome (by omega) small uncounted

theorem advanceEpoch_orderly : Guarantees Orderly s advanceEpoch (fun _ _ => True) := by
  rcases advanceEpoch_cases s with ⟨snapshot, seed, ran⟩ | ⟨stuck, e, raised⟩
  · refine .of_ok ran ⟨rfl, Finset.Subset.refl _, fun _ books => books.of_same rfl rfl, fun _ current => ⟨?_, ?_⟩,
      fun _ => rfl⟩ trivial
    · have natural := current.natural
      change 0 ≤ s.manager.epoch + 1
      omega
    · exact fun _ => rfl
  · refine .of_error raised ⟨rfl, Finset.Subset.refl _, fun _ books => books.of_same rfl rfl,
      fun hexed current => ⟨?_, ?_⟩, id⟩
    · have natural := current.natural
      change 0 ≤ s.manager.epoch + 1
      omega
    · exact fun small => absurd stuck (current.advances hexed small)

end MembershipManager

theorem orderly_kept : Kept Orderly where
  ledger _ _ := .of_same rfl
  store _ _ := .of_same rfl
  manager call s own := by
    have discards : ∀ {β : Type} {x : PyEconomy β}, Guarantees Orderly s x (fun _ _ => True) →
        s.Orderly (final (discard x) s) := by
      intro β x orderly
      rw [final_discard]
      exact orderly.moves
    cases call with
    | admitValidator request approverIds bond => exact discards (admit_orderly request approverIds bond)
    | exit validatorId epoch => exact discards (exit_orderly validatorId epoch)
    | withdraw validatorId currentEpoch => exact discards (withdraw_orderly validatorId currentEpoch)
    | slash evidence penalty => exact discards (slash_orderly evidence penalty)
    | penalizeNonReveal validatorId epoch round penalty =>
      exact discards (penalizeNonReveal_orderly validatorId epoch round penalty)
    | advanceEpoch => exact discards advanceEpoch_orderly
    | restoreAdmission request bond => exact (restoreAdmission_orderly request bond).moves
    | _ => exact own.elim

theorem EconomyCall.Run.orderly {s t : Economy} (run : Run s t) : s.Orderly t :=
  run.relates (P := fun _ => True) trivial (fun _ _ _ _ => trivial) fun t call _ _ =>
    orderly_kept.exec (fun _ _ => .of_same rfl) (fun _ => .of_same rfl) call t

/-- The deposit on which the call asks for a validator to be let in. -/
def EconomyCall.depositId : EconomyCall → Option String
  | .admitValidator request _ _ | .restoreAdmission request _ | .onboard request _ _ => some request.depositId
  | _ => none

namespace Economy

/-- A validator is on record with the deposit. -/
def Holds (s : Economy) (depositId : String) : Prop :=
  ∃ v record, s.manager.records.get? v = some record ∧ record.depositId = depositId

/-- No call gets a validator in on the deposit. -/
def Bars (s : Economy) (depositId : String) : Prop :=
  ∀ call : EconomyCall, call.depositId = some depositId → ∃ e t, call.run s = .error e t ∧ t.manager = s.manager

variable {s t : Economy} {depositId : String}

/-- Whatever has used a deposit is on record for it. -/
theorem holds_of_run {call : EconomyCall} (asks : call.depositId = some depositId) (ran : call.run s = .ok ⟨⟩ t) :
    t.Holds depositId := by
  have registered : ∀ (m : MembershipManager) (request : AdmissionRequest), request.depositId = depositId →
      t.manager = m.register request → t.Holds depositId := by
    intro m request same manager
    refine ⟨request.validatorId, admittedRecord request, ?_, same⟩
    rw [manager]
    exact Dict.get?_set_self _ _ _
  have admitted : ∀ (u : Economy) (request : AdmissionRequest) (bond : Option StakeBond), request.depositId = depositId →
      t.manager = u.manager.admitted request bond → t.Holds depositId := by
    intro u request bond same manager
    cases bond with
    | none => exact registered u.manager request same manager
    | some b => exact registered (u.manager.addBond request.validatorId b) request same manager
  cases call with
  | admitValidator request approverIds bond =>
    obtain ⟨certificate, ran⟩ := discard_ok ran
    exact admitted s request bond (Option.some_inj.mp asks) (MembershipManager.admit_ok ran).2.1
  | restoreAdmission request bond =>
    obtain ⟨-, rfl⟩ := AdmissionCoordinator.restoreAdmission_ok ran
    exact registered (s.manager.addBond request.validatorId bond) request (Option.some_inj.mp asks) rfl
  | onboard request bond approverIds =>
    obtain ⟨certificate, ran⟩ := discard_ok ran
    obtain ⟨u, ran, recorded⟩ := AdmissionCoordinator.admit_ok ran
    obtain ⟨-, manager, -, -⟩ := MembershipManager.admit_ok ran
    exact admitted s request (some bond) (Option.some_inj.mp asks)
      ((AdmissionCoordinator.record_ok recorded).1.trans manager)
  | _ => cases asks

theorem admit_bars {request : AdmissionRequest} (used : request.depositId ∈ s.manager.deposits) (approverIds : List String)
    (bond : Option StakeBond) : ∃ e, MembershipManager.admitValidator request approverIds bond s = .error e s := by
  have barred : ¬ s.manager.Admissible request bond := fun able => able.unused used
  cases admit_finishes s request approverIds bond with
  | refused _ run => exact ⟨_, run⟩
  | unpaid able _ _ _ => exact absurd able barred
  | late able _ _ _ => exact absurd able barred
  | returned able _ _ _ => exact absurd able barred

theorem restoreAdmission_bars {request : AdmissionRequest} (used : request.depositId ∈ s.manager.deposits)
    (bond : StakeBond) : ∃ e, restoreAdmission request bond s = .error e s := by
  by_cases forged : request.verify = false ∨ bond.verify = false
  · exact ⟨_, raiseIf_bind_pos forged _ _ _⟩
  by_cases policy : request.stake < s.manager.minimumStake ∨ request.bondId ≠ some bond.bondId
  · exact ⟨_, (raiseIf_bind_neg forged _ _ _).trans (raiseIf_bind_pos policy _ _ _)⟩
  · exact ⟨_, (raiseIf_bind_neg forged _ _ _).trans ((raiseIf_bind_neg policy _ _ _).trans
      (raiseIf_bind_pos (Or.inr used) _ _ _))⟩

/-- A deposit that is used bars every call that asks for it. -/
theorem bars_of_used (used : depositId ∈ s.manager.deposits) : s.Bars depositId := by
  intro call asks
  cases call with
  | admitValidator request approverIds bond =>
    cases asks
    obtain ⟨e, raised⟩ := admit_bars used approverIds bond
    exact ⟨e, s, bind_of_error raised, rfl⟩
  | restoreAdmission request bond =>
    cases asks
    obtain ⟨e, raised⟩ := restoreAdmission_bars used bond
    exact ⟨e, s, raised, rfl⟩
  | onboard request bond approverIds =>
    cases asks
    obtain ⟨e, barred⟩ := admit_bars used approverIds (some bond)
    cases AdmissionCoordinator.admit_onboards s request bond approverIds with
    | refused _ run => exact ⟨_, s, bind_of_error run, rfl⟩
    | rejected _ rejected run =>
      cases barred.symm.trans rejected
      exact ⟨_, s, bind_of_error run, rfl⟩
    | unrecorded _ admitted _ _ _ _ => cases barred.symm.trans admitted
    | returned _ admitted _ _ _ _ => cases barred.symm.trans admitted
  | _ => cases asks

end Economy

/-- The snapshot is of the records and verifies, and the records are in order. -/
structure MembershipManager.Sound (m : MembershipManager) : Prop where
  snapshot : m.snapshot = m.buildSnapshot
  verifies : m.snapshot.verify = true
  sorted : (m.snapshot.validators.map ValidatorRecord.validatorId).Pairwise (· ≤ ·)
  ids : (m.snapshot.validators.map ValidatorRecord.validatorId).Nodup
  deposits : (m.snapshot.validators.map ValidatorRecord.depositId).Nodup
  records : ∀ v record, m.records.get? v = some record → record.Sound

namespace MembershipManager

theorem buildSnapshot_verify {m : MembershipManager} (sound : ∀ v record, m.records.get? v = some record → record.Sound) :
    m.buildSnapshot.verify = true := by
  have ordered : (m.buildSnapshot.validators.filter ValidatorRecord.votes).Pairwise
      fun a b => a.validatorId ≤ b.validatorId := (sortedBy_pairwise _ _).sublist List.filter_sublist
  have positive : ∀ item ∈ m.buildSnapshot.validators.filter ValidatorRecord.votes, 0 < item.stake := by
    intro item member
    obtain ⟨listed, votes⟩ := List.mem_filter.mp member
    obtain ⟨v, held⟩ := Dict.mem_values.mp ((sortedBy_perm _ _).mem_iff.mp listed)
    have active : item.active = true := (Bool.and_eq_true_iff.mp votes).1
    exact ((sound v item held).active active).1
  unfold MembershipSnapshot.verify
  rw [sortedBy_of_pairwise ordered]
  simp only [Bool.and_eq_true, decide_eq_true_eq, List.all_eq_true]
  exact ⟨rfl, positive⟩

theorem Books.sound_of_current {m : MembershipManager} (books : m.Books) (current : m.snapshot = m.buildSnapshot) :
    m.Sound := by
  have listed : m.snapshot.validators.Perm m.records.values := by
    rw [current]
    exact sortedBy_perm _ _
  refine ⟨current, ?_, ?_, ?_, ?_, books.sound⟩
  · rw [current]
    exact buildSnapshot_verify books.sound
  · rw [current]
    exact List.pairwise_map.mpr (sortedBy_pairwise _ _)
  · refine (listed.map _).nodup_iff.mpr (Dict.nodup_map_values fun v w record record' held held' same => ?_)
    exact (books.keyed v record held).symm.trans (same.trans (books.keyed w record' held'))
  · exact (listed.map _).nodup_iff.mpr (Dict.nodup_map_values books.apart)

end MembershipManager

theorem EconomyCall.Reached.books {s : Economy} (reached : Reached s) (staked : 1 ≤ s.manager.minimumStake) :
    s.manager.Books := by
  obtain ⟨ledger, manager, store, beaconBound, run⟩ := reached
  have orderly := Run.orderly run
  rw [orderly.config] at staked
  refine orderly.books staked ⟨?_, ?_, ?_, ?_⟩
  · exact fun v record held => nomatch held
  · exact fun v record held => nomatch held
  · exact fun v record held => nomatch held
  · exact fun v w record record' held => nomatch held

theorem EconomyCall.Reached.current {s : Economy} (reached : Reached s) (hexed : HexDigests) : s.manager.Current := by
  obtain ⟨ledger, manager, store, beaconBound, run⟩ := reached
  exact (Run.orderly run).current hexed ⟨le_rfl, fun _ => rfl⟩

/-- The snapshot has the seed of the manager, also where the epoch was counted
without a new one. -/
theorem EconomyCall.Reached.seeded {s : Economy} (reached : Reached s) : s.manager.snapshot.seed = s.manager.seed := by
  obtain ⟨ledger, manager, store, beaconBound, run⟩ := reached
  exact (Run.orderly run).seeded rfl

theorem membership_snapshot_sound (hexed : HexDigests) {s : Economy} (reached : EconomyCall.Reached s)
    (staked : 1 ≤ s.manager.minimumStake) (small : s.manager.epoch < 2 ^ 64) :
    s.manager.Sound ∧
      (∀ depositId u, s.Holds depositId → EconomyCall.Run s u → u.Bars depositId) ∧
      ∀ depositId (call : EconomyCall) t u, call.depositId = some depositId → call.run s = .ok ⟨⟩ t →
        EconomyCall.Run t u → u.Bars depositId := by
  have books := reached.books staked
  refine ⟨books.sound_of_current ((reached.current hexed).current small), fun depositId u holds later => ?_,
    fun depositId call t u asks ran later => ?_⟩
  · obtain ⟨v, record, held, rfl⟩ := holds
    exact bars_of_used (later.orderly.deposits (books.used v record held))
  · have step : call.exec s = t := final_of_ok ran
    have reached' : EconomyCall.Run s t := step ▸ .tail .refl trivial
    obtain ⟨v, record, held, rfl⟩ := holds_of_run asks ran
    have books' := reached'.orderly.books staked books
    exact bars_of_used (later.orderly.deposits (books'.used v record held))

/-- The ideal instance with its digests in hexadecimal. -/
@[reducible] def Crypto.hexed : Crypto := { Crypto.ideal with sha256 := hex }

def hexedKey : @KeyPair Crypto.hexed := @KeyPair.mk Crypto.hexed [1]

omit [Crypto] in
theorem hexed_hexDigests : @HexDigests Crypto.hexed := fun message => ⟨message, rfl⟩

omit [Crypto] in
theorem membership_snapshot_sound_solo : let _ := Crypto.hexed
    (stakedEconomy hexedKey).manager.Sound ∧ ∀ u, EconomyCall.Run (stakedEconomy hexedKey) u → u.Bars "d" := by
  intro _
  have named : hexedKey.identity ≠ "" := by decide
  have reached := stakedEconomy_reached hex_injective ideal_signaturesVerify named
  have holds : (stakedEconomy hexedKey).Holds "d" := ⟨"v", admittedRecord (soloRequest hexedKey), rfl, rfl⟩
  obtain ⟨sound, spent, -⟩ := membership_snapshot_sound hexed_hexDigests reached (by decide) (by decide)
  exact ⟨sound, fun u => spent "d" u holds⟩

end Mosaic
