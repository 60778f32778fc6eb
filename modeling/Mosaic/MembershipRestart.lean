import Mosaic.EconomyRuns
import Mosaic.QuietCalls

namespace Mosaic
open CanonicalJson Effects Economy MembershipManager AdmissionCoordinator

/-- The onboarding row of an admission. -/
def EconomyStore.Logged (store : EconomyStore) (request : AdmissionRequest) (bond : StakeBond) : Prop :=
  ∃ objectKey certificate stateRoot membershipRoot, store.rows.get? ("onboarding", objectKey) =
    some (.onboarding request bond certificate stateRoot membershipRoot)

theorem mem_onboardingRows {store : EconomyStore} {request : AdmissionRequest} {bond : StakeBond} :
    (request, bond) ∈ onboardingRows store ↔ store.Logged request bond := by
  unfold onboardingRows
  rw [List.mem_filterMap]
  constructor
  · rintro ⟨⟨⟨kind, objectKey⟩, row⟩, member, kept⟩
    have held := (Dict.get?_eq_some_iff _).mpr ((sortedBy_perm _ _).mem_iff.mp member)
    cases row with
    | onboarding request' bond' certificate stateRoot membershipRoot =>
      dsimp only at kept
      split at kept
      · rename_i named
        cases kept
        subst named
        exact ⟨objectKey, certificate, stateRoot, membershipRoot, held⟩
      · cases kept
    | settlementState | beaconCommitment | beaconReveal | beaconRound => cases kept
  · rintro ⟨objectKey, certificate, stateRoot, membershipRoot, held⟩
    exact ⟨_, (sortedBy_perm _ _).mem_iff.mpr ((Dict.get?_eq_some_iff _).mp held), rfl⟩

variable [Crypto] {s t : Economy}

/-- `from_store`: the row as it was written, if the ledger is in order. -/
def SettlementLedger.fromStore (store : EconomyStore) : Except EconomyError SettlementLedger :=
  match store.rows.get? ("settlement_state", "ledger") with
  | none => .error (.settlement "settlement ledger state is missing")
  | some (.settlementState ledger stateRoot) =>
    if ledger.audit = false ∨ ledger.stateRoot ≠ stateRoot then
      .error (.settlement "settlement ledger state root mismatch")
    else
      .ok ledger
  | some _ => .error (.keyError "asset")

/-- A new process over the store: the ledger is read back, the manager is made
as before, and the coordinator replays the admissions. -/
def restart (manager : MembershipConfig) (store : EconomyStore) : Except EconomyError Economy :=
  match SettlementLedger.fromStore store with
  | .error e => .error e
  | .ok ledger =>
    match restoreFromStore { ledger, manager := .fresh manager, rounds := {}, store, onboardingBound := true } with
    | .ok _ t => .ok t
    | .error e _ => .error e

namespace AdmissionCoordinator

theorem restoreAdmission_ok {request : AdmissionRequest} {bond : StakeBond}
    (ran : restoreAdmission request bond s = .ok ⟨⟩ t) :
    s.manager.records.get? request.validatorId = none ∧
      t = s.setManager ((s.manager.addBond request.validatorId bond).register request) := by
  obtain ⟨-, ran⟩ := raiseIf_bind_eq_ok ran
  obtain ⟨-, ran⟩ := raiseIf_bind_eq_ok ran
  obtain ⟨new, ran⟩ := raiseIf_bind_eq_ok ran
  obtain ⟨-, ran⟩ := raiseIf_bind_eq_ok ran
  cases ran
  exact ⟨by simpa using (not_or.mp new).1, rfl⟩

/-- The records of a replay are those of the rows, and the snapshot is of them. -/
theorem restoreAll_ok {rows : List (AdmissionRequest × StakeBond)} (ran : restoreAll rows s = .ok ⟨⟩ t)
    (current : s.manager.snapshot = s.manager.buildSnapshot) :
    (∀ v record, t.manager.records.get? v = some record ↔ s.manager.records.get? v = some record ∨
        ∃ row ∈ rows, row.1.validatorId = v ∧ record = admittedRecord row.1) ∧
      t.manager.epoch = s.manager.epoch ∧ t.manager.seed = s.manager.seed ∧
      t.manager.snapshot = t.manager.buildSnapshot := by
  induction rows generalizing s with
  | nil =>
    cases ran
    exact ⟨by simp, rfl, rfl, current⟩
  | cons row rows ih =>
    obtain ⟨⟨⟩, u, first, later⟩ := bind_eq_ok.mp ran
    obtain ⟨new, rfl⟩ := restoreAdmission_ok first
    obtain ⟨records, epoch, seed, current'⟩ := ih later rfl
    refine ⟨fun v record => ?_, epoch, seed, current'⟩
    have registered :
        (s.setManager ((s.manager.addBond row.1.validatorId row.2).register row.1)).manager.records.get? v = some record ↔
          s.manager.records.get? v = some record ∨ (row.1.validatorId = v ∧ record = admittedRecord row.1) := by
      change (s.manager.records.set row.1.validatorId (admittedRecord row.1)).get? v = some record ↔ _
      rw [Dict.get?_set]
      split
      · rename_i same
        subst same
        simp [new, eq_comm]
      · rename_i other
        simp [other]
    rw [records, registered, or_assoc]
    simp

end AdmissionCoordinator

/-- The records of `t` are those of the admissions in its log, and nothing but
admissions was done to it since the manager was made. -/
structure Mirrored (config : MembershipConfig) (t : Economy) : Prop where
  epoch : t.manager.epoch = 0
  seed : t.manager.seed = config.genesisSeed
  current : t.manager.snapshot = t.manager.buildSnapshot
  records : ∀ v record, t.manager.records.get? v = some record ↔
    ∃ request bond, t.store.Logged request bond ∧ request.validatorId = v ∧ record = admittedRecord request
  keys : ∀ objectKey request bond certificate stateRoot membershipRoot, t.store.rows.get? ("onboarding", objectKey) =
    some (.onboarding request bond certificate stateRoot membershipRoot) →
    ∃ m approverIds, objectKey = (admissionCertificate m request approverIds).certificateId
  recorded : (∀ request bond, ¬ t.store.Logged request bond) ∨
    ∃ objectKey request bond certificate stateRoot, t.store.rows.get? ("onboarding", objectKey) =
      some (.onboarding request bond certificate stateRoot t.manager.snapshot.root)

/-- A restart that goes through yields the snapshot that the process had. -/
theorem Mirrored.restart {config : MembershipConfig} {store : EconomyStore} {u : Economy} (mirrored : Mirrored config t)
    (rows : ∀ objectKey, store.rows.get? ("onboarding", objectKey) = t.store.rows.get? ("onboarding", objectKey))
    (ran : Mosaic.restart config store = .ok u) : u.manager.snapshot = t.manager.snapshot := by
  have logged : ∀ request bond, store.Logged request bond ↔ t.store.Logged request bond := by
    intro request bond
    simp only [EconomyStore.Logged, rows]
  unfold Mosaic.restart at ran
  split at ran
  · cases ran
  rename_i ledger read
  split at ran
  · rename_i count u' restored
    cases ran
    unfold restoreFromStore at restored
    rw [get_bind_apply] at restored
    obtain ⟨-, restored⟩ := raiseIf_bind_eq_ok restored
    obtain ⟨⟨⟩, v, replayed, restored⟩ := bind_eq_ok.mp restored
    rw [get_bind_apply] at restored
    obtain ⟨-, restored⟩ := raiseIf_bind_eq_ok restored
    cases restored
    obtain ⟨records, epoch, seed, current⟩ := restoreAll_ok replayed rfl
    rw [current, mirrored.current]
    refine buildSnapshot_congr (fun v => ?_) (epoch.trans mirrored.epoch.symm) (seed.trans mirrored.seed.symm) ?_
    · ext record
      rw [records, mirrored.records]
      have none : (MembershipManager.fresh config).records.get? v = none := rfl
      simp only [none, reduceCtorEq, false_or, Prod.exists, mem_onboardingRows, logged]
    · intro v record held
      rcases (records v record).mp held with old | ⟨row, -, named, rfl⟩
      · cases old
      · exact named
  · cases ran

namespace Mirrored

variable {config : MembershipConfig}

theorem of_same (mirrored : Mirrored config s) (manager : t.manager = s.manager) (store : t.store = s.store) :
    Mirrored config t := by
  refine ⟨?_, ?_, ?_, ?_, ?_, ?_⟩
  · rw [manager]
    exact mirrored.epoch
  · rw [manager]
    exact mirrored.seed
  · rw [manager]
    exact mirrored.current
  · rw [manager, store]
    exact mirrored.records
  · rw [store]
    exact mirrored.keys
  · rw [manager, store]
    exact mirrored.recorded

theorem fresh {ledger : LedgerConfig} {store : EconomyStore} {beaconBound : Bool}
    (new : ∀ objectKey, store.rows.get? ("onboarding", objectKey) = none) :
    Mirrored config (Economy.fresh ledger config store beaconBound) := by
  refine ⟨rfl, rfl, rfl, fun v record => ?_, ?_, Or.inl ?_⟩
  · refine iff_of_false (fun held => nomatch held) ?_
    rintro ⟨request, bond, ⟨objectKey, certificate, stateRoot, membershipRoot, held⟩, -⟩
    cases (new objectKey).symm.trans held
  · intro objectKey request bond certificate stateRoot membershipRoot held
    cases (new objectKey).symm.trans held
  · rintro request bond ⟨objectKey, certificate, stateRoot, membershipRoot, held⟩
    cases (new objectKey).symm.trans held

/-- Two requests with one certificate are of one validator. -/
theorem validatorId_eq_of_certificateId (free : CollisionFree) {m m' : MembershipManager}
    {request request' : AdmissionRequest} {approverIds approverIds' : List String}
    (same : (admissionCertificate m request approverIds).certificateId =
      (admissionCertificate m' request' approverIds').certificateId) : request.validatorId = request'.validatorId := by
  have digests : requestDigest request = requestDigest request' := by
    have named := lookup_eq_of_digest free same "request"
    simpa [List.lookup_cons, Json.sortKeys] using named
  have named := lookup_eq_of_digest free digests "validator_id"
  simpa [List.lookup_cons, AdmissionRequest.statementFields, Json.sortKeys] using named

end Mirrored

omit [Crypto] in
/-- An operation that would be stopped by a late check leaves the manager. -/
theorem Finishes.stays {α : Type} [Crypto] {x : PyEconomy α} {admitted late : Prop} {call : Option SettlementCall}
    {done : MembershipManager} (finishes : Finishes x s admitted call late done) (sound : s.ledger.Sound)
    (stopped : admitted → (∀ c, call = some c → c.Accepts s.ledger) → late) :
    (final x s).manager = s.manager ∧ (final x s).store = s.store := by
  cases finishes with
  | refused _ run =>
    rw [final_of_error run]
    exact ⟨rfl, rfl⟩
  | unpaid _ _ _ run =>
    rw [final_of_error run]
    exact ⟨rfl, rfl⟩
  | late _ _ _ run =>
    rw [final_of_error run]
    exact ⟨rfl, rfl⟩
  | returned holds paid timely run =>
    refine absurd (stopped holds fun c made => ?_) timely
    rw [made] at paid
    obtain ⟨events, ran⟩ := paid
    exact (returns_iff sound c).mp ⟨events, _, ran⟩

namespace EconomyCall

/-- The call that the operation makes of the ledger when it comes to that. -/
def settlementCall (s : Economy) : EconomyCall → Option SettlementCall
  | admitValidator _ _ bond => s.manager.admissionCall bond
  | exit validatorId _ =>
    s.manager.bondCall validatorId fun bondId => .requestUnbond bondId s.manager.epoch s.manager.withdrawalDelay
  | withdraw validatorId currentEpoch =>
    s.manager.bondCall validatorId fun bondId => .withdraw bondId (currentEpoch.getD s.manager.epoch)
  | slash evidence penalty => do
    let record ← s.manager.records.get? evidence.offenderId
    s.manager.bondCall evidence.offenderId fun bondId =>
      .slash bondId (penalty.getD record.stake) evidence.epoch evidence.evidenceId none
  | onboard _ bond _ => s.manager.admissionCall (some bond)
  | _ => none

/-- Nothing is in the way any more when the ledger is paid: a withdrawal is not
of an active or locked validator, slash evidence is not of an epoch to come, and
an onboarding has a store that takes its rows. -/
def Settled (s : Economy) (call : EconomyCall) : Prop :=
  match call with
  | withdraw validatorId currentEpoch => ∀ record c, s.manager.records.get? validatorId = some record →
    call.settlementCall s = some c → c.Accepts s.ledger → ¬ Staying record (currentEpoch.getD s.manager.epoch)
  | slash evidence _ => ∀ c, s.manager.Punishable evidence → call.settlementCall s = some c → c.Accepts s.ledger →
    evidence.epoch ≤ s.manager.epoch
  | onboard request bond _ => Onboardable s request bond → s.manager.Admissible request (some bond) →
    (∀ c, call.settlementCall s = some c → c.Accepts s.ledger) → s.Durable
  | _ => True

/-- What the call does to the membership is in the log: an admission that is
made is recorded, and no exit and no slash goes through. Other calls of the
manager do not come. -/
def Replayable (s : Economy) (call : EconomyCall) : Prop :=
  match call with
  | onboard .. => call.Settled s
  | exit validatorId epoch => s.manager.records.get? validatorId ≠ none → s.manager.Exitable validatorId epoch →
    ¬ ∀ c, call.settlementCall s = some c → c.Accepts s.ledger
  | slash evidence penalty => ∀ record, s.manager.records.get? evidence.offenderId = some record →
    s.manager.Punishable evidence → (∀ c, call.settlementCall s = some c → c.Accepts s.ledger) →
    s.manager.Untimely evidence (penalty.getD record.stake)
  | withdraw .. | ledger _ | bindStore => True
  | _ => False

/-- An onboarding that returns adds its row to the log and its record to the
records. -/
theorem onboard_mirrored (free : CollisionFree) {config : MembershipConfig} {request : AdmissionRequest}
    {bond : StakeBond} {approverIds : List String} (mirrored : Mirrored config s) {certificate : AdmissionCertificate}
    (ran : AdmissionCoordinator.admitValidator request bond approverIds s = .ok certificate t) : Mirrored config t := by
  obtain ⟨u, admitted, recorded⟩ := AdmissionCoordinator.admit_ok ran
  obtain ⟨able, manager, store, named⟩ := MembershipManager.admit_ok admitted
  obtain ⟨manager', -, -, written⟩ := AdmissionCoordinator.record_ok recorded
  have rows := congrArg EconomyStore.rows written
  rw [store] at rows
  rw [manager] at manager'
  -- a row under this certificate would be of a validator that is known already
  have unlogged : s.store.rows.get? ("onboarding", certificate.certificateId) = none ∨
      ∃ row, s.store.rows.get? ("onboarding", certificate.certificateId) = some row ∧
        ∀ request bond certificate stateRoot membershipRoot,
          row ≠ .onboarding request bond certificate stateRoot membershipRoot := by
    cases held : s.store.rows.get? ("onboarding", certificate.certificateId) with
    | none => exact Or.inl rfl
    | some row =>
      refine Or.inr ⟨row, rfl, ?_⟩
      rintro request' bond' certificate' stateRoot membershipRoot rfl
      obtain ⟨m, approverIds', same⟩ := mirrored.keys _ _ _ _ _ _ held
      rw [named] at same
      have same := Mirrored.validatorId_eq_of_certificateId free same
      have there := (mirrored.records request.validatorId _).mpr
        ⟨request', bond', ⟨_, _, _, _, held⟩, same.symm, rfl⟩
      cases able.new.symm.trans there
  have written : ∀ objectKey row, t.store.rows.get? ("onboarding", objectKey) = some row ↔
      (objectKey = certificate.certificateId ∧
        row = .onboarding request bond certificate u.ledger.stateRoot u.manager.snapshot.root) ∨
      (objectKey ≠ certificate.certificateId ∧ s.store.rows.get? ("onboarding", objectKey) = some row) := by
    intro objectKey row
    rw [rows, Dict.get?_set]
    split
    · rename_i same
      cases same
      simp [eq_comm]
    · rename_i other
      have other' : objectKey ≠ certificate.certificateId := fun same => other (by rw [same])
      rw [Dict.get?_set_of_ne _ _ (by simp)]
      simp [other']
  have logged : ∀ request' bond', t.store.Logged request' bond' ↔
      s.store.Logged request' bond' ∨ (request' = request ∧ bond' = bond) := by
    intro request' bond'
    constructor
    · rintro ⟨objectKey, certificate', stateRoot, membershipRoot, held⟩
      rcases (written _ _).mp held with ⟨-, same⟩ | ⟨-, old⟩
      · cases same
        exact Or.inr ⟨rfl, rfl⟩
      · exact Or.inl ⟨objectKey, certificate', stateRoot, membershipRoot, old⟩
    · rintro (⟨objectKey, certificate', stateRoot, membershipRoot, old⟩ | ⟨rfl, rfl⟩)
      · refine ⟨objectKey, certificate', stateRoot, membershipRoot, (written _ _).mpr (Or.inr ⟨?_, old⟩)⟩
        rintro rfl
        rcases unlogged with none | ⟨row, held, other⟩
        · cases none.symm.trans old
        · cases held.symm.trans old
          exact other _ _ _ _ _ rfl
      · exact ⟨certificate.certificateId, _, _, _, (written _ _).mpr (Or.inl ⟨rfl, rfl⟩)⟩
  refine ⟨?_, ?_, ?_, fun v record => ?_, ?_, Or.inr ?_⟩
  · rw [manager']
    exact mirrored.epoch
  · rw [manager']
    exact mirrored.seed
  · rw [manager']
    rfl
  · rw [manager']
    change (s.manager.records.set request.validatorId (admittedRecord request)).get? v = some record ↔ _
    rw [Dict.get?_set]
    split
    · rename_i same
      subst same
      constructor
      · rintro ⟨⟩
        exact ⟨request, bond, (logged _ _).mpr (Or.inr ⟨rfl, rfl⟩), rfl, rfl⟩
      · rintro ⟨request', bond', there, same, rfl⟩
        rcases (logged _ _).mp there with old | ⟨rfl, rfl⟩
        · have held := (mirrored.records request.validatorId _).mpr ⟨request', bond', old, same, rfl⟩
          cases able.new.symm.trans held
        · rfl
    · rename_i other
      rw [mirrored.records]
      constructor
      · rintro ⟨request', bond', old, same, rfl⟩
        exact ⟨request', bond', (logged _ _).mpr (Or.inl old), same, rfl⟩
      · rintro ⟨request', bond', there, same, rfl⟩
        rcases (logged _ _).mp there with old | ⟨rfl, rfl⟩
        · exact ⟨request', bond', old, same, rfl⟩
        · exact absurd same other
  · intro objectKey request' bond' certificate' stateRoot membershipRoot held
    rcases (written _ _).mp held with ⟨rfl, same⟩ | ⟨-, old⟩
    · cases same
      exact ⟨s.manager, approverIds, by rw [named]⟩
    · exact mirrored.keys _ _ _ _ _ _ old
  · refine ⟨certificate.certificateId, request, bond, certificate, u.ledger.stateRoot, ?_⟩
    refine (written _ _).mpr (Or.inl ⟨rfl, ?_⟩)
    rw [manager', manager]

/-- A call whose effect is in the log keeps log and records in step. -/
theorem exec_mirrored (free : CollisionFree) {config : MembershipConfig} {call : EconomyCall} (sound : s.ledger.Sound)
    (replayable : call.Replayable s) (mirrored : Mirrored config s) : Mirrored config (call.exec s) := by
  have discards : ∀ {α : Type} {x : PyEconomy α}, (final x s).manager = s.manager ∧ (final x s).store = s.store →
      Mirrored config (final (discard x) s) := by
    intro α x same
    rw [final_discard]
    exact mirrored.of_same same.1 same.2
  cases call with
  | ledger call =>
    refine discards ?_
    rw [onLedger, final_onPart]
    exact ⟨rfl, rfl⟩
  | bindStore => exact mirrored.of_same rfl rfl
  | exit validatorId epoch =>
    refine discards ?_
    cases held : s.manager.records.get? validatorId with
    | none =>
      obtain ⟨e, raised⟩ := exit_unknown held epoch
      rw [final_of_error raised]
      exact ⟨rfl, rfl⟩
    | some record =>
      refine (exit_finishes held epoch).stays sound fun able accepts => ?_
      exact replayable (by simp [held]) able accepts
  | withdraw validatorId currentEpoch =>
    refine discards ?_
    cases held : s.manager.records.get? validatorId with
    | none =>
      obtain ⟨e, raised⟩ := withdraw_unknown held currentEpoch
      rw [final_of_error raised]
      exact ⟨rfl, rfl⟩
    | some record =>
      refine (withdraw_finishes held currentEpoch).stays sound fun _ _ => Or.inl ?_
      obtain ⟨request, bond, -, -, rfl⟩ := (mirrored.records _ _).mp held
      rfl
  | slash evidence penalty =>
    refine discards ?_
    cases held : s.manager.records.get? evidence.offenderId with
    | none =>
      obtain ⟨e, raised⟩ := slash_unknown held penalty
      rw [final_of_error raised]
      exact ⟨rfl, rfl⟩
    | some record =>
      refine (slash_finishes held penalty).stays sound fun able accepts => ?_
      refine replayable record held able fun c made => accepts c ?_
      simpa [settlementCall, held] using made
  | onboard request bond approverIds =>
    change Mirrored config (final (discard (AdmissionCoordinator.admitValidator request bond approverIds)) s)
    rw [final_discard]
    cases AdmissionCoordinator.admit_onboards s request bond approverIds with
    | refused _ run =>
      rw [final_of_error run]
      exact mirrored
    | rejected _ rejected run =>
      rw [final_of_error run]
      have finishes := admit_finishes s request approverIds (some bond)
      cases finishes with
      | refused _ ran =>
        cases ran.symm.trans rejected
        exact mirrored
      | unpaid _ _ _ ran =>
        cases ran.symm.trans rejected
        exact mirrored.of_same rfl rfl
      | late _ _ late _ => exact late.elim
      | returned _ _ _ ran => cases ran.symm.trans rejected
    | unrecorded able admitted volatile _ _ _ =>
      cases admit_finishes s request approverIds (some bond) with
      | refused _ ran | unpaid _ _ _ ran | late _ _ _ ran => cases ran.symm.trans admitted
      | returned holds paid _ ran =>
        cases ran.symm.trans admitted
        have durable := replayable able holds fun c made => by
          have call : s.manager.admissionCall (some bond) = some c := made
          rw [call] at paid
          obtain ⟨events, ok⟩ := paid
          exact (returns_iff sound c).mp ⟨events, _, ok⟩
        exact absurd ⟨durable.bound, durable.ledger, durable.admission⟩ volatile
    | returned _ _ _ _ _ run =>
      rw [final_of_ok run]
      exact onboard_mirrored free mirrored run
  | _ => exact replayable.elim

end EconomyCall

/-- The calls of a membership that stays in its first epoch. -/
def EconomyCall.OfOneEpoch : EconomyCall → Prop
  | onboard .. | exit .. | withdraw .. | slash .. | ledger _ | bindStore => True
  | _ => False

theorem EconomyCall.Replayable.ofOneEpoch {call : EconomyCall} (replayable : call.Replayable s) : call.OfOneEpoch := by
  cases call <;> trivial

theorem persist_onboarding (t : Economy) (objectKey : String) :
    (final persist t).store.rows.get? ("onboarding", objectKey) = t.store.rows.get? ("onboarding", objectKey) := by
  have start : final persist t = final (onStore (EconomyStore.put "settlement_state" "ledger"
    (.settlementState t.ledger t.ledger.stateRoot))) t := rfl
  rw [start, onStore, final_onPart, setStore_store]
  cases refusal : t.store.refusal "settlement_state" with
  | none =>
    rw [final_of_ok (put_takes refusal)]
    exact Dict.get?_set_of_ne _ _ (by simp)
  | some message => rw [final_of_error (put_refuses refusal)]

/-- In a run of calls whose effects are in the log, a restart either raises or
yields the snapshot that there was. Its root is on record with some admission,
if there was one. -/
theorem restart_faithful (free : CollisionFree) {ledger : LedgerConfig} {config : MembershipConfig}
    {store : EconomyStore} {beaconBound : Bool} (new : ∀ objectKey, store.rows.get? ("onboarding", objectKey) = none)
    (run : GuardedRun EconomyCall.exec (fun s call => call.Replayable s) (.fresh ledger config store beaconBound) t) :
    ∀ u, restart config (final persist t).store = .ok u → u.manager.snapshot = t.manager.snapshot ∧
      ((∀ request bond, ¬ t.store.Logged request bond) ∨
        ∃ objectKey request bond certificate stateRoot, t.store.rows.get? ("onboarding", objectKey) =
          some (.onboarding request bond certificate stateRoot u.manager.snapshot.root)) := by
  have start : EconomyCall.Reached (Economy.fresh ledger config store beaconBound) ∧
      Mirrored config (Economy.fresh ledger config store beaconBound) := ⟨⟨_, _, _, _, .refl⟩, .fresh new⟩
  have mirrored : Mirrored config t := by
    refine (run.invariant (P := fun s => EconomyCall.Reached s ∧ Mirrored config s) start ?_).2
    intro s call replayable both
    obtain ⟨reached, mirrored⟩ := both
    refine ⟨?_, call.exec_mirrored free reached.sound replayable mirrored⟩
    obtain ⟨ledger, manager, store, beaconBound, before⟩ := reached
    exact ⟨ledger, manager, store, beaconBound, before.tail trivial⟩
  intro u ran
  have same := mirrored.restart (persist_onboarding t) ran
  refine ⟨same, ?_⟩
  rw [same]
  exact mirrored.recorded

section Solo
variable {pair : KeyPair}

/-- The owner of the key was funded and the coordinator has its store. -/
def readyEconomy (pair : KeyPair) : Economy := (fundedEconomy pair).bindOnboarding

theorem readyEconomy_onboards (free : CollisionFree) (verifies : SignaturesVerify) (named : pair.identity ≠ "") :
    ∃ certificate t, AdmissionCoordinator.admitValidator (soloRequest pair) (soloBond pair) [] (readyEconomy pair) =
        .ok certificate t ∧ t.manager = (stakedEconomy pair).manager ∧ t.ledger = stakedLedger pair := by
  have sound : (readyEconomy pair).ledger.Sound := (fundedEconomy_reached named).sound
  have able : (readyEconomy pair).manager.Admissible (soloRequest pair) (some (soloBond pair)) :=
    soloRequest_admissible verifies
  have bondable := @soloBond_bondable _ pair verifies
  have paid : (SettlementCall.bond (soloBond pair) 0).run (fundedLedger plainLedger pair.identity 10) =
      .ok [_] (stakedLedger pair) :=
    single_ok ((SettlementLedger.bond_concludes _ (soloBond pair) 0).ok bondable (event_new free (by decide)))
  have onboardable : Onboardable (readyEconomy pair) (soloRequest pair) (soloBond pair) :=
    ⟨able.verified, bondable.verified, rfl, rfl, rfl, bondable.enough⟩
  have accepts : ∀ c, (readyEconomy pair).manager.admissionCall (some (soloBond pair)) = some c →
      c.Accepts (readyEconomy pair).ledger := by
    intro c made
    cases made
    exact (returns_iff sound _).mp ⟨_, _, paid⟩
  have finishes := admit_finishes (readyEconomy pair) (soloRequest pair) [] (some (soloBond pair))
  obtain ⟨certificate, l, settled, admitted⟩ := finishes.ok sound able accepts id
  obtain ⟨events, ran⟩ := settled
  cases paid.symm.trans ran
  cases AdmissionCoordinator.admit_onboards (readyEconomy pair) (soloRequest pair) (soloBond pair) [] with
  | refused refused _ => exact absurd onboardable refused
  | rejected _ rejected _ => cases rejected.symm.trans admitted
  | unrecorded _ admitted' volatile _ _ _ =>
    cases admitted'.symm.trans admitted
    exact absurd ⟨rfl, rfl, rfl⟩ volatile
  | returned _ admitted' _ ledger manager run =>
    cases admitted'.symm.trans admitted
    exact ⟨_, _, run, manager, ledger⟩

/-- A restart over a log of one admission returns. -/
theorem restart_one {config : MembershipConfig} {store : EconomyStore} {ledger : SettlementLedger}
    {request : AdmissionRequest} {bond : StakeBond}
    (kept : store.rows.get? ("settlement_state", "ledger") = some (.settlementState ledger ledger.stateRoot))
    (sound : ledger.Sound) (rows : onboardingRows store = [(request, bond)])
    (verified : request.verify = true ∧ bond.verify = true) (stake : config.minimumStake ≤ request.stake)
    (named : request.bondId = some bond.bondId)
    (same : bond.ownerPublicKey = request.publicKey ∧ bond.amount = request.stake) :
    ∃ u, restart config store = .ok u := by
  have read : SettlementLedger.fromStore store = .ok ledger := by
    unfold SettlementLedger.fromStore
    rw [kept]
    dsimp only
    rw [if_neg (by simp [sound.audit])]
  let start : Economy := { ledger, manager := .fresh config, rounds := {}, store, onboardingBound := true }
  have restored : restoreAdmission request bond start =
      .ok ⟨⟩ (start.setManager ((start.manager.addBond request.validatorId bond).register request)) := by
    unfold restoreAdmission
    rw [get_bind_apply, raiseIf_bind_neg (by simp [verified]),
      raiseIf_bind_neg (by simp [start, MembershipManager.fresh, named, stake]),
      raiseIf_bind_neg (by simp [start, MembershipManager.fresh, Dict.contains]), raiseIf_bind_neg (by simp [same])]
    rfl
  have replayed : restoreFromStore start =
      .ok 1 (start.setManager ((start.manager.addBond request.validatorId bond).register request)) := by
    have all : restoreAll [(request, bond)] start =
      .ok ⟨⟩ (start.setManager ((start.manager.addBond request.validatorId bond).register request)) := bind_of_ok restored
    unfold restoreFromStore
    rw [get_bind_apply, raiseIf_bind_neg (by simp [start])]
    simp only [start] at all ⊢
    rw [rows, bind_of_ok all, get_bind_apply, raiseIf_bind_neg (by simp [onboardingRoot])]
    rfl
  refine ⟨start.setManager ((start.manager.addBond request.validatorId bond).register request), ?_⟩
  unfold restart
  simp only [read, start] at replayed ⊢
  rw [replayed]

theorem readyEconomy_run (pair : KeyPair) (named : pair.identity ≠ "") {allowed : Economy → EconomyCall → Prop}
    (ledger : ∀ s call, allowed s (.ledger call)) (bind : ∀ s, allowed s .bindStore) :
    GuardedRun EconomyCall.exec allowed (Economy.fresh plainLedger stakedConfig {} false) (readyEconomy pair) := by
  have funded : (EconomyCall.ledger (.fund pair.identity 10 0 (some "source"))).run
      (Economy.fresh plainLedger stakedConfig {} false) = .ok ⟨⟩ (fundedEconomy pair) :=
    bind_of_ok (onPart_of_ok (fundedLedger_run ⟨by decide, named⟩))
  have none : GuardedRun EconomyCall.exec allowed (Economy.fresh plainLedger stakedConfig {} false) _ := .refl
  have step := none.tail (ledger _ (.fund pair.identity 10 0 (some "source")))
  rw [EconomyCall.exec, final_of_ok funded] at step
  exact step.tail (bind _)

/-- An exit shows in the snapshot. -/
theorem Mirrored.exited_ne {config : MembershipConfig} (mirrored : Mirrored config s) {v : String}
    {record : ValidatorRecord} : (s.manager.exited v record).snapshot ≠ s.manager.snapshot := by
  intro same
  have listed : s.manager.exitedRecord record ∈ (s.manager.exited v record).snapshot.validators :=
    (sortedBy_perm _ _).mem_iff.mpr (Dict.mem_values_of_get? (Dict.get?_set_self _ _ _))
  rw [same, mirrored.current] at listed
  obtain ⟨w, there⟩ := Dict.mem_values.mp ((sortedBy_perm _ _).mem_iff.mp listed)
  obtain ⟨request, bond, -, -, active⟩ := (mirrored.records w _).mp there
  cases congrArg ValidatorRecord.active active

/-- The store after one onboarding. -/
structure LoggedOnce (store : EconomyStore) (request : AdmissionRequest) (bond : StakeBond) : Prop where
  takes : store.refusal "settlement_state" = none
  rows : ∃ ledger stateRoot objectKey certificate stateRoot' membershipRoot, store.rows =
    (Dict.empty.set ("settlement_state", "ledger") (.settlementState ledger stateRoot)).set ("onboarding", objectKey)
      (.onboarding request bond certificate stateRoot' membershipRoot)

theorem LoggedOnce.persisted {request : AdmissionRequest} {bond : StakeBond} (once : LoggedOnce t.store request bond) :
    (final persist t).store.rows.get? ("settlement_state", "ledger") =
        some (.settlementState t.ledger t.ledger.stateRoot) ∧
      onboardingRows (final persist t).store = [(request, bond)] := by
  have ran : persist t = .ok ⟨⟩ (t.setStore _) := onPart_of_ok (put_takes once.takes)
  rw [final_of_ok ran, setStore_store]
  refine ⟨Dict.get?_set_self _ _ _, ?_⟩
  obtain ⟨ledger, stateRoot, objectKey, certificate, stateRoot', membershipRoot, rows⟩ := once.rows
  rw [← List.perm_singleton]
  refine ((sortedBy_perm _ _).filterMap _).trans ?_
  dsimp only
  rw [rows]
  simp [Dict.set, Dict.setEntries, Dict.empty]

/-- The one validator was onboarded. -/
structure OnboardedOnce (pair : KeyPair) (s : Economy) : Prop where
  run : GuardedRun EconomyCall.exec (fun s call => call.Replayable s) (Economy.fresh plainLedger stakedConfig {} false) s
  mirrored : Mirrored stakedConfig s
  manager : s.manager = (stakedEconomy pair).manager
  ledger : s.ledger = stakedLedger pair
  logged : LoggedOnce s.store (soloRequest pair) (soloBond pair)

theorem onboardedOnce (free : CollisionFree) (verifies : SignaturesVerify) (named : pair.identity ≠ "") :
    ∃ s, OnboardedOnce pair s := by
  obtain ⟨certificate, s, onboarded, manager, ledger⟩ := @readyEconomy_onboards _ pair free verifies named
  refine ⟨s, ?_, ?_, manager, ledger, ?_⟩
  · have ran : (EconomyCall.onboard (soloRequest pair) (soloBond pair) []).exec (readyEconomy pair) = s :=
      (final_discard _ _).trans (final_of_ok onboarded)
    have ready : GuardedRun EconomyCall.exec (fun s call => call.Replayable s)
      (Economy.fresh plainLedger stakedConfig {} false) (readyEconomy pair) :=
      readyEconomy_run pair named (fun _ _ => trivial) fun _ => trivial
    have durable : (readyEconomy pair).Durable := ⟨rfl, rfl, rfl⟩
    have replayable : (EconomyCall.onboard (soloRequest pair) (soloBond pair) []).Replayable (readyEconomy pair) :=
      fun _ _ _ => durable
    have step := ready.tail replayable
    rwa [ran] at step
  · have new : Mirrored stakedConfig (Economy.fresh plainLedger stakedConfig {} false) := .fresh fun _ => rfl
    have ready : Mirrored stakedConfig (readyEconomy pair) := new.of_same rfl rfl
    exact EconomyCall.onboard_mirrored free ready onboarded
  · obtain ⟨u, admitted, recorded⟩ := AdmissionCoordinator.admit_ok onboarded
    obtain ⟨-, -, store, -⟩ := MembershipManager.admit_ok admitted
    obtain ⟨-, -, -, written⟩ := AdmissionCoordinator.record_ok recorded
    rw [store] at written
    rw [written]
    exact ⟨rfl, _, _, _, _, _, _, rfl⟩

/-- A restart of the economy, or of what a call made of it, replays the admission. -/
theorem OnboardedOnce.restarts (verifies : SignaturesVerify) (once : OnboardedOnce pair s) (store : t.store = s.store)
    (sound : t.ledger.Sound) :
    ∃ u, restart stakedConfig (final persist t).store = .ok u ∧ u.manager.snapshot = s.manager.snapshot := by
  have logged : LoggedOnce t.store (soloRequest pair) (soloBond pair) := store ▸ once.logged
  have returns : ∃ u, restart stakedConfig (final persist t).store = .ok u := by
    obtain ⟨kept, rows⟩ := logged.persisted
    refine restart_one kept sound rows ⟨?_, (soloBond_bondable verifies).verified⟩ ?_ rfl ⟨rfl, rfl⟩
    · exact AdmissionRequest.create_verify verifies pair "v" "d" 10 0 (some "b")
    · change (1 : Int) ≤ 10
      decide
  obtain ⟨u, restarted⟩ := returns
  refine ⟨u, restarted, once.mirrored.restart (fun objectKey => ?_) restarted⟩
  rw [persist_onboarding, store]

theorem OnboardedOnce.exits (free : CollisionFree) (once : OnboardedOnce pair s) :
    ∃ l, (EconomyCall.exit "v" none).exec s =
      (s.setLedger l).setManager (s.manager.exited "v" (admittedRecord (soloRequest pair))) := by
  have reached : EconomyCall.Reached s := ⟨_, _, _, _, once.run.mono fun _ _ _ => trivial⟩
  have held : s.manager.records.get? "v" = some (admittedRecord (soloRequest pair)) := by
    rw [once.manager]
    rfl
  have bonded : s.manager.validatorBonds.get? "v" = some "b" := by
    rw [once.manager]
    rfl
  have position : s.ledger.bonds.get? "b" = some (SettlementLedger.bondedPosition (soloBond pair)) := by
    rw [once.ledger]
    exact stakedLedger_position
  have natural : 0 ≤ s.manager.withdrawalDelay := by
    rw [once.manager]
    exact Int.natCast_nonneg 2
  have exitable : s.manager.Exitable "v" none := ⟨rfl, fun _ none => nomatch bonded.symm.trans none⟩
  have accepted : (SettlementCall.requestUnbond "b" s.manager.epoch s.manager.withdrawalDelay).Accepts s.ledger := by
    refine ⟨_, ⟨position, natural, rfl, rfl⟩, ?_⟩
    rw [once.ledger]
    exact stakedLedger_new free (by decide) (by decide)
  have accepts : ∀ c, s.manager.bondCall "v" (fun bondId =>
      .requestUnbond bondId s.manager.epoch s.manager.withdrawalDelay) = some c → c.Accepts s.ledger := by
    intro c made
    unfold bondCall at made
    split at made
    · rw [bonded] at made
      cases made
      exact accepted
    · cases made
  obtain ⟨certificate, l, -, exited⟩ := (exit_finishes held none).ok reached.sound exitable accepts id
  exact ⟨l, (final_discard _ _).trans (final_of_ok exited)⟩

theorem exit_forgotten (free : CollisionFree) (verifies : SignaturesVerify) (named : pair.identity ≠ "") :
    ∃ t u, GuardedRun EconomyCall.exec (fun _ call => call.OfOneEpoch)
        (Economy.fresh plainLedger stakedConfig {} false) t ∧
      restart stakedConfig (final persist t).store = .ok u ∧ u.manager.snapshot ≠ t.manager.snapshot := by
  obtain ⟨s, once⟩ := @onboardedOnce _ pair free verifies named
  obtain ⟨l, left⟩ := once.exits free
  have before : GuardedRun EconomyCall.exec (fun _ call => call.OfOneEpoch) _ s :=
    once.run.mono fun _ _ => EconomyCall.Replayable.ofOneEpoch
  have run := before.tail (i := .exit "v" none) (by trivial)
  have sound := EconomyCall.Reached.sound ⟨_, _, _, _, run.mono fun _ _ _ => trivial⟩
  rw [left] at run sound
  obtain ⟨u, restarted, same⟩ := OnboardedOnce.restarts (t := (s.setLedger l).setManager _) verifies once rfl sound
  refine ⟨_, u, run, restarted, fun equal => ?_⟩
  exact once.mirrored.exited_ne (equal.symm.trans same)

theorem OnboardedOnce.sound (once : OnboardedOnce pair s) : s.ledger.Sound :=
  EconomyCall.Reached.sound ⟨_, _, _, _, once.run.mono fun _ _ _ => trivial⟩

omit [Crypto] in
theorem restart_faithful_solo : let _ := Crypto.ideal
    ∃ t u, restart stakedConfig (final persist t).store = .ok u ∧ u.manager.snapshot = t.manager.snapshot := by
  obtain ⟨t, once⟩ := @onboardedOnce Crypto.ideal idealKey ideal_collisionFree ideal_signaturesVerify ideal_named
  have sound := @OnboardedOnce.sound Crypto.ideal t idealKey once
  obtain ⟨u, restarted, -⟩ := @OnboardedOnce.restarts Crypto.ideal t t idealKey ideal_signaturesVerify once rfl sound
  have run := @OnboardedOnce.run Crypto.ideal idealKey t once
  have faithful := @restart_faithful Crypto.ideal t ideal_collisionFree plainLedger stakedConfig {} false (fun _ => rfl) run
  exact ⟨t, u, restarted, (faithful u restarted).1⟩

omit [Crypto] in
theorem restart_forgets_exit : let _ := Crypto.ideal
    ∃ t u, GuardedRun EconomyCall.exec (fun _ call => call.OfOneEpoch)
        (Economy.fresh plainLedger stakedConfig {} false) t ∧
      restart stakedConfig (final persist t).store = .ok u ∧ u.manager.snapshot ≠ t.manager.snapshot :=
  @exit_forgotten Crypto.ideal idealKey ideal_collisionFree ideal_signaturesVerify ideal_named

end Solo

end Mosaic
