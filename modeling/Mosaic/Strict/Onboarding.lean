import Mosaic.Strict.MembershipOutcomes

namespace Mosaic.Strict
open CanonicalJson Effects Mosaic.Economy

variable [Crypto]

section Texts
variable [Texts]

namespace SettlementLedger
open Mosaic.SettlementLedger

variable {s l : SettlementLedger} {b : StakeBond} {currentEpoch : Int} {events : List SettlementEvent}

theorem bond_ran (paid : SettlementCall.run (.bond b currentEpoch) s = .ok events l) :
    s.bonds.get? b.bondId = none ∧ l = (s.bonded b).addEvent (s.bondEvent b currentEpoch) := by
  cases bond_concludes s b currentEpoch with
  | refused _ run | stopped _ _ run => cases (single_error run).symm.trans paid
  | returned able _ run =>
    cases (single_ok run).symm.trans paid
    exact ⟨able.1.new, rfl⟩

/-- The texts of a bond that can be encoded leave the root as it is to compute. -/
theorem rooted_bonded_iff (digests : DigestsEncode) (fine : b.statement.Encodable) (new : s.bonds.get? b.bondId = none) :
    Rooted ((s.bonded b).addEvent (s.bondEvent b currentEpoch)) ↔ Rooted s := by
  have fields := encodable_obj.mp fine
  have bondId := encodable_str.mp (fields ("bond_id", .str b.bondId) (by simp)).2
  have owner := encodable_str.mp (fields ("owner", .str b.owner) (by simp)).2
  have asset := encodable_str.mp (fields ("asset", .str b.asset) (by simp)).2
  constructor
  · intro rooted
    refine ⟨rooted.asset, fun account amount held => ?_, fun other found held => ?_, fun eventId event held => ?_,
      rooted.evidence⟩
    · by_cases same : b.owner = account
      · exact same ▸ owner
      · exact rooted.accounts account amount ((Dict.get?_set_of_ne _ _ same).trans held)
    · have apart : b.bondId ≠ other := by
        rintro rfl
        cases new.symm.trans held
      exact rooted.bonds other found ((Dict.get?_set_of_ne _ _ apart).trans held)
    · by_cases same : (s.bondEvent b currentEpoch).eventId = eventId
      · exact same ▸ digests _
      · exact rooted.events eventId event ((Dict.get?_set_of_ne _ _ same).trans held)
  · intro rooted
    exact ((rooted.credited owner (-b.amount)).setPosition bondId owner asset).addEvent (digests _)

end SettlementLedger

namespace AdmissionCoordinator
open Mosaic.AdmissionCoordinator

variable {s t : Economy} {request : AdmissionRequest} {bond : StakeBond}

theorem record_of_rooted (rooted : SettlementLedger.Rooted t.ledger) (certificate : AdmissionCertificate) :
    record request bond certificate t = Mosaic.AdmissionCoordinator.record request bond certificate t := by
  have persisted : persist t = Economy.persist t := by
    rw [persist, get_bind_apply, SettlementLedger.stateRoot_of_rooted rooted]
    rfl
  rw [record, Mosaic.AdmissionCoordinator.record, get_bind_apply, get_bind_apply, SettlementLedger.stateRoot_of_rooted rooted]
  by_cases unbound : t.onboardingBound = false
  · rw [raiseIf_bind_pos unbound, raiseIf_bind_pos unbound]
  · rw [raiseIf_bind_neg unbound, raiseIf_bind_neg unbound, bind_apply, bind_apply, persisted]
    rfl

/-- The rows are written after the ledger and the manager have changed. -/
theorem record_cases (t : Economy) (request : AdmissionRequest) (bond : StakeBond) (certificate : AdmissionCertificate) :
    (t.Durable ∧ SettlementLedger.Rooted t.ledger ∧ ∃ u, record request bond certificate t = .ok ⟨⟩ u ∧
        u.ledger = t.ledger ∧ u.onboardingBound = t.onboardingBound ∧ u.store.refusal = t.store.refusal) ∨
      (¬ (t.Durable ∧ SettlementLedger.Rooted t.ledger) ∧ ∃ e u, record request bond certificate t = .error e u ∧
        u.ledger = t.ledger) := by
  by_cases rooted : SettlementLedger.Rooted t.ledger
  · have same : record request bond certificate t = Mosaic.AdmissionCoordinator.record request bond certificate t :=
      record_of_rooted rooted certificate
    rcases Mosaic.AdmissionCoordinator.record_cases t request bond certificate with
      ⟨durable, u, run, ledger, manager⟩ | ⟨volatile, e, u, run, ledger, manager⟩
    · obtain ⟨-, -, bound, store⟩ := record_ok run
      exact Or.inl ⟨durable, rooted, u, same.trans run, ledger, bound, store ▸ rfl⟩
    · exact Or.inr ⟨fun both => volatile both.1, e, u, same.trans run, ledger⟩
  · by_cases unbound : t.onboardingBound = false
    · exact Or.inr ⟨fun both => rooted both.2, _, t, raiseIf_bind_pos unbound _ _ _, rfl⟩
    · have raised : persist t = .error surrogatesError t := by
        rw [persist, get_bind_apply, SettlementLedger.stateRoot_raises rooted]
        rfl
      exact Or.inr ⟨fun both => rooted both.2, _, t, (raiseIf_bind_neg unbound _ _ _).trans (bind_of_error raised), rfl⟩

/-- What makes an onboarding raise when the membership has admitted. -/
structure Recordable (s : Economy) (request : AdmissionRequest) (approverIds : List String) : Prop where
  certifiable : MembershipManager.Certifiable s.manager request approverIds
  durable : s.Durable
  rooted : SettlementLedger.Rooted s.ledger

theorem onboard_ends (digests : DigestsEncode) (shared : s.manager.settlement = true) (request : AdmissionRequest)
    (bond : StakeBond) (approverIds : List String) :
    Ends (admitValidator request bond approverIds) s
      (Onboardable s request bond ∧ MembershipManager.Admissible s.manager request (some bond))
      (s.manager.admissionCall (some bond)) (¬ Recordable s request approverIds) := by
  refine .read (.verdict AdmissionRequest.verify_of_encodable (fun refused => Or.inr (AdmissionRequest.verify_raises refused))
    (fun able => ⟨able.2.request, able.1.verified⟩) fun _ verified =>
    .verdict StakeBond.verify_of_encodable StakeBond.verify_refuses (fun able => ⟨able.2.bond bond rfl, able.1.verifiedBond⟩)
    fun fine verified' => .guard (fun bad able => bad able.1.named) fun named => .guard (fun bad able => ?_) fun same =>
    .guard (fun bad able => absurd able.1.enough (by omega)) fun enough => ?_)
  · exact bad.elim (fun key => key able.1.key) fun stake => stake able.1.stake
  obtain ⟨key, stake⟩ := not_or.mp same
  have able : Onboardable s request bond :=
    ⟨verified, verified', not_not.mp named, not_not.mp key, not_not.mp stake, by omega⟩
  cases MembershipManager.admit_ends digests shared request approverIds (some bond) with
  | refused refused run => exact .refused (fun both => refused both.2) (bind_of_error (rethrow_of_error run))
  | unpaid holds made ledger run => exact .unpaid ⟨able, holds⟩ made ledger (bind_of_error (rethrow_of_error run))
  | late holds made paid late run =>
    exact .late ⟨able, holds⟩ made paid (fun all => late all.certifiable) (bind_of_error (rethrow_of_error run))
  | @returned c events certificate t holds made paid timely bound store run =>
    have call : SettlementCall.run (.bond bond s.manager.epoch) s.ledger = .ok events t.ledger := by
      rw [MembershipManager.admissionCall, if_pos shared] at made
      cases made
      exact paid
    obtain ⟨new, ledger⟩ := SettlementLedger.bond_ran call
    have rooted : SettlementLedger.Rooted t.ledger ↔ SettlementLedger.Rooted s.ledger :=
      ledger ▸ SettlementLedger.rooted_bonded_iff digests fine new
    have durable : t.Durable ↔ s.Durable :=
      ⟨fun d => ⟨bound ▸ d.bound, store ▸ d.ledger, store ▸ d.admission⟩,
        fun d => ⟨bound ▸ d.bound, store ▸ d.ledger, store ▸ d.admission⟩⟩
    rcases record_cases t request bond certificate with ⟨kept, root, u, recorded, same, bound', store'⟩ |
      ⟨lost, e, u, raised, same⟩
    · refine .returned (a := certificate) ⟨able, holds⟩ made (same ▸ paid) ?_ (bound'.trans bound) (store'.trans store) ?_
      · exact not_not.mpr ⟨not_not.mp timely, durable.mp kept, rooted.mp root⟩
      · exact (bind_of_ok (rethrow_of_ok run)).trans (bind_of_ok recorded)
    · refine .late (e := e) ⟨able, holds⟩ made (same ▸ paid) (fun all => lost ⟨durable.mpr all.durable, rooted.mpr all.rooted⟩) ?_
      exact (bind_of_ok (rethrow_of_ok run)).trans (bind_of_error raised)

end AdmissionCoordinator

end Texts

namespace MembershipManager
open Mosaic.MembershipManager

theorem rebuild_all {α : Type} (f : MembershipManager → MembershipManager) (k : PUnit → PyEconomy α) :
    (updateManager f >>= fun _ => @rebuild _ Texts.all >>= k) = updateManager (fun m => (f m).rebuilt) >>= k := by
  funext s
  exact @rebuild_ok _ Texts.all s α f k (encodable_all _)

theorem lockBond_all (m : MembershipManager) (request : AdmissionRequest) (bond : StakeBond) :
    @lockBond _ Texts.all m request bond = Mosaic.MembershipManager.lockBond m request bond := by
  let _ := Texts.all
  have ledger : SettlementLedger.bond bond m.epoch = Mosaic.SettlementLedger.bond bond m.epoch := by
    rw [SettlementLedger.bond_all]
  rw [lockBond, StakeBond.verify_of_encodable (encodable_all _), ledger]
  rfl

theorem admitValidator_all (request : AdmissionRequest) (approverIds : List String) (bond : Option StakeBond) :
    @admitValidator _ Texts.all request approverIds bond = Mosaic.MembershipManager.admitValidator request approverIds bond := by
  let _ := Texts.all
  have certificate : ∀ m, admissionCertificate m request approverIds = .ok (m.admissionCertificate request approverIds) := by
    intro m
    exact admissionCertificate_ok (fun _ => rfl) (encodable_all _) fun _ _ => rfl
  have locked : ∀ m b, lockBond m request b = Mosaic.MembershipManager.lockBond m request b := fun m b =>
    lockBond_all m request b
  rw [admitValidator, AdmissionRequest.verify_of_encodable (encodable_all _)]
  refine bind_congr fun s => ?_
  refine (bind_congr (x := raiseIf (request.verify = false) (EconomyError.membership "invalid applicant signature")) fun _ =>
    bind_congr fun _ => bind_congr fun _ => bind_congr fun _ => bind_congr fun _ => bind_congr fun _ => ?_)
  have finish : (updateManager (enrolled · request) >>= fun _ => rebuild >>= fun _ =>
      (ofExcept (admissionCertificate s.manager request approverIds) : PyEconomy AdmissionCertificate)) =
        updateManager (·.register request) >>= fun _ => pure (s.manager.admissionCertificate request approverIds) := by
    rw [certificate]
    exact rebuild_all (enrolled · request) fun _ => pure (s.manager.admissionCertificate request approverIds)
  cases bond with
  | none => exact finish
  | some b =>
    dsimp only
    rw [locked, finish]

theorem exit_all (validatorId : String) (epoch : Option Int) :
    @exit _ Texts.all validatorId epoch = Mosaic.MembershipManager.exit validatorId epoch := by
  let _ := Texts.all
  refine bind_congr fun s => ?_
  dsimp only
  cases s.manager.records.get? validatorId with
  | none => rfl
  | some record =>
    have certificate : exitCertificate s.manager validatorId = .ok (s.manager.exitCertificate validatorId) := by
      rw [exitCertificate, Economy.digest_of_encodable (encodable_all _)]
      rfl
    dsimp only
    rw [SettlementLedger.requestUnbond_all, certificate]
    refine bind_congr fun _ => bind_congr fun _ => ?_
    exact rebuild_all (fun m => m.setRecord validatorId (m.exitedRecord record)) fun _ =>
      pure (s.manager.exitCertificate validatorId)

theorem withdraw_all (validatorId : String) (currentEpoch : Option Int) :
    @withdraw _ Texts.all validatorId currentEpoch = Mosaic.MembershipManager.withdraw validatorId currentEpoch := by
  let _ := Texts.all
  refine bind_congr fun s => ?_
  dsimp only
  cases s.manager.records.get? validatorId with
  | none => rfl
  | some record =>
    have receipt : withdrawalReceipt validatorId record = .ok (Mosaic.MembershipManager.withdrawalReceipt validatorId record) := by
      rw [withdrawalReceipt, Economy.digest_of_encodable (encodable_all _)]
      rfl
    dsimp only
    rw [SettlementLedger.withdraw_all, receipt]
    refine bind_congr fun _ => bind_congr fun _ => bind_congr fun _ => ?_
    exact rebuild_all (·.dropValidator validatorId) fun _ => pure (Mosaic.MembershipManager.withdrawalReceipt validatorId record)

theorem slash_all (evidence : SlashEvidence) (penalty : Option Int) :
    @slash _ Texts.all evidence penalty = Mosaic.MembershipManager.slash evidence penalty := by
  let _ := Texts.all
  rw [slash, SlashEvidence.verify_of_encodable (encodable_all _)]
  refine bind_congr fun s => ?_
  refine (bind_congr (x := raiseIf (evidence.verify = false) (EconomyError.membership "invalid slash evidence")) fun _ =>
    bind_congr fun _ => ?_)
  dsimp only
  cases s.manager.records.get? evidence.offenderId with
  | none => rfl
  | some record =>
    dsimp only
    rw [SettlementLedger.slash_all]
    refine bind_congr fun _ => bind_congr fun _ => bind_congr fun _ => ?_
    exact rebuild_all (fun m => (m.setRecord evidence.offenderId (slashedRecord record (penalty.getD record.stake))).addSlash
      evidence) fun _ => pure (slashedRecord record (penalty.getD record.stake))

end MembershipManager

namespace AdmissionCoordinator

theorem admitValidator_all (request : AdmissionRequest) (bond : StakeBond) (approverIds : List String) :
    @admitValidator _ Texts.all request bond approverIds = Mosaic.AdmissionCoordinator.admitValidator request bond approverIds := by
  let _ := Texts.all
  have recorded : ∀ certificate, record request bond certificate = Mosaic.AdmissionCoordinator.record request bond certificate := by
    intro certificate
    funext s
    exact record_of_rooted (SettlementLedger.rootStatement_encodable_iff.mp (encodable_all _)) certificate
  rw [admitValidator, AdmissionRequest.verify_of_encodable (encodable_all _), StakeBond.verify_of_encodable (encodable_all _),
    MembershipManager.admitValidator_all]
  simp only [recorded]
  rfl

end AdmissionCoordinator

/-- Where all texts can be encoded, an operation is the one without the error. -/
def JointCall.plain : JointCall → EconomyCall
  | admitValidator request approverIds bond => .admitValidator request approverIds bond
  | exit validatorId epoch => .exit validatorId epoch
  | withdraw validatorId currentEpoch => .withdraw validatorId currentEpoch
  | slash evidence penalty => .slash evidence penalty
  | onboard request bond approverIds => .onboard request bond approverIds

theorem JointCall.run_all (call : JointCall) : @JointCall.run _ Texts.all call = call.plain.run := by
  cases call with
  | admitValidator request approverIds bond => exact congrArg discard (MembershipManager.admitValidator_all request approverIds bond)
  | exit validatorId epoch => exact congrArg discard (MembershipManager.exit_all validatorId epoch)
  | withdraw validatorId currentEpoch => exact congrArg discard (MembershipManager.withdraw_all validatorId currentEpoch)
  | slash evidence penalty => exact congrArg discard (MembershipManager.slash_all evidence penalty)
  | onboard request bond approverIds => exact congrArg discard (AdmissionCoordinator.admitValidator_all request bond approverIds)

end Mosaic.Strict
