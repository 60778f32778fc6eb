import Mosaic.CommitReveal
import Mosaic.MembershipRestart
import Mosaic.Lib.Confluence

namespace Mosaic
open CanonicalJson Effects Economy MembershipManager

structure SettlementLedger.Alike (l l' : SettlementLedger) : Prop where
  config : l'.toLedgerConfig = l.toLedgerConfig
  balances : ∀ account, l'.balances.get? account = l.balances.get? account
  bonds : ∀ bondId, l'.bonds.get? bondId = l.bonds.get? bondId
  events : ∀ eventId, l'.events.get? eventId = l.events.get? eventId
  slashEvidenceIds : l'.slashEvidenceIds = l.slashEvidenceIds
  settledRewardEpochs : l'.settledRewardEpochs = l.settledRewardEpochs

/-- What admissions read and write of a manager. -/
structure MembershipManager.Alike (m m' : MembershipManager) : Prop where
  config : m'.toMembershipConfig = m.toMembershipConfig
  epoch : m'.epoch = m.epoch
  seed : m'.seed = m.seed
  deposits : m'.deposits = m.deposits
  validatorBonds : ∀ v, m'.validatorBonds.get? v = m.validatorBonds.get? v
  records : ∀ v, m'.records.get? v = m.records.get? v

structure Economy.Alike (s s' : Economy) : Prop where
  ledger : s.ledger.Alike s'.ledger
  manager : s.manager.Alike s'.manager
  durable : s.Durable ↔ s'.Durable

namespace SettlementLedger

variable {l l' l'' : SettlementLedger}

theorem Alike.rfl : l.Alike l := ⟨.refl _, fun _ => .refl _, fun _ => .refl _, fun _ => .refl _, .refl _, .refl _⟩

theorem Alike.trans (first : l.Alike l') (second : l'.Alike l'') : l.Alike l'' :=
  ⟨second.config.trans first.config, fun a => (second.balances a).trans (first.balances a),
    fun b => (second.bonds b).trans (first.bonds b), fun e => (second.events e).trans (first.events e),
    second.slashEvidenceIds.trans first.slashEvidenceIds, second.settledRewardEpochs.trans first.settledRewardEpochs⟩

theorem Alike.balanceOf (alike : l.Alike l') (account : String) : l'.balanceOf account = l.balanceOf account := by
  simp only [SettlementLedger.balanceOf, alike.balances]

theorem Alike.recorded (alike : l.Alike l') (event : SettlementEvent) : l'.Recorded event ↔ l.Recorded event := by
  simp only [Recorded, alike.events]

variable [Crypto]

/-- Ledgers that answer alike have one root. -/
theorem Alike.stateRoot (alike : l.Alike l') : l'.stateRoot = l.stateRoot := by
  have balances : sortFields (l'.balances.entries.map fun entry => (entry.1, Json.int entry.2)) =
      sortFields (l.balances.entries.map fun entry => (entry.1, Json.int entry.2)) := by
    refine sortFields_eq_of_perm ((Dict.entries_perm alike.balances).map _) ?_
    simpa only [List.map_map, Function.comp_def] using l'.balances.nodup
  have bonds : sortFields (l'.bonds.entries.map fun entry => (entry.1, bondFields entry.2)) =
      sortFields (l.bonds.entries.map fun entry => (entry.1, bondFields entry.2)) := by
    refine sortFields_eq_of_perm ((Dict.entries_perm alike.bonds).map _) ?_
    simpa only [List.map_map, Function.comp_def] using l'.bonds.nodup
  have events : sorted l'.events.keys = sorted l.events.keys :=
    sorted_eq_of_perm ((Dict.entries_perm alike.events).map Prod.fst)
  unfold SettlementLedger.stateRoot digest canonicalBytes
  simp only [Json.sortKeys, sortFields, balances, bonds, events, alike.slashEvidenceIds, alike.settledRewardEpochs,
    alike.config]

end SettlementLedger

namespace MembershipManager

variable {m m' m'' : MembershipManager}

theorem Alike.rfl : m.Alike m := ⟨.refl _, .refl _, .refl _, .refl _, fun _ => .refl _, fun _ => .refl _⟩

theorem Alike.trans (first : m.Alike m') (second : m'.Alike m'') : m.Alike m'' :=
  ⟨second.config.trans first.config, second.epoch.trans first.epoch, second.seed.trans first.seed,
    second.deposits.trans first.deposits, fun v => (second.validatorBonds v).trans (first.validatorBonds v),
    fun v => (second.records v).trans (first.records v)⟩

end MembershipManager

instance : Std.Refl Economy.Alike := ⟨fun _ => ⟨.rfl, .rfl, Iff.rfl⟩⟩

instance : IsTrans Economy Economy.Alike where
  trans _ _ _ first second :=
    ⟨first.ledger.trans second.ledger, first.manager.trans second.manager, first.durable.trans second.durable⟩

variable [Crypto] {s s' t : Economy} {request : AdmissionRequest} {bond : StakeBond}

namespace Economy

/-- The ledger when the bond is locked. -/
def locked (s : Economy) (bond : StakeBond) : SettlementLedger :=
  if s.manager.settlement then (s.ledger.bonded bond).addEvent (s.ledger.bondEvent bond s.manager.epoch) else s.ledger

/-- Coordinator, manager and ledger have nothing against the admission. -/
structure Welcomes (s : Economy) (request : AdmissionRequest) (bond : StakeBond) : Prop where
  able : Onboardable s request bond
  admissible : s.manager.Admissible request (some bond)
  bondable : s.manager.settlement = true → s.ledger.Bondable bond s.manager.epoch ∧
    ¬ s.ledger.Recorded (s.ledger.bondEvent bond s.manager.epoch)

end Economy

/-- The coordinator admits the validator of the pair, with some approvers. -/
def Admits (pair : AdmissionRequest × StakeBond × List String) (s t : Economy) : Prop :=
  ∃ certificate, AdmissionCoordinator.admitValidator pair.1 pair.2.1 pair.2.2 s = .ok certificate t

/-- What an admission comes to. -/
structure Admitted (s : Economy) (request : AdmissionRequest) (bond : StakeBond) (t : Economy) : Prop where
  manager : t.manager = s.manager.admitted request (some bond)
  ledger : t.ledger = s.locked bond
  durable : t.Durable

theorem bond_paid {l : SettlementLedger} (paid : Paid (s.manager.admissionCall (some bond)) s.ledger l) :
    l = s.locked bond ∧ (s.manager.settlement = true → s.ledger.Bondable bond s.manager.epoch ∧
      ¬ s.ledger.Recorded (s.ledger.bondEvent bond s.manager.epoch)) := by
  unfold admissionCall at paid
  unfold Economy.locked
  split at paid
  · rename_i settlement
    rw [if_pos settlement]
    obtain ⟨events, ran⟩ := paid
    cases SettlementLedger.bond_concludes s.ledger bond s.manager.epoch with
    | refused _ run => cases (single_error run).symm.trans ran
    | stopped _ _ run => cases (single_error run).symm.trans ran
    | returned able new run =>
      cases (single_ok run).symm.trans ran
      exact ⟨rfl, fun _ => ⟨able, new⟩⟩
  · rename_i settlement
    rw [if_neg settlement]
    exact ⟨paid, fun shared => absurd shared settlement⟩

theorem Admits.admitted {approverIds : List String} (admits : Admits (request, bond, approverIds) s t) :
    s.Welcomes request bond ∧ s.Durable ∧ Admitted s request bond t := by
  obtain ⟨certificate, ran⟩ := admits
  obtain ⟨u, -, recorded⟩ := AdmissionCoordinator.admit_ok ran
  cases AdmissionCoordinator.admit_onboards s request bond approverIds with
  | refused _ run | rejected _ _ run | unrecorded _ _ _ _ _ run => cases run.symm.trans ran
  | @returned _ v _ able admitted durable ledger manager run =>
    cases run.symm.trans ran
    cases admit_finishes s request approverIds (some bond) with
    | refused _ run | unpaid _ _ _ run | late _ _ _ run => cases run.symm.trans admitted
    | returned admissible paid _ run =>
      cases run.symm.trans admitted
      obtain ⟨locked, bondable⟩ := bond_paid paid
      have before : s.Durable := ⟨durable.bound, durable.ledger, durable.admission⟩
      refine ⟨⟨able, admissible, bondable⟩, before, ⟨manager, ledger.trans locked, ?_⟩⟩
      obtain ⟨u', admitted', recorded'⟩ := AdmissionCoordinator.admit_ok ran
      cases admitted'.symm.trans admitted
      obtain ⟨-, -, bound, store⟩ := AdmissionCoordinator.record_ok recorded'
      refine ⟨bound.trans before.bound, ?_, ?_⟩
      · rw [store]
        exact before.ledger
      · rw [store]
        exact before.admission

theorem Economy.Welcomes.admits (welcomes : s.Welcomes request bond) (durable : s.Durable) (approverIds : List String) :
    ∃ t, Admits (request, bond, approverIds) s t := by
  have paid : ∃ l, Paid (s.manager.admissionCall (some bond)) s.ledger l := by
    unfold admissionCall
    split
    · rename_i settlement
      obtain ⟨able, new⟩ := welcomes.bondable settlement
      exact ⟨_, _, single_ok ((SettlementLedger.bond_concludes s.ledger bond s.manager.epoch).ok able new)⟩
    · exact ⟨_, rfl⟩
  obtain ⟨l, paid⟩ := paid
  obtain ⟨certificate, ran⟩ := (admit_finishes s request approverIds (some bond)).of_paid welcomes.admissible paid id
  cases AdmissionCoordinator.admit_onboards s request bond approverIds with
  | refused refused _ => exact absurd welcomes.able refused
  | rejected _ rejected _ => cases rejected.symm.trans ran
  | unrecorded _ ran' volatile _ _ _ =>
    cases ran'.symm.trans ran
    exact absurd ⟨durable.bound, durable.ledger, durable.admission⟩ volatile
  | returned _ _ _ _ _ run => exact ⟨_, _, run⟩

omit [Crypto] in
theorem SettlementLedger.Alike.bonded {l l' : SettlementLedger} (alike : l.Alike l') :
    (l.bonded bond).Alike (l'.bonded bond) := by
  refine ⟨alike.config, fun account => ?_, fun bondId => ?_, alike.events, alike.slashEvidenceIds, alike.settledRewardEpochs⟩
  · simp only [SettlementLedger.bonded, SettlementLedger.credited, SettlementLedger.setPosition_balances,
      SettlementLedger.setBalance_balances, Dict.get?_set, alike.balanceOf, alike.balances]
  · simp only [SettlementLedger.bonded, SettlementLedger.credited, SettlementLedger.setPosition_bonds,
      SettlementLedger.setBalance_bonds, Dict.get?_set, alike.bonds]

omit [Crypto] in
theorem SettlementLedger.Alike.addEvent {l l' : SettlementLedger} (alike : l.Alike l') (event : SettlementEvent) :
    (l.addEvent event).Alike (l'.addEvent event) := by
  refine ⟨alike.config, alike.balances, alike.bonds, fun eventId => ?_, alike.slashEvidenceIds, alike.settledRewardEpochs⟩
  simp only [SettlementLedger.addEvent_events, Dict.get?_set, alike.events]

theorem SettlementLedger.Alike.bondEvent {l l' : SettlementLedger} (alike : l.Alike l') (epoch : Int) :
    l'.bondEvent bond epoch = l.bondEvent bond epoch := by
  unfold SettlementLedger.bondEvent
  rw [alike.config]

theorem MembershipManager.Alike.admitted {m m' : MembershipManager} (alike : m.Alike m') :
    (m.admitted request (some bond)).Alike (m'.admitted request (some bond)) := by
  refine ⟨alike.config, alike.epoch, alike.seed, ?_, fun v => ?_, fun v => ?_⟩
  · change insert _ m'.deposits = insert _ m.deposits
    rw [alike.deposits]
  · change (m'.validatorBonds.set _ _).get? v = (m.validatorBonds.set _ _).get? v
    simp only [Dict.get?_set, alike.validatorBonds]
  · change (m'.records.set _ _).get? v = (m.records.set _ _).get? v
    simp only [Dict.get?_set, alike.records]

namespace Economy

omit [Crypto] in
theorem Alike.settlement (alike : s.Alike s') : s'.manager.settlement = s.manager.settlement :=
  congrArg MembershipConfig.settlement alike.manager.config

theorem Alike.welcomes (alike : s.Alike s') (welcomes : s.Welcomes request bond) : s'.Welcomes request bond := by
  obtain ⟨able, admissible, bondable⟩ := welcomes
  refine ⟨⟨able.verified, able.verifiedBond, able.named, able.key, able.stake, ?_⟩, ?_, fun settlement => ?_⟩
  · rw [alike.ledger.balanceOf]
    exact able.enough
  · refine ⟨admissible.verified, ?_, ?_, fun _ => Option.some_ne_none _, ?_, ?_, fun b here => ?_⟩
    · have minimum := congrArg MembershipConfig.minimumStake alike.manager.config
      rw [minimum]
      exact admissible.stake
    · rw [alike.manager.epoch]
      exact admissible.fresh
    · rw [alike.manager.records]
      exact admissible.new
    · rw [alike.manager.deposits]
      exact admissible.unused
    · have fits := admissible.fits b here
      refine ⟨fits.verified, fits.named, fits.key, fits.amount, ?_⟩
      rw [alike.manager.epoch]
      exact fits.active
  · rw [alike.settlement] at settlement
    obtain ⟨fits, new⟩ := bondable settlement
    rw [alike.manager.epoch, alike.ledger.bondEvent, alike.ledger.recorded]
    refine ⟨⟨fits.verified, ?_, fits.arrived, ?_, ?_⟩, new⟩
    · have asset := congrArg LedgerConfig.asset alike.ledger.config
      rw [asset]
      exact fits.asset
    · rw [alike.ledger.bonds]
      exact fits.new
    · rw [alike.ledger.balanceOf]
      exact fits.enough

theorem Alike.locked (alike : s.Alike s') : (s.locked bond).Alike (s'.locked bond) := by
  unfold Economy.locked
  rw [alike.settlement, alike.manager.epoch, alike.ledger.bondEvent]
  split
  · exact alike.ledger.bonded.addEvent _
  · exact alike.ledger

theorem Alike.admitted {t' : Economy} (alike : s.Alike s') (left : Admitted s request bond t)
    (right : Admitted s' request bond t') : t.Alike t' := by
  refine ⟨?_, ?_, iff_of_true left.durable right.durable⟩
  · rw [left.ledger, right.ledger]
    exact alike.locked
  · rw [left.manager, right.manager]
    exact alike.manager.admitted

end Economy

/-- Coordinators in states that are alike admit the same pair. -/
theorem Admits.congr {pair : AdmissionRequest × StakeBond × List String} (alike : s.Alike s') (admits : Admits pair s t) :
    ∃ t', Admits pair s' t' ∧ t.Alike t' := by
  obtain ⟨request, bond, approverIds⟩ := pair
  obtain ⟨welcomes, durable, admitted⟩ := admits.admitted
  obtain ⟨t', admits'⟩ := (alike.welcomes welcomes).admits (alike.durable.mp durable) approverIds
  obtain ⟨-, -, admitted'⟩ := admits'.admitted
  exact ⟨t', admits', alike.admitted admitted admitted'⟩

namespace Economy

theorem locked_config (s : Economy) (bond : StakeBond) : (s.locked bond).toLedgerConfig = s.ledger.toLedgerConfig := by
  unfold Economy.locked
  split <;> rfl

theorem locked_balanceOf (s : Economy) (bond : StakeBond) (account : String) : (s.locked bond).balanceOf account =
    s.ledger.balanceOf account - if s.manager.settlement = true ∧ bond.owner = account then bond.amount else 0 := by
  unfold Economy.locked
  split
  · rename_i settlement
    have balance := SettlementLedger.balanceOf_credited s.ledger bond.owner account (-bond.amount)
    change (s.ledger.credited bond.owner (-bond.amount)).balanceOf account = _
    rw [balance]
    by_cases owner : bond.owner = account
    · rw [if_pos owner, if_pos ⟨settlement, owner⟩]
      omega
    · rw [if_neg owner, if_neg fun both => owner both.2]
      omega
  · rename_i settlement
    rw [if_neg fun both => settlement both.1]
    omega

/-- The second admission neither repeats anything of the first nor lives on its
money. -/
structure Apart (s : Economy) (request : AdmissionRequest) (bond : StakeBond) (request' : AdmissionRequest)
    (bond' : StakeBond) : Prop where
  validators : request.validatorId ≠ request'.validatorId
  deposits : request.depositId ≠ request'.depositId
  bonds : s.manager.settlement = true → bond.bondId ≠ bond'.bondId
  events : s.manager.settlement = true → (s.ledger.bondEvent bond s.manager.epoch).eventId ≠
    (s.ledger.bondEvent bond' s.manager.epoch).eventId
  enough : s.manager.settlement = true → bond.owner = bond'.owner →
    bond.amount + bond'.amount ≤ s.ledger.balanceOf bond.owner

theorem Apart.symm {request' : AdmissionRequest} {bond' : StakeBond} (apart : s.Apart request bond request' bond') :
    s.Apart request' bond' request bond := by
  refine ⟨apart.validators.symm, apart.deposits.symm, fun settlement => (apart.bonds settlement).symm,
    fun settlement => (apart.events settlement).symm, fun settlement same => ?_⟩
  have enough := apart.enough settlement same.symm
  rw [same]
  omega

/-- After one admission another is welcome if it was before and both are apart. -/
theorem welcomes_after {request' : AdmissionRequest} {bond' : StakeBond} (welcomes : s.Welcomes request bond)
    (admitted : Admitted s request bond t) :
    t.Welcomes request' bond' ↔ s.Welcomes request' bond' ∧ s.Apart request bond request' bond' := by
  have positive := SettlementLedger.amount_pos_of_verify welcomes.able.verifiedBond
  have settles : t.manager.settlement = s.manager.settlement := by
    rw [admitted.manager]
    rfl
  have epoch : t.manager.epoch = s.manager.epoch := by
    rw [admitted.manager]
    rfl
  have records : t.manager.records.get? request'.validatorId = none ↔
      request.validatorId ≠ request'.validatorId ∧ s.manager.records.get? request'.validatorId = none := by
    rw [admitted.manager]
    change (s.manager.records.set _ _).get? _ = none ↔ _
    rw [Dict.get?_set]
    by_cases same : request.validatorId = request'.validatorId <;> simp [same]
  have deposits : request'.depositId ∉ t.manager.deposits ↔
      request.depositId ≠ request'.depositId ∧ request'.depositId ∉ s.manager.deposits := by
    rw [admitted.manager]
    change request'.depositId ∉ insert request.depositId s.manager.deposits ↔ _
    rw [Finset.mem_insert, not_or, eq_comm]
  have balance : ∀ account, t.ledger.balanceOf account =
      s.ledger.balanceOf account - if s.manager.settlement = true ∧ bond.owner = account then bond.amount else 0 := by
    intro account
    rw [admitted.ledger, locked_balanceOf]
  have config : t.ledger.toLedgerConfig = s.ledger.toLedgerConfig := by rw [admitted.ledger, locked_config]
  have event : t.ledger.bondEvent bond' t.manager.epoch = s.ledger.bondEvent bond' s.manager.epoch := by
    unfold SettlementLedger.bondEvent
    rw [config, epoch]
  have locked : s.manager.settlement = true →
      t.ledger = (s.ledger.bonded bond).addEvent (s.ledger.bondEvent bond s.manager.epoch) := by
    intro settlement
    rw [admitted.ledger, Economy.locked, if_pos settlement]
  have bonds : s.manager.settlement = true → (t.ledger.bonds.get? bond'.bondId = none ↔
      bond.bondId ≠ bond'.bondId ∧ s.ledger.bonds.get? bond'.bondId = none) := by
    intro settlement
    rw [locked settlement]
    change (s.ledger.bonds.set bond.bondId _).get? _ = none ↔ _
    rw [Dict.get?_set]
    by_cases same : bond.bondId = bond'.bondId <;> simp [same]
  have recorded : s.manager.settlement = true → ∀ other, (t.ledger.Recorded other ↔
      (s.ledger.bondEvent bond s.manager.epoch).eventId = other.eventId ∨ s.ledger.Recorded other) := by
    intro settlement other
    rw [locked settlement, SettlementLedger.recorded_addEvent]
    exact Iff.rfl
  have asset := congrArg LedgerConfig.asset config
  have minimum : t.manager.minimumStake = s.manager.minimumStake := by
    rw [admitted.manager]
    rfl
  constructor
  · rintro ⟨able, admissible, bondable⟩
    obtain ⟨different, new⟩ := records.mp admissible.new
    obtain ⟨different', unused⟩ := deposits.mp admissible.unused
    have rich : bond'.amount ≤ s.ledger.balanceOf bond'.owner := by
      have enough := able.enough
      rw [balance] at enough
      split at enough <;> omega
    refine ⟨⟨⟨able.verified, able.verifiedBond, able.named, able.key, able.stake, rich⟩, ?_, fun settlement => ?_⟩,
      different, different', fun settlement => ?_, fun settlement => ?_, fun settlement same => ?_⟩
    · refine ⟨admissible.verified, minimum ▸ admissible.stake, epoch ▸ admissible.fresh, fun _ => Option.some_ne_none _, new,
        unused, fun b here => ?_⟩
      have fits := admissible.fits b here
      exact ⟨fits.verified, fits.named, fits.key, fits.amount, epoch ▸ fits.active⟩
    · obtain ⟨fits, fresh⟩ := bondable (settles.trans settlement)
      refine ⟨⟨fits.verified, fits.asset.trans asset, epoch ▸ fits.arrived, ((bonds settlement).mp fits.new).2, rich⟩, ?_⟩
      rw [event, recorded settlement, not_or] at fresh
      exact fresh.2
    · exact ((bonds settlement).mp (bondable (settles.trans settlement)).1.new).1
    · have fresh := (bondable (settles.trans settlement)).2
      rw [event, recorded settlement, not_or] at fresh
      exact fresh.1
    · have enough := able.enough
      rw [balance, if_pos ⟨settlement, same⟩, ← same] at enough
      omega
  · rintro ⟨⟨able, admissible, bondable⟩, apart⟩
    have rich : bond'.amount ≤ t.ledger.balanceOf bond'.owner := by
      rw [balance]
      split
      · rename_i both
        have enough := apart.enough both.1 both.2
        rw [both.2] at enough
        omega
      · have enough := able.enough
        omega
    refine ⟨⟨able.verified, able.verifiedBond, able.named, able.key, able.stake, rich⟩, ?_, fun settlement => ?_⟩
    · refine ⟨admissible.verified, minimum.symm ▸ admissible.stake, epoch.symm ▸ admissible.fresh,
        fun _ => Option.some_ne_none _, records.mpr ⟨apart.validators, admissible.new⟩,
        deposits.mpr ⟨apart.deposits, admissible.unused⟩, fun b here => ?_⟩
      have fits := admissible.fits b here
      exact ⟨fits.verified, fits.named, fits.key, fits.amount, epoch.symm ▸ fits.active⟩
    · have settlement := settles.symm.trans settlement
      obtain ⟨fits, fresh⟩ := bondable settlement
      refine ⟨⟨fits.verified, fits.asset.trans asset.symm, epoch.symm ▸ fits.arrived,
        (bonds settlement).mpr ⟨apart.bonds settlement, fits.new⟩, rich⟩, ?_⟩
      rw [event, recorded settlement, not_or]
      exact ⟨apart.events settlement, fresh⟩

end Economy

namespace Economy

variable {request' : AdmissionRequest} {bond' : StakeBond} {u u' t' : Economy}

/-- Both orders of two admissions lead to states that are alike. -/
theorem Apart.alike (apart : s.Apart request bond request' bond') (first : Admitted s request bond u)
    (second : Admitted u request' bond' t) (first' : Admitted s request' bond' u') (second' : Admitted u' request bond t') :
    t.Alike t' := by
  have manager : t.manager.Alike t'.manager := by
    rw [second.manager, second'.manager, first.manager, first'.manager]
    refine ⟨rfl, rfl, rfl, Finset.insert_comm _ _ _, fun v => ?_, fun v => ?_⟩
    · exact (Dict.get?_set_comm _ _ _ apart.validators v).symm
    · exact (Dict.get?_set_comm _ _ _ apart.validators v).symm
  refine ⟨?_, manager, iff_of_true second.durable second'.durable⟩
  have settles : u.manager.settlement = s.manager.settlement ∧ u'.manager.settlement = s.manager.settlement := by
    rw [first.manager, first'.manager]
    exact ⟨rfl, rfl⟩
  have epochs : u.manager.epoch = s.manager.epoch ∧ u'.manager.epoch = s.manager.epoch := by
    rw [first.manager, first'.manager]
    exact ⟨rfl, rfl⟩
  rw [second.ledger, second'.ledger]
  unfold Economy.locked
  rw [settles.1, settles.2, epochs.1, epochs.2, first.ledger, first'.ledger]
  unfold Economy.locked
  split
  · rename_i settlement
    refine ⟨rfl, fun account => ?_, fun bondId => ?_, fun eventId => ?_, rfl, rfl⟩
    · simp only [SettlementLedger.bonded, SettlementLedger.credited, SettlementLedger.addEvent_balances,
        SettlementLedger.setPosition_balances, SettlementLedger.setBalance_balances, Dict.get?_set,
        SettlementLedger.balanceOf]
      by_cases owners : bond.owner = bond'.owner
      · rw [owners]
        by_cases here : bond'.owner = account
        · simp only [here, if_true, Option.getD_some, Option.some.injEq]
          omega
        · simp only [here, if_false]
      · have owners' : ¬ bond'.owner = bond.owner := fun same => owners same.symm
        rw [if_neg owners, if_neg owners']
        by_cases here : bond.owner = account
        · have there : ¬ bond'.owner = account := fun same => owners (here.trans same.symm)
          rw [if_pos here, if_neg there, if_pos here]
        · rw [if_neg here, if_neg here]
    · exact (Dict.get?_set_comm _ _ _ (apart.bonds settlement) bondId).symm
    · exact (Dict.get?_set_comm _ _ _ (apart.events settlement) eventId).symm
  · exact .rfl

end Economy

/-- Two admissions that succeed succeed in the other order as well. -/
theorem Admits.swap {pair pair' : AdmissionRequest × StakeBond × List String} {u : Economy} (first : Admits pair s u)
    (second : Admits pair' u t) : ∃ u' t', Admits pair' s u' ∧ Admits pair u' t' ∧ t.Alike t' := by
  obtain ⟨request, bond, approverIds⟩ := pair
  obtain ⟨request', bond', approverIds'⟩ := pair'
  obtain ⟨welcomes, durable, admitted⟩ := first.admitted
  obtain ⟨welcomes', -, admitted'⟩ := second.admitted
  obtain ⟨before, apart⟩ := (welcomes_after welcomes admitted).mp welcomes'
  obtain ⟨u', early⟩ := before.admits durable approverIds'
  obtain ⟨-, durable', early'⟩ := early.admitted
  have after := (welcomes_after before early').mpr ⟨welcomes, apart.symm⟩
  obtain ⟨t', late⟩ := after.admits early'.durable approverIds
  obtain ⟨-, -, late'⟩ := late.admitted
  exact ⟨u', t', early, late, apart.alike admitted admitted' early' late'⟩

/-- An admission leaves a snapshot of its records, under their own keys. -/
theorem rebuilt_of_takes {pairs : List (AdmissionRequest × StakeBond × List String)} (takes : Takes Admits pairs s t)
    (keyed : s.manager.Keyed) :
    t.manager.Keyed ∧ (pairs = [] ∧ t = s ∨ pairs ≠ [] ∧ t.manager.snapshot = t.manager.buildSnapshot) := by
  induction takes with
  | nil s => exact ⟨keyed, Or.inl ⟨rfl, rfl⟩⟩
  | @cons pair pairs s u t first rest ih =>
    obtain ⟨request, bond, approverIds⟩ := pair
    obtain ⟨-, -, admitted⟩ := first.admitted
    have keyed' : u.manager.Keyed := by
      rw [admitted.manager]
      exact keyed.set (admittedRecord request) rfl
    obtain ⟨keyed'', ended⟩ := ih keyed'
    refine ⟨keyed'', Or.inr ⟨List.cons_ne_nil _ _, ?_⟩⟩
    rcases ended with ⟨-, rfl⟩ | ⟨-, current⟩
    · rw [admitted.manager]
      rfl
    · exact current

/-- Pairs that a coordinator admits one after the other are admitted by another
one, from the same membership and ledger, in any order, and both end with the
same membership root, the same bonds and the same settlement root. -/
theorem admissions_commute (reached : EconomyCall.Reached s) (manager : s'.manager = s.manager)
    (ledger : s'.ledger = s.ledger) (durable : s'.Durable)
    {pairs pairs' : List (AdmissionRequest × StakeBond × List String)} (order : pairs.Perm pairs')
    (takes : Takes Admits pairs s t) :
    ∃ t', Takes Admits pairs' s' t' ∧ t'.manager.snapshot.root = t.manager.snapshot.root ∧
      (∀ v, t'.manager.validatorBonds.get? v = t.manager.validatorBonds.get? v) ∧ t'.ledger.stateRoot = t.ledger.stateRoot := by
  cases takes with
  | nil =>
    rw [List.nil_perm.mp order]
    exact ⟨s', .nil s', by rw [manager], by rw [manager]; exact fun _ => rfl, by rw [ledger]⟩
  | @cons pair rest s u t first later =>
    obtain ⟨-, durable', -⟩ := first.admitted
    have start : s.Alike s' := by
      refine ⟨?_, ?_, iff_of_true durable' durable⟩
      · rw [ledger]
        exact .rfl
      · rw [manager]
        exact .rfl
    obtain ⟨v, moved, alike⟩ := (Takes.cons first later).congr (fun _ _ _ _ => Admits.congr) start
    obtain ⟨t', ordered, alike'⟩ := moved.perm (fun _ _ _ _ => Admits.congr) (fun _ _ _ _ _ => Admits.swap) order
    have both : t.Alike t' := IsTrans.trans _ _ _ alike alike'
    have keyed := EconomyCall.Reached.keyed reached
    have keyed' : s'.manager.Keyed := manager ▸ keyed
    obtain ⟨-, ⟨none, -⟩ | ⟨-, current⟩⟩ := rebuilt_of_takes (.cons first later) keyed
    · cases none
    obtain ⟨named, ⟨none, -⟩ | ⟨-, current'⟩⟩ := rebuilt_of_takes ordered keyed'
    · rw [none] at order
      cases List.perm_nil.mp order
    refine ⟨t', ordered, ?_, both.manager.validatorBonds, both.ledger.stateRoot⟩
    rw [current, current', buildSnapshot_congr both.manager.records both.manager.epoch both.manager.seed named]

section Shared
variable {pair : KeyPair}

def shareBond (pair : KeyPair) (bondId : String) (amount : Int) : StakeBond := .create pair bondId amount "MOSAIC" 0 0

def shareRequest (pair : KeyPair) (validatorId depositId bondId : String) (amount : Int) : AdmissionRequest :=
  .create pair validatorId amount depositId 0 (some bondId)

theorem share_welcome (free : CollisionFree) (verifies : SignaturesVerify) {validatorId depositId bondId : String}
    {amount : Int} (named : bondId ≠ "") (some : 1 ≤ amount) (enough : amount ≤ 10) :
    (readyEconomy pair).Welcomes (shareRequest pair validatorId depositId bondId amount) (shareBond pair bondId amount) := by
  have verified : (shareBond pair bondId amount).verify = true :=
    StakeBond.create_verify verifies pair bondId "MOSAIC" some le_rfl le_rfl
  have requested : (shareRequest pair validatorId depositId bondId amount).verify = true :=
    AdmissionRequest.create_verify verifies pair validatorId depositId amount 0 _
  have rich : (shareBond pair bondId amount).amount ≤ (readyEconomy pair).ledger.balanceOf pair.identity := by
    have balance : (fundedLedger plainLedger pair.identity 10).balanceOf pair.identity = 10 := fundedLedger_balance
    exact enough.trans balance.ge
  have expected : expectedBond (shareRequest pair validatorId depositId bondId amount) = bondId := if_neg named
  refine ⟨⟨requested, verified, rfl, rfl, rfl, rich⟩, ?_, fun _ => ⟨⟨verified, rfl, le_rfl, rfl, rich⟩, ?_⟩⟩
  · refine ⟨requested, some, le_rfl, fun _ => Option.some_ne_none _, rfl, Finset.notMem_empty _, ?_⟩
    rintro _ ⟨⟩
    exact ⟨verified, expected.symm, rfl, rfl, le_rfl⟩
  · exact event_new free (by decide)

/-- Two validators that share the money of one owner. -/
def sharePairs (pair : KeyPair) : List (AdmissionRequest × StakeBond × List String) := [
  (shareRequest pair "v" "d" "b" 4, shareBond pair "b" 4, []),
  (shareRequest pair "w" "e" "c" 6, shareBond pair "c" 6, [])]

theorem sharePairs_admitted (free : CollisionFree) (verifies : SignaturesVerify) :
    ∃ t, Takes Admits (sharePairs pair) (readyEconomy pair) t := by
  have welcome := @share_welcome _ pair free verifies "v" "d" "b" 4 (by decide) (by decide) (by decide)
  have welcome' := @share_welcome _ pair free verifies "w" "e" "c" 6 (by decide) (by decide) (by decide)
  have apart : (readyEconomy pair).Apart (shareRequest pair "v" "d" "b" 4) (shareBond pair "b" 4)
      (shareRequest pair "w" "e" "c" 6) (shareBond pair "c" 6) := by
    refine ⟨?_, ?_, fun _ => ?_, fun _ same => ?_, fun _ _ => ?_⟩
    · change "v" ≠ "w"
      decide
    · change "d" ≠ "e"
      decide
    · change "b" ≠ "c"
      decide
    · have related := (SettlementLedger.eventFor_inj free same).2.2.2.2
      change "b" = "c" at related
      exact absurd related (by decide)
    · have balance : (fundedLedger plainLedger pair.identity 10).balanceOf pair.identity = 10 := fundedLedger_balance
      exact balance.ge
  obtain ⟨t, first⟩ := welcome.admits ⟨rfl, rfl, rfl⟩ []
  obtain ⟨-, -, admitted⟩ := first.admitted
  obtain ⟨u, second⟩ := ((welcomes_after welcome admitted).mpr ⟨welcome', apart⟩).admits admitted.durable []
  exact ⟨u, .cons first (.cons second (.nil u))⟩

omit [Crypto] in
theorem admissions_commute_shared : let _ := Crypto.ideal
    ∃ t t', Takes Admits (sharePairs idealKey) (readyEconomy idealKey) t ∧
      Takes Admits (sharePairs idealKey).reverse (readyEconomy idealKey) t' ∧
      t'.manager.snapshot.root = t.manager.snapshot.root ∧
      (∀ v, t'.manager.validatorBonds.get? v = t.manager.validatorBonds.get? v) ∧ t'.ledger.stateRoot = t.ledger.stateRoot := by
  obtain ⟨t, takes⟩ := @sharePairs_admitted Crypto.ideal idealKey ideal_collisionFree ideal_signaturesVerify
  have run := @readyEconomy_run Crypto.ideal idealKey ideal_named (fun _ _ => True) (fun _ _ => trivial) fun _ => trivial
  have durable : (@readyEconomy Crypto.ideal idealKey).Durable := ⟨rfl, rfl, rfl⟩
  obtain ⟨t', same⟩ := @admissions_commute Crypto.ideal (@readyEconomy Crypto.ideal idealKey)
    (@readyEconomy Crypto.ideal idealKey) t
    ⟨_, _, _, _, run⟩ rfl rfl durable _ _ (List.reverse_perm _).symm takes
  exact ⟨t, t', takes, same⟩

end Shared

end Mosaic
