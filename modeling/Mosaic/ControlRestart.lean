import Mosaic.Gossip

namespace Mosaic
open CanonicalJson Effects Economy MembershipManager AdmissionCoordinator

namespace ControlNode

variable [Crypto]

/-- `_restore`, as far as admissions go. -/
def restore (n : ControlNode) : ControlNode :=
  if n.onboarding = false then n
  else
    match restoreFromStore n.economy with
    | .ok _ economy => { n.setEconomy economy with
        onboardingRequests := n.onboardingRequests ∪
          ((onboardingRows economy.store).map fun row => requestKey row.1).toFinset }
    -- the fault is counted and reported, and the node goes on
    | .error _ economy => n.setEconomy economy

/-- `load_node` over a store that has a ledger, where the configuration has no admissions. -/
def resume (config : MembershipConfig) (store : EconomyStore) : Except EconomyError ControlNode :=
  match SettlementLedger.fromStore store with
  | .error e => .error e
  | .ok ledger =>
    match persist { ledger, manager := .fresh config, rounds := {}, store, beaconBound := true } with
    | .error e _ => .error e
    | .ok _ economy => .ok (restore {
        economy := economy.bindOnboarding
        onboarding := true
        beacon := true
        onboardingRequests := ∅
        metrics := {}
        told := [] })

end ControlNode

variable [Crypto] {m m' u : MembershipManager} {request request' : AdmissionRequest} {bond bond' : StakeBond}

/-- What `restore_admission` checks. -/
structure Restorable (m : MembershipManager) (request : AdmissionRequest) (bond : StakeBond) : Prop where
  verified : request.verify = true
  verifiedBond : bond.verify = true
  stake : m.minimumStake ≤ request.stake
  named : request.bondId = some bond.bondId
  new : m.records.get? request.validatorId = none
  unused : request.depositId ∉ m.deposits
  key : bond.ownerPublicKey = request.publicKey
  amount : bond.amount = request.stake

/-- The manager before and after an admission is replayed. -/
def Restores (pair : AdmissionRequest × StakeBond) (m m' : MembershipManager) : Prop :=
  Restorable m pair.1 pair.2 ∧ m' = m.admitted pair.1 (some pair.2)

theorem Restorable.run {s : Economy} (able : Restorable s.manager request bond) :
    restoreAdmission request bond s = .ok ⟨⟩ (s.setManager (s.manager.admitted request (some bond))) := by
  have unknown : ¬ (s.manager.records.contains request.validatorId = true ∨
      request.depositId ∈ s.manager.deposits) := by
    rintro (known | used)
    · simp [Dict.contains, able.new] at known
    · exact able.unused used
  have stake := able.stake
  unfold restoreAdmission
  rw [get_bind_apply, raiseIf_bind_neg (by simp [able.verified, able.verifiedBond]),
    raiseIf_bind_neg (by rw [able.named]; simp; omega), raiseIf_bind_neg unknown,
    raiseIf_bind_neg (by simp [able.key, able.amount])]
  rfl

theorem restoreAll_of_takes {rows : List (AdmissionRequest × StakeBond)} {s : Economy}
    (takes : Takes Restores rows s.manager m) : restoreAll rows s = .ok ⟨⟩ (s.setManager m) := by
  induction rows generalizing s with
  | nil =>
    cases takes
    rfl
  | cons row rows ih =>
    obtain _ | ⟨⟨able, rfl⟩, rest⟩ := takes
    have later := ih (s := s.setManager (s.manager.admitted row.1 (some row.2))) rest
    exact (bind_of_ok able.run).trans later

theorem restoreFromStore_of_takes {s : Economy} (bound : s.onboardingBound = true)
    (takes : Takes Restores (onboardingRows s.store) s.manager m) :
    restoreFromStore s = .ok (onboardingRows s.store).length (s.setManager m) := by
  unfold restoreFromStore
  rw [get_bind_apply, raiseIf_bind_neg (by simp [bound])]
  refine (bind_of_ok (restoreAll_of_takes takes)).trans ?_
  rw [get_bind_apply, raiseIf_bind_neg]
  · rfl
  · rintro ⟨some, differs⟩
    exact differs (if_neg some)

theorem fromStore_of_kept {ledger : SettlementLedger} {store : EconomyStore} (sound : ledger.Sound)
    (kept : store.rows.get? ("settlement_state", "ledger") = some (.settlementState ledger ledger.stateRoot)) :
    SettlementLedger.fromStore store = .ok ledger := by
  unfold SettlementLedger.fromStore
  rw [kept]
  dsimp only
  rw [if_neg (by simp [sound.audit])]

theorem Restores.congr {pair : AdmissionRequest × StakeBond} (alike : m.Alike m') (restores : Restores pair m u) :
    ∃ u', Restores pair m' u' ∧ u.Alike u' := by
  obtain ⟨able, rfl⟩ := restores
  refine ⟨_, ⟨⟨able.verified, able.verifiedBond, ?_, able.named, ?_, ?_, able.key, able.amount⟩, rfl⟩, alike.admitted⟩
  · have minimum := congrArg MembershipConfig.minimumStake alike.config
    rw [minimum]
    exact able.stake
  · rw [alike.records]
    exact able.new
  · rw [alike.deposits]
    exact able.unused

theorem restorable_admitted : Restorable (m.admitted request (some bond)) request' bond' ↔
    Restorable m request' bond' ∧ request.validatorId ≠ request'.validatorId ∧
      request.depositId ≠ request'.depositId := by
  have records : (m.admitted request (some bond)).records.get? request'.validatorId = none ↔
      request.validatorId ≠ request'.validatorId ∧ m.records.get? request'.validatorId = none := by
    change (m.records.set request.validatorId (admittedRecord request)).get? _ = none ↔ _
    rw [Dict.get?_set]
    by_cases same : request.validatorId = request'.validatorId <;> simp [same]
  have deposits : request'.depositId ∉ (m.admitted request (some bond)).deposits ↔
      request.depositId ≠ request'.depositId ∧ request'.depositId ∉ m.deposits := by
    change request'.depositId ∉ insert request.depositId m.deposits ↔ _
    rw [Finset.mem_insert, not_or, eq_comm]
  constructor
  · intro able
    obtain ⟨validators, new⟩ := records.mp able.new
    obtain ⟨apart, unused⟩ := deposits.mp able.unused
    exact ⟨⟨able.verified, able.verifiedBond, able.stake, able.named, new, unused, able.key, able.amount⟩,
      validators, apart⟩
  · rintro ⟨able, validators, apart⟩
    exact ⟨able.verified, able.verifiedBond, able.stake, able.named, records.mpr ⟨validators, able.new⟩,
      deposits.mpr ⟨apart, able.unused⟩, able.key, able.amount⟩

/-- Two admissions are replayed in either order. -/
theorem Restores.swap {pair pair' : AdmissionRequest × StakeBond} (first : Restores pair m m')
    (second : Restores pair' m' u) :
    ∃ v w, Restores pair' m v ∧ Restores pair v w ∧ u.Alike w := by
  obtain ⟨able, rfl⟩ := first
  obtain ⟨able', rfl⟩ := second
  obtain ⟨early, validators, deposits⟩ := restorable_admitted.mp able'
  refine ⟨_, _, ⟨early, rfl⟩, ⟨restorable_admitted.mpr ⟨able, validators.symm, deposits.symm⟩, rfl⟩, ?_⟩
  refine ⟨rfl, rfl, rfl, Finset.insert_comm _ _ _, fun v => ?_, fun v => ?_⟩
  · exact (Dict.get?_set_comm _ _ _ validators v).symm
  · exact (Dict.get?_set_comm _ _ _ validators v).symm

instance : Std.Refl MembershipManager.Alike := ⟨fun _ => .rfl⟩

instance : IsTrans MembershipManager MembershipManager.Alike where
  trans _ _ _ first second := first.trans second

/-- An admission can be replayed. -/
theorem Admits.restores {s t : Economy} {approverIds : List String} (admits : Admits (request, bond, approverIds) s t) :
    Restores (request, bond) s.manager t.manager := by
  obtain ⟨welcomes, -, admitted⟩ := admits.admitted
  have able := welcomes.able
  have admissible := welcomes.admissible
  exact ⟨⟨able.verified, able.verifiedBond, admissible.stake, able.named, admissible.new, admissible.unused,
    able.key.symm, able.stake.symm⟩, admitted.manager⟩

/-- The admission that a row is about. -/
def rowPair : EconomyRow → Option (AdmissionRequest × StakeBond)
  | .onboarding request bond _ _ _ => some (request, bond)
  | _ => none

omit [Crypto] in
/-- The rows that a restart replays, whatever their keys. -/
theorem onboardingRows_perm {store : EconomyStore} {items : List (String × EconomyRow)} (nodup : items.Nodup)
    (same : ∀ objectKey row, (objectKey, row) ∈ items ↔ store.rows.get? ("onboarding", objectKey) = some row) :
    (onboardingRows store).Perm (items.filterMap fun item => rowPair item.2) := by
  have stored : (store.rows.entries.filter fun e => e.1.1 = "onboarding").Perm
      (items.map fun item => (("onboarding", item.1), item.2)) := by
    have injective : Function.Injective fun item : String × EconomyRow => (("onboarding", item.1), item.2) := by
      rintro ⟨objectKey, row⟩ ⟨objectKey', row'⟩ equal
      cases equal
      rfl
    refine (List.perm_ext_iff_of_nodup (store.rows.nodup.of_map.filter _) (nodup.map injective)).mpr ?_
    rintro ⟨⟨kind, objectKey⟩, row⟩
    rw [List.mem_filter, List.mem_map, decide_eq_true_eq, ← Dict.get?_eq_some_iff]
    constructor
    · rintro ⟨held, named⟩
      dsimp only at named
      subst named
      exact ⟨(objectKey, row), (same objectKey row).mpr held, rfl⟩
    · rintro ⟨⟨objectKey', row'⟩, listed, equal⟩
      cases equal
      exact ⟨(same objectKey' row').mp listed, rfl⟩
  have picked : (store.rows.entries.filterMap fun row => match row.2 with
      | .onboarding request bond _ _ _ => if row.1.1 = "onboarding" then some (request, bond) else none
      | _ => none) = (store.rows.entries.filter fun e => e.1.1 = "onboarding").filterMap fun e => rowPair e.2 := by
    rw [List.filterMap_filter]
    congr 1
    funext e
    obtain ⟨⟨kind, objectKey⟩, row⟩ := e
    cases row <;> simp [rowPair]
  have ordered := ((sortedBy_perm (fun row => row.1.2) store.rows.entries).filterMap fun row => match row.2 with
      | .onboarding request bond _ _ _ => if row.1.1 = "onboarding" then some (request, bond) else none
      | _ => none)
  rw [picked] at ordered
  refine ordered.trans ((stored.filterMap _).trans ?_)
  rw [List.filterMap_map]
  exact .refl _

/-- The store has the ledger as it is and a row for each of the admissions. -/
structure Booked (pairs : List (AdmissionRequest × StakeBond)) (s : Economy) : Prop where
  ledger : s.store.rows.get? ("settlement_state", "ledger") = some (.settlementState s.ledger s.ledger.stateRoot)
  rows : ∃ items : List (String × EconomyRow), items.Nodup ∧ (items.filterMap fun item => rowPair item.2).Perm pairs ∧
    ∀ objectKey row, (objectKey, row) ∈ items ↔ s.store.rows.get? ("onboarding", objectKey) = some row
  keys : ∀ objectKey row, s.store.rows.get? ("onboarding", objectKey) = some row → ∃ m request approverIds,
    objectKey = (admissionCertificate m request approverIds).certificateId ∧
      s.manager.records.get? request.validatorId ≠ none

namespace Booked

variable {s t : Economy} {pairs : List (AdmissionRequest × StakeBond)}

theorem rests (booked : Booked pairs s) (rests : s.Rests t) : Booked pairs t := by
  have kept := fun objectKey => rests.rows "onboarding" objectKey (Or.inr rfl)
  obtain ⟨items, nodup, filed, same⟩ := booked.rows
  refine ⟨?_, ⟨items, nodup, filed, fun objectKey row => ?_⟩, fun objectKey row held => ?_⟩
  · rw [rests.rows _ _ (Or.inl rfl), rests.ledger]
    exact booked.ledger
  · rw [kept]
    exact same objectKey row
  · rw [rests.manager]
    rw [kept] at held
    exact booked.keys objectKey row held

theorem admits (free : CollisionFree) (booked : Booked pairs s) {approverIds : List String}
    (admits : Admits (request, bond, approverIds) s t) : Booked (pairs ++ [(request, bond)]) t := by
  obtain ⟨welcomes, -, admitted⟩ := admits.admitted
  have written := admits.rows
  obtain ⟨items, nodup, filed, same⟩ := booked.rows
  have records : ∀ v, t.manager.records.get? v ≠ none ↔
      request.validatorId = v ∨ s.manager.records.get? v ≠ none := by
    intro v
    rw [admitted.manager]
    change (s.manager.records.set request.validatorId (admittedRecord request)).get? v ≠ none ↔ _
    rw [Dict.get?_set]
    by_cases here : request.validatorId = v <;> simp [here]
  -- a row under this certificate would be of a validator that is known already
  have unlogged : s.store.rows.get?
      ("onboarding", (s.manager.admissionCertificate request approverIds).certificateId) = none := by
    refine Option.eq_none_iff_forall_ne_some.mpr fun row held => ?_
    obtain ⟨m, request', approverIds', named, known⟩ := booked.keys _ _ held
    have validator := Mirrored.validatorId_eq_of_certificateId free named
    rw [← validator] at known
    exact known welcomes.admissible.new
  have inLog : ∀ objectKey row, t.store.rows.get? ("onboarding", objectKey) = some row ↔
      s.store.rows.get? ("onboarding", objectKey) = some row ∨
        (objectKey, row) = ((s.manager.admissionCertificate request approverIds).certificateId,
          EconomyRow.onboarding request bond (s.manager.admissionCertificate request approverIds) t.ledger.stateRoot
            t.manager.snapshot.root) := by
    intro objectKey row
    rw [written, Dict.get?_set]
    by_cases here : (s.manager.admissionCertificate request approverIds).certificateId = objectKey
    · subst here
      rw [if_pos rfl, unlogged]
      simp [eq_comm]
    · rw [if_neg fun equal => here (Prod.mk.inj equal).2, Dict.get?_set_of_ne _ _ (by simp)]
      have other : objectKey ≠ (s.manager.admissionCertificate request approverIds).certificateId :=
        fun equal => here equal.symm
      simp [other]
  refine ⟨?_, ⟨items ++ [((s.manager.admissionCertificate request approverIds).certificateId,
      EconomyRow.onboarding request bond (s.manager.admissionCertificate request approverIds) t.ledger.stateRoot
        t.manager.snapshot.root)], ?_, ?_, fun objectKey row => ?_⟩, fun objectKey row held => ?_⟩
  · rw [written, Dict.get?_set_of_ne _ _ (by simp)]
    exact Dict.get?_set_self _ _ _
  · refine List.nodup_append_comm.mp (List.nodup_cons.mpr ⟨fun listed => ?_, nodup⟩)
    cases unlogged.symm.trans ((same _ _).mp listed)
  · rw [List.filterMap_append]
    exact filed.append_right _
  · rw [inLog, List.mem_append, List.mem_singleton, same]
  · rcases (inLog objectKey row).mp held with before | now
    · obtain ⟨m, request', approverIds', named, known⟩ := booked.keys objectKey row before
      exact ⟨m, request', approverIds', named, (records _).mpr (Or.inr known)⟩
    · exact ⟨s.manager, request, approverIds, (Prod.mk.inj now).1, (records _).mpr (Or.inl rfl)⟩

end Booked

omit [Crypto] in
theorem SettlementLedger.Alike.symm {l l' : SettlementLedger} (alike : l.Alike l') : l'.Alike l :=
  ⟨alike.config.symm, fun account => (alike.balances account).symm, fun bondId => (alike.bonds bondId).symm,
    fun eventId => (alike.events eventId).symm, alike.slashEvidenceIds.symm, alike.settledRewardEpochs.symm⟩

omit [Crypto] in
theorem MembershipManager.Alike.symm (alike : m.Alike m') : m'.Alike m :=
  ⟨alike.config.symm, alike.epoch.symm, alike.seed.symm, alike.deposits.symm,
    fun v => (alike.validatorBonds v).symm, fun v => (alike.records v).symm⟩

omit [Crypto] in
theorem Economy.Alike.symm {s s' : Economy} (alike : s.Alike s') : s'.Alike s :=
  ⟨alike.ledger.symm, alike.manager.symm, alike.durable.symm⟩

omit [Crypto] in
theorem Economy.Alike.rest {s s' t t' : Economy} (alike : s.Alike s') (rests : s.Rests t) (rests' : s'.Rests t') :
    t.Alike t' :=
  IsTrans.trans _ _ _ (IsTrans.trans _ _ _ rests.symm.alike alike) rests'.alike

/-- The snapshot is of the records, which are under their own keys. -/
structure MembershipManager.Rebuilt (m : MembershipManager) : Prop where
  keyed : m.Keyed
  current : m.snapshot = m.buildSnapshot

namespace MembershipManager

theorem Rebuilt.fresh (config : MembershipConfig) : (MembershipManager.fresh config).Rebuilt := by
  refine ⟨fun v record held => ?_, rfl⟩
  cases held

theorem Rebuilt.admitted (rebuilt : m.Rebuilt) : (m.admitted request (some bond)).Rebuilt :=
  ⟨rebuilt.keyed.set (admittedRecord request) rfl, rfl⟩

theorem Rebuilt.of_restores {rows : List (AdmissionRequest × StakeBond)} (rebuilt : m.Rebuilt)
    (takes : Takes Restores rows m m') : m'.Rebuilt := by
  induction takes with
  | nil => exact rebuilt
  | cons first _ ih =>
    obtain ⟨-, rfl⟩ := first
    exact ih rebuilt.admitted

end MembershipManager

namespace ControlNode

/-- The nodes have admitted the same, perhaps in different orders. -/
structure Twins (n m : ControlNode) : Prop where
  able : n.Able
  able' : m.Able
  alike : n.economy.Alike m.economy
  requests : m.onboardingRequests = n.onboardingRequests
  rebuilt : n.economy.manager.Rebuilt
  rebuilt' : m.economy.manager.Rebuilt

variable {ints : IntReading} {message : Json} {n m : ControlNode}

theorem Twins.symm (twins : Twins n m) : Twins m n :=
  ⟨twins.able', twins.able, twins.alike.symm, twins.requests.symm, twins.rebuilt', twins.rebuilt⟩

theorem Twins.kept {u v : ControlNode} (twins : Twins n m) (same : n.Same u) (same' : m.Same v) : Twins u v := by
  refine ⟨twins.able.same same, twins.able'.same same', twins.alike.rest same.economy same'.economy, ?_, ?_, ?_⟩
  · rw [same.requests, same'.requests, twins.requests]
  · rw [same.economy.manager]
    exact twins.rebuilt
  · rw [same'.economy.manager]
    exact twins.rebuilt'

/-- What one node has nothing against the other one admits as well. -/
theorem Twins.declined (twins : Twins n m) {request : AdmissionRequest} {bond : StakeBond} {t : Economy}
    (new : requestKey request ∉ n.onboardingRequests) (admits : Admits (request, bond, []) n.economy t) :
    ¬ (requestKey request ∈ m.onboardingRequests ∨ ∀ t, ¬ Admits (request, bond, []) m.economy t) := by
  rintro (known | refused)
  · rw [twins.requests] at known
    exact new known
  · obtain ⟨t', admits', -⟩ := admits.congr twins.alike
    exact refused t' admits'

theorem Twins.handle (free : CollisionFree) (twins : Twins n m) (running : ¬ IsOf "BEACON_FINALIZE" message) :
    Twins (n.handle ints message) (m.handle ints message) := by
  cases handle_handled ints twins.able running with
  | kept same declined =>
    cases handle_handled ints twins.able' running with
    | kept same' _ => exact twins.kept same same'
    | @admitted request bond t asks new admits =>
      exact absurd (declined request bond asks) (twins.symm.declined new admits)
  | @admitted request bond t asks new admits economy onboarding requests =>
    cases handle_handled ints twins.able' running with
    | kept _ declined => exact absurd (declined request bond asks) (twins.declined new admits)
    | @admitted request' bond' t' asks' _ admits' economy' onboarding' requests' =>
      cases asks.unique asks'
      obtain ⟨u, early, alike⟩ := admits.congr twins.alike
      cases early.unique admits'
      obtain ⟨-, -, admitted⟩ := admits.admitted
      obtain ⟨-, -, admitted'⟩ := admits'.admitted
      refine ⟨twins.able.admitted free admits economy onboarding,
        twins.able'.admitted free admits' economy' onboarding', alike.rest economy economy', ?_, ?_, ?_⟩
      · rw [requests, requests', twins.requests]
      · rw [economy.manager, admitted.manager]
        exact twins.rebuilt.admitted
      · rw [economy'.manager, admitted'.manager]
        exact twins.rebuilt'.admitted

theorem Twins.agrees (twins : Twins n m) : Agrees n m := by
  have alike := twins.alike
  have membership : m.economy.manager.snapshot = n.economy.manager.snapshot := by
    rw [twins.rebuilt'.current, twins.rebuilt.current]
    exact buildSnapshot_congr alike.manager.records alike.manager.epoch alike.manager.seed twins.rebuilt'.keyed
  have settlement : m.economy.ledger.stateRoot = n.economy.ledger.stateRoot := alike.ledger.stateRoot
  refine ⟨membership, alike.manager.validatorBonds, alike.ledger.balanceOf, settlement, ?_, twins.requests⟩
  unfold AdmissionCoordinator.onboardingRoot
  rw [membership, settlement]

end ControlNode

omit [Crypto] in
theorem Economy.Rests.sound {s t : Economy} (rests : s.Rests t) (sound : s.ledger.Sound) : t.ledger.Sound := by
  rw [rests.ledger]
  exact sound

/-- An admission leaves a ledger in order. -/
theorem Admits.sound {s t : Economy} {approverIds : List String} (admits : Admits (request, bond, approverIds) s t)
    (sound : s.ledger.Sound) : t.ledger.Sound := by
  obtain ⟨welcomes, -, admitted⟩ := admits.admitted
  rw [admitted.ledger]
  unfold Economy.locked
  split
  · rename_i settlement
    obtain ⟨bondable, new⟩ := welcomes.bondable settlement
    have paid : (SettlementCall.bond bond s.manager.epoch).run s.ledger = .ok [_] _ :=
      single_ok ((SettlementLedger.bond_concludes s.ledger bond s.manager.epoch).ok bondable new)
    have locked := sound.exec (.bond bond s.manager.epoch)
    rwa [SettlementCall.exec, final_of_ok paid] at locked
  · exact sound

namespace ControlNode

variable {ints : IntReading} {message : Json} {n u : ControlNode} {config : MembershipConfig}

/-- The store has what the node was told. -/
structure Resumable (config : MembershipConfig) (n : ControlNode) : Prop where
  able : n.Able
  sound : n.economy.ledger.Sound
  booked : ∃ pairs, Booked pairs n.economy ∧ Takes Restores pairs (.fresh config) n.economy.manager ∧
    ∀ key, key ∈ n.onboardingRequests ↔ key ∈ pairs.map fun pair => requestKey pair.1

theorem Resumable.handle (free : CollisionFree) (resumable : n.Resumable config)
    (running : ¬ IsOf "BEACON_FINALIZE" message) : (n.handle ints message).Resumable config := by
  obtain ⟨pairs, booked, takes, known⟩ := resumable.booked
  cases handle_handled ints resumable.able running with
  | kept same _ =>
    refine ⟨resumable.able.same same, same.economy.sound resumable.sound, pairs, booked.rests same.economy, ?_, ?_⟩
    · rw [same.economy.manager]
      exact takes
    · rw [same.requests]
      exact known
  | @admitted request bond t _ _ admits economy onboarding requests =>
    refine ⟨resumable.able.admitted free admits economy onboarding, economy.sound (admits.sound resumable.sound),
      pairs ++ [(request, bond)], (booked.admits free admits).rests economy, ?_, fun key => ?_⟩
    · rw [economy.manager]
      exact takes.concat admits.restores
    · rw [requests, Finset.mem_insert, known, List.map_append, List.mem_append, List.map_singleton, List.mem_singleton,
        or_comm]

/-- The store when `load_node` has written the ledger back. -/
def persisted (ledger : SettlementLedger) (store : EconomyStore) : EconomyStore :=
  { store with rows := store.rows.set ("settlement_state", "ledger") (.settlementState ledger ledger.stateRoot) }

theorem persisted_get? {ledger : SettlementLedger} {store : EconomyStore}
    (kept : store.rows.get? ("settlement_state", "ledger") = some (.settlementState ledger ledger.stateRoot))
    (key : String × String) : (persisted ledger store).rows.get? key = store.rows.get? key := by
  change (store.rows.set _ _).get? key = _
  rw [Dict.get?_set]
  split
  · rename_i here
    rw [← here, kept]
  · rfl

/-- The process when it has replayed the admissions. -/
def replayed (ledger : SettlementLedger) (manager : MembershipManager) (store : EconomyStore) : ControlNode where
  economy := { ledger, manager, rounds := {}, store, onboardingBound := true, beaconBound := true }
  onboarding := true
  beacon := true
  onboardingRequests := ((onboardingRows store).map fun row => requestKey row.1).toFinset
  metrics := {}
  told := []

theorem resume_of_takes {ledger : SettlementLedger} {store : EconomyStore} {v : MembershipManager}
    (sound : ledger.Sound)
    (kept : store.rows.get? ("settlement_state", "ledger") = some (.settlementState ledger ledger.stateRoot))
    (writable : store.refusal "settlement_state" = none)
    (takes : Takes Restores (onboardingRows (persisted ledger store)) (.fresh config) v) :
    resume config store = .ok (replayed ledger v (persisted ledger store)) := by
  let start : Economy := { ledger, manager := .fresh config, rounds := {}, store, beaconBound := true }
  have written : persist start = .ok ⟨⟩ (start.setStore (persisted ledger store)) := onPart_of_ok (put_takes writable)
  have ran := restoreFromStore_of_takes (s := (start.setStore (persisted ledger store)).bindOnboarding) rfl takes
  unfold resume
  rw [fromStore_of_kept sound kept]
  dsimp only
  rw [written]
  dsimp only
  unfold restore
  rw [if_neg (by simp), ran]
  dsimp only
  rw [Finset.empty_union]
  rfl

/-- A process that starts over the store admits from then on what the node would have admitted. -/
theorem Resumable.loads (resumable : n.Resumable config) :
    ∃ u, resume config n.economy.store = .ok u ∧ u.Resumable config ∧ n.economy.Alike u.economy ∧
      u.onboardingRequests = n.onboardingRequests ∧ u.economy.manager.Rebuilt := by
  obtain ⟨pairs, booked, takes, known⟩ := resumable.booked
  obtain ⟨items, nodup, filed, same⟩ := booked.rows
  have durable := resumable.able.durable
  have kept := persisted_get? booked.ledger
  have stored : ∀ objectKey row, (objectKey, row) ∈ items ↔
      (persisted n.economy.ledger n.economy.store).rows.get? ("onboarding", objectKey) = some row := by
    intro objectKey row
    rw [kept]
    exact same objectKey row
  have order : (onboardingRows (persisted n.economy.ledger n.economy.store)).Perm pairs :=
    (onboardingRows_perm nodup stored).trans filed
  -- the rows come in the order of their keys, which need not be the order of the admissions
  obtain ⟨v, again, alike⟩ := takes.perm (R := MembershipManager.Alike)
    (fun _ _ _ _ alike restores => restores.congr alike) (fun _ _ _ _ _ first second => first.swap second) order.symm
  have resumed := resume_of_takes resumable.sound booked.ledger durable.ledger again
  have durable' : (replayed n.economy.ledger v (persisted n.economy.ledger n.economy.store)).economy.Durable :=
    ⟨rfl, durable.ledger, durable.admission⟩
  have calm : (replayed n.economy.ledger v (persisted n.economy.ledger n.economy.store)).economy.Calm := by
    intro bond recorded
    have epoch : v.epoch = n.economy.manager.epoch := alike.epoch
    refine resumable.able.calm bond ?_
    rw [← epoch]
    exact recorded
  have booked' : Booked (onboardingRows (persisted n.economy.ledger n.economy.store))
      (replayed n.economy.ledger v (persisted n.economy.ledger n.economy.store)).economy := by
    refine ⟨Dict.get?_set_self _ _ _, ⟨items, nodup, filed.trans order.symm, stored⟩, fun objectKey row held => ?_⟩
    obtain ⟨m, request, approverIds, named, there⟩ := booked.keys objectKey row ((kept _).symm.trans held)
    refine ⟨m, request, approverIds, named, ?_⟩
    change v.records.get? _ ≠ none
    rw [alike.records]
    exact there
  refine ⟨_, resumed, ⟨⟨rfl, calm, durable'⟩, resumable.sound, _, booked', again, fun key => List.mem_toFinset⟩,
    ⟨.rfl, alike, iff_of_true durable durable'⟩, Finset.ext fun key => ?_,
    (MembershipManager.Rebuilt.fresh config).of_restores again⟩
  exact (List.mem_toFinset.trans (order.map _).mem_iff).trans (known key).symm

end ControlNode

/-- A message comes, or the process ends and another one starts over the store. -/
inductive Happening
  | hears (message : Json)
  | restarts

def Happening.message? : Happening → Option Json
  | hears message => some message
  | restarts => none

namespace ControlNode

variable {ints : IntReading} {n m start : ControlNode} {config : MembershipConfig}

def happen (ints : IntReading) (config : MembershipConfig) (n : ControlNode) :
    Happening → Except EconomyError ControlNode
  | .hears message => .ok (n.handle ints message)
  | .restarts => resume config n.economy.store

/-- A new node over a store that has its ledger and no admissions. -/
theorem Ready.resumable (ready : start.Ready) (reached : EconomyCall.Reached start.economy)
    (manager : start.economy.manager = .fresh config)
    (kept : start.economy.store.rows.get? ("settlement_state", "ledger") =
      some (.settlementState start.economy.ledger start.economy.ledger.stateRoot))
    (new : ∀ objectKey, start.economy.store.rows.get? ("onboarding", objectKey) = none) : start.Resumable config := by
  refine ⟨ready.able, EconomyCall.Reached.sound reached, [],
    ⟨kept, ⟨[], List.nodup_nil, .nil, fun objectKey row => ?_⟩, ?_⟩, ?_, fun key => ?_⟩
  · rw [new]
    simp
  · intro objectKey row held
    cases (new objectKey).symm.trans held
  · rw [manager]
    exact .nil _
  · rw [ready.requests]
    simp

theorem Twins.refl (able : n.Able) (rebuilt : n.economy.manager.Rebuilt) : Twins n n :=
  ⟨able, able, Std.Refl.refl n.economy, rfl, rebuilt, rebuilt⟩

theorem Twins.happens (free : CollisionFree) (twins : Twins n m) (resumable : m.Resumable config)
    {happenings : List Happening}
    (running : ∀ message, .hears message ∈ happenings → ¬ IsOf "BEACON_FINALIZE" message) :
    ∃ u, happenings.foldlM (happen ints config) m = .ok u ∧
      Twins (n.handleAll ints (happenings.filterMap Happening.message?)) u := by
  induction happenings generalizing n m with
  | nil => exact ⟨m, rfl, twins⟩
  | cons happening happenings ih =>
    have later : ∀ message, .hears message ∈ happenings → ¬ IsOf "BEACON_FINALIZE" message :=
      fun message listed => running message (List.mem_cons_of_mem _ listed)
    cases happening with
    | hears message =>
      have first := running message List.mem_cons_self
      exact ih (twins.handle free first) (resumable.handle free first) later
    | restarts =>
      obtain ⟨v, resumed, resumable', alike, requests, rebuilt⟩ := resumable.loads
      have twins' : Twins n v := ⟨twins.able, resumable'.able, IsTrans.trans _ _ _ twins.alike alike,
        requests.trans twins.requests, twins.rebuilt, rebuilt⟩
      obtain ⟨u, rest, agree⟩ := ih twins' resumable' later
      refine ⟨u, ?_, agree⟩
      rw [List.foldlM_cons, happen, resumed]
      exact rest

/-- However often the process of a node ends between two messages and another one starts over
its store, the node stays in agreement with one that has had the same messages and no restart,
as long as no round of the beacon is closed. -/
theorem restarts_unnoticed (free : CollisionFree) (reached : EconomyCall.Reached start.economy) (ready : start.Ready)
    (manager : start.economy.manager = .fresh config)
    (kept : start.economy.store.rows.get? ("settlement_state", "ledger") =
      some (.settlementState start.economy.ledger start.economy.ledger.stateRoot))
    (new : ∀ objectKey, start.economy.store.rows.get? ("onboarding", objectKey) = none) {happenings : List Happening}
    (running : ∀ message, .hears message ∈ happenings → ¬ IsOf "BEACON_FINALIZE" message) :
    ∃ m, happenings.foldlM (happen ints config) start = .ok m ∧
      (start.handleAll ints (happenings.filterMap Happening.message?)).Agrees m := by
  have rebuilt : start.economy.manager.Rebuilt := by
    rw [manager]
    exact .fresh config
  have resumable := ready.resumable reached manager kept new
  obtain ⟨m, ran, twins⟩ := (Twins.refl ready.able rebuilt).happens free resumable running
  exact ⟨m, ran, twins.agrees⟩

end ControlNode

theorem ControlNode.Agrees.knows {n m : ControlNode} (agrees : n.Agrees m) (known : n.onboardingRequests ≠ ∅) :
    m.onboardingRequests ≠ ∅ := by
  rw [agrees.requests]
  exact known

section Stored
variable {pair : KeyPair}

def fundedStore (pair : KeyPair) : EconomyStore where
  rows := Dict.empty.set ("settlement_state", "ledger")
    (.settlementState (fundedLedger plainLedger pair.identity 10) (fundedLedger plainLedger pair.identity 10).stateRoot)

def storedNode (pair : KeyPair) : ControlNode :=
  (readyNode pair).setEconomy ((readyNode pair).economy.setStore (fundedStore pair))

theorem storedNode_reached (named : pair.identity ≠ "") : EconomyCall.Reached (storedNode pair).economy := by
  let start : Economy := .fresh plainLedger stakedConfig (fundedStore pair) false
  have funded : (EconomyCall.ledger (.fund pair.identity 10 0 (some "source"))).run start =
      .ok ⟨⟩ (start.setLedger (fundedLedger plainLedger pair.identity 10)) :=
    bind_of_ok (onPart_of_ok (fundedLedger_run ⟨by decide, named⟩))
  have none : GuardedRun EconomyCall.exec (fun _ _ => True) start start := .refl
  have step := none.tail (i := .ledger (.fund pair.identity 10 0 (some "source"))) trivial
  rw [EconomyCall.exec, final_of_ok funded] at step
  exact ⟨_, _, _, _, step.tail (i := .bindStore) trivial⟩

theorem storedNode_ready (free : CollisionFree) : (storedNode pair).Ready := by
  have ready := @readyNode_ready _ pair free
  exact ⟨⟨rfl, ready.able.calm, ⟨rfl, rfl, rfl⟩⟩, rfl⟩

theorem storedNode_admits (free : CollisionFree) (verifies : SignaturesVerify) :
    ((storedNode pair).handleAll plainInts [application (soloRequest pair) (soloBond pair),
      application (soloRequest pair) (soloBond pair)]).onboardingRequests ≠ ∅ := by
  have able := (@storedNode_ready _ pair free).able
  have asks : AsksFor plainInts (application (soloRequest pair) (soloBond pair)) (soloRequest pair) (soloBond pair) :=
    application_asksFor
  have alike : (readyNode pair).economy.Alike (storedNode pair).economy :=
    ⟨.rfl, .rfl, iff_of_true ⟨rfl, rfl, rfl⟩ able.durable⟩
  have welcomes := alike.welcomes (readyNode_welcomes free verifies le_rfl)
  have locked := ControlNode.locked_of_welcome free able rfl asks (Finset.notMem_empty _) welcomes
  have other : ¬ IsOf "BEACON_FINALIZE" (application (soloRequest pair) (soloBond pair)) :=
    fun closing => absurd (asks.kind.unique closing) (by decide)
  exact Finset.ne_empty_of_mem (locked.handle free other).known

end Stored

omit [Crypto] in
theorem restarts_unnoticed_solo : let _ := Crypto.ideal
    let message := application (soloRequest idealKey) (soloBond idealKey)
    ∃ m, [Happening.hears message, .restarts, .hears message, .restarts].foldlM
        (ControlNode.happen plainInts stakedConfig) (storedNode idealKey) = .ok m ∧
      ((storedNode idealKey).handleAll plainInts [message, message]).Agrees m ∧
      m.onboardingRequests ≠ ∅ := by
  intro _ message
  have ready := @storedNode_ready _ idealKey ideal_collisionFree
  have other : ¬ IsOf "BEACON_FINALIZE" message := by
    intro closing
    exact absurd ((@application_asksFor plainInts _ _).kind.unique closing) (by decide)
  have running : ∀ later, Happening.hears later ∈ [Happening.hears message, .restarts, .hears message, .restarts] →
      ¬ IsOf "BEACON_FINALIZE" later := by
    intro later listed
    have same : later = message := by simpa using listed
    rw [same]
    exact other
  obtain ⟨m, ran, agrees⟩ := @ControlNode.restarts_unnoticed _ plainInts _ _ ideal_collisionFree
    (@storedNode_reached _ idealKey ideal_named) ready rfl (Dict.get?_set_self _ _ _) (fun _ => rfl) _ running
  have heard : [Happening.hears message, .restarts, .hears message, .restarts].filterMap Happening.message? =
      [message, message] := rfl
  rw [heard] at agrees
  have known := @storedNode_admits _ idealKey ideal_collisionFree ideal_signaturesVerify
  exact ⟨m, ran, agrees, agrees.knows known⟩

end Mosaic
