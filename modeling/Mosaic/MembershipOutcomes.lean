import Mosaic.Onboarding
import Mosaic.SettlementAtomicity

namespace Mosaic
open CanonicalJson Effects Economy

variable [Crypto]

/-- The ledger after the call that an operation makes of it, if it makes one. -/
def Paid (call : Option SettlementCall) (before after : SettlementLedger) : Prop :=
  match call with
  | some c => ∃ events, c.run before = .ok events after
  | none => after = before

/-- `late` is what makes the operation raise when the ledger has returned. -/
inductive Finishes {α : Type} (x : PyEconomy α) (s : Economy) (admitted : Prop) (call : Option SettlementCall)
    (late : Prop) (done : MembershipManager) : Prop
  | refused {e : EconomyError} (refused : ¬ admitted) (run : x s = .error e s)
  | unpaid {c : SettlementCall} {e e' : EconomyError} {l : SettlementLedger} (admitted : admitted) (made : call = some c)
      (ledger : c.run s.ledger = .error e l) (run : x s = .error e' (s.setLedger l))
  | late {e : EconomyError} {l : SettlementLedger} (admitted : admitted) (paid : Paid call s.ledger l) (late : late)
      (run : x s = .error e (s.setLedger l))
  | returned {a : α} {l : SettlementLedger} (admitted : admitted) (paid : Paid call s.ledger l) (timely : ¬ late)
      (run : x s = .ok a ((s.setLedger l).setManager done))

namespace Finishes

variable {α : Type} {s : Economy} {admitted late : Prop} {call : Option SettlementCall} {done : MembershipManager}

theorem read {k : Economy → PyEconomy α} (rest : Finishes (k s) s admitted call late done) :
    Finishes (get >>= k) s admitted call late done := by
  cases rest with
  | refused refused run => exact .refused refused run
  | unpaid holds made ledger run => exact .unpaid holds made ledger run
  | late holds paid late run => exact .late holds paid late run
  | returned holds paid timely run => exact .returned holds paid timely run

/-- A check that what is admitted passes. -/
theorem guard {bad : Prop} [Decidable bad] {error : EconomyError} {k : PUnit → PyEconomy α} (refuses : bad → ¬ admitted)
    (rest : ¬ bad → Finishes (k ⟨⟩) s admitted call late done) :
    Finishes (raiseIf bad error >>= k) s admitted call late done := by
  by_cases raised : bad
  · exact .refused (refuses raised) (raiseIf_bind_pos raised error k s)
  · have passed := raiseIf_bind_neg raised error k s
    cases rest raised with
    | refused refused run => exact .refused refused (passed.trans run)
    | unpaid holds made ledger run => exact .unpaid holds made ledger (passed.trans run)
    | late holds paid late run => exact .late holds paid late (passed.trans run)
    | returned holds paid timely run => exact .returned holds paid timely (passed.trans run)

end Finishes

/-- The ledger is left as the call leaves it. -/
theorem Paid.unique {call : Option SettlementCall} {before l l' : SettlementLedger}
    (paid : Paid call before l) (paid' : Paid call before l') : l = l' := by
  cases call with
  | none => exact paid.trans paid'.symm
  | some c =>
    obtain ⟨events, ran⟩ := paid
    obtain ⟨events', ran'⟩ := paid'
    cases ran.symm.trans ran'
    rfl

/-- An operation that is admitted, with a call that returns and nothing that comes
late, returns with what the call leaves. -/
theorem Finishes.of_paid {α : Type} {x : PyEconomy α} {s : Economy} {admitted late : Prop} {call : Option SettlementCall}
    {done : MembershipManager} (finishes : Finishes x s admitted call late done) (holds : admitted)
    {l : SettlementLedger} (paid : Paid call s.ledger l) (timely : ¬ late) :
    ∃ a, x s = .ok a ((s.setLedger l).setManager done) := by
  cases finishes with
  | refused refused _ => exact absurd holds refused
  | unpaid _ made ledger _ =>
    rw [made] at paid
    obtain ⟨events, ran⟩ := paid
    cases ledger.symm.trans ran
  | late _ _ late _ => exact absurd late timely
  | returned _ paid' _ run =>
    cases paid'.unique paid
    exact ⟨_, run⟩

/-- An operation that is admitted, with a call that the ledger accepts and
nothing that comes late, returns. -/
theorem Finishes.ok {α : Type} {x : PyEconomy α} {s : Economy} {admitted late : Prop} {call : Option SettlementCall}
    {done : MembershipManager} (finishes : Finishes x s admitted call late done) (sound : s.ledger.Sound) (holds : admitted)
    (accepts : ∀ c, call = some c → c.Accepts s.ledger) (timely : ¬ late) :
    ∃ a l, Paid call s.ledger l ∧ x s = .ok a ((s.setLedger l).setManager done) := by
  have paid : ∃ l, Paid call s.ledger l := by
    cases call with
    | none => exact ⟨s.ledger, rfl⟩
    | some c =>
      obtain ⟨events, l, ran⟩ := (returns_iff sound c).mpr (accepts c rfl)
      exact ⟨l, events, ran⟩
  obtain ⟨l, paid⟩ := paid
  obtain ⟨a, run⟩ := finishes.of_paid holds paid timely
  exact ⟨a, l, paid, run⟩

/-- The program ends as the call does, whatever it returns or raises. -/
def Performs {β : Type} (y : PyLedger β) (call : SettlementCall) : Prop :=
  ∀ l, (∃ b events l', y l = .ok b l' ∧ call.run l = .ok events l') ∨
    ∃ e e' l', y l = .error e l' ∧ call.run l = .error e' l'

omit [Crypto] in
theorem performs_single {y : PyLedger SettlementEvent} (l : SettlementLedger) :
    (∃ b events l', y l = .ok b l' ∧ (([·]) <$> y) l = .ok events l') ∨
      ∃ e e' l', y l = .error e l' ∧ (([·]) <$> y) l = .error e' l' := by
  cases run : y l with
  | ok event t => exact Or.inl ⟨event, [event], t, rfl, single_ok run⟩
  | error e t => exact Or.inr ⟨e, e, t, rfl, single_error run⟩

theorem bond_performs (b : StakeBond) (epoch : Int) : Performs (SettlementLedger.bond b epoch) (.bond b epoch) :=
  performs_single

theorem requestUnbond_performs (bondId : String) (epoch delay : Int) :
    Performs (SettlementLedger.requestUnbond bondId epoch delay) (.requestUnbond bondId epoch delay) := performs_single

theorem withdraw_performs (bondId : String) (epoch : Int) (caught : EconomyError → Bool)
    (convert : EconomyError → EconomyError) :
    Performs (rethrow caught convert (SettlementLedger.withdraw bondId epoch)) (.withdraw bondId epoch) := by
  intro l
  rcases @performs_single (SettlementLedger.withdraw bondId epoch) l with ⟨b, events, l', run, same⟩ | ⟨e, e', l', run, same⟩
  · exact Or.inl ⟨b, events, l', rethrow_of_ok run, same⟩
  · exact Or.inr ⟨_, e', l', rethrow_of_error run, same⟩

theorem slash_performs (bondId : String) (amount epoch : Int) (evidenceId : String) :
    Performs (SettlementLedger.slash bondId amount epoch evidenceId none) (.slash bondId amount epoch evidenceId none) := by
  intro l
  cases run : SettlementLedger.slash bondId amount epoch evidenceId none l with
  | ok events t => exact Or.inl ⟨events, events, t, rfl, run⟩
  | error e t => exact Or.inr ⟨e, e, t, rfl, run⟩

namespace MembershipManager

/-- The call that an operation makes on the bond of a validator. -/
def bondCall (m : MembershipManager) (validatorId : String) (call : String → SettlementCall) : Option SettlementCall :=
  if m.settlement then (m.validatorBonds.get? validatorId).map call else none

/-- The validator has a bond, or no ledger asks for one. -/
def Backed (m : MembershipManager) (validatorId : String) : Prop :=
  m.settlement = true → m.validatorBonds.get? validatorId ≠ none

/-- The program goes on when the ledger is paid. -/
inductive Settles {β : Type} (x : PyEconomy β) (s : Economy) (call : Option SettlementCall) (k : PyEconomy β) : Prop
  | unpaid {c : SettlementCall} {e e' : EconomyError} {l : SettlementLedger} (made : call = some c)
      (ledger : c.run s.ledger = .error e l) (run : x s = .error e' (s.setLedger l))
  | paid {l : SettlementLedger} (paid : Paid call s.ledger l) (run : x s = k (s.setLedger l))

variable {α β : Type} {m : MembershipManager} {s : Economy}

theorem settle_settles {y : PyLedger α} {call : SettlementCall} (performs : Performs y call) (k : PyEconomy β) :
    Settles (m.settle y >>= fun _ => k) s (if m.settlement then some call else none) k := by
  by_cases backed : m.settlement = true
  · rw [if_pos backed]
    rcases performs s.ledger with ⟨b, events, l, run, same⟩ | ⟨e, e', l, run, same⟩
    · have settled : m.settle y s = .ok ⟨⟩ (s.setLedger l) := by
        rw [settle, if_pos backed]
        exact bind_of_ok (onPart_of_ok run)
      exact .paid ⟨events, same⟩ (bind_of_ok settled)
    · have settled : m.settle y s = .error e (s.setLedger l) := by
        rw [settle, if_pos backed]
        exact bind_of_error (onPart_of_error run)
      exact .unpaid rfl same (bind_of_error settled)
  · rw [if_neg backed]
    have settled : m.settle y s = .ok ⟨⟩ s := by
      rw [settle, if_neg backed]
      rfl
    exact .paid rfl (bind_of_ok settled)

theorem settleBond_settles {validatorId : String} {y : String → PyLedger α} {call : String → SettlementCall}
    (performs : ∀ bondId, Performs (y bondId) (call bondId)) (backed : m.Backed validatorId) (k : PyEconomy β) :
    Settles (m.settleBond validatorId y >>= fun _ => k) s (m.bondCall validatorId call) k := by
  cases held : m.validatorBonds.get? validatorId with
  | some bondId =>
    have same : m.settleBond validatorId y = m.settle (y bondId) := by simp only [settleBond, held]
    have calls : m.bondCall validatorId call = if m.settlement then some (call bondId) else none := by
      simp only [bondCall, held, Option.map_some]
    rw [same, calls]
    exact settle_settles (performs bondId) k
  | none =>
    have alone : ¬ m.settlement = true := fun settlement => backed settlement held
    have settled : m.settleBond validatorId y s = .ok ⟨⟩ s := by
      simp only [settleBond, held, if_neg alone]
      rfl
    rw [bondCall, if_neg alone]
    exact .paid rfl (bind_of_ok settled)

omit [Crypto] in
theorem settleBond_raises {validatorId : String} {y : String → PyLedger α} (bare : ¬ m.Backed validatorId) :
    ∃ e, m.settleBond validatorId y s = .error e s := by
  obtain ⟨settlement, none⟩ : m.settlement = true ∧ m.validatorBonds.get? validatorId = none := by
    simpa [Backed] using bare
  refine ⟨.membership "validator has no settlement bond", ?_⟩
  simp only [settleBond, none, settlement, if_true]
  rfl

/-- What `admit` checks of the bond before the ledger does. -/
structure BondFits (m : MembershipManager) (request : AdmissionRequest) (bond : StakeBond) : Prop where
  verified : bond.verify = true
  named : bond.bondId = expectedBond request
  key : bond.ownerPublicKey = request.publicKey
  amount : bond.amount = request.stake
  active : bond.activationEpoch ≤ m.epoch

structure Admissible (m : MembershipManager) (request : AdmissionRequest) (bond : Option StakeBond) : Prop where
  verified : request.verify = true
  stake : m.minimumStake ≤ request.stake
  fresh : m.epoch ≤ request.requestedEpoch
  bonded : m.settlement = true → bond ≠ none
  new : m.records.get? request.validatorId = none
  unused : request.depositId ∉ m.deposits
  fits : ∀ b ∈ bond, m.BondFits request b

def admissionCall (m : MembershipManager) (bond : Option StakeBond) : Option SettlementCall :=
  if m.settlement then bond.map fun b => .bond b m.epoch else none

def admitted (m : MembershipManager) (request : AdmissionRequest) (bond : Option StakeBond) : MembershipManager :=
  match bond with
  | some b => (m.addBond request.validatorId b).register request
  | none => m.register request

theorem Settles.finishes {x k : PyEconomy α} {call : Option SettlementCall} {admitted late : Prop}
    {done : MembershipManager} (settles : Settles x s call k) (holds : admitted)
    (raises : ∀ l, late → ∃ e, k (s.setLedger l) = .error e (s.setLedger l))
    (returns : ∀ l, ¬ late → ∃ a, k (s.setLedger l) = .ok a ((s.setLedger l).setManager done)) :
    Finishes x s admitted call late done := by
  cases settles with
  | unpaid made ledger run => exact .unpaid holds made ledger run
  | @paid l paid run =>
    by_cases behind : late
    · obtain ⟨e, raised⟩ := raises l behind
      exact .late holds paid behind (run.trans raised)
    · obtain ⟨a, returned⟩ := returns l behind
      exact .returned holds paid behind (run.trans returned)

theorem admit_finishes (s : Economy) (request : AdmissionRequest) (approverIds : List String) (bond : Option StakeBond) :
    Finishes (admitValidator request approverIds bond) s (s.manager.Admissible request bond) (s.manager.admissionCall bond) False
      (s.manager.admitted request bond) := by
  refine .read (.guard (fun bad able => ?_) fun verified => .guard (fun bad able => ?_) fun stake =>
    .guard (fun bad able => ?_) fun fresh => .guard (fun bad able => able.bonded bad.1 bad.2) fun bonded =>
    .guard (fun bad able => ?_) fun new => .guard (fun bad able => able.unused bad) fun unused => ?_)
  · rw [able.verified] at bad
    cases bad
  · exact absurd able.stake (by omega)
  · exact absurd able.fresh (by omega)
  · simp [Dict.contains, able.new] at bad
  have able : (∀ b ∈ bond, s.manager.BondFits request b) → s.manager.Admissible request bond := by
    intro fits
    exact ⟨by simpa using verified, by omega, by omega, fun settlement none => bonded ⟨settlement, none⟩,
      by simpa using new, unused, fits⟩
  cases bond with
  | none =>
    have calls : s.manager.admissionCall none = none := by
      unfold admissionCall
      split <;> rfl
    rw [calls]
    exact .returned (l := s.ledger) (able (by simp)) rfl id rfl
  | some b =>
    dsimp only
    simp only [lockBond, bind_assoc]
    refine .guard (fun bad able => ?_) fun verified' => .guard (fun bad able => bad (able.fits b rfl).named) fun named =>
      .guard (fun bad able => ?_) fun same => .guard (fun bad able => ?_) fun active => ?_
    · rw [(able.fits b rfl).verified] at bad
      cases bad
    · have fits := able.fits b rfl
      exact bad.elim (fun key => key fits.key) fun amount => amount fits.amount
    · exact absurd (able.fits b rfl).active (by omega)
    obtain ⟨key, amount⟩ := not_or.mp same
    have fits : s.manager.BondFits request b :=
      ⟨by simpa using verified', not_not.mp named, not_not.mp key, not_not.mp amount, by omega⟩
    have settles := @settle_settles _ _ _ s.manager s _ _ (bond_performs b s.manager.epoch) (do
      updateManager (·.addBond request.validatorId b)
      updateManager (·.register request)
      return s.manager.admissionCertificate request approverIds)
    refine settles.finishes (able fun _ here => ?_) (fun _ => False.elim) fun l _ => ⟨_, rfl⟩
    cases here
    exact fits

theorem exit_unknown {validatorId : String} (unknown : s.manager.records.get? validatorId = none) (epoch : Option Int) :
    ∃ e, exit validatorId epoch s = .error e s := by
  refine ⟨.membership "unknown validator", ?_⟩
  simp only [exit, bind_apply, get_apply, unknown, throw_apply]

structure Exitable (m : MembershipManager) (validatorId : String) (epoch : Option Int) : Prop where
  fresh : epoch.any (· < m.epoch) = false
  backed : m.Backed validatorId

def exited (m : MembershipManager) (validatorId : String) (record : ValidatorRecord) : MembershipManager :=
  (m.setRecord validatorId (m.exitedRecord record)).rebuilt

theorem exit_finishes {validatorId : String} {record : ValidatorRecord}
    (held : s.manager.records.get? validatorId = some record) (epoch : Option Int) :
    Finishes (exit validatorId epoch) s (s.manager.Exitable validatorId epoch)
      (s.manager.bondCall validatorId fun bondId => .requestUnbond bondId s.manager.epoch s.manager.withdrawalDelay) False
      (s.manager.exited validatorId record) := by
  refine .read ?_
  simp only [held]
  refine .guard (fun bad able => ?_) fun fresh => ?_
  · rw [able.fresh] at bad
    cases bad
  by_cases backed : s.manager.Backed validatorId
  · exact (settleBond_settles (fun bondId => requestUnbond_performs bondId _ _) backed _).finishes
      ⟨by simpa using fresh, backed⟩ (fun _ => False.elim) fun l _ => ⟨_, rfl⟩
  · obtain ⟨e, raised⟩ := settleBond_raises backed
    exact .refused (fun able => backed able.backed) (bind_of_error raised)

theorem withdraw_unknown {validatorId : String} (unknown : s.manager.records.get? validatorId = none)
    (currentEpoch : Option Int) : ∃ e, withdraw validatorId currentEpoch s = .error e s := by
  refine ⟨.membership "unknown validator", ?_⟩
  simp only [withdraw, bind_apply, get_apply, unknown, throw_apply]

/-- The manager keeps the validator in although the ledger has paid. -/
def Staying (record : ValidatorRecord) (epoch : Int) : Prop := record.active = true ∨ epoch < record.lockedUntilEpoch

theorem withdraw_finishes {validatorId : String} {record : ValidatorRecord}
    (held : s.manager.records.get? validatorId = some record) (currentEpoch : Option Int) :
    Finishes (withdraw validatorId currentEpoch) s (s.manager.Backed validatorId)
      (s.manager.bondCall validatorId fun bondId => .withdraw bondId (currentEpoch.getD s.manager.epoch))
      (Staying record (currentEpoch.getD s.manager.epoch)) (s.manager.dropValidator validatorId).rebuilt := by
  refine .read ?_
  simp only [held]
  by_cases backed : s.manager.Backed validatorId
  · refine (settleBond_settles (fun bondId => withdraw_performs bondId _ _ _) backed _).finishes backed
      (fun l staying => ?_) fun l gone => ?_
    · by_cases active : record.active = true
      · exact ⟨_, raiseIf_bind_pos active _ _ _⟩
      · exact ⟨_, (raiseIf_bind_neg active _ _ _).trans (raiseIf_bind_pos (staying.resolve_left active) _ _ _)⟩
    · obtain ⟨inactive, unlocked⟩ := not_or.mp gone
      exact ⟨_, (raiseIf_bind_neg inactive _ _ _).trans (raiseIf_bind_neg unlocked _ _ _)⟩
  · obtain ⟨e, raised⟩ := settleBond_raises backed
    exact .refused backed (bind_of_error raised)

theorem slash_unknown {evidence : SlashEvidence} (unknown : s.manager.records.get? evidence.offenderId = none)
    (penalty : Option Int) : ∃ e, slash evidence penalty s = .error e s := by
  by_cases forged : evidence.verify = false
  · exact ⟨_, raiseIf_bind_pos forged _ _ _⟩
  by_cases old : s.manager.slashHistory.contains evidence.evidenceId = true
  · exact ⟨_, (raiseIf_bind_neg forged _ _ _).trans (raiseIf_bind_pos old _ _ _)⟩
  · refine ⟨.membership "unknown slashing offender",
      (raiseIf_bind_neg forged _ _ _).trans ((raiseIf_bind_neg old _ _ _).trans ?_)⟩
    simp only [unknown]
    rfl

structure Punishable (m : MembershipManager) (evidence : SlashEvidence) : Prop where
  verified : evidence.verify = true
  new : m.slashHistory.get? evidence.evidenceId = none
  backed : m.Backed evidence.offenderId

/-- The evidence is of an epoch to come, or there is nothing to take. -/
def Untimely (m : MembershipManager) (evidence : SlashEvidence) (amount : Int) : Prop := m.epoch < evidence.epoch ∨ amount ≤ 0

def punished (m : MembershipManager) (evidence : SlashEvidence) (record : ValidatorRecord) (amount : Int) :
    MembershipManager := ((m.setRecord evidence.offenderId (slashedRecord record amount)).addSlash evidence).rebuilt

theorem slash_finishes {evidence : SlashEvidence} {record : ValidatorRecord}
    (held : s.manager.records.get? evidence.offenderId = some record) (penalty : Option Int) :
    Finishes (slash evidence penalty) s (s.manager.Punishable evidence)
      (s.manager.bondCall evidence.offenderId fun bondId =>
        .slash bondId (penalty.getD record.stake) evidence.epoch evidence.evidenceId none)
      (s.manager.Untimely evidence (penalty.getD record.stake))
      (s.manager.punished evidence record (penalty.getD record.stake)) := by
  refine .read (.guard (fun bad able => ?_) fun verified => .guard (fun bad able => ?_) fun new => ?_)
  · rw [able.verified] at bad
    cases bad
  · simp [Dict.contains, able.new] at bad
  simp only [held]
  by_cases backed : s.manager.Backed evidence.offenderId
  · refine (settleBond_settles (fun bondId => slash_performs bondId _ _ _) backed _).finishes
      ⟨by simpa using verified, by simpa using new, backed⟩ (fun l late => ?_) fun l timely => ?_
    · by_cases future : s.manager.epoch < evidence.epoch
      · exact ⟨_, raiseIf_bind_pos future _ _ _⟩
      · exact ⟨_, (raiseIf_bind_neg future _ _ _).trans (raiseIf_bind_pos (late.resolve_left future) _ _ _)⟩
    · obtain ⟨past, positive⟩ := not_or.mp timely
      exact ⟨_, (raiseIf_bind_neg past _ _ _).trans (raiseIf_bind_neg positive _ _ _)⟩
  · obtain ⟨e, raised⟩ := settleBond_raises backed
    exact .refused (fun able => backed able.backed) (bind_of_error raised)

end MembershipManager

/-- The coordinator is bound to a store that takes its rows. -/
structure Economy.Durable (s : Economy) : Prop where
  bound : s.onboardingBound = true
  ledger : s.store.refusal "settlement_state" = none
  admission : s.store.refusal "onboarding" = none

/-- What the coordinator checks before it asks the manager. -/
structure Onboardable (s : Economy) (request : AdmissionRequest) (bond : StakeBond) : Prop where
  verified : request.verify = true
  verifiedBond : bond.verify = true
  named : request.bondId = some bond.bondId
  key : request.publicKey = bond.ownerPublicKey
  stake : request.stake = bond.amount
  enough : bond.amount ≤ s.ledger.balanceOf bond.owner

namespace AdmissionCoordinator

omit [Crypto] in
theorem put_takes {store : EconomyStore} {kind objectKey : String} {payload : EconomyRow} (takes : store.refusal kind = none) :
    EconomyStore.put kind objectKey payload store =
      .ok ⟨⟩ { store with rows := store.rows.set (kind, objectKey) payload } := by
  simp only [EconomyStore.put, bind_apply, get_apply, takes, modify_apply]

omit [Crypto] in
theorem put_refuses {store : EconomyStore} {kind objectKey message : String} {payload : EconomyRow}
    (refuses : store.refusal kind = some message) :
    EconomyStore.put kind objectKey payload store = .error (.storage message) store := by
  simp only [EconomyStore.put, bind_apply, get_apply, refuses, throw_apply]

omit [Crypto] in
theorem put_ok {store store' : EconomyStore} {kind objectKey : String} {payload : EconomyRow}
    (put : EconomyStore.put kind objectKey payload store = .ok ⟨⟩ store') :
    store' = { store with rows := store.rows.set (kind, objectKey) payload } := by
  cases refusal : store.refusal kind with
  | none =>
    rw [put_takes refusal] at put
    cases put
    rfl
  | some message =>
    rw [put_refuses refusal] at put
    cases put

/-- The row of the ledger and another one after it. -/
theorem persist_put_cases (t : Economy) (kind objectKey : String) (payload : EconomyRow) :
    (t.store.refusal "settlement_state" = none ∧ t.store.refusal kind = none ∧ ∃ store,
      (persist >>= fun _ => onStore (EconomyStore.put kind objectKey payload)) t = .ok ⟨⟩ (t.setStore store)) ∨
    (¬ (t.store.refusal "settlement_state" = none ∧ t.store.refusal kind = none) ∧ ∃ e store,
      (persist >>= fun _ => onStore (EconomyStore.put kind objectKey payload)) t = .error e (t.setStore store)) := by
  cases first : t.store.refusal "settlement_state" with
  | some message =>
    have raised : persist t = .error (.storage message) (t.setStore t.store) := onPart_of_error (put_refuses first)
    exact Or.inr ⟨fun both => Option.some_ne_none message both.1, _, _, bind_of_error raised⟩
  | none =>
    have persisted : persist t = .ok ⟨⟩ (t.setStore { t.store with
        rows := t.store.rows.set ("settlement_state", "ledger") (.settlementState t.ledger t.ledger.stateRoot) }) :=
      onPart_of_ok (put_takes first)
    rw [bind_of_ok persisted]
    cases second : t.store.refusal kind with
    | some message =>
      exact Or.inr ⟨fun both => Option.some_ne_none message both.2, _, _, onPart_of_error (put_refuses second)⟩
    | none => exact Or.inl ⟨rfl, rfl, _, onPart_of_ok (put_takes second)⟩

/-- The rows are written after the ledger and the manager have changed. -/
theorem record_cases (t : Economy) (request : AdmissionRequest) (bond : StakeBond) (certificate : AdmissionCertificate) :
    (t.Durable ∧ ∃ u, record request bond certificate t = .ok ⟨⟩ u ∧ u.ledger = t.ledger ∧ u.manager = t.manager) ∨
      (¬ t.Durable ∧ ∃ e u, record request bond certificate t = .error e u ∧ u.ledger = t.ledger ∧
        u.manager = t.manager) := by
  by_cases unbound : t.onboardingBound = false
  · refine Or.inr ⟨fun durable => ?_, _, t, raiseIf_bind_pos unbound _ _ _, rfl, rfl⟩
    rw [durable.bound] at unbound
    cases unbound
  have start : record request bond certificate t = (persist >>= fun _ =>
      onStore (EconomyStore.put "onboarding" certificate.certificateId
        (.onboarding request bond certificate t.ledger.stateRoot t.manager.snapshot.root))) t :=
    raiseIf_bind_neg unbound _ _ _
  rcases persist_put_cases t "onboarding" certificate.certificateId
    (.onboarding request bond certificate t.ledger.stateRoot t.manager.snapshot.root) with
    ⟨ledger, admission, store, run⟩ | ⟨refused, e, store, run⟩
  · exact Or.inl ⟨⟨by simpa using unbound, ledger, admission⟩, _, start.trans run, rfl, rfl⟩
  · exact Or.inr ⟨fun durable => refused ⟨durable.ledger, durable.admission⟩, e, _, start.trans run, rfl, rfl⟩

inductive Onboards (s : Economy) (request : AdmissionRequest) (bond : StakeBond) (approverIds : List String) : Prop
  | refused {e : EconomyError} (refused : ¬ Onboardable s request bond)
      (run : admitValidator request bond approverIds s = .error e s)
  | rejected {e e' : EconomyError} {t : Economy} (able : Onboardable s request bond)
      (rejected : MembershipManager.admitValidator request approverIds (some bond) s = .error e t)
      (run : admitValidator request bond approverIds s = .error e' t)
  | unrecorded {e : EconomyError} {certificate : AdmissionCertificate} {t u : Economy} (able : Onboardable s request bond)
      (admitted : MembershipManager.admitValidator request approverIds (some bond) s = .ok certificate t) (volatile : ¬ t.Durable)
      (ledger : u.ledger = t.ledger) (manager : u.manager = t.manager)
      (run : admitValidator request bond approverIds s = .error e u)
  | returned {certificate : AdmissionCertificate} {t u : Economy} (able : Onboardable s request bond)
      (admitted : MembershipManager.admitValidator request approverIds (some bond) s = .ok certificate t) (durable : t.Durable)
      (ledger : u.ledger = t.ledger) (manager : u.manager = t.manager)
      (run : admitValidator request bond approverIds s = .ok certificate u)

theorem admit_onboards (s : Economy) (request : AdmissionRequest) (bond : StakeBond) (approverIds : List String) :
    Onboards s request bond approverIds := by
  by_cases forged : request.verify = false
  · refine .refused (fun able => ?_) (raiseIf_bind_pos forged _ _ _)
    rw [able.verified] at forged
    cases forged
  by_cases forged' : bond.verify = false
  · refine .refused (fun able => ?_) ((raiseIf_bind_neg forged _ _ _).trans (raiseIf_bind_pos forged' _ _ _))
    rw [able.verifiedBond] at forged'
    cases forged'
  by_cases other : request.bondId ≠ some bond.bondId
  · exact .refused (fun able => other able.named) ((raiseIf_bind_neg forged _ _ _).trans
      ((raiseIf_bind_neg forged' _ _ _).trans (raiseIf_bind_pos other _ _ _)))
  by_cases mismatch : request.publicKey ≠ bond.ownerPublicKey ∨ request.stake ≠ bond.amount
  · refine .refused (fun able => mismatch.elim (fun key => key able.key) fun stake => stake able.stake)
      ((raiseIf_bind_neg forged _ _ _).trans ((raiseIf_bind_neg forged' _ _ _).trans
        ((raiseIf_bind_neg other _ _ _).trans (raiseIf_bind_pos mismatch _ _ _))))
  by_cases poor : s.ledger.balanceOf bond.owner < bond.amount
  · refine .refused (fun able => absurd able.enough (by omega)) ((raiseIf_bind_neg forged _ _ _).trans
      ((raiseIf_bind_neg forged' _ _ _).trans ((raiseIf_bind_neg other _ _ _).trans
        ((raiseIf_bind_neg mismatch _ _ _).trans (raiseIf_bind_pos poor _ _ _)))))
  obtain ⟨key, stake⟩ := not_or.mp mismatch
  have able : Onboardable s request bond := ⟨by simpa using forged, by simpa using forged', not_not.mp other,
    not_not.mp key, not_not.mp stake, by omega⟩
  have start : admitValidator request bond approverIds s =
      (rethrow (fun e => e.isMembership || e.isSettlement) onboardingError
        (MembershipManager.admitValidator request approverIds (some bond)) >>= fun certificate => do
          record request bond certificate
          return certificate) s :=
    (raiseIf_bind_neg forged _ _ _).trans ((raiseIf_bind_neg forged' _ _ _).trans ((raiseIf_bind_neg other _ _ _).trans
      ((raiseIf_bind_neg mismatch _ _ _).trans (raiseIf_bind_neg poor _ _ _))))
  cases ran : MembershipManager.admitValidator request approverIds (some bond) s with
  | error e t => exact .rejected able ran (start.trans (bind_of_error (rethrow_of_error ran)))
  | ok certificate t =>
    rw [bind_of_ok (rethrow_of_ok ran)] at start
    rcases record_cases t request bond certificate with ⟨durable, u, recorded, ledger, manager⟩ |
      ⟨volatile, e, u, raised, ledger, manager⟩
    · exact .returned able ran durable ledger manager (start.trans (bind_of_ok recorded))
    · exact .unrecorded able ran volatile ledger manager (start.trans (bind_of_error raised))

variable {s t : Economy} {request : AdmissionRequest} {bond : StakeBond} {approverIds : List String}
  {certificate : AdmissionCertificate}

/-- An onboarding that returns has admitted and then recorded. -/
theorem admit_ok (ran : admitValidator request bond approverIds s = .ok certificate t) :
    ∃ u, MembershipManager.admitValidator request approverIds (some bond) s = .ok certificate u ∧
      record request bond certificate u = .ok ⟨⟩ t := by
  unfold admitValidator at ran
  rw [get_bind_apply] at ran
  obtain ⟨-, ran⟩ := raiseIf_bind_eq_ok ran
  obtain ⟨-, ran⟩ := raiseIf_bind_eq_ok ran
  obtain ⟨-, ran⟩ := raiseIf_bind_eq_ok ran
  obtain ⟨-, ran⟩ := raiseIf_bind_eq_ok ran
  obtain ⟨-, ran⟩ := raiseIf_bind_eq_ok ran
  obtain ⟨certificate', u, admitted, ran⟩ := bind_eq_ok.mp ran
  obtain ⟨⟨⟩, v, recorded, ran⟩ := bind_eq_ok.mp ran
  cases ran
  exact ⟨u, rethrow_eq_ok.mp admitted, recorded⟩

theorem record_ok (ran : record request bond certificate s = .ok ⟨⟩ t) :
    t.manager = s.manager ∧ t.ledger = s.ledger ∧ t.onboardingBound = s.onboardingBound ∧ t.store = { s.store with
      rows := (s.store.rows.set ("settlement_state", "ledger") (.settlementState s.ledger s.ledger.stateRoot)).set
        ("onboarding", certificate.certificateId)
        (.onboarding request bond certificate s.ledger.stateRoot s.manager.snapshot.root) } := by
  unfold record at ran
  rw [get_bind_apply] at ran
  obtain ⟨-, ran⟩ := raiseIf_bind_eq_ok ran
  obtain ⟨⟨⟩, u, persisted, ran⟩ := bind_eq_ok.mp ran
  obtain ⟨store, first, rfl⟩ := onPart_eq_ok.mp persisted
  obtain ⟨store', second, rfl⟩ := onPart_eq_ok.mp ran
  refine ⟨rfl, rfl, rfl, ?_⟩
  rw [setStore_store, put_ok second, setStore_store, put_ok first]

end AdmissionCoordinator

theorem MembershipManager.admit_ok {s t : Economy} {request : AdmissionRequest} {approverIds : List String}
    {bond : Option StakeBond} {certificate : AdmissionCertificate} (ran : admitValidator request approverIds bond s = .ok certificate t) :
    s.manager.Admissible request bond ∧ t.manager = s.manager.admitted request bond ∧ t.store = s.store ∧
      certificate = s.manager.admissionCertificate request approverIds := by
  have named : certificate = s.manager.admissionCertificate request approverIds := by
    unfold admitValidator at ran
    rw [get_bind_apply] at ran
    obtain ⟨-, ran⟩ := raiseIf_bind_eq_ok ran
    obtain ⟨-, ran⟩ := raiseIf_bind_eq_ok ran
    obtain ⟨-, ran⟩ := raiseIf_bind_eq_ok ran
    obtain ⟨-, ran⟩ := raiseIf_bind_eq_ok ran
    obtain ⟨-, ran⟩ := raiseIf_bind_eq_ok ran
    obtain ⟨-, ran⟩ := raiseIf_bind_eq_ok ran
    cases bond with
    | none =>
      cases ran
      rfl
    | some b =>
      obtain ⟨⟨⟩, u, -, ran⟩ := bind_eq_ok.mp ran
      cases ran
      rfl
  cases admit_finishes s request approverIds bond with
  | refused _ run => cases run.symm.trans ran
  | unpaid _ _ _ run => cases run.symm.trans ran
  | late _ _ late _ => exact late.elim
  | returned holds _ _ run =>
    cases run.symm.trans ran
    exact ⟨holds, rfl, rfl, named⟩

end Mosaic
