import Mosaic.EconomyRuns

namespace Mosaic
open CanonicalJson Effects Economy MembershipManager

/-- The bond that a call hands to the ledger. -/
def EconomyCall.carried : EconomyCall → Option StakeBond
  | ledger (.bond b _) => some b
  | admitValidator _ _ bond => bond
  | onboard _ bond _ => some bond
  | _ => none

variable [Crypto] {s t : Economy}

/-- In every run, an account that pays for the bond is its owner, and it is the
identity of the key that signed. -/
def StakeBond.PaidByOwner (bond : StakeBond) : Prop :=
  ∀ s, EconomyCall.Reached s → ∀ call : EconomyCall, call.carried = some bond → ∀ account,
    (call.exec s).ledger.balanceOf account < s.ledger.balanceOf account →
      identityFromPublicKey bond.ownerPublicKey = account ∧ account = bond.owner

/-- A bond that passes the checks of the ledger is taken from its owner, also
where its event was recorded before. -/
theorem bond_exec (l : SettlementLedger) (b : StakeBond) (epoch : Int) :
    (l.Bondable b epoch ∧ ∀ account, ((SettlementCall.bond b epoch).exec l).balanceOf account =
        l.balanceOf account + if b.owner = account then -b.amount else 0) ∨
      (¬ l.Bondable b epoch ∧ (SettlementCall.bond b epoch).exec l = l) := by
  have balance : ∀ account, (l.bonded b).balanceOf account =
      l.balanceOf account + if b.owner = account then -b.amount else 0 := fun account =>
    SettlementLedger.balanceOf_credited l b.owner account (-b.amount)
  cases SettlementLedger.bond_concludes l b epoch with
  | refused refused run => exact Or.inr ⟨refused, final_of_error (single_error run)⟩
  | stopped able _ run =>
    have ends : (SettlementCall.bond b epoch).exec l = l.bonded b := final_of_error (single_error run)
    exact Or.inl ⟨able, ends ▸ balance⟩
  | returned able _ run =>
    have ends : (SettlementCall.bond b epoch).exec l = (l.bonded b).addEvent (l.bondEvent b epoch) :=
      final_of_ok (single_ok run)
    exact Or.inl ⟨able, ends ▸ balance⟩

/-- An operation has made its call of the ledger, or it has left it alone. -/
theorem Finishes.ledger {α : Type} {x : PyEconomy α} {admitted late : Prop} {call : Option SettlementCall}
    {done : MembershipManager} (finishes : Finishes x s admitted call late done) :
    (final x s).ledger = s.ledger ∨ ∃ c, call = some c ∧ (final x s).ledger = c.exec s.ledger := by
  have paid : ∀ {l}, Paid call s.ledger l → l = s.ledger ∨ ∃ c, call = some c ∧ l = c.exec s.ledger := by
    intro l paid
    cases call with
    | none => exact Or.inl paid
    | some c =>
      obtain ⟨events, ran⟩ := paid
      exact Or.inr ⟨c, rfl, (final_of_ok ran).symm⟩
  cases finishes with
  | refused _ run =>
    rw [final_of_error run]
    exact Or.inl rfl
  | unpaid _ made ledger run =>
    rw [final_of_error run]
    exact Or.inr ⟨_, made, (final_of_error ledger).symm⟩
  | late _ settled _ run =>
    rw [final_of_error run]
    exact paid settled
  | returned _ settled _ run =>
    rw [final_of_ok run]
    exact paid settled

theorem admit_ledger (s : Economy) (request : AdmissionRequest) (approverIds : List String) (bond : Option StakeBond) :
    (final (admitValidator request approverIds bond) s).ledger = s.ledger ∨ ∃ b, bond = some b ∧
      (final (admitValidator request approverIds bond) s).ledger = (SettlementCall.bond b s.manager.epoch).exec s.ledger := by
  rcases (admit_finishes s request approverIds bond).ledger with same | ⟨c, made, ledger⟩
  · exact Or.inl same
  · unfold admissionCall at made
    split at made
    · obtain ⟨b, rfl, rfl⟩ := Option.map_eq_some_iff.mp made
      exact Or.inr ⟨b, rfl, ledger⟩
    · cases made

theorem ledger_exec (call : SettlementCall) (s : Economy) :
    (EconomyCall.ledger call).exec s = s.setLedger (call.exec s.ledger) :=
  (final_discard _ s).trans (final_onPart _ _ _ s)

/-- A call that carries a bond leaves the ledger alone or hands it the bond. -/
theorem carried_ledger {call : EconomyCall} {b : StakeBond} (carries : call.carried = some b) :
    (call.exec s).ledger = s.ledger ∨ ∃ epoch, (call.exec s).ledger = (SettlementCall.bond b epoch).exec s.ledger := by
  cases call with
  | ledger call =>
    cases call with
    | bond b' epoch =>
      cases carries
      refine Or.inr ⟨epoch, ?_⟩
      rw [ledger_exec, setLedger_ledger]
    | _ => cases carries
  | admitValidator request approverIds bond =>
    have whole : (EconomyCall.admitValidator request approverIds bond).exec s = _ := final_discard _ s
    rw [whole]
    rcases admit_ledger s request approverIds bond with same | ⟨b', made, ledger⟩
    · exact Or.inl same
    · cases made.symm.trans carries
      exact Or.inr ⟨_, ledger⟩
  | onboard request bond approverIds =>
    cases carries
    have whole : (EconomyCall.onboard request b approverIds).exec s = _ := final_discard _ s
    rw [whole]
    have admission := admit_ledger s request approverIds (some b)
    have handed : ∀ {t}, final (admitValidator request approverIds (some b)) s = t → t.ledger = s.ledger ∨
        ∃ epoch, t.ledger = (SettlementCall.bond b epoch).exec s.ledger := by
      rintro t rfl
      rcases admission with same | ⟨b', made, ledger⟩
      · exact Or.inl same
      · cases made
        exact Or.inr ⟨_, ledger⟩
    cases AdmissionCoordinator.admit_onboards s request b approverIds with
    | refused _ run =>
      rw [final_of_error run]
      exact Or.inl rfl
    | rejected _ rejected run =>
      rw [final_of_error run]
      exact handed (final_of_error rejected)
    | unrecorded _ admitted _ ledger _ run =>
      rw [final_of_error run, ledger]
      exact handed (final_of_ok admitted)
    | returned _ admitted _ ledger _ run =>
      rw [final_of_ok run, ledger]
      exact handed (final_of_ok admitted)
  | _ => cases carries

/-- A bond that verifies, of an asset and an owner with names, is taken from its
owner in some run, whoever signed it. -/
theorem bond_debits_some_run {b : StakeBond} (verified : b.verify = true) (asset : b.asset ≠ "") (owner : b.owner ≠ "") :
    ∃ s, EconomyCall.Reached s ∧
      ((EconomyCall.ledger (.bond b b.activationEpoch)).exec s).ledger.balanceOf b.owner < s.ledger.balanceOf b.owner := by
  have config : ∃ config : LedgerConfig, config.asset = b.asset :=
    ⟨⟨b.asset, "mosaic:treasury", 1000, asset, by decide, by decide⟩, rfl⟩
  obtain ⟨config, named⟩ := config
  have positive := SettlementLedger.amount_pos_of_verify verified
  have able : SettlementLedger.Fundable b.owner b.amount := ⟨positive, owner⟩
  have reached : EconomyCall.Reached
      ((Economy.fresh config stakedConfig {} false).setLedger (fundedLedger config b.owner b.amount)) := by
    refine ⟨config, stakedConfig, {}, false, ?_⟩
    have funded := ledger_exec (.fund b.owner b.amount 0 (some "source")) (.fresh config stakedConfig {} false)
    have ran : (SettlementCall.fund b.owner b.amount 0 (some "source")).exec (.fresh config) =
        fundedLedger config b.owner b.amount := final_of_ok (fundedLedger_run able)
    rw [← ran]
    exact funded ▸ .tail .refl trivial
  have bondable : (fundedLedger config b.owner b.amount).Bondable b b.activationEpoch :=
    ⟨verified, named.symm, le_rfl, rfl, fundedLedger_balance.ge⟩
  refine ⟨_, reached, ?_⟩
  rw [ledger_exec, setLedger_ledger, setLedger_ledger]
  rcases bond_exec (fundedLedger config b.owner b.amount) b b.activationEpoch with ⟨-, balance⟩ | ⟨refused, -⟩
  · rw [balance, if_pos rfl]
    omega
  · exact absurd bondable refused

/-- Only its owner pays for a bond, in every run, exactly when a bond that
verifies names as its owner the identity of the key that signed it. -/
theorem paid_by_owner_iff (bond : StakeBond) : bond.PaidByOwner ↔
    (bond.verify = true → bond.asset ≠ "" → bond.owner ≠ "" →
      identityFromPublicKey bond.ownerPublicKey = bond.owner) := by
  constructor
  · intro paid verified asset owner
    obtain ⟨s, reached, poorer⟩ := bond_debits_some_run verified asset owner
    exact (paid s reached _ rfl bond.owner poorer).1
  · intro signed s reached call carries account poorer
    rcases carried_ledger carries with same | ⟨epoch, ledger⟩
    · rw [same] at poorer
      exact absurd poorer (lt_irrefl _)
    · rw [ledger] at poorer
      obtain ⟨able, rfl⟩ : s.ledger.Bondable bond epoch ∧ bond.owner = account := by
        rcases bond_exec s.ledger bond epoch with ⟨able, balance⟩ | ⟨-, same⟩
        · refine ⟨able, ?_⟩
          by_contra other
          rw [balance, if_neg other] at poorer
          omega
        · rw [same] at poorer
          exact absurd poorer (lt_irrefl _)
      have positive := SettlementLedger.amount_pos_of_verify able.verified
      have owner : bond.owner ≠ "" := by
        refine reached.sound.account ?_
        have := able.enough
        omega
      have asset : bond.asset ≠ "" := able.asset ▸ s.ledger.assetNamed
      exact ⟨signed able.verified asset owner, rfl⟩

/-- A bond over the money of another account. -/
def stolenBond (pair : KeyPair) : StakeBond :=
  let unsigned : StakeBond := {
    bondId := "b"
    owner := "victim"
    ownerPublicKey := pair.publicKey
    amount := 10
    asset := "MOSAIC"
    activationEpoch := 0
    unlockEpoch := 0
    ownerSignature := [] }
  { unsigned with ownerSignature := pair.sign (canonicalBytes unsigned.statement) }

theorem stolenBond_verify (verifies : SignaturesVerify) (pair : KeyPair) : (stolenBond pair).verify = true := by
  have signed := verifies pair.privateKey (canonicalBytes (stolenBond pair).statement)
  have amount : (stolenBond pair).amount = 10 := rfl
  have activation : (stolenBond pair).activationEpoch = 0 := rfl
  have unlock : (stolenBond pair).unlockEpoch = 0 := rfl
  simp only [StakeBond.verify, Bool.and_eq_true, decide_eq_true_eq, amount, activation, unlock]
  exact ⟨⟨⟨by omega, le_rfl⟩, le_rfl⟩, signed⟩

omit [Crypto] in
theorem victim_pays : let _ := Crypto.ideal
    ∃ s, EconomyCall.Reached s ∧ ∃ (b : StakeBond) (epoch : Int), b.owner = "victim" ∧
      identityFromPublicKey b.ownerPublicKey ≠ "victim" ∧
      ((EconomyCall.ledger (.bond b epoch)).exec s).ledger.balanceOf "victim" < s.ledger.balanceOf "victim" := by
  intro _
  have asset : (stolenBond idealKey).asset = "MOSAIC" := rfl
  have owner : (stolenBond idealKey).owner = "victim" := rfl
  have key : (stolenBond idealKey).ownerPublicKey = [1] := rfl
  obtain ⟨s, reached, poorer⟩ := bond_debits_some_run (stolenBond_verify ideal_signaturesVerify idealKey)
    (by rw [asset]; decide) (by rw [owner]; decide)
  refine ⟨s, reached, stolenBond idealKey, _, owner, ?_, owner ▸ poorer⟩
  rw [key]
  decide

end Mosaic
