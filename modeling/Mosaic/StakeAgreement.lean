import Mosaic.EconomyRuns

namespace Mosaic
open CanonicalJson Effects Economy MembershipManager

/-- Every validator has a bond of its own that holds its stake. -/
structure Economy.Agrees (s : Economy) : Prop where
  keyed : ∀ v record, s.manager.records.get? v = some record → record.validatorId = v
  bonded : ∀ v record, s.manager.records.get? v = some record → ∃ bondId found,
    s.manager.validatorBonds.get? v = some bondId ∧ s.ledger.bonds.get? bondId = some found ∧ found.amount = record.stake
  registered : ∀ v bondId, s.manager.validatorBonds.get? v = some bondId → s.manager.records.get? v ≠ none
  distinct : ∀ v w bondId, s.manager.validatorBonds.get? v = some bondId → s.manager.validatorBonds.get? w = some bondId →
    v = w

/-- The active flags of the two agree too, and the jailed are not active. -/
def Economy.Aligned (s : Economy) : Prop :=
  ∀ v record bondId found, s.manager.records.get? v = some record → s.manager.validatorBonds.get? v = some bondId →
    s.ledger.bonds.get? bondId = some found →
      found.active = record.active ∧ (record.jailed = true → record.active = false)

/-- What one step does to records and bonds. `fair` is what a step needs to
keep the flags together. -/
inductive StakeStep (fair : Prop) (s t : Economy) : Prop
  | kept (records : t.manager.records = s.manager.records) (names : t.manager.validatorBonds = s.manager.validatorBonds)
      (bonds : ∀ v bondId, s.manager.validatorBonds.get? v = some bondId →
        t.ledger.bonds.get? bondId = s.ledger.bonds.get? bondId)
  | admitted {v bondId : String} {record : ValidatorRecord} {found : BondPosition}
      (new : s.manager.records.get? v = none) (free : s.ledger.bonds.get? bondId = none)
      (records : t.manager.records = s.manager.records.set v record)
      (names : t.manager.validatorBonds = s.manager.validatorBonds.set v bondId)
      (bonds : t.ledger.bonds = s.ledger.bonds.set bondId found) (keyed : record.validatorId = v)
      (stake : found.amount = record.stake) (active : found.active = true ∧ record.active = true)
      (free' : record.jailed = false)
  | changed {v bondId : String} {record record' : ValidatorRecord} {found found' : BondPosition}
      (held : s.manager.records.get? v = some record) (named : s.manager.validatorBonds.get? v = some bondId)
      (position : s.ledger.bonds.get? bondId = some found)
      (records : t.manager.records = s.manager.records.set v record')
      (names : t.manager.validatorBonds = s.manager.validatorBonds)
      (bonds : t.ledger.bonds = s.ledger.bonds.set bondId found') (keyed : record'.validatorId = record.validatorId)
      (stake : found.amount = record.stake → found'.amount = record'.stake)
      (flags : fair → found.amount = record.stake → found.active = record.active →
        (record.jailed = true → record.active = false) →
          found'.active = record'.active ∧ (record'.jailed = true → record'.active = false))
  | withdrawn {v bondId : String} (named : s.manager.validatorBonds.get? v = some bondId)
      (records : t.manager.records = s.manager.records.erase v)
      (names : t.manager.validatorBonds = s.manager.validatorBonds.erase v)
      (bonds : t.ledger.bonds = s.ledger.bonds.erase bondId)

namespace Economy

variable {fair : Prop} {s t : Economy}

theorem Agrees.step (agrees : s.Agrees) (step : StakeStep fair s t) : t.Agrees := by
  cases step with
  | kept records names bonds =>
    refine ⟨?_, ?_, ?_, ?_⟩
    · rw [records]
      exact agrees.keyed
    · rw [records, names]
      intro v record held
      obtain ⟨bondId, found, named, position, stake⟩ := agrees.bonded v record held
      exact ⟨bondId, found, named, (bonds v bondId named).trans position, stake⟩
    · rw [records, names]
      exact agrees.registered
    · rw [names]
      exact agrees.distinct
  | @admitted v bondId record found new free records names bonds keyed stake =>
    -- the bond of another validator is in the ledger, so it is not the new one
    have apart : ∀ w other, s.manager.validatorBonds.get? w = some other → bondId ≠ other := by
      rintro w other named rfl
      obtain ⟨old, held⟩ := Option.ne_none_iff_exists'.mp (agrees.registered w bondId named)
      obtain ⟨_, position, named', there, -⟩ := agrees.bonded w old held
      cases named.symm.trans named'
      cases free.symm.trans there
    refine ⟨fun w found held => ?_, fun w found held => ?_, fun w other named => ?_, fun w x other first second => ?_⟩
    · rw [records, Dict.get?_set] at held
      split at held
      · rename_i here
        cases held
        exact keyed.trans here
      · exact agrees.keyed w found held
    · rw [names, bonds]
      rw [records, Dict.get?_set] at held
      by_cases here : v = w
      · rw [if_pos here] at held
        cases held
        exact ⟨bondId, _, by rw [Dict.get?_set, if_pos here], Dict.get?_set_self _ _ _, stake⟩
      · rw [if_neg here] at held
        obtain ⟨other, position, named, there, same⟩ := agrees.bonded w found held
        refine ⟨other, position, by rw [Dict.get?_set, if_neg here, named], ?_, same⟩
        rw [Dict.get?_set_of_ne _ _ (apart w other named), there]
    · rw [names, Dict.get?_set] at named
      rw [records, Dict.get?_set]
      split
      · exact Option.some_ne_none _
      · rename_i elsewhere
        rw [if_neg elsewhere] at named
        exact agrees.registered w other named
    · rw [names, Dict.get?_set] at first second
      split at first <;> split at second
      · exact (‹v = w›).symm.trans ‹v = x›
      · cases first
        exact absurd rfl (apart x bondId second)
      · cases second
        exact absurd rfl (apart w bondId first)
      · exact agrees.distinct w x other first second
  | @changed v bondId record record' found found' held named position records names bonds keyed stake =>
    obtain ⟨_, _, named', position', same⟩ := agrees.bonded v record held
    cases named.symm.trans named'
    cases position.symm.trans position'
    refine ⟨fun w other held' => ?_, fun w other held' => ?_, fun w other named' => ?_, by rw [names]; exact agrees.distinct⟩
    · rw [records, Dict.get?_set] at held'
      split at held'
      · rename_i here
        cases held'
        exact keyed.trans ((agrees.keyed v record held).trans here)
      · exact agrees.keyed w other held'
    · rw [names, bonds]
      rw [records, Dict.get?_set] at held'
      by_cases here : v = w
      · rw [if_pos here] at held'
        cases held'
        exact ⟨bondId, _, here ▸ named, Dict.get?_set_self _ _ _, stake same⟩
      · rw [if_neg here] at held'
        obtain ⟨other', position', named', there, same'⟩ := agrees.bonded w other held'
        have apart : bondId ≠ other' := by
          rintro rfl
          exact here (agrees.distinct v w bondId named named')
        exact ⟨other', position', named', (Dict.get?_set_of_ne _ _ apart).trans there, same'⟩
    · rw [names] at named'
      rw [records, Dict.get?_set]
      split
      · exact Option.some_ne_none _
      · exact agrees.registered w other named'
  | @withdrawn v bondId named records names bonds =>
    have others : ∀ {w record}, t.manager.records.get? w = some record → v ≠ w ∧ s.manager.records.get? w = some record := by
      intro w record held
      rw [records, Dict.get?_erase] at held
      split at held
      · cases held
      · exact ⟨‹_›, held⟩
    have named_others : ∀ {w other}, t.manager.validatorBonds.get? w = some other →
        v ≠ w ∧ s.manager.validatorBonds.get? w = some other := by
      intro w other named
      rw [names, Dict.get?_erase] at named
      split at named
      · cases named
      · exact ⟨‹_›, named⟩
    refine ⟨fun w record held => agrees.keyed w record (others held).2, fun w record held => ?_, fun w other named' => ?_,
      fun w x other first second => agrees.distinct w x other (named_others first).2 (named_others second).2⟩
    · obtain ⟨elsewhere, old⟩ := others held
      obtain ⟨other, found, named', position, same⟩ := agrees.bonded w record old
      have apart : bondId ≠ other := by
        rintro rfl
        exact elsewhere (agrees.distinct v w bondId named named')
      refine ⟨other, found, ?_, ?_, same⟩
      · rw [names, Dict.get?_erase, if_neg elsewhere, named']
      · rw [bonds, Dict.get?_erase, if_neg apart, position]
    · obtain ⟨elsewhere, old⟩ := named_others named'
      rw [records, Dict.get?_erase, if_neg elsewhere]
      exact agrees.registered w other old

theorem Aligned.step (aligned : s.Aligned) (agrees : s.Agrees) (holds : fair) (step : StakeStep fair s t) : t.Aligned := by
  have agrees' := agrees.step step
  cases step with
  | kept records names bonds =>
    intro v record bondId found held named position
    rw [records] at held
    rw [names] at named
    rw [bonds v bondId named] at position
    exact aligned v record bondId found held named position
  | @admitted w other record' found' new free records names bonds keyed stake active free' =>
    intro v record bondId found held named position
    rw [names, Dict.get?_set] at named
    rw [records, Dict.get?_set] at held
    rw [bonds, Dict.get?_set] at position
    split at named
    · rename_i here
      rw [if_pos here] at held
      cases named
      rw [if_pos rfl] at position
      cases held
      cases position
      exact ⟨active.1.trans active.2.symm, fun jailed => by rw [free'] at jailed; cases jailed⟩
    · rename_i elsewhere
      rw [if_neg elsewhere] at held
      obtain ⟨_, position', named', there, -⟩ := agrees.bonded v record held
      cases named.symm.trans named'
      have apart : other ≠ bondId := by
        rintro rfl
        cases free.symm.trans there
      rw [if_neg apart] at position
      exact aligned v record bondId found held named position
  | @changed w other old record' found₀ found' held' named' position' records names bonds keyed stake flags =>
    intro v record bondId found held named position
    rw [names] at named
    rw [records, Dict.get?_set] at held
    rw [bonds, Dict.get?_set] at position
    split at held
    · rename_i here
      subst here
      cases named.symm.trans named'
      rw [if_pos rfl] at position
      cases held
      cases position
      obtain ⟨_, _, named'', there, same⟩ := agrees.bonded w old held'
      cases named.symm.trans named''
      cases position'.symm.trans there
      obtain ⟨active, jailed⟩ := aligned w old other found₀ held' named position'
      exact flags holds same active jailed
    · rename_i elsewhere
      have apart : other ≠ bondId := by
        rintro rfl
        exact elsewhere (agrees.distinct w v other named' named)
      rw [if_neg apart] at position
      exact aligned v record bondId found held named position
  | @withdrawn w other named' records names bonds =>
    intro v record bondId found held named position
    rw [names, Dict.get?_erase] at named
    rw [records, Dict.get?_erase] at held
    rw [bonds, Dict.get?_erase] at position
    split at named
    · cases named
    · rename_i elsewhere
      rw [if_neg elsewhere] at held
      split at position
      · cases position
      · exact aligned v record bondId found held named position

/-- Several steps. -/
abbrev StakeSteps (fair : Prop) : Economy → Economy → Prop := Relation.ReflTransGen (StakeStep fair)

theorem Agrees.steps (agrees : s.Agrees) (steps : StakeSteps fair s t) : t.Agrees := by
  induction steps with
  | refl => exact agrees
  | tail _ step ih => exact ih.step step

theorem Aligned.steps (aligned : s.Aligned) (agrees : s.Agrees) (holds : fair) (steps : StakeSteps fair s t) :
    t.Aligned := by
  induction steps with
  | refl => exact aligned
  | tail earlier step ih => exact ih.step (agrees.steps earlier) holds step

end Economy

end Mosaic
