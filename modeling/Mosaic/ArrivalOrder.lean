import Mosaic.CommitReveal
import Mosaic.MembershipOutcomes
import Mosaic.Lib.Confluence
import Mosaic.Lib.Lockstep

namespace Mosaic
open CanonicalJson Effects Economy

/-- Two dictionaries of items by validator with the same entries, each under
the name of its item. -/
structure SameItems {α : Type} (name : α → String) (d d' : Dict String α) : Prop where
  perm : d.entries.Perm d'.entries
  named : ∀ e ∈ d.entries, name e.2 = e.1

namespace SameItems

variable {α : Type} {name : α → String} {d d' : Dict String α}

theorem named' (same : SameItems name d d') : ∀ e ∈ d'.entries, name e.2 = e.1 :=
  fun e member => same.named e (same.perm.mem_iff.mpr member)

theorem empty_iff (same : SameItems name d d') : d.entries = [] ↔ d'.entries = [] := by
  rw [← List.length_eq_zero_iff, ← List.length_eq_zero_iff, same.perm.length_eq]

theorem keys (same : SameItems name d d') : d.keys.Perm d'.keys := same.perm.map Prod.fst

theorem get? (same : SameItems name d d') (v : String) : d.get? v = d'.get? v := Dict.get?_of_perm same.perm v

theorem contains (same : SameItems name d d') (v : String) : d.contains v = d'.contains v := by
  unfold Dict.contains
  rw [same.get?]

theorem any_iff (same : SameItems name d d') (p : String → Bool) : d.keys.any p = true ↔ d'.keys.any p = true := by
  simp only [List.any_eq_true, same.keys.mem_iff]

theorem ordered (same : SameItems name d d') : sortedBy Prod.fst d.entries = sortedBy Prod.fst d'.entries :=
  sortedBy_eq_of_perm same.perm fun _ inD _ inD' => List.inj_on_of_nodup_map d.nodup inD inD'

theorem rebuilt (same : SameItems name d d') :
    Dict.ofList (d.values.map fun item => (name item, item)) = d ∧
      Dict.ofList (d'.values.map fun item => (name item, item)) = d' :=
  ⟨Dict.ofList_values same.named, Dict.ofList_values same.named'⟩

theorem ofList {items items' : List α} (order : items.Perm items') (distinct : (items.map name).Nodup) :
    SameItems name (Dict.ofList (items.map fun item => (name item, item)))
      (Dict.ofList (items'.map fun item => (name item, item))) := by
  have keys : ∀ list : List α, (list.map fun item => (name item, item)).map Prod.fst = list.map name := by
    intro list
    rw [List.map_map]
    rfl
  have distinct' : (items'.map name).Nodup := ((order.map name).nodup_iff).mp distinct
  constructor
  · rw [Dict.entries_ofList (by rwa [keys]), Dict.entries_ofList (by rwa [keys])]
    exact order.map _
  · rw [Dict.entries_ofList (by rwa [keys])]
    intro e member
    obtain ⟨item, -, rfl⟩ := List.mem_map.mp member
    rfl

end SameItems

section Beacons

variable [Crypto] {m : MembershipManager} {commitmentMap commitmentMap' : Dict String RandomnessCommitment}
  {revealMap revealMap' : Dict String RandomnessReveal}

namespace MembershipManager

theorem makeBeacon_agree (commitments : SameItems RandomnessCommitment.validatorId commitmentMap commitmentMap')
    (reveals : SameItems RandomnessReveal.validatorId revealMap revealMap') (round : Int) :
    Agree (m.makeBeacon commitmentMap.values revealMap.values round)
      (m.makeBeacon commitmentMap'.values revealMap'.values round) := by
  have checks : m.revealStake commitmentMap round = m.revealStake commitmentMap' round := by
    funext entry
    unfold revealStake
    rw [commitments.get?]
  unfold makeBeacon
  simp only [commitments.rebuilt.1, commitments.rebuilt.2, reveals.rebuilt.1, reveals.rebuilt.2, checks, reveals.ordered]
  refine .ite reveals.empty_iff (fun _ => .throw_bind _ _ _ _) fun _ => ?_
  refine .bind (Agree.mapM_perm reveals.perm) fun stakes stakes' order => ?_
  rw [order.sum_eq]
  exact .refl _

theorem makeFallbackBeacon_agree (commitments : SameItems RandomnessCommitment.validatorId commitmentMap commitmentMap')
    (round : Int) : Agree (m.makeFallbackBeacon commitmentMap.values round)
      (m.makeFallbackBeacon commitmentMap'.values round) := by
  unfold makeFallbackBeacon
  simp only [commitments.rebuilt.1, commitments.rebuilt.2, commitments.ordered]
  refine .ite commitments.empty_iff (fun _ => .throw_bind _ _ _ _) fun _ => ?_
  refine .bind (Agree.mapM_perm commitments.perm) fun stakes stakes' order => ?_
  rw [order.sum_eq]
  exact .refl _

end MembershipManager

namespace RandomnessIncentiveManager

theorem beacon_agree (commitments : SameItems RandomnessCommitment.validatorId commitmentMap commitmentMap')
    (reveals : SameItems RandomnessReveal.validatorId revealMap revealMap') (round : Int) :
    Agree (beacon m commitmentMap revealMap round) (beacon m commitmentMap' revealMap' round) := by
  unfold beacon
  dsimp only
  rw [(reveals.keys.map _).sum_eq]
  refine .ite Iff.rfl (fun _ => ?_) fun _ => ?_
  · exact MembershipManager.makeBeacon_agree commitments reveals round
  · exact MembershipManager.makeFallbackBeacon_agree commitments round

omit [Crypto] in
theorem nonRevealed_eq (commitments : SameItems RandomnessCommitment.validatorId commitmentMap commitmentMap')
    (reveals : SameItems RandomnessReveal.validatorId revealMap revealMap') :
    nonRevealed commitmentMap revealMap = nonRevealed commitmentMap' revealMap' := by
  have silent : (fun v => !revealMap.contains v) = fun v => !revealMap'.contains v := by
    funext v
    rw [reveals.contains]
  unfold nonRevealed
  rw [silent]
  exact sorted_eq_of_perm (commitments.keys.filter _)

end RandomnessIncentiveManager

end Beacons

/-- One value under many keys. -/
theorem Dict.get?_ofList_const {α : Type} {keys : List String} (value : α) (key : String) :
    (Dict.ofList (keys.map fun key => (key, value))).get? key = if key ∈ keys then some value else none := by
  cases found : (Dict.ofList (keys.map fun key => (key, value))).get? key with
  | none =>
    rw [if_neg]
    intro member
    have missing := Dict.get?_eq_none_iff.mp found
    rw [Dict.mem_keys_ofList, List.map_map] at missing
    exact missing (List.mem_map.mpr ⟨key, member, rfl⟩)
  | some other =>
    obtain ⟨key', member, same⟩ := List.mem_map.mp (Dict.mem_of_get?_ofList found)
    cases same
    rw [if_pos member]

/-- Two economies whose managers and ledgers are the same, and whose stores
take the same rows. -/
structure Economy.Twin (s s' : Economy) : Prop where
  manager : s'.manager = s.manager
  ledger : s'.ledger = s.ledger
  bound : s'.beaconBound = s.beaconBound
  refusal : s'.store.refusal = s.store.refusal

section Twins

variable [Crypto] {α : Type} {s s' : Economy}

namespace Economy

omit [Crypto] in
theorem Twin.onLedger (twin : s.Twin s') (x : PyLedger α) : Lockstep Twin Eq (onLedger x) (onLedger x) s s' :=
  .onPart twin.ledger fun _ => ⟨twin.manager, rfl, twin.bound, twin.refusal⟩

omit [Crypto] in
theorem Twin.updateManager (twin : s.Twin s') (f : MembershipManager → MembershipManager) :
    Lockstep Twin Eq (updateManager f) (updateManager f) s s' :=
  .modify rfl ⟨congrArg f twin.manager, twin.ledger, twin.bound, twin.refusal⟩

end Economy

theorem MembershipManager.penalizeNonReveal_twin (twin : s.Twin s') (validatorId : String) (epoch round penalty : Int) :
    Lockstep Twin Eq (penalizeNonReveal validatorId epoch round penalty) (penalizeNonReveal validatorId epoch round penalty)
      s s' := by
  refine .get_bind ?_
  dsimp only
  rw [twin.manager]
  refine .raiseIf_bind Iff.rfl twin fun _ => .raiseIf_bind Iff.rfl twin fun _ => ?_
  cases s.manager.records.get? validatorId with
  | none => exact .throw _ _ twin
  | some record =>
    exact .raiseIf_bind Iff.rfl twin fun _ => (twin.updateManager _).bind fun _ _ _ _ _ twin => .pure rfl twin

namespace RandomnessIncentiveManager

theorem penalize_twin (twin : s.Twin s') (validatorBonds : Dict String String) (round penalty : Int) (validatorId : String) :
    Lockstep Twin Eq (penalize validatorBonds round penalty validatorId) (penalize validatorBonds round penalty validatorId)
      s s' := by
  refine .get_bind ?_
  dsimp only
  cases validatorBonds.get? validatorId with
  | none => exact .throw _ _ twin
  | some bondId =>
    dsimp only
    rw [twin.manager]
    refine (twin.onLedger _).rethrow.bind fun events _ _ _ same twin => ?_
    subst same
    exact (MembershipManager.penalizeNonReveal_twin twin _ _ _ _).rethrow.bind fun _ _ _ _ _ twin => .pure rfl twin

theorem penalizeAll_twin (twin : s.Twin s') (validatorBonds : Dict String String) (round penalty : Int)
    (validatorIds : List String) : Lockstep Twin Eq (penalizeAll validatorBonds round penalty validatorIds)
      (penalizeAll validatorBonds round penalty validatorIds) s s' := by
  induction validatorIds generalizing s s' with
  | nil => exact .pure rfl twin
  | cons validatorId validatorIds ih =>
    unfold penalizeAll
    split
    · exact ih twin
    refine (penalize_twin twin _ _ _ _).bind fun first _ _ _ same twin => ?_
    subst same
    refine (ih twin).bind fun later _ _ _ same twin => ?_
    subst same
    exact .pure rfl twin

theorem reward_twin (twin : s.Twin s') {revealMap revealMap' : Dict String RandomnessReveal}
    (reveals : SameItems RandomnessReveal.validatorId revealMap revealMap') (validatorBonds : Dict String String)
    (round revealReward : Int) : Lockstep Twin Eq (reward validatorBonds revealMap round revealReward)
      (reward validatorBonds revealMap' round revealReward) s s' := by
  have bonds := reveals.keys.filterMap validatorBonds.get?
  have weights : (Dict.ofList ((revealMap.keys.filterMap validatorBonds.get?).map fun bondId => (bondId, (1 : Int)))).entries.Perm
      (Dict.ofList ((revealMap'.keys.filterMap validatorBonds.get?).map fun bondId => (bondId, (1 : Int)))).entries := by
    refine Dict.entries_perm fun key => ?_
    simp only [Dict.get?_ofList_const, bonds.mem_iff]
  refine .get_bind ?_
  dsimp only
  rw [SettlementLedger.distributeRewards_perm weights, twin.manager, reveals.keys.length_eq]
  by_cases something : revealReward ≠ 0 ∧ revealMap.entries ≠ []
  · rw [if_pos something, if_pos ⟨something.1, fun empty => something.2 (reveals.empty_iff.mpr empty)⟩]
    refine (twin.onLedger _).rethrow.bind fun events _ _ _ same twin => ?_
    subst same
    exact .pure rfl twin
  · rw [if_neg something, if_neg fun both => something ⟨both.1, fun empty => both.2 (reveals.empty_iff.mp empty)⟩]
    exact .pure rfl twin

/-- A settlement of the same items, in whatever order they are listed. -/
theorem settleRound_twin (twin : s.Twin s') {commitments commitments' : List RandomnessCommitment}
    {reveals reveals' : List RandomnessReveal} (committed : commitments.Perm commitments')
    (distinct : (commitments.map RandomnessCommitment.validatorId).Nodup) (revealed : reveals.Perm reveals')
    (distinct' : (reveals.map RandomnessReveal.validatorId).Nodup) (validatorBonds : Dict String String)
    (round revealReward nonRevealPenalty : Int) : Lockstep Twin Eq
      (settleRound commitments reveals validatorBonds round revealReward nonRevealPenalty)
      (settleRound commitments' reveals' validatorBonds round revealReward nonRevealPenalty) s s' := by
  have commitmentMap := SameItems.ofList committed distinct
  have revealMap := SameItems.ofList revealed distinct'
  refine .get_bind ?_
  dsimp only
  rw [twin.manager, twin.ledger, revealMap.keys.length_eq, nonRevealed_eq commitmentMap revealMap]
  refine .raiseIf_bind Iff.rfl twin fun _ => .raiseIf_bind commitmentMap.empty_iff twin fun _ => ?_
  refine .raiseIf_bind ?_ twin fun _ => ?_
  · simp only [commitmentMap.contains, revealMap.any_iff]
  refine .raiseIf_bind (commitmentMap.any_iff _) twin fun _ => .raiseIf_bind (commitmentMap.any_iff _) twin fun _ =>
    .raiseIf_bind Iff.rfl twin fun _ => ?_
  refine (Lockstep.ofExcept (beacon_agree commitmentMap revealMap round) twin).rethrow.bind fun made _ _ _ same twin => ?_
  subst same
  refine (penalizeAll_twin twin _ _ _ _).bind fun penaltyEventIds _ _ _ same twin => ?_
  subst same
  refine (reward_twin twin revealMap _ _ _).bind fun rewardEventIds _ _ _ same twin => .get_bind ?_
  subst same
  rw [twin.manager, sorted_eq_of_perm commitmentMap.keys, sorted_eq_of_perm revealMap.keys]
  exact .pure rfl twin

end RandomnessIncentiveManager

namespace BeaconRoundCoordinator

omit [Crypto] in
theorem put_twin (twin : s.Twin s') (kind objectKey : String) (payload payload' : EconomyRow) :
    Lockstep Twin Eq (onStore (EconomyStore.put kind objectKey payload)) (onStore (EconomyStore.put kind objectKey payload'))
      s s' := by
  cases refusal : s.store.refusal kind with
  | none =>
    have refusal' : s'.store.refusal kind = none := by rw [twin.refusal, refusal]
    exact .returned (onPart_of_ok (AdmissionCoordinator.put_takes refusal))
      (onPart_of_ok (AdmissionCoordinator.put_takes refusal')) rfl ⟨twin.manager, twin.ledger, twin.bound, twin.refusal⟩
  | some message =>
    have refusal' : s'.store.refusal kind = some message := by rw [twin.refusal, refusal]
    exact .raised (onPart_of_error (AdmissionCoordinator.put_refuses refusal))
      (onPart_of_error (AdmissionCoordinator.put_refuses refusal')) ⟨twin.manager, twin.ledger, twin.bound, twin.refusal⟩

theorem persist_twin (twin : s.Twin s') : Lockstep Twin Eq persist persist s s' :=
  .get_bind (put_twin twin _ _ _ _)

omit [Crypto] in
/-- The items of one round have different validators. -/
theorem itemsOf_distinct {β : Type} {name : β → String} {d : Dict (Int × Int × String) β}
    (named : ∀ key item, d.get? key = some item → name item = key.2.2) (epoch round : Int) :
    ((itemsOf d epoch round).map name).Nodup := by
  unfold itemsOf
  rw [List.map_map]
  refine List.Nodup.map_on ?_ (d.nodup.of_map.filter _)
  intro entry member entry' member' same
  obtain ⟨listed, here⟩ := List.mem_filter.mp member
  obtain ⟨listed', here'⟩ := List.mem_filter.mp member'
  have name₁ := named _ _ (d.get?_eq_some_iff.mpr listed)
  have name₂ := named _ _ (d.get?_eq_some_iff.mpr listed')
  have sameRound : entry.1.1 = entry'.1.1 ∧ entry.1.2.1 = entry'.1.2.1 := by
    simp only [decide_eq_true_eq] at here here'
    exact ⟨here.1.trans here'.1.symm, here.2.trans here'.2.symm⟩
  have sameKey : entry.1 = entry'.1 :=
    Prod.ext sameRound.1 (Prod.ext sameRound.2 (name₁.symm.trans (same.trans name₂)))
  exact List.inj_on_of_nodup_map d.nodup listed listed' sameKey

omit [Crypto] in
theorem itemsOf_perm {β : Type} {d d' : Dict (Int × Int × String) β} (same : ∀ key, d.get? key = d'.get? key)
    (epoch round : Int) : (itemsOf d epoch round).Perm (itemsOf d' epoch round) :=
  ((Dict.entries_perm same).filter _).map _

/-- Two coordinators with the same items, listed in different orders. -/
structure SameTables (s s' : Economy) : Prop where
  commitments : ∀ key, s.rounds.commitments.get? key = s'.rounds.commitments.get? key
  reveals : ∀ key, s.rounds.reveals.get? key = s'.rounds.reveals.get? key
  settlements : s'.rounds.settlements = s.rounds.settlements
  committers : ∀ key item, s.rounds.commitments.get? key = some item → item.key = key
  revealers : ∀ key item, s.rounds.reveals.get? key = some item → item.key = key

theorem finalize_twin (twin : s.Twin s') (tables : SameTables s s') (round revealReward nonRevealPenalty : Int) :
    Lockstep Twin Eq (finalize round revealReward nonRevealPenalty) (finalize round revealReward nonRevealPenalty) s s' := by
  have committed := itemsOf_perm tables.commitments s.manager.snapshot.epoch round
  have revealed := itemsOf_perm tables.reveals s.manager.snapshot.epoch round
  have distinct : ((itemsOf s.rounds.commitments s.manager.snapshot.epoch round).map RandomnessCommitment.validatorId).Nodup :=
    itemsOf_distinct (fun key item held => by rw [← tables.committers key item held]; rfl) _ _
  have distinct' : ((itemsOf s.rounds.reveals s.manager.snapshot.epoch round).map RandomnessReveal.validatorId).Nodup :=
    itemsOf_distinct (fun key item held => by rw [← tables.revealers key item held]; rfl) _ _
  refine .get_bind ?_
  dsimp only
  rw [twin.manager, tables.settlements]
  split
  · exact .pure rfl twin
  · refine .raiseIf_bind ?_ twin fun _ => ?_
    · rw [← List.length_eq_zero_iff, ← List.length_eq_zero_iff, committed.length_eq]
    refine (RandomnessIncentiveManager.settleRound_twin twin committed distinct revealed distinct' _ _ _ _).rethrow.bind
      fun settlement _ _ _ same twin => ?_
    subst same
    refine Lockstep.bind (Q := fun _ _ => True) (.modify trivial ⟨twin.manager, twin.ledger, twin.bound, twin.refusal⟩)
      fun _ _ t t' _ twin => .get_bind ?_
    rw [twin.bound]
    split
    · exact (persist_twin twin).bind fun _ _ _ _ _ twin => (put_twin twin _ _ _ _).bind fun _ _ _ _ _ twin => .pure rfl twin
    · exact .pure rfl twin

end BeaconRoundCoordinator

end Twins

/-- What a validator sends to a coordinator. -/
inductive Submission
  | commitment (item : RandomnessCommitment)
  | reveal (item : RandomnessReveal)

variable [Crypto] {s s' t t' u : Economy}

namespace Submission

def submit : Submission → PyEconomy PUnit
  | commitment item => BeaconRoundCoordinator.submitCommitment item
  | reveal item => BeaconRoundCoordinator.submitReveal item

def Accepted (i : Submission) (s t : Economy) : Prop := i.submit s = .ok ⟨⟩ t

end Submission

namespace BeaconRoundCoordinator

omit [Crypto] in
theorem putRow_returns {kind objectKey : String} {payload : EconomyRow} (ran : putRow kind objectKey payload s = .ok ⟨⟩ t) :
    s.Twin t ∧ t.rounds = s.rounds := by
  unfold putRow at ran
  rw [get_bind_apply] at ran
  split at ran
  · obtain ⟨store, put, rfl⟩ := onPart_eq_ok.mp ran
    rw [AdmissionCoordinator.put_ok put]
    exact ⟨⟨rfl, rfl, rfl, rfl⟩, rfl⟩
  · cases ran
    exact ⟨⟨rfl, rfl, rfl, rfl⟩, rfl⟩

/-- An accepted commitment is written where no other one stands. -/
theorem submitCommitment_returns {item : RandomnessCommitment} (ran : submitCommitment item s = .ok ⟨⟩ t) :
    s.Twin t ∧ t.rounds = { s.rounds with commitments := s.rounds.commitments.set item.key item } ∧
      ¬ (s.rounds.commitments.get? item.key).any (· ≠ item) = true := by
  unfold submitCommitment at ran
  rw [get_bind_apply] at ran
  dsimp only at ran
  cases votes : s.manager.snapshot.byId.get? item.validatorId with
  | none =>
    rw [votes] at ran
    cases ran
  | some record =>
    rw [votes] at ran
    obtain ⟨-, ran⟩ := raiseIf_bind_eq_ok ran
    obtain ⟨-, ran⟩ := raiseIf_bind_eq_ok ran
    obtain ⟨-, ran⟩ := raiseIf_bind_eq_ok ran
    obtain ⟨unopposed, ran⟩ := raiseIf_bind_eq_ok ran
    obtain ⟨twin, rounds⟩ := putRow_returns ran
    exact ⟨⟨twin.manager, twin.ledger, twin.bound, twin.refusal⟩, rounds, unopposed⟩

theorem submitReveal_returns {item : RandomnessReveal} (ran : submitReveal item s = .ok ⟨⟩ t) :
    s.Twin t ∧ t.rounds = { s.rounds with reveals := s.rounds.reveals.set item.key item } ∧
      ¬ (s.rounds.reveals.get? item.key).any (· ≠ item) = true := by
  unfold submitReveal at ran
  rw [get_bind_apply] at ran
  dsimp only at ran
  cases votes : s.manager.snapshot.byId.get? item.validatorId with
  | none =>
    rw [votes] at ran
    cases ran
  | some record =>
    rw [votes] at ran
    dsimp only at ran
    cases matched : (s.rounds.commitments.get? item.key).filter (·.commitment = item.commitment) with
    | none =>
      rw [RandomnessReveal.key] at matched
      rw [matched] at ran
      cases ran
    | some commitment =>
      rw [RandomnessReveal.key] at matched
      rw [matched] at ran
      obtain ⟨-, ran⟩ := raiseIf_bind_eq_ok ran
      obtain ⟨-, ran⟩ := raiseIf_bind_eq_ok ran
      obtain ⟨unopposed, ran⟩ := raiseIf_bind_eq_ok ran
      obtain ⟨twin, rounds⟩ := putRow_returns ran
      exact ⟨⟨twin.manager, twin.ledger, twin.bound, twin.refusal⟩, rounds, unopposed⟩

end BeaconRoundCoordinator

namespace Economy

omit [Crypto] in
theorem Twin.trans (first : s.Twin t) (second : t.Twin u) : s.Twin u :=
  ⟨second.manager.trans first.manager, second.ledger.trans first.ledger, second.bound.trans first.bound,
    second.refusal.trans first.refusal⟩

omit [Crypto] in
theorem Twin.symm (twin : s.Twin t) : t.Twin s :=
  ⟨twin.manager.symm, twin.ledger.symm, twin.bound.symm, twin.refusal.symm⟩

/-- The tables of `t` are those of `s` with what was sent. -/
structure Collected (s : Economy) (sent : List Submission) (t : Economy) : Prop where
  twin : s.Twin t
  settlements : t.rounds.settlements = s.rounds.settlements
  commitments : ∀ key item, t.rounds.commitments.get? key = some item ↔
    s.rounds.commitments.get? key = some item ∨ Submission.commitment item ∈ sent ∧ item.key = key
  reveals : ∀ key item, t.rounds.reveals.get? key = some item ↔
    s.rounds.reveals.get? key = some item ∨ Submission.reveal item ∈ sent ∧ item.key = key

omit [Crypto] in
/-- What is written under its key, where nothing else stands, is added to what is there. -/
theorem get?_set_iff_of_unopposed {κ β : Type} [DecidableEq κ] [DecidableEq β] {d : Dict κ β} {keyOf : β → κ}
    {item other : β} {key : κ} {submission : β → Submission} (injective : submission.Injective)
    (unopposed : ¬ (d.get? (keyOf item)).any (· ≠ item) = true) :
    (d.set (keyOf item) item).get? key = some other ↔
      d.get? key = some other ∨ submission other ∈ [submission item] ∧ keyOf other = key := by
  rw [List.mem_singleton]
  constructor
  · intro held
    rcases Dict.origin_of_get?_set held with ⟨rfl, rfl⟩ | old
    · exact Or.inr ⟨rfl, rfl⟩
    · exact Or.inl old
  · rintro (held | ⟨same, rfl⟩)
    · exact BeaconRoundCoordinator.get?_set_of_unopposed unopposed held
    · rw [injective same]
      exact Dict.get?_set_self _ _ _

theorem Collected.single {i : Submission} (accepted : i.Accepted s t) : s.Collected [i] t := by
  cases i with
  | commitment item =>
    obtain ⟨twin, rounds, unopposed⟩ := BeaconRoundCoordinator.submitCommitment_returns accepted
    have injective : Submission.commitment.Injective := fun _ _ same => Submission.commitment.inj same
    refine ⟨twin, by rw [rounds], fun key other => ?_, fun key other => ?_⟩
    · rw [rounds]
      exact get?_set_iff_of_unopposed injective unopposed
    · rw [rounds]
      simp
  | reveal item =>
    obtain ⟨twin, rounds, unopposed⟩ := BeaconRoundCoordinator.submitReveal_returns accepted
    have injective : Submission.reveal.Injective := fun _ _ same => Submission.reveal.inj same
    refine ⟨twin, by rw [rounds], fun key other => ?_, fun key other => ?_⟩
    · rw [rounds]
      simp
    · rw [rounds]
      exact get?_set_iff_of_unopposed injective unopposed

omit [Crypto] in
theorem Collected.append {sent sent' : List Submission} (first : s.Collected sent t) (second : t.Collected sent' u) :
    s.Collected (sent ++ sent') u where
  twin := first.twin.trans second.twin
  settlements := second.settlements.trans first.settlements
  commitments key item := by
    rw [second.commitments, first.commitments, List.mem_append, or_and_right, or_assoc]
  reveals key item := by
    rw [second.reveals, first.reveals, List.mem_append, or_and_right, or_assoc]

theorem Collected.of_takes {sent : List Submission} (takes : Takes Submission.Accepted sent s t) : s.Collected sent t := by
  induction takes with
  | nil s => exact ⟨⟨rfl, rfl, rfl, rfl⟩, rfl, by simp, by simp⟩
  | cons first _ ih => exact (Collected.single first).append ih

omit [Crypto] in
/-- The tables do not tell in which order their items came. -/
theorem Collected.sameTables {sent sent' : List Submission} (start : s'.rounds = s.rounds)
    (committers : ∀ key item, s.rounds.commitments.get? key = some item → item.key = key)
    (revealers : ∀ key item, s.rounds.reveals.get? key = some item → item.key = key) (order : sent.Perm sent')
    (collected : s.Collected sent t) (collected' : s'.Collected sent' t') : BeaconRoundCoordinator.SameTables t t' := by
  refine ⟨fun key => Option.ext fun item => ?_, fun key => Option.ext fun item => ?_, ?_, fun key item held => ?_,
    fun key item held => ?_⟩
  · rw [collected.commitments, collected'.commitments, start, order.mem_iff]
  · rw [collected.reveals, collected'.reveals, start, order.mem_iff]
  · rw [collected'.settlements, collected.settlements, start]
  · exact ((collected.commitments key item).mp held).elim (committers key item) And.right
  · exact ((collected.reveals key item).mp held).elim (revealers key item) And.right

end Economy

/-- Two coordinators that start alike and accept the same items, each in its own
order, settle alike: both raise, or both return one settlement and end in one
membership and one ledger. -/
theorem arrival_order (reached : EconomyCall.Reached s) (twin : s.Twin s') (rounds : s'.rounds = s.rounds)
    {sent sent' : List Submission} (order : sent.Perm sent') (takes : Takes Submission.Accepted sent s t)
    (takes' : Takes Submission.Accepted sent' s' t') (round revealReward nonRevealPenalty : Int) :
    (∃ e e' u u', BeaconRoundCoordinator.finalize round revealReward nonRevealPenalty t = .error e u ∧
      BeaconRoundCoordinator.finalize round revealReward nonRevealPenalty t' = .error e' u') ∨
    ∃ settlement u u', BeaconRoundCoordinator.finalize round revealReward nonRevealPenalty t = .ok settlement u ∧
      BeaconRoundCoordinator.finalize round revealReward nonRevealPenalty t' = .ok settlement u' ∧
      u'.manager.snapshot = u.manager.snapshot ∧ u'.ledger.stateRoot = u.ledger.stateRoot := by
  obtain ⟨committers, revealers⟩ := EconomyCall.Reached.tables reached
  have collected := Collected.of_takes takes
  have collected' := Collected.of_takes takes'
  have tables := collected.sameTables rounds committers revealers order collected'
  have twin' : t.Twin t' := collected.twin.symm.trans (twin.trans collected'.twin)
  cases BeaconRoundCoordinator.finalize_twin twin' tables round revealReward nonRevealPenalty with
  | returned run run' same ends =>
    subst same
    exact Or.inr ⟨_, _, _, run, run', by rw [ends.manager], by rw [ends.ledger]⟩
  | raised run run' _ => exact Or.inl ⟨_, _, _, _, run, run'⟩

section Duo
variable {first second : KeyPair} {secret late : Bytes}

/-- The first validator commits and reveals, then the second one commits. -/
def duoArrivals (first second : KeyPair) (secret late : Bytes) : List Submission := [
  .commitment (duoCommitment first "v" secret), .reveal (duoReveal first "v" secret),
  .commitment (duoCommitment second "w" late)]

/-- The second validator is the first to commit. -/
def duoArrivals' (first second : KeyPair) (secret late : Bytes) : List Submission := [
  .commitment (duoCommitment second "w" late), .commitment (duoCommitment first "v" secret),
  .reveal (duoReveal first "v" secret)]

theorem duoArrivals_accepted (verifies : SignaturesVerify) (named : commitmentTo secret ≠ "") (named' : commitmentTo late ≠ "") :
    (∃ t, Takes Submission.Accepted (duoArrivals first second secret late) (duoEconomy first second) t) ∧
      ∃ t, Takes Submission.Accepted (duoArrivals' first second secret late) (duoEconomy first second) t := by
  have votes : (duoEconomy first second).manager.snapshot.byId.get? "v" =
      some (MembershipManager.admittedRecord (voterRequest first "v" "d")) := duoEconomy_votes rfl rfl
  have votes' : (duoEconomy first second).manager.snapshot.byId.get? "w" =
      some (MembershipManager.admittedRecord (voterRequest second "w" "e")) := duoEconomy_votes rfl rfl
  have commits : ∀ rounds : BeaconRounds, rounds.commitments.get? (0, 0, "v") = none →
      (Submission.commitment (duoCommitment first "v" secret)).Accepted ((duoEconomy first second).setRounds rounds)
        ((duoEconomy first second).setRounds { rounds with
          commitments := rounds.commitments.set (0, 0, "v") (duoCommitment first "v" secret) }) := fun _ new =>
    BeaconRoundCoordinator.submitCommitment_ok rfl votes rfl le_rfl named (verifies first.privateKey _) new
  have commits' : ∀ rounds : BeaconRounds, rounds.commitments.get? (0, 0, "w") = none →
      (Submission.commitment (duoCommitment second "w" late)).Accepted ((duoEconomy first second).setRounds rounds)
        ((duoEconomy first second).setRounds { rounds with
          commitments := rounds.commitments.set (0, 0, "w") (duoCommitment second "w" late) }) := fun _ new =>
    BeaconRoundCoordinator.submitCommitment_ok rfl votes' rfl le_rfl named' (verifies second.privateKey _) new
  have reveals : ∀ rounds : BeaconRounds, rounds.commitments.get? (0, 0, "v") = some (duoCommitment first "v" secret) →
      rounds.reveals.get? (0, 0, "v") = none →
      (Submission.reveal (duoReveal first "v" secret)).Accepted ((duoEconomy first second).setRounds rounds)
        ((duoEconomy first second).setRounds { rounds with
          reveals := rounds.reveals.set (0, 0, "v") (duoReveal first "v" secret) }) := fun _ held new =>
    BeaconRoundCoordinator.submitReveal_ok rfl votes held rfl (verifies first.privateKey _) rfl new
  have begins : duoEconomy first second = (duoEconomy first second).setRounds {} := rfl
  constructor
  · rw [begins]
    exact ⟨_, .cons (commits _ rfl) (.cons (reveals _ (Dict.get?_set_self _ _ _) rfl) (.cons (commits' _ rfl) (.nil _)))⟩
  · rw [begins]
    exact ⟨_, .cons (commits' _ rfl) (.cons (commits _ rfl) (.cons (reveals _ (Dict.get?_set_self _ _ _) rfl) (.nil _)))⟩

omit [Crypto] in
theorem arrival_order_duo : let _ := Crypto.ideal
    ∃ t t', Takes Submission.Accepted (duoArrivals idealKey otherKey [1] [2]) (duoEconomy idealKey otherKey) t ∧
      Takes Submission.Accepted (duoArrivals' idealKey otherKey [1] [2]) (duoEconomy idealKey otherKey) t' ∧
      ((∃ e e' u u', BeaconRoundCoordinator.finalize 0 0 0 t = .error e u ∧
        BeaconRoundCoordinator.finalize 0 0 0 t' = .error e' u') ∨
      ∃ settlement u u', BeaconRoundCoordinator.finalize 0 0 0 t = .ok settlement u ∧
        BeaconRoundCoordinator.finalize 0 0 0 t' = .ok settlement u' ∧
        u'.manager.snapshot = u.manager.snapshot ∧ u'.ledger.stateRoot = u.ledger.stateRoot) := by
  obtain ⟨⟨t, takes⟩, t', takes'⟩ := @duoArrivals_accepted Crypto.ideal idealKey otherKey [1] [2] ideal_signaturesVerify
    (ideal_commitmentTo_named 1) (ideal_commitmentTo_named 2)
  have reached : @EconomyCall.Reached Crypto.ideal (@duoEconomy Crypto.ideal idealKey otherKey) :=
    ⟨_, _, _, _, @duoEconomy_run Crypto.ideal idealKey otherKey ideal_signaturesVerify⟩
  have order : (@duoArrivals Crypto.ideal idealKey otherKey [1] [2]).Perm (@duoArrivals' Crypto.ideal idealKey otherKey [1] [2]) :=
    ((List.Perm.swap _ _ _).cons _).trans (.swap _ _ _)
  exact ⟨t, t', takes, takes', @arrival_order Crypto.ideal _ _ _ _ reached ⟨rfl, rfl, rfl, rfl⟩ rfl _ _ order takes takes' 0 0 0⟩

end Duo

end Mosaic
