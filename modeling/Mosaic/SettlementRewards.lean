import Mosaic.SettlementOutcomes
import Mathlib.Algebra.Order.BigOperators.Group.List
import Mathlib.Tactic.Linarith

namespace Mosaic
open CanonicalJson Effects

namespace SettlementLedger

def rewardAmounts (total totalWeight : Int) : Int → List (String × Int) → List Int
  | _, [] => []
  | distributed, (_, weight) :: entries =>
    let amount := rewardShare total totalWeight distributed weight entries.isEmpty
    amount :: rewardAmounts total totalWeight (distributed + amount) entries

variable {total totalWeight distributed : Int}

/-- The last entry takes what the others have left. -/
theorem sum_rewardAmounts {entries : List (String × Int)} (some : entries ≠ []) :
    (rewardAmounts total totalWeight distributed entries).sum = total - distributed := by
  induction entries generalizing distributed with
  | nil => exact absurd rfl some
  | cons entry entries ih =>
    cases entries with
    | nil => simp [rewardAmounts, rewardShare]
    | cons next later =>
      have rest := @ih (distributed + rewardShare total totalWeight distributed entry.2 false) (List.cons_ne_nil next later)
      simp only [rewardAmounts, List.isEmpty_cons, List.sum_cons] at rest ⊢
      omega

/-- The entries get no more than their parts, so something is left for the last. -/
theorem rewardAmounts_nonneg {entries : List (String × Int)} (weighty : 0 < totalWeight) (natural : 0 ≤ total)
    (weights : ∀ entry ∈ entries, 0 ≤ entry.2)
    (bound : distributed * totalWeight + total * (entries.map Prod.snd).sum ≤ total * totalWeight) :
    ∀ amount ∈ rewardAmounts total totalWeight distributed entries, 0 ≤ amount := by
  induction entries generalizing distributed with
  | nil => simp [rewardAmounts]
  | cons entry entries ih =>
    obtain ⟨bondId, weight⟩ := entry
    obtain ⟨first, later⟩ := List.forall_mem_cons.mp weights
    have part : 0 ≤ total * weight := mul_nonneg natural first
    rw [List.map_cons, List.sum_cons, mul_add] at bound
    dsimp only at bound first
    cases entries with
    | nil =>
      intro amount member
      simp only [rewardAmounts, rewardShare, List.isEmpty_nil, if_true, List.mem_singleton] at member
      simp only [List.map_nil, List.sum_nil, mul_zero, add_zero] at bound
      have below : distributed * totalWeight ≤ total * totalWeight := by omega
      have := le_of_mul_le_mul_right below weighty
      omega
    | cons next entries =>
      have share : rewardShare total totalWeight distributed weight (next :: entries).isEmpty = total * weight / totalWeight :=
        rfl
      have taken : total * weight / totalWeight * totalWeight ≤ total * weight := Int.ediv_mul_le _ (by omega)
      have bound' : (distributed + total * weight / totalWeight) * totalWeight +
          total * ((next :: entries).map Prod.snd).sum ≤ total * totalWeight := by
        rw [add_mul]
        omega
      intro amount member
      rw [rewardAmounts, share] at member
      rcases List.mem_cons.mp member with rfl | member
      · exact Int.ediv_nonneg part (by omega)
      · exact ih later bound' amount member

variable [Crypto] {s t u : SettlementLedger} {epoch : Int}

/-- The account that an entry pays. -/
def ownerOf (bonds : Dict String BondPosition) (bondId : String) : String :=
  ((bonds.get? bondId).map BondPosition.owner).getD ""

/-- The events of the loop, in their order. -/
def rewardEvents (config : LedgerConfig) (bonds : Dict String BondPosition) (epoch total totalWeight : Int) :
    Int → List (String × Int) → List SettlementEvent
  | _, [] => []
  | distributed, (bondId, weight) :: entries =>
    let amount := rewardShare total totalWeight distributed weight entries.isEmpty
    eventFor config "REWARD" epoch (ownerOf bonds bondId) amount bondId [] ::
      rewardEvents config bonds epoch total totalWeight (distributed + amount) entries

/-- Every entry names a bond, and no event of the loop was recorded before. -/
structure Rewardable (s : SettlementLedger) (epoch total totalWeight distributed : Int) (entries : List (String × Int)) :
    Prop where
  known : ∀ entry ∈ entries, s.bonds.get? entry.1 ≠ none
  new : ∀ event ∈ rewardEvents s.toLedgerConfig s.bonds epoch total totalWeight distributed entries, ¬ s.Recorded event
  distinct : ((rewardEvents s.toLedgerConfig s.bonds epoch total totalWeight distributed entries).map
    SettlementEvent.eventId).Nodup

/-- What the loop leaves alone, and what it pays. -/
structure Rewarded (s t : SettlementLedger) (paid : Int) : Prop where
  config : t.toLedgerConfig = s.toLedgerConfig
  bonds : t.bonds = s.bonds
  evidence : t.slashEvidenceIds = s.slashEvidenceIds
  epochs : t.settledRewardEpochs = s.settledRewardEpochs
  total : t.total = s.total + paid
  sound : t.Sound

/-- Where the loop stops: at its first entry, before or after the credit, or
later, when it has recorded an event. -/
inductive Halts (s : SettlementLedger) (total totalWeight distributed : Int) (entries : List (String × Int)) :
    SettlementLedger → Prop
  | unknown {bondId : String} {weight : Int} {later : List (String × Int)} (at_first : entries = (bondId, weight) :: later)
      (unknown : s.bonds.get? bondId = none) : Halts s total totalWeight distributed entries s
  | repeated {bondId : String} {weight : Int} {later : List (String × Int)} {found : BondPosition}
      (at_first : entries = (bondId, weight) :: later) (held : s.bonds.get? bondId = some found) :
      Halts s total totalWeight distributed entries
        (s.credited found.owner (rewardShare total totalWeight distributed weight later.isEmpty))
  | later {t : SettlementLedger} {eventId : String} (more : entries.tail ≠ []) (new : s.events.get? eventId = none)
      (old : t.events.get? eventId ≠ none) : Halts s total totalWeight distributed entries t

structure Distributable (s : SettlementLedger) (epoch total : Int) (weights : Dict String Int) : Prop where
  new : epoch ∉ s.settledRewardEpochs
  positive : 0 < total
  some : weights.entries ≠ []
  weights : ∀ value ∈ weights.values, 0 < value
  enough : total ≤ s.balanceOf s.treasury

/-- The entries in the order of the loop. -/
def ordered (weights : Dict String Int) : List (String × Int) := sortedBy Prod.fst weights.entries

/-- Every bond is known and every event of the distribution is new. -/
abbrev RewardsClear (s : SettlementLedger) (epoch total : Int) (weights : Dict String Int) : Prop :=
  s.Rewardable epoch total weights.values.sum 0 (ordered weights)

/-- A distribution refuses, its loop stops, or it returns. `clear` tells when nothing stops the loop. -/
inductive DistributeCases (x : PyLedger (List SettlementEvent)) (s : SettlementLedger) (epoch total : Int)
    (weights : Dict String Int) (clear : Prop) : Prop
  | refused {e : EconomyError} (refused : ¬ s.Distributable epoch total weights) (run : x s = .error e s)
  | stopped {e : EconomyError} {t : SettlementLedger} (admitted : s.Distributable epoch total weights) (blocked : ¬ clear)
      (halts : (s.credited s.treasury (-total)).Halts total weights.values.sum 0 (ordered weights) t) (sound : t.Sound)
      (run : x s = .error e t)
  | returned {t : SettlementLedger} (admitted : s.Distributable epoch total weights) (clear : clear)
      (rewarded : (s.credited s.treasury (-total)).Rewarded t total)
      (run : x s = .ok (rewardEvents s.toLedgerConfig s.bonds epoch total weights.values.sum 0 (ordered weights))
        (t.settleEpoch epoch))

end SettlementLedger

namespace Strict.SettlementLedger
open Mosaic.SettlementLedger

variable [Crypto] [Texts] {s t : SettlementLedger} {epoch total totalWeight distributed : Int}

/-- Every entry names a bond, and the ledger takes the events of the loop. -/
structure Rewardable (s : SettlementLedger) (epoch total totalWeight distributed : Int) (entries : List (String × Int)) :
    Prop where
  known : ∀ entry ∈ entries, s.bonds.get? entry.1 ≠ none
  new : ∀ event ∈ rewardEvents s.toLedgerConfig s.bonds epoch total totalWeight distributed entries, ¬ s.Barred event
  distinct : ((rewardEvents s.toLedgerConfig s.bonds epoch total totalWeight distributed entries).map
    SettlementEvent.eventId).Nodup

/-- Every bond is known and every event of the distribution can be recorded. -/
abbrev RewardsClear (s : SettlementLedger) (epoch total : Int) (weights : Dict String Int) : Prop :=
  Rewardable s epoch total weights.values.sum 0 (ordered weights)

omit [Crypto] in
theorem barred_addEvent (s : SettlementLedger) (event other : SettlementEvent) :
    (s.addEvent event).Barred other ↔ event.eventId = other.eventId ∨ s.Barred other := by
  rw [Barred, Barred, recorded_addEvent, or_left_comm]

/-- The loop goes on with an event more in the ledger. -/
theorem rewardable_cons {bondId : String} {weight : Int} {entries : List (String × Int)} {found : BondPosition}
    {event : SettlementEvent} {amount : Int} (held : s.bonds.get? bondId = some found) (new : ¬ s.Barred event)
    (events : rewardEvents s.toLedgerConfig s.bonds epoch total totalWeight distributed ((bondId, weight) :: entries) =
      event :: rewardEvents s.toLedgerConfig s.bonds epoch total totalWeight (distributed + amount) entries) :
    Rewardable s epoch total totalWeight distributed ((bondId, weight) :: entries) ↔
      Rewardable ((s.credited found.owner amount).addEvent event) epoch total totalWeight (distributed + amount) entries := by
  have fresh : ∀ other, ¬ ((s.credited found.owner amount).addEvent event).Barred other ↔
      event.eventId ≠ other.eventId ∧ ¬ s.Barred other := fun other =>
    (not_congr (barred_addEvent (s.credited found.owner amount) event other)).trans not_or
  constructor
  · rintro ⟨known, unrecorded, distinct⟩
    rw [events] at unrecorded distinct
    rw [List.map_cons, List.nodup_cons] at distinct
    refine ⟨fun other member => known other (List.mem_cons_of_mem _ member), fun other member => ?_, distinct.2⟩
    refine (fresh other).mpr ⟨fun same => distinct.1 ?_, unrecorded other (List.mem_cons_of_mem _ member)⟩
    rw [same]
    exact List.mem_map_of_mem member
  · rintro ⟨known, unrecorded, distinct⟩
    refine ⟨?_, ?_, ?_⟩
    · refine List.forall_mem_cons.mpr ⟨?_, known⟩
      rw [held]
      exact Option.some_ne_none found
    · rw [events]
      exact List.forall_mem_cons.mpr ⟨new, fun other member => ((fresh other).mp (unrecorded other member)).2⟩
    · rw [events, List.map_cons, List.nodup_cons]
      refine ⟨fun member => ?_, distinct⟩
      obtain ⟨other, inLoop, same⟩ := List.mem_map.mp member
      exact ((fresh other).mp (unrecorded other inLoop)).1 same.symm

theorem rewardFrom_cases {entries : List (String × Int)} (sound : s.Sound)
    (natural : ∀ amount ∈ rewardAmounts total totalWeight distributed entries, 0 ≤ amount) :
    (Rewardable s epoch total totalWeight distributed entries ∧ ∃ t,
      rewardFrom epoch total totalWeight distributed entries s =
        .ok (rewardEvents s.toLedgerConfig s.bonds epoch total totalWeight distributed entries) t ∧
      s.Rewarded t (rewardAmounts total totalWeight distributed entries).sum) ∨
    (¬ Rewardable s epoch total totalWeight distributed entries ∧ ∃ e t,
      rewardFrom epoch total totalWeight distributed entries s = .error e t ∧
      (∀ eventId, s.events.get? eventId ≠ none → t.events.get? eventId ≠ none) ∧ t.Sound ∧
      s.Halts total totalWeight distributed entries t) := by
  induction entries generalizing s distributed with
  | nil =>
    refine Or.inl ⟨⟨by simp, by simp [rewardEvents], by simp [rewardEvents]⟩, s, rfl, rfl, rfl, rfl, rfl, ?_, sound⟩
    simp [rewardAmounts]
  | cons entry entries ih =>
    obtain ⟨bondId, weight⟩ := entry
    obtain ⟨first, later⟩ := List.forall_mem_cons.mp natural
    have start : rewardFrom epoch total totalWeight distributed ((bondId, weight) :: entries) s =
        (position bondId >>= fun found => do
          let amount := rewardShare total totalWeight distributed weight entries.isEmpty
          credit found.owner amount
          let event ← recordEvent "REWARD" epoch found.owner amount bondId []
          let events ← rewardFrom epoch total totalWeight (distributed + amount) entries
          return event :: events) s := rfl
    cases held : s.bonds.get? bondId with
    | none =>
      obtain ⟨e, raised⟩ := position_raises held
      refine Or.inr ⟨fun able => able.known (bondId, weight) List.mem_cons_self held, e, s, ?_, fun _ => id, sound,
        .unknown rfl held⟩
      rw [start, bind_of_error raised]
    | some found =>
      have owner : ownerOf s.bonds bondId = found.owner := by simp [ownerOf, held]
      have owned := (sound.bonds bondId found held).owned
      rw [bind_of_ok (position_ok held), bind_of_ok (credit_ok owned first)] at start
      have events : rewardEvents s.toLedgerConfig s.bonds epoch total totalWeight distributed ((bondId, weight) :: entries) =
          eventFor s.toLedgerConfig "REWARD" epoch found.owner
            (rewardShare total totalWeight distributed weight entries.isEmpty) bondId [] ::
          rewardEvents s.toLedgerConfig s.bonds epoch total totalWeight
            (distributed + rewardShare total totalWeight distributed weight entries.isEmpty) entries := by
        rw [rewardEvents, owner]
      have amounts : rewardAmounts total totalWeight distributed ((bondId, weight) :: entries) =
          rewardShare total totalWeight distributed weight entries.isEmpty :: rewardAmounts total totalWeight
            (distributed + rewardShare total totalWeight distributed weight entries.isEmpty) entries := rfl
      have stops : s.Halts total totalWeight distributed ((bondId, weight) :: entries) (s.credited found.owner
          (rewardShare total totalWeight distributed weight entries.isEmpty)) := .repeated rfl held
      rw [amounts, List.sum_cons]
      generalize rewardShare total totalWeight distributed weight entries.isEmpty = amount at *
      obtain ⟨event, made⟩ : ∃ event, event = eventFor s.toLedgerConfig "REWARD" epoch found.owner amount bondId [] :=
        ⟨_, rfl⟩
      rw [← made] at events
      have enough : 0 ≤ s.balanceOf found.owner + amount := by
        have := sound.balanceOf found.owner
        omega
      by_cases new : ¬ s.Barred event
      · have recorded : recordEvent "REWARD" epoch found.owner amount bondId [] (s.credited found.owner amount) =
            .ok event ((s.credited found.owner amount).addEvent event) := by
          rw [made] at new ⊢
          exact recordEvent_ok new
        rw [bind_of_ok recorded] at start
        have sound' : ((s.credited found.owner amount).addEvent event).Sound :=
          (sound.credited enough owned).addEvent (made ▸ first) (made ▸ rfl)
        have able_iff := rewardable_cons held new events
        rcases ih sound' later with ⟨able, t, ran, paid⟩ | ⟨unable, e, t, raised, kept, proper, -⟩
        · refine Or.inl ⟨able_iff.mpr able, t, ?_, paid.config, paid.bonds, paid.evidence, paid.epochs, ?_, paid.sound⟩
          · rw [start, bind_of_ok ran, events]
            rfl
          · rw [paid.total, total_addEvent, total_credited]
            omega
        · have has : ((s.credited found.owner amount).addEvent event).events.get? event.eventId ≠ none := by
            rw [addEvent_events, Dict.get?_set_self]
            exact Option.some_ne_none event
          have more : entries ≠ [] := by
            rintro rfl
            exact unable ⟨by simp, by simp [rewardEvents], by simp [rewardEvents]⟩
          refine Or.inr ⟨fun able => unable (able_iff.mp able), e, t, ?_, fun eventId old => kept eventId ?_,
            proper, .later more (not_barred new).2 (kept event.eventId has)⟩
          · rw [start, bind_of_error raised]
          · obtain ⟨old, same⟩ := Option.ne_none_iff_exists'.mp old
            exact Option.isSome_iff_ne_none.mp (Dict.contains_set (Option.isSome_iff_exists.mpr ⟨old, same⟩))
      · have raises : ∃ e, recordEvent "REWARD" epoch found.owner amount bondId [] (s.credited found.owner amount) =
            .error e (s.credited found.owner amount) := by
          rw [made] at new
          exact recordEvent_raises (not_not.mp new)
        obtain ⟨e, raised⟩ := raises
        refine Or.inr ⟨fun able => able.new event ?_ (not_not.mp new), e, s.credited found.owner amount, ?_, fun _ old => old,
          sound.credited enough owned, stops⟩
        · rw [events]
          exact List.mem_cons_self
        · rw [start, bind_of_error raised]

theorem distributeRewards_cases (sound : s.Sound) (epoch total : Int) (weights : Dict String Int) :
    DistributeCases (distributeRewards epoch total weights) s epoch total weights (RewardsClear s epoch total weights) := by
  by_cases settled : epoch ∈ s.settledRewardEpochs
  · refine .refused (e := .settlement "epoch rewards already settled") (fun able => able.new settled) ?_
    simp only [distributeRewards, bind_apply, get_apply, raiseIf_apply, if_pos settled]
  by_cases invalid : total ≤ 0 ∨ weights.entries = [] ∨ ∃ value ∈ weights.values, value ≤ 0
  · refine .refused (e := .settlement "invalid reward distribution") (fun able => ?_) ?_
    · rcases invalid with small | none | ⟨value, member, small⟩
      · exact absurd able.positive (by omega)
      · exact able.some none
      · exact absurd (able.weights value member) (by omega)
    · simp only [distributeRewards, bind_apply, get_apply, raiseIf_apply, if_neg settled, if_pos invalid]
  have start : distributeRewards epoch total weights s = (debit s.treasury total >>= fun _ => do
      let events ← rewardFrom epoch total weights.values.sum 0 (ordered weights)
      modify (·.settleEpoch epoch)
      return events) s := by
    unfold distributeRewards
    simp only [bind_apply, get_apply, raiseIf_apply, if_neg settled, if_neg invalid]
    rfl
  by_cases enough : total ≤ s.balanceOf s.treasury
  case neg =>
    have poor : s.balanceOf s.treasury < total := by omega
    obtain ⟨e, raised⟩ := debit_raises poor
    exact .refused (fun able => enough able.enough) (start.trans (bind_of_error raised))
  obtain ⟨positive, some, heavy⟩ : 0 < total ∧ weights.entries ≠ [] ∧ ∀ value ∈ weights.values, 0 < value := by
    simpa only [not_or, not_le, ne_eq, not_exists, not_and] using invalid
  have able : s.Distributable epoch total weights := ⟨settled, positive, some, heavy, enough⟩
  rw [bind_of_ok (debit_ok positive.le enough)] at start
  have perm : (ordered weights).Perm weights.entries := sortedBy_perm Prod.fst weights.entries
  have sum : ((ordered weights).map Prod.snd).sum = weights.values.sum := (perm.map Prod.snd).sum_eq
  have some' : ordered weights ≠ [] := by
    intro none
    rw [none] at perm
    exact some perm.nil_eq.symm
  have positives : ∀ entry ∈ ordered weights, 0 < entry.2 := fun entry member =>
    heavy entry.2 (List.mem_map_of_mem (perm.mem_iff.mp member))
  have weighty : 0 < weights.values.sum := by
    rw [← sum]
    refine List.sum_pos _ (fun value member => ?_) (by simpa using some')
    obtain ⟨entry, inOrder, rfl⟩ := List.mem_map.mp member
    exact positives entry inOrder
  have natural : ∀ amount ∈ rewardAmounts total weights.values.sum 0 (ordered weights), 0 ≤ amount := by
    refine rewardAmounts_nonneg weighty positive.le (fun entry member => (positives entry member).le) ?_
    rw [sum]
    omega
  have sound' := sound.debited enough positive.le
  have debited : ∀ d entries, Rewardable (s.credited s.treasury (-total)) epoch total weights.values.sum d entries ↔
      Rewardable s epoch total weights.values.sum d entries := by
    intro d entries
    constructor <;>
    · rintro ⟨known, new, distinct⟩
      exact ⟨known, new, distinct⟩
  rcases rewardFrom_cases sound' natural with ⟨clear, t, ran, rewarded⟩ | ⟨blocked, e, t, raised, -, proper, halts⟩
  · rw [sum_rewardAmounts some', sub_zero] at rewarded
    refine .returned able ((debited _ _).mp clear) rewarded ?_
    rw [start, bind_of_ok ran]
    rfl
  · exact .stopped able (fun clear => blocked ((debited _ _).mpr clear)) halts proper (start.trans (bind_of_error raised))

omit [Texts] in
theorem rewardsClear_all (s : SettlementLedger) (epoch total : Int) (weights : Dict String Int) :
    @RewardsClear _ Texts.all s epoch total weights = s.RewardsClear epoch total weights := by
  let _ := Texts.all
  refine propext ⟨?_, ?_⟩
  · rintro ⟨known, new, distinct⟩
    exact ⟨known, fun event member => barred_all s event ▸ new event member, distinct⟩
  · rintro ⟨known, new, distinct⟩
    exact ⟨known, fun event member => (barred_all s event).symm ▸ new event member, distinct⟩

end Strict.SettlementLedger

namespace SettlementLedger
variable [Crypto] {s : SettlementLedger}

theorem distributeRewards_cases (sound : s.Sound) (epoch total : Int) (weights : Dict String Int) :
    DistributeCases (distributeRewards epoch total weights) s epoch total weights (s.RewardsClear epoch total weights) := by
  have cases' := @Strict.SettlementLedger.distributeRewards_cases _ Texts.all s sound epoch total weights
  rwa [Strict.SettlementLedger.distributeRewards_all, Strict.SettlementLedger.rewardsClear_all] at cases'

/-- The order in which the map is iterated over is that of its keys. -/
theorem distributeRewards_perm {weights weights' : Dict String Int}
    (order : weights.entries.Perm weights'.entries) (epoch total : Int) :
    distributeRewards epoch total weights = distributeRewards epoch total weights' := by
  have empty : weights.entries = [] ↔ weights'.entries = [] := by
    rw [← List.length_eq_zero_iff, ← List.length_eq_zero_iff, order.length_eq]
  have values : weights.values.Perm weights'.values := order.map Prod.snd
  have ordered : sortedBy Prod.fst weights.entries = sortedBy Prod.fst weights'.entries :=
    sortedBy_eq_of_perm order fun _ inD _ inD' => List.inj_on_of_nodup_map weights.nodup inD inD'
  have invalid : (total ≤ 0 ∨ weights.entries = [] ∨ ∃ value ∈ weights.values, value ≤ 0) ↔
      (total ≤ 0 ∨ weights'.entries = [] ∨ ∃ value ∈ weights'.values, value ≤ 0) := by
    simp only [empty, values.mem_iff]
  unfold distributeRewards
  rw [values.sum_eq, ordered, raiseIf_congr invalid]

end SettlementLedger

end Mosaic
