import Mosaic.CommitReveal
import Mosaic.UsedEvidence

namespace Mosaic
open CanonicalJson Effects Economy

namespace SettlementLedger

variable [Crypto] {s t u : SettlementLedger}

/-- Nothing that a distribution of rewards looks at is less in `t`. -/
structure SameRewards (s t : SettlementLedger) : Prop where
  config : t.toLedgerConfig = s.toLedgerConfig
  epochs : t.settledRewardEpochs = s.settledRewardEpochs
  owners : ∀ bondId, (t.bonds.get? bondId).map BondPosition.owner = (s.bonds.get? bondId).map BondPosition.owner
  treasury : s.balanceOf s.treasury ≤ t.balanceOf s.treasury
  rewards : ∀ epoch account amount bondId,
    t.Recorded (eventFor s.toLedgerConfig "REWARD" epoch account amount bondId []) ↔
      s.Recorded (eventFor s.toLedgerConfig "REWARD" epoch account amount bondId [])

theorem SameRewards.refl (s : SettlementLedger) : s.SameRewards s :=
  ⟨rfl, rfl, fun _ => rfl, le_rfl, fun _ _ _ _ => Iff.rfl⟩

theorem SameRewards.trans (first : s.SameRewards t) (second : t.SameRewards u) : s.SameRewards u := by
  have treasury : t.treasury = s.treasury := congrArg LedgerConfig.treasury first.config
  refine ⟨second.config.trans first.config, second.epochs.trans first.epochs,
    fun bondId => (second.owners bondId).trans (first.owners bondId), first.treasury.trans (treasury ▸ second.treasury), ?_⟩
  intro epoch account amount bondId
  rw [← first.rewards epoch account amount bondId, ← first.config]
  exact second.rewards epoch account amount bondId

theorem SameRewards.unknown_iff (same : s.SameRewards t) (bondId : String) :
    t.bonds.get? bondId = none ↔ s.bonds.get? bondId = none := by
  rw [← Option.map_eq_none_iff, same.owners, Option.map_eq_none_iff]

/-- Every event of the loop is a reward. -/
theorem exists_of_mem_rewardEvents {config : LedgerConfig} {bonds : Dict String BondPosition}
    {epoch total totalWeight distributed : Int} {entries : List (String × Int)} {event : SettlementEvent}
    (member : event ∈ rewardEvents config bonds epoch total totalWeight distributed entries) :
    ∃ account amount bondId, event = eventFor config "REWARD" epoch account amount bondId [] := by
  induction entries generalizing distributed with
  | nil => cases member
  | cons entry entries ih =>
    rcases List.mem_cons.mp member with rfl | later
    · exact ⟨_, _, _, rfl⟩
    · exact ih later

theorem SameRewards.accepts (same : s.SameRewards t) {epoch total : Int} {weights : Dict String Int}
    (enough : total ≤ s.balanceOf s.treasury) : (SettlementCall.distributeRewards epoch total weights).Accepts t ↔
      (SettlementCall.distributeRewards epoch total weights).Accepts s := by
  have treasury : t.treasury = s.treasury := congrArg LedgerConfig.treasury same.config
  have owners : ownerOf t.bonds = ownerOf s.bonds := by
    funext bondId
    rw [ownerOf, ownerOf, same.owners]
  have events : ∀ entries distributed, rewardEvents t.toLedgerConfig t.bonds epoch total weights.values.sum distributed entries =
      rewardEvents s.toLedgerConfig s.bonds epoch total weights.values.sum distributed entries := by
    intro entries
    induction entries with
    | nil => exact fun _ => rfl
    | cons entry entries ih =>
      intro distributed
      simp only [rewardEvents]
      rw [ih, owners, same.config]
  have enough' : total ≤ t.balanceOf t.treasury := by
    rw [treasury]
    exact enough.trans same.treasury
  have distributable : t.Distributable epoch total weights ↔ s.Distributable epoch total weights := by
    constructor
    · exact fun able => ⟨same.epochs ▸ able.new, able.positive, able.some, able.weights, enough⟩
    · exact fun able => ⟨same.epochs ▸ able.new, able.positive, able.some, able.weights, enough'⟩
  refine and_congr distributable ⟨fun clear => ⟨?_, ?_, ?_⟩, fun clear => ⟨?_, ?_, ?_⟩⟩
  · exact fun entry member unknown => clear.known entry member ((same.unknown_iff _).mpr unknown)
  · intro event member recorded
    obtain ⟨account, amount, bondId, rfl⟩ := exists_of_mem_rewardEvents member
    rw [← events] at member
    exact clear.new _ member ((same.rewards _ _ _ _).mpr recorded)
  · rw [← events]
    exact clear.distinct
  · exact fun entry member unknown => clear.known entry member ((same.unknown_iff _).mp unknown)
  · intro event member recorded
    rw [events] at member
    obtain ⟨account, amount, bondId, rfl⟩ := exists_of_mem_rewardEvents member
    exact clear.new _ member ((same.rewards _ _ _ _).mp recorded)
  · rw [events]
    exact clear.distinct

/-- Slashing without a reporter: nothing but used evidence or an unknown bond
is in its way. -/
inductive Docks (s : SettlementLedger) (bondId : String) (amount epoch : Int) (evidenceId : String) : Prop
  | refused {e : EconomyError} (refused : evidenceId ∈ s.slashEvidenceIds ∨ s.bonds.get? bondId = none)
      (run : slash bondId amount epoch evidenceId none s = .error e s)
  | returned {events : List SettlementEvent} {t : SettlementLedger} (new : evidenceId ∉ s.slashEvidenceIds)
      (known : s.bonds.get? bondId ≠ none) (same : s.SameRewards t)
      (used : t.slashEvidenceIds = insert evidenceId s.slashEvidenceIds) (sound : t.Sound) (evidenced : t.Evidenced)
      (run : slash bondId amount epoch evidenceId none s = .ok events t)

theorem slash_docks (free : CollisionFree) (sound : s.Sound) (evidenced : s.Evidenced) {amount : Int} (positive : 0 < amount)
    {evidenceId : String} (named : evidenceId ≠ "") (bondId : String) (epoch : Int) :
    s.Docks bondId amount epoch evidenceId := by
  cases slash_cases sound bondId amount epoch evidenceId none with
  | refused refused run =>
    refine .refused ?_ run
    by_cases used : evidenceId ∈ s.slashEvidenceIds
    · exact Or.inl used
    · refine Or.inr (Option.eq_none_iff_forall_ne_some.mpr fun found held => ?_)
      exact refused found ⟨positive, named, used, held⟩
  | stopped able least share blocked _ _ _ =>
    rcases blocked with recorded | ⟨something, -⟩
    · exact absurd (evidenced _ _ _ _ recorded) able.new
    · exact absurd (share.trans (reporterShare_none _ _)) something
  | @returned found penalty reward able least share nothing _ run =>
    subst nothing
    have natural : 0 ≤ penalty := (sound.of_penalizedBy able least).1
    refine .returned able.new (by rw [able.held]; exact Option.some_ne_none found) ?_ rfl
      (Sound.of_slashed sound able least natural) ((slash_marks free).step run |>.evidenced evidenced) run
    refine ⟨rfl, rfl, fun other => ?_, ?_, fun epoch' account amount' other => ?_⟩
    · change (((s.bonds.set bondId (SettlementLedger.penalized found penalty)).get? other).map BondPosition.owner) = _
      rw [Dict.get?_set]
      split
      · rename_i same
        subst same
        rw [able.held]
        rfl
      · rfl
    · unfold slashed
      rw [balanceOf_credited, if_pos rfl]
      change s.balanceOf s.treasury ≤ s.balanceOf s.treasury + (penalty - 0)
      omega
    · refine (recorded_addEvent _ _ _).trans (or_iff_right ?_)
      intro same
      exact absurd (eventFor_inj free same).1 (by decide)
  | rewarded able least share something _ _ => exact absurd (share.trans (reporterShare_none _ _)) something

end SettlementLedger

namespace RandomnessIncentiveManager

variable {validatorBonds : Dict String String} {round penalty : Int} {v : String}

theorem evidenceId_inj {epoch : Int} {v' : String} (same : evidenceId epoch round v = evidenceId epoch round v') : v = v' := by
  unfold evidenceId at same
  exact (String.append_right_inj _).mp same

theorem evidenceId_named (epoch round : Int) (v : String) : evidenceId epoch round v ≠ "" := by
  intro empty
  unfold evidenceId at empty
  simp at empty

/-- The ledger refuses the slash of the validator before it changes anything. -/
def Shielded (s : Economy) (validatorBonds : Dict String String) (round : Int) (v : String) : Prop :=
  evidenceId s.manager.snapshot.epoch round v ∈ s.ledger.slashEvidenceIds ∨
    ∀ bondId, validatorBonds.get? v = some bondId → s.ledger.bonds.get? bondId = none

variable [Crypto] {s t u : Economy}

/-- Ledger and manager take the penalty. -/
structure Penalizable (s : Economy) (validatorBonds : Dict String String) (round : Int) (v : String) : Prop where
  unshielded : ¬ Shielded s validatorBonds round v
  current : s.manager.snapshot.epoch = s.manager.epoch
  first : MembershipManager.nonRevealId v s.manager.snapshot.epoch round ∉ s.manager.nonRevealHistory

/-- What keeps the slashes of a round from being stopped half way. -/
structure Steady (s : Economy) : Prop where
  sound : s.ledger.Sound
  evidenced : s.ledger.Evidenced

/-- What the penalties of `vs` leave. -/
structure Penalizes (s : Economy) (round : Int) (vs : List String) (t : Economy) : Prop where
  same : s.ledger.SameRewards t.ledger
  used : ∀ evidence, evidence ∈ t.ledger.slashEvidenceIds ↔
    evidence ∈ s.ledger.slashEvidenceIds ∨ ∃ v ∈ vs, evidence = evidenceId s.manager.snapshot.epoch round v
  history : ∀ id, id ∈ t.manager.nonRevealHistory ↔ id ∈ s.manager.nonRevealHistory ∨
    ∃ v ∈ vs, id = MembershipManager.nonRevealId v s.manager.snapshot.epoch round
  epoch : t.manager.epoch = s.manager.epoch
  snapshot : t.manager.snapshot.epoch = s.manager.snapshot.epoch
  known : ∀ w, s.manager.records.get? w ≠ none → t.manager.records.get? w ≠ none
  steady : Steady t
  rounds : t.rounds = s.rounds
  store : t.store = s.store
  bound : t.beaconBound = s.beaconBound

theorem Penalizes.append {vs vs' : List String} (first : Penalizes s round vs t) (second : Penalizes t round vs' u) :
    Penalizes s round (vs ++ vs') u where
  same := first.same.trans second.same
  used evidence := by
    rw [second.used, first.used, first.snapshot, or_assoc]
    simp only [List.mem_append, or_and_right, exists_or]
  history id := by
    rw [second.history, first.history, first.snapshot, or_assoc]
    simp only [List.mem_append, or_and_right, exists_or]
  epoch := second.epoch.trans first.epoch
  snapshot := second.snapshot.trans first.snapshot
  known w held := second.known w (first.known w held)
  steady := second.steady
  rounds := second.rounds.trans first.rounds
  store := second.store.trans first.store
  bound := second.bound.trans first.bound

/-- A penalty is of no concern to the other validators. -/
theorem Penalizes.shielded_iff {vs : List String} (penalizes : Penalizes s round vs t) (other : v ∉ vs) :
    Shielded t validatorBonds round v ↔ Shielded s validatorBonds round v := by
  unfold Shielded
  rw [penalizes.snapshot, penalizes.used]
  refine or_congr ⟨?_, Or.inl⟩ ?_
  · rintro (old | ⟨w, member, same⟩)
    · exact old
    · exact absurd (evidenceId_inj same ▸ member) other
  · simp only [penalizes.same.unknown_iff]

theorem nonRevealId_inj (free : CollisionFree) {epoch : Int} {v' : String}
    (same : MembershipManager.nonRevealId v epoch round = MembershipManager.nonRevealId v' epoch round) : v = v' := by
  have named := lookup_eq_of_digest free same "validator_id"
  simpa [List.lookup_cons, Json.sortKeys] using named

theorem Penalizes.penalizable_iff (free : CollisionFree) {vs : List String} (penalizes : Penalizes s round vs t)
    (other : v ∉ vs) : Penalizable t validatorBonds round v ↔ Penalizable s validatorBonds round v := by
  have shielded := @Penalizes.shielded_iff validatorBonds _ _ _ _ _ _ penalizes other
  have history : MembershipManager.nonRevealId v s.manager.snapshot.epoch round ∈ t.manager.nonRevealHistory ↔
      MembershipManager.nonRevealId v s.manager.snapshot.epoch round ∈ s.manager.nonRevealHistory := by
    rw [penalizes.history]
    refine ⟨?_, Or.inl⟩
    rintro (old | ⟨w, member, same⟩)
    · exact old
    · exact absurd (nonRevealId_inj free same ▸ member) other
  constructor
  · rintro ⟨unshielded, current, first⟩
    rw [penalizes.snapshot] at current first
    exact ⟨fun was => unshielded (shielded.mpr was), current.trans penalizes.epoch, fun was => first (history.mpr was)⟩
  · rintro ⟨unshielded, current, first⟩
    refine ⟨fun is => unshielded (shielded.mp is), ?_, ?_⟩
    · rw [penalizes.snapshot, penalizes.epoch, current]
    · rw [penalizes.snapshot]
      exact fun is => first (history.mp is)

/-- The ways in which a penalty ends. -/
inductive PenalizeCases (s : Economy) (validatorBonds : Dict String String) (round penalty : Int) (v : String) : Prop
  | shielded {e : EconomyError} (shielded : Shielded s validatorBonds round v)
      (run : penalize validatorBonds round penalty v s = .error e s)
  | torn {e : EconomyError} {t : Economy} (unshielded : ¬ Shielded s validatorBonds round v)
      (blocked : ¬ Penalizable s validatorBonds round v)
      (used : evidenceId s.manager.snapshot.epoch round v ∈ t.ledger.slashEvidenceIds)
      (run : penalize validatorBonds round penalty v s = .error e t)
  | returned {ids : List String} {t : Economy} (able : Penalizable s validatorBonds round v) (penalizes : Penalizes s round [v] t)
      (run : penalize validatorBonds round penalty v s = .ok ids t)

/-- The manager comes after the ledger, and it may still refuse. -/
theorem penalizeNonReveal_cases {record : ValidatorRecord} (held : s.manager.records.get? v = some record)
    (positive : 0 < penalty) (epoch : Int) :
    (epoch = s.manager.epoch ∧ MembershipManager.nonRevealId v epoch round ∉ s.manager.nonRevealHistory ∧
      MembershipManager.penalizeNonReveal v epoch round penalty s = .ok (MembershipManager.dockedRecord record penalty)
        (s.setManager ((s.manager.setRecord v (MembershipManager.dockedRecord record penalty)).addNonReveal
          (MembershipManager.nonRevealId v epoch round)).rebuilt)) ∨
    (¬ (epoch = s.manager.epoch ∧ MembershipManager.nonRevealId v epoch round ∉ s.manager.nonRevealHistory) ∧
      ∃ e, MembershipManager.penalizeNonReveal v epoch round penalty s = .error e s) := by
  unfold MembershipManager.penalizeNonReveal
  rw [get_bind_apply]
  by_cases current : epoch = s.manager.epoch
  case neg => exact Or.inr ⟨fun both => current both.1, _, raiseIf_bind_pos current _ _ _⟩
  rw [raiseIf_bind_neg (not_not.mpr current), raiseIf_bind_neg (by omega), held]
  dsimp only
  by_cases again : MembershipManager.nonRevealId v epoch round ∈ s.manager.nonRevealHistory
  · exact Or.inr ⟨fun both => both.2 again, _, raiseIf_bind_pos again _ _ _⟩
  · rw [raiseIf_bind_neg again]
    exact Or.inl ⟨current, again, rfl⟩

theorem penalize_cases (free : CollisionFree) (steady : Steady s) (positive : 0 < penalty)
    (bonded : validatorBonds.contains v = true) (known : s.manager.records.get? v ≠ none) :
    PenalizeCases s validatorBonds round penalty v := by
  obtain ⟨bondId, named⟩ := Dict.contains_iff.mp bonded
  obtain ⟨record, held⟩ := Option.ne_none_iff_exists'.mp known
  have start : penalize validatorBonds round penalty v s =
      (rethrow EconomyError.isSettlement incentiveError
        (onLedger (SettlementLedger.slash bondId penalty s.manager.snapshot.epoch
          (evidenceId s.manager.snapshot.epoch round v) none)) >>= fun events => do
        let _ ← rethrow EconomyError.isMembership incentiveError
          (MembershipManager.penalizeNonReveal v s.manager.snapshot.epoch round penalty)
        return events.map SettlementEvent.eventId) s := by
    unfold penalize
    rw [get_bind_apply]
    simp only [named]
  cases SettlementLedger.slash_docks free steady.sound steady.evidenced positive
    (evidenceId_named s.manager.snapshot.epoch round v) bondId s.manager.snapshot.epoch with
  | refused refused run =>
    refine .shielded (refused.imp_right fun unknown other named' => ?_)
      (start.trans (bind_of_error (rethrow_of_error (onPart_of_error run))))
    cases named.symm.trans named'
    exact unknown
  | @returned events l new present same used sound evidenced run =>
    have unshielded : ¬ Shielded s validatorBonds round v := fun shielded =>
      shielded.elim new fun unknown => present (unknown bondId named)
    have slashed : rethrow EconomyError.isSettlement incentiveError
        (onLedger (SettlementLedger.slash bondId penalty s.manager.snapshot.epoch
          (evidenceId s.manager.snapshot.epoch round v) none)) s = .ok events (s.setLedger l) :=
      rethrow_of_ok (onPart_of_ok run)
    rw [bind_of_ok slashed] at start
    have held' : (s.setLedger l).manager.records.get? v = some record := held
    rcases penalizeNonReveal_cases held' positive s.manager.snapshot.epoch with
      ⟨current, first, docked⟩ | ⟨late, e, raised⟩
    · refine .returned ⟨unshielded, current, first⟩ ?_ (start.trans (bind_of_ok (rethrow_of_ok docked)))
      refine ⟨same, fun evidence => ?_, fun id => ?_, rfl, current.symm, fun w was => ?_, ⟨sound, evidenced⟩, rfl, rfl, rfl⟩
      · change evidence ∈ l.slashEvidenceIds ↔ _
        rw [used, Finset.mem_insert, or_comm]
        simp
      · change id ∈ insert (MembershipManager.nonRevealId v s.manager.snapshot.epoch round) s.manager.nonRevealHistory ↔ _
        rw [Finset.mem_insert, or_comm]
        simp
      · obtain ⟨other, was⟩ := Option.ne_none_iff_exists'.mp was
        exact Option.isSome_iff_ne_none.mp (Dict.contains_set (Option.isSome_iff_exists.mpr ⟨other, was⟩))
    · refine .torn unshielded (fun able => late ⟨able.current, able.first⟩) ?_
        (start.trans (bind_of_error (rethrow_of_error raised)))
      change _ ∈ l.slashEvidenceIds
      rw [used]
      exact Finset.mem_insert_self _ _

/-- The ways in which the penalty loop ends. -/
inductive PenaltyCases (s : Economy) (validatorBonds : Dict String String) (round penalty : Int) (vs : List String) : Prop
  | shielded {v : String} {later : List String} {e : EconomyError} (first : vs = v :: later)
      (shielded : Shielded s validatorBonds round v) (run : penalizeAll validatorBonds round penalty vs s = .error e s)
  | torn {e : EconomyError} {t : Economy} {evidence : String}
      (unshielded : ∀ v later, vs = v :: later → ¬ Shielded s validatorBonds round v)
      (blocked : ¬ ∀ v ∈ vs, Penalizable s validatorBonds round v) (new : evidence ∉ s.ledger.slashEvidenceIds)
      (used : evidence ∈ t.ledger.slashEvidenceIds) (run : penalizeAll validatorBonds round penalty vs s = .error e t)
  | returned {ids : List String} {t : Economy} (able : ∀ v ∈ vs, Penalizable s validatorBonds round v)
      (penalizes : Penalizes s round vs t) (run : penalizeAll validatorBonds round penalty vs s = .ok ids t)

theorem penalizeAll_cases (free : CollisionFree) (steady : Steady s) (positive : 0 < penalty) {vs : List String}
    (distinct : vs.Nodup) (bonded : ∀ v ∈ vs, validatorBonds.contains v = true)
    (known : ∀ v ∈ vs, s.manager.records.get? v ≠ none) : PenaltyCases s validatorBonds round penalty vs := by
  induction vs generalizing s with
  | nil =>
    refine .returned (by simp) ⟨.refl _, by simp, by simp, rfl, rfl, fun _ => id, steady, rfl, rfl, rfl⟩ rfl
  | cons v vs ih =>
    obtain ⟨other, distinct⟩ := List.nodup_cons.mp distinct
    obtain ⟨bonded, bonded'⟩ := List.forall_mem_cons.mp bonded
    obtain ⟨known, known'⟩ := List.forall_mem_cons.mp known
    have start : penalizeAll validatorBonds round penalty (v :: vs) s = (do
        let first ← penalize validatorBonds round penalty v
        let later ← penalizeAll validatorBonds round penalty vs
        return first ++ later : PyEconomy (List String)) s := by
      rw [penalizeAll, if_neg (by omega)]
    cases @penalize_cases _ round _ _ _ _ free steady positive bonded known with
    | shielded shielded run => exact .shielded rfl shielded (start.trans (bind_of_error run))
    | torn unshielded blocked used run =>
      refine .torn ?_ (fun able => blocked (able v List.mem_cons_self)) (fun was => unshielded (Or.inl was)) used
        (start.trans (bind_of_error run))
      rintro _ _ ⟨⟩
      exact unshielded
    | @returned ids t able penalizes run =>
      rw [bind_of_ok run] at start
      have fresh : ∀ w ∈ vs, w ∉ [v] := fun w member same => other (List.mem_singleton.mp same ▸ member)
      have used : evidenceId s.manager.snapshot.epoch round v ∈ t.ledger.slashEvidenceIds :=
        (penalizes.used _).mpr (Or.inr ⟨v, List.mem_singleton_self v, rfl⟩)
      have unshielded : ∀ w later, v :: vs = w :: later → ¬ Shielded s validatorBonds round w := by
        rintro _ _ ⟨⟩
        exact able.unshielded
      have new : evidenceId s.manager.snapshot.epoch round v ∉ s.ledger.slashEvidenceIds := fun was =>
        able.unshielded (Or.inl was)
      cases ih penalizes.steady distinct bonded' fun w member => penalizes.known w (known' w member) with
      | @shielded w later e first shielded run =>
        have member : w ∈ vs := first ▸ List.mem_cons_self
        refine .torn unshielded (fun all => ?_) new used (start.trans (bind_of_error run))
        exact (all w (List.mem_cons_of_mem v member)).unshielded ((penalizes.shielded_iff (fresh w member)).mp shielded)
      | @torn e u evidence _ blocked new' used' run =>
        refine .torn unshielded (fun all => blocked fun w member => ?_) (fun was => new' ?_) used'
          (start.trans (bind_of_error run))
        · exact (penalizes.penalizable_iff free (fresh w member)).mpr (all w (List.mem_cons_of_mem v member))
        · exact (penalizes.used _).mpr (Or.inl was)
      | @returned later u able' penalizes' run =>
        refine .returned (List.forall_mem_cons.mpr ⟨able, fun w member => ?_⟩) (penalizes.append penalizes')
          (start.trans (bind_of_ok run))
        exact (penalizes.penalizable_iff free (fresh w member)).mp (able' w member)

end RandomnessIncentiveManager

end Mosaic
