import Mosaic.NonRevealPenalties

namespace Mosaic
open CanonicalJson Effects Economy RandomnessIncentiveManager

/-- The manager and the ledger are as they were. -/
def Economy.Unchanged (s t : Economy) : Prop := t.manager = s.manager ∧ t.ledger = s.ledger

/-- The arguments of `settle_round`. -/
structure RoundArguments where
  commitments : List RandomnessCommitment
  reveals : List RandomnessReveal
  validatorBonds : Dict String String
  round : Int
  revealReward : Int
  nonRevealPenalty : Int

namespace RoundArguments

def commitmentMap (r : RoundArguments) : Dict String RandomnessCommitment :=
  .ofList (r.commitments.map fun item => (item.validatorId, item))

def revealMap (r : RoundArguments) : Dict String RandomnessReveal :=
  .ofList (r.reveals.map fun item => (item.validatorId, item))

/-- Whom the round penalizes. -/
def punished (r : RoundArguments) : List String :=
  if 0 < r.nonRevealPenalty then nonRevealed r.commitmentMap r.revealMap else []

/-- What the round asks the ledger to distribute. -/
def rewardCall (r : RoundArguments) (epoch : Int) : Option SettlementCall :=
  if r.revealReward ≠ 0 ∧ r.revealMap.entries ≠ [] then
    some (.distributeRewards (epoch * 1000000 + r.round) (r.revealReward * r.revealMap.keys.length)
      (.ofList ((r.revealMap.keys.filterMap r.validatorBonds.get?).map fun bondId => (bondId, 1))))
  else
    none

/-- The round changes the ledger if it can. -/
def Touches (r : RoundArguments) : Prop := r.punished ≠ [] ∨ r.revealReward ≠ 0 ∧ r.revealMap.entries ≠ []

variable [Crypto] {r : RoundArguments} {s t : Economy}

def settle (r : RoundArguments) : PyEconomy RandomnessRoundSettlement :=
  settleRound r.commitments r.reveals r.validatorBonds r.round r.revealReward r.nonRevealPenalty

/-- The round passes every check that comes before the first penalty. -/
structure Settleable (r : RoundArguments) (s : Economy) : Prop where
  amounts : 0 ≤ r.revealReward ∧ 0 ≤ r.nonRevealPenalty
  some : r.commitmentMap.entries ≠ []
  backed : ∀ v ∈ r.revealMap.keys, r.commitmentMap.contains v = true
  active : ∀ v ∈ r.commitmentMap.keys, s.manager.snapshot.byId.contains v = true
  bonded : ∀ v ∈ r.commitmentMap.keys, r.validatorBonds.contains v = true
  funded : r.revealReward ≠ 0 → r.revealReward * r.revealMap.keys.length ≤ s.ledger.balanceOf s.ledger.treasury
  made : ∃ made, beacon s.manager r.commitmentMap r.revealMap r.round = .ok made

/-- The round goes through: the manager and the ledger take every penalty, and
the ledger takes the rewards. -/
structure Settles (r : RoundArguments) (s : Economy) : Prop where
  settleable : r.Settleable s
  penalties : ∀ v ∈ r.punished, Penalizable s r.validatorBonds r.round v
  rewards : ∀ call ∈ r.rewardCall s.manager.snapshot.epoch, call.Accepts s.ledger

/-- The round fails before its first change, or it does not fail. -/
def Clean (r : RoundArguments) (s : Economy) : Prop := r.Settleable s →
  match r.punished with
  | [] => ∀ call ∈ r.rewardCall s.manager.snapshot.epoch, call.Clean s.ledger
  | v :: _ => Shielded s r.validatorBonds r.round v ∨ r.Settles s

theorem Settles.clean (settles : r.Settles s) : r.Clean s := by
  intro settleable
  split
  · intro call asked
    have accepts := settles.rewards call asked
    unfold rewardCall at asked
    split at asked
    · cases asked
      exact fun _ => Or.inl accepts.2
    · cases asked
  · exact Or.inr settles

/-- The ways in which a round ends. -/
inductive Ends (r : RoundArguments) (s : Economy) : Prop
  | raised {e : EconomyError} {t : Economy} (fails : ¬ r.Settles s)
      (clean : s.Unchanged t ↔ r.Clean s) (run : r.settle s = .error e t)
  | returned {settlement : RandomnessRoundSettlement} {t : Economy} (settles : r.Settles s)
      (touched : s.Unchanged t ↔ ¬ r.Touches) (rounds : t.rounds = s.rounds)
      (store : t.store = s.store) (bound : t.beaconBound = s.beaconBound) (run : r.settle s = .ok settlement t)

/-- The penalty loop goes over those that are punished. -/
theorem penalizeAll_punished : penalizeAll r.validatorBonds r.round r.nonRevealPenalty
    (nonRevealed r.commitmentMap r.revealMap) s =
      penalizeAll r.validatorBonds r.round r.nonRevealPenalty r.punished s := by
  unfold punished
  split
  · rfl
  · rename_i free
    induction nonRevealed r.commitmentMap r.revealMap with
    | nil => rfl
    | cons v vs ih =>
      have skip : penalizeAll r.validatorBonds r.round r.nonRevealPenalty (v :: vs) =
          penalizeAll r.validatorBonds r.round r.nonRevealPenalty vs := if_pos (by omega)
      rw [skip]
      exact ih

omit [Crypto] in
theorem punished_distinct : r.punished.Nodup := by
  unfold punished
  split
  · exact (sortedBy_perm id _).nodup_iff.mpr (r.commitmentMap.keys_nodup.filter _)
  · exact .nil

omit [Crypto] in
theorem mem_punished {v : String} (member : v ∈ r.punished) : v ∈ r.commitmentMap.keys := by
  unfold punished at member
  split at member
  · exact (List.mem_filter.mp ((sortedBy_perm id _).mem_iff.mp member)).1
  · cases member

omit [Crypto] in
theorem rewardCall_eq_some {epoch : Int} {call : SettlementCall} (asked : r.rewardCall epoch = some call) :
    (r.revealReward ≠ 0 ∧ r.revealMap.entries ≠ []) ∧ ∃ key weights,
      call = .distributeRewards key (r.revealReward * r.revealMap.keys.length) weights := by
  unfold rewardCall at asked
  split at asked
  · rename_i asks
    cases asked
    exact ⟨asks, _, _, rfl⟩
  · cases asked

theorem reward_cases (t : Economy) :
    (r.rewardCall t.manager.snapshot.epoch = none ∧
      reward r.validatorBonds r.revealMap r.round r.revealReward t = .ok [] t) ∨
    ∃ call, r.rewardCall t.manager.snapshot.epoch = some call ∧
      ((∃ events l, call.run t.ledger = .ok events l ∧ reward r.validatorBonds r.revealMap r.round r.revealReward t =
        .ok (events.map SettlementEvent.eventId) (t.setLedger l)) ∨
      ∃ e e' l, call.run t.ledger = .error e l ∧
        reward r.validatorBonds r.revealMap r.round r.revealReward t = .error e' (t.setLedger l)) := by
  unfold reward rewardCall
  rw [get_bind_apply]
  split
  · refine Or.inr ⟨_, rfl, ?_⟩
    cases ran : SettlementLedger.distributeRewards (t.manager.snapshot.epoch * 1000000 + r.round)
        (r.revealReward * r.revealMap.keys.length)
        (.ofList ((r.revealMap.keys.filterMap r.validatorBonds.get?).map fun bondId => (bondId, (1 : Int)))) t.ledger with
    | ok events l => exact Or.inl ⟨events, l, ran, bind_of_ok (rethrow_of_ok (onPart_of_ok ran))⟩
    | error e l => exact Or.inr ⟨e, _, l, ran, bind_of_error (rethrow_of_error (onPart_of_error ran))⟩
  · exact Or.inl ⟨rfl, rfl⟩

/-- A program that fails without a change, or ends as `P` says. -/
def Starts {α : Type} (able : Prop) (x : PyEconomy α) (s : Economy) (P : EStateM.Result EconomyError Economy α → Prop) :
    Prop := (¬ able ∧ ∃ e, x s = .error e s) ∨ able ∧ P (x s)

omit [Crypto] in
theorem Starts.guard {α : Type} {able bad : Prop} [Decidable bad] {error : EconomyError} {f : PUnit → PyEconomy α}
    {P : EStateM.Result EconomyError Economy α → Prop} (refuses : bad → ¬ able) (next : ¬ bad → Starts able (f ⟨⟩) s P) :
    Starts able (raiseIf bad error >>= f) s P := by
  by_cases raised : bad
  · exact Or.inl ⟨refuses raised, error, raiseIf_bind_pos raised _ _ _⟩
  · unfold Starts
    rw [raiseIf_bind_neg raised]
    exact next raised

omit [Crypto] in
theorem Starts.get_bind {α : Type} {able : Prop} {f : Economy → PyEconomy α}
    {P : EStateM.Result EconomyError Economy α → Prop} (next : Starts able (f s) s P) :
    Starts able (MonadState.get >>= f) s P := next

omit [Crypto] in
theorem not_any_not_iff {keys : List String} {f : String → Bool} :
    ¬ (keys.any fun v => !f v) = true ↔ ∀ v ∈ keys, f v = true := by simp

/-- The steps of a round that change something. -/
def apply (r : RoundArguments) (made : RandomnessBeacon) : PyEconomy RandomnessRoundSettlement := do
  let penaltyEventIds ← penalizeAll r.validatorBonds r.round r.nonRevealPenalty (nonRevealed r.commitmentMap r.revealMap)
  let rewardEventIds ← reward r.validatorBonds r.revealMap r.round r.revealReward
  let t ← get
  let epoch := t.manager.snapshot.epoch
  return {
    epoch
    round := r.round
    beacon := made
    committedIds := sorted r.commitmentMap.keys
    revealedIds := sorted r.revealMap.keys
    nonRevealedIds := nonRevealed r.commitmentMap r.revealMap
    rewardEventIds
    penaltyEventIds
    settlementId := "MOSAIC/RANDOMNESS-SETTLEMENT/" ++ toString epoch ++ "/" ++ toString r.round }

/-- What comes before the first penalty changes nothing. -/
theorem settle_starts (r : RoundArguments) (s : Economy) :
    Starts (r.Settleable s) r.settle s (fun result => ∃ made, result = r.apply made s) := by
  unfold settle settleRound
  refine .get_bind ?_
  refine .guard (fun negative able => ?_) fun natural => ?_
  · obtain ⟨reward, penalty⟩ := able.amounts
    omega
  refine .guard (fun none able => able.some none) fun some => ?_
  refine .guard (fun unbacked able => not_any_not_iff.mpr able.backed unbacked) fun backed => ?_
  refine .guard (fun inactive able => not_any_not_iff.mpr able.active inactive) fun active => ?_
  refine .guard (fun unbonded able => not_any_not_iff.mpr able.bonded unbonded) fun bonded => ?_
  refine .guard (fun poor able => absurd (able.funded poor.1) (not_le.mpr poor.2)) fun funded => ?_
  cases result : beacon s.manager r.commitmentMap r.revealMap r.round with
  | error e =>
    have raised : (ofExcept (beacon s.manager r.commitmentMap r.revealMap r.round) : PyEconomy _) s = .error e s := by
      rw [result]
      rfl
    refine Or.inl ⟨fun able => ?_, _, bind_of_error (rethrow_of_error raised)⟩
    obtain ⟨other, ok⟩ := able.made
    cases result.symm.trans ok
  | ok made =>
    have ran : (ofExcept (beacon s.manager r.commitmentMap r.revealMap r.round) : PyEconomy _) s = .ok made s := by
      rw [result]
      rfl
    refine Or.inr ⟨?_, made, bind_of_ok (rethrow_of_ok ran)⟩
    exact {
      amounts := by omega
      some := some
      backed := not_any_not_iff.mp backed
      active := not_any_not_iff.mp active
      bonded := not_any_not_iff.mp bonded
      funded := fun asks => not_lt.mp fun poor => funded ⟨asks, poor⟩
      made := ⟨made, result⟩ }

omit [Crypto] in
theorem changed_of_used {evidence : String} (new : evidence ∉ s.ledger.slashEvidenceIds)
    (used : evidence ∈ t.ledger.slashEvidenceIds) : ¬ s.Unchanged t := fun same => new (same.2 ▸ used)

/-- The rewards, after penalties or without any. -/
theorem apply_ends (free : CollisionFree) (steady : Steady s) (settleable : r.Settleable s) (made : RandomnessBeacon)
    {ids : List String} (able : ∀ v ∈ r.punished, Penalizable s r.validatorBonds r.round v)
    (penalizes : Penalizes s r.round r.punished t)
    (run : penalizeAll r.validatorBonds r.round r.nonRevealPenalty r.punished s = .ok ids t)
    (whole : r.settle s = r.apply made s) : r.Ends s := by
  have ran : penalizeAll r.validatorBonds r.round r.nonRevealPenalty (nonRevealed r.commitmentMap r.revealMap) s = .ok ids t :=
    penalizeAll_punished.trans run
  have start := whole.trans (bind_of_ok ran)
  have marked : ∀ v ∈ r.punished, evidenceId s.manager.snapshot.epoch r.round v ∉ s.ledger.slashEvidenceIds ∧
      evidenceId s.manager.snapshot.epoch r.round v ∈ t.ledger.slashEvidenceIds := fun v member =>
    ⟨fun was => (able v member).unshielded (Or.inl was), (penalizes.used _).mpr (Or.inr ⟨v, member, rfl⟩)⟩
  have still : r.punished = [] → t = s := by
    intro none
    rw [none] at run
    cases run
    rfl
  have epoch := penalizes.snapshot
  rcases reward_cases (r := r) t with ⟨none, rewarded⟩ | ⟨call, asked, ends⟩
  · have returned : r.settle s = .ok _ t := start.trans (bind_of_ok rewarded)
    rw [epoch] at none
    refine .returned ⟨settleable, able, by simp [none]⟩ ⟨?_, fun untouched => ?_⟩ penalizes.rounds penalizes.store
      penalizes.bound returned
    · rintro same (punishes | asks)
      · obtain ⟨v, member⟩ := List.exists_mem_of_ne_nil _ punishes
        exact changed_of_used (marked v member).1 (marked v member).2 same
      · exact absurd none (by simp [rewardCall, asks])
    · cases still (not_not.mp fun punishes => untouched (Or.inl punishes))
      exact ⟨rfl, rfl⟩
  obtain ⟨asks, key, weights, rfl⟩ := rewardCall_eq_some asked
  rw [epoch] at asked
  have accepts : (SettlementCall.distributeRewards key (r.revealReward * r.revealMap.keys.length) weights).Accepts t.ledger ↔
      (SettlementCall.distributeRewards key (r.revealReward * r.revealMap.keys.length) weights).Accepts s.ledger :=
    penalizes.same.accepts (settleable.funded asks.1)
  have marks := SettlementLedger.run_marks free
    (.distributeRewards key (r.revealReward * r.revealMap.keys.length) weights) t.ledger
  rcases ends with ⟨events, l, paid, rewarded⟩ | ⟨e, e', l, failed, raised⟩
  · have accepted := accepts.mp ((returns_iff penalizes.steady.sound _).mp ⟨_, _, paid⟩)
    have returned : r.settle s = .ok _ (t.setLedger l) := start.trans (bind_of_ok rewarded)
    refine .returned (t := t.setLedger l) ⟨settleable, able, ?_⟩ (iff_of_false ?_ (not_not.mpr (Or.inr asks)))
      penalizes.rounds penalizes.store
      penalizes.bound returned
    · intro other asked'
      cases asked.symm.trans asked'
      exact accepted
    · intro same
      by_cases punishes : r.punished = []
      · cases still punishes
        exact returned_ne penalizes.steady.sound paid same.2
      · obtain ⟨v, member⟩ := List.exists_mem_of_ne_nil _ punishes
        exact changed_of_used (marked v member).1 ((marks.step paid).evidence (marked v member).2) same
  · have refused : ¬ (SettlementCall.distributeRewards key
        (r.revealReward * r.revealMap.keys.length) weights).Accepts s.ledger := by
      intro accepted
      obtain ⟨events, u, paid⟩ := (returns_iff penalizes.steady.sound _).mpr (accepts.mpr accepted)
      cases failed.symm.trans paid
    have fails : ¬ r.Settles s := fun settles => refused (settles.rewards _ asked)
    refine .raised fails ?_ (start.trans (bind_of_error raised))
    by_cases punishes : r.punished = []
    · cases still punishes
      have atomic := distributeRewards_atomic_iff steady.sound key (r.revealReward * r.revealMap.keys.length) weights
      refine ⟨fun same settleable => ?_, fun clean => ?_⟩
      · rw [punishes]
        intro other asked'
        cases asked.symm.trans asked'
        refine atomic.mp fun e' u ran => ?_
        cases failed.symm.trans ran
        exact same.2
      · have cleans := clean settleable
        rw [punishes] at cleans
        exact ⟨rfl, atomic.mpr (cleans _ asked) _ _ failed⟩
    · obtain ⟨v, later, listed⟩ := List.exists_cons_of_ne_nil punishes
      have member : v ∈ r.punished := listed ▸ List.mem_cons_self
      have marks : t.ledger.Marks l := by
        have moved := marks.moves
        rwa [final_of_error failed] at moved
      refine iff_of_false (changed_of_used (marked v member).1 (marks.evidence (marked v member).2)) fun clean => ?_
      have first := clean settleable
      rw [listed] at first
      exact first.elim (able v member).unshielded fails

theorem settle_ends (free : CollisionFree) (steady : Steady s)
    (known : ∀ v, s.manager.snapshot.byId.contains v = true → s.manager.records.get? v ≠ none) (r : RoundArguments) :
    r.Ends s := by
  rcases settle_starts r s with ⟨unable, e, run⟩ | ⟨settleable, made, whole⟩
  · exact .raised (fun settles => unable settles.settleable)
      (iff_of_true ⟨rfl, rfl⟩ fun settleable => absurd settleable unable) run
  have cases : PenaltyCases s r.validatorBonds r.round r.nonRevealPenalty r.punished := by
    by_cases positive : 0 < r.nonRevealPenalty
    · exact penalizeAll_cases free steady positive punished_distinct (fun v member => settleable.bonded v (mem_punished member))
        fun v member => known v (settleable.active v (mem_punished member))
    · have none : r.punished = [] := if_neg positive
      rw [none]
      exact .returned (by simp) ⟨.refl _, by simp, by simp, rfl, rfl, fun _ => id, steady, rfl, rfl, rfl⟩ rfl
  cases cases with
  | @shielded v later e first shielded run =>
    have raised : r.settle s = .error e s := whole.trans (bind_of_error (penalizeAll_punished.trans run))
    refine .raised (fun settles => ?_) (iff_of_true ⟨rfl, rfl⟩ fun _ => ?_) raised
    · exact (settles.penalties v (first ▸ List.mem_cons_self)).unshielded shielded
    · rw [first]
      exact Or.inl shielded
  | @torn e t evidence unshielded blocked new used run =>
    have raised : r.settle s = .error e t := whole.trans (bind_of_error (penalizeAll_punished.trans run))
    have fails : ¬ r.Settles s := fun settles => blocked settles.penalties
    refine .raised fails (iff_of_false (changed_of_used new used) fun clean => ?_) raised
    have first := clean settleable
    split at first
    · rename_i none
      rw [none] at blocked
      exact blocked (by simp)
    · rename_i v later listed
      exact first.elim (unshielded v later listed) fails
  | returned able penalizes run => exact apply_ends free steady settleable made able penalizes run whole

end RoundArguments

namespace BeaconRoundCoordinator

variable [Crypto] {s t : Economy}

/-- The arguments with which `finalize` settles the round. -/
def arguments (s : Economy) (round revealReward nonRevealPenalty : Int) : RoundArguments where
  commitments := itemsOf s.rounds.commitments s.manager.snapshot.epoch round
  reveals := itemsOf s.rounds.reveals s.manager.snapshot.epoch round
  validatorBonds := s.manager.validatorBonds
  round
  revealReward
  nonRevealPenalty

/-- The store, where there is one, takes the rows that `finalize` puts. -/
def RowsTaken (s : Economy) : Prop :=
  s.beaconBound = true → s.store.refusal "settlement_state" = none ∧ s.store.refusal "beacon_round" = none

/-- The round is settled already, or empty, or it fails before its first change,
or all of it goes through, its rows included. -/
def FinalizesClean (s : Economy) (round revealReward nonRevealPenalty : Int) : Prop :=
  s.rounds.settlements.get? (s.manager.snapshot.epoch, round) = none →
  (arguments s round revealReward nonRevealPenalty).commitments ≠ [] →
    (arguments s round revealReward nonRevealPenalty).Clean s ∧
      ((arguments s round revealReward nonRevealPenalty).Settles s →
        (arguments s round revealReward nonRevealPenalty).Touches → RowsTaken s)

/-- The last lines of `finalize`. -/
theorem rows_cases (t : Economy) (settlement : RandomnessRoundSettlement) (key : Int × Int) :
    let rest : PyEconomy RandomnessRoundSettlement := do
      modify fun s => s.setRounds { s.rounds with settlements := s.rounds.settlements.set key settlement }
      let t ← get
      if t.beaconBound then do
        persist
        onStore (EconomyStore.put "beacon_round" settlement.settlementId
          (.beaconRound settlement t.manager.snapshot.root t.ledger.stateRoot))
        return settlement
      else
        return settlement
    (RowsTaken t ∧ ∃ u, rest t = .ok settlement u) ∨
      (¬ RowsTaken t ∧ ∃ e u, rest t = .error e u ∧ u.manager = t.manager ∧ u.ledger = t.ledger) := by
  intro rest
  obtain ⟨v, added⟩ : ∃ v, v = t.setRounds { t.rounds with settlements := t.rounds.settlements.set key settlement } := ⟨_, rfl⟩
  by_cases bound : t.beaconBound = true
  case neg =>
    refine Or.inl ⟨fun is => absurd is bound, v, ?_⟩
    subst added
    exact congrFun (if_neg bound) _
  have start : rest t = ((persist >>= fun _ => onStore (EconomyStore.put "beacon_round" settlement.settlementId
      (.beaconRound settlement v.manager.snapshot.root v.ledger.stateRoot))) >>= fun _ => pure settlement) v := by
    subst added
    rw [bind_assoc]
    exact congrFun (if_pos bound) _
  have same : v.store = t.store ∧ v.manager = t.manager ∧ v.ledger = t.ledger := by
    subst added
    exact ⟨rfl, rfl, rfl⟩
  rcases AdmissionCoordinator.persist_put_cases v "beacon_round" settlement.settlementId
    (.beaconRound settlement v.manager.snapshot.root v.ledger.stateRoot) with ⟨ledger, round, store, run⟩ |
      ⟨refused, e, store, run⟩
  · rw [same.1] at ledger round
    exact Or.inl ⟨fun _ => ⟨ledger, round⟩, _, start.trans (bind_of_ok run)⟩
  · rw [same.1] at refused
    exact Or.inr ⟨fun taken => refused (taken bound), e, _, start.trans (bind_of_error run), same.2.1, same.2.2⟩

theorem finalize_clean_iff (free : CollisionFree) (steady : RandomnessIncentiveManager.Steady s)
    (known : ∀ v, s.manager.snapshot.byId.contains v = true → s.manager.records.get? v ≠ none)
    (round revealReward nonRevealPenalty : Int) :
    (∀ e t, finalize round revealReward nonRevealPenalty s = .error e t → s.Unchanged t) ↔
      FinalizesClean s round revealReward nonRevealPenalty := by
  obtain ⟨r, named⟩ : ∃ r, r = arguments s round revealReward nonRevealPenalty := ⟨_, rfl⟩
  unfold FinalizesClean
  rw [← named]
  unfold finalize
  rw [get_bind_apply]
  dsimp only
  cases settled : s.rounds.settlements.get? (s.manager.snapshot.epoch, round) with
  | some settlement =>
    refine iff_of_true (fun e t raised => ?_) fun unsettled => ?_
    · cases raised
    · cases unsettled
  | none =>
    dsimp only
    by_cases empty : itemsOf s.rounds.commitments s.manager.snapshot.epoch round = []
    · rw [raiseIf_bind_pos empty]
      refine iff_of_true (fun e t raised => ?_) fun _ some => ?_
      · cases raised
        exact ⟨rfl, rfl⟩
      · rw [named] at some
        exact absurd empty some
    rw [raiseIf_bind_neg empty]
    have some : r.commitments ≠ [] := by
      rw [named]
      exact empty
    have settles : RandomnessIncentiveManager.settleRound (itemsOf s.rounds.commitments s.manager.snapshot.epoch round)
        (itemsOf s.rounds.reveals s.manager.snapshot.epoch round) s.manager.validatorBonds round revealReward
        nonRevealPenalty = r.settle := by rw [named]; rfl
    rw [settles]
    cases RoundArguments.settle_ends free steady known r with
    | raised fails clean run =>
      rw [bind_of_error (rethrow_of_error run)]
      constructor
      · intro atomic _ _
        exact ⟨clean.mp (atomic _ _ rfl), fun settles => absurd settles fails⟩
      · intro cleans e t raised
        cases raised
        exact clean.mpr (cleans rfl some).1
    | @returned settlement t settled touched rounds store bound run =>
      rw [bind_of_ok (rethrow_of_ok run)]
      have taken : RowsTaken t ↔ RowsTaken s := by
        unfold RowsTaken
        rw [store, bound]
      rcases rows_cases t settlement (s.manager.snapshot.epoch, round) with ⟨takes, u, ended⟩ | ⟨refuses, e, u, raised, kept⟩
      · refine iff_of_true (fun e v raised => ?_) fun _ _ => ⟨settled.clean, fun _ _ => taken.mp takes⟩
        cases ended.symm.trans raised
      · have same : s.Unchanged u ↔ s.Unchanged t := by
          unfold Unchanged
          rw [kept.1, kept.2]
        constructor
        · intro atomic _ _
          refine ⟨settled.clean, fun _ touches => ?_⟩
          exact absurd touches (touched.mp (same.mp (atomic _ _ raised)))
        · intro cleans e' v raised'
          cases raised.symm.trans raised'
          refine same.mpr (touched.mpr fun touches => refuses (taken.mpr ?_))
          exact (cleans rfl some).2 settled touches

end BeaconRoundCoordinator

section Reached
variable [Crypto] {s : Economy}

theorem reached_steady (free : CollisionFree) (reached : EconomyCall.Reached s) : Steady s := by
  obtain ⟨config, ledger⟩ := EconomyCall.Reached.ledger reached
  exact ⟨EconomyCall.Reached.sound reached, SettlementLedger.evidenced_of_reached free ledger⟩

/-- The validators of the snapshot have records. -/
theorem reached_known (reached : EconomyCall.Reached s) {v : String} (votes : s.manager.snapshot.byId.contains v = true) :
    s.manager.records.get? v ≠ none := by
  obtain ⟨record, found⟩ := Dict.contains_iff.mp votes
  have tracked := EconomyCall.Reached.tracked reached
  have held := ((MembershipManager.byId_iff tracked (EconomyCall.Reached.keyed reached)).mp found).1
  rw [held]
  exact Option.some_ne_none record

theorem reached_ends (free : CollisionFree) (reached : EconomyCall.Reached s) (r : RoundArguments) : r.Ends s :=
  RoundArguments.settle_ends free (reached_steady free reached) (fun _ => reached_known reached) r

end Reached

section Solo
variable [Crypto] {pair : KeyPair}

/-- The one validator commits to something and reveals nothing. -/
def silentCommitment (pair : KeyPair) : RandomnessCommitment :=
  let unsigned : RandomnessCommitment := { validatorId := "v", epoch := 0, round := 0, commitment := "00", signature := [] }
  { unsigned with signature := pair.sign (canonicalBytes unsigned.statement) }

/-- The manager has penalized the validator for the round already. -/
def dockedEconomy (pair : KeyPair) : Economy :=
  (stakedEconomy pair).setManager (((stakedEconomy pair).manager.setRecord "v"
    (MembershipManager.dockedRecord (MembershipManager.admittedRecord (soloRequest pair)) 1)).addNonReveal
      (MembershipManager.nonRevealId "v" 0 0)).rebuilt

def silentRound (pair : KeyPair) : RoundArguments where
  commitments := [silentCommitment pair]
  reveals := []
  validatorBonds := (dockedEconomy pair).manager.validatorBonds
  round := 0
  revealReward := 0
  nonRevealPenalty := 1

theorem dockedEconomy_reached (free : CollisionFree) (verifies : SignaturesVerify) (named : pair.identity ≠ "") :
    EconomyCall.Reached (dockedEconomy pair) := by
  obtain ⟨config, manager, store, beaconBound, run⟩ := stakedEconomy_reached free verifies named
  have held : (stakedEconomy pair).manager.records.get? "v" = some (MembershipManager.admittedRecord (soloRequest pair)) := rfl
  rcases @penalizeNonReveal_cases 0 1 _ _ _ _ held zero_lt_one 0 with ⟨-, -, docked⟩ | ⟨late, -⟩
  · have docks : MembershipManager.penalizeNonReveal "v" 0 0 1 (stakedEconomy pair) = .ok _ (dockedEconomy pair) := docked
    have after : (EconomyCall.penalizeNonReveal "v" 0 0 1).exec (stakedEconomy pair) = dockedEconomy pair :=
      (final_discard _ _).trans (final_of_ok docks)
    refine ⟨config, manager, store, beaconBound, ?_⟩
    rw [← after]
    exact run.tail trivial
  · exact absurd ⟨rfl, Finset.notMem_empty _⟩ late

/-- What is left of the one record. -/
def dockedRecord (pair : KeyPair) : ValidatorRecord :=
  MembershipManager.dockedRecord (MembershipManager.admittedRecord (soloRequest pair)) 1

theorem dockedEconomy_validators : (dockedEconomy pair).manager.snapshot.validators = [dockedRecord pair] := by
  change sortedBy ValidatorRecord.validatorId [dockedRecord pair] = _
  simp [sortedBy]

theorem dockedEconomy_threshold : (dockedEconomy pair).manager.snapshot.threshold = 7 := by
  unfold MembershipSnapshot.threshold MembershipSnapshot.totalStake
  rw [dockedEconomy_validators]
  rfl

theorem dockedEconomy_votes : (dockedEconomy pair).manager.snapshot.byId.get? "v" = some (dockedRecord pair) := by
  unfold MembershipSnapshot.byId
  rw [dockedEconomy_validators]
  rfl

theorem silentRound_beacon (verifies : SignaturesVerify) :
    ∃ made, beacon (dockedEconomy pair).manager (silentRound pair).commitmentMap (silentRound pair).revealMap 0 = .ok made := by
  have light : ¬ (dockedEconomy pair).manager.snapshot.threshold ≤ 0 := by
    rw [dockedEconomy_threshold]
    decide
  have signed : KeyPair.verify (dockedRecord pair).publicKey (canonicalBytes (silentCommitment pair).statement)
      (silentCommitment pair).signature = true := verifies pair.privateKey _
  have stake : (dockedEconomy pair).manager.commitmentStake 0 ("v", silentCommitment pair) = .ok 9 := by
    have timely : ¬ ((silentCommitment pair).epoch ≠ (dockedEconomy pair).manager.epoch ∨ (silentCommitment pair).round ≠ 0) := by
      rintro (epoch | round)
      · exact epoch rfl
      · exact round rfl
    unfold MembershipManager.commitmentStake
    rw [dockedEconomy_votes]
    dsimp only
    rw [if_neg timely, if_neg (by simp [signed])]
    rfl
  have stakes : [("v", silentCommitment pair)].mapM ((dockedEconomy pair).manager.commitmentStake 0) = .ok [9] := by
    rw [List.mapM_cons, stake]
    rfl
  have ordered : sortedBy Prod.fst [("v", silentCommitment pair)] = [("v", silentCommitment pair)] := by simp [sortedBy]
  have entries : (Dict.ofList ((silentRound pair).commitmentMap.values.map fun item => (item.validatorId, item))).entries =
      [("v", silentCommitment pair)] := rfl
  have digits : hexBytes "00" = .ok [0] := by
    have read : fromHex "00".toList = some [0] := by decide
    rw [hexBytes, read]
  have opened : [("v", silentCommitment pair)].mapM (fun entry => hexBytes entry.2.commitment) = .ok [[0]] := by
    rw [List.mapM_cons]
    change (hexBytes "00" >>= _) = _
    rw [digits]
    rfl
  have count : bigEndian8 0 = .ok [0, 0, 0, 0, 0, 0, 0, 0] := rfl
  have fallback : beacon (dockedEconomy pair).manager (silentRound pair).commitmentMap (silentRound pair).revealMap 0 =
      (dockedEconomy pair).manager.makeFallbackBeacon (silentRound pair).commitmentMap.values 0 := by
    unfold beacon
    exact if_neg light
  rw [fallback]
  unfold MembershipManager.makeFallbackBeacon
  simp only [entries, stakes, ordered, opened, count, if_false, List.cons_ne_nil]
  exact ⟨_, rfl⟩

theorem silentRound_punished : (silentRound pair).punished = ["v"] := by
  change sorted ["v"] = _
  simp [sorted, sortedBy]

theorem silentRound_settleable (verifies : SignaturesVerify) : (silentRound pair).Settleable (dockedEconomy pair) := by
  have only : ∀ v ∈ (silentRound pair).commitmentMap.keys, v = "v" := fun v member => List.mem_singleton.mp member
  refine ⟨⟨le_rfl, zero_le_one⟩, List.cons_ne_nil _ _, fun v member => ?_, fun v member => ?_, fun v member => ?_,
    fun asks => absurd rfl asks, silentRound_beacon verifies⟩
  · cases member
  · cases only v member
    exact Dict.contains_iff.mpr ⟨_, dockedEconomy_votes⟩
  · cases only v member
    rfl

/-- The ledger takes the penalty, then the manager refuses it. -/
theorem silentRound_torn (verifies : SignaturesVerify) (ends : (silentRound pair).Ends (dockedEconomy pair)) :
    ∃ e t, (silentRound pair).settle (dockedEconomy pair) = .error e t ∧ ¬ (dockedEconomy pair).Unchanged t := by
  have member : "v" ∈ (silentRound pair).punished := by
    rw [silentRound_punished]
    exact List.mem_singleton_self _
  have unshielded : ¬ Shielded (dockedEconomy pair) (silentRound pair).validatorBonds 0 "v" := by
    rintro (used | unknown)
    · exact absurd used (Finset.notMem_empty _)
    · have held : (stakedLedger pair).bonds.get? "b" = none := unknown "b" rfl
      cases held.symm.trans stakedLedger_position
  have fails : ¬ (silentRound pair).Settles (dockedEconomy pair) := fun settles =>
    (settles.penalties "v" member).first (Finset.mem_insert_self _ _)
  cases ends with
  | raised _ clean run =>
    refine ⟨_, _, run, fun same => ?_⟩
    have first := clean.mp same (silentRound_settleable verifies)
    rw [silentRound_punished] at first
    exact first.elim unshielded fails
  | returned settles _ _ _ _ _ => exact absurd settles fails

/-- The same round for a bond that the ledger does not have. -/
def strayRound (pair : KeyPair) : RoundArguments := { silentRound pair with validatorBonds := .set .empty "v" "stray" }

theorem strayRound_shielded : Shielded (dockedEconomy pair) (strayRound pair).validatorBonds 0 "v" := by
  refine Or.inr fun bondId bound => ?_
  cases bound
  rfl

/-- The ledger refuses the penalty of the silent validator. -/
theorem strayRound_raises (ends : (strayRound pair).Ends (dockedEconomy pair)) :
    (strayRound pair).Clean (dockedEconomy pair) ∧ ∃ e t, (strayRound pair).settle (dockedEconomy pair) = .error e t := by
  have only : (strayRound pair).punished = ["v"] := silentRound_punished
  have clean : (strayRound pair).Clean (dockedEconomy pair) := by
    intro _
    rw [only]
    exact Or.inl strayRound_shielded
  cases ends with
  | raised _ _ run => exact ⟨clean, _, _, run⟩
  | returned settles _ _ _ _ _ =>
    have member : "v" ∈ (strayRound pair).punished := by
      rw [only]
      exact List.mem_singleton_self _
    exact absurd strayRound_shielded (settles.penalties "v" member).unshielded

end Solo

end Mosaic
