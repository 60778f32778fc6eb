import Mosaic.Lib.DictSum
import Mosaic.Lib.Quorum
import Mathlib.Algebra.BigOperators.Ring.Finset
import Mathlib.Data.Int.Interval
import Mathlib.Order.Interval.Finset.Basic

namespace Mosaic

structure ValueError where
  message : String
  deriving DecidableEq

/-- The largest Byzantine count with `N >= 3f + 1`. -/
def unweightedFaultBound (n : Int) : Except ValueError Int := do
  if n < 1 then
    throw ⟨"committee size must be positive"⟩
  return (n - 1) / 3

def unweightedQuorumSize (n : Int) : Except ValueError Int := do
  let f ← unweightedFaultBound n
  if n < 3 * f + 1 then
    throw ⟨"committee does not satisfy N >= 3f + 1"⟩
  return 2 * f + 1

/-- `set(range(n))`. -/
def committee (n : Int) : Finset Int := ((List.range n.toNat).map Int.ofNat).toFinset

theorem mem_committee {n i : Int} : i ∈ committee n ↔ 0 ≤ i ∧ i < n := by
  simp only [committee, List.mem_toFinset, List.mem_map, List.mem_range]
  constructor
  · rintro ⟨k, below, rfl⟩
    change (0 : Int) ≤ (k : Int) ∧ (k : Int) < n
    omega
  · rintro ⟨low, high⟩
    refine ⟨i.toNat, by omega, ?_⟩
    change (i.toNat : Int) = i
    omega

theorem card_committee (n : Int) : (committee n).card = n.toNat := by
  have distinct : ((List.range n.toNat).map Int.ofNat).Nodup := List.nodup_range.map fun _ _ => Int.ofNat.inj
  rw [committee, List.toFinset_card_of_nodup distinct, List.length_map, List.length_range]

def unweightedHonestIntersection (n : Int) (quorumA quorumB byzantine : List Int) : Except ValueError Bool := do
  let a := quorumA.toFinset
  let b := quorumB.toFinset
  let byz := byzantine.toFinset
  let q ← unweightedQuorumSize n
  if ¬ a ⊆ committee n ∨ ¬ b ⊆ committee n ∨ ¬ byz ⊆ committee n then
    return false
  let f ← unweightedFaultBound n
  if f < byz.card ∨ a.card < q ∨ b.card < q then
    return false
  return decide (((a ∩ b) \ byz).Nonempty)

/-- Two quorums of a committee and Byzantine members within the bound. -/
structure FaultyQuorums (n : Int) (a b byz : Finset Int) : Prop where
  inA : a ⊆ committee n
  inB : b ⊆ committee n
  inByz : byz ⊆ committee n
  few : ∃ f, unweightedFaultBound n = .ok f ∧ (byz.card : Int) ≤ f
  largeA : ∃ q, unweightedQuorumSize n = .ok q ∧ q ≤ (a.card : Int)
  largeB : ∃ q, unweightedQuorumSize n = .ok q ∧ q ≤ (b.card : Int)

theorem unweightedFaultBound_eq {n : Int} (positive : 1 ≤ n) : unweightedFaultBound n = .ok ((n - 1) / 3) := by
  have large : ¬ n < 1 := by omega
  unfold unweightedFaultBound
  rw [if_neg large]
  rfl

theorem unweightedQuorumSize_eq {n : Int} (positive : 1 ≤ n) :
    unweightedQuorumSize n = .ok (2 * ((n - 1) / 3) + 1) := by
  have enough : ¬ n < 3 * ((n - 1) / 3) + 1 := by omega
  unfold unweightedQuorumSize
  rw [unweightedFaultBound_eq positive]
  show (if n < 3 * ((n - 1) / 3) + 1 then _ else _) = _
  rw [if_neg enough]
  rfl

namespace FaultyQuorums

variable {n : Int} {a b byz : Finset Int}

/-- The bounds as numbers. -/
theorem bounds (quorums : FaultyQuorums n a b byz) (positive : 1 ≤ n) :
    (byz.card : Int) ≤ (n - 1) / 3 ∧ 2 * ((n - 1) / 3) + 1 ≤ (a.card : Int) ∧ 2 * ((n - 1) / 3) + 1 ≤ (b.card : Int) := by
  obtain ⟨f, bound, few⟩ := quorums.few
  obtain ⟨q, size, largeA⟩ := quorums.largeA
  obtain ⟨q', size', largeB⟩ := quorums.largeB
  rw [unweightedFaultBound_eq positive] at bound
  rw [unweightedQuorumSize_eq positive] at size size'
  cases bound
  cases size
  cases size'
  exact ⟨few, largeA, largeB⟩

theorem of_bounds (positive : 1 ≤ n) (inA : a ⊆ committee n) (inB : b ⊆ committee n) (inByz : byz ⊆ committee n)
    (few : (byz.card : Int) ≤ (n - 1) / 3) (largeA : 2 * ((n - 1) / 3) + 1 ≤ (a.card : Int))
    (largeB : 2 * ((n - 1) / 3) + 1 ≤ (b.card : Int)) : FaultyQuorums n a b byz :=
  ⟨inA, inB, inByz, ⟨_, unweightedFaultBound_eq positive, few⟩, ⟨_, unweightedQuorumSize_eq positive, largeA⟩,
    ⟨_, unweightedQuorumSize_eq positive, largeB⟩⟩

/-- In a committee of `3f + 1` two quorums of `2f + 1` share an honest member. -/
theorem honest (quorums : FaultyQuorums n a b byz) (positive : 1 ≤ n) (exact : n % 3 = 1) :
    ((a ∩ b) \ byz).Nonempty := by
  obtain ⟨few, largeA, largeB⟩ := quorums.bounds positive
  have whole := Finset.card_union_add_card_inter a b
  have union := Finset.card_le_card (Finset.union_subset quorums.inA quorums.inB)
  have size := card_committee n
  have shared : byz.card < (a ∩ b).card := by omega
  have left := Finset.le_card_sdiff byz (a ∩ b)
  exact Finset.card_pos.mp (by omega)

end FaultyQuorums

/-- In a committee of any other size the first and the last `2f + 1` share at most
`f`, and these may all be Byzantine. -/
theorem exists_faultyQuorums {n : Int} (positive : 1 ≤ n) (other : n % 3 ≠ 1) :
    ∃ a b byz, FaultyQuorums n a b byz ∧ a ∩ b ⊆ byz := by
  obtain ⟨f, bound⟩ : ∃ f, f = (n - 1) / 3 := ⟨_, rfl⟩
  have room : 3 * f + 2 ≤ n := by omega
  have natural : 0 ≤ f := by omega
  have inside : ∀ low high, 0 ≤ low → high ≤ n → Finset.Ico low high ⊆ committee n := by
    intro low high natural within i member
    rw [Finset.mem_Ico] at member
    rw [mem_committee]
    omega
  refine ⟨Finset.Ico 0 (2 * f + 1), Finset.Ico (n - 2 * f - 1) n, Finset.Ico (n - 2 * f - 1) (2 * f + 1), ?_, ?_⟩
  · refine .of_bounds positive (inside _ _ le_rfl (by omega)) (inside _ _ (by omega) le_rfl)
      (inside _ _ (by omega) (by omega)) ?_ ?_ ?_
    all_goals
      rw [Int.card_Ico]
      omega
  · intro i member
    simp only [Finset.mem_inter, Finset.mem_Ico] at member ⊢
    omega

/-- Inside its premises the function looks for an honest member of both quorums. -/
theorem unweightedHonestIntersection_eq {n : Int} (positive : 1 ≤ n) {quorumA quorumB byzantine : List Int}
    (quorums : FaultyQuorums n quorumA.toFinset quorumB.toFinset byzantine.toFinset) :
    unweightedHonestIntersection n quorumA quorumB byzantine =
      .ok (decide (((quorumA.toFinset ∩ quorumB.toFinset) \ byzantine.toFinset).Nonempty)) := by
  obtain ⟨few, largeA, largeB⟩ := quorums.bounds positive
  have inside : ¬ (¬ quorumA.toFinset ⊆ committee n ∨ ¬ quorumB.toFinset ⊆ committee n ∨
      ¬ byzantine.toFinset ⊆ committee n) := by
    simp [quorums.inA, quorums.inB, quorums.inByz]
  have sized : ¬ ((n - 1) / 3 < byzantine.toFinset.card ∨ (quorumA.toFinset.card : Int) < 2 * ((n - 1) / 3) + 1 ∨
      (quorumB.toFinset.card : Int) < 2 * ((n - 1) / 3) + 1) := by
    omega
  unfold unweightedHonestIntersection
  rw [unweightedQuorumSize_eq positive, unweightedFaultBound_eq positive]
  simp only [bind, Except.bind]
  rw [if_neg inside, if_neg sized]
  rfl

/-- Unweighted quorums share an honest member in the committees of size `3f + 1`,
and in no others. -/
theorem honest_intersection_iff {n : Int} (positive : 1 ≤ n) :
    (∀ quorumA quorumB byzantine : List Int,
        FaultyQuorums n quorumA.toFinset quorumB.toFinset byzantine.toFinset →
        unweightedHonestIntersection n quorumA quorumB byzantine = .ok true) ↔ n % 3 = 1 := by
  constructor
  · intro claim
    by_contra other
    obtain ⟨a, b, byz, quorums, covered⟩ := exists_faultyQuorums positive other
    have listed : FaultyQuorums n a.toList.toFinset b.toList.toFinset byz.toList.toFinset := by
      rwa [Finset.toList_toFinset, Finset.toList_toFinset, Finset.toList_toFinset]
    have returned := claim a.toList b.toList byz.toList listed
    rw [unweightedHonestIntersection_eq positive listed, Finset.toList_toFinset, Finset.toList_toFinset,
      Finset.toList_toFinset, Finset.sdiff_eq_empty_iff_subset.mpr covered] at returned
    cases returned
  · intro exact quorumA quorumB byzantine quorums
    rw [unweightedHonestIntersection_eq positive quorums, decide_eq_true (quorums.honest positive exact)]

/-- A committee of four. -/
theorem honest_intersection_four :
    (∀ quorumA quorumB byzantine : List Int,
        FaultyQuorums 4 quorumA.toFinset quorumB.toFinset byzantine.toFinset →
        unweightedHonestIntersection 4 quorumA quorumB byzantine = .ok true) ↔ (4 : Int) % 3 = 1 :=
  honest_intersection_iff (by decide)

/-- In a committee of five the only common member of two quorums may be Byzantine. -/
theorem no_honest_intersection : ¬ ∀ n : Int, 1 ≤ n → ∀ quorumA quorumB byzantine : List Int,
    FaultyQuorums n quorumA.toFinset quorumB.toFinset byzantine.toFinset →
    unweightedHonestIntersection n quorumA quorumB byzantine = .ok true := by
  intro claim
  have quorums : FaultyQuorums 5 [0, 1, 2].toFinset [2, 3, 4].toFinset [2].toFinset :=
    .of_bounds (by decide) (by decide) (by decide) (by decide) (by decide) (by decide) (by decide)
  have returned := claim 5 (by decide) [0, 1, 2] [2, 3, 4] [2] quorums
  revert returned
  decide

def weightedQuorumThreshold (weights : Dict String Int) : Except ValueError Int := do
  let total := weights.sumBy id
  if total ≤ 0 ∨ ∃ weight ∈ weights.values, weight ≤ 0 then
    throw ⟨"weights must be positive and have positive total"⟩
  return 2 * total / 3 + 1

/-- `sum(weights[node] for node in nodes)`, where each of the nodes has a weight. -/
def weightOf (weights : Dict String Int) (nodes : Finset String) : Int := ∑ node ∈ nodes, weights.amountAt id node

def weightedHonestIntersection (weights : Dict String Int) (quorumA quorumB byzantine : List String) : Bool :=
  let all := weights.keys.toFinset
  let a := quorumA.toFinset
  let b := quorumB.toFinset
  let byz := byzantine.toFinset
  if ¬ a ⊆ all ∨ ¬ b ⊆ all ∨ ¬ byz ⊆ all then false
  else
    let total := weights.sumBy id
    let byzWeight := weightOf weights byz
    let weightA := weightOf weights a
    let weightB := weightOf weights b
    if total < 3 * byzWeight then false
    else if 3 * weightA ≤ 2 * total ∨ 3 * weightB ≤ 2 * total then false
    else decide (0 < weightOf weights ((a ∩ b) \ byz))

/-- Every node counts for something. -/
def PositiveWeights (weights : Dict String Int) : Prop := ∀ weight ∈ weights.values, 0 < weight

namespace PositiveWeights

variable {weights : Dict String Int}

theorem amount_pos (positive : PositiveWeights weights) {node : String} (known : node ∈ weights.keys) :
    0 < weights.amountAt id node := by
  obtain ⟨weight, found⟩ := Dict.mem_keys.mp known
  rw [Dict.amountAt_of_some found]
  exact positive weight (Dict.mem_values_of_get? found)

theorem amount_nonneg (positive : PositiveWeights weights) (node : String) : 0 ≤ weights.amountAt id node := by
  by_cases known : node ∈ weights.keys
  · exact (positive.amount_pos known).le
  · rw [Dict.amountAt_of_none (Dict.get?_eq_none_iff.mpr known)]

/-- The weights as natural numbers. -/
theorem weightOf_eq_weigh (positive : PositiveWeights weights) (nodes : Finset String) :
    weightOf weights nodes = (Quorum.weigh (fun node => (weights.amountAt id node).toNat) nodes : Int) := by
  rw [Quorum.weigh, Nat.cast_sum, weightOf]
  refine Finset.sum_congr rfl fun node _ => ?_
  exact (Int.toNat_of_nonneg (positive.amount_nonneg node)).symm

theorem total_pos (positive : PositiveWeights weights) (inhabited : weights.keys ≠ []) : 0 < weights.sumBy id := by
  rw [Dict.sumBy_eq_sum_keys]
  refine Finset.sum_pos (fun node member => positive.amount_pos (List.mem_toFinset.mp member)) ?_
  rwa [List.toFinset_nonempty_iff]

/-- Only the empty mapping is refused. -/
theorem threshold_eq (positive : PositiveWeights weights) (inhabited : weights.keys ≠ []) :
    weightedQuorumThreshold weights = .ok (2 * weights.sumBy id / 3 + 1) := by
  have large := positive.total_pos inhabited
  have passed : ¬ (weights.sumBy id ≤ 0 ∨ ∃ weight ∈ weights.values, weight ≤ 0) := by
    rintro (small | ⟨weight, member, bad⟩)
    · omega
    · exact absurd (positive weight member) (by omega)
  unfold weightedQuorumThreshold
  rw [if_neg passed]
  rfl

end PositiveWeights

theorem weightedQuorumThreshold_ok {weights : Dict String Int} {threshold : Int}
    (returned : weightedQuorumThreshold weights = .ok threshold) : threshold = 2 * weights.sumBy id / 3 + 1 := by
  simp only [weightedQuorumThreshold] at returned
  split at returned
  · cases returned
  · exact (Except.ok.inj returned).symm

/-- A node that both quorums share and that is not Byzantine. -/
theorem weightedHonestIntersection_of_honest {weights : Dict String Int} (positive : PositiveWeights weights)
    {quorumA quorumB byzantine : List String} (inA : quorumA.toFinset ⊆ weights.keys.toFinset)
    (inB : quorumB.toFinset ⊆ weights.keys.toFinset) (inByz : byzantine.toFinset ⊆ weights.keys.toFinset)
    (largeA : 2 * weights.sumBy id < 3 * weightOf weights quorumA.toFinset)
    (largeB : 2 * weights.sumBy id < 3 * weightOf weights quorumB.toFinset)
    (few : 3 * weightOf weights byzantine.toFinset ≤ weights.sumBy id)
    (honest : ∃ v ∈ quorumA.toFinset ∩ quorumB.toFinset, v ∉ byzantine.toFinset) :
    weightedHonestIntersection weights quorumA quorumB byzantine = true := by
  obtain ⟨v, shared, honest⟩ := honest
  have inside : ¬ (¬ quorumA.toFinset ⊆ weights.keys.toFinset ∨ ¬ quorumB.toFinset ⊆ weights.keys.toFinset ∨
      ¬ byzantine.toFinset ⊆ weights.keys.toFinset) := by
    simp only [inA, inB, inByz, not_true_eq_false, or_self, not_false_eq_true]
  have known : ∀ node ∈ (quorumA.toFinset ∩ quorumB.toFinset) \ byzantine.toFinset, node ∈ weights.keys := by
    intro node member
    rw [Finset.mem_sdiff, Finset.mem_inter] at member
    exact List.mem_toFinset.mp (inA member.1.1)
  have heavy : 0 < weightOf weights ((quorumA.toFinset ∩ quorumB.toFinset) \ byzantine.toFinset) :=
    Finset.sum_pos (fun node member => positive.amount_pos (known node member))
      ⟨v, Finset.mem_sdiff.mpr ⟨shared, honest⟩⟩
  unfold weightedHonestIntersection
  simp only
  rw [if_neg inside, if_neg (by omega), if_neg (by omega), decide_eq_true heavy]

/-- The weighted threshold is the strict two thirds, and two quorums of it share an
honest node as long as the Byzantine ones weigh at most a third. -/
theorem weighted_quorums_intersect {weights : Dict String Int} (positive : PositiveWeights weights) :
    (weights.keys ≠ [] → ∃ threshold, weightedQuorumThreshold weights = .ok threshold) ∧
    ∀ threshold, weightedQuorumThreshold weights = .ok threshold →
      (∀ nodes ⊆ weights.keys.toFinset,
        threshold ≤ weightOf weights nodes ↔ 2 * weights.sumBy id < 3 * weightOf weights nodes) ∧
      ∀ quorumA quorumB byzantine : List String, quorumA.toFinset ⊆ weights.keys.toFinset →
        quorumB.toFinset ⊆ weights.keys.toFinset → byzantine.toFinset ⊆ weights.keys.toFinset →
        threshold ≤ weightOf weights quorumA.toFinset → threshold ≤ weightOf weights quorumB.toFinset →
        3 * weightOf weights byzantine.toFinset ≤ weights.sumBy id →
        weightedHonestIntersection weights quorumA quorumB byzantine = true := by
  refine ⟨fun inhabited => ⟨_, positive.threshold_eq inhabited⟩, ?_⟩
  rintro threshold returned
  have value := weightedQuorumThreshold_ok returned
  refine ⟨fun nodes _ => by omega, ?_⟩
  intro quorumA quorumB byzantine inA inB inByz largeA largeB few
  have strictA : 2 * weights.sumBy id < 3 * weightOf weights quorumA.toFinset := by omega
  have strictB : 2 * weights.sumBy id < 3 * weightOf weights quorumB.toFinset := by omega
  refine weightedHonestIntersection_of_honest positive inA inB inByz strictA strictB few ?_
  have total : weights.sumBy id = weightOf weights weights.keys.toFinset := Dict.sumBy_eq_sum_keys id weights
  rw [total, positive.weightOf_eq_weigh, positive.weightOf_eq_weigh] at strictA strictB few
  exact Quorum.exists_honest_in_both (fun node => (weights.amountAt id node).toNat) inA inB (by omega) (by omega)
    (by omega)

/-- Four nodes. -/
theorem weighted_quorums_intersect_four :
    let weights := Dict.ofList [("a", 4), ("b", 3), ("c", 2), ("d", 1)]
    weightedQuorumThreshold weights = .ok 7 ∧
      weightedHonestIntersection weights ["a", "b"] ["a", "c", "d"] ["d"] = true := by
  intro weights
  have threshold : weightedQuorumThreshold weights = .ok 7 := by decide
  have positive : PositiveWeights weights := by
    unfold PositiveWeights
    decide
  obtain ⟨-, quorums⟩ := weighted_quorums_intersect positive
  exact ⟨threshold, (quorums 7 threshold).2 ["a", "b"] ["a", "c", "d"] ["d"] (by decide) (by decide) (by decide)
    (by decide) (by decide) (by decide)⟩

end Mosaic
