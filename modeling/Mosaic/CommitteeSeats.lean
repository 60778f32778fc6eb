import Mosaic.CommitteeSelection

namespace Mosaic
open CanonicalJson Effects MembershipManager

/-- The snapshots differ in the stake of one validator that votes, who has at
least as much in the second. -/
def MembershipSnapshot.Raises (snapshot snapshot' : MembershipSnapshot) (v : String) : Prop :=
  ∃ before record stake after, snapshot.validators = before ++ record :: after ∧
    snapshot'.validators = before ++ { record with stake } :: after ∧
    record.validatorId = v ∧ record.votes = true ∧ record.stake ≤ stake

theorem mem_fromKeys {item : String} {items : List String} : item ∈ fromKeys items ↔ item ∈ items := by
  unfold fromKeys
  rw [Dict.mem_keys_ofList, List.map_map]
  simp

/-- Where the bound is positive, it cuts at the front. -/
theorem sliceTo_min {α : Type} (items : List α) {size : Int} (positive : 0 < size) :
    sliceTo items (min size items.length) = items.take size.toNat := by
  unfold sliceTo
  rw [if_neg (by omega)]
  rcases le_total size items.length with short | long
  · rw [min_eq_left short]
  · rw [min_eq_right long, Int.toNat_natCast, List.take_length, List.take_of_length_le (by omega)]

variable [Crypto]

namespace MembershipManager

variable {m m' : MembershipManager}

/-- The seats of a committee are those of the best tickets. -/
theorem mem_selectedIds {committeeSize : Int} {beacon : Option RandomnessBeacon} {proof : CommitteeSelectionProof}
    (issued : m.selectCommittee committeeSize beacon = .ok proof) {v : String} :
    v ∈ proof.selectedIds ↔
      ∃ ticket ∈ Ranking.smallest committeeSize.toNat (m.lottery m.snapshot proof.seed), ticket.validatorId = v := by
  obtain ⟨positive, -, -, rfl⟩ := selectCommittee_eq_ok.mp issued
  unfold CommitteeSelectionProof.drawn
  rw [mem_fromKeys, sliceTo_min _ positive, List.mem_map]
  rfl

/-- More stake adds tickets and takes none away. -/
theorem ticketsOf_raised (cap : m'.maxTicketsPerValidator = m.maxTicketsPerValidator) {record : ValidatorRecord}
    {stake : Int} (more : record.stake ≤ stake) (seed : Bytes) :
    ∃ added, m'.ticketsOf seed { record with stake } = m.ticketsOf seed record ++ added ∧
      ∀ ticket ∈ added, ticket.validatorId = record.validatorId := by
  obtain ⟨extra, count⟩ : ∃ extra, (min stake m.maxTicketsPerValidator).toNat =
      (min record.stake m.maxTicketsPerValidator).toNat + extra :=
    Nat.exists_eq_add_of_le (by omega)
  refine ⟨((List.range extra).map ((min record.stake m.maxTicketsPerValidator).toNat + ·)).map
    (ticketAt seed record.validatorId), ?_, fun ticket member => ?_⟩
  · unfold ticketsOf
    rw [cap, count, List.range_add, List.map_append]
  · obtain ⟨slot, -, rfl⟩ := List.mem_map.mp member
    rfl

theorem lottery_raised (cap : m'.maxTicketsPerValidator = m.maxTicketsPerValidator) {v : String}
    (raised : m.snapshot.Raises m'.snapshot v) (seed : Bytes) :
    ∃ added, (m'.lottery m'.snapshot seed).Perm (m.lottery m.snapshot seed ++ added) ∧
      ∀ ticket ∈ added, ticket.validatorId = v := by
  obtain ⟨before, record, stake, after, validators, validators', rfl, votes, more⟩ := raised
  obtain ⟨added, split, own⟩ := ticketsOf_raised cap more seed
  have others : m'.ticketsOf seed = m.ticketsOf seed := by
    funext validator
    unfold ticketsOf
    rw [cap]
  have votes' : ({ record with stake } : ValidatorRecord).votes = true := votes
  refine ⟨added, ?_, own⟩
  unfold lottery
  rw [validators, validators', List.filter_append, List.filter_append, List.filter_cons_of_pos votes,
    List.filter_cons_of_pos votes', List.flatMap_append, List.flatMap_append, List.flatMap_cons, List.flatMap_cons, split,
    others, List.append_assoc, List.append_assoc, List.append_assoc]
  exact (List.perm_append_comm.append_left _).append_left _

end MembershipManager

theorem more_stake_keeps_seat {m m' : MembershipManager} {v : String} {committeeSize : Int}
    {beacon beacon' : Option RandomnessBeacon} {proof proof' : CommitteeSelectionProof}
    (cap : m'.maxTicketsPerValidator = m.maxTicketsPerValidator) (raised : m.snapshot.Raises m'.snapshot v)
    (first : m.selectCommittee committeeSize beacon = .ok proof)
    (second : m'.selectCommittee committeeSize beacon' = .ok proof') (seed : proof'.seed = proof.seed)
    (seated : v ∈ proof.selectedIds) : v ∈ proof'.selectedIds := by
  obtain ⟨ticket, best, own⟩ := (mem_selectedIds first).mp seated
  obtain ⟨added, perm, only⟩ := lottery_raised cap raised proof.seed
  refine (mem_selectedIds second).mpr ?_
  rw [seed]
  exact Ranking.exists_mem_smallest_of_added perm only best own

/-- A manager with two validators, who have these stakes. -/
def duoManager (stake stake' : Int) : MembershipManager :=
  { MembershipManager.fresh { genesisSeed := [] } with
    snapshot := ⟨0, [], [⟨"v", [], stake, "d", true, 0, false⟩, ⟨"w", [], stake', "e", true, 0, false⟩], ""⟩ }

theorem duoManager_selects (stake stake' : Int) :
    ∃ proof, (duoManager stake stake').selectCommittee 1 none = .ok proof ∧ proof.seed = [] :=
  ⟨_, selectCommittee_eq_ok.mpr
    ⟨by decide, by simp, ticketsFit_of_cap (show (10000 : Int) ≤ 2 ^ 64 by norm_num) _, rfl⟩, rfl⟩

theorem duoManager_cap (stake stake' : Int) : (duoManager stake stake').maxTicketsPerValidator = 10000 := rfl

/-- The one seat goes to one of the two. -/
theorem duoManager_seated {stake stake' : Int} (positive : 0 < stake) {proof : CommitteeSelectionProof}
    (issued : (duoManager stake stake').selectCommittee 1 none = .ok proof) :
    "v" ∈ proof.selectedIds ∨ "w" ∈ proof.selectedIds := by
  have slots : 0 < (min stake 10000).toNat := by omega
  have holder : ∀ ticket ∈ (duoManager stake stake').lottery (duoManager stake stake').snapshot proof.seed,
      ticket.validatorId = "v" ∨ ticket.validatorId = "w" := by
    intro ticket member
    obtain ⟨validator, listed, drawn⟩ := List.mem_flatMap.mp member
    obtain ⟨slot, -, rfl⟩ := List.mem_map.mp drawn
    rcases List.mem_cons.mp (List.mem_of_mem_filter listed) with rfl | last
    · exact Or.inl rfl
    · exact Or.inr (List.mem_singleton.mp last ▸ rfl)
  have some : ticketAt proof.seed "v" 0 ∈ (duoManager stake stake').lottery (duoManager stake stake').snapshot proof.seed := by
    refine List.mem_flatMap.mpr ⟨_, List.mem_filter.mpr ⟨List.mem_cons_self, rfl⟩, ?_⟩
    exact List.mem_map.mpr ⟨0, List.mem_range.mpr slots, rfl⟩
  obtain ⟨best, member⟩ := Ranking.exists_mem_smallest (n := 1) (by decide) some
  rcases holder best (Ranking.mem_smallest_iff.mp member).1 with first | second
  · exact Or.inl ((mem_selectedIds issued).mpr ⟨best, member, first⟩)
  · exact Or.inr ((mem_selectedIds issued).mpr ⟨best, member, second⟩)

omit [Crypto] in
/-- Of two validators with equal stakes the one that has the seat keeps it with two more. -/
theorem more_stake_keeps_seat_duo : let _ := Crypto.ideal
    (∃ proof, (duoManager 7 5).selectCommittee 1 none = .ok proof ∧ "v" ∈ proof.selectedIds) ∨
      ∃ proof, (duoManager 5 7).selectCommittee 1 none = .ok proof ∧ "w" ∈ proof.selectedIds := by
  intro _
  obtain ⟨proof, first, seed⟩ := duoManager_selects 5 5
  rcases duoManager_seated (by decide) first with seated | seated
  · obtain ⟨proof', second, seed'⟩ := duoManager_selects 7 5
    have cap := (duoManager_cap 7 5).trans (duoManager_cap 5 5).symm
    have raised : (duoManager 5 5).snapshot.Raises (duoManager 7 5).snapshot "v" :=
      ⟨[], ⟨"v", [], 5, "d", true, 0, false⟩, 7, [⟨"w", [], 5, "e", true, 0, false⟩], rfl, rfl, rfl, rfl, by decide⟩
    exact Or.inl ⟨proof', second, more_stake_keeps_seat cap raised first second (seed'.trans seed.symm) seated⟩
  · obtain ⟨proof', second, seed'⟩ := duoManager_selects 5 7
    have cap := (duoManager_cap 5 7).trans (duoManager_cap 5 5).symm
    have raised : (duoManager 5 5).snapshot.Raises (duoManager 5 7).snapshot "w" :=
      ⟨[⟨"v", [], 5, "d", true, 0, false⟩], ⟨"w", [], 5, "e", true, 0, false⟩, 7, [], rfl, rfl, rfl, rfl, by decide⟩
    exact Or.inr ⟨proof', second, more_stake_keeps_seat cap raised first second (seed'.trans seed.symm) seated⟩

end Mosaic
