import Mosaic.CommitteeSelection

namespace Mosaic
open CanonicalJson Effects Economy MembershipManager

variable [Crypto]

namespace MembershipManager

variable {m : MembershipManager} {b : RandomnessBeacon}

theorem revealStake_ok {commitmentMap : Dict String RandomnessCommitment} {round stake : Int}
    {item : String × RandomnessReveal} (counted : m.revealStake commitmentMap round item = .ok stake) :
    ∃ record, m.snapshot.byId.get? item.1 = some record := by
  unfold revealStake at counted
  split at counted
  · rename_i record _ held
    exact ⟨_, held⟩
  · cases counted

theorem commitmentStake_ok {round stake : Int} {item : String × RandomnessCommitment}
    (counted : m.commitmentStake round item = .ok stake) : ∃ record, m.snapshot.byId.get? item.1 = some record := by
  unfold commitmentStake at counted
  split at counted
  · exact ⟨_, ‹_›⟩
  · cases counted

omit [Crypto] in
theorem ordered_named {α : Type} {entries : List (String × α)} (some : entries ≠ []) :
    (sortedBy Prod.fst entries).map Prod.fst ≠ [] := by
  intro none
  have empty := List.map_eq_nil_iff.mp none
  have perm := sortedBy_perm Prod.fst entries
  rw [empty] at perm
  exact some (List.nil_perm.mp perm)

/-- What `make_beacon` returns verifies, and names validators that vote. -/
theorem makeBeacon_ok {commitments : List RandomnessCommitment} {reveals : List RandomnessReveal} {round : Int}
    (made : m.makeBeacon commitments reveals round = .ok b) :
    m.Accepts b ∧ b.mode = "reveal" ∧ ∀ id ∈ b.revealIds, ∃ record, m.snapshot.byId.get? id = some record := by
  unfold makeBeacon at made
  dsimp only at made
  split at made
  · cases made
  rename_i some
  obtain ⟨stakes, counted, made⟩ := except_bind_eq_ok.mp made
  split at made
  · cases made
  obtain ⟨count, fits, made⟩ := except_bind_eq_ok.mp made
  cases made
  refine ⟨⟨?_, rfl⟩, rfl, fun id member => ?_⟩
  · exact (RandomnessBeacon.verify_reveal rfl).mpr ⟨ordered_named some, rfl⟩
  · obtain ⟨entry, listed, rfl⟩ := List.mem_map.mp member
    obtain ⟨stake, checked⟩ := exists_ok_of_mapM counted ((sortedBy_perm _ _).mem_iff.mp listed)
    exact revealStake_ok checked

theorem makeFallbackBeacon_ok {commitments : List RandomnessCommitment} {round : Int}
    (made : m.makeFallbackBeacon commitments round = .ok b) :
    m.Accepts b ∧ b.mode = "commitment-fallback" ∧
      ∀ id ∈ b.commitmentIds, ∃ record, m.snapshot.byId.get? id = some record := by
  unfold makeFallbackBeacon at made
  dsimp only at made
  split at made
  · cases made
  rename_i some
  obtain ⟨stakes, counted, made⟩ := except_bind_eq_ok.mp made
  split at made
  · cases made
  obtain ⟨count, fits, made⟩ := except_bind_eq_ok.mp made
  obtain ⟨opened, read, made⟩ := except_bind_eq_ok.mp made
  cases made
  refine ⟨⟨?_, rfl⟩, rfl, fun id member => ?_⟩
  · exact (RandomnessBeacon.verify_fallback rfl).mpr ⟨ordered_named some, rfl⟩
  · obtain ⟨entry, listed, rfl⟩ := List.mem_map.mp member
    obtain ⟨stake, checked⟩ := exists_ok_of_mapM counted ((sortedBy_perm _ _).mem_iff.mp listed)
    exact commitmentStake_ok checked

/-- The manager returns the beacon for some commitments and reveals, of which it
has checked the signatures and the stake. -/
def Makes (m : MembershipManager) (b : RandomnessBeacon) : Prop :=
  (∃ commitments reveals round, m.makeBeacon commitments reveals round = .ok b) ∨
    ∃ commitments round, m.makeFallbackBeacon commitments round = .ok b

/-- The beacon steers a selection that is made or accepted. -/
def Steers (m : MembershipManager) (b : RandomnessBeacon) : Prop :=
  (∃ committeeSize proof, m.selectCommittee committeeSize (some b) = .ok proof) ∨
    ∃ proof, m.verifySelection proof (some b) = .ok true

/-- Every beacon that verifies in this epoch steers. -/
theorem Accepts.steers (accepts : m.Accepts b) (fits : m.TicketsFit m.snapshot) : m.Steers b := by
  refine Or.inl ⟨1, _, selectCommittee_eq_ok.mpr ⟨one_pos, ?_, fits, rfl⟩⟩
  rintro _ ⟨⟩
  exact accepts

/-- A beacon with the value that its author likes, in the name of `id`. -/
def forgedBeacon (m : MembershipManager) (id : String) (value : Bytes) : RandomnessBeacon where
  epoch := m.epoch
  round := 0
  revealIds := [id]
  beaconValue := value
  proofId := digest (beaconStatement "MOSAIC/RANDOMNESS-BEACON/v1" "reveal_ids" m.epoch 0 [id] value)

theorem forgedBeacon_accepts (m : MembershipManager) (id : String) (value : Bytes) : m.Accepts (m.forgedBeacon id value) :=
  ⟨(RandomnessBeacon.verify_reveal rfl).mpr ⟨List.cons_ne_nil _ _, rfl⟩, rfl⟩

theorem forgedBeacon_not_made {id : String} (stranger : m.snapshot.byId.get? id = none) (value : Bytes) :
    ¬ m.Makes (m.forgedBeacon id value) := by
  rintro (⟨commitments, reveals, round, made⟩ | ⟨commitments, round, made⟩)
  · obtain ⟨-, -, named⟩ := makeBeacon_ok made
    obtain ⟨record, held⟩ := named id (List.mem_singleton.mpr rfl)
    cases stranger.symm.trans held
  · obtain ⟨-, mode, -⟩ := makeFallbackBeacon_ok made
    have same : "reveal" = "commitment-fallback" := mode
    revert same
    decide

omit [Crypto] in
theorem exists_stranger (m : MembershipManager) : ∃ id, m.snapshot.byId.get? id = none := by
  obtain ⟨id, missing⟩ := Infinite.exists_notMem_finset m.snapshot.byId.keys.toFinset
  exact ⟨id, Dict.get?_eq_none_iff.mpr (by simpa using missing)⟩

end MembershipManager

theorem beacons_backed_iff (m : MembershipManager) :
    (∀ b : RandomnessBeacon, m.Steers b → m.Makes b) ↔ ¬ m.TicketsFit m.snapshot := by
  constructor
  · intro backed fits
    obtain ⟨id, stranger⟩ := m.exists_stranger
    have steers := (m.forgedBeacon_accepts id []).steers fits
    exact forgedBeacon_not_made stranger [] (backed _ steers)
  · rintro large b (⟨committeeSize, proof, issued⟩ | ⟨proof, accepted⟩)
    · exact absurd (selectCommittee_eq_ok.mp issued).2.2.1 large
    · exact absurd (verifySelection_eq_true.mp accepted).2.2.1 large

/-- Only `"v"` is a validator of this economy. -/
theorem stakedEconomy_stranger {pair : KeyPair} (reached : EconomyCall.Reached (stakedEconomy pair)) :
    (stakedEconomy pair).manager.snapshot.byId.get? "w" = none := by
  have absent : (stakedEconomy pair).manager.records.get? "w" = none :=
    Dict.get?_set_of_ne _ _ (by decide : "v" ≠ "w")
  by_contra present
  obtain ⟨record, held⟩ := Option.ne_none_iff_exists'.mp present
  cases absent.symm.trans ((byId_iff reached.tracked reached.keyed).mp held).1

omit [Crypto] in
theorem stranger_steers : let _ := Crypto.ideal
    let m := (stakedEconomy idealKey).manager
    EconomyCall.Reached (stakedEconomy idealKey) ∧
      (∃ proof, m.selectCommittee 1 (some (m.forgedBeacon "w" [])) = .ok proof ∧
        m.verifySelection proof (some (m.forgedBeacon "w" [])) = .ok true) ∧
      ¬ m.Makes (m.forgedBeacon "w" []) := by
  intro _ m
  have reached := stakedEconomy_reached ideal_collisionFree ideal_signaturesVerify ideal_named
  have fits : m.TicketsFit m.snapshot := ticketsFit_of_cap (show (10000 : Int) ≤ 2 ^ 64 by norm_num) _
  obtain ⟨proof, issued⟩ : ∃ proof, m.selectCommittee 1 (some (m.forgedBeacon "w" [])) = .ok proof := by
    refine ⟨_, selectCommittee_eq_ok.mpr ⟨one_pos, ?_, fits, rfl⟩⟩
    rintro _ ⟨⟩
    exact m.forgedBeacon_accepts "w" []
  have verified := InStep.accepts_backed ⟨rfl, reached.seeded⟩ issued
  exact ⟨reached, ⟨proof, issued, verified⟩, forgedBeacon_not_made (stakedEconomy_stranger reached) []⟩

end Mosaic
