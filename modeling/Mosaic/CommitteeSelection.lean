import Mosaic.Committee
import Mosaic.SnapshotSoundness

namespace Mosaic
open CanonicalJson Effects Economy MembershipManager

variable [Crypto]

/-- A ticket of a validator in the lottery of a seed. -/
def ticketAt (seed : Bytes) (validatorId : String) (slot : Nat) : Ticket where
  score := fromBytes (sha256Digest
    (literal "MOSAIC/TICKET/v1" ++ seed ++ literal validatorId ++ (toBytes8 slot).getD []))
  validatorId := validatorId
  slot := slot

namespace MembershipManager

/-- The slots of every ticket fit into eight bytes. -/
def TicketsFit (m : MembershipManager) (snapshot : MembershipSnapshot) : Prop :=
  ∀ v ∈ snapshot.validators, v.votes = true → min v.stake m.maxTicketsPerValidator ≤ 2 ^ 64

def ticketsOf (m : MembershipManager) (seed : Bytes) (validator : ValidatorRecord) : List Ticket :=
  (List.range (min validator.stake m.maxTicketsPerValidator).toNat).map (ticketAt seed validator.validatorId)

/-- The tickets in the lottery of a seed. -/
def lottery (m : MembershipManager) (snapshot : MembershipSnapshot) (seed : Bytes) : List Ticket :=
  (snapshot.validators.filter ValidatorRecord.votes).flatMap (m.ticketsOf seed)

variable {m : MembershipManager}

omit [Crypto] in
/-- What is made of the eight bytes of a number is made of numbers that fit. -/
theorem bigEndian8_bind_eq_ok {α : Type} {n : Int} {f : Bytes → α} {a : α} :
    (bigEndian8 n >>= fun count => (pure (f count) : Except EconomyError α)) = .ok a ↔
      (0 ≤ n ∧ n < 2 ^ 64) ∧ f ((toBytes8 n).getD []) = a := by
  unfold bigEndian8 toBytes8
  by_cases fits : 0 ≤ n ∧ n < 2 ^ 64
  · rw [if_pos fits, and_iff_right fits]
    exact ⟨fun ran => Except.ok.inj ran, fun same => congrArg Except.ok same⟩
  · rw [if_neg fits]
    constructor
    · intro ran
      cases ran
    · exact fun both => absurd both.1 fits

theorem validatorTickets_eq_ok {seed : Bytes} {validator : ValidatorRecord} {drawn : List Ticket} :
    m.validatorTickets seed validator = .ok drawn ↔
      min validator.stake m.maxTicketsPerValidator ≤ 2 ^ 64 ∧ drawn = m.ticketsOf seed validator := by
  have slotted : ∀ (slot : Nat) (ticket : Ticket), (do
      let count ← bigEndian8 slot
      let score := fromBytes (sha256Digest
        (literal "MOSAIC/TICKET/v1" ++ seed ++ literal validator.validatorId ++ count))
      return { score, validatorId := validator.validatorId, slot } : Except EconomyError Ticket) = .ok ticket ↔
        (0 ≤ (slot : Int) ∧ (slot : Int) < 2 ^ 64) ∧ ticketAt seed validator.validatorId slot = ticket :=
    fun _ _ => bigEndian8_bind_eq_ok
  unfold validatorTickets ticketsOf
  rw [mapM_eq_ok fun slot ticket ran => ((slotted slot ticket).mp ran).2]
  refine and_congr_left fun _ => ⟨fun counted => ?_, fun small slot member => ?_⟩
  · by_contra large
    obtain ⟨slot, last⟩ : ∃ slot : Nat, (slot : Int) = 2 ^ 64 := ⟨2 ^ 64, by norm_num⟩
    have small := ((slotted slot _).mp (counted slot (List.mem_range.mpr (by omega)))).1
    omega
  · have below := List.mem_range.mp member
    exact (slotted slot _).mpr ⟨by omega, rfl⟩

theorem tickets_eq_ok {snapshot : MembershipSnapshot} {seed : Option Bytes} {drawn : List Ticket} :
    m.tickets snapshot seed = .ok drawn ↔ m.TicketsFit snapshot ∧
      drawn = m.lottery snapshot (seed.getD snapshot.seed) := by
  unfold tickets lottery
  rw [except_bind_eq_ok]
  simp only [mapM_eq_ok fun v drawn ran => (validatorTickets_eq_ok.mp ran).2.symm, validatorTickets_eq_ok, and_true,
    List.mem_filter, List.flatMap_def]
  constructor
  · rintro ⟨_, ⟨fits, rfl⟩, ⟨⟩⟩
    exact ⟨fun v listed votes => fits v ⟨listed, votes⟩, rfl⟩
  · rintro ⟨fits, rfl⟩
    exact ⟨_, ⟨fun v ⟨listed, votes⟩ => fits v listed votes, rfl⟩, rfl⟩

end MembershipManager

/-- What a proof says when these tickets are in the lottery. -/
def CommitteeSelectionProof.drawn (epoch committeeSize : Int) (seed : Bytes) (beaconId : Option String)
    (tickets : List Ticket) : CommitteeSelectionProof :=
  let ordered := tickets.insertionSort (· ≤ ·)
  let selected := sliceTo ordered (min committeeSize ordered.length)
  { epoch
    committeeSize
    selectedIds := fromKeys (selected.map Ticket.validatorId)
    selectedTickets := selected.map Ticket.named
    seed
    proofId := digest (MembershipManager.committeeStatement epoch committeeSize (selected.map Ticket.named) seed beaconId)
    beaconId }

namespace MembershipManager

/-- The beacon passes the check of `select_committee`. -/
def Accepts (m : MembershipManager) (b : RandomnessBeacon) : Prop := b.verify = true ∧ b.epoch = m.epoch

def selectionSeed (m : MembershipManager) (beacon : Option RandomnessBeacon) : Bytes :=
  (beacon.map RandomnessBeacon.beaconValue).getD m.seed

variable {m : MembershipManager} {proof : CommitteeSelectionProof} {beacon : Option RandomnessBeacon}

theorem selectCommittee_eq_ok {committeeSize : Int} :
    m.selectCommittee committeeSize beacon = .ok proof ↔
      0 < committeeSize ∧ (∀ b ∈ beacon, m.Accepts b) ∧ m.TicketsFit m.snapshot ∧
        proof = .drawn m.epoch committeeSize (m.selectionSeed beacon) (beacon.map RandomnessBeacon.proofId)
          (m.lottery m.snapshot (m.selectionSeed beacon)) := by
  have accepts : (¬ (beacon.any fun b => !b.verify || b.epoch ≠ m.epoch) = true) ↔ ∀ b ∈ beacon, m.Accepts b := by
    cases beacon <;> simp [Accepts]
  unfold selectCommittee
  rw [refuseIf_bind_eq_ok, refuseIf_bind_eq_ok, except_bind_eq_ok, accepts, not_le]
  simp only [tickets_eq_ok]
  refine and_congr_right fun _ => and_congr_right fun _ => ?_
  constructor
  · rintro ⟨_, ⟨fits, rfl⟩, ⟨⟩⟩
    exact ⟨fits, rfl⟩
  · rintro ⟨fits, rfl⟩
    exact ⟨_, ⟨fits, rfl⟩, rfl⟩

omit m in
/-- What is compared at the end of `verify_selection`. -/
theorem eq_drawn_iff {expected : List Ticket} (tickets : List Ticket)
    (cut : expected = sliceTo (tickets.insertionSort (· ≤ ·))
      (min proof.committeeSize (tickets.insertionSort (· ≤ ·)).length)) :
    (expected.map Ticket.named = proof.selectedTickets ∧ fromKeys ((expected.map Ticket.named).map Prod.fst) =
        proof.selectedIds ∧ digest (committeeStatement proof.epoch proof.committeeSize proof.selectedTickets proof.seed
          proof.beaconId) = proof.proofId) ↔
      proof = .drawn proof.epoch proof.committeeSize proof.seed proof.beaconId tickets := by
  have ids : (expected.map Ticket.named).map Prod.fst = expected.map Ticket.validatorId := by
    rw [List.map_map]
    rfl
  obtain ⟨epoch, committeeSize, selectedIds, selectedTickets, seed, proofId, beaconId⟩ := proof
  rw [ids]
  dsimp only at cut ⊢
  subst cut
  constructor
  · rintro ⟨rfl, rfl, rfl⟩
    rfl
  · intro same
    obtain ⟨-, -, sameIds, sameTickets, -, sameId, -⟩ := CommitteeSelectionProof.mk.inj same
    refine ⟨sameTickets.symm, sameIds.symm, ?_⟩
    rw [sameTickets]
    exact sameId.symm

theorem verifySelection_eq_true :
    m.verifySelection proof beacon = .ok true ↔
      proof.epoch = m.snapshot.epoch ∧ m.seedBacked proof beacon = true ∧ m.TicketsFit m.snapshot ∧
        proof = .drawn proof.epoch proof.committeeSize proof.seed proof.beaconId (m.lottery m.snapshot proof.seed) := by
  unfold verifySelection
  by_cases epoch : proof.epoch = m.snapshot.epoch
  · rw [if_neg (not_not.mpr epoch), and_iff_right epoch]
    by_cases backed : m.seedBacked proof beacon = true
    · rw [if_neg (by simp [backed]), and_iff_right backed, except_bind_eq_ok]
      simp only [tickets_eq_ok, Option.getD_some, and_assoc, exists_and_left, exists_eq_left]
      refine and_congr_right fun _ => ?_
      rw [← eq_drawn_iff _ rfl]
      split
      · rename_i other
        exact ⟨fun ran => (Bool.false_ne_true (Except.ok.inj ran)).elim, fun same => absurd same.1 other⟩
      · rename_i same
        have equal := not_not.mp same
        rw [and_iff_right equal]
        refine ⟨fun ran => ?_, fun both => ?_⟩
        · simpa using Except.ok.inj ran
        · exact congrArg Except.ok (by simpa using both)
    · rw [if_pos (by simpa using backed)]
      exact ⟨fun ran => (Bool.false_ne_true (Except.ok.inj ran)).elim, fun all => absurd all.1 backed⟩
  · rw [if_pos epoch]
    exact ⟨fun ran => (Bool.false_ne_true (Except.ok.inj ran)).elim, fun all => absurd all.1 epoch⟩

/-- Manager and snapshot agree on epoch and seed. -/
structure InStep (m : MembershipManager) : Prop where
  epoch : m.epoch = m.snapshot.epoch
  seed : m.snapshot.seed = m.seed

theorem InStep.accepts_plain (inStep : m.InStep) {committeeSize : Int}
    (issued : m.selectCommittee committeeSize none = .ok proof) : m.verifySelection proof beacon = .ok true := by
  obtain ⟨-, -, fits, rfl⟩ := selectCommittee_eq_ok.mp issued
  refine verifySelection_eq_true.mpr ⟨inStep.epoch, ?_, fits, rfl⟩
  simp [seedBacked, CommitteeSelectionProof.drawn, selectionSeed, inStep.seed]

theorem InStep.accepts_backed (inStep : m.InStep) {committeeSize : Int} {b : RandomnessBeacon}
    (issued : m.selectCommittee committeeSize (some b) = .ok proof) : m.verifySelection proof (some b) = .ok true := by
  obtain ⟨-, accepted, fits, rfl⟩ := selectCommittee_eq_ok.mp issued
  obtain ⟨verified, epoch⟩ := accepted b rfl
  refine verifySelection_eq_true.mpr ⟨inStep.epoch, ?_, fits, rfl⟩
  simp [seedBacked, CommitteeSelectionProof.drawn, selectionSeed, verified, epoch]

/-- A proof that is accepted was issued, if its size is one that committees may
have. -/
theorem InStep.issued (inStep : m.InStep) (positive : 0 < proof.committeeSize)
    (accepted : m.verifySelection proof beacon = .ok true) :
    m.selectCommittee proof.committeeSize none = .ok proof ∨
      ∃ b, beacon = some b ∧ m.selectCommittee proof.committeeSize (some b) = .ok proof := by
  obtain ⟨epoch, backed, fits, drawn⟩ := verifySelection_eq_true.mp accepted
  rw [← inStep.epoch] at epoch
  unfold seedBacked at backed
  cases named : proof.beaconId with
  | none =>
    rw [named] at backed
    have seed : proof.seed = m.seed := inStep.seed ▸ of_decide_eq_true backed
    rw [named, epoch, seed] at drawn
    exact Or.inl (selectCommittee_eq_ok.mpr ⟨positive, by simp, fits, drawn⟩)
  | some beaconId =>
    rw [named] at backed
    cases beacon with
    | none => cases backed
    | some b =>
      simp only [Bool.and_eq_true, decide_eq_true_eq] at backed
      obtain ⟨⟨⟨verified, sameId⟩, seed⟩, sameEpoch⟩ := backed
      rw [named, ← sameId, seed, epoch] at drawn
      refine Or.inr ⟨b, rfl, selectCommittee_eq_ok.mpr ⟨positive, ?_, fits, drawn⟩⟩
      rintro _ ⟨⟩
      exact ⟨verified, sameEpoch.trans epoch⟩

/-- What is accepted is what is issued, with the beacon and without it. -/
structure AcceptsIssued (m : MembershipManager) (b : RandomnessBeacon) (proof : CommitteeSelectionProof) : Prop where
  backed : m.verifySelection proof (some b) = .ok true ↔
    ∃ n > 0, m.selectCommittee n none = .ok proof ∨ m.selectCommittee n (some b) = .ok proof
  plain : m.verifySelection proof none = .ok true ↔ ∃ n > 0, m.selectCommittee n none = .ok proof

theorem selectCommittee_size {committeeSize : Int} (issued : m.selectCommittee committeeSize beacon = .ok proof) :
    proof.committeeSize = committeeSize := by
  obtain ⟨-, -, -, rfl⟩ := selectCommittee_eq_ok.mp issued
  rfl

theorem InStep.acceptsIssued (inStep : m.InStep) (positive : 0 < proof.committeeSize) (b : RandomnessBeacon) :
    m.AcceptsIssued b proof where
  backed := by
    constructor
    · intro accepted
      refine ⟨proof.committeeSize, positive, ?_⟩
      rcases inStep.issued positive accepted with plain | ⟨_, ⟨⟩, issued⟩
      · exact Or.inl plain
      · exact Or.inr issued
    · rintro ⟨n, -, plain | issued⟩
      · exact inStep.accepts_plain plain
      · exact inStep.accepts_backed issued
  plain := by
    constructor
    · intro accepted
      refine ⟨proof.committeeSize, positive, ?_⟩
      rcases inStep.issued positive accepted with plain | ⟨_, ⟨⟩, _⟩
      exact plain
    · rintro ⟨n, -, plain⟩
      exact inStep.accepts_plain plain

/-- The proof of a size that no committee has. -/
def forgedSelection (m : MembershipManager) (committeeSize : Int) : CommitteeSelectionProof :=
  .drawn m.snapshot.epoch committeeSize m.snapshot.seed none (m.lottery m.snapshot m.snapshot.seed)

theorem forgedSelection_accepted (fits : m.TicketsFit m.snapshot) (committeeSize : Int)
    (beacon : Option RandomnessBeacon) :
    m.verifySelection (m.forgedSelection committeeSize) beacon = .ok true :=
  verifySelection_eq_true.mpr ⟨rfl, by simp [seedBacked, forgedSelection, CommitteeSelectionProof.drawn], fits, rfl⟩

end MembershipManager

theorem selections_verified_iff {s : Economy} (reached : EconomyCall.Reached s) (b : RandomnessBeacon)
    (committeeSize : Int) :
    (∀ proof : CommitteeSelectionProof, proof.committeeSize = committeeSize → s.manager.AcceptsIssued b proof) ↔
      (0 < committeeSize ∧ s.manager.epoch = s.manager.snapshot.epoch) ∨
        ¬ s.manager.TicketsFit s.manager.snapshot := by
  constructor
  · intro law
    by_cases fits : s.manager.TicketsFit s.manager.snapshot
    · have positive : 0 < committeeSize := by
        have forged := forgedSelection_accepted fits committeeSize none
        obtain ⟨n, positive, issued⟩ := (law (s.manager.forgedSelection committeeSize) rfl).plain.mp forged
        have size : committeeSize = n := selectCommittee_size issued
        omega
      obtain ⟨proof, issued⟩ : ∃ proof, s.manager.selectCommittee committeeSize none = .ok proof :=
        ⟨_, selectCommittee_eq_ok.mpr ⟨positive, by simp, fits, rfl⟩⟩
      have verified := (law proof (selectCommittee_size issued)).plain.mpr ⟨committeeSize, positive, issued⟩
      obtain ⟨-, -, -, rfl⟩ := selectCommittee_eq_ok.mp issued
      exact Or.inl ⟨positive, (verifySelection_eq_true.mp verified).1⟩
    · exact Or.inr fits
  · rintro (⟨positive, epoch⟩ | large) proof rfl
    · exact InStep.acceptsIssued ⟨epoch, reached.seeded⟩ positive b
    · -- neither function gets to the end of its lottery
      have unissued : ∀ n beacon, s.manager.selectCommittee n beacon ≠ .ok proof :=
        fun n beacon issued => large (selectCommittee_eq_ok.mp issued).2.2.1
      have unverified : ∀ beacon, s.manager.verifySelection proof beacon ≠ .ok true :=
        fun beacon verified => large (verifySelection_eq_true.mp verified).2.2.1
      constructor
      · refine ⟨fun verified => absurd verified (unverified _), ?_⟩
        rintro ⟨n, -, plain | issued⟩
        · exact absurd plain (unissued n none)
        · exact absurd issued (unissued n (some b))
      · refine ⟨fun verified => absurd verified (unverified _), ?_⟩
        rintro ⟨n, -, plain⟩
        exact absurd plain (unissued n none)

omit [Crypto] in
theorem MembershipManager.ticketsFit_of_cap {m : MembershipManager} (cap : m.maxTicketsPerValidator ≤ 2 ^ 64)
    (snapshot : MembershipSnapshot) : m.TicketsFit snapshot := fun _ _ _ => (min_le_right _ _).trans cap

/-- A proof that selects nobody. -/
def emptySelection (epoch : Int) (seed : Bytes) : CommitteeSelectionProof where
  epoch := epoch
  committeeSize := 0
  selectedIds := []
  selectedTickets := []
  seed := seed
  proofId := digest (committeeStatement epoch 0 [] seed none)

theorem MembershipManager.forgedSelection_zero (m : MembershipManager) :
    m.forgedSelection 0 = emptySelection m.snapshot.epoch m.snapshot.seed := by
  have nothing : ∀ items : List Ticket, sliceTo items (min 0 items.length) = [] := by
    intro items
    simp [sliceTo]
  unfold forgedSelection CommitteeSelectionProof.drawn
  simp only [nothing]
  rfl

omit [Crypto] in
theorem empty_selection_accepted : let _ := Crypto.ideal
    EconomyCall.Reached (stakedEconomy idealKey) ∧
      (stakedEconomy idealKey).manager.verifySelection (emptySelection 0 []) none = .ok true ∧
      ∀ n > 0, (stakedEconomy idealKey).manager.selectCommittee n none ≠ .ok (emptySelection 0 []) := by
  intro _
  have fits : (stakedEconomy idealKey).manager.TicketsFit (stakedEconomy idealKey).manager.snapshot :=
    ticketsFit_of_cap (show (10000 : Int) ≤ 2 ^ 64 by norm_num) _
  have accepted := forgedSelection_accepted fits 0 none
  rw [forgedSelection_zero] at accepted
  refine ⟨stakedEconomy_reached ideal_collisionFree ideal_signaturesVerify ideal_named, accepted, fun n positive issued => ?_⟩
  have size : 0 = n := selectCommittee_size issued
  omega

omit [Crypto] in
theorem selections_verified_solo : let _ := Crypto.ideal
    ∀ proof : CommitteeSelectionProof, proof.committeeSize = 3 →
      (stakedEconomy idealKey).manager.AcceptsIssued ⟨0, 7, ["v"], [1], "", "reveal", []⟩ proof := by
  intro _ proof
  have reached := stakedEconomy_reached ideal_collisionFree ideal_signaturesVerify ideal_named
  exact (selections_verified_iff reached _ 3).mpr (Or.inl ⟨by decide, rfl⟩) proof

end Mosaic
