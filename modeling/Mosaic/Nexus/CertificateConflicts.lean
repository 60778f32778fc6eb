import Mosaic.Nexus.Progress
import Mathlib.Algebra.Order.BigOperators.Group.Finset

namespace Mosaic.Nexus
open CanonicalJson Effects

variable [Crypto]

namespace QuorumCommittee

variable {c d : QuorumCommittee} {key other : ConflictKey} {choice rival : String × String} {vote : Vote}

/-- The votes are recorded one after the other; rejected ones are passed over. -/
def recordAll (votes : List Vote) (c : QuorumCommittee) : QuorumCommittee :=
  votes.foldl (fun c vote => final (recordVote vote) c) c

theorem recordAll_append (votes votes' : List Vote) (c : QuorumCommittee) :
    recordAll (votes ++ votes') c = recordAll votes' (recordAll votes c) := by
  simp [recordAll, List.foldl_append]

theorem recordAll_keeps (votes : List Vote) (c : QuorumCommittee) (sound : c.Consistent) :
    (recordAll votes c).Consistent ∧ (recordAll votes c).validators = c.validators := by
  induction votes generalizing c with
  | nil => exact ⟨sound, rfl⟩
  | cons vote votes ih =>
    obtain ⟨later, same⟩ := ih _ (sound.recordVote vote)
    exact ⟨later, same.trans (validators_recordVote c vote)⟩

theorem Consistent.supporters_disjoint (sound : c.Consistent) (different : choice ≠ rival) :
    Disjoint (c.supporters key choice) (c.supporters key rival) := by
  refine Finset.disjoint_left.mpr fun item first second => ?_
  obtain ⟨vote, filed, chosen⟩ := sound.mem_supporters.mp first
  obtain ⟨vote', filed', chosen'⟩ := sound.mem_supporters.mp second
  cases filed.symm.trans filed'
  exact different (chosen.symm.trans chosen')

/-- Who can cast a vote that is filed in the epoch. -/
def Eligible (c : QuorumCommittee) (epoch : Int) (item : String) : Prop :=
  0 ≤ epoch ∧ (c.validators.get? item).isSome

theorem Consistent.eligible (sound : c.Consistent) {item : String} (member : item ∈ c.supporters key choice) :
    c.Eligible key.epoch item := by
  obtain ⟨vote, filed, -⟩ := sound.mem_supporters.mp member
  obtain ⟨mine, here⟩ := sound.placed key item vote filed
  obtain ⟨⟨validator, known, -⟩, natural⟩ := sound.attested key item vote filed
  have sameEpoch : vote.epoch = key.epoch := congrArg ConflictKey.epoch here
  exact ⟨sameEpoch ▸ natural, by rw [← mine, known]; rfl⟩

/-- A vote of one validator, filed under the key. -/
def ballot (validator : Validator) (item : String) (key : ConflictKey) (choice : String × String) : Vote :=
  { validator.signVote key.epoch key.domainId key.objectVersions choice.1 choice.2 key.phase with validatorId := item }

theorem recordable_ballot (verifies : SignaturesVerify) (sound : c.Consistent) {item : String}
    {validator : Validator} (known : c.validators.get? item = some validator) (natural : 0 ≤ key.epoch)
    (undecided : ∀ rival, rival ≠ choice → item ∉ c.supporters key rival) :
    c.Recordable (ballot validator item key choice) where
  attested := ⟨validator, known, verifies _ _⟩
  epoch := natural
  single previous filed := by
    change (c.statementsAt key).get? item = some previous at filed
    rw [sound.choices, Option.map_eq_some_iff] at filed
    obtain ⟨vote, there, rfl⟩ := filed
    by_contra different
    exact undecided vote.choice different (sound.mem_supporters.mpr ⟨vote, there, rfl⟩)

/-- Eligible validators that have not voted otherwise can all vote for one
operation, and nobody else's votes change. -/
theorem Consistent.cast (verifies : SignaturesVerify) (sound : c.Consistent) (items : List String)
    (eligible : ∀ item ∈ items, c.Eligible key.epoch item)
    (undecided : ∀ item ∈ items, ∀ rival, rival ≠ choice → item ∉ c.supporters key rival) :
    ∃ votes, (recordAll votes c).supporters key choice = c.supporters key choice ∪ items.toFinset ∧
      ∀ other rival, (other, rival) ≠ (key, choice) → (recordAll votes c).supporters other rival = c.supporters other rival := by
  induction items generalizing c with
  | nil => exact ⟨[], by simp [recordAll], fun _ _ _ => rfl⟩
  | cons item items ih =>
    obtain ⟨natural, known⟩ := eligible item (by simp)
    obtain ⟨validator, found⟩ := Option.isSome_iff_exists.mp known
    have fits := recordable_ballot verifies sound found natural (undecided item (by simp))
    have after : ∀ other rival item',
        item' ∈ (final (QuorumCommittee.recordVote (ballot validator item key choice)) c).supporters other rival ↔
          item' ∈ c.supporters other rival ∨ key = other ∧ choice = rival ∧ item = item' :=
      fun _ _ _ => sound.mem_supporters_recordVote fits
    obtain ⟨votes, here, elsewhere⟩ := ih (sound.recordVote (ballot validator item key choice))
      (fun item' member => by
        rw [Eligible, validators_recordVote]
        exact eligible item' (List.mem_cons_of_mem _ member))
      (fun item' member rival different voted => by
        rcases (after _ _ _).mp voted with before | ⟨-, same, -⟩
        · exact undecided item' (List.mem_cons_of_mem _ member) rival different before
        · exact different same.symm)
    refine ⟨ballot validator item key choice :: votes, ?_, fun other rival apart => ?_⟩
    · refine here.trans (Finset.ext fun item' => ?_)
      simp only [Finset.mem_union, after, true_and, List.toFinset_cons, Finset.mem_insert, or_assoc, eq_comm]
    · refine (elsewhere other rival apart).trans (Finset.ext fun item' => ?_)
      rw [after]
      refine or_iff_left ?_
      rintro ⟨rfl, rfl, -⟩
      exact apart rfl

/-- Voters who can vote in the epoch and reach the threshold. -/
structure Quorate (c : QuorumCommittee) (epoch : Int) (voters : Finset String) : Prop where
  eligible : ∀ item ∈ voters, c.Eligible epoch item
  enough : c.threshold ≤ c.weigh voters

theorem weigh_le_total (natural : ∀ validator ∈ c.validators.values, 0 ≤ validator.weight) (voters : Finset String) :
    c.weigh voters ≤ c.totalWeight := by
  have amounts : ∀ item, 0 ≤ c.validators.amountAt Validator.weight item := by
    intro item
    cases found : c.validators.get? item with
    | none => rw [Dict.amountAt_of_none found]
    | some validator =>
      rw [Dict.amountAt_of_some found]
      exact natural validator (List.mem_map.mpr ⟨_, (Dict.get?_eq_some_iff _).mp found, rfl⟩)
  have known : c.weigh voters = c.weigh (voters ∩ c.validators.keys.toFinset) := by
    refine (Finset.sum_subset Finset.inter_subset_left fun item member outside => ?_).symm
    refine Dict.amountAt_of_none (Option.eq_none_iff_forall_ne_some.mpr fun validator found => outside ?_)
    exact Finset.mem_inter.mpr ⟨member, List.mem_toFinset.mpr (Dict.mem_keys.mpr ⟨validator, found⟩)⟩
  rw [totalWeight_eq_weigh, known]
  exact Finset.sum_le_sum_of_subset_of_nonneg Finset.inter_subset_right fun item _ _ => amounts item

/-- Where no weight is negative, two sets that reach the threshold meet. -/
theorem Quorate.meet {epoch epoch' : Int} {voters voters' : Finset String} (first : c.Quorate epoch voters)
    (second : c.Quorate epoch' voters') (natural : ∀ validator ∈ c.validators.values, 0 ≤ validator.weight) :
    ¬ Disjoint voters voters' := by
  intro apart
  have union : c.weigh (voters ∪ voters') = c.weigh voters + c.weigh voters' := Finset.sum_union apart
  have whole := weigh_le_total natural (voters ∪ voters')
  have none : 0 ≤ c.totalWeight := weigh_le_total natural ∅
  have enough := first.enough
  have enough' := second.enough
  unfold threshold at enough enough'
  omega

theorem supporters_new (validators : Dict String Validator) (key : ConflictKey) (choice : String × String) :
    (new validators).supporters key choice = ∅ := rfl

/-- Two sets of eligible voters can stand behind two operations, unless they
share a voter who would have to vote twice under one key. -/
theorem both_supported (verifies : SignaturesVerify) (validators : Dict String Validator)
    (different : choice ≠ rival) {voters voters' : Finset String}
    (eligible : ∀ item ∈ voters, (new validators).Eligible key.epoch item)
    (eligible' : ∀ item ∈ voters', (new validators).Eligible other.epoch item)
    (apart : key = other → Disjoint voters voters') :
    ∃ votes, (recordAll votes (new validators)).supporters key choice = voters ∧
      (recordAll votes (new validators)).supporters other rival = voters' := by
  have sound := consistent_new validators
  have pairs : (other, rival) ≠ (key, choice) := fun same => different (Prod.mk.inj same).2.symm
  -- the first set votes for one operation, then the second for the other
  obtain ⟨votes, here, elsewhere⟩ := sound.cast verifies voters.toList
    (fun item member => eligible item (Finset.mem_toList.mp member))
    (fun item _ rival _ => by simp [supporters_new] : ∀ item ∈ voters.toList, ∀ rival, rival ≠ choice →
      item ∉ (new validators).supporters key rival)
  obtain ⟨sound', same⟩ := recordAll_keeps votes _ sound
  have undecided : ∀ item ∈ voters'.toList, ∀ third, third ≠ rival →
      item ∉ (recordAll votes (new validators)).supporters other third := by
    intro item member third _ voted
    by_cases first : (other, third) = (key, choice)
    · obtain ⟨rfl, rfl⟩ := Prod.mk.inj first
      rw [here, supporters_new, Finset.empty_union, Finset.toList_toFinset] at voted
      exact Finset.disjoint_left.mp (apart rfl) voted (Finset.mem_toList.mp member)
    · rw [elsewhere other third first, supporters_new] at voted
      exact absurd voted (Finset.notMem_empty item)
  obtain ⟨votes', here', elsewhere'⟩ := sound'.cast verifies voters'.toList (fun item member => by
    rw [Eligible, same]
    exact eligible' item (Finset.mem_toList.mp member)) undecided
  refine ⟨votes ++ votes', ?_, ?_⟩
  · rw [recordAll_append, elsewhere' key choice pairs.symm, here, supporters_new, Finset.empty_union,
      Finset.toList_toFinset]
  · rw [recordAll_append, here', elsewhere other rival pairs, supporters_new, Finset.empty_union,
      Finset.toList_toFinset]

end QuorumCommittee

namespace DomainExecutor

/-- Both operations get a certificate of the phase for their own object versions. -/
def DoublyCertified (d : DomainExecutor) (c : QuorumCommittee) (a b : Operation) (epoch epoch' : Int)
    (phase : String) : Prop :=
  (∃ certificate, c.issueCertificate epoch d.domainId (d.objectVersions a) a phase = .ok certificate) ∧
  ∃ certificate, c.issueCertificate epoch' d.domainId (d.objectVersions b) b phase = .ok certificate

/-- The operations have an input of the domain in common. -/
def Contend (d : DomainExecutor) (a b : Operation) : Prop :=
  ∃ item ∈ a.inputs, item.domainId = d.domainId ∧ item ∈ b.inputs

end DomainExecutor

section Exclusion
open QuorumCommittee

variable {validators : Dict String Validator} {d : DomainExecutor} {a b : Operation} {epoch epoch' : Int}
  {phase : String} {voters voters' : Finset String}

theorem doublyCertified_of_quorate (verifies : SignaturesVerify) (different : a.opId ≠ b.opId)
    (quorum : (new validators).Quorate epoch voters) (quorum' : (new validators).Quorate epoch' voters')
    (loose : ¬ (epoch = epoch' ∧ d.objectVersions a = d.objectVersions b ∧ ¬ Disjoint voters voters')) :
    ∃ votes, d.DoublyCertified (recordAll votes (new validators)) a b epoch epoch' phase := by
  have choices : (a.opId, a.dependencyDigest) ≠ (b.opId, b.dependencyDigest) :=
    fun same => different (Prod.mk.inj same).1
  obtain ⟨votes, here, here'⟩ : ∃ votes,
      (recordAll votes (new validators)).supporters ⟨epoch, d.domainId, d.objectVersions a, phase⟩
        (a.opId, a.dependencyDigest) = voters ∧
      (recordAll votes (new validators)).supporters ⟨epoch', d.domainId, d.objectVersions b, phase⟩
        (b.opId, b.dependencyDigest) = voters' := by
    refine both_supported verifies validators choices quorum.eligible quorum'.eligible fun same => ?_
    obtain ⟨epochs, -, versions, -⟩ := ConflictKey.mk.inj same
    by_contra meet
    exact loose ⟨epochs, versions, meet⟩
  obtain ⟨sound, same⟩ := recordAll_keeps votes _ (consistent_new validators)
  refine ⟨votes, ⟨_, sound.issueCertificate_eq_ok.mpr ⟨?_, rfl⟩⟩, _, sound.issueCertificate_eq_ok.mpr ⟨?_, rfl⟩⟩
  · rw [here, threshold_congr same, weigh_congr same]
    exact quorum.enough
  · rw [here', threshold_congr same, weigh_congr same]
    exact quorum'.enough

/-- Two certificates come from two quorums, and from disjoint ones where the
votes share their key. -/
theorem quorate_of_doublyCertified (different : a.opId ≠ b.opId) {votes : List Vote}
    (double : d.DoublyCertified (recordAll votes (new validators)) a b epoch epoch' phase) :
    ∃ voters voters', (new validators).Quorate epoch voters ∧ (new validators).Quorate epoch' voters' ∧
      (epoch = epoch' → d.objectVersions a = d.objectVersions b → Disjoint voters voters') := by
  obtain ⟨⟨certificate, issued⟩, certificate', issued'⟩ := double
  obtain ⟨sound, same⟩ := recordAll_keeps votes _ (consistent_new validators)
  obtain ⟨enough, -⟩ := sound.issueCertificate_eq_ok.mp issued
  obtain ⟨enough', -⟩ := sound.issueCertificate_eq_ok.mp issued'
  rw [threshold_congr same, weigh_congr same] at enough enough'
  have eligible : ∀ key choice item, item ∈ (recordAll votes (new validators)).supporters key choice →
      (new validators).Eligible key.epoch item := by
    intro key choice item member
    have able := sound.eligible member
    rwa [Eligible, same] at able
  refine ⟨_, _, ⟨eligible _ _, enough⟩, ⟨eligible _ _, enough'⟩, ?_⟩
  rintro rfl versions
  rw [versions]
  exact sound.supporters_disjoint fun same => different (Prod.mk.inj same).1

end Exclusion

open QuorumCommittee in
/-- Two operations never both get a certificate exactly where no two sets of
voters reach the threshold in their epochs, unless the calls share the epoch and
the whole list of object versions and the sets overlap. -/
theorem conflicting_certificates (verifies : SignaturesVerify) (validators : Dict String Validator)
    (d : DomainExecutor) (a b : Operation) (different : a.opId ≠ b.opId) (epoch epoch' : Int) (phase : String) :
    (∀ votes, ¬ d.DoublyCertified (recordAll votes (new validators)) a b epoch epoch' phase) ↔
      ∀ voters voters', (new validators).Quorate epoch voters → (new validators).Quorate epoch' voters' →
        epoch = epoch' ∧ d.objectVersions a = d.objectVersions b ∧ ¬ Disjoint voters voters' := by
  constructor
  · intro never voters voters' quorum quorum'
    by_contra loose
    obtain ⟨votes, double⟩ := doublyCertified_of_quorate verifies different quorum quorum' loose
    exact never votes double
  · intro bound votes double
    obtain ⟨voters, voters', quorum, quorum', apart⟩ := quorate_of_doublyCertified different double
    obtain ⟨epochs, versions, meet⟩ := bound voters voters' quorum quorum'
    exact meet (apart epochs versions)

theorem soloValidators_quorate (pair : KeyPair) : (QuorumCommittee.new (soloValidators pair)).Quorate 0 {"v"} where
  eligible item member := by
    cases Finset.mem_singleton.mp member
    exact ⟨le_rfl, rfl⟩
  enough := by
    rw [QuorumCommittee.weigh, Finset.sum_singleton]
    change (1 : Int) ≤ 1
    exact le_rfl

theorem soloValidators_natural (pair : KeyPair) :
    ∀ validator ∈ (QuorumCommittee.new (soloValidators pair)).validators.values, 0 ≤ validator.weight := by
  intro validator member
  cases List.mem_singleton.mp member
  change (0 : Int) ≤ 1
  exact Int.one_nonneg

theorem length_objectVersions (d : DomainExecutor) (operation : Operation) :
    (d.objectVersions operation).length = (d.localInputs operation).length := by
  rw [DomainExecutor.objectVersions, (sortedPairs_perm _ _).length_eq, List.length_map]

/-- What a single validator votes for one list of object versions excludes every
other vote for it. -/
theorem solo_exclusive (pair : KeyPair) (objects : List String) (nonce nonce' : Int) (voters voters' : Finset String)
    (quorum : (QuorumCommittee.new (soloValidators pair)).Quorate 0 voters)
    (quorum' : (QuorumCommittee.new (soloValidators pair)).Quorate 0 voters') :
    (0 : Int) = 0 ∧ (DomainExecutor.new "d" 0 (.new (soloValidators pair))).objectVersions (rewrite pair objects nonce) =
      (DomainExecutor.new "d" 0 (.new (soloValidators pair))).objectVersions (rewrite pair objects nonce') ∧
      ¬ Disjoint voters voters' := by
  refine ⟨rfl, ?_, quorum.meet quorum' (soloValidators_natural pair)⟩
  simp only [DomainExecutor.objectVersions, DomainExecutor.localInputs, rewrite_inputs]

omit [Crypto] in
theorem conflicting_certificates_solo : let _ := Crypto.ideal
    ∀ votes, ¬ (DomainExecutor.new "d" 0 (.new (soloValidators idealKey))).DoublyCertified
      (.recordAll votes (.new (soloValidators idealKey))) (rewrite idealKey ["a"] 0) (rewrite idealKey ["a"] 1) 0 0
      "COMMIT" := by
  intro _
  have different := rewrite_opId ideal_collisionFree idealKey
    (fun _ => Int.zero_ne_one : ["a"] = ["a"] → (0 : Int) ≠ 1)
  exact (conflicting_certificates ideal_signaturesVerify _ _ _ _ different 0 0 "COMMIT").mpr
    (solo_exclusive idealKey ["a"] 0 1)

/-- The votes for the object alone and for the object with another one stand
under two keys, and a committee certifies both. -/
theorem overlap_certified (verifies : SignaturesVerify) (free : CollisionFree) (pair : KeyPair) :
    ∃ votes, (DomainExecutor.new "d" 0 (.new (soloValidators pair))).DoublyCertified
      (.recordAll votes (.new (soloValidators pair))) (rewrite pair ["a"] 0) (rewrite pair ["a", "b"] 0) 0 0
      "COMMIT" := by
  have quorum := soloValidators_quorate pair
  refine doublyCertified_of_quorate verifies (rewrite_opId free pair (by simp)) quorum quorum ?_
  rintro ⟨-, versions, -⟩
  have lengths := congrArg List.length versions
  rw [length_objectVersions, length_objectVersions] at lengths
  simp [DomainExecutor.localInputs, DomainExecutor.new] at lengths

omit [Crypto] in
theorem conflicting_certificates_fail : let _ := Crypto.ideal
    ¬ ∀ (validators : Dict String Validator) (d : DomainExecutor) (votes : List Vote) (a b : Operation)
      (epoch epoch' : Int) (phase : String), a.opId ≠ b.opId → d.Contend a b →
        ¬ d.DoublyCertified (.recordAll votes (.new validators)) a b epoch epoch' phase := by
  intro _ claim
  obtain ⟨votes, double⟩ := overlap_certified ideal_signaturesVerify ideal_collisionFree idealKey
  exact claim _ _ votes _ _ 0 0 "COMMIT" (rewrite_opId ideal_collisionFree idealKey (by simp))
    ⟨⟨"d", "a", 0⟩, by simp, rfl, by simp⟩ double

end Mosaic.Nexus
