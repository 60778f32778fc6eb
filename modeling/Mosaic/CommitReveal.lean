import Mosaic.QuietCalls

namespace Mosaic
open CanonicalJson Effects Economy

/-- Where the coordinator keeps an item. -/
def RandomnessCommitment.key (item : RandomnessCommitment) : Int × Int × String :=
  (item.epoch, item.round, item.validatorId)

def RandomnessReveal.key (item : RandomnessReveal) : Int × Int × String := (item.epoch, item.round, item.validatorId)

variable [Crypto] {s t : Economy}

/-- What is in the tables of `s` stays in those of `t`, what was revealed since
then opens a commitment, and everything is kept under its key. -/
structure Economy.Extends (s t : Economy) : Prop where
  commitments : ∀ key item, s.rounds.commitments.get? key = some item → t.rounds.commitments.get? key = some item
  reveals : ∀ key item, s.rounds.reveals.get? key = some item → t.rounds.reveals.get? key = some item
  opened : ∀ key item, t.rounds.reveals.get? key = some item → s.rounds.reveals.get? key = some item ∨
    ∃ commitment, t.rounds.commitments.get? key = some commitment ∧ commitment.commitment = commitmentTo item.secret
  keyed : s.manager.Keyed → t.manager.Keyed
  commitmentKeys : ∀ key item, t.rounds.commitments.get? key = some item →
    s.rounds.commitments.get? key = some item ∨ item.key = key
  revealKeys : ∀ key item, t.rounds.reveals.get? key = some item →
    s.rounds.reveals.get? key = some item ∨ item.key = key

namespace Economy

theorem Extends.of_quiet (quiet : s.Quiet t) : s.Extends t := by
  obtain ⟨rounds, keyed⟩ := quiet
  refine ⟨?_, ?_, ?_, keyed, ?_, ?_⟩ <;> rw [rounds]
  · exact fun _ _ held => held
  · exact fun _ _ held => held
  · exact fun _ _ held => Or.inl held
  · exact fun _ _ held => Or.inl held
  · exact fun _ _ held => Or.inl held

instance : Std.Refl Extends := ⟨fun _ => .of_quiet (.of_same rfl rfl)⟩

instance : IsTrans Economy Extends where
  trans s t u first second := by
    refine ⟨fun key item held => ?_, fun key item held => ?_, fun key item held => ?_, second.keyed ∘ first.keyed,
      fun key item held => ?_, fun key item held => ?_⟩
    · exact second.commitments key item (first.commitments key item held)
    · exact second.reveals key item (first.reveals key item held)
    · rcases second.opened key item held with before | now
      · refine (first.opened key item before).imp_right ?_
        rintro ⟨commitment, found, opens⟩
        exact ⟨commitment, second.commitments key commitment found, opens⟩
      · exact Or.inr now
    · exact (second.commitmentKeys key item held).elim (first.commitmentKeys key item) Or.inr
    · exact (second.revealKeys key item held).elim (first.revealKeys key item) Or.inr

end Economy

namespace BeaconRoundCoordinator

omit [Crypto] in
/-- An entry that is written where nothing else stands replaces nothing. -/
theorem get?_set_of_unopposed {κ β : Type} [DecidableEq κ] [DecidableEq β] {d : Dict κ β} {key key' : κ}
    {value value' : β} (unopposed : ¬ (d.get? key).any (· ≠ value) = true) (held : d.get? key' = some value') :
    (d.set key value).get? key' = some value' := by
  rw [Dict.get?_set]
  split
  · rename_i same
    subst same
    rw [held] at unopposed
    simpa using Eq.symm (by simpa using unopposed : value' = value)
  · exact held

omit [Crypto] in
/-- Where an entry comes from. -/
theorem origin_of_set {κ β : Type} [DecidableEq κ] {d : Dict κ β} {key key' : κ} {value value' : β} {name : β → κ}
    (held : (d.set key value).get? key' = some value') (named : name value = key := by rfl) :
    d.get? key' = some value' ∨ name value' = key' := by
  rcases Dict.origin_of_get?_set held with ⟨rfl, rfl⟩ | old
  · exact Or.inr named
  · exact Or.inl old

/-- A commitment that is accepted is in the table. -/
theorem submitCommitment_extends (item : RandomnessCommitment) :
    Guarantees Extends s (submitCommitment item) (fun _ t => t.rounds.commitments.get? item.key = some item) := by
  refine .get_bind ?_
  dsimp only
  split
  · exact .throw _
  · refine .raiseIf_bind fun _ => .raiseIf_bind fun _ => .raiseIf_bind fun _ => .raiseIf_bind fun unopposed => ?_
    refine Guarantees.bind (Q := fun _ t => t.rounds.commitments.get? item.key = some item) (.update ?_ ?_)
      fun _ v _ written => ?_
    · refine ⟨fun key other held => ?_, fun key other held => held, fun key other held => Or.inl held, id,
        fun key other held => ?_, fun key other held => Or.inl held⟩
      · exact get?_set_of_unopposed unopposed held
      · exact origin_of_set held
    · exact Dict.get?_set_self _ _ _
    · refine ((putRow_keeps quiet_kept.store).mono fun _ w quiet _ => ?_).weaken fun w quiet => .of_quiet quiet
      rwa [quiet.rounds]

/-- A reveal that is accepted is in the table, and opens the commitment that
was accepted before. -/
theorem submitReveal_extends (item : RandomnessReveal) :
    Guarantees Extends s (submitReveal item) (fun _ t => t.rounds.reveals.get? item.key = some item ∧
      ∃ commitment, s.rounds.commitments.get? item.key = some commitment ∧
        commitment.commitment = commitmentTo item.secret) := by
  refine .get_bind ?_
  dsimp only
  split
  · exact .throw _
  · split
    · exact .throw _
    · rename_i commitment matched
      obtain ⟨held, -⟩ := Option.filter_eq_some_iff.mp matched
      refine .raiseIf_bind fun _ => .raiseIf_bind fun opens => .raiseIf_bind fun unopposed => ?_
      have opens : commitment.commitment = commitmentTo item.secret := not_not.mp opens
      refine Guarantees.bind (Q := fun _ t => t.rounds.reveals.get? item.key = some item) (.update ?_ ?_)
        fun _ v _ written => ?_
      · refine ⟨fun key other held => held, fun key other held => get?_set_of_unopposed unopposed held,
          fun key other revealed => ?_, id, fun key other held => Or.inl held, fun key other held => origin_of_set held⟩
        change (s.rounds.reveals.set item.key item).get? key = some other at revealed
        rcases Dict.origin_of_get?_set revealed with ⟨rfl, rfl⟩ | old
        · exact Or.inr ⟨commitment, held, opens⟩
        · exact Or.inl old
      · exact Dict.get?_set_self _ _ _
      · refine ((putRow_keeps quiet_kept.store).mono fun _ w quiet _ => ⟨?_, commitment, held, opens⟩).weaken
          fun w quiet => .of_quiet quiet
        rwa [quiet.rounds]

theorem finalize_extends (round revealReward nonRevealPenalty : Int) :
    Guarantees Extends s (finalize round revealReward nonRevealPenalty) (fun _ _ => True) := by
  refine .get_bind ?_
  dsimp only
  split
  · exact .pure trivial
  · refine .raiseIf_bind fun _ =>
      (quiet_kept.settleRound.rethrow.weaken fun _ quiet => .of_quiet quiet).bind fun _ _ _ _ =>
      Guarantees.bind (Q := fun _ _ => True) (.update ?_ trivial) fun _ v _ _ => .get_bind ?_
    · exact ⟨fun _ _ held => held, fun _ _ held => held, fun _ _ held => Or.inl held, id, fun _ _ held => Or.inl held,
        fun _ _ held => Or.inl held⟩
    split
    · exact (quiet_kept.persist.weaken fun _ quiet => .of_quiet quiet).bind fun _ _ _ _ =>
        (quiet_kept.onStore.weaken fun _ quiet => .of_quiet quiet).bind fun _ _ _ _ => .pure trivial
    · exact .pure trivial

end BeaconRoundCoordinator

namespace EconomyCall

theorem exec_extends (call : EconomyCall) (s : Economy) : s.Extends (call.exec s) := by
  have discards : ∀ {β : Type} {x : PyEconomy β} {Q : β → Economy → Prop}, Guarantees Extends s x Q →
      s.Extends (final (discard x) s) := by
    intro β x Q adds
    rw [final_discard]
    exact adds.moves
  have keeps : ∀ {β : Type} {x : PyEconomy β}, Guarantees Quiet s x (fun _ _ => True) →
      s.Extends (final (discard x) s) := by
    intro β x quiet
    exact discards (quiet.weaken fun _ quiet => .of_quiet quiet)
  have operates : ∀ call : EconomyCall, call.OfManager → s.Extends (call.exec s) := by
    intro call own
    exact .of_quiet (quiet_kept.manager call s own)
  cases call with
  | ledger => exact keeps quiet_kept.ledgerCall
  | admitValidator => exact operates _ trivial
  | exit => exact operates _ trivial
  | withdraw => exact operates _ trivial
  | slash => exact operates _ trivial
  | penalizeNonReveal => exact operates _ trivial
  | advanceEpoch => exact operates _ trivial
  | restoreAdmission => exact operates _ trivial
  | settleRound => exact keeps quiet_kept.settleRound
  | submitCommitment item => exact (BeaconRoundCoordinator.submitCommitment_extends item).moves
  | submitReveal item => exact (BeaconRoundCoordinator.submitReveal_extends item).moves
  | finalize round revealReward nonRevealPenalty =>
    exact discards (BeaconRoundCoordinator.finalize_extends round revealReward nonRevealPenalty)
  | onboard => exact keeps quiet_kept.onboard
  | bindStore => exact .of_quiet (.of_same rfl rfl)
  | restoreFromStore => exact keeps quiet_kept.restoreFromStore

/-- Calls in any order, those that raise included. -/
abbrev Run : Economy → Economy → Prop := GuardedRun exec fun _ _ => True

theorem Run.extends (run : Run s t) : s.Extends t :=
  run.relates (P := fun _ => True) trivial (fun _ _ _ _ => trivial) fun t call _ _ => call.exec_extends t

theorem Reached.keyed (reached : Reached s) : s.manager.Keyed := by
  obtain ⟨ledger, manager, store, beaconBound, run⟩ := reached
  refine (Run.extends run).keyed fun v record held => ?_
  cases held

/-- The tables keep every item under its key. -/
theorem Reached.tables (reached : Reached s) :
    (∀ key item, s.rounds.commitments.get? key = some item → item.key = key) ∧
      ∀ key item, s.rounds.reveals.get? key = some item → item.key = key := by
  obtain ⟨ledger, manager, store, beaconBound, run⟩ := reached
  refine ⟨fun key item held => ?_, fun key item held => ?_⟩
  · rcases (Run.extends run).commitmentKeys key item held with old | same
    · cases old
    · exact same
  · rcases (Run.extends run).revealKeys key item held with old | same
    · cases old
    · exact same

/-- Whatever is revealed opens a commitment that was accepted. -/
theorem Reached.opened (reached : Reached s) {key : Int × Int × String} {item : RandomnessReveal}
    (revealed : s.rounds.reveals.get? key = some item) :
    ∃ commitment, s.rounds.commitments.get? key = some commitment ∧ commitment.commitment = commitmentTo item.secret := by
  obtain ⟨ledger, manager, store, beaconBound, run⟩ := reached
  rcases (Run.extends run).opened key item revealed with old | opened
  · cases old
  · exact opened

/-- The commitment of `key` stands whatever is called after `s`: no other one is
accepted, and at most one secret is revealed for it. -/
structure Stands (s : Economy) (key : Int × Int × String) (commitment : RandomnessCommitment) : Prop where
  kept : ∀ t, Run s t → t.rounds.commitments.get? key = some commitment
  only : ∀ t item u, Run s t → item.key = key → BeaconRoundCoordinator.submitCommitment item t = .ok ⟨⟩ u →
    item = commitment
  secret : ∀ t t' reveal reveal', Run s t → Run s t' → t.rounds.reveals.get? key = some reveal →
    t'.rounds.reveals.get? key = some reveal' → reveal.secret = reveal'.secret

theorem stands (free : CollisionFree) (reached : Reached s) {key : Int × Int × String} {commitment : RandomnessCommitment}
    (held : s.rounds.commitments.get? key = some commitment) : Stands s key commitment := by
  have kept : ∀ t, Run s t → t.rounds.commitments.get? key = some commitment := by
    intro t run
    exact (Run.extends run).commitments key commitment held
  have opens : ∀ t reveal, Run s t → t.rounds.reveals.get? key = some reveal →
      commitment.commitment = commitmentTo reveal.secret := by
    intro t reveal run revealed
    obtain ⟨ledger, manager, store, beaconBound, before⟩ := reached
    have reached' : Reached t := ⟨ledger, manager, store, beaconBound, before.trans run⟩
    obtain ⟨other, found, opens⟩ := Reached.opened reached' revealed
    cases (kept t run).symm.trans found
    exact opens
  refine ⟨kept, ?_, ?_⟩
  · rintro t item u run rfl accepted
    have added := BeaconRoundCoordinator.submitCommitment_extends (s := t) item
    have stays := (added.step accepted).commitments item.key commitment (kept t run)
    exact Option.some_inj.mp ((added.returns _ _ accepted).symm.trans stays)
  · intro t t' reveal reveal' run run' revealed revealed'
    have same : commitmentTo reveal.secret = commitmentTo reveal'.secret :=
      (opens t reveal run revealed).symm.trans (opens t' reveal' run' revealed')
    exact List.append_cancel_left (free same)

end EconomyCall

/-- In every run a reveal needs the commitment of its own validator first, and
a validator that has committed is bound to what it committed to. -/
theorem committed_before_revealed (free : CollisionFree) (reached : EconomyCall.Reached s) :
    (∀ reveal t, BeaconRoundCoordinator.submitReveal reveal s = .ok ⟨⟩ t →
      ∃ commitment, s.rounds.commitments.get? reveal.key = some commitment ∧
        commitment.commitment = commitmentTo reveal.secret) ∧
    (∀ key reveal, s.rounds.reveals.get? key = some reveal →
      ∃ commitment, s.rounds.commitments.get? key = some commitment ∧
        commitment.commitment = commitmentTo reveal.secret) ∧
    ∀ key commitment, s.rounds.commitments.get? key = some commitment → EconomyCall.Stands s key commitment := by
  refine ⟨?_, ?_, ?_⟩
  · intro reveal t accepted
    exact ((BeaconRoundCoordinator.submitReveal_extends reveal).returns _ _ accepted).2
  · intro key reveal revealed
    exact EconomyCall.Reached.opened reached revealed
  · intro key commitment held
    exact EconomyCall.stands free reached held

section Duo
variable {first second : KeyPair}

namespace BeaconRoundCoordinator

omit [Crypto] in
theorem putRow_unbound {kind objectKey : String} {payload : EconomyRow} (s : Economy) (unbound : s.beaconBound = false) :
    putRow kind objectKey payload s = .ok ⟨⟩ s := by
  unfold putRow
  rw [get_bind_apply, if_neg (by simp [unbound])]
  rfl

theorem submitCommitment_ok {item : RandomnessCommitment} {record : ValidatorRecord} (unbound : s.beaconBound = false)
    (votes : s.manager.snapshot.byId.get? item.validatorId = some record) (current : item.epoch = s.manager.snapshot.epoch)
    (round : 0 ≤ item.round) (named : item.commitment ≠ "")
    (signed : KeyPair.verify record.publicKey (canonicalBytes item.statement) item.signature = true)
    (new : s.rounds.commitments.get? item.key = none) :
    submitCommitment item s =
      .ok ⟨⟩ (s.setRounds { s.rounds with commitments := s.rounds.commitments.set item.key item }) := by
  change s.rounds.commitments.get? (item.epoch, item.round, item.validatorId) = none at new
  have late : ¬ (item.round < 0 ∨ item.commitment = "") := by
    rintro (negative | empty)
    · omega
    · exact named empty
  have written : ∀ t : Economy, t.beaconBound = false →
      putRow "beacon_commitment" (digest item.statement) (.beaconCommitment item) t = .ok ⟨⟩ t := putRow_unbound
  unfold submitCommitment
  rw [get_bind_apply]
  simp only [votes]
  rw [raiseIf_bind_neg (not_not.mpr current), raiseIf_bind_neg late, raiseIf_bind_neg (by simp [signed]),
    raiseIf_bind_neg (by simp [new])]
  exact written _ unbound

theorem submitReveal_ok {item : RandomnessReveal} {record : ValidatorRecord} {commitment : RandomnessCommitment}
    (unbound : s.beaconBound = false) (votes : s.manager.snapshot.byId.get? item.validatorId = some record)
    (held : s.rounds.commitments.get? item.key = some commitment) (matched : commitment.commitment = item.commitment)
    (signed : KeyPair.verify record.publicKey (canonicalBytes item.statement) item.signature = true)
    (opens : commitment.commitment = commitmentTo item.secret) (new : s.rounds.reveals.get? item.key = none) :
    submitReveal item s = .ok ⟨⟩ (s.setRounds { s.rounds with reveals := s.rounds.reveals.set item.key item }) := by
  change s.rounds.commitments.get? (item.epoch, item.round, item.validatorId) = some commitment at held
  change s.rounds.reveals.get? (item.epoch, item.round, item.validatorId) = none at new
  have written : ∀ t : Economy, t.beaconBound = false →
      putRow "beacon_reveal" (digest item.statement) (.beaconReveal item) t = .ok ⟨⟩ t := putRow_unbound
  unfold submitReveal
  rw [get_bind_apply]
  simp only [votes, held, Option.filter_some, matched, decide_true, if_true]
  rw [raiseIf_bind_neg (by simp [signed]), raiseIf_bind_neg (not_not.mpr opens), raiseIf_bind_neg (by simp [new])]
  exact written _ unbound

end BeaconRoundCoordinator

/-- An admission without a ledger. -/
theorem MembershipManager.admit_unbonded {request : AdmissionRequest} (able : s.manager.Admissible request none) :
    (EconomyCall.admitValidator request [] none).exec s = s.setManager (s.manager.register request) := by
  have finishes := admit_finishes s request [] none
  have calls : s.manager.admissionCall none = none := by
    unfold admissionCall
    split <;> rfl
  rw [calls] at finishes
  obtain ⟨certificate, run⟩ := finishes.of_paid able rfl id
  have ran : (EconomyCall.admitValidator request [] none).run s = .ok ⟨⟩ (s.setManager (s.manager.register request)) :=
    bind_of_ok run
  exact final_of_ok ran

def voterRequest (pair : KeyPair) (validatorId depositId : String) : AdmissionRequest :=
  .create pair validatorId 10 depositId 0 none

/-- Both keys have a validator that votes. -/
def duoEconomy (first second : KeyPair) : Economy :=
  let start := Economy.fresh plainLedger { genesisSeed := [] } {} false
  start.setManager ((start.manager.register (voterRequest first "v" "d")).register (voterRequest second "w" "e"))

theorem duoEconomy_run (verifies : SignaturesVerify) :
    GuardedRun EconomyCall.exec (fun _ _ => True) (.fresh plainLedger { genesisSeed := [] } {} false)
      (duoEconomy first second) := by
  let start := Economy.fresh plainLedger { genesisSeed := [] } {} false
  have one : start.manager.Admissible (voterRequest first "v" "d") none := {
    verified := AdmissionRequest.create_verify verifies first "v" "d" 10 0 none
    stake := by change (1 : Int) ≤ 10; decide
    fresh := le_rfl
    bonded := by
      intro settlement
      cases settlement
    new := rfl
    unused := Finset.notMem_empty _
    fits := by simp }
  have two : (start.manager.register (voterRequest first "v" "d")).Admissible (voterRequest second "w" "e") none := {
    verified := AdmissionRequest.create_verify verifies second "w" "e" 10 0 none
    stake := by change (1 : Int) ≤ 10; decide
    fresh := le_rfl
    bonded := by
      intro settlement
      cases settlement
    new := rfl
    unused := by
      intro used
      simp [MembershipManager.register, voterRequest, start, Economy.fresh, MembershipManager.fresh,
        AdmissionRequest.create] at used
    fits := by simp }
  have begun : GuardedRun EconomyCall.exec (fun _ _ => True) start start := .refl
  have step := begun.tail (i := .admitValidator (voterRequest first "v" "d") [] none) trivial
  rw [MembershipManager.admit_unbonded one] at step
  have step' := step.tail (i := .admitValidator (voterRequest second "w" "e") [] none) trivial
  rw [MembershipManager.admit_unbonded two] at step'
  exact step'

theorem duoEconomy_votes {validatorId : String} {record : ValidatorRecord}
    (held : (duoEconomy first second).manager.records.get? validatorId = some record) (votes : record.votes = true) :
    (duoEconomy first second).manager.snapshot.byId.get? validatorId = some record := by
  have tracked : (duoEconomy first second).manager.Tracked := rfl
  refine (MembershipManager.byId_iff tracked ?_).mpr ⟨held, votes⟩
  intro v other held'
  change ((Dict.empty.set "v" (MembershipManager.admittedRecord (voterRequest first "v" "d"))).set "w"
    (MembershipManager.admittedRecord (voterRequest second "w" "e"))).get? v = some other at held'
  rw [Dict.get?_set, Dict.get?_set] at held'
  split at held'
  · cases held'
    assumption
  split at held'
  · cases held'
    assumption
  · cases held'

def duoCommitment (pair : KeyPair) (validatorId : String) (secret : Bytes) : RandomnessCommitment :=
  .create pair 0 0 secret (some validatorId)

def duoReveal (pair : KeyPair) (validatorId : String) (secret : Bytes) : RandomnessReveal :=
  .create pair 0 0 secret (commitmentTo secret) (some validatorId)

/-- The first validator has committed. -/
def committedEconomy (first second : KeyPair) (secret : Bytes) : Economy :=
  (duoEconomy first second).setRounds {
    commitments := Dict.empty.set (duoCommitment first "v" secret).key (duoCommitment first "v" secret) }

/-- The first validator has committed and revealed, the second has done nothing. -/
def revealedEconomy (first second : KeyPair) (secret : Bytes) : Economy :=
  (duoEconomy first second).setRounds {
    commitments := Dict.empty.set (duoCommitment first "v" secret).key (duoCommitment first "v" secret)
    reveals := Dict.empty.set (duoReveal first "v" secret).key (duoReveal first "v" secret) }

theorem revealedEconomy_reached (verifies : SignaturesVerify) {secret : Bytes} (named : commitmentTo secret ≠ "") :
    EconomyCall.Reached (revealedEconomy first second secret) := by
  have votes : (duoEconomy first second).manager.snapshot.byId.get? "v" =
      some (MembershipManager.admittedRecord (voterRequest first "v" "d")) := duoEconomy_votes rfl rfl
  have committed : (EconomyCall.submitCommitment (duoCommitment first "v" secret)).exec (duoEconomy first second) =
      committedEconomy first second secret :=
    final_of_ok (BeaconRoundCoordinator.submitCommitment_ok rfl votes rfl le_rfl named (verifies first.privateKey _) rfl)
  have revealed : (EconomyCall.submitReveal (duoReveal first "v" secret)).exec (committedEconomy first second secret) =
      revealedEconomy first second secret :=
    final_of_ok (BeaconRoundCoordinator.submitReveal_ok rfl votes (Dict.get?_set_self _ _ _) rfl
      (verifies first.privateKey _) rfl rfl)
  refine ⟨plainLedger, { genesisSeed := [] }, {}, false, ?_⟩
  rw [← revealed, ← committed]
  exact (duoEconomy_run verifies).tail trivial |>.tail trivial

/-- A validator that waits sees the secrets of the others before it commits. -/
theorem commit_after_reveal (first second : KeyPair) (verifies : SignaturesVerify) {secret late : Bytes}
    (named : commitmentTo secret ≠ "") (named' : commitmentTo late ≠ "") :
    ∃ s reveal item t, EconomyCall.Reached s ∧ s.rounds.reveals.get? reveal.key = some reveal ∧ reveal.secret = secret ∧
      item.epoch = reveal.epoch ∧ item.round = reveal.round ∧ item.commitment = commitmentTo late ∧
      s.rounds.commitments.get? item.key = none ∧ BeaconRoundCoordinator.submitCommitment item s = .ok ⟨⟩ t := by
  have votes : (revealedEconomy first second secret).manager.snapshot.byId.get? "w" =
      some (MembershipManager.admittedRecord (voterRequest second "w" "e")) := duoEconomy_votes rfl rfl
  have accepted : BeaconRoundCoordinator.submitCommitment (duoCommitment second "w" late) (revealedEconomy first second secret) =
      .ok ⟨⟩ _ :=
    BeaconRoundCoordinator.submitCommitment_ok rfl votes rfl le_rfl named' (verifies second.privateKey _) rfl
  exact ⟨_, duoReveal first "v" secret, _, _, revealedEconomy_reached verifies named, Dict.get?_set_self _ _ _, rfl,
    rfl, rfl, rfl, rfl, accepted⟩

theorem revealedEconomy_committed (secret : Bytes) :
    (revealedEconomy first second secret).rounds.commitments.get? (0, 0, "v") = some (duoCommitment first "v" secret) :=
  Dict.get?_set_self _ _ _

omit [Crypto] in
theorem ideal_commitmentTo_named (byte : UInt8) : @commitmentTo Crypto.ideal [byte] ≠ "" := by
  intro empty
  have chars := String.ofList_injective (empty.trans String.ofList_nil.symm)
  simp at chars

/-- Some other key of the ideal instance. -/
def otherKey : @KeyPair Crypto.ideal := @KeyPair.mk Crypto.ideal [2]

omit [Crypto] in
theorem late_commitment : let _ := Crypto.ideal
    ∃ s reveal item t, EconomyCall.Reached s ∧ s.rounds.reveals.get? reveal.key = some reveal ∧ reveal.secret = [1] ∧
      item.epoch = reveal.epoch ∧ item.round = reveal.round ∧ item.commitment = commitmentTo [2] ∧
      s.rounds.commitments.get? item.key = none ∧ BeaconRoundCoordinator.submitCommitment item s = .ok ⟨⟩ t :=
  @commit_after_reveal Crypto.ideal idealKey otherKey ideal_signaturesVerify [1] [2] (ideal_commitmentTo_named 1)
    (ideal_commitmentTo_named 2)

omit [Crypto] in
theorem committed_before_revealed_duo : let _ := Crypto.ideal
    EconomyCall.Stands (revealedEconomy idealKey otherKey [1]) (0, 0, "v") (duoCommitment idealKey "v" [1]) :=
  (@committed_before_revealed Crypto.ideal _ ideal_collisionFree (@revealedEconomy_reached Crypto.ideal idealKey otherKey
    ideal_signaturesVerify [1] (ideal_commitmentTo_named 1))).2.2 _ _
      (@revealedEconomy_committed Crypto.ideal idealKey otherKey [1])

end Duo

end Mosaic
