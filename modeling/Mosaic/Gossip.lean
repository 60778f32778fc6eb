import Mosaic.ControlPlane
import Mosaic.LedgerRoot
import Mosaic.Lib.Deliveries

namespace Mosaic
open CanonicalJson Effects Economy MembershipManager

/-- Membership and ledger stay as they are, and so does whether rows can be written. -/
structure Economy.Idle (s t : Economy) : Prop where
  manager : t.manager = s.manager
  ledger : t.ledger = s.ledger
  durable : t.Durable ↔ s.Durable

instance : Std.Refl Economy.Idle := ⟨fun _ => ⟨rfl, rfl, Iff.rfl⟩⟩

instance : IsTrans Economy Economy.Idle where
  trans _ _ _ first second := ⟨second.manager.trans first.manager, second.ledger.trans first.ledger,
    second.durable.trans first.durable⟩

/-- The rows of the ledger and of admissions stay as well. -/
structure Economy.Rests (s t : Economy) : Prop extends s.Idle t where
  rows : ∀ kind objectKey, kind = "settlement_state" ∨ kind = "onboarding" →
    t.store.rows.get? (kind, objectKey) = s.store.rows.get? (kind, objectKey)

instance : Std.Refl Economy.Rests := ⟨fun _ => ⟨Std.Refl.refl _, fun _ _ _ => rfl⟩⟩

instance : IsTrans Economy Economy.Rests where
  trans _ _ _ first second := ⟨IsTrans.trans _ _ _ first.toIdle second.toIdle,
    fun kind objectKey kept => (second.rows kind objectKey kept).trans (first.rows kind objectKey kept)⟩

namespace Economy

variable {s t u : Economy} {request : AdmissionRequest} {bond : StakeBond}

theorem Idle.symm (idle : s.Idle t) : t.Idle s := ⟨idle.manager.symm, idle.ledger.symm, idle.durable.symm⟩

theorem Rests.symm (rests : s.Rests t) : t.Rests s :=
  ⟨rests.toIdle.symm, fun kind objectKey kept => (rests.rows kind objectKey kept).symm⟩

theorem Idle.alike (idle : s.Idle t) : s.Alike t := by
  refine ⟨?_, ?_, idle.durable.symm⟩
  · rw [idle.ledger]
    exact .rfl
  · rw [idle.manager]
    exact .rfl

variable [Crypto]

/-- The bonds that were locked in this epoch are still there. -/
def Calm (s : Economy) : Prop :=
  ∀ bond : StakeBond, s.ledger.Recorded (s.ledger.bondEvent bond s.manager.epoch) →
    s.ledger.bonds.get? bond.bondId ≠ none

theorem Calm.of_idle (calm : s.Calm) (idle : s.Idle t) : t.Calm := by
  unfold Calm
  rw [idle.manager, idle.ledger]
  exact calm

theorem Calm.new (calm : s.Calm) (bondable : s.ledger.Bondable bond s.manager.epoch) :
    ¬ s.ledger.Recorded (s.ledger.bondEvent bond s.manager.epoch) :=
  fun recorded => calm bond recorded bondable.new

/-- An admission locks a bond that was not there. -/
theorem Calm.admitted (free : CollisionFree) (calm : s.Calm) (admitted : Admitted s request bond t) : t.Calm := by
  intro other recorded
  have epoch : t.manager.epoch = s.manager.epoch := by
    rw [admitted.manager]
    rfl
  have config : t.ledger.toLedgerConfig = s.ledger.toLedgerConfig := by
    rw [admitted.ledger]
    exact locked_config s bond
  have event : t.ledger.bondEvent other t.manager.epoch = s.ledger.bondEvent other s.manager.epoch := by
    unfold SettlementLedger.bondEvent
    rw [config, epoch]
  rw [event] at recorded
  rw [admitted.ledger] at recorded ⊢
  unfold Economy.locked at recorded ⊢
  by_cases settlement : s.manager.settlement = true
  · rw [if_pos settlement] at recorded ⊢
    change (s.ledger.bonds.set bond.bondId _).get? other.bondId ≠ none
    rw [Dict.get?_set]
    by_cases named : bond.bondId = other.bondId
    · rw [if_pos named]
      exact Option.some_ne_none _
    · rw [if_neg named]
      rcases (SettlementLedger.recorded_addEvent _ _ _).mp recorded with same | before
      · exact absurd (SettlementLedger.eventFor_inj free same).2.2.2.2 named
      · exact calm other before
  · rw [if_neg settlement] at recorded ⊢
    exact calm other recorded

end Economy

section Admission
variable [Crypto] {s s' t t' u : Economy} {request : AdmissionRequest} {bond : StakeBond}

/-- An admission returns, or it leaves everything as it was. -/
theorem AdmissionCoordinator.admit_returns_or_keeps (calm : s.Calm) (durable : s.Durable) (request : AdmissionRequest)
    (bond : StakeBond) (approverIds : List String) :
    (∃ certificate t, admitValidator request bond approverIds s = .ok certificate t) ∨
      ∃ e, admitValidator request bond approverIds s = .error e s := by
  cases admit_onboards s request bond approverIds with
  | refused _ run => exact Or.inr ⟨_, run⟩
  | returned _ _ _ _ _ run => exact Or.inl ⟨_, _, run⟩
  | @unrecorded _ _ u v _ ran volatile _ _ _ =>
    cases admit_finishes s request approverIds (some bond) with
    | refused _ run | unpaid _ _ _ run | late _ _ _ run => cases run.symm.trans ran
    | returned _ _ _ run =>
      cases run.symm.trans ran
      exact absurd ⟨durable.bound, durable.ledger, durable.admission⟩ volatile
  | @rejected _ _ u _ ran raised =>
    cases admit_finishes s request approverIds (some bond) with
    | refused _ run =>
      cases run.symm.trans ran
      exact Or.inr ⟨_, raised⟩
    | late _ _ late _ => exact absurd late id
    | returned _ _ _ run => cases run.symm.trans ran
    | @unpaid call _ _ l _ made ledger run =>
      cases run.symm.trans ran
      have kept : l = s.ledger := by
        unfold admissionCall at made
        split at made
        · cases made
          cases SettlementLedger.bond_concludes s.ledger bond s.manager.epoch with
          | refused _ run =>
            cases (single_error run).symm.trans ledger
            rfl
          | stopped able old _ => exact absurd old (calm.new able)
          | returned _ _ run => cases (single_ok run).symm.trans ledger
        · cases made
      rw [kept] at raised
      exact Or.inr ⟨_, raised⟩

/-- An admission has one outcome. -/
theorem Admits.unique {pair : AdmissionRequest × StakeBond × List String} (admits : Admits pair s t)
    (admits' : Admits pair s t') : t = t' := by
  obtain ⟨certificate, ran⟩ := admits
  obtain ⟨certificate', ran'⟩ := admits'
  cases ran.symm.trans ran'
  rfl

/-- Coordinators that have the same membership and ledger have them after the same admission. -/
theorem Admits.idle {pair : AdmissionRequest × StakeBond × List String} (idle : s.Idle s') (admits : Admits pair s t) :
    ∃ t', Admits pair s' t' ∧ t.Idle t' := by
  obtain ⟨request, bond, approverIds⟩ := pair
  obtain ⟨t', admits', -⟩ := admits.congr idle.alike
  obtain ⟨-, -, admitted⟩ := admits.admitted
  obtain ⟨-, -, admitted'⟩ := admits'.admitted
  refine ⟨t', admits', ?_, ?_, iff_of_true admitted'.durable admitted.durable⟩
  · rw [admitted.manager, admitted'.manager, idle.manager]
  · rw [admitted.ledger, admitted'.ledger]
    unfold Economy.locked
    rw [idle.manager, idle.ledger]

/-- What an admission writes. -/
theorem Admits.rows {approverIds : List String} (admits : Admits (request, bond, approverIds) s t) :
    t.store.rows = (s.store.rows.set ("settlement_state", "ledger") (.settlementState t.ledger t.ledger.stateRoot)).set
      ("onboarding", (s.manager.admissionCertificate request approverIds).certificateId)
      (.onboarding request bond (s.manager.admissionCertificate request approverIds) t.ledger.stateRoot
        t.manager.snapshot.root) := by
  obtain ⟨certificate, ran⟩ := admits
  obtain ⟨u, admitted, recorded⟩ := AdmissionCoordinator.admit_ok ran
  obtain ⟨-, -, store, named⟩ := MembershipManager.admit_ok admitted
  obtain ⟨manager, ledger, -, written⟩ := AdmissionCoordinator.record_ok recorded
  rw [written, store, named, manager, ledger]

theorem Admits.rests {pair : AdmissionRequest × StakeBond × List String} (rests : s.Rests s')
    (admits : Admits pair s t) :
    ∃ t', Admits pair s' t' ∧ t.Rests t' := by
  obtain ⟨t', admits', idle⟩ := admits.idle rests.toIdle
  refine ⟨t', admits', idle, fun kind objectKey kept => ?_⟩
  obtain ⟨request, bond, approverIds⟩ := pair
  rw [admits.rows, admits'.rows, idle.ledger, idle.manager, rests.manager]
  simp only [Dict.get?_set, rests.rows kind objectKey kept]

end Admission

namespace BeaconRoundCoordinator

variable {s : Economy}

theorem putRow_rests {kind objectKey : String} {payload : EconomyRow}
    (other : kind ≠ "settlement_state" ∧ kind ≠ "onboarding") :
    Guarantees Economy.Rests s (putRow kind objectKey payload) (fun _ _ => True) := by
  refine .get_bind ?_
  split
  · cases refusal : s.store.refusal kind with
    | none =>
      refine .of_ok (onPart_of_ok (AdmissionCoordinator.put_takes refusal)) ⟨⟨rfl, rfl, ?_⟩, ?_⟩ trivial
      · exact ⟨fun durable => ⟨durable.bound, durable.ledger, durable.admission⟩,
          fun durable => ⟨durable.bound, durable.ledger, durable.admission⟩⟩
      · intro kind' objectKey' kept
        have apart : (kind, objectKey) ≠ (kind', objectKey') := by
          intro same
          cases same
          exact kept.elim other.1 other.2
        exact Dict.get?_set_of_ne _ _ apart
    | some message =>
      exact .of_error (onPart_of_error (AdmissionCoordinator.put_refuses refusal)) (Std.Refl.refl s)
  · exact .pure trivial

theorem setRounds_rests (rounds : BeaconRounds) (s : Economy) : s.Rests (s.setRounds rounds) := by
  refine ⟨⟨rfl, rfl, ?_⟩, fun _ _ _ => rfl⟩
  exact ⟨fun durable => ⟨durable.bound, durable.ledger, durable.admission⟩,
    fun durable => ⟨durable.bound, durable.ledger, durable.admission⟩⟩

variable [Crypto]

theorem submitCommitment_rests (item : RandomnessCommitment) :
    Guarantees Economy.Rests s (submitCommitment item) (fun _ _ => True) := by
  refine .get_bind ?_
  dsimp only
  split
  · exact .throw _
  · exact .raiseIf_bind fun _ => .raiseIf_bind fun _ => .raiseIf_bind fun _ => .raiseIf_bind fun _ =>
      Guarantees.bind (Q := fun _ _ => True) (.update (setRounds_rests _ _) trivial) fun _ _ _ _ =>
        putRow_rests (by decide)

theorem submitReveal_rests (item : RandomnessReveal) :
    Guarantees Economy.Rests s (submitReveal item) (fun _ _ => True) := by
  refine .get_bind ?_
  dsimp only
  split
  · exact .throw _
  · split
    · exact .throw _
    · exact .raiseIf_bind fun _ => .raiseIf_bind fun _ => .raiseIf_bind fun _ =>
        Guarantees.bind (Q := fun _ _ => True) (.update (setRounds_rests _ _) trivial) fun _ _ _ _ =>
        putRow_rests (by decide)

end BeaconRoundCoordinator

/-- The message is of this type. -/
def IsOf (kind : String) (message : Json) : Prop := ∃ k, message.get "type" .null = .ok k ∧ k.isText kind = true

/-- The message asks for this admission. -/
structure AsksFor (ints : IntReading) (message : Json) (request : AdmissionRequest) (bond : StakeBond) : Prop where
  kind : IsOf "ADMISSION" message
  request : field "request" (admissionFromWire ints) message = .ok request
  bond : field "bond" (bondFromWire ints) message = .ok bond

/-- The message comes from a peer. -/
def IsGossip (message : Json) : Prop := ∃ flag, message.get "gossip" .null = .ok flag ∧ flag.truthy = true

theorem IsOf.unique {kind kind' : String} {message : Json} (isOf : IsOf kind message) (isOf' : IsOf kind' message) :
    kind = kind' := by
  obtain ⟨k, read, text⟩ := isOf
  obtain ⟨k', read', text'⟩ := isOf'
  cases read.symm.trans read'
  exact Json.str.inj ((Json.isText_iff.mp text).symm.trans (Json.isText_iff.mp text'))

theorem AsksFor.unique {ints : IntReading} {message : Json} {request request' : AdmissionRequest}
    {bond bond' : StakeBond} (asks : AsksFor ints message request bond) (asks' : AsksFor ints message request' bond') :
    (request, bond) = (request', bond') := by
  cases asks.request.symm.trans asks'.request
  cases asks.bond.symm.trans asks'.bond
  rfl

namespace ControlNode

/-- Nothing about admissions has changed. -/
structure Same (n m : ControlNode) : Prop where
  economy : n.economy.Rests m.economy
  onboarding : m.onboarding = n.onboarding
  requests : m.onboardingRequests = n.onboardingRequests
  admissions : m.metrics.admissions = n.metrics.admissions
  told : ∀ request bond, .admission request bond ∈ m.told ↔ .admission request bond ∈ n.told

instance : Std.Refl Same := ⟨fun _ => ⟨Std.Refl.refl _, rfl, rfl, rfl, fun _ _ => Iff.rfl⟩⟩

instance : IsTrans ControlNode Same where
  trans _ _ _ first second := ⟨IsTrans.trans _ _ _ first.economy second.economy,
    second.onboarding.trans first.onboarding, second.requests.trans first.requests,
    second.admissions.trans first.admissions,
    fun request bond => (second.told request bond).trans (first.told request bond)⟩

variable {ints : IntReading} {message : Json} {n m : ControlNode}

theorem count_same {f : ControlMetrics → ControlMetrics}
    (others : ∀ metrics, (f metrics).admissions = metrics.admissions) (n : ControlNode) : n.Same (n.count f) :=
  ⟨Std.Refl.refl _, rfl, rfl, others n.metrics, fun _ _ => Iff.rfl⟩

theorem tell_same {gossip : Gossip} (other : ∀ request bond, gossip ≠ .admission request bond) (n : ControlNode) :
    n.Same (n.tell gossip) := by
  refine ⟨Std.Refl.refl _, rfl, rfl, rfl, fun request bond => ?_⟩
  constructor
  · intro told
    rcases List.mem_append.mp told with before | new
    · exact before
    · exact absurd (List.mem_singleton.mp new).symm (other request bond)
  · intro told
    exact List.mem_append_left _ told

theorem reading_same {α : Type} (x : Except ReadError α) :
    Guarantees Same n (reading x) (fun a m => m = n ∧ x = .ok a) := by
  cases x with
  | error e => exact .of_error rfl (Std.Refl.refl n)
  | ok a => exact .of_ok rfl (Std.Refl.refl n) ⟨rfl, rfl⟩

theorem onEconomy_same {α : Type} {x : PyEconomy α} (idle : Guarantees Economy.Rests n.economy x fun _ _ => True) :
    Guarantees Same n (onEconomy x) fun _ _ => True := by
  cases run : x n.economy with
  | ok a economy =>
    have ran : onEconomy x n = .ok a (n.setEconomy economy) := by simp only [onEconomy, run]
    exact .of_ok ran ⟨idle.step run, rfl, rfl, rfl, fun _ _ => Iff.rfl⟩ trivial
  | error e economy =>
    have raised : onEconomy x n = .error (.raised e) (n.setEconomy economy) := by simp only [onEconomy, run]
    exact .of_error raised ⟨idle.step_error run, rfl, rfl, rfl, fun _ _ => Iff.rfl⟩

theorem broadcastUnless_same {gossip : Gossip} (other : ∀ request bond, gossip ≠ .admission request bond) :
    Guarantees Same n (broadcastUnless message gossip) fun _ _ => True := by
  refine (reading_same _).bind fun flag m _ _ => ?_
  split
  · exact .pure trivial
  · exact .update (tell_same other m) trivial

theorem answering_final (x : Control ControlReply) (n : ControlNode) : (final x n).Same (final (answering x) n) := by
  cases run : x n with
  | ok reply m =>
    have ran : answering x n = .ok reply m := by simp only [answering, run]
    rw [final_of_ok run, final_of_ok ran]
    exact Std.Refl.refl m
  | error fault m =>
    by_cases caught : fault.caught = true
    · have ran : answering x n = .ok (.rejected fault) (m.count fun metrics =>
          { metrics with protocolRejections := metrics.protocolRejections + 1 }) := by
        simp only [answering, run, caught, if_true]
      rw [final_of_error run, final_of_ok ran]
      exact count_same (by intro _; rfl) m
    · have raised : answering x n = .error fault m := by simp only [answering, run, caught]; rfl
      rw [final_of_error run, final_of_error raised]
      exact Std.Refl.refl m

theorem answering_same {x : Control ControlReply} (same : Guarantees Same n x fun _ _ => True) :
    Guarantees Same n (answering x) fun _ _ => True :=
  ⟨IsTrans.trans _ _ _ same.moves (answering_final x n), fun _ _ _ => trivial⟩

variable [Crypto]

theorem beaconCommit_same : Guarantees Same n (beaconCommit ints message) fun _ _ => True := by
  refine .get_bind ?_
  split
  · exact .pure trivial
  · refine answering_same ((reading_same _).bind fun commitment m _ _ => ?_)
    refine (onEconomy_same (BeaconRoundCoordinator.submitCommitment_rests commitment)).bind fun _ m _ _ => ?_
    refine Guarantees.bind (Q := fun _ _ => True) (.update (count_same (by intro _; rfl) m) trivial) fun _ m _ _ => ?_
    exact (broadcastUnless_same (by simp)).bind fun _ _ _ _ => .pure trivial

theorem beaconReveal_same : Guarantees Same n (beaconReveal ints message) fun _ _ => True := by
  refine .get_bind ?_
  split
  · exact .pure trivial
  · refine answering_same ((reading_same _).bind fun reveal m _ _ => ?_)
    refine (onEconomy_same (BeaconRoundCoordinator.submitReveal_rests reveal)).bind fun _ m _ _ => ?_
    refine Guarantees.bind (Q := fun _ _ => True) (.update (count_same (by intro _; rfl) m) trivial) fun _ m _ _ => ?_
    exact (broadcastUnless_same (by simp)).bind fun _ _ _ _ => .pure trivial

/-- A node that can admit. -/
structure Able (n : ControlNode) : Prop where
  enabled : n.onboarding = true
  calm : n.economy.Calm
  durable : n.economy.Durable

theorem Able.same (able : n.Able) (same : n.Same m) : m.Able :=
  ⟨same.onboarding.trans able.enabled, able.calm.of_idle same.economy.toIdle, same.economy.durable.mpr able.durable⟩

theorem Able.admitted (free : CollisionFree) (able : n.Able) {request : AdmissionRequest} {bond : StakeBond}
    {t : Economy} (admits : Admits (request, bond, []) n.economy t) (economy : t.Rests m.economy)
    (onboarding : m.onboarding = n.onboarding) : m.Able := by
  obtain ⟨-, -, admitted⟩ := admits.admitted
  exact ⟨onboarding.trans able.enabled, (able.calm.admitted free admitted).of_idle economy.toIdle,
    economy.durable.mpr admitted.durable⟩

/-- How a node stands after a message: it has admitted what the message asks for, or nothing
about admissions has changed. -/
inductive Handled (ints : IntReading) (message : Json) (n m : ControlNode) : Prop
  | kept (same : n.Same m) (declined : ∀ request bond, AsksFor ints message request bond →
      requestKey request ∈ n.onboardingRequests ∨ ∀ t, ¬ Admits (request, bond, []) n.economy t)
  | admitted {request : AdmissionRequest} {bond : StakeBond} {t : Economy} (asks : AsksFor ints message request bond)
      (new : requestKey request ∉ n.onboardingRequests) (admits : Admits (request, bond, []) n.economy t)
      (economy : t.Rests m.economy) (onboarding : m.onboarding = n.onboarding)
      (requests : m.onboardingRequests = insert (requestKey request) n.onboardingRequests)
      (counted : m.metrics.admissions = n.metrics.admissions + 1)
      (told : ∀ request' bond', .admission request' bond' ∈ m.told ↔
        .admission request' bond' ∈ n.told ∨ ¬ IsGossip message ∧ (request', bond') = (request, bond))

theorem Handled.same {u : ControlNode} (handled : Handled ints message n m) (same : m.Same u) :
    Handled ints message n u := by
  cases handled with
  | kept before declined => exact .kept (IsTrans.trans _ _ _ before same) declined
  | admitted asks new admits economy onboarding requests counted told =>
    exact .admitted asks new admits (IsTrans.trans _ _ _ economy same.economy) (same.onboarding.trans onboarding)
      (same.requests.trans requests) (same.admissions.trans counted)
      fun request bond => (same.told request bond).trans (told request bond)

omit [Crypto] in
theorem reading_of_ok {α : Type} {x : Except ReadError α} {a : α} (read : x = .ok a) (n : ControlNode) :
    reading x n = .ok a n := by
  subst read
  rfl

omit [Crypto] in
theorem reading_of_error {α : Type} {x : Except ReadError α} {e : ReadError} (raised : x = .error e) (n : ControlNode) :
    reading x n = .error (.read e) n := by
  subst raised
  rfl

omit [Crypto] in
/-- Peers are told unless they told it themselves. -/
theorem broadcastUnless_tells (request : AdmissionRequest) (bond : StakeBond)
    (asks : AsksFor ints message request bond) :
    ∃ u, broadcastUnless message (.admission request bond) n = .ok ⟨⟩ u ∧ u.economy = n.economy ∧
      u.onboarding = n.onboarding ∧ u.onboardingRequests = n.onboardingRequests ∧ u.metrics = n.metrics ∧
      ∀ request' bond', .admission request' bond' ∈ u.told ↔
        .admission request' bond' ∈ n.told ∨ ¬ IsGossip message ∧ (request', bond') = (request, bond) := by
  obtain ⟨k, typed, -⟩ := asks.kind
  obtain ⟨flag, read⟩ : ∃ flag, message.get "gossip" .null = .ok flag := by
    cases message with
    | obj fields => exact ⟨_, rfl⟩
    | null | bool _ | int _ | float _ | str _ | list _ => cases typed
  have start : broadcastUnless message (.admission request bond) n =
      (if flag.truthy then pure ⟨⟩ else modify (tell (.admission request bond)) : Control PUnit) n :=
    bind_of_ok (reading_of_ok read n)
  by_cases truthy : flag.truthy = true
  · rw [if_pos truthy] at start
    refine ⟨n, start, rfl, rfl, rfl, rfl, fun request' bond' => ?_⟩
    have gossip : IsGossip message := ⟨flag, read, truthy⟩
    constructor
    · exact Or.inl
    · rintro (before | ⟨fresh, -⟩)
      · exact before
      · exact absurd gossip fresh
  · rw [if_neg truthy] at start
    refine ⟨n.tell (.admission request bond), start, rfl, rfl, rfl, rfl, fun request' bond' => ?_⟩
    have fresh : ¬ IsGossip message := by
      rintro ⟨flag', read', truthy'⟩
      cases read.symm.trans read'
      exact truthy truthy'
    change _ ∈ n.told ++ [_] ↔ _
    rw [List.mem_append, List.mem_singleton, Gossip.admission.injEq, Prod.mk.injEq]
    exact or_congr_right (iff_and_self.mpr fun _ => fresh)

theorem admitApplicant_handled (able : n.Able) (kind : IsOf "ADMISSION" message) :
    Handled ints message n (final (admitApplicant ints message) n) := by
  unfold admitApplicant
  have open' : ¬ n.onboarding = false := by
    rw [able.enabled]
    decide
  change Handled ints message n (final (ite _ _ _ : Control ControlReply) n)
  rw [if_neg open']
  refine Handled.same ?_ (answering_final _ n)
  cases asked : field "request" (admissionFromWire ints) message with
  | error e =>
    rw [final_bind_of_error (reading_of_error rfl n)]
    refine .kept (Std.Refl.refl n) fun request bond asks => ?_
    cases asked.symm.trans asks.request
  | ok request =>
    rw [final_bind_of_ok (reading_of_ok rfl n)]
    cases backed : field "bond" (bondFromWire ints) message with
    | error e =>
      rw [final_bind_of_error (reading_of_error rfl n)]
      refine .kept (Std.Refl.refl n) fun request bond asks => ?_
      cases backed.symm.trans asks.bond
    | ok bond =>
      rw [final_bind_of_ok (reading_of_ok rfl n)]
      have asks : AsksFor ints message request bond := ⟨kind, asked, backed⟩
      by_cases known : requestKey request ∈ n.onboardingRequests
      · rw [if_pos known]
        refine .kept (Std.Refl.refl n) fun request' bond' asks' => Or.inl ?_
        cases asks.unique asks'
        exact known
      rw [if_neg known]
      rcases AdmissionCoordinator.admit_returns_or_keeps able.calm able.durable request bond [] with
        ⟨certificate, t, ran⟩ | ⟨e, raised⟩
      · have called : onEconomy (AdmissionCoordinator.admitValidator request bond []) n =
            .ok certificate (n.setEconomy t) := by simp only [onEconomy, ran]
        rw [final_bind_of_ok called, final_bind_of_ok (modify_apply _ _), final_bind_of_ok (modify_apply _ _)]
        obtain ⟨u, told, economy, onboarding, requests, metrics, heard⟩ := broadcastUnless_tells request bond asks
          (n := ((n.setEconomy t).addRequest (requestKey request)).count fun metrics =>
            { metrics with admissions := metrics.admissions + 1 })
        rw [final_bind_of_ok told]
        have counted := congrArg ControlMetrics.admissions metrics
        refine .admitted asks known ⟨certificate, ran⟩ ?_ onboarding requests counted heard
        have same : t = u.economy := economy.symm
        rw [same]
        exact Std.Refl.refl u.economy
      · have called : onEconomy (AdmissionCoordinator.admitValidator request bond []) n =
            .error (.raised e) (n.setEconomy n.economy) := by simp only [onEconomy, raised]
        rw [final_bind_of_error called]
        refine .kept (Std.Refl.refl n) fun request' bond' asks' => Or.inr fun t admits => ?_
        cases asks.unique asks'
        obtain ⟨certificate, ran⟩ := admits
        cases raised.symm.trans ran

omit [Crypto] in
theorem final_some {α : Type} (x : Control α) (n : ControlNode) : final (some <$> x) n = final x n := by
  cases run : x n with
  | ok a m =>
    have ran : (some <$> x) n = .ok (some a) m := by simp only [Functor.map, EStateM.map, run]
    rw [final_of_ok run, final_of_ok ran]
  | error e m =>
    have raised : (some <$> x) n = .error e m := by simp only [Functor.map, EStateM.map, run]
    rw [final_of_error run, final_of_error raised]

variable (ints) in
/-- A message that closes no round of the beacon. -/
theorem handle_handled (able : n.Able) (running : ¬ IsOf "BEACON_FINALIZE" message) :
    Handled ints message n (n.handle ints message) := by
  have idle : ∀ m, n.Same m → ¬ IsOf "ADMISSION" message → Handled ints message n m := by
    intro m same other
    exact .kept same fun request bond asks => absurd asks.kind other
  unfold ControlNode.handle dispatch
  cases typed : message.get "type" .null with
  | error e =>
    rw [final_bind_of_error (reading_of_error rfl n)]
    refine idle n (Std.Refl.refl n) ?_
    rintro ⟨k, read, -⟩
    cases typed.symm.trans read
  | ok kind =>
    rw [final_bind_of_ok (reading_of_ok rfl n)]
    by_cases admission : kind.isText "ADMISSION" = true
    · rw [if_pos admission, final_some]
      exact admitApplicant_handled able ⟨kind, typed, admission⟩
    have other : ¬ IsOf "ADMISSION" message := by
      rintro ⟨k, read, text⟩
      cases typed.symm.trans read
      exact admission text
    refine idle _ ?_ other
    rw [if_neg admission]
    by_cases commit : kind.isText "BEACON_COMMIT" = true
    · rw [if_pos commit, final_some]
      exact beaconCommit_same.moves
    rw [if_neg commit]
    by_cases reveal : kind.isText "BEACON_REVEAL" = true
    · rw [if_pos reveal, final_some]
      exact beaconReveal_same.moves
    have closing : ¬ kind.isText "BEACON_FINALIZE" = true := fun text => running ⟨kind, typed, text⟩
    rw [if_neg reveal, if_neg closing]
    exact Std.Refl.refl n

/-- A node that has nothing against an admission makes it. -/
theorem handle_welcomed (able : n.Able) {request : AdmissionRequest} {bond : StakeBond}
    (asks : AsksFor ints message request bond) (new : requestKey request ∉ n.onboardingRequests)
    (welcomes : n.economy.Welcomes request bond) :
    ∃ t, Admits (request, bond, []) n.economy t ∧ t.Rests (n.handle ints message).economy ∧
      (n.handle ints message).onboarding = n.onboarding ∧
      (n.handle ints message).onboardingRequests = insert (requestKey request) n.onboardingRequests ∧
      (¬ IsGossip message → .admission request bond ∈ (n.handle ints message).told) := by
  have running : ¬ IsOf "BEACON_FINALIZE" message := by
    intro closing
    exact absurd (asks.kind.unique closing) (by decide)
  cases handle_handled ints able running with
  | kept _ declined =>
    rcases declined request bond asks with known | refused
    · exact absurd known new
    · obtain ⟨t, admits⟩ := welcomes.admits able.durable []
      exact absurd admits (refused t)
  | admitted asks' _ admits economy onboarding requests _ told =>
    cases asks.unique asks'
    exact ⟨_, admits, economy, onboarding, requests, fun fresh => (told _ _).mpr (Or.inr ⟨fresh, rfl⟩)⟩

/-- A request over the wire names no approvers. -/
def unapproved (pair : AdmissionRequest × StakeBond) : AdmissionRequest × StakeBond × List String :=
  (pair.1, pair.2, [])

omit [Crypto] in
theorem unapproved_injective : Function.Injective unapproved := by
  rintro ⟨request, bond⟩ ⟨request', bond'⟩ same
  unfold unapproved at same
  cases same
  rfl

/-- From `start` on the node has admitted these, one after the other. -/
structure Served (start n : ControlNode) (pairs : List (AdmissionRequest × StakeBond)) : Prop where
  able : n.Able
  counted : n.metrics.admissions = start.metrics.admissions + pairs.length
  distinct : (pairs.map fun pair => requestKey pair.1).Nodup
  requests : ∀ key, key ∈ n.onboardingRequests ↔ key ∈ pairs.map fun pair => requestKey pair.1
  took : ∃ u, Takes Admits (pairs.map unapproved) start.economy u ∧ u.Rests n.economy

/-- A node that can admit and has not yet. -/
structure Ready (n : ControlNode) : Prop where
  able : n.Able
  requests : n.onboardingRequests = ∅

variable {start : ControlNode} {pairs : List (AdmissionRequest × StakeBond)} {request : AdmissionRequest}
  {bond : StakeBond}

theorem Ready.served (ready : n.Ready) : Served n n [] := by
  refine ⟨ready.able, (Int.add_zero _).symm, List.nodup_nil, fun key => ?_, n.economy, .nil _, Std.Refl.refl _⟩
  rw [ready.requests]
  simp

theorem Served.known (served : Served start n pairs) (listed : (request, bond) ∈ pairs) :
    requestKey request ∈ n.onboardingRequests := by
  have key : requestKey request ∈ pairs.map fun pair => requestKey pair.1 :=
    List.mem_map.mpr ⟨(request, bond), listed, rfl⟩
  exact (served.requests (requestKey request)).mpr key

theorem Served.same (served : Served start n pairs) (same : n.Same m) : Served start m pairs := by
  obtain ⟨u, takes, rests⟩ := served.took
  exact ⟨served.able.same same, same.admissions.trans served.counted, served.distinct,
    fun key => by rw [same.requests]; exact served.requests key, u, takes, IsTrans.trans _ _ _ rests same.economy⟩

theorem Served.admitted (free : CollisionFree) (served : Served start n pairs) {t : Economy}
    (new : requestKey request ∉ n.onboardingRequests) (admits : Admits (request, bond, []) n.economy t)
    (economy : t.Rests m.economy) (onboarding : m.onboarding = n.onboarding)
    (requests : m.onboardingRequests = insert (requestKey request) n.onboardingRequests)
    (counted : m.metrics.admissions = n.metrics.admissions + 1) :
    Served start m (pairs ++ [(request, bond)]) := by
  have longer : m.metrics.admissions = start.metrics.admissions + (pairs ++ [(request, bond)]).length := by
    have before := served.counted
    rw [List.length_append, List.length_singleton]
    omega
  refine ⟨served.able.admitted free admits economy onboarding, longer, ?_, fun key => ?_, ?_⟩
  · rw [List.map_append, List.nodup_append_comm]
    exact List.nodup_cons.mpr ⟨fun listed => new ((served.requests _).mpr listed), served.distinct⟩
  · rw [requests, Finset.mem_insert, served.requests, List.map_append, List.mem_append, List.map_singleton,
      List.mem_singleton, or_comm]
  · obtain ⟨u, takes, rests⟩ := served.took
    obtain ⟨v, later, same⟩ := admits.rests rests.symm
    refine ⟨v, ?_, IsTrans.trans _ _ _ same.symm economy⟩
    rw [List.map_append]
    exact takes.concat later

variable (ints) in
/-- The node hears of admissions from those who want them, and again of those it has told. No
round of the beacon is closed. -/
def HearsApplicants : ControlNode → List Json → Prop
  | _, [] => True
  | n, message :: messages => ¬ IsOf "BEACON_FINALIZE" message ∧
    (IsGossip message → ∀ request bond, AsksFor ints message request bond → .admission request bond ∈ n.told) ∧
    HearsApplicants (n.handle ints message) messages

/-- Such a node tells its peers of all the admissions that it makes. -/
theorem Served.handleAll_tells (free : CollisionFree) (served : Served start n pairs)
    (told : ∀ request bond, .admission request bond ∈ n.told ↔ (request, bond) ∈ pairs) {messages : List Json}
    (hears : HearsApplicants ints n messages) :
    ∃ pairs', Served start (n.handleAll ints messages) pairs' ∧
      ∀ request bond, .admission request bond ∈ (n.handleAll ints messages).told ↔ (request, bond) ∈ pairs' := by
  induction messages generalizing n pairs with
  | nil => exact ⟨pairs, served, told⟩
  | cons message messages ih =>
    obtain ⟨running, own, later⟩ := hears
    cases handle_handled ints served.able running with
    | kept same _ =>
      exact ih (served.same same) (fun request bond => (same.told request bond).trans (told request bond)) later
    | @admitted request bond t asks new admits economy onboarding requests counted heard =>
      refine ih (served.admitted free new admits economy onboarding requests counted) (fun request' bond' => ?_) later
      have fresh : ¬ IsGossip message := by
        intro gossip
        have listed := (told request bond).mp (own gossip request bond asks)
        exact new (served.known listed)
      rw [heard, told, List.mem_append, List.mem_singleton]
      exact or_congr_right (and_iff_right fresh)

variable {leader g follower : ControlNode} {pairs' : List (AdmissionRequest × StakeBond)}

theorem Served.nodup (served : Served start n pairs) : pairs.Nodup := served.distinct.of_map _

/-- What the leader has admitted the follower admits as well, after anything else that the leader
has admitted. -/
theorem Served.admits_next (leads : Served leader g pairs') (starts : leader.economy.Idle follower.economy)
    (served : Served follower n pairs) (among : ∀ pair ∈ pairs, pair ∈ pairs') (listed : (request, bond) ∈ pairs')
    (new : (request, bond) ∉ pairs) : ∃ t, Admits (request, bond, []) n.economy t := by
  obtain ⟨w, whole, -⟩ := leads.took
  obtain ⟨u, takes, rests⟩ := served.took
  have all : ∀ pair ∈ pairs ++ [(request, bond)], pair ∈ pairs' := by
    intro pair member
    rcases List.mem_append.mp member with before | last
    · exact among pair before
    · rw [List.mem_singleton.mp last]
      exact listed
  have nodup : (pairs ++ [(request, bond)]).Nodup :=
    List.nodup_append_comm.mp (List.nodup_cons.mpr ⟨new, served.nodup⟩)
  have split : (pairs ++ [(request, bond)]).map unapproved = pairs.map unapproved ++ [unapproved (request, bond)] :=
    List.map_append
  have distinct : (pairs.map unapproved ++ [unapproved (request, bond)]).Nodup := by
    rw [← split]
    exact nodup.map unapproved_injective
  have within : ∀ triple ∈ pairs.map unapproved ++ [unapproved (request, bond)], triple ∈ pairs'.map unapproved := by
    intro triple member
    rw [← split] at member
    obtain ⟨pair, here, rfl⟩ := List.mem_map.mp member
    exact List.mem_map_of_mem (all pair here)
  obtain ⟨v, admits⟩ : ∃ v, Admits (unapproved (request, bond)) u v :=
    Takes.next (R := Economy.Alike) (fun _ _ _ _ alike admits => admits.congr alike)
      (fun _ _ _ _ _ first second => first.swap second) (fun _ _ _ _ admits admits' => admits.unique admits')
      starts.alike whole distinct within takes
  obtain ⟨t, admits', -⟩ := admits.rests rests
  exact ⟨t, admits'⟩

/-- A follower makes of a message what the leader has made of it. -/
theorem Served.handle_follows (free : CollisionFree) (leads : Served leader g pairs')
    (starts : leader.economy.Idle follower.economy) (served : Served follower n pairs)
    (among : ∀ pair ∈ pairs, pair ∈ pairs') (running : ¬ IsOf "BEACON_FINALIZE" message)
    (heard : ∀ request bond, AsksFor ints message request bond → (request, bond) ∈ pairs' ∧ IsGossip message) :
    ∃ after, Served follower (n.handle ints message) after ∧ (∀ pair ∈ pairs, pair ∈ after) ∧
      (∀ pair ∈ after, pair ∈ pairs') ∧ (∀ request bond, AsksFor ints message request bond → (request, bond) ∈ after) ∧
      ∀ request bond, .admission request bond ∈ (n.handle ints message).told ↔ .admission request bond ∈ n.told := by
  cases handle_handled ints served.able running with
  | kept same declined =>
    refine ⟨pairs, served.same same, fun _ => id, among, fun request bond asks => ?_, same.told⟩
    obtain ⟨listed, -⟩ := heard request bond asks
    rcases declined request bond asks with known | refused
    · obtain ⟨pair, member, key⟩ := List.mem_map.mp ((served.requests _).mp known)
      have here : pair = (request, bond) := List.inj_on_of_nodup_map leads.distinct (among pair member) listed key
      exact here ▸ member
    · by_contra new
      obtain ⟨t, admits⟩ := leads.admits_next starts served among listed new
      exact refused t admits
  | @admitted request bond t asks new admits economy onboarding requests counted told =>
    obtain ⟨listed, gossip⟩ := heard request bond asks
    refine ⟨pairs ++ [(request, bond)], served.admitted free new admits economy onboarding requests counted,
      fun pair member => List.mem_append_left _ member, fun pair member => ?_, fun request' bond' asks' => ?_,
      fun request' bond' => ?_⟩
    · rcases List.mem_append.mp member with before | last
      · exact among pair before
      · rw [List.mem_singleton.mp last]
        exact listed
    · rw [← asks.unique asks']
      exact List.mem_append_right _ (List.mem_singleton_self _)
    · rw [told]
      exact or_iff_left fun both => both.1 gossip

theorem Served.handleAll_follows (free : CollisionFree) (leads : Served leader g pairs')
    (starts : leader.economy.Idle follower.economy) (served : Served follower n pairs)
    (among : ∀ pair ∈ pairs, pair ∈ pairs') {messages : List Json}
    (heard : ∀ message ∈ messages, ¬ IsOf "BEACON_FINALIZE" message ∧
      ∀ request bond, AsksFor ints message request bond → (request, bond) ∈ pairs' ∧ IsGossip message) :
    ∃ after, Served follower (n.handleAll ints messages) after ∧ (∀ pair ∈ pairs, pair ∈ after) ∧
      (∀ pair ∈ after, pair ∈ pairs') ∧
      (∀ message ∈ messages, ∀ request bond, AsksFor ints message request bond → (request, bond) ∈ after) ∧
      ∀ request bond,
        .admission request bond ∈ (n.handleAll ints messages).told ↔ .admission request bond ∈ n.told := by
  induction messages generalizing n pairs with
  | nil => exact ⟨pairs, served, fun _ => id, among, by simp, fun _ _ => Iff.rfl⟩
  | cons message messages ih =>
    obtain ⟨⟨running, asks⟩, later⟩ := List.forall_mem_cons.mp heard
    obtain ⟨middle, served', kept, among', first, told⟩ := leads.handle_follows free starts served among running asks
    obtain ⟨after, served'', kept', among'', rest, told'⟩ := ih served' among' later
    refine ⟨after, served'', fun pair member => kept' pair (kept pair member), among'', ?_,
      fun request bond => (told' request bond).trans (told request bond)⟩
    exact List.forall_mem_cons.mpr ⟨fun request bond asked => kept' _ (first request bond asked), rest⟩

/-- The nodes answer alike about validators, bonds and balances, and take the same requests for
duplicates. -/
structure Agrees (n m : ControlNode) : Prop where
  membership : m.economy.manager.snapshot = n.economy.manager.snapshot
  bonds : ∀ v, m.economy.manager.validatorBonds.get? v = n.economy.manager.validatorBonds.get? v
  balances : ∀ account, m.economy.ledger.balanceOf account = n.economy.ledger.balanceOf account
  settlement : m.economy.ledger.stateRoot = n.economy.ledger.stateRoot
  onboarding : AdmissionCoordinator.onboardingRoot m.economy = AdmissionCoordinator.onboardingRoot n.economy
  requests : m.onboardingRequests = n.onboardingRequests

/-- What has been admitted decides, and not in which order. -/
theorem Served.agrees (keyed : leader.economy.manager.Keyed) (starts : leader.economy.Idle follower.economy)
    (leads : Served leader g pairs') (served : Served follower n pairs) (same : ∀ pair, pair ∈ pairs' ↔ pair ∈ pairs) :
    Agrees g n := by
  obtain ⟨u, takes, rests⟩ := leads.took
  obtain ⟨u', takes', rests'⟩ := served.took
  have order : pairs'.Perm pairs := (List.perm_ext_iff_of_nodup leads.nodup served.nodup).mpr same
  have alike : u.Alike u' := Takes.meet (R := Economy.Alike) (fun _ _ _ _ alike admits => admits.congr alike)
    (fun _ _ _ _ _ first second => first.swap second) (fun _ _ _ _ admits admits' => admits.unique admits')
    starts.alike (order.map unapproved) takes takes'
  have membership : u'.manager.snapshot = u.manager.snapshot := by
    obtain ⟨-, ⟨none, kept⟩ | ⟨some, current⟩⟩ := rebuilt_of_takes takes keyed
    · have nobody : pairs = [] := by
        rw [List.map_eq_nil_iff.mp none] at order
        exact List.nil_perm.mp order
      subst nobody
      cases takes'
      rw [kept, starts.manager]
    · have keyed' : follower.economy.manager.Keyed := starts.manager ▸ keyed
      obtain ⟨named, ⟨none, -⟩ | ⟨-, current'⟩⟩ := rebuilt_of_takes takes' keyed'
      · rw [List.map_eq_nil_iff.mp none] at order
        exact absurd (congrArg (List.map unapproved) (List.perm_nil.mp order)) some
      · rw [current, current', buildSnapshot_congr alike.manager.records alike.manager.epoch alike.manager.seed named]
  have settlement : u'.ledger.stateRoot = u.ledger.stateRoot := alike.ledger.stateRoot
  refine ⟨?_, ?_, ?_, ?_, ?_, ?_⟩
  · rw [rests.manager, rests'.manager, membership]
  · rw [rests.manager, rests'.manager]
    exact alike.manager.validatorBonds
  · rw [rests.ledger, rests'.ledger]
    exact alike.ledger.balanceOf
  · rw [rests.ledger, rests'.ledger, settlement]
  · unfold AdmissionCoordinator.onboardingRoot
    rw [rests.manager, rests'.manager, rests.ledger, rests'.ledger, membership, settlement]
  · have keys : ∀ key, (key ∈ pairs.map fun pair => requestKey pair.1) ↔
        key ∈ pairs'.map fun pair => requestKey pair.1 := fun key => (order.map _).symm.mem_iff
    exact Finset.ext fun key => (served.requests key).trans ((keys key).trans (leads.requests key).symm)

end ControlNode

/-- What a peer reads of what it was told. -/
def Carries (message : Json) (gossip : Gossip) : Prop := message.sortKeys = (gossipToWire gossip).sortKeys

def Gossip.kind : Gossip → String
  | .admission _ _ => "ADMISSION"
  | .beaconCommit _ => "BEACON_COMMIT"
  | .beaconReveal _ => "BEACON_REVEAL"

theorem isOf_of_sortKeys {message : Json} {fields : List (String × Json)} {kind : String}
    (same : message.sortKeys = (Json.obj fields).sortKeys) (there : fields.lookup "type" = some (.str kind)) :
    IsOf kind message := by
  obtain ⟨k, read, text⟩ := except_bind_eq_ok.mp (reads_text.get same "type" .null there)
  refine ⟨k, read, Json.isText_iff.mpr ?_⟩
  cases k with
  | str value => exact congrArg Json.str (Except.ok.inj text)
  | null | bool _ | int _ | float _ | list _ | obj _ => cases text

theorem Carries.isOf {message : Json} {gossip : Gossip} (carries : Carries message gossip) :
    IsOf gossip.kind message := by
  cases gossip with
  | admission _ _ => exact isOf_of_sortKeys carries rfl
  | beaconCommit _ => exact isOf_of_sortKeys carries rfl
  | beaconReveal _ => exact isOf_of_sortKeys carries rfl

theorem Carries.asksFor (ints : IntReading) {message : Json} {request : AdmissionRequest} {bond : StakeBond}
    (carries : Carries message (.admission request bond)) : AsksFor ints message request bond ∧ IsGossip message := by
  have flag := reads_truthy.get carries "gossip" .null (a := true) rfl
  obtain ⟨v, read, truthy⟩ := except_bind_eq_ok.mp flag
  exact ⟨⟨carries.isOf, (reads_admissionToWire ints).field carries "request" rfl,
    (reads_bondToWire ints).field carries "bond" rfl⟩, v, read, Except.ok.inj truthy⟩

theorem Carries.running {message : Json} {gossip : Gossip} (carries : Carries message gossip) :
    ¬ IsOf "BEACON_FINALIZE" message := by
  intro closing
  have same := carries.isOf.unique closing
  cases gossip <;> simp [Gossip.kind] at same

section Ready
variable [Crypto] {ints : IntReading} {request : AdmissionRequest} {bond : StakeBond} {pair : KeyPair}

omit [Crypto] in
/-- What an applicant sends. -/
def application (request : AdmissionRequest) (bond : StakeBond) : Json := .obj [
  ("type", .str "ADMISSION"), ("request", admissionToWire request), ("bond", bondToWire bond)]

omit [Crypto] in
theorem application_asksFor : AsksFor ints (application request bond) request bond :=
  ⟨isOf_of_sortKeys rfl rfl, (reads_admissionToWire ints).field rfl "request" rfl,
    (reads_bondToWire ints).field rfl "bond" rfl⟩

omit [Crypto] in
theorem application_fresh : ¬ IsGossip (application request bond) := by
  rintro ⟨flag, read, truthy⟩
  cases read
  cases truthy

def readyNode (pair : KeyPair) : ControlNode where
  economy := readyEconomy pair
  onboarding := true
  beacon := false
  onboardingRequests := ∅
  metrics := {}
  told := []

theorem readyNode_ready (free : CollisionFree) : (readyNode pair).Ready := by
  refine ⟨⟨rfl, fun bond recorded => ?_, ⟨rfl, rfl, rfl⟩⟩, rfl⟩
  exact absurd recorded (event_new free (by decide))

theorem readyNode_welcomes (free : CollisionFree) (verifies : SignaturesVerify) {unlockEpoch : Int}
    (later : 0 ≤ unlockEpoch) :
    (readyNode pair).economy.Welcomes (soloRequest pair) (.create pair "b" 10 "MOSAIC" 0 unlockEpoch) := by
  have verified : (StakeBond.create pair "b" 10 "MOSAIC" 0 unlockEpoch).verify = true :=
    StakeBond.create_verify verifies pair "b" "MOSAIC" (by decide) le_rfl later
  have requested := (@soloRequest_admissible _ pair verifies).verified
  have rich : (10 : Int) ≤ (readyNode pair).economy.ledger.balanceOf pair.identity := by
    have balance : (fundedLedger plainLedger pair.identity 10).balanceOf pair.identity = 10 := fundedLedger_balance
    exact balance.ge
  refine ⟨⟨requested, verified, rfl, rfl, rfl, rich⟩, ?_, fun _ => ⟨⟨verified, rfl, le_rfl, rfl, rich⟩, ?_⟩⟩
  · have able := @soloRequest_admissible _ pair verifies
    refine ⟨requested, able.stake, le_rfl, fun _ => Option.some_ne_none _, rfl, Finset.notMem_empty _, ?_⟩
    rintro _ ⟨⟩
    exact ⟨verified, rfl, rfl, rfl, le_rfl⟩
  · exact event_new free (by decide)

end Ready

section Cluster
open ControlNode
variable [Crypto] {ints : IntReading} {leader follower : ControlNode}

/-- One node hears of admissions from those who want them. Another one starts from the same
membership and ledger and hears of admissions only from the first, in any order and however
often, between messages of any other kind that close no round. When it has heard of all of
them it agrees with the first, has admitted each of them once, and has told nobody. -/
theorem gossip_converges (free : CollisionFree) (reached : EconomyCall.Reached leader.economy) (ready : leader.Ready)
    (ready' : follower.Ready) (manager : follower.economy.manager = leader.economy.manager)
    (ledger : follower.economy.ledger = leader.economy.ledger) (silent : leader.told = [])
    {requests deliveries : List Json}
    (hears : HearsApplicants ints leader requests)
    (carried : ∀ message ∈ deliveries, (∃ gossip ∈ (leader.handleAll ints requests).told, Carries message gossip) ∨
      ¬ IsOf "ADMISSION" message ∧ ¬ IsOf "BEACON_FINALIZE" message)
    (delivered : ∀ request bond, .admission request bond ∈ (leader.handleAll ints requests).told →
      ∃ message ∈ deliveries, Carries message (.admission request bond)) :
    (leader.handleAll ints requests).Agrees (follower.handleAll ints deliveries) ∧
      (follower.handleAll ints deliveries).metrics.admissions - follower.metrics.admissions =
        (leader.handleAll ints requests).metrics.admissions - leader.metrics.admissions ∧
      ∀ request bond, .admission request bond ∈ (follower.handleAll ints deliveries).told ↔
        .admission request bond ∈ follower.told := by
  have starts : leader.economy.Idle follower.economy :=
    ⟨manager, ledger, iff_of_true ready'.able.durable ready.able.durable⟩
  have none : ∀ request bond, Gossip.admission request bond ∈ leader.told ↔ (request, bond) ∈ [] := by
    simp [silent]
  obtain ⟨pairs, leads, told⟩ := ready.served.handleAll_tells free none hears
  have heard : ∀ message ∈ deliveries, ¬ IsOf "BEACON_FINALIZE" message ∧
      ∀ request bond, AsksFor ints message request bond → (request, bond) ∈ pairs ∧ IsGossip message := by
    intro message member
    rcases carried message member with ⟨gossip, said, carries⟩ | ⟨other, running⟩
    · refine ⟨carries.running, fun request bond asks => ?_⟩
      have kind := carries.isOf.unique asks.kind
      cases gossip with
      | beaconCommit _ | beaconReveal _ => simp [Gossip.kind] at kind
      | admission request' bond' =>
        obtain ⟨asks', gossip⟩ := carries.asksFor ints
        rw [asks.unique asks']
        exact ⟨(told _ _).mp said, gossip⟩
    · exact ⟨running, fun request bond asks => absurd asks.kind other⟩
  obtain ⟨pairs', served, -, among, all, told'⟩ := leads.handleAll_follows free starts ready'.served (by simp) heard
  have same : ∀ pair, pair ∈ pairs ↔ pair ∈ pairs' := by
    rintro ⟨request, bond⟩
    refine ⟨fun listed => ?_, among _⟩
    obtain ⟨message, member, carries⟩ := delivered request bond ((told _ _).mpr listed)
    exact all message member request bond (carries.asksFor ints).1
  refine ⟨leads.agrees (EconomyCall.Reached.keyed reached) starts served same, ?_, told'⟩
  have length : pairs.length = pairs'.length :=
    ((List.perm_ext_iff_of_nodup leads.nodup served.nodup).mpr same).length_eq
  have counted := leads.counted
  have counted' := served.counted
  omega

omit [Crypto] in
theorem gossip_converges_solo : let _ := Crypto.ideal
    let heard := (readyNode idealKey).handleAll plainInts [application (soloRequest idealKey) (soloBond idealKey)]
    let told := (heard.told ++ heard.told.reverse).map gossipToWire
    .admission (soloRequest idealKey) (soloBond idealKey) ∈ heard.told ∧
      heard.Agrees ((readyNode idealKey).handleAll plainInts told) := by
  -- the hash stays closed until the end, so that nothing is run
  have converges : ∀ [Crypto] (pair : KeyPair), CollisionFree → SignaturesVerify → pair.identity ≠ "" →
      let heard := (readyNode pair).handleAll plainInts [application (soloRequest pair) (soloBond pair)]
      .admission (soloRequest pair) (soloBond pair) ∈ heard.told ∧
        heard.Agrees ((readyNode pair).handleAll plainInts
          ((heard.told ++ heard.told.reverse).map gossipToWire)) := by
    intro _ pair free verifies named heard
    have ready := @readyNode_ready _ pair free
    have reached : EconomyCall.Reached (readyNode pair).economy :=
      ⟨_, _, _, _, @readyEconomy_run _ pair named (fun _ _ => True) (fun _ _ => trivial) fun _ => trivial⟩
    have carried : ∀ message ∈ (heard.told ++ heard.told.reverse).map gossipToWire,
        ∃ gossip ∈ heard.told, Carries message gossip := by
      intro message member
      obtain ⟨gossip, said, rfl⟩ := List.mem_map.mp member
      exact ⟨gossip, by simpa using said, rfl⟩
    have delivered : ∀ request bond, .admission request bond ∈ heard.told →
        ∃ message ∈ (heard.told ++ heard.told.reverse).map gossipToWire, Carries message (.admission request bond) := by
      intro request bond said
      exact ⟨_, List.mem_map_of_mem (List.mem_append_left _ said), rfl⟩
    have hears : ControlNode.HearsApplicants plainInts (readyNode pair)
        [application (soloRequest pair) (soloBond pair)] := by
      refine ⟨fun closing => ?_, fun gossip => absurd gossip application_fresh, trivial⟩
      exact absurd ((@application_asksFor plainInts _ _).kind.unique closing) (by decide)
    have new : ControlNode.requestKey (soloRequest pair) ∉ (readyNode pair).onboardingRequests :=
      Finset.notMem_empty _
    have welcomes : (readyNode pair).economy.Welcomes (soloRequest pair) (soloBond pair) :=
      @readyNode_welcomes _ pair free verifies 0 le_rfl
    obtain ⟨-, -, -, -, -, said⟩ := ControlNode.handle_welcomed ready.able
      (@application_asksFor plainInts (soloRequest pair) (soloBond pair)) new welcomes
    have agrees := gossip_converges free reached ready ready rfl rfl rfl hears
      (fun message member => Or.inl (carried message member)) delivered
    exact ⟨said application_fresh, agrees.1⟩
  intro _
  exact converges idealKey ideal_collisionFree ideal_signaturesVerify ideal_named

end Cluster

namespace ControlNode

variable [Crypto] {ints : IntReading} {message message' : Json} {n n' : ControlNode} {request : AdmissionRequest}
  {bond bond' : StakeBond}

/-- The bond is locked for the request. -/
structure Locked (request : AdmissionRequest) (bond : StakeBond) (n : ControlNode) : Prop where
  able : n.Able
  known : requestKey request ∈ n.onboardingRequests
  position : n.economy.ledger.bonds.get? bond.bondId = some (SettlementLedger.bondedPosition bond)

theorem Locked.handle (free : CollisionFree) (locked : n.Locked request bond)
    (running : ¬ IsOf "BEACON_FINALIZE" message) : (n.handle ints message).Locked request bond := by
  cases handle_handled ints locked.able running with
  | kept same _ =>
    refine ⟨locked.able.same same, ?_, ?_⟩
    · rw [same.requests]
      exact locked.known
    · rw [same.economy.ledger]
      exact locked.position
  | @admitted other otherBond t _ _ admits economy onboarding requests _ _ =>
    obtain ⟨welcomes, -, admitted⟩ := admits.admitted
    refine ⟨locked.able.admitted free admits economy onboarding, ?_, ?_⟩
    · rw [requests]
      exact Finset.mem_insert_of_mem locked.known
    · rw [economy.ledger, admitted.ledger]
      unfold Economy.locked
      split
      · rename_i settlement
        change (n.economy.ledger.bonds.set otherBond.bondId _).get? bond.bondId = _
        have new := (welcomes.bondable settlement).1.new
        have named : otherBond.bondId ≠ bond.bondId := by
          intro same
          rw [same, locked.position] at new
          cases new
        rw [Dict.get?_set, if_neg named]
        exact locked.position
      · exact locked.position

theorem Locked.handleAll (free : CollisionFree) (locked : n.Locked request bond) {messages : List Json}
    (running : ∀ message ∈ messages, ¬ IsOf "BEACON_FINALIZE" message) :
    (n.handleAll ints messages).Locked request bond := by
  induction messages generalizing n with
  | nil => exact locked
  | cons message messages ih =>
    obtain ⟨first, later⟩ := List.forall_mem_cons.mp running
    exact ih (locked.handle free first) later

/-- What an admission that is asked for and welcome leaves. -/
theorem locked_of_welcome (free : CollisionFree) (able : n.Able) (settlement : n.economy.manager.settlement = true)
    (asks : AsksFor ints message request bond) (new : requestKey request ∉ n.onboardingRequests)
    (welcomes : n.economy.Welcomes request bond) : (n.handle ints message).Locked request bond := by
  obtain ⟨t, admits, economy, onboarding, requests, -⟩ := handle_welcomed able asks new welcomes
  obtain ⟨-, -, admitted⟩ := admits.admitted
  refine ⟨able.admitted free admits economy onboarding, ?_, ?_⟩
  · rw [requests]
    exact Finset.mem_insert_self _ _
  · rw [economy.ledger, admitted.ledger]
    unfold Economy.locked
    rw [if_pos settlement]
    exact Dict.get?_set_self _ _ _

/-- Two nodes that are asked for one admission with bonds that unlock at different times have
different settlement roots from then on, whatever they are told: each takes the request that
the other one passes on for a duplicate. -/
theorem bonds_split (free : CollisionFree) (able : n.Able) (able' : n'.Able)
    (settlement : n.economy.manager.settlement = true) (settlement' : n'.economy.manager.settlement = true)
    (asks : AsksFor ints message request bond) (asks' : AsksFor ints message' request bond')
    (new : requestKey request ∉ n.onboardingRequests) (new' : requestKey request ∉ n'.onboardingRequests)
    (welcomes : n.economy.Welcomes request bond) (welcomes' : n'.economy.Welcomes request bond')
    (apart : bond.unlockEpoch ≠ bond'.unlockEpoch) {messages messages' : List Json}
    (running : ∀ later ∈ messages, ¬ IsOf "BEACON_FINALIZE" later)
    (running' : ∀ later ∈ messages', ¬ IsOf "BEACON_FINALIZE" later) :
    (n.handleAll ints (message :: messages)).economy.ledger.stateRoot ≠
        (n'.handleAll ints (message' :: messages')).economy.ledger.stateRoot ∧
      requestKey request ∈ (n.handleAll ints (message :: messages)).onboardingRequests ∧
      requestKey request ∈ (n'.handleAll ints (message' :: messages')).onboardingRequests := by
  have here : (n.handleAll ints (message :: messages)).Locked request bond :=
    (locked_of_welcome free able settlement asks new welcomes).handleAll free running
  have there : (n'.handleAll ints (message' :: messages')).Locked request bond' :=
    (locked_of_welcome free able' settlement' asks' new' welcomes').handleAll free running'
  refine ⟨fun same => ?_, here.known, there.known⟩
  have committed := SettlementLedger.committed_of_stateRoot free same
  obtain ⟨found, held, equal⟩ := committed.position there.position
  have named : bond.bondId = bond'.bondId :=
    Option.some.inj (welcomes.able.named.symm.trans welcomes'.able.named)
  rw [← named, here.position] at held
  cases held
  exact apart (congrArg BondPosition.unlockEpoch equal)

end ControlNode

theorem bonds_split_solo : let _ := Crypto.ideal
    ((readyNode idealKey).handleAll plainInts [
        application (soloRequest idealKey) (.create idealKey "b" 10 "MOSAIC" 0 0),
        application (soloRequest idealKey) (.create idealKey "b" 10 "MOSAIC" 0 1)]).economy.ledger.stateRoot ≠
      ((readyNode idealKey).handleAll plainInts [
        application (soloRequest idealKey) (.create idealKey "b" 10 "MOSAIC" 0 1),
        application (soloRequest idealKey) (.create idealKey "b" 10 "MOSAIC" 0 0)]).economy.ledger.stateRoot := by
  intro _
  have ready := @readyNode_ready _ idealKey ideal_collisionFree
  have running : ∀ bond, ∀ later ∈ [application (soloRequest idealKey) bond], ¬ IsOf "BEACON_FINALIZE" later := by
    intro bond later member closing
    obtain rfl := List.mem_singleton.mp member
    exact absurd ((@application_asksFor plainInts _ _).kind.unique closing) (by decide)
  have new : ControlNode.requestKey (soloRequest idealKey) ∉ (readyNode idealKey).onboardingRequests :=
    Finset.notMem_empty _
  have early := @readyNode_welcomes _ idealKey ideal_collisionFree ideal_signaturesVerify 0 le_rfl
  have late := @readyNode_welcomes _ idealKey ideal_collisionFree ideal_signaturesVerify 1 (by decide)
  have apart : (StakeBond.create idealKey "b" 10 "MOSAIC" 0 0).unlockEpoch ≠
      (StakeBond.create idealKey "b" 10 "MOSAIC" 0 1).unlockEpoch := by
    change (0 : Int) ≠ 1
    decide
  have settlement : (readyNode idealKey).economy.manager.settlement = true := rfl
  obtain ⟨differ, -⟩ := ControlNode.bonds_split ideal_collisionFree ready.able ready.able settlement settlement
    application_asksFor application_asksFor new new early late apart (running _) (running _)
  exact differ

end Mosaic
