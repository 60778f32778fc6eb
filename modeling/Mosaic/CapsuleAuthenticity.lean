import Mosaic.ClosureDelivery
import Mosaic.SealAuthenticity

namespace Mosaic
open CanonicalJson Effects MosaicProtocol

variable [Crypto]

/-- No entry is lost. -/
def MosaicNode.Retains (s t : MosaicNode) : Prop :=
  ∀ k capsule, s.protocol.capsules.get? k = some capsule → ∃ other, t.protocol.capsules.get? k = some other

namespace MosaicNode.Retains

variable {s t u : MosaicNode}

theorem of_capsules (same : t.protocol.capsules = s.protocol.capsules) : s.Retains t :=
  fun _ capsule stored => ⟨capsule, same ▸ stored⟩

theorem of_set {capsule : Capsule} (capsules : t.protocol.capsules = s.protocol.capsules.set capsule.capsuleId capsule) :
    s.Retains t := by
  intro k old stored
  rw [capsules, Dict.get?_set]
  by_cases here : capsule.capsuleId = k
  · exact ⟨capsule, if_pos here⟩
  · exact ⟨old, (if_neg here).trans stored⟩

theorem trans (first : s.Retains t) (second : t.Retains u) : s.Retains u := by
  intro k capsule stored
  obtain ⟨other, later⟩ := first k capsule stored
  exact second k other later

end MosaicNode.Retains

open MosaicNode

theorem NodeUpdate.retains {event : NodeEvent} {s t : MosaicNode} (update : NodeUpdate event s t) : s.Retains t := by
  cases update with
  | stored => exact .of_set rfl
  | arrived => exact .of_set rfl
  | witnessed seen kind change =>
    cases change with
    | claimed => exact .of_set rfl
    | contested | signed => exact .of_capsules rfl
    | released => exact absurd kind.2 (by decide)
    | _ => exact kind.elim
  | closed settles known held =>
    obtain ⟨closures, currents, knowns, same⟩ := settles.frame
    refine .of_capsules ?_
    rw [same]
    rfl
  | @stranded _ capsule closure strands =>
    obtain ⟨closures, same⟩ := s.protocol.withClosure_frame capsule closure
    refine .of_capsules ?_
    change (s.protocol.withClosure capsule closure).capsules = _
    rw [same]
  | _ => exact .of_capsules rfl

theorem NodeTrace.retains {P : NodeEvent → Prop} {s t : MosaicNode} (trace : NodeTrace P s t) : s.Retains t :=
  trace.invariant (I := s.Retains) (.of_capsules rfl) fun _ _ _ _ update before => before.trans update.retains

namespace MosaicProtocol

variable {p q : MosaicProtocol} {c d : Capsule} {closure : ClosureProof} {receipt : WitnessReceipt}

/-- Of the protocol object a receipt needs the members, the epoch and the statement
of the capsule. -/
theorem verifyReceipt_congr (verified : p.verifyReceipt receipt = true) (members : q.members = p.members)
    (epoch : q.epoch = p.epoch) (stored : p.capsules.get? receipt.capsuleId = some c)
    (stored' : q.capsules.get? receipt.capsuleId = some d) (alike : c.Alike d) : q.verifyReceipt receipt = true := by
  obtain ⟨member, found, known, here, predecessor, epoch', current, attempt, signature⟩ := verifyReceipt_iff.mp verified
  have same : found = c := Option.some.inj (here.symm.trans stored)
  subst same
  obtain ⟨signed, rfl⟩ := alike
  exact verifyReceipt_iff.mpr ⟨member, _, members ▸ known, stored', predecessor, epoch', current.trans epoch.symm,
    attempt, signature⟩

/-- Nor does a closure look at the signature of the capsule. -/
theorem Accepts.of_alike (accepted : p.Accepts d closure) (alike : c.Alike d) : p.Accepts c closure := by
  obtain ⟨signed, rfl⟩ := alike
  exact ⟨accepted.capsuleId, accepted.predecessor, accepted.epoch, accepted.attempt, accepted.signers, accepted.valid,
    accepted.heavy, accepted.proof⟩

end MosaicProtocol

omit [Crypto] in
theorem Capsule.Alike.statement {c d : Capsule} (alike : c.Alike d) : d.unsignedStatement = c.unsignedStatement := by
  obtain ⟨signature, rfl⟩ := alike
  rfl

/-- An input, and every capsule that arrives with it is genuine. -/
def LifeEvent.Trusted (event : LifeEvent) : Prop := (∃ input, event = .input input) ∧ event.Brings Capsule.Genuine

/-- Where all capsules that arrive are genuine, so are those that are stored, in
memory and in the rows. Until a restart none of them is lost or exchanged for
another statement, and what was verified against them remains so. -/
theorem capsules_authentic (free : CollisionFree) {config : NodeConfig} {s : Running}
    (life : Life config (fun _ event => event.Brings Capsule.Genuine) s) :
    (∀ k capsule, s.node.protocol.capsules.get? k = some capsule → capsule.capsuleId = k ∧ capsule.Genuine) ∧
    (∀ capsule, .put (.capsule capsule) ∈ s.node.log → capsule.Genuine) ∧
    ∀ t, GuardedRun (LifeEvent.exec config) (fun _ event => event.Trusted) s t →
      (∀ k capsule, s.node.protocol.capsules.get? k = some capsule → ∃ later,
        t.node.protocol.capsules.get? k = some later ∧ later.unsignedStatement = capsule.unsignedStatement) ∧
      (∀ receipt, s.node.protocol.verifyReceipt receipt = true → t.node.protocol.verifyReceipt receipt = true) ∧
      ∀ capsule closure, s.node.protocol.capsules.get? capsule.capsuleId = some capsule →
        s.node.protocol.verifyClosure capsule closure = true → t.node.protocol.verifyClosure capsule closure = true := by
  have holds := Life.holds life fun _ _ brings => brings
  refine ⟨fun k capsule stored => ⟨holds.node.key k capsule stored, holds.node.stored k capsule stored⟩, holds.node.rows,
    fun t run => ?_⟩
  have later : Life config (fun _ event => event.Brings Capsule.Genuine) t :=
    life.trans (run.mono fun _ _ trusted => trusted.2)
  have holds' := Life.holds later fun _ _ brings => brings
  have standing := Life.standing life free
  have standing' := Life.standing later free
  have members := standing'.members.trans standing.members.symm
  have epoch := standing'.epoch.trans standing.epoch.symm
  have retains : s.node.Retains t.node := by
    refine run.invariant (P := fun u => s.node.Retains u.node) (.of_capsules rfl) fun u event trusted before => ?_
    obtain ⟨⟨input, rfl⟩, -⟩ := trusted
    exact before.trans (input.exec_trace u).retains
  have kept : ∀ k capsule, s.node.protocol.capsules.get? k = some capsule → ∃ other,
      t.node.protocol.capsules.get? k = some other ∧ other.capsuleId = capsule.capsuleId ∧ capsule.Alike other := by
    intro k capsule stored
    obtain ⟨other, stored'⟩ := retains k capsule stored
    have same := (holds.node.key k capsule stored).trans (holds'.node.key k other stored').symm
    exact ⟨other, stored', same.symm,
      (holds.node.stored k capsule stored).bound.alike free (holds'.node.stored k other stored').bound same⟩
  refine ⟨fun k capsule stored => ?_, fun receipt verified => ?_, fun capsule closure stored accepted => ?_⟩
  · obtain ⟨other, stored', -, alike⟩ := kept k capsule stored
    exact ⟨other, stored', alike.statement⟩
  · obtain ⟨_, capsule, parts⟩ := verifyReceipt_iff.mp verified
    obtain ⟨other, stored', -, alike⟩ := kept _ capsule parts.found
    exact verifyReceipt_congr verified members epoch parts.found stored' alike
  · obtain ⟨other, stored', named, alike⟩ := kept _ capsule stored
    have accepts := verifyClosure_iff.mp accepted
    exact verifyClosure_iff.mpr ((accepts.congr members epoch stored (named ▸ stored') alike).of_alike alike)

section Solo
variable {pair : KeyPair}

theorem soloCapsule_genuine (sound : SignaturesVerify) : (soloCapsule pair "p" "a" 0).Genuine :=
  ⟨rfl, Capsule.create_verifies sound _ _ _ _ _ _ _⟩

/-- The first message that the node gets is a closure for the capsule. -/
def soloStored (pair : KeyPair) (capsule : Capsule) : Running :=
  (soloDelivery pair capsule).exec (soloConfig pair) ((soloConfig pair).start [])

theorem soloStored_life {capsule : Capsule} (genuine : capsule.Genuine) :
    Life (soloConfig pair) (fun _ event => event.Brings Capsule.Genuine) (soloStored pair capsule) := by
  refine GuardedRun.refl.tail (i := soloDelivery pair capsule) fun message same other carries => ?_
  cases same
  have here : other = capsule := carries
  exact here ▸ genuine

theorem soloStored_any (capsule : Capsule) : Life (soloConfig pair) (fun _ _ => True) (soloStored pair capsule) :=
  GuardedRun.refl.tail (i := soloDelivery pair capsule) trivial

/-- The capsule of the closure arrives on its own as well. -/
theorem soloStored_run (sound : SignaturesVerify) (s : Running) :
    GuardedRun (LifeEvent.exec (soloConfig pair)) (fun _ event => event.Trusted) s
      ((soloClaim pair "a").exec (soloConfig pair) s) := by
  refine GuardedRun.refl.tail (i := soloClaim pair "a") ⟨⟨_, rfl⟩, fun message same capsule carries => ?_⟩
  cases same
  have here : capsule = soloCapsule pair "p" "a" 0 := carries
  exact here ▸ soloCapsule_genuine sound

/-- A node stores what a closure comes with. -/
theorem soloStored_capsule (sound : SignaturesVerify) {capsule : Capsule}
    (named : capsule.predecessorId = (soloSeal pair "p").sealId) (epoch : capsule.epoch = 0) :
    (soloStored pair capsule).node.protocol.capsules.get? capsule.capsuleId = some capsule := by
  obtain ⟨t, same, protocol, -⟩ := soloDelivery_installs sound soloStart_ready rfl rfl rfl named epoch
  obtain ⟨closures, frame⟩ := (((soloConfig pair).start []).node.protocol.storeCapsule capsule).withClosure_frame capsule
    (soloClosure pair capsule)
  rw [soloStored, same, protocol, frame]
  exact Dict.get?_set_self _ _ _

theorem forgedCapsule_not_bound (free : CollisionFree) : ¬ (forgedCapsule pair).Bound := by
  intro bound
  have content := Capsule.eq_of_statement free
    ((rfl : digest (soloCapsule pair "p" "a" 0).unsignedStatement = _).trans bound)
  have root : ("a" : String) = "b" := (congrArg Capsule.successorRoot content :)
  exact absurd root (by decide)

/-- The capsule of a closure is stored, and then arrives on its own. -/
theorem exists_stored (pair : KeyPair) (sound : SignaturesVerify) : ∃ (s t : Running) (capsule : Capsule),
    Life (soloConfig pair) (fun _ event => event.Brings Capsule.Genuine) s ∧
    GuardedRun (LifeEvent.exec (soloConfig pair)) (fun _ event => event.Trusted) s t ∧
    s.node.protocol.capsules.get? capsule.capsuleId = some capsule :=
  ⟨_, _, _, soloStored_life (soloCapsule_genuine sound), soloStored_run sound _, soloStored_capsule sound rfl rfl⟩

omit [Crypto] in
theorem capsules_authentic_solo : let _ := Crypto.ideal
    ∃ (s t : Running) (capsule later : Capsule),
      GuardedRun (LifeEvent.exec (soloConfig idealKey)) (fun _ event => event.Trusted) s t ∧
      s.node.protocol.capsules.get? capsule.capsuleId = some capsule ∧
      t.node.protocol.capsules.get? capsule.capsuleId = some later ∧
      later.unsignedStatement = capsule.unsignedStatement := by
  intro _
  obtain ⟨s, t, capsule, life, run, stored⟩ := exists_stored idealKey ideal_signaturesVerify
  obtain ⟨later, stored', same⟩ :=
    ((capsules_authentic ideal_collisionFree life).2.2 t run).1 capsule.capsuleId capsule stored
  exact ⟨s, t, capsule, later, run, stored, stored', same⟩

omit [Crypto] in
/-- The forged body is stored under an identifier that is not its own. -/
theorem capsules_not_authentic : ¬ ∀ [Crypto], CollisionFree → SignaturesVerify →
    ∀ (config : NodeConfig) (s : Running), Life config (fun _ _ => True) s →
      ∀ k capsule, s.node.protocol.capsules.get? k = some capsule → capsule.capsuleId = k ∧ capsule.Genuine := by
  intro claim
  have stored := @soloStored_capsule Crypto.ideal idealKey ideal_signaturesVerify (@forgedCapsule Crypto.ideal idealKey)
    rfl rfl
  have life := @soloStored_any Crypto.ideal idealKey (@forgedCapsule Crypto.ideal idealKey)
  have genuine := (@claim Crypto.ideal ideal_collisionFree ideal_signaturesVerify _ _ life _ _ stored).2
  exact @forgedCapsule_not_bound Crypto.ideal idealKey ideal_collisionFree
    (@Capsule.Genuine.bound Crypto.ideal _ genuine)

end Solo

end Mosaic
