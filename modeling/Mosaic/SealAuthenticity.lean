import Mosaic.OwnerAuthorisation
import Mosaic.NodeRestart
import Mosaic.NodeSeals

namespace Mosaic
open CanonicalJson Effects

variable [Crypto]

/-- The capsule has its own identifier and its client has signed it. -/
structure Capsule.Genuine (capsule : Capsule) : Prop where
  bound : capsule.Bound
  signed : capsule.verifyClientSignature = true

/-- The seal says what a genuine capsule says, the one whose identifier it commits to. -/
def StateSeal.Authentic (current : StateSeal) : Prop :=
  ∃ capsule : Capsule, capsule.Genuine ∧ current.stateRoot = capsule.successorRoot ∧ current.owner = capsule.clientId ∧
    current.capabilityHash = digest (.str capsule.capsuleId)

theorem Installed.authentic {initial : List StateSeal} {current : StateSeal}
    (installed : Installed Capsule.Genuine initial current) : current ∈ initial ∨ current.Authentic :=
  installed.imp_right fun ⟨_, capsule, genuine, _, made⟩ => made ▸ ⟨capsule, genuine, rfl, rfl, rfl⟩

/-- Genuine capsules with one identifier put the same seal in the place of the
seal they name. -/
theorem Installed.eq {initial initial' : List StateSeal} (free : CollisionFree) {x y : StateSeal}
    (installed : Installed Capsule.Genuine initial x) (installed' : Installed Capsule.Genuine initial' y)
    (new : x ∉ initial) (new' : y ∉ initial') (same : x.capabilityHash = y.capabilityHash) : x = y := by
  obtain ⟨old, capsule, genuine, named, rfl⟩ := installed.resolve_left new
  obtain ⟨old', capsule', genuine', named', rfl⟩ := installed'.resolve_left new'
  have id : capsule.capsuleId = capsule'.capsuleId := digest_str_inj free same
  have content := Capsule.eq_of_statement free (genuine.bound.symm.trans (id.trans genuine'.bound))
  have predecessor : capsule.predecessorId = capsule'.predecessorId := (congrArg Capsule.predecessorId content :)
  have root : capsule.successorRoot = capsule'.successorRoot := (congrArg Capsule.successorRoot content :)
  have client : capsule.clientId = capsule'.clientId := (congrArg Capsule.clientId content :)
  have here : old = old' := StateSeal.eq_of_sealId free (named.trans (predecessor.trans named'.symm))
  simp only [nextSeal, here, id, root, client]

/-- Where only genuine capsules are put in the place of the seals they name, every
current seal of a node is an initial one or authentic, and two nodes with a seal
for one capsule have the same seal. -/
theorem seals_authentic (free : CollisionFree) {config config' : NodeConfig} {s t : Running}
    (life : Life config (Running.Applies Capsule.Genuine) s)
    (life' : Life config' (Running.Applies Capsule.Genuine) t) :
    (∀ r current, s.node.protocol.currentSeals.get? r = some current →
      current ∈ config.initialSeals ∨ current.Authentic) ∧
    ∀ r r' x y, s.node.protocol.currentSeals.get? r = some x → t.node.protocol.currentSeals.get? r' = some y →
      x ∉ config.initialSeals → y ∉ config'.initialSeals → x.capabilityHash = y.capabilityHash → x = y := by
  have sealed := life.sealed free fun _ _ applies => applies
  have sealed' := life'.sealed free fun _ _ applies => applies
  exact ⟨fun r current held => (sealed.current held).authentic,
    fun r r' x y held held' new new' same => (sealed.current held).eq free (sealed'.current held') new new' same⟩

/-- Every receipt in a closure that arrives was signed by the node itself. -/
def Running.Unforged (s : Running) (event : LifeEvent) : Prop :=
  ∀ capsule closure, event.taken = .receive (.closure capsule closure) →
    ∀ receipt ∈ closure.receipts, .signed receipt ∈ s.node.log

section Solo
variable (pair : KeyPair)

/-- The closure by the receipt that the only member signs for the capsule. -/
def soloClosure (capsule : Capsule) : ClosureProof :=
  MosaicProtocol.closureOver capsule [soloReceipt pair capsule "ACCEPT"]

def soloDelivery (capsule : Capsule) : LifeEvent := .input (.receive (.closure capsule (soloClosure pair capsule)))

variable {pair}

/-- A closure arrives for a capsule on the first seal of the resource. -/
theorem soloDelivery_installs (sound : SignaturesVerify) {config : NodeConfig} {s : Running} {capsule : Capsule}
    (ready : SoloReady pair s.node.protocol "p") (clean : s.node.protocol.conflictEvidence = .empty)
    (idle : s.node.pendingCapsules = .empty) (alone : s.node.pending = .empty)
    (named : capsule.predecessorId = (soloSeal pair "p").sealId) (epoch : capsule.epoch = 0) :
    ∃ t, ((soloDelivery pair capsule).exec config s).node = t ∧
      t.protocol = ((s.node.protocol.storeCapsule capsule).withClosure capsule (soloClosure pair capsule)).installSeal
        (nextSeal (soloSeal pair "p") capsule) ∧
      t.pendingCapsules = .empty ∧ t.pending = .empty ∧ ∃ predecessor current,
        t.protocol.knownSeals.get? capsule.predecessorId = some predecessor ∧
        t.protocol.currentSeals.get? predecessor.resourceId = some current ∧
        t.log = s.node.log ++ .put (.capsule capsule) :: closingRows (soloClosure pair capsule) predecessor current := by
  have verified : (s.node.protocol.storeCapsule capsule).verifyClosure capsule (soloClosure pair capsule) = true :=
    solo_verifyClosure pair sound capsule capsule ready.members (ready.epoch.trans epoch.symm)
      (Dict.get?_set_self _ _ _) rfl
  have unopposed : (s.node.protocol.storeCapsule capsule).hasConflictOn capsule.predecessorId = false := by
    simp [MosaicProtocol.hasConflictOn, clean]
  have head : s.node.protocol.headOf capsule = some (soloSeal pair "p") :=
    Option.bind_eq_some_iff.mpr ⟨_, named ▸ ready.known, ready.current⟩
  obtain ⟨t, ran, made⟩ := MosaicNode.onClosure_installs ⟨verified, unopposed⟩ head named.symm idle alone
  exact ⟨t, final_of_ok ran, made⟩

variable (pair)

/-- A capsule with another successor root under the identifier of the accepted one. -/
def forgedCapsule : Capsule := { soloCapsule pair "p" "a" 0 with successorRoot := "b" }

/-- The node accepts the capsule, and then a closure arrives. -/
def afterDelivery (capsule : Capsule) : Running :=
  [soloClaim pair "a", soloDelivery pair capsule].foldl (fun s event => event.exec (soloConfig pair) s)
    ((soloConfig pair).start [])

variable {pair}

/-- The closure is the first one, and it is registered, applied and filed. -/
theorem afterDelivery_installs (sound : SignaturesVerify) {capsule : Capsule}
    (named : capsule.predecessorId = (soloSeal pair "p").sealId) (epoch : capsule.epoch = 0) :
    ∃ (s : Instance) (predecessor current : StateSeal),
      (SoloReady pair s "p" ∧ s.closures = .empty ∧ s.conflictEvidence = .empty) ∧
      (afterDelivery pair capsule).node.protocol =
        ((s.storeCapsule capsule).withClosure capsule (soloClosure pair capsule)).installSeal
          (nextSeal (soloSeal pair "p") capsule) ∧
      (afterDelivery pair capsule).node.log = acceptance pair "a" ++ .put (.capsule capsule) ::
        closingRows (soloClosure pair capsule) predecessor current := by
  have start := @soloStart_ready _ pair
  unfold afterDelivery
  simp only [List.foldl_cons, List.foldl_nil]
  have accepted : ((soloClaim pair "a").exec (soloConfig pair) ((soloConfig pair).start [])).node =
      acceptedBy pair ((soloConfig pair).start []).node "a" :=
    soloClaim_node sound (by decide) rfl start (Finset.notMem_empty _) rfl
  have log := @afterClaim_log _ pair sound
  generalize (soloClaim pair "a").exec (soloConfig pair) ((soloConfig pair).start []) = s at accepted log
  have ready : SoloReady pair s.node.protocol "p" := by
    rw [accepted]
    exact ⟨start.members, start.epoch, start.known, start.current⟩
  obtain ⟨t, same, protocol, -, -, predecessor, current, -, -, rows⟩ := soloDelivery_installs sound ready
    (by rw [accepted]; rfl) (by rw [accepted]; rfl) (by rw [accepted]; rfl) named epoch
  refine ⟨s.node.protocol, predecessor, current, ⟨ready, ?_, ?_⟩, by rw [same, protocol], by rw [same, rows, log]⟩ <;>
    rw [accepted] <;> rfl

theorem afterDelivery_eq (sound : SignaturesVerify) {capsule : Capsule}
    (named : capsule.predecessorId = (soloSeal pair "p").sealId) (epoch : capsule.epoch = 0) :
    (afterDelivery pair capsule).node.protocol.currentSeals.get? "p" = some (nextSeal (soloSeal pair "p") capsule) := by
  obtain ⟨_, _, _, -, protocol, -⟩ := @afterDelivery_installs _ pair sound _ named epoch
  rw [protocol]
  exact Dict.get?_set_self _ _ _

/-- The receipt says nothing of the successor root. -/
theorem soloReceipt_forged (status : String) :
    soloReceipt pair (forgedCapsule pair) status = soloReceipt pair (soloCapsule pair "p" "a" 0) status := rfl

theorem soloClosure_receipts (capsule : Capsule) :
    (soloClosure pair capsule).receipts = [soloReceipt pair capsule "ACCEPT"] := by
  simp [soloClosure, MosaicProtocol.closureOver, sortedBy]

theorem nextSeal_ne_soloSeal (capsule : Capsule) : nextSeal (soloSeal pair "p") capsule ≠ soloSeal pair "p" := by
  intro same
  have version : (0 : Int) + 1 = 0 := congrArg StateSeal.version same
  omega

theorem afterDelivery_genuine (sound : SignaturesVerify) :
    Life (soloConfig pair) (Running.Applies Capsule.Genuine) (afterDelivery pair (soloCapsule pair "p" "a" 0)) := by
  have genuine : (soloCapsule pair "p" "a" 0).Genuine := ⟨rfl, Capsule.create_verifies sound _ _ _ _ _ _ _⟩
  unfold afterDelivery
  simp only [List.foldl_cons, List.foldl_nil]
  refine GuardedRun.tail (GuardedRun.tail GuardedRun.refl ?_) ?_
  · intro frame run capsule closure p closing
    simp only [soloClaim, LifeEvent.taken, Input.frame, Option.some.injEq] at run
    subst run
    cases closing
  · intro frame run capsule closure p closing _ _
    simp only [soloDelivery, LifeEvent.taken, Input.frame, Option.some.injEq] at run
    subst run
    cases closing
    exact genuine

theorem afterDelivery_unforged (sound : SignaturesVerify) :
    Life (soloConfig pair) Running.Unforged (afterDelivery pair (forgedCapsule pair)) := by
  unfold afterDelivery
  simp only [List.foldl_cons, List.foldl_nil]
  refine GuardedRun.tail (GuardedRun.tail GuardedRun.refl ?_) ?_
  · intro capsule closure same
    simp only [soloClaim, LifeEvent.taken, Input.receive.injEq, reduceCtorEq] at same
  · intro capsule closure same receipt member
    simp only [soloDelivery, LifeEvent.taken, Input.receive.injEq, Message.closure.injEq] at same
    obtain ⟨-, rfl⟩ := same
    rw [soloClosure_receipts, List.mem_singleton, soloReceipt_forged] at member
    rw [afterClaim_log sound, member]
    simp [acceptance]

omit [Crypto] in
/-- A genuine capsule is accepted, closed and applied. -/
theorem seals_authentic_solo : let _ := Crypto.ideal
    ∃ current : StateSeal,
      (afterDelivery idealKey (soloCapsule idealKey "p" "a" 0)).node.protocol.currentSeals.get? "p" = some current ∧
      current ∉ (soloConfig idealKey).initialSeals ∧ current.Authentic := by
  have life := @afterDelivery_genuine Crypto.ideal idealKey ideal_signaturesVerify
  have held := @afterDelivery_eq Crypto.ideal idealKey ideal_signaturesVerify (@soloCapsule Crypto.ideal idealKey "p" "a" 0)
    rfl rfl
  have new := fun member => @nextSeal_ne_soloSeal Crypto.ideal idealKey (@soloCapsule Crypto.ideal idealKey "p" "a" 0)
    (List.mem_singleton.mp member)
  exact ⟨_, held, new,
    ((@seals_authentic Crypto.ideal ideal_collisionFree _ _ _ _ life life).1 _ _ held).resolve_left new⟩

/-- The forged capsule has the root of no genuine one. -/
theorem forged_not_authentic (free : CollisionFree) :
    ¬ (nextSeal (soloSeal pair "p") (forgedCapsule pair)).Authentic := by
  rintro ⟨capsule, genuine, root, -, hash⟩
  have id : (soloCapsule pair "p" "a" 0).capsuleId = capsule.capsuleId := digest_str_inj free hash
  have content := Capsule.eq_of_statement free
    ((rfl : digest (soloCapsule pair "p" "a" 0).unsignedStatement = _).trans (id.trans genuine.bound))
  have root' : (soloCapsule pair "p" "a" 0).successorRoot = capsule.successorRoot :=
    (congrArg Capsule.successorRoot content :)
  exact absurd (root.trans root'.symm) (by decide : ("b" : String) ≠ "a")

omit [Crypto] in
/-- A closure for a forged body of an accepted capsule is installed. -/
theorem seals_not_authentic : ¬ ∀ [Crypto], CollisionFree → SignaturesVerify →
    ∀ (config : NodeConfig) (s : Running), Life config Running.Unforged s →
      ∀ r current, s.node.protocol.currentSeals.get? r = some current →
        current ∈ config.initialSeals ∨ current.Authentic := by
  intro claim
  have free := ideal_collisionFree
  have life := @afterDelivery_unforged Crypto.ideal idealKey ideal_signaturesVerify
  have held := @afterDelivery_eq Crypto.ideal idealKey ideal_signaturesVerify (@forgedCapsule Crypto.ideal idealKey)
    rfl rfl
  rcases @claim Crypto.ideal free ideal_signaturesVerify _ _ life _ _ held with initial | authentic
  · exact @nextSeal_ne_soloSeal Crypto.ideal idealKey _ (List.mem_singleton.mp initial)
  · exact @forged_not_authentic Crypto.ideal idealKey free authentic

end Solo

end Mosaic
