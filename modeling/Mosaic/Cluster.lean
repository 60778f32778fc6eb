import Mosaic.CapsuleAuthenticity
import Mosaic.Lib.Lineage
import Mosaic.NodeVotes

namespace Mosaic
open CanonicalJson Effects MosaicProtocol

variable [Crypto]

/-- Nodes with one committee and one first seal for each resource. The receipts of a
member that is not faulty come from the node at its home. -/
structure Cluster (ι : Type) where
  config : ι → NodeConfig
  home : String → ι
  validators : Finset String
  weight : String → ℕ
  faulty : Finset String
  counted : ∀ i, (config i).members.keys.toFinset = validators
  weighed : ∀ i w member, (config i).members.get? w = some member → member.weight = weight w
  few : 3 * Quorum.weigh weight faulty ≤ Quorum.weigh weight validators
  single : ∀ i j, ∀ x ∈ (config i).initialSeals, ∀ y ∈ (config j).initialSeals, x.resourceId = y.resourceId → x = y

namespace Cluster

variable {ι : Type} [DecidableEq ι] (cluster : Cluster ι)

/-- An event in the life of one of the nodes. -/
def exec (event : ι × LifeEvent) (net : ι → Running) : ι → Running :=
  Function.update net event.1 (event.2.exec (cluster.config event.1) (net event.1))

/-- The members whose receipts are those of the node. -/
def Honest (w : String) : Prop := w ∈ cluster.validators ∧ w ∉ cluster.faulty

/-- The receipt was signed at the home of its witness. -/
def Signed (net : ι → Running) (receipt : WitnessReceipt) : Prop :=
  ∃ own, .signed own ∈ (net (cluster.home receipt.witnessId)).node.log ∧
    canonicalBytes own.statement = canonicalBytes receipt.statement

/-- The capsules that arrive are genuine, the nodes of honest members do not vote
against what they voted for before a restart, and the receipts of honest members in a
closure are not forged. -/
structure Orderly (net : ι → Running) (event : ι × LifeEvent) : Prop where
  genuine : event.2.Brings Capsule.Genuine
  recalls : ∀ w, cluster.Honest w → cluster.home w = event.1 → (net event.1).Recalls event.2
  unforged : ∀ frame, event.2.taken.frame (net event.1) = some frame → ∀ capsule closure p,
    (net event.1).node.Closing frame capsule closure p → ∀ receipt ∈ closure.receipts, cluster.Honest receipt.witnessId →
      ∀ member, (cluster.config event.1).members.get? receipt.witnessId = some member →
        KeyPair.verify member.publicKey (canonicalBytes receipt.statement) receipt.signature = true →
          cluster.Signed net receipt

/-- Orderly events in any order, from the first start of all nodes. -/
abbrev Life (net : ι → Running) : Prop :=
  GuardedRun cluster.exec cluster.Orderly (fun i => (cluster.config i).start []) net

/-- Honest members of a quorum have all voted so. -/
def Certifies (net : ι → Running) (vote : Vote) : Prop :=
  Quorum.Certified cluster.weight cluster.validators cluster.faulty
    (fun w vote => VotesIn (net (cluster.home w)).node.log vote) vote

def Initial (seal' : StateSeal) : Prop := ∃ i, seal' ∈ (cluster.config i).initialSeals

/-- A genuine capsule with a quorum for it has put the one seal in the place of the other. -/
def Next (net : ι → Running) (old new : StateSeal) : Prop :=
  ∃ capsule : Capsule, capsule.Genuine ∧ cluster.Certifies net capsule.vote ∧ old.sealId = capsule.predecessorId ∧
    new = nextSeal old capsule

/-- The capsules that a node may put in the place of a seal. -/
def Decided (net : ι → Running) (capsule : Capsule) : Prop :=
  capsule.Genuine ∧ cluster.Certifies net capsule.vote ∧
    ∃ old, Lineage cluster.Initial (cluster.Next net) old ∧ old.sealId = capsule.predecessorId

variable {cluster} {net : ι → Running}

/-- Every node of the cluster lives on its own. -/
theorem Life.each (life : cluster.Life net) (i : ι) : Mosaic.Life (cluster.config i)
    (fun s event => event.Brings Capsule.Genuine ∧ ∀ w, cluster.Honest w → cluster.home w = i → s.Recalls event) (net i) := by
  induction life with
  | refl => exact .refl
  | @tail net event _ orderly ih =>
    obtain ⟨j, event⟩ := event
    by_cases here : i = j
    · subst here
      show GuardedRun _ _ _ (cluster.exec (i, event) net i)
      rw [exec, Function.update_self]
      exact ih.tail ⟨orderly.genuine, orderly.recalls⟩
    · show GuardedRun _ _ _ (cluster.exec (j, event) net i)
      rw [exec, Function.update_of_ne here]
      exact ih

theorem exec_log (event : ι × LifeEvent) (i : ι) : (net i).node.log <+: (cluster.exec event net i).node.log := by
  by_cases here : i = event.1
  · subst here
    rw [exec, Function.update_self]
    exact event.2.exec_log _ _
  · rw [exec, Function.update_of_ne here]

/-- The votes of an honest member agree on every seal. -/
theorem Life.votes (life : cluster.Life net) {w : String} (honest : cluster.Honest w) {vote vote' : Vote}
    (voted : VotesIn (net (cluster.home w)).node.log vote) (voted' : VotesIn (net (cluster.home w)).node.log vote')
    (same : vote.predecessorId = vote'.predecessorId) : vote = vote' := by
  have sworn := (life.each (cluster.home w)).sworn fun s event allowed => allowed.2 w honest rfl
  exact sworn.one vote vote' (Or.inl voted) (Or.inl voted') same

/-- Two capsules that quorums accepted for one seal are one. -/
theorem Life.certified_agree (life : cluster.Life net) {vote vote' : Vote} (certified : cluster.Certifies net vote)
    (certified' : cluster.Certifies net vote') (same : vote.predecessorId = vote'.predecessorId) : vote = vote' := by
  obtain ⟨Q, inQ, large, votes⟩ := certified
  obtain ⟨R, inR, large', votes'⟩ := certified'
  obtain ⟨w, member, honest⟩ := Quorum.exists_honest_in_both cluster.weight inQ inR large large' cluster.few
  rw [Finset.mem_inter] at member
  exact life.votes ⟨inQ member.1, honest⟩ (votes w member.1 honest) (votes' w member.2 honest) same

theorem Next.eq (free : CollisionFree) (life : cluster.Life net) {old new new' : StateSeal} (next : cluster.Next net old new)
    (next' : cluster.Next net old new') : new = new' := by
  obtain ⟨capsule, genuine, certified, named, rfl⟩ := next
  obtain ⟨capsule', genuine', certified', named', rfl⟩ := next'
  have vote := life.certified_agree certified certified' (named.symm.trans named')
  have id : capsule.capsuleId = capsule'.capsuleId := congrArg Vote.capsuleId vote
  have content := Capsule.eq_of_statement free (genuine.bound.symm.trans (id.trans genuine'.bound))
  have root : capsule.successorRoot = capsule'.successorRoot := (congrArg Capsule.successorRoot content :)
  have client : capsule.clientId = capsule'.clientId := (congrArg Capsule.clientId content :)
  simp only [nextSeal, id, root, client]

/-- The decided seals of a resource form one line. -/
theorem Life.straight (free : CollisionFree) (life : cluster.Life net) :
    Lineage.Straight cluster.Initial (cluster.Next net) StateSeal.resourceId StateSeal.version where
  single := by
    rintro x y ⟨i, member⟩ ⟨j, member'⟩ same
    exact cluster.single i j x member y member' same
  keeps := by
    rintro old new ⟨capsule, -, -, -, rfl⟩
    rfl
  rises := by
    rintro old new ⟨capsule, -, -, -, rfl⟩
    rfl
  only := fun next next' => next.eq free life next'

section Growing

variable {later : ι → Running} (grows : ∀ i, (net i).node.log <+: (later i).node.log)
include grows

omit [DecidableEq ι] in
theorem Certifies.mono {vote : Vote} (certified : cluster.Certifies net vote) : cluster.Certifies later vote := by
  obtain ⟨Q, inQ, large, votes⟩ := certified
  refine ⟨Q, inQ, large, fun w member honest => ?_⟩
  obtain ⟨receipt, signed, voted⟩ := votes w member honest
  exact ⟨receipt, (grows _).subset signed, voted⟩

omit [DecidableEq ι] in
theorem Next.mono {old new : StateSeal} (next : cluster.Next net old new) : cluster.Next later old new := by
  obtain ⟨capsule, genuine, certified, made⟩ := next
  exact ⟨capsule, genuine, certified.mono grows, made⟩

omit [DecidableEq ι] in
theorem Decided.mono {capsule : Capsule} (decided : cluster.Decided net capsule) : cluster.Decided later capsule := by
  obtain ⟨genuine, certified, old, lineage, named⟩ := decided
  exact ⟨genuine, certified.mono grows, old, lineage.mono (fun _ => id) (fun _ _ next => next.mono grows), named⟩

end Growing

omit [DecidableEq ι] in
/-- A seal that decided capsules have put in place is decided itself. -/
theorem lineage_of_installed (free : CollisionFree) {i : ι} {known : StateSeal}
    (installed : Installed (cluster.Decided net) (cluster.config i).initialSeals known) :
    Lineage cluster.Initial (cluster.Next net) known := by
  rcases installed with first | ⟨old, capsule, ⟨genuine, certified, old', lineage, named'⟩, named, rfl⟩
  · exact .root ⟨i, first⟩
  · have same : old' = old := StateSeal.eq_of_sealId free (named'.trans named.symm)
    subst same
    exact lineage.next ⟨capsule, genuine, certified, named, rfl⟩

omit [DecidableEq ι] in
/-- The committee of a node weighs what the cluster says. -/
theorem weigh_eq {i : ι} {p : MosaicProtocol} (members : p.members = (cluster.config i).members) {Q : Finset String}
    (inside : Q ⊆ cluster.validators) : Quorum.weigh p.weightOf Q = Quorum.weigh cluster.weight Q := by
  refine Finset.sum_congr rfl fun w inQ => ?_
  have known : w ∈ (cluster.config i).members.keys := by
    have member := inside inQ
    rwa [← cluster.counted i, List.mem_toFinset] at member
  obtain ⟨member, found⟩ := Dict.mem_keys.mp known
  rw [MosaicProtocol.weightOf, members, found]
  exact cluster.weighed i w member found

omit [DecidableEq ι] in
/-- A closure that verifies certifies the vote for its capsule, where the capsule is
stored. -/
theorem certifies_of_accepts {i : ι} {p : MosaicProtocol} {capsule : Capsule} {closure : ClosureProof}
    (members : p.members = (cluster.config i).members) (stored : p.capsules.get? capsule.capsuleId = some capsule)
    (accepted : p.Accepts capsule closure)
    (unforged : ∀ receipt ∈ closure.receipts, cluster.Honest receipt.witnessId →
      ∀ member, (cluster.config i).members.get? receipt.witnessId = some member →
        KeyPair.verify member.publicKey (canonicalBytes receipt.statement) receipt.signature = true →
          cluster.Signed net receipt) : cluster.Certifies net capsule.vote := by
  obtain ⟨inside, large⟩ := accepted.quorum
  have validators : p.members.keys.toFinset = cluster.validators := by rw [members, cluster.counted]
  rw [validators] at inside large
  rw [weigh_eq members inside, weigh_eq members Finset.Subset.rfl] at large
  refine ⟨_, inside, large, fun w member honest => ?_⟩
  have valid := inside member
  rw [List.mem_toFinset] at member
  obtain ⟨receipt, inList, rfl, verified, status, named⟩ := accepted.receipt member
  obtain ⟨m, found, parts⟩ := verifyReceipt_iff.mp verified
  have same : found = capsule := by
    have here := parts.found
    rw [named, stored] at here
    exact (Option.some.inj here).symm
  subst same
  obtain ⟨own, signed, statement⟩ := unforged receipt inList ⟨valid, honest⟩ m (members ▸ parts.known) parts.signature
  obtain ⟨capsuleId, predecessor, -, -, attempt, status'⟩ := receipt_eq_of_statement statement
  refine ⟨own, signed, status'.trans status, ?_⟩
  simp only [WitnessReceipt.vote, Capsule.vote, capsuleId, predecessor, attempt, parts.predecessor, parts.attempt, named]

/-- In an orderly event a node only puts decided capsules in the place of seals. -/
theorem Orderly.applies (free : CollisionFree) (life : cluster.Life net) {i : ι} {event : LifeEvent}
    (orderly : cluster.Orderly net (i, event))
    (sealed : (net i).node.Sealed (cluster.Decided net) (cluster.config i).initialSeals) :
    (net i).Applies (cluster.Decided net) event := by
  intro frame run capsule closure p closing registrable head
  have holds := (life.each i).holds fun _ _ allowed => allowed.1
  have standing := (life.each i).standing free
  have stored := closing.stored holds.node
  -- the frame has the capsule from its message, or from the store
  have parts : p.members = (net i).node.protocol.members ∧ p.currentSeals = (net i).node.protocol.currentSeals ∧
      p.knownSeals = (net i).node.protocol.knownSeals ∧ capsule.Genuine := by
    cases closing with
    | delivered => exact ⟨rfl, rfl, rfl, holds.carries orderly.genuine run rfl⟩
    | collected new found => exact ⟨rfl, rfl, rfl, holds.node.stored _ _ found⟩
  obtain ⟨members, currents, knowns, genuine⟩ := parts
  have certified := certifies_of_accepts (i := i) (members.trans standing.members) stored
    (verifyClosure_iff.mp registrable.verified) (orderly.unforged frame run capsule closure p closing)
  obtain ⟨old, headed, named⟩ := head
  obtain ⟨predecessor, known, held⟩ := Instance.headOf_parts headed
  rw [currents] at held
  exact ⟨genuine, certified, old, lineage_of_installed free (sealed.current held), named⟩

/-- All seals of all nodes come from decided capsules. -/
theorem Life.sealed (free : CollisionFree) (life : cluster.Life net) (i : ι) :
    (net i).node.Sealed (cluster.Decided net) (cluster.config i).initialSeals := by
  have run := life
  induction run generalizing i with
  | refl => exact (cluster.config i).start_sealed free (fun _ row => nomatch row) fun _ row => nomatch row
  | @tail net event earlier orderly ih =>
    have before := ih earlier
    have grows : ∀ k, (net k).node.log <+: (cluster.exec event net k).node.log := exec_log event
    obtain ⟨j, event⟩ := event
    have after : (cluster.exec (j, event) net i).node.Sealed (cluster.Decided net) (cluster.config i).initialSeals := by
      by_cases here : i = j
      · subst here
        rw [exec, Function.update_self]
        exact LifeEvent.exec_sealed free (orderly.applies free earlier (before i)) (before i)
      · rw [exec, Function.update_of_ne here]
        exact before i
    exact after.mono fun capsule decided => decided.mono grows

end Cluster

section Solo
variable (pair : KeyPair)

/-- Two nodes, and the only member is at home at the first of them. -/
def soloCluster : Cluster Bool where
  config _ := soloConfig pair
  home _ := true
  validators := {"w"}
  weight _ := 1
  faulty := ∅
  counted _ := rfl
  weighed := by
    intro i w member found
    rcases Dict.origin_of_get?_set found with ⟨-, rfl⟩ | old
    · rfl
    · cases old
  few := Nat.zero_le _
  single := by
    intro i j x member y member' _
    rw [List.mem_singleton.mp member, List.mem_singleton.mp member']

/-- The capsule arrives at the first node, and its closure at the second one. -/
def soloEvents : List (Bool × LifeEvent) :=
  [(true, soloClaim pair "a"), (false, soloDelivery pair (soloCapsule pair "p" "a" 0))]

def afterEvents : Bool → Running :=
  (soloEvents pair).foldl (fun net event => (soloCluster pair).exec event net) fun _ => (soloConfig pair).start []

variable {pair}

theorem afterEvents_life (sound : SignaturesVerify) : (soloCluster pair).Life (afterEvents pair) := by
  have genuine := @soloCapsule_genuine _ pair sound
  unfold afterEvents soloEvents
  simp only [List.foldl_cons, List.foldl_nil]
  refine GuardedRun.tail (GuardedRun.tail GuardedRun.refl ⟨?_, ?_, ?_⟩) ⟨?_, ?_, ?_⟩
  · intro message same capsule carries
    cases same
    cases (show capsule = soloCapsule pair "p" "a" 0 from carries)
    exact genuine
  · intro w _ _ frame run capsule _ _ _ vote has
    obtain ⟨receipt, member, -⟩ := has
    cases member
  · intro frame run capsule closure p closing
    cases run
    cases closing
  · intro message same capsule carries
    cases same
    cases (show capsule = soloCapsule pair "p" "a" 0 from carries)
    exact genuine
  · intro w _ home
    cases home
  · intro frame run capsule closure p closing receipt member _ _ _ _
    cases run
    cases closing
    rw [soloClosure_receipts, List.mem_singleton] at member
    refine ⟨receipt, ?_, rfl⟩
    show _ ∈ ((soloCluster pair).exec _ _ true).node.log
    rw [Cluster.exec, Function.update_self]
    show _ ∈ ((soloClaim pair "a").exec (soloConfig pair) ((soloConfig pair).start [])).node.log
    rw [afterClaim_log sound, member]
    simp [acceptance]

/-- The first node knows the first seal, and the second one the seal after it. -/
theorem afterEvents_known (sound : SignaturesVerify) :
    (afterEvents pair true).node.protocol.knownSeals.get? (soloSeal pair "p").sealId = some (soloSeal pair "p") ∧
    (afterEvents pair false).node.protocol.knownSeals.get?
      (nextSeal (soloSeal pair "p") (soloCapsule pair "p" "a" 0)).sealId =
        some (nextSeal (soloSeal pair "p") (soloCapsule pair "p" "a" 0)) ∧
    (soloSeal pair "p").resourceId = (nextSeal (soloSeal pair "p") (soloCapsule pair "p" "a" 0)).resourceId := by
  have start := @soloStart_ready _ pair
  have first : afterEvents pair true = (soloClaim pair "a").exec (soloConfig pair) ((soloConfig pair).start []) := rfl
  have second : afterEvents pair false =
      (soloDelivery pair (soloCapsule pair "p" "a" 0)).exec (soloConfig pair) ((soloConfig pair).start []) := rfl
  refine ⟨?_, ?_, rfl⟩
  · rw [first, soloClaim_node sound (by decide) rfl start (Finset.notMem_empty _) rfl]
    exact start.known
  · obtain ⟨t, same, protocol, -⟩ := @soloDelivery_installs _ pair sound (soloConfig pair) _ _ start rfl rfl rfl
      (soloCapsule_predecessorId pair "p" "a" 0) rfl
    rw [second, same, protocol]
    exact Dict.get?_set_self _ _ _

end Solo

end Mosaic
