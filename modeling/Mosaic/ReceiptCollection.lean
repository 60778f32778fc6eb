import Mosaic.TerminalOutcome
import Mosaic.NodeRestart

namespace Mosaic
open CanonicalJson Effects MosaicProtocol

variable [Crypto]

namespace MosaicNode

variable {s t : MosaicNode} {receipt : WitnessReceipt} {capsule : Capsule} {closure : ClosureProof}

/-- The receipts in the pools are filed under their capsules and witnesses. -/
def Pooled (s : MosaicNode) : Prop :=
  ∀ capsuleId w receipt, (s.poolOf capsuleId).get? w = some receipt →
    receipt.capsuleId = capsuleId ∧ receipt.witnessId = w

theorem poolOf_set (s : MosaicNode) (receipt : WitnessReceipt) (capsuleId : String) :
    ((s.receiptPool.set receipt.capsuleId ((s.poolOf receipt.capsuleId).set receipt.witnessId receipt)).get?
      capsuleId).getD .empty =
      if receipt.capsuleId = capsuleId then (s.poolOf capsuleId).set receipt.witnessId receipt
      else s.poolOf capsuleId := by
  rw [Dict.get?_set]
  split
  · rename_i here
    rw [here, Option.getD_some]
  · rfl

theorem poolOf_addReceipt (s : MosaicNode) (receipt : WitnessReceipt) (capsuleId : String) :
    (s.addReceipt receipt).poolOf capsuleId =
      if receipt.capsuleId = capsuleId then (s.poolOf capsuleId).set receipt.witnessId receipt
      else s.poolOf capsuleId :=
  poolOf_set s receipt capsuleId

theorem mem_historyOf_addReceipt (s : MosaicNode) (receipt other : WitnessReceipt) :
    other.receiptId ∈ (s.addReceipt receipt).historyOf other ↔ other.receiptId ∈ s.historyOf other ∨
      receipt.capsuleId = other.capsuleId ∧ receipt.witnessId = other.witnessId ∧
        receipt.receiptId = other.receiptId := by
  unfold historyOf
  rw [addReceipt_receiptHistory, Dict.get?_set]
  by_cases here : (receipt.capsuleId, receipt.witnessId) = (other.capsuleId, other.witnessId)
  · obtain ⟨capsule, witness⟩ := Prod.mk.inj here
    rw [if_pos here, Option.getD_some, Finset.mem_insert, historyOf, here]
    constructor
    · rintro (same | old)
      · exact Or.inr ⟨capsule, witness, same.symm⟩
      · exact Or.inl old
    · rintro (old | ⟨-, -, same⟩)
      · exact Or.inr old
      · exact Or.inl same.symm
  · rw [if_neg here]
    refine (or_iff_left ?_).symm
    rintro ⟨capsule, witness, -⟩
    exact here (Prod.ext capsule witness)

theorem Pooled.congr (pooled : s.Pooled) (same : t.receiptPool = s.receiptPool) : t.Pooled := by
  intro capsuleId w receipt found
  unfold poolOf at found
  rw [same] at found
  exact pooled capsuleId w receipt found

theorem Pooled.set (pooled : s.Pooled) (receipt : WitnessReceipt)
    (same : t.receiptPool = s.receiptPool.set receipt.capsuleId
      ((s.poolOf receipt.capsuleId).set receipt.witnessId receipt)) : t.Pooled := by
  intro capsuleId w other found
  unfold poolOf at found
  rw [same, poolOf_set] at found
  split at found
  · rename_i here
    rw [Dict.get?_set] at found
    split at found
    · rename_i witness
      cases found
      exact ⟨here, witness⟩
    · exact pooled capsuleId w other found
  · exact pooled capsuleId w other found

end MosaicNode
open MosaicNode

theorem NodeUpdate.keeps_pooled {s t : MosaicNode} {event : NodeEvent} (update : NodeUpdate event s t) (pooled : s.Pooled) :
    t.Pooled := by
  cases update with
  | pooled => exact pooled.set _ rfl
  | _ => exact pooled.congr rfl

theorem NodeConfig.start_pooled (config : NodeConfig) (log : List Effect) : (config.start log).node.Pooled := by
  have fresh : (config.fresh log).Pooled := by
    intro capsuleId w receipt found
    cases found
  rw [NodeConfig.start_node]
  refine restore_invariant fresh ?_ ?_ ?_ ?_ ?_
  · exact fun s pooled known _ => pooled.congr rfl
  · exact fun s pooled current _ => pooled.congr rfl
  · exact fun s pooled capsule _ => pooled.congr rfl
  · exact fun s pooled receipt _ => pooled.set receipt rfl
  · intro s pooled closure _
    obtain ⟨closures, same⟩ := s.restoreClosure_frame closure
    rw [same]
    exact pooled.congr rfl

theorem NodeTrace.keeps_pooled {P : NodeEvent → Prop} {s t : MosaicNode} (trace : NodeTrace P s t) (pooled : s.Pooled) :
    t.Pooled :=
  trace.invariant pooled fun _ _ _ _ update before => update.keeps_pooled before

theorem Life.pooled {config : NodeConfig} {allowed : Running → LifeEvent → Prop} {s : Running}
    (life : Life config allowed s) : s.node.Pooled := by
  refine life.invariant (config.start_pooled []) ?_ ?_
  · intro s event _ before u trace
    exact trace.keeps_pooled before
  · intro s event _ before u trace
    exact ⟨config.start_pooled _, fun change v k _ _ _ => config.start_pooled _⟩

theorem NodeUpdate.closures_contains {s t : MosaicNode} {event : NodeEvent} (update : NodeUpdate event s t)
    {capsuleId : String} (closed : s.protocol.closures.contains capsuleId = true) :
    t.protocol.closures.contains capsuleId = true := by
  have registered : ∀ capsule closure, (s.protocol.withClosure capsule closure).closures.contains capsuleId = true := by
    intro capsule closure
    unfold Instance.withClosure
    split
    · exact closed
    · exact Dict.contains_set closed
  cases update with
  | closed settles =>
    cases settles with
    | installed => exact registered _ _
    | repeated => exact registered _ _
  | stranded => exact registered _ _
  | witnessed seen kind change => exact change.closures_contains closed
  | _ => exact closed

theorem NodeTrace.closures_contains {P : NodeEvent → Prop} {s t : MosaicNode} (trace : NodeTrace P s t)
    {capsuleId : String} (closed : s.protocol.closures.contains capsuleId = true) :
    t.protocol.closures.contains capsuleId = true :=
  trace.invariant (I := fun u => u.protocol.closures.contains capsuleId = true) closed
    fun _ _ _ _ update before => update.closures_contains before

namespace MosaicNode

variable {s t : MosaicNode} {receipt : WitnessReceipt} {capsule : Capsule}

/-- The node when it has written down a receipt. -/
def noted (s : MosaicNode) (receipt : WitnessReceipt) : MosaicNode :=
  (s.addReceipt receipt).logEffect (.put (.receipt receipt))

theorem onReceipt_repeats (old : receipt.receiptId ∈ s.historyOf receipt) : onReceipt receipt s = .ok [] s := by
  unfold onReceipt
  rw [bind_of_ok (get_apply s), if_pos old]
  rfl

theorem onReceipt_new (new : receipt.receiptId ∉ s.historyOf receipt) :
    onReceipt receipt s = (match s.protocol.capsules.get? receipt.capsuleId with
      | none => pure []
      | some capsule => if s.protocol.verifyReceipt receipt then tryClose capsule else pure []) (s.noted receipt) := by
  unfold onReceipt
  rw [bind_of_ok (get_apply s), if_neg new]
  rfl

theorem onReceipt_counts (new : receipt.receiptId ∉ s.historyOf receipt)
    (stored : s.protocol.capsules.get? capsule.capsuleId = some capsule) (counts : s.protocol.Counts capsule receipt) :
    onReceipt receipt s = tryClose capsule (s.noted receipt) := by
  obtain ⟨verified, -, named⟩ := counts
  rw [onReceipt_new new, named, stored]
  simp only [verified, if_true]

theorem tryClose_light (unclosed : s.protocol.closures.contains capsule.capsuleId = false)
    (light : s.protocol.weightOfReceipts (s.validPool capsule.capsuleId) < s.protocol.threshold) :
    tryClose capsule s = .ok [] s := by
  unfold tryClose
  rw [bind_of_ok (get_apply s), if_neg (by rw [unclosed]; decide)]
  simp only [if_pos light, pure_apply]

/-- The pool of a capsule holds one receipt for each witness. -/
theorem Pooled.distinct (pooled : s.Pooled) (capsuleId : String) :
    ((s.validPool capsuleId).map WitnessReceipt.witnessId).Nodup := by
  have witnesses : (s.poolOf capsuleId).values.map WitnessReceipt.witnessId = (s.poolOf capsuleId).keys := by
    simp only [Dict.values, Dict.keys, List.map_map]
    refine List.map_congr_left fun entry member => ?_
    exact (pooled capsuleId entry.1 entry.2 ((Dict.get?_eq_some_iff _).mpr member)).2
  refine List.Nodup.sublist (List.Sublist.map _ List.filter_sublist) ?_
  rw [witnesses]
  exact Dict.keys_nodup _

theorem Pooled.counts (pooled : s.Pooled) (member : receipt ∈ s.validPool capsule.capsuleId) :
    s.protocol.Counts capsule receipt := by
  obtain ⟨inPool, valid⟩ := List.mem_filter.mp member
  simp only [Bool.and_eq_true, decide_eq_true_eq] at valid
  obtain ⟨w, found⟩ := Dict.mem_values.mp inPool
  exact ⟨valid.2, valid.1, (pooled _ w receipt found).1⟩

/-- A pool that carries the threshold makes a closure that can be registered. -/
theorem Pooled.closable (pooled : s.Pooled) (clean : s.protocol.hasConflictOn capsule.predecessorId = false)
    (stored : s.protocol.capsules.get? capsule.capsuleId = some capsule)
    (heavy : s.protocol.threshold ≤ s.protocol.weightOfReceipts (s.validPool capsule.capsuleId)) :
    ClosureProof.create (s.validPool capsule.capsuleId) =
        .ok (closureOver capsule (s.validPool capsule.capsuleId)) ∧
      s.protocol.Registrable capsule (closureOver capsule (s.validPool capsule.capsuleId)) := by
  have counts : ∀ receipt ∈ s.validPool capsule.capsuleId, s.protocol.Counts capsule receipt := fun receipt => pooled.counts
  constructor
  · refine create_eq_closureOver ?_ fun receipt member => ?_
    · intro none
      rw [none] at heavy
      exact absurd heavy (Nat.not_le.mpr s.protocol.threshold_pos)
    · obtain ⟨verified, status, named⟩ := counts receipt member
      obtain ⟨member, found, valid⟩ := verifyReceipt_iff.mp verified
      have same : found = capsule := by
        have here := valid.found
        rw [named, stored] at here
        exact (Option.some.inj here).symm
      subst same
      exact ⟨status, named, valid.predecessor, valid.epoch, valid.attempt⟩
  · exact ⟨verifyClosure_iff.mpr (accepts_closureOver (pooled.distinct _) counts heavy), clean⟩

/-- The receipt was heard before, of the same witness for the same capsule. -/
def Repeats (s : MosaicNode) (earlier : List WitnessReceipt) (receipt : WitnessReceipt) : Prop :=
  receipt.receiptId ∈ s.historyOf receipt ∨ ∃ e ∈ earlier, e.capsuleId = receipt.capsuleId ∧
    e.witnessId = receipt.witnessId ∧ e.receiptId = receipt.receiptId

instance (s : MosaicNode) (earlier : List WitnessReceipt) : DecidablePred (s.Repeats earlier) :=
  fun _ => inferInstanceAs (Decidable (_ ∨ _))

/-- The receipts that are heard for the first time, in their order. -/
def heard (s : MosaicNode) (receipts : List WitnessReceipt) : List WitnessReceipt :=
  receipts.foldl (fun earlier receipt => if s.Repeats earlier receipt then earlier else earlier ++ [receipt]) []

/-- For each witness the last receipt for the capsule that was heard of it. -/
def lastWords (s : MosaicNode) (capsuleId : String) (heard : List WitnessReceipt) : Dict String WitnessReceipt :=
  (s.poolOf capsuleId).writeAll WitnessReceipt.witnessId (heard.filter fun receipt => receipt.capsuleId = capsuleId)

/-- What those last words weigh that are valid acceptances. -/
def weightHeard (s : MosaicNode) (capsuleId : String) (heard : List WitnessReceipt) : Nat :=
  s.protocol.weightOfReceipts ((s.lastWords capsuleId heard).values.filter fun receipt =>
    receipt.status = "ACCEPT" && s.protocol.verifyReceipt receipt)

theorem heard_concat (s : MosaicNode) (receipts : List WitnessReceipt) (receipt : WitnessReceipt) :
    s.heard (receipts ++ [receipt]) =
      if s.Repeats (s.heard receipts) receipt then s.heard receipts else s.heard receipts ++ [receipt] := by
  simp only [heard, List.foldl_append, List.foldl_cons, List.foldl_nil]
  rfl

/-- Where no receipt was heard before, each one counts that none before it repeats. -/
theorem heard_of_fresh {receipts : List WitnessReceipt} (fresh : s.receiptHistory = .empty)
    (distinct : receipts.Pairwise fun e r =>
      ¬ (e.capsuleId = r.capsuleId ∧ e.witnessId = r.witnessId ∧ e.receiptId = r.receiptId)) :
    s.heard receipts = receipts := by
  induction receipts using List.reverseRecOn with
  | nil => rfl
  | append_singleton receipts receipt ih =>
    obtain ⟨earlier, -, last⟩ := List.pairwise_append.mp distinct
    have new : ¬ s.Repeats receipts receipt := by
      rintro (old | ⟨e, member, same⟩)
      · simp [historyOf, fresh] at old
      · exact last e member receipt (List.mem_singleton_self _) same
    rw [heard_concat, ih earlier, if_neg new]

/-- The node after some receipts that have not closed anything: only its pools and
its history of receipts have changed, and they hold what was heard. -/
structure Heard (s : MosaicNode) (receipts : List WitnessReceipt) (t : MosaicNode) : Prop where
  protocol : t.protocol = s.protocol
  pool : ∀ capsuleId, t.poolOf capsuleId = s.lastWords capsuleId (s.heard receipts)
  history : ∀ receipt, receipt.receiptId ∈ t.historyOf receipt ↔ s.Repeats (s.heard receipts) receipt

namespace Heard

variable {receipts : List WitnessReceipt}

theorem nil (s : MosaicNode) : s.Heard [] s where
  protocol := rfl
  pool _ := rfl
  history receipt := by simp [Repeats, heard]

theorem validPool (heard : s.Heard receipts t) (capsuleId : String) :
    t.protocol.weightOfReceipts (t.validPool capsuleId) = s.weightHeard capsuleId (s.heard receipts) := by
  rw [heard.protocol, MosaicNode.validPool, heard.pool, heard.protocol]
  rfl

theorem repeats (heard : s.Heard receipts t) (old : s.Repeats (s.heard receipts) receipt) :
    s.Heard (receipts ++ [receipt]) t := by
  have same : s.heard (receipts ++ [receipt]) = s.heard receipts := by rw [heard_concat, if_pos old]
  exact ⟨heard.protocol, same.symm ▸ heard.pool, same.symm ▸ heard.history⟩

theorem noted (heard : s.Heard receipts t) (new : ¬ s.Repeats (s.heard receipts) receipt) :
    s.Heard (receipts ++ [receipt]) (t.noted receipt) := by
  have same : s.heard (receipts ++ [receipt]) = s.heard receipts ++ [receipt] := by rw [heard_concat, if_neg new]
  refine ⟨heard.protocol, fun capsuleId => ?_, fun other => ?_⟩
  · have pool : (t.noted receipt).poolOf capsuleId = _ := poolOf_addReceipt t receipt capsuleId
    rw [pool, heard.pool, same, lastWords, lastWords, List.filter_append]
    by_cases here : receipt.capsuleId = capsuleId
    · simp [here, Dict.writeAll_append_singleton]
    · simp [here]
  · have history := mem_historyOf_addReceipt t receipt other
    rw [heard.history] at history
    refine history.trans ?_
    simp only [Repeats, same, List.mem_append, List.mem_singleton, or_and_right, exists_or, exists_eq_left, or_assoc]

end Heard

end MosaicNode

section Pair
variable (pair : KeyPair)

theorem pair_hasKey : (some pair).isSome ∨ (none : Option Bytes).isSome := Or.inl rfl

def pairMember (memberId : String) : Member := ⟨memberId, some pair, 1, none, pair_hasKey pair⟩

/-- The node of the first of two members of equal weight. -/
def pairConfig : NodeConfig where
  nodeId := "v"
  maxPendingCapsules := 10000
  members := (Dict.empty.set "v" (pairMember pair "v")).set "w" (pairMember pair "w")
  epoch := 0
  initialSeals := [soloSeal pair "p"]

/-- The capsule arrives and is accepted. -/
def afterPairClaim : Running := (soloClaim pair "a").exec (pairConfig pair) ((pairConfig pair).start [])

def pairReceipt (memberId : String) : WitnessReceipt :=
  Instance.signedReceipt (pairMember pair memberId) pair (soloCapsule pair "p" "a" 0) "ACCEPT"

/-- A receipt in the name of the first member without its signature. -/
def forgedReceipt : WitnessReceipt := { pairReceipt pair "v" with signature := [] }

variable {pair}

theorem afterPairClaim_node (sound : SignaturesVerify) : ∃ log, (afterPairClaim pair).node =
    { ((pairConfig pair).fresh []).setProtocol
        ((((pairConfig pair).protocol.storeCapsule (soloCapsule pair "p" "a" 0)).setLock (soloCapsule pair "p" "a" 0)
          "ACCEPT").addSigned (pairReceipt pair "v")) with
      seenCapsules := {(soloCapsule pair "p" "a" 0).capsuleId}
      log := log } := by
  have known : (pairConfig pair).protocol.knownSeals.get? (soloSeal pair "p").sealId = some (soloSeal pair "p") :=
    Dict.get?_set_self _ _ _
  have valid : (pairConfig pair).protocol.Valid (soloCapsule pair "p" "a" 0) :=
    ⟨⟨_, known, rfl⟩, rfl, Capsule.create_verifies sound _ _ _ _ _ _ _, le_rfl, (by decide : "a" ≠ "")⟩
  have head : (pairConfig pair).protocol.AtHead (soloCapsule pair "p" "a" 0) :=
    ⟨soloSeal pair "p", Option.bind_eq_some_iff.mpr ⟨_, known, Dict.get?_set_self _ _ _⟩, rfl⟩
  have found : (pairConfig pair).protocol.members.get? "v" = some (pairMember pair "v") := rfl
  have accepted := MosaicNode.onCapsule_accepts (s := (pairConfig pair).fresh []) (Finset.notMem_empty _) valid head rfl
    found rfl
  have node : (afterPairClaim pair).node = _ := final_of_ok accepted
  rw [node]
  exact ⟨_, rfl⟩

/-- The node of the first member holds the capsule and has heard of no receipt. -/
structure PairHolds (pair : KeyPair) (s : MosaicNode) : Prop where
  members : s.protocol.members = (pairConfig pair).members
  epoch : s.protocol.epoch = 0
  stored : s.protocol.capsules.get? (soloCapsule pair "p" "a" 0).capsuleId = some (soloCapsule pair "p" "a" 0)
  head : s.protocol.AtHead (soloCapsule pair "p" "a" 0)
  clean : s.protocol.hasConflictOn (soloCapsule pair "p" "a" 0).predecessorId = false
  unclosed : s.protocol.closures = .empty
  pool : s.receiptPool = .empty
  history : s.receiptHistory = .empty

theorem afterPairClaim_holds (sound : SignaturesVerify) : PairHolds pair (afterPairClaim pair).node := by
  obtain ⟨log, node⟩ := @afterPairClaim_node _ pair sound
  rw [node]
  refine ⟨rfl, rfl, Dict.get?_set_self _ _ _, ?_, rfl, rfl, rfl, rfl⟩
  exact ⟨soloSeal pair "p",
    Option.bind_eq_some_iff.mpr ⟨_, Dict.get?_set_self _ _ _, Dict.get?_set_self _ _ _⟩, rfl⟩

namespace PairHolds

variable {s : MosaicNode} {memberId : String}

theorem known (holds : PairHolds pair s) (either : memberId = "v" ∨ memberId = "w") :
    s.protocol.members.get? memberId = some (pairMember pair memberId) := by
  rw [holds.members]
  rcases either with rfl | rfl <;> rfl

theorem threshold (holds : PairHolds pair s) : s.protocol.threshold = 2 := by
  have total : s.protocol.totalWeight = 2 := by
    rw [MosaicProtocol.totalWeight, holds.members]
    rfl
  rw [MosaicProtocol.threshold, total]

theorem weightOf (holds : PairHolds pair s) (either : memberId = "v" ∨ memberId = "w") :
    s.protocol.weightOf memberId = 1 := by
  simp [MosaicProtocol.weightOf, holds.known either, pairMember]

theorem counts (holds : PairHolds pair s) (sound : SignaturesVerify) (either : memberId = "v" ∨ memberId = "w") :
    s.protocol.Counts (soloCapsule pair "p" "a" 0) (pairReceipt pair memberId) := by
  refine ⟨verifyReceipt_iff.mpr ⟨_, _, holds.known either, holds.stored, rfl, rfl, holds.epoch.symm, rfl, ?_⟩, rfl, rfl⟩
  exact KeyPair.verify_sign sound _ _

theorem forged (holds : PairHolds pair s)
    (unsigned : ∀ message, KeyPair.verify pair.publicKey message [] = false) :
    s.protocol.verifyReceipt (forgedReceipt pair) = false := by
  rw [Bool.eq_false_iff]
  intro verified
  obtain ⟨member, stored, valid⟩ := verifyReceipt_iff.mp verified
  cases (holds.known (Or.inl rfl)).symm.trans valid.known
  cases (unsigned _).symm.trans valid.signature

/-- The last words, where every receipt is for the capsule and the pool was empty. -/
theorem lastWords (holds : PairHolds pair s) {receipts : List WitnessReceipt}
    (named : ∀ receipt ∈ receipts, receipt.capsuleId = (soloCapsule pair "p" "a" 0).capsuleId) :
    s.lastWords (soloCapsule pair "p" "a" 0).capsuleId receipts =
      Dict.empty.writeAll WitnessReceipt.witnessId receipts := by
  have empty : s.poolOf (soloCapsule pair "p" "a" 0).capsuleId = .empty := by
    rw [poolOf, holds.pool]
    rfl
  rw [MosaicNode.lastWords, empty, List.filter_eq_self.mpr]
  exact fun receipt member => decide_eq_true (named receipt member)

theorem weight (holds : PairHolds pair s) {receipts : List WitnessReceipt}
    (named : ∀ receipt ∈ receipts, receipt.witnessId = "v" ∨ receipt.witnessId = "w") :
    s.protocol.weightOfReceipts receipts = receipts.length := by
  have ones : receipts.map (fun receipt => s.protocol.weightOf receipt.witnessId) = receipts.map fun _ => 1 :=
    List.map_congr_left fun receipt member => holds.weightOf (named receipt member)
  rw [MosaicProtocol.weightOfReceipts, ones]
  simp

/-- A forged receipt in between takes the place of the first one. -/
theorem light (holds : PairHolds pair s) (free : CollisionFree) (sound : SignaturesVerify)
    (unsigned : ∀ message, KeyPair.verify pair.publicKey message [] = false) {earlier : List WitnessReceipt}
    {last : WitnessReceipt} (here : earlier ++ [last] <+:
      s.heard [pairReceipt pair "v", forgedReceipt pair, pairReceipt pair "w"])
    (counts : s.protocol.Counts (soloCapsule pair "p" "a" 0) last) :
    ¬ s.protocol.threshold ≤ s.weightHeard (soloCapsule pair "p" "a" 0).capsuleId (earlier ++ [last]) := by
  have distinct : (pairReceipt pair "v").receiptId ≠ (forgedReceipt pair).receiptId := by
    intro same
    have field := lookup_eq_of_digest free same "signature"
    simp only [WitnessReceipt.statementFields, List.cons_append, List.nil_append, List.lookup_cons] at field
    simp [Json.sortKeys] at field
    have empty : (pairReceipt pair "v").signature = [] := hex_injective field
    have verified : KeyPair.verify pair.publicKey (canonicalBytes (pairReceipt pair "v").statement)
        (pairReceipt pair "v").signature = true := KeyPair.verify_sign sound _ _
    rw [empty, unsigned] at verified
    cases verified
  have whole : s.heard [pairReceipt pair "v", forgedReceipt pair, pairReceipt pair "w"] =
      [pairReceipt pair "v", forgedReceipt pair, pairReceipt pair "w"] := by
    have witnesses : ("v" : String) ≠ "w" := by decide
    refine heard_of_fresh holds.history (List.pairwise_cons.mpr ⟨?_, List.pairwise_pair.mpr ?_⟩)
    · refine List.forall_mem_cons.mpr ⟨fun same => distinct same.2.2, List.forall_mem_singleton.mpr ?_⟩
      exact fun same => witnesses same.2.1
    · exact fun same => witnesses same.2.1
  have unverified := holds.forged unsigned
  -- at most one of the last words is valid, of one receipt as of all three
  have first : s.weightHeard (soloCapsule pair "p" "a" 0).capsuleId [pairReceipt pair "v"] ≤ 1 := by
    rw [weightHeard, holds.lastWords (List.forall_mem_singleton.mpr rfl), holds.weight]
    · exact List.length_filter_le _ [pairReceipt pair "v"]
    · intro receipt member
      obtain ⟨one, -⟩ := List.mem_filter.mp member
      exact Or.inl (congrArg WitnessReceipt.witnessId (List.mem_singleton.mp one))
  have third : s.weightHeard (soloCapsule pair "p" "a" 0).capsuleId
      [pairReceipt pair "v", forgedReceipt pair, pairReceipt pair "w"] ≤ 1 := by
    have values : (Dict.empty.writeAll WitnessReceipt.witnessId
        [pairReceipt pair "v", forgedReceipt pair, pairReceipt pair "w"]).values =
        [forgedReceipt pair, pairReceipt pair "w"] := rfl
    rw [weightHeard, holds.lastWords (List.forall_mem_cons.mpr ⟨rfl, List.forall_mem_cons.mpr
      ⟨rfl, List.forall_mem_singleton.mpr rfl⟩⟩), values, List.filter_cons_of_neg (by simp [unverified]), holds.weight]
    · exact List.length_filter_le _ [pairReceipt pair "w"]
    · intro receipt member
      obtain ⟨one, -⟩ := List.mem_filter.mp member
      exact Or.inr (congrArg WitnessReceipt.witnessId (List.mem_singleton.mp one))
  intro heavy
  rw [whole] at here
  rw [holds.threshold] at heavy
  have short := here.length_le
  have cut := List.prefix_iff_eq_take.mp here
  rw [List.length_append, List.length_singleton] at cut short
  have lengths : earlier.length = 0 ∨ earlier.length = 1 ∨ earlier.length = 2 := by
    have three : [pairReceipt pair "v", forgedReceipt pair, pairReceipt pair "w"].length = 3 := rfl
    omega
  rcases lengths with none | one | two
  · rw [cut, none] at heavy
    exact absurd (le_trans heavy first) (by decide)
  · rw [one] at cut
    obtain ⟨-, same⟩ := List.append_inj' (cut.trans (rfl : _ = [pairReceipt pair "v"] ++ [forgedReceipt pair])) rfl
    cases List.singleton_inj.mp same
    cases unverified.symm.trans counts.1
  · rw [cut, two] at heavy
    exact absurd (le_trans heavy third) (by decide)

end PairHolds

theorem afterPairClaim_life : Life (pairConfig pair) (fun _ _ => True) (afterPairClaim pair) :=
  .of_inputs (fun _ _ => trivial) [soloClaim pair "a"]

end Pair

end Mosaic
