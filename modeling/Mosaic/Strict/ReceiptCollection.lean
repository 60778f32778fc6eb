import Mosaic.Strict.ReceiptCounting
import Mosaic.ReceiptCollection

namespace Mosaic.Strict
open CanonicalJson Effects Instance MosaicProtocol MosaicNode

variable [Crypto] [Texts] [Keyring]

/-- The receipts of a pool that count, looked at one after the other, the status first. -/
def validIn (s : MosaicProtocol) : List WitnessReceipt → Except PyError (List WitnessReceipt)
  | [] => return []
  | receipt :: receipts => do
    let verified ← (if receipt.status = "ACCEPT" then verifyReceipt s receipt else pure false)
    let rest ← validIn s receipts
    return if verified then receipt :: rest else rest

def validPool (s : MosaicNode) (capsuleId : String) : Except PyError (List WitnessReceipt) :=
  validIn s.protocol.toMosaicProtocol (s.poolOf capsuleId).values

def persistClosure (capsule : Capsule) (closure : ClosureProof) : PyNode PUnit := do
  perform (.put (.closure closure))
  let s ← get
  let predecessor ← onProtocol (lookupKey s.protocol.knownSeals capsule.predecessorId)
  let current ← onProtocol (lookupKey s.protocol.currentSeals predecessor.resourceId)
  let _ ← ofExcept (sealId predecessor)
  perform (.put (.sealKnown predecessor))
  let _ ← ofExcept (sealId current)
  perform (.put (.sealKnown current))
  perform (.put (.sealCurrent current))

def settle (capsule : Capsule) (closure : ClosureProof) : PyNode PUnit := do
  onProtocol (registerClosure capsule closure)
  let _ ← onProtocol (apply capsule closure)
  persistClosure capsule closure

def tryClose (capsule : Capsule) : PyNode (List Frame) := do
  let s ← get
  if s.protocol.closures.contains capsule.capsuleId then do
    finishPending capsule.capsuleId
    return []
  else do
    let valid ← ofExcept (validPool s capsule.capsuleId)
    let weight := s.protocol.weightOfReceipts valid
    if weight < s.protocol.threshold then
      return []
    else do
      let closed ← outcome (do
        let closure ← ofExcept (createdClosure valid)
        settle capsule closure
        return closure)
      match closed with
      | .error _ => return []
      | .ok closure => do
        let s ← get
        if closure.proofId ∈ s.emittedClosures then do
          finishPending capsule.capsuleId
          return []
        else do
          modify (·.addEmitted closure.proofId)
          broadcast (.closure capsule closure) [.finish capsule.capsuleId]

/-- The receipt is written to the pool once it has an identifier, and looked at after that. -/
def onReceipt (receipt : WitnessReceipt) : PyNode (List Frame) := do
  let s ← get
  let id ← ofExcept (receiptId receipt)
  if id ∈ s.historyOf receipt then
    return []
  else do
    modify (·.addReceipt receipt)
    persistReceipt receipt
    let s ← get
    match s.protocol.capsules.get? receipt.capsuleId with
    | none => return []
    | some capsule => do
      let verified ← ofExcept (verifyReceipt s.protocol.toMosaicProtocol receipt)
      if verified then tryClose capsule else return []

section Pool
variable {s : MosaicProtocol} {receipts : List WitnessReceipt}

/-- The acceptances among the receipts can be looked at. -/
def AcceptsReadable (s : MosaicProtocol) (receipts : List WitnessReceipt) : Prop :=
  ∀ receipt ∈ receipts, receipt.status = "ACCEPT" → Readable s receipt

theorem validIn_of_readable (readable : AcceptsReadable s receipts) :
    validIn s receipts = .ok (receipts.filter fun receipt => receipt.status = "ACCEPT" && s.verifyReceipt receipt) := by
  induction receipts with
  | nil => rfl
  | cons receipt receipts ih =>
    obtain ⟨first, later⟩ := List.forall_mem_cons.mp readable
    unfold validIn
    rw [ih later, List.filter_cons]
    by_cases accepting : receipt.status = "ACCEPT"
    · rw [if_pos accepting, verifyReceipt_of_readable (first accepting)]
      simp only [accepting, decide_true, Bool.true_and]
      rfl
    · rw [if_neg accepting]
      simp only [accepting, decide_false, Bool.false_and]
      rfl

theorem validIn_raises (unreadable : ¬ AcceptsReadable s receipts) : ∃ e, validIn s receipts = .error e := by
  induction receipts with
  | nil => exact absurd (fun receipt member => (nomatch member)) unreadable
  | cons receipt receipts ih =>
    unfold validIn
    by_cases first : receipt.status = "ACCEPT" → Readable s receipt
    · have later : ¬ AcceptsReadable s receipts := fun later => unreadable (List.forall_mem_cons.mpr ⟨first, later⟩)
      obtain ⟨e, raised⟩ := ih later
      rw [raised]
      by_cases accepting : receipt.status = "ACCEPT"
      · exact ⟨e, by rw [if_pos accepting, verifyReceipt_of_readable (first accepting)]; rfl⟩
      · exact ⟨e, by rw [if_neg accepting]; rfl⟩
    · push Not at first
      obtain ⟨accepting, bad⟩ := first
      rcases verifyReceipt_cases s receipt with ⟨readable, -⟩ | ⟨-, e, raised⟩
      · exact absurd readable bad
      · exact ⟨e, by rw [if_pos accepting, raised]; rfl⟩

end Pool

variable {s t : MosaicNode} {receipt : WitnessReceipt} {capsule : Capsule} {closure : ClosureProof}

theorem onReceipt_unnamed (bad : ¬ (idStatement receipt).Encodable) :
    onReceipt receipt s = .error .unicodeEncodeError s := by
  have raised : receiptId receipt = .error .unicodeEncodeError := digest_of_not bad
  unfold onReceipt
  rw [get_bind_apply, raised]
  rfl

theorem onReceipt_repeats (fine : (idStatement receipt).Encodable) (old : receipt.receiptId ∈ s.historyOf receipt) :
    onReceipt receipt s = .ok [] s := by
  unfold onReceipt
  rw [get_bind_apply, receiptId_eq_ok.mpr ⟨fine, rfl⟩, ofExcept_ok_bind, if_pos old]
  rfl

theorem onReceipt_new (fine : (idStatement receipt).Encodable) (new : receipt.receiptId ∉ s.historyOf receipt) :
    onReceipt receipt s = (match s.protocol.capsules.get? receipt.capsuleId with
      | none => pure []
      | some capsule => do
        let verified ← ofExcept (verifyReceipt s.protocol.toMosaicProtocol receipt)
        if verified then tryClose capsule else return []) (s.noted receipt) := by
  unfold onReceipt
  rw [get_bind_apply, receiptId_eq_ok.mpr ⟨fine, rfl⟩, ofExcept_ok_bind, if_neg new]
  rfl

/-- A receipt that fails is noted and nothing else, whether or not it is refused by an error. -/
theorem onReceipt_fails (fine : (idStatement receipt).Encodable) (new : receipt.receiptId ∉ s.historyOf receipt)
    (fails : verifyReceipt s.protocol.toMosaicProtocol receipt ≠ .ok true) :
    final (onReceipt receipt) s = s.noted receipt := by
  unfold final
  rw [onReceipt_new fine new]
  cases s.protocol.capsules.get? receipt.capsuleId with
  | none => rfl
  | some capsule =>
    cases checked : verifyReceipt s.protocol.toMosaicProtocol receipt with
    | error e => rfl
    | ok verified =>
      rw [checked] at fails
      cases verified with
      | false => rfl
      | true => exact absurd rfl fails

theorem onReceipt_counts (fine : (idStatement receipt).Encodable) (new : receipt.receiptId ∉ s.historyOf receipt)
    (stored : s.protocol.capsules.get? capsule.capsuleId = some capsule)
    (counting : Counts s.protocol.toMosaicProtocol capsule receipt) :
    onReceipt receipt s = tryClose capsule (s.noted receipt) := by
  obtain ⟨verified, -, named⟩ := counting
  rw [onReceipt_new fine new, named, stored]
  dsimp only
  rw [verified]
  rfl

theorem tryClose_unreadable (unclosed : s.protocol.closures.contains capsule.capsuleId = false)
    (bad : ¬ AcceptsReadable s.protocol.toMosaicProtocol (s.poolOf capsule.capsuleId).values) :
    ∃ e, tryClose capsule s = .error e s := by
  obtain ⟨e, raised⟩ := validIn_raises bad
  refine ⟨e, ?_⟩
  unfold tryClose validPool
  rw [get_bind_apply, if_neg (by rw [unclosed]; decide), raised]
  rfl

theorem tryClose_light (unclosed : s.protocol.closures.contains capsule.capsuleId = false)
    (readable : AcceptsReadable s.protocol.toMosaicProtocol (s.poolOf capsule.capsuleId).values)
    (light : s.protocol.weightOfReceipts (s.validPool capsule.capsuleId) < s.protocol.threshold) :
    tryClose capsule s = .ok [] s := by
  unfold tryClose validPool
  rw [get_bind_apply, if_neg (by rw [unclosed]; decide), validIn_of_readable readable, ofExcept_ok_bind]
  exact congrFun (if_pos light) s

theorem Pooled.counts (pooled : s.Pooled)
    (readable : AcceptsReadable s.protocol.toMosaicProtocol (s.poolOf capsule.capsuleId).values)
    (member : receipt ∈ s.validPool capsule.capsuleId) : Counts s.protocol.toMosaicProtocol capsule receipt := by
  have counting := MosaicNode.Pooled.counts pooled member
  exact counts_iff.mpr ⟨readable receipt (List.mem_of_mem_filter member) counting.2.1, counting⟩

omit [Texts] [Keyring] in
theorem contains_registering (s : Instance) (capsule : Capsule) (closure : ClosureProof) {capsuleId : String}
    (closed : s.closures.contains capsuleId = true) : (registering s capsule closure).closures.contains capsuleId = true := by
  unfold registering
  split
  · exact closed
  · exact Dict.contains_set closed

/-- Whatever becomes of an application, what is closed stays closed. -/
theorem apply_staysClosed (capsuleId : String) (u : Instance) :
    Guarantees (fun p q : Instance => p.closures.contains capsuleId = true → q.closures.contains capsuleId = true) u
      (apply capsule closure) (fun _ _ => True) := by
  have outcome := apply_outcome u capsule closure
  generalize ran : apply capsule closure u = result at outcome
  cases outcome with
  | refused e => exact .of_error ran fun closed => closed
  | stopped e => exact .of_error ran (contains_registering u capsule closure)
  | torn current => exact .of_error ran (contains_registering u capsule closure)
  | installed current => exact .of_ok ran (contains_registering u capsule closure) trivial
  | known current => exact .of_ok ran (contains_registering u capsule closure) trivial

/-- A capsule that is closed stays closed, and the pools stay in order. -/
structure Keeps (capsuleId : String) (s t : MosaicNode) : Prop where
  closed : s.protocol.closures.contains capsuleId = true → t.protocol.closures.contains capsuleId = true
  pooled : s.Pooled → t.Pooled

omit [Texts] [Keyring] in
theorem Keeps.of_same {capsuleId : String} (protocol : t.protocol = s.protocol) (pool : t.receiptPool = s.receiptPool) :
    Keeps capsuleId s t :=
  ⟨fun closed => protocol ▸ closed, fun pooled => pooled.congr pool⟩

instance (capsuleId : String) : Std.Refl (Keeps capsuleId) := ⟨fun _ => .of_same rfl rfl⟩

instance (capsuleId : String) : IsTrans MosaicNode (Keeps capsuleId) :=
  ⟨fun _ _ _ first second => ⟨fun closed => second.closed (first.closed closed), fun pooled => second.pooled (first.pooled pooled)⟩⟩

section Kept
variable (capsuleId : String)

omit [Texts] [Keyring] in
theorem perform_keeps (effect : Effect) : Guarantees (Keeps capsuleId) s (perform effect) (fun _ _ => True) :=
  .update (.of_same rfl rfl) trivial

omit [Texts] [Keyring] in
theorem finishPending_keeps (closing : String) :
    Guarantees (Keeps capsuleId) s (finishPending closing) (fun _ _ => True) :=
  (@finishPending_guarantees _ s s (.finish closing) closing).weaken fun _ trace =>
    ⟨fun closed => trace.closures_contains closed, fun pooled => trace.keeps_pooled pooled⟩

omit [Keyring] in
theorem persistClosure_keeps : Guarantees (Keeps capsuleId) s (persistClosure capsule closure) (fun _ _ => True) := by
  unfold persistClosure
  refine .bind (perform_keeps _ _) fun _ t _ _ => .get_bind ?_
  refine .read_bind (lookup_guarantees _ _) fun predecessor _ => ?_
  refine .read_bind (lookup_guarantees _ _) fun current _ => ?_
  refine .ofExcept_bind fun _ _ => .bind (perform_keeps _ _) fun _ u _ _ => ?_
  exact .ofExcept_bind fun _ _ => .bind (perform_keeps _ _) fun _ v _ _ => perform_keeps _ _

/-- What follows the registration of a closure. -/
theorem applied_keeps : Guarantees (Keeps capsuleId) s (do
    let _ ← onProtocol (apply capsule closure)
    persistClosure capsule closure) (fun _ _ => True) :=
  .bind ((apply_staysClosed capsuleId s.protocol).onPart fun _ keeps => ⟨keeps, fun pooled => pooled.congr rfl⟩)
    fun _ _ _ _ => persistClosure_keeps capsuleId

theorem registerClosure_keeps :
    Guarantees (Keeps capsuleId) s (onProtocol (registerClosure capsule closure)) (fun _ _ => True) := by
  refine ((registerClosure_guarantees closure).onPart fun p once => ?_).mono fun _ _ _ _ => trivial
  refine ⟨fun closed => ?_, fun pooled => pooled.congr rfl⟩
  rcases once with same | ⟨event, -, update⟩
  · exact same ▸ closed
  · exact update.closures_contains closed

theorem settle_keeps : Guarantees (Keeps capsuleId) s (settle capsule closure) (fun _ _ => True) :=
  .bind (registerClosure_keeps capsuleId) fun _ _ _ _ => applied_keeps capsuleId

theorem tryClose_keeps : Guarantees (Keeps capsuleId) s (tryClose capsule) (fun _ _ => True) := by
  unfold tryClose
  refine .get_bind ?_
  split
  · exact .bind (finishPending_keeps _ _) fun _ _ _ _ => .pure trivial
  refine .ofExcept_bind fun valid _ => ?_
  dsimp only
  split
  · exact .pure trivial
  have closed : Guarantees (Keeps capsuleId) s (do
      let closure ← ofExcept (createdClosure valid)
      settle capsule closure
      return closure : PyNode ClosureProof) (fun _ _ => True) :=
    .ofExcept_bind fun closure _ => .bind (settle_keeps capsuleId) fun _ _ _ _ => .pure trivial
  refine closed.outcome.bind fun closed t _ _ => ?_
  cases closed with
  | error e => exact .pure trivial
  | ok closure =>
    refine .get_bind ?_
    split
    · exact .bind (finishPending_keeps _ _) fun _ _ _ _ => .pure trivial
    · exact .of_ok rfl (.of_same rfl rfl) trivial

theorem onReceipt_keeps : Guarantees (Keeps capsuleId) s (onReceipt receipt) (fun _ _ => True) := by
  unfold onReceipt
  refine .get_bind (.ofExcept_bind fun id _ => ?_)
  split
  · exact .pure trivial
  refine .of_run (t := s.noted receipt) (y := do
    let s ← get
    match s.protocol.capsules.get? receipt.capsuleId with
    | none => return []
    | some capsule => do
      let verified ← ofExcept (verifyReceipt s.protocol.toMosaicProtocol receipt)
      if verified then tryClose capsule else return []) rfl
    ⟨fun closed => closed, fun pooled => pooled.set receipt rfl⟩ (.get_bind ?_)
  split
  · exact .pure trivial
  · refine .ofExcept_bind fun verified _ => ?_
    split
    · exact tryClose_keeps capsuleId
    · exact .pure trivial

end Kept

/-- A verified closure is registered, and whatever happens after that it stays so. -/
theorem settle_closes (verified : verifyClosure s.protocol.toMosaicProtocol capsule closure = .ok true)
    (clean : s.protocol.hasConflictOn capsule.predecessorId = false)
    (unclosed : s.protocol.closures.contains capsule.capsuleId = false) :
    Guarantees (fun _ t => t.protocol.closures.contains capsule.capsuleId = true) s (settle capsule closure)
      (fun _ _ => True) := by
  have registered := registerClosure_of_ok verified clean (by rw [unclosed]; decide)
  have here : (s.protocol.addClosure capsule closure).closures.contains capsule.capsuleId = true :=
    Dict.contains_iff.mpr ⟨closure, Dict.get?_set_self _ _ _⟩
  have first : Guarantees (fun _ t => t.protocol.closures.contains capsule.capsuleId = true) s
      (onProtocol (registerClosure capsule closure)) (fun _ _ => True) :=
    .of_ok (onProtocol_ok registered) here trivial
  exact (first.seq fun _ _ _ _ => applied_keeps capsule.capsuleId).weaken fun t ⟨u, closed, keeps⟩ => keeps.closed closed

/-- The acceptances in the pool of a capsule can be looked at, and the valid ones carry the
threshold. -/
def Carries (s : MosaicNode) (capsule : Capsule) : Prop :=
  AcceptsReadable s.protocol.toMosaicProtocol (s.poolOf capsule.capsuleId).values ∧
    s.protocol.threshold ≤ s.protocol.weightOfReceipts (s.validPool capsule.capsuleId)

/-- A pool that carries the threshold closes the capsule, whether or not the
closure can be applied. -/
theorem tryClose_heavy (digests : DigestsEncode) (pooled : s.Pooled)
    (unclosed : s.protocol.closures.contains capsule.capsuleId = false)
    (clean : s.protocol.hasConflictOn capsule.predecessorId = false)
    (stored : s.protocol.capsules.get? capsule.capsuleId = some capsule)
    (carries : Carries s capsule) : (final (tryClose capsule) s).protocol.closures.contains capsule.capsuleId = true := by
  obtain ⟨readable, heavy⟩ := carries
  have counting : ∀ receipt ∈ s.validPool capsule.capsuleId, Counts s.protocol.toMosaicProtocol capsule receipt :=
    fun receipt => Pooled.counts pooled readable
  obtain ⟨made, -⟩ := pooled.closable clean stored heavy
  rw [← createdClosure_of_encodable digests fun receipt member => (counting receipt member).encodable] at made
  have verified := verifyClosure_of_counts digests stored (pooled.distinct _) counting heavy
  have valid : validPool s capsule.capsuleId = .ok (s.validPool capsule.capsuleId) := validIn_of_readable readable
  generalize closureOver capsule (s.validPool capsule.capsuleId) = closure at made verified
  have closes : Guarantees (fun _ t => t.protocol.closures.contains capsule.capsuleId = true) s (do
      let closure ← ofExcept (createdClosure (s.validPool capsule.capsuleId))
      settle capsule closure
      return closure : PyNode ClosureProof) (fun _ _ => True) := by
    rw [made]
    exact ((settle_closes verified clean unclosed).seq (S := Eq) fun _ t _ _ => .pure trivial).weaken
      fun t ⟨u, closed, same⟩ => same ▸ closed
  have whole : Guarantees (Relation.Comp (fun _ t => t.protocol.closures.contains capsule.capsuleId = true)
      (Keeps capsule.capsuleId)) s (tryClose capsule) (fun _ _ => True) := by
    unfold tryClose
    refine .get_bind ?_
    have read : (ofExcept (validPool s capsule.capsuleId) : PyNode _) = pure (s.validPool capsule.capsuleId) := by
      rw [valid]
      rfl
    rw [if_neg (by rw [unclosed]; decide), read, pure_bind, if_neg (not_lt.mpr heavy)]
    refine closes.outcome.seq fun closed t _ _ => ?_
    cases closed with
    | error e => exact .pure trivial
    | ok closure =>
      refine .get_bind ?_
      split
      · exact .bind (finishPending_keeps _ _) fun _ _ _ _ => .pure trivial
      · exact .of_ok rfl (.of_same rfl rfl) trivial
  obtain ⟨t, closed, keeps⟩ := whole.moves
  exact keeps.closed closed

/-- The capsule is closed, or its pool does not carry it and nothing happens. -/
theorem tryClose_decides (digests : DigestsEncode) (pooled : s.Pooled)
    (unclosed : s.protocol.closures.contains capsule.capsuleId = false)
    (clean : s.protocol.hasConflictOn capsule.predecessorId = false)
    (stored : s.protocol.capsules.get? capsule.capsuleId = some capsule) :
    (Carries s capsule ∧ (final (tryClose capsule) s).protocol.closures.contains capsule.capsuleId = true) ∨
      ¬ Carries s capsule ∧ final (tryClose capsule) s = s := by
  by_cases readable : AcceptsReadable s.protocol.toMosaicProtocol (s.poolOf capsule.capsuleId).values
  · by_cases heavy : s.protocol.threshold ≤ s.protocol.weightOfReceipts (s.validPool capsule.capsuleId)
    · exact Or.inl ⟨⟨readable, heavy⟩, tryClose_heavy digests pooled unclosed clean stored ⟨readable, heavy⟩⟩
    · refine Or.inr ⟨fun carries => heavy carries.2, ?_⟩
      exact final_of_ok (tryClose_light unclosed readable (not_le.mp heavy))
  · obtain ⟨e, raised⟩ := tryClose_unreadable unclosed readable
    exact Or.inr ⟨fun carries => readable carries.1, final_of_error raised⟩

/-- The receipts that have an identifier. -/
def named (receipts : List WitnessReceipt) : List WitnessReceipt :=
  receipts.filter fun receipt => (idStatement receipt).Encodable

/-- At some time a receipt that counts is heard for the first time, no acceptance among the
last words of the witnesses raises an error then, and those that are valid carry the
threshold. -/
def Outweighs (s : MosaicNode) (capsule : Capsule) (receipts : List WitnessReceipt) : Prop :=
  ∃ earlier receipt, earlier ++ [receipt] <+: s.heard (named receipts) ∧
    Counts s.protocol.toMosaicProtocol capsule receipt ∧
    AcceptsReadable s.protocol.toMosaicProtocol (s.lastWords capsule.capsuleId (earlier ++ [receipt])).values ∧
    s.protocol.threshold ≤ s.weightHeard capsule.capsuleId (earlier ++ [receipt])

section Collected
variable {receipts : List WitnessReceipt}

omit [Crypto] [Keyring] in
theorem named_concat_pos (fine : (idStatement receipt).Encodable) :
    named (receipts ++ [receipt]) = named receipts ++ [receipt] := by
  rw [named, List.filter_append, List.filter_cons_of_pos (by simpa using fine)]
  rfl

omit [Crypto] [Keyring] in
theorem named_concat_neg (bad : ¬ (idStatement receipt).Encodable) : named (receipts ++ [receipt]) = named receipts := by
  rw [named, List.filter_append, List.filter_cons_of_neg (by simpa using bad), List.filter_nil, List.append_nil]
  rfl

theorem Outweighs.concat (outweighs : Outweighs s capsule receipts) (receipt : WitnessReceipt) :
    Outweighs s capsule (receipts ++ [receipt]) := by
  obtain ⟨earlier, last, here, rest⟩ := outweighs
  refine ⟨earlier, last, here.trans ?_, rest⟩
  by_cases fine : (idStatement receipt).Encodable
  · rw [named_concat_pos fine, heard_concat]
    split
    · exact List.prefix_refl _
    · exact List.prefix_append _ _
  · rw [named_concat_neg fine]

theorem outweighs_concat (fine : (idStatement receipt).Encodable) (new : ¬ s.Repeats (s.heard (named receipts)) receipt) :
    Outweighs s capsule (receipts ++ [receipt]) ↔ Outweighs s capsule receipts ∨
      Counts s.protocol.toMosaicProtocol capsule receipt ∧
        AcceptsReadable s.protocol.toMosaicProtocol
          (s.lastWords capsule.capsuleId (s.heard (named receipts) ++ [receipt])).values ∧
        s.protocol.threshold ≤ s.weightHeard capsule.capsuleId (s.heard (named receipts) ++ [receipt]) := by
  have longer : s.heard (named (receipts ++ [receipt])) = s.heard (named receipts) ++ [receipt] := by
    rw [named_concat_pos fine, heard_concat, if_neg new]
  constructor
  · rintro ⟨earlier, last, here, rest⟩
    rw [longer, List.prefix_concat_iff] at here
    rcases here with whole | before
    · obtain ⟨rfl, same⟩ := List.append_inj' whole rfl
      cases List.singleton_inj.mp same
      exact Or.inr rest
    · exact Or.inl ⟨earlier, last, before, rest⟩
  · rintro (before | rest)
    · exact before.concat receipt
    · exact ⟨s.heard (named receipts), receipt, by rw [longer], rest⟩

/-- Receipts that are not heard change nothing of what is outweighed. -/
theorem outweighs_concat_of_same (same : s.heard (named (receipts ++ [receipt])) = s.heard (named receipts)) :
    Outweighs s capsule (receipts ++ [receipt]) ↔ Outweighs s capsule receipts := by
  unfold Outweighs
  rw [same]

/-- A receipt that counts towards a closure of the capsule, or that does not verify. -/
def Expects (s : MosaicNode) (capsule : Capsule) (receipt : WitnessReceipt) : Prop :=
  Counts s.protocol.toMosaicProtocol capsule receipt ∨ verifyReceipt s.protocol.toMosaicProtocol receipt ≠ .ok true

/-- Receipts that arrive one after the other; what a handler raises the node drops. -/
def receiveReceipts (receipts : List WitnessReceipt) (s : MosaicNode) : MosaicNode :=
  receipts.foldl (fun s receipt => final (onReceipt receipt) s) s

theorem receiveReceipts_concat (receipts : List WitnessReceipt) (receipt : WitnessReceipt) (s : MosaicNode) :
    receiveReceipts (receipts ++ [receipt]) s = final (onReceipt receipt) (receiveReceipts receipts s) := by
  simp only [receiveReceipts, List.foldl_append, List.foldl_cons, List.foldl_nil]

/-- After each receipt the capsule is closed and the last words have carried the
threshold, or they have not and only pools and history have changed. -/
theorem onReceipt_collects (digests : DigestsEncode) (heard : s.Heard (named receipts) t)
    (light : ¬ Outweighs s capsule receipts) (pooled : t.Pooled)
    (unclosed : s.protocol.closures.contains capsule.capsuleId = false)
    (clean : s.protocol.hasConflictOn capsule.predecessorId = false)
    (stored : s.protocol.capsules.get? capsule.capsuleId = some capsule) (expects : Expects s capsule receipt) :
    ((final (onReceipt receipt) t).protocol.closures.contains capsule.capsuleId = true ∧
        Outweighs s capsule (receipts ++ [receipt])) ∨
      s.Heard (named (receipts ++ [receipt])) (final (onReceipt receipt) t) ∧
        ¬ Outweighs s capsule (receipts ++ [receipt]) := by
  by_cases fine : (idStatement receipt).Encodable
  swap
  · -- the error is raised before anything is written down
    have same := @named_concat_neg _ receipt receipts fine
    rw [final_of_error (onReceipt_unnamed fine), outweighs_concat_of_same (by rw [same]), same]
    exact Or.inr ⟨heard, light⟩
  by_cases old : s.Repeats (s.heard (named receipts)) receipt
  · have same : s.heard (named (receipts ++ [receipt])) = s.heard (named receipts) := by
      rw [named_concat_pos fine, heard_concat, if_pos old]
    rw [final_of_ok (onReceipt_repeats fine ((heard.history receipt).mpr old)), outweighs_concat_of_same same,
      named_concat_pos fine]
    exact Or.inr ⟨heard.repeats old, light⟩
  have new : receipt.receiptId ∉ t.historyOf receipt := fun member => old ((heard.history receipt).mp member)
  have after := heard.noted old
  rw [outweighs_concat fine old, named_concat_pos fine]
  rcases expects with counting | invalid
  · have ran : final (onReceipt receipt) t = final (tryClose capsule) (t.noted receipt) := by
      rw [final, onReceipt_counts fine new (heard.protocol ▸ stored) (heard.protocol ▸ counting), final]
    have decides := @tryClose_decides _ _ _ (t.noted receipt) capsule digests (pooled.set receipt rfl)
      (after.protocol ▸ unclosed) (after.protocol ▸ clean) (after.protocol ▸ stored)
    have carries : Carries (t.noted receipt) capsule ↔ _ ∧ _ := Iff.rfl
    rw [after.validPool, after.pool, heard_concat, if_neg old, after.protocol] at carries
    rw [ran, ← carries]
    rcases decides with ⟨carried, closed⟩ | ⟨light', same⟩
    · exact Or.inl ⟨closed, Or.inr ⟨counting, carried⟩⟩
    · rw [same]
      refine Or.inr ⟨after, ?_⟩
      rintro (before | ⟨-, carried⟩)
      · exact light before
      · exact light' carried
  · rw [onReceipt_fails fine new (heard.protocol ▸ invalid)]
    refine Or.inr ⟨after, ?_⟩
    rintro (before | ⟨⟨verified, -⟩, -⟩)
    · exact light before
    · exact invalid verified

theorem receiveReceipts_keeps (capsuleId : String) (receipts : List WitnessReceipt) (s : MosaicNode) :
    Keeps capsuleId s (receiveReceipts receipts s) := by
  induction receipts using List.reverseRecOn with
  | nil => exact Std.Refl.refl s
  | append_singleton receipts receipt ih =>
    rw [receiveReceipts_concat]
    exact IsTrans.trans _ _ _ ih (onReceipt_keeps capsuleId).moves

theorem receiveReceipts_collects (digests : DigestsEncode) (pooled : s.Pooled)
    (unclosed : s.protocol.closures.contains capsule.capsuleId = false)
    (clean : s.protocol.hasConflictOn capsule.predecessorId = false)
    (stored : s.protocol.capsules.get? capsule.capsuleId = some capsule)
    (expects : ∀ receipt ∈ receipts, Expects s capsule receipt) :
    ((receiveReceipts receipts s).protocol.closures.contains capsule.capsuleId = true ∧
        Outweighs s capsule receipts) ∨
      s.Heard (named receipts) (receiveReceipts receipts s) ∧ ¬ Outweighs s capsule receipts := by
  -- the last receipt of the list is the last one to arrive
  induction receipts using List.reverseRecOn with
  | nil =>
    refine Or.inr ⟨.nil _, ?_⟩
    rintro ⟨earlier, last, here, -⟩
    have short := here.length_le
    simp [named, heard] at short
  | append_singleton receipts receipt ih =>
    rw [receiveReceipts_concat]
    rcases ih fun r member => expects r (List.mem_append_left _ member) with ⟨closed, outweighs⟩ | ⟨heard, light⟩
    · exact Or.inl ⟨(onReceipt_keeps _).moves.closed closed, outweighs.concat receipt⟩
    · have pooled' := (receiveReceipts_keeps capsule.capsuleId receipts s).pooled pooled
      exact onReceipt_collects digests heard light pooled' unclosed clean stored (expects receipt (by simp))

/-- A node that holds a capsule without conflict evidence closes it on some
receipts exactly when the last words that it hears of the witnesses raise no error and
carry the threshold at some valid receipt. -/
theorem receipts_close_iff (digests : DigestsEncode) (pooled : s.Pooled)
    (stored : s.protocol.capsules.get? capsule.capsuleId = some capsule)
    (clean : s.protocol.hasConflictOn capsule.predecessorId = false)
    (expects : ∀ receipt ∈ receipts, Expects s capsule receipt) :
    (receiveReceipts receipts s).protocol.closures.contains capsule.capsuleId = true ↔
      s.protocol.closures.contains capsule.capsuleId = true ∨ Outweighs s capsule receipts := by
  cases unclosed : s.protocol.closures.contains capsule.capsuleId with
  | true => exact iff_of_true ((receiveReceipts_keeps _ receipts s).closed unclosed) (Or.inl rfl)
  | false =>
    rw [or_iff_right (by decide)]
    rcases receiveReceipts_collects digests pooled unclosed clean stored expects with
      ⟨closed, outweighs⟩ | ⟨heard, light⟩
    · exact iff_of_true closed outweighs
    · refine iff_of_false ?_ light
      rw [heard.protocol, unclosed]
      decide

end Collected

section Pair
variable (pair : KeyPair) (texts : AllEncode) (keys : AllKeyed)

omit texts keys in
/-- Enough valid receipts for a capsule that a node holds close it, whatever else
arrives that does not verify. -/
def ReceiptsClose : Prop :=
  ∀ (config : NodeConfig) (s : Running), Life config (fun _ _ => True) s → ∀ capsule : Capsule,
    s.node.protocol.capsules.get? capsule.capsuleId = some capsule → s.node.protocol.AtHead capsule →
    s.node.protocol.hasConflictOn capsule.predecessorId = false →
    ∀ receipts genuine : List WitnessReceipt, (∀ receipt ∈ receipts, Expects s.node capsule receipt) →
      (∀ receipt ∈ genuine, receipt ∈ receipts ∧ Counts s.node.protocol.toMosaicProtocol capsule receipt) →
      (genuine.map WitnessReceipt.witnessId).Nodup →
      s.node.protocol.threshold ≤ s.node.protocol.weightOfReceipts genuine →
      (receiveReceipts receipts s.node).protocol.closures.contains capsule.capsuleId = true

include texts

omit [Crypto] [Keyring] keys in
theorem named_plain (receipts : List WitnessReceipt) : named receipts = receipts :=
  List.filter_eq_self.mpr fun _ _ => decide_eq_true fun text _ => texts text

include keys

variable {pair} {memberId : String}

theorem pairReceipt_counts (holds : PairHolds pair s) (sound : SignaturesVerify) (either : memberId = "v" ∨ memberId = "w") :
    Counts s.protocol.toMosaicProtocol (soloCapsule pair "p" "a" 0) (pairReceipt pair memberId) :=
  counts_iff.mpr ⟨readable_plain texts keys _ _, holds.counts sound either⟩

/-- The two receipts close the capsule. -/
theorem pair_outweighs (holds : PairHolds pair s) (sound : SignaturesVerify) :
    Outweighs s (soloCapsule pair "p" "a" 0) [pairReceipt pair "v", pairReceipt pair "w"] := by
  have whole : s.heard (named [pairReceipt pair "v", pairReceipt pair "w"]) =
      [pairReceipt pair "v", pairReceipt pair "w"] := by
    rw [named_plain texts]
    refine heard_of_fresh holds.history (List.pairwise_pair.mpr ?_)
    rintro ⟨-, witness, -⟩
    exact absurd witness (by decide : ("v" : String) ≠ "w")
  refine ⟨[pairReceipt pair "v"], pairReceipt pair "w", ?_, pairReceipt_counts texts keys holds sound (Or.inr rfl),
    fun receipt _ _ => readable_plain texts keys _ receipt, ?_⟩
  · rw [whole]
    exact List.prefix_refl _
  have words := @PairHolds.lastWords _ _ _ holds [pairReceipt pair "v", pairReceipt pair "w"]
    (List.forall_mem_cons.mpr ⟨rfl, List.forall_mem_singleton.mpr rfl⟩)
  have values : (Dict.empty.writeAll WitnessReceipt.witnessId [pairReceipt pair "v", pairReceipt pair "w"]).values =
      [pairReceipt pair "v", pairReceipt pair "w"] := rfl
  have valid : ∀ receipt ∈ [pairReceipt pair "v", pairReceipt pair "w"],
      (decide (receipt.status = "ACCEPT") && s.protocol.verifyReceipt receipt) = true := by
    have counts := List.forall_mem_cons.mpr ⟨holds.counts sound (Or.inl rfl),
      List.forall_mem_singleton.mpr (holds.counts sound (Or.inr rfl))⟩
    intro receipt member
    rw [(counts receipt member).1, (counts receipt member).2.1]
    rfl
  rw [holds.threshold, List.singleton_append, weightHeard, words, values, List.filter_eq_self.mpr valid,
    holds.weight (List.forall_mem_cons.mpr ⟨Or.inl rfl, List.forall_mem_singleton.mpr (Or.inr rfl)⟩)]
  exact le_rfl

omit [Keyring] keys in
/-- A forged receipt in between takes the place of the first one. -/
theorem pair_not_outweighs [Keyring] (holds : PairHolds pair s) (free : CollisionFree) (sound : SignaturesVerify)
    (unsigned : ∀ message, KeyPair.verify pair.publicKey message [] = false) :
    ¬ Outweighs s (soloCapsule pair "p" "a" 0) [pairReceipt pair "v", forgedReceipt pair, pairReceipt pair "w"] := by
  rintro ⟨earlier, last, here, counting, -, heavy⟩
  rw [named_plain texts] at here
  exact holds.light free sound unsigned here (counts_iff.mp counting).2 heavy

theorem pairReceipts_expected (holds : PairHolds pair s) (sound : SignaturesVerify) :
    ∀ receipt ∈ [pairReceipt pair "v", pairReceipt pair "w"], Expects s (soloCapsule pair "p" "a" 0) receipt :=
  List.forall_mem_cons.mpr ⟨Or.inl (pairReceipt_counts texts keys holds sound (Or.inl rfl)),
    List.forall_mem_singleton.mpr (Or.inl (pairReceipt_counts texts keys holds sound (Or.inr rfl)))⟩

/-- A forged receipt in the name of a member keeps its valid one from counting. -/
theorem forgedReceipt_sabotages (digests : DigestsEncode) (free : CollisionFree) (sound : SignaturesVerify)
    (unsigned : ∀ message, KeyPair.verify pair.publicKey message [] = false) : ¬ ReceiptsClose := by
  intro claimed
  have life := @afterPairClaim_life _ pair
  have holds := @afterPairClaim_holds _ pair sound
  have first := pairReceipt_counts texts keys holds sound (Or.inl rfl)
  have second := pairReceipt_counts texts keys holds sound (Or.inr rfl)
  have forged : verifyReceipt (afterPairClaim pair).node.protocol.toMosaicProtocol (forgedReceipt pair) ≠ .ok true := by
    intro verified
    exact absurd (verified_iff.mp verified).2 (by rw [holds.forged unsigned]; decide)
  have expects : ∀ receipt ∈ [pairReceipt pair "v", forgedReceipt pair, pairReceipt pair "w"],
      Expects (afterPairClaim pair).node (soloCapsule pair "p" "a" 0) receipt :=
    List.forall_mem_cons.mpr ⟨Or.inl first, List.forall_mem_cons.mpr ⟨Or.inr forged,
      List.forall_mem_singleton.mpr (Or.inl second)⟩⟩
  have unclosed : (afterPairClaim pair).node.protocol.closures.contains (soloCapsule pair "p" "a" 0).capsuleId = false := by
    rw [holds.unclosed]
    rfl
  have closed := claimed _ _ life _ holds.stored holds.head holds.clean _ [pairReceipt pair "v", pairReceipt pair "w"]
    expects ?_ ?_ ?_
  · rcases receiveReceipts_collects digests life.pooled unclosed holds.clean holds.stored expects with
      ⟨-, outweighs⟩ | ⟨heard, -⟩
    · exact pair_not_outweighs texts holds free sound unsigned outweighs
    · rw [heard.protocol, unclosed] at closed
      cases closed
  · exact List.forall_mem_cons.mpr ⟨⟨by simp, first⟩, List.forall_mem_singleton.mpr ⟨by simp, second⟩⟩
  · exact List.nodup_cons.mpr ⟨fun member => absurd (List.mem_singleton.mp member) (by decide : ("v" : String) ≠ "w"),
      List.nodup_singleton _⟩
  · rw [holds.threshold, holds.weight]
    · exact le_rfl
    · exact List.forall_mem_cons.mpr ⟨Or.inl rfl, List.forall_mem_singleton.mpr (Or.inr rfl)⟩

end Pair

omit [Crypto] [Texts] [Keyring] in
/-- The receipts of the two members close the capsule. -/
theorem receipts_close_pair : let _ := Crypto.ideal
    let _ := Texts.all
    let _ := Keyring.all
    (receiveReceipts [pairReceipt idealKey "v", pairReceipt idealKey "w"] (afterPairClaim idealKey).node
      ).protocol.closures.contains (soloCapsule idealKey "p" "a" 0).capsuleId = true := by
  intro crypto _ _
  have sound := ideal_signaturesVerify
  have texts : AllEncode := fun _ => rfl
  have keys : AllKeyed := fun _ => rfl
  have holds := @afterPairClaim_holds crypto idealKey sound
  have pooled := (@afterPairClaim_life crypto idealKey).pooled
  have expects := pairReceipts_expected texts keys holds sound
  have outweighs := pair_outweighs texts keys holds sound
  generalize (afterPairClaim idealKey).node = s at holds pooled expects outweighs ⊢
  exact (receipts_close_iff ideal_digestsEncode pooled holds.stored holds.clean expects).mpr (Or.inr outweighs)

omit [Crypto] [Texts] [Keyring] in
/-- Valid receipts that carry the threshold arrive, and the capsule stays open. -/
theorem receipts_sabotaged : ¬ ∀ [Crypto] [Texts] [Keyring], CollisionFree → SignaturesVerify → DigestsEncode →
    ReceiptsClose := by
  intro claimed
  let crypto := Crypto.ideal
  let allTexts := Texts.all
  let allKeys := Keyring.all
  have texts : AllEncode := fun _ => rfl
  have keys : AllKeyed := fun _ => rfl
  have unsigned : ∀ message, KeyPair.verify idealKey.publicKey message [] = false := fun _ => rfl
  have claim := claimed ideal_collisionFree ideal_signaturesVerify ideal_digestsEncode
  exact forgedReceipt_sabotages texts keys ideal_digestsEncode ideal_collisionFree ideal_signaturesVerify unsigned claim

end Mosaic.Strict
