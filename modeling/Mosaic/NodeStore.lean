import Mosaic.NodeCapsules
import Mosaic.OwnerAuthorisation
import Mosaic.TerminalOutcome

namespace Mosaic
open CanonicalJson Effects MosaicProtocol

variable [Crypto]

namespace Capsule

/-- Two capsules that differ at most in their signature. -/
def Alike (c d : Capsule) : Prop := ∃ signature, d = { c with clientSignature := signature }

theorem Bound.alike (free : CollisionFree) {c d : Capsule} (bound : c.Bound) (bound' : d.Bound)
    (same : c.capsuleId = d.capsuleId) : c.Alike d := by
  have content := eq_of_statement free (bound.symm.trans (same.trans bound'))
  exact ⟨d.clientSignature, by rw [← content, same]⟩

variable {c d : Capsule} {s : Instance}

omit [Crypto] in
theorem Alike.capsuleId (alike : c.Alike d) : c.capsuleId = d.capsuleId := by
  obtain ⟨signature, rfl⟩ := alike
  rfl

omit [Crypto] in
theorem Alike.predecessorId (alike : c.Alike d) : c.predecessorId = d.predecessorId := by
  obtain ⟨signature, rfl⟩ := alike
  rfl

theorem Alike.nextSeal (alike : c.Alike d) (current : StateSeal) : nextSeal current c = nextSeal current d := by
  obtain ⟨signature, rfl⟩ := alike
  rfl

theorem Alike.succeeded (alike : c.Alike d) (succeeded : s.Succeeded c) : s.Succeeded d := by
  obtain ⟨signature, rfl⟩ := alike
  exact succeeded

end Capsule

namespace MosaicProtocol

variable {p q : MosaicProtocol} {c d : Capsule} {closure : ClosureProof}

/-- Of the protocol object a closure needs the members, the epoch and the capsule. -/
theorem Accepts.congr (accepted : p.Accepts c closure) (members : q.members = p.members) (epoch : q.epoch = p.epoch)
    (stored : p.capsules.get? c.capsuleId = some c) (stored' : q.capsules.get? d.capsuleId = some d) (alike : c.Alike d) :
    q.Accepts d closure := by
  obtain ⟨capsuleId, predecessor, epoch', attempt, signers, valid, heavy, proof⟩ := accepted
  have weights : q.weightOf = p.weightOf := by
    funext w
    unfold weightOf
    rw [members]
  have threshold : q.threshold = p.threshold := by
    unfold MosaicProtocol.threshold totalWeight
    rw [members]
  obtain ⟨signature, rfl⟩ := alike
  refine ⟨capsuleId, predecessor, epoch', attempt, signers, fun receipt member => ?_, ?_, proof⟩
  · obtain ⟨verified, status, named⟩ := valid receipt member
    obtain ⟨signer, found, receiptOf⟩ := verifyReceipt_iff.mp verified
    have here : found = c := by
      have at' := receiptOf.found
      rw [named, stored] at at'
      exact (Option.some.inj at').symm
    subst here
    refine ⟨verifyReceipt_iff.mpr ⟨signer, { found with clientSignature := signature }, ?_, ?_,
      receiptOf.predecessor, receiptOf.epoch, ?_, receiptOf.attempt,
      receiptOf.signature⟩, status, named⟩
    · rw [members]
      exact receiptOf.known
    · rw [named]
      exact stored'
    · exact receiptOf.current.trans epoch.symm
  · rw [threshold, weights]
    exact heavy

end MosaicProtocol

namespace NodeConfig

variable (config : NodeConfig) {log : List Effect}

/-- The seals that a node knows when it starts with this log. -/
def Recalls (log : List Effect) (known : StateSeal) : Prop :=
  known ∈ config.initialSeals ∨ .put (.sealKnown known) ∈ log

/-- The closure is one of the capsule to a node that has stored the capsule. -/
def Accepted (capsule : Capsule) (closure : ClosureProof) : Prop :=
  ∃ p : MosaicProtocol, p.members = config.members ∧ p.epoch = config.epoch ∧
    p.capsules.get? capsule.capsuleId = some capsule ∧ p.Accepts capsule closure

/-- The seal is an initial one or the successor by a capsule whose closure is in
the store, as the capsule is. -/
def Origin (log : List Effect) (known : StateSeal) : Prop :=
  known ∈ config.initialSeals ∨ ∃ capsule closure old, .put (.capsule capsule) ∈ log ∧ .put (.closure closure) ∈ log ∧
    closure.capsuleId = capsule.capsuleId ∧ old.sealId = capsule.predecessorId ∧ config.Recalls log old ∧
    known = nextSeal old capsule

/-- Of the seals that the store recalls one follows another as the capsule asks. -/
def SucceededIn (log : List Effect) (capsule : Capsule) : Prop :=
  ∃ predecessor known, config.Recalls log predecessor ∧ config.Recalls log known ∧
    predecessor.sealId = capsule.predecessorId ∧ known.version = predecessor.version + 1 ∧
    known.stateRoot = capsule.successorRoot ∧ known.capabilityHash = digest (.str capsule.capsuleId)

/-- The closures in the store belong to capsules in the store, and its seals were
installed by such capsules. -/
structure Sound (log : List Effect) : Prop where
  accepted : ∀ closure, .put (.closure closure) ∈ log →
    ∃ capsule, .put (.capsule capsule) ∈ log ∧ config.Accepted capsule closure
  origin : ∀ known, .put (.sealKnown known) ∈ log → config.Origin log known
  current : ∀ current, .put (.sealCurrent current) ∈ log → config.Recalls log current

/-- Every closure in the store has the seal of its capsule next to it. -/
def Complete (log : List Effect) : Prop :=
  ∀ closure, .put (.closure closure) ∈ log →
    ∃ capsule, .put (.capsule capsule) ∈ log ∧ closure.capsuleId = capsule.capsuleId ∧ config.SucceededIn log capsule

variable {config} {capsule : Capsule} {closure : ClosureProof} {known predecessor current : StateSeal}

theorem Recalls.mono (recalls : config.Recalls log known) {log' : List Effect} (more : log ⊆ log') :
    config.Recalls log' known :=
  recalls.imp_right fun row => more row

theorem Origin.mono (origin : config.Origin log known) {log' : List Effect} (more : log ⊆ log') :
    config.Origin log' known := by
  rcases origin with initial | ⟨capsule, closure, old, capsuleRow, closureRow, same, named, recalls, made⟩
  · exact Or.inl initial
  · exact Or.inr ⟨capsule, closure, old, more capsuleRow, more closureRow, same, named, recalls.mono more, made⟩

theorem SucceededIn.mono (succeeded : config.SucceededIn log capsule) {log' : List Effect} (more : log ⊆ log') :
    config.SucceededIn log' capsule := by
  obtain ⟨predecessor, known, recalls, recalls', marks⟩ := succeeded
  exact ⟨predecessor, known, recalls.mono more, recalls'.mono more, marks⟩

theorem Accepted.alike (accepted : config.Accepted capsule closure) {d : Capsule} (alike : capsule.Alike d) :
    config.Accepted d closure := by
  obtain ⟨p, members, epoch, stored, accepts⟩ := accepted
  exact ⟨{ p with capsules := p.capsules.set d.capsuleId d }, members, epoch, Dict.get?_set_self _ _ _,
    accepts.congr rfl rfl stored (Dict.get?_set_self _ _ _) alike⟩

theorem Sound.origin_of_recalls (rows : config.Sound log) (recalls : config.Recalls log known) :
    config.Origin log known := by
  rcases recalls with initial | row
  · exact Or.inl initial
  · exact rows.origin known row

theorem Sound.append (rows : config.Sound log) {e : Effect}
    (accepted : ∀ closure, e = .put (.closure closure) →
      ∃ capsule, .put (.capsule capsule) ∈ log ∧ config.Accepted capsule closure)
    (origin : ∀ known, e = .put (.sealKnown known) → config.Origin log known)
    (current : ∀ current, e = .put (.sealCurrent current) → config.Recalls log current) :
    config.Sound (log ++ [e]) := by
  have more : log ⊆ log ++ [e] := fun _ member => List.mem_append_left _ member
  refine ⟨fun closure member => ?_, fun known member => ?_, fun seal' member => ?_⟩ <;>
    rcases List.mem_append.mp member with old | new
  · obtain ⟨capsule, row, accepts⟩ := rows.accepted closure old
    exact ⟨capsule, more row, accepts⟩
  · obtain ⟨capsule, row, accepts⟩ := accepted closure (List.mem_singleton.mp new).symm
    exact ⟨capsule, more row, accepts⟩
  · exact (rows.origin known old).mono more
  · exact (origin known (List.mem_singleton.mp new).symm).mono more
  · exact (rows.current seal' old).mono more
  · exact (current seal' (List.mem_singleton.mp new).symm).mono more

/-- Rows of capsules and receipts, and effects of other kinds, change nothing. -/
theorem Sound.extend (rows : config.Sound log) {effects : List Effect}
    (closures : ∀ closure, .put (.closure closure) ∉ effects) (knowns : ∀ known, .put (.sealKnown known) ∉ effects)
    (currents : ∀ current, .put (.sealCurrent current) ∉ effects) : config.Sound (log ++ effects) := by
  have more : log ⊆ log ++ effects := fun _ member => List.mem_append_left _ member
  refine ⟨fun closure member => ?_, fun known member => ?_, fun current member => ?_⟩ <;>
    rw [List.mem_append] at member
  · obtain ⟨capsule, row, accepts⟩ := rows.accepted closure (member.resolve_right (closures closure))
    exact ⟨capsule, more row, accepts⟩
  · exact (rows.origin known (member.resolve_right (knowns known))).mono more
  · exact (rows.current current (member.resolve_right (currents current))).mono more

/-- The rows of a closing may be put one by one. -/
theorem Sound.closing (rows : config.Sound log) (row : .put (.capsule capsule) ∈ log)
    (accepted : config.Accepted capsule closure) (old : config.Recalls log predecessor)
    (origin : config.Origin (log ++ [.put (.closure closure)]) current) (k : Nat) :
    config.Sound (log ++ (closingRows closure predecessor current).take k) := by
  have first : config.Sound (log ++ [.put (.closure closure)]) := by
    refine rows.append (fun c same => ?_) (by simp) (by simp)
    cases same
    exact ⟨capsule, row, accepted⟩
  have second := first.append (e := .put (.sealKnown predecessor)) (by simp) (fun known same => by
    cases same
    exact first.origin_of_recalls (old.mono fun _ member => List.mem_append_left _ member)) (by simp)
  have third := second.append (e := .put (.sealKnown current)) (by simp) (fun known same => by
    cases same
    exact origin.mono fun _ member => List.mem_append_left _ member) (by simp)
  have fourth := third.append (e := .put (.sealCurrent current)) (by simp) (by simp) fun seal' same => by
    cases same
    exact Or.inr (by simp)
  simp only [List.append_assoc, List.cons_append, List.nil_append] at first second third fourth
  match k with
  | 0 => simpa using rows
  | 1 => exact first
  | 2 => exact second
  | 3 => exact third
  | k + 4 => simpa [closingRows] using fourth

end NodeConfig

namespace Instance

variable {s t : Instance} {capsule : Capsule} {closure : ClosureProof} {old predecessor current : StateSeal}

/-- The seal that a capsule at the head names is the current one. -/
theorem Chained.head (chained : s.Chained) (head : s.headOf capsule = some old)
    (named : old.sealId = capsule.predecessorId) :
    s.knownSeals.get? capsule.predecessorId = some old ∧ s.currentSeals.get? old.resourceId = some old := by
  obtain ⟨predecessor, known, held⟩ := headOf_parts head
  have here := chained.known _ _ held
  rw [named, known] at here
  cases here
  exact ⟨known, held⟩

/-- The seal has the marks of the capsule's successor. -/
def Follows (predecessor : StateSeal) (capsule : Capsule) (known : StateSeal) : Prop :=
  known.version = predecessor.version + 1 ∧ known.stateRoot = capsule.successorRoot ∧
    known.capabilityHash = digest (.str capsule.capsuleId)

/-- The rows of a closing are the seal that the capsule names and one that follows
it, a new seal or the current one. -/
theorem Settles.seals (settles : s.Settles capsule closure t) (free : CollisionFree) (chained : s.Chained)
    (known : t.knownSeals.get? capsule.predecessorId = some predecessor)
    (held : t.currentSeals.get? predecessor.resourceId = some current) :
    s.knownSeals.get? capsule.predecessorId = some predecessor ∧ Follows predecessor capsule current ∧
      (current = nextSeal predecessor capsule ∧ predecessor.sealId = capsule.predecessorId ∧
          t = (s.withClosure capsule closure).installSeal current ∨
        s.currentSeals.get? predecessor.resourceId = some current ∧ t = s.withClosure capsule closure) := by
  obtain ⟨knowns, currents⟩ := withClosure_seals s capsule closure
  cases settles with
  | @installed old registrable head named =>
    obtain ⟨knownOld, heldOld⟩ := chained.head head named
    rw [installSeal_knownSeals, knowns, Dict.get?_set_of_ne _ _ (named ▸ nextSeal_ne old capsule free),
      knownOld] at known
    cases known
    rw [installSeal_currentSeals] at held
    cases (Dict.get?_set_self _ _ _).symm.trans held
    exact ⟨knownOld, ⟨rfl, rfl, rfl⟩, Or.inl ⟨rfl, named, rfl⟩⟩
  | repeated registrable behind followed =>
    obtain ⟨predecessor', current', known', held', marks⟩ := followed
    rw [knowns] at known
    cases known'.symm.trans known
    rw [currents] at held
    cases held'.symm.trans held
    exact ⟨known, marks, Or.inr ⟨held, rfl⟩⟩

end Instance
open Instance

namespace MosaicNode

variable {config : NodeConfig} {s t : MosaicNode}

/-- The capsules are genuine, the store is sound and the seals in memory are
recalled from it. -/
structure Backed (config : NodeConfig) (s : MosaicNode) : Prop where
  holds : s.Holds Capsule.Bound
  sealed : s.Sealed (fun _ => True) config.initialSeals
  members : s.protocol.members = config.members
  epoch : s.protocol.epoch = config.epoch
  rows : config.Sound s.log
  known : ∀ k known, s.protocol.knownSeals.get? k = some known → config.Recalls s.log known

theorem Backed.current (backed : s.Backed config) {r : String} {current : StateSeal}
    (held : s.protocol.currentSeals.get? r = some current) :
    config.Recalls s.log current :=
  backed.known _ _ (backed.sealed.chained.known _ _ held)

/-- The capsule that was closed is in the store, and so are the seals before and
after it. -/
theorem Backed.closes (backed : s.Backed config) (free : CollisionFree) {capsule : Capsule} {closure : ClosureProof}
    {p : Instance} {predecessor current : StateSeal} (settles : s.protocol.Settles capsule closure p)
    (stored : s.protocol.capsules.get? capsule.capsuleId = some capsule)
    (known : p.knownSeals.get? capsule.predecessorId = some predecessor)
    (held : p.currentSeals.get? predecessor.resourceId = some current) :
    ∃ kept : Capsule, .put (.capsule kept) ∈ s.log ∧ capsule.Alike kept ∧ config.Accepted kept closure ∧
      config.Recalls s.log predecessor ∧ config.Origin (s.log ++ [.put (.closure closure)]) current := by
  have registrable : s.protocol.Registrable capsule closure := by
    cases settles with
    | installed registrable => exact registrable
    | repeated registrable => exact registrable
  have accepts := MosaicProtocol.verifyClosure_iff.mp registrable.verified
  obtain ⟨kept, row, same⟩ := backed.holds.kept _ _ stored
  have alike : capsule.Alike kept := (backed.holds.stored _ _ stored).alike free (backed.holds.rows kept row) same.symm
  have accepted : config.Accepted capsule closure := ⟨_, backed.members, backed.epoch, stored, accepts⟩
  obtain ⟨knownBefore, -, made⟩ := settles.seals free backed.sealed.chained known held
  have recalls := backed.known _ _ knownBefore
  have more : s.log ⊆ s.log ++ [.put (.closure closure)] := fun _ member => List.mem_append_left _ member
  refine ⟨kept, row, alike, accepted.alike alike, recalls, ?_⟩
  rcases made with ⟨rfl, named, -⟩ | ⟨held, -⟩
  · refine Or.inr ⟨kept, closure, predecessor, more row, by simp, accepts.capsuleId.trans same.symm, ?_,
      recalls.mono more, ?_⟩
    · rw [named, alike.predecessorId]
    · rw [alike.nextSeal]
  · exact (backed.rows.origin_of_recalls (backed.current held)).mono more

end MosaicNode
open MosaicNode

/-- What a change has to bring along: genuine capsules, and for a closing that the
capsule is stored. -/
def NodeEvent.Genuine : NodeEvent → Prop
  | .stored c | .arrived c | .witnessed c _ | .queued c | .submitted c => c.Bound
  | .closed p c _ => p.capsules.get? c.capsuleId = some c
  | _ => True

namespace NodeUpdate

variable {config : NodeConfig} {s t : MosaicNode} {event : NodeEvent}

theorem holds_bound (update : NodeUpdate event s t) (holds : s.Holds Capsule.Bound) (genuine : event.Genuine) :
    t.Holds Capsule.Bound := by
  refine update.holds holds fun capsule about => ?_
  rcases about with rfl | rfl | ⟨change, rfl⟩ | rfl | rfl <;> exact genuine

/-- Wherever the effects of a change are cut off, the store is sound. -/
theorem sound_take (update : NodeUpdate event s t) (free : CollisionFree) (backed : s.Backed config)
    (genuine : event.Genuine) {k : Nat} (later : s.log.length ≤ k) : config.Sound (t.log.take k) := by
  have quiet : ∀ effects, t.log = s.log ++ effects → (∀ closure, .put (.closure closure) ∉ effects) →
      (∀ known, .put (.sealKnown known) ∉ effects) → (∀ current, .put (.sealCurrent current) ∉ effects) →
      config.Sound (t.log.take k) := by
    intro effects same closures knowns currents
    rw [same, List.take_append, List.take_of_length_le later]
    exact backed.rows.extend (fun _ member => closures _ (List.mem_of_mem_take member))
      (fun _ member => knowns _ (List.mem_of_mem_take member)) fun _ member => currents _ (List.mem_of_mem_take member)
  cases update with
  | closed settles known held =>
    obtain ⟨kept, row, alike, accepted, recalls, origin⟩ := backed.closes free settles genuine known held
    change config.Sound ((s.log ++ closingRows _ _ _).take k)
    rw [List.take_append, List.take_of_length_le later]
    exact backed.rows.closing row accepted recalls origin _
  | stored | arrived | keptReceipt | signed | sent | finished | answered =>
    exact quiet _ rfl (by simp) (by simp) (by simp)
  | _ => exact quiet [] (List.append_nil _).symm (by simp) (by simp) (by simp)

theorem backed (update : NodeUpdate event s t) (free : CollisionFree) (backed : s.Backed config)
    (genuine : event.Genuine) : t.Backed config := by
  have rows : config.Sound t.log := by
    obtain ⟨effects, same, -⟩ := update.log
    have whole := update.sound_take free backed genuine (k := t.log.length) (by simp [same])
    rwa [List.take_length] at whole
  have base : t.protocol.members = s.protocol.members → t.protocol.epoch = s.protocol.epoch →
      (∀ k known, t.protocol.knownSeals.get? k = some known → config.Recalls t.log known) → t.Backed config :=
    fun members epoch known => ⟨update.holds_bound backed.holds genuine,
      update.sealed free backed.sealed fun _ _ _ _ _ _ => trivial, members.trans backed.members,
      epoch.trans backed.epoch, rows, known⟩
  have more : s.log ⊆ t.log := by
    obtain ⟨effects, same, -⟩ := update.log
    rw [same]
    exact fun _ member => List.mem_append_left _ member
  have still : t.protocol.knownSeals = s.protocol.knownSeals →
      ∀ k known, t.protocol.knownSeals.get? k = some known → config.Recalls t.log known := fun same k known found =>
    (backed.known k known (same ▸ found)).mono more
  cases update with
  | @closed _ capsule closure p predecessor current settles known held =>
    obtain ⟨closures, currents, knowns, frame⟩ := settles.frame
    refine base (by rw [frame]; rfl) (by rw [frame]; rfl) fun k seal' found => ?_
    obtain ⟨-, -, ⟨-, -, made⟩ | ⟨-, made⟩⟩ := settles.seals free backed.sealed.chained known held
    · obtain ⟨sameKnown, -⟩ := withClosure_seals s.protocol capsule closure
      change p.knownSeals.get? k = some seal' at found
      rw [made, installSeal_knownSeals, sameKnown, Dict.get?_set] at found
      split at found
      · cases found
        exact Or.inr (by simp [closingRows])
      · exact (backed.known k seal' found).mono more
    · exact still (by rw [setProtocol_protocol, made, (withClosure_seals s.protocol capsule closure).1]) k seal' found
  | @stranded _ capsule closure strands =>
    obtain ⟨closures, frame⟩ := s.protocol.withClosure_frame capsule closure
    refine base (by rw [frame]; rfl) (by rw [frame]; rfl) (still (by rw [frame]; rfl))
  | witnessed seen kind change =>
    cases change with
    | claimed | released | contested | signed => exact base rfl rfl (still rfl)
    | _ => exact kind.elim
  | _ => exact base rfl rfl (still rfl)

end NodeUpdate

/-- What a step of a node can change, where the messages bring genuine capsules. -/
theorem Running.Holds.genuine {s : Running} {event : LifeEvent} {change : NodeEvent} (holds : s.Holds Capsule.Bound)
    (brings : event.Brings Capsule.Bound) (cause : s.Causes event.taken change) : change.Genuine := by
  obtain ⟨frame, run, causes⟩ := cause
  have offered : ∀ capsule, s.node.Offers frame capsule → capsule.Bound := fun capsule =>
    holds.node.offers fun c => holds.carries brings run
  cases change with
  | stored c => exact offered c (causes.offers (Or.inl rfl))
  | arrived c => exact offered c (causes.offers (Or.inr (Or.inl rfl)))
  | witnessed c change => exact offered c (causes.offers (Or.inr (Or.inr (Or.inl ⟨_, rfl⟩))))
  | queued c => exact offered c (causes.offers (Or.inr (Or.inr (Or.inr (Or.inl rfl)))))
  | submitted c => exact offered c (causes.offers (Or.inr (Or.inr (Or.inr (Or.inr rfl)))))
  | closed p c closure => exact Closing.stored holds.node causes
  | _ => trivial

theorem NodeTrace.backed {config : NodeConfig} {s : Running} {event : LifeEvent} {u : MosaicNode} (free : CollisionFree)
    (holds : s.Holds Capsule.Bound) (brings : event.Brings Capsule.Bound) (backed : s.node.Backed config)
    (trace : NodeTrace (s.Causes event.taken) s.node u) : u.Backed config :=
  trace.invariant backed fun _ _ _ cause update before => update.backed free before (holds.genuine brings cause)

end Mosaic
