import Mosaic.Nexus.NetworkSteps

namespace Mosaic.Nexus
open CanonicalJson Effects

variable [Crypto]

namespace DistributedNode
open DomainExecutor

variable {n t u : DistributedNode} {operation : Operation} {event : NodeEvent} {future : Nat} {opId : String}
  {entry entry' : Pending} {ids ids' : List String}

/-- Submissions stand under the ids of their operations, with futures that exist. -/
structure Filed (n : DistributedNode) : Prop where
  keyed : ∀ opId entry, n.pending.get? opId = some entry → entry.operation.opId = opId
  created : ∀ opId entry, n.pending.get? opId = some entry → entry.future < n.futures.length

theorem Filed.same (filed : n.Filed) (same : SameBooks n t) : t.Filed := by
  obtain ⟨pending, futures⟩ := same
  refine ⟨?_, ?_⟩
  · rw [pending]
    exact filed.keyed
  · rw [pending, futures]
    exact filed.created

theorem Quiet.books (same : Quiet n t) : SameBooks n t := ⟨same.pending, same.futures⟩

theorem Certifies.held (certifies : n.Certifies opId entry u) : u.pending.get? opId = some entry := by
  rw [certifies.same.pending]
  exact certifies.found

theorem Filed.set (filed : n.Filed) (keyed : entry.operation.opId = opId) (created : entry.future < n.futures.length) :
    (setPending opId entry n).Filed where
  keyed opId' entry' found := by
    rcases Dict.origin_of_get?_set found with ⟨rfl, rfl⟩ | earlier
    · exact keyed
    · exact filed.keyed _ _ earlier
  created opId' entry' found := by
    rcases Dict.origin_of_get?_set found with ⟨rfl, rfl⟩ | earlier
    · exact created
    · exact filed.created _ _ earlier

theorem Filed.replace (filed : n.Filed) (found : n.pending.get? opId = some entry)
    (about : entry'.operation = entry.operation) (waitsFor : entry'.future = entry.future) :
    (setPending opId entry' n).Filed :=
  filed.set (about ▸ filed.keyed _ _ found) (waitsFor ▸ filed.created _ _ found)

theorem get?_of_popPending {opId' : String} (found : (popPending opId n).pending.get? opId' = some entry) :
    opId' ≠ opId ∧ n.pending.get? opId' = some entry := by
  change (n.pending.erase opId).get? opId' = some entry at found
  rw [Dict.get?_erase] at found
  split at found
  · cases found
  · rename_i other
    exact ⟨Ne.symm other, found⟩

theorem Filed.pop (filed : n.Filed) : (popPending opId n).Filed :=
  ⟨fun _ _ found => filed.keyed _ _ (get?_of_popPending found).2,
    fun _ _ found => filed.created _ _ (get?_of_popPending found).2⟩

theorem Filed.setFuture (filed : n.Filed) (value : SubmitFuture) : (DistributedNode.setFuture future value n).Filed where
  keyed := filed.keyed
  created opId entry found := by
    change entry.future < (n.futures.set future value).length
    rw [List.length_set]
    exact filed.created opId entry found

theorem Filed.answered (filed : n.Filed) (answered : n.Answered opId t) : t.Filed := by
  obtain ⟨entry, answer, -, -, -, -, rfl⟩ := answered
  exact (filed.setFuture _).pop

theorem Filed.effect (filed : n.Filed) (effect : n.Effect event t) : t.Filed := by
  cases effect with
  | quiet _ same => exact filed.same same.books
  | followed _ same => exact filed.same same
  | submitted _ same operation dac now free ends =>
    rename_i u
    subst ends
    have before := filed.same same.books
    have grown : (createFuture u).Filed := by
      refine ⟨before.keyed, fun opId entry found => ?_⟩
      change entry.future < (u.futures ++ [SubmitFuture.waiting]).length
      rw [List.length_append]
      exact Nat.lt_add_right _ (before.created opId entry found)
    refine grown.set rfl ?_
    change n.futures.length < (u.futures ++ [SubmitFuture.waiting]).length
    rw [List.length_append, same.futures]
    exact Nat.lt_add_one _
  | prepared _ opId entry certificate certifies ends =>
    subst ends
    exact (filed.same certifies.same.books).replace certifies.held rfl rfl
  | certified _ opId entry certificate certifies ends =>
    subst ends
    exact (filed.same certifies.same.books).replace certifies.held rfl rfl
  | applied _ opId entry certificate certifies ends =>
    rename_i u
    subst ends
    have before : (setDomain (u.domain.applied entry.operation certificate) u).Filed := filed.same certifies.same.books
    exact before.replace certifies.held rfl rfl
  | finished _ opId answered => exact filed.answered answered
  | ignored opId nodeId _ _ ends => exact ends ▸ filed
  | acked opId nodeId _ entry found noted ends =>
    subst noted
    have before : (setPending opId { entry with ackIds := entry.ackIds.insert nodeId } n).Filed :=
      filed.replace found rfl rfl
    rcases ends with rfl | answered
    · exact before
    · exact before.answered answered
  | cancelled future _ _ ends => exact ends ▸ filed.setFuture _
  | withdrawn _ opId entry _ _ ends => exact ends ▸ filed.pop

theorem Filed.after (filed : n.Filed) (events : List NodeEvent) : (n.after events).Filed := by
  induction events generalizing n with
  | nil => exact filed
  | cons event events ih => exact ih (filed.effect (effect_exec n event))

/-- The leader has applied the operation. -/
def Applied (n : DistributedNode) (operation : Operation) : Prop := operation.opId ∈ n.domain.committedOperations

/-- The ids that count for an operation: those that came in, and the leader's own
once it has applied the operation. -/
def acknowledged (n : DistributedNode) (operation : Operation) (ids : List String) : List String :=
  if operation.opId ∈ n.domain.committedOperations then n.nodeId :: ids else ids

theorem mem_acknowledged {id : String} :
    id ∈ n.acknowledged operation ids ↔ id ∈ ids ∨ n.Applied operation ∧ id = n.nodeId := by
  unfold acknowledged
  split
  · rename_i applied
    rw [List.mem_cons, or_comm]
    exact or_congr_right (iff_and_self.mpr fun _ => applied)
  · rename_i pending
    exact ⟨Or.inl, fun either => either.resolve_right fun both => pending both.1⟩

/-- The entry of a submission to which `ids` have been acknowledged. -/
structure Holds (n : DistributedNode) (operation : Operation) (future : Nat) (ids : List String) (entry : Pending) :
    Prop where
  about : entry.operation = operation
  waitsFor : entry.future = future
  acks : ∀ id, id ∈ entry.ackIds ↔ id ∈ n.acknowledged operation ids
  certified : n.Applied operation → entry.commitCertificate.isSome

/-- The submission of the operation waits for its answer at the leader. -/
structure Awaits (n : DistributedNode) (operation : Operation) (future : Nat) (ids : List String) : Prop where
  filed : n.Filed
  leads : n.nodeId = n.leaderId
  waits : n.futures[future]? = some .waiting
  held : ∃ entry, n.pending.get? operation.opId = some entry ∧ n.Holds operation future ids entry
  owned : ∀ opId entry, n.pending.get? opId = some entry → entry.future = future → opId = operation.opId

def Resolved (n : DistributedNode) (operation : Operation) (future : Nat) : Prop :=
  ∃ answer : SubmitAnswer, n.futures[future]? = some (.finished answer) ∧ answer.opId = operation.opId

theorem Holds.congr (holds : n.Holds operation future ids entry) (nodeId : t.nodeId = n.nodeId)
    (applied : t.Applied operation ↔ n.Applied operation) : t.Holds operation future ids entry where
  about := holds.about
  waitsFor := holds.waitsFor
  acks id := by rw [holds.acks, mem_acknowledged, mem_acknowledged, nodeId, applied]
  certified done := holds.certified (applied.mp done)

theorem Awaits.quiet (awaits : n.Awaits operation future ids) (same : Quiet n t) : t.Awaits operation future ids where
  filed := awaits.filed.same same.books
  leads := by rw [same.nodeId, same.leaderId, awaits.leads]
  waits := by rw [same.futures, awaits.waits]
  held := by
    obtain ⟨entry, found, holds⟩ := awaits.held
    refine ⟨entry, by rw [same.pending, found], holds.congr same.nodeId ?_⟩
    rw [Applied, Applied, same.domain.committedOperations]
  owned := by
    rw [same.pending]
    exact awaits.owned

/-- Another entry may be written under another id. -/
theorem Awaits.setOther (awaits : n.Awaits operation future ids) (other : opId ≠ operation.opId)
    (keyed : entry.operation.opId = opId) (created : entry.future < n.futures.length) (apart : entry.future ≠ future) :
    (setPending opId entry n).Awaits operation future ids where
  filed := awaits.filed.set keyed created
  leads := awaits.leads
  waits := awaits.waits
  held := by
    obtain ⟨own, found, holds⟩ := awaits.held
    exact ⟨own, (Dict.get?_set_of_ne _ _ other).trans found, holds.congr rfl Iff.rfl⟩
  owned opId' entry' found same := by
    rcases Dict.origin_of_get?_set found with ⟨rfl, rfl⟩ | earlier
    · exact absurd same apart
    · exact awaits.owned _ _ earlier same

/-- The submission's own entry may be written again, also when the domain has changed. -/
theorem Awaits.setOwn (awaits : n.Awaits operation future ids) (books : SameBooks n t) (leads : t.nodeId = t.leaderId)
    (holds : t.Holds operation future ids' entry) :
    (setPending operation.opId entry t).Awaits operation future ids' := by
  obtain ⟨own, found, held⟩ := awaits.held
  have filed := awaits.filed.same books
  obtain ⟨pending, futures⟩ := books
  rw [← pending] at found
  refine ⟨filed.replace found (holds.about.trans held.about.symm) (holds.waitsFor.trans held.waitsFor.symm), leads,
    (congrArg (·[future]?) futures).trans awaits.waits, ⟨entry, Dict.get?_set_self _ _ _, holds.congr rfl Iff.rfl⟩, ?_⟩
  intro opId' entry' found' same
  rcases Dict.origin_of_get?_set found' with ⟨rfl, -⟩ | earlier
  · rfl
  · rw [pending] at earlier
    exact awaits.owned _ _ earlier same

/-- The entry under an id is that of the submission, or it has another future. -/
theorem Awaits.found (awaits : n.Awaits operation future ids) (found : n.pending.get? opId = some entry) :
    opId = operation.opId ∧ n.Holds operation future ids entry ∨ opId ≠ operation.opId ∧ entry.future ≠ future := by
  by_cases own : opId = operation.opId
  · obtain ⟨held, there, holds⟩ := awaits.held
    rw [own, there] at found
    cases found
    exact Or.inl ⟨own, holds⟩
  · exact Or.inr ⟨own, fun same => own (awaits.owned _ _ found same)⟩

/-- An entry keeps its operation and its future when it is written again. -/
theorem Awaits.replace (awaits : n.Awaits operation future ids) (found : n.pending.get? opId = some entry)
    (about : entry'.operation = entry.operation) (waitsFor : entry'.future = entry.future)
    (own : opId = operation.opId → n.Holds operation future ids entry → n.Holds operation future ids' entry')
    (others : opId ≠ operation.opId → ids' = ids) : (setPending opId entry' n).Awaits operation future ids' := by
  rcases awaits.found found with ⟨rfl, holds⟩ | ⟨other, apart⟩
  · exact awaits.setOwn (Std.Refl.refl n) awaits.leads (own rfl holds)
  · rw [others other]
    exact awaits.setOther other (about ▸ awaits.filed.keyed _ _ found) (waitsFor ▸ awaits.filed.created _ _ found)
      (waitsFor ▸ apart)

/-- Another operation is submitted. -/
theorem Awaits.submitted (awaits : n.Awaits operation future ids) (same : Quiet n u) {other : Operation}
    {dac : DataAvailabilityCertificate} {now : Int} (free : n.pending.get? other.opId = none) :
    (setPending other.opId ⟨other, dac, n.futures.length, now, none, none, []⟩ (createFuture u)).Awaits
      operation future ids := by
  have before := awaits.quiet same
  have inside : future < u.futures.length := (List.getElem?_eq_some_iff.mp before.waits).1
  have grown : (createFuture u).Awaits operation future ids := by
    refine ⟨⟨before.filed.keyed, fun opId entry found => ?_⟩, before.leads, ?_,
      before.held.imp fun _ held => ⟨held.1, held.2.congr rfl Iff.rfl⟩, before.owned⟩
    · change entry.future < (u.futures ++ [SubmitFuture.waiting]).length
      rw [List.length_append]
      exact Nat.lt_add_right _ (before.filed.created opId entry found)
    · change (u.futures ++ [SubmitFuture.waiting])[future]? = some .waiting
      rw [List.getElem?_append_left inside, before.waits]
  refine grown.setOther ?_ rfl ?_ ?_
  · intro own
    obtain ⟨entry, found, -⟩ := awaits.held
    rw [← own, free] at found
    cases found
  · change n.futures.length < (u.futures ++ [SubmitFuture.waiting]).length
    rw [List.length_append, same.futures]
    exact Nat.lt_add_one _
  · rw [← same.futures]
    exact (Nat.ne_of_lt inside).symm

/-- The leader applies an operation and acknowledges it itself. -/
theorem Awaits.applied (awaits : n.Awaits operation future ids) (certifies : n.Certifies opId entry u)
    {certificate : Certificate} :
    (setPending opId { entry with commitCertificate := some certificate, ackIds := entry.ackIds.insert u.nodeId }
      (setDomain (u.domain.applied entry.operation certificate) u)).Awaits operation future ids := by
  have before := awaits.quiet certifies.same
  let v := setDomain (u.domain.applied entry.operation certificate) u
  have applied : v.Applied operation ↔ operation.opId = entry.operation.opId ∨ u.Applied operation := Finset.mem_insert
  have keyed := before.filed.keyed _ _ certifies.held
  have created := before.filed.created _ _ certifies.held
  rcases before.found certifies.held with ⟨rfl, holds⟩ | ⟨other, apart⟩
  · have mine : v.Applied operation := applied.mpr (Or.inl (by rw [holds.about]))
    refine before.setOwn ⟨rfl, rfl⟩ before.leads ⟨holds.about, holds.waitsFor, fun id => ?_, fun _ => rfl⟩
    change id ∈ entry.ackIds.insert u.nodeId ↔ id ∈ v.acknowledged operation ids
    rw [List.mem_insert_iff, holds.acks, mem_acknowledged, mem_acknowledged]
    change _ ↔ id ∈ ids ∨ v.Applied operation ∧ id = u.nodeId
    tauto
  · have still : v.Applied operation ↔ u.Applied operation :=
      applied.trans (or_iff_right fun same => other (keyed.symm.trans same.symm))
    have later : v.Awaits operation future ids :=
      ⟨before.filed.same ⟨rfl, rfl⟩, before.leads, before.waits,
        before.held.imp fun _ held => ⟨held.1, held.2.congr rfl still⟩, before.owned⟩
    exact later.setOther other keyed created apart

theorem Awaits.acked (awaits : n.Awaits operation future ids) (found : n.pending.get? opId = some entry)
    (nodeId : String) : (setPending opId { entry with ackIds := entry.ackIds.insert nodeId } n).Awaits operation future
      (ids ++ if opId = operation.opId then [nodeId] else []) := by
  refine awaits.replace found rfl rfl (fun own holds => ?_) fun other => by rw [if_neg other, List.append_nil]
  refine ⟨holds.about, holds.waitsFor, fun id => ?_, holds.certified⟩
  rw [List.mem_insert_iff, holds.acks, mem_acknowledged, mem_acknowledged, if_pos own, List.mem_append,
    List.mem_singleton]
  exact ⟨by tauto, by tauto⟩

theorem Awaits.waiting (awaits : n.Awaits operation future ids) (holds : n.Holds operation future ids' entry) :
    n.futureDone entry = false := by
  rw [futureDone, holds.waitsFor, awaits.waits]

theorem Awaits.popOther (awaits : n.Awaits operation future ids) (other : opId ≠ operation.opId) :
    (popPending opId n).Awaits operation future ids where
  filed := awaits.filed.pop
  leads := awaits.leads
  waits := awaits.waits
  held := by
    obtain ⟨entry, found, holds⟩ := awaits.held
    refine ⟨entry, ?_, holds.congr rfl Iff.rfl⟩
    change (n.pending.erase opId).get? operation.opId = some entry
    rw [Dict.get?_erase, if_neg other, found]
  owned _ _ found := awaits.owned _ _ (get?_of_popPending found).2

theorem Awaits.setFutureOther (awaits : n.Awaits operation future ids) {index : Nat} (other : index ≠ future)
    (value : SubmitFuture) : (setFuture index value n).Awaits operation future ids where
  filed := awaits.filed.setFuture value
  leads := awaits.leads
  waits := by
    change (n.futures.set index value)[future]? = some .waiting
    rw [List.getElem?_set_ne other, awaits.waits]
  held := awaits.held.imp fun _ held => ⟨held.1, held.2.congr rfl Iff.rfl⟩
  owned := awaits.owned

theorem Awaits.getElem?_setFuture (awaits : n.Awaits operation future ids) (value : SubmitFuture) :
    (setFuture future value n).futures[future]? = some value :=
  List.getElem?_set_self (List.getElem?_eq_some_iff.mp awaits.waits).1

theorem Awaits.answered (awaits : n.Awaits operation future ids) (answered : n.Answered opId t) :
    t.Awaits operation future ids ∨ t.Resolved operation future ∧ t.Knows (t.acknowledged operation ids) := by
  obtain ⟨entry, answer, found, -, known, named, rfl⟩ := answered
  rcases awaits.found found with ⟨own, holds⟩ | ⟨other, apart⟩
  · refine Or.inr ⟨⟨answer, ?_, named.trans own⟩, fun id member => known id ((holds.acks id).mpr member)⟩
    rw [holds.waitsFor]
    exact awaits.getElem?_setFuture _
  · exact Or.inl ((awaits.setFutureOther apart _).popOther other)

/-- A submission goes on waiting, with what the event has acknowledged, or it is
answered and all the acknowledging ids are known, or its time is up. -/
theorem Awaits.effect (awaits : n.Awaits operation future ids) (effect : n.Effect event t) :
    t.Awaits operation future (ids ++ event.acks operation.opId) ∨
      t.Resolved operation future ∧ t.Knows (t.acknowledged operation (ids ++ event.acks operation.opId)) ∨
      event = .expires future ∧ t.futures[future]? = some .cancelled := by
  have unchanged (silent : ∀ opId, event.acks opId = []) : ids ++ event.acks operation.opId = ids := by
    rw [silent, List.append_nil]
  cases effect with
  | quiet silent same =>
    rw [unchanged silent]
    exact Or.inl (awaits.quiet same)
  | followed follows _ => exact absurd awaits.leads follows
  | submitted silent same other dac now free ends =>
    rename_i u
    rw [unchanged silent, ends]
    exact Or.inl (awaits.submitted same free)
  | prepared silent opId entry certificate certifies ends =>
    rw [unchanged silent, ends]
    exact Or.inl ((awaits.quiet certifies.same).replace certifies.held rfl rfl
      (fun _ holds => ⟨holds.about, holds.waitsFor, holds.acks, holds.certified⟩) fun _ => rfl)
  | certified silent opId entry certificate certifies ends =>
    rw [unchanged silent, ends]
    exact Or.inl ((awaits.quiet certifies.same).replace certifies.held rfl rfl
      (fun _ holds => ⟨holds.about, holds.waitsFor, holds.acks, fun _ => rfl⟩) fun _ => rfl)
  | applied silent opId entry certificate certifies ends =>
    rw [unchanged silent, ends]
    exact Or.inl (awaits.applied certifies)
  | finished silent opId answered =>
    rw [unchanged silent]
    exact (awaits.answered answered).imp_right Or.inl
  | ignored opId nodeId acks missing ends =>
    have other : opId ≠ operation.opId := by
      rintro rfl
      obtain ⟨entry, found, -⟩ := awaits.held
      rw [missing] at found
      cases found
    rw [acks, if_neg other, List.append_nil, ends]
    exact Or.inl awaits
  | acked opId nodeId acks entry found noted ends =>
    have next := noted ▸ awaits.acked found nodeId
    rw [acks]
    rcases ends with rfl | answered
    · exact Or.inl next
    · exact (next.answered answered).imp_right Or.inl
  | cancelled index event' waits ends =>
    subst ends
    by_cases own : index = future
    · subst own
      exact Or.inr (Or.inr ⟨event', awaits.getElem?_setFuture _⟩)
    · rw [event']
      exact Or.inl ((List.append_nil ids).symm ▸ awaits.setFutureOther own _)
  | withdrawn silent opId entry found cancelled ends =>
    rw [unchanged silent, ends]
    rcases awaits.found found with ⟨-, holds⟩ | ⟨other, -⟩
    · rw [holds.waitsFor, awaits.waits] at cancelled
      cases cancelled
    · exact Or.inl (awaits.popOther other)

theorem futureDone_of_done {value : SubmitFuture} (done : value ≠ .waiting)
    (there : n.futures[entry.future]? = some value) : n.futureDone entry = true := by
  rw [futureDone, there]
  cases value with
  | waiting => exact absurd rfl done
  | finished answer => rfl
  | cancelled => rfl

theorem done_answered {value : SubmitFuture} (done : value ≠ .waiting) (there : n.futures[future]? = some value)
    (answered : n.Answered opId t) : t.futures[future]? = some value := by
  obtain ⟨entry, answer, -, waits, -, -, rfl⟩ := answered
  have other : entry.future ≠ future := by
    rintro rfl
    rw [futureDone_of_done done there] at waits
    cases waits
  change (n.futures.set entry.future _)[future]? = some value
  rw [List.getElem?_set_ne other, there]

theorem done_effect {value : SubmitFuture} (done : value ≠ .waiting) (there : n.futures[future]? = some value)
    (effect : n.Effect event t) : t.futures[future]? = some value := by
  cases effect with
  | quiet _ same => rw [same.futures, there]
  | followed _ same => rw [same.2, there]
  | submitted _ same operation dac now free ends =>
    rename_i u
    subst ends
    change (u.futures ++ [SubmitFuture.waiting])[future]? = some value
    rw [same.futures, List.getElem?_append_left (List.getElem?_eq_some_iff.mp there).1, there]
  | prepared _ opId entry certificate certifies ends =>
    subst ends
    exact (congrArg (·[future]?) certifies.same.futures).trans there
  | certified _ opId entry certificate certifies ends =>
    subst ends
    exact (congrArg (·[future]?) certifies.same.futures).trans there
  | applied _ opId entry certificate certifies ends =>
    subst ends
    exact (congrArg (·[future]?) certifies.same.futures).trans there
  | finished _ opId answered => exact done_answered done there answered
  | ignored opId nodeId _ _ ends => rw [ends, there]
  | acked opId nodeId _ entry found noted ends =>
    have noted' := congrArg (fun m => m.futures[future]?) noted
    rcases ends with rfl | answered
    · exact noted'.trans there
    · exact done_answered done (noted'.trans there) answered
  | cancelled index _ waits ends =>
    subst ends
    have other : index ≠ future := by
      rintro rfl
      exact done (Option.some.inj (there.symm.trans waits))
    exact (List.getElem?_set_ne other).trans there
  | withdrawn _ opId entry _ _ ends => rw [ends]; exact there

/-- The ids that the acknowledgements of a run bring in for an operation. -/
def received (operation : Operation) (events : List NodeEvent) : List String :=
  events.flatMap (NodeEvent.acks operation.opId)

omit [Crypto] in
theorem received_snoc (operation : Operation) (events : List NodeEvent) (event : NodeEvent) :
    received operation (events ++ [event]) = received operation events ++ event.acks operation.opId := by
  rw [received, List.flatMap_append, List.flatMap_singleton, received]

theorem after_snoc (n : DistributedNode) (events : List NodeEvent) (event : NodeEvent) :
    n.after (events ++ [event]) = event.exec (n.after events) := by
  rw [after, List.foldl_append, after]
  rfl

/-- The time of a submission is up. -/
theorem Awaits.expire (awaits : n.Awaits operation future ids) :
    (NodeEvent.exec (.expires future) n).futures[future]? = some .cancelled := by
  have ends : NodeEvent.exec (.expires future) n = setFuture future .cancelled n := by
    change DistributedNode.expire future n = _
    rw [DistributedNode.expire, awaits.waits]
  rw [ends]
  exact awaits.getElem?_setFuture _

/-- How a submission stands after a run: it waits, it has been answered, or its
time is up. -/
theorem standing (start : n.Awaits operation future []) (events : List NodeEvent) :
    (n.after events).Awaits operation future (received operation events) ∧ .expires future ∉ events ∨
      (n.after events).Resolved operation future ∨
        .expires future ∈ events ∧ (n.after events).futures[future]? = some .cancelled := by
  induction events using List.reverseRecOn with
  | nil => exact Or.inl ⟨start, List.not_mem_nil⟩
  | append_singleton events event ih =>
    have effect := effect_exec (n.after events) event
    rw [after_snoc, received_snoc]
    rcases ih with ⟨awaits, running⟩ | ⟨answer, there, named⟩ | ⟨expired, there⟩
    · by_cases up : event = .expires future
      · subst up
        exact Or.inr (Or.inr ⟨List.mem_append_right _ (List.mem_singleton_self _), awaits.expire⟩)
      · rcases awaits.effect effect with later | ⟨resolved, -⟩ | ⟨expires, -⟩
        · refine Or.inl ⟨later, fun member => ?_⟩
          rcases List.mem_append.mp member with before | here
          · exact running before
          · exact up (List.mem_singleton.mp here).symm
        · exact Or.inr (Or.inl resolved)
        · exact absurd expires up
    · exact Or.inr (Or.inl ⟨answer, done_effect (by simp) there effect, named⟩)
    · exact Or.inr (Or.inr ⟨List.mem_append_left _ expired, done_effect (by simp) there effect⟩)

/-- A submission that waits has no answer. -/
theorem Awaits.unresolved (awaits : n.Awaits operation future ids) : ¬ n.Resolved operation future := by
  rintro ⟨answer, there, -⟩
  rw [awaits.waits] at there
  cases there

/-- An unknown id among those that acknowledged a submission keeps it from its
answer for ever. -/
theorem stray_never_resolves (awaits : n.Awaits operation future ids) {id : String} (stray : id ∈ ids)
    (unknown : n.domain.committee.validators.get? id = none) (events : List NodeEvent) :
    ¬ (n.after events).Resolved operation future := by
  suffices waits : (∃ ids, (n.after events).Awaits operation future ids ∧ id ∈ ids ∧
      (n.after events).domain.committee.validators.get? id = none) ∨
        (n.after events).futures[future]? = some .cancelled by
    rcases waits with ⟨_, awaits, -⟩ | cancelled
    · exact awaits.unresolved
    · rintro ⟨answer, there, -⟩
      rw [cancelled] at there
      cases there
  induction events using List.reverseRecOn with
  | nil => exact Or.inl ⟨ids, awaits, stray, unknown⟩
  | append_singleton events event ih =>
    have effect := effect_exec (n.after events) event
    rw [after_snoc]
    rcases ih with ⟨ids', awaits', stray', unknown'⟩ | cancelled
    · have unknown'' := (congrArg (·.get? id) (effect.validators awaits'.leads)).trans unknown'
      rcases awaits'.effect effect with later | ⟨-, known⟩ | ⟨-, cancelled⟩
      · exact Or.inl ⟨_, later, List.mem_append_left _ stray', unknown''⟩
      · have mine := known id (mem_acknowledged.mpr (Or.inl (List.mem_append_left _ stray')))
        rw [unknown''] at mine
        cases mine
      · exact Or.inr cancelled
    · exact Or.inr (done_effect (by simp) cancelled effect)

end DistributedNode

end Mosaic.Nexus
