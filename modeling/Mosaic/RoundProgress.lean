import Mosaic.Round
import Mosaic.Lib.Cascade

namespace Mosaic
open CanonicalJson Effects MosaicProtocol Balloting

def Frame.message? : Frame → Option Message
  | .deliver message => some message
  | _ => none

variable [Crypto]

/-- Some nodes, all that they have sent to their peers, and what each has handled. -/
structure Traffic (ι : Type) where
  node : ι → Running
  sent : List Message
  handled : ι → List Message

namespace Traffic

variable {ι : Type}

def start (node : ι → Running) : Traffic ι := ⟨node, [], fun _ => []⟩

/-- One of the nodes takes an input. -/
def exec [DecidableEq ι] (event : ι × Input) (t : Traffic ι) : Traffic ι :=
  let before := t.node event.1
  let after := event.2.exec before
  { node := Function.update t.node event.1 after
    sent := t.sent ++ sentOf (after.node.log.drop before.node.log.length)
    handled := Function.update t.handled event.1
      (t.handled event.1 ++ ((event.2.frame before).bind Frame.message?).toList) }

/-- Every message has been handled by every node, the own copy of the sender included. -/
def Quiet (t : Traffic ι) : Prop := ∀ message ∈ t.sent, ∀ i, message ∈ t.handled i

end Traffic

/-- The frames of the threads after an input were there or have been left by the frame that ran. -/
theorem Input.exec_frames {input : Input} {s : Running} {frame : Frame} (run : input.frame s = some frame) :
    ∀ thread ∈ (input.exec s).threads, ∀ next ∈ thread,
      next ∈ MosaicNode.framesOf (MosaicNode.runFrame frame) s.node ∨ ∃ old ∈ s.threads, next ∈ old := by
  intro thread member next inThread
  cases input with
  | receive message =>
    cases run
    rcases List.mem_append.mp member with old | new
    · exact Or.inr ⟨thread, old, inThread⟩
    · cases List.mem_singleton.mp new
      exact Or.inl inThread
  | resume k =>
    obtain ⟨frames, here, first⟩ := Option.bind_eq_some_iff.mp run
    cases frames with
    | nil => cases first
    | cons head later =>
      cases first
      simp only [Input.exec, Running.resume, here] at member
      rcases List.mem_or_eq_of_mem_set member with old | rfl
      · exact Or.inr ⟨thread, old, inThread⟩
      · rcases List.mem_append.mp inThread with new | rest
        · exact Or.inl new
        · exact Or.inr ⟨_, List.mem_of_getElem? here, List.mem_cons_of_mem _ rest⟩

theorem Input.exec_of_none {input : Input} {s : Running} (none : input.frame s = none) : input.exec s = s := by
  cases input with
  | receive message => cases none
  | resume k =>
    simp only [Input.exec, Running.resume]
    cases here : s.threads[k]? with
    | none => rfl
    | some thread =>
      cases thread with
      | nil => rfl
      | cons frame later => simp [Input.frame, here] at none

theorem Input.exec_of_some {input : Input} {s : Running} {frame : Frame} (run : input.frame s = some frame) :
    (input.exec s).node = final (MosaicNode.runFrame frame) s.node := by
  rcases input.exec_node s with ⟨none, -⟩ | ⟨frame', run', same⟩
  · cases run.symm.trans none
  · cases run.symm.trans run'
    exact same

namespace Motion

variable {ι : Type} [DecidableEq ι] {m : Motion ι}

variable (m) in
/-- Clients may hand in the capsule, and peers receive what was sent. -/
def Allowed (t : Traffic ι) (event : ι × Input) : Prop :=
  ∀ message, event.2 = .receive message → message = .submit m.capsule ∨ message ∈ t.sent

variable (m) in
/-- The nodes are ready for the capsule: it is valid for them and follows their current
seal, they have heard of nothing about it, and no handler waits. -/
def Ready (node : ι → Running) : Prop :=
  ∀ i, m.At i .fresh (node i).node ∧ ∀ thread ∈ (node i).threads, thread = []

theorem Means.unique {message : Message} {mail mail' : Mail ι} (means : m.Means message mail)
    (means' : m.Means message mail') : mail = mail' := by
  cases means with
  | proposal => cases means'; rfl
  | decision => cases means'; rfl
  | vote i =>
    generalize same : m.receipt i = receipt at means'
    cases means' with
    | vote j => rw [receipt_inj (congrArg WitnessReceipt.witnessId same)]

/-- The nodes stand where the voters of an assembly do. -/
structure Mirrors (m : Motion ι) (t : Traffic ι) (a : Assembly ι) : Prop where
  stands : ∀ i, m.At i (a.voter i) (t.node i).node
  sent : List.Forall₂ m.Means t.sent a.sent
  handled : ∀ i, ∀ message ∈ t.handled i, ∀ mail, m.Means message mail → mail ∈ (a.voter i).taken
  left : ∀ i, ∀ thread ∈ (t.node i).threads, ∀ frame ∈ thread, m.Left t.sent frame

namespace Mirrors

variable {t : Traffic ι} {a : Assembly ι} {i : ι} {input : Input}

theorem start {node : ι → Running} (ready : m.Ready node) : m.Mirrors (.start node) .start where
  stands i := (ready i).1
  sent := .nil
  handled i message member := nomatch member
  left i thread member frame inThread := by
    rw [(ready i).2 thread member] at inThread
    cases inThread

/-- A handler that does what the voter does. -/
theorem step (mirrors : m.Mirrors t a) {frame : Frame} (run : input.frame (t.node i) = some frame) {w : Voter ι}
    {mails : List (Mail ι)} (does : m.Does i (t.node i).node (MosaicNode.runFrame frame) w mails)
    (older : ∀ mail ∈ (a.voter i).taken, mail ∈ w.taken)
    (took : ∀ message, frame.message? = some message → ∀ mail, m.Means message mail → mail ∈ w.taken) :
    m.Mirrors (t.exec (i, input)) ⟨Function.update a.voter i w, a.sent ++ mails⟩ := by
  obtain ⟨effects, log, stands, means, left⟩ := does
  have node := Input.exec_of_some run
  have new : sentOf ((input.exec (t.node i)).node.log.drop (t.node i).node.log.length) = sentOf effects := by
    rw [node, log, List.drop_left]
  refine ⟨fun k => ?_, ?_, fun k message member mail about => ?_, fun k thread member next inThread => ?_⟩
  · simp only [Traffic.exec]
    by_cases here : k = i
    · subst here
      rw [Function.update_self, Function.update_self, node]
      exact stands
    · rw [Function.update_of_ne here, Function.update_of_ne here]
      exact mirrors.stands k
  · simp only [Traffic.exec, new]
    exact List.rel_append mirrors.sent means
  · simp only [Traffic.exec] at member ⊢
    by_cases here : k = i
    · subst here
      rw [Function.update_self] at member ⊢
      rcases List.mem_append.mp member with old | now
      · exact older mail (mirrors.handled k message old mail about)
      · rw [run] at now
        exact took message (Option.mem_toList.mp now) mail about
    · rw [Function.update_of_ne here] at member ⊢
      exact mirrors.handled k message member mail about
  · simp only [Traffic.exec, new] at member ⊢
    have more : ∀ message ∈ t.sent, message ∈ t.sent ++ sentOf effects := fun _ => List.mem_append_left _
    by_cases here : k = i
    · subst here
      rw [Function.update_self] at member
      rcases Input.exec_frames run thread member next inThread with now | ⟨old, before, inOld⟩
      · exact (left next now).mono fun _ => List.mem_append_right _
      · exact (mirrors.left k old before next inOld).mono more
    · rw [Function.update_of_ne here] at member
      exact (mirrors.left k thread member next inThread).mono more

/-- A handler that only does something for a client. -/
theorem stay (mirrors : m.Mirrors t a) {frame : Frame} (run : input.frame (t.node i) = some frame)
    (does : m.Does i (t.node i).node (MosaicNode.runFrame frame) (a.voter i) [])
    (silent : ∀ message, frame.message? = some message → ∀ mail, ¬ m.Means message mail) :
    m.Mirrors (t.exec (i, input)) a := by
  have moved := mirrors.step run does (fun _ => id) fun message here mail about => absurd about (silent message here mail)
  rwa [Function.update_eq_self, List.append_nil] at moved

/-- A handler of a message that was sent. -/
theorem take (mirrors : m.Mirrors t a) {message : Message} {mail : Mail ι}
    (run : input.frame (t.node i) = some (.deliver message)) (about : m.Means message mail)
    (does : m.Does i (t.node i).node (MosaicNode.dispatch message) ((a.voter i).learn m.Enough mail)
      ((a.voter i).answer m.Enough i mail)) :
    m.Mirrors (t.exec (i, input)) (Assembly.exec m.Enough (.take i mail) a) := by
  obtain ⟨effects, log, stands, means, left⟩ := does
  have same : ((a.voter i).learn m.Enough mail).taken = (a.voter i).taken := by cases mail <;> rfl
  refine mirrors.step run ⟨effects, log, stands.note mail, means, left⟩ (fun earlier member => ?_) ?_
  · rw [Voter.note_taken, same]
    exact List.mem_append_left _ member
  · rintro message' here mail' about'
    cases here
    rw [about'.unique about]
    exact List.mem_append_right _ (List.mem_singleton_self mail)

/-- What a node does with a message that was sent. -/
theorem handles (mirrors : m.Mirrors t a) (free : CollisionFree) (sound : SignaturesVerify) (i : ι) {message : Message}
    (sent : message ∈ t.sent) : ∃ mail ∈ a.sent, m.Means message mail ∧
      m.Does i (t.node i).node (MosaicNode.dispatch message) ((a.voter i).learn m.Enough mail)
        ((a.voter i).answer m.Enough i mail) := by
  obtain ⟨mail, inSent, about⟩ := exists_of_forall₂ mirrors.sent sent
  refine ⟨mail, inSent, about, ?_⟩
  have stands := mirrors.stands i
  cases about with
  | proposal => exact stands.capsule free
  | vote j => exact stands.vote free sound j
  | decision closes => exact stands.decision free sound closes

/-- Whatever a node takes, the nodes go on as an assembly may. -/
theorem exec (mirrors : m.Mirrors t a) (free : CollisionFree) (sound : SignaturesVerify)
    (allowed : m.Allowed t (i, input)) : ∃ a',
      (a' = a ∨ ∃ event, a.Allowed event ∧ a' = Assembly.exec m.Enough event a) ∧ m.Mirrors (t.exec (i, input)) a' := by
  have stands := mirrors.stands i
  cases run : input.frame (t.node i) with
  | none =>
    have same : t.exec (i, input) = t := by
      simp only [Traffic.exec, Input.exec_of_none run, run, List.drop_length, Option.bind_none, Option.toList_none,
        List.append_nil, Function.update_eq_self]
      exact congrArg (fun sent => (⟨t.node, sent, t.handled⟩ : Traffic ι)) (List.append_nil t.sent)
    exact ⟨a, Or.inl rfl, same.symm ▸ mirrors⟩
  | some frame =>
    have either : frame = .deliver (.submit m.capsule) ∨ m.Left t.sent frame := by
      cases input with
      | receive message =>
        cases run
        rcases allowed message rfl with rfl | member
        · exact Or.inl rfl
        · exact Or.inr (.deliver member)
      | resume k =>
        obtain ⟨frames, here, first⟩ := Option.bind_eq_some_iff.mp run
        exact Or.inr (mirrors.left i frames (List.mem_of_getElem? here) frame (List.mem_of_head? first))
    rcases either with rfl | left
    · have silent : ∀ message, (Frame.deliver (.submit m.capsule)).message? = some message →
          ∀ mail, ¬ m.Means message mail := by
        rintro message here mail about
        cases here
        cases about
      rcases stands.submits with quiet | posed
      · exact ⟨a, Or.inl rfl, mirrors.stay run quiet silent⟩
      · exact ⟨_, Or.inr ⟨.submit i, trivial, rfl⟩,
          mirrors.step run posed (fun _ => id) fun message here mail about => absurd about (silent message here mail)⟩
    · cases left with
      | finish capsuleId => exact ⟨a, Or.inl rfl, mirrors.stay run (stands.finishes capsuleId) nofun⟩
      | await => exact ⟨a, Or.inl rfl, mirrors.stay run stands.awaits nofun⟩
      | @deliver message member =>
        obtain ⟨mail, sent, about, does⟩ := mirrors.handles free sound i member
        exact ⟨_, Or.inr ⟨.take i mail, sent, rfl⟩, mirrors.take run about does⟩

end Mirrors

/-- The nodes stand where the voters of some run do. -/
theorem mirrored (free : CollisionFree) (sound : SignaturesVerify) {node : ι → Running} (ready : m.Ready node)
    {t : Traffic ι} (run : GuardedRun Traffic.exec m.Allowed (.start node) t) : ∃ a, a.Run m.Enough ∧ m.Mirrors t a := by
  induction run with
  | refl => exact ⟨.start, .refl, .start ready⟩
  | @tail t event _ allowed ih =>
    obtain ⟨a, ran, mirrors⟩ := ih
    obtain ⟨j, input⟩ := event
    obtain ⟨a', rfl | ⟨event, may, rfl⟩, mirrors'⟩ := mirrors.exec free sound allowed
    · exact ⟨a', ran, mirrors'⟩
    · exact ⟨_, ran.tail may, mirrors'⟩

/-- When nothing is under way any more, every node has closed a capsule that was sent
to the peers and has its successor as the current seal, where the members that take
part carry the threshold. No order of the messages matters, nor do silent members. -/
theorem carried [Fintype ι] (free : CollisionFree) (sound : SignaturesVerify) {node : ι → Running} (ready : m.Ready node)
    (everyone : m.threshold ≤ ∑ i, m.weight i) {t : Traffic ι}
    (run : GuardedRun Traffic.exec m.Allowed (.start node) t) (posed : .capsule m.capsule ∈ t.sent) (quiet : t.Quiet)
    (i : ι) : (t.node i).node.protocol.closures.contains m.capsule.capsuleId = true ∧
      (t.node i).node.protocol.currentSeals.get? m.old.resourceId = some (nextSeal m.old m.capsule) := by
  obtain ⟨a, ran, mirrors⟩ := mirrored free sound ready run
  have silence : a.Quiet := by
    intro mail sent k
    obtain ⟨message, member, about⟩ := exists_of_forall₂ mirrors.sent.flip sent
    exact mirrors.handled k message (quiet message member k) mail about
  have proposal : .proposal ∈ a.sent := by
    obtain ⟨mail, sent, about⟩ := exists_of_forall₂ mirrors.sent posed
    rwa [Means.unique .proposal about]
  have decided := ran.decided everyone silence proposal i
  have stands := mirrors.stands i
  have head := stands.head
  rw [decided] at head
  exact ⟨stands.closed.trans decided, head⟩

/-- Receipts follow on capsules, and closures on receipts. -/
def rank : Message → ℕ
  | .submit _ | .capsule _ => 0
  | .receipt _ => 1
  | .closure _ _ => 2

theorem Means.rank_lt {message : Message} {mail : Mail ι} (about : m.Means message mail) : rank message < 3 := by
  cases about <;> simp [rank]

/-- What is sent in answer to a message follows on it. -/
theorem rank_answer {message answer : Message} {mail : Mail ι} {v : Voter ι} {i : ι} {messages : List Message}
    (about : m.Means message mail) (means : List.Forall₂ m.Means messages (v.answer m.Enough i mail))
    (member : answer ∈ messages) : rank message < rank answer := by
  obtain ⟨reply, inAnswer, about'⟩ := exists_of_forall₂ means member
  cases about with
  | proposal =>
    simp only [Voter.answer] at inAnswer
    split at inAnswer
    · cases inAnswer
    · cases List.mem_singleton.mp inAnswer
      cases about'
      show rank _ < rank _
      simp [rank]
  | vote j =>
    simp only [Voter.answer] at inAnswer
    split at inAnswer
    · cases List.mem_singleton.mp inAnswer
      cases about'
      show rank _ < rank _
      simp [rank]
    · cases inAnswer
  | decision closes => cases inAnswer

variable (m) in
/-- The messages of the vote as a cascade. -/
def cascade (free : CollisionFree) (sound : SignaturesVerify) : Cascade (Traffic ι) ι Message where
  sent := Traffic.sent
  handled := Traffic.handled
  deliver i message t := t.exec (i, .receive message)
  rank := rank
  Holds t := ∃ a, m.Mirrors t a
  bound := 3
  bounded := by
    rintro t ⟨a, mirrors⟩ message sent
    obtain ⟨mail, -, about⟩ := exists_of_forall₂ mirrors.sent sent
    exact about.rank_lt
  holds := by
    rintro t i message ⟨a, mirrors⟩ sent
    obtain ⟨mail, inSent, about, does⟩ := mirrors.handles free sound i sent
    exact ⟨_, mirrors.take rfl about does⟩
  higher := by
    rintro t i message ⟨a, mirrors⟩ sent
    obtain ⟨mail, inSent, about, effects, log, -, means, -⟩ := mirrors.handles free sound i sent
    refine ⟨sentOf effects, ?_, fun answer => rank_answer about means⟩
    have node : ((Input.receive message).exec (t.node i)).node.log = (t.node i).node.log ++ effects := log
    simp only [Traffic.exec, node, List.drop_left]
  handles t i message := by
    simp only [Traffic.exec]
    rw [Function.update_self]
    exact List.mem_append_right _ (List.mem_singleton_self message)
  keeps t i message j earlier member := by
    simp only [Traffic.exec]
    by_cases here : j = i
    · subst here
      rw [Function.update_self]
      exact List.mem_append_left _ member
    · rwa [Function.update_of_ne here]

/-- From every state of the vote, deliveries of what was sent lead to a state where
nothing is under way. -/
theorem finishes [Fintype ι] (free : CollisionFree) (sound : SignaturesVerify) {node : ι → Running} (ready : m.Ready node)
    {t : Traffic ι} (run : GuardedRun Traffic.exec m.Allowed (.start node) t) :
    ∃ u, GuardedRun Traffic.exec m.Allowed t u ∧ u.Quiet ∧ t.sent <+: u.sent := by
  obtain ⟨a, -, mirrors⟩ := mirrored free sound ready run
  obtain ⟨u, reached, -, quiet⟩ := (m.cascade free sound).settles ⟨a, mirrors⟩
  refine ⟨u, ?_, quiet, ?_⟩
  · clear quiet
    induction reached with
    | refl => exact .refl
    | @tail v w _ step ih =>
      obtain ⟨i, message, sent, rfl⟩ := step
      refine ih.tail fun received here => Or.inr ?_
      cases here
      exact sent
  · clear quiet
    induction reached with
    | refl => exact List.prefix_refl _
    | @tail v w _ step ih =>
      obtain ⟨i, message, sent, rfl⟩ := step
      exact ih.trans (List.prefix_append _ _)

/-- So a capsule that was sent to the peers can be carried whatever has happened. -/
theorem carriable [Fintype ι] (free : CollisionFree) (sound : SignaturesVerify) {node : ι → Running} (ready : m.Ready node)
    (everyone : m.threshold ≤ ∑ i, m.weight i) {t : Traffic ι}
    (run : GuardedRun Traffic.exec m.Allowed (.start node) t) (posed : .capsule m.capsule ∈ t.sent) :
    ∃ u, GuardedRun Traffic.exec m.Allowed t u ∧
      ∀ i, (u.node i).node.protocol.closures.contains m.capsule.capsuleId = true ∧
        (u.node i).node.protocol.currentSeals.get? m.old.resourceId = some (nextSeal m.old m.capsule) := by
  obtain ⟨u, further, quiet, more⟩ := finishes free sound ready run
  exact ⟨u, further, fun i => carried free sound ready everyone (run.trans further) (more.subset posed) quiet i⟩

end Motion

section Pair
variable (pair : KeyPair)

def pairName (first : Bool) : String := if first then "v" else "w"

/-- The nodes of two members of equal weight, as they start. -/
def pairNode (first : Bool) : Running := { pairConfig pair with nodeId := pairName first }.start []

/-- The first capsule of the owner is put to the vote of both. -/
def pairMotion : Motion Bool where
  capsule := soloCapsule pair "p" "a" 0
  old := soloSeal pair "p"
  member first := pairMember pair (pairName first)
  pair _ := pair
  weight _ := 1
  threshold := 2
  loaded _ := rfl
  apart first second same := by
    cases first <;> cases second <;> first | rfl | exact absurd same (by decide : ("v" : String) ≠ "w") |
      exact absurd same (by decide : ("w" : String) ≠ "v")
  named := rfl

variable {pair}

theorem pairMotion_ready (sound : SignaturesVerify) : (pairMotion pair).Ready (pairNode pair) := by
  intro first
  have known : (pairConfig pair).protocol.knownSeals.get? (soloSeal pair "p").sealId = some (soloSeal pair "p") :=
    Dict.get?_set_self _ _ _
  refine ⟨?_, fun thread member => nomatch member⟩
  exact {
    own := by cases first <;> rfl
    others := fun other => ⟨pairMember pair (pairName other), by cases other <;> rfl, rfl⟩
    weights := fun other => by cases other <;> rfl
    threshold := by
      show 2 * (1 + (1 + 0)) / 3 + 1 = 2
      omega
    valid := ⟨⟨_, known, rfl⟩, rfl, Capsule.create_verifies sound _ _ _ _ _ _ _, le_rfl, (by decide : "a" ≠ "")⟩
    known := known
    clean := rfl
    stored := rfl
    held := nofun
    seen := iff_of_false (Finset.notMem_empty _) (by decide)
    closed := rfl
    head := Dict.get?_set_self _ _ _
    unlocked := fun _ => rfl
    locked := nofun
    pool := fun w receipt => iff_of_false nofun nofun
    history := fun other => iff_of_false (Finset.notMem_empty _) (Finset.notMem_empty _)
    waiting := nofun
    emitted := fun _ receipts => Finset.notMem_empty _ }

variable (pair) in
/-- The capsule as it is handed in at the first node. -/
def pairStart : Traffic Bool :=
  (Traffic.start (pairNode pair)).exec (true, .receive (.submit (soloCapsule pair "p" "a" 0)))

theorem pairStart_run : GuardedRun Traffic.exec (pairMotion pair).Allowed (.start (pairNode pair)) (pairStart pair) := by
  refine GuardedRun.refl.tail fun message here => Or.inl ?_
  cases here
  rfl

theorem pairStart_posed (sound : SignaturesVerify) :
    .capsule (soloCapsule pair "p" "a" 0) ∈ (pairStart pair).sent := by
  have ready := (@pairMotion_ready _ pair sound true).1
  have room : (pairNode pair true).node.pending.keys.length < (pairNode pair true).node.maxPendingCapsules := by
    show 0 < 10000
    omega
  obtain ⟨effects, log, -, means, -⟩ := ready.poses room rfl rfl
  have sent : (pairStart pair).sent = sentOf effects := by
    have node : ((Input.receive (.submit (soloCapsule pair "p" "a" 0))).exec (pairNode pair true)).node.log =
        (pairNode pair true).node.log ++ effects := log
    simp only [pairStart, Traffic.exec, Traffic.start, node, List.drop_left, List.nil_append]
  rw [sent]
  obtain ⟨message, member, about⟩ := exists_of_forall₂ means.flip (List.mem_singleton_self _)
  cases about
  exact member

end Pair

omit [Crypto] in
/-- Two nodes carry the capsule that a client hands in at one of them. -/
theorem Motion.carried_pair : let _ := Crypto.ideal
    ∃ t : Traffic Bool, t.Quiet ∧ .capsule (soloCapsule idealKey "p" "a" 0) ∈ t.sent ∧
      ∀ i, (t.node i).node.protocol.closures.contains (soloCapsule idealKey "p" "a" 0).capsuleId = true ∧
        (t.node i).node.protocol.currentSeals.get? "p" =
          some (nextSeal (soloSeal idealKey "p") (soloCapsule idealKey "p" "a" 0)) := by
  let _ := Crypto.ideal
  intro _
  have ready := @pairMotion_ready Crypto.ideal idealKey ideal_signaturesVerify
  have started := @pairStart_run Crypto.ideal idealKey
  have posed := @pairStart_posed Crypto.ideal idealKey ideal_signaturesVerify
  obtain ⟨u, further, quiet, more⟩ := finishes ideal_collisionFree ideal_signaturesVerify ready started
  exact ⟨u, quiet, more.subset posed,
    carried ideal_collisionFree ideal_signaturesVerify ready (by decide) (started.trans further) (more.subset posed) quiet⟩

omit [Crypto] in
/-- And they can do so right after the client has handed it in. -/
theorem Motion.carriable_pair : let _ := Crypto.ideal
    ∃ u : Traffic Bool, ∀ i,
      (u.node i).node.protocol.closures.contains (soloCapsule idealKey "p" "a" 0).capsuleId = true ∧ (u.node i).node.protocol.currentSeals.get? "p" =
        some (nextSeal (soloSeal idealKey "p") (soloCapsule idealKey "p" "a" 0)) := by
  let _ := Crypto.ideal
  intro _
  obtain ⟨u, -, closed⟩ := carriable ideal_collisionFree ideal_signaturesVerify
    (@pairMotion_ready Crypto.ideal idealKey ideal_signaturesVerify) (by decide) (@pairStart_run Crypto.ideal idealKey)
    (@pairStart_posed Crypto.ideal idealKey ideal_signaturesVerify)
  exact ⟨u, closed⟩

end Mosaic
