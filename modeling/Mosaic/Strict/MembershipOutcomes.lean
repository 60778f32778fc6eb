import Mosaic.MembershipOutcomes
import Mosaic.Strict.LedgerPersistence
import Mosaic.Strict.Membership

namespace Mosaic.Strict
open CanonicalJson Effects Mosaic.Economy

variable [Crypto] [Texts] {s t : Economy}

theorem AdmissionRequest.verify_of_encodable {request : AdmissionRequest} (fine : request.statement.Encodable) :
    AdmissionRequest.verify request = .ok request.verify := by
  rw [AdmissionRequest.verify, Economy.canonicalBytes, if_pos fine]
  rfl

theorem AdmissionRequest.verify_raises {request : AdmissionRequest} (refused : ¬ request.statement.Encodable) :
    AdmissionRequest.verify request = .error surrogatesError := by
  rw [AdmissionRequest.verify, Economy.canonicalBytes, if_neg refused]
  rfl

namespace SlashEvidence

def statement (evidence : SlashEvidence) : Json :=
  slashStatement evidence.offenderId evidence.epoch evidence.firstDigest evidence.secondDigest evidence.witnessIds

theorem verify_of_encodable {evidence : SlashEvidence} (fine : (statement evidence).Encodable) :
    SlashEvidence.verify evidence = .ok evidence.verify := by
  have hashed : Economy.digest (slashStatement evidence.offenderId evidence.epoch evidence.firstDigest
      evidence.secondDigest evidence.witnessIds) = .ok (Mosaic.digest (statement evidence)) :=
    Economy.digest_of_encodable fine
  rw [verify, hashed, Mosaic.SlashEvidence.verify]
  split
  · rename_i right
    simp [right, statement]
  · rename_i wrong
    simp only [← Bool.decide_and, and_assoc, wrong, decide_false, Bool.false_and]
    rfl

/-- Evidence that cannot be encoded is refused in one way or the other. -/
theorem verify_refuses {evidence : SlashEvidence} (refused : ¬ (statement evidence).Encodable) :
    SlashEvidence.verify evidence = .ok false ∨ SlashEvidence.verify evidence = .error surrogatesError := by
  have raises : Economy.digest (slashStatement evidence.offenderId evidence.epoch evidence.firstDigest
      evidence.secondDigest evidence.witnessIds) = .error surrogatesError := Economy.digest_raises refused
  rw [verify, raises]
  split
  · exact Or.inr rfl
  · exact Or.inl rfl

end SlashEvidence

/-- The program ends as the call does, whatever it returns or raises. -/
def Performs {β : Type} (y : PyLedger β) (call : SettlementCall) : Prop :=
  ∀ l, (∃ b events l', y l = .ok b l' ∧ SettlementCall.run call l = .ok events l') ∨
    ∃ e e' l', y l = .error e l' ∧ SettlementCall.run call l = .error e' l'

/-- An operation of a manager that shares a ledger, where `call` is the call that it makes of the
ledger. `late` is what makes it raise when the ledger has returned. -/
inductive Ends {α : Type} (x : PyEconomy α) (s : Economy) (admitted : Prop) (call : Option SettlementCall) (late : Prop) : Prop
  | refused {e : EconomyError} (refused : ¬ admitted) (run : x s = .error e s)
  | unpaid {c : SettlementCall} {e e' : EconomyError} {l : SettlementLedger} (admitted : admitted) (made : call = some c)
      (ledger : SettlementCall.run c s.ledger = .error e l) (run : x s = .error e' (s.setLedger l))
  | late {c : SettlementCall} {events : List SettlementEvent} {e : EconomyError} {t : Economy} (admitted : admitted)
      (made : call = some c) (paid : SettlementCall.run c s.ledger = .ok events t.ledger) (late : late)
      (run : x s = .error e t)
  | returned {c : SettlementCall} {events : List SettlementEvent} {a : α} {t : Economy} (admitted : admitted)
      (made : call = some c) (paid : SettlementCall.run c s.ledger = .ok events t.ledger) (timely : ¬ late)
      (bound : t.onboardingBound = s.onboardingBound) (store : t.store.refusal = s.store.refusal) (run : x s = .ok a t)

namespace Ends

variable {α : Type} {admitted late : Prop} {call : Option SettlementCall}

theorem read {k : Economy → PyEconomy α} (rest : Ends (k s) s admitted call late) :
    Ends (get >>= k) s admitted call late := by
  cases rest with
  | refused refused run => exact .refused refused run
  | unpaid holds made ledger run => exact .unpaid holds made ledger run
  | late holds made paid late run => exact .late holds made paid late run
  | returned holds made paid timely bound store run => exact .returned holds made paid timely bound store run

/-- A check that what is admitted passes. -/
theorem guard {bad : Prop} [Decidable bad] {error : EconomyError} {k : PUnit → PyEconomy α} (refuses : bad → ¬ admitted)
    (rest : ¬ bad → Ends (k ⟨⟩) s admitted call late) : Ends (raiseIf bad error >>= k) s admitted call late := by
  by_cases raised : bad
  · exact .refused (refuses raised) (raiseIf_bind_pos raised error k s)
  · have passed := raiseIf_bind_neg raised error k s
    cases rest raised with
    | refused refused run => exact .refused refused (passed.trans run)
    | unpaid holds made ledger run => exact .unpaid holds made ledger (passed.trans run)
    | late holds made paid late run => exact .late holds made paid late (passed.trans run)
    | returned holds made paid timely bound store run =>
      exact .returned holds made paid timely bound store (passed.trans run)

/-- A signature or an identifier that is computed and checked. -/
theorem verdict {result : Except EconomyError Bool} {plain : Bool} {fine : Prop} {error : EconomyError}
    {k : PUnit → PyEconomy α} (encoded : fine → result = .ok plain)
    (refuses : ¬ fine → result = .ok false ∨ result = .error surrogatesError) (needs : admitted → fine ∧ plain = true)
    (rest : fine → plain = true → Ends (k ⟨⟩) s admitted call late) :
    Ends (ofExcept result >>= fun verified => raiseIf (verified = false) error >>= k) s admitted call late := by
  by_cases spelled : fine
  · rw [encoded spelled]
    exact guard (fun bad able => Bool.false_ne_true (bad.symm.trans (needs able).2)) fun good =>
      rest spelled (by simpa using good)
  · have not : ¬ admitted := fun able => spelled (needs able).1
    rcases refuses spelled with wrong | raised
    · have raised : (raiseIf (false = false) error >>= k) s = .error error s := raiseIf_bind_pos rfl error k s
      rw [wrong]
      exact .refused not raised
    · rw [raised]
      exact .refused not rfl

/-- What comes when the ledger is paid raises or returns, and changes the manager alone. -/
def Follows (k : PyEconomy α) (s : Economy) (late : Prop) : Prop :=
  (late ∧ ∃ e m, k s = .error e (s.setManager m)) ∨ (¬ late ∧ ∃ a m, k s = .ok a (s.setManager m))

omit [Crypto] [Texts] in
theorem Follows.guard {bad : Prop} [Decidable bad] {error : EconomyError} {k : PUnit → PyEconomy α} (behind : bad → late)
    (rest : ¬ bad → Follows (k ⟨⟩) s late) : Follows (raiseIf bad error >>= k) s late := by
  by_cases raised : bad
  · exact Or.inl ⟨behind raised, error, s.manager, raiseIf_bind_pos raised error k s⟩
  · have passed := raiseIf_bind_neg raised error k s
    rcases rest raised with ⟨late, e, m, run⟩ | ⟨timely, a, m, run⟩
    · exact Or.inl ⟨late, e, m, passed.trans run⟩
    · exact Or.inr ⟨timely, a, m, passed.trans run⟩

/-- The program goes on when the ledger is paid. -/
theorem settles {β : Type} {m : MembershipManager} {y : PyLedger β} {c : SettlementCall} {k : PyEconomy α}
    (shared : m.settlement = true) (performs : Performs y c) (holds : admitted) (made : call = some c)
    (follows : ∀ l, Follows k (s.setLedger l) late) : Ends (m.settle y >>= fun _ => k) s admitted call late := by
  have start : m.settle y = discard (onLedger y) := by
    rw [MembershipManager.settle, if_pos shared]
    rfl
  rw [start]
  rcases performs s.ledger with ⟨b, events, l, run, paid⟩ | ⟨e, e', l, run, raised⟩
  · have settled : (discard (onLedger y)) s = .ok ⟨⟩ (s.setLedger l) := bind_of_ok (onPart_of_ok run)
    rcases follows l with ⟨behind, e, m', tail⟩ | ⟨timely, a, m', tail⟩
    · exact .late holds made paid behind ((bind_of_ok settled).trans tail)
    · exact .returned (t := (s.setLedger l).setManager m') holds made paid timely rfl rfl ((bind_of_ok settled).trans tail)
  · have settled : (discard (onLedger y)) s = .error e (s.setLedger l) := bind_of_error (onPart_of_error run)
    exact .unpaid holds made raised (bind_of_error settled)

end Ends

namespace MembershipManager
open Mosaic.MembershipManager

variable {m : MembershipManager}

/-- If the validator votes, the texts of its record can be encoded. -/
def Spelled (record : ValidatorRecord) : Prop :=
  record.votes = true → Texts.encodes record.validatorId = true ∧ Texts.encodes record.depositId = true

/-- The records of all other validators are spelled in texts that can be encoded. -/
def SpelledBut (m : MembershipManager) (validatorId : String) : Prop :=
  ∀ v record, v ≠ validatorId → m.records.get? v = some record → Spelled record

omit [Crypto] in
theorem validatorFields_encodable_iff {record : ValidatorRecord} : (validatorFields record).Encodable ↔
    Texts.encodes record.validatorId = true ∧ Texts.encodes record.depositId = true := by
  simp (disch := decide) [validatorFields, encodes_hex, encodes_of_all]

omit [Crypto] in
theorem rootStatement_encodable_iff : (rootStatement m).Encodable ↔
    ∀ v record, m.records.get? v = some record → Spelled record := by
  rw [rootStatement, encodable_obj]
  simp (disch := decide) only [List.forall_mem_cons, encodable_str, encodable_int, encodable_list, encodes_hex, encodes_of_all,
    List.forall_mem_map, true_and, List.not_mem_nil, false_implies, implies_true, and_true]
  constructor
  · intro each v record held votes
    refine validatorFields_encodable_iff.mp (each record (List.mem_filter.mpr ⟨?_, votes⟩))
    exact (sortedBy_perm _ _).mem_iff.mpr (Dict.mem_values_of_get? held)
  · intro each record member
    obtain ⟨listed, votes⟩ := List.mem_filter.mp member
    obtain ⟨v, held⟩ := Dict.mem_values.mp ((sortedBy_perm _ _).mem_iff.mp listed)
    exact validatorFields_encodable_iff.mpr (each v record held votes)

omit [Crypto] in
theorem rootStatement_set_iff {v : String} {record : ValidatorRecord} {m' : MembershipManager}
    (records : m'.records = m.records.set v record) :
    (rootStatement m').Encodable ↔ SpelledBut m v ∧ Spelled record := by
  rw [rootStatement_encodable_iff, records]
  constructor
  · intro each
    refine ⟨fun w other apart held => each w other ?_, each v record (Dict.get?_set_self _ _ _)⟩
    rw [Dict.get?_set_of_ne _ _ apart.symm]
    exact held
  · rintro ⟨others, own⟩ w other held
    by_cases same : w = v
    · subst same
      rw [Dict.get?_set_self] at held
      cases held
      exact own
    · rw [Dict.get?_set_of_ne _ _ (Ne.symm same)] at held
      exact others w other same held

omit [Crypto] in
theorem rootStatement_drop_iff {v : String} : (rootStatement (m.dropValidator v)).Encodable ↔ SpelledBut m v := by
  rw [rootStatement_encodable_iff, dropValidator_records]
  constructor
  · intro each w other apart held
    refine each w other ?_
    rw [Dict.get?_erase, if_neg (Ne.symm apart)]
    exact held
  · intro others w other held
    rw [Dict.get?_erase] at held
    split at held
    · cases held
    · rename_i apart
      exact others w other (Ne.symm apart) held

/-- The manager is changed and its snapshot is built again. -/
theorem rebuild_ok {α : Type} {f : MembershipManager → MembershipManager} {k : PUnit → PyEconomy α}
    (fine : (rootStatement (f t.manager)).Encodable) :
    (updateManager f >>= fun _ => rebuild >>= k) t = k ⟨⟩ (t.setManager (f t.manager).rebuilt) := by
  have built : buildSnapshot (f t.manager) = .ok (f t.manager).buildSnapshot := by
    rw [buildSnapshot, Economy.digest_of_encodable fine]
    rfl
  have ran : rebuild (t.setManager (f t.manager)) = .ok ⟨⟩ (t.setManager (f t.manager).rebuilt) := by
    rw [rebuild, get_bind_apply]
    change ((ofExcept (buildSnapshot (f t.manager)) : PyEconomy MembershipSnapshot) >>= _) _ = _
    rw [built]
    rfl
  exact bind_of_ok ran

/-- The snapshot cannot be built, and the manager is left with its changes. -/
theorem rebuild_raises {α : Type} {f : MembershipManager → MembershipManager} {k : PUnit → PyEconomy α}
    (refused : ¬ (rootStatement (f t.manager)).Encodable) :
    (updateManager f >>= fun _ => rebuild >>= k) t = .error surrogatesError (t.setManager (f t.manager)) := by
  have built : buildSnapshot (f t.manager) = .error surrogatesError := by
    rw [buildSnapshot, Economy.digest_raises refused]
    rfl
  have ran : rebuild (t.setManager (f t.manager)) = .error surrogatesError (t.setManager (f t.manager)) := by
    rw [rebuild, get_bind_apply]
    change ((ofExcept (buildSnapshot (f t.manager)) : PyEconomy MembershipSnapshot) >>= _) _ = _
    rw [built]
    rfl
  have start : (updateManager f >>= fun _ => rebuild >>= k) t = (rebuild >>= k) (t.setManager (f t.manager)) := rfl
  exact start.trans (bind_of_error ran)

section Certificates

variable {request : AdmissionRequest} {approverIds : List String}

omit [Crypto] in
theorem certificateStatement_encodable_iff {requestDigest : String} (fine : Texts.encodes requestDigest = true) :
    (certificateStatement m requestDigest (sorted approverIds.dedup)).Encodable ↔
      ∀ approver ∈ approverIds, Texts.encodes approver = true := by
  rw [certificateStatement, encodable_obj]
  simp (disch := decide) only [List.forall_mem_cons, encodable_str, encodable_int, encodable_list, encodes_of_all, fine,
    List.forall_mem_map, SettlementLedger.mem_sorted, List.mem_dedup, true_and, List.not_mem_nil, false_implies, implies_true, and_true]

theorem requestDigest_ok (fine : request.statement.Encodable) :
    Economy.digest (.obj (request.statementFields ++ [("signature", .str (hex request.applicantSignature))])) =
      .ok (requestDigest request) := by
  refine Economy.digest_of_encodable (encodable_obj.mpr fun entry member => ?_)
  rcases List.mem_append.mp member with field | signature
  · exact encodable_obj.mp fine entry field
  · obtain rfl := List.mem_singleton.mp signature
    have label : Texts.encodes "signature" = true := encodes_of_all (by decide)
    exact ⟨label, encodable_str.mpr (encodes_hex _)⟩

theorem admissionCertificate_ok (digests : DigestsEncode) (fine : request.statement.Encodable)
    (approvers : ∀ approver ∈ approverIds, Texts.encodes approver = true) :
    admissionCertificate m request approverIds = .ok (m.admissionCertificate request approverIds) := by
  have hashed : Economy.digest (certificateStatement m (requestDigest request) (sorted approverIds.dedup)) = .ok _ :=
    Economy.digest_of_encodable ((certificateStatement_encodable_iff (digests _)).mpr approvers)
  rw [admissionCertificate, requestDigest_ok fine]
  change (Economy.digest (certificateStatement m (requestDigest request) (sorted approverIds.dedup)) >>= _) = _
  rw [hashed]
  rfl

theorem admissionCertificate_raises (digests : DigestsEncode) (fine : request.statement.Encodable)
    (refused : ¬ ∀ approver ∈ approverIds, Texts.encodes approver = true) :
    admissionCertificate m request approverIds = .error surrogatesError := by
  have raised : Economy.digest (certificateStatement m (requestDigest request) (sorted approverIds.dedup)) = _ :=
    Economy.digest_raises (mt (certificateStatement_encodable_iff (digests _)).mp refused)
  rw [admissionCertificate, requestDigest_ok fine]
  change (Economy.digest (certificateStatement m (requestDigest request) (sorted approverIds.dedup)) >>= _) = _
  rw [raised]
  rfl

end Certificates

/-- What `admit` checks, and what it encodes to do so. -/
structure Admissible (m : MembershipManager) (request : AdmissionRequest) (bond : Option StakeBond) : Prop where
  sound : m.Admissible request bond
  request : request.statement.Encodable
  bond : ∀ b ∈ bond, b.statement.Encodable

/-- What `admit` hashes after it has written: the records of the voting validators and the approvers. -/
structure Certifiable (m : MembershipManager) (request : AdmissionRequest) (approverIds : List String) : Prop where
  others : SpelledBut m request.validatorId
  approvers : ∀ approver ∈ approverIds, Texts.encodes approver = true

omit [Crypto] in
theorem admittedRecord_spelled {request : AdmissionRequest} (fine : request.statement.Encodable) :
    Spelled (admittedRecord request) := by
  have fields := encodable_obj.mp fine
  have validator := fields ("validator_id", .str request.validatorId) (by simp [AdmissionRequest.statementFields])
  have deposit := fields ("deposit_id", .str request.depositId) (by simp [AdmissionRequest.statementFields])
  exact fun _ => ⟨encodable_str.mp validator.2, encodable_str.mp deposit.2⟩

omit [Texts] in
theorem enrolled_rebuilt (m : MembershipManager) (request : AdmissionRequest) :
    (enrolled m request).rebuilt = m.register request := rfl

/-- What is left to do when the bond is locked. -/
theorem enrolls {m' : MembershipManager} {request : AdmissionRequest} (digests : DigestsEncode)
    (fine : request.statement.Encodable) (approverIds : List String) (start : t.manager = m') (records : m'.records = m.records) :
    (¬ Certifiable m request approverIds ∧ ∃ e f, (updateManager (enrolled · request) >>= fun _ => rebuild >>= fun _ =>
        (ofExcept (admissionCertificate m request approverIds) : PyEconomy AdmissionCertificate)) t =
          .error e (t.setManager f)) ∨
      (Certifiable m request approverIds ∧ (updateManager (enrolled · request) >>= fun _ => rebuild >>= fun _ =>
        (ofExcept (admissionCertificate m request approverIds) : PyEconomy AdmissionCertificate)) t =
          .ok (m.admissionCertificate request approverIds) (t.setManager (m'.register request))) := by
  subst start
  have root : (rootStatement (enrolled t.manager request)).Encodable ↔ SpelledBut m request.validatorId := by
    have same : (enrolled t.manager request).records = m.records.set request.validatorId (admittedRecord request) := by
      rw [← records]
      rfl
    exact (rootStatement_set_iff same).trans (and_iff_left (admittedRecord_spelled fine))
  by_cases others : SpelledBut m request.validatorId
  · rw [rebuild_ok (t := t) (f := (enrolled · request)) (root.mpr others), enrolled_rebuilt]
    by_cases approvers : ∀ approver ∈ approverIds, Texts.encodes approver = true
    · refine Or.inr ⟨⟨others, approvers⟩, ?_⟩
      exact ofExcept_of_ok (admissionCertificate_ok digests fine approvers) _
    · refine Or.inl ⟨fun able => approvers able.approvers, surrogatesError, t.manager.register request, ?_⟩
      rw [admissionCertificate_raises digests fine approvers]
      rfl
  · exact Or.inl ⟨fun able => others able.others, _, _, rebuild_raises (t := t) (f := (enrolled · request)) (mt root.mp others)⟩

theorem bond_performs (b : StakeBond) (epoch : Int) : Performs (SettlementLedger.bond b epoch) (.bond b epoch) :=
  performs_single

theorem admit_ends (digests : DigestsEncode) (shared : s.manager.settlement = true) (request : AdmissionRequest)
    (approverIds : List String) (bond : Option StakeBond) :
    Ends (admitValidator request approverIds bond) s (Admissible s.manager request bond) (s.manager.admissionCall bond)
      (¬ Certifiable s.manager request approverIds) := by
  refine .read (.verdict AdmissionRequest.verify_of_encodable (fun refused => Or.inr (AdmissionRequest.verify_raises refused))
    (fun able => ⟨able.request, able.sound.verified⟩) fun fine verified => .guard (fun bad able => ?_) fun stake =>
    .guard (fun bad able => ?_) fun fresh => .guard (fun bad able => able.sound.bonded bad.1 bad.2) fun bonded =>
    .guard (fun bad able => ?_) fun new => .guard (fun bad able => able.sound.unused bad) fun unused => ?_)
  · exact absurd able.sound.stake (by omega)
  · exact absurd able.sound.fresh (by omega)
  · simp [Dict.contains, able.sound.new] at bad
  cases bond with
  | none => exact absurd ⟨shared, rfl⟩ bonded
  | some b =>
    dsimp only
    simp only [lockBond, bind_assoc]
    refine .verdict StakeBond.verify_of_encodable StakeBond.verify_refuses
      (fun able => ⟨able.bond b rfl, (able.sound.fits b rfl).verified⟩) fun fine' verified' =>
      .guard (fun bad able => bad (able.sound.fits b rfl).named) fun named => .guard (fun bad able => ?_) fun same =>
      .guard (fun bad able => ?_) fun active => ?_
    · have fits := able.sound.fits b rfl
      exact bad.elim (fun key => key fits.key) fun amount => amount fits.amount
    · exact absurd (able.sound.fits b rfl).active (by omega)
    obtain ⟨key, amount⟩ := not_or.mp same
    have fits : s.manager.BondFits request b := ⟨verified', not_not.mp named, not_not.mp key, not_not.mp amount, by omega⟩
    have able : Admissible s.manager request (some b) := by
      refine ⟨⟨verified, by omega, by omega, fun _ none => bonded ⟨shared, none⟩, by simpa using new, unused, ?_⟩, fine, ?_⟩
      · intro b' here
        cases here
        exact fits
      · intro b' here
        cases here
        exact fine'
    refine .settles shared (bond_performs b _) able (by rw [admissionCall, if_pos shared]; rfl) fun l => ?_
    have enrolled := enrolls (t := (s.setLedger l).setManager (s.manager.addBond request.validatorId b)) (m := s.manager)
      digests fine approverIds rfl rfl
    rcases enrolled with ⟨late, e, f, run⟩ | ⟨timely, run⟩
    · exact Or.inl ⟨late, e, f, run⟩
    · exact Or.inr ⟨not_not.mpr timely, _, _, run⟩

/-- The call on the bond of a validator. -/
theorem settleBond_ends {α β : Type} {admitted late : Prop} {validatorId : String}
    {y : String → PyLedger β} {call : String → SettlementCall} {k : PyEconomy α} (shared : m.settlement = true)
    (performs : ∀ bondId, Performs (y bondId) (call bondId)) (bare : ¬ m.Backed validatorId → ¬ admitted)
    (holds : m.Backed validatorId → admitted) (follows : ∀ l, Ends.Follows k (s.setLedger l) late) :
    Ends (m.settleBond validatorId y >>= fun _ => k) s admitted (m.bondCall validatorId call) late := by
  cases held : m.validatorBonds.get? validatorId with
  | none =>
    have unbacked : ¬ m.Backed validatorId := fun backed => backed shared held
    obtain ⟨e, raised⟩ := settleBond_raises (s := s) (y := y) unbacked
    exact .refused (bare unbacked) (bind_of_error raised)
  | some bondId =>
    have backed : m.Backed validatorId := fun _ none => by simp [held] at none
    have same : m.settleBond validatorId y = m.settle (y bondId) := by simp only [settleBond, held]
    rw [same]
    refine .settles shared (performs bondId) (holds backed) ?_ follows
    simp only [bondCall, held, if_pos shared, Option.map_some]

section Exit

variable {validatorId : String} {record : ValidatorRecord}

theorem exit_unknown (unknown : s.manager.records.get? validatorId = none) (epoch : Option Int) :
    ∃ e, exit validatorId epoch s = .error e s := by
  refine ⟨.membership "unknown validator", ?_⟩
  simp only [exit, bind_apply, get_apply, unknown, throw_apply]

omit [Crypto] in
theorem exitStatement_encodable_iff : (exitStatement m validatorId).Encodable ↔ Texts.encodes validatorId = true := by
  simp (disch := decide) [exitStatement, encodes_of_all]

/-- What `exit` hashes after it has written. -/
structure Leavable (m : MembershipManager) (validatorId : String) : Prop where
  others : SpelledBut m validatorId
  own : Texts.encodes validatorId = true

theorem requestUnbond_performs (bondId : String) (epoch delay : Int) :
    Performs (SettlementLedger.requestUnbond bondId epoch delay) (.requestUnbond bondId epoch delay) := performs_single

theorem exit_ends (shared : s.manager.settlement = true) (held : s.manager.records.get? validatorId = some record)
    (epoch : Option Int) :
    Ends (exit validatorId epoch) s (s.manager.Exitable validatorId epoch)
      (s.manager.bondCall validatorId fun bondId => .requestUnbond bondId s.manager.epoch s.manager.withdrawalDelay)
      (¬ Leavable s.manager validatorId) := by
  refine .read ?_
  simp only [held]
  refine .guard (fun bad able => ?_) fun fresh => ?_
  · rw [able.fresh] at bad
    cases bad
  refine settleBond_ends shared (fun bondId => requestUnbond_performs bondId _ _) (fun bare able => bare able.backed)
    (fun backed => ⟨by simpa using fresh, backed⟩) fun l => ?_
  have root : (rootStatement (s.manager.setRecord validatorId (s.manager.exitedRecord record))).Encodable ↔
      SpelledBut s.manager validatorId :=
    (rootStatement_set_iff rfl).trans (and_iff_left fun votes => absurd votes (by simp [exitedRecord, ValidatorRecord.votes]))
  by_cases others : SpelledBut s.manager validatorId
  · have built := rebuild_ok (t := s.setLedger l) (k := fun _ => ofExcept (exitCertificate s.manager validatorId))
      (f := fun m => m.setRecord validatorId (m.exitedRecord record)) (root.mpr others)
    by_cases own : Texts.encodes validatorId = true
    · have hashed := Economy.digest_of_encodable (exitStatement_encodable_iff (m := s.manager).mpr own)
      refine Or.inr ⟨not_not.mpr ⟨others, own⟩, s.manager.exitCertificate validatorId,
        s.manager.exited validatorId record, built.trans ?_⟩
      refine ofExcept_of_ok ?_ _
      rw [exitCertificate, hashed]
      rfl
    · have raised := Economy.digest_raises (mt (exitStatement_encodable_iff (m := s.manager)).mp own)
      refine Or.inl ⟨fun able => own able.own, surrogatesError, s.manager.exited validatorId record, built.trans ?_⟩
      rw [exitCertificate, raised]
      rfl
  · exact Or.inl ⟨fun able => others able.others, _, _, rebuild_raises (t := s.setLedger l)
      (f := fun m => m.setRecord validatorId (m.exitedRecord record)) (mt root.mp others)⟩

end Exit

section Withdraw

variable {validatorId : String} {record : ValidatorRecord}

theorem withdraw_unknown (unknown : s.manager.records.get? validatorId = none) (currentEpoch : Option Int) :
    ∃ e, withdraw validatorId currentEpoch s = .error e s := by
  refine ⟨.membership "unknown validator", ?_⟩
  simp only [withdraw, bind_apply, get_apply, unknown, throw_apply]

omit [Crypto] in
theorem withdrawalStatement_encodable_iff : (withdrawalStatement validatorId record).Encodable ↔
    Texts.encodes validatorId = true ∧ Texts.encodes record.depositId = true := by
  simp (disch := decide) [withdrawalStatement, encodes_of_all]

/-- What `withdraw` checks when the ledger has paid, and what it hashes. -/
structure Removable (m : MembershipManager) (validatorId : String) (record : ValidatorRecord) (epoch : Int) : Prop where
  gone : ¬ Staying record epoch
  receipt : Texts.encodes validatorId = true ∧ Texts.encodes record.depositId = true
  others : SpelledBut m validatorId

theorem withdraw_performs (bondId : String) (epoch : Int) (caught : EconomyError → Bool)
    (convert : EconomyError → EconomyError) :
    Performs (rethrow caught convert (SettlementLedger.withdraw bondId epoch)) (.withdraw bondId epoch) := by
  intro l
  rcases @performs_single (SettlementLedger.withdraw bondId epoch) l with ⟨b, events, l', run, same⟩ | ⟨e, e', l', run, same⟩
  · exact Or.inl ⟨b, events, l', rethrow_of_ok run, same⟩
  · exact Or.inr ⟨_, e', l', rethrow_of_error run, same⟩

theorem withdraw_ends (shared : s.manager.settlement = true) (held : s.manager.records.get? validatorId = some record)
    (currentEpoch : Option Int) :
    Ends (withdraw validatorId currentEpoch) s (s.manager.Backed validatorId)
      (s.manager.bondCall validatorId fun bondId => .withdraw bondId (currentEpoch.getD s.manager.epoch))
      (¬ Removable s.manager validatorId record (currentEpoch.getD s.manager.epoch)) := by
  refine .read ?_
  simp only [held]
  refine settleBond_ends shared (fun bondId => withdraw_performs bondId _ _ _) id id fun l =>
    .guard (fun active able => able.gone (Or.inl active)) fun inactive =>
    .guard (fun locked able => able.gone (Or.inr locked)) fun unlocked => ?_
  by_cases receipt : Texts.encodes validatorId = true ∧ Texts.encodes record.depositId = true
  · have made : withdrawalReceipt validatorId record = .ok (Mosaic.MembershipManager.withdrawalReceipt validatorId record) := by
      rw [withdrawalReceipt, Economy.digest_of_encodable (withdrawalStatement_encodable_iff.mpr receipt)]
      rfl
    rw [made]
    by_cases others : SpelledBut s.manager validatorId
    · have built := rebuild_ok (t := s.setLedger l)
        (k := fun _ => pure (Mosaic.MembershipManager.withdrawalReceipt validatorId record))
        (f := (·.dropValidator validatorId)) (rootStatement_drop_iff.mpr others)
      exact Or.inr ⟨not_not.mpr ⟨not_or.mpr ⟨inactive, unlocked⟩, receipt, others⟩, _, _, built⟩
    · exact Or.inl ⟨fun able => others able.others, _, _, rebuild_raises (t := s.setLedger l)
        (f := (·.dropValidator validatorId)) (mt rootStatement_drop_iff.mp others)⟩
  · have raised : withdrawalReceipt validatorId record = .error surrogatesError := by
      rw [withdrawalReceipt, Economy.digest_raises (mt withdrawalStatement_encodable_iff.mp receipt)]
      rfl
    rw [raised]
    exact Or.inl ⟨fun able => receipt able.receipt, surrogatesError, s.manager, rfl⟩

end Withdraw

section Slash

variable {evidence : SlashEvidence} {record : ValidatorRecord}

theorem slash_unknown (unknown : s.manager.records.get? evidence.offenderId = none) (penalty : Option Int) :
    ∃ e, slash evidence penalty s = .error e s := by
  have ends : Ends (slash evidence penalty) s False none True := by
    refine .read (.verdict SlashEvidence.verify_of_encodable SlashEvidence.verify_refuses False.elim fun _ _ =>
      .guard (fun _ => id) fun _ => ?_)
    simp only [unknown]
    exact .refused id rfl
  cases ends with
  | refused _ run => exact ⟨_, run⟩
  | unpaid admitted | late admitted | returned admitted => exact admitted.elim

/-- What `slash` checks, and what it encodes to do so. -/
structure Punishable (m : MembershipManager) (evidence : SlashEvidence) : Prop where
  sound : m.Punishable evidence
  evidence : (SlashEvidence.statement evidence).Encodable

/-- What `slash` checks when the ledger has taken the stake, and what it hashes. -/
structure Timely (m : MembershipManager) (evidence : SlashEvidence) (record : ValidatorRecord) (amount : Int) : Prop where
  timely : ¬ m.Untimely evidence amount
  others : SpelledBut m evidence.offenderId
  own : Spelled (slashedRecord record amount)

theorem slash_performs (bondId : String) (amount epoch : Int) (evidenceId : String) :
    Performs (SettlementLedger.slash bondId amount epoch evidenceId none) (.slash bondId amount epoch evidenceId none) := by
  intro l
  cases run : SettlementLedger.slash bondId amount epoch evidenceId none l with
  | ok events t => exact Or.inl ⟨events, events, t, rfl, run⟩
  | error e t => exact Or.inr ⟨e, e, t, rfl, run⟩

theorem slash_ends (shared : s.manager.settlement = true)
    (held : s.manager.records.get? evidence.offenderId = some record) (penalty : Option Int) :
    Ends (slash evidence penalty) s (Punishable s.manager evidence)
      (s.manager.bondCall evidence.offenderId fun bondId =>
        .slash bondId (penalty.getD record.stake) evidence.epoch evidence.evidenceId none)
      (¬ Timely s.manager evidence record (penalty.getD record.stake)) := by
  refine .read (.verdict SlashEvidence.verify_of_encodable SlashEvidence.verify_refuses
    (fun able => ⟨able.evidence, able.sound.verified⟩) fun fine verified => .guard (fun bad able => ?_) fun new => ?_)
  · simp [Dict.contains, able.sound.new] at bad
  simp only [held]
  refine settleBond_ends shared (fun bondId => slash_performs bondId _ _ _) (fun bare able => bare able.sound.backed)
    (fun backed => ⟨⟨verified, by simpa using new, backed⟩, fine⟩) fun l =>
    .guard (fun future able => able.timely (Or.inl future)) fun past =>
    .guard (fun small able => able.timely (Or.inr small)) fun positive => ?_
  by_cases spelled : SpelledBut s.manager evidence.offenderId ∧ Spelled (slashedRecord record (penalty.getD record.stake))
  · have built := rebuild_ok (t := s.setLedger l) (k := fun _ => pure (slashedRecord record (penalty.getD record.stake)))
      (f := fun m => (m.setRecord evidence.offenderId (slashedRecord record (penalty.getD record.stake))).addSlash evidence)
      ((rootStatement_set_iff rfl).mpr spelled)
    exact Or.inr ⟨not_not.mpr ⟨not_or.mpr ⟨past, positive⟩, spelled.1, spelled.2⟩, _, _, built⟩
  · exact Or.inl ⟨fun able => spelled ⟨able.others, able.own⟩, _, _, rebuild_raises (t := s.setLedger l)
      (f := fun m => (m.setRecord evidence.offenderId (slashedRecord record (penalty.getD record.stake))).addSlash evidence)
      (mt (rootStatement_set_iff rfl).mp spelled)⟩

end Slash

end MembershipManager

end Mosaic.Strict
