import Mathlib.Algebra.BigOperators.Intervals
import Mathlib.Algebra.Order.BigOperators.Group.Finset
import Mosaic.Crypto
import Mosaic.Lib.DictSum
import Mosaic.Lib.Effects
import Mosaic.Lib.GuardedRun

namespace Mosaic.Nexus
open CanonicalJson Effects

structure AdmissionCertificate where
  certificateId : String
  epoch : Int
  validatorId : String
  publicKey : Bytes
  depositId : String
  stake : Int
  signatory : String
  authoritySignature : Bytes
  statementDigest : String
  deriving DecidableEq

/-- The message for unknown validators lists them in order. -/
inductive RegistryError
  | membershipError (message : String)
  | unknownValidators (items : Finset String)
  | zeroDivisionError
  deriving DecidableEq

section Registry
variable [Crypto]

structure MembershipRegistry where
  authorityKeypair : KeyPair
  minStake : Int
  epoch : Int
  records : Dict String AdmissionCertificate
  usedDeposits : Finset String

abbrev PyRegistry := EStateM RegistryError MembershipRegistry

namespace MembershipRegistry

/-- `MembershipRegistry(authority_keypair, min_stake, epoch)`. -/
def new (authorityKeypair : KeyPair) (minStake epoch : Int) : MembershipRegistry where
  authorityKeypair := authorityKeypair
  minStake := minStake
  epoch := epoch
  records := .empty
  usedDeposits := ∅

def authorityId (r : MembershipRegistry) : String := r.authorityKeypair.identity

def totalStake (r : MembershipRegistry) : Int := r.records.sumBy AdmissionCertificate.stake

def threshold (r : MembershipRegistry) : Int := 2 * r.totalStake / 3 + 1

def statement (r : MembershipRegistry) (validatorId : String) (publicKey : Bytes) (depositId : String) (stake : Int) :
    Json := .obj [
  ("protocol", .str "CCD/NEXUS/v1"),
  ("phase", .str "ADMISSION"),
  ("epoch", .int r.epoch),
  ("validator_id", .str validatorId),
  ("public_key", .str (hex publicKey)),
  ("deposit_id", .str depositId),
  ("stake", .int stake),
  ("authority", .str r.authorityId)]

/-- The statement that a certificate is about. -/
def statementOf (r : MembershipRegistry) (certificate : AdmissionCertificate) : Json :=
  r.statement certificate.validatorId certificate.publicKey certificate.depositId certificate.stake

def certificateId (statementDigest : String) (authoritySignature : Bytes) : String := digest (.obj [
  ("statement", .str statementDigest),
  ("authority_signature", .str (hex authoritySignature))])

def verifyCertificate (r : MembershipRegistry) (certificate : AdmissionCertificate) : Bool :=
  let expectedDigest := digest (r.statementOf certificate)
  certificate.certificateId = certificateId expectedDigest certificate.authoritySignature
    && certificate.statementDigest = expectedDigest
    && certificate.epoch = r.epoch
    && certificate.signatory = r.authorityId
    && certificate.stake ≥ r.minStake
    && KeyPair.verify r.authorityKeypair.publicKey (canonicalBytes (r.statementOf certificate))
      certificate.authoritySignature

/-- The certificate that the authority makes out. -/
def issued (r : MembershipRegistry) (validatorId : String) (publicKey : Bytes) (depositId : String) (stake : Int) :
    AdmissionCertificate :=
  let statement := r.statement validatorId publicKey depositId stake
  let signature := r.authorityKeypair.sign (canonicalBytes statement)
  { certificateId := certificateId (digest statement) signature
    epoch := r.epoch
    validatorId, publicKey, depositId, stake
    signatory := r.authorityId
    authoritySignature := signature
    statementDigest := digest statement }

def record (certificate : AdmissionCertificate) (r : MembershipRegistry) : MembershipRegistry :=
  { r with
    records := r.records.set certificate.validatorId certificate
    usedDeposits := insert certificate.depositId r.usedDeposits }

/-- `admit`. -/
def admitValidator (validatorId : String) (publicKey : Bytes) (depositId : String) (stake : Int) :
    PyRegistry AdmissionCertificate := do
  let r ← get
  raiseIf (r.records.contains validatorId = true) (.membershipError "validator identity already exists")
  raiseIf (depositId ∈ r.usedDeposits) (.membershipError "deposit id has already been used")
  raiseIf (stake < r.minStake) (.membershipError "stake is below minimum")
  raiseIf (validatorId = "" ∨ depositId = "" ∨ publicKey = [])
    (.membershipError "identity, deposit and public key are required")
  let certificate := r.issued validatorId publicKey depositId stake
  raiseIf (r.verifyCertificate certificate = false)
    (.membershipError "issued admission certificate failed verification")
  modify (record certificate)
  return certificate

def registerExternalCertificate (certificate : AdmissionCertificate) : PyRegistry PUnit := do
  let r ← get
  raiseIf (r.verifyCertificate certificate = false) (.membershipError "invalid admission certificate")
  raiseIf (r.records.contains certificate.validatorId = true) (.membershipError "validator identity already exists")
  raiseIf (certificate.depositId ∈ r.usedDeposits) (.membershipError "deposit id has already been used")
  modify (record certificate)

def sybilCapacity (r : MembershipRegistry) (budget : Int) : Except RegistryError Int := do
  refuseIf (budget < 0) (.membershipError "budget cannot be negative")
  refuseIf (r.minStake = 0) .zeroDivisionError
  return budget.fdiv r.minStake

def weightOf (r : MembershipRegistry) (validatorIds : Finset String) : Except RegistryError Int := do
  let unknown := validatorIds.filter fun item => item ∉ r.records.keys
  refuseIf (unknown ≠ ∅) (.unknownValidators unknown)
  return ∑ item ∈ validatorIds, r.records.amountAt AdmissionCertificate.stake item

def splitBudget (r : MembershipRegistry) (budget requestedIdentities : Int) : Except RegistryError (List Int) := do
  refuseIf (requestedIdentities ≤ 0) (.membershipError "requested identities must be positive")
  let capacity ← r.sybilCapacity budget
  refuseIf (capacity < requestedIdentities) (.membershipError "budget cannot fund requested identities")
  let base := budget / requestedIdentities
  let remainder := budget % requestedIdentities
  return (List.range requestedIdentities.toNat).map fun index : Nat => base + if (index : Int) < remainder then 1 else 0

variable {r t : MembershipRegistry} {c : AdmissionCertificate}

/-- Nobody has the name of the certificate, and its deposit is not used. -/
structure Room (r : MembershipRegistry) (c : AdmissionCertificate) : Prop where
  name : r.records.get? c.validatorId = none
  deposit : c.depositId ∉ r.usedDeposits

theorem contains_iff_not_none {id : String} : r.records.contains id = true ↔ r.records.get? id ≠ none := by
  rw [Dict.contains_iff, Option.ne_none_iff_exists']

theorem registerExternalCertificate_eq_ok {u : PUnit} : registerExternalCertificate c r = .ok u t ↔
    r.verifyCertificate c = true ∧ r.Room c ∧ t = r.record c := by
  unfold registerExternalCertificate
  rw [get_bind_apply, raiseIf_bind_eq_ok_iff, raiseIf_bind_eq_ok_iff, raiseIf_bind_eq_ok_iff, contains_iff_not_none,
    not_not]
  constructor
  · rintro ⟨verified, name, deposit, ran⟩
    cases ran
    exact ⟨by simpa using verified, ⟨name, deposit⟩, rfl⟩
  · rintro ⟨verified, ⟨name, deposit⟩, rfl⟩
    exact ⟨by simp [verified], name, deposit, rfl⟩

theorem admitValidator_eq_ok {validatorId : String} {publicKey : Bytes} {depositId : String} {stake : Int} :
    admitValidator validatorId publicKey depositId stake r = .ok c t ↔
      c = r.issued validatorId publicKey depositId stake ∧ r.verifyCertificate c = true ∧ r.Room c ∧
        (validatorId ≠ "" ∧ depositId ≠ "" ∧ publicKey ≠ []) ∧ t = r.record c := by
  unfold admitValidator
  simp only [get_bind_apply, raiseIf_bind_eq_ok_iff, contains_iff_not_none, not_not]
  constructor
  · rintro ⟨name, deposit, -, given, verified, ran⟩
    cases ran
    exact ⟨rfl, by simpa using verified, ⟨name, deposit⟩, by simpa using given, rfl⟩
  · rintro ⟨rfl, verified, ⟨name, deposit⟩, given, rfl⟩
    have enough : r.minStake ≤ stake := by
      simp only [verifyCertificate, Bool.and_eq_true, decide_eq_true_eq] at verified
      exact verified.1.2
    exact ⟨name, deposit, not_lt.mpr enough, by simpa using given, by simp [verified], rfl⟩

/-- What the authority issues passes its own check. -/
theorem verifyCertificate_issued (sound : SignaturesVerify) (validatorId : String) (publicKey : Bytes) (depositId : String)
    {stake : Int} (enough : r.minStake ≤ stake) :
    r.verifyCertificate (r.issued validatorId publicKey depositId stake) = true := by
  have signed : KeyPair.verify r.authorityKeypair.publicKey
      (canonicalBytes (r.statementOf (r.issued validatorId publicKey depositId stake)))
      (r.issued validatorId publicKey depositId stake).authoritySignature = true := sound _ _
  simp only [verifyCertificate, signed, Bool.and_true, Bool.and_eq_true, decide_eq_true_eq]
  exact ⟨⟨⟨⟨rfl, rfl⟩, rfl⟩, rfl⟩, enough⟩

/-- A registry of the same authority, with the same rules, at the same time. -/
structure Peers (r t : MembershipRegistry) : Prop where
  authority : t.authorityKeypair.publicKey = r.authorityKeypair.publicKey
  minStake : t.minStake = r.minStake
  epoch : t.epoch = r.epoch

theorem Peers.verifyCertificate (peers : r.Peers t) (c : AdmissionCertificate) :
    t.verifyCertificate c = r.verifyCertificate c := by
  have id : t.authorityId = r.authorityId := congrArg identityFromPublicKey peers.authority
  have statement : t.statementOf c = r.statementOf c := by
    rw [statementOf, statementOf, MembershipRegistry.statement, MembershipRegistry.statement, peers.epoch, id]
  simp only [MembershipRegistry.verifyCertificate, statement, id, peers.authority, peers.minStake, peers.epoch]

theorem peers_record (c : AdmissionCertificate) : r.Peers (r.record c) := ⟨rfl, rfl, rfl⟩

end MembershipRegistry

/-- A call that changes a registry. -/
inductive RegistryCall
  | admitValidator (validatorId : String) (publicKey : Bytes) (depositId : String) (stake : Int)
  | registerExternalCertificate (certificate : AdmissionCertificate)

def RegistryCall.exec : RegistryCall → MembershipRegistry → MembershipRegistry
  | .admitValidator validatorId publicKey depositId stake, r =>
    final (MembershipRegistry.admitValidator validatorId publicKey depositId stake) r
  | .registerExternalCertificate certificate, r => final (MembershipRegistry.registerExternalCertificate certificate) r

namespace MembershipRegistry

variable {r t : MembershipRegistry} {c : AdmissionCertificate}

/-- A certificate that the registry accepts is recorded, or nothing happens. -/
def Recorded (r t : MembershipRegistry) : Prop :=
  t = r ∨ ∃ c, r.verifyCertificate c = true ∧ r.Room c ∧ t = r.record c

instance : Std.Refl Recorded := ⟨fun _ => Or.inl rfl⟩

theorem exec_recorded (call : RegistryCall) (r : MembershipRegistry) : r.Recorded (call.exec r) := by
  cases call with
  | admitValidator validatorId publicKey depositId stake =>
    have guarantees : Guarantees Recorded r (admitValidator validatorId publicKey depositId stake) fun _ _ => True := by
      refine .get_bind (.raiseIf_bind fun name => .raiseIf_bind fun deposit => ?_)
      refine .raiseIf_bind fun _ => .raiseIf_bind fun _ => .raiseIf_bind fun verified => ?_
      rw [contains_iff_not_none, not_not] at name
      exact .of_ok rfl (Or.inr ⟨_, by simpa using verified, ⟨name, deposit⟩, rfl⟩) trivial
    exact guarantees.moves
  | registerExternalCertificate c =>
    have guarantees : Guarantees Recorded r (registerExternalCertificate c) fun _ _ => True := by
      refine .get_bind (.raiseIf_bind fun verified => .raiseIf_bind fun name => .raiseIf_bind fun deposit => ?_)
      rw [contains_iff_not_none, not_not] at name
      exact .update (Or.inr ⟨c, by simpa using verified, ⟨name, deposit⟩, rfl⟩) trivial
    exact guarantees.moves

/-- Every validator is there with a certificate that the registry accepts and with a
deposit of its own. -/
structure Sound (r : MembershipRegistry) : Prop where
  named : ∀ id c, r.records.get? id = some c → c.validatorId = id
  verified : ∀ id c, r.records.get? id = some c → r.verifyCertificate c = true
  deposits : ∀ deposit, deposit ∈ r.usedDeposits ↔ ∃ id c, r.records.get? id = some c ∧ c.depositId = deposit
  apart : ∀ id id' c c', r.records.get? id = some c → r.records.get? id' = some c' →
    c.depositId = c'.depositId → id = id'

theorem new_sound (authorityKeypair : KeyPair) (minStake epoch : Int) : (new authorityKeypair minStake epoch).Sound where
  named _ _ found := nomatch found
  verified _ _ found := nomatch found
  deposits deposit := ⟨fun used => absurd used (Finset.notMem_empty deposit), fun ⟨_, _, found, _⟩ => nomatch found⟩
  apart _ _ _ _ found := nomatch found

theorem get?_record (c : AdmissionCertificate) (r : MembershipRegistry) (id : String) :
    (r.record c).records.get? id = if c.validatorId = id then some c else r.records.get? id := Dict.get?_set _ _ _ _

/-- What is there after a certificate was recorded is that certificate or was there before. -/
theorem of_get?_record {c' : AdmissionCertificate} {id : String} (found : (r.record c).records.get? id = some c') :
    c.validatorId = id ∧ c' = c ∨ r.records.get? id = some c' := by
  rw [get?_record] at found
  split at found
  · rename_i here
    cases found
    exact Or.inl ⟨here, rfl⟩
  · exact Or.inr found

theorem Room.kept (room : r.Room c) {id : String} {c' : AdmissionCertificate} (found : r.records.get? id = some c') :
    (r.record c).records.get? id = some c' := by
  rw [get?_record, if_neg]
  · exact found
  · rintro rfl
    rw [room.name] at found
    cases found

theorem Sound.record (sound : r.Sound) (verified : r.verifyCertificate c = true) (room : r.Room c) : (r.record c).Sound := by
  have unused : ∀ id c', r.records.get? id = some c' → c'.depositId ≠ c.depositId := by
    intro id c' found same
    exact room.deposit (same ▸ (sound.deposits c'.depositId).mpr ⟨id, c', found, rfl⟩)
  have new : (r.record c).records.get? c.validatorId = some c := by rw [get?_record, if_pos rfl]
  refine ⟨fun id c' found => ?_, fun id c' found => ?_, fun deposit => ⟨fun used => ?_, ?_⟩,
    fun id id' x y left right same => ?_⟩
  · rcases of_get?_record found with ⟨here, rfl⟩ | old
    · exact here
    · exact sound.named id c' old
  · rw [(peers_record c).verifyCertificate]
    rcases of_get?_record found with ⟨-, rfl⟩ | old
    · exact verified
    · exact sound.verified id c' old
  · rcases Finset.mem_insert.mp used with rfl | old
    · exact ⟨c.validatorId, c, new, rfl⟩
    · obtain ⟨id, c', found, same⟩ := (sound.deposits deposit).mp old
      exact ⟨id, c', room.kept found, same⟩
  · intro ⟨id, c', found, same⟩
    rcases of_get?_record found with ⟨-, rfl⟩ | old
    · exact Finset.mem_insert.mpr (Or.inl same.symm)
    · exact Finset.mem_insert_of_mem ((sound.deposits deposit).mpr ⟨id, c', old, same⟩)
  · rcases of_get?_record left with ⟨here, rfl⟩ | old <;> rcases of_get?_record right with ⟨here', rfl⟩ | old'
    · exact here.symm.trans here'
    · exact absurd same.symm (unused id' y old')
    · exact absurd same (unused id x old)
    · exact sound.apart id id' x y old old' same

/-- The registries that an authority starts with these rules. -/
abbrev Reached (authorityKeypair : KeyPair) (minStake epoch : Int) (r : MembershipRegistry) : Prop :=
  GuardedRun RegistryCall.exec (fun _ _ => True) (new authorityKeypair minStake epoch) r

theorem Reached.sound {authorityKeypair : KeyPair} {minStake epoch : Int}
    (reached : Reached authorityKeypair minStake epoch r) :
    r.Sound ∧ (new authorityKeypair minStake epoch).Peers r := by
  refine @GuardedRun.invariant _ _ _ _ _ _ (fun r => r.Sound ∧ (new authorityKeypair minStake epoch).Peers r) reached
    ⟨new_sound _ _ _, rfl, rfl, rfl⟩ fun u call _ kept => ?_
  obtain ⟨sound, authority, least, epoch⟩ := kept
  rcases exec_recorded call u with same | ⟨c, verified, room, same⟩
  · rw [same]
    exact ⟨sound, authority, least, epoch⟩
  · rw [same]
    exact ⟨sound.record verified room, authority, least, epoch⟩

theorem verified_stake (verified : r.verifyCertificate c = true) : r.minStake ≤ c.stake := by
  simp only [verifyCertificate, Bool.and_eq_true, decide_eq_true_eq] at verified
  exact verified.1.2

theorem weightOf_eq_ok {ids : Finset String} {w : Int} : r.weightOf ids = .ok w ↔
    (∀ id ∈ ids, ∃ c, r.records.get? id = some c) ∧
      w = ∑ id ∈ ids, r.records.amountAt AdmissionCertificate.stake id := by
  unfold weightOf
  dsimp only
  rw [refuseIf_bind_eq_ok, not_not, Finset.filter_eq_empty_iff]
  refine and_congr (forall₂_congr fun id _ => ?_) ⟨fun same => (Except.ok.inj same).symm, fun same => same ▸ rfl⟩
  rw [not_not, Dict.mem_keys]

theorem sybilCapacity_of_pos (positive : 0 < r.minStake) {budget : Int} (natural : 0 ≤ budget) :
    r.sybilCapacity budget = .ok (budget / r.minStake) := by
  have given : ¬ budget < 0 := not_lt.mpr natural
  have some' : ¬ r.minStake = 0 := ne_of_gt positive
  rw [sybilCapacity, refuseIf, if_neg given, refuseIf, if_neg some', ← Int.fdiv_eq_ediv_of_nonneg _ (le_of_lt positive)]
  rfl

theorem Sound.card_le (sound : r.Sound) {ids : Finset String} {w : Int} (weighed : r.weightOf ids = .ok w) :
    ids.card * r.minStake ≤ w := by
  obtain ⟨known, rfl⟩ := weightOf_eq_ok.mp weighed
  have each : ∀ id ∈ ids, r.minStake ≤ r.records.amountAt AdmissionCertificate.stake id := by
    intro id member
    obtain ⟨c, found⟩ := known id member
    rw [Dict.amountAt_of_some found]
    exact verified_stake (sound.verified id c found)
  simpa using Finset.card_nsmul_le_sum ids _ r.minStake each

/-- Whatever was admitted and registered: validators of some weight together are no more
than the budget of that weight pays for, and each has a deposit that no other has. -/
theorem coalition_backed {authorityKeypair : KeyPair} {minStake epoch : Int}
    (reached : Reached authorityKeypair minStake epoch r) (positive : 0 < minStake) {ids : Finset String}
    {w budget : Int} (weighed : r.weightOf ids = .ok w) (within : w ≤ budget) :
    (∃ capacity, r.sybilCapacity budget = .ok capacity ∧ ids.card ≤ capacity) ∧
      ∃ deposit : String → String, Set.InjOn deposit ids ∧ ∀ id ∈ ids, deposit id ∈ r.usedDeposits ∧
        ∃ c, r.records.get? id = some c ∧ r.verifyCertificate c = true ∧ c.depositId = deposit id := by
  obtain ⟨sound, peers⟩ := reached.sound
  have least : r.minStake = minStake := peers.minStake
  have cost := sound.card_le weighed
  obtain ⟨known, -⟩ := weightOf_eq_ok.mp weighed
  rw [← least] at positive
  constructor
  · have natural : 0 ≤ (ids.card : Int) * r.minStake := by positivity
    refine ⟨_, sybilCapacity_of_pos positive (by omega), ?_⟩
    exact (Int.le_ediv_iff_mul_le positive).mpr (by omega)
  · choose certificate found using known
    refine ⟨fun id => if member : id ∈ ids then (certificate id member).depositId else "", ?_, fun id member => ?_⟩
    · intro id member id' member' same
      simp only [Finset.mem_coe] at member member'
      simp only [member, member', dif_pos] at same
      exact sound.apart id id' _ _ (found id member) (found id' member') same
    · simp only [member, dif_pos]
      exact ⟨(sound.deposits _).mpr ⟨id, _, found id member, rfl⟩, _, found id member,
        sound.verified _ _ (found id member), rfl⟩

/-- The parts of a budget that is split. -/
def shares (budget n : Int) : List Int :=
  (List.range n.toNat).map fun index : Nat => budget / n + if (index : Int) < budget % n then 1 else 0

omit [Crypto] in
theorem sum_shares {budget n : Int} (positive : 0 < n) : (shares budget n).sum = budget := by
  have rest := Int.emod_nonneg budget (ne_of_gt positive)
  have upTo : ∀ k : Nat,
      ((List.range k).map fun index : Nat => budget / n + if (index : Int) < budget % n then 1 else 0).sum =
      k * (budget / n) + min (k : Int) (budget % n) := by
    intro k
    induction k with
    | zero => simp [rest]
    | succ k ih =>
      rw [List.range_succ, List.map_append, List.sum_append, ih, List.map_singleton, List.sum_singleton, Nat.cast_succ,
        add_mul, one_mul]
      split <;> omega
  have below := Int.emod_lt_of_pos budget positive
  have whole := Int.mul_ediv_add_emod budget n
  rw [shares, upTo, Int.toNat_of_nonneg (le_of_lt positive), min_eq_right (le_of_lt below)]
  exact whole

theorem splitBudget_eq_ok (positive : 0 < r.minStake) {budget n : Int} {parts : List Int} :
    r.splitBudget budget n = .ok parts ↔ 0 < n ∧ n * r.minStake ≤ budget ∧ parts = shares budget n := by
  unfold splitBudget
  rw [refuseIf_bind_eq_ok, not_le]
  refine and_congr_right fun some' => ?_
  have fits : n ≤ budget / r.minStake ↔ n * r.minStake ≤ budget := Int.le_ediv_iff_mul_le positive
  by_cases natural : 0 ≤ budget
  · rw [sybilCapacity_of_pos positive natural, except_bind_eq_ok]
    constructor
    · rintro ⟨capacity, same, ran⟩
      cases same
      obtain ⟨enough, ran⟩ := refuseIf_bind_eq_ok.mp ran
      exact ⟨fits.mp (not_lt.mp enough), (Except.ok.inj ran).symm⟩
    · rintro ⟨enough, rfl⟩
      exact ⟨_, rfl, refuseIf_bind_eq_ok.mpr ⟨not_lt.mpr (fits.mpr enough), rfl⟩⟩
  · have less : ¬ n * r.minStake ≤ budget := by
      have cost := Int.mul_pos some' positive
      omega
    have refused : r.sybilCapacity budget = .error (.membershipError "budget cannot be negative") := by
      rw [sybilCapacity, refuseIf, if_pos (not_le.mp natural)]
      rfl
    rw [refused]
    exact ⟨nofun, fun ⟨enough, _⟩ => absurd enough less⟩

/-- Somebody who is to be admitted. -/
structure Applicant where
  validatorId : String
  publicKey : Bytes
  depositId : String

/-- The applicants are admitted one after the other, each with a stake. -/
def admitAll (entries : List (Applicant × Int)) (r : MembershipRegistry) : MembershipRegistry :=
  entries.foldl (fun r entry =>
    (RegistryCall.admitValidator entry.1.validatorId entry.1.publicKey entry.1.depositId entry.2).exec r) r

/-- New applicants that are whole and differ from each other. -/
structure Eligible (r : MembershipRegistry) (applicants : List Applicant) : Prop where
  given : ∀ a ∈ applicants, a.validatorId ≠ "" ∧ a.depositId ≠ "" ∧ a.publicKey ≠ []
  names : (applicants.map Applicant.validatorId).Nodup
  deposits : (applicants.map Applicant.depositId).Nodup
  new : ∀ a ∈ applicants, r.records.get? a.validatorId = none ∧ a.depositId ∉ r.usedDeposits

theorem Eligible.admits {a : Applicant} {applicants : List Applicant} (eligible : r.Eligible (a :: applicants))
    (sound : SignaturesVerify) {stake : Int} (enough : r.minStake ≤ stake) :
    (RegistryCall.admitValidator a.validatorId a.publicKey a.depositId stake).exec r =
        r.record (r.issued a.validatorId a.publicKey a.depositId stake) ∧
      (r.record (r.issued a.validatorId a.publicKey a.depositId stake)).Eligible applicants := by
  obtain ⟨given, names, deposits, new⟩ := eligible
  obtain ⟨here, later⟩ := List.forall_mem_cons.mp new
  obtain ⟨name, names⟩ := List.nodup_cons.mp names
  obtain ⟨deposit, deposits⟩ := List.nodup_cons.mp deposits
  have verified := verifyCertificate_issued (r := r) sound a.validatorId a.publicKey a.depositId enough
  constructor
  · exact final_of_ok (admitValidator_eq_ok.mpr ⟨rfl, verified, ⟨here.1, here.2⟩, given a List.mem_cons_self, rfl⟩)
  · refine ⟨fun b member => given b (List.mem_cons_of_mem a member), names, deposits, fun b member => ?_⟩
    obtain ⟨unknown, unused⟩ := later b member
    have otherName : a.validatorId ≠ b.validatorId := fun same => name (same ▸ List.mem_map_of_mem member)
    have otherDeposit : b.depositId ≠ a.depositId := fun same => deposit (same ▸ List.mem_map_of_mem member)
    refine ⟨?_, fun used => ?_⟩
    · rw [get?_record]
      exact (if_neg otherName).trans unknown
    · rcases Finset.mem_insert.mp used with same | old
      · exact otherDeposit same
      · exact unused old

theorem Room.totalStake (room : r.Room c) : (r.record c).totalStake = r.totalStake + c.stake := by
  have sum := Dict.sumBy_set AdmissionCertificate.stake r.records c.validatorId c
  rw [Dict.amountAt_of_none room.name] at sum
  rw [MembershipRegistry.totalStake, MembershipRegistry.totalStake, ← sum, add_zero]
  rfl

/-- Everybody is admitted with the stake that was given. -/
theorem Eligible.admitAll {entries : List (Applicant × Int)} (eligible : r.Eligible (entries.map Prod.fst))
    (sound : SignaturesVerify) (enough : ∀ entry ∈ entries, r.minStake ≤ entry.2) :
    (admitAll entries r).totalStake = r.totalStake + (entries.map Prod.snd).sum ∧
      (∀ id c, r.records.get? id = some c → (MembershipRegistry.admitAll entries r).records.get? id = some c) ∧
      ∀ entry ∈ entries, ∃ c, (MembershipRegistry.admitAll entries r).records.get? entry.1.validatorId = some c ∧
        c.stake = entry.2 := by
  induction entries generalizing r with
  | nil => exact ⟨by simp [MembershipRegistry.admitAll], fun _ _ found => found, fun _ member => nomatch member⟩
  | cons entry entries ih =>
    obtain ⟨a, stake⟩ := entry
    obtain ⟨here, later⟩ := List.forall_mem_cons.mp enough
    obtain ⟨admitted, others⟩ := eligible.admits sound here
    obtain ⟨first, -⟩ := List.forall_mem_cons.mp eligible.new
    have room : r.Room (r.issued a.validatorId a.publicKey a.depositId stake) := ⟨first.1, first.2⟩
    obtain ⟨total, kept, all⟩ := ih others later
    have step : MembershipRegistry.admitAll ((a, stake) :: entries) r =
        MembershipRegistry.admitAll entries (r.record (r.issued a.validatorId a.publicKey a.depositId stake)) := by
      rw [← admitted]
      rfl
    rw [step]
    refine ⟨?_, fun id c found => kept id c (room.kept found), fun entry member => ?_⟩
    · rw [total, room.totalStake, List.map_cons, List.sum_cons, add_assoc]
      rfl
    · rcases List.mem_cons.mp member with rfl | member
      · exact ⟨_, kept _ _ (by rw [get?_record]; exact if_pos rfl), rfl⟩
      · exact all entry member

theorem Eligible.weightOf_admitAll {entries : List (Applicant × Int)} (eligible : r.Eligible (entries.map Prod.fst))
    (sound : SignaturesVerify) (enough : ∀ entry ∈ entries, r.minStake ≤ entry.2) :
    (MembershipRegistry.admitAll entries r).weightOf ((entries.map Prod.fst).map Applicant.validatorId).toFinset =
      .ok (entries.map Prod.snd).sum := by
  obtain ⟨-, -, all⟩ := eligible.admitAll sound enough
  refine weightOf_eq_ok.mpr ⟨fun id member => ?_, ?_⟩
  · rw [List.mem_toFinset, List.map_map] at member
    obtain ⟨entry, inside, rfl⟩ := List.mem_map.mp member
    obtain ⟨c, found, -⟩ := all entry inside
    exact ⟨c, found⟩
  · rw [List.sum_toFinset _ eligible.names, List.map_map, List.map_map]
    refine congrArg List.sum (List.map_congr_left fun entry inside => ?_)
    obtain ⟨c, found, stake⟩ := all entry inside
    exact stake.symm.trans (Dict.amountAt_of_some found).symm

/-- A budget can be split among new applicants when it pays for all of them. They are then
all admitted, and have the weight of the budget together, however many they are. -/
theorem split_admitted {authorityKeypair : KeyPair} {minStake epoch : Int}
    (reached : Reached authorityKeypair minStake epoch r) (positive : 0 < minStake) (sound : SignaturesVerify)
    {applicants : List Applicant} (eligible : r.Eligible applicants)
    (budget : Int) :
    ((∃ parts, r.splitBudget budget applicants.length = .ok parts) ↔
        applicants ≠ [] ∧ applicants.length * minStake ≤ budget) ∧
      ∀ parts, r.splitBudget budget applicants.length = .ok parts →
        (MembershipRegistry.admitAll (applicants.zip parts) r).weightOf
          (applicants.map Applicant.validatorId).toFinset = .ok budget ∧
        (MembershipRegistry.admitAll (applicants.zip parts) r).totalStake = r.totalStake + budget := by
  obtain ⟨-, peers⟩ := reached.sound
  have least : r.minStake = minStake := peers.minStake
  rw [← least] at positive ⊢
  have some' : 0 < (applicants.length : Int) ↔ applicants ≠ [] := by
    rw [Int.natCast_pos, List.length_pos_iff]
  constructor
  · constructor
    · rintro ⟨parts, funded⟩
      obtain ⟨more, enough, -⟩ := (splitBudget_eq_ok positive).mp funded
      exact ⟨some'.mp more, enough⟩
    · rintro ⟨more, enough⟩
      exact ⟨_, (splitBudget_eq_ok positive).mpr ⟨some'.mpr more, enough, rfl⟩⟩
  intro parts funded
  obtain ⟨more, enough, rfl⟩ := (splitBudget_eq_ok positive).mp funded
  have count : (shares budget applicants.length).length = applicants.length := by simp [shares]
  have firsts : (applicants.zip (shares budget applicants.length)).map Prod.fst = applicants :=
    List.map_fst_zip (le_of_eq count.symm)
  have seconds : (applicants.zip (shares budget applicants.length)).map Prod.snd = shares budget applicants.length :=
    List.map_snd_zip (le_of_eq count)
  have base : r.minStake ≤ budget / applicants.length :=
    (Int.le_ediv_iff_mul_le more).mpr (by rwa [mul_comm])
  have each : ∀ entry ∈ applicants.zip (shares budget applicants.length), r.minStake ≤ entry.2 := by
    intro entry member
    obtain ⟨index, -, same⟩ := List.mem_map.mp (List.of_mem_zip member).2
    rw [← same]
    split <;> omega
  have all : r.Eligible ((applicants.zip (shares budget applicants.length)).map Prod.fst) := firsts.symm ▸ eligible
  have total := (all.admitAll sound each).1
  have weight := all.weightOf_admitAll sound each
  rw [seconds, sum_shares more] at total weight
  rw [firsts] at weight
  exact ⟨weight, total⟩

/-- A node that starts registers the certificates that it was given. -/
def registerAll (certificates : List AdmissionCertificate) : PyRegistry PUnit :=
  certificates.forM registerExternalCertificate

theorem registerAll_ok {order : List AdmissionCertificate} (verified : ∀ c ∈ order, t.verifyCertificate c = true)
    (room : ∀ c ∈ order, t.Room c) (names : (order.map AdmissionCertificate.validatorId).Nodup)
    (deposits : (order.map AdmissionCertificate.depositId).Nodup) :
    ∃ u, registerAll order t = .ok ⟨⟩ u ∧ t.Peers u ∧
      (∀ id c, u.records.get? id = some c ↔ t.records.get? id = some c ∨ c ∈ order ∧ c.validatorId = id) ∧
      ∀ deposit, deposit ∈ u.usedDeposits ↔ deposit ∈ t.usedDeposits ∨ ∃ c ∈ order, c.depositId = deposit := by
  induction order generalizing t with
  | nil => exact ⟨t, rfl, ⟨rfl, rfl, rfl⟩, by simp, by simp⟩
  | cons c order ih =>
    obtain ⟨accepted, verified⟩ := List.forall_mem_cons.mp verified
    obtain ⟨here, room⟩ := List.forall_mem_cons.mp room
    obtain ⟨name, names⟩ := List.nodup_cons.mp names
    obtain ⟨deposit, deposits⟩ := List.nodup_cons.mp deposits
    have first : registerExternalCertificate c t = .ok ⟨⟩ (t.record c) :=
      registerExternalCertificate_eq_ok.mpr ⟨accepted, here, rfl⟩
    have later : ∀ c' ∈ order, (t.record c).Room c' := by
      intro c' member
      have otherName : c.validatorId ≠ c'.validatorId := fun same => name (same ▸ List.mem_map_of_mem member)
      have otherDeposit : c'.depositId ≠ c.depositId := fun same => deposit (same ▸ List.mem_map_of_mem member)
      refine ⟨?_, fun used => ?_⟩
      · rw [get?_record, if_neg otherName]
        exact (room c' member).name
      · rcases Finset.mem_insert.mp used with same | old
        · exact otherDeposit same
        · exact (room c' member).deposit old
    obtain ⟨u, ran, peers, records, used⟩ := ih (t := t.record c)
      (fun c' member => ((peers_record c).verifyCertificate c').trans (verified c' member)) later names deposits
    refine ⟨u, (bind_of_ok first).trans ran, ⟨peers.authority, peers.minStake, peers.epoch⟩, fun id c' => ?_,
      fun deposit => ?_⟩
    · rw [records, get?_record]
      by_cases same : c.validatorId = id
      · subst same
        rw [if_pos rfl, here.name, List.mem_cons]
        constructor
        · rintro (new | ⟨member, same⟩)
          · cases Option.some.inj new
            exact Or.inr ⟨Or.inl rfl, rfl⟩
          · exact Or.inr ⟨Or.inr member, same⟩
        · rintro (old | ⟨rfl | member, same⟩)
          · cases old
          · exact Or.inl rfl
          · exact Or.inr ⟨member, same⟩
      · rw [if_neg same, List.mem_cons]
        constructor
        · rintro (old | ⟨member, named⟩)
          · exact Or.inl old
          · exact Or.inr ⟨Or.inr member, named⟩
        · rintro (old | ⟨rfl | member, named⟩)
          · exact Or.inl old
          · exact absurd named same
          · exact Or.inr ⟨member, named⟩
    · rw [used]
      show deposit ∈ insert c.depositId t.usedDeposits ∨ _ ↔ _
      rw [Finset.mem_insert, List.exists_mem_cons_iff, eq_comm, or_assoc, or_left_comm]

theorem Sound.distinct (sound : r.Sound) : (r.records.values.map AdmissionCertificate.validatorId).Nodup ∧
    (r.records.values.map AdmissionCertificate.depositId).Nodup := by
  refine ⟨Dict.nodup_map_values fun id id' c c' left right same => ?_,
    Dict.nodup_map_values fun id id' c c' => sound.apart id id' c c'⟩
  rw [← sound.named id c left, ← sound.named id' c' right, same]

/-- A registry that is given the certificates of another one, in whatever order, takes
them all and then answers as the other one does. -/
theorem registry_replicated {authorityKeypair authorityKeypair' : KeyPair} {minStake epoch : Int}
    (reached : Reached authorityKeypair minStake epoch r)
    (same : authorityKeypair'.publicKey = authorityKeypair.publicKey) {order : List AdmissionCertificate}
    (all : order.Perm r.records.values) :
    ∃ u, registerAll order (new authorityKeypair' minStake epoch) = .ok ⟨⟩ u ∧
      (∀ id, u.records.get? id = r.records.get? id) ∧ u.usedDeposits = r.usedDeposits ∧
      u.totalStake = r.totalStake ∧ u.threshold = r.threshold ∧ (∀ c, u.verifyCertificate c = r.verifyCertificate c) ∧
      ∀ ids w, u.weightOf ids = .ok w ↔ r.weightOf ids = .ok w := by
  obtain ⟨sound, peers⟩ := reached.sound
  obtain ⟨authority, least, epoch'⟩ := peers
  have other : r.Peers (new authorityKeypair' minStake epoch) := ⟨same.trans authority.symm, least.symm, epoch'.symm⟩
  have held : ∀ c ∈ order, ∃ id, r.records.get? id = some c := fun c member =>
    Dict.mem_values.mp (all.mem_iff.mp member)
  obtain ⟨names, deposits⟩ := sound.distinct
  have namesHere := (all.map AdmissionCertificate.validatorId).nodup_iff.mpr names
  have depositsHere := (all.map AdmissionCertificate.depositId).nodup_iff.mpr deposits
  have verified : ∀ c ∈ order, (new authorityKeypair' minStake epoch).verifyCertificate c = true := by
    intro c member
    obtain ⟨id, found⟩ := held c member
    rw [other.verifyCertificate]
    exact sound.verified id c found
  have room : ∀ c ∈ order, (new authorityKeypair' minStake epoch).Room c := fun c _ => ⟨rfl, Finset.notMem_empty _⟩
  obtain ⟨u, ran, same', recorded, used⟩ := registerAll_ok verified room namesHere depositsHere
  have alike : ∀ id, u.records.get? id = r.records.get? id := by
    intro id
    refine Option.ext fun c => ?_
    rw [recorded]
    constructor
    · rintro (old | ⟨member, rfl⟩)
      · cases old
      · obtain ⟨id, found⟩ := held c member
        rwa [sound.named id c found]
    · intro found
      exact Or.inr ⟨all.mem_iff.mpr (Dict.mem_values_of_get? found), sound.named id c found⟩
  have total : u.totalStake = r.totalStake := by
    have values := (Dict.entries_perm alike).map Prod.snd
    exact (values.map AdmissionCertificate.stake).sum_eq
  have peers : r.Peers u :=
    ⟨same'.authority.trans other.authority, same'.minStake.trans other.minStake, same'.epoch.trans other.epoch⟩
  refine ⟨u, ran, alike, ?_, total, by rw [threshold, threshold, total], peers.verifyCertificate, fun ids w => ?_⟩
  · ext deposit
    rw [used, sound.deposits]
    constructor
    · rintro (old | ⟨c, member, rfl⟩)
      · exact absurd old (Finset.notMem_empty deposit)
      · obtain ⟨id, found⟩ := held c member
        exact ⟨id, c, found, rfl⟩
    · rintro ⟨id, c, found, rfl⟩
      exact Or.inr ⟨c, all.mem_iff.mpr (Dict.mem_values_of_get? found), rfl⟩
  · have amounts : ∀ id, u.records.amountAt AdmissionCertificate.stake id =
        r.records.amountAt AdmissionCertificate.stake id := by
      intro id
      rw [Dict.amountAt, Dict.amountAt, alike]
    rw [weightOf_eq_ok, weightOf_eq_ok]
    simp only [alike, amounts]

/-- Nothing of a certificate can be changed under its signature. -/
theorem certificate_unaltered (single : SignaturesSingle) {c' : AdmissionCertificate}
    (verified : r.verifyCertificate c = true) (verified' : r.verifyCertificate c' = true)
    (signature : c'.authoritySignature = c.authoritySignature) : c' = c := by
  simp only [verifyCertificate, Bool.and_eq_true, decide_eq_true_eq] at verified verified'
  obtain ⟨⟨⟨⟨⟨id, statementDigest⟩, epoch⟩, signatory⟩, -⟩, signed⟩ := verified
  obtain ⟨⟨⟨⟨⟨id', statementDigest'⟩, epoch'⟩, signatory'⟩, -⟩, signed'⟩ := verified'
  rw [signature] at id' signed'
  have member := lookup_eq_of_canonicalBytes (single _ _ _ _ signed' signed)
  have validator := member "validator_id"
  have key := member "public_key"
  have deposit := member "deposit_id"
  have stake := member "stake"
  simp [List.lookup_cons, Json.sortKeys] at validator key deposit stake
  have statement : r.statementOf c' = r.statementOf c := by
    rw [statementOf, statementOf, validator, hex_injective key, deposit, stake]
  rw [statement, ← statementDigest] at statementDigest'
  rw [statement, ← id] at id'
  have epochs := epoch'.trans epoch.symm
  have signatories := signatory'.trans signatory.symm
  have keys := hex_injective key
  cases c
  cases c'
  simp only at validator keys deposit stake signature id' statementDigest' epochs signatories
  subst validator keys deposit stake signature id' statementDigest' epochs signatories
  rfl

end MembershipRegistry

open MembershipRegistry

def soloApplicants : List Applicant := [⟨"v", [1], "d"⟩, ⟨"w", [2], "e"⟩]

theorem soloApplicants_eligible (pair : KeyPair) : (new pair 10 0).Eligible soloApplicants where
  given := by simp [soloApplicants]
  names := by decide
  deposits := by decide
  new _ _ := ⟨rfl, Finset.notMem_empty _⟩

def soloRegistry (pair : KeyPair) : MembershipRegistry := admitAll (soloApplicants.zip [10, 15]) (new pair 10 0)

theorem soloRegistry_reached (pair : KeyPair) : Reached pair 10 0 (soloRegistry pair) :=
  .of_inputs (fun _ _ => trivial) [RegistryCall.admitValidator "v" [1] "d" 10, .admitValidator "w" [2] "e" 15]

theorem soloRegistry_weight {pair : KeyPair} (sound : SignaturesVerify) :
    (soloRegistry pair).weightOf {"v", "w"} = .ok 25 := by
  have enough : ∀ entry ∈ soloApplicants.zip [10, 15], (new pair 10 0).minStake ≤ entry.2 := by
    simp [soloApplicants, new]
  have eligible : (new pair 10 0).Eligible ((soloApplicants.zip [10, 15]).map Prod.fst) := soloApplicants_eligible pair
  exact eligible.weightOf_admitAll sound enough

end Registry

theorem MembershipRegistry.coalition_backed_two : let _ := Crypto.ideal
    ∃ capacity, (soloRegistry idealKey).sybilCapacity 29 = .ok capacity ∧ 2 ≤ capacity := by
  intro _
  have weighed := @soloRegistry_weight _ idealKey ideal_signaturesVerify
  exact (coalition_backed (soloRegistry_reached idealKey) (by decide) weighed (by decide : (25 : Int) ≤ 29)).1

theorem MembershipRegistry.split_admitted_two : let _ := Crypto.ideal
    ∃ parts, (new idealKey 10 0).splitBudget 25 2 = .ok parts ∧
      (admitAll (soloApplicants.zip parts) (new idealKey 10 0)).totalStake = 25 := by
  intro _
  have split := split_admitted .refl (by decide) ideal_signaturesVerify (soloApplicants_eligible idealKey) 25
  obtain ⟨parts, funded⟩ := split.1.mpr ⟨by decide, by decide⟩
  exact ⟨parts, funded, (split.2 parts funded).2⟩

theorem MembershipRegistry.registry_replicated_two : let _ := Crypto.ideal
    ∃ u, registerAll (soloRegistry idealKey).records.values.reverse (new idealKey 10 0) = .ok ⟨⟩ u ∧
      u.weightOf {"v", "w"} = .ok 25 := by
  intro _
  obtain ⟨u, ran, -, -, -, -, -, weights⟩ := registry_replicated (soloRegistry_reached idealKey) rfl
    (List.reverse_perm (soloRegistry idealKey).records.values)
  exact ⟨u, ran, (weights _ _).mpr (soloRegistry_weight ideal_signaturesVerify)⟩

end Mosaic.Nexus
