import Mosaic.Certified
import Mosaic.GaloisField
import Mosaic.Lib.Dict
import Mosaic.Lib.Quorum

namespace Mosaic
open CanonicalJson Quorum

structure AvailabilityAttestation where
  objectId : String
  contentDigest : String
  shardIndex : Int
  epoch : Int
  providerId : String
  signature : Bytes
  deriving DecidableEq

structure AvailabilityCertificate where
  objectId : String
  contentDigest : String
  epoch : Int
  attestations : List AvailabilityAttestation
  totalWeight : Int
  certificateId : String
  deriving DecidableEq

namespace AvailabilityAttestation

def statement (a : AvailabilityAttestation) : Json := .obj
  [("protocol", .str "MOSAIC/AVAILABILITY-ATTEST/v1"),
   ("object_id", .str a.objectId),
   ("content_digest", .str a.contentDigest),
   ("shard_index", .int a.shardIndex),
   ("epoch", .int a.epoch),
   ("provider_id", .str a.providerId)]

variable [Crypto]

def create (member : Member) (objectId contentDigest : String) (shardIndex epoch : Int) :
    Except AvailabilityFault AvailabilityAttestation :=
  match member.keypair with
  | none => .error (.availabilityError "provider private key is not loaded")
  | some pair =>
    if shardIndex < 0 ∨ epoch < 0 then .error (.availabilityError "invalid shard or epoch")
    else
      let unsigned : AvailabilityAttestation := ⟨objectId, contentDigest, shardIndex, epoch, member.memberId, []⟩
      .ok { unsigned with signature := pair.sign (canonicalBytes unsigned.statement) }

def verify (a : AvailabilityAttestation) (members : Dict String Member) : Bool :=
  match members.get? a.providerId with
  | none => false
  | some member =>
    (a.objectId ≠ "" ∧ a.contentDigest ≠ "" ∧ 0 ≤ a.shardIndex ∧ 0 ≤ a.epoch) &&
      KeyPair.verify member.publicKey (canonicalBytes a.statement) a.signature

/-- What a member attests is accepted where it is known. -/
theorem verify_of_attest (signs : SignaturesVerify) {member known : Member} {members : Dict String Member}
    {objectId contentDigest : String} {shardIndex epoch : Int} {a : AvailabilityAttestation}
    (made : create member objectId contentDigest shardIndex epoch = .ok a) (object : objectId ≠ "")
    (content : contentDigest ≠ "") (found : members.get? member.memberId = some known)
    (key : known.publicKey = member.publicKey) : a.verify members = true := by
  unfold create at made
  split at made
  · cases made
  rename_i pair loaded
  split at made
  · cases made
  rename_i bounds
  cases made
  push Not at bounds
  have same : member.publicKey = pair.publicKey := by
    unfold Member.publicKey
    rw [loaded]
  unfold verify
  rw [found]
  refine Bool.and_eq_true_iff.mpr ⟨decide_eq_true ⟨object, content, bounds⟩, ?_⟩
  rw [key, same]
  exact signs pair.privateKey _

end AvailabilityAttestation

section Weights
variable [Crypto]

/-- `members[provider_id].weight`. The attestations of others have been refused before. -/
def weightAt (members : Dict String Member) (providerId : String) : Nat :=
  ((members.get? providerId).map Member.weight).getD 0

end Weights

namespace AvailabilityCertificate

def idOf (objectId contentDigest : String) (epoch : Int) (ordered : List AvailabilityAttestation) (totalWeight : Int)
    [Crypto] : String :=
  digest (.obj
    [("protocol", .str "MOSAIC/AVAILABILITY-CERT/v1"),
     ("object_id", .str objectId),
     ("content_digest", .str contentDigest),
     ("epoch", .int epoch),
     ("attestations", .list (ordered.map fun item => .obj
       [("provider_id", .str item.providerId),
        ("shard_index", .int item.shardIndex),
        ("signature", .str (hex item.signature))])),
     ("total_weight", .int totalWeight)])

variable [Crypto]

/-- `{item.provider_id: item for item in attestations}`. -/
def unique (attestations : List AvailabilityAttestation) : Dict String AvailabilityAttestation :=
  Dict.ofList (attestations.map fun item => (item.providerId, item))

def create (attestations : List AvailabilityAttestation) (members : Dict String Member) (threshold : Int) :
    Except AvailabilityFault AvailabilityCertificate :=
  match attestations with
  | [] => .error (.availabilityError "availability certificate cannot be empty")
  | first :: _ =>
    if (unique attestations).keys.length ≠ attestations.length then
      .error (.availabilityError "duplicate availability provider")
    else if attestations.any fun item =>
        item.objectId ≠ first.objectId ∨ item.contentDigest ≠ first.contentDigest ∨ item.epoch ≠ first.epoch ∨
          item.verify members = false then
      .error (.availabilityError "invalid or mismatched availability attestation")
    else
      let totalWeight : Int := (((unique attestations).keys.map (weightAt members)).sum : Nat)
      if totalWeight < threshold then .error (.availabilityError "insufficient availability weight")
      else
        let ordered := sortedBy AvailabilityAttestation.providerId attestations
        .ok ⟨first.objectId, first.contentDigest, first.epoch, ordered, totalWeight,
          idOf first.objectId first.contentDigest first.epoch ordered totalWeight⟩

def verify (c : AvailabilityCertificate) (members : Dict String Member) (threshold : Int) : Bool :=
  match create c.attestations members threshold with
  | .error _ => false
  | .ok rebuilt =>
    rebuilt.objectId = c.objectId ∧ rebuilt.contentDigest = c.contentDigest ∧ rebuilt.epoch = c.epoch ∧
      rebuilt.totalWeight = c.totalWeight ∧ rebuilt.certificateId = c.certificateId

variable {attestations attestations' : List AvailabilityAttestation} {members : Dict String Member} {threshold : Int}

/-- The providers of the attestations. -/
def providers (attestations : List AvailabilityAttestation) : List String :=
  attestations.map AvailabilityAttestation.providerId

/-- All of them verify, and they are about one object in one epoch. -/
def Uniform (members : Dict String Member) (attestations : List AvailabilityAttestation) : Prop :=
  ∀ a ∈ attestations, a.verify members = true ∧
    ∀ b ∈ attestations, a.objectId = b.objectId ∧ a.contentDigest = b.contentDigest ∧ a.epoch = b.epoch

instance : Decidable (Uniform members attestations) :=
  inferInstanceAs (Decidable (∀ a ∈ attestations, a.verify members = true ∧
    ∀ b ∈ attestations, a.objectId = b.objectId ∧ a.contentDigest = b.contentDigest ∧ a.epoch = b.epoch))

/-- What the providers weigh together. -/
def weightOf (members : Dict String Member) (attestations : List AvailabilityAttestation) : Int :=
  (((providers attestations).map (weightAt members)).sum : Nat)

omit [Crypto] in
theorem unique_keys (distinct : (providers attestations).Nodup) :
    (unique attestations).keys = providers attestations := by
  have named : (attestations.map fun item => (item.providerId, item)).map Prod.fst = providers attestations := by
    rw [List.map_map]
    rfl
  unfold unique Dict.keys
  rw [Dict.entries_ofList (named ▸ distinct), named]

omit [Crypto] in
theorem length_unique_iff :
    (unique attestations).keys.length = attestations.length ↔ (providers attestations).Nodup := by
  constructor
  · intro same
    have keys : (unique attestations).keys.toFinset = (providers attestations).toFinset := by
      ext provider
      rw [List.mem_toFinset, List.mem_toFinset, unique, Dict.mem_keys_ofList, List.map_map]
      rfl
    have count : (providers attestations).toFinset.card = (providers attestations).length := by
      rw [← keys, List.toFinset_card_of_nodup (unique attestations).keys_nodup, same, providers, List.length_map]
    exact Multiset.toFinset_card_eq_card_iff_nodup.mp count
  · intro distinct
    rw [unique_keys distinct, providers, List.length_map]

theorem weight_eq (distinct : (providers attestations).Nodup) :
    (((unique attestations).keys.map (weightAt members)).sum : Nat) = weightOf members attestations := by
  rw [unique_keys distinct, weightOf]

/-- The certificate that `create` makes of sound attestations. -/
def certificateOf (first : AvailabilityAttestation) (members : Dict String Member)
    (attestations : List AvailabilityAttestation) : AvailabilityCertificate :=
  let ordered := sortedBy AvailabilityAttestation.providerId attestations
  ⟨first.objectId, first.contentDigest, first.epoch, ordered, weightOf members attestations,
    idOf first.objectId first.contentDigest first.epoch ordered (weightOf members attestations)⟩

/-- The checks of `create`, without the first attestation as the measure of the others. -/
theorem create_eq {first : AvailabilityAttestation} (member : first ∈ attestations) :
    create attestations members threshold =
      if ¬ (providers attestations).Nodup then .error (.availabilityError "duplicate availability provider")
      else if ¬ Uniform members attestations then
        .error (.availabilityError "invalid or mismatched availability attestation")
      else if weightOf members attestations < threshold then
        .error (.availabilityError "insufficient availability weight")
      else .ok (certificateOf first members attestations) := by
  obtain ⟨head, others, rfl⟩ := List.exists_cons_of_ne_nil (List.ne_nil_of_mem member)
  have passes : Uniform members (head :: others) ↔ ¬ ((head :: others).any fun item =>
      item.objectId ≠ head.objectId ∨ item.contentDigest ≠ head.contentDigest ∨ item.epoch ≠ head.epoch ∨
        item.verify members = false) = true := by
    rw [List.any_eq_true]
    constructor
    · rintro uniform ⟨item, listed, fails⟩
      obtain ⟨verified, alike⟩ := uniform item listed
      obtain ⟨object, content, epoch⟩ := alike head List.mem_cons_self
      rw [object, content, epoch, verified] at fails
      simp at fails
    · intro none
      have alike : ∀ item ∈ head :: others, item.verify members = true ∧ item.objectId = head.objectId ∧
          item.contentDigest = head.contentDigest ∧ item.epoch = head.epoch := by
        intro item listed
        by_contra fails
        refine none ⟨item, listed, ?_⟩
        simp only [decide_eq_true_eq]
        grind
      intro a listed
      obtain ⟨verified, object, content, epoch⟩ := alike a listed
      refine ⟨verified, fun b listed' => ?_⟩
      obtain ⟨-, object', content', epoch'⟩ := alike b listed'
      exact ⟨object.trans object'.symm, content.trans content'.symm, epoch.trans epoch'.symm⟩
  by_cases distinct : (providers (head :: others)).Nodup
  · have count : ¬ (unique (head :: others)).keys.length ≠ (head :: others).length :=
      not_not.mpr (length_unique_iff.mpr distinct)
    rw [if_neg (not_not.mpr distinct)]
    refine (if_neg count).trans ?_
    by_cases uniform : Uniform members (head :: others)
    · obtain ⟨-, alike⟩ := uniform first member
      obtain ⟨object, content, epoch⟩ := alike head List.mem_cons_self
      rw [if_neg (passes.mp uniform), if_neg (not_not.mpr uniform), weight_eq distinct]
      unfold certificateOf
      rw [object, content, epoch]
    · rw [if_pos (not_not.mp fun passed => uniform (passes.mpr passed)), if_pos uniform]
  · rw [if_pos distinct]
    exact if_pos fun same => distinct (length_unique_iff.mp same)

/-- The order in which attestations come does not matter. -/
theorem create_perm (every : attestations.Perm attestations') :
    create attestations members threshold = create attestations' members threshold := by
  cases attestations with
  | nil =>
    rw [List.nil_perm.mp every]
  | cons first others =>
    have named : (providers (first :: others)).Perm (providers attestations') := every.map _
    have uniform : Uniform members (first :: others) ↔ Uniform members attestations' := by
      unfold Uniform
      simp only [every.mem_iff]
    have weight : weightOf members (first :: others) = weightOf members attestations' := by
      unfold weightOf
      rw [(named.map _).sum_eq]
    have member : first ∈ first :: others := List.mem_cons_self
    rw [create_eq member, create_eq (every.mem_iff.mp member)]
    simp only [named.nodup_iff, uniform, weight]
    by_cases distinct : (providers attestations').Nodup
    · have order : sortedBy AvailabilityAttestation.providerId (first :: others) =
          sortedBy AvailabilityAttestation.providerId attestations' := by
        refine sortedBy_eq_of_perm every fun a inside b inside' same => ?_
        exact List.inj_on_of_nodup_map (named.nodup_iff.mpr distinct) inside inside' same
      unfold certificateOf
      rw [order, weight]
    · rw [if_pos distinct, if_pos distinct]

/-- The attestation is about what the certificate certifies. -/
def About (c : AvailabilityCertificate) (a : AvailabilityAttestation) : Prop :=
  a.objectId = c.objectId ∧ a.contentDigest = c.contentDigest ∧ a.epoch = c.epoch

/-- What stands behind a certificate. -/
structure Backed (c : AvailabilityCertificate) (members : Dict String Member) (threshold : Int) : Prop where
  distinct : (providers c.attestations).Nodup
  about : ∀ a ∈ c.attestations, a.verify members = true ∧ c.About a
  weight : c.totalWeight = weightOf members c.attestations
  enough : threshold ≤ c.totalWeight
  named : c.certificateId = idOf c.objectId c.contentDigest c.epoch
    (sortedBy AvailabilityAttestation.providerId c.attestations) c.totalWeight

variable {c c' : AvailabilityCertificate} {members' : Dict String Member} {threshold' : Int}

theorem backed_of_verify (verified : c.verify members threshold = true) : c.Backed members threshold := by
  unfold verify at verified
  split at verified
  · cases verified
  rename_i rebuilt made
  obtain ⟨object, content, epoch, weight, id⟩ := of_decide_eq_true verified
  cases list : c.attestations with
  | nil =>
    rw [list] at made
    cases made
  | cons first others =>
    have member : first ∈ c.attestations := by
      rw [list]
      exact List.mem_cons_self
    rw [create_eq member] at made
    split at made
    · cases made
    rename_i distinct
    split at made
    · cases made
    rename_i uniform
    split at made
    · cases made
    rename_i heavy
    cases made
    rw [not_not] at distinct uniform
    refine ⟨distinct, fun a listed => ?_, weight.symm, ?_, ?_⟩
    · obtain ⟨valid, alike⟩ := uniform a listed
      obtain ⟨object', content', epoch'⟩ := alike first member
      exact ⟨valid, object'.trans object, content'.trans content, epoch'.trans epoch⟩
    · rw [← weight]
      exact not_lt.mp heavy
    · rw [← id, ← object, ← content, ← epoch, ← weight]
      rfl

theorem verify_of_perm {order : List AvailabilityAttestation} (every : order.Perm c.attestations)
    (verified : c.verify members threshold = true) :
    ({ c with attestations := order } : AvailabilityCertificate).verify members threshold = true := by
  unfold verify at *
  rw [create_perm every]
  exact verified

/-- What the id of a certificate says of an attestation. -/
def part (a : AvailabilityAttestation) : String × Int × Bytes := (a.providerId, a.shardIndex, a.signature)

def partJson : String × Int × Bytes → Json
  | (providerId, shardIndex, signature) => .obj
    [("provider_id", .str providerId), ("shard_index", .int shardIndex), ("signature", .str (hex signature))]

/-- The rest is said once for all of them. -/
def whole (c : AvailabilityCertificate) : String × Int × Bytes → AvailabilityAttestation
  | (providerId, shardIndex, signature) => ⟨c.objectId, c.contentDigest, shardIndex, c.epoch, providerId, signature⟩

omit [Crypto] in
theorem partJson_determined : Function.Injective fun part => (partJson part).sortKeys := by
  rintro ⟨providerId, shardIndex, signature⟩ ⟨providerId', shardIndex', signature'⟩ same
  have providers := lookup_eq_of_sortKeys same "provider_id"
  have indices := lookup_eq_of_sortKeys same "shard_index"
  have signatures := lookup_eq_of_sortKeys same "signature"
  obtain rfl : providerId = providerId' := Json.str.inj (Option.some.inj providers)
  obtain rfl : shardIndex = shardIndex' := Json.int.inj (Option.some.inj indices)
  obtain rfl : signature = signature' := hex_injective (Json.str.inj (Option.some.inj signatures))
  rfl

theorem Backed.whole_part (backed : c.Backed members threshold) {a : AvailabilityAttestation}
    (listed : a ∈ c.attestations) : whole c (part a) = a := by
  obtain ⟨-, object, content, epoch⟩ := backed.about a listed
  unfold whole part
  rw [← object, ← content, ← epoch]

/-- An id stands for one certificate, whoever accepts it, up to the order of the attestations. -/
theorem same_of_certificateId (free : CollisionFree) (backed : c.Backed members threshold)
    (backed' : c'.Backed members' threshold') (same : c.certificateId = c'.certificateId) :
    (c.objectId = c'.objectId ∧ c.contentDigest = c'.contentDigest ∧ c.epoch = c'.epoch) ∧
      c.totalWeight = c'.totalWeight ∧ c.attestations.Perm c'.attestations := by
  rw [backed.named, backed'.named] at same
  have objects := lookup_eq_of_digest free same "object_id"
  have contents := lookup_eq_of_digest free same "content_digest"
  have epochs := lookup_eq_of_digest free same "epoch"
  have weights := lookup_eq_of_digest free same "total_weight"
  have items := lookup_eq_of_digest free same "attestations"
  have object : c.objectId = c'.objectId := Json.str.inj (Option.some.inj objects)
  have content : c.contentDigest = c'.contentDigest := Json.str.inj (Option.some.inj contents)
  have epoch : c.epoch = c'.epoch := Json.int.inj (Option.some.inj epochs)
  have weight : c.totalWeight = c'.totalWeight := Json.int.inj (Option.some.inj weights)
  refine ⟨⟨object, content, epoch⟩, weight, ?_⟩
  have parts : (sortedBy AvailabilityAttestation.providerId c.attestations).map part =
      (sortedBy AvailabilityAttestation.providerId c'.attestations).map part := by
    refine items_eq_of_sortKeys partJson_determined ?_
    rw [List.map_map, List.map_map]
    exact Option.some.inj items
  have rebuilt : (sortedBy AvailabilityAttestation.providerId c.attestations).map (whole c ∘ part) =
      sortedBy AvailabilityAttestation.providerId c.attestations := by
    refine (List.map_congr_left fun a listed => ?_).trans (List.map_id _)
    exact backed.whole_part ((sortedBy_perm _ _).mem_iff.mp listed)
  have rebuilt' : (sortedBy AvailabilityAttestation.providerId c'.attestations).map (whole c' ∘ part) =
      sortedBy AvailabilityAttestation.providerId c'.attestations := by
    refine (List.map_congr_left fun a listed => ?_).trans (List.map_id _)
    exact backed'.whole_part ((sortedBy_perm _ _).mem_iff.mp listed)
  have alike : whole c = whole c' := by
    funext part
    obtain ⟨providerId, shardIndex, signature⟩ := part
    unfold whole
    rw [object, content, epoch]
  rw [← List.map_map, parts, alike, List.map_map, rebuilt'] at rebuilt
  exact (sortedBy_perm _ _).symm.trans (rebuilt ▸ sortedBy_perm _ _)

/-- What `create` returns is accepted. -/
theorem verify_of_create (made : create attestations members threshold = .ok c) :
    c.verify members threshold = true := by
  have order : c.attestations.Perm attestations := by
    cases attestations with
    | nil => cases made
    | cons first others =>
      rw [create_eq List.mem_cons_self] at made
      split at made
      · cases made
      split at made
      · cases made
      split at made
      · cases made
      cases made
      exact sortedBy_perm _ _
  unfold verify
  rw [create_perm order, made]
  exact decide_eq_true ⟨rfl, rfl, rfl, rfl, rfl⟩

/-- The providers whose attestations are in both. -/
def both (c c' : AvailabilityCertificate) : Finset String :=
  (providers c.attestations).toFinset ∩ (providers c'.attestations).toFinset

theorem weight_eq_weigh (backed : c.Backed members threshold) :
    c.totalWeight = (weigh (weightAt members) (providers c.attestations).toFinset : Nat) := by
  rw [backed.weight, weightOf, weigh, List.sum_toFinset _ backed.distinct]

theorem providers_subset (backed : c.Backed members threshold) :
    (providers c.attestations).toFinset ⊆ members.keys.toFinset := by
  intro provider member
  obtain ⟨a, listed, rfl⟩ := List.mem_map.mp (List.mem_toFinset.mp member)
  have verified := (backed.about a listed).1
  unfold AvailabilityAttestation.verify at verified
  rw [List.mem_toFinset, Dict.mem_keys]
  split at verified
  · cases verified
  · rename_i found
    exact ⟨_, found⟩

/-- Two certificates share what their thresholds exceed the weight of all members by. -/
theorem both_outweighs (backed : c.Backed members threshold) (backed' : c'.Backed members threshold') :
    threshold + threshold' ≤
      (weigh (weightAt members) members.keys.toFinset : Nat) + (weigh (weightAt members) (both c c') : Nat) := by
  have whole := weigh_union_add_inter (weightAt members) (providers c.attestations).toFinset
    (providers c'.attestations).toFinset
  have bound := weigh_mono (weightAt members) (Finset.union_subset (providers_subset backed) (providers_subset backed'))
  have first := weight_eq_weigh backed
  have second := weight_eq_weigh backed'
  have enough := backed.enough
  have enough' := backed'.enough
  unfold both
  omega

/-- The provider's key has signed for both. -/
def SignedBoth (members : Dict String Member) (c c' : AvailabilityCertificate) (provider : String) : Prop :=
  ∃ member, members.get? provider = some member ∧ ∃ a ∈ c.attestations, ∃ b ∈ c'.attestations,
    (a.providerId = provider ∧ b.providerId = provider) ∧ (c.About a ∧ c'.About b) ∧
      KeyPair.verify member.publicKey (canonicalBytes a.statement) a.signature = true ∧
      KeyPair.verify member.publicKey (canonicalBytes b.statement) b.signature = true

theorem signed_of_verify {a : AvailabilityAttestation} {member : Member} (verified : a.verify members = true)
    (found : members.get? a.providerId = some member) :
    KeyPair.verify member.publicKey (canonicalBytes a.statement) a.signature = true := by
  unfold AvailabilityAttestation.verify at verified
  rw [found] at verified
  exact (Bool.and_eq_true_iff.mp verified).2

theorem signedBoth_of_mem (backed : c.Backed members threshold) (backed' : c'.Backed members threshold')
    {provider : String} (inBoth : provider ∈ both c c') : SignedBoth members c c' provider := by
  obtain ⟨first, second⟩ := Finset.mem_inter.mp inBoth
  have known := providers_subset backed first
  obtain ⟨a, listed, here⟩ := List.mem_map.mp (List.mem_toFinset.mp first)
  obtain ⟨b, listed', there⟩ := List.mem_map.mp (List.mem_toFinset.mp second)
  obtain ⟨member, found⟩ := Dict.mem_keys.mp (List.mem_toFinset.mp known)
  obtain ⟨verified, about⟩ := backed.about a listed
  obtain ⟨verified', about'⟩ := backed'.about b listed'
  have valid := signed_of_verify verified (here ▸ found)
  have valid' := signed_of_verify verified' (there ▸ found)
  exact ⟨member, found, a, listed, b, listed', ⟨here, there⟩, ⟨about, about'⟩, valid, valid'⟩

/-- Members that attest one content only for an object in an epoch. -/
def Steady (faulty : Finset String) (c c' : AvailabilityCertificate) : Prop :=
  ∀ provider, provider ∉ faulty → ∀ a ∈ c.attestations, ∀ b ∈ c'.attestations,
    a.providerId = provider → b.providerId = provider → a.objectId = b.objectId → a.epoch = b.epoch →
      a.contentDigest = b.contentDigest

/-- In whatever order attestations come, one certificate is made of them. Certificates that
are accepted by the same members name the members that stand behind both. Where those
outweigh the faulty ones, they certify one content. -/
theorem certificates_accountable (free : CollisionFree) (verified : c.verify members threshold = true)
    (verified' : c'.verify members threshold' = true) :
    (∀ (attestations order : List AvailabilityAttestation) (needed : Int), order.Perm attestations →
      create order members needed = create attestations members needed) ∧
    (∀ order, order.Perm c.attestations →
      ({ c with attestations := order } : AvailabilityCertificate).verify members threshold = true) ∧
    (c.certificateId = c'.certificateId →
      (c.objectId = c'.objectId ∧ c.contentDigest = c'.contentDigest ∧ c.epoch = c'.epoch) ∧
        c.totalWeight = c'.totalWeight ∧ c.attestations.Perm c'.attestations) ∧
    (∃ signers : Finset String, (∀ provider ∈ signers, SignedBoth members c c' provider) ∧
      threshold + threshold' ≤
        (weigh (weightAt members) members.keys.toFinset : Nat) + (weigh (weightAt members) signers : Nat)) ∧
    ∀ faulty : Finset String, Steady faulty c c' →
      (weigh (weightAt members) members.keys.toFinset : Nat) + (weigh (weightAt members) faulty : Nat) <
        threshold + threshold' →
      c.objectId = c'.objectId → c.epoch = c'.epoch → c.contentDigest = c'.contentDigest := by
  have backed := backed_of_verify verified
  have backed' := backed_of_verify verified'
  have shared := both_outweighs backed backed'
  refine ⟨fun _ _ _ => create_perm, fun order every => verify_of_perm every verified, same_of_certificateId free backed backed',
    ⟨both c c', fun provider inBoth => signedBoth_of_mem backed backed' inBoth, shared⟩, ?_⟩
  intro faulty steady few object epoch
  obtain ⟨provider, inBoth, honest⟩ : ∃ provider ∈ both c c', provider ∉ faulty := by
    by_contra none
    push Not at none
    have covered := weigh_mono (weightAt members) none
    omega
  obtain ⟨-, -, a, listed, b, listed', ⟨here, there⟩, ⟨about, about'⟩, -⟩ := signedBoth_of_mem backed backed' inBoth
  obtain ⟨objectA, contentA, epochA⟩ := about
  obtain ⟨objectB, contentB, epochB⟩ := about'
  have sameObject : a.objectId = b.objectId := objectA.trans (object.trans objectB.symm)
  have sameEpoch : a.epoch = b.epoch := epochA.trans (epoch.trans epochB.symm)
  exact contentA.symm.trans ((steady provider honest a listed b listed' here there sameObject sameEpoch).trans contentB)

section Solo

/-- The only member, under its name. -/
def soleProvider (pair : KeyPair) : Dict String Member :=
  Dict.empty.set "w" (soloMember pair)

theorem certified_sole (signs : SignaturesVerify) (pair : KeyPair) {contentDigest : String}
    (named : contentDigest ≠ "") :
    ∃ c : AvailabilityCertificate, c.verify (soleProvider pair) 1 = true ∧ c.contentDigest = contentDigest := by
  obtain ⟨attestation, made, about⟩ : ∃ attestation, AvailabilityAttestation.create
      (soloMember pair) "object" contentDigest 0 0 = .ok attestation ∧
        attestation.providerId = "w" ∧ attestation.contentDigest = contentDigest := ⟨_, rfl, rfl, rfl⟩
  have verified : attestation.verify (soleProvider pair) = true :=
    AvailabilityAttestation.verify_of_attest signs made (by decide) named rfl rfl
  have uniform : Uniform (soleProvider pair) [attestation] := by
    intro a listed
    obtain rfl := List.mem_singleton.mp listed
    refine ⟨verified, fun b listed' => ?_⟩
    obtain rfl := List.mem_singleton.mp listed'
    exact ⟨rfl, rfl, rfl⟩
  have light : ¬ weightOf (soleProvider pair) [attestation] < 1 := by
    have provider : providers [attestation] = ["w"] := congrArg (fun name => [name]) about.1
    rw [weightOf, provider]
    change ¬ ((1 : Nat) : Int) < 1
    omega
  have distinct : (providers [attestation]).Nodup := List.nodup_singleton _
  have certified : create [attestation] (soleProvider pair) 1 =
      .ok (certificateOf attestation (soleProvider pair) [attestation]) := by
    rw [create_eq (List.mem_singleton_self attestation), if_neg (not_not.mpr distinct), if_neg (not_not.mpr uniform),
      if_neg light]
  exact ⟨_, verify_of_create certified, about.2⟩

omit [Crypto] in
/-- A provider that attests two contents of one object is found in both certificates. -/
theorem certificates_accountable_solo : let _ := Crypto.ideal
    ∃ c c' : AvailabilityCertificate, c.contentDigest ≠ c'.contentDigest ∧ ∃ signers : Finset String,
      (∀ provider ∈ signers, SignedBoth (soleProvider idealKey) c c' provider) ∧
        0 < weigh (weightAt (soleProvider idealKey)) signers := by
  intro _
  obtain ⟨c, verified, first⟩ := certified_sole ideal_signaturesVerify idealKey (show "a" ≠ "" by decide)
  obtain ⟨c', verified', second⟩ := certified_sole ideal_signaturesVerify idealKey (show "b" ≠ "" by decide)
  obtain ⟨-, -, -, ⟨signers, signed, outweigh⟩, -⟩ := certificates_accountable ideal_collisionFree verified verified'
  refine ⟨c, c', by rw [first, second]; decide, signers, signed, ?_⟩
  have all : weigh (weightAt (soleProvider idealKey)) (soleProvider idealKey).keys.toFinset = 1 := rfl
  omega

end Solo

end AvailabilityCertificate

end Mosaic
