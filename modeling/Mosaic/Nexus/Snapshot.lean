import Mosaic.Nexus.Progress

namespace Mosaic.Nexus
open CanonicalJson Effects

structure StateSnapshot where
  snapshotId : String
  epoch : Int
  domainId : String
  stateRoot : String
  signers : List String
  signatures : List (String × Bytes)
  statementDigest : String
  deriving DecidableEq

/-- `vars(item)`. -/
def ObjectState.vars (item : ObjectState) : Json := .obj [
  ("object_id", .str item.objectId),
  ("version", .int item.version),
  ("owner", .str item.owner),
  ("payload", .str item.payload),
  ("domain_id", .str item.domainId)]

def snapshotStatement (epoch : Int) (domainId stateRoot : String) : Json := .obj [
  ("protocol", .str "CCD/NEXUS/v1"),
  ("phase", .str "SNAPSHOT"),
  ("epoch", .int epoch),
  ("domain_id", .str domainId),
  ("state_root", .str stateRoot)]

variable [Crypto]

namespace DomainExecutor

def stateRoot (d : DomainExecutor) : String := digest (.obj [
  ("protocol", .str "CCD/NEXUS/v1"),
  ("epoch", .int d.epoch),
  ("domain_id", .str d.domainId),
  ("objects", .list ((sorted d.objects.keys).filterMap fun key => (d.objects.get? key).map ObjectState.vars))])

def createSnapshot (d : DomainExecutor) : StateSnapshot :=
  let statement := snapshotStatement d.epoch d.domainId d.stateRoot
  let signatures := d.committee.signAll statement
  let signers := signatures.map Prod.fst
  { snapshotId := certificateId (digest statement) signers signatures
    epoch := d.epoch
    domainId := d.domainId
    stateRoot := d.stateRoot
    signers
    signatures
    statementDigest := digest statement }

def verifySnapshot (d : DomainExecutor) (snapshot : StateSnapshot) : Except NexusError Bool := do
  let statement := snapshotStatement snapshot.epoch snapshot.domainId snapshot.stateRoot
  let expectedDigest := digest statement
  let signatures := sortedSignatures snapshot.signatures
  let expectedId := certificateId expectedDigest (sorted snapshot.signers) signatures
  if snapshot.snapshotId = expectedId ∧
      snapshot.statementDigest = expectedDigest ∧
      snapshot.epoch = d.epoch ∧
      snapshot.domainId = d.domainId ∧
      snapshot.stateRoot = d.stateRoot then
    let weight ← d.committee.weightOf snapshot.signers
    return d.committee.threshold ≤ weight && d.committee.signaturesValid statement snapshot.signers snapshot.signatures
  else
    return false

/-- A well-formed committee signs snapshots that are accepted. -/
theorem verifySnapshot_createSnapshot {d : DomainExecutor} (verifies : SignaturesVerify) (wf : d.committee.WellFormed) :
    d.verifySnapshot d.createSnapshot = .ok true := by
  obtain ⟨weight, weighed, enough⟩ := wf.weightOf_signers (snapshotStatement d.epoch d.domainId d.stateRoot)
  unfold verifySnapshot createSnapshot
  rw [if_pos (by simp only [QuorumCommittee.signers_sorted, QuorumCommittee.signAll_sorted, and_self])]
  rw [except_bind_eq_ok]
  refine ⟨weight, weighed, ?_⟩
  rw [wf.signaturesValid_signAll verifies, decide_eq_true enough]
  rfl

end DomainExecutor

end Mosaic.Nexus
