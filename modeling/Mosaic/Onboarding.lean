import Mosaic.Incentives
import Mosaic.Lib.GuardedRun

namespace Mosaic
open CanonicalJson Effects Economy

namespace AdmissionCoordinator

variable [Crypto]

/-- `except (MembershipError, SettlementError) as exc: raise OnboardingError(str(exc))`. -/
def onboardingError (e : EconomyError) : EconomyError := .onboarding e.message

/-- The lines of `admit` that come when the membership has admitted. -/
def record (request : AdmissionRequest) (bond : StakeBond) (certificate : AdmissionCertificate) : PyEconomy PUnit := do
  let s ← get
  raiseIf (s.onboardingBound = false) (.onboarding "onboarding coordinator is not bound to durable store")
  persist
  onStore (EconomyStore.put "onboarding" certificate.certificateId
    (.onboarding request bond certificate s.ledger.stateRoot s.manager.snapshot.root))

/-- `AdmissionCoordinator.admit`. -/
def admitValidator (request : AdmissionRequest) (bond : StakeBond) (approverIds : List String) :
    PyEconomy AdmissionCertificate := do
  let s ← get
  raiseIf (request.verify = false) (.onboarding "invalid applicant signature")
  raiseIf (bond.verify = false) (.onboarding "invalid stake bond signature")
  raiseIf (request.bondId ≠ some bond.bondId) (.onboarding "request and bond ids do not match")
  raiseIf (request.publicKey ≠ bond.ownerPublicKey ∨ request.stake ≠ bond.amount)
    (.onboarding "request and bond owner or amount mismatch")
  raiseIf (s.ledger.balanceOf bond.owner < bond.amount) (.onboarding "applicant has insufficient settled balance")
  let certificate ← rethrow (fun e => e.isMembership || e.isSettlement) onboardingError
    (MembershipManager.admitValidator request approverIds (some bond))
  record request bond certificate
  return certificate

/-- `bind_store`. -/
def bindStore : PyEconomy PUnit := modify bindOnboarding

/-- The requests and bonds of the onboarding rows, in the order of their keys. -/
def onboardingRows (store : EconomyStore) : List (AdmissionRequest × StakeBond) :=
  (sortedBy (fun row => row.1.2) store.rows.entries).filterMap fun row =>
    match row.2 with
    | .onboarding request bond _ _ _ => if row.1.1 = "onboarding" then some (request, bond) else none
    | _ => none

def restoreAll : List (AdmissionRequest × StakeBond) → PyEconomy PUnit
  | [] => return ⟨⟩
  | (request, bond) :: rows => do
    MembershipManager.restoreAdmission request bond
    restoreAll rows

def onboardingRoot (s : Economy) : String := digest (.obj [
  ("membership_root", .str s.manager.snapshot.root),
  ("settlement_root", .str s.ledger.stateRoot)])

/-- The last check compares the root with itself. -/
def restoreFromStore : PyEconomy Nat := do
  let s ← get
  raiseIf (s.onboardingBound = false) (.onboarding "onboarding coordinator is not bound to durable store")
  restoreAll (onboardingRows s.store)
  let restored := (onboardingRows s.store).length
  let t ← get
  let expected := if restored = 0 then none else some (onboardingRoot t)
  raiseIf (restored ≠ 0 ∧ expected ≠ some (digest (.obj [
    ("membership_root", .str t.manager.snapshot.root),
    ("settlement_root", .str t.ledger.stateRoot)]))) (.onboarding "restored onboarding root mismatch")
  return restored

end AdmissionCoordinator

inductive EconomyCall
  | ledger (call : SettlementCall)
  | admitValidator (request : AdmissionRequest) (approverIds : List String) (bond : Option StakeBond)
  | exit (validatorId : String) (epoch : Option Int)
  | withdraw (validatorId : String) (currentEpoch : Option Int)
  | slash (evidence : SlashEvidence) (penalty : Option Int)
  | penalizeNonReveal (validatorId : String) (epoch round penalty : Int)
  | advanceEpoch
  | restoreAdmission (request : AdmissionRequest) (bond : StakeBond)
  | settleRound (commitments : List RandomnessCommitment) (reveals : List RandomnessReveal)
      (validatorBonds : Dict String String) (round revealReward nonRevealPenalty : Int)
  | submitCommitment (commitment : RandomnessCommitment)
  | submitReveal (reveal : RandomnessReveal)
  | finalize (round revealReward nonRevealPenalty : Int)
  | onboard (request : AdmissionRequest) (bond : StakeBond) (approverIds : List String)
  | bindStore
  | restoreFromStore

namespace EconomyCall

variable [Crypto]

/-- The call, without what it returns. -/
def run : EconomyCall → PyEconomy PUnit
  | ledger call => discard (onLedger call.run)
  | admitValidator request approverIds bond => discard (MembershipManager.admitValidator request approverIds bond)
  | exit validatorId epoch => discard (MembershipManager.exit validatorId epoch)
  | withdraw validatorId currentEpoch => discard (MembershipManager.withdraw validatorId currentEpoch)
  | slash evidence penalty => discard (MembershipManager.slash evidence penalty)
  | penalizeNonReveal validatorId epoch round penalty =>
    discard (MembershipManager.penalizeNonReveal validatorId epoch round penalty)
  | advanceEpoch => discard MembershipManager.advanceEpoch
  | restoreAdmission request bond => MembershipManager.restoreAdmission request bond
  | settleRound commitments reveals validatorBonds round revealReward nonRevealPenalty =>
    discard (RandomnessIncentiveManager.settleRound commitments reveals validatorBonds round revealReward
      nonRevealPenalty)
  | submitCommitment commitment => BeaconRoundCoordinator.submitCommitment commitment
  | submitReveal reveal => BeaconRoundCoordinator.submitReveal reveal
  | finalize round revealReward nonRevealPenalty =>
    discard (BeaconRoundCoordinator.finalize round revealReward nonRevealPenalty)
  | onboard request bond approverIds => discard (AdmissionCoordinator.admitValidator request bond approverIds)
  | bindStore => AdmissionCoordinator.bindStore
  | restoreFromStore => discard AdmissionCoordinator.restoreFromStore

def exec (call : EconomyCall) (s : Economy) : Economy := final call.run s

/-- What calls in any order make of a new economy, those that raise included. -/
abbrev Reached (s : Economy) : Prop :=
  ∃ ledger manager store beaconBound, GuardedRun exec (fun _ _ => True) (.fresh ledger manager store beaconBound) s

end EconomyCall

end Mosaic
