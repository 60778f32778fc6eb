import Mosaic.Lib.CanonicalJson
import Mosaic.Lib.Quorum
import Mosaic.Lib.GuardedRun
import Mosaic.TerminalOutcome
import Mosaic.OwnerAuthorisation
import Mosaic.ExecutorInStep
import Mosaic.Node
import Mosaic.NodeHandlers
import Mosaic.NodeRuns
import Mosaic.NodeRestart
import Mosaic.NodeSeals
import Mosaic.SealAuthenticity
import Mosaic.Lib.DictSum
import Mosaic.Settlement
import Mosaic.SettlementSteps
import Mosaic.SettlementOutcomes
import Mosaic.SettlementRewards
import Mosaic.SettlementConservation
import Mosaic.SettlementAtomicity
import Mosaic.Economy
import Mosaic.Membership
import Mosaic.Incentives
import Mosaic.Onboarding
import Mosaic.MembershipOutcomes
import Mosaic.EconomyRuns
import Mosaic.StakeAgreement
import Mosaic.StakeBacking
import Mosaic.VotingPower
import Mosaic.BondAuthorisation
import Mosaic.ReceiptCollection
import Mosaic.NodeCapsules
import Mosaic.NodeRecovery
import Mosaic.CrashConsistency
import Mosaic.SubmitTruth
import Mosaic.ExactlyOnce
import Mosaic.BundleAgreement
import Mosaic.QuorumSafety
import Mosaic.BundleVisibility
import Mosaic.CommitReveal
import Mosaic.MembershipRestart
import Mosaic.Lib.Confluence
import Mosaic.AdmissionOrder
import Mosaic.Lib.Lockstep
import Mosaic.ArrivalOrder
import Mosaic.BeaconAtomicity
import Mosaic.Availability
import Mosaic.Lib.Elimination
import Mosaic.ErasureMatrix
import Mosaic.ErasureRecovery
import Mosaic.OutcomeRecovery
import Mosaic.ClosureDelivery
import Mosaic.MosaicSafety
import Mosaic.NonceOwnership
import Mosaic.AvailabilityNetwork
import Mosaic.CapsuleAuthenticity
import Mosaic.Nexus.Models
import Mosaic.Nexus.Quorum
import Mosaic.Nexus.Domain
import Mosaic.Nexus.CertificateConflicts
import Mosaic.Nexus.DomainSteps
import Mosaic.Nexus.TwoPhases
import Mosaic.Nexus.ObjectHistory
import Mosaic.Nexus.IssuedCertificates
import Mosaic.Nexus.Progress
import Mosaic.Nexus.CertificateBinding
import Mosaic.Nexus.Join
import Mosaic.Nexus.JoinAtomicity
import Mosaic.Nexus.AbortExclusion
import Mosaic.Nexus.Governance
import Mosaic.Nexus.Snapshot
import Mosaic.Nexus.VerifierOutcomes
import Mosaic.ReceiptCounting
import Mosaic.ApplyAtomicity
import Mosaic.BatchAtomicity
import Mosaic.ClosedOutcomes
import Mosaic.SnapshotSoundness
import Mosaic.Committee
import Mosaic.CommitteeSelection
import Mosaic.CommitteeSeats
import Mosaic.BeaconBacking
import Mosaic.ShardRepair
import Mosaic.Lib.Floors
import Mosaic.RewardShares
import Mosaic.Lib.JsonReading
import Mosaic.LedgerPersistence
import Mosaic.LedgerRoot
import Mosaic.Lib.RecentQueue
import Mosaic.Security
import Mosaic.ReplayWindow
import Mosaic.RateBound
import Mosaic.Lib.AsciiJson
import Mosaic.FrameGate
import Mosaic.Nexus.Network
import Mosaic.Nexus.NetworkSteps
import Mosaic.Nexus.Submissions
import Mosaic.Nexus.Acknowledgements
import Mosaic.Lib.JsonParser
import Mosaic.Lib.JsonRoundTrip
import Mosaic.EventLog
import Mosaic.Lib.HashChain
import Mosaic.EventChain
import Mosaic.EventAppends
import Mosaic.Lib.Base64
import Mosaic.Lib.Framing
import Mosaic.Wire
import Mosaic.Server
import Mosaic.Lib.Lineage
import Mosaic.NodeVotes
import Mosaic.Cluster
import Mosaic.Lib.Journal
import Mosaic.Storage
import Mosaic.NodeDatabase
import Mosaic.ExecutorStore
import Mosaic.Nexus.Membership
import Mosaic.Lib.Balloting
import Mosaic.Lib.Cascade
import Mosaic.Round
import Mosaic.RoundProgress
import Mosaic.Nexus.Ballots
import Mosaic.Nexus.Replicas
import Mosaic.Publication
import Mosaic.Attestations
import Mosaic.Lib.Deliveries
import Mosaic.ControlPlane
import Mosaic.Gossip
import Mosaic.ControlRestart
import Mosaic.Lib.CanonicalTexts
import Mosaic.Strict.ApplyAtomicity
import Mosaic.Strict.Execution
import Mosaic.Strict.ExecutionAtomicity
import Mosaic.Strict.ExecutorInStep
import Mosaic.Strict.SealChain
import Mosaic.Strict.ReceiptCounting
import Mosaic.Strict.ReceiptCollection
import Mosaic.Strict.Verifiers
import Mosaic.Strict.LedgerPersistence
import Mosaic.Strict.Membership
import Mosaic.Strict.MembershipAtomicity
