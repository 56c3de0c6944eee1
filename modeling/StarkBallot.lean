import StarkBallot.Schemes.Result
import StarkBallot.Schemes.Fold
import StarkBallot.Schemes.Replay
import StarkBallot.Schemes.Marks
import StarkBallot.Schemes.Collision
import StarkBallot.Schemes.Levels
import StarkBallot.Schemes.Split
import StarkBallot.Schemes.Sorted
import StarkBallot.Schemes.Framing
import StarkBallot.Schemes.Packing
import StarkBallot.Schemes.Stateful
import StarkBallot.Schemes.Memo
import StarkBallot.Runtime.Rust
import StarkBallot.Runtime.Sha256
import StarkBallot.Runtime.Js
import StarkBallot.ContractCore.Types
import StarkBallot.ContractCore.Domain
import StarkBallot.ContractCore.InclusionProof
import StarkBallot.ContractCore.Bitmap
import StarkBallot.ContractCore.Encoding
import StarkBallot.Guest.Tally
import StarkBallot.Guest.Verdict
import StarkBallot.Guest.Journal
import StarkBallot.Guest.Binding
import StarkBallot.Host.ExactBitmaps
import StarkBallot.CryptoPrimitives.Hex
import StarkBallot.Merkle.Rfc6962
import StarkBallot.Merkle.Inclusion
import StarkBallot.Merkle.Plain
import StarkBallot.Merkle.Coherence
import StarkBallot.Merkle.Transparency
import StarkBallot.Merkle.Audit
import StarkBallot.Merkle.Consistency
import StarkBallot.Merkle.AppendOnly
import StarkBallot.ZkvmContract.InputCommitment
import StarkBallot.ZkvmContract.JournalGuards
import StarkBallot.ZkvmContract.Bitmap
import StarkBallot.ZkvmContract.WireInput
import StarkBallot.Schemes.Admission
import StarkBallot.Domain.Constants
import StarkBallot.Application.FinalizationStorage
import StarkBallot.Application.TransitionPolicy
import StarkBallot.Schemes.Async
import StarkBallot.Schemes.History
import StarkBallot.Application.TransitionCoordinator
import StarkBallot.AwsAdapters.FinalizationLifecycle
import StarkBallot.AwsAdapters.LifecycleSafety
import StarkBallot.Domain.Hex
import StarkBallot.Domain.BulletinBoard
import StarkBallot.Domain.SessionState
import StarkBallot.Domain.StagedWrite
import StarkBallot.Application.SessionMutation
import StarkBallot.Application.SessionVoting
import StarkBallot.Application.VoteRetry
import StarkBallot.Verification.BitmapMerkleTree
import StarkBallot.NodeAdapters.MockExecutor
import StarkBallot.Runtime.Json
import StarkBallot.Application.TransitionStorage
import StarkBallot.Application.SuccessfulCommit
import StarkBallot.Application.VerificationResult
import StarkBallot.Application.VotingTimes
import StarkBallot.AwsAdapters.VoteItems
import StarkBallot.AwsAdapters.VoteRestore
import StarkBallot.Schemes.Transactions
import StarkBallot.AwsAdapters.DynamoRecords
import StarkBallot.AwsAdapters.SuccessfulTransaction
import StarkBallot.AwsAdapters.MockVerification
import StarkBallot.Application.BitmapAdmission
import StarkBallot.AwsAdapters.DynamoTable
import StarkBallot.AwsAdapters.SessionTtl
import StarkBallot.AwsAdapters.SuccessfulCommits
import StarkBallot.AwsAdapters.TableSafety
import StarkBallot.AwsAdapters.SessionCalls
import StarkBallot.AwsAdapters.TableAlone
import StarkBallot.AwsAdapters.VerificationProtocol
import StarkBallot.AwsAdapters.VerificationResults
import StarkBallot.AwsAdapters.VerificationSafety
import StarkBallot.Schemes.Worst
import StarkBallot.Verification.VerificationChecks
import StarkBallot.Verification.VerificationSummary
import StarkBallot.Verification.PresentationPolicy
import StarkBallot.ZkvmContract.ElectionConfig
import StarkBallot.Verification.EngineTypes
import StarkBallot.Verification.LocalCastChecks
import StarkBallot.Verification.ProofVerifiers
import StarkBallot.Verification.EvaluateChecks
import StarkBallot.Verification.ScenarioProjection
import StarkBallot.Verification.PublicEvidence
import StarkBallot.ApiContract.VerificationResource
import StarkBallot.Verification.SuccessfulChecks
import StarkBallot.Verification.JournalAuthority
import StarkBallot.Verification.BuildVerificationChecks
import StarkBallot.Application.SupportedJournal
import StarkBallot.Api.VerifyHandler
import StarkBallot.Domain.ScenarioApplication
import StarkBallot.Verification.PublicAuditConsistency
import StarkBallot.Application.FinalizationResult
import StarkBallot.AwsAdapters.ProvingFailures
import StarkBallot.AwsAdapters.VoteLinearization
import StarkBallot.Guest.RecordOrder
import StarkBallot.ZkvmContract.WorkBudget
import StarkBallot.AwsAdapters.ReconciliationEffect
import StarkBallot.AwsAdapters.DispatchTimeouts
import StarkBallot.AwsAdapters.RateLimitSafety
import StarkBallot.Verification.PublicInputCommitment
import StarkBallot.AwsAdapters.FileMockSafety
import StarkBallot.AwsAdapters.FileMockRejected
import StarkBallot.Application.SucceededUpdate
import StarkBallot.AwsAdapters.ReceiptHash
import StarkBallot.Verification.BitmapSpelling
import StarkBallot.Verification.FailClosedStatus
import StarkBallot.Domain.PersistedHistory
import StarkBallot.Runtime.Numbers
import StarkBallot.Schemes.Ranges
import StarkBallot.ApiContract.ContentRange
import StarkBallot.Api.VerificationBundles
import StarkBallot.Web.ArtifactDownload
import StarkBallot.AwsAdapters.DeliveryMetadata
import StarkBallot.Validation.SchemaPrototypes
import StarkBallot.Api.AuditCheckers
import StarkBallot.Schemes.Codecs
import StarkBallot.AwsAdapters.ProverWorkMessage
import StarkBallot.AwsAdapters.ProverWorkCodecs
import StarkBallot.AwsAdapters.ProverWorkRoundTrip
import StarkBallot.Application.InputBuilder
import StarkBallot.AwsAdapters.ProverWorkDelivery
import StarkBallot.Schemes.Base64
import StarkBallot.Verification.ReceiptSeal
import StarkBallot.Runtime.Paths
import StarkBallot.Schemes.Triples
import StarkBallot.NodeAdapters.ZipEntries
import StarkBallot.NodeAdapters.ZipSafety
import StarkBallot.NodeAdapters.ZipAgreement
import StarkBallot.Domain.SessionCapabilityExactness
import StarkBallot.Application.PersistedBitmaps
import StarkBallot.Application.BitmapBinding
import StarkBallot.AwsAdapters.VerificationRefinement
import StarkBallot.AwsAdapters.CommitCalls
import StarkBallot.AwsAdapters.ReceiptBoard
import StarkBallot.AwsAdapters.RestoredRecords
import StarkBallot.AwsAdapters.SharedExpiry
import StarkBallot.Guest.AllCounted
import StarkBallot.Application.SessionInput
import StarkBallot.Application.SessionProving
import StarkBallot.Application.ScenarioOutcome
import StarkBallot.Merkle.CastSnapshot
import StarkBallot.ZkvmContract.HostOutput
import StarkBallot.Verification.CountedAsCast
import StarkBallot.ZkvmContract.BitmapArtifacts
import StarkBallot.Api.BitmapProof
