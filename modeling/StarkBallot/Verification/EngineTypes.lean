import StarkBallot.Application.VerificationResult
import StarkBallot.Verification.BitmapMerkleTree
import StarkBallot.Verification.VerificationChecks

/-! What the checks are evaluated on, and what they return
    (`verification/src/verification/engine/types.ts`, `shared/types.ts`, `consistency-proof-types.ts`,
    `evidence-acquisition.ts`). Every fact may be missing, and most of them come in two copies, one in
    the journal and one beside it. -/

namespace StarkBallot.Verification
open Application

/-! ### Evidence -/

structure VoteReceipt where
  voteId : JsString
  commitment : JsString
  bulletinIndex : Num
  bulletinRootAtCast : JsString
  inputCommitment : Option JsString := none
  timestamp : Num
  signature : Option JsString := none

structure UserVoteProof where
  leafIndex : Option Num
  treeSize : Option Num
  merklePath : Option (List JsString)
  bulletinRootAtCast : Option JsString

structure UserVoteInput where
  vote : Option JsString := none
  random : Option JsString := none
  commitment : Option JsString := none
  voteId : Option JsString := none
  proof : Option UserVoteProof := none

structure VerificationPublicInputAuthority extends PublicInputAuthority where
  source : PublicInputArtifactSource
  finalizationId : Option JsString := none
  bundleKey : Option JsString := none

structure SthVerificationResult where
  verified : Bool
  consensus : Bool
  sourcesChecked : Num
  matchingSources : Num
  errors : List JsString

structure AdmittedConsistencyProof where
  fromTreeSize : Num
  toTreeSize : Num
  rootAtFromTreeSize : JsString
  rootAtToTreeSize : JsString
  proofNodes : List JsString
  oldSubtreeHashes : Option (List JsString) := none
  appendSubtreeHashes : Option (List JsString) := none
  generatedAtMs : Num

structure BitmapProofResponse where
  leafChunk : JsString
  auditPath : List PathNode

/-- How some evidence was acquired. -/
inductive EvidenceAcquisition (α : Type) where
  | admitted (value : α)
  | unavailable (message : Option String)
  | malformed (message : Option String)
  | transportFailed (message : Option String)

/-- The published result; a count that is no number is missing. -/
structure PublishedTally where
  counts : Option (Vector (Option Num) 5)
  totalVotes : Option Num

/-! ### Verifier outcomes -/

structure VerificationReportEvidence where
  status : Option VerifierReportStatus
  expectedImageId : Option JsString
  /-- `undefined`, `null` or a text. -/
  receiptImageId : Option (Option JsString)
  devModeReceipt : Option Bool

inductive VerificationOutcomeInput where
  | notRun
  | running
  | success (report : Option VerificationReportEvidence)
  | devMode (report : Option VerificationReportEvidence)
  | failed (report : Option VerificationReportEvidence)
      (failureCategory : Option VerificationFailureCategory)

namespace VerificationOutcomeInput

def status : VerificationOutcomeInput → VerificationStatus
  | .notRun => .notRun
  | .running => .running
  | .success _ => .success
  | .devMode _ => .devMode
  | .failed _ _ => .failed

def report : VerificationOutcomeInput → Option VerificationReportEvidence
  | .notRun => none
  | .running => none
  | .success report => report
  | .devMode report => report
  | .failed report _ => report

end VerificationOutcomeInput

/-! ### The input -/

structure VerificationIdentityInput where
  electionId : Option JsString := none
  electionConfigHash : Option JsString := none
  logId : Option JsString := none
  sthSourcesConfigured : Option Bool := none
  claimedImageId : Option JsString := none
  comparisonImageId : Option JsString := none
  allowDevModeVerification : Option Bool := none

structure VerificationUserReceiptInput where
  voteReceipt : Option VoteReceipt := none
  userVote : Option UserVoteInput := none

structure VerificationArtifactInput where
  journal : Option CurrentZkVMJournal := none
  electionManifest : Option ElectionManifest := none
  closeStatement : Option CloseStatement := none
  sthDigest : Option JsString := none
  sthVerification : Option SthVerificationResult := none
  bulletinRoot : Option JsString := none
  treeSize : Option Num := none
  publicInputAuthority : Option VerificationPublicInputAuthority := none
  seenBitmapRoot : Option JsString := none
  includedBitmapRoot : Option JsString := none
  bitmapProofSource : Option BitmapProofSource := none
  consistencyProof : Option (EvidenceAcquisition AdmittedConsistencyProof) := none
  includedBitmapProof : Option (EvidenceAcquisition BitmapProofResponse) := none
  seenBitmapProof : Option (EvidenceAcquisition BitmapProofResponse) := none

structure VerificationTallyInput where
  missingSlots : Option Num := none
  invalidPresentedSlots : Option Num := none
  rejectedRecords : Option Num := none
  excludedSlots : Option Num := none
  tally : Option PublishedTally := none
  verifiedTally : Option (Vector Num 5) := none
  totalExpected : Option Num := none
  inputCommitment : Option JsString := none

structure VerificationEvaluationInput extends VerificationIdentityInput, VerificationUserReceiptInput,
    VerificationArtifactInput, VerificationTallyInput where
  verifierOutcome : Option VerificationOutcomeInput := none

/-! ### Results -/

/-- Diagnostics belong to a failure, notes to a failure or to missing evidence. -/
inductive CheckResult where
  | success
  | pending
  | running
  | notRun (noteKey : Option VerificationCheckNoteKey)
  | failed (error : Option String) (noteKey : Option VerificationCheckNoteKey)
  deriving DecidableEq

namespace CheckResult

def status : CheckResult → VerificationStepStatus
  | .success => .success
  | .pending => .pending
  | .running => .running
  | .notRun _ => .notRun
  | .failed _ _ => .failed

def noteKey : CheckResult → Option VerificationCheckNoteKey
  | .notRun noteKey => noteKey
  | .failed _ noteKey => noteKey
  | _ => none

/-- `{ status }`. -/
def ofStatus : VerificationStepStatus → CheckResult
  | .success => .success
  | .pending => .pending
  | .running => .running
  | .notRun => .notRun none
  | .failed => .failed none none

/-- `{ status: 'failed', error }`. -/
def failure (error : String) : CheckResult := .failed (some error) none

/-- `{ status: holds ? 'success' : 'failed' }`. -/
def ofBool (holds : Bool) : CheckResult := if holds then .success else .failed none none

@[simp] theorem status_ofStatus (status : VerificationStepStatus) :
    (ofStatus status).status = status := by
  cases status <;> rfl

@[simp] theorem noteKey_ofStatus (status : VerificationStepStatus) :
    (ofStatus status).noteKey = none := by
  cases status <;> rfl

@[simp] theorem status_failure (error : String) : (failure error).status = .failed := rfl

@[simp] theorem status_ofBool (holds : Bool) :
    (ofBool holds).status = if holds then .success else .failed := by
  cases holds <;> rfl

end CheckResult

end StarkBallot.Verification
