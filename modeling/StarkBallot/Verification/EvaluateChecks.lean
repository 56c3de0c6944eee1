import StarkBallot.Verification.LocalCastChecks
import StarkBallot.Verification.ProofVerifiers
import StarkBallot.ZkvmContract.ElectionConfig

/-! The evaluation of the checks (`verification/src/verification/engine/evaluate-checks.ts`,
    `admit-evidence.ts`, `excluded-count.ts`, `public-audit-artifacts.ts`). The status of the proof
    closes a gate in front of the checks that read the journal:

        outcome ── starkStatus ── zkGateStatus ──▶ six checks take the gate's status when there is one
                                                   a seventh takes it unless slots were excluded

    A fact that is given twice is read from the journal first by some checks, from its copy first by
    others. Two checks may throw, and then the whole evaluation does. -/

namespace StarkBallot.Verification
open Schemes Application Domain CryptoPrimitives ZkvmContract

variable (noble : NobleUtils) (sha256 : List UInt8 → Bytes 32)

/-! ### The gate -/

/-- The outcome of the verifier; without one it was not run. -/
def resolveStarkStatus (outcome : Option VerificationOutcomeInput)
    (allowDevModeVerification : Option Bool) :
    VerificationStepStatus :=
  match outcome.getD .notRun with
  | .notRun => .notRun
  | .running => .running
  | .success _ => .success
  | .devMode _ => if allowDevModeVerification.getD false then .success else .notRun
  | .failed _ _ => .failed

/-- `undefined` opens the gate. -/
def resolveZkGateStatus : VerificationStepStatus → Option VerificationStepStatus
  | .running => some .pending
  | .notRun => some .notRun
  | .failed => some .failed
  | _ => none

structure EvaluationRuntime where
  starkStatus : VerificationStepStatus
  zkGateStatus : Option VerificationStepStatus
  localCastResults : LocalCastCheckResults

/-- `if (zkGateStatus) return { status: zkGateStatus }`. -/
def gated (zkGateStatus : Option VerificationStepStatus) (result : CheckResult) : CheckResult :=
  match zkGateStatus with
  | some status => .ofStatus status
  | none => result

/-! ### Counts -/

def isValidCount (value : Num) : Bool := value.isInteger && !value.lt (.ofNat 0)

/-- The journal decides; then the count, then the sum of its parts. -/
def resolveExcludedCount (journal : Option CurrentZkVMJournal)
    (missingSlots invalidPresentedSlots : Option Num) (excludedSlots : Option Num) : Option Num :=
  match journal with
  | some journal => some journal.excludedSlots
  | none =>
    match excludedSlots, missingSlots, invalidPresentedSlots with
    | some excludedSlots, _, _ => some excludedSlots
    | none, some missingSlots, some invalidPresentedSlots =>
        some (missingSlots.add invalidPresentedSlots)
    | none, _, _ => none

/-- A count of the journal that is no count. -/
def resolveInvalidJournalCounts (journal : Option CurrentZkVMJournal) : Option CheckResult := do
  let journal ← journal
  let invalidFields := [("excludedSlots", journal.excludedSlots), ("missingSlots", journal.missingSlots),
    ("invalidPresentedSlots", journal.invalidPresentedSlots), ("validVotes", journal.validVotes)].filter
      fun field => !isValidCount field.2
  if invalidFields = [] then none
  else some (.failure
    ("Invalid zkVM journal: " ++ ", ".intercalate (invalidFields.map Prod.fst) ++
      " is missing or invalid."))

/-! ### Recorded as cast -/

def resolveRecordedIndexInRange (voteReceipt : Option VoteReceipt) (treeSize : Option Num) :
    CheckResult :=
  match voteReceipt, treeSize with
  | some voteReceipt, some treeSize =>
    if !voteReceipt.bulletinIndex.isInteger || !treeSize.isInteger then .notRun none
    else
      match asBulletinIndex voteReceipt.bulletinIndex with
      | .error _ => .failure "Invalid bulletin index"
      | .ok receiptBulletinIndex =>
        if (Num.ofNat receiptBulletinIndex).lt treeSize then .success
          else .failure "Invalid bulletin index"
  | _, _ => .notRun none

/-- `try { … } catch`: what was thrown is the diagnostic. -/
def includedOrFailed : JsM Bool → CheckResult
  | .ok true => .success
  | .ok false => .failure "Inclusion proof verification failed."
  | .error error => .failure (errorMessage error)

def verifyAtCast (proof : CanonicalRfc6962Proof) (voteReceipt : VoteReceipt) (commitment : JsString)
    (receiptBulletinIndex proofLeafIndex : ℕ) : CheckResult :=
  if proofLeafIndex ≠ receiptBulletinIndex then
    .failure "Inclusion proof leaf index does not match receipt bulletin index."
  else if !proof.treeSize.isInteger || proof.treeSize.le (.ofNat 0) then
    .failure "Inclusion proof tree size is invalid."
  else if !proof.treeSize.eq (.ofNat (receiptBulletinIndex + 1)) then
    .failure "Inclusion proof tree size does not match the cast snapshot."
  else if normalizeHexString proof.bulletinRootAtCast ≠
      normalizeHexString voteReceipt.bulletinRootAtCast then
    .failure "Inclusion proof root does not match receipt root at cast."
  else includedOrFailed (verifyCTMerkleInclusion noble sha256 commitment proof.merklePath proofLeafIndex
    proof.bulletinRootAtCast proof.treeSize.toNat)

def resolveRecordedInclusionProof (voteReceipt : Option VoteReceipt) (userVote : Option UserVoteInput) :
    CheckResult :=
  match toCanonicalRfc6962Proof (userVote.bind (·.proof)), voteReceipt,
      nonEmptyText (userVote.bind (·.commitment)) with
  | some proof, some voteReceipt, some commitment =>
    if !isValidCount voteReceipt.bulletinIndex then .notRun none
    else
      match asBulletinIndex voteReceipt.bulletinIndex, asLeafIndex proof.leafIndex with
      | .ok receiptBulletinIndex, .ok proofLeafIndex =>
        verifyAtCast noble sha256 proof voteReceipt commitment receiptBulletinIndex proofLeafIndex
      | _, _ => .failure "Inclusion proof leaf index is invalid."
  | _, _, _ => .notRun none

/-- `undefined` for a snapshot that fits the receipt and the final size. -/
def validateConsistencySnapshot (proof : CanonicalRfc6962Proof) (voteReceipt : VoteReceipt)
    (newSize : Num) :
    JsM (Option CheckResult) := do
  if !isValidCount proof.leafIndex then return some (.failure "Consistency proof leaf index is invalid.")
  else
    let receiptBulletinIndex ← asBulletinIndex voteReceipt.bulletinIndex
    let proofLeafIndex ← asLeafIndex proof.leafIndex
    if proofLeafIndex ≠ receiptBulletinIndex then
      return some (.failure "Consistency proof leaf index does not match receipt bulletin index.")
    else if !proof.treeSize.isInteger || proof.treeSize.le (.ofNat 0) then
      return some (.failure "Consistency proof tree size is invalid.")
    else if !proof.treeSize.eq (.ofNat (receiptBulletinIndex + 1)) then
      return some (.failure "Consistency proof tree size does not match the cast snapshot.")
    else if normalizeHexString proof.bulletinRootAtCast ≠
        normalizeHexString voteReceipt.bulletinRootAtCast then
      return some (.failure "Root mismatch: receipt and inclusion proof disagree")
    else if newSize.lt proof.treeSize then
      return some (.failure "Consistency proof tree size exceeds final bulletin size.")
    else return none

def notAdmitted (message : Option String) : CheckResult :=
  .failure (message.getD "Consistency proof evidence could not be admitted.")

def verifyAdmittedConsistencyProof (consistencyProof : EvidenceAcquisition AdmittedConsistencyProof)
    (snapshot : ConsistencyProofExpectation) : CheckResult :=
  match consistencyProof with
  | .unavailable _ => .notRun none
  | .malformed message => notAdmitted message
  | .transportFailed message => notAdmitted message
  | .admitted proof =>
    match verifyConsistencyProof noble sha256 proof snapshot with
    | none => .success
    | some error => .failure error

def resolveRecordedConsistencyProof (input : VerificationEvaluationInput) : JsM CheckResult :=
  match input.voteReceipt.filter (·.bulletinRootAtCast ≠ []), nonEmptyText input.bulletinRoot,
      input.treeSize, toCanonicalRfc6962Proof (input.userVote.bind (·.proof)) with
  | some voteReceipt, some bulletinRoot, some newSize, some proof =>
    if !newSize.isInteger || newSize.le (.ofNat 0) then .ok (.notRun none)
    else if !isValidCount voteReceipt.bulletinIndex then .ok (.notRun none)
    else do
      match ← validateConsistencySnapshot proof voteReceipt newSize with
      | some snapshotError => return snapshotError
      | none =>
        return verifyAdmittedConsistencyProof noble sha256
          (input.consistencyProof.getD (.unavailable none))
          ⟨proof.treeSize.toNat, newSize.toNat, voteReceipt.bulletinRootAtCast, bulletinRoot⟩
  | _, _, _, _ => .ok (.notRun none)

def hasPublicSthEvidence (input : VerificationEvaluationInput) : Bool :=
  (nonEmptyText ((input.journal.map (·.sthDigest)).or input.sthDigest)).isSome &&
  (nonEmptyText ((input.journal.map (·.bulletinRoot)).or input.bulletinRoot)).isSome &&
  ((input.journal.map (·.treeSize)).or input.treeSize).isSome

def resolveRecordedSthThirdParty (input : VerificationEvaluationInput) : CheckResult :=
  if !hasPublicSthEvidence input then .notRun none
  else if input.sthSourcesConfigured ≠ some true then .notRun none
  else
    match input.sthVerification with
    | none => .notRun none
    | some result => .ofBool result.verified

/-! ### Counted as recorded -/

/-- `'0'.repeat(64)`. -/
def zeroRoot : JsString := List.replicate 64 '0'

def resolveCountedInputSanity (publicInputAuthority : Option VerificationPublicInputAuthority) :
    CheckResult :=
  match publicInputAuthority with
  | none => .notRun none
  | some publicInput =>
    if !publicInput.treeSize.isInteger || publicInput.treeSize.le (.ofNat 0) then .ofStatus .failed
    else if publicInput.treeSize.lt publicInput.votesCount then .ofStatus .failed
    else if !isValidHexString publicInput.bulletinRoot (some 32) then .ofStatus .failed
    else .ofBool (normalizeHexString publicInput.bulletinRoot ≠ zeroRoot)

def resolveCountedUniqueIndices (publicInputAuthority : Option VerificationPublicInputAuthority) :
    CheckResult :=
  match publicInputAuthority with
  | none => .notRun none
  | some publicInput => .ofBool publicInput.uniqueIndices

def resolveCountedUniqueCommitments (publicInputAuthority : Option VerificationPublicInputAuthority) :
    CheckResult :=
  match publicInputAuthority with
  | none => .notRun none
  | some publicInput => .ofBool publicInput.uniqueCommitments

/-- `reduce((total, value) => total + value, 0)`. -/
def totalOf (values : List Num) : Num := values.foldl Num.add (.ofNat 0)

def comparePublishedTally (counts : Vector (Option Num) 5) (totalVotes : Num)
    (verifiedTally : Vector Num 5) :
    CheckResult :=
  if counts.toList.any Option.isNone then .notRun none
  else
    let tallyMatches :=
      (counts.toList.zip verifiedTally.toList).all fun entry => entry.1.any (·.eq entry.2)
    .ofBool (tallyMatches && (totalOf verifiedTally.toList).eq totalVotes)

def validateJournalTally (journal : Option CurrentZkVMJournal) : CheckResult :=
  match journal with
  | none => .notRun none
  | some journal =>
    let tallySum := totalOf journal.verifiedTally.toList
    if !tallySum.eq journal.validVotes then
      .failure s!"Tally sum ({tallySum.toText}) does not match valid votes ({journal.validVotes.toText})"
    else .success

def resolveCountedTallyConsistent (journal : Option CurrentZkVMJournal) (tally : Option PublishedTally)
    (verifiedTally : Option (Vector Num 5)) (zkGateStatus : Option VerificationStepStatus) :
    CheckResult :=
  gated zkGateStatus <|
    if journal.any (·.totalVotes.eq (.ofNat 0)) then .failure "No votes processed by zkVM"
    else
      match tally.bind (·.counts), tally.bind (·.totalVotes), verifiedTally with
      | some counts, some totalVotes, some verifiedTally =>
          comparePublishedTally counts totalVotes verifiedTally
      | _, _, _ => validateJournalTally journal

/-- A positive count fails before the gate is asked. -/
def resolveCountedMissingIndicesZero (journal : Option CurrentZkVMJournal)
    (missingSlots invalidPresentedSlots excludedSlots : Option Num)
    (zkGateStatus : Option VerificationStepStatus) :
    CheckResult :=
  match resolveInvalidJournalCounts journal with
  | some journalCountError => journalCountError
  | none =>
    match resolveExcludedCount journal missingSlots invalidPresentedSlots excludedSlots with
    | none => .notRun none
    | some resolvedExcludedSlots =>
      if (Num.ofNat 0).lt resolvedExcludedSlots then
        .failure s!"excludedSlots={resolvedExcludedSlots.toText}"
      else gated zkGateStatus .success

def resolveCountedExpectedVsTreeSize (journal : Option CurrentZkVMJournal)
    (totalExpected treeSize : Option Num) (zkGateStatus : Option VerificationStepStatus) : CheckResult :=
  gated zkGateStatus <|
    match totalExpected.or (journal.map (·.totalExpected)), treeSize.or (journal.map (·.treeSize)) with
    | some totalExpected, some treeSize =>
      if !totalExpected.isInteger || !treeSize.isInteger then .notRun none
        else .ofBool (totalExpected.eq treeSize)
    | _, _ => .notRun none

def resolveCountedInputCommitmentMatch (input : VerificationEvaluationInput)
    (zkGateStatus : Option VerificationStepStatus) : CheckResult :=
  gated zkGateStatus <|
    match input.publicInputAuthority with
    | none => .notRun none
    | some publicInput =>
      match nonEmptyText ((input.journal.map (·.inputCommitment)).or input.inputCommitment) with
      | none => .notRun none
      | some resolvedCommitment =>
        if publicInput.recomputedInputCommitment = [] then .notRun none
        else .ofBool
          (normalizeHexString publicInput.recomputedInputCommitment =
            normalizeHexString resolvedCommitment)

/-! ### Audit artifacts -/

def recomputeElectionManifestHash (manifest : ElectionManifest) : JsString :=
  hashElectionConfig noble sha256
    ⟨manifest.totalExpected, manifest.choices, manifest.version, manifest.botCount,
      manifest.merkleTreeDepth⟩

/-- The texts that are there. -/
def candidates (values : List (Option JsString)) : List JsString := values.filterMap nonEmptyText

/-- `new Set(values).size > 1`. -/
def disagree {α : Type} [DecidableEq α] (values : List α) : Bool := 1 < values.dedup.length

def compareElectionManifestInputs (input : VerificationEvaluationInput) (manifest : ElectionManifest)
    (recomputedHash : JsString) : CheckResult :=
  if disagree (candidates [some manifest.electionId, input.electionId,
      input.publicInputAuthority.map (·.electionId), input.journal.map (·.electionId)]) then
    .failure "Election manifest electionId does not match verification inputs."
  else if (candidates [some manifest.electionConfigHash, input.electionConfigHash,
      input.publicInputAuthority.map (·.electionConfigHash),
      input.journal.map (·.electionConfigHash)]).any fun value =>
        normalizeHexString value ≠ normalizeHexString recomputedHash then
    .failure "Election config hash mismatch between manifest and verification inputs."
  else .success

def resolveCountedElectionManifestConsistent (input : VerificationEvaluationInput)
    (zkGateStatus : Option VerificationStepStatus) : CheckResult :=
  gated zkGateStatus <|
    match input.electionManifest with
    | none => .notRun none
    | some manifest =>
      let recomputedHash := recomputeElectionManifestHash noble sha256 manifest
      if normalizeHexString recomputedHash ≠ normalizeHexString manifest.electionConfigHash then
        .failure "Election manifest hash does not match its declared configuration."
      else compareElectionManifestInputs input manifest recomputedHash

def normalizeHex32 (value : JsString) (label : String) : JsM JsString := do
  refuseIf (¬ isValidHexString value (some 32)) (.error s!"Invalid {label}: expected 32-byte hex string")
  return addHexPrefix (normalizeHexString value)

def buildCloseStatement (logId : JsString) (treeSize timestamp : Num) (bulletinRoot : JsString) :
    JsM CloseStatement := do
  let logId ← normalizeHex32 logId "logId"
  let bulletinRoot ← normalizeHex32 bulletinRoot "bulletinRoot"
  let sthDigest ← computeSTHDigest noble sha256 logId treeSize (← asUnixTimestampMillis timestamp)
      bulletinRoot
  return ⟨logId, treeSize, timestamp, bulletinRoot, sthDigest⟩

def validateCloseStatementArtifact (closeStatement : CloseStatement) : Option CheckResult :=
  match buildCloseStatement noble sha256 closeStatement.logId closeStatement.treeSize
    closeStatement.timestamp closeStatement.bulletinRoot with
  | .error error => some (.failure (errorMessage error))
  | .ok recomputed =>
    if normalizeHexString recomputed.sthDigest ≠ normalizeHexString closeStatement.sthDigest then
      some (.failure "Close statement digest does not match its declared snapshot.")
    else none

def compareCloseStatementInputs (input : VerificationEvaluationInput) (closeStatement : CloseStatement)
    (admittedDigest : JsString) : CheckResult :=
  if disagree ((candidates [some closeStatement.logId, input.logId]).map normalizeHexString) then
    .failure "Close statement logId does not match verification inputs."
  else if disagree (([some closeStatement.treeSize, input.treeSize,
      input.journal.map (·.treeSize)].filterMap id).filter (·.isInteger)) then
    .failure "Close statement treeSize does not match verification inputs."
  else if disagree ((candidates [some closeStatement.bulletinRoot, input.bulletinRoot,
      input.journal.map (·.bulletinRoot)]).map normalizeHexString) then
    .failure "Close statement bulletinRoot does not match verification inputs."
  else if (candidates [some closeStatement.sthDigest, input.sthDigest,
      input.journal.map (·.sthDigest)]).any fun value =>
        normalizeHexString value ≠ normalizeHexString admittedDigest then
    .failure "Close statement STH digest does not match verification inputs."
  else .success

def resolveCountedCloseStatementConsistent (input : VerificationEvaluationInput)
    (zkGateStatus : Option VerificationStepStatus) : CheckResult :=
  gated zkGateStatus <|
    match input.closeStatement, input.publicInputAuthority.filter (·.timestamp.isInteger) with
    | some closeStatement, some publicInput =>
      match validateCloseStatementArtifact noble sha256 closeStatement with
      | some artifactError => artifactError
      | none =>
        if !closeStatement.timestamp.eq publicInput.timestamp then
          .failure "Close statement timestamp does not match public input."
        else compareCloseStatementInputs input closeStatement closeStatement.sthDigest
    | _, _ => .notRun none

/-! ### The voter's slot -/

/-- An index that is an integer. -/
def bitmapReceiptPosition (voteReceipt : Option VoteReceipt) : Option Num :=
  (voteReceipt.map (·.bulletinIndex)).filter (·.isInteger)

def resolvedIncludedBitmapRoot (input : VerificationEvaluationInput) : Option JsString :=
  nonEmptyText ((input.journal.map (·.includedBitmapRoot)).or input.includedBitmapRoot)

def resolvedSeenBitmapRoot (input : VerificationEvaluationInput) : Option JsString :=
  nonEmptyText ((input.journal.map (·.seenBitmapRoot)).or input.seenBitmapRoot)

def resolveCountedMyVoteIncludedNoteKey (input : VerificationEvaluationInput) :
    Option VerificationCheckNoteKey :=
  let resolvedExcludedSlots :=
    resolveExcludedCount input.journal input.missingSlots input.invalidPresentedSlots
    input.excludedSlots
  if resolvedExcludedSlots.any (Num.ofNat 0).lt then some .excluded
  else if (resolvedIncludedBitmapRoot input).isNone ||
      (bitmapReceiptPosition input.voteReceipt).isNone then
    some .missingReceipt
  else if input.bitmapProofSource.isNone then some .proofUnavailable
  else none

def unresolvedMyVoteCheck (input : VerificationEvaluationInput) : CheckResult :=
  .notRun (resolveCountedMyVoteIncludedNoteKey input)

/-- `undefined` for a size that the branding refuses. -/
def admitBitmapTreeSize (treeSizeCandidate : Option Num) : Option Num :=
  treeSizeCandidate.filter fun value => (asAuthenticatedBitmapTreeSize value).isOk

def noteKeyOfStatus : VoteInclusionStatus → Option VerificationCheckNoteKey
  | .notPresented => some .notPresented
  | .presentedButInvalid => some .presentedButInvalid
  | .unknownExcluded => some .excluded
  | .counted => none

def projectMyVoteProofResult (result : VoteInclusionResult) : CheckResult :=
  if !result.valid then .ofStatus .failed
  else if result.included then .success
  else .failed none (result.statusDetail.bind noteKeyOfStatus)

def EvidenceAcquisition.admitted? {α : Type} : EvidenceAcquisition α → Option α
  | .admitted value => some value
  | _ => none

/-- A verifier that throws leaves the check undecided. -/
def evaluateMyVoteBitmapProof (input : VerificationEvaluationInput) (bulletinIndex : Num)
    (includedBitmapRoot : JsString) (treeSize : Num) (includedProof : BitmapProofResponse) :
    CheckResult :=
  let seenProof := (input.seenBitmapProof.getD (.unavailable none)).admitted?
  let result := match resolvedSeenBitmapRoot input with
    | some seenBitmapRoot =>
      explainVoteInclusionStatus noble sha256 bulletinIndex includedBitmapRoot seenBitmapRoot
        includedProof seenProof treeSize
    | none => verifyMyVoteWasCounted noble sha256 bulletinIndex includedBitmapRoot includedProof treeSize
  match result with
  | .ok result => projectMyVoteProofResult result
  | .error _ => unresolvedMyVoteCheck input

def resolveCountedMyVoteIncluded (input : VerificationEvaluationInput)
    (zkGateStatus : Option VerificationStepStatus) :
    CheckResult :=
  gated zkGateStatus <|
    match resolvedIncludedBitmapRoot input, bitmapReceiptPosition input.voteReceipt,
      admitBitmapTreeSize ((input.journal.map (·.treeSize)).or input.treeSize), input.bitmapProofSource,
      (input.includedBitmapProof.getD (.unavailable none)).admitted? with
    | some includedBitmapRoot, some bulletinIndex, some treeSize, some _, some includedProof =>
      evaluateMyVoteBitmapProof noble sha256 input bulletinIndex includedBitmapRoot treeSize
        includedProof
    | _, _, _, _, _ => unresolvedMyVoteCheck input

/-! ### The proof -/

def isValidImageId (value : JsString) : Bool := isValidHexString value (some 32)

def hasValidImageIdEvidence (input : VerificationEvaluationInput)
    (report : Option VerificationReportEvidence) : Bool :=
  [input.claimedImageId, input.comparisonImageId, report.bind (·.expectedImageId),
    (report.bind (·.receiptImageId)).join].all fun value => value.all isValidImageId

def compareConfirmedReceiptImageId (expectedImageId receiptImageId : JsString)
    (claimedImageId comparisonImageId : Option JsString) : CheckResult :=
  let expected := normalizeHexString expectedImageId
  let receipt := normalizeHexString receiptImageId
  if expected ≠ receipt then .ofStatus .failed
  else if (nonEmptyText claimedImageId).any fun value => normalizeHexString value ≠ receipt then
    .failure "Claimed ImageID does not match verifier-confirmed receipt ImageID."
  else if (nonEmptyText comparisonImageId).any fun value => normalizeHexString value ≠ receipt then
    .failure "Comparison-only journal ImageID does not match verifier-confirmed receipt ImageID."
  else .success

def compareVerifierImageIds (input : VerificationEvaluationInput)
    (report : Option VerificationReportEvidence) :
    CheckResult :=
  match nonEmptyText (report.bind (·.expectedImageId)), report.bind (·.receiptImageId) with
  | some expectedImageId, some receiptImageId =>
    match nonEmptyText receiptImageId with
    | none => .ofStatus .failed
    | some receiptImageId =>
      compareConfirmedReceiptImageId expectedImageId receiptImageId input.claimedImageId
        input.comparisonImageId
  | _, _ => .notRun none

/-- The two ids that are given beside the report are compared before it is read. -/
def claimedDiffers (input : VerificationEvaluationInput) : Bool :=
  match nonEmptyText input.claimedImageId, nonEmptyText input.comparisonImageId with
  | some claimedImageId, some comparisonImageId =>
    normalizeHexString claimedImageId ≠ normalizeHexString comparisonImageId
  | _, _ => false

def resolveStarkImageIdMatch (input : VerificationEvaluationInput) (status : VerificationStepStatus) :
    CheckResult :=
  if status = .running ∨ status = .notRun ∨ status = .failed then .ofStatus status
  else
    let report := input.verifierOutcome.bind (·.report)
    if !hasValidImageIdEvidence input report then
      .failure "ImageID evidence must be a 32-byte hexadecimal value."
    else if claimedDiffers input then .failure "Claimed ImageID does not match comparison evidence."
    else compareVerifierImageIds input report

/-! ### The evaluation -/

def evaluateSelectedCheck (input : VerificationEvaluationInput) (runtime : EvaluationRuntime) :
    VerificationCheckId → JsM CheckResult
  | .castReceiptPresent => .ok runtime.localCastResults.castReceiptPresent.toCheckResult
  | .castChoiceRange => .ok runtime.localCastResults.castChoiceRange.toCheckResult
  | .castRandomFormat => .ok runtime.localCastResults.castRandomFormat.toCheckResult
  | .castCommitmentMatch => .ok runtime.localCastResults.castCommitmentMatch.toCheckResult
  | .recordedCommitmentInBulletin =>
      .ok (resolveRecordedInclusionProof noble sha256 input.voteReceipt input.userVote)
  | .recordedIndexInRange => .ok (resolveRecordedIndexInRange input.voteReceipt input.treeSize)
  | .recordedRootAtCastConsistent => resolveRecordedConsistencyProof noble sha256 input
  | .recordedInclusionProof =>
      .ok (resolveRecordedInclusionProof noble sha256 input.voteReceipt input.userVote)
  | .recordedConsistencyProof => resolveRecordedConsistencyProof noble sha256 input
  | .recordedSthThirdParty => .ok (resolveRecordedSthThirdParty input)
  | .countedInputSanity => .ok (resolveCountedInputSanity input.publicInputAuthority)
  | .countedUniqueIndices => .ok (resolveCountedUniqueIndices input.publicInputAuthority)
  | .countedUniqueCommitments => .ok (resolveCountedUniqueCommitments input.publicInputAuthority)
  | .countedTallyConsistent =>
    .ok (resolveCountedTallyConsistent input.journal input.tally input.verifiedTally
      runtime.zkGateStatus)
  | .countedMissingIndicesZero => .ok (resolveCountedMissingIndicesZero input.journal input.missingSlots
      input.invalidPresentedSlots input.excludedSlots runtime.zkGateStatus)
  | .countedExpectedVsTreeSize =>
    .ok (resolveCountedExpectedVsTreeSize input.journal input.totalExpected input.treeSize
      runtime.zkGateStatus)
  | .countedElectionManifestConsistent =>
    .ok (resolveCountedElectionManifestConsistent noble sha256 input runtime.zkGateStatus)
  | .countedCloseStatementConsistent =>
    .ok (resolveCountedCloseStatementConsistent noble sha256 input runtime.zkGateStatus)
  | .countedMyVoteIncluded => .ok (resolveCountedMyVoteIncluded noble sha256 input runtime.zkGateStatus)
  | .countedInputCommitmentMatch => .ok (resolveCountedInputCommitmentMatch input runtime.zkGateStatus)
  | .starkImageIdMatch => .ok (resolveStarkImageIdMatch input runtime.starkStatus)
  | .starkReceiptVerify => .ok (.ofStatus runtime.starkStatus)

def evaluationRuntime (input : VerificationEvaluationInput) (applyZkGate : Bool) : EvaluationRuntime :=
  let starkStatus := resolveStarkStatus input.verifierOutcome input.allowDevModeVerification
  { starkStatus := starkStatus
    zkGateStatus := if applyZkGate then resolveZkGateStatus starkStatus else none
    localCastResults := evaluateLocalCastChecks noble sha256
      ⟨input.electionId, input.voteReceipt, input.userVote.bind (·.vote),
        input.userVote.bind (·.random)⟩ }

abbrev CheckResults := List (VerificationCheckId × CheckResult)

def evaluateChecks (input : VerificationEvaluationInput) (checkIds : List VerificationCheckId)
    (applyZkGate : Bool := true) : JsM CheckResults :=
  checkIds.mapM fun id => do
    return (id, ← evaluateSelectedCheck noble sha256 input
      (evaluationRuntime noble sha256 input applyZkGate) id)

def evaluateAllChecks (input : VerificationEvaluationInput) (applyZkGate : Bool := true) :
    JsM CheckResults :=
  evaluateChecks noble sha256 input verificationCheckIds applyZkGate

end StarkBallot.Verification
