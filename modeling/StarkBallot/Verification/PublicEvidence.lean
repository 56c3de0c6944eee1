import StarkBallot.Verification.PresentationPolicy
import StarkBallot.Verification.ScenarioProjection

/-! The facts of a public resource, evaluated once more
    (`verification/src/verification/verification-presentation-policy.ts`). Whoever reads a resource has
    no journal, so the statuses that follow from its public part are computed again from that part alone
    and compared, and the policy is derived once more from the listed checks. -/

namespace StarkBallot.Verification
open Application Domain CryptoPrimitives

variable (noble : NobleUtils) (sha256 : List UInt8 → Bytes 32)

/-! ### Public facts -/

structure PublicVoteReceipt where
  voteId : JsString
  commitment : JsString
  bulletinIndex : Num
  bulletinRootAtCast : JsString
  castAtMs : Num
  inputCommitment : JsString

structure PublicUserVote where
  voteId : JsString
  commitment : JsString
  proof : CanonicalRfc6962Proof

inductive UnavailableReason where
  | voteIdUnavailable
  | exactProofUnavailable
  deriving DecidableEq

structure AvailableVoterEvidence where
  voteReceipt : PublicVoteReceipt
  userVote : PublicUserVote

/-- Without the exact proof there is a commitment, and perhaps a vote id. -/
inductive VoterEvidence where
  | available (evidence : AvailableVoterEvidence)
  | unavailable (reason : UnavailableReason) (commitment : JsString) (voteId : Option JsString)

structure VerificationProofAuthority where
  electionId : JsString
  electionConfigHash : JsString
  logId : JsString
  bulletinRoot : JsString
  imageId : JsString
  verifiedTally : Counts
  missingSlots : Num
  invalidPresentedSlots : Num
  rejectedRecords : Num
  totalExpected : Num
  treeSize : Num
  excludedSlots : Num
  sthDigest : JsString
  seenBitmapRoot : JsString
  includedBitmapRoot : JsString
  inputCommitment : JsString
  seenIndicesCount : Num

/-- `{ ...voteReceipt, timestamp: voteReceipt.castAtMs }`. -/
def PublicVoteReceipt.toVoteReceipt (receipt : PublicVoteReceipt) : VoteReceipt where
  voteId := receipt.voteId
  commitment := receipt.commitment
  bulletinIndex := receipt.bulletinIndex
  bulletinRootAtCast := receipt.bulletinRootAtCast
  inputCommitment := some receipt.inputCommitment
  timestamp := receipt.castAtMs

def CanonicalRfc6962Proof.toUserVoteProof (proof : CanonicalRfc6962Proof) : UserVoteProof :=
  ⟨some proof.leafIndex, some proof.treeSize, some proof.merklePath, some proof.bulletinRootAtCast⟩

def PublicUserVote.toUserVote (userVote : PublicUserVote) : UserVoteInput where
  commitment := some userVote.commitment
  voteId := some userVote.voteId
  proof := some userVote.proof.toUserVoteProof

/-! ### Canonical checks -/

def expectedEvidence (definition : VerificationCheckDefinition) (devModeEvidence : Bool) :
    VerificationEvidence :=
  if devModeEvidence && definition.evidence = .zkEvidence then .demoEvidence else definition.evidence

def isCanonicalCheck (definition : VerificationCheckDefinition) (check : VerificationCheck)
    (devModeEvidence : Bool) :
    Bool :=
  check.id = .known definition.id && check.evidence = expectedEvidence definition devModeEvidence &&
  check.inputs = definition.inputs && check.derivedFrom = definition.derivedFrom.map .known

/-- One check of each definition, in the order of the registry. -/
def hasCanonicalVerificationCheckEvidence (checks : List VerificationCheck) (devModeEvidence : Bool) :
    Bool :=
  checks.length = verificationCheckDefinitions.length &&
  (verificationCheckDefinitions.zip checks).all fun entry =>
    isCanonicalCheck entry.1 entry.2 devModeEvidence

/-- The canonical checks without their notes. -/
def projectCanonicalVerificationChecks (checks : List VerificationCheck) (devModeEvidence : Bool) :
    Option (List VerificationCheck) :=
  if !hasCanonicalVerificationCheckEvidence checks devModeEvidence then none
  else some ((verificationCheckDefinitions.zip checks).map fun entry =>
    ⟨.known entry.1.id, entry.2.status, expectedEvidence entry.1 devModeEvidence, entry.1.inputs,
      entry.1.derivedFrom.map .known, none⟩)

/-! ### Statuses that follow from public facts -/

structure PublicFactCheckInput where
  checks : List VerificationCheck
  verificationStatus : VerificationStatus
  voterEvidence : VoterEvidence
  proof : VerificationProofAuthority
  counts : Counts
  totalVotes : Num

/-- `new Map(checks.map(…)).get(id)`: the last entry counts. -/
def statusById (checks : List VerificationCheck) (id : VerificationCheckId) :
    Option VerificationStepStatus :=
  (checks.reverse.find? fun check => check.id = .known id).map (·.status)

/-- `checks.find`: the first entry counts. -/
def checkById (checks : List VerificationCheck) (id : VerificationCheckId) : Option VerificationCheck :=
  checks.find? fun check => check.id = .known id

def hasCoherentCanonicalFactChecks (input : PublicFactCheckInput) : Bool :=
  (verificationCheckDefinitions.all fun definition =>
    (statusById input.checks definition.id).any fun status =>
      !(definition.category = .castAsIntended && status ≠ .notRun) &&
      definition.derivedFrom.all fun derivedFrom => statusById input.checks derivedFrom = some status) &&
  !input.checks.any fun check => check.id ≠ .known .countedMyVoteIncluded && check.noteKey.isSome

/-- `VerificationStatus` as a step status; development mode is asked for before. -/
def starkStepStatus : VerificationStatus → VerificationStepStatus
  | .notRun => .notRun
  | .running => .running
  | .success => .success
  | .failed => .failed
  | .devMode => .success

def resolvePublicFactZkGate (verificationStatus : VerificationStatus)
    (starkReceiptStatus : Option VerificationStepStatus) : Option VerificationStepStatus :=
  if verificationStatus = .devMode then if starkReceiptStatus = some .notRun then some .notRun else none
  else resolveZkGateStatus (starkStepStatus verificationStatus)

def hasCoherentUngatedMyVoteCheck (input : PublicFactCheckInput)
    (myVoteIncludedCheck : VerificationCheck) : Bool :=
  match input.voterEvidence with
  | .unavailable _ _ _ =>
    let expectedNote :=
      if (Num.ofNat 0).lt input.proof.excludedSlots then VerificationCheckNoteKey.excluded
      else .missingReceipt
    myVoteIncludedCheck.status = .notRun && myVoteIncludedCheck.noteKey = some expectedNote
  | .available _ =>
    !(myVoteIncludedCheck.noteKey = some .missingReceipt ||
      (myVoteIncludedCheck.status = .success && myVoteIncludedCheck.noteKey.isSome))

def hasCoherentPublicMyVoteCheck (input : PublicFactCheckInput)
    (zkGateStatus : Option VerificationStepStatus) : Bool :=
  match checkById input.checks .countedMyVoteIncluded with
  | none => false
  | some myVoteIncludedCheck =>
    match zkGateStatus with
    | some status => myVoteIncludedCheck.status = status && myVoteIncludedCheck.noteKey.isNone
    | none => hasCoherentUngatedMyVoteCheck input myVoteIncludedCheck

def hasCoherentRecordedFactChecks (input : PublicFactCheckInput) : Bool :=
  match input.voterEvidence with
  | .unavailable _ _ _ =>
    [VerificationCheckId.recordedIndexInRange, .recordedInclusionProof,
      .recordedConsistencyProof].all fun id =>
      statusById input.checks id = some .notRun
  | .available evidence =>
    let voteReceipt := evidence.voteReceipt.toVoteReceipt
    statusById input.checks .recordedIndexInRange =
      some (resolveRecordedIndexInRange (some voteReceipt) (some input.proof.treeSize)).status &&
    statusById input.checks .recordedInclusionProof =
      some (resolveRecordedInclusionProof noble sha256 (some voteReceipt)
        (some evidence.userVote.toUserVote)).status

/-- No journal: the public copies of its facts take its place. -/
def hasCoherentCountedFactChecks (input : PublicFactCheckInput)
    (zkGateStatus : Option VerificationStepStatus) : Bool :=
  let agreesWithGate := zkGateStatus.all fun status =>
    [VerificationCheckId.countedElectionManifestConsistent, .countedCloseStatementConsistent,
      .countedInputCommitmentMatch].all fun id => statusById input.checks id = some status
  agreesWithGate &&
  statusById input.checks .countedMissingIndicesZero = some (resolveCountedMissingIndicesZero none
    (some input.proof.missingSlots) (some input.proof.invalidPresentedSlots)
    (some input.proof.excludedSlots) zkGateStatus).status &&
  statusById input.checks .countedTallyConsistent = some (resolveCountedTallyConsistent none
    (some ⟨some (input.counts.map some), some input.totalVotes⟩)
    (some input.proof.verifiedTally) zkGateStatus).status &&
  statusById input.checks .countedExpectedVsTreeSize = some (resolveCountedExpectedVsTreeSize none
    (some input.proof.totalExpected) (some input.proof.treeSize) zkGateStatus).status

def hasCoherentPublicFactDerivedCheckStatuses (input : PublicFactCheckInput) : Bool :=
  if !hasCoherentCanonicalFactChecks input then false
  else
    let zkGateStatus :=
      resolvePublicFactZkGate input.verificationStatus (statusById input.checks .starkReceiptVerify)
    hasCoherentPublicMyVoteCheck input zkGateStatus &&
      hasCoherentRecordedFactChecks noble sha256 input &&
    hasCoherentCountedFactChecks input zkGateStatus

/-! ### The verifier -/

/-- A public report has the shape of the report of the verifier. -/
structure PublicVerificationResult where
  status : VerificationStatus
  report : Option VerifierServiceReport

def hasCoherentDevelopmentVerifierChecks (report : Option VerifierServiceReport)
    (imageIdCheck receiptCheck : VerificationCheck) : Bool :=
  if receiptCheck.status = .notRun ∧ imageIdCheck.status = .notRun then true
  else
    let expectedImageStatus : VerificationStepStatus := match report with
      | none => .notRun
      | some report => if report.receiptImageId.isNone then .failed else .success
    receiptCheck.status = .success && imageIdCheck.status = expectedImageStatus

def hasCoherentPublicVerifierChecks (checks : List VerificationCheck)
    (verifierResult : PublicVerificationResult) : Bool :=
  match checkById checks .starkImageIdMatch, checkById checks .starkReceiptVerify with
  | some imageIdCheck, some receiptCheck =>
    match verifierResult.status with
    | .devMode => hasCoherentDevelopmentVerifierChecks verifierResult.report imageIdCheck receiptCheck
    | .success => receiptCheck.status = .success &&
        imageIdCheck.status = (if verifierResult.report.isNone then VerificationStepStatus.notRun
          else .success)
    | status =>
      imageIdCheck.status = starkStepStatus status && receiptCheck.status = starkStepStatus status
  | _, _ => false

def hasCoherentVerificationReportExpectedImageId (report : Option VerifierServiceReport)
    (proofImageId : JsString) :
    Bool :=
  report.all fun report => normalizeHexString report.expectedImageId = normalizeHexString proofImageId

/-! ### The voter -/

def hasCoherentAvailableVoterEvidence (evidence : AvailableVoterEvidence)
    (bulletinRoot inputCommitment : JsString) (treeSize : Num) : Bool :=
  let voteReceipt := evidence.voteReceipt
  let userVote := evidence.userVote
  let castTreeSize := userVote.proof.treeSize
  if voteReceipt.voteId ≠ userVote.voteId ||
      normalizeHexString voteReceipt.commitment ≠ normalizeHexString userVote.commitment ||
      !voteReceipt.bulletinIndex.eq userVote.proof.leafIndex ||
      normalizeHexString voteReceipt.bulletinRootAtCast ≠ normalizeHexString
        userVote.proof.bulletinRootAtCast ||
      normalizeHexString voteReceipt.inputCommitment ≠ normalizeHexString inputCommitment ||
      !userVote.proof.leafIndex.isSafeInteger || userVote.proof.leafIndex.lt (.ofNat 0) ||
      !castTreeSize.isSafeInteger || !castTreeSize.eq (voteReceipt.bulletinIndex.add (.ofNat 1)) ||
      castTreeSize.le userVote.proof.leafIndex || treeSize.lt castTreeSize then false
  else !castTreeSize.eq treeSize ||
    normalizeHexString userVote.proof.bulletinRootAtCast = normalizeHexString bulletinRoot

/-! ### Fully verified presentations -/

structure PublicTamperPresentation where
  scenarioId : JsString
  tamperDetected : Bool
  tamperedCount : Num
  tamperSummary : Option FinalizationTamperSummary

def hasCoherentTamperPresentation (input : PublicTamperPresentation)
    (proof : VerificationProofAuthority) : Bool :=
  if input.scenarioId ≠ js "S0" ∧ !input.tamperDetected then false
  else if input.tamperDetected then true
  else input.tamperedCount.eq (.ofNat 0) && proof.missingSlots.eq (.ofNat 0) &&
    proof.invalidPresentedSlots.eq (.ofNat 0) && proof.rejectedRecords.eq (.ofNat 0) &&
    proof.excludedSlots.eq (.ofNat 0) &&
    input.tamperSummary.all fun tamperSummary => tamperSummary.ignoredVotes.eq (.ofNat 0) &&
      tamperSummary.recountedVotes.eq (.ofNat 0) && tamperSummary.userRecountedTo.isNone &&
      (tamperSummary.affectedBotIds.map List.length).getD 0 = 0

def hasSuccessfulPresentationReceipt (report : Option VerifierServiceReport) (imageId : JsString) :
    Bool :=
  report.all fun report => report.status = .success &&
    hasCoherentVerificationReportExpectedImageId (some report) imageId &&
    report.receiptImageId.any fun receiptImageId => normalizeHexString receiptImageId =
      normalizeHexString imageId

def hasCompletePublicVotePartition (proof : VerificationProofAuthority) : Bool :=
  proof.missingSlots.eq (.ofNat 0) && proof.invalidPresentedSlots.eq (.ofNat 0) &&
  proof.rejectedRecords.eq (.ofNat 0) && proof.excludedSlots.eq (.ofNat 0) &&
  proof.treeSize.eq proof.totalExpected && proof.seenIndicesCount.eq proof.treeSize

structure FullyVerifiedPresentationEvidenceInput where
  checks : List VerificationCheck
  stageStatuses : VerificationStageStatuses
  verificationStatus : VerificationStatus
  verificationReport : Option VerifierServiceReport
  proof : VerificationProofAuthority
  counts : Counts
  totalVotes : Num
  tamper : PublicTamperPresentation
  voterEvidence : VoterEvidence

def hasAdmissibleFullyVerifiedFacts (input : FullyVerifiedPresentationEvidenceInput) : Bool :=
  input.tamper.scenarioId = js "S0" && input.verificationStatus = .success &&
  normalizeHexString input.proof.seenBitmapRoot = normalizeHexString input.proof.includedBitmapRoot &&
  hasSuccessfulPresentationReceipt input.verificationReport input.proof.imageId &&
  (match input.voterEvidence with
    | .unavailable _ _ _ => false
    | .available evidence => hasCoherentAvailableVoterEvidence evidence input.proof.bulletinRoot
        input.proof.inputCommitment input.proof.treeSize) &&
  hasCoherentTamperPresentation input.tamper input.proof && !input.tamper.tamperDetected &&
  hasCompletePublicVotePartition input.proof

def verificationStepIds : List VerificationStepId :=
  [.castAsIntended, .recordedAsCast, .countedAsRecorded, .starkVerification]

def hasSameStageStatuses (left right : VerificationStageStatuses) : Bool :=
  verificationStepIds.all fun stepId => left stepId = right stepId

def resolveEffectiveSthSourcesConfigured (checks : List VerificationCheck)
    (expectedStageStatuses : VerificationStageStatuses) : Bool :=
  let withoutConfiguredSth := deriveStageStatuses checks { sthSourcesConfigured := some false }
  (checkById checks .recordedSthThirdParty).any (·.status ≠ .notRun) ||
  expectedStageStatuses .recordedAsCast ≠ withoutConfiguredSth .recordedAsCast

/-- The counts of the proof as a summary context. -/
def VerificationProofAuthority.context (proof : VerificationProofAuthority)
    (sthSourcesConfigured : Bool) :
    VerificationSummaryContext where
  missingSlots := some proof.missingSlots
  invalidPresentedSlots := some proof.invalidPresentedSlots
  rejectedRecords := some proof.rejectedRecords
  excludedSlots := some proof.excludedSlots
  sthSourcesConfigured := some sthSourcesConfigured

def hasCoherentFullyVerifiedPresentationEvidence (input : FullyVerifiedPresentationEvidenceInput) :
    JsM Bool :=
  if !hasAdmissibleFullyVerifiedFacts input then return false
  else
    match projectCanonicalVerificationChecks input.checks false with
    | none => return false
    | some checks => do
      let sthSourcesConfigured := resolveEffectiveSthSourcesConfigured checks input.stageStatuses
      let derivedPolicy ← deriveVerificationPresentationPolicy
        { availability := .available
          checks := some checks
          context := { input.proof.context sthSourcesConfigured with devModeEvidence := some false }
          verificationStatus := some input.verificationStatus
          verificationReportStatus := some input.verificationStatus }
      return derivedPolicy.fullyVerifiedLabelEligible &&
        hasSameStageStatuses derivedPolicy.stageStatuses input.stageStatuses &&
        ((input.counts.toList.zip input.proof.verifiedTally.toList).all fun entry =>
          entry.1.eq entry.2) &&
        input.totalVotes.eq (totalOf input.proof.verifiedTally.toList) &&
          input.totalVotes.eq input.proof.totalExpected

/-! ### The policy again -/

def hasSamePresentationPolicy (derived candidate : VerificationPresentationPolicyResult) : Bool :=
  derived.summary = candidate.summary &&
    hasSameStageStatuses derived.stageStatuses candidate.stageStatuses &&
  derived.evidenceFullyVerified = candidate.evidenceFullyVerified &&
  derived.fullyVerifiedLabelEligible = candidate.fullyVerifiedLabelEligible &&
    derived.display = candidate.display &&
  derived.publishedTallyMismatch = candidate.publishedTallyMismatch &&
  derived.devModeEvidence = candidate.devModeEvidence &&
    derived.missingEvidence = candidate.missingEvidence &&
  derived.explanationKey = candidate.explanationKey

/-- Without sources of tree heads or with them, whichever fits. -/
def hasCoherentPublicPresentationPolicy (checks : List VerificationCheck)
    (policy : VerificationPresentationPolicyResult) (proof : VerificationProofAuthority)
    (verificationStatus : VerificationStatus) (verificationReportStatus : Option VerificationStatus)
    (devModeEvidence : Bool) : JsM Bool :=
  match projectCanonicalVerificationChecks checks devModeEvidence with
  | none => return false
  | some checks => do
    let matchesWith (sthSourcesConfigured : Bool) : JsM Bool := do
      let derived ← deriveVerificationPresentationPolicy
        { availability := .available
          checks := some checks
          context := proof.context sthSourcesConfigured
          verificationStatus := some verificationStatus
          verificationReportStatus := verificationReportStatus }
      return hasSamePresentationPolicy derived policy
    if ← matchesWith false then return true else matchesWith true

/-! ### What canonical checks are -/

section Canonical

variable {checks : List VerificationCheck} {devModeEvidence : Bool}
  {policy : VerificationPresentationPolicyResult}
  {proof : VerificationProofAuthority} {verificationStatus : VerificationStatus}
  {verificationReportStatus : Option VerificationStatus} {input : PublicFactCheckInput}

theorem canonical_forall₂ (h : hasCanonicalVerificationCheckEvidence checks devModeEvidence = true) :
    List.Forall₂ (fun definition check => isCanonicalCheck definition check devModeEvidence = true)
      verificationCheckDefinitions checks := by
  simp only [hasCanonicalVerificationCheckEvidence, Bool.and_eq_true, decide_eq_true_eq,
    List.all_eq_true] at h
  obtain ⟨hlength, hall⟩ := h
  exact List.forall₂_iff_zip.mpr ⟨hlength.symm, fun hmem => hall _ hmem⟩

/-- Canonical checks list the ids of the registry in its order. -/
theorem canonical_ids (h : hasCanonicalVerificationCheckEvidence checks devModeEvidence = true) :
    checks.map (·.id) = verificationCheckDefinitions.map fun definition => .known definition.id := by
  have hpairs := canonical_forall₂ h
  clear h
  generalize verificationCheckDefinitions = definitions at hpairs ⊢
  induction hpairs with
  | nil => rfl
  | cons hcanonical _ ih =>
    simp only [isCanonicalCheck, Bool.and_eq_true, decide_eq_true_eq] at hcanonical
    rw [List.map_cons, List.map_cons, hcanonical.1.1.1, ih]

theorem mem_of_statusById {id : VerificationCheckId} {status : VerificationStepStatus}
    (h : statusById checks id = some status) :
    ∃ check ∈ checks, check.id = .known id ∧ check.status = status := by
  obtain ⟨check, hfind, hstatus⟩ := Option.map_eq_some_iff.mp h
  exact ⟨check, List.mem_reverse.mp
    (List.mem_of_find?_eq_some hfind), by simpa using List.find?_some hfind, hstatus⟩

/-- The voter's own checks are not for the server to evaluate. -/
theorem cast_notRun (h : hasCoherentPublicFactDerivedCheckStatuses noble sha256 input = true)
    {definition : VerificationCheckDefinition} (hmem : definition ∈ verificationCheckDefinitions)
    (hcast : definition.category = .castAsIntended) :
    statusById input.checks definition.id = some .notRun := by
  unfold hasCoherentPublicFactDerivedCheckStatuses at h
  split at h
  · cases h
  rename_i hcanonical
  simp only [Bool.not_eq_true, Bool.not_eq_false', hasCoherentCanonicalFactChecks, Bool.and_eq_true,
    List.all_eq_true] at hcanonical
  have hdefinition := hcanonical.1 definition hmem
  cases hstatus : statusById input.checks definition.id with
  | none => simp [hstatus] at hdefinition
  | some status =>
    simp only [hstatus, Option.any_some, hcast, decide_true, Bool.true_and, Bool.and_eq_true,
      Bool.not_eq_true', decide_eq_false_iff_not, ne_eq, not_not] at hdefinition
    rw [hdefinition.1]

/-- A policy that agrees with an eligible one needs every listed check to be successful. -/
theorem successful_of_eligible
    (h : hasCoherentPublicPresentationPolicy checks policy proof verificationStatus
    verificationReportStatus devModeEvidence = .ok true)
    (heligible : policy.fullyVerifiedLabelEligible = true) :
    ∀ check ∈ checks, check.status = .success := by
  unfold hasCoherentPublicPresentationPolicy projectCanonicalVerificationChecks at h
  split at h
  · cases h
  rename_i projected hprojected
  split at hprojected
  · cases hprojected
  rename_i hcanonical
  cases hprojected
  have hpairs := canonical_forall₂ (by simpa using hcanonical)
  -- one of the two derivations is eligible
  obtain ⟨sthSourcesConfigured, derived, hderived, hsame⟩ : ∃ sthSourcesConfigured derived,
      deriveVerificationPresentationPolicy
        { availability := .available
          checks := some ((verificationCheckDefinitions.zip checks).map fun entry =>
            ⟨.known entry.1.id, entry.2.status, expectedEvidence entry.1 devModeEvidence, entry.1.inputs,
              entry.1.derivedFrom.map .known, none⟩)
          context := proof.context sthSourcesConfigured
          verificationStatus := some verificationStatus
          verificationReportStatus := verificationReportStatus } = .ok derived ∧
      hasSamePresentationPolicy derived policy = true := by
    obtain ⟨first, hfirst, h⟩ := Schemes.bind_eq_ok.mp h
    obtain ⟨derived, hderived, hvalue⟩ := Schemes.bind_eq_ok.mp hfirst
    split at h
    · rename_i htrue
      exact ⟨false, derived, hderived, (Except.ok.inj hvalue).trans htrue⟩
    · obtain ⟨derived', hderived', hvalue'⟩ := Schemes.bind_eq_ok.mp h
      exact ⟨true, derived', hderived', Except.ok.inj hvalue'⟩
  have hderivedEligible : derived.fullyVerifiedLabelEligible = true := by
    simp only [hasSamePresentationPolicy, Bool.and_eq_true, decide_eq_true_eq] at hsame
    rw [hsame.1.1.1.1.1.2, heligible]
  obtain ⟨found, hfound, hiff, -⟩ := deriveVerificationPresentationPolicy_spec
    { availability := .available
      checks := some ((verificationCheckDefinitions.zip checks).map fun entry =>
        ⟨.known entry.1.id, entry.2.status, expectedEvidence entry.1 devModeEvidence, entry.1.inputs,
          entry.1.derivedFrom.map .known, none⟩)
      context := proof.context sthSourcesConfigured
      verificationStatus := some verificationStatus
      verificationReportStatus := verificationReportStatus }
  rw [hderived] at hfound
  cases hfound
  have hlabelled := hiff.mp hderivedEligible
  intro check hcheck
  obtain ⟨i, hi, rfl⟩ := List.mem_iff_getElem.mp hcheck
  have hdefinition : i < verificationCheckDefinitions.length := hpairs.length_eq ▸ hi
  have hzip : (verificationCheckDefinitions[i], checks[i]) ∈ verificationCheckDefinitions.zip checks :=
    List.mem_iff_getElem.mpr ⟨i, by simpa using ⟨hdefinition, hi⟩, by simp⟩
  have hsuccess := hlabelled.successful _ (List.mem_map_of_mem hzip) _ rfl
  exact hsuccess

end Canonical

end StarkBallot.Verification
