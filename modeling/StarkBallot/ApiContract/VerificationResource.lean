import StarkBallot.Verification.PublicEvidence

/-! The public resource of a verification (`api-contract/src/schemas/verification.ts`, `primitives.ts`,
    `votes.ts`, `verification/src/verification/build-verification-steps.ts`). Values of the right shape
    are refined: each rule that is broken adds an issue, and a value without issues is accepted.

        checks ─┬─ registry, public facts, verifier, policy derived again
        steps ──┤  registry, stages of the policy
        voter ──┤  identity and range
        tamper ─┤  scenario
        journal ┴─ proof authority -/

namespace StarkBallot.ApiContract
open Application Domain CryptoPrimitives ZkvmContract Verification

variable (noble : NobleUtils) (sha256 : List UInt8 → Bytes 32)

/-! ### Shapes -/

structure TallyWithRequiredTamperedCount where
  counts : Counts
  totalVotes : Num
  tamperedCount : Num

structure VerificationPresentation where
  tally : TallyWithRequiredTamperedCount
  scenarioId : JsString
  tamperDetected : Bool
  botVotesSummary : Option PublicBotVotesSummary
  tamperSummary : Option FinalizationTamperSummary
  policy : VerificationPresentationPolicyResult

structure VerificationStep where
  id : VerificationStepId
  status : VerificationStepStatus
  inputs : List JsString
  error : Option JsString

/-- The journal is `none` where it is omitted. -/
structure AvailableVerificationResource where
  finalizationId : JsString
  proofAuthority : VerificationProofAuthority
  presentation : VerificationPresentation
  verifierResult : PublicVerificationResult
  checks : List VerificationCheck
  steps : List VerificationStep
  voterEvidence : VoterEvidence
  journal : Option CurrentZkVMJournal

/-! ### Fields -/

/-- `isValidHexString` of the contract: the prefix is a lowercase one. -/
def isHex32 (value : JsString) : Bool :=
  let normalized := if value.take 2 = js "0x" then value.drop 2 else value
  normalized.length = 64 && normalized.all isHexLetter

def isUint32 (value : Num) : Bool := isIntegerUpTo uint32Max value

def isPositiveUint32 (value : Num) : Bool := isUint32 value && (Num.ofNat 1).le value

/-- Also a tree size, an index or a duration. -/
def isTimestampMs (value : Num) : Bool := isIntegerUpTo Num.maxSafeInteger value

def isTally (tally : TallyWithRequiredTamperedCount) : Bool :=
  tally.counts.toList.all isUint32 && isUint32 tally.totalVotes && isUint32 tally.tamperedCount &&
  (totalOf tally.counts.toList).isSafeInteger && (totalOf tally.counts.toList).eq tally.totalVotes

def scenarioIds : List JsString := [js "S0", js "S1", js "S2", js "S3", js "S4", js "S5"]

def isBotVotesSummary (summary : PublicBotVotesSummary) : Bool :=
  summary.total.all isNonNegativeInteger &&
    summary.affectedBotIds.all (fun ids => ids.all isNonNegativeInteger) &&
  summary.source ≠ []

def isTamperSummary (summary : FinalizationTamperSummary) : Bool :=
  isNonNegativeInteger summary.ignoredVotes && isNonNegativeInteger summary.recountedVotes &&
  summary.affectedBotIds.all fun ids => ids.all isNonNegativeInteger

/-- A note belongs to a check that failed or was not run. -/
def isVerificationCheck (check : VerificationCheck) : Bool :=
  (definitionById check.id).isSome && check.derivedFrom.all (fun id => (definitionById id).isSome) &&
  (check.noteKey.isNone || check.status = .failed || check.status = .notRun)

def isProofAuthority (proof : VerificationProofAuthority) : Bool :=
  isUuid proof.electionId &&
  ([proof.electionConfigHash, proof.logId, proof.bulletinRoot, proof.imageId, proof.sthDigest,
    proof.seenBitmapRoot, proof.includedBitmapRoot, proof.inputCommitment].all isHex32) &&
  proof.verifiedTally.toList.all isUint32 &&
  ([proof.missingSlots, proof.invalidPresentedSlots, proof.rejectedRecords, proof.totalExpected,
    proof.excludedSlots, proof.seenIndicesCount].all isUint32) &&
  isPositiveUint32 proof.treeSize &&
  hasCoherentZkVMVoteSlotPartition
    ⟨some proof.verifiedTally.toList, some proof.treeSize, some proof.seenIndicesCount,
      some proof.missingSlots, some proof.invalidPresentedSlots, some proof.rejectedRecords,
      some proof.excludedSlots, some proof.seenBitmapRoot, some proof.includedBitmapRoot⟩

def isCurrentZkvmJournal (journal : CurrentZkVMJournal) : Bool :=
  isUuid journal.electionId &&
  ([journal.electionConfigHash, journal.bulletinRoot, journal.sthDigest, journal.seenBitmapRoot,
    journal.includedBitmapRoot, journal.inputCommitment].all isHex32) &&
  journal.imageId.all isHex32 && journal.verifiedTally.toList.all isUint32 &&
  ([journal.totalExpected, journal.totalVotes, journal.validVotes, journal.invalidVotes,
    journal.seenIndicesCount, journal.missingSlots, journal.invalidPresentedSlots,
    journal.rejectedRecords, journal.excludedSlots].all isUint32) &&
  isPositiveUint32 journal.treeSize &&
    journal.methodVersion.eq (.ofNat ContractCore.currentMethodVersion) &&
  hasCoherentCurrentZkVMJournalSemantics journal.evidence

def publicVerificationErrorMessages : List JsString :=
  [js "ImageID mismatch", js "Receipt does not contain ImageID", js "Invalid proof",
    js "Failed to download bundle", js "Verification failed"]

def isPublicVerificationReport (report : VerifierServiceReport) : Bool :=
  (parseVerifierServiceReport report).isSome &&
  report.errors.all fun errors => errors.all (· ∈ publicVerificationErrorMessages)

def isPublicVerificationResult (result : PublicVerificationResult) : Bool :=
  result.report.all fun report => isPublicVerificationReport report &&
    report.status.toVerificationStatus = result.status

def isInclusionProof (proof : CanonicalRfc6962Proof) : Bool :=
  isTimestampMs proof.leafIndex && isTimestampMs proof.treeSize && proof.merklePath.all isHex32 &&
  isHex32 proof.bulletinRootAtCast

def isVoterEvidence : VoterEvidence → Bool
  | .available evidence =>
    evidence.voteReceipt.voteId ≠ [] && isHex32 evidence.voteReceipt.commitment &&
    isTimestampMs evidence.voteReceipt.bulletinIndex &&
      isHex32 evidence.voteReceipt.bulletinRootAtCast &&
    isTimestampMs evidence.voteReceipt.castAtMs && isHex32 evidence.voteReceipt.inputCommitment &&
    isHex32 evidence.userVote.commitment && evidence.userVote.voteId ≠ [] &&
      isInclusionProof evidence.userVote.proof
  | .unavailable .voteIdUnavailable commitment voteId => isHex32 commitment && voteId.isNone
  | .unavailable .exactProofUnavailable commitment voteId => isHex32 commitment && voteId.any (· ≠ [])

/-! ### The policy -/

/-- The status that some sources come with. -/
def expectedDisplayStatusBySource : Option VerificationDisplaySource → Option VerificationDisplayStatus
  | some .hardFailure => some .failed
  | some .pending => some .warning
  | some .unavailable => some .warning
  | some .corrupt => some .failed
  | _ => none

def isVerificationDisplay (display : VerificationDisplayDecision) : Bool :=
  (if display.readiness = .ready then decide (display.renderedStatus = display.status)
    else display.renderedStatus.isNone) &&
  display.source.isNone = display.status.isNone &&
  !(display.source = some .explicitServerFailure && display.status = some .verified) &&
  (expectedDisplayStatusBySource display.source).all fun expectedStatus => display.status =
    some expectedStatus

def isIneligiblePolicy (policy : VerificationPresentationPolicyResult) : Bool :=
  policy.fullyVerifiedLabelEligible = false && isVerificationDisplay policy.display &&
  policy.display ≠ fullyVerifiedDisplay

def isFullyVerifiedPolicy (policy : VerificationPresentationPolicyResult) : Bool :=
  policy.summary = some { status := .fullyVerified, tone := .verified } &&
  verificationStepIds.all (fun stepId => policy.stageStatuses stepId = .success) &&
    policy.evidenceFullyVerified &&
  policy.fullyVerifiedLabelEligible && policy.display = fullyVerifiedDisplay &&
    !policy.publishedTallyMismatch &&
  !policy.devModeEvidence && !policy.missingEvidence && policy.explanationKey.isNone

/-- Keys of messages are not empty. -/
def isPresentationPolicy (policy : VerificationPresentationPolicyResult) : Bool :=
  isFullyVerifiedPolicy policy || (isIneligiblePolicy policy && policy.explanationKey.all (· ≠ "") &&
    (policy.summary.bind (·.messageKey)).all (· ≠ ""))

/-- Everything the shape of a resource asks for. -/
def hasResourceShape (resource : AvailableVerificationResource) : Bool :=
  isSafeVerifierSegment resource.finalizationId && isProofAuthority resource.proofAuthority &&
  isTally resource.presentation.tally && resource.presentation.scenarioId ∈ scenarioIds &&
  resource.presentation.botVotesSummary.all isBotVotesSummary &&
  resource.presentation.tamperSummary.all isTamperSummary &&
    isPresentationPolicy resource.presentation.policy &&
  isPublicVerificationResult resource.verifierResult && resource.checks.all isVerificationCheck &&
  resource.steps.all (fun step => step.error.all (· ≠ [])) && isVoterEvidence resource.voterEvidence &&
  resource.journal.all isCurrentZkvmJournal

/-! ### Refinements -/

/-- The characters that `trim` removes. -/
def isWhiteSpace (c : Char) : Bool :=
  c.toNat ∈ [9, 10, 11, 12, 13, 32, 160, 5760, 8232, 8233, 8239, 8287, 12288, 65279] ||
  (8192 ≤ c.toNat && c.toNat ≤ 8202)

def verificationStepInputs (stepId : VerificationStepId) : List JsString :=
  ((verificationCheckDefinitions.filter fun definition => definition.category = stepId).flatMap
    (·.inputs)).foldl setAdd []

def isCanonicalStep (id : VerificationStepId) (step : VerificationStep) : Bool :=
  step.id = id && step.inputs = verificationStepInputs id &&
  step.error.all fun error => step.status = .failed && error.any fun c => !isWhiteSpace c

def hasCanonicalVerificationSteps (steps : List VerificationStep) : Bool :=
  steps.length = verificationStepIds.length &&
  (verificationStepIds.zip steps).all fun entry => isCanonicalStep entry.1 entry.2

def sameHex (journalValue publicValue : JsString) : Bool :=
  normalizeHexString journalValue = normalizeHexString publicValue

/-- `JOURNAL_FIELD_COMPARISONS`, field by field. -/
def hasCoherentIncludedJournalProofAuthority (journal : CurrentZkVMJournal)
    (proof : VerificationProofAuthority) : Bool :=
  journal.electionId = proof.electionId && sameHex journal.electionConfigHash proof.electionConfigHash &&
  sameHex journal.bulletinRoot proof.bulletinRoot &&
  ((journal.verifiedTally.toList.zip proof.verifiedTally.toList).all fun entry => entry.1.eq entry.2) &&
  journal.missingSlots.eq proof.missingSlots &&
    journal.invalidPresentedSlots.eq proof.invalidPresentedSlots &&
  journal.rejectedRecords.eq proof.rejectedRecords && journal.totalExpected.eq proof.totalExpected &&
  journal.treeSize.eq proof.treeSize && sameHex journal.sthDigest proof.sthDigest &&
  sameHex journal.seenBitmapRoot proof.seenBitmapRoot &&
    sameHex journal.includedBitmapRoot proof.includedBitmapRoot &&
  journal.excludedSlots.eq proof.excludedSlots &&
    sameHex journal.inputCommitment proof.inputCommitment &&
  journal.seenIndicesCount.eq proof.seenIndicesCount && journal.imageId.all (sameHex · proof.imageId)

/-- An issue when a rule is broken. -/
def issueUnless (holds : Bool) (message : String) : List String := if holds then [] else [message]

def resourceDevModeEvidence (resource : AvailableVerificationResource) : Bool :=
  resource.verifierResult.status = .devMode || resource.verifierResult.report.any (·.devModeReceipt)

def factCheckInput (resource : AvailableVerificationResource) : PublicFactCheckInput where
  checks := resource.checks
  verificationStatus := resource.verifierResult.status
  voterEvidence := resource.voterEvidence
  proof := resource.proofAuthority
  counts := resource.presentation.tally.counts
  totalVotes := resource.presentation.tally.totalVotes

def checkResourceVerificationEvidence (resource : AvailableVerificationResource) :
    JsM (List String) := do
  let devModeEvidence := resourceDevModeEvidence resource
  let coherentPolicy ← hasCoherentPublicPresentationPolicy resource.checks resource.presentation.policy
    resource.proofAuthority resource.verifierResult.status
    (resource.verifierResult.report.map (·.status.toVerificationStatus)) devModeEvidence
  return issueUnless (hasCanonicalVerificationCheckEvidence resource.checks devModeEvidence)
      "Verification check inventory contradicts the canonical registry" ++
    issueUnless (hasCoherentPublicFactDerivedCheckStatuses noble sha256 (factCheckInput resource))
      "Verification checks contradict their complete public evidence" ++
    issueUnless (hasCoherentPublicVerifierChecks resource.checks resource.verifierResult)
      "Verifier status contradicts its public STARK checks" ++
    issueUnless coherentPolicy "Presentation policy contradicts its admitted verification evidence"

def tamperPresentation (resource : AvailableVerificationResource) : PublicTamperPresentation :=
  ⟨resource.presentation.scenarioId, resource.presentation.tamperDetected,
    resource.presentation.tally.tamperedCount, resource.presentation.tamperSummary⟩

def tamperProjection (resource : AvailableVerificationResource) : PublicScenarioTamperProjection where
  scenarioId := resource.presentation.scenarioId
  tamperDetected := resource.presentation.tamperDetected
  tamperedCount := resource.presentation.tally.tamperedCount
  excludedSlots := resource.proofAuthority.excludedSlots
  rejectedRecords := resource.proofAuthority.rejectedRecords
  verifiedTally := resource.proofAuthority.verifiedTally
  counts := resource.presentation.tally.counts
  tamperSummary := resource.presentation.tamperSummary

def checkFullyVerifiedResource (resource : AvailableVerificationResource) : JsM (List String) :=
  if !resource.presentation.policy.fullyVerifiedLabelEligible then return []
  else do
    let coherent ← hasCoherentFullyVerifiedPresentationEvidence
      { checks := resource.checks
        stageStatuses := resource.presentation.policy.stageStatuses
        verificationStatus := resource.verifierResult.status
        verificationReport := resource.verifierResult.report
        proof := resource.proofAuthority
        counts := resource.presentation.tally.counts
        totalVotes := resource.presentation.tally.totalVotes
        tamper := tamperPresentation resource
        voterEvidence := resource.voterEvidence }
    return issueUnless coherent "Fully verified presentation contradicts admitted verification evidence"

def checkResourceRepresentation (resource : AvailableVerificationResource) : List String :=
  (resource.steps.flatMap fun step => issueUnless
    (resource.presentation.policy.stageStatuses step.id = step.status)
    "Verification step status contradicts presentation stage status") ++
  issueUnless
    (resource.journal.all fun journal => hasCoherentIncludedJournalProofAuthority journal
      resource.proofAuthority)
    "Included journal contradicts proof authority"

def hasCoherentVoterEvidence (resource : AvailableVerificationResource) : Bool :=
  match resource.voterEvidence with
  | .available evidence =>
      hasCoherentAvailableVoterEvidence evidence resource.proofAuthority.bulletinRoot
      resource.proofAuthority.inputCommitment resource.proofAuthority.treeSize
  | .unavailable _ _ _ => true

/-- The issues of a value of the right shape. -/
def resourceIssues (resource : AvailableVerificationResource) : JsM (List String) := do
  let evidenceIssues ← checkResourceVerificationEvidence noble sha256 resource
  let fullyVerifiedIssues ← checkFullyVerifiedResource resource
  return evidenceIssues ++
    issueUnless (hasCanonicalVerificationSteps resource.steps)
      "Verification step inventory contradicts the canonical projection" ++
    issueUnless (hasCoherentVerificationReportExpectedImageId resource.verifierResult.report
      resource.proofAuthority.imageId) "Verifier report expected ImageID contradicts proof authority" ++
    issueUnless (hasCoherentVoterEvidence resource)
      "Available voter evidence contains contradictory identity or range facts" ++
    issueUnless (hasCoherentPublicTamperScenarioProjection (tamperProjection resource)
      resource.presentation.botVotesSummary)
        "Presentation tamper facts contradict its scenario or detection result" ++
    fullyVerifiedIssues ++ checkResourceRepresentation resource

/-- `availableVerificationResourceSchema` accepts the value. -/
def Accepted (resource : AvailableVerificationResource) : Prop :=
  hasResourceShape resource = true ∧ resourceIssues noble sha256 resource = .ok []

/-! ### The server alone -/

section Accepted

variable {noble sha256} {resource : AvailableVerificationResource}

theorem issueUnless_eq_nil {holds : Bool} {message : String} :
    issueUnless holds message = [] ↔ holds = true := by
  cases holds <;> simp [issueUnless]

/-- The rules about the checks, of an accepted value. -/
theorem Accepted.checked (h : Accepted noble sha256 resource) :
    hasCanonicalVerificationCheckEvidence resource.checks (resourceDevModeEvidence resource) = true ∧
      hasCoherentPublicFactDerivedCheckStatuses noble sha256 (factCheckInput resource) = true ∧
      hasCoherentPublicPresentationPolicy resource.checks resource.presentation.policy
        resource.proofAuthority
        resource.verifierResult.status
          (resource.verifierResult.report.map (·.status.toVerificationStatus))
        (resourceDevModeEvidence resource) = .ok true := by
  obtain ⟨evidenceIssues, hevidence, hrest⟩ := Schemes.bind_eq_ok.mp h.2
  obtain ⟨fullyVerifiedIssues, -, hvalue⟩ := Schemes.bind_eq_ok.mp hrest
  have hissues := Except.ok.inj hvalue
  simp only [List.append_eq_nil_iff] at hissues
  obtain ⟨coherentPolicy, hpolicy, hvalue⟩ := Schemes.bind_eq_ok.mp hevidence
  have hevidenceIssues := Except.ok.inj hvalue
  rw [hissues.1.1.1.1.1.1] at hevidenceIssues
  simp only [List.append_eq_nil_iff, issueUnless_eq_nil] at hevidenceIssues
  obtain ⟨⟨⟨hcanonical, hfacts⟩, -⟩, rfl⟩ := hevidenceIssues
  exact ⟨hcanonical, hfacts, hpolicy⟩

/-- An ineligible policy renders no verified display. -/
theorem rendered_of_ineligible {policy : VerificationPresentationPolicyResult}
    (h : isIneligiblePolicy policy = true) :
    policy.fullyVerifiedLabelEligible = false ∧ policy.display.renderedStatus ≠ some .verified := by
  simp only [isIneligiblePolicy, isVerificationDisplay, Bool.and_eq_true, decide_eq_true_eq, ne_eq] at h
  obtain ⟨⟨heligible, hdisplay⟩, hne⟩ := h
  refine ⟨heligible, ?_⟩
  generalize policy.display = display at hdisplay hne ⊢
  obtain ⟨readiness, source, status, renderedStatus⟩ := display
  rintro rfl
  obtain ⟨⟨⟨hrendered, hpresent⟩, hexplicit⟩, hexpected⟩ := hdisplay
  dsimp only at hrendered hpresent hexplicit hexpected
  split at hrendered
  · rename_i hready
    subst hready
    obtain rfl := of_decide_eq_true hrendered
    -- of all the sources only the summary comes with a verified status
    rcases source with _ | source
    · simp at hpresent
    · cases source <;> simp_all [expectedDisplayStatusBySource, fullyVerifiedDisplay]
  · simp at hrendered

theorem Accepted.eligible_eq_false (h : Accepted noble sha256 resource) :
    resource.presentation.policy.fullyVerifiedLabelEligible = false := by
  obtain ⟨hcanonical, hfacts, hpolicy⟩ := h.checked
  rw [← Bool.not_eq_true]
  intro heligible
  obtain ⟨definition, hmem, hcast⟩ : ∃ definition ∈ verificationCheckDefinitions,
      definition.category = .castAsIntended := by decide
  obtain ⟨check, hcheck, -, hnotRun⟩ := mem_of_statusById (cast_notRun noble sha256 hfacts hmem hcast)
  have hsuccess := successful_of_eligible hpolicy heligible check hcheck
  rw [hnotRun] at hsuccess
  cases hsuccess

theorem Accepted.rendered_ne_verified (h : Accepted noble sha256 resource) :
    resource.presentation.policy.display.renderedStatus ≠ some .verified := by
  have hpolicy : isPresentationPolicy resource.presentation.policy = true := by
    have hshape := h.1
    simp only [hasResourceShape, Bool.and_eq_true] at hshape
    exact hshape.1.1.1.1.1.2
  simp only [isPresentationPolicy, Bool.or_eq_true, Bool.and_eq_true] at hpolicy
  rcases hpolicy with hfully | ⟨⟨hineligible, -⟩, -⟩
  · simp only [isFullyVerifiedPolicy, Bool.and_eq_true] at hfully
    exact absurd hfully.1.1.1.1.1.2 (by rw [h.eligible_eq_false]; decide)
  · exact (rendered_of_ineligible hineligible).2

/-- With a label after the overlay, the voter's own results are successful. -/
theorem allSuccessful_of_labelled {serverChecks checks : List VerificationCheck}
    {localResults : LocalCastCheckResults}
    (hoverlay : overlayLocalCastChecks serverChecks localResults = .ok (some checks))
    {input : VerificationPresentationPolicyInput} (h : MayBeLabelled (input.withChecks checks)) :
    localResults.allSuccessful := by
  have hlocal :
      ∀ definition ∈ verificationCheckDefinitions, definition.criticality = .required → ∀ result,
      localResults.get? (.known definition.id) = some result → result.status = .success := by
    intro definition hdefinition hrequired result hresult
    obtain ⟨check, hcheck, hid⟩ :=
      h.present definition hdefinition (isRequiredCheck_of_required hrequired)
    have hstatus := overlayLocalCastChecks_status hoverlay hcheck (hid ▸ hresult)
    rw [← hstatus]
    exact h.successful check hcheck definition.id hid
  have hsuccess : ∀ result : LocalCastCheckResult, result.status = .success → result = .success := by
    intro result hstatus
    cases result with
    | success => rfl
    | notRun => cases hstatus
    | failed error => cases hstatus
  have hlisted :
      ∀ id ∈ localCastCheckIds, ∃ definition ∈ verificationCheckDefinitions, definition.id = id ∧
      definition.criticality = .required := by decide
  have hof : ∀ id ∈ localCastCheckIds, ∀ result, localResults.get? (.known id) = some result →
      result = .success := by
    intro id hid result hresult
    obtain ⟨definition, hdefinition, rfl, hrequired⟩ := hlisted id hid
    exact hsuccess result (hlocal definition hdefinition hrequired result hresult)
  exact ⟨hof .castReceiptPresent (by decide) _ rfl, hof .castChoiceRange (by decide) _ rfl,
    hof .castRandomFormat (by decide) _ rfl, hof .castCommitmentMatch (by decide) _ rfl⟩

/-- The checks of an accepted value can always be overlaid. -/
theorem Accepted.overlaid (h : Accepted noble sha256 resource) (localResults : LocalCastCheckResults) :
    ∃ checks, overlayLocalCastChecks resource.checks localResults = .ok (some checks) := by
  have hids := canonical_ids h.checked.1
  refine overlayLocalCastChecks_total ?_ ?_ localResults
  · simpa using congrArg List.length hids
  · rw [hids]
    decide

end Accepted

/-- SAFE: whatever the server sends, an accepted value does not say verified. Once the voter's own
    results are in the place of the four checks they must all be successful for it, and what the server
    listed there plays no part. -/
theorem server_alone_never_verified (resource : AvailableVerificationResource)
    (h : Accepted noble sha256 resource) :
    resource.presentation.policy.fullyVerifiedLabelEligible = false ∧
      resource.presentation.policy.display.renderedStatus ≠ some .verified ∧
      ∀ localResults : LocalCastCheckResults, ∃ checks,
        overlayLocalCastChecks resource.checks localResults = .ok (some checks) ∧
        (∀ (input : VerificationPresentationPolicyInput) policy,
          deriveVerificationPresentationPolicy (input.withChecks checks) = .ok policy →
          policy.fullyVerifiedLabelEligible = true ∨ policy.display.renderedStatus = some .verified →
          localResults.allSuccessful) ∧
        ∀ otherChecks, List.Forall₂ (SameOutsideCast localResults) resource.checks otherChecks →
          overlayLocalCastChecks otherChecks localResults = .ok (some checks) := by
  refine ⟨h.eligible_eq_false, h.rendered_ne_verified, fun localResults => ?_⟩
  obtain ⟨checks, hchecks⟩ := h.overlaid localResults
  refine ⟨checks, hchecks, ?_, fun otherChecks hsame => overlayLocalCastChecks_congr hsame ▸ hchecks⟩
  intro input policy hpolicy hverified
  obtain ⟨found, hfound, heligible, hrendered⟩ :=
    deriveVerificationPresentationPolicy_spec (input.withChecks checks)
  rw [hpolicy] at hfound
  cases hfound
  have hlabelled : MayBeLabelled (input.withChecks checks) := hverified.elim heligible.mp hrendered.mp
  exact allSuccessful_of_labelled hchecks hlabelled

/-! ### A resource before any proof was verified -/

def sampleProofAuthority : VerificationProofAuthority where
  electionId := js "550e8400-e29b-41d4-a716-446655440000"
  electionConfigHash := List.replicate 64 '1'
  logId := List.replicate 64 '2'
  bulletinRoot := List.replicate 64 '3'
  imageId := List.replicate 64 '4'
  verifiedTally := #v[.ofNat 0, .ofNat 0, .ofNat 1, .ofNat 0, .ofNat 0]
  missingSlots := .ofNat 0
  invalidPresentedSlots := .ofNat 0
  rejectedRecords := .ofNat 0
  totalExpected := .ofNat 1
  treeSize := .ofNat 1
  excludedSlots := .ofNat 0
  sthDigest := List.replicate 64 '5'
  seenBitmapRoot := List.replicate 64 '6'
  includedBitmapRoot := List.replicate 64 '6'
  inputCommitment := List.replicate 64 '7'
  seenIndicesCount := .ofNat 1

/-- No check was run. -/
def sampleResource : AvailableVerificationResource where
  finalizationId := js "finalization"
  proofAuthority := sampleProofAuthority
  presentation :=
    { tally := ⟨sampleProofAuthority.verifiedTally, .ofNat 1, .ofNat 0⟩
      scenarioId := js "S0"
      tamperDetected := false
      botVotesSummary := none
      tamperSummary := none
      policy :=
        { summary := some { status := .missingEvidence, tone := .warning }
          stageStatuses := fun _ => .notRun
          evidenceFullyVerified := false
          fullyVerifiedLabelEligible := false
          display := ⟨.ready, some .summary, some .warning, some .warning⟩
          publishedTallyMismatch := false
          devModeEvidence := false
          missingEvidence := true } }
  verifierResult := ⟨.notRun, none⟩
  checks := verificationCheckDefinitions.map (checkWithStatus · .notRun)
  steps := verificationStepIds.map fun id => ⟨id, .notRun, verificationStepInputs id, none⟩
  voterEvidence := .unavailable .voteIdUnavailable (List.replicate 64 '8') none
  journal := none

theorem sampleResource_accepted : Accepted .reference Sha256.digest sampleResource :=
  ⟨by decide +kernel, by decide +kernel⟩

/-- Whatever the voter's own results are, they can be overlaid. -/
theorem server_alone_never_verified_on_sample :
    sampleResource.presentation.policy.fullyVerifiedLabelEligible = false ∧
      ∀ localResults, ∃ checks, overlayLocalCastChecks sampleResource.checks localResults =
        .ok (some checks) := by
  obtain ⟨heligible, -, hoverlay⟩ :=
    server_alone_never_verified .reference Sha256.digest sampleResource sampleResource_accepted
  refine ⟨heligible, fun localResults => ?_⟩
  obtain ⟨checks, hchecks, -⟩ := hoverlay localResults
  exact ⟨checks, hchecks⟩

end StarkBallot.ApiContract
