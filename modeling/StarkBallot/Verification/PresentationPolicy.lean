import StarkBallot.Application.VerificationResult
import StarkBallot.Verification.VerificationSummary

/-! The policy of the final label (`verification/src/verification/verification-presentation-policy.ts`).
    Three aggregations of the same checks, and the label needs them all to agree:

        checks ─┬─ deriveVerificationSummary ─┐
                ├─ deriveStageStatuses ───────┼─ fullyVerifiedLabelEligible ── display
                └─ hasHardFailure, failures ──┘

    A display that shows verified against the other two is a contradiction, and an
    error is thrown for it. -/

namespace StarkBallot.Verification
open Schemes Application

inductive VerificationAvailability where
  | available | unavailable | corrupt
  deriving DecidableEq, Repr

inductive VerificationDisplayStatus where
  | verified | failed | warning | demoOnly
  deriving DecidableEq, Repr

inductive VerificationDisplaySource where
  | explicitServerFailure | summary | hardFailure | pending | unavailable | corrupt
  deriving DecidableEq, Repr

inductive VerificationDisplayReadiness where
  | notStarted | sequenceIncomplete | pending | ready
  deriving DecidableEq, Repr

/-- Every display status but verified. -/
inductive VerificationExplicitServerFailureStatus where
  | failed | warning | demoOnly
  deriving DecidableEq, Repr

def VerificationExplicitServerFailureStatus.toDisplayStatus :
    VerificationExplicitServerFailureStatus → VerificationDisplayStatus
  | .failed => .failed
  | .warning => .warning
  | .demoOnly => .demoOnly

structure VerificationDisplayDecisionInput where
  verificationStarted : Bool
  sequenceComplete : Bool
  hasCheckPending : Bool
  explicitServerFailureStatus : Option VerificationExplicitServerFailureStatus
  summaryTone : Option VerificationSummaryTone
  hasVerificationChecks : Bool
  hardFailureDetected : Bool

structure VerificationDisplayDecision where
  readiness : VerificationDisplayReadiness
  source : Option VerificationDisplaySource
  status : Option VerificationDisplayStatus
  renderedStatus : Option VerificationDisplayStatus
  deriving DecidableEq, Repr

abbrev VerificationStageStatuses := VerificationStepId → VerificationStepStatus

structure VerificationPresentationPolicyInput where
  availability : VerificationAvailability
  checks : Option (List VerificationCheck) := none
  context : VerificationSummaryContext := {}
  verificationStatus : Option VerificationStatus := none
  verificationReportStatus : Option VerificationStatus := none
  explicitServerFailureStatus : Option VerificationExplicitServerFailureStatus := none
  verificationStarted : Option Bool := none
  sequenceComplete : Option Bool := none

structure VerificationPresentationPolicyResult where
  summary : Option VerificationSummaryResult
  stageStatuses : VerificationStageStatuses
  evidenceFullyVerified : Bool
  fullyVerifiedLabelEligible : Bool
  display : VerificationDisplayDecision
  publishedTallyMismatch : Bool
  devModeEvidence : Bool
  missingEvidence : Bool
  explanationKey : Option String := none

/-! ### Display -/

/-- `SUMMARY_TONE_TO_DISPLAY_STATUS`. -/
def summaryToneToDisplayStatus : VerificationSummaryTone → VerificationDisplayStatus
  | .verified => .verified
  | .demo => .demoOnly
  | .warning => .warning
  | .failed => .failed

def resolveDisplayReadiness (verificationStarted sequenceComplete hasCheckPending : Bool) :
    VerificationDisplayReadiness :=
  if !verificationStarted then .notStarted
  else if !sequenceComplete then .sequenceIncomplete
  else if hasCheckPending then .pending
  else .ready

def resolveDisplayResolution (input : VerificationDisplayDecisionInput) :
    Option VerificationDisplaySource × Option VerificationDisplayStatus :=
  match input.explicitServerFailureStatus with
  | some status => (some .explicitServerFailure, some status.toDisplayStatus)
  | none =>
    if input.hasVerificationChecks && input.hardFailureDetected && input.summaryTone ≠ some .failed then
      (some .hardFailure, some .failed)
    else match input.summaryTone with
      | some tone => (some .summary, some (summaryToneToDisplayStatus tone))
      | none =>
        if input.hasVerificationChecks && input.hasCheckPending then (some .pending, some .warning)
          else (none, none)

def resolveVerificationDisplayDecision (input : VerificationDisplayDecisionInput) :
    VerificationDisplayDecision :=
  let (source, status) := resolveDisplayResolution input
  let readiness :=
    resolveDisplayReadiness input.verificationStarted input.sequenceComplete input.hasCheckPending
  ⟨readiness, source, status, if readiness = .ready then status else none⟩

def isFullyVerifiedDisplayDecision (display : VerificationDisplayDecision) : Bool :=
  display.renderedStatus = some .verified

/-! ### Stages -/

/-- The results by id; an id that occurs more than once has the worst of its statuses. -/
def buildCheckResultMap (checks : List VerificationCheck) :
    VerificationCheckId → Option VerificationStepStatus :=
  checks.foldl (fun results check id =>
    if check.id = .known id then
      match results id with
      | some current => some (worseOf statusPriority current check.status)
      | none => some check.status
    else results id) fun _ => none

def deriveStageStatuses (checks : List VerificationCheck) (context : VerificationSummaryContext) :
    VerificationStageStatuses :=
  fun stepId => deriveStageStatusFromChecks (buildCheckResultMap checks)
    (requiredCheckIdsForStep stepId (some (context.sthSourcesConfigured = some true)))

def areAllVerificationStagesSuccessful (statuses : VerificationStageStatuses) : Bool :=
  statuses .castAsIntended = .success && statuses .recordedAsCast = .success &&
  statuses .countedAsRecorded = .success && statuses .starkVerification = .success

/-! ### Failure signals -/

def hardFailureCheckIds : List VerificationCheckId :=
  [.recordedConsistencyProof, .countedMissingIndicesZero, .countedExpectedVsTreeSize,
    .countedElectionManifestConsistent, .countedCloseStatementConsistent, .starkReceiptVerify]

def explicitProofFailureCheckIds : List VerificationCheckId := [.starkImageIdMatch, .starkReceiptVerify]

def hasFailedCheck (checks : List VerificationCheck) (ids : List VerificationCheckId) : Bool :=
  checks.any fun check => ids.any (fun id => check.id = .known id) && check.status = .failed

/-- The slot counts that are there. -/
def definedCounts (context : VerificationSummaryContext) : List Num :=
  [context.missingSlots, context.invalidPresentedSlots, context.excludedSlots].filterMap id

def areConsistentCounts (context : VerificationSummaryContext) : Bool :=
  match context.missingSlots, context.invalidPresentedSlots, context.excludedSlots with
  | some missingSlots, some invalidPresentedSlots, some excludedSlots =>
    excludedSlots.eq (missingSlots.add invalidPresentedSlots)
  | _, _, _ => true

def hasFailClosedExclusionSignal (context : VerificationSummaryContext) : Bool :=
  if (definedCounts context).any fun value => !value.isSafeInteger || value.lt (.ofNat 0) then true
  else if (definedCounts context).any fun value => (Num.ofNat 0).lt value then true
  else !areConsistentCounts context

def hasHardFailure (checks : List VerificationCheck) (context : VerificationSummaryContext) : Bool :=
  if hasFailClosedExclusionSignal context then true
  else if hasFailedCheck checks hardFailureCheckIds then true
  else context.sthSourcesConfigured = some true &&
    checks.any fun check => check.id = .known .recordedSthThirdParty && check.status = .failed

def hasSuccessfulProofChecks (checks : List VerificationCheck) : Bool :=
  let receiptSucceeded :=
    checks.any fun check => check.id = .known .starkReceiptVerify && check.status = .success
  let imageIdChecks := checks.filter fun check => check.id = .known .starkImageIdMatch
  receiptSucceeded &&
    (imageIdChecks.length = 0 || imageIdChecks.any fun check => check.status = .success)

def resolvePresentationVerificationStatus
    (verificationStatus verificationReportStatus : Option VerificationStatus) :
    Option VerificationStatus :=
  if verificationStatus = some .running ∨ verificationStatus = some .notRun then verificationStatus
  else verificationReportStatus.or verificationStatus

def hasExplicitProofFailure (checks : List VerificationCheck)
    (verificationStatus verificationReportStatus : Option VerificationStatus) : Bool :=
  if verificationReportStatus = some .failed || hasFailedCheck checks explicitProofFailureCheckIds then
    true
  else
    let proofSucceeded :=
      verificationReportStatus = some .success || verificationReportStatus = some .devMode ||
      hasSuccessfulProofChecks checks
    resolvePresentationVerificationStatus verificationStatus verificationReportStatus = some .failed &&
      !proofSucceeded

def hasDevelopmentPresentationEvidence (input : VerificationPresentationPolicyInput)
    (checks : List VerificationCheck) :
    Bool :=
  input.context.devModeEvidence = some true || input.verificationStatus = some .devMode ||
  input.verificationReportStatus = some .devMode ||
    checks.any fun check => check.evidence = .demoEvidence

/-! ### Policy -/

def deriveUnavailableDisplay (availability : VerificationAvailability)
    (input : VerificationPresentationPolicyInput) :
    VerificationDisplayDecision :=
  let readiness :=
    resolveDisplayReadiness (input.verificationStarted.getD true)
      (input.sequenceComplete.getD true) false
  if availability = .corrupt then
    if readiness = .ready then ⟨.ready, some .corrupt, some .failed, some .failed⟩
    else ⟨readiness, some .corrupt, some .failed, none⟩
  else if readiness = .ready then ⟨.ready, some .unavailable, some .warning, some .warning⟩
  else ⟨readiness, some .unavailable, some .warning, none⟩

def deriveAvailableDisplay (input : VerificationPresentationPolicyInput)
    (checks : List VerificationCheck) (summary : Option VerificationSummaryResult)
    (hardFailureDetected : Bool)
    (explicitServerFailureStatus : Option VerificationExplicitServerFailureStatus) :
    VerificationDisplayDecision :=
  resolveVerificationDisplayDecision
    { verificationStarted := input.verificationStarted.getD true
      sequenceComplete := input.sequenceComplete.getD true
      hasCheckPending := checks.any fun check => check.status = .pending || check.status = .running
      explicitServerFailureStatus := explicitServerFailureStatus
      summaryTone := summary.map (·.tone)
      hasVerificationChecks := !checks.isEmpty
      hardFailureDetected := hardFailureDetected }

def hasFullyVerifiedSummaryEvidence (summary : Option VerificationSummaryResult)
    (hardFailureDetected : Bool)
    (explicitServerFailureStatus : Option VerificationExplicitServerFailureStatus) : Bool :=
  summary.map (·.status) = some .fullyVerified && summary.map (·.tone) = some .verified &&
    !hardFailureDetected && explicitServerFailureStatus.isNone

def deriveIneligiblePresentationPolicy (summary : Option VerificationSummaryResult)
    (stageStatuses : VerificationStageStatuses) (evidenceFullyVerified : Bool)
    (display : VerificationDisplayDecision) (devModeEvidence : Bool) :
    JsM VerificationPresentationPolicyResult :=
  if isFullyVerifiedDisplayDecision display then
    .error (.error "Verification presentation policy derived contradictory fully verified facts")
  else
    .ok { summary := summary
          stageStatuses := stageStatuses
          evidenceFullyVerified := evidenceFullyVerified
          fullyVerifiedLabelEligible := false
          display := display
          publishedTallyMismatch := summary.map (·.status) = some .publishedTallyMismatch
          devModeEvidence := devModeEvidence
          missingEvidence := summary.isNone || summary.map (·.status) = some .missingEvidence
          explanationKey := summary.bind (·.messageKey) }

def fullyVerifiedDisplay : VerificationDisplayDecision :=
  ⟨.ready, some .summary, some .verified, some .verified⟩

def deriveVerificationPresentationPolicy (input : VerificationPresentationPolicyInput) :
    JsM VerificationPresentationPolicyResult :=
  let checks := input.checks.getD []
  let devModeEvidence := hasDevelopmentPresentationEvidence input checks
  if input.availability ≠ .available then
    .ok { summary := none
          stageStatuses := fun _ => .notRun
          evidenceFullyVerified := false
          fullyVerifiedLabelEligible := false
          display := deriveUnavailableDisplay input.availability input
          publishedTallyMismatch := false
          devModeEvidence := devModeEvidence
          missingEvidence := true }
  else
    let context := { input.context with devModeEvidence := some devModeEvidence }
    let summary := deriveVerificationSummary checks context
    let hardFailureDetected := hasHardFailure checks context
    let explicitServerFailureStatus := input.explicitServerFailureStatus.or
      (if hasExplicitProofFailure checks input.verificationStatus input.verificationReportStatus then
        some .failed
        else none)
    let display :=
      deriveAvailableDisplay input checks summary hardFailureDetected explicitServerFailureStatus
    let evidenceFullyVerified :=
      hasFullyVerifiedSummaryEvidence summary hardFailureDetected explicitServerFailureStatus
    let stageStatuses := deriveStageStatuses checks context
    if evidenceFullyVerified && isFullyVerifiedDisplayDecision display &&
        areAllVerificationStagesSuccessful stageStatuses && !devModeEvidence then
      .ok { summary := summary
            stageStatuses := stageStatuses
            evidenceFullyVerified := true
            fullyVerifiedLabelEligible := true
            display := fullyVerifiedDisplay
            publishedTallyMismatch := false
            devModeEvidence := false
            missingEvidence := false }
    else
      deriveIneligiblePresentationPolicy summary stageStatuses evidenceFullyVerified display
        devModeEvidence

/-! ### The meaning of the label -/

/-- Every condition of the label. The checks may be listed in any order and more than once. -/
structure MayBeLabelled (input : VerificationPresentationPolicyInput) : Prop where
  available : input.availability = .available
  present : ∀ definition ∈ verificationCheckDefinitions,
    isRequiredCheck definition input.context = true →
    ∃ check ∈ input.checks.getD [], check.id = .known definition.id
  successful : ∀ check ∈ input.checks.getD [], ∀ id, check.id = .known id → check.status = .success
  known : ∀ check ∈ input.checks.getD [], ∃ id, check.id = .known id
  notDemo : ∀ check ∈ input.checks.getD [], check.evidence ≠ .demoEvidence
  notDev : input.context.devModeEvidence ≠ some true ∧ input.verificationStatus ≠ some .devMode ∧
    input.verificationReportStatus ≠ some .devMode
  counts : ∀ count ∈ definedCounts input.context,
    count.isInteger = true ∧ count.lt (.ofNat 0) = false ∧ (Num.ofNat 0).lt count = false
  consistent : areConsistentCounts input.context = true
  noServerFailure : input.explicitServerFailureStatus = none
  noReportFailure : input.verificationReportStatus ≠ some .failed
  started : input.verificationStarted ≠ some false
  complete : input.sequenceComplete ≠ some false

variable {checks checks' : List VerificationCheck} {context : VerificationSummaryContext}
  {input : VerificationPresentationPolicyInput}

/-! ### Stages -/

section Stages

theorem foldl_checkResults (results : VerificationCheckId → Option VerificationStepStatus)
    (id : VerificationCheckId) :
    checks.foldl (fun results check id =>
      if check.id = .known id then
        match results id with
        | some current => some (worseOf statusPriority current check.status)
        | none => some check.status
      else results id) results id =
    match results id with
    | some current => some
        (((checks.filter fun check => check.id = .known id).map (·.status)).foldl
          (worseOf statusPriority) current)
    | none => resolveWorstStatus ((checks.filter fun check => check.id = .known id).map (·.status)) := by
  induction checks generalizing results with
  | nil => cases h : results id <;> simp [h, resolveWorstStatus, worst]
  | cons check rest ih =>
    rw [List.foldl_cons, ih]
    by_cases hid : check.id = .known id
    · rw [if_pos hid, List.filter_cons_of_pos (by simpa using hid)]
      cases h : results id <;> simp [resolveWorstStatus, worst]
    · rw [if_neg hid, List.filter_cons_of_neg (by simpa using hid)]

/-- SPEC: the result under an id is the worst status of the checks that carry it. -/
theorem buildCheckResultMap_eq (checks : List VerificationCheck) (id : VerificationCheckId) :
    buildCheckResultMap checks id =
      resolveWorstStatus ((checks.filter fun check => check.id = .known id).map (·.status)) :=
  foldl_checkResults _ id

theorem buildCheckResultMap_perm (h : checks.Perm checks') :
    buildCheckResultMap checks = buildCheckResultMap checks' := by
  funext id
  rw [buildCheckResultMap_eq, buildCheckResultMap_eq]
  exact worst_perm statusPriority_injective ((h.filter _).map _)

theorem deriveStageStatuses_perm (h : checks.Perm checks') :
    deriveStageStatuses checks context = deriveStageStatuses checks' context := by
  unfold deriveStageStatuses
  rw [buildCheckResultMap_perm h]

theorem buildCheckResultMap_success {id : VerificationCheckId} :
    buildCheckResultMap checks id = some .success ↔
      (∃ check ∈ checks, check.id = .known id) ∧ ∀ check ∈ checks, check.id = .known id →
      check.status = .success := by
  rw [buildCheckResultMap_eq, resolveWorstStatus, worst_eq_bottom statusPriority_injective success_least]
  refine and_congr ?_ ?_
  · simp [List.filter_eq_nil_iff]
  · simp only [List.mem_map, List.mem_filter, decide_eq_true_eq, forall_exists_index, and_imp]
    constructor
    · exact fun h check hcheck hid => h check.status check hcheck hid rfl
    · rintro h status check hcheck hid rfl
      exact h check hcheck hid

/-- The ids that a stage waits for are those of its required definitions. -/
theorem mem_requiredCheckIdsForStep {stepId : VerificationStepId} {id : VerificationCheckId}
    (h : id ∈ requiredCheckIdsForStep stepId (some (context.sthSourcesConfigured = some true))) :
    ∃ definition ∈ verificationCheckDefinitions, isRequiredCheck definition context = true ∧
    definition.id = id := by
  simp only [requiredCheckIdsForStep, List.mem_map, List.mem_filter] at h
  obtain ⟨definition, ⟨⟨hmem, -⟩, hrequired⟩, hid⟩ := h
  refine ⟨definition, hmem, ?_, hid⟩
  rw [isRequiredCheck, ← hrequired]
  generalize context.sthSourcesConfigured = configured
  rcases configured with _ | _ | _ <;> rfl

/-- Where every required check was successful, so was every stage. -/
theorem stages_successful
    (hpresent : ∀ definition ∈ verificationCheckDefinitions, isRequiredCheck definition context = true →
      ∃ check ∈ checks, check.id = .known definition.id)
    (hsuccess : ∀ check ∈ checks, check.status = .success) :
    areAllVerificationStagesSuccessful (deriveStageStatuses checks context) = true := by
  have hstage : ∀ stepId, deriveStageStatuses checks context stepId = .success := by
    intro stepId
    refine deriveStageStatus_success.mpr fun status hstatus => ?_
    obtain ⟨id, hid, rfl⟩ := List.mem_map.mp hstatus
    obtain ⟨definition, hmem, hrequired, rfl⟩ := mem_requiredCheckIdsForStep hid
    rw [buildCheckResultMap_success.mpr ⟨hpresent definition hmem hrequired,
      fun check hcheck _ => hsuccess check hcheck⟩]
    rfl
  simp [areAllVerificationStagesSuccessful, hstage]

end Stages

/-! ### Failure signals -/

section Signals

/-- An integer that is neither negative nor positive is zero. -/
theorem eq_zero_of_signless {value : Num} (hneg : value.lt (.ofNat 0) = false)
    (hpos : (Num.ofNat 0).lt value = false) (hinteger : value.isInteger = true) : value = .ofNat 0 := by
  cases value with
  | nan => cases hinteger
  | infinity negative => cases hinteger
  | finite value =>
    simp only [Num.lt, Num.ofNat, Nat.cast_zero, decide_eq_false_iff_not, not_lt] at hneg hpos
    rw [Num.ofNat, Nat.cast_zero, le_antisymm hpos hneg]

/-- No signal: every count that is there is zero, and they agree. -/
theorem hasFailClosedExclusionSignal_eq_false :
    hasFailClosedExclusionSignal context = false ↔
      (∀ count ∈ definedCounts context,
        count.isInteger = true ∧ count.lt (.ofNat 0) = false ∧ (Num.ofNat 0).lt count = false) ∧
        areConsistentCounts context = true := by
  unfold hasFailClosedExclusionSignal
  constructor
  · intro h
    split at h
    · cases h
    rename_i hsafe
    split at h
    · cases h
    rename_i hpositive
    simp only [List.any_eq_true, not_exists, not_and, Bool.not_eq_true, Bool.or_eq_false_iff,
      Bool.not_eq_false'] at hsafe hpositive
    refine ⟨fun count hcount => ⟨?_, (hsafe count hcount).2, hpositive count hcount⟩, by simpa using h⟩
    exact Num.isInteger_of_isSafeInteger (hsafe count hcount).1
  · rintro ⟨hcounts, hconsistent⟩
    have hzero : ∀ count ∈ definedCounts context, count = .ofNat 0 := fun count hcount =>
      eq_zero_of_signless (hcounts count hcount).2.1 (hcounts count hcount).2.2 (hcounts count hcount).1
    have hsafe :
        (definedCounts context).any (fun value => !value.isSafeInteger || value.lt (.ofNat 0)) = false :=
      List.any_eq_false.mpr fun count hcount => by rw [hzero count hcount]; decide
    have hpositive : (definedCounts context).any (fun value => (Num.ofNat 0).lt value) = false :=
      List.any_eq_false.mpr fun count hcount => by rw [hzero count hcount]; decide
    rw [hsafe, hpositive, hconsistent]
    rfl

theorem hasFailedCheck_eq_false (hsuccess : ∀ check ∈ checks, check.status = .success)
    (ids : List VerificationCheckId) :
    hasFailedCheck checks ids = false := by
  refine List.any_eq_false.mpr fun check hcheck => ?_
  rw [hsuccess check hcheck]
  simp

theorem hasHardFailure_eq_false (hsuccess : ∀ check ∈ checks, check.status = .success)
    (hsignal : hasFailClosedExclusionSignal context = false) :
    hasHardFailure checks context = false := by
  have hsth :
      checks.any (fun check => check.id = .known .recordedSthThirdParty &&
        check.status = .failed) = false := by
    refine List.any_eq_false.mpr fun check hcheck => ?_
    rw [hsuccess check hcheck]
    simp
  simp [hasHardFailure, hsignal, hasFailedCheck_eq_false hsuccess, hsth]

/-- Successful checks of the proof outweigh an older failure. -/
theorem hasSuccessfulProofChecks_eq_true (hsuccess : ∀ check ∈ checks, check.status = .success)
    (hreceipt : ∃ check ∈ checks, check.id = .known .starkReceiptVerify) :
    hasSuccessfulProofChecks checks = true := by
  obtain ⟨receipt, hmem, hid⟩ := hreceipt
  have hreceipt :
      checks.any (fun check => check.id = .known .starkReceiptVerify &&
        check.status = .success) = true :=
    List.any_eq_true.mpr ⟨receipt, hmem, by simp [hid, hsuccess receipt hmem]⟩
  unfold hasSuccessfulProofChecks
  dsimp only
  rw [hreceipt, Bool.true_and]
  rcases List.eq_nil_or_concat (checks.filter fun check => check.id = .known .starkImageIdMatch) with
    hnil | ⟨front, check, hfilter⟩
  · simp [hnil]
  · have hcheck :
      check ∈ checks.filter fun check => check.id = .known .starkImageIdMatch := by simp [hfilter]
    have hany : (checks.filter fun check => check.id = .known .starkImageIdMatch).any
        (fun check => check.status = .success) = true :=
      List.any_eq_true.mpr ⟨check, hcheck, by simp [hsuccess check (List.mem_filter.mp hcheck).1]⟩
    simp [hany]

theorem hasExplicitProofFailure_eq_false (hsuccess : ∀ check ∈ checks, check.status = .success)
    (hreceipt : ∃ check ∈ checks, check.id = .known .starkReceiptVerify)
    {verificationStatus : Option VerificationStatus}
    {verificationReportStatus : Option VerificationStatus}
    (hreport : verificationReportStatus ≠ some .failed) :
    hasExplicitProofFailure checks verificationStatus verificationReportStatus = false := by
  simp [hasExplicitProofFailure, hreport, hasFailedCheck_eq_false hsuccess,
    hasSuccessfulProofChecks_eq_true hsuccess hreceipt]

end Signals

/-! ### The display and the evidence -/

/-- What a display that shows verified was made from. -/
theorem isFullyVerifiedDisplayDecision_iff {decision : VerificationDisplayDecisionInput} :
    isFullyVerifiedDisplayDecision (resolveVerificationDisplayDecision decision) = true ↔
      decision.verificationStarted = true ∧ decision.sequenceComplete = true ∧
        decision.hasCheckPending = false ∧
        decision.explicitServerFailureStatus = none ∧ decision.summaryTone = some .verified ∧
        (decision.hasVerificationChecks && decision.hardFailureDetected) = false := by
  obtain ⟨started, complete, pending, explicit, tone, hasChecks, hard⟩ := decision
  simp only [isFullyVerifiedDisplayDecision, resolveVerificationDisplayDecision,
    resolveDisplayResolution, resolveDisplayReadiness]
  rcases explicit with _ | explicit
  · rcases tone with _ | tone
    · cases started <;> cases complete <;> cases pending <;> cases hasChecks <;> cases hard <;> decide
    · cases tone <;> cases started <;> cases complete <;> cases pending <;> cases hasChecks <;>
        cases hard <;> decide
  · cases explicit <;> cases started <;> cases complete <;> cases pending <;> cases hasChecks <;>
      cases hard <;> cases tone <;> simp [VerificationExplicitServerFailureStatus.toDisplayStatus]

/-- The context the aggregations are given. -/
def policyContext (input : VerificationPresentationPolicyInput) : VerificationSummaryContext :=
  { input.context with
    devModeEvidence := some (hasDevelopmentPresentationEvidence input (input.checks.getD [])) }

def policyServerFailure (input : VerificationPresentationPolicyInput) :
    Option VerificationExplicitServerFailureStatus :=
  input.explicitServerFailureStatus.or
    (if hasExplicitProofFailure (input.checks.getD []) input.verificationStatus
      input.verificationReportStatus then
      some .failed else none)

def policyDisplay (input : VerificationPresentationPolicyInput) : VerificationDisplayDecision :=
  deriveAvailableDisplay input (input.checks.getD [])
    (deriveVerificationSummary (input.checks.getD []) (policyContext input))
    (hasHardFailure (input.checks.getD []) (policyContext input)) (policyServerFailure input)

theorem hasDevelopmentPresentationEvidence_eq_false :
    hasDevelopmentPresentationEvidence input checks = false ↔
      (input.context.devModeEvidence ≠ some true ∧ input.verificationStatus ≠ some .devMode ∧
        input.verificationReportStatus ≠ some .devMode) ∧ ∀ check ∈ checks,
        check.evidence ≠ .demoEvidence := by
  simp [hasDevelopmentPresentationEvidence, and_assoc]

/-- COMPLETE: with all the conditions every aggregation comes out right. -/
theorem MayBeLabelled.evidence (h : MayBeLabelled input) :
    deriveVerificationSummary (input.checks.getD []) (policyContext input) =
        some { status := .fullyVerified, tone := .verified } ∧
      hasHardFailure (input.checks.getD []) (policyContext input) = false ∧
        policyServerFailure input = none ∧
      areAllVerificationStagesSuccessful
        (deriveStageStatuses (input.checks.getD []) (policyContext input)) = true ∧
      hasDevelopmentPresentationEvidence input (input.checks.getD []) = false ∧
      isFullyVerifiedDisplayDecision (policyDisplay input) = true := by
  have hsuccess : ∀ check ∈ input.checks.getD [], check.status = .success := by
    intro check hcheck
    obtain ⟨id, hid⟩ := h.known check hcheck
    exact h.successful check hcheck id hid
  have hdev := hasDevelopmentPresentationEvidence_eq_false.mpr ⟨h.notDev, h.notDemo⟩
  have hsummary : deriveVerificationSummary (input.checks.getD []) (policyContext input) =
      some { status := .fullyVerified, tone := .verified } := by
    refine summary_of_fullyEvidenced ⟨?_, h.present, ?_, ?_, h.notDemo, by simp [policyContext, hdev]⟩
    · intro check hcheck hnone
      obtain ⟨id, hid⟩ := h.known check hcheck
      obtain ⟨definition, -, -, hfound⟩ := definitionById_known id
      rw [hid, hfound] at hnone
      cases hnone
    · exact fun check hcheck _ _ _ => hsuccess check hcheck
    · intro check hcheck
      rw [hsuccess check hcheck]
      decide
  have hhard : hasHardFailure (input.checks.getD []) (policyContext input) = false :=
    hasHardFailure_eq_false hsuccess (hasFailClosedExclusionSignal_eq_false.mpr ⟨h.counts, h.consistent⟩)
  have hreceipt : ∃ check ∈ input.checks.getD [], check.id = .known .starkReceiptVerify := by
    obtain ⟨definition, hmem, hid, hcriticality⟩ : ∃ definition ∈ verificationCheckDefinitions,
        definition.id = .starkReceiptVerify ∧ definition.criticality = .required := by decide
    exact hid ▸ h.present definition hmem (isRequiredCheck_of_required hcriticality)
  have hfailure : policyServerFailure input = none := by
    rw [policyServerFailure, h.noServerFailure,
      hasExplicitProofFailure_eq_false hsuccess hreceipt h.noReportFailure]
    rfl
  refine ⟨hsummary, hhard, hfailure, stages_successful h.present hsuccess, hdev, ?_⟩
  have hpending :
      (input.checks.getD []).any (fun check => check.status = .pending ||
        check.status = .running) = false := by
    refine List.any_eq_false.mpr fun check hcheck => ?_
    rw [hsuccess check hcheck]
    decide
  rw [policyDisplay, hsummary, hhard, hfailure, deriveAvailableDisplay,
    isFullyVerifiedDisplayDecision_iff]
  refine ⟨?_, ?_, hpending, rfl, rfl, by simp⟩
  · have hstarted := h.started
    generalize input.verificationStarted = started at hstarted ⊢
    rcases started with _ | _ | _ <;> simp_all
  · have hcomplete := h.complete
    generalize input.sequenceComplete = complete at hcomplete ⊢
    rcases complete with _ | _ | _ <;> simp_all

/-- SOUND: a display that shows verified has all the conditions. -/
theorem mayBeLabelled_of_display (havailable : input.availability = .available)
    (h : isFullyVerifiedDisplayDecision (policyDisplay input) = true) : MayBeLabelled input := by
  rw [policyDisplay, deriveAvailableDisplay, isFullyVerifiedDisplayDecision_iff] at h
  obtain ⟨hstarted, hcomplete, hpending, hfailure, htone, hhard⟩ := h
  simp only at hstarted hcomplete hpending hfailure htone hhard
  obtain ⟨summary, hsummary, htone⟩ := Option.map_eq_some_iff.mp htone
  have hevidence := fullyEvidenced_of_summary hsummary (.inr htone)
  have hne : (input.checks.getD []).isEmpty = false := by
    cases hchecks : input.checks.getD [] with
    | nil => rw [hchecks] at hsummary; cases hsummary
    | cons check rest => rfl
  rw [hne, Bool.not_false, Bool.true_and] at hhard
  have hsignal : hasFailClosedExclusionSignal (policyContext input) = false := by
    unfold hasHardFailure at hhard
    split at hhard
    · cases hhard
    · rename_i hsignal
      simpa using hsignal
  obtain ⟨hcounts, hconsistent⟩ := hasFailClosedExclusionSignal_eq_false.mp hsignal
  have hdev : hasDevelopmentPresentationEvidence input (input.checks.getD []) = false := by
    simpa [policyContext] using hevidence.notDev
  obtain ⟨hnotDev, hnotDemo⟩ := hasDevelopmentPresentationEvidence_eq_false.mp hdev
  obtain ⟨hserver, hproof⟩ := Option.or_eq_none_iff.mp hfailure
  have hinProgress : ∀ check ∈ input.checks.getD [], isInProgress check.status = false := by
    simpa [isInProgress] using hpending
  refine ⟨havailable, hevidence.present, ?_, ?_, hnotDemo, hnotDev, hcounts, hconsistent,
    hserver, ?_, ?_, ?_⟩
  · intro check hcheck id hid
    obtain ⟨hfailed, hnotRun⟩ := hevidence.optional check hcheck
    exact success_of_excluded (hinProgress check hcheck) hfailed hnotRun
  · intro check hcheck
    obtain ⟨definition, hdefinition⟩ := Option.ne_none_iff_exists'.mp (hevidence.known check hcheck)
    exact ⟨definition.id, (definitionById_eq_some hdefinition).2⟩
  · intro hreport
    simp [hasExplicitProofFailure, hreport] at hproof
  · intro hnot
    simp [hnot] at hstarted
  · intro hnot
    simp [hnot] at hcomplete

/-! ### The policy -/

theorem deriveVerificationPresentationPolicy_available (h : input.availability = .available) :
    deriveVerificationPresentationPolicy input =
      if hasFullyVerifiedSummaryEvidence
          (deriveVerificationSummary (input.checks.getD []) (policyContext input))
          (hasHardFailure (input.checks.getD []) (policyContext input)) (policyServerFailure input) &&
        isFullyVerifiedDisplayDecision (policyDisplay input) &&
        areAllVerificationStagesSuccessful
          (deriveStageStatuses (input.checks.getD []) (policyContext input)) &&
        !hasDevelopmentPresentationEvidence input (input.checks.getD []) then
        .ok { summary := deriveVerificationSummary (input.checks.getD []) (policyContext input)
              stageStatuses := deriveStageStatuses (input.checks.getD []) (policyContext input)
              evidenceFullyVerified := true
              fullyVerifiedLabelEligible := true
              display := fullyVerifiedDisplay
              publishedTallyMismatch := false
              devModeEvidence := false
              missingEvidence := false }
      else deriveIneligiblePresentationPolicy
        (deriveVerificationSummary (input.checks.getD []) (policyContext input))
        (deriveStageStatuses (input.checks.getD []) (policyContext input))
        (hasFullyVerifiedSummaryEvidence
          (deriveVerificationSummary (input.checks.getD []) (policyContext input))
          (hasHardFailure (input.checks.getD []) (policyContext input)) (policyServerFailure input))
        (policyDisplay input) (hasDevelopmentPresentationEvidence input (input.checks.getD [])) := by
  unfold deriveVerificationPresentationPolicy
  simp only [h]
  rfl

/-- The policy says verified exactly with all the conditions, and never contradicts itself. -/
theorem deriveVerificationPresentationPolicy_spec (input : VerificationPresentationPolicyInput) :
    ∃ policy, deriveVerificationPresentationPolicy input = .ok policy ∧
      (policy.fullyVerifiedLabelEligible = true ↔ MayBeLabelled input) ∧
      (policy.display.renderedStatus = some .verified ↔ MayBeLabelled input) := by
  by_cases havailable : input.availability = .available
  · rw [deriveVerificationPresentationPolicy_available havailable]
    by_cases hlabelled : MayBeLabelled input
    · obtain ⟨hsummary, hhard, hfailure, hstages, hdev, hdisplay⟩ := hlabelled.evidence
      rw [hdisplay, hsummary, hhard, hfailure, hstages, hdev, if_pos (by decide)]
      exact ⟨_, rfl, by simp [hlabelled], by simp [hlabelled, fullyVerifiedDisplay]⟩
    · have hdisplay : isFullyVerifiedDisplayDecision (policyDisplay input) = false := by
        rw [← Bool.not_eq_true]
        exact fun hshown => hlabelled (mayBeLabelled_of_display havailable hshown)
      rw [hdisplay, if_neg (by simp), deriveIneligiblePresentationPolicy, hdisplay, if_neg (by decide)]
      refine ⟨_, rfl, by simp [hlabelled], iff_of_false ?_ hlabelled⟩
      simpa [isFullyVerifiedDisplayDecision] using hdisplay
  · have hnot : ¬ MayBeLabelled input := fun h => havailable h.available
    unfold deriveVerificationPresentationPolicy
    simp only [ne_eq, havailable, not_false_eq_true, if_true]
    refine ⟨_, rfl, by simp [hnot], iff_of_false ?_ hnot⟩
    simp only [deriveUnavailableDisplay]
    split <;> split <;> simp

/-! ### Other lists of the same checks -/

def VerificationPresentationPolicyInput.withChecks (input : VerificationPresentationPolicyInput)
    (checks : List VerificationCheck) : VerificationPresentationPolicyInput :=
    { input with checks := some checks }

section Perm

variable (h : (input.checks.getD []).Perm checks')
include h

theorem hasDevelopmentPresentationEvidence_perm :
    hasDevelopmentPresentationEvidence (input.withChecks checks') checks' =
      hasDevelopmentPresentationEvidence input (input.checks.getD []) := by
  unfold hasDevelopmentPresentationEvidence
  rw [any_perm h]
  rfl

theorem policyContext_perm : policyContext (input.withChecks checks') = policyContext input := by
  have hdev := hasDevelopmentPresentationEvidence_perm h
  simp only [policyContext, VerificationPresentationPolicyInput.withChecks, Option.getD_some] at hdev ⊢
  rw [hdev]

omit h in
theorem hasHardFailure_perm (h : checks.Perm checks') :
    hasHardFailure checks context = hasHardFailure checks' context := by
  unfold hasHardFailure hasFailedCheck
  rw [any_perm h, any_perm h]

omit h in
theorem hasSuccessfulProofChecks_perm (h : checks.Perm checks') :
    hasSuccessfulProofChecks checks = hasSuccessfulProofChecks checks' := by
  have hfilter := h.filter fun check => decide (check.id = .known .starkImageIdMatch)
  unfold hasSuccessfulProofChecks
  dsimp only
  rw [any_perm h, hfilter.length_eq, any_perm hfilter]

theorem policyServerFailure_perm :
    policyServerFailure (input.withChecks checks') = policyServerFailure input := by
  unfold policyServerFailure hasExplicitProofFailure hasFailedCheck
  rw [any_perm h, hasSuccessfulProofChecks_perm h]
  rfl

theorem deriveAvailableDisplay_perm (summary : Option VerificationSummaryResult)
    (hardFailureDetected : Bool) (failure : Option VerificationExplicitServerFailureStatus) :
    deriveAvailableDisplay (input.withChecks checks') checks' summary hardFailureDetected failure =
      deriveAvailableDisplay input (input.checks.getD []) summary hardFailureDetected failure := by
  unfold deriveAvailableDisplay
  rw [any_perm h, h.isEmpty_eq]
  rfl

/-- The policy does not depend on the order of the checks. -/
theorem deriveVerificationPresentationPolicy_perm :
    deriveVerificationPresentationPolicy (input.withChecks checks') =
      deriveVerificationPresentationPolicy input := by
  have hdev := hasDevelopmentPresentationEvidence_perm h
  have hchecks : (input.withChecks checks').checks.getD [] = checks' := rfl
  by_cases havailable : input.availability = .available
  · have havailable' : (input.withChecks checks').availability = .available := havailable
    rw [deriveVerificationPresentationPolicy_available havailable,
      deriveVerificationPresentationPolicy_available havailable', policyDisplay,
      policyDisplay, policyContext_perm h, policyServerFailure_perm h, hchecks, hdev,
      deriveAvailableDisplay_perm h, deriveVerificationSummary_perm h, hasHardFailure_perm h,
      deriveStageStatuses_perm h]
  · have havailable' : (input.withChecks checks').availability ≠ .available := havailable
    unfold deriveVerificationPresentationPolicy
    simp only [hchecks, havailable, havailable', ne_eq, not_false_eq_true, if_true, hdev]
    rfl

end Perm

/-- The same check with a status that is no better. -/
def Worsened (check check' : VerificationCheck) : Prop :=
  check' = { check with status := check'.status } ∧
    statusPriority check.status ≤ statusPriority check'.status

theorem Worsened.success {check check' : VerificationCheck} (h : Worsened check check')
    (hsuccess : check'.status = .success) : check = check' := by
  obtain ⟨hsame, hle⟩ := h
  rw [hsuccess] at hsame hle
  have hstatus : check.status = .success :=
    statusPriority_injective (Nat.le_antisymm hle (success_least _))
  rw [hsame, ← hstatus]

theorem eq_of_worsened (h : List.Forall₂ Worsened checks checks')
    (hsuccess : ∀ check ∈ checks', check.status = .success) :
    checks = checks' := by
  induction h with
  | nil => rfl
  | cons hworse _ ih =>
    rw [hworse.success (hsuccess _ List.mem_cons_self),
      ih fun check hcheck => hsuccess check (List.mem_cons_of_mem _ hcheck)]

/-- Where worse checks may be labelled they are the same checks. -/
theorem MayBeLabelled.of_worsened (hworse : List.Forall₂ Worsened (input.checks.getD []) checks')
    (h : MayBeLabelled (input.withChecks checks')) : MayBeLabelled input := by
  have hsuccess : ∀ check ∈ checks', check.status = .success := by
    intro check hcheck
    obtain ⟨id, hid⟩ := h.known check hcheck
    exact h.successful check hcheck id hid
  have hchecks : (input.withChecks checks').checks.getD [] = input.checks.getD [] :=
    (eq_of_worsened hworse hsuccess).symm
  exact
    { available := h.available
      present := hchecks ▸ h.present
      successful := hchecks ▸ h.successful
      known := hchecks ▸ h.known
      notDemo := hchecks ▸ h.notDemo
      notDev := h.notDev
      counts := h.counts
      consistent := h.consistent
      noServerFailure := h.noServerFailure
      noReportFailure := h.noReportFailure
      started := h.started
      complete := h.complete }

/-- EXACT: the label is given under all the conditions and under no others. It does not depend on the
    order of the checks, and no check that gets worse brings it about. -/
theorem verified_label_exact (input : VerificationPresentationPolicyInput) :
    (∃ policy, deriveVerificationPresentationPolicy input = .ok policy ∧
      (policy.fullyVerifiedLabelEligible = true ↔ MayBeLabelled input) ∧
      (policy.display.renderedStatus = some .verified ↔ MayBeLabelled input)) ∧
    (∀ checks', (input.checks.getD []).Perm checks' →
      deriveVerificationPresentationPolicy (input.withChecks checks') =
        deriveVerificationPresentationPolicy input) ∧
    ∀ checks' policy policy', List.Forall₂ Worsened (input.checks.getD []) checks' →
      deriveVerificationPresentationPolicy input = .ok policy →
      deriveVerificationPresentationPolicy (input.withChecks checks') = .ok policy' →
      policy'.fullyVerifiedLabelEligible = true → policy.fullyVerifiedLabelEligible = true := by
  refine ⟨deriveVerificationPresentationPolicy_spec input,
    fun checks' h => deriveVerificationPresentationPolicy_perm h, ?_⟩
  intro checks' policy policy' hworse hpolicy hpolicy' heligible
  obtain ⟨found, hfound, hiff, -⟩ := deriveVerificationPresentationPolicy_spec input
  obtain ⟨found', hfound', hiff', -⟩ :=
    deriveVerificationPresentationPolicy_spec (input.withChecks checks')
  rw [hpolicy] at hfound
  rw [hpolicy'] at hfound'
  cases hfound
  cases hfound'
  exact hiff.mpr (MayBeLabelled.of_worsened hworse (hiff'.mp heligible))

def checkWithStatus (definition : VerificationCheckDefinition) (status : VerificationStepStatus) :
    VerificationCheck :=
  ⟨.known definition.id, status, definition.evidence, definition.inputs,
    definition.derivedFrom.map .known, none⟩

/-- With one check of every definition, all successful, the label is given. -/
example : (deriveVerificationPresentationPolicy
    { availability := .available
      checks := some (verificationCheckDefinitions.map (checkWithStatus · .success)) }).map
        (·.fullyVerifiedLabelEligible) = .ok true := by
  decide

end StarkBallot.Verification
