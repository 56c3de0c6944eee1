import StarkBallot.Verification.VerificationChecks

/-! One summary of a list of checks (`verification/src/verification/verification-summary.ts`). The rules
    are asked in a fixed order, and the first that applies gives the summary:

        in progress ─ proof failed ─ votes excluded ─ recorded failed          `deriveBlockingSummary`
        tally mismatch ─ counted failed ─ cast failed ─ evidence missing        `deriveTerminalSummary`
        demo ─ limitations ─ fully verified                                     `deriveSuccessfulEvidenceSummary`

    The last rule is reached exactly when every known check that occurs was successful, except that an
    optional check may still be in progress. -/

namespace StarkBallot.Verification
open Schemes

inductive VerificationSummaryStatus where
  | fullyVerified | demoOnly | inProgress | missingEvidence | verifiedWithLimitations | userVoteExcluded
  | votesExcluded | votesExcludedUnknown | recordedIntegrityFailed | publishedTallyMismatch
  | countedIntegrityFailed | castIntegrityFailed | proofVerificationFailed
  deriving DecidableEq, Repr

inductive VerificationSummaryTone where
  | verified | demo | warning | failed
  deriving DecidableEq, Repr

structure VerificationSummaryContext where
  missingSlots : Option Num := none
  invalidPresentedSlots : Option Num := none
  rejectedRecords : Option Num := none
  excludedSlots : Option Num := none
  sthSourcesConfigured : Option Bool := none
  devModeEvidence : Option Bool := none

structure VerificationSummaryResult where
  status : VerificationSummaryStatus
  tone : VerificationSummaryTone
  messageKey : Option String := none
  deriving DecidableEq

/-! ### Evidence -/

structure ResolvedCheck where
  check : VerificationCheck
  definition : VerificationCheckDefinition

def resolveCheck (check : VerificationCheck) : Option ResolvedCheck :=
  (definitionById check.id).map (⟨check, ·⟩)

/-- The known checks. -/
def resolveChecks (checks : List VerificationCheck) : List ResolvedCheck := checks.filterMap resolveCheck

def hasUnknownCheck (checks : List VerificationCheck) : Bool :=
  checks.any fun check => (definitionById check.id).isNone

def isRequiredCheck (definition : VerificationCheckDefinition) (context : VerificationSummaryContext) :
    Bool :=
  isVerificationCheckRequired definition context.sthSourcesConfigured

structure SummaryEvidence where
  resolved : List ResolvedCheck
  hasUnknown : Bool
  requiredChecks : List ResolvedCheck
  optionalChecks : List ResolvedCheck
  missingRequiredChecks : List VerificationCheckDefinition

def resolveSummaryEvidence (resolved : List ResolvedCheck) (hasUnknown : Bool)
    (context : VerificationSummaryContext) :
    SummaryEvidence where
  resolved := resolved
  hasUnknown := hasUnknown
  requiredChecks := resolved.filter fun entry => isRequiredCheck entry.definition context
  optionalChecks := resolved.filter fun entry => !isRequiredCheck entry.definition context
  missingRequiredChecks :=
    (verificationCheckDefinitions.filter fun definition => isRequiredCheck definition context).filter
    fun definition => definition.id ∉ resolved.map (·.definition.id)

def isInProgress (status : VerificationStepStatus) : Bool := status = .pending || status = .running

def resolveRoleStatus (checks : List ResolvedCheck) (role : VerificationCheckRole) :
    Option VerificationStepStatus :=
  resolveWorstStatus ((checks.filter fun entry => entry.definition.role = role).map (·.check.status))

def categoryFailed (checks : List ResolvedCheck) (category : VerificationStepId) : Bool :=
  checks.any fun entry => entry.definition.category = category && entry.check.status = .failed

def categoryAllRequiredSucceeded (requiredChecks : List ResolvedCheck)
    (missingRequiredChecks : List VerificationCheckDefinition) (category : VerificationStepId) : Bool :=
  if missingRequiredChecks.any fun definition => definition.category = category then false
  else
    let categoryChecks := requiredChecks.filter fun entry => entry.definition.category = category
    !categoryChecks.isEmpty && categoryChecks.all fun entry => entry.check.status = .success

/-! ### Exclusions -/

inductive ExclusionReason where
  | missing | invalid | mixed | unknown

def toPositiveCount (value : Option Num) : Option Num :=
  value.filter fun value => value.isFinite && (Num.ofNat 0).lt value

def resolveExclusionReason (context : VerificationSummaryContext) : Option ExclusionReason :=
  match toPositiveCount context.missingSlots, toPositiveCount context.invalidPresentedSlots with
  | none, none => (toPositiveCount context.excludedSlots).map fun _ => .unknown
  | some _, some _ => some .mixed
  | some _, none => some .missing
  | none, some _ => some .invalid

/-- `EXCLUSION_MESSAGE_KEYS`. -/
def exclusionMessageKey : VerificationSummaryStatus → ExclusionReason → Option String
  | .userVoteExcluded, .missing => some "pages.verify.resultSummary.userVoteMissingSub"
  | .userVoteExcluded, .invalid => some "pages.verify.resultSummary.userVoteInvalidSub"
  | .votesExcluded, .missing => some "pages.verify.resultSummary.votesMissingSub"
  | .votesExcluded, .invalid => some "pages.verify.resultSummary.votesInvalidSub"
  | .votesExcludedUnknown, .missing => some "pages.verify.resultSummary.votesMissingUnknownUserSub"
  | .votesExcludedUnknown, .invalid => some "pages.verify.resultSummary.votesInvalidUnknownUserSub"
  | _, _ => none

def resolveExclusionMessageKey (status : VerificationSummaryStatus) (reason : Option ExclusionReason) :
    Option String :=
  reason.bind (exclusionMessageKey status)

def deriveExclusionSummary (userInclusionStatus : Option VerificationStepStatus)
    (context : VerificationSummaryContext) : VerificationSummaryResult :=
  let status :=
    if userInclusionStatus = some .failed then VerificationSummaryStatus.userVoteExcluded
    else if userInclusionStatus = some .success then .votesExcluded
    else .votesExcludedUnknown
  ⟨status, .failed, resolveExclusionMessageKey status (resolveExclusionReason context)⟩

/-! ### Rules -/

def deriveBlockingSummary (evidence : SummaryEvidence) (context : VerificationSummaryContext) :
    Option VerificationSummaryResult :=
  if evidence.requiredChecks.any fun entry => isInProgress entry.check.status then
    some { status := .inProgress, tone := .warning }
  else if resolveRoleStatus evidence.resolved .proofVerification = some .failed then
    some { status := .proofVerificationFailed, tone := .failed }
  else if resolveRoleStatus evidence.resolved .tallyCompleteness = some .failed then
    some (deriveExclusionSummary (resolveRoleStatus evidence.resolved .userInclusion) context)
  else if categoryFailed evidence.requiredChecks .recordedAsCast then
    some { status := .recordedIntegrityFailed, tone := .failed }
  else none

def hasPublishedTallyMismatch (evidence : SummaryEvidence) (hasRequiredNotRun : Bool) : Bool :=
  resolveRoleStatus evidence.resolved .tallyConsistency = some .failed &&
  ([.proofVerification, .tallyCompleteness, .userInclusion, .tallyInputIntegrity].all fun role =>
    resolveRoleStatus evidence.resolved role = some .success) &&
  categoryAllRequiredSucceeded evidence.requiredChecks evidence.missingRequiredChecks .recordedAsCast &&
  !hasRequiredNotRun && evidence.missingRequiredChecks.isEmpty && !evidence.hasUnknown

def hasDemoEvidence (checks : List ResolvedCheck) : Bool :=
  checks.any fun entry => entry.check.evidence = .demoEvidence

def deriveSuccessfulEvidenceSummary (evidence : SummaryEvidence) (context : VerificationSummaryContext) :
    VerificationSummaryResult :=
  if context.devModeEvidence.getD false || hasDemoEvidence evidence.resolved then
    { status := .demoOnly, tone := .demo }
  else if evidence.optionalChecks.any fun entry => entry.check.status = .failed ||
      entry.check.status = .notRun then
    { status := .verifiedWithLimitations, tone := .warning }
  else { status := .fullyVerified, tone := .verified }

def deriveTerminalSummary (evidence : SummaryEvidence) (context : VerificationSummaryContext) :
    VerificationSummaryResult :=
  let hasRequiredNotRun := evidence.requiredChecks.any fun entry => entry.check.status = .notRun
  if hasPublishedTallyMismatch evidence hasRequiredNotRun then
    { status := .publishedTallyMismatch, tone := .failed }
  else if categoryFailed evidence.requiredChecks .countedAsRecorded then
    { status := .countedIntegrityFailed, tone := .failed }
  else if categoryFailed evidence.requiredChecks .castAsIntended then
    { status := .castIntegrityFailed, tone := .failed }
  else if hasRequiredNotRun || evidence.hasUnknown ||
      (resolveRoleStatus evidence.resolved .tallyCompleteness).isNone ||
      (resolveRoleStatus evidence.resolved .userInclusion).isNone ||
      !evidence.missingRequiredChecks.isEmpty then
    { status := .missingEvidence, tone := .warning }
  else deriveSuccessfulEvidenceSummary evidence context

/-- `null` when there is no known check. -/
def deriveVerificationSummary (checks : List VerificationCheck) (context : VerificationSummaryContext) :
    Option VerificationSummaryResult :=
  let resolved := resolveChecks checks
  if resolved.isEmpty then none
  else
    let evidence := resolveSummaryEvidence resolved (hasUnknownCheck checks) context
    some ((deriveBlockingSummary evidence context).getD (deriveTerminalSummary evidence context))

/-! ### The verified case -/

/-- What the last rule asks for. -/
structure FullyEvidenced (checks : List VerificationCheck) (context : VerificationSummaryContext) :
    Prop where
  known : ∀ check ∈ checks, definitionById check.id ≠ none
  present : ∀ definition ∈ verificationCheckDefinitions, isRequiredCheck definition context = true →
    ∃ check ∈ checks, check.id = .known definition.id
  required : ∀ check ∈ checks, ∀ definition, definitionById check.id = some definition →
    isRequiredCheck definition context = true → check.status = .success
  optional : ∀ check ∈ checks, check.status ≠ .failed ∧ check.status ≠ .notRun
  notDemo : ∀ check ∈ checks, check.evidence ≠ .demoEvidence
  notDev : context.devModeEvidence ≠ some true

/-- The summary says verified, in its status or its tone. -/
def saysVerified (summary : VerificationSummaryResult) : Prop :=
  summary.status = .fullyVerified ∨ summary.tone = .verified

variable {checks checks' : List VerificationCheck} {context : VerificationSummaryContext}
  {entries : List ResolvedCheck} {evidence : SummaryEvidence}

theorem mem_resolveChecks {entry : ResolvedCheck} :
    entry ∈ resolveChecks checks ↔
    entry.check ∈ checks ∧ definitionById entry.check.id = some entry.definition := by
  simp only [resolveChecks, List.mem_filterMap, resolveCheck, Option.map_eq_some_iff]
  constructor
  · rintro ⟨check, hcheck, definition, hdefinition, rfl⟩
    exact ⟨hcheck, hdefinition⟩
  · rintro ⟨hcheck, hdefinition⟩
    exact ⟨entry.check, hcheck, entry.definition, hdefinition, rfl⟩

theorem resolveRoleStatus_failed {role : VerificationCheckRole} :
    resolveRoleStatus entries role = some .failed ↔
      ∃ entry ∈ entries, entry.definition.role = role ∧ entry.check.status = .failed := by
  rw [resolveRoleStatus, resolveWorstStatus, worst_eq_top statusPriority_injective failed_greatest]
  simp [and_assoc]

theorem resolveRoleStatus_none {role : VerificationCheckRole} :
    resolveRoleStatus entries role = none ↔ ∀ entry ∈ entries, entry.definition.role ≠ role := by
  simp [resolveRoleStatus, resolveWorstStatus]

theorem categoryFailed_eq_false {category : VerificationStepId} :
    categoryFailed entries category = false ↔
      ∀ entry ∈ entries, entry.definition.category = category → entry.check.status ≠ .failed := by
  simp [categoryFailed]

/-- The checks of the proof have one role. -/
theorem proofVerification_of_stark : ∀ definition ∈ verificationCheckDefinitions,
    definition.category = .starkVerification → definition.role = .proofVerification := by
  decide

theorem not_saysVerified_of_blocking {summary : VerificationSummaryResult}
    (h : deriveBlockingSummary evidence context = some summary) : ¬ saysVerified summary := by
  unfold deriveBlockingSummary deriveExclusionSummary at h
  split at h
  · cases h
    simp [saysVerified]
  split at h
  · cases h
    simp [saysVerified]
  split at h
  · cases h
    simp only [saysVerified, not_or]
    refine ⟨?_, by decide⟩
    split
    · decide
    split <;> decide
  split at h
  · cases h
    simp [saysVerified]
  · cases h

theorem isRequiredCheck_of_required {definition : VerificationCheckDefinition}
    (h : definition.criticality = .required) : isRequiredCheck definition context = true := by
  rw [isRequiredCheck, isVerificationCheckRequired, if_pos h]

/-- None of the blocking rules applies. -/
theorem blocking_none (h : deriveBlockingSummary evidence context = none) :
    (∀ entry ∈ evidence.requiredChecks, isInProgress entry.check.status = false) ∧
      resolveRoleStatus evidence.resolved .proofVerification ≠ some .failed ∧
      categoryFailed evidence.requiredChecks .recordedAsCast = false := by
  unfold deriveBlockingSummary at h
  split at h
  · cases h
  rename_i hprogress
  split at h
  · cases h
  rename_i hproof
  split at h
  · cases h
  split at h
  · cases h
  rename_i hrecorded
  refine ⟨?_, hproof, by simpa using hrecorded⟩
  simpa using hprogress

/-- None of the terminal rules applies. -/
theorem terminal_verified (h : saysVerified (deriveTerminalSummary evidence context)) :
    categoryFailed evidence.requiredChecks .countedAsRecorded = false ∧
      categoryFailed evidence.requiredChecks .castAsIntended = false ∧
      (∀ entry ∈ evidence.requiredChecks, entry.check.status ≠ .notRun) ∧
      evidence.hasUnknown = false ∧ evidence.missingRequiredChecks = [] ∧
      context.devModeEvidence ≠ some true ∧ hasDemoEvidence evidence.resolved = false ∧
      ∀ entry ∈ evidence.optionalChecks, entry.check.status ≠ .failed ∧
      entry.check.status ≠ .notRun := by
  unfold deriveTerminalSummary at h
  simp only at h
  split at h
  · simp [saysVerified] at h
  split at h
  · simp [saysVerified] at h
  rename_i hcounted
  split at h
  · simp [saysVerified] at h
  rename_i hcast
  split at h
  · simp [saysVerified] at h
  rename_i hcomplete
  unfold deriveSuccessfulEvidenceSummary at h
  split at h
  · simp [saysVerified] at h
  rename_i hdemo
  split at h
  · simp [saysVerified] at h
  rename_i hoptional
  simp only [Bool.or_eq_true, not_or, Bool.not_eq_true, List.any_eq_false, decide_eq_true_eq,
    Bool.not_eq_false', List.isEmpty_iff] at hcomplete hdemo hoptional
  obtain ⟨⟨⟨⟨hnotRun, hunknown⟩, -⟩, -⟩, hmissing⟩ := hcomplete
  refine ⟨by simpa using hcounted, by simpa using hcast, hnotRun, hunknown, hmissing, ?_,
    hdemo.2, hoptional⟩
  intro hdev
  simp [hdev] at hdemo

/-- Whatever is not in progress, was run and did not fail, was successful. -/
theorem success_of_excluded {status : VerificationStepStatus} (hprogress : isInProgress status = false)
    (hfailed : status ≠ .failed) (hnotRun : status ≠ .notRun) : status = .success := by
  cases status with
  | success => rfl
  | pending => cases hprogress
  | running => cases hprogress
  | failed => exact absurd rfl hfailed
  | notRun => exact absurd rfl hnotRun

theorem mem_missingRequiredChecks {hasUnknown : Bool} {definition : VerificationCheckDefinition} :
    definition ∈ (resolveSummaryEvidence entries hasUnknown context).missingRequiredChecks ↔
      definition ∈ verificationCheckDefinitions ∧ isRequiredCheck definition context = true ∧
        ∀ entry ∈ entries, entry.definition.id ≠ definition.id := by
  simp only [resolveSummaryEvidence, List.mem_filter, List.mem_map, decide_eq_true_eq, not_exists,
    not_and, and_assoc, ne_eq]

theorem hasUnknownCheck_eq_false :
    hasUnknownCheck checks = false ↔ ∀ check ∈ checks, definitionById check.id ≠ none := by
  simp [hasUnknownCheck]

/-- SOUND: a summary that says verified has all the evidence. -/
theorem fullyEvidenced_of_summary {summary : VerificationSummaryResult}
    (h : deriveVerificationSummary checks context = some summary) (hverified : saysVerified summary) :
    FullyEvidenced checks context := by
  unfold deriveVerificationSummary at h
  simp only at h
  split at h
  · cases h
  rw [Option.some.injEq] at h
  have hblocking : deriveBlockingSummary
      (resolveSummaryEvidence (resolveChecks checks) (hasUnknownCheck checks) context)
      context = none := by
    cases hcase : deriveBlockingSummary _ context with
    | none => rfl
    | some blocking =>
      rw [hcase, Option.getD_some] at h
      exact absurd (h ▸ hverified) (not_saysVerified_of_blocking hcase)
  rw [hblocking, Option.getD_none] at h
  obtain ⟨hprogress, hproof, hrecorded⟩ := blocking_none hblocking
  obtain ⟨hcounted, hcast, hnotRun, hunknown, hmissing, hdev, hdemo, hoptional⟩ :=
    terminal_verified (h ▸ hverified)
  have hknown := hasUnknownCheck_eq_false.mp hunknown
  -- a required check is in one of the four categories, and none of them failed
  have hsuccess : ∀ entry ∈ resolveChecks checks, isRequiredCheck entry.definition context = true →
      entry.check.status = .success := by
    intro entry hentry hrequired
    have hmem :
        entry ∈ (resolveSummaryEvidence (resolveChecks checks) (hasUnknownCheck checks)
          context).requiredChecks :=
      List.mem_filter.mpr ⟨hentry, hrequired⟩
    refine success_of_excluded (hprogress entry hmem) ?_ (hnotRun entry hmem)
    intro hfailed
    obtain ⟨hdefinition, -⟩ := definitionById_eq_some (mem_resolveChecks.mp hentry).2
    cases hcategory : entry.definition.category with
    | castAsIntended => exact categoryFailed_eq_false.mp hcast entry hmem hcategory hfailed
    | recordedAsCast => exact categoryFailed_eq_false.mp hrecorded entry hmem hcategory hfailed
    | countedAsRecorded => exact categoryFailed_eq_false.mp hcounted entry hmem hcategory hfailed
    | starkVerification =>
      exact hproof (resolveRoleStatus_failed.mpr
        ⟨entry, hentry, proofVerification_of_stark _ hdefinition hcategory, hfailed⟩)
  have hresolved : ∀ check ∈ checks, ∃ definition, definitionById check.id = some definition ∧
      ResolvedCheck.mk check definition ∈ resolveChecks checks := by
    intro check hcheck
    obtain ⟨definition, hdefinition⟩ := Option.ne_none_iff_exists'.mp (hknown check hcheck)
    exact ⟨definition, hdefinition, mem_resolveChecks.mpr ⟨hcheck, hdefinition⟩⟩
  refine ⟨hknown, ?_, ?_, ?_, ?_, hdev⟩
  · intro definition hdefinition hrequired
    by_contra hnone
    have habsent : definition ∈
        (resolveSummaryEvidence (resolveChecks checks) (hasUnknownCheck checks)
          context).missingRequiredChecks := by
      refine mem_missingRequiredChecks.mpr ⟨hdefinition, hrequired, ?_⟩
      intro entry hentry hid
      obtain ⟨hcheck, hfound⟩ := mem_resolveChecks.mp hentry
      exact hnone ⟨entry.check, hcheck, hid ▸ (definitionById_eq_some hfound).2⟩
    rw [hmissing] at habsent
    cases habsent
  · intro check hcheck definition hdefinition hrequired
    exact hsuccess ⟨check, definition⟩ (mem_resolveChecks.mpr ⟨hcheck, hdefinition⟩) hrequired
  · intro check hcheck
    obtain ⟨definition, -, hentry⟩ := hresolved check hcheck
    cases hrequired : isRequiredCheck definition context with
    | true =>
      have hstatus := hsuccess _ hentry hrequired
      constructor <;> intro hbad <;> rw [hbad] at hstatus <;> cases hstatus
    | false => exact hoptional ⟨check, definition⟩ (List.mem_filter.mpr ⟨hentry, by simp [hrequired]⟩)
  · intro check hcheck hbad
    obtain ⟨definition, -, hentry⟩ := hresolved check hcheck
    simp only [hasDemoEvidence, resolveSummaryEvidence, List.any_eq_false, decide_eq_true_eq] at hdemo
    exact hdemo _ hentry hbad

/-- COMPLETE: with all the evidence the last rule is reached. -/
theorem summary_of_fullyEvidenced (h : FullyEvidenced checks context) :
    deriveVerificationSummary checks context = some { status := .fullyVerified, tone := .verified } := by
  have hentry :
      ∀ entry ∈ resolveChecks checks, entry.check.status ≠ .failed ∧ entry.check.status ≠ .notRun :=
    fun entry hentry => h.optional _ (mem_resolveChecks.mp hentry).1
  have hrequired : ∀ entry ∈ resolveChecks checks, isRequiredCheck entry.definition context = true →
      entry.check.status = .success :=
    fun entry hmem hrequired =>
      h.required _ (mem_resolveChecks.mp hmem).1 _ (mem_resolveChecks.mp hmem).2 hrequired
  have hrole : ∀ role, resolveRoleStatus (resolveChecks checks) role ≠ some .failed := by
    intro role hfailed
    obtain ⟨entry, hmem, -, hstatus⟩ := resolveRoleStatus_failed.mp hfailed
    exact (hentry entry hmem).1 hstatus
  have hcategory : ∀ category, categoryFailed
      ((resolveChecks checks).filter fun entry => isRequiredCheck entry.definition context)
      category = false :=
    fun category => categoryFailed_eq_false.mpr fun entry hmem _ =>
      (hentry entry (List.mem_filter.mp hmem).1).1
  have hpresent :
      ∀ definition ∈ verificationCheckDefinitions, isRequiredCheck definition context = true →
      ∃ check, ResolvedCheck.mk check definition ∈ resolveChecks checks := by
    intro definition hdefinition hneeded
    obtain ⟨check, hcheck, hid⟩ := h.present definition hdefinition hneeded
    exact ⟨check, mem_resolveChecks.mpr ⟨hcheck, hid ▸ definitionById_of_mem hdefinition⟩⟩
  have hroles : ∀ role, (∃ definition ∈ verificationCheckDefinitions, definition.role = role ∧
      definition.criticality = .required) → resolveRoleStatus (resolveChecks checks) role ≠ none := by
    rintro role ⟨definition, hdefinition, hrole, hcriticality⟩ hnone
    obtain ⟨check, hmem⟩ := hpresent definition hdefinition (isRequiredCheck_of_required hcriticality)
    exact resolveRoleStatus_none.mp hnone _ hmem hrole
  have hcompleteness := hroles .tallyCompleteness (by decide)
  have hinclusion := hroles .userInclusion (by decide)
  have hne : resolveChecks checks ≠ [] := by
    intro hnil
    rw [hnil] at hinclusion
    exact hinclusion rfl
  have hmissing :
      (resolveSummaryEvidence (resolveChecks checks) (hasUnknownCheck checks)
        context).missingRequiredChecks =
      [] := by
    refine List.eq_nil_iff_forall_not_mem.mpr fun definition hmem => ?_
    obtain ⟨hdefinition, hneeded, habsent⟩ := mem_missingRequiredChecks.mp hmem
    obtain ⟨check, hresolved⟩ := hpresent definition hdefinition hneeded
    exact habsent _ hresolved rfl
  have hblocking : deriveBlockingSummary
      (resolveSummaryEvidence (resolveChecks checks) (hasUnknownCheck checks) context)
      context = none := by
    have hprogress :
        ((resolveChecks checks).filter fun entry => isRequiredCheck entry.definition context).any
        (fun entry => isInProgress entry.check.status) = false := by
      simp only [List.any_eq_false, List.mem_filter, Bool.not_eq_true, and_imp]
      intro entry hmem hneeded
      rw [hrequired entry hmem hneeded]
      rfl
    simp only [deriveBlockingSummary, resolveSummaryEvidence, hprogress, hrole, hcategory, if_false,
      Bool.false_eq_true]
  have hterminal : deriveTerminalSummary
      (resolveSummaryEvidence (resolveChecks checks) (hasUnknownCheck checks) context) context =
        { status := .fullyVerified, tone := .verified } := by
    have hnotRun :
        ((resolveChecks checks).filter fun entry => isRequiredCheck entry.definition context).any
        (fun entry => decide (entry.check.status = .notRun)) = false := by
      simp only [List.any_eq_false, List.mem_filter, decide_eq_true_eq, and_imp]
      exact fun entry hmem _ => (hentry entry hmem).2
    have hdemo : hasDemoEvidence (resolveChecks checks) = false := by
      simp only [hasDemoEvidence, List.any_eq_false, decide_eq_true_eq]
      exact fun entry hmem => h.notDemo _ (mem_resolveChecks.mp hmem).1
    have hoptional :
        ((resolveChecks checks).filter fun entry => !isRequiredCheck entry.definition context).any
        (fun entry => decide (entry.check.status = .failed) ||
          decide (entry.check.status = .notRun)) = false := by
      simp only [List.any_eq_false, List.mem_filter, Bool.or_eq_true, decide_eq_true_eq, not_or, and_imp]
      exact fun entry hmem _ => hentry entry hmem
    have hdev : context.devModeEvidence.getD false = false := by
      have hnot := h.notDev
      generalize context.devModeEvidence = dev at hnot
      rcases dev with _ | _ | _
      · rfl
      · rfl
      · exact absurd rfl hnot
    have hmismatch : ∀ flag, hasPublishedTallyMismatch
        (resolveSummaryEvidence (resolveChecks checks) (hasUnknownCheck checks) context)
        flag = false := by
      intro flag
      simp [hasPublishedTallyMismatch, resolveSummaryEvidence, hrole]
    simp only [deriveTerminalSummary, hmismatch, hmissing]
    simp [deriveSuccessfulEvidenceSummary, resolveSummaryEvidence, hcategory, hnotRun,
      hasUnknownCheck_eq_false.mpr h.known, hcompleteness, hinclusion, hdev, hdemo, hoptional]
  simp [deriveVerificationSummary, hne, hblocking, hterminal]

/-! ### The order of the checks -/

section Order

variable {entries' : List ResolvedCheck}

theorem any_perm {α : Type} {l l' : List α} (h : l.Perm l') (p : α → Bool) : l.any p = l'.any p := by
  rw [Bool.eq_iff_iff, List.any_eq_true, List.any_eq_true]
  simp only [h.mem_iff]

theorem all_perm {α : Type} {l l' : List α} (h : l.Perm l') (p : α → Bool) : l.all p = l'.all p := by
  rw [Bool.eq_iff_iff, List.all_eq_true, List.all_eq_true]
  simp only [h.mem_iff]

theorem resolveRoleStatus_perm (h : entries.Perm entries') (role : VerificationCheckRole) :
    resolveRoleStatus entries role = resolveRoleStatus entries' role :=
  worst_perm statusPriority_injective ((h.filter _).map _)

theorem categoryFailed_perm (h : entries.Perm entries') (category : VerificationStepId) :
    categoryFailed entries category = categoryFailed entries' category := any_perm h _

theorem categoryAllRequiredSucceeded_perm (h : entries.Perm entries')
    (missing : List VerificationCheckDefinition) (category : VerificationStepId) :
    categoryAllRequiredSucceeded entries missing category =
      categoryAllRequiredSucceeded entries' missing category := by
  have hfilter := h.filter fun entry => decide (entry.definition.category = category)
  simp only [categoryAllRequiredSucceeded, hfilter.isEmpty_eq, all_perm hfilter]

/-- The same evidence, collected in another order. -/
structure Reordered (evidence evidence' : SummaryEvidence) : Prop where
  resolved : evidence.resolved.Perm evidence'.resolved
  hasUnknown : evidence.hasUnknown = evidence'.hasUnknown
  required : evidence.requiredChecks.Perm evidence'.requiredChecks
  optional : evidence.optionalChecks.Perm evidence'.optionalChecks
  missing : evidence.missingRequiredChecks = evidence'.missingRequiredChecks

variable {evidence' : SummaryEvidence}

theorem deriveBlockingSummary_reordered (h : Reordered evidence evidence') :
    deriveBlockingSummary evidence context = deriveBlockingSummary evidence' context := by
  unfold deriveBlockingSummary
  rw [any_perm h.required, categoryFailed_perm h.required, resolveRoleStatus_perm h.resolved,
    resolveRoleStatus_perm h.resolved, resolveRoleStatus_perm h.resolved]

theorem hasPublishedTallyMismatch_reordered (h : Reordered evidence evidence')
    (hasRequiredNotRun : Bool) :
    hasPublishedTallyMismatch evidence hasRequiredNotRun =
      hasPublishedTallyMismatch evidence' hasRequiredNotRun := by
  simp only [hasPublishedTallyMismatch, resolveRoleStatus_perm h.resolved,
    categoryAllRequiredSucceeded_perm h.required, h.missing, h.hasUnknown]

theorem deriveTerminalSummary_reordered (h : Reordered evidence evidence') :
    deriveTerminalSummary evidence context = deriveTerminalSummary evidence' context := by
  unfold deriveTerminalSummary deriveSuccessfulEvidenceSummary hasDemoEvidence
  dsimp only
  rw [any_perm h.required, any_perm h.optional, any_perm h.resolved,
    hasPublishedTallyMismatch_reordered h, categoryFailed_perm h.required,
    categoryFailed_perm h.required, h.missing, h.hasUnknown, resolveRoleStatus_perm h.resolved,
    resolveRoleStatus_perm h.resolved]

/-- The summary does not depend on the order of the checks. -/
theorem deriveVerificationSummary_perm (h : checks.Perm checks') :
    deriveVerificationSummary checks context = deriveVerificationSummary checks' context := by
  have hresolved : (resolveChecks checks).Perm (resolveChecks checks') := h.filterMap _
  have hreordered :
      Reordered (resolveSummaryEvidence (resolveChecks checks) (hasUnknownCheck checks) context)
      (resolveSummaryEvidence (resolveChecks checks') (hasUnknownCheck checks') context) := by
    refine ⟨hresolved, any_perm h _, hresolved.filter _, hresolved.filter _, ?_⟩
    simp only [resolveSummaryEvidence, (hresolved.map _).mem_iff]
  unfold deriveVerificationSummary
  dsimp only
  rw [hresolved.isEmpty_eq, deriveBlockingSummary_reordered hreordered,
    deriveTerminalSummary_reordered hreordered]

end Order

end StarkBallot.Verification
