import StarkBallot.Application.FinalizationStorage

/-! The finalization lifecycle (`application/src/finalize/finalization-transition-policy.ts`). A command
    names the session, the attempt and the state it asks for; the policy compares it with the current
    record and says whether to apply it.

                 queue      start      succeed / fail / time_out / cancel
        null  ──▶ pending ──▶ running ──▶ succeeded | failed | timeout

    Nonterminal states may follow each other in any order, also `null` by a terminal state; a terminal
    state is never left, and a record of another attempt never replaces the current one (`Step`). -/

namespace StarkBallot.Application
open Schemes Domain

/-! ### Event reasons -/

inductive FinalizationEventReason where
  | finalizeRequested | proverInputPersistenceUnavailable | proverInputUploadFailed | sqsPublishFailed
  | dispatchRequested | stepFunctionsExecutionClosed | stepFunctionsDispatch | runtimeUpdateReceived
  | finalizationResultInvalid | finalizationDispatchTimeout | finalizationOutcomeUnrecorded
  | executionTimedOut | userCancelled | finalizationNotCancellable | statePersisted | idempotentRetry
  | executionMismatch
  | terminalStateSticky | invalidFinalizationArtifact | conditionalWriteConflict | finalizationFailed
  | finalizationBundleKeyMissing | finalizationBundleRestoreFailed | proverTaskFailed
  | proverImageSignatureFailed | proverCapacityWaitTimeout | proverExecutionAborted
  | proverExecutionFailed
  deriving DecidableEq

/-- `FINALIZATION_REASONS`. -/
def finalizationReasons : List (String × FinalizationEventReason) := [
  ("FINALIZE_REQUESTED", .finalizeRequested),
  ("PROVER_INPUT_PERSISTENCE_UNAVAILABLE", .proverInputPersistenceUnavailable),
  ("PROVER_INPUT_UPLOAD_FAILED", .proverInputUploadFailed),
  ("SQS_PUBLISH_FAILED", .sqsPublishFailed),
  ("DISPATCH_REQUESTED", .dispatchRequested),
  ("STEP_FUNCTIONS_EXECUTION_CLOSED", .stepFunctionsExecutionClosed),
  ("STEP_FUNCTIONS_DISPATCH", .stepFunctionsDispatch),
  ("RUNTIME_UPDATE_RECEIVED", .runtimeUpdateReceived),
  ("FINALIZATION_RESULT_INVALID", .finalizationResultInvalid),
  ("FINALIZATION_DISPATCH_TIMEOUT", .finalizationDispatchTimeout),
  ("FINALIZATION_OUTCOME_UNRECORDED", .finalizationOutcomeUnrecorded),
  ("EXECUTION_TIMED_OUT", .executionTimedOut),
  ("USER_CANCELLED", .userCancelled),
  ("FINALIZATION_NOT_CANCELLABLE", .finalizationNotCancellable),
  ("STATE_PERSISTED", .statePersisted),
  ("IDEMPOTENT_RETRY", .idempotentRetry),
  ("EXECUTION_MISMATCH", .executionMismatch),
  ("TERMINAL_STATE_STICKY", .terminalStateSticky),
  ("INVALID_FINALIZATION_ARTIFACT", .invalidFinalizationArtifact),
  ("CONDITIONAL_WRITE_CONFLICT", .conditionalWriteConflict),
  ("FINALIZATION_FAILED", .finalizationFailed),
  ("FINALIZATION_BUNDLE_KEY_MISSING", .finalizationBundleKeyMissing),
  ("FINALIZATION_BUNDLE_RESTORE_FAILED", .finalizationBundleRestoreFailed),
  ("PROVER_TASK_FAILED", .proverTaskFailed),
  ("PROVER_IMAGE_SIGNATURE_FAILED", .proverImageSignatureFailed),
  ("PROVER_CAPACITY_WAIT_TIMEOUT", .proverCapacityWaitTimeout),
  ("PROVER_EXECUTION_ABORTED", .proverExecutionAborted),
  ("PROVER_EXECUTION_FAILED", .proverExecutionFailed)]

/-- The reason a code spells, if it is one. -/
def finalizationEventReason (code : JsString) : Option FinalizationEventReason :=
  (finalizationReasons.find? fun entry => js entry.1 = code).map Prod.snd

def finalizationReasonText (reason : FinalizationEventReason) : String :=
  ((finalizationReasons.find? fun entry => entry.2 = reason).map Prod.fst).getD ""

/-! ### Commands -/

variable {U : Type}

inductive CommandBody (U : Type) where
  | queue
  | start (startedAtMs : Num)
  | succeed (startedAtMs completedAtMs : Num) (finalizationResult : FinalizationResultAuthority U)
  | fail (startedAtMs : Option Num) (failedAtMs : Num) (error : FinalizationError U)
  | timeOut (startedAtMs : Option Num) (timeoutAtMs : Num)
  | cancel (startedAtMs : Option Num) (failedAtMs : Num) (message : JsString)

structure FinalizationTransitionCommand (U : Type) where
  sessionId : JsString
  finalizationId : JsString
  queuedAtMs : Num
  scenarioContext : Option FinalizationScenarioContext
  reason : Option FinalizationEventReason
  body : CommandBody U

inductive InvalidFinalizationTransitionReason where
  | invalidEvaluationTime | invalidSessionId | invalidFinalizationId | invalidTimestamp | invalidError
  | invalidFinalizationResult | invalidScenarioContext
  deriving DecidableEq

inductive FinalizationTransitionOutcome (U : Type) where
  | applied (state : FinalizationState U) (reason : FinalizationEventReason)
      (nextRecord : FinalizationRecord U)
  | idempotent (state : FinalizationState U) (reason : FinalizationEventReason)
  | rejected (state : Option (FinalizationState U)) (reason : FinalizationEventReason)
  | invalid (state : Option (FinalizationState U)) (reason : InvalidFinalizationTransitionReason)
  deriving DecidableEq

structure AdmittedFinalizationCommand (U : Type) where
  sessionId : JsString
  finalizationId : JsString
  state : FinalizationState U
  reason : FinalizationEventReason
  scenarioContext : Option FinalizationScenarioContext
  successfulResult : Option (FinalizationResultAuthority U)
  invalidSuccessfulResult : Bool

abbrev Admission := Except InvalidFinalizationTransitionReason

def resolveDefaultReason (command : FinalizationTransitionCommand U) : FinalizationEventReason :=
  match command.body with
  | .queue => .finalizeRequested
  | .start .. => .runtimeUpdateReceived
  | .succeed .. => .runtimeUpdateReceived
  | .fail _ _ error => (finalizationEventReason error.code).getD .finalizationFailed
  | .timeOut .. => .executionTimedOut
  | .cancel .. => .userCancelled

/-- The policy's own check of times: safe integers. -/
def isTime (value : Num) : Bool := isNonNegativeSafeInteger value

def hasValidStartedAt (queuedAtMs startedAtMs : Num) : Bool :=
  isTime startedAtMs && queuedAtMs.le startedAtMs

def hasValidOptionalStartedAt (queuedAtMs : Num) (startedAtMs : Option Num) : Bool :=
  startedAtMs.all (hasValidStartedAt queuedAtMs)

def hasValidTerminalAt (earliestAtMs terminalAtMs : Num) : Bool :=
  isTime terminalAtMs && earliestAtMs.le terminalAtMs

/-- The white space and line ends that `trim` removes. -/
def isWhiteSpace (c : Char) : Bool :=
  [9, 10, 11, 12, 13, 32, 160, 5760, 8232, 8233, 8239, 8287, 12288, 65279].contains c.toNat ||
  (8192 ≤ c.toNat && c.toNat ≤ 8202)

/-- The state a command asks for, with the result it brings. -/
structure RequestedState (U : Type) where
  state : FinalizationState U
  successfulResult : Option (FinalizationResultAuthority U) := none
  invalidSuccessfulResult : Bool := false

/-- The requested state, unless something about the command is bad. -/
def requestUnless (bad : Prop) [Decidable bad] (reason : InvalidFinalizationTransitionReason)
    (requested : RequestedState U) : Admission (RequestedState U) :=
  if bad then .error reason else .ok requested

section Requests

variable (command : FinalizationTransitionCommand U)

def admitQueue : Admission (RequestedState U) :=
  .ok { state := .pending command.finalizationId command.queuedAtMs }

def admitStart (startedAtMs : Num) : Admission (RequestedState U) :=
  requestUnless (¬ hasValidStartedAt command.queuedAtMs startedAtMs) .invalidTimestamp
    { state := .running command.finalizationId command.queuedAtMs startedAtMs }

def admitSuccess (startedAtMs completedAtMs : Num) (finalizationResult : FinalizationResultAuthority U) :
    Admission (RequestedState U) :=
  let successfulResult := admitFinalizationResultAuthority finalizationResult
  requestUnless (¬ hasValidStartedAt command.queuedAtMs startedAtMs ∨
    ¬ hasValidTerminalAt startedAtMs completedAtMs) .invalidTimestamp {
      state := .succeeded command.finalizationId command.queuedAtMs startedAtMs completedAtMs
      successfulResult := successfulResult
      invalidSuccessfulResult := successfulResult.isNone }

/-- The times of a command that ends an attempt, started or not. -/
def hasValidEnd (startedAtMs : Option Num) (terminalAtMs : Num) : Bool :=
  hasValidOptionalStartedAt command.queuedAtMs startedAtMs &&
  hasValidTerminalAt (startedAtMs.getD command.queuedAtMs) terminalAtMs

def admitFailure (startedAtMs : Option Num) (failedAtMs : Num) (error : FinalizationError U) :
    Admission (RequestedState U) :=
  requestUnless (¬ hasValidEnd command startedAtMs failedAtMs) .invalidTimestamp
    { state := .failed command.finalizationId command.queuedAtMs startedAtMs failedAtMs error }

def admitTimeout (startedAtMs : Option Num) (timeoutAtMs : Num) : Admission (RequestedState U) :=
  requestUnless (¬ hasValidEnd command startedAtMs timeoutAtMs) .invalidTimestamp
    { state := .timeout command.finalizationId command.queuedAtMs startedAtMs timeoutAtMs }

/-- A cancellation with bad times is an invalid error, not an invalid time stamp. -/
def admitCancellation (startedAtMs : Option Num) (failedAtMs : Num) (message : JsString) :
    Admission (RequestedState U) :=
  let error := ⟨js "USER_CANCELLED", message, none, none, []⟩
  requestUnless (¬ hasValidEnd command startedAtMs failedAtMs ∨ message.all isWhiteSpace) .invalidError
    { state := .failed command.finalizationId command.queuedAtMs startedAtMs failedAtMs error }

def admitCommandState : Admission (RequestedState U) :=
  match command.body with
  | .queue => admitQueue command
  | .start startedAtMs => admitStart command startedAtMs
  | .succeed startedAtMs completedAtMs finalizationResult =>
    admitSuccess command startedAtMs completedAtMs finalizationResult
  | .fail startedAtMs failedAtMs error => admitFailure command startedAtMs failedAtMs error
  | .timeOut startedAtMs timeoutAtMs => admitTimeout command startedAtMs timeoutAtMs
  | .cancel startedAtMs failedAtMs message => admitCancellation command startedAtMs failedAtMs message

end Requests

def hasRequiredScenarioContext (command : FinalizationTransitionCommand U)
    (context : Option FinalizationScenarioContext) : Bool :=
  context.isSome || (command.scenarioContext.isNone && match command.body with
    | .queue => false
    | _ => true)

def admitCommand (command : FinalizationTransitionCommand U) :
    Admission (AdmittedFinalizationCommand U) := do
  refuseIf (¬ isSafeVerifierSegment command.sessionId) .invalidSessionId
  refuseIf (¬ isSafeVerifierSegment command.finalizationId) .invalidFinalizationId
  refuseIf (¬ isTime command.queuedAtMs) .invalidTimestamp
  let scenarioContext := command.scenarioContext.bind parseFinalizationScenarioContext
  refuseIf (¬ hasRequiredScenarioContext command scenarioContext) .invalidScenarioContext
  let requested ← admitCommandState command
  return {
    sessionId := command.sessionId
    finalizationId := command.finalizationId
    state := requested.state
    reason := command.reason.getD (resolveDefaultReason command)
    scenarioContext := scenarioContext
    successfulResult := requested.successfulResult
    invalidSuccessfulResult := requested.invalidSuccessfulResult }

/-! ### The policy -/

def isTerminalStatus : FinalizationStatus → Bool
  | .succeeded => true
  | .failed => true
  | .timeout => true
  | _ => false

def isTerminalState (state : FinalizationState U) : Bool := isTerminalStatus state.status

def resolveTerminalRejectionReason (state : FinalizationState U) : FinalizationEventReason :=
  match state with
  | .failed _ _ _ _ error => (finalizationEventReason error.code).getD .terminalStateSticky
  | _ => .terminalStateSticky

def haveSameNonterminalState : FinalizationState U → FinalizationState U → Bool
  | .pending id queuedAtMs, .pending id' queuedAtMs' => id = id' && queuedAtMs.eq queuedAtMs'
  | .running id queuedAtMs startedAtMs, .running id' queuedAtMs' startedAtMs' =>
    id = id' && queuedAtMs.eq queuedAtMs' && startedAtMs.eq startedAtMs'
  | _, _ => false

def buildNextRecord (currentRecord : Option (FinalizationRecord U))
    (admitted : AdmittedFinalizationCommand U) :
    Option (FinalizationRecord U) := do
  let scenarioContext ← admitted.scenarioContext <|> currentRecord.map (·.scenarioContext)
  if admitted.state.status ≠ .succeeded then
    return ⟨admitted.sessionId, admitted.finalizationId, scenarioContext, admitted.state, none⟩
  else
    let successfulResult ← admitted.successfulResult
    return ⟨admitted.sessionId, admitted.finalizationId, scenarioContext, admitted.state,
      some ⟨admitted.finalizationId, successfulResult⟩⟩

def isCurrentCancellableState (state : Option (FinalizationState U)) (finalizationId : JsString) :
    Bool :=
  state.any fun state => state.finalizationId = finalizationId &&
    (state.status = .pending || state.status = .running)

/-- An answer given by the current state alone; `none` if the command may go on. -/
def evaluatePriorFinalizationState (isCancel : Bool) (nextState : FinalizationState U)
    (state : Option (FinalizationState U)) : Option (FinalizationTransitionOutcome U) :=
  let mismatch := match state with
    | some current => if current.finalizationId ≠ nextState.finalizationId then
        some (.rejected state .executionMismatch) else none
    | none => none
  if isCancel then
    if ¬ isCurrentCancellableState state nextState.finalizationId then
      some (.rejected state .finalizationNotCancellable)
    else mismatch
  else
    match state with
    | some current =>
      if current.finalizationId = nextState.finalizationId ∧ isTerminalState current then
        if current.status = nextState.status then some (.idempotent current .idempotentRetry)
        else some (.rejected state (resolveTerminalRejectionReason current))
      else mismatch
    | none => mismatch

def evaluateFinalizationTransition (currentRecord : Option (FinalizationRecord U))
    (command : FinalizationTransitionCommand U) (evaluatedAtMs : Num) :
    FinalizationTransitionOutcome U :=
  let state := currentRecord.map (·.state)
  if ¬ isTime evaluatedAtMs then .invalid state .invalidEvaluationTime
  else
    match admitCommand command with
    | .error reason => .invalid state reason
    | .ok admitted =>
      if currentRecord.any (fun record => record.sessionId ≠ admitted.sessionId) then
        .invalid state .invalidSessionId
      else
        let isCancel := match command.body with
          | .cancel .. => true
          | _ => false
        match evaluatePriorFinalizationState isCancel admitted.state state with
        | some outcome => outcome
        | none =>
          if admitted.invalidSuccessfulResult then .invalid state .invalidFinalizationResult
          else
            match buildNextRecord currentRecord admitted with
            | none => .invalid state .invalidScenarioContext
            | some nextRecord =>
              match currentRecord with
              | some record =>
                if haveSameNonterminalState record.state admitted.state ∧
                    record.scenarioContext = nextRecord.scenarioContext then
                  .idempotent record.state .idempotentRetry
                else .applied admitted.state admitted.reason nextRecord
              | none => .applied admitted.state admitted.reason nextRecord

/-! ### What an applied command can do -/

/-- What a stored record may be replaced by. -/
structure Step (current : Option (FinalizationRecord U)) (command : FinalizationTransitionCommand U)
    (next : FinalizationRecord U) : Prop where
  sessionId_eq : next.sessionId = command.sessionId
  finalizationId_eq : next.finalizationId = command.finalizationId
  state_id : next.state.finalizationId = command.finalizationId
  current_id : ∀ record, current = some record → record.state.finalizationId = command.finalizationId
  current_open : ∀ record, current = some record → isTerminalState record.state = false
  result_admitted : ResultAdmitted next

/-- What the admission of a command fixes. -/
structure Requests (command : FinalizationTransitionCommand U)
    (admitted : AdmittedFinalizationCommand U) : Prop where
  sessionId_eq : admitted.sessionId = command.sessionId
  finalizationId_eq : admitted.finalizationId = command.finalizationId
  state_id : admitted.state.finalizationId = command.finalizationId
  result_admitted : ∀ result, admitted.successfulResult = some result →
    admitFinalizationResultAuthority result = some result

theorem requestUnless_eq_ok {bad : Prop} [Decidable bad] {reason : InvalidFinalizationTransitionReason}
    {requested requested' : RequestedState U} (h : requestUnless bad reason requested = .ok requested') :
    requested = requested' := by
  unfold requestUnless at h
  split at h
  · cases h
  · exact Except.ok.inj h

/-- Every requested state is of the command's attempt, and a result it brings was admitted. -/
structure Requested (finalizationId : JsString) (requested : RequestedState U) : Prop where
  state_id : requested.state.finalizationId = finalizationId
  result_admitted : ∀ result, requested.successfulResult = some result →
    admitFinalizationResultAuthority result = some result

/-- The state a command asks for, if its times are good. -/
def commandState (command : FinalizationTransitionCommand U) : FinalizationState U :=
  match command.body with
  | .queue => .pending command.finalizationId command.queuedAtMs
  | .start startedAtMs => .running command.finalizationId command.queuedAtMs startedAtMs
  | .succeed startedAtMs completedAtMs _ =>
    .succeeded command.finalizationId command.queuedAtMs startedAtMs completedAtMs
  | .fail startedAtMs failedAtMs error =>
    .failed command.finalizationId command.queuedAtMs startedAtMs failedAtMs error
  | .timeOut startedAtMs timeoutAtMs =>
    .timeout command.finalizationId command.queuedAtMs startedAtMs timeoutAtMs
  | .cancel startedAtMs failedAtMs message =>
    .failed command.finalizationId command.queuedAtMs startedAtMs failedAtMs
      ⟨js "USER_CANCELLED", message, none, none, []⟩

theorem admitCommandState_state {command : FinalizationTransitionCommand U}
    {requested : RequestedState U} (h : admitCommandState command = .ok requested) :
    requested.state = commandState command := by
  unfold admitCommandState at h
  unfold commandState
  cases hbody : command.body with
  | queue =>
    rw [hbody] at h
    rw [← Except.ok.inj h]
  | start startedAtMs =>
    rw [hbody] at h
    rw [← requestUnless_eq_ok h]
  | succeed startedAtMs completedAtMs finalizationResult =>
    rw [hbody] at h
    rw [← requestUnless_eq_ok h]
  | fail startedAtMs failedAtMs error =>
    rw [hbody] at h
    rw [← requestUnless_eq_ok h]
  | timeOut startedAtMs timeoutAtMs =>
    rw [hbody] at h
    rw [← requestUnless_eq_ok h]
  | cancel startedAtMs failedAtMs message =>
    rw [hbody] at h
    rw [← requestUnless_eq_ok h]

theorem commandState_id (command : FinalizationTransitionCommand U) :
    (commandState command).finalizationId = command.finalizationId := by
  unfold commandState
  split <;> rfl

theorem admitCommandState_requested {command : FinalizationTransitionCommand U}
    {requested : RequestedState U} (h : admitCommandState command = .ok requested) :
    Requested command.finalizationId requested := by
  refine ⟨by rw [admitCommandState_state h, commandState_id], ?_⟩
  intro result hresult
  unfold admitCommandState at h
  split at h
  · rw [← Except.ok.inj h] at hresult
    cases hresult
  · rw [← requestUnless_eq_ok h] at hresult
    cases hresult
  · rw [← requestUnless_eq_ok h] at hresult
    exact stable_resultAuthority hresult
  · rw [← requestUnless_eq_ok h] at hresult
    cases hresult
  · rw [← requestUnless_eq_ok h] at hresult
    cases hresult
  · rw [← requestUnless_eq_ok h] at hresult
    cases hresult

/-- SPEC: a command is admitted if its identity, its time, its context and the state it asks for are. -/
theorem admitCommand_eq_ok {command : FinalizationTransitionCommand U}
    {admitted : AdmittedFinalizationCommand U} :
    admitCommand command = .ok admitted ↔ isSafeVerifierSegment command.sessionId ∧
      isSafeVerifierSegment command.finalizationId ∧ isTime command.queuedAtMs ∧
      hasRequiredScenarioContext command
        (command.scenarioContext.bind parseFinalizationScenarioContext) ∧
      ∃ requested, admitCommandState command = .ok requested ∧
        ⟨command.sessionId, command.finalizationId, requested.state,
          command.reason.getD (resolveDefaultReason command),
          command.scenarioContext.bind parseFinalizationScenarioContext, requested.successfulResult,
          requested.invalidSuccessfulResult⟩ = admitted := by
  unfold admitCommand
  simp only [bind_eq_ok, refuseIf_eq_ok, not_not, exists_const]
  constructor
  · rintro ⟨hsession, hid, htime, hcontext, requested, hrequested, hadmitted⟩
    exact ⟨hsession, hid, htime, hcontext, requested, hrequested, Except.ok.inj hadmitted⟩
  · rintro ⟨hsession, hid, htime, hcontext, requested, hrequested, rfl⟩
    exact ⟨hsession, hid, htime, hcontext, requested, hrequested, rfl⟩

theorem admitCommand_requests {command : FinalizationTransitionCommand U}
    {admitted : AdmittedFinalizationCommand U} (h : admitCommand command = .ok admitted) :
    Requests command admitted := by
  obtain ⟨-, -, -, -, requested, hrequested, rfl⟩ := admitCommand_eq_ok.mp h
  obtain ⟨hid, hresult⟩ := admitCommandState_requested hrequested
  exact ⟨rfl, rfl, hid, hresult⟩

theorem buildNextRecord_eq_some {current : Option (FinalizationRecord U)}
    {admitted : AdmittedFinalizationCommand U} {next : FinalizationRecord U}
    (h : buildNextRecord current admitted = some next) :
    next.sessionId = admitted.sessionId ∧ next.finalizationId = admitted.finalizationId ∧
      next.state = admitted.state ∧ (next.finalizationResult = none ∨ ∃ authority,
        admitted.successfulResult = some authority ∧
        next.finalizationResult = some ⟨admitted.finalizationId, authority⟩) := by
  unfold buildNextRecord at h
  obtain ⟨context, -, h⟩ := Option.bind_eq_some_iff.mp h
  split at h
  · rw [← Option.some.inj h]
    exact ⟨rfl, rfl, rfl, Or.inl rfl⟩
  · obtain ⟨authority, hauthority, h⟩ := Option.bind_eq_some_iff.mp h
    rw [← Option.some.inj h]
    exact ⟨rfl, rfl, rfl, Or.inr ⟨authority, hauthority, rfl⟩⟩

/-- A command that passes the current state finds it of its own attempt and not terminal. -/
theorem evaluatePrior_eq_none {isCancel : Bool} {nextState current : FinalizationState U}
    (h : evaluatePriorFinalizationState isCancel nextState (some current) = none) :
    current.finalizationId = nextState.finalizationId ∧ isTerminalState current = false := by
  unfold evaluatePriorFinalizationState at h
  have hmismatch : (if current.finalizationId ≠ nextState.finalizationId then
      some (FinalizationTransitionOutcome.rejected (some current) .executionMismatch) else none) = none →
        current.finalizationId = nextState.finalizationId := by
    intro hnone
    by_contra hne
    rw [if_pos hne] at hnone
    cases hnone
  cases isCancel with
  | true =>
    simp only [if_true] at h
    split at h
    · cases h
    · rename_i hcancellable
      refine ⟨hmismatch h, ?_⟩
      simp only [isCurrentCancellableState, Option.any_some, Bool.and_eq_true, Bool.or_eq_true, not_not,
        decide_eq_true_eq] at hcancellable
      rcases hcancellable.2 with hstatus | hstatus
      · rw [isTerminalState, hstatus]
        rfl
      · rw [isTerminalState, hstatus]
        rfl
  | false =>
    simp only [Bool.false_eq_true, if_false] at h
    split at h
    · split at h <;> cases h
    · rename_i hopen
      have hid := hmismatch h
      exact ⟨hid, Bool.eq_false_iff.mpr fun hterminal => hopen ⟨hid, hterminal⟩⟩

/-- The current state alone never applies a command. -/
theorem evaluatePrior_ne_applied {isCancel : Bool} {nextState state : FinalizationState U}
    {current : Option (FinalizationState U)} {reason : FinalizationEventReason}
    {next : FinalizationRecord U} :
    evaluatePriorFinalizationState isCancel nextState current ≠ some (.applied state reason next) := by
  intro h
  unfold evaluatePriorFinalizationState at h
  cases current with
  | none =>
    simp only at h
    split at h
    · split at h <;> cases h
    · cases h
  | some current =>
    simp only at h
    split at h
    · split at h
      · cases h
      · split at h <;> cases h
    · split at h
      · split at h <;> cases h
      · split at h <;> cases h

theorem resultAdmitted_of_requests {command : FinalizationTransitionCommand U}
    {admitted : AdmittedFinalizationCommand U} (hrequests : Requests command admitted)
    {current : Option (FinalizationRecord U)} {next : FinalizationRecord U}
    (h : buildNextRecord current admitted = some next) : ResultAdmitted next := by
  intro result hresult
  obtain ⟨-, -, -, hnone | ⟨authority, hauthority, hsome⟩⟩ := buildNextRecord_eq_some h
  · rw [hnone] at hresult
    cases hresult
  · rw [hsome] at hresult
    rw [← Option.some.inj hresult]
    exact hrequests.result_admitted authority hauthority

/-- An applied command was admitted, passed the current state and has a record. -/
theorem applied_of_evaluate {current : Option (FinalizationRecord U)}
    {command : FinalizationTransitionCommand U} {evaluatedAtMs : Num} {state : FinalizationState U}
    {reason : FinalizationEventReason} {next : FinalizationRecord U}
    (h : evaluateFinalizationTransition current command evaluatedAtMs = .applied state reason next) :
    ∃ admitted isCancel, admitCommand command = .ok admitted ∧
      evaluatePriorFinalizationState isCancel admitted.state (current.map (·.state)) = none ∧
      buildNextRecord current admitted = some next := by
  unfold evaluateFinalizationTransition at h
  simp only at h
  split at h
  · cases h
  split at h
  · cases h
  rename_i admitted hadmitted
  split at h
  · cases h
  split at h
  · rename_i outcome hprior
    rw [h] at hprior
    exact absurd hprior evaluatePrior_ne_applied
  rename_i hprior
  split at h
  · cases h
  split at h
  · cases h
  rename_i next' hnext
  refine ⟨admitted, _, hadmitted, hprior, ?_⟩
  cases current with
  | none =>
    obtain ⟨-, -, rfl⟩ := FinalizationTransitionOutcome.applied.inj h
    exact hnext
  | some record =>
    simp only at h
    split at h
    · cases h
    · obtain ⟨-, -, rfl⟩ := FinalizationTransitionOutcome.applied.inj h
      exact hnext

/-- The state of an applied record is the one that the command asked for. -/
theorem applied_state {current : Option (FinalizationRecord U)}
    {command : FinalizationTransitionCommand U} {evaluatedAtMs : Num} {state : FinalizationState U}
    {reason : FinalizationEventReason} {next : FinalizationRecord U}
    (h : evaluateFinalizationTransition current command evaluatedAtMs = .applied state reason next) :
    next.state = commandState command := by
  obtain ⟨admitted, -, hadmitted, -, hnext⟩ := applied_of_evaluate h
  obtain ⟨-, -, hstate, -⟩ := buildNextRecord_eq_some hnext
  obtain ⟨-, -, -, -, requested, hrequested, rfl⟩ := admitCommand_eq_ok.mp hadmitted
  rw [hstate]
  exact admitCommandState_state hrequested

/-- SPEC: an applied command replaces an open record of its own attempt, or none. -/
theorem evaluateFinalizationTransition_applied {current : Option (FinalizationRecord U)}
    {command : FinalizationTransitionCommand U} {evaluatedAtMs : Num} {state : FinalizationState U}
    {reason : FinalizationEventReason} {next : FinalizationRecord U}
    (h : evaluateFinalizationTransition current command evaluatedAtMs = .applied state reason next) :
    Step current command next := by
  obtain ⟨admitted, isCancel, hadmitted, hprior, hnext⟩ := applied_of_evaluate h
  have hrequests := admitCommand_requests hadmitted
  obtain ⟨hsession, hid, hstate, -⟩ := buildNextRecord_eq_some hnext
  have hopen (record) (hrecord : current = some record) :
      record.state.finalizationId = admitted.state.finalizationId ∧
      isTerminalState record.state = false := by
    rw [hrecord] at hprior
    exact evaluatePrior_eq_none hprior
  exact {
    sessionId_eq := hsession.trans hrequests.sessionId_eq
    finalizationId_eq := hid.trans hrequests.finalizationId_eq
    state_id := by rw [hstate, hrequests.state_id]
    current_id := fun record hrecord => (hopen record hrecord).1.trans hrequests.state_id
    current_open := fun record hrecord => (hopen record hrecord).2
    result_admitted := resultAdmitted_of_requests hrequests hnext }

end StarkBallot.Application
