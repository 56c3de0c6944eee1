import StarkBallot.Application.TransitionCoordinator
import StarkBallot.Domain.SessionState
import StarkBallot.ZkvmContract.WireInput

/-! One request to finalize a session in the background
    (`application/src/finalize/usecases/finalize-async.ts`, `finalization-queue.ts`,
    `finalization-work-item.ts`). The attempt is stored as pending, its input is uploaded, and a message
    for the prover is published; a failure on the way is recorded, if that can be done.

        markFinalizationQueued ── another attempt, or not pending ──▶ ok, that state
               │ pending, this attempt
               ▼
        upload (only `s3`) ──▶ publish ──▶ ok, pending
               └───── failed ─────┴──▶ markFinalizationFailed, errors ignored ──▶ error

    Store, queue and upload are programs that the request is given. Log lines and events are left out,
    and a store without the commands of the lifecycle, which its type excludes. -/

namespace StarkBallot.Application
open Schemes Domain ZkvmContract

variable {U : Type} {ρ : Type} {Answer : ρ → Type}

/-- A call that may throw. -/
abbrev Throwing (ρ : Type) (Answer : ρ → Type) := ExceptT JsError (Async ρ Answer)

/-! ### Commands of the lifecycle store -/

structure FinalizationQueuedPayload where
  finalizationId : JsString
  queuedAtMs : Num
  scenarioContext : FinalizationScenarioContext
  reason : Option FinalizationEventReason

structure FinalizationFailedPayload (U : Type) where
  finalizationId : JsString
  queuedAtMs : Num
  startedAtMs : Option Num
  failedAtMs : Num
  scenarioContext : Option FinalizationScenarioContext
  error : FinalizationError U
  reason : Option FinalizationEventReason

/-- `buildFinalizationCommand` for a queued payload. -/
def buildQueueCommand (sessionId : JsString) (payload : FinalizationQueuedPayload) :
    FinalizationTransitionCommand U where
  sessionId := sessionId
  finalizationId := payload.finalizationId
  queuedAtMs := payload.queuedAtMs
  scenarioContext := some payload.scenarioContext
  reason := payload.reason
  body := .queue

/-- `buildFinalizationCommand` for a failed payload: a failure on the user's behalf is a cancellation. -/
def buildFailCommand (sessionId : JsString) (payload : FinalizationFailedPayload U) :
    FinalizationTransitionCommand U where
  sessionId := sessionId
  finalizationId := payload.finalizationId
  queuedAtMs := payload.queuedAtMs
  scenarioContext := payload.scenarioContext
  reason := payload.reason
  body :=
    if payload.error.code = js "USER_CANCELLED" then
      .cancel payload.startedAtMs payload.failedAtMs payload.error.message
    else .fail payload.startedAtMs payload.failedAtMs payload.error

/-! ### Messages -/

inductive FinalizationScenarioCode where
  | s0 | s1 | s2 | s3 | s4 | s5
  deriving DecidableEq

def toScenarioCode (value : JsString) : JsM FinalizationScenarioCode :=
  if value = js "S0" then .ok .s0
  else if value = js "S1" then .ok .s1
  else if value = js "S2" then .ok .s2
  else if value = js "S3" then .ok .s3
  else if value = js "S4" then .ok .s4
  else if value = js "S5" then .ok .s5
  else .error (.error s!"Unsupported scenario code: {String.ofList value}")

inductive InputSource where
  | inline
  | s3
  deriving DecidableEq

/-- Where the worker finds the input. -/
inductive WorkItemInput where
  | inline (zkvmInput : ZkVMInput) (zkvmInputCommitment : JsString) (electionConfig : ElectionConfig)
  | s3

structure FinalizationWorkItem where
  sessionId : JsString
  finalizationId : JsString
  queuedAtMs : Num
  expectedImageId : JsString
  scenarios : List FinalizationScenarioCode
  simulateTampering : Bool
  scenarioContext : FinalizationScenarioContext
  source : WorkItemInput

/-! ### The request -/

structure PersistAsyncProverInput where
  sessionId : JsString
  finalizationId : JsString
  zkvmInput : ZkVMInput
  electionConfig : ElectionConfig

structure FinalizeAsyncInput where
  sessionId : JsString
  finalizationId : JsString
  queuedAtMs : Num
  zkvmInput : ZkVMInput
  electionConfig : ElectionConfig
  expectedImageId : JsString
  scenarios : List JsString
  scenarioContext : FinalizationScenarioContext
  publishMaxAttempts : Num
  inputSource : InputSource

/-- `now` is the clock at the one time it is read. -/
structure FinalizeAsyncDependencies (ρ : Type) (Answer : ρ → Type) (U : Type) where
  markFinalizationQueued :
    JsString → FinalizationQueuedPayload → Throwing ρ Answer (FinalizationRecord U)
  markFinalizationFailed :
    JsString → FinalizationFailedPayload U → Throwing ρ Answer (FinalizationRecord U)
  publish : FinalizationWorkItem → Num → Throwing ρ Answer Unit
  now : Num
  computeCommitment : ZkVMInput → JsM JsString
  persistAsyncProverInput : Option (PersistAsyncProverInput → Throwing ρ Answer Unit)

structure FinalizeAcceptedPayload (U : Type) where
  finalizationId : JsString
  state : FinalizationState U
  deriving DecidableEq

structure FinalizeAccepted (U : Type) where
  payload : FinalizeAcceptedPayload U
  state : FinalizationState U
  deriving DecidableEq

/-- An error of kind `api`. -/
structure FinalizeSessionError where
  code : JsString
  details : JsString
  deriving DecidableEq

abbrev FinalizeAsyncResult (U : Type) := Except FinalizeSessionError (FinalizeAccepted U)

/-- What can fail once the attempt is stored. -/
inductive AsyncFailure where
  | persistenceUnavailable
  | uploadFailed
  | publishFailed
  deriving DecidableEq

namespace AsyncFailure

def code : AsyncFailure → FinalizationEventReason
  | persistenceUnavailable => .proverInputPersistenceUnavailable
  | uploadFailed => .proverInputUploadFailed
  | publishFailed => .sqsPublishFailed

def codeText : AsyncFailure → JsString
  | persistenceUnavailable => js "PROVER_INPUT_PERSISTENCE_UNAVAILABLE"
  | uploadFailed => js "PROVER_INPUT_UPLOAD_FAILED"
  | publishFailed => js "SQS_PUBLISH_FAILED"

/-- The message that is stored. -/
def message : AsyncFailure → JsString
  | persistenceUnavailable => js "Target async prover input persistence is unavailable"
  | uploadFailed => js "Failed to persist target async prover input"
  | publishFailed => js "Failed to enqueue finalization job"

/-- The details that are returned. -/
def details : AsyncFailure → JsString
  | persistenceUnavailable => js "Target async prover input persistence is not configured"
  | uploadFailed => js "Failed to persist target async prover input"
  | publishFailed => js "Failed to enqueue finalization job"

def toError (failure : AsyncFailure) : FinalizeSessionError := ⟨js "INTERNAL_ERROR", failure.details⟩

end AsyncFailure

section Request

variable (input : FinalizeAsyncInput) (deps : FinalizeAsyncDependencies ρ Answer U)

def queuedPayload : FinalizationQueuedPayload :=
  ⟨input.finalizationId, input.queuedAtMs, input.scenarioContext, some .finalizeRequested⟩

def failedPayload (failedAtMs : Num) (failure : AsyncFailure) : FinalizationFailedPayload U where
  finalizationId := input.finalizationId
  queuedAtMs := input.queuedAtMs
  startedAtMs := none
  failedAtMs := failedAtMs
  scenarioContext := none
  error := ⟨failure.codeText, failure.message, none, none, []⟩
  reason := some failure.code

/-- Record the failure; whatever goes wrong with that is only logged. -/
def writeAsyncFailure (failure : AsyncFailure) : Throwing ρ Answer Unit := do
  let _ ← attempt (deps.markFinalizationFailed input.sessionId (failedPayload input deps.now failure))
  return

/-- Upload the input, and give the failure if there is one. -/
def persistAsyncInput : Throwing ρ Answer (Option AsyncFailure) :=
  match deps.persistAsyncProverInput with
  | none => return some .persistenceUnavailable
  | some persist => do
    match ← attempt
        (persist ⟨input.sessionId, input.finalizationId, input.zkvmInput, input.electionConfig⟩) with
    | .ok _ => return none
    | .error _ => return some .uploadFailed

/-- An inline input travels with the message. -/
def uploadInput : Throwing ρ Answer (Option AsyncFailure) :=
  match input.inputSource with
  | .s3 => persistAsyncInput input deps
  | .inline => return none

def workItemInput (zkvmInputCommitment : JsString) : WorkItemInput :=
  match input.inputSource with
  | .s3 => .s3
  | .inline => .inline input.zkvmInput zkvmInputCommitment input.electionConfig

def toWorkItem (zkvmInputCommitment : JsString) (scenarios : List FinalizationScenarioCode) :
    FinalizationWorkItem where
  sessionId := input.sessionId
  finalizationId := input.finalizationId
  queuedAtMs := input.queuedAtMs
  expectedImageId := input.expectedImageId
  scenarios := scenarios
  simulateTampering := false
  scenarioContext := input.scenarioContext
  source := workItemInput input zkvmInputCommitment

def publishWorkItem (message : FinalizationWorkItem) : Throwing ρ Answer (Option AsyncFailure) := do
  match ← attempt (deps.publish message input.publishMaxAttempts) with
  | .ok _ => return none
  | .error _ => return some .publishFailed

/-- How the request ends when a stage failed. -/
def failAsync (failure : AsyncFailure) : Throwing ρ Answer (FinalizeAsyncResult U) := do
  writeAsyncFailure input deps failure
  return .error failure.toError

/-- A computation that may throw, in a call. -/
def throwing {α : Type} : JsM α → Throwing ρ Answer α
  | .ok a => return a
  | .error e => throw e

/-- The stages after a successful upload. -/
def enqueue (finalizationState : FinalizationState U) (zkvmInputCommitment : JsString) :
    Throwing ρ Answer (FinalizeAsyncResult U) := do
  let scenarios ← throwing (input.scenarios.mapM toScenarioCode)
  match ← publishWorkItem input deps (toWorkItem input zkvmInputCommitment scenarios) with
  | some failure => failAsync input deps failure
  | none => return .ok ⟨⟨input.finalizationId, finalizationState⟩, finalizationState⟩

/-- The stages after the attempt was stored as pending. -/
def startAsync (finalizationState : FinalizationState U) :
    Throwing ρ Answer (FinalizeAsyncResult U) := do
  let zkvmInputCommitment ← throwing (deps.computeCommitment input.zkvmInput)
  match ← uploadInput input deps with
  | some failure => failAsync input deps failure
  | none => enqueue input deps finalizationState zkvmInputCommitment

def finalizeAsync : Throwing ρ Answer (FinalizeAsyncResult U) := do
  match ← attempt (deps.markFinalizationQueued input.sessionId (queuedPayload input)) with
  | .error _ => return .error ⟨js "INTERNAL_ERROR", js "Failed to update session finalization state"⟩
  | .ok finalizationRecord =>
    let finalizationState := finalizationRecord.state
    if finalizationState.status ≠ .pending ∨ finalizationState.finalizationId ≠ input.finalizationId then
      return .ok ⟨⟨finalizationState.finalizationId, finalizationState⟩, finalizationState⟩
    else startAsync input deps finalizationState

end Request

end StarkBallot.Application
