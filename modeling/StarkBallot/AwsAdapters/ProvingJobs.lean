import StarkBallot.Application.FinalizeAsync
import StarkBallot.AwsAdapters.LifecycleSafety

/-! Proving jobs of one session (`aws-adapters/src/store/dynamoSessionStore.ts`,
    `application/src/finalize/usecases/finalize-async.ts`). Requests to finalize the session run beside
    each other and beside transitions of any kind; all of them go through the revisioned lifecycle. What
    a request stores is marked with what it is for: to queue its attempt, or to record a failure.

        call a   queue a ✓ pending a ──────── publish a ✓
        call b        queue b ✗ rejected: pending a ── ok, a
        worker                       start a ✓ ─────────────────── succeed a ✓

    All records are of one attempt, so at most one call sees its own attempt pending and goes on. -/

namespace StarkBallot.AwsAdapters
open Schemes Domain Application ZkvmContract

variable {U : Type} {sessionId : JsString}

/-! ### The lifecycle store -/

def invalidReasonText : InvalidFinalizationTransitionReason → String
  | .invalidEvaluationTime => "invalid_evaluation_time"
  | .invalidSessionId => "invalid_session_id"
  | .invalidFinalizationId => "invalid_finalization_id"
  | .invalidTimestamp => "invalid_timestamp"
  | .invalidError => "invalid_error"
  | .invalidFinalizationResult => "invalid_finalization_result"
  | .invalidScenarioContext => "invalid_scenario_context"

def outcomeReasonText : FinalizationTransitionOutcome U → String
  | .applied _ reason _ => finalizationReasonText reason
  | .idempotent _ reason => finalizationReasonText reason
  | .rejected _ reason => finalizationReasonText reason
  | .invalid _ reason => invalidReasonText reason

def requireCoordinatedRecord (record : Option (FinalizationRecord U)) (message : String) :
    JsM (FinalizationRecord U) :=
  match record with
  | none => .error (.error message)
  | some record => .ok record

def resolveCoordinatedRecord : FinalizationTransitionCoordinationResult U EncodedLifecycleRevision →
    JsM (FinalizationRecord U)
  | .applied lifecycle outcome _ => requireCoordinatedRecord lifecycle.currentRecord
      ("Finalization transition was not applied: " ++ outcomeReasonText outcome)
  | .alreadyApplied _ lifecycle outcome _ => requireCoordinatedRecord lifecycle.currentRecord
      ("Finalization transition was not applied: " ++ outcomeReasonText outcome)
  | .rejected lifecycle outcome _ => requireCoordinatedRecord lifecycle.currentRecord
      ("Finalization transition was not applied: " ++ outcomeReasonText outcome)
  | .invalid _ outcome _ =>
      .error (.error ("Invalid finalization transition: " ++ outcomeReasonText outcome))
  | .missing _ _ => .error (.error "Session not found")
  | .stale lifecycle _ _ =>
    requireCoordinatedRecord lifecycle.currentRecord "Finalization lifecycle changed concurrently"
  | .invalidRecord _ _ => .error (.error "Invalid persisted finalization record")
  | .persistenceFailure _ _ => .error (.error "Failed to persist finalization transition")

theorem resolveCoordinatedRecord_eq_ok
    {result : FinalizationTransitionCoordinationResult U EncodedLifecycleRevision}
    {record : FinalizationRecord U} (h : resolveCoordinatedRecord result = .ok record) :
    ∃ lifecycle, coordinatedLifecycle result = some lifecycle ∧
    lifecycle.currentRecord = some record := by
  have hrequire : ∀ current message, requireCoordinatedRecord current message = .ok record →
      current = some record := by
    intro current message hcurrent
    cases current with
    | none => cases hcurrent
    | some record' => rw [Except.ok.inj hcurrent]
  cases result with
  | applied lifecycle => exact ⟨lifecycle, rfl, hrequire _ _ h⟩
  | alreadyApplied _ lifecycle => exact ⟨lifecycle, rfl, hrequire _ _ h⟩
  | rejected lifecycle => exact ⟨lifecycle, rfl, hrequire _ _ h⟩
  | stale lifecycle => exact ⟨lifecycle, rfl, hrequire _ _ h⟩
  | invalid lifecycle => cases h
  | missing => cases h
  | invalidRecord => cases h
  | persistenceFailure => cases h

/-! ### Requests -/

/-- What a stored record is for: a transition, or the failure of a request to finalize, by its code. -/
inductive Purpose where
  | transition
  | failure (code : JsString)
  deriving DecidableEq

inductive JobRequest (U : Type) where
  | lifecycle (purpose : Purpose) (request : StoreRequest U)
  | persistAsyncProverInput (input : PersistAsyncProverInput)
  | publish (message : FinalizationWorkItem) (maxAttempts : Num)

@[reducible] def JobRequest.Answer : JobRequest U → Type
  | .lifecycle _ request => request.Answer
  | .persistAsyncProverInput _ => Except JsError Unit
  | .publish _ _ => Except JsError Unit

abbrev Job (U : Type) := Throwing (JobRequest U) JobRequest.Answer

/-- A request that a service answers or fails. -/
def settle (r : JobRequest U) (answer : r.Answer → Except JsError Unit) : Job U Unit := do
  throwing (answer (← ask r))

def persistAsyncProverInput (input : PersistAsyncProverInput) : Job U Unit :=
  settle (.persistAsyncProverInput input) fun answer => answer

def publish (message : FinalizationWorkItem) (maxAttempts : Num) : Job U Unit :=
  settle (.publish message maxAttempts) fun answer => answer

variable [DecidableEq U]

/-- One transition through the lifecycle, marked with what it is for. -/
def coordinate (purpose : Purpose) (input : CoordinateFinalizationTransitionInput U) :
    Async (JobRequest U) JobRequest.Answer
      (FinalizationTransitionCoordinationResult U EncodedLifecycleRevision) :=
  (coordinateFinalizationTransition lifecyclePersistence input).embed (JobRequest.lifecycle purpose)
    fun _ answer => answer

def applyFinalizationCommand (purpose : Purpose) (input : CoordinateFinalizationTransitionInput U) :
    Job U (FinalizationRecord U) := do
  throwing (resolveCoordinatedRecord (← ExceptT.lift (coordinate purpose input)))

/-! ### Calls -/

/-- A request to finalize the session: its input, whether uploads are configured, and
    the clock when it is read. -/
structure FinalizeCall (sessionId : JsString) where
  input : FinalizeAsyncInput
  sameSession : input.sessionId = sessionId
  computeCommitment : ZkVMInput → JsM JsString
  canPersist : Bool
  queueEvaluatedAtMs : Num
  failedAtMs : Num
  failEvaluatedAtMs : Num

namespace FinalizeCall

variable (call : FinalizeCall sessionId)

/-- The store retries a transition twice. -/
def queueInput (sessionId : JsString) (payload : FinalizationQueuedPayload) :
    CoordinateFinalizationTransitionInput U :=
  ⟨buildQueueCommand sessionId payload, call.queueEvaluatedAtMs, ⟨2, by decide⟩⟩

def failInput (sessionId : JsString) (payload : FinalizationFailedPayload U) :
    CoordinateFinalizationTransitionInput U :=
  ⟨buildFailCommand sessionId payload, call.failEvaluatedAtMs, ⟨2, by decide⟩⟩

def dependencies : FinalizeAsyncDependencies (JobRequest U) JobRequest.Answer U where
  markFinalizationQueued sessionId payload :=
    applyFinalizationCommand .transition (call.queueInput sessionId payload)
  markFinalizationFailed sessionId payload :=
    applyFinalizationCommand (.failure payload.error.code) (call.failInput sessionId payload)
  publish := publish
  now := call.failedAtMs
  computeCommitment := call.computeCommitment
  persistAsyncProverInput := if call.canPersist then some persistAsyncProverInput else none

/-- The failure that has a code. -/
def failureOf (code : JsString) : AsyncFailure :=
  if code = AsyncFailure.uploadFailed.codeText then .uploadFailed
  else if code = AsyncFailure.publishFailed.codeText then .publishFailed
  else .persistenceUnavailable

theorem failureOf_codeText (failure : AsyncFailure) : failureOf failure.codeText = failure := by
  cases failure <;> decide

/-- The transitions that the call asks the store for. -/
def client : Purpose → Client U sessionId
  | .transition => ⟨call.queueInput call.input.sessionId (queuedPayload call.input), call.sameSession⟩
  | .failure code =>
    ⟨call.failInput call.input.sessionId (failedPayload call.input call.failedAtMs (failureOf code)),
      call.sameSession⟩

end FinalizeCall

/-- What runs beside each other: requests to finalize the session, and other
    transitions of its lifecycle. -/
inductive Caller (U : Type) (sessionId : JsString) where
  | finalizeAsync (call : FinalizeCall sessionId)
  | transition (client : Client U sessionId)

def Caller.client : Caller U sessionId → Purpose → Client U sessionId
  | .finalizeAsync call => call.client
  | .transition client => fun _ => client

/-- How a caller's program ends. -/
inductive CallResult (U : Type) where
  | finalized (result : JsM (FinalizeAsyncResult U))
  | transitioned (result : FinalizationTransitionCoordinationResult U EncodedLifecycleRevision)

def Caller.program : Caller U sessionId → Async (JobRequest U) JobRequest.Answer (CallResult U)
  | .finalizeAsync call => do
    let result ← (Application.finalizeAsync call.input call.dependencies).run
    return .finalized result
  | .transition client => do
    let result ← coordinate .transition client.toCoordinateFinalizationTransitionInput
    return .transitioned result

/-! ### The system -/

section System

variable {ι : Type}

/-- The lifecycle, and the messages that reached the queue with who sent them. -/
structure JobBoard (ι U : Type) where
  ledger : Ledger (ι × Purpose) U
  published : List (ι × FinalizationWorkItem)

/-- The answer of a remote service: a request that is lost has arrived, its answer has not. -/
def remoteAnswer (fate : Fate) : Except JsError Unit :=
  if fate = .served then .ok () else .error (.error "Request failed")

def serveJob (c : ι) (fate : Fate) : (r : JobRequest U) → JobBoard ι U → r.Answer × JobBoard ι U
  | .lifecycle purpose request, board =>
    let served := serve (c, purpose) fate request board.ledger
    (served.1, { board with ledger := served.2 })
  | .persistAsyncProverInput _, board => (remoteAnswer fate, board)
  | .publish message _,
      board => (remoteAnswer fate, { board with published := board.published ++ [(c, message)] })

variable [DecidableEq ι] (callers : ι → Caller U sessionId)

def initialJobs : Concurrent ι (JobBoard ι U) (JobRequest U) JobRequest.Answer (CallResult U) where
  shared := ⟨⟨⟨none, fun _ => none⟩, []⟩, []⟩
  programs c := (callers c).program

def runCallers (schedule : List (ι × Fate)) :
    Concurrent ι (JobBoard ι U) (JobRequest U) JobRequest.Answer (CallResult U) :=
  runSchedule serveJob (initialJobs callers) schedule

/-- What a request to finalize returned, once it has. -/
def finalizeResult : Async (JobRequest U) JobRequest.Answer (CallResult U) →
    Option (FinalizeAsyncResult U)
  | .done (.finalized (.ok result)) => some result
  | _ => none

end System

end StarkBallot.AwsAdapters
