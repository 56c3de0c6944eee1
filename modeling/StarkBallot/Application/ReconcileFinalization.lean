import StarkBallot.Application.FinalizeAsync

/-! Reconciliation of an attempt that nobody reports about
    (`application/src/finalize/reconcile-finalization.ts`). A run reads the current record, asks how the
    execution of the attempt fares, and records a failure or a timeout if the execution is over or never
    began. What it writes is decided by what it read first.

      read ── open, a minute old ──▶ observe ── missing or stopped ──▶ fail / time out ✓
        │ otherwise                     │ otherwise                        ✗ read ── still open ──▶ error
        ▼                               ▼                                     └── otherwise ──▶ done
       done                            done

    Store and execution service are programs that the run is given. Events and log lines are left out. -/

namespace StarkBallot.Application
open Schemes

variable {U : Type} {ρ : Type} {Answer : ρ → Type}

inductive StoppedExecutionStatus where
  | succeeded | failed | timedOut | aborted
  deriving DecidableEq

def StoppedExecutionStatus.text : StoppedExecutionStatus → String
  | .succeeded => "succeeded"
  | .failed => "failed"
  | .timedOut => "timed_out"
  | .aborted => "aborted"

inductive FinalizationExecutionObservation where
  | missing
  | running
  | stopped (status : StoppedExecutionStatus) (stoppedAtMs : Num)
  deriving DecidableEq

structure FinalizationTimedOutPayload where
  finalizationId : JsString
  queuedAtMs : Num
  startedAtMs : Option Num
  timeoutAtMs : Num
  scenarioContext : Option FinalizationScenarioContext
  reason : Option FinalizationEventReason

/-- `buildFinalizationCommand` for a timed-out payload. -/
def buildTimeOutCommand (sessionId : JsString) (payload : FinalizationTimedOutPayload) :
    FinalizationTransitionCommand U where
  sessionId := sessionId
  finalizationId := payload.finalizationId
  queuedAtMs := payload.queuedAtMs
  scenarioContext := payload.scenarioContext
  reason := payload.reason
  body := .timeOut payload.startedAtMs payload.timeoutAtMs

structure FinalizationReconciliationPorts (ρ : Type) (Answer : ρ → Type) (U : Type) where
  getCurrentFinalizationRecord : JsString → Throwing ρ Answer (Option (FinalizationRecord U))
  markFinalizationFailed :
    JsString → FinalizationFailedPayload U → Throwing ρ Answer (FinalizationRecord U)
  markFinalizationTimedOut :
    JsString → FinalizationTimedOutPayload → Throwing ρ Answer (FinalizationRecord U)
  observeExecution : JsString → JsString → Throwing ρ Answer FinalizationExecutionObservation

structure ReconciliationInput where
  sessionId : JsString
  finalizationId : JsString
  nowMs : Num
  dispatchDeadlineMs : Num

/-! ### Decisions -/

inductive ActiveFinalizationState where
  | pending (queuedAtMs : Num)
  | running (queuedAtMs startedAtMs : Num)
  deriving DecidableEq

namespace ActiveFinalizationState

def queuedAtMs : ActiveFinalizationState → Num
  | pending queuedAtMs => queuedAtMs
  | running queuedAtMs _ => queuedAtMs

def startedAtMs : ActiveFinalizationState → Option Num
  | pending _ => none
  | running _ startedAtMs => some startedAtMs

def isPending : ActiveFinalizationState → Bool
  | pending _ => true
  | running _ _ => false

end ActiveFinalizationState

def activeFinalizationState : FinalizationState U → Option ActiveFinalizationState
  | .pending _ queuedAtMs => some (.pending queuedAtMs)
  | .running _ queuedAtMs startedAtMs => some (.running queuedAtMs startedAtMs)
  | _ => none

/-- `isCurrentUnfinishedFinalization`, with the state it finds. -/
def currentUnfinishedFinalization (record : Option (FinalizationRecord U)) (finalizationId : JsString) :
    Option ActiveFinalizationState :=
  record.bind fun record =>
    if record.finalizationId = finalizationId then activeFinalizationState record.state else none

/-- The direct writer has a minute to finish. -/
def writerGraceMs : Num := Num.ofNat 60000

def shouldReconcileExecution (state : ActiveFinalizationState)
    (execution : FinalizationExecutionObservation) (nowMs dispatchDeadlineMs : Num) : Bool :=
  match execution with
  | .running => false
  | .missing => state.isPending && !(nowMs.sub state.queuedAtMs).le dispatchDeadlineMs
  | .stopped _ stoppedAtMs => !(nowMs.sub stoppedAtMs).lt writerGraceMs

/-- An execution that is running is never written about. -/
def resolveReconciliationFailureReason (state : ActiveFinalizationState) :
    FinalizationExecutionObservation → FinalizationEventReason
  | .missing => .finalizationDispatchTimeout
  | .running => if state.isPending then .finalizationOutcomeUnrecorded else .proverExecutionAborted
  | .stopped status _ =>
    if state.isPending ∨ status = .succeeded ∨ status = .timedOut then .finalizationOutcomeUnrecorded
    else if status = .failed then .proverExecutionFailed
    else .proverExecutionAborted

def reconciliationMessage : FinalizationExecutionObservation → String
  | .missing => "Finalization dispatch did not start before its deadline."
  | .running => "Finalization execution running without a recorded outcome."
  | .stopped status _ => "Finalization execution " ++ status.text ++ " without a recorded outcome."

/-- When the attempt ended, as far as the run can tell. -/
def reconciledAtMs (nowMs : Num) : FinalizationExecutionObservation → Num
  | .stopped _ stoppedAtMs => stoppedAtMs
  | _ => nowMs

/-- What a run asks the store for. -/
inductive ReconciledOutcome (U : Type) where
  | timedOut (payload : FinalizationTimedOutPayload)
  | failed (payload : FinalizationFailedPayload U)

section Run

variable (input : ReconciliationInput) (ports : FinalizationReconciliationPorts ρ Answer U)

def reconciledTimeout (queuedAtMs startedAtMs stoppedAtMs : Num) : FinalizationTimedOutPayload where
  finalizationId := input.finalizationId
  queuedAtMs := queuedAtMs
  startedAtMs := some startedAtMs
  timeoutAtMs := stoppedAtMs
  scenarioContext := none
  reason := some .executionTimedOut

def reconciledFailure (state : ActiveFinalizationState) (execution : FinalizationExecutionObservation) :
    FinalizationFailedPayload U where
  finalizationId := input.finalizationId
  queuedAtMs := state.queuedAtMs
  startedAtMs := state.startedAtMs
  failedAtMs := reconciledAtMs input.nowMs execution
  scenarioContext := none
  error := ⟨js (finalizationReasonText (resolveReconciliationFailureReason state execution)),
    js (reconciliationMessage execution), none, none, []⟩
  reason := some (resolveReconciliationFailureReason state execution)

def reconciledOutcome (state : ActiveFinalizationState) (execution : FinalizationExecutionObservation) :
    ReconciledOutcome U :=
  match execution, state with
  | .stopped .timedOut stoppedAtMs, .running queuedAtMs startedAtMs =>
    .timedOut (reconciledTimeout input queuedAtMs startedAtMs stoppedAtMs)
  | _, _ => .failed (reconciledFailure input state execution)

def writeReconciledOutcome (state : ActiveFinalizationState)
    (execution : FinalizationExecutionObservation) :
    Throwing ρ Answer Unit := do
  match reconciledOutcome input state execution with
  | .timedOut payload => let _ ← ports.markFinalizationTimedOut input.sessionId payload
  | .failed payload => let _ ← ports.markFinalizationFailed input.sessionId payload

/-- An error counts only if the attempt is still open: someone else may have written first. -/
def rereadAfter (error : JsError) : Throwing ρ Answer Unit := do
  let latest ← ports.getCurrentFinalizationRecord input.sessionId
  match currentUnfinishedFinalization latest input.finalizationId with
  | none => return
  | some _ => throw error

/-- The run from its observation on. -/
def reconcileExecution (state : ActiveFinalizationState) (execution : FinalizationExecutionObservation) :
    Throwing ρ Answer Unit :=
  if ¬ shouldReconcileExecution state execution input.nowMs input.dispatchDeadlineMs then return
  else do
    match ← attempt (writeReconciledOutcome input ports state execution) with
    | .ok _ => return
    | .error error => rereadAfter input ports error

def reconcileFinalization : Throwing ρ Answer Unit := do
  let current ← ports.getCurrentFinalizationRecord input.sessionId
  match currentUnfinishedFinalization current input.finalizationId with
  | none => return
  | some state =>
    if (input.nowMs.sub state.queuedAtMs).lt writerGraceMs then return
    else do
      let execution ← ports.observeExecution input.sessionId input.finalizationId
      reconcileExecution input ports state execution

end Run

end StarkBallot.Application
