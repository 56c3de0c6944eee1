import StarkBallot.Application.ReconcileFinalization
import StarkBallot.AwsAdapters.ProvingJobs

/-! Reconciliations of one session beside its other transitions
    (`application/src/finalize/reconcile-finalization.ts` over
    `aws-adapters/src/store/dynamoSessionStore.ts`). A run's own reads of the store are marked with
    nothing; what it asks the store to write is marked with the whole call, so a stored record tells by
    whose call it came.

        run r       read pending ── observe missing ─────────────── load running ── fail ✓
        worker w                                      start ✓

    What an execution is seen to do is up to the schedule. -/

namespace StarkBallot.AwsAdapters
open Schemes Application

variable {U : Type} {sessionId : JsString}

/-! ### Requests -/

inductive ReconcileRequest (U : Type) where
  | store (call : Option (CoordinateFinalizationTransitionInput U)) (request : StoreRequest U)
  | observeExecution (finalizationId : JsString)

@[reducible] def ReconcileRequest.Answer : ReconcileRequest U → Type
  | .store _ request => request.Answer
  | .observeExecution _ => Except JsError FinalizationExecutionObservation

abbrev Reconciling (U : Type) := Throwing (ReconcileRequest U) ReconcileRequest.Answer

/-- A program of the store that is part of a call, or of none. -/
def forCall {α : Type} (call : Option (CoordinateFinalizationTransitionInput U)) (program : Store U α) :
    Async (ReconcileRequest U) ReconcileRequest.Answer α :=
  program.embed (ReconcileRequest.store call) fun _ answer => answer

def currentRecordOf : FinalizationLifecycleLoadResult U EncodedLifecycleRevision →
    JsM (Option (FinalizationRecord U))
  | .missing => .ok none
  | .loaded lifecycle => .ok lifecycle.currentRecord
  | _ => .error (.error "Failed to load current finalization record")

def getCurrentFinalizationRecord (sessionId : JsString) :
    Reconciling U (Option (FinalizationRecord U)) := do
  throwing (currentRecordOf (← ExceptT.lift (forCall none (loadFinalizationLifecycle sessionId))))

variable [DecidableEq U]

def coordinateMarked (call : CoordinateFinalizationTransitionInput U) :
    Async (ReconcileRequest U) ReconcileRequest.Answer
      (FinalizationTransitionCoordinationResult U EncodedLifecycleRevision) :=
  forCall (some call) (coordinateFinalizationTransition lifecyclePersistence call)

def markFinalization (call : CoordinateFinalizationTransitionInput U) :
    Reconciling U (FinalizationRecord U) := do
  throwing (resolveCoordinatedRecord (← ExceptT.lift (coordinateMarked call)))

def observeExecution (finalizationId : JsString) : Reconciling U FinalizationExecutionObservation := do
  throwing (← ask (.observeExecution finalizationId))

/-! ### Callers -/

/-- A run of the reconciliation, and the store's clock when it comes to write. -/
structure ReconcileRun (sessionId : JsString) where
  input : ReconciliationInput
  sameSession : input.sessionId = sessionId
  evaluatedAtMs : Num

theorem two_retries : 2 < 4 := by decide

namespace ReconcileRun

variable (run : ReconcileRun sessionId)

omit [DecidableEq U] in
/-- The store retries a transition twice. -/
def outcomeCall (sessionId : JsString) : ReconciledOutcome U → CoordinateFinalizationTransitionInput U
  | .timedOut payload => ⟨buildTimeOutCommand sessionId payload, run.evaluatedAtMs, ⟨2, two_retries⟩⟩
  | .failed payload => ⟨buildFailCommand sessionId payload, run.evaluatedAtMs, ⟨2, two_retries⟩⟩

def ports : FinalizationReconciliationPorts (ReconcileRequest U) ReconcileRequest.Answer U where
  getCurrentFinalizationRecord := getCurrentFinalizationRecord
  markFinalizationFailed sessionId payload :=
    markFinalization (run.outcomeCall sessionId (.failed payload))
  markFinalizationTimedOut sessionId payload :=
    markFinalization (run.outcomeCall sessionId (.timedOut payload))
  observeExecution _ finalizationId := observeExecution finalizationId

end ReconcileRun

inductive LifecycleCaller (U : Type) (sessionId : JsString) where
  | reconcile (run : ReconcileRun sessionId)
  | transition (client : Client U sessionId)

inductive LifecycleResult (U : Type) where
  | reconciled (result : JsM Unit)
  | transitioned (result : FinalizationTransitionCoordinationResult U EncodedLifecycleRevision)

def ReconcileRun.program (run : ReconcileRun sessionId) :
    Async (ReconcileRequest U) ReconcileRequest.Answer (LifecycleResult U) := do
  let result ← (reconcileFinalization run.input run.ports).run
  return .reconciled result

def LifecycleCaller.program : LifecycleCaller U sessionId →
    Async (ReconcileRequest U) ReconcileRequest.Answer (LifecycleResult U)
  | .reconcile run => run.program
  | .transition client => do
    let result ← coordinateMarked client.toCoordinateFinalizationTransitionInput
    return .transitioned result

/-! ### The system -/

section System

variable {ι : Type}

/-- How a request fares, and what an execution is seen to do. -/
structure Turn where
  fate : Fate
  execution : Except JsError FinalizationExecutionObservation

/-- Who stored a record: the caller and its call. -/
abbrev Author (ι U : Type) := ι × Option (CoordinateFinalizationTransitionInput U)

omit [DecidableEq U] in
def serveReconcile (c : ι) (turn : Turn) :
    (r : ReconcileRequest U) → Ledger (Author ι U) U → r.Answer × Ledger (Author ι U) U
  | .store call request, ledger => serve (c, call) turn.fate request ledger
  | .observeExecution _, ledger => (turn.execution, ledger)

variable [DecidableEq ι] (callers : ι → LifecycleCaller U sessionId)

abbrev LifecycleSystem (ι U : Type) :=
  Concurrent ι (Ledger (Author ι U) U) (ReconcileRequest U) ReconcileRequest.Answer (LifecycleResult U)

def initialLifecycle : LifecycleSystem ι U where
  shared := ⟨⟨none, fun _ => none⟩, []⟩
  programs c := (callers c).program

def runLifecycle (schedule : List (ι × Turn)) : LifecycleSystem ι U :=
  runSchedule serveReconcile (initialLifecycle callers) schedule

end System

/-! ### A worker and a run -/

inductive Actor where
  | queue
  | worker
  | run
  deriving DecidableEq

/-- A run of the given time, for the attempt that was queued at time one. -/
def runAt (nowMs dispatchDeadlineMs : ℕ) : ReconcileRun (js "s") where
  input := ⟨js "s", js "f", Num.ofNat nowMs, Num.ofNat dispatchDeadlineMs⟩
  sameSession := rfl
  evaluatedAtMs := Num.ofNat nowMs

def actorsWith (run : ReconcileRun (js "s")) : Actor → LifecycleCaller Empty (js "s")
  | .queue => .transition (sampleClient .queue)
  | .worker => .transition (sampleClient (.start (Num.ofNat 2)))
  | .run => .reconcile run

/-- A quarter of an hour after the attempt was queued. -/
def sampleActors : Actor → LifecycleCaller Empty (js "s") := actorsWith (runAt 901001 900000)

/-- All requests are served, and no execution is seen. -/
def unseen (actors : List Actor) : List (Actor × Turn) := actors.map (·, ⟨.served, .ok .missing⟩)

end StarkBallot.AwsAdapters
