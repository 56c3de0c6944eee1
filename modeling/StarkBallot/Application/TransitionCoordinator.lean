import StarkBallot.Schemes.Async
import StarkBallot.Application.TransitionPolicy

/-! One transition against a revisioned store
    (`application/src/finalize/finalization-transition-coordinator.ts`,
    `finalization-transition-persistence.ts`): load, evaluate, apply on the loaded revision, and start
    again when the store says the revision is stale, a bounded number of times. The store is a port: its
    two calls are asynchronous programs over requests of its own, its revisions are values of its own.
    Error values are left out. -/

namespace StarkBallot.Application
open Schemes

variable {U V : Type}

/-! ### The port -/

structure LoadedFinalizationLifecycle (U V : Type) where
  currentRecord : Option (FinalizationRecord U)
  revision : V

inductive FinalizationLifecycleLoadResult (U V : Type) where
  | loaded (lifecycle : LoadedFinalizationLifecycle U V)
  | missing
  | invalidRecord
  | persistenceFailure

inductive FinalizationLifecycleApplyResult (U V : Type) where
  | applied (lifecycle : LoadedFinalizationLifecycle U V)
  | alreadyApplied (lifecycle : LoadedFinalizationLifecycle U V)
  | stale (lifecycle : LoadedFinalizationLifecycle U V)
  | missing
  | invalidRecord
  | persistenceFailure

structure LifecycleMutation (U V : Type) where
  sessionId : JsString
  finalizationId : JsString
  expectedRevision : V
  nextRecord : FinalizationRecord U

structure FinalizationLifecyclePersistencePort (ρ : Type) (Answer : ρ → Type) (U V : Type) where
  loadFinalizationLifecycle : JsString → JsString → Async ρ Answer (FinalizationLifecycleLoadResult U V)
  applyFinalizationLifecycleMutation :
    LifecycleMutation U V → Async ρ Answer (FinalizationLifecycleApplyResult U V)

/-! ### The coordinator -/

inductive Stage where
  | load
  | apply
  deriving DecidableEq

inductive AlreadyAppliedSource where
  | policy
  | persistence
  deriving DecidableEq

inductive FinalizationTransitionCoordinationResult (U V : Type) where
  | applied (lifecycle : LoadedFinalizationLifecycle U V) (outcome : FinalizationTransitionOutcome U)
      (staleConflicts : ℕ)
  | alreadyApplied (source : AlreadyAppliedSource) (lifecycle : LoadedFinalizationLifecycle U V)
      (outcome : FinalizationTransitionOutcome U) (staleConflicts : ℕ)
  | rejected (lifecycle : LoadedFinalizationLifecycle U V) (outcome : FinalizationTransitionOutcome U)
      (staleConflicts : ℕ)
  | invalid (lifecycle : LoadedFinalizationLifecycle U V) (outcome : FinalizationTransitionOutcome U)
      (staleConflicts : ℕ)
  | stale (lifecycle : LoadedFinalizationLifecycle U V) (outcome : FinalizationTransitionOutcome U)
      (staleConflicts : ℕ)
  | missing (stage : Stage) (staleConflicts : ℕ)
  | persistenceFailure (stage : Stage) (staleConflicts : ℕ)
  | invalidRecord (stage : Stage) (staleConflicts : ℕ)

structure CoordinateFinalizationTransitionInput (U : Type) where
  command : FinalizationTransitionCommand U
  evaluatedAtMs : Num
  staleRetryLimit : Fin 4 := 1

section Coordinator

variable {ρ : Type} {Answer : ρ → Type} (port : FinalizationLifecyclePersistencePort ρ Answer U V)
  (input : CoordinateFinalizationTransitionInput U)

/-- What follows the store's answer to an apply; `again` is the loop, if another
    stale conflict is allowed. -/
def afterApply (outcome : FinalizationTransitionOutcome U) (staleConflicts : ℕ)
    (again : Option (Async ρ Answer (FinalizationTransitionCoordinationResult U V))) :
    FinalizationLifecycleApplyResult U V → Async ρ Answer (FinalizationTransitionCoordinationResult U V)
  | .applied lifecycle => return .applied lifecycle outcome staleConflicts
  | .alreadyApplied lifecycle => return .alreadyApplied .persistence lifecycle outcome staleConflicts
  | .missing => return .missing .apply staleConflicts
  | .invalidRecord => return .invalidRecord .apply staleConflicts
  | .persistenceFailure => return .persistenceFailure .apply staleConflicts
  | .stale lifecycle =>
    match again with
    | some again => again
    | none => return .stale lifecycle outcome (staleConflicts + 1)

/-- What follows a load. -/
def afterLoad (staleConflicts : ℕ)
    (again : Option (Async ρ Answer (FinalizationTransitionCoordinationResult U V))) :
    FinalizationLifecycleLoadResult U V → Async ρ Answer (FinalizationTransitionCoordinationResult U V)
  | .missing => return .missing .load staleConflicts
  | .invalidRecord => return .invalidRecord .load staleConflicts
  | .persistenceFailure => return .persistenceFailure .load staleConflicts
  | .loaded lifecycle =>
    let outcome :=
      evaluateFinalizationTransition lifecycle.currentRecord input.command input.evaluatedAtMs
    match outcome with
    | .idempotent .. => return .alreadyApplied .policy lifecycle outcome staleConflicts
    | .rejected .. => return .rejected lifecycle outcome staleConflicts
    | .invalid .. => return .invalid lifecycle outcome staleConflicts
    | .applied _ _ nextRecord => do
      let applyResult ← port.applyFinalizationLifecycleMutation
        ⟨input.command.sessionId, input.command.finalizationId, lifecycle.revision, nextRecord⟩
      afterApply outcome staleConflicts again applyResult

/-- The loop, with `left` more stale conflicts allowed. -/
def coordinateFrom (staleConflicts : ℕ) :
    (left : ℕ) → Async ρ Answer (FinalizationTransitionCoordinationResult U V)
  | 0 => do
    let loadResult ← port.loadFinalizationLifecycle input.command.sessionId input.command.finalizationId
    afterLoad port input staleConflicts none loadResult
  | left + 1 => do
    let loadResult ← port.loadFinalizationLifecycle input.command.sessionId input.command.finalizationId
    afterLoad port input staleConflicts (some (coordinateFrom (staleConflicts + 1) left)) loadResult

def coordinateFinalizationTransition : Async ρ Answer (FinalizationTransitionCoordinationResult U V) :=
  coordinateFrom port input 0 input.staleRetryLimit

end Coordinator

end StarkBallot.Application
