import StarkBallot.Application.TransitionCoordinator

/-! The lifecycle of one session in the store (`aws-adapters/src/store/dynamoSessionStore.ts`,
    `dynamo-records.ts`). Two kinds of items hold it: a pointer to the current attempt and one item for
    each attempt, each with a revision. A load reads the pointer and then, as a second request, the item
    it points to; an apply is one transaction that writes both under conditions on both. Clients run
    beside each other and a schedule says whose request is served next and how it fares.

        client A   identity ── pointer ── record ──────── transaction ✓
        client B        identity ── pointer ── record ─────────── transaction ✗ ── reload ── stale ── …

    The conditions compare revisions, so what a client saw is what its record replaces: the records
    written form a run of the policy. No item expires. -/

namespace StarkBallot.AwsAdapters
open Schemes Domain Application

variable {U : Type}

/-! ### Items -/

structure EncodedLifecycleRevision where
  currentFinalizationId : Option JsString
  revision : ℕ
  deriving DecidableEq

structure CurrentFinalizationItem where
  currentFinalizationId : JsString
  revision : ℕ
  deriving DecidableEq

/-- The record of an attempt, as stored or as parsed. -/
structure FinalizationItemOf (R : Type) where
  record : R
  revision : ℕ

/-- The lifecycle items of one session; those of attempts by their identifier. -/
structure SessionItems (U : Type) where
  current : Option CurrentFinalizationItem
  finalizations : JsString → Option (FinalizationItemOf (PersistedFinalizationRecord U))

def isPositiveSafeInteger (value : ℕ) : Bool := value ≤ Num.maxSafeInteger && 0 < value

def parseFinalizationId : JsString → Option JsString := accept isSafeVerifierSegment

def parseCurrentFinalizationItem (item : CurrentFinalizationItem) : Option CurrentFinalizationItem := do
  if ¬ isPositiveSafeInteger item.revision then none
  else return { item with currentFinalizationId := ← parseFinalizationId item.currentFinalizationId }

def parseFinalizationItem (expectedSessionId expectedFinalizationId : JsString)
    (item : FinalizationItemOf (PersistedFinalizationRecord U)) :
    Option (FinalizationItemOf (FinalizationRecord U)) := do
  if ¬ isPositiveSafeInteger item.revision then none
  else
    let record ← decodeFinalizationRecord item.record
    if record.sessionId ≠ expectedSessionId ∨ record.finalizationId ≠ expectedFinalizationId then none
    else return ⟨record, item.revision⟩

/-- A revision is handed out as a text and read back. -/
def decodeLifecycleRevision (value : EncodedLifecycleRevision) : Option EncodedLifecycleRevision := do
  if Num.maxSafeInteger < value.revision then none
  else return { value with
    currentFinalizationId := ← ifPresent parseFinalizationId value.currentFinalizationId }

/-! ### Requests -/

/-- Both items of the transaction that applies a mutation. -/
structure LifecycleWrite (U : Type) where
  expected : EncodedLifecycleRevision
  finalizationId : JsString
  nextRecord : FinalizationRecord U
  stored : PersistedFinalizationRecord U

/-- The conditions on the pointer and on the item of the attempt. -/
def LifecycleWrite.conditionsHold (write : LifecycleWrite U) (items : SessionItems U) : Bool :=
  match write.expected.currentFinalizationId with
  | none => items.current.isNone && (items.finalizations write.finalizationId).isNone
  | some expectedFinalizationId =>
    items.current.any (fun item =>
      item.revision = write.expected.revision && item.currentFinalizationId = expectedFinalizationId) &&
    (items.finalizations write.finalizationId).any fun item => item.revision = write.expected.revision

def SessionItems.put (items : SessionItems U) (write : LifecycleWrite U) : SessionItems U where
  current := some ⟨write.finalizationId, write.expected.revision + 1⟩
  finalizations := Function.update items.finalizations write.finalizationId
    (some ⟨write.stored, write.expected.revision + 1⟩)

inductive StoreRequest (U : Type) where
  | getSessionIdentity
  | getCurrentFinalization
  | getFinalization (finalizationId : JsString)
  | transactWrite (write : LifecycleWrite U)

inductive TransactAnswer where
  | committed
  | conditionalConflict
  | thrown
  deriving DecidableEq

@[reducible] def StoreRequest.Answer : StoreRequest U → Type
  | .getSessionIdentity => Except Unit Bool
  | .getCurrentFinalization => Except Unit (Option CurrentFinalizationItem)
  | .getFinalization _ => Except Unit (Option (FinalizationItemOf (PersistedFinalizationRecord U)))
  | .transactWrite _ => TransactAnswer

abbrev Store (U : Type) := Async (StoreRequest U) StoreRequest.Answer

/-! ### Load and apply -/

section Operations

def getSessionIdentity : Store U (Except Unit Bool) := Async.request StoreRequest.getSessionIdentity

def getCurrentFinalization : Store U (Except Unit (Option CurrentFinalizationItem)) :=
  Async.request StoreRequest.getCurrentFinalization

def getFinalization (finalizationId : JsString) :
    Store U (Except Unit (Option (FinalizationItemOf (PersistedFinalizationRecord U)))) :=
  Async.request (StoreRequest.getFinalization finalizationId)

def writeTransaction (write : LifecycleWrite U) : Store U TransactAnswer :=
  Async.request (StoreRequest.transactWrite write)

def loadFinalizationItem (sessionId : JsString) (pointer : CurrentFinalizationItem) :
    Store U (FinalizationLifecycleLoadResult U EncodedLifecycleRevision) := do
  match ← getFinalization pointer.currentFinalizationId with
  | .error _ => return .persistenceFailure
  | .ok rawRecord =>
    match rawRecord.bind (parseFinalizationItem sessionId pointer.currentFinalizationId) with
    | none => return .invalidRecord
    | some item =>
      if item.revision ≠ pointer.revision then return .invalidRecord
      else return .loaded ⟨some item.record, ⟨some pointer.currentFinalizationId, pointer.revision⟩⟩

def loadCurrentFinalization (sessionId : JsString) :
    Store U (FinalizationLifecycleLoadResult U EncodedLifecycleRevision) := do
  match ← getCurrentFinalization with
  | .error _ => return .persistenceFailure
  | .ok none => return .loaded ⟨none, ⟨none, 0⟩⟩
  | .ok (some rawPointer) =>
    match parseCurrentFinalizationItem rawPointer with
    | none => return .invalidRecord
    | some pointer => loadFinalizationItem sessionId pointer

def loadFinalizationLifecycle (sessionId : JsString) :
    Store U (FinalizationLifecycleLoadResult U EncodedLifecycleRevision) := do
  match ← getSessionIdentity with
  | .error _ => return .persistenceFailure
  | .ok false => return .missing
  | .ok true => loadCurrentFinalization sessionId

def admitLifecycleMutation (input : LifecycleMutation U EncodedLifecycleRevision) :
    Option (EncodedLifecycleRevision × FinalizationRecord U) := do
  let expected ← decodeLifecycleRevision input.expectedRevision
  let nextRecord ← admitFinalizationRecord input.nextRecord
  if nextRecord.sessionId ≠ input.sessionId ∨ nextRecord.finalizationId ≠ input.finalizationId then none
  else return (expected, nextRecord)

variable [DecidableEq U]

/-- After a conflict: was it this very record that someone stored? -/
def resolveConflict (nextRecord : FinalizationRecord U) :
    FinalizationLifecycleLoadResult U EncodedLifecycleRevision →
      FinalizationLifecycleApplyResult U EncodedLifecycleRevision
  | .missing => .missing
  | .invalidRecord => .invalidRecord
  | .persistenceFailure => .persistenceFailure
  | .loaded lifecycle =>
    if lifecycle.currentRecord = some nextRecord then .alreadyApplied lifecycle else .stale lifecycle

def writeLifecycle (sessionId : JsString) (write : LifecycleWrite U) :
    Store U (FinalizationLifecycleApplyResult U EncodedLifecycleRevision) := do
  match ← writeTransaction write with
  | .committed =>
    return .applied ⟨some write.nextRecord, ⟨some write.finalizationId, write.expected.revision + 1⟩⟩
  | .thrown => return .persistenceFailure
  | .conditionalConflict =>
    let reloaded ← loadFinalizationLifecycle sessionId
    return resolveConflict write.nextRecord reloaded

def applyFinalizationLifecycleMutation (input : LifecycleMutation U EncodedLifecycleRevision) :
    Store U (FinalizationLifecycleApplyResult U EncodedLifecycleRevision) :=
  match admitLifecycleMutation input with
  | none => return .invalidRecord
  | some (expected, nextRecord) =>
    match encodeFinalizationRecord nextRecord with
    | none => return .persistenceFailure
    | some stored => writeLifecycle input.sessionId ⟨expected, input.finalizationId, nextRecord, stored⟩

def lifecyclePersistence :
    FinalizationLifecyclePersistencePort (StoreRequest U) StoreRequest.Answer U
      EncodedLifecycleRevision where
  loadFinalizationLifecycle := fun sessionId _ => loadFinalizationLifecycle sessionId
  applyFinalizationLifecycleMutation := applyFinalizationLifecycleMutation

end Operations

/-! ### Clients beside each other -/

/-- How a request fares: it is served, or it fails without an effect; a transaction may also take effect
    with its answer lost, or be refused for a condition on the session's other items. Only the identity
    can be absent. -/
inductive Fate where
  | served
  | failed
  | lost
  | refused
  | absent
  deriving DecidableEq

/-- The items and the records written to them so far, each with its writer. -/
structure Ledger (ι U : Type) where
  items : SessionItems U
  history : List (ι × FinalizationRecord U)

section Serve

variable {ι : Type}

def Ledger.put (ledger : Ledger ι U) (c : ι) (write : LifecycleWrite U) : Ledger ι U :=
  ⟨ledger.items.put write, ledger.history ++ [(c, write.nextRecord)]⟩

/-- A transaction is atomic: both items are written or none. -/
def Ledger.commit (ledger : Ledger ι U) (c : ι) (write : LifecycleWrite U) : Ledger ι U :=
  if write.conditionsHold ledger.items then ledger.put c write else ledger

def serve (c : ι) (fate : Fate) : (r : StoreRequest U) → Ledger ι U → r.Answer × Ledger ι U
  | .getSessionIdentity, ledger => (match fate with
    | .served => .ok true
    | .absent => .ok false
    | _ => .error (), ledger)
  | .getCurrentFinalization,
      ledger => (if fate = .served then .ok ledger.items.current else .error (), ledger)
  | .getFinalization finalizationId, ledger =>
    (if fate = .served then .ok (ledger.items.finalizations finalizationId) else .error (), ledger)
  | .transactWrite write, ledger =>
    match fate with
    | .served =>
      (if write.conditionsHold ledger.items then .committed else .conditionalConflict,
        ledger.commit c write)
    | .lost => (.thrown, ledger.commit c write)
    | .refused => (.conditionalConflict, ledger)
    | _ => (.thrown, ledger)

end Serve

/-- A client's call for the session. -/
structure Client (U : Type) (sessionId : JsString) extends CoordinateFinalizationTransitionInput U where
  sameSession : command.sessionId = sessionId

section System

variable {ι : Type} [DecidableEq ι] [DecidableEq U] {sessionId : JsString}
    (clients : ι → Client U sessionId)

abbrev System (ι U : Type) := Concurrent ι (Ledger ι U) (StoreRequest U) StoreRequest.Answer
  (FinalizationTransitionCoordinationResult U EncodedLifecycleRevision)

/-- Every client before its first request, and a session without a lifecycle. -/
def initialSystem : System ι U where
  shared := ⟨⟨none, fun _ => none⟩, []⟩
  programs :=
    fun c => coordinateFinalizationTransition lifecyclePersistence
      (clients c).toCoordinateFinalizationTransitionInput

/-- The record a client was told is applied. -/
def toldApplied : Store U (FinalizationTransitionCoordinationResult U EncodedLifecycleRevision) →
    Option (FinalizationRecord U)
  | .done (.applied _ (.applied _ _ nextRecord) _) => some nextRecord
  | _ => none

/-- The record the items hold. -/
def storedRecord (items : SessionItems U) : Option (FinalizationRecord U) := do
  let pointer ← items.current
  let item ← items.finalizations pointer.currentFinalizationId
  decodeFinalizationRecord item.record

def runClients (schedule : List (ι × Fate)) : System ι U :=
  runSchedule serve (initialSystem clients) schedule

end System

end StarkBallot.AwsAdapters
