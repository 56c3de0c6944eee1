import StarkBallot.AwsAdapters.SessionTtl
import StarkBallot.Application.BitmapAdmission

/-! Committing a successful finalization (`aws-adapters/src/store/dynamoSessionStore.ts`,
    `successfulFinalizationReplay.ts`,
    `application/src/finalize/successful-finalization-commit-admission.ts`). A round reads the
    lifecycle, the receipt with the counter of the board, the metadata, the bitmap and the verification
    result; then it either finds that the very same success is stored already, or writes everything in
    one transaction.

        lifecycle ── receipt, counter ── metadata ── bitmap | verification ──┬── succeeded: compare, answer again
                                                                             └── open: authority ── transaction

    The reads of the bitmap and of the verification result run side by side; which is
    served first is an argument. -/

namespace StarkBallot.AwsAdapters.Dynamo
open Schemes ContractCore CryptoPrimitives Domain Application

variable {U : Type} (config : StoreConfig)

/-! ### Input and outcome -/

structure SuccessfulFinalizationCommitInput (U : Type) where
  record : FinalizationRecord U
  bitmap : Option FinalizationBitmapData
  receipt : Option SuccessfulFinalizationReceipt
  verificationResult : Option VerificationResult
  runtimeMetadata : Option AwsFinalizationRuntimeMetadata
  verificationFirst : ℕ → Bool

structure SuccessfulFinalizationCommitResult (U : Type) where
  record : SuccessfulFinalizationRecord U
  bitmap : Option FinalizationBitmapData
  receiptPublication : Option ReceiptPublication
  deriving DecidableEq

structure CommitEvidence where
  bitmap : Option FinalizationBitmapData
  receipt : Option SuccessfulFinalizationReceipt
  verification : Option VerificationResultRecord

/-- Admit evidence in lifecycle order, before any adapter writes. -/
def admitSuccessfulFinalizationEvidence (requested : SuccessfulFinalizationRecord U)
    (input : SuccessfulFinalizationCommitInput U) : JsM CommitEvidence := do
  let bitmap ← admitFinalizationBitmapDisposition config.noble config.sha256 requested input.bitmap
  let receipt ← admitSuccessfulFinalizationReceipt input.receipt
  match input.verificationResult with
  | none => return ⟨bitmap, receipt, none⟩
  | some verificationResult =>
    let verification ←
      createVerificationResultRecord requested.sessionId requested.finalizationId verificationResult
    return ⟨bitmap, receipt, some verification⟩

def admitOptionalRuntimeMetadata :
    Option AwsFinalizationRuntimeMetadata → JsM (Option AwsFinalizationRuntimeMetadata)
  | none => return none
  | some metadata => do
    let metadata ← okOr (parseAwsFinalizationRuntimeMetadata metadata)
        (.error "Invalid AWS finalization runtime metadata")
    return some metadata

/-- An admitted commit. -/
structure AdmittedCommit (U : Type) where
  requested : SuccessfulFinalizationRecord U
  evidence : CommitEvidence
  runtimePatch : Option AwsFinalizationRuntimeMetadata

def admitCommit (input : SuccessfulFinalizationCommitInput U) : JsM (AdmittedCommit U) := do
  let requested ← admitSuccessfulFinalizationCommitRecord input.record
  let evidence ← admitSuccessfulFinalizationEvidence config requested input
  let runtimePatch ← admitOptionalRuntimeMetadata input.runtimeMetadata
  return ⟨requested, evidence, runtimePatch⟩

/-! ### What a round reads -/

def isPresent {α : Type} : Presence α → Bool
  | .absent => false
  | _ => true

def isActive {α : Type} : Presence α → Bool
  | .active _ => true
  | _ => false

structure LifecycleAuthority (U : Type) where
  current : Option (FinalizationRecord U)
  revision : EncodedLifecycleRevision

def loadSuccessfulCommitAuthority (requested : SuccessfulFinalizationRecord U) :
    Call U (LifecycleAuthority U) := do
  match ← ExceptT.lift (loadFinalizationLifecycle requested.sessionId) with
  | .loaded lifecycle =>
    match decodeLifecycleRevision lifecycle.revision with
    | none => storeError "Stale successful finalization commit"
    | some revision =>
      let _ ← liftJs (assertSuccessfulFinalizationLifecycleAdmission requested lifecycle.currentRecord)
      return ⟨lifecycle.currentRecord, revision⟩
  | _ => storeError "Finalization lifecycle unavailable for successful commit"

structure CommitReceipt where
  receiptPresent : Bool
  existingReceipt : Option ReceiptItem
  counter : Option ReceiptCounterItem

/-- The counter has no expiry. -/
def loadReceiptCounter : Call U (Option ReceiptCounterItem) := do
  match ← getSessionItem .receiptCounter with
  | none => return none
  | some raw =>
    match parseReceiptCounterItem raw with
    | some counter => return some counter
    | none => storeError "Receipt board counter is corrupt"

/-- The counter is behind the receipt that is there. -/
def isUncovered (existingReceipt : Option ReceiptItem) (counter : Option ReceiptCounterItem) : Bool :=
  existingReceipt.any fun existing => counter.all fun counter => counter.nextBoardIndex ≤
    existing.boardIndex

def loadSuccessfulCommitReceipt (requested : SuccessfulFinalizationRecord U)
    (receipt : Option SuccessfulFinalizationReceipt) : Call U CommitReceipt := do
  let presence ← readItem (.receipt requested.sessionId requested.finalizationId)
  let existingReceipt ← admitActive presence (parseReceiptItem config.sha256)
      "Invalid persisted finalization receipt"
  match receipt with
  | none => return ⟨isPresent presence, existingReceipt, none⟩
  | some _ =>
    let counter ← loadReceiptCounter
    if isUncovered existingReceipt counter then
      storeError "Receipt board counter does not cover the persisted publication"
    else return ⟨isPresent presence, existingReceipt, counter⟩

def loadSuccessfulCommitDelivery (requested : SuccessfulFinalizationRecord U)
    (existingRuntime : Option (MetadataItem AwsFinalizationRuntimeMetadata))
    (runtimeMetadata : Option AwsFinalizationRuntimeMetadata) : Call U SuccessfulCommitMetadata :=
  match projectRuntimeBundleDelivery runtimeMetadata with
  | none => return ⟨existingRuntime, runtimeMetadata, none, none⟩
  | some deliveryPatch => do
    let existingDelivery ← readActive (.deliveryMetadata requested.sessionId requested.finalizationId)
      parseDeliveryMetadataItem "Invalid persisted AWS verification delivery metadata"
    return ⟨existingRuntime, runtimeMetadata, existingDelivery,
      some (mergeDeliveryMetadata (existingDelivery.map (·.metadata)) deliveryPatch)⟩

def loadSuccessfulCommitMetadata (requested : SuccessfulFinalizationRecord U) :
    Option AwsFinalizationRuntimeMetadata → Call U SuccessfulCommitMetadata
  | none => return ⟨none, none, none, none⟩
  | some runtimePatch => do
    let existingRuntime ← readActive (.runtimeMetadata requested.sessionId requested.finalizationId)
      parseRuntimeMetadataItem "Invalid persisted AWS finalization runtime metadata"
    loadSuccessfulCommitDelivery requested existingRuntime
      (some (mergeFinalizationRuntimeMetadata (existingRuntime.map (·.metadata)) runtimePatch))

structure CommitArtifacts where
  bitmapActive : Bool
  verificationActive : Bool
  existingBitmap : Option BitmapItem
  existingVerification : Option VerificationItem

/-- Two reads side by side. -/
def readArtifacts (sessionId finalizationId : JsString) (verificationFirst : Bool) :
    Call U (Presence BitmapItem × Presence VerificationItem) := do
  if verificationFirst then
    let verification ← readItem (.verification sessionId finalizationId)
    let bitmap ← readItem (.bitmap sessionId finalizationId)
    return (bitmap, verification)
  else
    let bitmap ← readItem (.bitmap sessionId finalizationId)
    let verification ← readItem (.verification sessionId finalizationId)
    return (bitmap, verification)

def loadSuccessfulCommitArtifacts (requested : SuccessfulFinalizationRecord U)
    (verificationFirst : Bool) :
    Call U CommitArtifacts := do
  let (bitmap, verification) ← readArtifacts requested.sessionId requested.finalizationId
      verificationFirst
  let existingBitmap ← admitActive bitmap parseBitmapItem "Invalid persisted finalization bitmap"
  let existingVerification ← admitActive verification
    (parseVerificationItem requested.sessionId requested.finalizationId)
    "Invalid persisted verification result record"
  return ⟨isActive bitmap, isActive verification, existingBitmap, existingVerification⟩

/-- Everything a round has read. -/
structure CommitReadings (U : Type) where
  authority : LifecycleAuthority U
  receipt : CommitReceipt
  metadata : SuccessfulCommitMetadata
  artifacts : CommitArtifacts

def loadCommitReadings (admitted : AdmittedCommit U) (verificationFirst : Bool) :
    Call U (CommitReadings U) := do
  let authority ← loadSuccessfulCommitAuthority admitted.requested
  let receipt ← loadSuccessfulCommitReceipt config admitted.requested admitted.evidence.receipt
  let metadata ← loadSuccessfulCommitMetadata admitted.requested admitted.runtimePatch
  let artifacts ← loadSuccessfulCommitArtifacts admitted.requested verificationFirst
  return ⟨authority, receipt, metadata, artifacts⟩

/-! ### What a round makes of it -/

def receiptPublicationOf (admitted : AdmittedCommit U) (readings : CommitReadings U) :
    Option ReceiptPublication :=
  prepareReceiptPublication config.sha256 admitted.evidence.receipt readings.receipt.existingReceipt
    ((readings.receipt.counter.map (·.nextBoardIndex)).getD firstReceiptBoardIndex)

/-- The outcome if the round succeeds. -/
def outcomeOf (admitted : AdmittedCommit U) (readings : CommitReadings U) :
    JsM (SuccessfulFinalizationCommitResult U) := do
  let receiptPublication := receiptPublicationOf config admitted readings
  let committed ← buildPublishedSuccessfulFinalization admitted.requested
      (receiptPublication.map (·.toPublication))
  return ⟨committed, admitted.evidence.bitmap, receiptPublication⟩

/-- An optional update that is asked for is the one that is stored. -/
def matchesWhenAsked {α : Type} [DecidableEq α] (asked stored : Option α) : Bool :=
  asked.isNone || stored = asked

variable [DecidableEq U]

/-- Replays must match terminal authority; omitted optional updates leave stored metadata intact. -/
def matchesReplay (admitted : AdmittedCommit U) (readings : CommitReadings U)
    (outcome : SuccessfulFinalizationCommitResult U) (current : FinalizationRecord U) : Bool :=
  decide (current = outcome.record.toRecord) &&
  decide (readings.receipt.existingReceipt.map (·.receipt) = admitted.evidence.receipt) &&
  decide (readings.artifacts.existingBitmap.map (·.bitmap) = admitted.evidence.bitmap) &&
  matchesWhenAsked admitted.evidence.verification
    (readings.artifacts.existingVerification.map (·.record)) &&
  matchesWhenAsked readings.metadata.runtimeMetadata
    (readings.metadata.existingRuntime.map (·.metadata)) &&
  matchesWhenAsked readings.metadata.deliveryMetadata
    (readings.metadata.existingDelivery.map (·.metadata))

def assertSuccessfulFinalizationReplay (admitted : AdmittedCommit U) (readings : CommitReadings U)
    (outcome : SuccessfulFinalizationCommitResult U) (current : FinalizationRecord U) : JsM Unit :=
  refuseIf (¬ matchesReplay admitted readings outcome current)
    (.error "Successful finalization commit conflicts with existing authority")

omit [DecidableEq U] in
/-- Terminal authority must precede stored success evidence. -/
def assertNoPrematureCommitArtifacts (readings : CommitReadings U) : JsM Unit := do
  refuseIf (readings.artifacts.bitmapActive ∨ readings.artifacts.verificationActive)
    (.error "Successful finalization artifacts exist before terminal authority")
  refuseIf readings.receipt.receiptPresent
    (.error "Successful finalization receipt exists before terminal authority")

omit [DecidableEq U] in
def commitWrite (admitted : AdmittedCommit U) (readings : CommitReadings U)
    (outcome : SuccessfulFinalizationCommitResult U) : SuccessfulFinalizationWrite U where
  requested := admitted.requested
  committed := outcome.record
  revision := readings.authority.revision
  receipt := admitted.evidence.receipt
  receiptPublication := outcome.receiptPublication
  counter := readings.receipt.counter
  verification := admitted.evidence.verification
  bitmap := admitted.evidence.bitmap
  metadata := readings.metadata

def storageOf (sessionId : JsString) (plan : ArtifactTtlPlan) : TransactionStorage U :=
  ⟨plan.expiresAt, artifactTtlItems sessionId plan.authority plan.expiresAt⟩

omit [DecidableEq U] in
/-- Acquire TTL authority before assembling one atomic successful-finalization write. -/
def buildSuccessfulCommitTransaction (write : SuccessfulFinalizationWrite U) :
    Call U (List (TransactItem (Item U))) := do
  let requestedExpiresAt ← artifactExpiresAt config
  let plan ← buildArtifactTtlUpdatePlan config write.requested.sessionId requestedExpiresAt
  liftJs (buildSuccessfulFinalizationTransaction write (storageOf write.requested.sessionId plan))

omit [DecidableEq U] in
def writeSuccessfulCommit (admitted : AdmittedCommit U) (readings : CommitReadings U)
    (outcome : SuccessfulFinalizationCommitResult U) (attemptIndex : ℕ) :
    Call U (Option (SuccessfulFinalizationCommitResult U)) := do
  let _ ← liftJs (assertNoPrematureCommitArtifacts readings)
  let items ← buildSuccessfulCommitTransaction config (commitWrite admitted readings outcome)
  let written ← catchConflict attemptIndex (writeTransaction .commit items)
  return if written then some outcome else none

def isSucceeded : Option (FinalizationRecord U) → Option (FinalizationRecord U) :=
  Option.filter fun current => current.state.status = .succeeded

def attemptSuccessfulFinalizationCommit (admitted : AdmittedCommit U) (verificationFirst : Bool)
    (attemptIndex : ℕ) :
    Call U (Option (SuccessfulFinalizationCommitResult U)) := do
  let readings ← loadCommitReadings config admitted verificationFirst
  let outcome ← liftJs (outcomeOf config admitted readings)
  match isSucceeded readings.authority.current with
  | some current =>
    let _ ← liftJs (assertSuccessfulFinalizationReplay admitted readings outcome current)
    return some outcome
  | none => writeSuccessfulCommit config admitted readings outcome attemptIndex

def commitSuccessfulFinalization (input : SuccessfulFinalizationCommitInput U) :
    Call U (SuccessfulFinalizationCommitResult U) := do
  let admitted ← liftJs (admitCommit config input)
  let _ ← requireIdentity admitted.requested.sessionId
  retrying "Successful finalization commit contention limit exceeded" (fun attemptIndex =>
    attemptSuccessfulFinalizationCommit config admitted (input.verificationFirst attemptIndex)
      attemptIndex)
    maxConditionalRetries

end StarkBallot.AwsAdapters.Dynamo
