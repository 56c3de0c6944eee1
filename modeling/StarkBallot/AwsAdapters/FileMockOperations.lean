import StarkBallot.AwsAdapters.FileMockStore
import StarkBallot.AwsAdapters.SuccessfulCommits
import StarkBallot.AwsAdapters.MockVerification
import StarkBallot.AwsAdapters.ProvingJobs
import StarkBallot.Application.SessionMutation
import StarkBallot.Domain.VerificationObservation
import StarkBallot.ZkvmContract.ElectionConfig
import StarkBallot.Schemes.Stateful

/-! The operations of the file store (`aws-adapters/src/store/fileMockSessionStore.ts`,
    `mapped-session-records.ts`, `session-records.ts`, `session-vote-writes.ts`,
    `successfulFinalizationReplay.ts`). Each public operation that writes is one mutation of the loaded
    records, after checks that touch nothing; the shared commands (`session-command-store.ts`) lead to
    the same mutations.

        createSession ─ touchSession ─ mutateVotes ─ getActiveSessionCount ─ applyFinalizationCommand
        recordAwsProofBundlePublication ─ writeVerificationResult ─ rollbackVerificationResult
        recordVerificationObservation ─ commitSuccessfulFinalization

    Random identifiers and clock readings of a mutation are arguments. -/

namespace StarkBallot.AwsAdapters.FileMock
open Schemes ContractCore CryptoPrimitives Domain Application
open Dynamo (AdmittedCommit AwsFinalizationRuntimeMetadata AwsVerificationDeliveryMetadata
  SuccessfulFinalizationCommitResult mergeFinalizationRuntimeMetadata mergeDeliveryMetadata
  projectRuntimeBundleDelivery parseSessionIdentityRecord prepareReceiptPublication
  matchesWhenAsked ReceiptItem)

variable (noble : NobleUtils) (sha256 : List UInt8 → Bytes 32) {U : Type}

/-! ### Records -/

structure VoteOwner where
  sessionId : JsString
  index : ℕ

structure FinalizationBitmapRecord where
  sessionId : JsString
  finalizationId : JsString
  data : FinalizationBitmapData
  deriving DecidableEq

structure ReceiptRecord where
  sessionId : JsString
  finalizationId : JsString
  receiptHash : JsString
  boardIndex : ℕ
  receipt : SuccessfulFinalizationReceipt

structure FileStoreState (U : Type) where
  identityRecords : List (JsString × SessionIdentityRecord)
  votingRecords : List (JsString × SessionVotingRecord)
  finalizationRecords : List (JsString × FinalizationRecord U)
  currentFinalizationIdBySession : List (JsString × JsString)
  verificationResultRecords : List (JsString × VerificationResultRecord)
  verificationObservationRecords : List (JsString × VerificationObservation)
  bitmapRecords : List (JsString × FinalizationBitmapRecord)
  voteIdIndex : List (JsString × VoteOwner)
  runtimeMetadataRecords : List (JsString × AwsFinalizationRuntimeMetadata)
  deliveryMetadataRecords : List (JsString × AwsVerificationDeliveryMetadata)
  receiptRecords : List (JsString × ReceiptRecord)
  receiptCounter : ℕ

def createEmptyFileStoreState : FileStoreState U := ⟨[], [], [], [], [], [], [], [], [], [], [], 100⟩

abbrev RollbackSnapshots : Type := List (JsString × Option VerificationResultRecord)

/-- The fields of a store that its methods use. -/
structure Fields (U : Type) where
  state : FileStoreState U
  snapshotAdmissionFailed : Bool
  verificationRollbackSnapshots : RollbackSnapshots

abbrev StoreM (U : Type) := ExceptT JsError (StateM (Fields U))

def modifyState (f : FileStoreState U → FileStoreState U) : StoreM U Unit :=
  modify fun fields => { fields with state := f fields.state }

/-- What a call of `mutate` answers. -/
inductive Answer (U : Type) where
  | none
  | identity (identity : SessionIdentityRecord)
  | count (count : ℕ)
  | vote (result : Except SessionVoteMutationError (Option AddVoteResult))
  | sessionNotFound
  | transition (record : FinalizationRecord U) (mutated : Bool)
  | verification (record : VerificationResultRecord)
  | observation (result : RecordVerificationObservationResult)
  | commit (outcome : SuccessfulFinalizationCommitResult U) (published : Bool)

abbrev Mutated (U : Type) : Type := MutationResult (Answer U)

/-- The body of a mutation, run on the fields of the store. -/
def toMutation (body : StoreM U (Mutated U)) :
    Mutation (FileStoreState U) RollbackSnapshots (Answer U) :=
  fun loaded verificationRollbackSnapshots =>
    let (result, fields) :=
      exec body ⟨loaded.state, loaded.snapshotAdmissionFailed, verificationRollbackSnapshots⟩
    ⟨result, fields.state, fields.verificationRollbackSnapshots⟩

def scopedKey (sessionId finalizationId : JsString) : JsString :=
  sessionId ++ [Char.ofNat 0] ++ finalizationId

/-! ### Reading the records -/

def requireIdentity (sessionId : JsString) : StoreM U SessionIdentityRecord := do
  let fields ← get
  match ((fields.state.identityRecords.lookup sessionId).bind parseSessionIdentityRecord).filter
      fun identity => identity.sessionId = sessionId with
  | some identity => return identity
  | none => throw (.error "Session identity is missing or invalid")

def requireVoting (sessionId : JsString) : StoreM U SessionVotingRecord := do
  let _ ← requireIdentity sessionId
  let fields ← get
  match (fields.state.votingRecords.lookup sessionId).filter fun voting => voting.sessionId =
      sessionId with
  | some voting => return voting
  | none => throw (.error "Session voting record is missing or invalid")

def readMappedFinalization (sessionId : JsString) (state : FileStoreState U) :
    JsM (Option (FinalizationRecord U)) :=
  match nonEmpty (state.currentFinalizationIdBySession.lookup sessionId) with
  | none => return none
  | some finalizationId => do
    let record ← okOr (((state.finalizationRecords.lookup (scopedKey sessionId finalizationId)).bind
      admitFinalizationRecord).filter fun record =>
        record.sessionId = sessionId && record.finalizationId = finalizationId)
      (.error "Current finalization record is missing or invalid")
    return some record

def currentFinalization (sessionId : JsString) : StoreM U (Option (FinalizationRecord U)) := do
  let fields ← get
  lifted (readMappedFinalization sessionId fields.state)

def requireMappedSucceededFinalization (record : Option (FinalizationRecord U))
    (finalizationId : JsString) :
    JsM (FinalizationRecord U) :=
  okOr (record.filter fun record => record.finalizationId = finalizationId &&
    record.state.status = .succeeded) (.error "Finalization is unavailable for verification")

def requireSucceededFinalization (sessionId finalizationId : JsString) :
    StoreM U (FinalizationRecord U) := do
  let record ← currentFinalization sessionId
  lifted (requireMappedSucceededFinalization record finalizationId)

/-! ### Sessions and votes -/

def touchVotingRecord (sessionId : JsString) (atMs : Num) : StoreM U Unit := do
  let voting ← requireVoting sessionId
  modifyState fun state => { state with
    votingRecords := mapSet state.votingRecords sessionId { voting with lastActivityMs := atMs } }

def generateLogId (seed : JsString) : JsString :=
  prefixed (sha256 (ascii "stark-ballot:bulletin-log|v1.0" ++ ZkvmContract.utf8ToBytes seed))

def createDefaultSessionRecords (sessionId electionId logName : JsString) (createdAtMs : Num) :
    SessionIdentityRecord × SessionVotingRecord :=
  buildSessionRecords {
    sessionId := sessionId
    electionId := electionId
    electionConfigHash :=
      ZkvmContract.hashElectionConfig noble sha256 ZkvmContract.buildDefaultElectionConfig
    electionConfig := ZkvmContract.buildDefaultElectionConfig
    logId := generateLogId sha256 logName
    createdAtMs := createdAtMs
    lastActivityMs := createdAtMs }

def createSession (sessionId electionId : JsString) (createdAtMs : Num) : StoreM U (Mutated U) := do
  let records :=
    createDefaultSessionRecords noble sha256 sessionId electionId
      (js "file-mock-" ++ sessionId) createdAtMs
  match parseSessionIdentityRecord records.1 with
  | none => throw (.error "Session creation produced invalid lifecycle records")
  | some identity =>
    modifyState fun state => { state with
      identityRecords := mapSet state.identityRecords sessionId identity
      votingRecords := mapSet state.votingRecords sessionId records.2 }
    return ⟨.identity identity, true⟩

def touchSession (sessionId : JsString) (atMs : Num) : StoreM U (Mutated U) := do
  touchVotingRecord sessionId atMs
  return ⟨.none, true⟩

/-- `prepareUserVoteWrite` and `prepareBotVoteWrite`: the answer, and the mutation
    that is to be installed. -/
def prepareVoteWrite : SessionVoteCommand → SessionVoteMutation →
    JsM (Option AddVoteResult × Option (SessionVotingRecord × List VoteIndexIntent))
  | .appendUserVote _, .userVoteReplayed castResult => return (some castResult, none)
  | .appendUserVote _, .userVoteAppended nextVoting indexIntents castResult =>
    return (some castResult, some (nextVoting, indexIntents))
  | .appendBotVotes _, .botVotesAppended nextVoting indexIntents =>
      return (none, some (nextVoting, indexIntents))
  | _, _ => .error (.error "Session vote mutation invariant violated")

def installMappedVoteMutation (sessionId : JsString) (nextVoting : SessionVotingRecord)
    (indexIntents : List VoteIndexIntent) (state : FileStoreState U) : FileStoreState U :=
  { state with
    votingRecords := mapSet state.votingRecords sessionId nextVoting
    voteIdIndex :=
      indexIntents.foldl (fun index intent => mapSet index intent.voteId ⟨sessionId, intent.index⟩)
      state.voteIdIndex }

/-- The evaluation may change the caches of the board that it is given. -/
def evaluateStoredVoteCommand (identity : SessionIdentityRecord) (voting : SessionVotingRecord)
    (attempt : Attempt U) : StoreM U SessionVoteMutationResult := do
  let (result, authority) := evaluate noble sha256 identity voting attempt
  modifyState fun state => { state with
    votingRecords := mapSet state.votingRecords identity.sessionId authority.voting }
  lifted result

def mutateVotes (sessionId : JsString) (command : SessionVoteCommand)
    (dependencies : SessionMutationDependencies) :
    StoreM U (Mutated U) := do
  let fields ← get
  match ((fields.state.identityRecords.lookup sessionId).bind parseSessionIdentityRecord).filter
      fun identity => identity.sessionId = sessionId with
  | none =>
    if fields.snapshotAdmissionFailed then throw (.error "Session identity is missing or invalid")
    else return ⟨.sessionNotFound, false⟩
  | some identity =>
    let voting ← requireVoting sessionId
    let finalization ← currentFinalization sessionId
    match ← evaluateStoredVoteCommand noble sha256 identity voting
        ⟨command, dependencies, finalization⟩ with
    | .error error => return ⟨.vote (.error error), false⟩
    | .ok mutation =>
      match ← lifted (prepareVoteWrite command mutation) with
      | (value, none) => return ⟨.vote (.ok value), false⟩
      | (value, some (nextVoting, indexIntents)) =>
        modifyState (installMappedVoteMutation sessionId nextVoting indexIntents)
        return ⟨.vote (.ok value), true⟩

def fiveMinutesMs : ℕ := 5 * 60 * 1000

/-- All entries of one session, by its key or by the beginning of a scoped key. -/
def deleteSessionRecords (sessionId : JsString) (state : FileStoreState U) : FileStoreState U :=
  let others {α : Type} (records : List (JsString × α)) : List (JsString × α) :=
    records.filter fun entry => ¬ (sessionId ++ [Char.ofNat 0]).isPrefixOf entry.1
  { state with
    identityRecords := mapDelete state.identityRecords sessionId
    votingRecords := mapDelete state.votingRecords sessionId
    currentFinalizationIdBySession := mapDelete state.currentFinalizationIdBySession sessionId
    finalizationRecords := others state.finalizationRecords
    verificationResultRecords := others state.verificationResultRecords
    verificationObservationRecords := others state.verificationObservationRecords
    bitmapRecords := others state.bitmapRecords
    runtimeMetadataRecords := others state.runtimeMetadataRecords
    deliveryMetadataRecords := others state.deliveryMetadataRecords
    receiptRecords := others state.receiptRecords
    voteIdIndex := state.voteIdIndex.filter fun entry => entry.2.sessionId ≠ sessionId }

/-- One entry of the loop over the voting records; an entry that was deleted is not visited any more. -/
def deleteIdleSession (now : Num) (reached : FileStoreState U × Bool)
    (entry : JsString × SessionVotingRecord) :
    FileStoreState U × Bool :=
  if entry.1 ∈ reached.1.votingRecords.map Prod.fst ∧
      (Num.ofNat fiveMinutesMs).lt (now.sub entry.2.lastActivityMs) then
    (deleteSessionRecords entry.2.sessionId reached.1, true)
  else reached

def getActiveSessionCount (now : Num) : StoreM U (Mutated U) := do
  let fields ← get
  let (state, dirty) := fields.state.votingRecords.foldl (deleteIdleSession now) (fields.state, false)
  modifyState fun _ => state
  let active := state.identityRecords.filter fun entry => entry.1 ∈ state.votingRecords.map Prod.fst
  return ⟨.count active.length, dirty⟩

/-! ### The lifecycle -/

def requestedFinalizationStatus (command : FinalizationTransitionCommand U) : FinalizationStatus :=
  match command.body with
  | .queue => .pending
  | .start .. => .running
  | .succeed .. => .succeeded
  | .fail .. => .failed
  | .cancel .. => .failed
  | .timeOut .. => .timeout

/-- The record that the command leads to, and whether it was changed. -/
def prepareMappedFinalizationCommand (command : FinalizationTransitionCommand U) (evaluatedAtMs : Num)
    (state : FileStoreState U) : JsM (FinalizationRecord U × Bool) := do
  let before ← readMappedFinalization command.sessionId state
  match evaluateFinalizationTransition before command evaluatedAtMs with
  | .invalid _ reason => .error (.error s!"Invalid finalization transition: {invalidReasonText reason}")
  | .applied _ _ nextRecord =>
    let record ← okOr (admitFinalizationRecord nextRecord)
      (.error "Finalization transition produced an invalid record")
    return (record, true)
  | outcome =>
    let record ← okOr before
        (.error s!"Finalization transition was not applied: {outcomeReasonText outcome}")
    return (record, false)

def publishTransitionMetadata (command : FinalizationTransitionCommand U) (record : FinalizationRecord U)
    (runtimeMetadata : Option AwsFinalizationRuntimeMetadata) : StoreM U Bool := do
  match runtimeMetadata with
  | none => return false
  | some runtimeMetadata =>
    if record.finalizationId ≠ command.finalizationId ∨
        record.state.status ≠ requestedFinalizationStatus command then
      return false
    else
      let key := scopedKey command.sessionId command.finalizationId
      modifyState fun state => { state with
        runtimeMetadataRecords := mapSet state.runtimeMetadataRecords key runtimeMetadata
        deliveryMetadataRecords :=
          match projectRuntimeBundleDelivery (some runtimeMetadata) with
          | some delivery => mapSet state.deliveryMetadataRecords key delivery
          | none => state.deliveryMetadataRecords }
      return true

def applyFinalizationCommand (command : FinalizationTransitionCommand U)
    (runtimeMetadata : Option AwsFinalizationRuntimeMetadata) (evaluatedAtMs touchedAtMs : Num) :
    StoreM U (Mutated U) := do
  let _ ← requireIdentity command.sessionId
  let fields ← get
  let (record, mutated) ← lifted (prepareMappedFinalizationCommand command evaluatedAtMs fields.state)
  if mutated then
    modifyState fun state => { state with
      finalizationRecords :=
        mapSet state.finalizationRecords (scopedKey command.sessionId command.finalizationId) record
      currentFinalizationIdBySession :=
        mapSet state.currentFinalizationIdBySession command.sessionId command.finalizationId }
    touchVotingRecord command.sessionId touchedAtMs
  let published ← publishTransitionMetadata command record runtimeMetadata
  return ⟨.transition record mutated, mutated || published⟩

def recordAwsProofBundlePublication (sessionId finalizationId : JsString)
    (metadata : AwsVerificationDeliveryMetadata) : StoreM U (Mutated U) := do
  let _ ← requireIdentity sessionId
  modifyState fun state => { state with
    deliveryMetadataRecords :=
      mapSet state.deliveryMetadataRecords (scopedKey sessionId finalizationId) metadata }
  return ⟨.none, true⟩

/-! ### Verification -/

def setRollbackSnapshots (f : RollbackSnapshots → RollbackSnapshots) : StoreM U Unit :=
  modify fun fields =>
    { fields with verificationRollbackSnapshots := f fields.verificationRollbackSnapshots }

def writeVerificationResult (sessionId finalizationId : JsString)
    (verificationResult : VerificationResult) (mode : VerificationWriteMode) (touchedAtMs : Num) :
    StoreM U (Mutated U) := do
  let _ ← requireSucceededFinalization sessionId finalizationId
  let key := scopedKey sessionId finalizationId
  let fields ← get
  let current := (fields.state.verificationResultRecords.lookup key).bind parseVerificationResultRecord
  match current.filter (·.isTerminal) with
  | some current => return ⟨.verification current, false⟩
  | none =>
    if mode = .start then setRollbackSnapshots fun snapshots => mapSet snapshots key current
    let record ← lifted (createVerificationResultRecord sessionId finalizationId verificationResult)
    modifyState fun state => { state with
      verificationResultRecords := mapSet state.verificationResultRecords key record }
    if mode = .complete then setRollbackSnapshots fun snapshots => mapDelete snapshots key
    touchVotingRecord sessionId touchedAtMs
    return ⟨.verification record, true⟩

def rollbackVerificationResult (sessionId finalizationId : JsString) (touchedAtMs : Num) :
    StoreM U (Mutated U) := do
  let _ ← requireSucceededFinalization sessionId finalizationId
  let key := scopedKey sessionId finalizationId
  let fields ← get
  setRollbackSnapshots fun snapshots => mapDelete snapshots key
  modifyState fun state => { state with
    verificationResultRecords :=
      match (fields.verificationRollbackSnapshots.lookup key).join with
      | some snapshot => mapSet state.verificationResultRecords key snapshot
      | none => mapDelete state.verificationResultRecords key }
  touchVotingRecord sessionId touchedAtMs
  return ⟨.none, true⟩

def admitMappedObservation (finalizationId : JsString) (input : VerificationObservationWrite) :
    JsM VerificationObservation := do
  let write ← okOr (parseVerificationObservationWrite input) (.error "Invalid verification observation")
  okOr (parseVerificationObservation ⟨finalizationId, write.fingerprint, write.observedAt⟩)
    (.error "Invalid verification observation")

def recordVerificationObservation (sessionId finalizationId : JsString)
    (input : VerificationObservationWrite) :
    StoreM U (Mutated U) := do
  let _ ← requireIdentity sessionId
  let requested ← lifted (admitMappedObservation finalizationId input)
  let key := scopedKey sessionId finalizationId
  let fields ← get
  let existing :=
    (fields.state.verificationObservationRecords.lookup key).bind parseVerificationObservation
  match resolveVerificationObservationRecord
      (fields.state.currentFinalizationIdBySession.lookup sessionId) existing requested with
  | .recorded =>
    modifyState fun state => { state with
      verificationObservationRecords := mapSet state.verificationObservationRecords key requested }
    touchVotingRecord sessionId requested.observedAt
    return ⟨.observation .recorded, true⟩
  | resolution => return ⟨.observation resolution, false⟩

/-! ### Successful finalizations -/

/-- The counter is behind the receipt that is there. -/
def assertReceiptPublicationCounter (existing : Option ReceiptRecord)
    (receipt : Option SuccessfulFinalizationReceipt) (nextBoardIndex : ℕ) : JsM Unit :=
  refuseIf (receipt.isSome ∧ existing.any fun existing =>
    Num.maxSafeInteger < nextBoardIndex || nextBoardIndex ≤ existing.boardIndex)
    (.error "Receipt board counter does not cover the persisted publication")

/-- What a publication reads of a receipt. -/
def ReceiptRecord.toItem (record : ReceiptRecord) : ReceiptItem :=
  ⟨record.receiptHash, record.boardIndex, record.receipt, 0⟩

/-- What the maps have under the key of the commit. -/
structure CommitEntries (U : Type) where
  existingReceipt : Option ReceiptRecord
  existingRuntime : Option AwsFinalizationRuntimeMetadata
  existingDelivery : Option AwsVerificationDeliveryMetadata
  existingBitmap : Option FinalizationBitmapRecord
  existingVerification : Option VerificationResultRecord

def commitEntries (key : JsString) (state : FileStoreState U) : CommitEntries U where
  existingReceipt := state.receiptRecords.lookup key
  existingRuntime := state.runtimeMetadataRecords.lookup key
  existingDelivery := state.deliveryMetadataRecords.lookup key
  existingBitmap := state.bitmapRecords.lookup key
  existingVerification := state.verificationResultRecords.lookup key

def admitPersistedFinalizationBitmapData (record : SuccessfulFinalizationRecord U)
    (candidate : FinalizationBitmapRecord) : Option FinalizationBitmapRecord :=
  if candidate.sessionId ≠ record.sessionId ∨ candidate.finalizationId ≠ record.finalizationId then none
  else
    match admitFinalizationBitmapDisposition noble sha256 record (some candidate.data) with
    | .ok (some data) => some ⟨record.sessionId, record.finalizationId, data⟩
    | _ => none

/-- Map presence matters: a present but invalid sidecar cannot become missing evidence. -/
def admitReplayArtifacts (current : SuccessfulFinalizationRecord U)
    (bitmap : Option FinalizationBitmapRecord) (verification : Option VerificationResultRecord) :
    JsM (Option FinalizationBitmapRecord × Option VerificationResultRecord) := do
  let existingBitmap ← okOr
      (ifPresent (admitPersistedFinalizationBitmapData noble sha256 current) bitmap)
    (.error "Invalid persisted finalization bitmap")
  let existingVerification ← okOr (ifPresent parseVerificationResultRecord verification)
    (.error "Invalid persisted verification result record")
  return (existingBitmap, existingVerification)

def assertNoPrematureCommitArtifacts (bitmapActive verificationActive : Bool) : JsM Unit :=
  refuseIf (bitmapActive ∨ verificationActive)
    (.error "Successful finalization artifacts exist before terminal authority")

section Commit

variable [DecidableEq U]

/-- Replays must match terminal authority; omitted optional updates leave stored metadata intact. -/
def assertSuccessfulFinalizationReplay (before : FinalizationRecord U) (entries : CommitEntries U)
    (bitmap : Option FinalizationBitmapRecord) (verification : Option VerificationResultRecord)
    (admitted : AdmittedCommit U) (outcome : SuccessfulFinalizationCommitResult U)
    (runtimeMetadata : Option AwsFinalizationRuntimeMetadata)
    (deliveryMetadata : Option AwsVerificationDeliveryMetadata) : JsM Unit :=
  let expectedBitmap := outcome.bitmap.map fun data =>
    (⟨outcome.record.sessionId, outcome.record.finalizationId, data⟩ : FinalizationBitmapRecord)
  refuseIf (¬ (before = outcome.record.toRecord ∧
    entries.existingReceipt.map (·.receipt) = admitted.evidence.receipt ∧
    bitmap = expectedBitmap ∧ matchesWhenAsked admitted.evidence.verification verification ∧
    matchesWhenAsked runtimeMetadata entries.existingRuntime ∧
    matchesWhenAsked deliveryMetadata entries.existingDelivery))
    (.error "Successful finalization commit conflicts with existing authority")

/-- An optional record is written under the key. -/
def mapSetIfPresent {α : Type} (records : List (JsString × α)) (key : JsString) (value : Option α) :
    List (JsString × α) :=
  match value with
  | some value => mapSet records key value
  | none => records

omit [DecidableEq U] in
def writeSuccessfulArtifacts (key : JsString) (admitted : AdmittedCommit U)
    (outcome : SuccessfulFinalizationCommitResult U)
    (runtimeMetadata : Option AwsFinalizationRuntimeMetadata)
    (deliveryMetadata : Option AwsVerificationDeliveryMetadata) (state : FileStoreState U) :
    FileStoreState U :=
  let successful := outcome.record
  let receipt : Option ReceiptRecord := do
    let receipt ← admitted.evidence.receipt
    let publication ← outcome.receiptPublication
    return ⟨successful.sessionId, successful.finalizationId, publication.receiptHash,
      publication.boardIndex, receipt⟩
  let bitmap := outcome.bitmap.map fun data =>
    (⟨successful.sessionId, successful.finalizationId, data⟩ : FinalizationBitmapRecord)
  { state with
    receiptRecords := mapSetIfPresent state.receiptRecords key receipt
    receiptCounter := if receipt.isSome then state.receiptCounter + 1 else state.receiptCounter
    verificationResultRecords :=
      mapSetIfPresent state.verificationResultRecords key admitted.evidence.verification
    bitmapRecords := mapSetIfPresent state.bitmapRecords key bitmap
    runtimeMetadataRecords := mapSetIfPresent state.runtimeMetadataRecords key runtimeMetadata
    deliveryMetadataRecords := mapSetIfPresent state.deliveryMetadataRecords key deliveryMetadata }

omit [DecidableEq U] in
/-- The transition of a first commit, and all that is written with it. -/
def publishSuccessfulFinalization (key : JsString) (before : Option (FinalizationRecord U))
    (admitted : AdmittedCommit U) (outcome : SuccessfulFinalizationCommitResult U)
    (runtimeMetadata : Option AwsFinalizationRuntimeMetadata)
    (deliveryMetadata : Option AwsVerificationDeliveryMetadata) (evaluatedAtMs touchedAtMs : Num) :
    StoreM U (Mutated U) := do
  match evaluateFinalizationTransition before (succeedCommand outcome.record) evaluatedAtMs with
  | .applied _ _ _ =>
    modifyState fun state => { state with
      finalizationRecords := mapSet state.finalizationRecords key outcome.record.toRecord
      currentFinalizationIdBySession :=
        mapSet state.currentFinalizationIdBySession outcome.record.sessionId
          outcome.record.finalizationId }
    modifyState (writeSuccessfulArtifacts key admitted outcome runtimeMetadata deliveryMetadata)
    touchVotingRecord outcome.record.sessionId touchedAtMs
    return ⟨.commit outcome true, true⟩
  | _ => throw (.error "Successful finalization commit was not applied")

/-- The record, the evidence and the metadata of the commit were admitted before. -/
def commitSuccessfulFinalization (admitted : AdmittedCommit U) (evaluatedAtMs touchedAtMs : Num) :
    StoreM U (Mutated U) := do
  let requested := admitted.requested
  let key := scopedKey requested.sessionId requested.finalizationId
  let _ ← requireIdentity requested.sessionId
  let fields ← get
  let entries := commitEntries key fields.state
  let _ ← lifted (assertReceiptPublicationCounter entries.existingReceipt admitted.evidence.receipt
    fields.state.receiptCounter)
  let runtimeMetadata :=
    admitted.runtimePatch.map (mergeFinalizationRuntimeMetadata entries.existingRuntime)
  let deliveryMetadata := (projectRuntimeBundleDelivery runtimeMetadata).map
    (mergeDeliveryMetadata entries.existingDelivery)
  let receiptPublication := prepareReceiptPublication sha256 admitted.evidence.receipt
    (entries.existingReceipt.map ReceiptRecord.toItem) fields.state.receiptCounter
  let committed ← lifted (buildPublishedSuccessfulFinalization requested
    (receiptPublication.map (·.toPublication)))
  let outcome : SuccessfulFinalizationCommitResult U :=
    ⟨committed, admitted.evidence.bitmap, receiptPublication⟩
  let before ← currentFinalization requested.sessionId
  let _ ← lifted (assertSuccessfulFinalizationLifecycleAdmission requested before)
  match before.bind fun before => (successfulFinalizationRecord before).map fun successful =>
      (before, successful) with
  | some (before, successful) =>
    let (existingBitmap, existingVerification) ← lifted (admitReplayArtifacts noble sha256 successful
      entries.existingBitmap entries.existingVerification)
    let _ ← lifted
        (assertSuccessfulFinalizationReplay before entries existingBitmap existingVerification admitted
        outcome runtimeMetadata deliveryMetadata)
    return ⟨.commit outcome false, false⟩
  | none =>
    let _ ← lifted (assertNoPrematureCommitArtifacts entries.existingBitmap.isSome
      entries.existingVerification.isSome)
    publishSuccessfulFinalization key before admitted outcome runtimeMetadata deliveryMetadata
      evaluatedAtMs touchedAtMs

/-! ### Operations -/

/-- The mutations that the public operations call, with what each evaluation is given from outside. -/
inductive Operation (U : Type) where
  | createSession (sessionId electionId : JsString) (createdAtMs : Num)
  | touchSession (sessionId : JsString) (atMs : Num)
  | mutateVotes (sessionId : JsString) (command : SessionVoteCommand)
      (dependencies : SessionMutationDependencies)
  | getActiveSessionCount (now : Num)
  | applyFinalizationCommand (command : FinalizationTransitionCommand U)
    (runtimeMetadata : Option AwsFinalizationRuntimeMetadata) (evaluatedAtMs touchedAtMs : Num)
  | recordAwsProofBundlePublication (sessionId finalizationId : JsString)
      (metadata : AwsVerificationDeliveryMetadata)
  | writeVerificationResult (sessionId finalizationId : JsString)
      (verificationResult : VerificationResult)
    (mode : VerificationWriteMode) (touchedAtMs : Num)
  | rollbackVerificationResult (sessionId finalizationId : JsString) (touchedAtMs : Num)
  | recordVerificationObservation (sessionId finalizationId : JsString)
      (input : VerificationObservationWrite)
  | commitSuccessfulFinalization (admitted : AdmittedCommit U) (evaluatedAtMs touchedAtMs : Num)

def Operation.body : Operation U → StoreM U (Mutated U)
  | .createSession sessionId electionId createdAtMs =>
    FileMock.createSession noble sha256 sessionId electionId createdAtMs
  | .touchSession sessionId atMs => FileMock.touchSession sessionId atMs
  | .mutateVotes sessionId command dependencies =>
    FileMock.mutateVotes noble sha256 sessionId command dependencies
  | .getActiveSessionCount now => FileMock.getActiveSessionCount now
  | .applyFinalizationCommand command runtimeMetadata evaluatedAtMs touchedAtMs =>
    FileMock.applyFinalizationCommand command runtimeMetadata evaluatedAtMs touchedAtMs
  | .recordAwsProofBundlePublication sessionId finalizationId metadata =>
    FileMock.recordAwsProofBundlePublication sessionId finalizationId metadata
  | .writeVerificationResult sessionId finalizationId verificationResult mode touchedAtMs =>
    FileMock.writeVerificationResult sessionId finalizationId verificationResult mode touchedAtMs
  | .rollbackVerificationResult sessionId finalizationId touchedAtMs =>
    FileMock.rollbackVerificationResult sessionId finalizationId touchedAtMs
  | .recordVerificationObservation sessionId finalizationId input =>
    FileMock.recordVerificationObservation sessionId finalizationId input
  | .commitSuccessfulFinalization admitted evaluatedAtMs touchedAtMs =>
    FileMock.commitSuccessfulFinalization noble sha256 admitted evaluatedAtMs touchedAtMs

/-- The operation as a call on a store. -/
def Operation.on {κ : Type} (operation : Operation U) (store : κ) :
    Call (FileStoreState U) RollbackSnapshots (Answer U) κ :=
  ⟨store, toMutation (operation.body noble sha256)⟩

end Commit

end StarkBallot.AwsAdapters.FileMock
