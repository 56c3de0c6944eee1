import StarkBallot.AwsAdapters.MockVerification
import StarkBallot.AwsAdapters.SessionTtl

/-! Verification results of one successful finalization in the table
    (`aws-adapters/src/store/dynamoSessionStore.ts`). The result is one item with a revision; a start on
    an open result also saves it in a rollback item, unless one is there already. Reading the result,
    reading the rollback item and writing are requests of their own.

        write      result ── terminal: answer it
                          └─ open ── rollback item ── transaction on the revision that was read ── touch
        rollback   result ── rollback item ── transaction on the revision that was read ── touch -/

namespace StarkBallot.AwsAdapters.Dynamo
open Schemes Domain Application

variable {U : Type}

section Verification

variable (config : StoreConfig) (sessionId finalizationId : JsString)

def getFinalizationRecord : Call U (Option (FinalizationRecord U)) := do
  match ← getSessionIdentity sessionId with
  | none => return none
  | some _ => do
    let item ← readActive (.finalization sessionId finalizationId)
        (parseFinalizationItem sessionId finalizationId)
      "Invalid persisted finalization record"
    return item.map (·.record)

def requireSucceededFinalization : Call U (SuccessfulFinalizationRecord U) := do
  let record ← getFinalizationRecord sessionId finalizationId
  match record.bind successfulFinalizationRecord with
  | some successful => return successful
  | none => storeError "Finalization is unavailable for verification"

def loadVerificationItem : Call U (Option VerificationItem) :=
  readActive (.verification sessionId finalizationId) (parseVerificationItem sessionId finalizationId)
    "Invalid persisted verification result record"

def getVerificationResultRecord : Call U (Option VerificationResultRecord) := do
  let _ ← requireIdentity sessionId
  let item ← loadVerificationItem sessionId finalizationId
  return item.map (·.record)

/-! ### Writing -/

/-- The revision that was read, or no item. -/
def matchVerification (current : Option VerificationItem) : Option VerificationItem → Bool :=
  matchItemRevision (·.revision) (current.map (·.revision))

def nextVerificationItem (record : VerificationResultRecord) (current : Option VerificationItem)
    (expiresAt : ℕ) :
    VerificationItem :=
  ⟨record, (current.map (·.revision)).getD 0 + 1, expiresAt⟩

def putVerification (record : VerificationResultRecord) (current : Option VerificationItem)
    (expiresAt : ℕ) :
    TransactItem (Item U) :=
  putItem (.verification sessionId finalizationId) (nextVerificationItem record current expiresAt)
    (matchVerification current)

def putVerificationRecord (record : VerificationResultRecord) (current : Option VerificationItem)
    (extraItems : List (TransactItem (Item U))) : Call U Unit := do
  let expiresAt ← artifactExpiresAt config
  writeTransaction .writeVerification
    (putVerification sessionId finalizationId record current expiresAt :: extraItems)

def putRollback (current : Option VerificationItem) (expiresAt : ℕ) : TransactItem (Item U) :=
  putItem (.verificationRollback sessionId finalizationId) ⟨current.map (·.record), expiresAt⟩ isAbsent

/-- Save what is replaced, unless something is saved already. -/
def buildVerificationRollbackWrites (current : Option VerificationItem) :
    Call U (List (TransactItem (Item U))) := do
  match ← readItem (.verificationRollback sessionId finalizationId) with
  | .absent => do
    let expiresAt ← artifactExpiresAt config
    return [putRollback sessionId finalizationId current expiresAt]
  | .expired => storeError "Invalid verification rollback record"
  | .active rollbackRaw =>
    match parseRollbackItem sessionId finalizationId rollbackRaw with
    | none => storeError "Invalid verification rollback record"
    | some _ => return []

def deleteRollback : TransactItem (Item U) := deleteItem (.verificationRollback sessionId finalizationId)

def buildVerificationCompletionWrites : Call U (List (TransactItem (Item U))) := do
  match ← getSessionItem (.verificationRollback sessionId finalizationId) with
  | none => return []
  | some _ => return [deleteRollback sessionId finalizationId]

def buildExtraWrites (mode : VerificationWriteMode) (current : Option VerificationItem) :
    Call U (List (TransactItem (Item U))) :=
  match mode with
  | .start => buildVerificationRollbackWrites config sessionId finalizationId current
  | .complete => buildVerificationCompletionWrites sessionId finalizationId

def writeVerificationRound (verificationResult : VerificationResult) (mode : VerificationWriteMode)
    (attemptIndex : ℕ) : Call U (Option VerificationResultRecord) := do
  let current ← loadVerificationItem sessionId finalizationId
  match current.filter (·.record.isTerminal) with
  | some ended => return some ended.record
  | none => do
    let record ← liftJs (createVerificationResultRecord sessionId finalizationId verificationResult)
    let extraItems ← buildExtraWrites config sessionId finalizationId mode current
    let written ← catchConflict attemptIndex
      (putVerificationRecord config sessionId finalizationId record current extraItems)
    if written then
      touchSessionAfterCommit config sessionId
      return some record
    else return none

def writeVerificationResult (verificationResult : VerificationResult) (mode : VerificationWriteMode) :
    Call U VerificationResultRecord := do
  let _ ← requireSucceededFinalization sessionId finalizationId
  retrying "Verification result contention limit exceeded"
    (writeVerificationRound config sessionId finalizationId verificationResult mode)
    maxConditionalRetries

/-! ### Rollback -/

/-- What the saved record makes of the result. -/
def rollbackMutation (saved : Option VerificationResultRecord) (current : Option VerificationItem) :
    Call U (TransactItem (Item U)) :=
  match saved with
  | some record => do
    let expiresAt ← artifactExpiresAt config
    return putVerification sessionId finalizationId record current expiresAt
  | none => return deleteItem (.verification sessionId finalizationId) (matchVerification current)

/-- The saved record is used up; it has to be there. -/
def takeRollback : TransactItem (Item U) :=
  deleteItem (.verificationRollback sessionId finalizationId) fun item => item.isSome

def rollbackVerificationResult : Call U Unit := do
  let _ ← requireSucceededFinalization sessionId finalizationId
  let current ← loadVerificationItem sessionId finalizationId
  match ← readItem (.verificationRollback sessionId finalizationId) with
  | .active rollbackRaw =>
    match parseRollbackItem sessionId finalizationId rollbackRaw with
    | none => storeError "Invalid verification rollback record"
    | some rollback => do
      let mutation ← rollbackMutation config sessionId finalizationId rollback.record current
      writeTransaction .rollbackVerification [mutation, takeRollback sessionId finalizationId]
      touchSessionAfterCommit config sessionId
  | _ => return

/-! ### Calls one after the other -/

def verificationCall : VerificationCall → Call U (Option VerificationResultRecord)
  | .markVerificationRunning => do
    let record ← writeVerificationResult config sessionId finalizationId runningResult .start
    return some record
  | .completeVerificationResult verificationResult => do
    let record ← writeVerificationResult config sessionId finalizationId verificationResult .complete
    return some record
  | .rollbackVerificationResult => do
    rollbackVerificationResult config sessionId finalizationId
    return none
  | .getVerificationResultRecord => getVerificationResultRecord sessionId finalizationId

/-- A worker makes its calls, whatever comes of each. -/
def verificationCalls : List VerificationCall →
    Async (TableRequest U) TableRequest.Answer
      (List (Except StoreError (Option VerificationResultRecord)))
  | [] => return []
  | c :: calls => do
    let answer ← (verificationCall config sessionId finalizationId c).run
    let answers ← verificationCalls calls
    return answer :: answers

end Verification

end StarkBallot.AwsAdapters.Dynamo
