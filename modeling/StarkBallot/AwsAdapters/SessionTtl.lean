import StarkBallot.AwsAdapters.DynamoTable
import StarkBallot.AwsAdapters.SuccessfulTransaction
import StarkBallot.AwsAdapters.VoteRestore
import StarkBallot.Application.SessionVoting

/-! How the store reads and writes a session (`aws-adapters/src/store/dynamoSessionStore.ts`,
    `session-vote-writes.ts`). The identity, the voting record and the votes of a session are items of
    their own, and every write gives all of them one new expiry: the longest of what was read and of
    what is asked for. An update of an expiry is conditioned on the expiry that was read.

        loadSessionTtlAuthority   identity ── voting ── votes, page by page ── clock
        mutateVotes               authority ── finalization ── transaction, again if a condition failed
        touchSession              authority ── clock ── transaction, again if a condition failed

    A query follows a bounded number of pages; what is read from outside in a round (clocks of the
    domain, ids, random bytes) is an argument. -/

namespace StarkBallot.AwsAdapters.Dynamo
open Schemes ContractCore CryptoPrimitives Domain Application

variable {U : Type}

/-! ### Configuration -/

structure StoreConfig where
  noble : NobleUtils
  sha256 : List UInt8 → Bytes 32
  cipher : VoteSecretCipher
  sessionLiveTtlSeconds : ℕ
  verificationArtifactTtlSeconds : ℕ
  maxPages : ℕ

section Session

variable (config : StoreConfig) (sessionId : JsString)

def liveExpiresAt : Call U ℕ := do return (← now) / 1000 + config.sessionLiveTtlSeconds

def artifactExpiresAt : Call U ℕ := do return (← now) / 1000 + config.verificationArtifactTtlSeconds

/-! ### Reading a session -/

def getSessionIdentity : Call U (Option IdentityItem) :=
  readActive (.identity sessionId) (parseIdentityItem sessionId) "Session identity is missing or invalid"

def requireIdentity : Call U IdentityItem := do
  match ← getSessionIdentity sessionId with
  | some identity => return identity
  | none => throw .sessionNotFound

def loadVotingItem : Call U VotingItem := do
  match ← readActive (.voting sessionId)
      (parseVotingItem sessionId) "Session voting record is missing or invalid" with
  | some voting => return voting
  | none => storeError "Session voting record is missing or invalid"

def queryVotes (start : Option ℕ) : Call U VotePage :=
  ask (TableRequest.queryVotes sessionId start) >>= orFailed

/-- One page, all of whose items have to be active and well formed. -/
def loadVotePage (start : Option ℕ) : Call U VotePage := do
  let page ← queryVotes sessionId start
  let nowMs ← now
  if page.items.any (fun item => decide (item.expiresAt ≤ nowMs / 1000) ||
      (parseVoteItem sessionId item).isNone) then
    throw (.js ctProofUnavailable)
  else return page

def loadVotePages : (pages : ℕ) → Option ℕ → Call U (List VoteItem)
  | 0, _ => throw .failed
  | pages + 1, start => do
    let page ← loadVotePage sessionId start
    match page.lastEvaluated with
    | none => return page.items
    | some last => return page.items ++ (← loadVotePages pages (some last))

def loadVoteItems : Call U (List VoteItem) := do
  let items ← loadVotePages sessionId config.maxPages none
  if ¬ (items.map (·.voteIndex)).Nodup then throw (.js ctProofUnavailable) else return items

structure SessionTtlAuthority where
  identity : IdentityItem
  voting : VotingItem
  votes : List VoteItem
  liveExpiresAt : ℕ

/-- The longest of all. -/
def SessionTtlAuthority.expiresAt (authority : SessionTtlAuthority) : ℕ :=
  (authority.votes.map (·.expiresAt)).foldl max
    (max (max authority.liveExpiresAt authority.identity.expiresAt) authority.voting.expiresAt)

def loadSessionTtlAuthority : Call U SessionTtlAuthority := do
  match ← readItem (.identity sessionId) with
  | .active item =>
    match parseIdentityItem sessionId item with
    | none => throw .sessionNotFound
    | some identity => do
      let voting ← loadVotingItem sessionId
      let votes ← loadVoteItems config sessionId
      let expectedVoteCount := voting.record.bulletinRootHistory.length
      if votes.length ≠ expectedVoteCount ∨
          votes.any (fun vote => expectedVoteCount ≤ vote.voteIndex) then
        throw (.js ctProofUnavailable)
      else
        let liveExpiresAt ← liveExpiresAt config
        return ⟨identity, voting, votes, liveExpiresAt⟩
  | _ => throw .sessionNotFound

/-! ### Expiry -/

variable (authority : SessionTtlAuthority) (expiresAt : ℕ)

def updateIdentityTtl : TransactItem (Item U) :=
  updateItem (.identity sessionId) (fun item => { item with expiresAt := expiresAt })
    fun item => item.expiresAt = authority.identity.expiresAt

def updateVoteTtl (vote : VoteItem) : TransactItem (Item U) :=
  updateItem (.vote sessionId vote.voteIndex)
    (fun item => ⟨{ item.1 with expiresAt := expiresAt }, item.2⟩) fun item => item.1.expiresAt =
      vote.expiresAt

def buildSessionTtlUpdates : List (TransactItem (Item U)) :=
  updateIdentityTtl sessionId authority expiresAt ::
    authority.votes.map (updateVoteTtl sessionId expiresAt)

/-- The voting item as it was read. -/
def matchVoting (item : VotingItem) : Bool :=
  item.revision = authority.voting.revision && item.expiresAt = authority.voting.expiresAt

def updateVotingTtl : TransactItem (Item U) :=
  updateItem (.voting sessionId) (fun item => { item with expiresAt := expiresAt })
    (matchVoting authority)

/-- The writes of an artifact's transaction that keep the session alive as long as the artifact. -/
def artifactTtlItems : List (TransactItem (Item U)) :=
  buildSessionTtlUpdates sessionId authority expiresAt ++ [updateVotingTtl sessionId authority expiresAt]

structure ArtifactTtlPlan where
  authority : SessionTtlAuthority
  expiresAt : ℕ

def buildArtifactTtlUpdatePlan (requestedExpiresAt : ℕ) : Call U ArtifactTtlPlan := do
  let authority ← loadSessionTtlAuthority config sessionId
  return ⟨authority, max requestedExpiresAt authority.expiresAt⟩

/-! ### Activity -/

def touchItems (lastActivityMs : ℕ) : List (TransactItem (Item U)) :=
  buildSessionTtlUpdates sessionId authority authority.expiresAt ++
    [putItem (.voting sessionId)
      { record := { authority.voting.record with lastActivityMs := .ofNat lastActivityMs }
        revision := authority.voting.revision + 1
        expiresAt := authority.expiresAt }
      fun item => item.any (matchVoting authority)]

def touchSession : Call U Unit :=
  retrying "Session activity contention limit exceeded" (fun attemptIndex => do
    let authority ← loadSessionTtlAuthority config sessionId
    let nowMs ← now
    let written ← catchConflict attemptIndex
      (writeTransaction (.touch authority.liveExpiresAt) (touchItems sessionId authority nowMs))
    return if written then some () else none) maxConditionalRetries

/-- Whatever goes wrong is only logged. -/
def touchSessionAfterCommit : Call U Unit := do
  let _ ← attempt (touchSession config sessionId)
  return

end Session

/-! ### The lifecycle of a finalization -/

section Lifecycle

variable (config : StoreConfig) (sessionId : JsString)

/-- Load without the catch-all. -/
def loadFinalization : Call U (FinalizationLifecycleLoadResult U EncodedLifecycleRevision) := do
  match ← getSessionIdentity sessionId with
  | none => return .missing
  | some _ =>
    match ← readItem (.currentFinalization sessionId) with
    | .active rawPointer =>
      match parseCurrentFinalizationItem rawPointer with
      | none => return .invalidRecord
      | some pointer =>
        match ← readItem (.finalization sessionId pointer.currentFinalizationId) with
        | .active rawRecord =>
          match parseFinalizationItem sessionId pointer.currentFinalizationId rawRecord with
          | none => return .invalidRecord
          | some item =>
            if item.revision ≠ pointer.revision then return .invalidRecord
            else
              return .loaded ⟨some item.record, ⟨some pointer.currentFinalizationId, pointer.revision⟩⟩
        | _ => return .invalidRecord
    | _ => return .loaded ⟨none, ⟨none, 0⟩⟩

def loadFinalizationLifecycle :
    Async (TableRequest U) TableRequest.Answer
      (FinalizationLifecycleLoadResult U EncodedLifecycleRevision) := do
  match ← (loadFinalization sessionId).run with
  | .ok result => return result
  | .error _ => return .persistenceFailure

def getCurrentFinalizationRecord : Call U (Option (FinalizationRecord U)) := do
  match ← ExceptT.lift (loadFinalizationLifecycle sessionId) with
  | .missing => return none
  | .loaded lifecycle => return lifecycle.currentRecord
  | _ => storeError "Failed to load current finalization record"

def matchExpectedPointer (expected : EncodedLifecycleRevision) (item : Option CurrentFinalizationItem) :
    Bool :=
  match expected.currentFinalizationId with
  | none => item.isNone
  | some expectedFinalizationId => item.any fun item =>
    item.revision = expected.revision && item.currentFinalizationId = expectedFinalizationId

def lifecycleItems (expected : EncodedLifecycleRevision) (finalizationId : JsString)
    (stored : PersistedFinalizationRecord U) (plan : ArtifactTtlPlan) : List (TransactItem (Item U)) :=
  putItem (.currentFinalization sessionId) ⟨⟨finalizationId, expected.revision + 1⟩, plan.expiresAt⟩
      (matchExpectedPointer expected) ::
    putItem (.finalization sessionId finalizationId) ⟨⟨stored, expected.revision + 1⟩, plan.expiresAt⟩
      (matchRecord expected) ::
    artifactTtlItems sessionId plan.authority plan.expiresAt

/-- The transaction of an apply. -/
def writeLifecycle (input : LifecycleMutation U EncodedLifecycleRevision)
    (expected : EncodedLifecycleRevision) (nextRecord : FinalizationRecord U) : Call U Unit := do
  let requestedExpiresAt ← artifactExpiresAt config
  let plan ← buildArtifactTtlUpdatePlan config input.sessionId requestedExpiresAt
  match encodeFinalizationRecord nextRecord with
  | none => storeError "Succeeded finalization record is missing its result authority"
  | some stored =>
    writeTransaction .lifecycle
      (lifecycleItems input.sessionId expected input.finalizationId stored plan)

variable [DecidableEq U]

def applyFinalizationLifecycleMutation (input : LifecycleMutation U EncodedLifecycleRevision) :
    Async (TableRequest U) TableRequest.Answer
      (FinalizationLifecycleApplyResult U EncodedLifecycleRevision) :=
  match admitLifecycleMutation input with
  | none => return .invalidRecord
  | some (expected, nextRecord) => do
    match ← (writeLifecycle config input expected nextRecord).run with
    | .ok _ => return .applied ⟨some nextRecord, ⟨some input.finalizationId, expected.revision + 1⟩⟩
    | .error .conditionalConflict =>
      let reloaded ← loadFinalizationLifecycle input.sessionId
      return resolveConflict nextRecord reloaded
    | .error _ => return .persistenceFailure

def lifecyclePersistence :
    FinalizationLifecyclePersistencePort (TableRequest U) TableRequest.Answer U
      EncodedLifecycleRevision where
  loadFinalizationLifecycle := fun sessionId _ => loadFinalizationLifecycle sessionId
  applyFinalizationLifecycleMutation := applyFinalizationLifecycleMutation config

def resolveCoordinatedRecord :
    FinalizationTransitionCoordinationResult U EncodedLifecycleRevision → Call U (FinalizationRecord U)
  | .applied lifecycle _ _ | .alreadyApplied _ lifecycle _ _ | .rejected lifecycle _ _ =>
    match lifecycle.currentRecord with
    | some record => return record
    | none => storeError "Finalization transition was not applied"
  | .stale lifecycle _ _ =>
    match lifecycle.currentRecord with
    | some record => return record
    | none => storeError "Finalization lifecycle changed concurrently"
  | .invalid _ _ _ => storeError "Invalid finalization transition"
  | .missing _ _ => storeError "Session not found"
  | .invalidRecord _ _ => storeError "Invalid persisted finalization record"
  | .persistenceFailure _ _ => storeError "Failed to persist finalization transition"

def applyFinalizationCommand (command : FinalizationTransitionCommand U) :
    Call U (FinalizationRecord U) := do
  let evaluatedAtMs ← now
  let coordination ← ExceptT.lift (coordinateFinalizationTransition (lifecyclePersistence config)
    ⟨command, .ofNat evaluatedAtMs, 2⟩)
  resolveCoordinatedRecord coordination

end Lifecycle

/-! ### Votes -/

section Votes

variable (config : StoreConfig) (sessionId : JsString)

/-- What one round of a vote mutation is given from outside. -/
structure RoundInput where
  dependencies : SessionMutationDependencies
  boardClock : ℕ → Num
  nonces : ℕ → Nonces

/-- `addVote` and `addBotVotes`. -/
structure VoteMutationInput where
  command : SessionVoteCommand
  rounds : ℕ → RoundInput

inductive VoteStoreError where
  | sessionNotFound
  | mutation (error : SessionVoteMutationError)
  deriving DecidableEq

/-- `prepareUserVoteWrite` and `prepareBotVoteWrite`: the mutation is of the command's kind. -/
def isPrepared : SessionVoteCommand → SessionVoteMutation → Bool
  | .appendUserVote _, .userVoteAppended _ _ _ => true
  | .appendUserVote _, .userVoteReplayed _ => true
  | .appendBotVotes _, .botVotesAppended _ _ => true
  | _, _ => false

def putVote (nonces : ℕ → Nonces) (next : SessionVotingRecord) (expiresAt : ℕ)
    (entry : ℕ × StoredVoteRecord) :
    TransactItem (Item U) :=
  putItem (.vote sessionId entry.1)
    ⟨toVoteItem config.cipher (nonces entry.1) sessionId entry.1 entry.2 (next.userParticipation =
      .cast entry.1) expiresAt, rfl, rfl⟩ isAbsent

def newVotes (authority : SessionTtlAuthority) (next : SessionVotingRecord) : Votes :=
  next.votes.filter fun entry => authority.voting.record.bulletinRootHistory.length ≤ entry.1

def voteMutationItems (authority : SessionTtlAuthority) (nonces : ℕ → Nonces)
    (next : SessionVotingRecord) :
    List (TransactItem (Item U)) :=
  buildSessionTtlUpdates sessionId authority authority.expiresAt ++
    [putItem (.voting sessionId)
        ⟨toPersistedVotingRecord next, authority.voting.revision + 1, authority.expiresAt⟩
        (fun item => item.any (matchVoting authority)),
      conditionCheck (.currentFinalization sessionId) isAbsent] ++
    (newVotes authority next).map (putVote config sessionId nonces next authority.expiresAt)

variable (U) in
structure VoteMutationAuthority where
  ttl : SessionTtlAuthority
  voting : SessionVotingRecord
  finalization : Option (FinalizationRecord U)

def loadVoteMutationAuthority (boardClock : ℕ → Num) : Call U (VoteMutationAuthority U) := do
  let ttl ← loadSessionTtlAuthority config sessionId
  let voting ← liftJs (restoreVotingRecord config.noble config.sha256 config.cipher ttl.identity.identity
    ttl.voting.record ttl.votes boardClock)
  let finalization ← getCurrentFinalizationRecord sessionId
  return ⟨ttl, voting, finalization⟩

/-- A session that is not there is no error. -/
def findVoteMutationAuthority (boardClock : ℕ → Num) : Call U (Option (VoteMutationAuthority U)) := do
  match ← attempt (loadVoteMutationAuthority config sessionId boardClock) with
  | .ok authority => return some authority
  | .error .sessionNotFound => return none
  | .error e => throw e

/-- What the policy makes of the command on the restored record. -/
def evaluateStoredVoteCommand (authority : VoteMutationAuthority U) (command : SessionVoteCommand)
    (dependencies : SessionMutationDependencies) : JsM SessionVoteMutationResult :=
  (evaluate config.noble config.sha256 authority.ttl.identity.identity authority.voting
    ⟨command, dependencies, authority.finalization⟩).1

/-- Write an admitted mutation; `none` after a failed condition. -/
def writeVotes (authority : VoteMutationAuthority U) (nonces : ℕ → Nonces) (attemptIndex : ℕ)
    (mutation : SessionVoteMutation) : Call U (Option (Except VoteStoreError SessionVoteMutation)) :=
  match nextVotingOf mutation with
  | none => return some (.ok mutation)
  | some next => do
    let written ← catchConflict attemptIndex
      (writeTransaction .votes (voteMutationItems config sessionId authority.ttl nonces next))
    return if written then some (.ok mutation) else none

def mutateVotesRound (input : VoteMutationInput) (attemptIndex : ℕ) :
    Call U (Option (Except VoteStoreError SessionVoteMutation)) := do
  let round := input.rounds attemptIndex
  match ← findVoteMutationAuthority config sessionId round.boardClock with
  | none => return some (.error .sessionNotFound)
  | some authority => do
    match ← liftJs (evaluateStoredVoteCommand config authority input.command round.dependencies) with
    | .error e => return some (.error (.mutation e))
    | .ok mutation =>
      if ¬ isPrepared input.command mutation then storeError "Session vote mutation invariant violated"
      else writeVotes config sessionId authority round.nonces attemptIndex mutation

def mutateVotes (input : VoteMutationInput) : Call U (Except VoteStoreError SessionVoteMutation) :=
  retrying "Vote mutation contention limit exceeded" (mutateVotesRound config sessionId input)
    maxConditionalRetries

end Votes

/-! ### A new session -/

section Create

variable (config : StoreConfig)

/-- Both items of a new session. -/
def createSessionItems (input : SessionCreationInput) (expiresAt : ℕ) : List (TransactItem (Item U)) :=
  let records := buildSessionRecords input
  [putItem (.identity input.sessionId) ⟨records.1, expiresAt⟩ isAbsent,
    putItem (.voting input.sessionId) ⟨toPersistedVotingRecord records.2, 0, expiresAt⟩ isAbsent]

def createSession (input : SessionCreationInput) : Call U SessionIdentityRecord := do
  match parseSessionIdentityRecord (buildSessionRecords input).1 with
  | none => storeError "Session creation produced invalid identity authority"
  | some identity => do
    let expiresAt ← liveExpiresAt config
    writeTransaction .createSession (createSessionItems input expiresAt)
    return identity

end Create

/-- The lifetimes that the code defaults to, and a session that can be stored. -/
def sampleStore : StoreConfig := ⟨.reference, Sha256.digest, .reference, 300, 7200, 2⟩

def sampleSession : SessionCreationInput where
  sessionId := js "s"
  electionId := js "550e8400-e29b-41d4-a716-446655440000"
  electionConfigHash := zeroHash
  electionConfig := ⟨.ofNat 64, [js "A", js "B", js "C", js "D", js "E"], js "1.0", .ofNat 63, .ofNat 6⟩
  logId := zeroHash
  createdAtMs := .ofNat 1
  lastActivityMs := .ofNat 1

end StarkBallot.AwsAdapters.Dynamo
