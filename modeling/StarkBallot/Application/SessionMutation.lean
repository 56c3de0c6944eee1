import StarkBallot.Application.FinalizationStorage
import StarkBallot.Domain.StagedWrite
import StarkBallot.ZkvmContract.InputCommitment

/-! Votes cast in a session (`application/src/session/session-mutation-policy.ts`,
    `user-vote-replay.ts`). A command is evaluated against the records of the session and the
    finalization, if there is one. A user vote comes first and alone; a repeated one with the same
    opening is answered again; bot votes follow in batches.

     append_user_vote ──▶ replay? ──▶ closed? ──▶ known id? voted? ──▶ staged at 0
     append_bot_votes ───────────────▶ closed? ──▶ user voted? room? ──▶ projected, staged after the rest

    The generated ids and the clock readings of one evaluation are arguments. The records are the state
    of the evaluation, since a method of the board may change its caches. -/

namespace StarkBallot.Application
open Schemes ContractCore CryptoPrimitives Domain

variable (noble : NobleUtils) (sha256 : List UInt8 → Bytes 32) {U : Type}

/-! ### Records and commands -/

structure SessionCreationInput extends SessionIdentityRecord where
  lastActivityMs : Num

structure SessionVoteAuthority (U : Type) where
  identity : SessionIdentityRecord
  voting : SessionVotingRecord
  finalization : Option (FinalizationRecord U)

inductive SessionVoteCommand where
  | appendUserVote (vote : UserVoteCommand)
  | appendBotVotes (votes : List BotVoteCommand)

/-- What one evaluation is given from outside: ids and times by call, and the clocks of the domain. -/
structure SessionMutationDependencies where
  generateVoteId : ℕ → JsString
  nowMs : ℕ → Num
  rebuilt : ℕ → Num
  fallback : Num
  staging : StagingClock

structure AddVoteResult where
  leafIndex : ℕ
  merklePath : List JsString
  bulletinRootAtCast : JsString
  deriving DecidableEq

structure VoteIndexIntent where
  voteId : JsString
  index : ℕ

inductive SessionVoteMutation where
  | userVoteAppended (nextVoting : SessionVotingRecord) (indexIntents : List VoteIndexIntent)
      (castResult : AddVoteResult)
  | userVoteReplayed (castResult : AddVoteResult)
  | botVotesAppended (nextVoting : SessionVotingRecord) (indexIntents : List VoteIndexIntent)

inductive SessionVoteMutationError where
  | alreadyVoted
  | sessionFinalized
  | duplicateVote (duplicateKind : String)
  | userNotVoted
  deriving DecidableEq

abbrev SessionVoteMutationResult := Except SessionVoteMutationError SessionVoteMutation

abbrev AuthorityM (U : Type) := ExceptT JsError (StateM (SessionVoteAuthority U))

/-- A call on the board of the voting record. -/
def onBulletin {α : Type} (call : BoardM α) : AuthorityM U α :=
  onPart (·.voting.bulletin)
    (fun authority board => { authority with voting := { authority.voting with bulletin := board } })
    call

/-! ### New votes -/

def prepareVote (identity : SessionIdentityRecord) (vote : BotVoteCommand) (voteId : JsString)
    (timestamp : Num) :
    JsM PreparedVote := do
  let normalizedRandom ← normalizeHex vote.rand orEmpty
  let commit ← ZkvmContract.computeCommitment noble sha256 identity.electionId
      (.ofNat vote.vote.toNumber) normalizedRandom
  return { voteId := voteId, timestamp := timestamp, vote := vote.vote, rand := normalizedRandom,
           commit := commit }

def buildNextVoting (voting : SessionVotingRecord) (staged : StagedCtWriteResult) (botCount : ℕ)
    (userVoteIndex : Option ℕ) (lastActivityMs : Num) : SessionVotingRecord where
  sessionId := voting.sessionId
  votes := staged.votes.foldl
    (fun votes stagedVote => mapSet votes stagedVote.index stagedVote.storedVote) voting.votes
  bulletin := staged.bulletin
  bulletinRootHistory := staged.bulletinRootHistory
  botCount := botCount
  userParticipation := participationAt userVoteIndex
  lastActivityMs := lastActivityMs

def toIndexIntents (stagedVotes : List StagedVoteWrite) : List VoteIndexIntent :=
  stagedVotes.map fun staged => ⟨staged.voteId, staged.index⟩

def evaluateUserVoteMutation (authority : SessionVoteAuthority U) (vote : UserVoteCommand)
    (dependencies : SessionMutationDependencies) : JsM SessionVoteMutation := do
  let voting := authority.voting
  let preparedVote ← prepareVote noble sha256 authority.identity vote.toBotVoteCommand vote.voteId
      vote.timestamp
  let index := voting.votes.length
  let staged ← stageCtVoteWrites noble sha256 voting.votes voting.bulletin.logId
      voting.bulletinRootHistory [⟨index, preparedVote⟩] dependencies.staging
  match staged.votes.head? with
  | none => .error (.error "Finalization state invariant violated")
  | some stagedVote =>
    match exec (getInclusionProof noble sha256 preparedVote.voteId (some (index + 1)))
        staged.bulletin with
    | (.ok (some inclusionProof), bulletin) =>
      let bulletinRootAtCast := stagedVote.storedVote.rootAtCast
      if bulletinRootAtCast = [] then .error ctProofUnavailable
      else
        let merklePath ← inclusionProof.proofNodes.mapM fun node => normalizeHex node orEmpty
        return .userVoteAppended
          (buildNextVoting voting { staged with bulletin := bulletin } voting.botCount (some index)
            (dependencies.nowMs 0))
          (toIndexIntents staged.votes) ⟨index, merklePath, bulletinRootAtCast⟩
    | _ => .error ctProofUnavailable

/-- The bot votes as they are to be written, from the next index on. -/
def prepareBotVotes (identity : SessionIdentityRecord) (votes : List BotVoteCommand) (nextIndex : ℕ)
    (dependencies : SessionMutationDependencies) : JsM (List IndexedVoteWrite) :=
  votes.zipIdx.mapM fun (vote, offset) => do
    let vote ← prepareVote noble sha256 identity vote (dependencies.generateVoteId offset)
        (dependencies.nowMs offset)
    return ⟨nextIndex + offset, vote⟩

def evaluateBotVoteMutation (authority : SessionVoteAuthority U) (votes : List BotVoteCommand)
    (dependencies : SessionMutationDependencies) : JsM SessionVoteMutation := do
  let voting := authority.voting
  let _ ← assertCanonicalUserVoteIndexForBotVotes voting.votes (voteIndexOf voting.userParticipation)
  let projection ← buildCanonicalCtSessionProjection noble sha256 voting voting.bulletin.logId
      dependencies.rebuilt dependencies.fallback
  if projection.botCount ≠ voting.botCount then
    .error (.error "Session voting record bot count is inconsistent")
  else
    let projectedUserVoteIndex := voteIndexOf projection.userParticipation
    let _ ← assertCanonicalUserVoteIndexForBotVotes voting.votes projectedUserVoteIndex
    let writes ← prepareBotVotes noble sha256 authority.identity votes projection.nextIndex dependencies
    let staged ← stageCtVoteWrites noble sha256 voting.votes projection.bulletin.logId
        projection.bulletinRootHistory writes dependencies.staging
    return .botVotesAppended
      (buildNextVoting voting staged (projection.botCount + staged.votes.length) projectedUserVoteIndex
        (dependencies.nowMs votes.length))
      (toIndexIntents staged.votes)

def buildSessionRecords (input : SessionCreationInput) : SessionIdentityRecord × SessionVotingRecord :=
  (input.toSessionIdentityRecord,
    { sessionId := input.sessionId
      votes := []
      bulletin := SimpleBulletinBoard.new input.logId
      bulletinRootHistory := []
      botCount := 0
      userParticipation := .notCast
      lastActivityMs := input.lastActivityMs })

/-! ### Repeated votes -/

inductive UserVoteReplay where
  | notCast
  | conflict
  | replay (vote : StoredVoteRecord) (index : ℕ)

/-- A retry identifies the original opening, never a new id generated by the caller. -/
def resolveUserVoteReplay (identity : SessionIdentityRecord) (voting : SessionVotingRecord)
    (requested : BotVoteCommand) :
    JsM UserVoteReplay := do
  match voting.userParticipation with
  | .notCast => return .notCast
  | .cast voteIndex =>
    match voting.votes.lookup voteIndex with
    | none => .error (.error "Invalid stored user vote authority")
    | some stored =>
      refuseIf (voteIndex ≠ 0) (.error "Invalid stored user vote authority")
      let commitment ←
        ZkvmContract.computeCommitment noble sha256 identity.electionId
          (.ofNat stored.vote.toNumber) stored.rand
      let commit ← normalizeHex stored.commit
      refuseIf (commit ≠ commitment) (.error "Invalid stored user vote evidence")
      let rootAtCast ← normalizeHex stored.rootAtCast
      let firstRoot ← normalizeHex ((voting.bulletinRootHistory.head?.map (·.root)).getD [])
      refuseIf (rootAtCast ≠ firstRoot) (.error "Invalid stored user vote evidence")
      if stored.vote ≠ requested.vote then return .conflict
      else
        let storedRand ← normalizeHex stored.rand
        let requestedRand ← normalizeHex requested.rand
        if storedRand ≠ requestedRand then return .conflict
        else return .replay stored voteIndex

/-- The answer to a vote that was cast before. -/
def replayUserVote (command : SessionVoteCommand) : AuthorityM U (Option SessionVoteMutation) := do
  let authority ← get
  match command with
  | .appendBotVotes _ => return none
  | .appendUserVote vote =>
    match ← lifted
        (resolveUserVoteReplay noble sha256 authority.identity authority.voting
          vote.toBotVoteCommand) with
    | .replay stored index =>
      match ← onBulletin (getInclusionProof noble sha256 stored.voteId (some (index + 1))) with
      | none => throw ctProofUnavailable
      | some proof =>
        let merklePath ← lifted (proof.proofNodes.mapM fun node => normalizeHex node)
        return some (.userVoteReplayed ⟨index, merklePath, stored.rootAtCast⟩)
    | _ => return none

/-! ### Evaluation -/

def admitNewUserVote (authority : SessionVoteAuthority U) (vote : UserVoteCommand)
    (dependencies : SessionMutationDependencies) : JsM SessionVoteMutationResult := do
  let duplicateVoteId := authority.voting.votes.any fun entry => entry.2.voteId = vote.voteId
  if duplicateVoteId then return .error (.duplicateVote "voteId")
  else if authority.voting.userParticipation ≠ .notCast ∨ authority.voting.votes.length > 0 then
    return .error .alreadyVoted
  else return .ok (← evaluateUserVoteMutation noble sha256 authority vote dependencies)

def evaluateSessionVoteMutation (command : SessionVoteCommand)
    (dependencies : SessionMutationDependencies) :
    AuthorityM U SessionVoteMutationResult := do
  match ← replayUserVote noble sha256 command with
  | some mutation => return .ok mutation
  | none =>
    let authority ← get
    if authority.finalization.isSome then return .error .sessionFinalized
    else
      match command with
      | .appendUserVote vote => lifted (admitNewUserVote noble sha256 authority vote dependencies)
      | .appendBotVotes votes =>
        if authority.voting.userParticipation = .notCast then return .error .userNotVoted
        else if authority.voting.botCount + votes.length > Domain.botCount then
          return .error .alreadyVoted
        else return .ok (← lifted (evaluateBotVoteMutation noble sha256 authority votes dependencies))

/-! ### Runs -/

/-- A command with what its evaluation is given from outside, and the finalization at that time. -/
structure Attempt (U : Type) where
  command : SessionVoteCommand
  dependencies : SessionMutationDependencies
  finalization : Option (FinalizationRecord U)

/-- The record to install, if votes were appended. -/
def nextVotingOf : SessionVoteMutation → Option SessionVotingRecord
  | .userVoteAppended nextVoting _ _ => some nextVoting
  | .userVoteReplayed _ => none
  | .botVotesAppended nextVoting _ => some nextVoting

/-- The result of an attempt, and the records that it was given as it left them. -/
def evaluate (identity : SessionIdentityRecord) (voting : SessionVotingRecord) (attempt : Attempt U) :
    JsM SessionVoteMutationResult × SessionVoteAuthority U :=
  exec (evaluateSessionVoteMutation noble sha256 attempt.command attempt.dependencies)
    ⟨identity, voting, attempt.finalization⟩

/-- Appended votes are installed; anything else keeps the record. -/
def submit (identity : SessionIdentityRecord) (voting : SessionVotingRecord) (attempt : Attempt U) :
    SessionVotingRecord :=
  match evaluate noble sha256 identity voting attempt with
  | (.ok (.ok mutation), authority) => (nextVotingOf mutation).getD authority.voting
  | (_, authority) => authority.voting

/-- The voting record after the attempts. -/
def votingAfter (input : SessionCreationInput) (attempts : List (Attempt U)) : SessionVotingRecord :=
  attempts.foldl (submit noble sha256 (buildSessionRecords input).1) (buildSessionRecords input).2

end StarkBallot.Application
