import StarkBallot.Application.VotingTimes

/-! Votes as the store keeps them (`aws-adapters/src/store/dynamoSessionStore.ts`, `dynamo-records.ts`).
    A voting record is split: what counts votes goes into one item, each vote into an item of its own
    with its opening encrypted, and the board is not stored at all. Restoring puts the votes on a new
    board again and compares three accounts of every root: the vote's, the history's and the board's.

     record ──persist──▶ ⟨history, counts⟩ + one item a vote ──restore──▶ record, or CT_PROOF_UNAVAILABLE

    The cipher is outside; of it only the round trip is assumed. -/

namespace StarkBallot.AwsAdapters.Dynamo
open Schemes ContractCore CryptoPrimitives Merkle Domain Application

/-- `encryptVoteSecret`, with the random bytes that go into it, and `decryptVoteSecret`. -/
structure VoteSecretCipher where
  encryptVoteSecret : Bytes 12 → JsString → JsString
  decryptVoteSecret : JsString → JsM JsString
  roundTrip : ∀ iv plaintext, decryptVoteSecret (encryptVoteSecret iv plaintext) = .ok plaintext

variable (noble : NobleUtils) (sha256 : List UInt8 → Bytes 32) (cipher : VoteSecretCipher)

/-! ### Items -/

structure VoteItem where
  sessionId : JsString
  voteIndex : ℕ
  voteId : JsString
  vote : JsString
  rand : JsString
  commit : JsString
  timestamp : Num
  rootAtCast : JsString
  isUserVote : Bool
  expiresAt : ℕ
  deriving DecidableEq

structure PersistedVotingRecord where
  sessionId : JsString
  bulletinRootHistory : List RootSnapshot
  botCount : ℕ
  userParticipation : UserParticipation
  lastActivityMs : Num

def choiceText : VoteChoice → JsString
  | .a => js "A"
  | .b => js "B"
  | .c => js "C"
  | .d => js "D"
  | .e => js "E"

/-- `VOTE_CHOICES.includes(vote)`, with the choice. -/
def parseVoteChoice (vote : JsString) : Option VoteChoice :=
  voteChoices.find? fun choice => choiceText choice = vote

def normalizeStrictHex32 (value : JsString) : JsM JsString := do
  refuseIf (¬ isValidHexString value (some 32)) ctProofUnavailable
  normalizeHex value { allowOddLength := false }

def toPersistedVotingRecord (record : SessionVotingRecord) : PersistedVotingRecord where
  sessionId := record.sessionId
  bulletinRootHistory := record.bulletinRootHistory
  botCount := record.botCount
  userParticipation := record.userParticipation
  lastActivityMs := record.lastActivityMs

/-- The random bytes for the choice and the random of a vote. -/
abbrev Nonces := Bytes 12 × Bytes 12

def toVoteItem (nonces : Nonces) (sessionId : JsString) (voteIndex : ℕ) (record : StoredVoteRecord)
    (isUserVote : Bool) (expiresAt : ℕ) : VoteItem where
  sessionId := sessionId
  voteIndex := voteIndex
  voteId := record.voteId
  vote := cipher.encryptVoteSecret nonces.1 (choiceText record.vote)
  rand := cipher.encryptVoteSecret nonces.2 record.rand
  commit := record.commit
  timestamp := record.timestamp
  rootAtCast := record.rootAtCast
  isUserVote := isUserVote
  expiresAt := expiresAt

/-- Whatever goes wrong is reported in one way. -/
def toStoredVoteRecord (item : VoteItem) : JsM StoredVoteRecord :=
  mapErr (fun _ => ctProofUnavailable) do
  let vote ← cipher.decryptVoteSecret item.vote
  let secret ← cipher.decryptVoteSecret item.rand
  let rand ← normalizeHex secret orEmpty
  let choice ← okOr (parseVoteChoice vote) (.error "Invalid vote choice")
  let commit ← normalizeStrictHex32 item.commit
  let rootAtCast ← normalizeStrictHex32 item.rootAtCast
  return {
    voteId := item.voteId
    vote := choice
    rand := rand
    commit := commit
    timestamp := item.timestamp
    rootAtCast := rootAtCast }

/-! ### Restoring -/

structure RestoredVotes where
  votes : Votes
  reconstructedHistory : List RootSnapshot
  seenVoteIds : List JsString

/-- A call whose failure is reported in one way. -/
def orUnavailable {α : Type} (call : BoardM α) : BoardM α :=
  ExceptT.mk fun board => (mapErr (fun _ => ctProofUnavailable) (exec call board).1, (exec call board).2)

@[simp] theorem orUnavailable_exec {α : Type} (call : BoardM α) (board : SimpleBulletinBoard) :
    exec (orUnavailable call) board = (mapErr (fun _ => ctProofUnavailable) (exec call board).1,
      (exec call board).2) :=
  rfl

/-- One item, with the index that it has to have and a reading of the board's clock. -/
def restoreVoteItem (identity : SessionIdentityRecord) (restored : RestoredVotes)
    (entry : (VoteItem × ℕ) × Num) :
    BoardM RestoredVotes := do
  let ⟨⟨item, expectedIndex⟩, now⟩ := entry
  if item.voteIndex ≠ expectedIndex ∨ item.voteId ∈ restored.seenVoteIds then throw ctProofUnavailable
  else
    let vote ← lifted (toStoredVoteRecord cipher item)
    match voteChoices.idxOf? vote.vote with
    | none => throw ctProofUnavailable
    | some choiceIndex =>
      let commitment ←
        lifted (ZkvmContract.computeCommitment noble sha256 identity.electionId
          (.ofNat choiceIndex) vote.rand)
      let commitment ← lifted (normalizeStrictHex32 commitment)
      if commitment ≠ vote.commit then throw ctProofUnavailable
      else
        let appended ← orUnavailable (appendVote noble sha256 vote.voteId (vote.commit.drop 2) now)
        let root ← lifted (normalizeStrictHex32 appended.rootAtAppend)
        if appended.index ≠ expectedIndex ∨ root ≠ vote.rootAtCast then throw ctProofUnavailable
        else
          return {
            votes := mapSet restored.votes expectedIndex vote
            reconstructedHistory :=
              restored.reconstructedHistory ++ [⟨vote.timestamp, expectedIndex + 1, root, none⟩]
            seenVoteIds := setAdd restored.seenVoteIds item.voteId }

def restoreVoteItems (identity : SessionIdentityRecord) (sorted : List VoteItem) (now : ℕ → Num) :
    JsM (RestoredVotes × SimpleBulletinBoard) :=
  onNewBoard ((timed now sorted.zipIdx).foldlM (restoreVoteItem noble sha256 cipher identity)
    ⟨[], [], []⟩) identity.logId

/-- A snapshot of the stored history, compared with the recomputed one and with its vote. -/
def restoreRootSnapshot (persisted : List RootSnapshot) (votes : Votes) (entry : RootSnapshot × ℕ) :
    JsM RootSnapshot := do
  let ⟨snapshot, index⟩ := entry
  let persistedSnapshot ← okOr persisted[index]? ctProofUnavailable
  refuseIf (persistedSnapshot.treeSize ≠ snapshot.treeSize) ctProofUnavailable
  let root ← normalizeStrictHex32 persistedSnapshot.root
  refuseIf (root ≠ snapshot.root) ctProofUnavailable
  refuseIf (¬ (votes.lookup index).any fun vote => persistedSnapshot.timestamp.eq vote.timestamp)
    ctProofUnavailable
  return { persistedSnapshot with root := snapshot.root }

def restorePersistedRootHistory (persisted reconstructed : List RootSnapshot) (votes : Votes) :
    JsM (List RootSnapshot) := do
  refuseIf (persisted.length ≠ reconstructed.length) ctProofUnavailable
  reconstructed.zipIdx.mapM (restoreRootSnapshot persisted votes)

def hasFirstUserVote (userVoteIndex : Option ℕ) (sorted : List VoteItem) (votes : Votes) : Bool :=
  match userVoteIndex with
  | none => sorted.length = 0
  | some voteIndex =>
    voteIndex = 0 && (votes.lookup voteIndex).isSome && sorted[voteIndex]?.any (·.isUserVote)

def assertPersistedParticipation (persisted : PersistedVotingRecord) (sorted : List VoteItem)
    (votes : Votes) :
    JsM Unit := do
  let userVoteIndex := voteIndexOf persisted.userParticipation
  refuseIf (¬ hasFirstUserVote userVoteIndex sorted votes ∨
    sorted.zipIdx.any (fun entry => entry.1.isUserVote ≠ decide (userVoteIndex = some entry.2)) ∨
    persisted.botCount ≠ sorted.length - (if userVoteIndex = none then 0 else 1)) ctProofUnavailable

def restoreVotingRecord (identity : SessionIdentityRecord) (persisted : PersistedVotingRecord)
    (voteItems : List VoteItem) (now : ℕ → Num) : JsM SessionVotingRecord := do
  let sorted := sortBy (fun left right : VoteItem => byNumber left.voteIndex right.voteIndex) voteItems
  let (restored, bulletin) ← restoreVoteItems noble sha256 cipher identity sorted now
  let bulletinRootHistory ←
    restorePersistedRootHistory persisted.bulletinRootHistory restored.reconstructedHistory
      restored.votes
  assertPersistedParticipation persisted sorted restored.votes
  return {
    sessionId := identity.sessionId
    votes := restored.votes
    bulletin := bulletin
    bulletinRootHistory := bulletinRootHistory
    botCount := persisted.botCount
    userParticipation := persisted.userParticipation
    lastActivityMs := persisted.lastActivityMs }

/-! ### Persisting -/

/-- The votes that the stored record does not have yet, as items. -/
def newVoteItems (nonces : ℕ → Nonces) (sessionId : JsString) (persisted : PersistedVotingRecord)
    (next : SessionVotingRecord) (expiresAt : ℕ) : List VoteItem :=
  (next.votes.filter fun entry => persisted.bulletinRootHistory.length ≤ entry.1).map fun entry =>
    toVoteItem cipher (nonces entry.1) sessionId entry.1 entry.2
      (next.userParticipation = .cast entry.1) expiresAt

/-- The voting item and the vote items of a session. -/
structure StoredVoting where
  record : PersistedVotingRecord
  items : List VoteItem

/-- What `persistVoteMutation` leaves: the next record, and an item for every vote; items that were
    there only change their expiry. -/
def persistVotes (nonces : ℕ → Nonces) (sessionId : JsString) (stored : StoredVoting)
    (next : SessionVotingRecord) (expiresAt : ℕ) : StoredVoting where
  record := toPersistedVotingRecord next
  items := stored.items.map (fun item => { item with expiresAt := expiresAt }) ++
    newVoteItems cipher nonces sessionId stored.record next expiresAt

end StarkBallot.AwsAdapters.Dynamo
