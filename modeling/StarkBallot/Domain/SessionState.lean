import StarkBallot.Domain.BulletinBoard

/-! The voting record of a session and how it is rebuilt (`domain/src/types/sessionRecords.ts`,
    `domain/src/lib/bulletin/ctSessionState.ts`, `stagedCtVoteWrite.ts`). Nothing is written in place: a
    new board is filled with the stored votes in the order of their indices, the stored roots are
    compared with the recomputed ones, and new votes go to the new board.

        votes ──▶ new board ──▶ recomputed history ──┐
        stored history ──parse──▶ persisted history ─┴─merge──▶ history ──▶ new votes

    The clock is read once for each vote put on a board and once for each recomputed history; the
    readings are arguments. -/

namespace StarkBallot.Domain
open Schemes ContractCore CryptoPrimitives Merkle

variable (noble : NobleUtils) (sha256 : List UInt8 → Bytes 32)

/-! ### Records -/

structure ElectionConfig where
  totalExpected : Num
  choices : List JsString
  version : JsString
  botCount : Num
  merkleTreeDepth : Num
  deriving DecidableEq

structure SessionIdentityRecord where
  sessionId : JsString
  electionId : JsString
  electionConfigHash : JsString
  electionConfig : ElectionConfig
  logId : JsString
  createdAtMs : Num

structure BotVoteCommand where
  vote : VoteChoice
  rand : JsString

structure UserVoteCommand extends BotVoteCommand where
  voteId : JsString
  timestamp : Num

structure PreparedVote extends UserVoteCommand where
  commit : JsString

structure StoredVoteRecord extends PreparedVote where
  rootAtCast : JsString

inductive UserParticipation where
  | notCast
  | cast (voteIndex : ℕ)
  deriving DecidableEq

/-- The votes by their index. -/
abbrev Votes := List (ℕ × StoredVoteRecord)

structure SessionVotingRecord where
  sessionId : JsString
  votes : Votes
  bulletin : SimpleBulletinBoard
  bulletinRootHistory : List RootSnapshot
  botCount : ℕ
  userParticipation : UserParticipation
  lastActivityMs : Num

def voteIndexOf : UserParticipation → Option ℕ
  | .notCast => none
  | .cast voteIndex => some voteIndex

def participationAt : Option ℕ → UserParticipation
  | none => .notCast
  | some voteIndex => .cast voteIndex

/-! ### Indices -/

def nonCanonicalCtVoteIndices : JsError := .error "NON_CANONICAL_CT_VOTE_INDICES"

def assertCanonicalCtVoteIndices (indices : List ℕ) : JsM ℕ := do
  let sortedIndices := sortBy byNumber indices
  sortedIndices.zipIdx.forM fun index =>
    refuseIf (Num.maxSafeInteger < index.1 ∨ index.1 ≠ index.2) nonCanonicalCtVoteIndices
  asVoteIndex sortedIndices.length

/-- The votes in the order of their indices. -/
def sortedVotes (votes : Votes) : List StoredVoteRecord :=
  (sortBy (fun a b : ℕ × StoredVoteRecord => byNumber a.1 b.1) votes).map Prod.snd

def resolveCanonicalUserVoteIndex (votes : Votes) (explicitUserVoteIndex : Option ℕ) : JsM (Option ℕ) :=
  match explicitUserVoteIndex with
  | some index =>
    if index ≤ Num.maxSafeInteger ∧ (votes.lookup index).isSome then some <$> asVoteIndex index
      else .ok none
  | none => .ok none

def assertCanonicalUserVoteIndexForBotVotes (votes : Votes) (explicitUserVoteIndex : Option ℕ) :
    JsM ℕ := do
  let userVoteIndex ← resolveCanonicalUserVoteIndex votes explicitUserVoteIndex
  refuseIf (userVoteIndex ≠ some 0) (.error "USER_VOTE_REQUIRED_BEFORE_BOT_VOTES")
  asVoteIndex 0

def deriveBotCountFromVotes (votes : Votes) (explicitUserVoteIndex : Option ℕ) : JsM ℕ := do
  let _ ← assertCanonicalCtVoteIndices (votes.map Prod.fst)
  if votes.length = 0 then return 0
  else
    match ← resolveCanonicalUserVoteIndex votes explicitUserVoteIndex with
    | some userVoteIndex => return (votes.filter fun entry => entry.1 ≠ userVoteIndex).length
    | none => return votes.length - 1

/-! ### Root histories -/

/-- A positive integer. -/
def isPositiveInteger (value : Num) : Bool := value.isInteger && (Num.ofNat 0).lt value

def resolveSnapshotTimestamp (vote : StoredVoteRecord) (fallbackTimestamp : Num) : Num :=
  if isPositiveInteger vote.timestamp then vote.timestamp else fallbackTimestamp

def normalizePersistedRootSnapshot (value : RootSnapshot) : Option RootSnapshot :=
  if value.root = [] ∨ value.treeSize = 0 ∨ ¬ isPositiveInteger value.timestamp then none
  else (normalizeHex value.root orEmpty).toOption.map fun root => { value with root := root }

def parsePersistedRootHistory (value : List RootSnapshot) : Option (List RootSnapshot) :=
  value.mapM normalizePersistedRootSnapshot

/-- Whether the stored history has the recomputed sizes and roots. -/
def agreesWith (reconstructed persisted : List RootSnapshot) : Bool :=
  persisted.length = reconstructed.length &&
  (reconstructed.zip persisted).all fun pair => pair.2.treeSize = pair.1.treeSize &&
    pair.2.root = pair.1.root

/-- Recomputed roots, with the stored times and signatures where the stored history agrees. -/
def mergePersistedRootHistory (reconstructedHistory : List RootSnapshot)
    (persistedHistory : Option (List RootSnapshot)) : List RootSnapshot :=
  if reconstructedHistory.length = 0 then []
  else
    match persistedHistory with
    | none => reconstructedHistory
    | some persisted =>
      if ¬ agreesWith reconstructedHistory persisted then reconstructedHistory
      else (reconstructedHistory.zip persisted).map fun pair => { pair.1 with
        timestamp := pair.2.timestamp
        signature := pair.2.signature.or pair.1.signature }

/-- One vote appended to a tree of its own. -/
def rebuildHistoryStep (fallbackTimestamp : Num) (history : List RootSnapshot)
    (vote : StoredVoteRecord) :
    TreeM (List RootSnapshot) := do
  Merkle.append vote.commit
  let root ← getRoot noble sha256
  let normalized ← lifted (normalizeHex root orEmpty)
  return history ++
    [⟨resolveSnapshotTimestamp vote fallbackTimestamp, (← get).leaves.length, normalized, none⟩]

def rebuildCanonicalHistoryFromVotes (votes : Votes) (fallbackTimestamp : Num) :
    JsM (List RootSnapshot) := do
  let _ ← assertCanonicalCtVoteIndices (votes.map Prod.fst)
  (exec ((sortedVotes votes).foldlM (rebuildHistoryStep noble sha256 fallbackTimestamp) []) Tree.new).1

def getCanonicalBulletinRootHistory (votes : Votes) (bulletinRootHistory : List RootSnapshot)
    (fallbackTimestamp : Num) : JsM (List RootSnapshot) := do
  let reconstructedHistory ← rebuildCanonicalHistoryFromVotes noble sha256 votes fallbackTimestamp
  return mergePersistedRootHistory reconstructedHistory (parsePersistedRootHistory bulletinRootHistory)

/-! ### Boards -/

/-- What a method leaves in a new object, with its result. -/
def onNewBoard {α : Type} (call : BoardM α) (logId : JsString) : JsM (α × SimpleBulletinBoard) :=
  match exec call (SimpleBulletinBoard.new logId) with
  | (.ok a, board) => .ok (a, board)
  | (.error e, _) => .error e

/-- One stored vote on the board that is rebuilt; its time is read off a clock. -/
def rebuildBoardStep (history : List RootSnapshot) (vote : StoredVoteRecord × Num) :
    BoardM (List RootSnapshot) := do
  if vote.1.voteId = [] then return history
  else
    let appendResult ← appendVote noble sha256 vote.1.voteId (vote.1.commit.drop 2) vote.2
    let root ← lifted (normalizeHex appendResult.rootAtAppend orEmpty)
    return history ++
      [⟨resolveSnapshotTimestamp vote.1 appendResult.timestamp, appendResult.index + 1, root, none⟩]

/-- The readings of a clock, one for each element. -/
def timed {α : Type} (now : ℕ → Num) (l : List α) : List (α × Num) :=
  l.zipIdx.map fun entry => (entry.1, now entry.2)

def rebuildCanonicalBulletinFromVotes (votes : Votes) (logId : JsString) (now : ℕ → Num) :
    JsM (List RootSnapshot × SimpleBulletinBoard) := do
  let _ ← assertCanonicalCtVoteIndices (votes.map Prod.fst)
  onNewBoard ((timed now (sortedVotes votes)).foldlM (rebuildBoardStep noble sha256) []) logId

structure CanonicalCtSessionProjection where
  bulletin : SimpleBulletinBoard
  bulletinRootHistory : List RootSnapshot
  botCount : ℕ
  userParticipation : UserParticipation
  nextIndex : ℕ

def buildCanonicalCtSessionProjection (voting : SessionVotingRecord) (logId : JsString) (now : ℕ → Num)
    (fallbackTimestamp : Num) : JsM CanonicalCtSessionProjection := do
  let (_, bulletin) ← rebuildCanonicalBulletinFromVotes noble sha256 voting.votes logId now
  let bulletinRootHistory ←
    getCanonicalBulletinRootHistory noble sha256 voting.votes voting.bulletinRootHistory
      fallbackTimestamp
  let explicitUserVoteIndex := voteIndexOf voting.userParticipation
  let userVoteIndex ← resolveCanonicalUserVoteIndex voting.votes explicitUserVoteIndex
  let botCount ← deriveBotCountFromVotes voting.votes explicitUserVoteIndex
  let nextIndex ← assertCanonicalCtVoteIndices (voting.votes.map Prod.fst)
  return ⟨bulletin, bulletinRootHistory, botCount, participationAt userVoteIndex, nextIndex⟩

/-! ### Records that hold a board's entries -/

/-- Entries a board can list. -/
structure Distinct (entries : List Entry) : Prop where
  ids_nodup : (entries.map Prod.fst).Nodup
  commits_nodup : (commitsOf entries).Nodup
  ids_valid : ∀ entry ∈ entries, isValidVoteId entry.1 = true

/-- The votes hold the entries in order, each with the root of the board right after it was cast. -/
structure Holds (entries : List Entry) (votes : Votes) : Prop where
  keys_eq : votes.map Prod.fst = List.range entries.length
  ids_eq : votes.map (·.2.voteId) = entries.map Prod.fst
  commits_eq : votes.map (·.2.commit) = (commitsOf entries).map prefixed
  roots_eq : votes.map (·.2.rootAtCast) =
    (List.range entries.length).map fun k => prefixed (rootOf sha256 (entries.take (k + 1)))

variable {noble sha256} {entries : List Entry} {votes : Votes}

theorem Lists.distinct {board : SimpleBulletinBoard} (h : Lists sha256 entries board) :
    Distinct entries :=
  ⟨h.ids_nodup, h.commits_nodup, h.ids_valid⟩

/-- Each entry is fresh after those before it. -/
theorem Distinct.fresh (h : Distinct entries) {k : ℕ} {entry : Entry}
    (hentry : entries[k]? = some entry) :
    Fresh (entries.take k) entry := by
  obtain ⟨hk, rfl⟩ := List.getElem?_eq_some_iff.mp hentry
  have hsplit : entries.take k ++ entries[k] :: entries.drop (k + 1) = entries := by
    rw [← List.drop_eq_getElem_cons hk, List.take_append_drop]
  refine ⟨h.ids_valid _ (List.getElem_mem hk), ?_, ?_⟩
  · have hnodup := h.ids_nodup
    rw [← hsplit, List.map_append, List.nodup_append] at hnodup
    intro hmem
    exact hnodup.2.2 _ hmem _ (List.mem_map_of_mem List.mem_cons_self) rfl
  · have hnodup := h.commits_nodup
    rw [← hsplit, commitsOf, List.map_append, List.nodup_append] at hnodup
    intro hmem
    exact hnodup.2.2 _ hmem _ (List.mem_map_of_mem List.mem_cons_self) rfl

theorem Holds.length_eq (h : Holds sha256 entries votes) : votes.length = entries.length := by
  have hkeys := congrArg List.length h.keys_eq
  rwa [List.length_map, List.length_range] at hkeys

/-- The vote at a position, field by field. -/
theorem Holds.get (h : Holds sha256 entries votes) {k : ℕ} {index : ℕ} {vote : StoredVoteRecord}
    (hvote : votes[k]? = some (index, vote)) :
    ∃ entry, entries[k]? = some entry ∧ index = k ∧ vote.voteId = entry.1 ∧
      vote.commit = prefixed entry.2 ∧
      vote.rootAtCast = prefixed (rootOf sha256 (entries.take (k + 1))) := by
  obtain ⟨hk, -⟩ := List.getElem?_eq_some_iff.mp hvote
  rw [h.length_eq] at hk
  have hentry : entries[k]? = some entries[k] := List.getElem?_eq_getElem hk
  refine ⟨entries[k], hentry, ?_, ?_, ?_, ?_⟩
  · have hkeys := congrArg (·[k]?) h.keys_eq
    simpa [hvote, hk] using hkeys
  · have hids := congrArg (·[k]?) h.ids_eq
    simpa [hvote, hentry] using hids
  · have hcommits := congrArg (·[k]?) h.commits_eq
    simpa [hvote, hentry, commitsOf] using hcommits
  · have hroots := congrArg (·[k]?) h.roots_eq
    simpa [hvote, hk] using hroots

theorem Holds.keys_sorted (h : Holds sha256 entries votes) : votes.Pairwise fun a b => a.1 ≤ b.1 := by
  have hrange : (votes.map Prod.fst).Pairwise (· ≤ ·) := by
    rw [h.keys_eq]
    exact List.pairwise_le_range
  exact List.pairwise_map.mp hrange

/-- The votes are listed in the order of their indices. -/
theorem Holds.sortedVotes_eq (h : Holds sha256 entries votes) :
    sortedVotes votes = votes.map Prod.snd := by
  rw [sortedVotes, sortBy_of_sorted]
  exact h.keys_sorted.imp fun hle => byNumber_not_pos hle

theorem Holds.sortedVotes_length (h : Holds sha256 entries votes) :
    (sortedVotes votes).length = entries.length := by
  rw [h.sortedVotes_eq, List.length_map, h.length_eq]

theorem Holds.canonical (h : Holds sha256 entries votes) (hsize : entries.length ≤ Num.maxSafeInteger) :
    assertCanonicalCtVoteIndices (votes.map Prod.fst) = .ok entries.length := by
  have hsorted : sortBy byNumber (List.range entries.length) = List.range entries.length :=
    sortBy_of_sorted (List.pairwise_le_range.imp fun hle => byNumber_not_pos hle)
  have hloop : (List.range entries.length).zipIdx.forM (fun index =>
      refuseIf (Num.maxSafeInteger < index.1 ∨ index.1 ≠ index.2) nonCanonicalCtVoteIndices) =
        .ok () := by
    refine forM_of_forall fun index hindex => refuseIf_of_not ?_
    rw [List.mem_zipIdx_iff_getElem?] at hindex
    obtain ⟨hlt, heq⟩ := List.getElem?_eq_some_iff.mp hindex
    rw [List.length_range] at hlt
    rw [List.getElem_range] at heq
    omega
  rw [assertCanonicalCtVoteIndices, h.keys_eq, hsorted, hloop, ok_bind, List.length_range]
  exact asIndex_of_le _ hsize

theorem Holds.lookup_zero (h : Holds sha256 entries votes) (hpos : 0 < entries.length) :
    ∃ vote, votes.lookup 0 = some vote ∧ votes[0]? = some (0, vote) := by
  obtain ⟨⟨index, vote⟩, hvote⟩ : ∃ found, votes[0]? = some found :=
    ⟨_, List.getElem?_eq_getElem (h.length_eq ▸ hpos)⟩
  obtain ⟨-, -, rfl, -⟩ := h.get hvote
  refine ⟨vote, lookup_of_mem ?_ (List.mem_of_getElem? hvote), hvote⟩
  rw [h.keys_eq]
  exact List.nodup_range

theorem Holds.resolveCanonicalUserVoteIndex_zero (h : Holds sha256 entries votes)
    (hpos : 0 < entries.length) :
    resolveCanonicalUserVoteIndex votes (some 0) = .ok (some 0) := by
  obtain ⟨vote, hlookup, -⟩ := h.lookup_zero hpos
  have hindex : asVoteIndex ((0 : ℕ) : ℤ) = .ok 0 := asIndex_of_le _ (Nat.zero_le _)
  simp only [resolveCanonicalUserVoteIndex, hlookup, Option.isSome_some, Nat.zero_le, and_self,
    if_true, hindex]
  rfl

/-- All votes but the user's are the bots'. -/
theorem Holds.deriveBotCount_ok (h : Holds sha256 entries votes)
    (hsize : entries.length ≤ Num.maxSafeInteger) (hpos : 0 < entries.length) :
    deriveBotCountFromVotes votes (some 0) = .ok (entries.length - 1) := by
  have hcount : (votes.filter fun entry => entry.1 ≠ 0).length = entries.length - 1 := by
    obtain ⟨n, hn⟩ := Nat.exists_eq_succ_of_ne_zero hpos.ne'
    calc (votes.filter fun entry => entry.1 ≠ 0).length
        = ((votes.map Prod.fst).filter fun index => index ≠ 0).length := by
          rw [List.filter_map, List.length_map]
          rfl
      _ = ((List.range n).map Nat.succ).length := by
          rw [h.keys_eq, hn, List.range_succ_eq_map, List.filter_cons_of_neg (by simp),
            List.filter_eq_self.mpr]
          intro index hindex
          obtain ⟨k, -, rfl⟩ := List.mem_map.mp hindex
          simp
      _ = entries.length - 1 := by simp [hn]
  have hne : votes.length ≠ 0 := by
    rw [h.length_eq]
    omega
  rw [deriveBotCountFromVotes, h.canonical hsize, ok_bind, if_neg hne,
    h.resolveCanonicalUserVoteIndex_zero hpos, ok_bind]
  exact congrArg Except.ok hcount

/-! ### Histories -/

variable (sha256) in
/-- A history with one snapshot for each entry: its size and a spelling of the root at that size. -/
structure Snapshots (entries : List Entry) (history : List RootSnapshot) : Prop where
  length_eq : history.length = entries.length
  get : ∀ k snapshot, history[k]? = some snapshot → snapshot.treeSize = k + 1 ∧
    Spells snapshot.root (rootOf sha256 (entries.take (k + 1))).toList

theorem snapshots_nil : Snapshots sha256 [] [] := ⟨rfl, by simp⟩

/-- One more entry and its snapshot. -/
theorem Snapshots.concat {history : List RootSnapshot} (h : Snapshots sha256 entries history)
    (entry : Entry) {snapshot : RootSnapshot} (hsize : snapshot.treeSize = entries.length + 1)
    (hroot : Spells snapshot.root (rootOf sha256 (entries ++ [entry])).toList) :
    Snapshots sha256 (entries ++ [entry]) (history ++ [snapshot]) where
  length_eq := by simp [h.length_eq]
  get := by
    intro k found hfound
    rcases Nat.lt_or_ge k history.length with hk | hk
    · rw [List.getElem?_append_left hk] at hfound
      rw [List.take_append_of_le_length (by rw [← h.length_eq]; omega)]
      exact h.get k found hfound
    · rw [List.getElem?_append_right hk, List.getElem?_singleton] at hfound
      split at hfound
      · rename_i hlast
        obtain rfl := Option.some.inj hfound
        have hlen : k = entries.length := by rw [← h.length_eq]; omega
        rw [hlen, List.take_of_length_le (by simp)]
        exact ⟨hsize, hroot⟩
      · cases hfound

/-- Merging takes over times and signatures only. -/
theorem Snapshots.merge {history : List RootSnapshot} (h : Snapshots sha256 entries history)
    (persisted : Option (List RootSnapshot)) :
    Snapshots sha256 entries (mergePersistedRootHistory history persisted) := by
  unfold mergePersistedRootHistory
  split
  · rename_i hzero
    rwa [← List.length_eq_zero_iff.mp hzero]
  split
  · exact h
  · rename_i persisted
    split
    · exact h
    · rename_i hagrees
      rw [not_not, agreesWith, Bool.and_eq_true, decide_eq_true_eq] at hagrees
      refine ⟨?_, ?_⟩
      · rw [List.length_map, List.length_zip, hagrees.1, Nat.min_self, h.length_eq]
      · intro k snapshot hsnapshot
        rw [List.getElem?_map, Option.map_eq_some_iff] at hsnapshot
        obtain ⟨pair, hpair, rfl⟩ := hsnapshot
        exact h.get k pair.1 (List.getElem?_zip_eq_some.mp hpair).1

theorem take_succ_of_get {k : ℕ} {entry : Entry} (hentry : entries[k]? = some entry) :
    entries.take (k + 1) = entries.take k ++ [entry] := by
  rw [List.take_add_one, hentry, Option.toList_some]

/-- A vote of the list, found where the loop stands. -/
theorem get_of_split {α : Type} {l done rest : List α} {a : α} (h : l = done ++ a :: rest) :
    l[done.length]? = some a := by
  rw [h, List.getElem?_append_right le_rfl, Nat.sub_self, List.getElem?_cons_zero]

/-- The vote that a loop over the sorted votes has come to. -/
theorem Holds.get_of_split (h : Holds sha256 entries votes) {done rest : List StoredVoteRecord}
    {vote : StoredVoteRecord} (hsplit : sortedVotes votes = done ++ vote :: rest) :
    ∃ entry, entries[done.length]? = some entry ∧ vote.voteId = entry.1 ∧
    vote.commit = prefixed entry.2 := by
  have hvote := Domain.get_of_split hsplit
  rw [h.sortedVotes_eq, List.getElem?_map, Option.map_eq_some_iff] at hvote
  obtain ⟨⟨index, vote⟩, hvote, rfl⟩ := hvote
  obtain ⟨entry, hentry, -, hid, hcommit, -⟩ := h.get hvote
  exact ⟨entry, hentry, hid, hcommit⟩

/-- One step of the recomputed history, for the vote at the next position. -/
theorem rebuildHistoryStep_ok {done : List Entry} {entry : Entry} {vote : StoredVoteRecord} {tree : Tree}
    {history : List RootSnapshot} (hcommit : vote.commit = prefixed entry.2)
    (hcoherent : Coherent sha256 (commitsOf done) tree) (hleaves : tree.leaves.length = done.length)
    (hhistory : Snapshots sha256 done history) (fallbackTimestamp : Num) :
    ∃ history' tree', exec (rebuildHistoryStep noble sha256 fallbackTimestamp history vote) tree =
        (.ok history', tree') ∧
      Coherent sha256 (commitsOf (done ++ [entry])) tree' ∧ tree'.leaves.length = done.length + 1 ∧
      Snapshots sha256 (done ++ [entry]) history' := by
  obtain ⟨tree₁, happend, hcoherent₁, hleaves₁⟩ :=
    tree_append hcoherent entry (prefixed_spells entry.2.toList)
  obtain ⟨tree₂, hroot, hcoherent₂, hleaves₂⟩ := tree_getRoot noble hcoherent₁ (by simp)
  have hsize : tree₂.leaves.length = done.length + 1 := by
    rw [hleaves₂, hleaves₁, List.length_append, hleaves, List.length_singleton]
  let snapshot : RootSnapshot := ⟨resolveSnapshotTimestamp vote fallbackTimestamp, tree₂.leaves.length,
    prefixed (rootOf sha256 (done ++ [entry])), none⟩
  have hsnapshots : Snapshots sha256 (done ++ [entry]) (history ++ [snapshot]) :=
    hhistory.concat entry hsize (prefixed_spells _)
  refine ⟨history ++ [snapshot], tree₂, ?_, hcoherent₂, hsize, hsnapshots⟩
  have hnormal := normalizeHex_text (rootOf sha256 (done ++ [entry])) true
  unfold rebuildHistoryStep
  rw [hcommit]
  simp only [exec_bind, show exec (Merkle.append (prefixed entry.2)) tree = _ from happend, hroot,
    exec_lifted, orEmpty, hnormal, exec_get, exec_pure, snapshot]

/-- The recomputed history has the roots of the entries. -/
theorem rebuildCanonicalHistory_ok (h : Holds sha256 entries votes)
    (hsize : entries.length ≤ Num.maxSafeInteger) (fallbackTimestamp : Num) :
    ∃ history, rebuildCanonicalHistoryFromVotes noble sha256 votes fallbackTimestamp = .ok history ∧
      Snapshots sha256 entries history := by
  have hloop := @exec_foldlM_returns JsError Tree _ _ (sortedVotes votes)
    (fun done history tree => (Coherent sha256 (commitsOf (entries.take done.length)) tree ∧
      tree.leaves.length = (entries.take done.length).length) ∧
      Snapshots sha256 (entries.take done.length) history)
    (rebuildHistoryStep noble sha256 fallbackTimestamp) [] Tree.new ⟨⟨coherent_new, rfl⟩, snapshots_nil⟩
  obtain ⟨history, tree, hexec, -, hsnapshots⟩ := hloop (by
    intro done vote rest hsplit history tree ⟨⟨hcoherent, hleaves⟩, hhistory⟩
    obtain ⟨entry, hentry, -, hcommit⟩ := h.get_of_split hsplit
    obtain ⟨history', tree', hexec, hcoherent', hleaves', hhistory'⟩ :=
      @rebuildHistoryStep_ok noble _ _ entry _ _ _ hcommit hcoherent hleaves hhistory fallbackTimestamp
    rw [List.length_append, List.length_singleton, take_succ_of_get hentry, List.length_append,
      List.length_singleton]
    exact ⟨history', tree', hexec, ⟨hcoherent', hleaves'⟩, hhistory'⟩)
  rw [h.sortedVotes_length, List.take_length] at hsnapshots
  refine ⟨history, ?_, hsnapshots⟩
  rw [rebuildCanonicalHistoryFromVotes, h.canonical hsize, ok_bind, hexec]

theorem getCanonicalBulletinRootHistory_ok (h : Holds sha256 entries votes)
    (hsize : entries.length ≤ Num.maxSafeInteger) (bulletinRootHistory : List RootSnapshot)
    (fallbackTimestamp : Num) :
    ∃ history, getCanonicalBulletinRootHistory noble sha256 votes bulletinRootHistory
      fallbackTimestamp = .ok history ∧
      Snapshots sha256 entries history := by
  obtain ⟨history, hrebuild, hsnapshots⟩ :=
    @rebuildCanonicalHistory_ok noble _ _ _ h hsize fallbackTimestamp
  refine ⟨_, ?_, hsnapshots.merge (parsePersistedRootHistory bulletinRootHistory)⟩
  rw [getCanonicalBulletinRootHistory, hrebuild, ok_bind]
  rfl

/-! ### Rebuilt boards -/

theorem drop_prefixed (c : Bytes 32) : (prefixed c).drop 2 = text c := rfl

theorem timed_fst {α : Type} (now : ℕ → Num) (l : List α) : (timed now l).map Prod.fst = l := by
  rw [timed, List.map_map]
  exact List.zipIdx_map_fst 0 l

@[simp] theorem timed_length {α : Type} (now : ℕ → Num) (l : List α) :
    (timed now l).length = l.length := by
  rw [timed, List.length_map, List.length_zipIdx]

/-- Appends of stored votes to a new board, in whatever way a loop makes them, list the entries. -/
theorem onNewBoard_ok {α : Type} (h : Holds sha256 entries votes) (hdistinct : Distinct entries)
    (hsize : entries.length ≤ Num.maxSafeInteger) {step : α → StoredVoteRecord × Num → BoardM α}
    (hstep : ∀ a vote now board done entry, vote.voteId = entry.1 → vote.commit = prefixed entry.2 →
      Lists sha256 done board → Fresh done entry → done.length ≤ Num.maxSafeInteger →
      ∃ a' board', exec (step a (vote, now)) board = (.ok a', board') ∧
        Lists sha256 (done ++ [entry]) board' ∧
        board'.logId = board.logId) (a : α) (now : ℕ → Num) (logId : JsString) :
    ∃ a' board, onNewBoard ((timed now (sortedVotes votes)).foldlM step a) logId = .ok (a', board) ∧
      Lists sha256 entries board ∧ board.logId = logId := by
  have hloop := @exec_foldlM_returns JsError SimpleBulletinBoard _ _ (timed now (sortedVotes votes))
    (fun done _ board => Lists sha256 (entries.take done.length) board ∧ board.logId = logId)
    step a (SimpleBulletinBoard.new logId) ⟨lists_new logId, rfl⟩
  obtain ⟨a', board, hexec, hlists, hlog⟩ := hloop (by
    rintro done ⟨vote, time⟩ rest hsplit a board ⟨hlists, hlog⟩
    have hvotes : sortedVotes votes = done.map Prod.fst ++ vote :: rest.map Prod.fst := by
      rw [← timed_fst now (sortedVotes votes), hsplit, List.map_append, List.map_cons]
    obtain ⟨entry, hentry, hid, hcommit⟩ := h.get_of_split hvotes
    rw [List.length_map] at hentry
    obtain ⟨a', board', hexec, hlists', hlog'⟩ :=
      hstep a vote time board _ entry hid hcommit hlists (hdistinct.fresh hentry) (by simp; omega)
    rw [List.length_append, List.length_singleton, take_succ_of_get hentry]
    exact ⟨a', board', hexec, hlists', hlog'.trans hlog⟩)
  rw [timed_length, h.sortedVotes_length, List.take_length] at hlists
  refine ⟨a', board, ?_, hlists, hlog⟩
  rw [onNewBoard, hexec]

theorem voteId_ne_nil {done : List Entry} {entry : Entry} (h : Fresh done entry) : entry.1 ≠ [] := by
  intro hnil
  have hvalid := h.valid_id
  rw [hnil] at hvalid
  exact absurd hvalid (by decide)

variable (noble) in
theorem rebuildBoardStep_ok (history : List RootSnapshot) (vote : StoredVoteRecord) (now : Num)
    (board : SimpleBulletinBoard) (done : List Entry) (entry : Entry) (hid : vote.voteId = entry.1)
    (hcommit : vote.commit = prefixed entry.2) (hlists : Lists sha256 done board)
    (hfresh : Fresh done entry) (hdone : done.length ≤ Num.maxSafeInteger) :
    ∃ history' board', exec (rebuildBoardStep noble sha256 history (vote, now)) board =
      (.ok history', board') ∧
      Lists sha256 (done ++ [entry]) board' ∧ board'.logId = board.logId := by
  obtain ⟨board', happend, hlists', hlog⟩ := appendVote_fresh noble hlists hfresh hdone now
  have hne := voteId_ne_nil hfresh
  have hnormal := normalizeHex_text (rootOf sha256 (done ++ [entry])) true
  refine ⟨history ++ [⟨resolveSnapshotTimestamp vote now, done.length + 1,
    prefixed (rootOf sha256 (done ++ [entry])), none⟩], board', ?_, hlists', hlog⟩
  unfold rebuildBoardStep
  simp only [hid, if_neg hne, hcommit, drop_prefixed, exec_bind, happend, exec_lifted, orEmpty,
    hnormal, exec_pure]

theorem rebuildCanonicalBulletin_ok (h : Holds sha256 entries votes) (hdistinct : Distinct entries)
    (hsize : entries.length ≤ Num.maxSafeInteger) (logId : JsString) (now : ℕ → Num) :
    ∃ history board, rebuildCanonicalBulletinFromVotes noble sha256 votes logId now = .ok
      (history, board) ∧
      Lists sha256 entries board ∧ board.logId = logId := by
  rw [rebuildCanonicalBulletinFromVotes, h.canonical hsize, ok_bind]
  exact onNewBoard_ok h hdistinct hsize (rebuildBoardStep_ok noble) [] now logId

/-- The projection of a record whose user vote comes first. -/
theorem projection_ok {voting : SessionVotingRecord} (h : Holds sha256 entries voting.votes)
    (hdistinct : Distinct entries) (hsize : entries.length ≤ Num.maxSafeInteger)
    (hpos : 0 < entries.length) (hcast : voting.userParticipation = .cast 0) (logId : JsString)
    (now : ℕ → Num) (fallbackTimestamp : Num) :
    ∃ board history, buildCanonicalCtSessionProjection noble sha256 voting logId now fallbackTimestamp =
        .ok ⟨board, history, entries.length - 1, .cast 0, entries.length⟩ ∧
      Lists sha256 entries board ∧ board.logId = logId ∧ Snapshots sha256 entries history := by
  obtain ⟨_, board, hrebuild, hlists, hlog⟩ :=
    @rebuildCanonicalBulletin_ok noble _ _ _ h hdistinct hsize logId now
  obtain ⟨history, hhistory, hsnapshots⟩ :=
    @getCanonicalBulletinRootHistory_ok noble _ _ _ h hsize voting.bulletinRootHistory fallbackTimestamp
  refine ⟨board, history, ?_, hlists, hlog, hsnapshots⟩
  have huser := h.resolveCanonicalUserVoteIndex_zero hpos
  have hbots := h.deriveBotCount_ok hsize hpos
  simp only [buildCanonicalCtSessionProjection, hrebuild, ok_bind, hhistory, hcast, voteIndexOf,
    huser, hbots, h.canonical hsize]
  rfl

end StarkBallot.Domain
