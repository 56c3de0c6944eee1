import StarkBallot.AwsAdapters.VoteItems

/-! A voting record comes back from the store. If the items hold the votes of a sound record whose
    history has the votes' times, every check of the restore passes, in whatever order the items arrive:
    each vote finds its place on the new board, its commitment opens and the three accounts of each root
    agree. What comes back is sound again, so evaluations, stores and restores may follow
    each other in any order. -/

namespace StarkBallot.AwsAdapters.Dynamo
open Schemes ContractCore CryptoPrimitives Merkle Domain Application

variable {noble : NobleUtils} {sha256 : List UInt8 → Bytes 32} {cipher : VoteSecretCipher} {U : Type}
  {entries : List Entry}

/-! ### One vote -/

theorem normalizeStrictHex32_of_spells {hex : JsString} {b : Bytes 32} (h : Spells hex b.toList) :
    normalizeStrictHex32 hex = .ok (prefixed b) := by
  rw [normalizeStrictHex32, refuseIf_of_not (not_not.mpr (isValidHexString_spelling h)), ok_bind]
  exact normalizeHex_of_spelling h false false

theorem normalizeStrictHex32_prefixed (b : Bytes 32) :
    normalizeStrictHex32 (prefixed b) = .ok (prefixed b) :=
  normalizeStrictHex32_of_spells (prefixed_spells b.toList)

theorem parseVoteChoice_text (choice : VoteChoice) :
    parseVoteChoice (choiceText choice) = some choice := by
  cases choice <;> decide

theorem idxOf_choice (choice : VoteChoice) : voteChoices.idxOf? choice = some choice.toNumber := by
  cases choice <;> decide

/-- The item holds the vote: its opening decrypts to the vote's, the rest is written out. -/
structure ItemOf (cipher : VoteSecretCipher) (index : ℕ) (vote : StoredVoteRecord) (item : VoteItem) :
    Prop where
  voteIndex_eq : item.voteIndex = index
  voteId_eq : item.voteId = vote.voteId
  vote_eq : cipher.decryptVoteSecret item.vote = .ok (choiceText vote.vote)
  rand_eq : cipher.decryptVoteSecret item.rand = .ok vote.rand
  commit_eq : item.commit = vote.commit
  timestamp_eq : item.timestamp = vote.timestamp
  rootAtCast_eq : item.rootAtCast = vote.rootAtCast
  isUserVote_eq : item.isUserVote = decide (index = 0)

theorem toVoteItem_itemOf (nonces : Nonces) (sessionId : JsString) (index : ℕ) (vote : StoredVoteRecord)
    (expiresAt : ℕ) :
    ItemOf cipher index vote
      (toVoteItem cipher nonces sessionId index vote (decide (index = 0)) expiresAt) where
  voteIndex_eq := rfl
  voteId_eq := rfl
  vote_eq := cipher.roundTrip _ _
  rand_eq := cipher.roundTrip _ _
  commit_eq := rfl
  timestamp_eq := rfl
  rootAtCast_eq := rfl
  isUserVote_eq := rfl

/-- The vote comes back as it was. -/
theorem ItemOf.toStoredVoteRecord_ok {index : ℕ} {vote : StoredVoteRecord} {item : VoteItem}
    (h : ItemOf cipher index vote item) {commit root : Bytes 32}
    (hcommit : vote.commit = prefixed commit) (hroot : vote.rootAtCast = prefixed root)
    (hrand : Normal vote.rand) : toStoredVoteRecord cipher item = .ok vote := by
  have hnormal := normalizeHex_of_normal hrand true
  simp only [toStoredVoteRecord, h.vote_eq, h.rand_eq, h.commit_eq, h.rootAtCast_eq, h.voteId_eq,
    h.timestamp_eq, ok_bind, orEmpty, hnormal, parseVoteChoice_text, okOr, hcommit, hroot,
    normalizeStrictHex32_prefixed]
  rw [mapErr_eq_ok, ← hcommit, ← hroot]
  rfl

/-! ### All votes -/

abbrev ItemsOf (cipher : VoteSecretCipher) (votes : Votes) (items : List VoteItem) : Prop :=
  List.Forall₂ (fun entry item => ItemOf cipher entry.1 entry.2 item) votes items

/-- The snapshot that a restore makes for a vote. -/
def snapshotOf (entry : ℕ × StoredVoteRecord) : RootSnapshot :=
  ⟨entry.2.timestamp, entry.1 + 1, entry.2.rootAtCast, none⟩

/-- What a loop over the items has after those of the votes. -/
def restoredFrom (votes : Votes) : RestoredVotes :=
  ⟨votes, votes.map snapshotOf, votes.map (·.2.voteId)⟩

section Restore

variable {identity : SessionIdentityRecord} {voting : SessionVotingRecord} {items : List VoteItem}

theorem ItemsOf.sorted (hitems : ItemsOf cipher voting.votes items)
    (h : Domain.Holds sha256 entries voting.votes) :
    items.Pairwise fun left right => left.voteIndex < right.voteIndex := by
  have hkeys : items.map (·.voteIndex) = voting.votes.map Prod.fst :=
    map_eq_of_forall₂ (hitems.imp fun _ _ hitem => hitem.voteIndex_eq)
  have hrange : (items.map (·.voteIndex)).Pairwise (· < ·) := by
    rw [hkeys, h.keys_eq]
    exact List.pairwise_lt_range
  exact List.pairwise_map.mp hrange

/-- A stored vote opens, and its item restores it. -/
theorem restoreVoteItem_ok (h : Sound noble sha256 identity.electionId entries voting)
    (hitems : ItemsOf cipher voting.votes items) {k : ℕ} {item : VoteItem}
    (hitem : items[k]? = some item) {board : SimpleBulletinBoard}
    (hlists : Lists sha256 (entries.take k) board) (now : Num) :
    ∃ board', exec (restoreVoteItem noble sha256 cipher identity (restoredFrom (voting.votes.take k))
        ((item, k), now)) board = (.ok (restoredFrom (voting.votes.take (k + 1))), board') ∧
      Lists sha256 (entries.take (k + 1)) board' ∧ board'.logId = board.logId := by
  obtain ⟨⟨index, vote⟩, hvote, hitemOf⟩ := get_of_forall₂ hitems hitem
  obtain ⟨entry, hentry, hindex, hid, hcommit, hroot⟩ := h.holds.get hvote
  subst index
  have hopened := h.opened _ (List.mem_of_getElem? hvote)
  have hfresh := h.lists.distinct.fresh hentry
  have hk : k < entries.length := (List.getElem?_eq_some_iff.mp hentry).1
  have htake : voting.votes.take (k + 1) = voting.votes.take k ++ [(k, vote)] := by
    rw [List.take_add_one, hvote, Option.toList_some]
  have hdone : (entries.take k).length = k := by rw [List.length_take, Nat.min_eq_left hk.le]
  obtain ⟨board', happend, hlists', hlog⟩ :=
    appendVote_fresh noble hlists hfresh (by rw [hdone]; exact hk.le.trans h.safe) now
  rw [← take_succ_of_get hentry] at happend hlists'
  have hkeys : k ∉ (voting.votes.take k).map Prod.fst := by
    rw [List.map_take, h.holds.keys_eq, List.take_range, List.mem_range]
    omega
  have hids : (voting.votes.take k).map (·.2.voteId) = (entries.take k).map Prod.fst := by
    rw [List.map_take, h.holds.ids_eq, List.map_take]
  have hseen : vote.voteId ∉ (voting.votes.take k).map (·.2.voteId) := by
    rw [hids, hid]
    exact hfresh.new_id
  have hplace :
      ¬ (item.voteIndex ≠ k ∨ item.voteId ∈ (restoredFrom (voting.votes.take k)).seenVoteIds) := by
    rw [not_or, not_not, hitemOf.voteId_eq]
    exact ⟨hitemOf.voteIndex_eq, hseen⟩
  have hstored := hitemOf.toStoredVoteRecord_ok hcommit hroot hopened.normal
  have hcommitment :
      ZkvmContract.computeCommitment noble sha256 identity.electionId
        (.ofNat vote.vote.toNumber) vote.rand =
      .ok (prefixed entry.2) := by rw [← hcommit]; exact hopened.commit_eq
  have hrootText : normalizeStrictHex32 (text (rootOf sha256 (entries.take (k + 1)))) =
      .ok (prefixed (rootOf sha256 (entries.take (k + 1)))) :=
      normalizeStrictHex32_of_spells (text_spells _)
  refine ⟨board', ?_, hlists', hlog⟩
  unfold restoreVoteItem
  simp only [if_neg hplace, exec_bind, exec_lifted, hstored, idxOf_choice, hcommitment,
    normalizeStrictHex32_prefixed, hcommit, ne_eq, not_true_eq_false, if_false, drop_prefixed, hid,
    orUnavailable_exec, happend, mapErr, hrootText, hroot, hdone, or_self, exec_pure]
  rw [htake]
  simp only [restoredFrom, List.map_append, List.map_singleton, mapSet_of_not_mem hkeys,
    setAdd_of_not_mem hseen, snapshotOf, hroot, hitemOf.voteId_eq]

/-- RUN: all votes come back, on a board that lists them. -/
theorem restoreVoteItems_ok (h : Sound noble sha256 identity.electionId entries voting)
    (hitems : ItemsOf cipher voting.votes items) (now : ℕ → Num) :
    ∃ board, restoreVoteItems noble sha256 cipher identity items now = .ok
      (restoredFrom voting.votes, board) ∧
      Lists sha256 entries board ∧ board.logId = identity.logId := by
  have hcount : items.length = entries.length := by rw [← hitems.length_eq, h.holds.length_eq]
  have hloop := @exec_foldlM_returns JsError SimpleBulletinBoard _ _ (timed now items.zipIdx)
    (fun done restored board => restored = restoredFrom (voting.votes.take done.length) ∧
      Lists sha256 (entries.take done.length) board ∧ board.logId = identity.logId)
    (restoreVoteItem noble sha256 cipher identity) ⟨[], [], []⟩ (SimpleBulletinBoard.new identity.logId)
    ⟨rfl, lists_new _, rfl⟩
  obtain ⟨restored, board, hexec, rfl, hlists, hlog⟩ := hloop (by
    rintro done ⟨⟨item, index⟩, time⟩ rest hsplit restored board ⟨rfl, hlists, hlog⟩
    obtain ⟨hitem, rfl⟩ := get_of_timed_split hsplit
    obtain ⟨board', hexec, hlists', hlog'⟩ := restoreVoteItem_ok h hitems hitem hlists time
    rw [List.length_append, List.length_singleton]
    exact ⟨_, board', hexec, rfl, hlists', hlog'.trans hlog⟩)
  rw [timed_length, List.length_zipIdx, hcount, List.take_length] at hlists
  refine ⟨board, ?_, hlists, hlog⟩
  rw [restoreVoteItems, onNewBoard, hexec, timed_length, List.length_zipIdx,
    hcount, ← h.holds.length_eq, List.take_length]

/-! ### History and participation -/

/-- The snapshot as it was, its root normalized. -/
structure SameSnapshot (snapshot restored : RootSnapshot) : Prop where
  timestamp_eq : restored.timestamp = snapshot.timestamp
  treeSize_eq : restored.treeSize = snapshot.treeSize
  signature_eq : restored.signature = snapshot.signature
  root_eq : normalizeHex snapshot.root = .ok restored.root

theorem eq_of_isPositiveInteger {a : Num} (h : isPositiveInteger a = true) : a.eq a = true := by
  cases a with
  | nan => cases h
  | infinity _ => cases h
  | finite value => simp [Num.eq]

/-- A snapshot that agrees with its vote. -/
theorem restoreRootSnapshot_ok (h : Sound noble sha256 identity.electionId entries voting)
    (htimed : Timed voting.votes voting.bulletinRootHistory) {k : ℕ} {entry : ℕ × StoredVoteRecord}
    {snapshot : RootSnapshot} (hvote : voting.votes[k]? = some entry)
    (hsnapshot : voting.bulletinRootHistory[k]? = some snapshot) :
    restoreRootSnapshot voting.bulletinRootHistory voting.votes (snapshotOf entry, k) =
        .ok { snapshot with root := entry.2.rootAtCast } ∧
      SameSnapshot snapshot { snapshot with root := entry.2.rootAtCast } := by
  obtain ⟨index, vote⟩ := entry
  obtain ⟨entry, hentry, hindex, hid, hcommit, hroot⟩ := h.holds.get hvote
  subst index
  obtain ⟨hsize, hspells⟩ := h.snapshots.get k snapshot hsnapshot
  have hlookup : voting.votes.lookup k = some vote :=
    lookup_of_mem (h.holds.keys_eq ▸ List.nodup_range) (List.mem_of_getElem? hvote)
  have htime : snapshot.timestamp = vote.timestamp := by
    have htimes := congrArg (·[k]?) htimed.times_eq
    simpa [hsnapshot, hvote] using htimes
  have hsame : snapshot.timestamp.eq vote.timestamp = true := by
    rw [htime]
    exact eq_of_isPositiveInteger (htimed.positive _ (List.mem_of_getElem? hvote))
  have hstrict := normalizeStrictHex32_of_spells hspells
  refine ⟨?_, rfl, rfl, rfl, ?_⟩
  · simp only [restoreRootSnapshot, snapshotOf, hsnapshot, okOr, ok_bind, hsize, hstrict, hroot,
      hlookup, Option.any_some, hsame, refuseIf, ne_eq, not_true_eq_false, if_false]
    rfl
  · rw [hroot]
    exact normalizeHex_of_spells hspells false

theorem restorePersistedRootHistory_ok (h : Sound noble sha256 identity.electionId entries voting)
    (htimed : Timed voting.votes voting.bulletinRootHistory) :
    ∃ history, restorePersistedRootHistory voting.bulletinRootHistory (voting.votes.map snapshotOf)
        voting.votes = .ok history ∧ List.Forall₂ SameSnapshot voting.bulletinRootHistory history := by
  have hlength : voting.bulletinRootHistory.length = voting.votes.length := by
    rw [h.snapshots.length_eq, h.holds.length_eq]
  let restore (entry : ℕ × StoredVoteRecord) (snapshot : RootSnapshot) : RootSnapshot :=
    { snapshot with root := entry.2.rootAtCast }
  have hstep (k : ℕ) (hvote : k < voting.votes.length)
      (hsnapshot : k < voting.bulletinRootHistory.length) :=
    restoreRootSnapshot_ok h htimed (List.getElem?_eq_getElem hvote) (List.getElem?_eq_getElem hsnapshot)
  refine ⟨List.zipWith restore voting.votes voting.bulletinRootHistory, ?_, ?_⟩
  · rw [restorePersistedRootHistory, refuseIf_of_not (by rw [List.length_map, hlength, not_not]),
      ok_bind]
    refine mapM_of_forall₂ (List.forall₂_iff_get.mpr ⟨by simp [hlength], ?_⟩)
    intro k hk hk'
    simp only [List.length_zipIdx, List.length_map] at hk
    simpa [restore] using (hstep k hk (hlength ▸ hk)).1
  · refine List.forall₂_iff_get.mpr ⟨by simp [hlength], ?_⟩
    intro k hk hk'
    simpa [restore] using (hstep k (hlength ▸ hk) hk).2

theorem assertPersistedParticipation_ok (h : Sound noble sha256 identity.electionId entries voting)
    (hitems : ItemsOf cipher voting.votes items) :
    assertPersistedParticipation (toPersistedVotingRecord voting) items voting.votes = .ok () := by
  have hcount : items.length = entries.length := by rw [← hitems.length_eq, h.holds.length_eq]
  have hflag : ∀ k item, items[k]? = some item → item.isUserVote = decide (k = 0) := by
    intro k item hitem
    obtain ⟨⟨index, vote⟩, hvote, hitemOf⟩ := get_of_forall₂ hitems hitem
    obtain ⟨_, -, rfl, -⟩ := h.holds.get hvote
    exact hitemOf.isUserVote_eq
  rw [assertPersistedParticipation]
  refine refuseIf_of_not ?_
  rw [not_or, not_or, not_not, not_not, Bool.not_eq_true]
  rcases Nat.eq_zero_or_pos entries.length with hzero | hpos
  · have hnone : voteIndexOf (toPersistedVotingRecord voting).userParticipation = none := by
      rw [toPersistedVotingRecord, h.participation_eq, if_pos hzero]
      rfl
    have hitems : items = [] := List.length_eq_zero_iff.mp (hcount.trans hzero)
    refine ⟨?_, ?_, ?_⟩
    · simp [hnone, hasFirstUserVote, hitems]
    · simp [hitems]
    · simp [toPersistedVotingRecord, h.botCount_eq, hitems, hzero]
  · have hcast : voteIndexOf (toPersistedVotingRecord voting).userParticipation = some 0 := by
      rw [toPersistedVotingRecord, h.cast_zero hpos]
      rfl
    obtain ⟨vote, hlookup, -⟩ := h.holds.lookup_zero hpos
    refine ⟨?_, ?_, ?_⟩
    · have hitem : 0 < items.length := hcount ▸ hpos
      have hfirst : items[0]? = some items[0] := List.getElem?_eq_getElem hitem
      simp [hcast, hasFirstUserVote, hlookup, hfirst, hflag 0 _ hfirst]
    · rw [List.any_eq_false]
      rintro ⟨item, k⟩ hmem
      rw [List.mem_zipIdx_iff_getElem?] at hmem
      simp [hcast, hflag k item hmem, eq_comm]
    · rw [hcast, hcount]
      simp [toPersistedVotingRecord, h.botCount_eq]

/-! ### The record -/

/-- The record as it was: everything but the caches of its board and the spelling of its roots. -/
structure SameRecord (voting restored : SessionVotingRecord) : Prop where
  sessionId_eq : restored.sessionId = voting.sessionId
  votes_eq : restored.votes = voting.votes
  botCount_eq : restored.botCount = voting.botCount
  userParticipation_eq : restored.userParticipation = voting.userParticipation
  lastActivityMs_eq : restored.lastActivityMs = voting.lastActivityMs
  commitments_eq : restored.bulletin.commitments = voting.bulletin.commitments
  history : List.Forall₂ SameSnapshot voting.bulletinRootHistory restored.bulletinRootHistory

/-- The same record is as sound, and as timed. -/
theorem SameRecord.sound {restored : SessionVotingRecord} (hsame : SameRecord voting restored)
    (h : Sound noble sha256 identity.electionId entries voting)
    (hlists : Lists sha256 entries restored.bulletin) :
    Sound noble sha256 identity.electionId entries restored where
  holds := hsame.votes_eq ▸ h.holds
  lists := hlists
  snapshots := by
    refine ⟨by rw [← hsame.history.length_eq, h.snapshots.length_eq], ?_⟩
    intro k found hfound
    obtain ⟨snapshot, hsnapshot, hsimilar⟩ := get_of_forall₂ hsame.history hfound
    obtain ⟨hsize, hspells⟩ := h.snapshots.get k snapshot hsnapshot
    refine ⟨hsimilar.treeSize_eq.trans hsize, ?_⟩
    have hroot := hsimilar.root_eq
    rw [normalizeHex_of_spells hspells false] at hroot
    rw [← Except.ok.inj hroot]
    exact prefixed_spells _
  participation_eq := hsame.userParticipation_eq.trans h.participation_eq
  botCount_eq := hsame.botCount_eq.trans h.botCount_eq
  botCount_le := hsame.botCount_eq ▸ h.botCount_le
  opened := hsame.votes_eq ▸ h.opened

theorem SameRecord.timed {restored : SessionVotingRecord} (hsame : SameRecord voting restored)
    (htimed : Timed voting.votes voting.bulletinRootHistory) :
    Timed restored.votes restored.bulletinRootHistory where
  times_eq := by
    rw [hsame.votes_eq, ← htimed.times_eq]
    exact map_eq_of_forall₂ (hsame.history.imp fun _ _ hsimilar => hsimilar.timestamp_eq)
  positive := hsame.votes_eq ▸ htimed.positive

/-- RESTORE: from the items of its votes, in any order, a sound record comes back. -/
theorem restoreVotingRecord_ok (h : Sound noble sha256 identity.electionId entries voting)
    (htimed : Timed voting.votes voting.bulletinRootHistory)
    (hsession : voting.sessionId = identity.sessionId) (hitems : ItemsOf cipher voting.votes items)
    {voteItems : List VoteItem} (hperm : voteItems.Perm items) (now : ℕ → Num) :
    ∃ restored, restoreVotingRecord noble sha256 cipher identity (toPersistedVotingRecord voting)
        voteItems now =
        .ok restored ∧ SameRecord voting restored ∧ Lists sha256 entries restored.bulletin := by
  have hsorted :
      sortBy (fun left right : VoteItem => byNumber left.voteIndex right.voteIndex) voteItems = items :=
    sortBy_of_perm hperm (hitems.sorted h.holds)
  obtain ⟨board, hboard, hlists, -⟩ := restoreVoteItems_ok h hitems now
  obtain ⟨history, hhistory, hsimilar⟩ := restorePersistedRootHistory_ok h htimed
  have hparticipation := assertPersistedParticipation_ok h hitems
  let restored : SessionVotingRecord := {
    sessionId := identity.sessionId
    votes := voting.votes
    bulletin := board
    bulletinRootHistory := history
    botCount := voting.botCount
    userParticipation := voting.userParticipation
    lastActivityMs := voting.lastActivityMs }
  refine ⟨restored, ?_, ⟨hsession.symm, rfl, rfl, rfl, rfl, ?_, hsimilar⟩, hlists⟩
  · simp only [restoreVotingRecord, hsorted, hboard, ok_bind, restoredFrom, hparticipation,
      show restorePersistedRootHistory (toPersistedVotingRecord voting).bulletinRootHistory _ _ =
        _ from hhistory]
    rfl
  · rw [hlists.commitments_eq, h.lists.commitments_eq]

end Restore

/-! ### Storing and restoring in turns -/

/-- The store holds the record: what counts votes, and an item for each vote. -/
structure Stores (cipher : VoteSecretCipher) (voting : SessionVotingRecord) (stored : StoredVoting) :
    Prop where
  record_eq : stored.record = toPersistedVotingRecord voting
  items : ItemsOf cipher voting.votes stored.items

variable (noble sha256 cipher) in
/-- A session as its votes are cast, stored and restored in any order: the record at hand, the record
    stored last, and what the store has of it. -/
inductive Alternates (input : SessionCreationInput) :
    SessionVotingRecord → SessionVotingRecord → StoredVoting → Prop
  | created : Alternates input (buildSessionRecords input).2 (buildSessionRecords input).2
      ⟨toPersistedVotingRecord (buildSessionRecords input).2, []⟩
  | submitted {voting saved : SessionVotingRecord} {stored : StoredVoting} (attempt : Attempt U)
      (hclock : attempt.dependencies.OnTime) : Alternates input voting saved stored →
      Alternates input (submit noble sha256 (buildSessionRecords input).1 voting attempt) saved stored
  | persisted {voting saved : SessionVotingRecord} {stored : StoredVoting} (nonces : ℕ → Nonces)
      (expiresAt : ℕ) :
      Alternates input voting saved stored →
      Alternates input voting voting (persistVotes cipher nonces input.sessionId stored voting expiresAt)
  | restored {voting saved restored : SessionVotingRecord} {stored : StoredVoting}
      (voteItems : List VoteItem) (hperm : voteItems.Perm stored.items) (now : ℕ → Num)
      (hrestored : restoreVotingRecord noble sha256 cipher (buildSessionRecords input).1 stored.record
        voteItems now =
        .ok restored) : Alternates input voting saved stored → Alternates input restored saved stored

/-- A record that can be stored and will come back. -/
structure Storable (noble : NobleUtils) (sha256 : List UInt8 → Bytes 32) (input : SessionCreationInput)
    (entries : List Entry) (voting : SessionVotingRecord) : Prop where
  sound : Sound noble sha256 input.electionId entries voting
  timed : Timed voting.votes voting.bulletinRootHistory
  sessionId_eq : voting.sessionId = input.sessionId

section Alternation

variable {input : SessionCreationInput} {voting saved : SessionVotingRecord} {stored : StoredVoting}

theorem Storable.restore (h : Storable noble sha256 input entries saved)
    (hstores : Stores cipher saved stored) {voteItems : List VoteItem}
    (hperm : voteItems.Perm stored.items) (now : ℕ → Num) :
    ∃ restored, restoreVotingRecord noble sha256 cipher (buildSessionRecords input).1 stored.record
        voteItems now =
        .ok restored ∧ SameRecord saved restored ∧ Storable noble sha256 input entries restored := by
  obtain ⟨restored, hrestored, hsame, hlists⟩ := @restoreVotingRecord_ok noble sha256 cipher entries
    (buildSessionRecords input).1 saved stored.items h.sound h.timed h.sessionId_eq hstores.items
      voteItems hperm now
  rw [← hstores.record_eq] at hrestored
  refine ⟨restored, hrestored, hsame, ?_, hsame.timed h.timed, hsame.sessionId_eq.trans h.sessionId_eq⟩
  exact @SameRecord.sound noble sha256 entries (buildSessionRecords input).1 saved restored hsame
    h.sound hlists

/-- The votes since the last store, as items. -/
theorem newVoteItems_itemsOf {added : List Entry} {later : Votes}
    (hsaved : Storable noble sha256 input entries saved)
    (h : Storable noble sha256 input (entries ++ added) voting)
    (hvotes : voting.votes = saved.votes ++ later) (nonces : ℕ → Nonces) (sessionId : JsString)
    (expiresAt : ℕ) :
    ItemsOf cipher later
      (newVoteItems cipher nonces sessionId (toPersistedVotingRecord saved) voting expiresAt) := by
  have hlength : (toPersistedVotingRecord saved).bulletinRootHistory.length = saved.votes.length := by
    rw [toPersistedVotingRecord, hsaved.sound.snapshots.length_eq, hsaved.sound.holds.length_eq]
  have hkeys : ∀ entry ∈ later, saved.votes.length ≤ entry.1 := by
    intro entry hentry
    obtain ⟨k, hk⟩ := List.getElem?_of_mem hentry
    have hplace : voting.votes[saved.votes.length + k]? = some entry := by
      rw [hvotes, List.getElem?_append_right (Nat.le_add_right _ _), Nat.add_sub_cancel_left, hk]
    obtain ⟨_, -, hindex, -⟩ := h.sound.holds.get hplace
    omega
  have hnew :
      (voting.votes.filter fun entry => (toPersistedVotingRecord saved).bulletinRootHistory.length ≤
        entry.1) =
      later := by
    rw [hlength, hvotes, List.filter_append, List.filter_eq_nil_iff.mpr, List.nil_append,
      List.filter_eq_self.mpr]
    · intro entry hentry
      exact decide_eq_true (hkeys entry hentry)
    · intro entry hentry
      obtain ⟨k, hk⟩ := List.getElem?_of_mem hentry
      obtain ⟨hlt, -⟩ := List.getElem?_eq_some_iff.mp hk
      obtain ⟨_, -, hindex, -⟩ := hsaved.sound.holds.get hk
      rw [decide_eq_true_eq]
      omega
  rw [newVoteItems, hnew]
  refine List.forall₂_map_right_iff.mpr (List.forall₂_same.mpr ?_)
  rintro ⟨index, vote⟩ hentry
  have hpos : 0 < (entries ++ added).length := by
    rw [← h.sound.holds.length_eq, hvotes]
    exact List.length_pos_of_mem (List.mem_append_right _ hentry)
  have hflag : decide (voting.userParticipation = .cast index) = decide (index = 0) := by
    rw [h.sound.cast_zero hpos]
    simp [eq_comm]
  rw [hflag]
  exact toVoteItem_itemOf _ _ _ _ _

/-- The record stored last is in the store, and the record at hand goes on from it. -/
theorem alternates_storable
    (h : Alternates (U := U) noble sha256 cipher input voting saved stored) :
    ∃ entries added later, Storable noble sha256 input entries saved ∧ Stores cipher saved stored ∧
      Storable noble sha256 input (entries ++ added) voting ∧ voting.votes = saved.votes ++ later := by
  induction h with
  | created =>
    have hstart : Storable noble sha256 input [] (buildSessionRecords input).2 :=
      ⟨sound_start input, timed_nil, rfl⟩
    exact ⟨[], [], [], hstart, ⟨rfl, .nil⟩, hstart, rfl⟩
  | @submitted voting saved stored attempt hclock _ ih =>
    obtain ⟨entries, added, later, hsaved, hstores, hvoting, hvotes⟩ := ih
    obtain ⟨added', stored', hsound, hvotes'⟩ := 
      @submit_sound noble sha256 U _ (buildSessionRecords input).1 voting hvoting.sound attempt
    rw [List.append_assoc] at hsound
    have hnext :=
      @submit_timed noble sha256 U _ voting (buildSessionRecords input).1 hvoting.sound hvoting.timed
        attempt hclock
    refine ⟨entries, added ++ added', later ++ stored', hsaved, hstores, ⟨hsound, hnext.timed, ?_⟩, ?_⟩
    · exact hnext.sessionId_eq.trans hvoting.sessionId_eq
    · rw [hvotes', hvotes, List.append_assoc]
  | @persisted voting saved stored nonces expiresAt _ ih =>
    obtain ⟨entries, added, later, hsaved, hstores, hvoting, hvotes⟩ := ih
    refine ⟨entries ++ added, [], [], hvoting, ⟨rfl, ?_⟩, by simpa using hvoting, by simp⟩
    have hnew :=
      @newVoteItems_itemsOf noble sha256 cipher entries input voting saved added later hsaved hvoting
        hvotes nonces input.sessionId expiresAt
    rw [persistVotes, hvotes, hstores.record_eq]
    refine List.rel_append ?_ hnew
    refine List.forall₂_map_right_iff.mpr (hstores.items.imp ?_)
    intro entry item hitem
    exact { hitem with }
  | @restored voting saved restored stored voteItems hperm now hrestored _ ih =>
    obtain ⟨entries, added, later, hsaved, hstores, -, -⟩ := ih
    obtain ⟨restored', hrestored', hsame, hstorable⟩ := hsaved.restore hstores hperm now
    obtain rfl := Except.ok.inj (hrestored.symm.trans hrestored')
    exact ⟨entries, [], [], hsaved, hstores, by simpa using hstorable, by simp [hsame.votes_eq]⟩

/-- EXACT: what was stored comes back, and so does the record at hand once it is stored. -/
theorem restoreVotingRecord_exact (h : Alternates (U := U) noble sha256 cipher input voting saved stored)
    (now : ℕ → Num) :
    (∀ voteItems : List VoteItem, voteItems.Perm stored.items →
      ∃ restored, restoreVotingRecord noble sha256 cipher (buildSessionRecords input).1 stored.record
        voteItems now = .ok restored ∧ SameRecord saved restored) ∧
    ∀ (nonces : ℕ → Nonces) (expiresAt : ℕ) (voteItems : List VoteItem),
      voteItems.Perm (persistVotes cipher nonces input.sessionId stored voting expiresAt).items →
      ∃ restored, restoreVotingRecord noble sha256 cipher (buildSessionRecords input).1
          (persistVotes cipher nonces input.sessionId stored voting expiresAt).record voteItems now =
            .ok restored ∧
        SameRecord voting restored := by
  refine ⟨?_, ?_⟩
  · intro voteItems hperm
    obtain ⟨entries, -, -, hsaved, hstores, -, -⟩ := alternates_storable h
    obtain ⟨restored, hrestored, hsame, -⟩ := hsaved.restore hstores hperm now
    exact ⟨restored, hrestored, hsame⟩
  · intro nonces expiresAt voteItems hperm
    obtain ⟨entries, -, -, hsaved, hstores, -, -⟩ := alternates_storable (h.persisted nonces expiresAt)
    obtain ⟨restored, hrestored, hsame, -⟩ := hsaved.restore hstores hperm now
    exact ⟨restored, hrestored, hsame⟩

/-- The frame of a cipher text without the cipher. -/
def VoteSecretCipher.reference : VoteSecretCipher where
  encryptVoteSecret := fun iv plaintext => (js "enc:v1:" ++ text iv ++ js ":") ++ plaintext
  decryptVoteSecret := fun value => .ok (value.drop 32)
  roundTrip := by
    intro iv plaintext
    rw [List.drop_left']
    simp [js, text, iv.length_eq]

theorem restoreVotingRecord_exact_on_sample :
    ∃ restored, restoreVotingRecord .reference Sha256.digest .reference
        (buildSessionRecords sampleInput).1
        (persistVotes .reference (fun _ => (Bytes.fill 12 0, Bytes.fill 12 0)) sampleInput.sessionId
          ⟨toPersistedVotingRecord (buildSessionRecords sampleInput).2, []⟩
          (submit .reference Sha256.digest (buildSessionRecords sampleInput).1
            (buildSessionRecords sampleInput).2 (sampleAttempt [])) 300).record
        (persistVotes .reference (fun _ => (Bytes.fill 12 0, Bytes.fill 12 0)) sampleInput.sessionId
          ⟨toPersistedVotingRecord (buildSessionRecords sampleInput).2, []⟩
          (submit .reference Sha256.digest (buildSessionRecords sampleInput).1
            (buildSessionRecords sampleInput).2
            (sampleAttempt [])) 300).items (fun _ => .ofNat 2) = .ok restored ∧
      SameRecord
        (submit .reference Sha256.digest (buildSessionRecords sampleInput).1
          (buildSessionRecords sampleInput).2
        (sampleAttempt [])) restored :=
  (restoreVotingRecord_exact
    (.submitted (sampleAttempt []) (fun _ => show isPositiveInteger (.ofNat 1) = true by decide)
      .created) _).2 _ 300 _ (.refl _)

end Alternation

end StarkBallot.AwsAdapters.Dynamo
