import StarkBallot.Domain.SessionState

/-! New votes of a session (`domain/src/lib/bulletin/stagedCtVoteWrite.ts`). The stored votes are put on
    a new board again, the new votes after them. If every step goes through, the staged votes continue
    the record: its entries with theirs appended are what the new board lists, with
    one more root for each. -/

namespace StarkBallot.Domain
open Schemes ContractCore CryptoPrimitives Merkle

variable (noble : NobleUtils) (sha256 : List UInt8 → Bytes 32)

structure IndexedVoteWrite where
  index : ℕ
  vote : PreparedVote

structure StagedVoteWrite where
  index : ℕ
  voteId : JsString
  storedVote : StoredVoteRecord

structure StagedCtWriteResult where
  bulletin : SimpleBulletinBoard
  bulletinRootHistory : List RootSnapshot
  votes : List StagedVoteWrite

def ctProofUnavailable : JsError := .error "CT_PROOF_UNAVAILABLE"

/-- A stored vote put on the staged board again. -/
def restageVote (_ : Unit) (vote : StoredVoteRecord × Num) : BoardM Unit := do
  if vote.1.voteId = [] then throw ctProofUnavailable
  else
    let _ ← appendVote noble sha256 vote.1.voteId (vote.1.commit.drop 2) vote.2

/-- A new vote on the staged board; `nextIndex` is the index expected of the first. -/
def stageVote (nextIndex : ℕ) (staged : List RootSnapshot × List StagedVoteWrite)
    (write : (IndexedVoteWrite × ℕ) × Num) : BoardM (List RootSnapshot × List StagedVoteWrite) := do
  let ⟨index, vote⟩ := write.1.1
  if index ≠ nextIndex + write.1.2 then throw nonCanonicalCtVoteIndices
  else
    let appendResult ← appendVote noble sha256 vote.voteId (vote.commit.drop 2) write.2
    let treeSize ← getSize
    let rootAtCast ← lifted (normalizeHex appendResult.rootAtAppend orEmpty)
    let storedVote : StoredVoteRecord :=
      { vote with timestamp := appendResult.timestamp, rootAtCast := rootAtCast }
    return (staged.1 ++ [⟨appendResult.timestamp, treeSize, appendResult.rootAtAppend, none⟩],
      staged.2 ++ [⟨index, vote.voteId, storedVote⟩])

def assertDistinctIndices (writes : List IndexedVoteWrite) : JsM Unit := do
  let _ ← writes.foldlM (fun seenIndices write => do
    let index := write.index
    refuseIf (index ∈ seenIndices) (.error s!"Duplicate staged vote index: {index}")
    return setAdd seenIndices index) ([] : List ℕ)

/-- The clocks of one staging: stored votes put again, the recomputed history, new votes. -/
structure StagingClock where
  restaged : ℕ → Num
  fallback : Num
  staged : ℕ → Num

def stageCtVoteWrites (votes : Votes) (logId : JsString) (bulletinRootHistory : List RootSnapshot)
    (writes : List IndexedVoteWrite) (clock : StagingClock) : JsM StagedCtWriteResult := do
  let existingVotes := sortedVotes votes
  let nextIndex ← assertCanonicalCtVoteIndices (votes.map Prod.fst)
  let (_, restaged) ← onNewBoard
      ((timed clock.restaged existingVotes).foldlM (restageVote noble sha256) ()) logId
  let history ← getCanonicalBulletinRootHistory noble sha256 votes bulletinRootHistory clock.fallback
  let orderedWrites := sortBy (fun a b : IndexedVoteWrite => byNumber a.index b.index) writes
  assertDistinctIndices orderedWrites
  match exec ((timed clock.staged orderedWrites.zipIdx).foldlM (stageVote noble sha256 nextIndex)
      (history.take existingVotes.length, [])) restaged with
  | (.error e, _) => .error e
  | (.ok staged, bulletin) => return ⟨bulletin, staged.1, staged.2⟩

variable {noble sha256} {entries : List Entry} {votes : Votes}

/-! ### Stored votes put again -/

variable (noble) in
theorem restageVote_ok (a : Unit) (vote : StoredVoteRecord) (now : Num) (board : SimpleBulletinBoard)
    (done : List Entry) (entry : Entry) (hid : vote.voteId = entry.1)
    (hcommit : vote.commit = prefixed entry.2) (hlists : Lists sha256 done board)
    (hfresh : Fresh done entry) (hdone : done.length ≤ Num.maxSafeInteger) :
    ∃ a' board', exec (restageVote noble sha256 a (vote, now)) board = (.ok a', board') ∧
      Lists sha256 (done ++ [entry]) board' ∧ board'.logId = board.logId := by
  obtain ⟨board', happend, hlists', hlog⟩ := appendVote_fresh noble hlists hfresh hdone now
  have hne := voteId_ne_nil hfresh
  refine ⟨(), board', ?_, hlists', hlog⟩
  unfold restageVote
  simp only [hid, if_neg hne, hcommit, drop_prefixed, exec_bind, happend, exec_pure]

theorem restage_ok (h : Holds sha256 entries votes) (hdistinct : Distinct entries)
    (hsize : entries.length ≤ Num.maxSafeInteger) (logId : JsString) (now : ℕ → Num) :
    ∃ board, onNewBoard ((timed now (sortedVotes votes)).foldlM (restageVote noble sha256) ()) logId =
      .ok ((), board) ∧
      Lists sha256 entries board ∧ board.logId = logId := by
  obtain ⟨_, hboard⟩ := onNewBoard_ok h hdistinct hsize (restageVote_ok noble) () now logId
  exact hboard

/-! ### New votes -/

/-- One vote more. -/
theorem Holds.concat (h : Holds sha256 entries votes) {entry : Entry} {vote : StoredVoteRecord}
    (hid : vote.voteId = entry.1) (hcommit : vote.commit = prefixed entry.2)
    (hroot : vote.rootAtCast = prefixed (rootOf sha256 (entries ++ [entry]))) :
    Holds sha256 (entries ++ [entry]) (votes ++ [(entries.length, vote)]) where
  keys_eq := by simp [h.keys_eq, List.range_succ]
  ids_eq := by simp [h.ids_eq, hid]
  commits_eq := by simp [h.commits_eq, hcommit]
  roots_eq := by
    have hlast : (entries ++ [entry]).take (entries.length + 1) = entries ++ [entry] :=
      List.take_of_length_le (by simp)
    have hinit :
        (List.range entries.length).map
          (fun k => prefixed (rootOf sha256 ((entries ++ [entry]).take (k + 1)))) =
        (List.range entries.length).map fun k => prefixed (rootOf sha256 (entries.take (k + 1))) := by
      refine List.map_congr_left fun k hk => ?_
      rw [List.take_append_of_le_length (List.mem_range.mp hk)]
    rw [List.map_append, h.roots_eq, List.length_append, List.length_singleton, List.range_succ,
      List.map_append, hinit]
    simp [hlast, hroot]

/-- A staged vote is the vote that was written. -/
structure Stages (write : IndexedVoteWrite) (staged : StagedVoteWrite) : Prop where
  index_eq : staged.index = write.index
  voteId_eq : staged.voteId = write.vote.voteId
  stored_voteId_eq : staged.storedVote.voteId = write.vote.voteId
  vote_eq : staged.storedVote.vote = write.vote.vote
  rand_eq : staged.storedVote.rand = write.vote.rand
  commit_eq : staged.storedVote.commit = write.vote.commit

/-- The staged votes as they enter the record. -/
def stagedVotes (staged : List StagedVoteWrite) : Votes :=
  staged.map fun vote => (vote.index, vote.storedVote)

/-- Where the staging of new votes stands after the writes `done`. -/
structure Continues (sha256 : List UInt8 → Bytes 32) (entries : List Entry) (votes : Votes)
    (logId : JsString) (done : List IndexedVoteWrite) (history : List RootSnapshot)
    (staged : List StagedVoteWrite) (board : SimpleBulletinBoard) : Prop where
  stages : List.Forall₂ Stages done staged
  continues :
    ∃ added, Lists sha256 (entries ++ added) board ∧ Snapshots sha256 (entries ++ added) history ∧
    Holds sha256 (entries ++ added) (votes ++ stagedVotes staged)
  logId_eq : board.logId = logId

/-- The vote as it is stored under the root of the board that it completes. -/
def stagedAs (sha256 : List UInt8 → Bytes 32) (entries : List Entry) (write : IndexedVoteWrite)
    (c : Bytes 32) (now : Num) : StagedVoteWrite :=
  ⟨write.index, write.vote.voteId, { write.vote with
    timestamp := now
    rootAtCast := prefixed (rootOf sha256 (entries ++ [(write.vote.voteId, c)])) }⟩

def snapshotAs (sha256 : List UInt8 → Bytes 32) (entries : List Entry) (write : IndexedVoteWrite)
    (c : Bytes 32) (now : Num) : RootSnapshot :=
  ⟨now, entries.length + 1, text (rootOf sha256 (entries ++ [(write.vote.voteId, c)])), none⟩

section Stage

variable {nextIndex offset : ℕ} {history history' : List RootSnapshot}
  {staged staged' : List StagedVoteWrite}
  {write : IndexedVoteWrite} {now : Num} {board board' : SimpleBulletinBoard} {c : Bytes 32}

variable (noble) in
/-- A fresh vote at the next index is staged. -/
theorem stageVote_fresh (hlists : Lists sha256 entries board) (hcommit : write.vote.commit = prefixed c)
    (hsize : entries.length ≤ Num.maxSafeInteger) (hindex : write.index = nextIndex + offset)
    (hfresh : Fresh entries (write.vote.voteId, c)) :
    ∃ board', exec (stageVote noble sha256 nextIndex (history, staged) ((write, offset), now)) board =
        (.ok (history ++ [snapshotAs sha256 entries write c now],
          staged ++ [stagedAs sha256 entries write c now]), board') ∧
      Lists sha256 (entries ++ [(write.vote.voteId, c)]) board' ∧ board'.logId = board.logId := by
  obtain ⟨board₁, happend, hlists₁, hlog⟩ := appendVote_fresh noble hlists hfresh hsize now
  have hnormal := normalizeHex_text (rootOf sha256 (entries ++ [(write.vote.voteId, c)])) true
  have htree : board₁.tree.leaves.length = entries.length + 1 := by
    rw [hlists₁.size_eq, List.length_append, List.length_singleton]
  refine ⟨board₁, ?_, hlists₁, hlog⟩
  unfold stageVote
  simp only [if_neg (not_not.mpr hindex), hcommit, drop_prefixed, exec_bind, happend, getSize,
    exec_get, exec_pure, exec_lifted, orEmpty, hnormal, htree, snapshotAs, stagedAs]

/-- A vote that was staged was fresh, and comes next. -/
theorem stageVote_eq_ok (hlists : Lists sha256 entries board) (hcommit : write.vote.commit = prefixed c)
    (hsize : entries.length ≤ Num.maxSafeInteger)
    (h : exec (stageVote noble sha256 nextIndex (history, staged) ((write, offset), now)) board =
      (.ok (history', staged'), board')) :
    write.index = nextIndex + offset ∧ Lists sha256 (entries ++ [(write.vote.voteId, c)]) board' ∧
      board'.logId = board.logId ∧ history' = history ++ [snapshotAs sha256 entries write c now] ∧
      staged' = staged ++ [stagedAs sha256 entries write c now] := by
  by_cases hindex : write.index = nextIndex + offset
  · by_cases hfresh : Fresh entries (write.vote.voteId, c)
    · obtain ⟨board₁, hexec, hlists₁, hlog⟩ :=
        @stageVote_fresh noble sha256 entries nextIndex offset history staged
        write now board c hlists hcommit hsize hindex hfresh
      obtain ⟨hresult, rfl⟩ := Prod.mk.inj (h.symm.trans hexec)
      obtain ⟨hhistory, hstaged⟩ := Prod.mk.inj (Except.ok.inj hresult)
      exact ⟨hindex, hlists₁, hlog, hhistory, hstaged⟩
    · obtain ⟨e, happend⟩ := appendVote_stale noble hlists hfresh now
      unfold stageVote at h
      simp only [if_neg (not_not.mpr hindex), hcommit, drop_prefixed, exec_bind, happend] at h
      cases h
  · unfold stageVote at h
    simp only [if_pos hindex] at h
    cases h

end Stage

/-- STEP: one staged vote more continues the record. -/
theorem Continues.step (hbase : Holds sha256 entries votes) {logId : JsString}
    {done : List IndexedVoteWrite} {history history' : List RootSnapshot}
    {staged staged' : List StagedVoteWrite} {write : IndexedVoteWrite} {now : Num}
    {board board' : SimpleBulletinBoard} {c : Bytes 32}
    (hstate : Continues sha256 entries votes logId done history staged board)
    (hcommit : write.vote.commit = prefixed c)
    (hsize : entries.length + done.length ≤ Num.maxSafeInteger)
    (h : exec (stageVote noble sha256 entries.length (history, staged) ((write, done.length), now))
      board = (.ok (history', staged'), board')) :
    Continues sha256 entries votes logId (done ++ [write]) history' staged' board' := by
  obtain ⟨added, hlists, hsnapshots, hholds⟩ := hstate.continues
  have hadded : (entries ++ added).length = entries.length + done.length := by
    have hcount := hholds.length_eq
    have hstaged := hstate.stages.length_eq
    rw [List.length_append, stagedVotes, List.length_map, ← hstaged, hbase.length_eq] at hcount
    exact hcount.symm
  obtain ⟨hindex, hlists', hlog, rfl, rfl⟩ := stageVote_eq_ok hlists hcommit (by omega) h
  refine ⟨?_, ⟨added ++ [(write.vote.voteId, c)], ?_, ?_, ?_⟩, hlog.trans hstate.logId_eq⟩
  · exact List.rel_append hstate.stages (.cons ⟨rfl, rfl, rfl, rfl, rfl, rfl⟩ .nil)
  · rwa [← List.append_assoc]
  · rw [← List.append_assoc]
    exact hsnapshots.concat _ rfl (text_spells _)
  · rw [← List.append_assoc, stagedVotes, List.map_append, ← List.append_assoc, List.map_singleton,
      show (stagedAs sha256 (entries ++ added) write c now).index =
        (entries ++ added).length from hindex.trans hadded.symm]
    exact hholds.concat rfl hcommit rfl

/-- The writes that a loop is through with. -/
def written {α : Type} (done : List ((α × ℕ) × Num)) : List α := (done.map Prod.fst).map Prod.fst

theorem written_length {α : Type} (done : List ((α × ℕ) × Num)) :
    (written done).length = done.length := by
  rw [written, List.length_map, List.length_map]

theorem written_append {α : Type} (done : List ((α × ℕ) × Num)) (write : (α × ℕ) × Num) :
    written (done ++ [write]) = written done ++ [write.1.1] := by
  rw [written, List.map_append, List.map_append]
  rfl

theorem written_timed {α : Type} (now : ℕ → Num) (l : List α) : written (timed now l.zipIdx) = l := by
  rw [written, timed_fst]
  exact List.zipIdx_map_fst 0 l

/-- The write that the loop has come to, with its offset. -/
theorem get_of_timed_split {α : Type} {now : ℕ → Num} {l : List α}
    {done rest : List ((α × ℕ) × Num)} {a : α} {offset : ℕ} {time : Num}
    (h : timed now l.zipIdx = done ++ ((a, offset), time) :: rest) :
    l[done.length]? = some a ∧ offset = done.length := by
  have hzip : l.zipIdx = done.map Prod.fst ++ (a, offset) :: rest.map Prod.fst := by
    rw [← timed_fst now l.zipIdx, h, List.map_append, List.map_cons]
  have hfound := get_of_split hzip
  rw [List.length_map, List.getElem?_zipIdx, Option.map_eq_some_iff] at hfound
  obtain ⟨b, hb, hpair⟩ := hfound
  obtain ⟨rfl, hoffset⟩ := Prod.mk.inj hpair
  exact ⟨hb, by omega⟩

/-- RUN: what was staged continues the record by the votes written. -/
theorem stageCtVoteWrites_eq_ok (h : Holds sha256 entries votes) (hdistinct : Distinct entries)
    {logId : JsString} {bulletinRootHistory : List RootSnapshot} {writes : List IndexedVoteWrite}
    {clock : StagingClock} {result : StagedCtWriteResult}
    (hordered : writes.Pairwise fun a b => a.index ≤ b.index)
    (hcommits : ∀ write ∈ writes, ∃ c : Bytes 32, write.vote.commit = prefixed c)
    (hsize : entries.length + writes.length ≤ Num.maxSafeInteger)
    (hstaged : stageCtVoteWrites noble sha256 votes logId bulletinRootHistory writes clock =
      .ok result) :
    Continues sha256 entries votes logId writes result.bulletinRootHistory result.votes
      result.bulletin := by
  have hsafe : entries.length ≤ Num.maxSafeInteger := by omega
  obtain ⟨board, hboard, hlists, hlog⟩ := @restage_ok noble _ _ _ h hdistinct hsafe logId clock.restaged
  obtain ⟨history, hhistory, hsnapshots⟩ :=
    @getCanonicalBulletinRootHistory_ok noble _ _ _ h hsafe bulletinRootHistory clock.fallback
  have hsorted : sortBy (fun a b : IndexedVoteWrite => byNumber a.index b.index) writes = writes :=
    sortBy_of_sorted (hordered.imp fun hle => byNumber_not_pos hle)
  have hall : history.take (sortedVotes votes).length = history := by
    rw [h.sortedVotes_length, ← hsnapshots.length_eq, List.take_length]
  simp only [stageCtVoteWrites, h.canonical hsafe, ok_bind, hboard, hhistory, hsorted, hall] at hstaged
  obtain ⟨_, -, hstaged⟩ := bind_eq_ok.mp hstaged
  rcases hloop : exec ((timed clock.staged writes.zipIdx).foldlM (stageVote noble sha256 entries.length)
      (history, [])) board with ⟨_ | ⟨history', staged⟩, board'⟩
  · rw [hloop] at hstaged
    cases hstaged
  rw [hloop] at hstaged
  rw [← Except.ok.inj hstaged]
  have hstart : Continues sha256 entries votes logId [] history [] board :=
    ⟨.nil, ⟨[], by simpa using hlists, by simpa using hsnapshots, by simpa [stagedVotes] using h⟩, hlog⟩
  have hrun := @exec_foldlM_eq_ok JsError SimpleBulletinBoard _ _ (timed clock.staged writes.zipIdx)
    (fun done (staged : List RootSnapshot × List StagedVoteWrite) board =>
      Continues sha256 entries votes logId (written done) staged.1 staged.2 board)
    (stageVote noble sha256 entries.length) (history, []) board (history', staged) board' hstart (by
      rintro done ⟨⟨write, offset⟩, now⟩ rest hsplit ⟨history, staged⟩ board ⟨history', staged'⟩ board'
        hstate hexec
      obtain ⟨hwrite, rfl⟩ := get_of_timed_split hsplit
      obtain ⟨c, hcommit⟩ := hcommits write (List.mem_of_getElem? hwrite)
      obtain ⟨hlt, -⟩ := List.getElem?_eq_some_iff.mp hwrite
      rw [← written_length] at hexec hlt
      rw [written_append]
      exact hstate.step h hcommit (by omega) hexec) hloop
  rwa [written_timed] at hrun

/-- One fresh vote at the next index is staged. -/
theorem stageCtVoteWrites_one (h : Holds sha256 entries votes) (hdistinct : Distinct entries)
    (logId : JsString) (bulletinRootHistory : List RootSnapshot) {vote : PreparedVote}
    (clock : StagingClock) {c : Bytes 32} (hcommit : vote.commit = prefixed c)
    (hfresh : Fresh entries (vote.voteId, c)) (hsize : entries.length ≤ Num.maxSafeInteger) :
    ∃ result, stageCtVoteWrites noble sha256 votes logId bulletinRootHistory
      [⟨entries.length, vote⟩] clock = .ok result := by
  obtain ⟨board, hboard, hlists, hlog⟩ := @restage_ok noble _ _ _ h hdistinct hsize logId clock.restaged
  obtain ⟨history, hhistory, -⟩ :=
    @getCanonicalBulletinRootHistory_ok noble _ _ _ h hsize bulletinRootHistory clock.fallback
  have hsorted :
      sortBy (fun a b : IndexedVoteWrite => byNumber a.index b.index) [⟨entries.length, vote⟩] =
      [⟨entries.length, vote⟩] := sortBy_of_sorted (by simp)
  have hdistinctIndices : assertDistinctIndices [⟨entries.length, vote⟩] = .ok () := rfl
  obtain ⟨board', hstage, -⟩ := @stageVote_fresh noble sha256 entries entries.length 0
    (history.take (sortedVotes votes).length) [] ⟨entries.length, vote⟩
    (clock.staged 0) board c hlists hcommit hsize rfl hfresh
  have htimed : timed clock.staged [(⟨entries.length, vote⟩ : IndexedVoteWrite)].zipIdx =
      [((⟨entries.length, vote⟩, 0), clock.staged 0)] := rfl
  simp only [stageCtVoteWrites, h.canonical hsize, ok_bind, hboard, hhistory, hsorted,
    hdistinctIndices, htimed, List.foldlM_cons, List.foldlM_nil, exec_bind, hstage, exec_pure]
  exact ⟨_, rfl⟩

end StarkBallot.Domain
