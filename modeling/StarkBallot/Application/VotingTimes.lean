import StarkBallot.Application.VoteAppends

/-! Times of the votes of a session. A new vote and the snapshot of its root are stamped with one
    reading of the board's clock (`domain/src/lib/bulletin/simple-bulletin-board.ts`), and a history
    that is recomputed takes each vote's own time as long as it is a positive integer. So on a clock
    that reads positive integers the history and the votes keep the same times
    through every evaluation. -/

namespace StarkBallot.Application
open Schemes ContractCore CryptoPrimitives Merkle Domain

variable {noble : NobleUtils} {sha256 : List UInt8 → Bytes 32} {U : Type} {entries : List Entry}
    {votes : Votes}

/-- Votes and snapshots have the same times, all of them positive integers. -/
structure Timed (votes : Votes) (history : List RootSnapshot) : Prop where
  times_eq : history.map (·.timestamp) = votes.map (·.2.timestamp)
  positive : ∀ entry ∈ votes, isPositiveInteger entry.2.timestamp = true

theorem timed_nil : Timed [] [] := ⟨rfl, by simp⟩

/-! ### Recomputed histories -/

theorem rebuildHistoryStep_times {fallbackTimestamp : Num} {history history' : List RootSnapshot}
    {vote : StoredVoteRecord} {tree tree' : Tree} (hvote : isPositiveInteger vote.timestamp = true)
    (h : exec (rebuildHistoryStep noble sha256 fallbackTimestamp history vote) tree =
      (.ok history', tree')) :
    history'.map (·.timestamp) = history.map (·.timestamp) ++ [vote.timestamp] := by
  unfold rebuildHistoryStep at h
  obtain ⟨_, _, -, h⟩ := exec_bind_eq_ok h
  obtain ⟨root, _, -, h⟩ := exec_bind_eq_ok h
  obtain ⟨normalized, _, -, h⟩ := exec_bind_eq_ok h
  obtain ⟨tree₁, _, -, h⟩ := exec_bind_eq_ok h
  obtain ⟨hhistory, -⟩ := Prod.mk.inj h
  rw [← Except.ok.inj hhistory]
  simp [resolveSnapshotTimestamp, hvote]

theorem rebuildCanonicalHistory_times (hsorted : sortedVotes votes = votes.map Prod.snd)
    (hpositive : ∀ entry ∈ votes, isPositiveInteger entry.2.timestamp = true) {fallbackTimestamp : Num}
    {history : List RootSnapshot}
    (h : rebuildCanonicalHistoryFromVotes noble sha256 votes fallbackTimestamp = .ok history) :
    history.map (·.timestamp) = votes.map (·.2.timestamp) := by
  obtain ⟨_, -, h⟩ := bind_eq_ok.mp h
  have hrun := @exec_foldlM_eq_ok JsError Tree StoredVoteRecord _ (sortedVotes votes)
    (fun done (history : List RootSnapshot) _ => history.map (·.timestamp) = done.map (·.timestamp))
    (rebuildHistoryStep noble sha256 fallbackTimestamp) [] Tree.new history _ rfl (by
      intro done vote rest hsplit history tree history' tree' hstate hexec
      have hmem : vote ∈ votes.map Prod.snd := by
        rw [← hsorted, hsplit]
        exact List.mem_append_right _ List.mem_cons_self
      obtain ⟨entry, hentry, rfl⟩ := List.mem_map.mp hmem
      rw [rebuildHistoryStep_times (hpositive entry hentry) hexec, hstate, List.map_append,
        List.map_singleton])
    (Prod.ext h rfl)
  rw [hrun, hsorted, List.map_map]
  rfl

theorem parsePersistedRootHistory_times {history parsed : List RootSnapshot}
    (h : parsePersistedRootHistory history = some parsed) :
    parsed.map (·.timestamp) = history.map (·.timestamp) := by
  induction history generalizing parsed with
  | nil =>
    rw [parsePersistedRootHistory, List.mapM_nil] at h
    rw [← Option.some.inj h]
  | cons snapshot history ih =>
    rw [parsePersistedRootHistory, List.mapM_cons] at h
    obtain ⟨normalized, hnormalized, h⟩ := Option.bind_eq_some_iff.mp h
    obtain ⟨rest, hrest, h⟩ := Option.bind_eq_some_iff.mp h
    rw [← Option.some.inj h, List.map_cons, List.map_cons, ih hrest]
    unfold normalizePersistedRootSnapshot at hnormalized
    split at hnormalized
    · cases hnormalized
    · obtain ⟨root, -, rfl⟩ := Option.map_eq_some_iff.mp hnormalized
      rfl

/-- Where the stored history agrees its times are taken, and they are the same. -/
theorem mergePersistedRootHistory_times {times : List Num} {reconstructed : List RootSnapshot}
    {persisted : Option (List RootSnapshot)} (hreconstructed : reconstructed.map (·.timestamp) = times)
    (hpersisted : ∀ history, persisted = some history → history.map (·.timestamp) = times) :
    (mergePersistedRootHistory reconstructed persisted).map (·.timestamp) = times := by
  unfold mergePersistedRootHistory
  split
  · rename_i hzero
    rw [← hreconstructed, List.length_eq_zero_iff.mp hzero]
  split
  · exact hreconstructed
  · rename_i history
    split
    · exact hreconstructed
    · rename_i hagrees
      rw [not_not, agreesWith, Bool.and_eq_true, decide_eq_true_eq] at hagrees
      have hzip : (reconstructed.zip history).map Prod.snd = history := List.map_snd_zip hagrees.1.le
      calc _ = ((reconstructed.zip history).map Prod.snd).map (·.timestamp) := by
            rw [List.map_map, List.map_map]
            rfl
        _ = times := by rw [hzip, hpersisted history rfl]

theorem getCanonicalBulletinRootHistory_timed {history history' : List RootSnapshot}
    {fallbackTimestamp : Num} (hsorted : sortedVotes votes = votes.map Prod.snd)
    (htimed : Timed votes history)
    (h : getCanonicalBulletinRootHistory noble sha256 votes history fallbackTimestamp = .ok history') :
    Timed votes history' := by
  obtain ⟨reconstructed, hreconstructed, h⟩ := bind_eq_ok.mp h
  refine ⟨?_, htimed.positive⟩
  rw [← Except.ok.inj h]
  refine mergePersistedRootHistory_times
    (rebuildCanonicalHistory_times hsorted htimed.positive hreconstructed) ?_
  intro parsed hparsed
  rw [parsePersistedRootHistory_times hparsed, htimed.times_eq]

/-! ### Staged votes -/

theorem appendVote_timestamp {voteId commitment : JsString} {now : Num}
    {board board' : SimpleBulletinBoard} {result : AppendResult}
    (h : exec (appendVote noble sha256 voteId commitment now) board = (.ok result, board')) :
    result.timestamp = now := by
  unfold appendVote at h
  repeat' first | split at h | rw [exec_get_bind] at h
  all_goals first | cases h | skip
  obtain ⟨index, _, -, h⟩ := exec_bind_eq_ok h
  obtain ⟨_, _, -, h⟩ := exec_bind_eq_ok h
  obtain ⟨root, _, -, h⟩ := exec_bind_eq_ok h
  obtain ⟨_, _, -, h⟩ := exec_bind_eq_ok h
  obtain ⟨hresult, -⟩ := Prod.mk.inj h
  rw [← Except.ok.inj hresult]

/-- A staged vote and its snapshot have the time of the append. -/
theorem stageVote_times {nextIndex : ℕ} {staged staged' : List RootSnapshot × List StagedVoteWrite}
    {write : IndexedVoteWrite × ℕ} {now : Num} {board board' : SimpleBulletinBoard}
    (h : exec (stageVote noble sha256 nextIndex staged (write, now)) board = (.ok staged', board')) :
    ∃ snapshot vote, staged'.1 = staged.1 ++ [snapshot] ∧ staged'.2 = staged.2 ++ [vote] ∧
      snapshot.timestamp = now ∧ vote.storedVote.timestamp = now := by
  unfold stageVote at h
  dsimp only at h
  split at h
  · cases h
  obtain ⟨result, _, happend, h⟩ := exec_bind_eq_ok h
  obtain ⟨treeSize, _, -, h⟩ := exec_bind_eq_ok h
  obtain ⟨root, _, -, h⟩ := exec_bind_eq_ok h
  obtain ⟨hstaged, -⟩ := Prod.mk.inj h
  rw [← Except.ok.inj hstaged]
  exact ⟨_, _, rfl, rfl, appendVote_timestamp happend, appendVote_timestamp happend⟩

/-- RUN: what is staged keeps the times of the record together. -/
theorem stageCtVoteWrites_timed {logId : JsString} {history : List RootSnapshot}
    {writes : List IndexedVoteWrite} {clock : StagingClock} {result : StagedCtWriteResult}
    (hsorted : sortedVotes votes = votes.map Prod.snd) (htimed : Timed votes history)
    (hclock : ∀ k, isPositiveInteger (clock.staged k) = true)
    (h : stageCtVoteWrites noble sha256 votes logId history writes clock = .ok result) :
    Timed (votes ++ stagedVotes result.votes) result.bulletinRootHistory := by
  obtain ⟨nextIndex, -, h⟩ := bind_eq_ok.mp h
  obtain ⟨restaged, -, h⟩ := bind_eq_ok.mp h
  obtain ⟨canonical, hcanonical, h⟩ := bind_eq_ok.mp h
  obtain ⟨_, -, h⟩ := bind_eq_ok.mp h
  have hbase := getCanonicalBulletinRootHistory_timed hsorted htimed hcanonical
  have hlength : canonical.length = (sortedVotes votes).length := by
    have hcount := congrArg List.length hbase.times_eq
    rwa [List.length_map, List.length_map, ← List.length_map (f := Prod.snd), ← hsorted] at hcount
  rw [← hlength, List.take_length] at h
  generalize hloop :
    exec ((timed clock.staged (sortBy (fun a b : IndexedVoteWrite => byNumber a.index b.index)
    writes).zipIdx).foldlM (stageVote noble sha256 nextIndex) (canonical, [])) restaged.2 = outcome at h
  obtain ⟨_ | staged, board⟩ := outcome
  · cases h
  rw [← Except.ok.inj h]
  refine @exec_foldlM_eq_ok JsError SimpleBulletinBoard _ _ _
    (fun _ (staged : List RootSnapshot × List StagedVoteWrite) _ => Timed
      (votes ++ stagedVotes staged.2) staged.1)
    (stageVote noble sha256 nextIndex) (canonical, []) restaged.2 staged board ?_ ?_ hloop
  · simpa [stagedVotes] using hbase
  · rintro done ⟨write, now⟩ rest hsplit staged _ staged' _ hstate hexec
    obtain ⟨snapshot, vote, hhistory, hvotes, hsnapshot, hvote⟩ := stageVote_times hexec
    have hnow : isPositiveInteger now = true := by
      have hmem : (write, now) ∈ timed clock.staged _ :=
        hsplit ▸ List.mem_append_right done List.mem_cons_self
      obtain ⟨entry, -, hentry⟩ := List.mem_map.mp hmem
      rw [← (Prod.mk.inj hentry).2]
      exact hclock _
    refine ⟨?_, ?_⟩
    · have htimes := hstate.times_eq
      rw [hhistory, hvotes, List.map_append, htimes]
      simp [stagedVotes, hsnapshot, hvote]
    · rw [hvotes, stagedVotes, List.map_append, ← List.append_assoc]
      intro entry hentry
      rcases List.mem_append.mp hentry with hentry | hentry
      · exact hstate.positive entry hentry
      · rw [List.mem_singleton.mp hentry, hvote]
        exact hnow

/-! ### Evaluations -/

/-- The board's clock reads positive integers. -/
def SessionMutationDependencies.OnTime (dependencies : SessionMutationDependencies) : Prop :=
  ∀ k, isPositiveInteger (dependencies.staging.staged k) = true

/-- The next record is of the same session, and timed. -/
structure NextTimed (voting nextVoting : SessionVotingRecord) : Prop where
  sessionId_eq : nextVoting.sessionId = voting.sessionId
  timed : Timed nextVoting.votes nextVoting.bulletinRootHistory

section Evaluations

variable {voting : SessionVotingRecord} {nextVoting : SessionVotingRecord}
  {mutation : SessionVoteMutation} {dependencies : SessionMutationDependencies}

theorem buildNextVoting_timed {electionId logId : JsString} {history : List RootSnapshot}
    {writes : List IndexedVoteWrite} {staged : StagedCtWriteResult} {clock : StagingClock}
    (h : Sound noble sha256 electionId entries voting) (htimed : Timed voting.votes history)
    (hordered : writes.Pairwise fun a b => a.index ≤ b.index)
    (hcommits : ∀ write ∈ writes, ∃ c : Bytes 32, write.vote.commit = prefixed c)
    (hsize : entries.length + writes.length ≤ Num.maxSafeInteger)
    (hclock : ∀ k, isPositiveInteger (clock.staged k) = true)
    (hstaged : stageCtVoteWrites noble sha256 voting.votes logId history writes clock = .ok staged) :
    Timed (staged.votes.foldl
      (fun votes stagedVote => mapSet votes stagedVote.index stagedVote.storedVote) voting.votes)
      staged.bulletinRootHistory := by
  obtain ⟨added, -, -, hholds⟩ :=
    (stageCtVoteWrites_eq_ok h.holds h.lists.distinct hordered hcommits hsize hstaged).continues
  rw [foldl_mapSet (hholds.keys_eq ▸ List.nodup_range)]
  exact stageCtVoteWrites_timed h.holds.sortedVotes_eq htimed hclock hstaged

theorem evaluateUserVoteMutation_timed {authority : SessionVoteAuthority U} {vote : UserVoteCommand}
    (h : Sound noble sha256 authority.identity.electionId [] authority.voting)
    (htimed : Timed authority.voting.votes authority.voting.bulletinRootHistory)
    (hclock : dependencies.OnTime)
    (hok : evaluateUserVoteMutation noble sha256 authority vote dependencies = .ok mutation)
    (hnext : nextVotingOf mutation = some nextVoting) : NextTimed authority.voting nextVoting := by
  unfold evaluateUserVoteMutation at hok
  obtain ⟨prepared, hprepared, hok⟩ := bind_eq_ok.mp hok
  obtain ⟨staged, hstaged, hok⟩ := bind_eq_ok.mp hok
  obtain ⟨c, hcommit⟩ := computeCommitment_prefixed (prepareVote_eq_ok hprepared).2.2.2.commit_eq
  have hbuilt := buildNextVoting_timed h htimed (List.pairwise_singleton _ _) (by simp [hcommit])
    (by simp [Num.maxSafeInteger]) hclock hstaged
  split at hok
  · cases hok
  split at hok
  · dsimp only at hok
    split at hok
    · cases hok
    · obtain ⟨merklePath, -, hok⟩ := bind_eq_ok.mp hok
      rw [← Except.ok.inj hok] at hnext
      rw [← Option.some.inj hnext]
      exact ⟨rfl, hbuilt⟩
  · cases hok

theorem evaluateBotVoteMutation_timed {authority : SessionVoteAuthority U} {votes : List BotVoteCommand}
    (h : Sound noble sha256 authority.identity.electionId entries authority.voting)
    (htimed : Timed authority.voting.votes authority.voting.bulletinRootHistory)
    (hclock : dependencies.OnTime) (hroom : authority.voting.botCount + votes.length ≤ Domain.botCount)
    (hok : evaluateBotVoteMutation noble sha256 authority votes dependencies = .ok mutation)
    (hnext : nextVotingOf mutation = some nextVoting) : NextTimed authority.voting nextVoting := by
  unfold evaluateBotVoteMutation at hok
  obtain ⟨_, -, hok⟩ := bind_eq_ok.mp hok
  obtain ⟨projection, hprojection, hok⟩ := bind_eq_ok.mp hok
  have hhistory : Timed authority.voting.votes projection.bulletinRootHistory := by
    obtain ⟨_, -, hprojection⟩ := bind_eq_ok.mp hprojection
    obtain ⟨history, hcanonical, hprojection⟩ := bind_eq_ok.mp hprojection
    obtain ⟨_, -, hprojection⟩ := bind_eq_ok.mp hprojection
    obtain ⟨_, -, hprojection⟩ := bind_eq_ok.mp hprojection
    obtain ⟨_, -, hprojection⟩ := bind_eq_ok.mp hprojection
    rw [← Except.ok.inj hprojection]
    exact getCanonicalBulletinRootHistory_timed h.holds.sortedVotes_eq htimed hcanonical
  split at hok
  · cases hok
  obtain ⟨_, -, hok⟩ := bind_eq_ok.mp hok
  obtain ⟨writes, hwrites, hok⟩ := bind_eq_ok.mp hok
  obtain ⟨staged, hstaged, hok⟩ := bind_eq_ok.mp hok
  obtain ⟨hcount, hordered, hopened⟩ := prepareBotVotes_eq_ok hwrites
  rw [← Except.ok.inj hok] at hnext
  rw [← Option.some.inj hnext]
  refine ⟨rfl, buildNextVoting_timed h hhistory hordered
    (fun write hwrite => computeCommitment_prefixed (hopened write hwrite).commit_eq) ?_ hclock hstaged⟩
  have hlength := h.length_le
  have hbots := h.botCount_eq
  rw [hcount]
  simp only [Domain.botCount, Num.maxSafeInteger] at *
  omega

/-- STEP: what an evaluation appends keeps the record's times together. -/
theorem evaluate_timed {identity : SessionIdentityRecord}
    (h : Sound noble sha256 identity.electionId entries voting)
    (htimed : Timed voting.votes voting.bulletinRootHistory) {attempt : Attempt U}
    (hclock : attempt.dependencies.OnTime) {authority : SessionVoteAuthority U}
    (heval : evaluate noble sha256 identity voting attempt = (.ok (.ok mutation), authority))
    (hnext : nextVotingOf mutation = some nextVoting) : NextTimed voting nextVoting := by
  obtain ⟨command, dependencies, finalization⟩ := attempt
  obtain ⟨-, hadmits⟩ := admits_of_evaluate h heval (by rw [hnext, Option.isSome_some])
  cases hadmits with
  | user vote hnotCast hempty hok =>
    obtain rfl : entries = [] :=
      List.length_eq_zero_iff.mp (by rw [← h.holds.length_eq, hempty, List.length_nil])
    exact @evaluateUserVoteMutation_timed noble sha256 U _ _ _ ⟨identity, voting, none⟩ _ h htimed
      hclock hok hnext
  | bots votes hcast hroom hok =>
    exact @evaluateBotVoteMutation_timed noble sha256 U entries _ _ _ ⟨identity, voting, none⟩ _ h
      htimed hclock hroom hok hnext

/-- STEP: so does an attempt, whatever comes of it. -/
theorem submit_timed {identity : SessionIdentityRecord}
    (h : Sound noble sha256 identity.electionId entries voting)
    (htimed : Timed voting.votes voting.bulletinRootHistory) {attempt : Attempt U}
    (hclock : attempt.dependencies.OnTime) :
    NextTimed voting (submit noble sha256 identity voting attempt) := by
  have hcases := evaluate_cases h attempt
  have htimes := @evaluate_timed noble sha256 U entries voting
  unfold submit
  generalize houtcome : evaluate noble sha256 identity voting attempt = outcome at hcases ⊢
  cases hcases with
  | refused result hresult =>
    rcases result with e | e | mutation
    · exact ⟨rfl, htimed⟩
    · exact ⟨rfl, htimed⟩
    · exact absurd rfl (hresult mutation)
  | replayed => exact ⟨rfl, htimed⟩
  | userAppended => exact htimes h htimed hclock houtcome rfl
  | botsAppended => exact htimes h htimed hclock houtcome rfl

end Evaluations

end StarkBallot.Application
