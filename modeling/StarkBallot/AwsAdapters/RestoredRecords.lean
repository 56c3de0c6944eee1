import StarkBallot.AwsAdapters.VoteReloads

/-! What a restore lets through (`restoreVotingRecord` of
    `aws-adapters/src/store/dynamoSessionStore.ts`). Whatever was read of a session, from whatever
    moments: if the checks of the restore pass, the record that comes out is sound, with as many votes
    as the stored history has roots. Each vote was put on a new board, under the index that comes next,
    with a commitment that its opening gives and the root that the board has then.

        items ──sorted──▶ vote 0 ⋯ vote n - 1 ──▶ board        stored history: n roots, those of the board
                                                               stored participation: the user's vote is vote 0 -/

namespace StarkBallot.AwsAdapters.Dynamo
open Schemes ContractCore CryptoPrimitives Merkle Domain Application

variable {noble : NobleUtils} {sha256 : List UInt8 → Bytes 32} {cipher : VoteSecretCipher}
  {identity : SessionIdentityRecord}

theorem exec_lifted_bind_eq_ok {ε σ α β : Type} {r : Except ε α} {f : α → ExceptT ε (StateM σ) β}
    {s s' : σ} {b : β} (h : exec (lifted r >>= f) s = (.ok b, s')) :
    ∃ a, r = .ok a ∧ exec (f a) s = (.ok b, s') := by
  obtain ⟨a, t, hr, h⟩ := exec_bind_eq_ok h
  rw [exec_lifted] at hr
  obtain ⟨rfl, rfl⟩ := Prod.mk.inj hr
  exact ⟨a, rfl, h⟩

/-! ### One vote -/

theorem rand_of_toStoredVoteRecord {item : VoteItem} {vote : StoredVoteRecord}
    (h : toStoredVoteRecord cipher item = .ok vote) : Normal vote.rand := by
  rw [toStoredVoteRecord, mapErr_eq_ok] at h
  obtain ⟨_, -, h⟩ := bind_eq_ok.mp h
  obtain ⟨_, -, h⟩ := bind_eq_ok.mp h
  obtain ⟨rand, hrand, h⟩ := bind_eq_ok.mp h
  obtain ⟨_, -, h⟩ := bind_eq_ok.mp h
  obtain ⟨_, -, h⟩ := bind_eq_ok.mp h
  obtain ⟨_, -, h⟩ := bind_eq_ok.mp h
  rw [← Except.ok.inj h]
  exact normal_of_normalizeHex hrand

/-- Where a restore stands after some items. -/
structure Restores (noble : NobleUtils) (sha256 : List UInt8 → Bytes 32) (cipher : VoteSecretCipher)
    (electionId : JsString) (done : List VoteItem) (entries : List Entry) (restored : RestoredVotes)
    (board : SimpleBulletinBoard) : Prop where
  items : List.Forall₂ (fun item entry => toStoredVoteRecord cipher item = .ok entry.2) done
    restored.votes
  holds : Domain.Holds sha256 entries restored.votes
  lists : Lists sha256 entries board
  history_eq : restored.reconstructedHistory = restored.votes.map snapshotOf
  opened : ∀ entry ∈ restored.votes,
    Opened noble sha256 electionId entry.2.toBotVoteCommand entry.2.commit

theorem restores_start (electionId logId : JsString) :
    Restores noble sha256 cipher electionId [] [] ⟨[], [], []⟩ (SimpleBulletinBoard.new logId) where
  items := .nil
  holds := ⟨rfl, rfl, rfl, rfl⟩
  lists := lists_new logId
  history_eq := rfl
  opened := by simp

theorem Restores.length_eq {electionId : JsString} {done : List VoteItem} {entries : List Entry}
    {restored : RestoredVotes} {board : SimpleBulletinBoard}
    (h : Restores noble sha256 cipher electionId done entries restored board) :
    entries.length = done.length := by
  rw [← h.holds.length_eq, h.items.length_eq]

/-- STEP: a vote that is restored comes next, opens and has the board's root. -/
theorem Restores.step {done : List VoteItem} {entries : List Entry} {restored restored' : RestoredVotes}
    {board board' : SimpleBulletinBoard} {item : VoteItem} {now : Num}
    (h : Restores noble sha256 cipher identity.electionId done entries restored board)
    (hsize : entries.length ≤ Num.maxSafeInteger)
    (hexec : exec (restoreVoteItem noble sha256 cipher identity restored ((item, entries.length), now))
      board = (.ok restored', board')) :
    ∃ entry, Restores noble sha256 cipher identity.electionId (done ++ [item])
      (entries ++ [entry]) restored' board' := by
  unfold restoreVoteItem at hexec
  dsimp only at hexec
  split at hexec
  · cases hexec
  obtain ⟨vote, hvote, hexec⟩ := exec_lifted_bind_eq_ok hexec
  rw [idxOf_choice] at hexec
  dsimp only at hexec
  obtain ⟨commitment, hcommitment, hexec⟩ := exec_lifted_bind_eq_ok hexec
  obtain ⟨c, rfl⟩ := computeCommitment_prefixed hcommitment
  obtain ⟨normal, hnormal, hexec⟩ := exec_lifted_bind_eq_ok hexec
  obtain rfl := Except.ok.inj ((normalizeStrictHex32_prefixed c).symm.trans hnormal)
  split at hexec
  · cases hexec
  rename_i hcommit
  rw [not_not] at hcommit
  obtain ⟨appended, board₁, happend, hexec⟩ := exec_bind_eq_ok hexec
  rw [orUnavailable_exec, ← hcommit, drop_prefixed] at happend
  by_cases hfresh : Fresh entries (vote.voteId, c)
  · obtain ⟨board₂, hfreshly, hlists, -⟩ := appendVote_fresh noble h.lists hfresh hsize now
    rw [hfreshly] at happend
    obtain ⟨hresult, rfl⟩ := Prod.mk.inj happend
    obtain rfl := Except.ok.inj hresult
    obtain ⟨root, hroot, hexec⟩ := exec_lifted_bind_eq_ok hexec
    obtain rfl := Except.ok.inj ((normalizeStrictHex32_of_spells (text_spells _)).symm.trans hroot)
    split at hexec
    · cases hexec
    rename_i hplace
    rw [not_or, not_not, not_not] at hplace
    obtain ⟨hresult, rfl⟩ := Prod.mk.inj hexec
    obtain rfl := Except.ok.inj hresult
    have hkeys : entries.length ∉ restored.votes.map Prod.fst := by
      rw [h.holds.keys_eq, List.mem_range]
      exact Nat.lt_irrefl _
    have hvotes := mapSet_of_not_mem (a := vote) hkeys
    refine ⟨(vote.voteId, c), ?_, ?_, hlists, ?_, ?_⟩
    · rw [hvotes]
      exact List.rel_append h.items (.cons hvote .nil)
    · rw [hvotes]
      exact h.holds.concat rfl hcommit.symm hplace.2.symm
    · dsimp only
      rw [hvotes, List.map_append, h.history_eq, hplace.2]
      rfl
    · dsimp only
      rw [hvotes]
      intro entry hentry
      rcases List.mem_append.mp hentry with hentry | hentry
      · exact h.opened entry hentry
      · obtain rfl := List.mem_singleton.mp hentry
        refine ⟨?_, rand_of_toStoredVoteRecord hvote⟩
        rw [← hcommit]
        exact hcommitment
  · obtain ⟨e, hstale⟩ := appendVote_stale noble h.lists hfresh now
    rw [hstale] at happend
    cases happend

/-! ### All votes -/

/-- RUN: all items are restored, one after the other. -/
theorem restores_of_restoreVoteItems {sorted : List VoteItem} {now : ℕ → Num} {restored : RestoredVotes}
    {board : SimpleBulletinBoard} (hsize : sorted.length ≤ Num.maxSafeInteger)
    (h : restoreVoteItems noble sha256 cipher identity sorted now = .ok (restored, board)) :
    ∃ entries, Restores noble sha256 cipher identity.electionId sorted entries restored board := by
  unfold restoreVoteItems onNewBoard at h
  rcases hloop :
      exec ((timed now sorted.zipIdx).foldlM (restoreVoteItem noble sha256 cipher identity) ⟨[], [], []⟩)
      (SimpleBulletinBoard.new identity.logId) with ⟨_ | restored', board'⟩
  · rw [hloop] at h
    cases h
  rw [hloop] at h
  obtain ⟨rfl, rfl⟩ := Prod.mk.inj (Except.ok.inj h)
  have hrun := @exec_foldlM_eq_ok JsError SimpleBulletinBoard _ _ (timed now sorted.zipIdx)
    (fun done restored board => ∃ entries,
      Restores noble sha256 cipher identity.electionId (sorted.take done.length) entries restored board)
    (restoreVoteItem noble sha256 cipher identity) ⟨[], [], []⟩
      (SimpleBulletinBoard.new identity.logId) restored' board'
    ⟨[], restores_start _ _⟩ (by
      rintro done ⟨⟨item, index⟩, time⟩ rest hsplit restored board restored' board'
        ⟨entries, hrestores⟩ hexec
      obtain ⟨hitem, rfl⟩ := get_of_timed_split hsplit
      obtain ⟨hlt, hget⟩ := List.getElem?_eq_some_iff.mp hitem
      have hlength : entries.length = done.length := by
        rw [hrestores.length_eq, List.length_take]
        omega
      rw [← hlength] at hexec
      obtain ⟨entry, hrestores'⟩ := hrestores.step (by omega) hexec
      rw [List.length_append, List.length_singleton, List.take_succ_eq_append_getElem hlt, hget]
      exact ⟨entries ++ [entry], hrestores'⟩) hloop
  rwa [timed_length, List.length_zipIdx, List.take_length] at hrun

/-- A history that was restored has the roots of the board. -/
theorem snapshots_of_restore {entries : List Entry} {votes : Votes}
    {persisted history : List RootSnapshot} (hholds : Domain.Holds sha256 entries votes)
    (h : restorePersistedRootHistory persisted (votes.map snapshotOf) votes = .ok history) :
    Snapshots sha256 entries history ∧ persisted.length = entries.length := by
  unfold restorePersistedRootHistory at h
  obtain ⟨_, hlength, h⟩ := bind_eq_ok.mp h
  have hlength : persisted.length = (votes.map snapshotOf).length :=
    not_not.mp (refuseIf_eq_ok.mp hlength)
  have hall := forall₂_of_mapM h
  rw [List.length_map, hholds.length_eq] at hlength
  refine ⟨⟨?_, ?_⟩, hlength⟩
  · rw [← hall.length_eq, List.length_zipIdx, List.length_map, hholds.length_eq]
  · intro k found hfound
    obtain ⟨⟨snapshot, index⟩, hsnapshot, hstep⟩ := get_of_forall₂ hall hfound
    rw [List.getElem?_zipIdx, List.getElem?_map, Option.map_map, Option.map_eq_some_iff] at hsnapshot
    obtain ⟨⟨voteIndex, vote⟩, hvote, hpair⟩ := hsnapshot
    obtain ⟨rfl, rfl⟩ := Prod.mk.inj hpair
    obtain ⟨_, -, rfl, -, -, hroot⟩ := hholds.get hvote
    unfold restoreRootSnapshot at hstep
    obtain ⟨stored, -, hstep⟩ := bind_eq_ok.mp hstep
    obtain ⟨_, hsize, hstep⟩ := bind_eq_ok.mp hstep
    obtain ⟨_, -, hstep⟩ := bind_eq_ok.mp hstep
    obtain ⟨_, -, hstep⟩ := bind_eq_ok.mp hstep
    obtain ⟨_, -, hstep⟩ := bind_eq_ok.mp hstep
    rw [← Except.ok.inj hstep]
    refine ⟨not_not.mp (refuseIf_eq_ok.mp hsize), ?_⟩
    dsimp only [snapshotOf]
    rw [hroot]
    exact prefixed_spells _

/-- What the stored participation tells of the votes. -/
theorem participation_of_restore {entries : List Entry} {persisted : PersistedVotingRecord}
    {sorted : List VoteItem} {votes : Votes} (hholds : Domain.Holds sha256 entries votes)
    (hlength : entries.length = sorted.length)
    (h : assertPersistedParticipation persisted sorted votes = .ok ()) :
    (persisted.userParticipation = if entries.length = 0 then .notCast else .cast 0) ∧
      persisted.botCount = entries.length - 1 := by
  have hchecks := refuseIf_eq_ok.mp h
  rw [not_or, not_or, not_not, not_not] at hchecks
  obtain ⟨hfirst, -, hbots⟩ := hchecks
  rw [← hlength] at hbots
  cases hparticipation : persisted.userParticipation with
  | notCast =>
    rw [hparticipation] at hfirst hbots
    have hzero : entries.length = 0 := by
      rw [hlength]
      simpa [hasFirstUserVote, voteIndexOf] using hfirst
    rw [if_pos hzero]
    refine ⟨rfl, ?_⟩
    rw [hbots, hzero, Nat.zero_sub]
  | cast index =>
    rw [hparticipation] at hfirst hbots
    simp only [hasFirstUserVote, voteIndexOf, Bool.and_eq_true, decide_eq_true_eq] at hfirst
    obtain ⟨⟨rfl, hlookup⟩, -⟩ := hfirst
    have hpos : entries.length ≠ 0 := by
      intro hzero
      rw [List.length_eq_zero_iff.mp (hholds.length_eq.trans hzero)] at hlookup
      cases hlookup
    rw [if_neg hpos]
    refine ⟨rfl, ?_⟩
    simpa [voteIndexOf] using hbots

/-! ### Records -/

variable (noble sha256 cipher) in
/-- What a restored record has of the items, and of the stored record. -/
structure Restored (electionId : JsString) (persisted : PersistedVotingRecord)
    (voteItems : List VoteItem) (entries : List Entry) (voting : SessionVotingRecord) : Prop where
  items : List.Forall₂ (fun item entry => toStoredVoteRecord cipher item = .ok entry.2)
    (sortBy (fun left right : VoteItem => byNumber left.voteIndex right.voteIndex) voteItems)
    voting.votes
  holds : Domain.Holds sha256 entries voting.votes
  lists : Lists sha256 entries voting.bulletin
  snapshots : Snapshots sha256 entries voting.bulletinRootHistory
  history_length : persisted.bulletinRootHistory.length = entries.length
  participation_eq : voting.userParticipation = if entries.length = 0 then .notCast else .cast 0
  botCount_eq : voting.botCount = persisted.botCount ∧ persisted.botCount = entries.length - 1
  opened : ∀ entry ∈ voting.votes, Opened noble sha256 electionId entry.2.toBotVoteCommand entry.2.commit

theorem restored_of_restore {persisted : PersistedVotingRecord} {voteItems : List VoteItem}
    {now : ℕ → Num} {voting : SessionVotingRecord}
    (hsize : (sortBy (fun left right : VoteItem => byNumber left.voteIndex right.voteIndex)
      voteItems).length ≤ Num.maxSafeInteger)
    (h : restoreVotingRecord noble sha256 cipher identity persisted voteItems now = .ok voting) :
    ∃ entries, Restored noble sha256 cipher identity.electionId persisted voteItems entries voting := by
  unfold restoreVotingRecord at h
  obtain ⟨⟨restored, bulletin⟩, hitems, h⟩ := bind_eq_ok.mp h
  obtain ⟨history, hhistory, h⟩ := bind_eq_ok.mp h
  obtain ⟨_, hparticipation, h⟩ := bind_eq_ok.mp h
  rw [← Except.ok.inj h]
  obtain ⟨entries, hrestores⟩ := restores_of_restoreVoteItems hsize hitems
  rw [hrestores.history_eq] at hhistory
  obtain ⟨hsnapshots, hpersisted⟩ := snapshots_of_restore hrestores.holds hhistory
  obtain ⟨hcast, hbotCount⟩ :=
    participation_of_restore hrestores.holds hrestores.length_eq hparticipation
  exact ⟨entries, hrestores.items, hrestores.holds, hrestores.lists, hsnapshots, hpersisted, hcast,
    ⟨rfl, hbotCount⟩, hrestores.opened⟩

/-- A record with no more bots than there are is sound once it is restored. -/
theorem sound_of_restore {persisted : PersistedVotingRecord} {voteItems : List VoteItem} {now : ℕ → Num}
    {voting : SessionVotingRecord} (hbots : persisted.botCount ≤ Domain.botCount)
    (h : restoreVotingRecord noble sha256 cipher identity persisted voteItems now = .ok voting) :
    ∃ entries, Sound noble sha256 identity.electionId entries voting ∧
      entries.length = persisted.bulletinRootHistory.length := by
  have hsize :
      (sortBy (fun left right : VoteItem => byNumber left.voteIndex right.voteIndex) voteItems).length ≤
      Domain.botCount + 1 := by
    unfold restoreVotingRecord at h
    obtain ⟨⟨restored, bulletin⟩, -, h⟩ := bind_eq_ok.mp h
    obtain ⟨history, -, h⟩ := bind_eq_ok.mp h
    obtain ⟨_, hparticipation, -⟩ := bind_eq_ok.mp h
    have hcount := refuseIf_eq_ok.mp hparticipation
    rw [not_or, not_or, not_not] at hcount
    have hvotes := hcount.2.2
    rw [not_not] at hvotes
    split at hvotes <;> omega
  obtain ⟨entries, hrestored⟩ := restored_of_restore (hsize.trans (by decide)) h
  have hbotCount := hrestored.botCount_eq
  exact ⟨entries, ⟨hrestored.holds, hrestored.lists, hrestored.snapshots, hrestored.participation_eq,
    hbotCount.1.trans hbotCount.2, hbotCount.1 ▸ hbots, hrestored.opened⟩, hrestored.history_length.symm⟩

/-- SOUND: whatever was stored, and from whatever moments it was read: if a restore returns, its votes
    are the items in the order of their indices, each opens its commitment, and board, history and
    participation are those of the votes. An array has fewer than 2^32 items. -/
theorem restored_record_sound {persisted : PersistedVotingRecord} {voteItems : List VoteItem}
    {now : ℕ → Num} {voting : SessionVotingRecord} (hitems : voteItems.length < 2 ^ 32)
    (h : restoreVotingRecord noble sha256 cipher identity persisted voteItems now = .ok voting) :
    ∃ entries, Restored noble sha256 cipher identity.electionId persisted voteItems entries voting := by
  refine restored_of_restore ?_ h
  rw [sortBy, List.length_mergeSort]
  exact hitems.le.trans (by decide)

/-- A session with one vote, as it is stored. -/
def storedSample : StoredVoting :=
  persistVotes .reference (fun _ => (Bytes.fill 12 0, Bytes.fill 12 0)) sampleInput.sessionId
    ⟨toPersistedVotingRecord (buildSessionRecords sampleInput).2, []⟩
    (submit .reference Sha256.digest (buildSessionRecords sampleInput).1
      (buildSessionRecords sampleInput).2 (sampleAttempt [])) 300

theorem restored_record_on_sample : ∃ voting entries,
    Restored .reference Sha256.digest .reference sampleInput.electionId storedSample.record
      storedSample.items entries voting := by
  have hreturns :
      (restoreVotingRecord .reference Sha256.digest .reference (buildSessionRecords sampleInput).1
      storedSample.record storedSample.items fun _ => .ofNat 2).isOk = true := by decide +kernel
  obtain ⟨voting, hvoting⟩ := exists_of_isOk hreturns
  have hitems : storedSample.items.length < 2 ^ 32 := by decide +kernel
  exact ⟨voting, restored_record_sound hitems hvoting⟩

/-- The mutation that an evaluation ends with makes the next record. -/
theorem submit_of_evaluate {U : Type} {voting next : SessionVotingRecord} {attempt : Attempt U}
    {mutation : SessionVoteMutation}
    (heval : (evaluate noble sha256 identity voting attempt).1 = .ok (.ok mutation))
    (hnext : nextVotingOf mutation = some next) :
    submit noble sha256 identity voting attempt = next := by
  unfold submit
  generalize evaluate noble sha256 identity voting attempt = outcome at heval
  obtain ⟨result, authority⟩ := outcome
  dsimp only at heval
  rw [heval]
  dsimp only
  rw [hnext, Option.getD_some]

end StarkBallot.AwsAdapters.Dynamo
