import StarkBallot.Application.SessionMutation
import StarkBallot.Runtime.Sha256

/-! What holds of the voting record of a session after every run. A record is `Sound` for a list of
    entries when its parts tell the same story about them: the votes hold them, the board lists them,
    the root history has a snapshot for each, and participation and bot count follow from their number.
    An evaluation either appends entries to a sound record or leaves it as it is, up to
    the caches of its board. -/

namespace StarkBallot.Application
open Schemes ContractCore CryptoPrimitives Merkle Domain

variable {noble : NobleUtils} {sha256 : List UInt8 → Bytes 32} {U : Type} {electionId : JsString}
    {entries : List Entry}

/-! ### Prepared votes -/

/-- The stored opening gives the stored commitment. -/
structure Opened (noble : NobleUtils) (sha256 : List UInt8 → Bytes 32) (electionId : JsString)
    (vote : BotVoteCommand) (commit : JsString) : Prop where
  commit_eq :
    ZkvmContract.computeCommitment noble sha256 electionId (.ofNat vote.vote.toNumber)
      vote.rand = .ok commit
  normal : Normal vote.rand

theorem computeCommitment_prefixed {choice : Num} {random commit : JsString}
    (h : ZkvmContract.computeCommitment noble sha256 electionId choice random = .ok commit) :
    ∃ c : Bytes 32, commit = prefixed c := by
  unfold ZkvmContract.computeCommitment at h
  obtain ⟨_, -, h⟩ := bind_eq_ok.mp h
  obtain ⟨_, -, h⟩ := bind_eq_ok.mp h
  rw [← Except.ok.inj h, noble.bytesToHex_eq]
  exact ⟨_, rfl⟩

theorem prepareVote_eq_ok {identity : SessionIdentityRecord} {vote : BotVoteCommand} {voteId : JsString}
    {timestamp : Num} {prepared : PreparedVote}
    (h : prepareVote noble sha256 identity vote voteId timestamp = .ok prepared) :
    prepared.voteId = voteId ∧ prepared.vote = vote.vote ∧
      normalizeHex vote.rand orEmpty = .ok prepared.rand ∧
      Opened noble sha256 identity.electionId prepared.toBotVoteCommand prepared.commit := by
  unfold prepareVote at h
  obtain ⟨rand, hrand, h⟩ := bind_eq_ok.mp h
  obtain ⟨commit, hcommit, h⟩ := bind_eq_ok.mp h
  rw [← Except.ok.inj h]
  exact ⟨rfl, rfl, hrand, hcommit, normal_of_normalizeHex hrand⟩

/-- A vote is prepared if its random and the election id can be read. -/
theorem prepareVote_returns {identity : SessionIdentityRecord} {vote : BotVoteCommand} {rand : JsString}
    (hrand : normalizeHex vote.rand orEmpty = .ok rand)
    (hid : (ZkvmContract.toUuidBytes noble identity.electionId).isOk = true)
    (hbytes : (ZkvmContract.hexToBytesStrict noble rand).isOk = true) (voteId : JsString)
    (timestamp : Num) :
    ∃ prepared, prepareVote noble sha256 identity vote voteId timestamp = .ok prepared := by
  obtain ⟨id, hid⟩ := exists_of_isOk hid
  obtain ⟨bytes, hbytes⟩ := exists_of_isOk hbytes
  rw [prepareVote, hrand, ok_bind, ZkvmContract.computeCommitment, hid, ok_bind, hbytes, ok_bind]
  exact ⟨_, rfl⟩

/-! ### Sound records -/

/-- All parts of the record agree on the entries. -/
structure Sound (noble : NobleUtils) (sha256 : List UInt8 → Bytes 32) (electionId : JsString)
    (entries : List Entry) (voting : SessionVotingRecord) : Prop where
  holds : Holds sha256 entries voting.votes
  lists : Lists sha256 entries voting.bulletin
  snapshots : Snapshots sha256 entries voting.bulletinRootHistory
  participation_eq : voting.userParticipation = if entries.length = 0 then .notCast else .cast 0
  botCount_eq : voting.botCount = entries.length - 1
  botCount_le : voting.botCount ≤ Domain.botCount
  opened : ∀ entry ∈ voting.votes, Opened noble sha256 electionId entry.2.toBotVoteCommand entry.2.commit

theorem sound_start (input : SessionCreationInput) :
    Sound noble sha256 electionId [] (buildSessionRecords input).2 where
  holds := ⟨rfl, rfl, rfl, rfl⟩
  lists := lists_new input.logId
  snapshots := snapshots_nil
  participation_eq := rfl
  botCount_eq := rfl
  botCount_le := Nat.zero_le _
  opened := by simp [buildSessionRecords]

namespace Sound

variable {voting : SessionVotingRecord}

theorem length_le (h : Sound noble sha256 electionId entries voting) :
    entries.length ≤ Domain.botCount + 1 := by
  have heq := h.botCount_eq
  have hle := h.botCount_le
  omega

theorem safe (h : Sound noble sha256 electionId entries voting) : entries.length ≤ Num.maxSafeInteger :=
  h.length_le.trans (by decide)

/-- Only the caches of the board matter to nothing else. -/
theorem with_board (h : Sound noble sha256 electionId entries voting) {board : SimpleBulletinBoard}
    (hlists : Lists sha256 entries board) :
    Sound noble sha256 electionId entries { voting with bulletin := board } where
  holds := h.holds
  lists := hlists
  snapshots := h.snapshots
  participation_eq := h.participation_eq
  botCount_eq := h.botCount_eq
  botCount_le := h.botCount_le
  opened := h.opened

theorem cast_iff (h : Sound noble sha256 electionId entries voting) :
    voting.userParticipation ≠ .notCast ↔ 0 < entries.length := by
  rw [h.participation_eq]
  split
  · simpa using ‹entries.length = 0›
  · simpa using Nat.pos_of_ne_zero ‹_›

theorem cast_zero (h : Sound noble sha256 electionId entries voting) (hpos : 0 < entries.length) :
    voting.userParticipation = .cast 0 := by
  rw [h.participation_eq, if_neg hpos.ne']

end Sound

/-! ### Next records -/

/-- New keys enter a map in their order. -/
theorem foldl_mapSet {m : Votes} {staged : List StagedVoteWrite}
    (h : ((m ++ stagedVotes staged).map Prod.fst).Nodup) :
    staged.foldl (fun votes stagedVote => mapSet votes stagedVote.index stagedVote.storedVote) m =
      m ++ stagedVotes staged := by
  induction staged generalizing m with
  | nil => simp [stagedVotes]
  | cons vote rest ih =>
    have hsplit :
        m ++ stagedVotes (vote :: rest) = (m ++ [(vote.index, vote.storedVote)]) ++
          stagedVotes rest := by
      simp [stagedVotes]
    have hnew : vote.index ∉ m.map Prod.fst := by
      intro hmem
      rw [stagedVotes, List.map_cons, List.map_append, List.map_cons, List.nodup_append] at h
      exact h.2.2 _ hmem _ List.mem_cons_self rfl
    rw [List.foldl_cons, mapSet_of_not_mem hnew, hsplit]
    exact ih (hsplit ▸ h)

/-- What was staged makes the next record. -/
theorem buildNextVoting_sound {voting : SessionVotingRecord} {writes : List IndexedVoteWrite}
    {added : List Entry} {staged : StagedCtWriteResult} {botCount : ℕ} {lastActivityMs : Num}
    (h : Sound noble sha256 electionId entries voting)
    (hstages : List.Forall₂ Stages writes staged.votes)
    (hlists : Lists sha256 (entries ++ added) staged.bulletin)
    (hsnapshots : Snapshots sha256 (entries ++ added) staged.bulletinRootHistory)
    (hholds : Holds sha256 (entries ++ added) (voting.votes ++ stagedVotes staged.votes))
    (hopened : ∀ write ∈ writes,
      Opened noble sha256 electionId write.vote.toBotVoteCommand write.vote.commit)
    (hpos : 0 < entries.length + writes.length)
    (hbots : botCount = entries.length + writes.length - 1)
    (hroom : botCount ≤ Domain.botCount) :
    Sound noble sha256 electionId (entries ++ added)
        (buildNextVoting voting staged botCount (some 0) lastActivityMs) ∧
      (buildNextVoting voting staged botCount (some 0) lastActivityMs).votes =
        voting.votes ++ stagedVotes staged.votes := by
  have hvotes : (buildNextVoting voting staged botCount (some 0) lastActivityMs).votes =
      voting.votes ++ stagedVotes staged.votes := by
    refine foldl_mapSet ?_
    rw [hholds.keys_eq]
    exact List.nodup_range
  have hlength : (entries ++ added).length = entries.length + writes.length := by
    rw [← hholds.length_eq, List.length_append, h.holds.length_eq, stagedVotes, List.length_map,
      hstages.length_eq]
  refine ⟨?_, hvotes⟩
  exact {
    holds := hvotes ▸ hholds
    lists := hlists
    snapshots := hsnapshots
    participation_eq := by
      rw [hlength, if_neg hpos.ne']
      rfl
    botCount_eq := by rw [hlength, ← hbots, buildNextVoting]
    botCount_le := hroom
    opened := by
      rw [hvotes]
      intro entry hentry
      rcases List.mem_append.mp hentry with hentry | hentry
      · exact h.opened entry hentry
      · obtain ⟨vote, hvote, rfl⟩ := List.mem_map.mp hentry
        obtain ⟨write, hwrite, hstaged⟩ := exists_of_forall₂ hstages vote hvote
        have hopen := hopened write hwrite
        refine ⟨?_, ?_⟩
        · simp only [hstaged.vote_eq, hstaged.rand_eq, hstaged.commit_eq]
          exact hopen.commit_eq
        · simp only [hstaged.rand_eq]
          exact hopen.normal }

/-! ### Appended votes -/

/-- The proof of the first vote in the tree of one leaf is empty, now and later. -/
theorem firstProof {board : SimpleBulletinBoard} (hlists : Lists sha256 entries board) {entry : Entry}
    (hentry : entries[0]? = some entry) (hsafe : entries.length ≤ Num.maxSafeInteger) :
    ∃ root board', exec (getInclusionProof noble sha256 entry.1 (some ((0 : ℕ) + 1))) board =
        (.ok (some ⟨0, [], 1, root⟩), board') ∧ Lists sha256 entries board' := by
  obtain ⟨hlt, -⟩ := List.getElem?_eq_some_iff.mp hentry
  obtain ⟨tree, hproof, hlists'⟩ :=
    @getInclusionProof_lists noble sha256 _ _ hlists 0 1 _ hentry (by omega) hlt hsafe
  rw [proofNodesOf_one, List.map_nil] at hproof
  exact ⟨_, _, hproof, hlists'⟩

section UserVote

variable {authority : SessionVoteAuthority U} {vote : UserVoteCommand}
    {dependencies : SessionMutationDependencies}

/-- A first vote that was staged is appended. -/
theorem evaluateUserVoteMutation_of_staged {prepared : PreparedVote} {staged : StagedCtWriteResult}
    (h : Sound noble sha256 authority.identity.electionId [] authority.voting)
    (hprepared : prepareVote noble sha256 authority.identity vote.toBotVoteCommand vote.voteId
      vote.timestamp = .ok prepared)
    (hstaged : stageCtVoteWrites noble sha256 authority.voting.votes authority.voting.bulletin.logId
      authority.voting.bulletinRootHistory [⟨authority.voting.votes.length, prepared⟩]
        dependencies.staging = .ok staged) :
    ∃ nextVoting intents stored entry,
        evaluateUserVoteMutation noble sha256 authority vote dependencies = .ok
          (.userVoteAppended nextVoting intents ⟨0, [], stored.rootAtCast⟩) ∧
      Sound noble sha256 authority.identity.electionId [entry] nextVoting ∧
        nextVoting.votes = [(0, stored)] ∧
      stored.voteId = vote.voteId ∧ stored.vote = vote.vote ∧
        normalizeHex vote.rand orEmpty = .ok stored.rand := by
  obtain ⟨hid, hvote, hrand, hopened⟩ := prepareVote_eq_ok hprepared
  obtain ⟨c, hcommit⟩ := computeCommitment_prefixed hopened.commit_eq
  have hempty : authority.voting.votes = [] := List.length_eq_zero_iff.mp h.holds.length_eq
  have hcontinues := stageCtVoteWrites_eq_ok h.holds h.lists.distinct (by simp) (by simp [hcommit])
    (by simp [Num.maxSafeInteger]) hstaged
  obtain ⟨added, hlists, hsnapshots, hholds⟩ := hcontinues.continues
  obtain ⟨stagedVote, hvotes, hstages⟩ : ∃ stagedVote, staged.votes = [stagedVote] ∧
      Stages ⟨authority.voting.votes.length, prepared⟩ stagedVote := by
    have hall := hcontinues.stages
    rcases hlist : staged.votes with _ | ⟨stagedVote, rest⟩
    · rw [hlist] at hall
      cases hall
    · rw [hlist, List.forall₂_cons, List.forall₂_nil_left_iff] at hall
      exact ⟨stagedVote, by rw [hall.2], hall.1⟩
  have hnext : authority.voting.votes ++ stagedVotes staged.votes = [(0, stagedVote.storedVote)] := by
    simp [hempty, hvotes, stagedVotes, hstages.index_eq]
  have hfirst :
      (authority.voting.votes ++ stagedVotes staged.votes)[0]? = some (0, stagedVote.storedVote) := by
    rw [hnext, List.getElem?_cons_zero]
  obtain ⟨entry, hentry, -, hentryId, -, hroot⟩ := hholds.get hfirst
  have hadded : [] ++ added = [entry] := by
    have hlength := hholds.length_eq
    rw [hnext, List.length_singleton] at hlength
    obtain ⟨entry', hsingle⟩ := List.length_eq_one_iff.mp hlength.symm
    rw [hsingle, List.getElem?_cons_zero] at hentry
    rw [hsingle, Option.some.inj hentry]
  rw [hadded] at hlists hentry hsnapshots hholds hroot
  obtain ⟨root, board, hproof, hlists'⟩ :=
    @firstProof noble _ _ _ hlists entry hentry (by simp [Num.maxSafeInteger])
  rw [← hentryId, hstages.stored_voteId_eq] at hproof
  have hne : stagedVote.storedVote.rootAtCast ≠ [] := by
    rw [hroot]
    exact List.cons_ne_nil _ _
  have hhead : staged.votes.head? = some stagedVote := by rw [hvotes, List.head?_cons]
  have hsound := @buildNextVoting_sound noble sha256 _ [] authority.voting
    [⟨authority.voting.votes.length, prepared⟩] [entry]
    { staged with bulletin := board } authority.voting.botCount (dependencies.nowMs 0) h
      hcontinues.stages hlists' hsnapshots hholds (by simpa using hopened) (by simp)
    (by simp [h.botCount_eq]) h.botCount_le
  refine ⟨_, toIndexIntents staged.votes, stagedVote.storedVote, entry, ?_, hsound.1,
    hsound.2.trans hnext, ?_, ?_, ?_⟩
  · rw [hempty, List.length_nil] at hstaged
    simp only [evaluateUserVoteMutation, hprepared, ok_bind, hempty, hstaged, hhead, List.length_nil,
      hproof, if_neg hne, List.mapM_nil]
    rfl
  · rw [hstages.stored_voteId_eq, hid]
  · rw [hstages.vote_eq, hvote]
  · rw [hstages.rand_eq, hrand]

/-- The first vote is the user's, alone on the board. -/
theorem evaluateUserVoteMutation_eq_ok {mutation : SessionVoteMutation}
    (h : Sound noble sha256 authority.identity.electionId [] authority.voting)
    (hok : evaluateUserVoteMutation noble sha256 authority vote dependencies = .ok mutation) :
    ∃ nextVoting intents stored entry, mutation = .userVoteAppended nextVoting intents
      ⟨0, [], stored.rootAtCast⟩ ∧
      Sound noble sha256 authority.identity.electionId [entry] nextVoting ∧
      nextVoting.votes = [(0, stored)] ∧
      stored.voteId = vote.voteId ∧ stored.vote = vote.vote ∧
      normalizeHex vote.rand orEmpty = .ok stored.rand := by
  have hparts := hok
  unfold evaluateUserVoteMutation at hparts
  obtain ⟨prepared, hprepared, hparts⟩ := bind_eq_ok.mp hparts
  obtain ⟨staged, hstaged, -⟩ := bind_eq_ok.mp hparts
  obtain ⟨nextVoting, intents, stored, entry, heval, hrest⟩ :=
    evaluateUserVoteMutation_of_staged h hprepared hstaged
  exact ⟨nextVoting, intents, stored, entry, Except.ok.inj (hok.symm.trans heval), hrest⟩

end UserVote

/-- The prepared bot votes come in order and are opened. -/
theorem prepareBotVotes_eq_ok {identity : SessionIdentityRecord} {votes : List BotVoteCommand}
    {nextIndex : ℕ} {dependencies : SessionMutationDependencies} {writes : List IndexedVoteWrite}
    (h : prepareBotVotes noble sha256 identity votes nextIndex dependencies = .ok writes) :
    writes.length = votes.length ∧ (writes.Pairwise fun a b => a.index ≤ b.index) ∧
      ∀ write ∈ writes, Opened noble sha256 identity.electionId write.vote.toBotVoteCommand
        write.vote.commit := by
  have hall : List.Forall₂ (fun (vote : BotVoteCommand × ℕ) (write : IndexedVoteWrite) =>
      write.index = nextIndex + vote.2 ∧
      Opened noble sha256 identity.electionId write.vote.toBotVoteCommand write.vote.commit)
        votes.zipIdx writes := by
    refine (forall₂_of_mapM h).imp ?_
    rintro ⟨vote, offset⟩ write hwrite
    obtain ⟨prepared, hprepared, hwrite⟩ := bind_eq_ok.mp hwrite
    rw [← Except.ok.inj hwrite]
    exact ⟨rfl, (prepareVote_eq_ok hprepared).2.2.2⟩
  have hindices : writes.map (·.index) = votes.zipIdx.map fun vote => nextIndex + vote.2 :=
    map_eq_of_forall₂ (hall.imp fun _ _ hwrite => hwrite.1)
  refine ⟨by rw [← hall.length_eq, List.length_zipIdx], ?_, ?_⟩
  · have hsorted : (votes.zipIdx.map fun vote => nextIndex + vote.2).Pairwise (· ≤ ·) := by
      have hrange : ((List.range' 0 votes.length).map (nextIndex + ·)).Pairwise (· ≤ ·) :=
        List.Pairwise.map _ (fun _ _ hlt => Nat.add_le_add_left hlt.le _) List.pairwise_lt_range'
      rwa [← List.zipIdx_map_snd 0 votes, List.map_map] at hrange
    rw [← hindices] at hsorted
    exact List.pairwise_map.mp hsorted
  · intro write hwrite
    obtain ⟨_, -, hvote⟩ := exists_of_forall₂ hall write hwrite
    exact hvote.2

/-- A batch of bot votes goes after the votes that are there. -/
theorem evaluateBotVoteMutation_eq_ok {authority : SessionVoteAuthority U} {votes : List BotVoteCommand}
    {dependencies : SessionMutationDependencies} {mutation : SessionVoteMutation}
    (h : Sound noble sha256 authority.identity.electionId entries authority.voting)
    (hpos : 0 < entries.length) (hroom : authority.voting.botCount + votes.length ≤ Domain.botCount)
    (hok : evaluateBotVoteMutation noble sha256 authority votes dependencies = .ok mutation) :
    ∃ nextVoting intents added stored, mutation = .botVotesAppended nextVoting intents ∧
      Sound noble sha256 authority.identity.electionId (entries ++ added) nextVoting ∧
      nextVoting.votes = authority.voting.votes ++ stored := by
  unfold evaluateBotVoteMutation at hok
  obtain ⟨board, history, hprojection, -, -, -⟩ :=
    @projection_ok noble _ _ _ h.holds h.lists.distinct h.safe hpos
    (h.cast_zero hpos) authority.voting.bulletin.logId dependencies.rebuilt dependencies.fallback
  obtain ⟨_, -, hok⟩ := bind_eq_ok.mp hok
  rw [hprojection, ok_bind, if_neg (by simp [h.botCount_eq])] at hok
  obtain ⟨_, -, hok⟩ := bind_eq_ok.mp hok
  obtain ⟨writes, hwrites, hok⟩ := bind_eq_ok.mp hok
  obtain ⟨staged, hstaged, hok⟩ := bind_eq_ok.mp hok
  obtain ⟨hcount, hordered, hopened⟩ := prepareBotVotes_eq_ok hwrites
  have hbots := h.botCount_eq
  have hcontinues := stageCtVoteWrites_eq_ok h.holds h.lists.distinct hordered
    (fun write hwrite => computeCommitment_prefixed (hopened write hwrite).commit_eq)
    (by have := h.length_le; rw [hcount]; simp only [Domain.botCount, Num.maxSafeInteger] at *; omega)
    hstaged
  obtain ⟨added, hlists, hsnapshots, hholds⟩ := hcontinues.continues
  have hlength : staged.votes.length = writes.length := hcontinues.stages.length_eq.symm
  have hsound := @buildNextVoting_sound noble sha256 _ _ authority.voting writes added staged
    (entries.length - 1 + staged.votes.length)
    (dependencies.nowMs votes.length) h hcontinues.stages hlists hsnapshots hholds hopened (by omega)
    (by omega) (by omega)
  exact ⟨_, _, added, stagedVotes staged.votes, (Except.ok.inj hok).symm, hsound.1, hsound.2⟩

/-! ### Repeated votes -/

theorem Sound.firstVote {voting : SessionVotingRecord} (h : Sound noble sha256 electionId entries voting)
    (hpos : 0 < entries.length) :
    ∃ stored entry, voting.votes.lookup 0 = some stored ∧ voting.votes[0]? = some (0, stored) ∧
      entries[0]? = some entry ∧ stored.voteId = entry.1 ∧ stored.commit = prefixed entry.2 ∧
      stored.rootAtCast = prefixed (rootOf sha256 (entries.take 1)) ∧
      Opened noble sha256 electionId stored.toBotVoteCommand stored.commit := by
  obtain ⟨stored, hlookup, hfirst⟩ := h.holds.lookup_zero hpos
  obtain ⟨entry, hentry, -, hid, hcommit, hroot⟩ := h.holds.get hfirst
  exact ⟨stored, entry, hlookup, hfirst, hentry, hid, hcommit, hroot,
    h.opened _ (List.mem_of_getElem? hfirst)⟩

/-- How the request for a vote that was cast is resolved. -/
def resolved (stored : StoredVoteRecord) (requested : BotVoteCommand) : JsM UserVoteReplay :=
  if stored.vote ≠ requested.vote then .ok .conflict
  else do
    let requestedRand ← normalizeHex requested.rand
    if stored.rand ≠ requestedRand then .ok .conflict else .ok (.replay stored 0)

/-- Replayed is the stored vote, to the same opening only. -/
theorem resolved_eq_replay {stored found : StoredVoteRecord} {requested : BotVoteCommand} {index : ℕ} :
    resolved stored requested = .ok (.replay found index) ↔
      found = stored ∧ index = 0 ∧ requested.vote = stored.vote ∧
      normalizeHex requested.rand = .ok stored.rand := by
  unfold resolved
  by_cases hvote : stored.vote = requested.vote
  · rw [if_neg (not_not.mpr hvote)]
    rcases hrand : normalizeHex requested.rand with e | rand
    · simp
    · by_cases hsame : stored.rand = rand
      · simp [hsame, hvote, eq_comm]
      · simp [hsame, Ne.symm hsame]
  · rw [if_pos hvote]
    simp [Ne.symm hvote]

/-- The stored evidence of a sound record is in order. -/
theorem resolveUserVoteReplay_eq {identity : SessionIdentityRecord} {voting : SessionVotingRecord}
    (h : Sound noble sha256 identity.electionId entries voting) (hpos : 0 < entries.length)
    {stored : StoredVoteRecord} (hfirst : voting.votes.lookup 0 = some stored)
    (requested : BotVoteCommand) :
    resolveUserVoteReplay noble sha256 identity voting requested = resolved stored requested := by
  obtain ⟨stored', entry, hlookup, -, hentry, -, hcommit, hroot, hopened⟩ := h.firstVote hpos
  obtain rfl : stored' = stored := Option.some.inj (hlookup.symm.trans hfirst)
  have hcommitment := hopened.commit_eq
  rw [hcommit] at hcommitment
  have hnormalCommit := normalizeHex_prefixed entry.2 false
  have hnormalRoot := normalizeHex_prefixed (rootOf sha256 (entries.take 1)) false
  obtain ⟨snapshot, hsnapshot⟩ : ∃ snapshot, voting.bulletinRootHistory[0]? = some snapshot :=
    ⟨_, List.getElem?_eq_getElem (h.snapshots.length_eq ▸ hpos)⟩
  have hfirstRoot := normalizeHex_of_spells (h.snapshots.get 0 snapshot hsnapshot).2 false
  have hrand := normalizeHex_of_normal hopened.normal false
  unfold resolveUserVoteReplay resolved
  rw [h.cast_zero hpos]
  have hhead : (voting.bulletinRootHistory.head?.map (·.root)).getD [] = snapshot.root := by
    rw [List.head?_eq_getElem?, hsnapshot]
    rfl
  simp only [hlookup, hcommit, hroot, hcommitment, hhead, hnormalCommit, hnormalRoot, hfirstRoot,
    hrand, ok_bind, refuseIf, ne_eq, not_true_eq_false, if_false]
  rfl

/-- What becomes of a vote that is cast again. -/
def replayOutcome (authority : SessionVoteAuthority U) (board : SimpleBulletinBoard) :
    JsM UserVoteReplay → JsM (Option SessionVoteMutation) × SessionVoteAuthority U
  | .error e => (.error e, authority)
  | .ok (.replay stored index) => (.ok (some (.userVoteReplayed ⟨index, [], stored.rootAtCast⟩)),
      { authority with voting := { authority.voting with bulletin := board } })
  | .ok _ => (.ok none, authority)

/-- A replay answers from the first vote, and changes the caches of the board only. -/
theorem replayUserVote_of_cast {authority : SessionVoteAuthority U}
    (h : Sound noble sha256 authority.identity.electionId entries authority.voting)
    (hpos : 0 < entries.length) {stored : StoredVoteRecord}
    (hfirst : authority.voting.votes.lookup 0 = some stored) (vote : UserVoteCommand) :
    ∃ board, Lists sha256 entries board ∧
      exec (replayUserVote noble sha256 (.appendUserVote vote)) authority =
      replayOutcome authority board (resolved stored vote.toBotVoteCommand) := by
  obtain ⟨stored', entry, hlookup, -, hentry, hid, -⟩ := h.firstVote hpos
  obtain rfl : stored' = stored := Option.some.inj (hlookup.symm.trans hfirst)
  obtain ⟨root, board, hproof, hlists⟩ := @firstProof noble _ _ _ h.lists entry hentry h.safe
  rw [← hid] at hproof
  refine ⟨board, hlists, ?_⟩
  have hresolve := resolveUserVoteReplay_eq h hpos hlookup vote.toBotVoteCommand
  simp only [replayUserVote, exec_bind, exec_get, exec_lifted, hresolve]
  rcases hresult : resolved stored' vote.toBotVoteCommand with e | _ | _ | ⟨found, index⟩
  · rfl
  · rfl
  · rfl
  · obtain ⟨rfl, rfl, -⟩ := resolved_eq_replay.mp hresult
    simp only [exec_bind, onBulletin, exec_onPart, hproof, List.mapM_nil, replayOutcome]
    rfl

theorem replayUserVote_cases {authority : SessionVoteAuthority U}
    (h : Sound noble sha256 authority.identity.electionId entries authority.voting)
    (command : SessionVoteCommand) :
    (∃ result, exec (replayUserVote noble sha256 command) authority = (result, authority) ∧
      ∀ mutation, result ≠ .ok (some mutation)) ∨
    ∃ vote stored board, command = .appendUserVote vote ∧ authority.voting.votes.lookup 0 = some stored ∧
      resolved stored vote.toBotVoteCommand = .ok (.replay stored 0) ∧ Lists sha256 entries board ∧
      exec (replayUserVote noble sha256 command) authority =
        (.ok (some (.userVoteReplayed ⟨0, [], stored.rootAtCast⟩)),
          { authority with voting := { authority.voting with bulletin := board } }) := by
  cases command with
  | appendBotVotes votes => exact .inl ⟨_, rfl, by simp⟩
  | appendUserVote vote =>
    rcases Nat.eq_zero_or_pos entries.length with hzero | hpos
    · have hresolve :
          resolveUserVoteReplay noble sha256 authority.identity authority.voting vote.toBotVoteCommand =
          .ok .notCast := by
        rw [resolveUserVoteReplay, h.participation_eq, if_pos hzero]
        rfl
      refine .inl ⟨.ok none, ?_, by simp⟩
      simp only [replayUserVote, exec_bind, exec_get, exec_lifted, hresolve, exec_pure]
    · obtain ⟨stored, -, hlookup, -⟩ := h.firstVote hpos
      obtain ⟨board, hlists, hexec⟩ := replayUserVote_of_cast h hpos hlookup vote
      rcases hresult : resolved stored vote.toBotVoteCommand with e | _ | _ | ⟨found, index⟩
      · exact .inl ⟨.error e, by rw [hexec, hresult, replayOutcome], by simp⟩
      · exact .inl ⟨.ok none, by rw [hexec, hresult, replayOutcome]; simp, by simp⟩
      · exact .inl ⟨.ok none, by rw [hexec, hresult, replayOutcome]; simp, by simp⟩
      · obtain ⟨rfl, rfl, -⟩ := resolved_eq_replay.mp hresult
        exact .inr ⟨vote, found, board, rfl, hlookup, hresult,
          hlists, by rw [hexec, hresult, replayOutcome]⟩

/-! ### Evaluations -/

/-- All that an evaluation against a sound record can come to. -/
inductive Evaluated (noble : NobleUtils) (sha256 : List UInt8 → Bytes 32) (entries : List Entry)
    (authority : SessionVoteAuthority U) (command : SessionVoteCommand) :
    JsM SessionVoteMutationResult × SessionVoteAuthority U → Prop where
  | refused (result : JsM SessionVoteMutationResult)
      (hresult : ∀ mutation, result ≠ .ok (.ok mutation)) :
      Evaluated noble sha256 entries authority command (result, authority)
  | replayed (vote : UserVoteCommand) (stored : StoredVoteRecord) (board : SimpleBulletinBoard)
      (hcommand : command = .appendUserVote vote)
      (hfirst : authority.voting.votes.lookup 0 = some stored)
      (hresolved : resolved stored vote.toBotVoteCommand = .ok (.replay stored 0))
      (hlists : Lists sha256 entries board) :
      Evaluated noble sha256 entries authority command
        (.ok (.ok (.userVoteReplayed ⟨0, [], stored.rootAtCast⟩)),
          { authority with voting := { authority.voting with bulletin := board } })
  | userAppended (vote : UserVoteCommand) (nextVoting : SessionVotingRecord)
      (intents : List VoteIndexIntent) (stored : StoredVoteRecord) (entry : Entry)
      (hcommand : command = .appendUserVote vote) (hempty : entries = [])
      (hsound : Sound noble sha256 authority.identity.electionId [entry] nextVoting)
      (hvotes : nextVoting.votes = [(0, stored)]) (hid : stored.voteId = vote.voteId)
      (hchoice : stored.vote = vote.vote) (hrand : normalizeHex vote.rand orEmpty = .ok stored.rand) :
      Evaluated noble sha256 entries authority command
        (.ok (.ok (.userVoteAppended nextVoting intents ⟨0, [], stored.rootAtCast⟩)), authority)
  | botsAppended (votes : List BotVoteCommand) (nextVoting : SessionVotingRecord)
      (intents : List VoteIndexIntent) (added : List Entry) (stored : Votes)
      (hcommand : command = .appendBotVotes votes)
      (hsound : Sound noble sha256 authority.identity.electionId (entries ++ added) nextVoting)
      (hvotes : nextVoting.votes = authority.voting.votes ++ stored) :
      Evaluated noble sha256 entries authority command
        (.ok (.ok (.botVotesAppended nextVoting intents)), authority)

theorem admitNewUserVote_cases {authority : SessionVoteAuthority U}
    (h : Sound noble sha256 authority.identity.electionId entries authority.voting)
    (vote : UserVoteCommand) (dependencies : SessionMutationDependencies) :
    Evaluated noble sha256 entries authority (.appendUserVote vote)
      (admitNewUserVote noble sha256 authority vote dependencies, authority) := by
  unfold admitNewUserVote
  dsimp only
  by_cases hknown : authority.voting.votes.any (fun entry => entry.2.voteId = vote.voteId) = true
  · rw [if_pos hknown]
    exact .refused (.ok (.error (.duplicateVote "voteId"))) (by simp)
  rw [if_neg hknown]
  by_cases hvoted : authority.voting.userParticipation ≠ .notCast ∨ authority.voting.votes.length > 0
  · rw [if_pos hvoted]
    exact .refused (.ok (.error .alreadyVoted)) (by simp)
  rw [if_neg hvoted]
  rcases hresult : evaluateUserVoteMutation noble sha256 authority vote dependencies with e | mutation
  · exact .refused _ (by simp)
  · obtain rfl : entries = [] := by
      rw [h.holds.length_eq] at hvoted
      exact List.length_eq_zero_iff.mp (by omega)
    obtain ⟨nextVoting, intents, stored, entry, rfl, hsound, hvotes, hid, hchoice, hrand⟩ :=
      evaluateUserVoteMutation_eq_ok h hresult
    exact .userAppended vote nextVoting intents stored entry rfl rfl hsound hvotes hid hchoice hrand

theorem evaluateSessionVoteMutation_cases {authority : SessionVoteAuthority U}
    (h : Sound noble sha256 authority.identity.electionId entries authority.voting)
    (command : SessionVoteCommand) (dependencies : SessionMutationDependencies) :
    Evaluated noble sha256 entries authority command
      (exec (evaluateSessionVoteMutation noble sha256 command dependencies) authority) := by
  unfold evaluateSessionVoteMutation
  rw [exec_bind]
  rcases replayUserVote_cases h command with ⟨result, hexec, hnone⟩ | ⟨vote, stored, board, hcommand,
    hfirst, hresolved, hlists, hexec⟩
  · rw [hexec]
    rcases result with e | _ | mutation
    · exact .refused _ (by simp)
    · dsimp only
      rw [exec_get_bind]
      by_cases hclosed : authority.finalization.isSome = true
      · rw [if_pos hclosed]
        exact .refused _ (by simp)
      rw [if_neg hclosed]
      cases command with
      | appendUserVote vote => exact admitNewUserVote_cases h vote dependencies
      | appendBotVotes votes =>
        dsimp only
        by_cases hcast : authority.voting.userParticipation = .notCast
        · rw [if_pos hcast]
          exact .refused _ (by simp)
        rw [if_neg hcast]
        by_cases hfull : authority.voting.botCount + votes.length > Domain.botCount
        · rw [if_pos hfull]
          exact .refused _ (by simp)
        rw [if_neg hfull, exec_bind, exec_lifted]
        rcases hresult :
          evaluateBotVoteMutation noble sha256 authority votes dependencies with e | mutation
        · exact .refused _ (by simp)
        · obtain ⟨nextVoting, intents, added, stored, rfl, hsound, hvotes⟩ :=
            evaluateBotVoteMutation_eq_ok h (h.cast_iff.mp hcast) (by omega) hresult
          exact .botsAppended votes nextVoting intents added stored rfl hsound hvotes
    · exact absurd rfl (hnone mutation)
  · rw [hexec]
    exact .replayed vote stored board hcommand hfirst hresolved hlists

/-! ### A first vote -/

/-- A session takes a vote with a valid id and opening first. -/
theorem evaluate_firstVote (input : SessionCreationInput) {vote : UserVoteCommand}
    {prepared : PreparedVote} (dependencies : SessionMutationDependencies)
    (hid : isValidVoteId vote.voteId = true)
    (hprepared : prepareVote noble sha256 (buildSessionRecords input).1 vote.toBotVoteCommand
      vote.voteId vote.timestamp = .ok prepared) :
    ∃ nextVoting intents stored, evaluate noble sha256 (buildSessionRecords input).1
        (buildSessionRecords input).2 (⟨.appendUserVote vote, dependencies, none⟩ : Attempt U) =
        (.ok (.ok (.userVoteAppended nextVoting intents ⟨0, [], stored.rootAtCast⟩)),
          ⟨(buildSessionRecords input).1, (buildSessionRecords input).2, none⟩) ∧
      nextVoting.votes = [(0, stored)] ∧ stored.voteId = vote.voteId ∧ stored.vote = vote.vote ∧
      normalizeHex vote.rand orEmpty = .ok stored.rand := by
  have hsound := @sound_start noble sha256 input.electionId input
  obtain ⟨hpreparedId, -, -, hopened⟩ := prepareVote_eq_ok hprepared
  obtain ⟨c, hcommit⟩ := computeCommitment_prefixed hopened.commit_eq
  obtain ⟨staged, hstaged⟩ :=
    @stageCtVoteWrites_one noble sha256 [] _ hsound.holds hsound.lists.distinct input.logId []
    prepared dependencies.staging c hcommit ⟨hpreparedId ▸ hid, by simp, by simp [commitsOf]⟩
      (Nat.zero_le _)
  obtain ⟨nextVoting, intents, stored, entry, heval, -, hrest⟩ :=
    @evaluateUserVoteMutation_of_staged noble sha256 U
    ⟨(buildSessionRecords input).1, (buildSessionRecords input).2, none⟩ vote dependencies prepared
      staged hsound hprepared hstaged
  have hresolve :
      resolveUserVoteReplay noble sha256 (buildSessionRecords input).1 (buildSessionRecords input).2
      vote.toBotVoteCommand = .ok .notCast := rfl
  have hadmit : admitNewUserVote noble sha256
      (⟨(buildSessionRecords input).1, (buildSessionRecords input).2, none⟩ : SessionVoteAuthority U)
      vote dependencies =
      .ok (.ok (.userVoteAppended nextVoting intents ⟨0, [], stored.rootAtCast⟩)) := by
    unfold admitNewUserVote
    rw [heval]
    rfl
  refine ⟨nextVoting, intents, stored, ?_, hrest⟩
  simp only [evaluate, evaluateSessionVoteMutation, replayUserVote, exec_bind, exec_get, exec_lifted,
    hresolve, exec_pure, Option.isSome_none, Bool.false_eq_true, if_false, hadmit]

/-- A session, and a vote that it takes. -/
def sampleInput : SessionCreationInput where
  sessionId := js "session"
  electionId := js "550e8400-e29b-41d4-a716-446655440000"
  electionConfigHash := js "0x"
  electionConfig := ⟨.ofNat 64, [js "A", js "B", js "C", js "D", js "E"], js "1.0", .ofNat 63, .ofNat 6⟩
  logId := js "0x"
  createdAtMs := .ofNat 1
  lastActivityMs := .ofNat 1

def sampleVote (rand : JsString) : UserVoteCommand where
  voteId := js "f47ac10b-58cc-4372-a567-0e02b2c3d479"
  timestamp := .ofNat 1
  vote := .a
  rand := rand

def sampleDependencies : SessionMutationDependencies where
  generateVoteId := fun _ => []
  nowMs := fun _ => .ofNat 1
  rebuilt := fun _ => .ofNat 1
  fallback := .ofNat 1
  staging := ⟨fun _ => .ofNat 1, .ofNat 1, fun _ => .ofNat 1⟩

def sampleAttempt (rand : JsString) : Attempt Unit :=
  ⟨.appendUserVote (sampleVote rand), sampleDependencies, none⟩

theorem prepare_sampleVote (sha256 : List UInt8 → Bytes 32) :
    ∃ prepared, prepareVote .reference sha256 (buildSessionRecords sampleInput).1
      (sampleVote []).toBotVoteCommand (sampleVote []).voteId (sampleVote []).timestamp = .ok prepared :=
  prepareVote_returns (show normalizeHex [] orEmpty = .ok (zeroHex 64 true) by decide) (by decide)
    (by decide) _ _

/-! ### Runs -/

section Runs

variable {identity : SessionIdentityRecord} {voting : SessionVotingRecord}

theorem evaluate_cases (h : Sound noble sha256 identity.electionId entries voting)
    (attempt : Attempt U) :
    Evaluated noble sha256 entries ⟨identity, voting, attempt.finalization⟩ attempt.command
      (evaluate noble sha256 identity voting attempt) :=
  @evaluateSessionVoteMutation_cases noble sha256 U entries ⟨identity, voting, attempt.finalization⟩ h
    attempt.command attempt.dependencies

/-- STEP: the record stays sound, and its votes stay where they are. -/
theorem submit_sound (h : Sound noble sha256 identity.electionId entries voting) (attempt : Attempt U) :
    ∃ added stored, Sound noble sha256 identity.electionId (entries ++ added)
        (submit noble sha256 identity voting attempt) ∧
      (submit noble sha256 identity voting attempt).votes = voting.votes ++ stored := by
  have hcases := evaluate_cases h attempt
  unfold submit
  generalize evaluate noble sha256 identity voting attempt = outcome at hcases ⊢
  cases hcases with
  | refused result hresult =>
    rcases result with e | e | mutation
    · exact ⟨[], [], by simpa using h, by simp⟩
    · exact ⟨[], [], by simpa using h, by simp⟩
    · exact absurd rfl (hresult mutation)
  | replayed vote stored board hcommand hfirst hresolved hlists =>
    exact ⟨[], [], by simpa [nextVotingOf] using h.with_board hlists, by simp [nextVotingOf]⟩
  | userAppended vote nextVoting intents stored entry hcommand hempty hsound hvotes =>
    subst hempty
    have hnone : voting.votes = [] := List.length_eq_zero_iff.mp h.holds.length_eq
    exact ⟨[entry], [(0, stored)], hsound, by simp [nextVotingOf, hvotes, hnone]⟩
  | botsAppended votes nextVoting intents added stored hcommand hsound hvotes =>
    exact ⟨added, stored, hsound, hvotes⟩

/-- RUN: from a sound record every run leads to a sound one that begins with its votes. -/
theorem run_sound (h : Sound noble sha256 identity.electionId entries voting)
    (attempts : List (Attempt U)) :
    ∃ added stored, Sound noble sha256 identity.electionId (entries ++ added)
        (attempts.foldl (submit noble sha256 identity) voting) ∧
      (attempts.foldl (submit noble sha256 identity) voting).votes = voting.votes ++ stored := by
  induction attempts using List.reverseRecOn with
  | nil => exact ⟨[], [], by simpa using h, by simp⟩
  | append_singleton attempts attempt ih =>
    obtain ⟨added, stored, hsound, hvotes⟩ := ih
    obtain ⟨added', stored', hnext, hvotes'⟩ := submit_sound hsound attempt
    refine ⟨added ++ added', stored ++ stored', ?_, ?_⟩
    · rw [List.foldl_append, ← List.append_assoc]
      exact hnext
    · rw [List.foldl_append, ← List.append_assoc, ← hvotes]
      exact hvotes'

theorem votingAfter_sound (input : SessionCreationInput) (attempts : List (Attempt U)) :
    ∃ entries,
    Sound noble sha256 input.electionId entries (votingAfter noble sha256 input attempts) := by
  obtain ⟨added, -, hsound, -⟩ :=
    @run_sound noble sha256 U [] input.toSessionIdentityRecord _ (sound_start input) attempts
  exact ⟨_, hsound⟩

/-- A record whose parts agree, in the record's own terms. -/
structure Consistent (noble : NobleUtils) (sha256 : List UInt8 → Bytes 32) (electionId : JsString)
    (commits : List (Bytes 32)) (voting : SessionVotingRecord) : Prop where
  indices : voting.votes.map Prod.fst = List.range voting.votes.length
  user_first :
    voting.votes ≠ [] → voting.userParticipation = .cast 0 ∧ (voting.votes.lookup 0).isSome = true
  botCount_eq : voting.botCount = voting.votes.length - 1
  botCount_le : voting.botCount ≤ Domain.botCount
  ids_nodup : (voting.votes.map (·.2.voteId)).Nodup
  commits_nodup : (voting.votes.map (·.2.commit)).Nodup
  commits_eq : voting.votes.map (·.2.commit) = commits.map prefixed
  bulletin_eq : voting.bulletin.commitments.map (js "0x" ++ ·) = voting.votes.map (·.2.commit)
  history_length : voting.bulletinRootHistory.length = voting.votes.length
  history : ∀ k vote, voting.votes[k]? = some (k, vote) →
    ∃ snapshot, voting.bulletinRootHistory[k]? = some snapshot ∧
    snapshot.treeSize = k + 1 ∧ normalizeHex snapshot.root = .ok vote.rootAtCast ∧
    vote.rootAtCast = prefixed (computeMerkleRoot sha256 ((commits.take (k + 1)).map (hashLeaf sha256)))
  opened : ∀ entry ∈ voting.votes, ZkvmContract.computeCommitment noble sha256 electionId
    (.ofNat entry.2.vote.toNumber) entry.2.rand = .ok entry.2.commit

theorem Sound.consistent (h : Sound noble sha256 electionId entries voting) :
    Consistent noble sha256 electionId (commitsOf entries) voting where
  indices := by rw [h.holds.keys_eq, h.holds.length_eq]
  user_first := by
    intro hne
    have hpos : 0 < entries.length := h.holds.length_eq ▸ List.length_pos_iff.mpr hne
    obtain ⟨stored, -, hlookup, -⟩ := h.firstVote hpos
    exact ⟨h.cast_zero hpos, by rw [hlookup, Option.isSome_some]⟩
  botCount_eq := by rw [h.botCount_eq, h.holds.length_eq]
  botCount_le := h.botCount_le
  ids_nodup := by
    rw [h.holds.ids_eq]
    exact h.lists.ids_nodup
  commits_nodup := by
    rw [h.holds.commits_eq]
    exact h.lists.commits_nodup.map prefixed_injective
  commits_eq := h.holds.commits_eq
  bulletin_eq := by
    rw [h.lists.commitments_eq, h.holds.commits_eq, List.map_map]
    rfl
  history_length := by rw [h.snapshots.length_eq, h.holds.length_eq]
  history := by
    intro k vote hvote
    obtain ⟨entry, hentry, -, -, -, hroot⟩ := h.holds.get hvote
    obtain ⟨hk, -⟩ := List.getElem?_eq_some_iff.mp hentry
    obtain ⟨snapshot, hsnapshot⟩ : ∃ snapshot, voting.bulletinRootHistory[k]? = some snapshot :=
      ⟨_, List.getElem?_eq_getElem (h.snapshots.length_eq ▸ hk)⟩
    obtain ⟨hsize, hspells⟩ := h.snapshots.get k snapshot hsnapshot
    refine ⟨snapshot, hsnapshot, hsize, ?_, ?_⟩
    · rw [hroot]
      exact normalizeHex_of_spells hspells false
    · rw [hroot, rootOf, commitsOf, commitsOf, List.map_take]
  opened := fun entry hentry => (h.opened entry hentry).commit_eq

/-- What an attempt that appends votes does: they come after those that are there, the user's first of
    all, and the records that it was evaluated against stay as they were. -/
structure Appends (identity : SessionIdentityRecord) (voting : SessionVotingRecord) (attempt : Attempt U)
    (nextVoting : SessionVotingRecord) (authority : SessionVoteAuthority U) : Prop where
  votes_extend : voting.votes <+: nextVoting.votes
  commitments_extend : voting.bulletin.commitments <+: nextVoting.bulletin.commitments
  unmodified : authority = ⟨identity, voting, attempt.finalization⟩
  user_first : ∀ vote, attempt.command = .appendUserVote vote →
    ∃ stored, nextVoting.votes = [(0, stored)] ∧ stored.voteId = vote.voteId ∧ stored.vote = vote.vote

theorem Sound.commitments_extend {added : List Entry} {nextVoting : SessionVotingRecord}
    (h : Sound noble sha256 electionId entries voting)
    (hnext : Sound noble sha256 electionId (entries ++ added) nextVoting) :
    voting.bulletin.commitments <+: nextVoting.bulletin.commitments := by
  rw [h.lists.commitments_eq, hnext.lists.commitments_eq, commitsOf, commitsOf, List.map_append,
    List.map_append]
  exact List.prefix_append _ _

theorem evaluate_appends (h : Sound noble sha256 identity.electionId entries voting)
    {attempt : Attempt U} {mutation : SessionVoteMutation} {nextVoting : SessionVotingRecord}
    {authority : SessionVoteAuthority U}
    (heval : evaluate noble sha256 identity voting attempt = (.ok (.ok mutation), authority))
    (hnext : nextVotingOf mutation = some nextVoting) :
    Appends identity voting attempt nextVoting authority := by
  have hcases := evaluate_cases h attempt
  rw [heval] at hcases
  cases hcases with
  | refused _ hresult => exact absurd rfl (hresult mutation)
  | replayed vote stored board => cases hnext
  | userAppended vote next intents stored entry hcommand hempty hsound hvotes hid hchoice =>
    obtain rfl := Option.some.inj hnext
    subst hempty
    refine ⟨?_, h.commitments_extend hsound, rfl, ?_⟩
    · rw [List.length_eq_zero_iff.mp h.holds.length_eq]
      exact List.nil_prefix
    · rw [hcommand]
      rintro _ ⟨⟩
      exact ⟨stored, hvotes, hid, hchoice⟩
  | botsAppended votes next intents added stored hcommand hsound hvotes =>
    obtain rfl := Option.some.inj hnext
    refine ⟨⟨stored, hvotes.symm⟩, h.commitments_extend hsound, rfl, ?_⟩
    rw [hcommand]
    rintro _ ⟨⟩

/-- INVARIANT: the record is consistent after every run, and every append extends it. -/
theorem session_voting_invariant (input : SessionCreationInput) (attempts : List (Attempt U)) :
    (∃ commits, Consistent noble sha256 input.electionId commits
      (votingAfter noble sha256 input attempts)) ∧
    ∀ (attempt : Attempt U) mutation nextVoting authority,
      evaluate noble sha256 (buildSessionRecords input).1
        (votingAfter noble sha256 input attempts) attempt =
        (.ok (.ok mutation), authority) → nextVotingOf mutation = some nextVoting →
      Appends (buildSessionRecords input).1 (votingAfter noble sha256 input attempts) attempt nextVoting
        authority := by
  obtain ⟨entries, hsound⟩ := @votingAfter_sound noble sha256 U input attempts
  refine ⟨⟨commitsOf entries, hsound.consistent⟩, ?_⟩
  intro attempt mutation nextVoting authority heval hnext
  exact @evaluate_appends _ _ _ _ (buildSessionRecords input).1 _ hsound _ _ _ _ heval hnext

theorem session_voting_invariant_on_sample :
    ∃ (nextVoting : SessionVotingRecord) (stored : StoredVoteRecord), nextVoting.votes = [(0, stored)] ∧
    Appends (buildSessionRecords sampleInput).1 (buildSessionRecords sampleInput).2
      (sampleAttempt []) nextVoting
      ⟨(buildSessionRecords sampleInput).1, (buildSessionRecords sampleInput).2, none⟩ := by
  obtain ⟨prepared, hprepared⟩ := prepare_sampleVote Sha256.digest
  obtain ⟨nextVoting, intents, stored, heval, hvotes, -⟩ :=
    @evaluate_firstVote .reference Sha256.digest Unit sampleInput _ _ sampleDependencies
      (by decide) hprepared
  exact ⟨nextVoting, stored, hvotes,
    (@session_voting_invariant .reference Sha256.digest Unit sampleInput []).2 _ _ nextVoting
      _ heval rfl⟩

end Runs

end StarkBallot.Application
