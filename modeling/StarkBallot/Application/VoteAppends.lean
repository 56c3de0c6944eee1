import StarkBallot.Application.SessionVoting

/-! Evaluations that append votes (`application/src/session/session-mutation-policy.ts`). Votes are
    appended to a session that is not finalized: the user's to an empty record, a batch of bot votes to
    one that has the user's and room for them. The next record is of the same session and log.

    An evaluation reads a stored history only where it parses it, and a board only for its log. So two
    records that are alike in this sense get the same votes by the same evaluation. -/

namespace StarkBallot.Application
open Schemes ContractCore CryptoPrimitives Merkle Domain

variable {noble : NobleUtils} {sha256 : List UInt8 → Bytes 32} {U : Type} {entries : List Entry}
  {identity : SessionIdentityRecord} {voting : SessionVotingRecord} {command : SessionVoteCommand}
  {dependencies : SessionMutationDependencies} {mutation : SessionVoteMutation}

/-! ### What admits votes -/

/-- The command's votes are admitted and evaluated to the mutation. -/
inductive Admits (noble : NobleUtils) (sha256 : List UInt8 → Bytes 32) (U : Type)
    (identity : SessionIdentityRecord) (voting : SessionVotingRecord)
    (dependencies : SessionMutationDependencies) (mutation : SessionVoteMutation) :
    SessionVoteCommand → Prop
  | user (vote : UserVoteCommand) (hnotCast : voting.userParticipation = .notCast)
      (hempty : voting.votes = [])
        (hok : evaluateUserVoteMutation noble sha256 (⟨identity, voting, none⟩ : SessionVoteAuthority U)
          vote dependencies = .ok mutation) :
          Admits noble sha256 U identity voting dependencies mutation (.appendUserVote vote)
  | bots (votes : List BotVoteCommand) (hcast : voting.userParticipation ≠ .notCast)
      (hroom : voting.botCount + votes.length ≤ Domain.botCount)
      (hok : evaluateBotVoteMutation noble sha256 (⟨identity, voting, none⟩ : SessionVoteAuthority U)
        votes dependencies =
        .ok mutation) :
        Admits noble sha256 U identity voting dependencies mutation (.appendBotVotes votes)

/-- Admitted votes are appended. -/
theorem Admits.evaluate_eq (h : Admits noble sha256 U identity voting dependencies mutation command) :
    evaluate noble sha256 identity voting ⟨command, dependencies, none⟩ =
      (.ok (.ok mutation), (⟨identity, voting, none⟩ : SessionVoteAuthority U)) := by
  cases h with
  | user vote hnotCast hempty hok =>
    have hresolve :
        resolveUserVoteReplay noble sha256 identity voting vote.toBotVoteCommand = .ok .notCast := by
      rw [resolveUserVoteReplay, hnotCast]
      rfl
    have hadmit :
        admitNewUserVote noble sha256 (⟨identity, voting, none⟩ : SessionVoteAuthority U) vote
          dependencies =
        .ok (.ok mutation) := by
      unfold admitNewUserVote
      simp only [hempty, hnotCast, List.any_nil, Bool.false_eq_true, if_false, ne_eq, not_true_eq_false,
        List.length_nil, gt_iff_lt, Nat.lt_irrefl, or_self, hok]
      rfl
    simp only [evaluate, evaluateSessionVoteMutation, replayUserVote, exec_bind, exec_get, exec_lifted,
      hresolve, exec_pure, Option.isSome_none, Bool.false_eq_true, if_false, hadmit]
  | bots votes hcast hroom hok =>
    simp only [evaluate, evaluateSessionVoteMutation, replayUserVote, exec_bind, exec_get,
      exec_lifted, exec_pure, Option.isSome_none, Bool.false_eq_true, if_false, if_neg hcast,
      if_neg (Nat.not_lt.mpr hroom), gt_iff_lt, hok]

/-- Votes are appended only where they are admitted. -/
theorem admits_of_evaluate (h : Sound noble sha256 identity.electionId entries voting)
    {attempt : Attempt U} {authority : SessionVoteAuthority U}
    (heval : evaluate noble sha256 identity voting attempt = (.ok (.ok mutation), authority))
    (hnext : (nextVotingOf mutation).isSome = true) :
    attempt.finalization = none ∧
    Admits noble sha256 U identity voting attempt.dependencies mutation attempt.command := by
  obtain ⟨found, authority', hreplay, heval⟩ := exec_bind_eq_ok heval
  rcases @replayUserVote_cases noble sha256 U entries ⟨identity, voting, attempt.finalization⟩ h
    attempt.command with
    ⟨result, hexec, hnone⟩ | ⟨vote, stored, board, -, -, -, -, hexec⟩
  · obtain ⟨hfound, rfl⟩ := Prod.mk.inj (hreplay.symm.trans hexec)
    cases found with
    | some mutation => exact absurd hfound.symm (hnone mutation)
    | none =>
      rw [exec_get_bind] at heval
      split at heval
      · cases heval
      rename_i hopen
      have hopen : attempt.finalization = none := by simpa using hopen
      refine ⟨hopen, ?_⟩
      rw [hopen] at heval
      rcases hcommand : attempt.command with vote | votes
      · rw [hcommand] at heval
        obtain ⟨hadmission, -⟩ := Prod.mk.inj heval
        unfold admitNewUserVote at hadmission
        dsimp only at hadmission
        split at hadmission
        · cases hadmission
        split at hadmission
        · cases hadmission
        · rename_i hfresh
          rw [not_or, not_not, gt_iff_lt, Nat.not_lt, Nat.le_zero, List.length_eq_zero_iff] at hfresh
          obtain ⟨mutation', hok, hadmission⟩ := bind_eq_ok.mp hadmission
          obtain rfl := Except.ok.inj (Except.ok.inj hadmission)
          exact .user vote hfresh.1 hfresh.2 hok
      · rw [hcommand] at heval
        dsimp only at heval
        split at heval
        · cases heval
        rename_i hcast
        split at heval
        · cases heval
        · rename_i hroom
          obtain ⟨mutation', _, hok, heval⟩ := exec_bind_eq_ok heval
          obtain ⟨hmutation, -⟩ := Prod.mk.inj heval
          obtain rfl := Except.ok.inj (Except.ok.inj hmutation)
          obtain ⟨hok, -⟩ := Prod.mk.inj hok
          exact .bots votes hcast (Nat.not_lt.mp hroom) hok
  · obtain ⟨hfound, -⟩ := Prod.mk.inj (hreplay.symm.trans hexec)
    obtain rfl := Except.ok.inj hfound
    obtain ⟨hmutation, -⟩ := Prod.mk.inj heval
    obtain rfl := Except.ok.inj (Except.ok.inj hmutation)
    cases hnext

/-! ### The session and its log -/

/-- Methods of a board leave its log alone. -/
theorem getInclusionProof_frames (voteId : JsString) (treeSize : Option ℤ) :
    Frames (·.logId) (getInclusionProof noble sha256 voteId treeSize) := by
  have htree : ∀ {α : Type} (call : Merkle.TreeM α), Frames (·.logId) (onTree call) := fun _ _ => rfl
  refine frames_bind frames_get fun board => ?_
  split
  · exact frames_pure
  · refine frames_bind frames_get fun board' => frames_bind ?_ fun _ => frames_pure
    unfold proofOf
    refine frames_ite (fun _ => frames_throw) fun _ => frames_bind frames_get fun _ => ?_
    refine frames_ite (fun _ => frames_bind frames_get fun _ => frames_throw) fun _ => ?_
    refine frames_ite (fun _ => frames_throw) fun _ => frames_bind (htree _) fun _ => ?_
    refine frames_bind frames_lifted fun _ => frames_bind (htree _) fun _ => frames_pure

/-- Of the same session, on a board of the same log. -/
structure SameSession (voting next : SessionVotingRecord) : Prop where
  sessionId_eq : next.sessionId = voting.sessionId
  logId_eq : next.bulletin.logId = voting.bulletin.logId

theorem evaluateUserVoteMutation_session {authority : SessionVoteAuthority U} {vote : UserVoteCommand}
    {next : SessionVotingRecord}
    (h : Sound noble sha256 authority.identity.electionId [] authority.voting)
    (hok : evaluateUserVoteMutation noble sha256 authority vote dependencies = .ok mutation)
    (hnext : nextVotingOf mutation = some next) : SameSession authority.voting next := by
  unfold evaluateUserVoteMutation at hok
  obtain ⟨prepared, hprepared, hok⟩ := bind_eq_ok.mp hok
  obtain ⟨staged, hstaged, hok⟩ := bind_eq_ok.mp hok
  obtain ⟨c, hcommit⟩ := computeCommitment_prefixed (prepareVote_eq_ok hprepared).2.2.2.commit_eq
  have hlog := (stageCtVoteWrites_eq_ok h.holds h.lists.distinct (by simp) (by simp [hcommit])
    (by simp [Num.maxSafeInteger]) hstaged).logId_eq
  split at hok
  · cases hok
  split at hok
  · rename_i proof board hproof
    dsimp only at hok
    split at hok
    · cases hok
    · obtain ⟨merklePath, -, hok⟩ := bind_eq_ok.mp hok
      rw [← Except.ok.inj hok] at hnext
      rw [← Option.some.inj hnext]
      have hframe := @getInclusionProof_frames noble sha256 prepared.voteId
        (some (authority.voting.votes.length + 1)) staged.bulletin
      rw [hproof] at hframe
      exact ⟨rfl, hframe.trans hlog⟩
  · cases hok

theorem evaluateBotVoteMutation_session {authority : SessionVoteAuthority U}
    {votes : List BotVoteCommand} {next : SessionVotingRecord}
    (h : Sound noble sha256 authority.identity.electionId entries authority.voting)
    (hpos : 0 < entries.length) (hroom : authority.voting.botCount + votes.length ≤ Domain.botCount)
    (hok : evaluateBotVoteMutation noble sha256 authority votes dependencies = .ok mutation)
    (hnext : nextVotingOf mutation = some next) : SameSession authority.voting next := by
  unfold evaluateBotVoteMutation at hok
  obtain ⟨board, history, hprojection, -, hboardLog, -⟩ :=
    @projection_ok noble _ _ _ h.holds h.lists.distinct h.safe hpos
    (h.cast_zero hpos) authority.voting.bulletin.logId dependencies.rebuilt dependencies.fallback
  obtain ⟨_, -, hok⟩ := bind_eq_ok.mp hok
  rw [hprojection, ok_bind, if_neg (by simp [h.botCount_eq])] at hok
  obtain ⟨_, -, hok⟩ := bind_eq_ok.mp hok
  obtain ⟨writes, hwrites, hok⟩ := bind_eq_ok.mp hok
  obtain ⟨staged, hstaged, hok⟩ := bind_eq_ok.mp hok
  obtain ⟨hcount, hordered, hopened⟩ := prepareBotVotes_eq_ok hwrites
  have hlog := (stageCtVoteWrites_eq_ok h.holds h.lists.distinct hordered
    (fun write hwrite => computeCommitment_prefixed (hopened write hwrite).commit_eq)
    (by have := h.length_le; rw [hcount]; simp only [Domain.botCount, Num.maxSafeInteger] at *; omega)
    hstaged).logId_eq
  rw [← Except.ok.inj hok] at hnext
  rw [← Option.some.inj hnext]
  exact ⟨rfl, hlog.trans hboardLog⟩

theorem Admits.session {next : SessionVotingRecord}
    (h : Admits noble sha256 U identity voting dependencies mutation command)
    (hsound : Sound noble sha256 identity.electionId entries voting)
    (hnext : nextVotingOf mutation = some next) :
    SameSession voting next := by
  cases h with
  | user vote hnotCast hempty hok =>
    obtain rfl : entries = [] :=
      List.length_eq_zero_iff.mp (by rw [← hsound.holds.length_eq, hempty, List.length_nil])
    exact @evaluateUserVoteMutation_session noble sha256 U _ _ ⟨identity, voting, none⟩
      _ _ hsound hok hnext
  | bots votes hcast hroom hok =>
    exact @evaluateBotVoteMutation_session noble sha256 U entries _ _ ⟨identity, voting, none⟩ _ _ hsound
      (hsound.cast_iff.mp hcast) hroom hok hnext

/-- An evaluation changes at most the caches of the board. -/
theorem evaluateSessionVoteMutation_frames (command : SessionVoteCommand)
    (dependencies : SessionMutationDependencies) :
    Frames (fun authority : SessionVoteAuthority U =>
      (authority.voting.sessionId, authority.voting.bulletin.logId))
      (evaluateSessionVoteMutation noble sha256 command dependencies) := by
  have hproof (voteId : JsString) (size : Option ℤ) : Frames
      (fun authority : SessionVoteAuthority U =>
        (authority.voting.sessionId, authority.voting.bulletin.logId))
      (onBulletin (getInclusionProof noble sha256 voteId size)) := by
    intro authority
    have hframe := @getInclusionProof_frames noble sha256 voteId size authority.voting.bulletin
    simp only [onBulletin, exec_onPart, hframe]
  have hreplay : Frames
      (fun authority : SessionVoteAuthority U =>
        (authority.voting.sessionId, authority.voting.bulletin.logId))
      (replayUserVote noble sha256 command) := by
    refine frames_bind frames_get fun authority => ?_
    cases command with
    | appendBotVotes votes => exact frames_pure
    | appendUserVote vote =>
      refine frames_bind frames_lifted ?_
      rintro (_ | _ | ⟨stored, index⟩)
      · exact frames_pure
      · exact frames_pure
      · refine frames_bind (hproof _ _) ?_
        rintro (_ | proof)
        · exact frames_throw
        · exact frames_bind frames_lifted fun _ => frames_pure
  refine frames_bind hreplay ?_
  rintro (_ | mutation)
  · refine frames_bind frames_get fun authority => frames_ite (fun _ => frames_pure) fun _ => ?_
    cases command with
    | appendUserVote vote => exact frames_lifted
    | appendBotVotes votes =>
      refine frames_ite (fun _ => frames_pure) fun _ => frames_ite (fun _ => frames_pure) fun _ => ?_
      exact frames_bind frames_lifted fun _ => frames_pure
  · exact frames_pure

/-- STEP: whatever comes of an attempt, the session and the log stay. -/
theorem submit_session (h : Sound noble sha256 identity.electionId entries voting)
    (attempt : Attempt U) :
    SameSession voting (submit noble sha256 identity voting attempt) := by
  have hframe := @evaluateSessionVoteMutation_frames noble sha256 U attempt.command attempt.dependencies
    ⟨identity, voting, attempt.finalization⟩
  unfold submit
  rcases heval : evaluate noble sha256 identity voting attempt with ⟨result, authority⟩
  rw [evaluate] at heval
  rw [heval] at hframe
  obtain ⟨hsession, hlog⟩ := Prod.mk.inj hframe
  rcases result with e | e | mutation
  · exact ⟨hsession, hlog⟩
  · exact ⟨hsession, hlog⟩
  · dsimp only
    cases hnext : nextVotingOf mutation with
    | none => exact ⟨hsession, hlog⟩
    | some next =>
        exact (admits_of_evaluate h heval (by rw [hnext, Option.isSome_some])).2.session h hnext

/-- RUN: the session of the input, and its log. -/
theorem votingAfter_session (input : SessionCreationInput) (attempts : List (Attempt U)) :
    (votingAfter noble sha256 input attempts).sessionId = input.sessionId ∧
      (votingAfter noble sha256 input attempts).bulletin.logId = input.logId := by
  induction attempts using List.reverseRecOn with
  | nil => exact ⟨rfl, rfl⟩
  | append_singleton attempts attempt ih =>
    obtain ⟨entries, hsound⟩ := @votingAfter_sound noble sha256 U input attempts
    have hstep := @submit_session noble sha256 U entries (buildSessionRecords input).1 _ hsound attempt
    rw [votingAfter, List.foldl_append]
    exact ⟨hstep.sessionId_eq.trans ih.1, hstep.logId_eq.trans ih.2⟩

/-! ### Records alike -/

/-- Records that no evaluation tells apart. -/
structure Alike (voting restored : SessionVotingRecord) : Prop extends SameSession voting restored where
  votes_eq : restored.votes = voting.votes
  history_eq : parsePersistedRootHistory restored.bulletinRootHistory =
    parsePersistedRootHistory voting.bulletinRootHistory
  botCount_eq : restored.botCount = voting.botCount
  userParticipation_eq : restored.userParticipation = voting.userParticipation

section Alike

variable {restored : SessionVotingRecord} {history history' : List RootSnapshot}

/-- A stored history is read only where it is parsed. -/
theorem getCanonicalBulletinRootHistory_congr
    (h : parsePersistedRootHistory history' = parsePersistedRootHistory history)
    (votes : Votes) (fallbackTimestamp : Num) :
    getCanonicalBulletinRootHistory noble sha256 votes history' fallbackTimestamp =
      getCanonicalBulletinRootHistory noble sha256 votes history fallbackTimestamp := by
  rw [getCanonicalBulletinRootHistory, h, ← getCanonicalBulletinRootHistory]

theorem stageCtVoteWrites_congr
    (h : parsePersistedRootHistory history' = parsePersistedRootHistory history)
    (votes : Votes) (logId : JsString) (writes : List IndexedVoteWrite) (clock : StagingClock) :
    stageCtVoteWrites noble sha256 votes logId history' writes clock =
      stageCtVoteWrites noble sha256 votes logId history writes clock := by
  simp only [stageCtVoteWrites, getCanonicalBulletinRootHistory_congr h]

theorem buildNextVoting_congr (h : Alike voting restored) (staged : StagedCtWriteResult) (botCount : ℕ)
    (userVoteIndex : Option ℕ) (lastActivityMs : Num) :
    buildNextVoting restored staged botCount userVoteIndex lastActivityMs =
      buildNextVoting voting staged botCount userVoteIndex lastActivityMs := by
  simp only [buildNextVoting, h.sessionId_eq, h.votes_eq]

theorem evaluateUserVoteMutation_congr (h : Alike voting restored) (vote : UserVoteCommand) :
    evaluateUserVoteMutation noble sha256 (⟨identity, restored, none⟩ : SessionVoteAuthority U) vote
      dependencies =
      evaluateUserVoteMutation noble sha256 (⟨identity, voting, none⟩ : SessionVoteAuthority U) vote
        dependencies := by
  simp only [evaluateUserVoteMutation, buildNextVoting_congr h,
    stageCtVoteWrites_congr h.history_eq, h.votes_eq, h.logId_eq, h.botCount_eq]

theorem buildCanonicalCtSessionProjection_congr (h : Alike voting restored) (logId : JsString)
    (now : ℕ → Num) (fallbackTimestamp : Num) :
    buildCanonicalCtSessionProjection noble sha256 restored logId now fallbackTimestamp =
      buildCanonicalCtSessionProjection noble sha256 voting logId now fallbackTimestamp := by
  simp only [buildCanonicalCtSessionProjection,
    getCanonicalBulletinRootHistory_congr h.history_eq, h.votes_eq, h.userParticipation_eq]

theorem evaluateBotVoteMutation_congr (h : Alike voting restored) (votes : List BotVoteCommand) :
    evaluateBotVoteMutation noble sha256 (⟨identity, restored, none⟩ : SessionVoteAuthority U) votes
      dependencies =
      evaluateBotVoteMutation noble sha256 (⟨identity, voting, none⟩ : SessionVoteAuthority U) votes
        dependencies := by
  simp only [evaluateBotVoteMutation, buildCanonicalCtSessionProjection_congr h, buildNextVoting_congr h,
    h.votes_eq, h.logId_eq, h.botCount_eq, h.userParticipation_eq]

/-- CONGRUENCE: what is admitted to a record is admitted to any that is alike, with the same outcome. -/
theorem Alike.admits (h : Alike voting restored)
    (hadmits : Admits noble sha256 U identity restored dependencies mutation command) :
    Admits noble sha256 U identity voting dependencies mutation command := by
  cases hadmits with
  | user vote hnotCast hempty hok =>
    rw [evaluateUserVoteMutation_congr h] at hok
    exact .user vote (h.userParticipation_eq ▸ hnotCast) (h.votes_eq ▸ hempty) hok
  | bots votes hcast hroom hok =>
    rw [evaluateBotVoteMutation_congr h] at hok
    exact .bots votes (h.userParticipation_eq ▸ hcast) (h.botCount_eq ▸ hroom) hok

end Alike

end StarkBallot.Application
