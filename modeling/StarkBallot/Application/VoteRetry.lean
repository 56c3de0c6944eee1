import StarkBallot.Application.SessionVoting

/-! Votes cast again. The answer to the first vote holds nothing that later votes change: its index, the
    root of the board right after it, and an empty path. So a retry with the same opening gets that
    answer again, whatever was appended since and whether the session is closed, and any other opening
    gets no answer and changes no vote.

    Casting reads an empty random as zero, the replay refuses to read it. So a vote cast without a
    random is repeated by writing the zero out; what is sent without a random is
    another opening, and throws. -/

namespace StarkBallot.Application
open Schemes ContractCore CryptoPrimitives Merkle Domain

variable {noble : NobleUtils} {sha256 : List UInt8 → Bytes 32} {U : Type} {entries : List Entry}
  {identity : SessionIdentityRecord} {voting : SessionVotingRecord} {stored : StoredVoteRecord}

/-! ### Openings -/

/-- The same choice, and a random that the replay normalizes to the hex that
    casting made of the first one. -/
structure SameOpening (vote again : BotVoteCommand) : Prop where
  vote_eq : again.vote = vote.vote
  rand_eq : ∃ hex, normalizeHex vote.rand orEmpty = .ok hex ∧ normalizeHex again.rand = .ok hex

/-- The replay knows the opening that was cast, and no other. -/
theorem resolved_iff {vote again : BotVoteCommand} (hchoice : stored.vote = vote.vote)
    (hrand : normalizeHex vote.rand orEmpty = .ok stored.rand) :
    resolved stored again = .ok (.replay stored 0) ↔ SameOpening vote again := by
  rw [resolved_eq_replay]
  constructor
  · rintro ⟨-, -, hvote, hnormal⟩
    exact ⟨hvote.trans hchoice, stored.rand, hrand, hnormal⟩
  · rintro ⟨hvote, hex, hcast, hnormal⟩
    obtain rfl : stored.rand = hex := Except.ok.inj (hrand.symm.trans hcast)
    exact ⟨rfl, rfl, hvote.trans hchoice.symm, hnormal⟩

/-! ### Evaluations of a vote cast again -/

/-- A retry that is resolved gets the answer of the stored vote. -/
theorem evaluate_replayed (h : Sound noble sha256 identity.electionId entries voting)
    (hpos : 0 < entries.length) (hfirst : voting.votes.lookup 0 = some stored) {again : UserVoteCommand}
    (hresolved : resolved stored again.toBotVoteCommand = .ok (.replay stored 0))
    (dependencies : SessionMutationDependencies) (finalization : Option (FinalizationRecord U)) :
    (evaluate noble sha256 identity voting ⟨.appendUserVote again, dependencies, finalization⟩).1 =
      .ok (.ok (.userVoteReplayed ⟨0, [], stored.rootAtCast⟩)) := by
  obtain ⟨board, -, hexec⟩ :=
    @replayUserVote_of_cast noble sha256 U entries ⟨identity, voting, finalization⟩ h hpos
    stored hfirst again
  rw [hresolved, replayOutcome] at hexec
  rw [evaluate, evaluateSessionVoteMutation, exec_bind, hexec]
  rfl

/-- Any other opening gets no answer and leaves the votes alone. -/
theorem evaluate_other (h : Sound noble sha256 identity.electionId entries voting)
    (hpos : 0 < entries.length) (hfirst : voting.votes.lookup 0 = some stored) {again : UserVoteCommand}
    (hresolved : resolved stored again.toBotVoteCommand ≠ .ok (.replay stored 0))
    (dependencies : SessionMutationDependencies) (finalization : Option (FinalizationRecord U)) :
    (∀ result, (evaluate noble sha256 identity voting ⟨.appendUserVote again, dependencies,
      finalization⟩).1 ≠ .ok (.ok (.userVoteReplayed result))) ∧
    (submit noble sha256 identity voting ⟨.appendUserVote again, dependencies, finalization⟩).votes =
      voting.votes := by
  have hcases := evaluate_cases h (⟨.appendUserVote again, dependencies, finalization⟩ : Attempt U)
  unfold submit
  generalize evaluate noble sha256 identity voting ⟨.appendUserVote again, dependencies, finalization⟩ =
    outcome at hcases ⊢
  cases hcases with
  | refused result hresult =>
    refine ⟨fun answer heq => hresult _ heq, ?_⟩
    rcases result with e | e | mutation
    · rfl
    · rfl
    · exact absurd rfl (hresult mutation)
  | replayed vote found board hcommand hlookup hfound =>
    cases hcommand
    obtain rfl : stored = found := Option.some.inj (hfirst.symm.trans hlookup)
    exact absurd hfound hresolved
  | userAppended vote next intents found entry hcommand hempty =>
    subst hempty
    cases hpos
  | botsAppended votes next intents added found hcommand => cases hcommand

/-! ### Retries -/

/-- A vote that is cast again after one that was answered with `castResult`. -/
structure ExactlyOnce (noble : NobleUtils) (sha256 : List UInt8 → Bytes 32)
    (identity : SessionIdentityRecord) (voting : SessionVotingRecord) (vote : UserVoteCommand)
    (castResult : AddVoteResult) (again : UserVoteCommand) (dependencies : SessionMutationDependencies)
    (finalization : Option (FinalizationRecord U)) : Prop where
  same : SameOpening vote.toBotVoteCommand again.toBotVoteCommand →
    (evaluate noble sha256 identity voting ⟨.appendUserVote again, dependencies, finalization⟩).1 =
      .ok (.ok (.userVoteReplayed castResult))
  other : ¬ SameOpening vote.toBotVoteCommand again.toBotVoteCommand →
    (∀ result, (evaluate noble sha256 identity voting ⟨.appendUserVote again, dependencies,
      finalization⟩).1 ≠ .ok (.ok (.userVoteReplayed result))) ∧
    (submit noble sha256 identity voting ⟨.appendUserVote again, dependencies, finalization⟩).votes =
      voting.votes

/-- The first vote and its answer, seen from any later record. -/
theorem appended_first (h : Sound noble sha256 identity.electionId entries voting)
    {vote : UserVoteCommand} {dependencies : SessionMutationDependencies}
    {finalization : Option (FinalizationRecord U)} {nextVoting : SessionVotingRecord}
    {intents : List VoteIndexIntent} {castResult : AddVoteResult} {authority : SessionVoteAuthority U}
    (hcast : evaluate noble sha256 identity voting ⟨.appendUserVote vote, dependencies, finalization⟩ =
      (.ok (.ok (.userVoteAppended nextVoting intents castResult)), authority))
    (later : List (Attempt U)) :
    ∃ stored entries', castResult = ⟨0, [], stored.rootAtCast⟩ ∧ stored.vote = vote.vote ∧
      normalizeHex vote.rand orEmpty = .ok stored.rand ∧ 0 < entries'.length ∧
      (later.foldl (submit noble sha256 identity) nextVoting).votes.lookup 0 = some stored ∧
      Sound noble sha256 identity.electionId entries'
        (later.foldl (submit noble sha256 identity) nextVoting) := by
  have hcases := evaluate_cases h (⟨.appendUserVote vote, dependencies, finalization⟩ : Attempt U)
  rw [hcast] at hcases
  cases hcases with
  | refused _ hresult => exact absurd rfl (hresult _)
  | userAppended _ next intents stored entry hcommand hempty hsound hvotes hid hchoice hrand =>
    cases hcommand
    obtain ⟨added, more, hlater, hlaterVotes⟩ := run_sound hsound later
    refine ⟨stored, [entry] ++ added, rfl, hchoice, hrand, by simp, ?_, hlater⟩
    rw [hlaterVotes, hvotes]
    rfl

/-- RETRY: after any further attempts a vote cast again is answered as the first one was,
    and any other one is not. -/
theorem user_vote_exactly_once (input : SessionCreationInput) (before : List (Attempt U))
    (vote : UserVoteCommand) (dependencies₀ : SessionMutationDependencies)
    (finalization₀ : Option (FinalizationRecord U)) {nextVoting : SessionVotingRecord}
    {intents : List VoteIndexIntent} {castResult : AddVoteResult} {authority : SessionVoteAuthority U}
    (hcast : evaluate noble sha256 (buildSessionRecords input).1 (votingAfter noble sha256 input before)
        ⟨.appendUserVote vote, dependencies₀, finalization₀⟩ =
      (.ok (.ok (.userVoteAppended nextVoting intents castResult)), authority))
    (later : List (Attempt U)) (again : UserVoteCommand) (dependencies : SessionMutationDependencies)
    (finalization : Option (FinalizationRecord U)) :
    ExactlyOnce noble sha256 (buildSessionRecords input).1
      (later.foldl (submit noble sha256 (buildSessionRecords input).1) nextVoting) vote castResult again
        dependencies finalization := by
  obtain ⟨entries₀, hsound₀⟩ := @votingAfter_sound noble sha256 U input before
  obtain ⟨stored, entries, rfl, hchoice, hrand, hpos, hfirst, hsound⟩ :=
    @appended_first noble sha256 U _ (buildSessionRecords input).1 _ hsound₀ _ _ _ _ _ _ _ hcast later
  have hiff := @resolved_iff stored vote.toBotVoteCommand again.toBotVoteCommand hchoice hrand
  refine ⟨fun hsame => ?_, fun hother => ?_⟩
  · exact evaluate_replayed hsound hpos hfirst (hiff.mpr hsame) dependencies finalization
  · exact evaluate_other hsound hpos hfirst (fun heq => hother (hiff.mp heq)) dependencies finalization

/-- A vote cast without a random is repeated with a random of zero. -/
theorem user_vote_exactly_once_on_sample :
    ∃ (nextVoting : SessionVotingRecord) (castResult : AddVoteResult),
    (evaluate .reference Sha256.digest (buildSessionRecords sampleInput).1 nextVoting
      ⟨.appendUserVote (sampleVote (js "0x0")), sampleDependencies,
        (none : Option (FinalizationRecord Unit))⟩).1 = .ok (.ok (.userVoteReplayed castResult)) := by
  obtain ⟨prepared, hprepared⟩ := prepare_sampleVote Sha256.digest
  obtain ⟨nextVoting, intents, stored, heval, -⟩ :=
    @evaluate_firstVote .reference Sha256.digest Unit sampleInput _ _ sampleDependencies
      (by decide) hprepared
  exact ⟨nextVoting, _, (user_vote_exactly_once sampleInput [] (sampleVote []) sampleDependencies
    none heval [] (sampleVote (js "0x0")) sampleDependencies none).same ⟨rfl, _, rfl, by decide⟩⟩

end StarkBallot.Application
