import StarkBallot.ApiContract.VerificationResource
import StarkBallot.Application.SessionProving
import StarkBallot.Application.VoteAppends
import StarkBallot.AwsAdapters.FileMockOperations

/-! What comes out of the demo's scenarios (`prepareFinalizationInputs` of
    `application/src/finalize/usecases/finalize-session.ts`, and the guest on the input it prepares):

        scenario    S0    S1 S3 S5         S2 S4
        input       all   all but one      all
        claim       all   all but one      all, one for another candidate
        proved      all   one slot empty   another tally than claimed

    A session is finalized as its votes are exactly where nothing was tampered with. -/

namespace StarkBallot.Application
open Schemes ContractCore CryptoPrimitives Merkle Domain ZkvmContract ZkvmContract.HostIo

variable {noble : NobleUtils} {sha256 : List UInt8 → Bytes 32} {U : Type} {entries : List Entry}

/-! ### Tallies of changed votes -/

section Tallies

variable {votes : Votes} {index : ℕ} {vote : StoredVoteRecord}

/-- A tally is as large as its votes are many. -/
theorem getTallyCounts_total (votes : Votes) :
    (getTallyCounts votes).toList.foldl (· + ·) 0 = votes.length := by
  induction votes using List.reverseRecOn with
  | nil => rfl
  | append_singleton votes entry ih =>
    rw [getTallyCounts, List.foldl_append, List.foldl_cons, List.foldl_nil, ← getTallyCounts,
      List.length_append, List.length_singleton, ← ih]
    generalize getTallyCounts votes = counts
    have hlist (v : Vector ℕ 5) : v.toList = [v[0], v[1], v[2], v[3], v[4]] := by
      refine List.ext_getElem (by simp) fun c hc _ => ?_
      rw [Vector.length_toList] at hc
      interval_cases c <;> rfl
    rw [hlist, hlist]
    simp only [countVote_get, List.foldl_cons, List.foldl_nil]
    cases entry.2.vote <;> simp [VoteChoice.toNumber] <;> omega

theorem split_of_lookup (hvote : votes.lookup index = some vote) (hkeys : (votes.map Prod.fst).Nodup) :
    ∃ before after, votes = before ++ (index, vote) :: after ∧ (∀ entry ∈ before, entry.1 ≠ index) ∧
      ∀ entry ∈ after, entry.1 ≠ index := by
  obtain ⟨before, after, rfl, hbefore⟩ := List.lookup_eq_some_iff.mp hvote
  rw [List.map_append, List.map_cons, List.nodup_append] at hkeys
  refine ⟨before, after, rfl, ?_, ?_⟩
  · intro entry hentry
    exact fun heq => by simpa [heq] using hbefore entry hentry
  · intro entry hentry heq
    have hmem : entry.1 ∈ after.map Prod.fst := List.mem_map_of_mem hentry
    exact (List.nodup_cons.mp hkeys.2.1).1 (heq ▸ hmem)

/-- One vote less. -/
theorem length_mapDelete (hvote : votes.lookup index = some vote) (hkeys : (votes.map Prod.fst).Nodup) :
    (mapDelete votes index).length + 1 = votes.length := by
  obtain ⟨before, after, rfl, hbefore, hafter⟩ := split_of_lookup hvote hkeys
  have hkeep {l : Votes} (h : ∀ entry ∈ l, entry.1 ≠ index) :
      l.filter (fun entry => entry.1 ≠ index) = l := by
    rw [List.filter_eq_self]
    exact fun entry hentry => by simpa using h entry hentry
  rw [mapDelete, List.filter_append, List.filter_cons, hkeep hbefore, hkeep hafter]
  simp
  omega

/-- The vote for another candidate: the one loses what the other gains. -/
theorem getTallyCounts_mapSet {choice : VoteChoice} (hvote : votes.lookup index = some vote)
    (hkeys : (votes.map Prod.fst).Nodup) {c : ℕ} (hc : c < 5) :
    (getTallyCounts (mapSet votes index { vote with vote := choice }))[c] +
      (if vote.vote.toNumber = c then 1 else 0) =
      (getTallyCounts votes)[c] + (if choice.toNumber = c then 1 else 0) := by
  obtain ⟨before, after, rfl, hbefore, hafter⟩ := split_of_lookup hvote hkeys
  have hkeep {l : Votes} (h : ∀ entry ∈ l, entry.1 ≠ index) : l.map (fun entry =>
      if entry.1 = index then (index, { vote with vote := choice }) else entry) = l := by
    refine (List.map_congr_left ?_).trans (List.map_id l)
    exact fun entry hentry => if_neg (h entry hentry)
  rw [mapSet, if_pos (by simp), List.map_append, List.map_cons, hkeep hbefore, hkeep hafter, if_pos rfl,
    getTallyCounts_get _ hc, getTallyCounts_get _ hc]
  simp only [List.countP_append, List.countP_cons, decide_eq_true_eq]
  omega

theorem getTallyCounts_recounted {choice : VoteChoice} (hvote : votes.lookup index = some vote)
    (hkeys : (votes.map Prod.fst).Nodup) (hchoice : choice ≠ vote.vote) :
    getTallyCounts votes ≠ getTallyCounts (mapSet votes index { vote with vote := choice }) := by
  intro heq
  have hcount := @getTallyCounts_mapSet votes index vote choice hvote hkeys _ (toNumber_lt vote.vote)
  have hne : choice.toNumber ≠ vote.vote.toNumber := by
    revert hchoice
    cases choice <;> cases vote.vote <;> simp [VoteChoice.toNumber]
  rw [← heq, if_pos rfl, if_neg hne] at hcount
  omega

end Tallies

/-! ### Scenarios -/

/-- The votes that are proved and the votes that are claimed. -/
inductive Presents (votes : Votes) (scenarioId : JsString) : Votes → Votes → Prop
  | untampered (hscenario : scenarioId = js "S0") : Presents votes scenarioId votes votes
  | excluded (index : ℕ) (vote : StoredVoteRecord) (hvote : votes.lookup index = some vote)
      (hscenario : (scenarioId = js "S1" ∧ index = 0) ∨ (scenarioId = js "S3" ∧ index = 1) ∨
        scenarioId = js "S5") :
      Presents votes scenarioId (mapDelete votes index) (mapDelete votes index)
  | recounted (index : ℕ) (vote : StoredVoteRecord) (choice : VoteChoice)
      (hvote : votes.lookup index = some vote) (hchoice : choice ≠ vote.vote)
      (hscenario : (scenarioId = js "S2" ∧ index = 0) ∨ (scenarioId = js "S4" ∧ index ≠ 0)) :
      Presents votes scenarioId votes (mapSet votes index { vote with vote := choice })

/-- What the context says of a scenario. -/
structure Describes (votes kept claimed : Votes) (scenarioContext : FinalizeScenarioContext) : Prop where
  claimedCounts : scenarioContext.claimedCounts = getTallyCounts claimed
  claimedTotalVotes : scenarioContext.claimedTotalVotes = claimed.length
  ignoredCount : scenarioContext.summary.ignoredCount = votes.length - kept.length

theorem exec_scenarioForInput {scenarioId : JsString} {heap heap' : ScenarioHeap}
    {application : ScenarioApplicationResult} {kept : Votes}
    (hexec : exec (applyFinalizeScenarios 0 0 (scenariosOf scenarioId) false) heap =
      (.ok application, heap'))
    (hread : heap'.maps[if application.tamperMode = .input then application.modifiedVotes else 0]? =
      some kept) :
    exec (scenarioForInput 0 0 scenarioId) heap =
      (.ok (toFinalizeScenarioContext scenarioId 0 application,
        decide (application.tamperMode = .input), kept), heap') := by
  have happly : exec (applyScenario 0 0 scenarioId) heap =
      (.ok (application, toFinalizeScenarioContext scenarioId 0 application), heap') := by
    unfold applyScenario
    rw [exec_bind_ok hexec]
    rfl
  unfold scenarioForInput
  rw [exec_bind_ok happly]
  simp only [decide_eq_true_eq]
  rw [exec_bind_ok (exec_readMap hread)]
  rfl

/-- SPEC: which votes go into the input. -/
theorem scenarioForInput_presents {votes : Votes} {user : StoredVoteRecord} {scenarioId : JsString}
    {readings : ℕ → ℚ} (hkeys : (votes.map Prod.fst).Nodup) (huser : votes.lookup 0 = some user)
    (hbot : scenarioId = js "S0" ∨ (votes.lookup 1).isSome = true)
    (hscenario : scenarioId ∈ ApiContract.scenarioIds) (hreadings : InUnitInterval readings) :
    ∃ scenarioContext excludes kept claimed heap,
      exec (scenarioForInput 0 0 scenarioId) ⟨readings, [votes]⟩ =
        (.ok (scenarioContext, excludes, kept), heap) ∧
      Presents votes scenarioId kept claimed ∧ Retains votes excludes kept ∧
      Describes votes kept claimed scenarioContext := by
  have hmap : (ScenarioHeap.mk readings [votes]).maps[0]? = some votes := rfl
  rcases List.mem_cons.mp hscenario with rfl | hscenario
  · exact ⟨_, _, votes, votes, _, exec_scenarioForInput (applyFinalizeScenarios_none hmap) rfl,
      .untampered rfl, retains_all votes _, rfl, getTallyCounts_total votes, (Nat.sub_self _).symm⟩
  · have hnone : scenarioId ≠ js "S0" := by
      rintro rfl
      exact absurd hscenario (by decide)
    have hone : scenariosOf scenarioId = [scenarioId] := if_neg hnone
    obtain ⟨modified, changes, result, heap, hexec, happlied⟩ :=
      applyFinalizeScenarios_one hmap huser (hbot.resolve_left hnone) (by decide) hscenario hreadings
    have hmode := happlied.tamperMode_eq
    have hmaps : heap.maps = [votes, modified] := happlied.maps_eq
    have hmodified : result.modifiedVotes = 1 := happlied.modifiedVotes_eq
    rw [← hone] at hexec
    have hdescribes : ∀ kept, result.summary.ignoredCount = votes.length - kept.length →
        Describes votes kept modified (toFinalizeScenarioContext scenarioId 0 result) :=
        fun kept hignored =>
      ⟨happlied.claimedCounts_eq, happlied.claimedTotalVotes_eq.trans (getTallyCounts_total modified),
        hignored⟩
    cases happlied.tampered with
    | excluded index vote hvote hcase =>
      have hinput : result.tamperMode = .input := by
        rw [hmode]
        rcases hcase with ⟨rfl, -⟩ | ⟨rfl, -⟩ | rfl <;> decide
      have hlength := length_mapDelete hvote hkeys
      refine ⟨_, _, mapDelete votes index, _, heap, exec_scenarioForInput hexec ?_,
        .excluded index vote hvote hcase, ?_, hdescribes _ ?_⟩
      · rw [if_pos hinput, hmodified, hmaps]
        rfl
      · rw [decide_eq_true hinput]
        exact retains_delete votes index
      · rw [happlied.summary_eq]
        simp only [summarizeScenarioChanges, List.foldl_cons, List.foldl_nil, summarizeChange]
        omega
    | recounted index vote choice hvote hchoice hcase =>
      have hclaim : ¬ result.tamperMode = .input := by
        rw [hmode]
        rcases hcase with ⟨rfl, -⟩ | ⟨rfl, -⟩ <;> decide
      refine ⟨_, _, votes, _, heap, exec_scenarioForInput hexec ?_,
        .recounted index vote choice hvote hchoice hcase, retains_all votes _, hdescribes _ ?_⟩
      · rw [if_neg hclaim, hmaps]
        rfl
      · rw [happlied.summary_eq]
        simp only [summarizeScenarioChanges, List.foldl_cons, List.foldl_nil, summarizeChange]
        omega

/-! ### Sessions -/

/-- A session as the stores create it, of the default configuration. -/
def defaultSessionInput (noble : NobleUtils) (sha256 : List UInt8 → Bytes 32)
    (sessionId electionId logName : JsString) (createdAtMs : Num) : SessionCreationInput where
  sessionId := sessionId
  electionId := electionId
  electionConfigHash := hashElectionConfig noble sha256 buildDefaultElectionConfig
  electionConfig := buildDefaultElectionConfig
  logId := AwsAdapters.FileMock.generateLogId sha256 logName
  createdAtMs := createdAtMs
  lastActivityMs := createdAtMs

theorem createDefaultSessionRecords_eq (sessionId electionId logName : JsString) (createdAtMs : Num) :
    AwsAdapters.FileMock.createDefaultSessionRecords noble sha256 sessionId electionId logName
      createdAtMs =
      buildSessionRecords (defaultSessionInput noble sha256 sessionId electionId logName createdAtMs) :=
      rfl

/-- RUN: the times of a run stay together. -/
theorem votingAfter_timed (input : SessionCreationInput) (attempts : List (Attempt U))
    (hclock : ∀ attempt ∈ attempts, attempt.dependencies.OnTime) :
    Timed (votingAfter noble sha256 input attempts).votes
      (votingAfter noble sha256 input attempts).bulletinRootHistory := by
  induction attempts using List.reverseRecOn with
  | nil => exact timed_nil
  | append_singleton attempts attempt ih =>
    obtain ⟨entries, hsound⟩ := @votingAfter_sound noble sha256 U input attempts
    have htimed := ih fun other hother => hclock other (List.mem_append_left _ hother)
    have hstep :=
      @submit_timed noble sha256 U entries _ (buildSessionRecords input).1 hsound htimed attempt
      (hclock attempt (by simp))
    rw [votingAfter, List.foldl_append]
    exact hstep.timed

/-- The board's root. -/
def CurrentRoot (noble : NobleUtils) (sha256 : List UInt8 → Bytes 32) (board : SimpleBulletinBoard)
    (root : Bytes 32) :
    Prop :=
  ∃ board', exec (getCurrentRoot noble sha256) board = (.ok (text root), board')

theorem currentRoot_of_lists {board : SimpleBulletinBoard} (hlists : Lists sha256 entries board)
    (hne : entries ≠ []) :
    CurrentRoot noble sha256 board (rootOf sha256 entries) := by
  obtain ⟨tree, hroot, -, -⟩ := tree_getRoot noble hlists.coherent hne
  exact ⟨{ board with tree := tree }, by rw [getCurrentRoot, onTree, exec_onPart, hroot]⟩

/-- What the guest proves of the kept votes of a session. -/
structure Outcome (noble : NobleUtils) (sha256 : List UInt8 → Bytes 32) (voting : SessionVotingRecord)
    (kept : Votes) (inspection : Guest.GuestTallyInspection) : Prop where
  outcomes : inspection.voteOutcomes = List.replicate kept.length .accepted
  bulletinRoot : CurrentRoot noble sha256 voting.bulletin inspection.output.bulletinRoot
  treeSize : inspection.output.treeSize = voting.votes.length
  verifiedTally : inspection.output.verifiedTally = getTallyCounts kept
  validVotes : inspection.output.validVotes = kept.length
  invalidVotes : inspection.output.invalidVotes = 0
  excludedSlots : inspection.output.excludedSlots = voting.votes.length - kept.length

/-- Neither a slot is empty nor another tally claimed exactly where nothing was tampered with. -/
theorem untampered_iff {votes kept claimed : Votes} {scenarioId : JsString}
    (hkeys : (votes.map Prod.fst).Nodup) (h : Presents votes scenarioId kept claimed) :
    votes.length - kept.length = 0 ∧ getTallyCounts kept = getTallyCounts claimed ↔
    scenarioId = js "S0" := by
  cases h with
  | untampered hscenario => exact ⟨fun _ => hscenario, fun _ => ⟨Nat.sub_self _, rfl⟩⟩
  | excluded index vote hvote hcase =>
    have hlength := length_mapDelete hvote hkeys
    refine ⟨fun hboth => absurd hboth.1 (by omega), ?_⟩
    rintro rfl
    rcases hcase with ⟨h, -⟩ | ⟨h, -⟩ | h <;> exact absurd h (by decide)
  | recounted index vote choice hvote hchoice hcase =>
    refine ⟨fun hboth => absurd hboth.2 (getTallyCounts_recounted hvote hkeys hchoice), ?_⟩
    rintro rfl
    rcases hcase with ⟨h, -⟩ | ⟨h, -⟩ <;> exact absurd h (by decide)

/-! ### The preparation -/

section Preparation

variable {sessionId electionId logName : JsString} {createdAtMs : Num} {voting : SessionVotingRecord}

theorem hasMatchingElectionConfigHash_self (config : ElectionConfig) :
    hasMatchingElectionConfigHash noble sha256 config (hashElectionConfig noble sha256 config) =
      true := by
  simp [hasMatchingElectionConfigHash]

theorem isHex32_hashElectionConfig (config : ElectionConfig) :
    isHex32 (hashElectionConfig noble sha256 config) = true := by
  rw [hashElectionConfig_eq]
  exact isHex32_prefixed _

/-- SPEC: a default session is prepared under every scenario. -/
theorem prepareFinalizationInputs_presents (hsound : Sound noble sha256 electionId entries voting)
    (hsession : voting.sessionId = sessionId) (htimed : Timed voting.votes voting.bulletinRootHistory)
    (hcast : voting.votes ≠ []) {scenarioId : JsString}
    (hbot : scenarioId = js "S0" ∨ 2 ≤ voting.votes.length)
    (hscenario : scenarioId ∈ ApiContract.scenarioIds) {readings : ℕ → ℚ}
    (hreadings : InUnitInterval readings) (now : Num) :
    ∃ prepared kept claimed, ∃ timestamp ∈ voting.votes.map (·.2.timestamp),
      prepareFinalizationInputs noble sha256
        (defaultSessionInput noble sha256 sessionId electionId logName
          createdAtMs).toSessionIdentityRecord voting
        scenarioId 0 readings now = .ok prepared ∧
      Presents voting.votes scenarioId kept claimed ∧ kept.Sublist voting.votes ∧
      Describes voting.votes kept claimed prepared.scenarioContext ∧
      prepared.zkvmInput = sessionInput sha256
        (defaultSessionInput noble sha256 sessionId electionId logName
          createdAtMs).toSessionIdentityRecord entries kept
        (AwsAdapters.FileMock.generateLogId sha256 logName) timestamp := by
  have hlength := hsound.holds.length_eq
  have hpos : 0 < entries.length := hlength ▸ List.length_pos_iff.mpr hcast
  have hne : entries ≠ [] := List.length_pos_iff.mp hpos
  have hkeys : (voting.votes.map Prod.fst).Nodup := hsound.holds.keys_eq ▸ List.nodup_range
  obtain ⟨user, -, huser, -⟩ := hsound.firstVote hpos
  have hbot : scenarioId = js "S0" ∨ (voting.votes.lookup 1).isSome = true := by
    refine hbot.imp_right fun hmany => ?_
    rw [lookup_isSome_iff_mem, hsound.holds.keys_eq, List.mem_range]
    omega
  obtain ⟨scenarioContext, excludes, kept, claimed, heap, hexec, hpresents, hretains, hdescribes⟩ :=
    scenarioForInput_presents hkeys huser hbot hscenario hreadings
  obtain ⟨timestamp, htimestamp, hreplies⟩ := @buildZkVMInputFromSession_replies noble sha256 entries
    (defaultSessionInput noble sha256 sessionId electionId logName createdAtMs).toSessionIdentityRecord
      voting kept excludes (AwsAdapters.FileMock.generateLogId sha256 logName) hsound htimed hne
    hsession.symm (hasMatchingElectionConfigHash_self _)
    (by simp [defaultSessionInput, AwsAdapters.FileMock.generateLogId, prefixed, js])
      (normalizeHexOrZero_prefixed _)
    hretains now
  obtain ⟨board, hbuild, -⟩ := hreplies voting.bulletin hsound.lists
  have hconfig : resolveElectionConfigForManifest noble sha256 buildDefaultElectionConfig
      (hashElectionConfig noble sha256 buildDefaultElectionConfig)
      buildDefaultElectionConfig.totalExpected = .ok buildDefaultElectionConfig := by
    rw [resolveElectionConfigForManifest, refuseIf_of_not (by decide), ok_bind,
      refuseIf_of_not (not_not.mpr (hasMatchingElectionConfigHash_self _))]
    rfl
  refine ⟨⟨scenarioContext, _, buildDefaultElectionConfig⟩, kept, claimed, timestamp, htimestamp,
    ?_, hpresents, hretains.sublist, hdescribes, rfl⟩
  have hmanifest := congrArg (mapErr InputBuilderError.other) hconfig
  rw [prepareFinalizationInputs, hexec, mapErr, ok_bind]
  dsimp only
  rw [hbuild, ok_bind]
  exact congrArg (fun config => config >>= _) hmanifest

theorem transportable_default {kept : Votes} {timestamp : Num} (helection : isUuid electionId = true)
    (htimed : Timed voting.votes voting.bulletinRootHistory) (hkept : kept.Sublist voting.votes)
    (hvotes : ∀ entry ∈ voting.votes, isHex32 entry.2.rand = true ∧
      entry.2.timestamp.isSafeInteger = true)
    (htimestamp : timestamp ∈ voting.votes.map (·.2.timestamp)) :
    Transportable
      (defaultSessionInput noble sha256 sessionId electionId logName createdAtMs).toSessionIdentityRecord
      kept (AwsAdapters.FileMock.generateLogId sha256 logName) timestamp where
  electionId := helection
  logId := isHex32_prefixed _
  configHash := isHex32_hashElectionConfig _
  totalExpected := ⟨Domain.botCount + 1, by decide, rfl⟩
  timestamp := by
    obtain ⟨entry, hentry, rfl⟩ := List.mem_map.mp htimestamp
    have hpositive := htimed.positive entry hentry
    have hsafe := (hvotes entry hentry).2
    rw [isPositiveInteger, Bool.and_eq_true] at hpositive
    exact ⟨_, Num.toNat_pos_of_safe hsafe (Num.le_eq_false_of_lt hpositive.2),
      Num.toNat_le_of_safe hsafe, Num.eq_ofNat_toNat hpositive.1 (Num.lt_asymm hpositive.2)⟩
  randoms := fun entry hentry => (hvotes entry (hkept.subset hentry)).1

end Preparation

/-- EXACT: whatever was submitted to a session and whichever scenario is run on it, the session is
    prepared, and unless its root is zero the guest accepts every record it is handed. A slot is empty
    or the tally another one than claimed exactly where the scenario tampers. -/
theorem scenario_proof_exact (sessionId electionId logName : JsString) (createdAtMs now : Num)
    (attempts : List (Attempt U)) {voting : SessionVotingRecord}
    (hvoting : voting =
      votingAfter noble sha256
        (defaultSessionInput noble sha256 sessionId electionId logName createdAtMs) attempts)
    (helection : isUuid electionId = true) (hclock : ∀ attempt ∈ attempts, attempt.dependencies.OnTime)
    (hcast : voting.votes ≠ [])
    (hvotes : ∀ entry ∈ voting.votes, isHex32 entry.2.rand = true ∧
      entry.2.timestamp.isSafeInteger = true)
    {scenarioId : JsString} (hscenario : scenarioId ∈ ApiContract.scenarioIds)
    (hbot : scenarioId = js "S0" ∨ 2 ≤ voting.votes.length) {readings : ℕ → ℚ}
    (hreadings : InUnitInterval readings) :
    ∃ prepared kept claimed,
      prepareFinalizationInputs noble sha256
        (defaultSessionInput noble sha256 sessionId electionId logName
          createdAtMs).toSessionIdentityRecord voting
        scenarioId 0 readings now = .ok prepared ∧
      Presents voting.votes scenarioId kept claimed ∧
        Describes voting.votes kept claimed prepared.scenarioContext ∧
      ((CurrentRoot noble sha256 voting.bulletin (Bytes.fill 32 0) ∧
          serializeZkvmAggregatorInput prepared.zkvmInput = .error
            (.error "bulletinRoot must be non-zero")) ∨
        ∃ json decoded inspection, serializeZkvmAggregatorInput prepared.zkvmInput = .ok json ∧
          jsonToAggregatorInput json = .ok decoded ∧
          Guest.verifyAndTallyChecked sha256 decoded = .ok inspection ∧
          Outcome noble sha256 voting kept inspection ∧
          (inspection.output.excludedSlots = 0 ∧
            inspection.output.verifiedTally = prepared.scenarioContext.claimedCounts ↔
            scenarioId = js "S0")) := by
  obtain ⟨entries, hsound⟩ := @votingAfter_sound noble sha256 U
    (defaultSessionInput noble sha256 sessionId electionId logName createdAtMs) attempts
  have htimed := @votingAfter_timed noble sha256 U
    (defaultSessionInput noble sha256 sessionId electionId logName createdAtMs) attempts hclock
  have hsession := (@votingAfter_session noble sha256 U
    (defaultSessionInput noble sha256 sessionId electionId logName createdAtMs) attempts).1
  rw [← hvoting] at hsound htimed hsession
  obtain ⟨prepared, kept, claimed, timestamp, htimestamp, hprepared, hpresents, hkept,
      hdescribes, hinput⟩ :=
    @prepareFinalizationInputs_presents noble sha256 entries sessionId electionId logName createdAtMs
      voting hsound hsession htimed hcast scenarioId hbot hscenario readings hreadings now
  have htransportable : Transportable
      (defaultSessionInput noble sha256 sessionId electionId logName
        createdAtMs).toSessionIdentityRecord kept
      (AwsAdapters.FileMock.generateLogId sha256 logName) timestamp :=
    transportable_default helection htimed hkept hvotes htimestamp
  have hlength := hsound.holds.length_eq
  have hne : entries ≠ [] := List.length_pos_iff.mp (hlength ▸ List.length_pos_iff.mpr hcast)
  have hcurrent := @currentRoot_of_lists noble sha256 entries voting.bulletin hsound.lists hne
  have hkeys : (voting.votes.map Prod.fst).Nodup := hsound.holds.keys_eq ▸ List.nodup_range
  refine ⟨prepared, kept, claimed, hprepared, hpresents, hdescribes, ?_⟩
  rw [hinput]
  by_cases hroot : rootOf sha256 entries = Bytes.fill 32 0
  · left
    have hrefused := toValidatedZkVMInput_zeroRoot htransportable hsound.holds hkept
      (hsound.length_le.trans (by decide)) hroot
    exact ⟨hroot ▸ hcurrent, by rw [serializeZkvmAggregatorInput, hrefused]; rfl⟩
  · right
    obtain ⟨json, decoded, inspection, hjson, hhost, hguest, hproved⟩ :=
      proved_of_session htransportable hsound hne hkept hroot
    have hexcluded : inspection.output.excludedSlots = voting.votes.length - kept.length := by
      rw [hproved.excludedSlots, hlength]
    refine ⟨json, decoded, inspection, hjson, hhost, hguest, ?_, ?_⟩
    · exact {
        outcomes := hproved.outcomes
        bulletinRoot := hproved.bulletinRoot ▸ hcurrent
        treeSize := hproved.treeSize.trans hlength.symm
        verifiedTally := hproved.verifiedTally
        validVotes := hproved.validVotes
        invalidVotes := hproved.invalidVotes
        excludedSlots := hexcluded }
    · rw [hexcluded, hproved.verifiedTally, hdescribes.claimedCounts]
      exact untampered_iff hkeys hpresents

/-- A session in which the user and one bot have voted. -/
def twoVotes : List (Attempt Unit) :=
  [⟨.appendUserVote (sampleVote []), sampleDependencies, none⟩,
    ⟨.appendBotVotes [⟨.b, []⟩], { sampleDependencies with
      generateVoteId := fun _ => js "f47ac10b-58cc-4372-a567-0e02b2c3d480" }, none⟩]

def twoVotesInput : SessionCreationInput :=
  defaultSessionInput .reference Sha256.digest (js "session")
    (js "550e8400-e29b-41d4-a716-446655440000") (js "log") (.ofNat 1)

theorem twoVotes_ready :
    2 ≤ (votingAfter .reference Sha256.digest twoVotesInput twoVotes).votes.length ∧
      ∀ entry ∈ (votingAfter .reference Sha256.digest twoVotesInput twoVotes).votes,
        isHex32 entry.2.rand = true ∧ entry.2.timestamp.isSafeInteger = true := by
  decide +kernel

theorem scenario_proof_exact_on_sample : ∃ prepared kept claimed,
    prepareFinalizationInputs .reference Sha256.digest twoVotesInput.toSessionIdentityRecord
      (votingAfter .reference Sha256.digest twoVotesInput twoVotes) (js "S4") 0 (fun _ => 0)
      (.ofNat 1) = .ok prepared ∧
    Presents (votingAfter .reference Sha256.digest twoVotesInput twoVotes).votes (js "S4") kept claimed ∧
    prepared.scenarioContext.claimedCounts = getTallyCounts claimed := by
  obtain ⟨prepared, kept, claimed, hprepared, hpresents, hdescribes, -⟩ :=
    scenario_proof_exact (js "session") (js "550e8400-e29b-41d4-a716-446655440000") (js "log")
      (.ofNat 1) (.ofNat 1) twoVotes rfl (by decide)
      (fun attempt hattempt k => by
        rcases List.mem_pair.mp hattempt with rfl | rfl <;> rfl)
      (List.length_pos_iff.mp (Nat.zero_lt_of_lt twoVotes_ready.1)) twoVotes_ready.2
      (show js "S4" ∈ ApiContract.scenarioIds by decide) (.inr twoVotes_ready.1)
        (fun _ => ⟨le_rfl, zero_lt_one⟩)
  exact ⟨prepared, kept, claimed, hprepared, hpresents, hdescribes.claimedCounts⟩

end StarkBallot.Application
