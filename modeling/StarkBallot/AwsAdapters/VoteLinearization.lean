import StarkBallot.AwsAdapters.VoteCommits

/-! No vote is lost and none is stored twice (`mutateVotes` of
    `aws-adapters/src/store/dynamoSessionStore.ts`, `addVote` and `addBotVotes` of
    `session-command-store.ts`). Each round of a call reads, evaluates and sends at most one
    transaction; a failed condition leads to the next round. So a call writes at most once, what it
    answers is what it wrote, and the votes that are stored in the end are those of the calls'
    mutations, one after the other. -/

namespace StarkBallot.AwsAdapters.Dynamo
open Schemes ContractCore CryptoPrimitives Domain Application

variable {U ι : Type}

/-! ### What a call has done -/

section Calls

variable (U) (config : StoreConfig) (input : SessionCreationInput) (calls : ι → VoteMutationInput)
  (start : SessionVotingRecord) (revision : ℕ) (c : ι)

/-- The mutation is the outcome of one commit of the call. -/
def Contributed (mutation : SessionVoteMutation) (commits : List (ι × ℕ)) : Prop :=
  ∃ before k voting, before ++ [(c, k)] <+: commits ∧
    Serial (Takes U config input calls) start before voting ∧
    EvaluatesTo U config input calls voting (c, k) mutation

/-- A call that is done: an append that it answers is one of its commits, and unless the tables' answer
    was lost there is no other. -/
structure CallDone (result : Except StoreError (Except VoteStoreError SessionVoteMutation))
    (commits : List (ι × ℕ)) : Prop where
  appended : ∀ mutation, result = .ok (.ok mutation) → (nextVotingOf mutation).isSome = true →
    Contributed U config input calls start c mutation commits
  otherwise : (∀ mutation, result = .ok (.ok mutation) → nextVotingOf mutation = none) →
    result ≠ .error .failed →
    ∀ commit ∈ commits, commit.1 ≠ c

/-- What the end of a transaction tells; one that is too long is not sent. -/
def Written (k : ℕ) (mutation : SessionVoteMutation) (result : Except StoreError Unit)
    (journal : VoteJournal ι U) :
    Prop :=
  match result with
  | .ok _ => Contributed U config input calls start c mutation journal.commits
  | .error .conditionalConflict => Waits c (k + 1) journal
  | .error .failed => True
  | .error _ => Waits c k journal

/-- How a round ends: the call is done, or it waits with one transaction more. -/
def RoundDone (k : ℕ) (result : Except StoreError (Option (Except VoteStoreError SessionVoteMutation)))
    (journal : VoteJournal ι U) : Prop :=
  match result with
  | .ok none => Waits c (k + 1) journal
  | .ok (some answer) => CallDone U config input calls start c (.ok answer) journal.commits
  | .error e => CallDone U config input calls start c (.error e) journal.commits

/-- What the tables' answer to a transaction tells. -/
def Answered (k : ℕ) (mutation : SessionVoteMutation) (result : Except StoreError TransactAnswer)
    (journal : VoteJournal ι U) : Prop :=
  match result with
  | .ok .committed => Contributed U config input calls start c mutation journal.commits
  | .ok .conditionalConflict => Waits c (k + 1) journal
  | .ok .thrown => True
  | .error _ => False

variable {U config input calls start revision c} {journal journal' : VoteJournal ι U}
  {mutation : SessionVoteMutation}
  {result : Except StoreError (Except VoteStoreError SessionVoteMutation)}

theorem Contributed.later (h : Contributed U config input calls start c mutation journal.commits)
    (hothers : OtherVotes c journal journal') :
    Contributed U config input calls start c mutation journal'.commits := by
  obtain ⟨before, k, voting, hbeginning, hrest⟩ := h
  obtain ⟨added, heq, -⟩ := hothers.commits
  exact ⟨before, k, voting, hbeginning.trans ⟨added, heq.symm⟩, hrest⟩

theorem CallDone.later (h : CallDone U config input calls start c result journal.commits)
    (hothers : OtherVotes c journal journal') :
    CallDone U config input calls start c result journal'.commits where
  appended mutation hresult hnext := (h.appended mutation hresult hnext).later hothers
  otherwise hresult hfailed := hothers.commits.forall_mem (h.otherwise hresult hfailed)

/-- A call that has written nothing may be done with anything but an append. -/
theorem Waits.done {k : ℕ} (h : Waits c k journal)
    (hresult : ∀ mutation, result = .ok (.ok mutation) → nextVotingOf mutation = none) :
    CallDone U config input calls start c result journal.commits where
  appended mutation heq hnext := by
    rw [hresult mutation heq] at hnext
    cases hnext
  otherwise _ _ := h.uncommitted

/-- A call that waits may fail. -/
theorem Waits.failed {k : ℕ} (h : Waits c k journal) (e : StoreError) :
    CallDone U config input calls start c (.error e) journal.commits := h.done (by rintro _ ⟨⟩)

/-- Nothing is promised when an answer was lost. -/
theorem done_failed {commits : List (ι × ℕ)} :
    CallDone U config input calls start c (.error .failed) commits where
  appended := by rintro _ ⟨⟩
  otherwise _ hfailed := absurd rfl hfailed

theorem Contributed.done {commits : List (ι × ℕ)}
    (h : Contributed U config input calls start c mutation commits)
    (hnext : (nextVotingOf mutation).isSome = true) :
    CallDone U config input calls start c (.ok (.ok mutation)) commits where
  appended := by
    rintro _ ⟨⟩ -
    exact h
  otherwise hnone _ := by
    rw [hnone mutation rfl] at hnext
    cases hnext

/-! ### One transaction -/

theorem MutationAuthoritySeen.later {authority : VoteMutationAuthority U} {boardClock : ℕ → Num}
    {s s' : SharedTable ι U} (h : MutationAuthoritySeen config input.sessionId boardClock authority s)
    (hgrows : Grows s s') :
    MutationAuthoritySeen config input.sessionId boardClock authority s' :=
  ⟨h.seen.later hgrows, h.restored⟩

theorem answered_of_written {k : ℕ} {answer : TransactAnswer} (hanswer : answer ≠ .conditionalConflict)
    (h : Contributed U config input calls start c mutation journal.commits) :
    Answered U config input calls start c k mutation (.ok answer) journal := by
  cases answer with
  | committed => exact h
  | conditionalConflict => exact absurd rfl hanswer
  | thrown => trivial

theorem answered_of_unwritten {k : ℕ} {answer : TransactAnswer} (hanswer : answer ≠ .committed)
    (h : Waits c (k + 1) journal) :
    Answered U config input calls start c k mutation (.ok answer) journal := by
  cases answer with
  | committed => exact absurd rfl hanswer
  | conditionalConflict => exact h
  | thrown => trivial

variable [DecidableEq ι]

variable (U config input calls start revision) in
/-- A part of a call among the others. -/
abbrev KeepsVotes {α : Type} (c : ι) (post : α → VoteJournal ι U → Prop)
    (program : Async (TableRequest U) TableRequest.Answer α) (journal : VoteJournal ι U) : Prop :=
  Safe serveVotes (JournalOk U config input calls start revision) OtherVotes c post program journal

variable {authority : VoteMutationAuthority U} {boardClock : ℕ → Num} {k : ℕ}
  {next : SessionVotingRecord} (hstart : RecordOf config input start)

include hstart

/-- WRITE: a transaction that goes through is a commit of its call, any other changes no item. -/
theorem keeps_writeRequest
    (hseen : MutationAuthoritySeen config input.sessionId boardClock authority journal.shared)
    (heval : evaluateStoredVoteCommand config authority (calls c).command
      ((calls c).rounds k).dependencies =
      .ok (.ok mutation)) (hnext : nextVotingOf mutation = some next) (hwaits : Waits c k journal)
    (nonces : ℕ → Nonces) :
    KeepsVotes U config input calls start revision c (Answered U config input calls start c k mutation)
      (ask (TableRequest.transactWrite .votes
        (voteMutationItems config input.sessionId authority.ttl nonces next)) :
        Call U TransactAnswer).run journal := by
  obtain ⟨items, hitems⟩ :
      ∃ items, items = voteMutationItems (U := U) config input.sessionId authority.ttl nonces next :=
    ⟨_, rfl⟩
  rw [← hitems]
  rintro later choice hothers ⟨voting, hof⟩
  have hlater := hwaits.later hothers
  have hprepared := hof.prepared choice
  have hseen' := hseen.later (hothers.shared.toGrows.trans (grows_prepare later.shared choice))
  have hserves :
      ∀ d, d ≠ c → OtherVotes d later (serveVotes c choice (.transactWrite .votes items) later).2 :=
    fun d hd => otherVotes_serve hd choice _ later
  by_cases hthrough : GoesThrough choice items later.shared
  · obtain ⟨hserved, hanswer⟩ := serve_of_goesThrough hthrough c .votes
    have hafter : (serveVotes c choice (.transactWrite .votes items) later).2 =
        ⟨(later.shared.prepare choice).put (commit items (later.shared.prepare choice).table),
          Function.update later.sent c (k + 1), later.commits ++ [(c, k)]⟩ := by
      simp only [serveVotes, VoteJournal.note, if_pos hthrough, hserved, hlater.sent_eq]
    obtain ⟨-, hkeys, hconditions⟩ := hthrough
    have hrecord := record_of_run hstart hof.run
    subst hitems
    obtain ⟨item, hitem, hmatch⟩ := current_of_condition hconditions
    have hevaluates : EvaluatesTo U config input calls voting (c, k) mutation :=
      evaluatesTo_of_seen hprepared hrecord hseen' hitem hmatch heval (by rw [hnext, Option.isSome_some])
    refine ⟨?_, hserves, ?_⟩
    · rw [hafter]
      exact ⟨next, hprepared.committed hrecord ⟨mutation, hevaluates, hnext⟩ hlater.uncommitted
        hseen'.seen hkeys hconditions _⟩
    · rw [hafter]
      exact answered_of_written hanswer ⟨later.commits, k, voting, List.prefix_refl _,
        hof.run, hevaluates⟩
  · obtain ⟨hserved, hanswer⟩ := serve_of_not_goesThrough hthrough c .votes
    have hafter : (serveVotes c choice (.transactWrite .votes items) later).2 =
        ⟨later.shared.prepare choice, Function.update later.sent c (k + 1), later.commits⟩ := by
      simp only [serveVotes, VoteJournal.note, if_neg hthrough, hserved, hlater.sent_eq]
    refine ⟨?_, hserves, ?_⟩
    · rw [hafter]
      exact ⟨voting, ⟨hprepared.once, hprepared.run, hprepared.kept, hprepared.revision_eq,
        hprepared.lasting⟩⟩
    · rw [hafter]
      exact answered_of_unwritten hanswer ⟨Function.update_self _ _ _, hlater.uncommitted⟩

/-! ### One round -/

theorem keeps_writeTransaction
    (hseen : MutationAuthoritySeen config input.sessionId boardClock authority journal.shared)
    (heval : evaluateStoredVoteCommand config authority (calls c).command
      ((calls c).rounds k).dependencies =
      .ok (.ok mutation)) (hnext : nextVotingOf mutation = some next) (hwaits : Waits c k journal)
    (nonces : ℕ → Nonces) :
    KeepsVotes U config input calls start revision c (Written U config input calls start c k mutation)
      (writeTransaction .votes (voteMutationItems config input.sessionId authority.ttl nonces next) :
        Call U Unit).run
      journal := by
  unfold writeTransaction
  split
  · exact hwaits
  · refine safe_try (keeps_writeRequest hstart hseen heval hnext hwaits nonces) (fun _ _ h => h.elim) ?_
    rintro (_ | _ | _) later hanswer
    · exact hanswer
    · exact hanswer
    · trivial

/-- The transaction of a round, and what follows a failed condition. -/
theorem keeps_writeVotes
    (hseen : MutationAuthoritySeen config input.sessionId boardClock authority journal.shared)
    (heval : evaluateStoredVoteCommand config authority (calls c).command
      ((calls c).rounds k).dependencies =
      .ok (.ok mutation)) (hwaits : Waits c k journal) (nonces : ℕ → Nonces) :
    KeepsVotes U config input calls start revision c (RoundDone U config input calls start c k)
      (writeVotes config input.sessionId authority nonces k mutation).run journal := by
  unfold writeVotes
  split
  · rename_i hnone
    refine hwaits.done ?_
    rintro _ ⟨⟩
    exact hnone
  · rename_i next hnext
    have hcaught : KeepsVotes U config input calls start revision c
        (fun result later => match result with
          | .ok true => Contributed U config input calls start c mutation later.commits
          | .ok false => Waits c (k + 1) later
          | .error e => CallDone U config input calls start c (.error e) later.commits)
        (catchConflict k (writeTransaction .votes
          (voteMutationItems config input.sessionId authority.ttl nonces next)) :
          Call U Bool).run journal := by
      refine safe_attempt_bind (keeps_writeTransaction hstart hseen heval hnext hwaits nonces) ?_
      rintro (e | _) later hwritten
      · dsimp only
        split
        · cases e with
          | conditionalConflict => exact hwritten.failed _
          | failed => exact done_failed
          | sessionNotFound => exact hwritten.failed _
          | js e => exact hwritten.failed _
        · rename_i hretry
          rw [not_or, not_not] at hretry
          obtain ⟨rfl, -⟩ := hretry
          exact hwritten
      · exact hwritten
    refine safe_try hcaught (fun _ _ h => h) ?_
    rintro (_ | _) later hlater
    · exact hlater
    · exact hlater.done (by rw [hnext, Option.isSome_some])

/-- ROUND: the reads of a round, its evaluation and its transaction. -/
theorem keeps_mutateVotesRound (hwaits : Waits c k journal) :
    KeepsVotes U config input calls start revision c (RoundDone U config input calls start c k)
      (mutateVotesRound config input.sessionId (calls c) k).run journal := by
  refine safe_try (safe_reading keepsReading_journalOk
    (safe_findVoteMutationAuthority keeps_reading config input.sessionId ((calls c).rounds k).boardClock)
    (reads_findVoteMutationAuthority config input.sessionId _) hwaits) (fun e later h => h.2.failed e) ?_
  rintro (_ | authority) later ⟨hfound, hlater⟩
  · exact hlater.done (by rintro _ ⟨⟩)
  · have hseen := hfound _ rfl authority rfl
    dsimp only
    cases heval :
      evaluateStoredVoteCommand config authority (calls c).command ((calls c).rounds k).dependencies with
    | error e => exact hlater.failed (.js e)
    | ok evaluated =>
      cases evaluated with
      | error e => exact hlater.done (by rintro _ ⟨⟩)
      | ok mutation =>
        change KeepsVotes U config input calls start revision c _
          (ExceptT.run (if ¬ isPrepared (calls c).command mutation
            then storeError "Session vote mutation invariant violated"
            else writeVotes config input.sessionId authority ((calls c).rounds k).nonces k mutation))
          later
        split
        · exact hlater.failed _
        · exact keeps_writeVotes hstart hseen heval hlater _

/-- LOOP: by induction on the rounds that are left; so far each round has sent
    one transaction in vain. -/
theorem keeps_mutateVotes_from (left : ℕ) (hleft : left ≤ maxConditionalRetries)
    (hwaits : Waits c (maxConditionalRetries - left) journal) :
    KeepsVotes U config input calls start revision c
      (fun result later => CallDone U config input calls start c result later.commits)
      (retrying "Vote mutation contention limit exceeded"
        (mutateVotesRound config input.sessionId (calls c)) left).run
      journal := by
  induction left generalizing journal with
  | zero => exact hwaits.failed _
  | succ left ih =>
    refine safe_try (keeps_mutateVotesRound hstart hwaits) (fun _ _ h => h) ?_
    rintro (_ | answer) later hround
    · refine ih (by omega) ?_
      rwa [RoundDone, show maxConditionalRetries - (left + 1) + 1 =
        maxConditionalRetries - left by omega] at hround
    · exact hround

end Calls

/-! ### Every schedule -/

section Final

variable (U) (config : StoreConfig) (input : SessionCreationInput) (calls : ι → VoteMutationInput)

/-- The table holds a session with a record, all of it under one expiry. -/
structure SessionStored (voting : SessionVotingRecord) (revision expiry : ℕ) (table : AList (Item U)) :
    Prop where
  identity_eq : table.lookup (.identity input.sessionId) = some ⟨(buildSessionRecords input).1, expiry⟩
  voting_eq :
    table.lookup (.voting input.sessionId) = some ⟨toPersistedVotingRecord voting, revision, expiry⟩
  votes : ∀ i item, table.lookup (.vote input.sessionId i) = some item →
    ∃ vote, voting.votes[i]? = some (i, vote) ∧ ItemOf config.cipher i vote item.1 ∧
    item.1.expiresAt = expiry
  complete : ∀ i < voting.votes.length, (table.lookup (.vote input.sessionId i)).isSome = true

/-- What is stored of the session is the record: nothing else ever, and all of it until its expiry. -/
structure VotesStored (voting : SessionVotingRecord) (s : SharedTable ι U) : Prop where
  record : ∀ item, s.table.lookup (.voting input.sessionId) = some item →
    item.record = toPersistedVotingRecord voting
  votes : ∀ i item, s.table.lookup (.vote input.sessionId i) = some item →
    ∃ vote, voting.votes[i]? = some (i, vote) ∧ ItemOf config.cipher i vote item.1
  lasting : ∃ expiry, ∀ key ∈ sessionKeys input.sessionId voting.votes.length,
    LastsUntil expiry s.clockMs key (s.table.lookup key)
  user_le : ((votesAfter s.table input.sessionId none).filter fun vote => vote.isUserVote).length ≤ 1
  bots_le : ((votesAfter s.table input.sessionId none).filter fun vote => !vote.isUserVote).length ≤
    Domain.botCount

/-- The calls so far are as if they had been made one after the other in this order. -/
structure Linearized (start : SessionVotingRecord) (order : List (ι × ℕ)) (voting : SessionVotingRecord)
    (system : Concurrent ι (SharedTable ι U) (TableRequest U) TableRequest.Answer
      (Except StoreError (Except VoteStoreError SessionVoteMutation))) : Prop where
  once : (order.map Prod.fst).Nodup
  run : Serial (Takes U config input calls) start order voting
  stored : VotesStored U config input voting system.shared
  answered :
    ∀ c result, system.programs c = .done result → CallDone U config input calls start c result order

variable {U config input calls} {voting : SessionVotingRecord} {revision expiry : ℕ}
    {table : AList (Item U)}

theorem SessionStored.journalOf (h : SessionStored U config input voting revision expiry table)
    (clockMs : ℕ) (readAt : ι → Key → ℕ) :
    JournalOf U config input calls voting revision voting
      ⟨⟨table, clockMs, [], readAt⟩, fun _ => 0, []⟩ where
  once := List.nodup_nil
  run := .nil
  kept := by
    intro found hfound key item hitem
    obtain rfl : found = table := by simpa [SharedTable.tables] using hfound
    cases key with
    | identity sessionId =>
      rintro rfl
      rw [h.identity_eq] at hitem
      rw [← Option.some.inj hitem]
    | voting sessionId =>
      rintro rfl
      rw [h.voting_eq] at hitem
      rw [← Option.some.inj hitem]
      exact ⟨[], voting, List.nil_prefix, .nil, rfl, rfl⟩
    | vote sessionId i =>
      rintro rfl
      obtain ⟨vote, hvote, hitemOf, -⟩ := h.votes i item hitem
      exact ⟨vote, hvote, hitemOf⟩
    | _ => trivial
  revision_eq := by
    intro item hitem
    rw [h.voting_eq] at hitem
    rw [← Option.some.inj hitem]
    rfl
  lasting := by
    refine ⟨expiry, ?_⟩
    intro key hkey
    simp only [sessionKeys, List.mem_cons, List.mem_map, List.mem_range] at hkey
    rcases hkey with rfl | rfl | ⟨i, hi, rfl⟩
    · rw [h.identity_eq]
      rfl
    · rw [h.voting_eq]
      rfl
    · obtain ⟨item, hitem⟩ := Option.isSome_iff_exists.mp (h.complete i hi)
      obtain ⟨vote, -, -, hexpiry⟩ := h.votes i item hitem
      rw [hitem]
      exact congrArg some hexpiry

variable (U config input) in
/-- A session that is created is stored, without a vote. -/
theorem sessionStored_of_created (expiry : ℕ)
    (hnew : ∀ i, table.lookup (.vote input.sessionId i) = none) :
    SessionStored U config input
      (votingAfter config.noble config.sha256 input ([] : List (Attempt U))) 0 expiry
      (commit (createSessionItems input expiry) table) := by
  have hkeys :
      (keysOf (createSessionItems (U := U) input expiry)).Nodup := by simp [createSessionItems, putItem]
  have hvotes (i : ℕ) :
      (commit (createSessionItems input expiry) table).lookup (.vote input.sessionId i) = none := by
    rw [lookup_commit_of_not_mem (by simp [createSessionItems, putItem])]
    exact hnew i
  refine ⟨?_, ?_, ?_, ?_⟩
  · exact lookup_commit_of_mem hkeys List.mem_cons_self table
  · exact lookup_commit_of_mem hkeys (List.mem_cons_of_mem _ List.mem_cons_self) table
  · intro i item hitem
    cases (hvotes i).symm.trans hitem
  · intro i hi
    cases hi

/-! ### How many votes there are -/

/-- The votes of a session are under keys of their own. -/
theorem votesAfter_indices_nodup (table : AList (Item U)) (sessionId : JsString) :
    ((votesAfter table sessionId none).map (·.voteIndex)).Nodup := by
  have hkeys : ∀ entries : List (Sigma (Item U)),
      ((entries.filterMap (voteOf sessionId)).map fun vote => Key.vote sessionId vote.voteIndex).Sublist
        (entries.map Sigma.fst) := by
    intro entries
    induction entries with
    | nil => exact .slnil
    | cons entry entries ih =>
      cases hvote : voteOf sessionId entry with
      | none =>
        rw [List.filterMap_cons_none hvote]
        exact ih.cons _
      | some vote =>
        rw [List.filterMap_cons_some hvote]
        obtain ⟨_ | _ | ⟨owner, index⟩ | _ | _ | _ | _ | _ | _ | _ | _ | _, item⟩ := entry
        case vote =>
          obtain ⟨rfl, hsame⟩ := Option.ite_none_right_eq_some.mp hvote
          obtain rfl : item.1 = vote := Option.some.inj hsame
          rw [List.map_cons, List.map_cons, item.2.2]
          exact ih.cons_cons _
        all_goals cases hvote
  have hnodup := (hkeys table.entries).nodup table.nodupKeys
  have hperm : (votesAfter table sessionId none).Perm (table.entries.filterMap (voteOf sessionId)) := by
    have hall :
        (table.entries.filterMap (voteOf sessionId)).filter
          (fun item => (none : Option ℕ).all (· < item.voteIndex)) =
        table.entries.filterMap (voteOf sessionId) := List.filter_eq_self.mpr fun _ _ => rfl
    refine (List.mergeSort_perm _ _).trans ?_
    rw [hall]
  refine (hperm.map _).nodup_iff.mpr (List.Nodup.of_map (Key.vote sessionId) ?_)
  rwa [List.map_map]

/-- Votes with these indices are at most as many. -/
theorem length_le_of_indices {votes : List VoteItem} (bound : List ℕ)
    (hnodup : (votes.map (·.voteIndex)).Nodup) (hbound : ∀ vote ∈ votes, vote.voteIndex ∈ bound) :
    votes.length ≤ bound.length := by
  rw [← List.length_map (f := fun vote : VoteItem => vote.voteIndex)]
  refine (List.subperm_of_subset hnodup ?_).length_le
  intro i hi
  obtain ⟨vote, hvote, rfl⟩ := List.mem_map.mp hi
  exact hbound vote hvote

variable {start : SessionVotingRecord}

/-- STORED: the tables of a journal in order hold its record. -/
theorem JournalOf.votesStored {journal : VoteJournal ι U}
    (h : JournalOf U config input calls start revision voting journal)
    (hrecord : RecordOf config input voting) :
    VotesStored U config input voting journal.shared := by
  have hvotes : ∀ i item, journal.shared.table.lookup (.vote input.sessionId i) = some item →
      ∃ vote, voting.votes[i]? = some (i, vote) ∧ ItemOf config.cipher i vote item.1 := by
    intro i item hitem
    exact h.kept _ (mem_tables journal.shared) _ item hitem rfl
  have hflags : ∀ vote ∈ votesAfter journal.shared.table input.sessionId none,
      vote.isUserVote = decide (vote.voteIndex = 0) ∧ vote.voteIndex ≤ Domain.botCount := by
    intro vote hvote
    obtain ⟨own, hlookup⟩ := lookup_of_mem_votesAfter hvote
    obtain ⟨stored, hstored, hitemOf⟩ := hvotes _ _ hlookup
    obtain ⟨hlt, -⟩ := List.getElem?_eq_some_iff.mp hstored
    obtain ⟨entries, hsound⟩ := hrecord.sound
    have hlength := hsound.length_le
    rw [hsound.holds.length_eq] at hlt
    exact ⟨hitemOf.isUserVote_eq, by omega⟩
  have hnodup := votesAfter_indices_nodup journal.shared.table input.sessionId
  refine ⟨?_, hvotes, h.lasting, ?_, ?_⟩
  · intro item hitem
    obtain ⟨before, stored, hbeginning, hrun, hrevision, hstored⟩ :=
      h.kept _ (mem_tables journal.shared) _ item hitem rfl
    have hlength : before.length = journal.commits.length := by
      have hpresent := h.revision_eq item hitem
      omega
    rw [hbeginning.eq_of_length hlength] at hrun
    rw [hstored, hrun.unique takes_unique h.run]
  · refine length_le_of_indices [0] (hnodup.sublist (List.filter_sublist.map _)) ?_
    intro vote hvote
    obtain ⟨hmem, huser⟩ := List.mem_filter.mp hvote
    rw [(hflags vote hmem).1, decide_eq_true_eq] at huser
    exact List.mem_singleton.mpr huser
  · refine (length_le_of_indices (List.range' 1 Domain.botCount)
      (hnodup.sublist (List.filter_sublist.map _)) ?_).trans (by rw [List.length_range'])
    intro vote hvote
    obtain ⟨hmem, hbot⟩ := List.mem_filter.mp hvote
    obtain ⟨hflag, hle⟩ := hflags vote hmem
    simp only [hflag, Bool.not_eq_true', decide_eq_false_iff_not] at hbot
    rw [List.mem_range'_1]
    omega

variable [DecidableEq ι]

variable (calls) in
/-- RUN: the journal stays in order, and every call that is done has done what its answer says. -/
theorem runVotes_safe (hstart : RecordOf config input voting)
    (hstored : SessionStored U config input voting revision expiry table) (clockMs : ℕ)
    (readAt : ι → Key → ℕ) (schedule : List (ι × Choice)) :
    let final := runSchedule serveVotes ⟨⟨⟨table, clockMs, [], readAt⟩, fun _ => 0, []⟩,
      fun c => (mutateVotes config input.sessionId (calls c)).run⟩ schedule
    JournalOk U config input calls voting revision final.shared ∧
      ∀ c, KeepsVotes U config input calls voting revision c
      (fun result later => CallDone U config input calls voting c result later.commits)
      (final.programs c) final.shared := by
  refine run_safe relies_otherVotes (fun c result _ _ hdone hothers => hdone.later hothers)
    ⟨voting, hstored.journalOf clockMs readAt⟩ ?_ schedule
  intro c
  refine keeps_mutateVotes_from hstart maxConditionalRetries (Nat.le_refl _) ⟨?_, ?_⟩
  · rfl
  · rintro _ ⟨⟩

/-- LINEARIZABLE: whatever the schedule, the votes that are stored are those of the calls' mutations,
    one after the other, and each call has contributed what it answers, once, or nothing. -/
theorem votes_linearize (attempts : List (Attempt U))
    (hstored : SessionStored U config input (votingAfter config.noble config.sha256 input attempts)
      revision expiry table)
    (clockMs : ℕ) (readAt : ι → Key → ℕ) (schedule : List (ι × Choice)) :
    ∃ order voting,
      Linearized U config input calls (votingAfter config.noble config.sha256 input attempts) order
        voting (runSchedule serve
          ⟨⟨table, clockMs, [], readAt⟩, fun c => (mutateVotes config input.sessionId (calls c)).run⟩
        schedule) := by
  have hstart := @record_of_votingAfter U config input attempts
  obtain ⟨⟨voting, hof⟩, hsafe⟩ := runVotes_safe calls hstart hstored clockMs readAt schedule
  have hjournal := runSchedule_journal (⟨⟨table, clockMs, [], readAt⟩, fun _ => 0, []⟩ : VoteJournal ι U)
    (fun c => (mutateVotes config input.sessionId (calls c)).run) schedule
  rw [hjournal]
  refine ⟨_, voting, hof.once, hof.run, hof.votesStored (record_of_run hstart hof.run), ?_⟩
  intro c result hdone
  have hcall := hsafe c
  rw [hdone] at hcall
  exact hcall

end Final

/-- Whether a call has answered with an append. -/
def hasAppended :
    Async (TableRequest U) TableRequest.Answer
      (Except StoreError (Except VoteStoreError SessionVoteMutation)) →
    Option Bool
  | .done (.ok (.ok mutation)) => some (nextVotingOf mutation).isSome
  | _ => none

/-- Two calls with the same vote. -/
def sampleCalls (_ : Bool) : VoteMutationInput where
  command := .appendUserVote (sampleVote (js "1"))
  rounds _ := ⟨sampleDependencies, fun _ => .ofNat 1, fun _ => (Bytes.fill 12 0, Bytes.fill 12 0)⟩

/-- Both read the new record. The second appends, the first finds its condition
    failed and reads again. -/
def sampleRace : Concurrent Bool (SharedTable Bool Empty) (TableRequest Empty) TableRequest.Answer
    (Except StoreError (Except VoteStoreError SessionVoteMutation)) :=
  runSchedule serve
    ⟨⟨commit (createSessionItems sampleSession 300) ∅, 5, [], fun _ _ => 0⟩,
      fun c => (mutateVotes sampleStore sampleSession.sessionId (sampleCalls c)).run⟩
    ((List.replicate 10 true ++ List.replicate 11 false ++ List.replicate 14 true).map
      (·, ⟨0, [], .served, 1⟩))

theorem votes_linearize_on_sample :
    (hasAppended (sampleRace.programs false) = some true ∧
      hasAppended (sampleRace.programs true) = some false) ∧
      ∃ order voting, Linearized Empty sampleStore sampleSession sampleCalls
        (votingAfter sampleStore.noble sampleStore.sha256 sampleSession ([] : List (Attempt Empty)))
        order voting sampleRace :=
  ⟨by decide +kernel, votes_linearize [] (sessionStored_of_created Empty sampleStore sampleSession 300
    fun _ => rfl) 5 _ _⟩

end StarkBallot.AwsAdapters.Dynamo
