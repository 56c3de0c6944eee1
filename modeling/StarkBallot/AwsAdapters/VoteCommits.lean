import StarkBallot.AwsAdapters.VoteJournal
import StarkBallot.AwsAdapters.VoteReloads

/-! Transactions of votes (`persistVoteMutation` of `aws-adapters/src/store/dynamoSessionStore.ts`).
    What a call has read is no snapshot: other calls may have written between two of its reads. But its
    transaction goes through only if the voting item still is the one that was read, and then nothing
    was written since. So the transactions that went through are evaluations of one
    record, one after the other.

        start ──(c, k)──▶ ⋯ ──(d, l)──▶ record            the journal's commits, each evaluated on the record before
          ┊                  ┊
        voting item  ⋯   voting item, one item a vote     what the tables hold

    An evaluation is named by its call and the number of its round. -/

namespace StarkBallot.AwsAdapters.Dynamo
open Schemes ContractCore CryptoPrimitives Domain Application

variable {U ι : Type}

/-! ### One after the other -/

section Order

variable (U) (config : StoreConfig) (input : SessionCreationInput) (calls : ι → VoteMutationInput)

/-- What a call evaluates in one of its rounds, in a session that is not finalized. -/
def attemptOf (commit : ι × ℕ) : Attempt U :=
  ⟨(calls commit.1).command, ((calls commit.1).rounds commit.2).dependencies, none⟩

/-- `evaluateSessionVoteMutation` makes the mutation of the record. -/
def EvaluatesTo (voting : SessionVotingRecord) (commit : ι × ℕ) (mutation : SessionVoteMutation) :
    Prop :=
  (evaluate config.noble config.sha256 (buildSessionRecords input).1 voting
    (attemptOf U calls commit)).1 = .ok (.ok mutation)

/-- The evaluation appends votes. -/
def Takes (voting : SessionVotingRecord) (commit : ι × ℕ) (next : SessionVotingRecord) : Prop :=
  ∃ mutation, EvaluatesTo U config input calls voting commit mutation ∧ nextVotingOf mutation = some next

/-- A sound record of the session. -/
structure RecordOf (voting : SessionVotingRecord) : Prop where
  sound : ∃ entries, Sound config.noble config.sha256 input.electionId entries voting
  sessionId_eq : voting.sessionId = input.sessionId
  logId_eq : voting.bulletin.logId = input.logId

variable {U config input calls} {voting next : SessionVotingRecord} {commit : ι × ℕ}

theorem takes_unique (voting : SessionVotingRecord) (commit : ι × ℕ) (next next' : SessionVotingRecord)
    (h : Takes U config input calls voting commit next)
    (h' : Takes U config input calls voting commit next') : next = next' := by
  obtain ⟨mutation, heval, hnext⟩ := h
  obtain ⟨mutation', heval', hnext'⟩ := h'
  obtain rfl : mutation = mutation' := Except.ok.inj (Except.ok.inj (heval.symm.trans heval'))
  exact Option.some.inj (hnext.symm.trans hnext')

theorem Takes.submit_eq (h : Takes U config input calls voting commit next) :
    submit config.noble config.sha256 (buildSessionRecords input).1 voting
      (attemptOf U calls commit) = next := by
  obtain ⟨mutation, heval, hnext⟩ := h
  unfold EvaluatesTo at heval
  unfold submit
  generalize evaluate config.noble config.sha256 (buildSessionRecords input).1 voting
    (attemptOf U calls commit) = outcome at heval
  obtain ⟨result, authority⟩ := outcome
  dsimp only at heval
  rw [heval]
  dsimp only
  rw [hnext, Option.getD_some]

/-- STEP: a record is followed by one with its votes and more. -/
theorem Takes.record (h : Takes U config input calls voting commit next)
    (hrecord : RecordOf config input voting) :
    RecordOf config input next ∧ voting.votes <+: next.votes := by
  obtain ⟨entries, hsound⟩ := hrecord.sound
  have hsubmit := h.submit_eq
  obtain ⟨added, stored, hnext, hvotes⟩ := @submit_sound config.noble config.sha256 U entries
    (buildSessionRecords input).1 voting hsound (attemptOf U calls commit)
  have hsession :=
    @submit_session config.noble config.sha256 U entries (buildSessionRecords input).1 voting hsound
    (attemptOf U calls commit)
  rw [hsubmit] at hnext hvotes hsession
  exact ⟨⟨⟨_, hnext⟩, hsession.sessionId_eq.trans hrecord.sessionId_eq,
    hsession.logId_eq.trans hrecord.logId_eq⟩, stored, hvotes.symm⟩

/-- RUN: so are all records on the way. -/
theorem record_of_run {start : SessionVotingRecord} {commits : List (ι × ℕ)}
    (hstart : RecordOf config input start)
    (h : Serial (Takes U config input calls) start commits voting) : RecordOf config input voting :=
  h.keeps hstart fun _ _ _ hrecord htakes => (htakes.record hrecord).1

/-- A session reached by any attempts. -/
theorem record_of_votingAfter (attempts : List (Attempt U)) :
    RecordOf config input (votingAfter config.noble config.sha256 input attempts) := by
  obtain ⟨hsession, hlog⟩ := @votingAfter_session config.noble config.sha256 U input attempts
  exact ⟨votingAfter_sound input attempts, hsession, hlog⟩

/-- The history of a record has a root for each vote. -/
theorem RecordOf.history_length (h : RecordOf config input voting) :
    voting.bulletinRootHistory.length = voting.votes.length := by
  obtain ⟨entries, hsound⟩ := h.sound
  rw [hsound.snapshots.length_eq, hsound.holds.length_eq]

/-- The votes of a record have their own indices. -/
theorem RecordOf.get (h : RecordOf config input voting) {i index : ℕ} {vote : StoredVoteRecord}
    (hvote : voting.votes[i]? = some (index, vote)) : index = i := by
  obtain ⟨entries, hsound⟩ := h.sound
  obtain ⟨_, -, hindex, -⟩ := hsound.holds.get hvote
  exact hindex

end Order

/-! ### What the tables hold -/

section Invariant

variable (U) (config : StoreConfig) (input : SessionCreationInput) (calls : ι → VoteMutationInput)
  (start : SessionVotingRecord) (revision : ℕ)

/-- What an item of the session says after some commits: the identity, a record on the
    way, a vote of the record. -/
def Kept (commits : List (ι × ℕ)) (voting : SessionVotingRecord) : (key : Key) → Item U key → Prop
  | .identity sessionId, item =>
    sessionId = input.sessionId → item.identity = (buildSessionRecords input).1
  | .voting sessionId, item => sessionId = input.sessionId → ∃ before stored, before <+: commits ∧
      Serial (Takes U config input calls) start before stored ∧
      item.revision = revision + before.length ∧
      item.record = toPersistedVotingRecord stored
  | .vote sessionId i, item => sessionId = input.sessionId → ∃ vote, voting.votes[i]? = some (i, vote) ∧
      ItemOf config.cipher i vote item.1
  | _, _ => True

/-- The keys of a session's items when it has some number of votes. -/
def sessionKeys (sessionId : JsString) (votes : ℕ) : List Key :=
  .identity sessionId :: .voting sessionId :: (List.range votes).map (.vote sessionId)

variable {U} in
/-- The item is there until it expires. -/
def LastsUntil (expiry clockMs : ℕ) (key : Key) (item : Option (Item U key)) : Prop :=
  match item with
  | some item => expiresAt key item = some expiry
  | none => expiry ≤ clockMs / 1000

/-- The tables hold the record that the journal's commits have made, one item of it after the other. -/
structure JournalOf (voting : SessionVotingRecord) (journal : VoteJournal ι U) : Prop where
  once : (journal.commits.map Prod.fst).Nodup
  run : Serial (Takes U config input calls) start journal.commits voting
  kept : ∀ table ∈ journal.shared.tables, ∀ key item, table.lookup key = some item →
    Kept U config input calls start revision journal.commits voting key item
  revision_eq : ∀ item, journal.shared.table.lookup (.voting input.sessionId) = some item →
    item.revision = revision + journal.commits.length
  lasting : ∃ expiry, ∀ key ∈ sessionKeys input.sessionId voting.votes.length,
    LastsUntil expiry journal.shared.clockMs key (journal.shared.table.lookup key)

def JournalOk (journal : VoteJournal ι U) : Prop :=
  ∃ voting, JournalOf U config input calls start revision voting journal

variable {U config input calls start revision}

/-- An item lasts while time passes and expired items are removed. -/
theorem LastsUntil.prepare {expiry : ℕ} {key : Key} {s : SharedTable ι U}
    (h : LastsUntil expiry s.clockMs key (s.table.lookup key)) (choice : Choice) :
    LastsUntil expiry (s.prepare choice).clockMs key ((s.prepare choice).table.lookup key) := by
  have hclock : s.clockMs / 1000 ≤ (s.prepare choice).clockMs / 1000 :=
    Nat.div_le_div_right (grows_prepare s choice).clock
  rcases lookup_prepare s choice key with hkept | ⟨hremoved, hexpired⟩
  · rw [hkept]
    cases hitem : s.table.lookup key with
    | none =>
      rw [hitem] at h
      exact h.trans hclock
    | some item =>
      rw [hitem] at h
      exact h
  · rw [hremoved]
    cases hitem : s.table.lookup key with
    | none =>
      rw [hitem] at h
      exact h.trans hclock
    | some item =>
      rw [hitem] at h hexpired
      rw [Option.any_some, isExpiredItem, show expiresAt key item = some expiry from h, Option.any_some,
        decide_eq_true_eq] at hexpired
      exact hexpired

theorem JournalOf.prepared {voting : SessionVotingRecord} {journal : VoteJournal ι U}
    (h : JournalOf U config input calls start revision voting journal) (choice : Choice) :
    JournalOf U config input calls start revision voting
      { journal with shared := journal.shared.prepare choice } where
  once := h.once
  run := h.run
  kept := by
    intro table htable key item hitem
    rcases mem_tables_prepare htable with htable | rfl
    · exact h.kept table htable key item hitem
    · rcases lookup_prepare journal.shared choice key with hkept | ⟨hremoved, -⟩
      · exact h.kept _ (mem_tables journal.shared) key item (hkept ▸ hitem)
      · cases hremoved.symm.trans hitem
  revision_eq := by
    intro item hitem
    rcases lookup_prepare journal.shared choice (.voting input.sessionId) with hkept | ⟨hremoved, -⟩
    · exact h.revision_eq item (hkept ▸ hitem)
    · cases hremoved.symm.trans hitem
  lasting := by
    obtain ⟨expiry, hlasting⟩ := h.lasting
    exact ⟨expiry, fun key hkey => (hlasting key hkey).prepare choice⟩

/-! ### A transaction that goes through -/

section Commit

variable {voting next : SessionVotingRecord} {journal : VoteJournal ι U}
    {authority : SessionTtlAuthority} {c : ι}

/-- The votes that were read are the items of the record. -/
theorem items_of_seen (h : JournalOf U config input calls start revision voting journal)
    (hseen : AuthoritySeen input.sessionId authority journal.shared)
    (hcount : authority.voting.record.bulletinRootHistory.length = voting.votes.length) :
    ∃ items, ItemsOf config.cipher voting.votes items ∧ authority.votes.Perm items := by
  obtain ⟨items, hrange, hperm⟩ :
      Relation.Comp (fun indices (items : List VoteItem) => indices = items.map (·.voteIndex))
      List.Perm (List.range voting.votes.length) authority.votes := by
    rw [List.eq_map_comp_perm, ← hcount]
    exact hseen.votes.symm
  have hlength : items.length = voting.votes.length := by
    have hcounts := congrArg List.length hrange
    rwa [List.length_range, List.length_map, eq_comm] at hcounts
  refine ⟨items, List.forall₂_iff_get.mpr ⟨hlength.symm, ?_⟩, hperm.symm⟩
  intro k hk hk'
  have hitem : items[k] ∈ authority.votes := hperm.mem_iff.mp (List.getElem_mem hk')
  have hindex : items[k].voteIndex = k := by
    have hat := congrArg (·[k]?) hrange
    simpa [hk, hk'] using hat.symm
  obtain ⟨own, table, htable, hlookup⟩ := hseen.items _ hitem
  obtain ⟨vote, hvote, hitemOf⟩ := h.kept table htable _ _ hlookup rfl
  replace hitemOf : ItemOf config.cipher items[k].voteIndex vote items[k] := hitemOf
  rw [hindex] at hvote hitemOf
  obtain ⟨_, hget⟩ := List.getElem?_eq_some_iff.mp hvote
  rw [List.get_eq_getElem, List.get_eq_getElem, hget]
  exact hitemOf

/-- The voting item that the transaction is conditioned on. -/
theorem current_of_condition {nonces : ℕ → Nonces} {table : AList (Item U)}
    (hconditions : conditionsHold (voteMutationItems config input.sessionId authority nonces next)
      table = true) :
    ∃ item, table.lookup (.voting input.sessionId) = some item ∧ matchVoting authority item = true := by
  have hmem : putItem (.voting input.sessionId)
      ⟨toPersistedVotingRecord next, authority.voting.revision + 1, authority.expiresAt⟩
      (fun item => item.any (matchVoting authority)) ∈
        voteMutationItems (U := U) config input.sessionId authority nonces next := by
    simp [voteMutationItems]
  have hcondition := condition_of_mem hconditions hmem
  obtain ⟨item, hitem, hmatch⟩ := (Option.any_eq_true _ _).mp hcondition
  exact ⟨item, hitem, hmatch⟩

/-- TORN READS: if the voting item still is the one that was read, the call has
    read the present record. -/
theorem read_current (h : JournalOf U config input calls start revision voting journal)
    (hseen : AuthoritySeen input.sessionId authority journal.shared) {item : VotingItem}
    (hitem : journal.shared.table.lookup (.voting input.sessionId) = some item)
    (hmatch : matchVoting authority item = true) :
    authority.identity.identity = (buildSessionRecords input).1 ∧
      authority.voting.revision = revision + journal.commits.length ∧
      ∃ history, voting.bulletinRootHistory.mapM parseRootSnapshot = some history ∧
        authority.voting.record =
          { toPersistedVotingRecord voting with bulletinRootHistory := history } := by
  rw [matchVoting, Bool.and_eq_true, decide_eq_true_eq, decide_eq_true_eq] at hmatch
  have hrevision := hmatch.1.symm.trans (h.revision_eq item hitem)
  obtain ⟨rawIdentity, ⟨table, htable, hlookup⟩, hparseIdentity⟩ := hseen.identity
  obtain ⟨rawVoting, ⟨table', htable', hlookup'⟩, hparse⟩ := hseen.voting
  obtain ⟨-, rfl⟩ := accept_eq_some.mp hparseIdentity
  obtain ⟨history, hvoting, hhistory⟩ := parseVotingItem_eq_some hparse
  obtain ⟨before, stored, ⟨after, happend⟩, hrun, hbefore, hrecord⟩ :=
    h.kept table' htable' _ _ hlookup' rfl
  -- the revision tells how many commits were there when the record was read
  have hnone : after = [] := by
    have hsame : rawVoting.revision = authority.voting.revision := by rw [hvoting]
    have hcount := congrArg List.length happend
    rw [List.length_append] at hcount
    exact List.length_eq_zero_iff.mp (by omega)
  subst hnone
  rw [List.append_nil] at happend
  rw [happend] at hrun
  obtain rfl : stored = voting := hrun.unique takes_unique h.run
  refine ⟨h.kept table htable _ _ hlookup rfl, hrevision, history, ?_, ?_⟩
  · rw [hrecord] at hhistory
    exact hhistory
  · rw [hvoting]
    dsimp only
    rw [hrecord]

/-- So the mutation that it evaluated is one of the present record. -/
theorem evaluatesTo_of_seen (h : JournalOf U config input calls start revision voting journal)
    (hrecord : RecordOf config input voting) {authority : VoteMutationAuthority U} {boardClock : ℕ → Num}
    (hauthority : MutationAuthoritySeen config input.sessionId boardClock authority journal.shared)
    {item : VotingItem} (hitem : journal.shared.table.lookup (.voting input.sessionId) = some item)
    (hmatch : matchVoting authority.ttl item = true) {k : ℕ} {mutation : SessionVoteMutation}
    (heval : evaluateStoredVoteCommand config authority (calls c).command
      ((calls c).rounds k).dependencies =
      .ok (.ok mutation)) (hnext : (nextVotingOf mutation).isSome = true) :
    EvaluatesTo U config input calls voting (c, k) mutation := by
  obtain ⟨hidentity, -, history, hhistory, hread⟩ := read_current h hauthority.seen hitem hmatch
  obtain ⟨entries, hsound⟩ := hrecord.sound
  have hcount : authority.ttl.voting.record.bulletinRootHistory.length = voting.votes.length := by
    rw [hread, ← hrecord.history_length]
    exact (forall₂_of_mapM_eq_some hhistory).length_eq.symm
  obtain ⟨items, hitems, hperm⟩ := items_of_seen h hauthority.seen hcount
  have hrestored := hauthority.restored
  rw [hread, hidentity] at hrestored
  have hsession : voting.sessionId = (buildSessionRecords input).1.sessionId := hrecord.sessionId_eq
  have hlog : voting.bulletin.logId = (buildSessionRecords input).1.logId := hrecord.logId_eq
  obtain ⟨hrestoredSound, halike⟩ := reload_alike hsound hsession hlog hitems hperm hhistory hrestored
  unfold evaluateStoredVoteCommand at heval
  rw [hidentity] at heval
  rcases hpair : evaluate config.noble config.sha256 (buildSessionRecords input).1 authority.voting
    ⟨(calls c).command, ((calls c).rounds k).dependencies, authority.finalization⟩ with ⟨result, left⟩
  rw [hpair] at heval
  dsimp only at heval
  subst heval
  obtain ⟨-, hadmits⟩ := admits_of_evaluate hrestoredSound hpair hnext
  have hadmitsHere := halike.admits hadmits
  rw [EvaluatesTo, attemptOf]
  exact congrArg Prod.fst hadmitsHere.evaluate_eq

/-- What was kept is kept after further commits. -/
theorem Kept.later {commits commits' : List (ι × ℕ)} {key : Key} {item : Item U key}
    (h : Kept U config input calls start revision commits voting key item)
    (hcommits : commits <+: commits') (hvotes : voting.votes <+: next.votes) :
    Kept U config input calls start revision commits' next key item := by
  cases key with
  | identity sessionId => exact h
  | voting sessionId =>
    intro hsession
    obtain ⟨before, stored, hbefore, hrest⟩ := h hsession
    exact ⟨before, stored, hbefore.trans hcommits, hrest⟩
  | vote sessionId i =>
    intro hsession
    obtain ⟨vote, hvote, hitem⟩ := h hsession
    obtain ⟨more, hmore⟩ := hvotes
    obtain ⟨hlt, -⟩ := List.getElem?_eq_some_iff.mp hvote
    exact ⟨vote, by rw [← hmore, List.getElem?_append_left hlt, hvote], hitem⟩
  | _ => trivial

/-- A new vote of a record, as an item. -/
theorem RecordOf.itemOf (hrecord : RecordOf config input next) {i : ℕ} {vote : StoredVoteRecord}
    (hvote : next.votes[i]? = some (i, vote)) (nonces : Nonces) (sessionId : JsString) (expiresAt : ℕ) :
    ItemOf config.cipher i vote
      (toVoteItem config.cipher nonces sessionId i vote (next.userParticipation = .cast i)
        expiresAt) := by
  obtain ⟨entries, hsound⟩ := hrecord.sound
  have hpos : 0 < entries.length := by
    rw [← hsound.holds.length_eq]
    exact List.length_pos_of_mem (List.mem_of_getElem? hvote)
  have hflag : decide (next.userParticipation = .cast i) = decide (i = 0) := by
    rw [hsound.cast_zero hpos]
    simp [eq_comm]
  rw [hflag]
  exact toVoteItem_itemOf _ _ _ _ _

/-- The items of the transaction are those of the next record. -/
theorem kept_commit (h : JournalOf U config input calls start revision voting journal)
    (hrecord : RecordOf config input voting) {commit : ι × ℕ}
    (htakes : Takes U config input calls voting commit next)
    (hrevision : authority.voting.revision = revision + journal.commits.length) {nonces : ℕ → Nonces}
    (hkeys : (keysOf (voteMutationItems (U := U) config input.sessionId authority nonces next)).Nodup)
    (key : Key) (item : Item U key)
    (hitem : (Schemes.commit (voteMutationItems config input.sessionId authority nonces next)
      journal.shared.table).lookup key = some item) :
    Kept U config input calls start revision (journal.commits ++ [commit]) next key item := by
  obtain ⟨hnext, hvotes⟩ := htakes.record hrecord
  have hold : ∀ key item, journal.shared.table.lookup key = some item →
      Kept U config input calls start revision (journal.commits ++ [commit]) next key item := by
    intro key item hitem
    exact (h.kept _ (mem_tables journal.shared) key item hitem).later (List.prefix_append _ _) hvotes
  refine commit_keeps (P := fun key found => ∀ item, found = some item →
    Kept U config input calls start revision (journal.commits ++ [commit]) next key item) hkeys hold ?_
      key item hitem
  intro action haction
  simp only [voteMutationItems, buildSessionTtlUpdates, List.mem_append, List.mem_cons,
    List.not_mem_nil, or_false, List.mem_map] at haction
  rcases haction with ((rfl | ⟨vote, -, rfl⟩) | rfl | rfl) | ⟨⟨i, vote⟩, hvote, rfl⟩
  · rintro item hupdated
    obtain ⟨before, hbefore, rfl⟩ := Option.map_eq_some_iff.mp hupdated
    exact hold _ before hbefore
  · rintro item hupdated
    obtain ⟨before, hbefore, rfl⟩ := Option.map_eq_some_iff.mp hupdated
    intro hsession
    obtain ⟨stored, hstored, hitemOf⟩ := hold _ before hbefore hsession
    exact ⟨stored, hstored, { hitemOf with }⟩
  · rintro _ ⟨⟩ -
    refine ⟨journal.commits ++ [commit], next, List.prefix_refl _, h.run.snoc htakes, ?_, rfl⟩
    rw [hrevision, List.length_append, List.length_singleton, Nat.add_assoc]
  · intro item hupdated
    exact hold _ item hupdated
  · rintro _ ⟨⟩ -
    obtain ⟨k, hk⟩ := List.getElem?_of_mem (List.mem_filter.mp hvote).1
    obtain rfl := hnext.get hk
    exact ⟨vote, hk, hnext.itemOf hk _ _ _⟩

/-- What an action leaves is what its transaction leaves. -/
theorem lasts_of_action {items : List (TransactItem (Item U))} {table : AList (Item U)}
    {expiry clockMs : ℕ} (hkeys : (keysOf items).Nodup) {action : TransactItem (Item U)}
    (haction : action ∈ items)
    (heffect : LastsUntil expiry clockMs action.key (action.effect (table.lookup action.key))) :
    LastsUntil expiry clockMs action.key ((Schemes.commit items table).lookup action.key) := by
  rw [lookup_commit_of_mem hkeys haction]
  exact heffect

/-- An update that goes through finds its item. -/
theorem found_of_update {items : List (TransactItem (Item U))} {table : AList (Item U)} {key : Key}
    {update : Item U key → Item U key} {condition : Item U key → Bool}
    (hconditions : conditionsHold items table = true)
    (hupdate : updateItem key update condition ∈ items) : ∃ item, table.lookup key = some item := by
  obtain ⟨item, hitem, -⟩ := (Option.any_eq_true _ _).mp (condition_of_mem hconditions hupdate)
  exact ⟨item, hitem⟩

/-- All items of the session get one expiry. -/
theorem lasting_commit {nonces : ℕ → Nonces} {table : AList (Item U)} {votes : ℕ}
    (hnext : RecordOf config input next)
    (hperm : (authority.votes.map (·.voteIndex)).Perm (List.range votes))
    (hcount : authority.voting.record.bulletinRootHistory.length = votes)
    (hkeys : (keysOf (voteMutationItems (U := U) config input.sessionId authority nonces next)).Nodup)
    (hconditions : conditionsHold (voteMutationItems config input.sessionId authority nonces next)
      table = true) (clockMs : ℕ) (key : Key)
    (hkey : key ∈ sessionKeys input.sessionId next.votes.length) :
    LastsUntil authority.expiresAt clockMs key
      ((Schemes.commit (voteMutationItems config input.sessionId authority nonces next) table).lookup
        key) := by
  simp only [sessionKeys, List.mem_cons, List.mem_map, List.mem_range] at hkey
  rcases hkey with rfl | rfl | ⟨i, hi, rfl⟩
  · have haction : updateIdentityTtl input.sessionId authority authority.expiresAt ∈
        voteMutationItems (U := U) config input.sessionId authority nonces next := by
      simp [voteMutationItems, buildSessionTtlUpdates]
    obtain ⟨item, hitem⟩ := found_of_update hconditions haction
    refine lasts_of_action hkeys haction ?_
    simp only [updateIdentityTtl, updateItem, hitem, Option.map_some]
    rfl
  · have haction : putItem (.voting input.sessionId)
        ⟨toPersistedVotingRecord next, authority.voting.revision + 1, authority.expiresAt⟩
        (fun item => item.any (matchVoting authority)) ∈
          voteMutationItems (U := U) config input.sessionId authority nonces next := by
      simp [voteMutationItems]
    exact lasts_of_action hkeys haction rfl
  · by_cases hold : i < votes
    · have hindex : i ∈ authority.votes.map (·.voteIndex) := hperm.mem_iff.mpr (List.mem_range.mpr hold)
      obtain ⟨vote, hvote, rfl⟩ := List.mem_map.mp hindex
      have haction : updateVoteTtl input.sessionId authority.expiresAt vote ∈
          voteMutationItems (U := U) config input.sessionId authority nonces next := by
        refine List.mem_append_left _ (List.mem_append_left _ (List.mem_cons_of_mem _ ?_))
        exact List.mem_map_of_mem hvote
      obtain ⟨item, hitem⟩ := found_of_update hconditions haction
      refine lasts_of_action hkeys haction ?_
      simp only [updateVoteTtl, updateItem, hitem, Option.map_some]
      rfl
    · obtain ⟨⟨index, vote⟩, hvote⟩ : ∃ entry, next.votes[i]? = some entry :=
        ⟨_, List.getElem?_eq_getElem hi⟩
      obtain rfl := hnext.get hvote
      have haction : putVote config input.sessionId nonces next authority.expiresAt (index, vote) ∈
          voteMutationItems (U := U) config input.sessionId authority nonces next := by
        refine List.mem_append_right
          _ (List.mem_map_of_mem (List.mem_filter.mpr ⟨List.mem_of_getElem? hvote, ?_⟩))
        rw [hcount, decide_eq_true_eq]
        exact Nat.not_lt.mp hold
      exact lasts_of_action hkeys haction rfl

/-- COMMIT: the journal stays in order with one commit more. -/
theorem JournalOf.committed (h : JournalOf U config input calls start revision voting journal)
    (hrecord : RecordOf config input voting) {sent : ℕ}
    (htakes : Takes U config input calls voting (c, sent) next)
    (huncommitted : ∀ commit ∈ journal.commits, commit.1 ≠ c)
    (hseen : AuthoritySeen input.sessionId authority journal.shared) {nonces : ℕ → Nonces}
    (hkeys : (keysOf (voteMutationItems (U := U) config input.sessionId authority nonces next)).Nodup)
    (hconditions : conditionsHold (voteMutationItems config input.sessionId authority nonces next)
      journal.shared.table = true) (counts : ι → ℕ) :
    JournalOf U config input calls start revision next
      ⟨journal.shared.put (Schemes.commit
        (voteMutationItems config input.sessionId authority nonces next)
        journal.shared.table), counts, journal.commits ++ [(c, sent)]⟩ := by
  obtain ⟨item, hitem, hmatch⟩ := current_of_condition hconditions
  obtain ⟨-, hrevision, history, hhistory, hread⟩ := read_current h hseen hitem hmatch
  have hcount : authority.voting.record.bulletinRootHistory.length = voting.votes.length := by
    rw [hread, ← hrecord.history_length]
    exact (forall₂_of_mapM_eq_some hhistory).length_eq.symm
  obtain ⟨hnext, hvotes⟩ := htakes.record hrecord
  have hkept := kept_commit h hrecord htakes hrevision hkeys
  refine ⟨?_, h.run.snoc htakes, ?_, ?_, ?_⟩
  · rw [List.map_append, List.nodup_append]
    refine ⟨h.once, List.nodup_singleton c, ?_⟩
    rintro d hd d' hd' rfl
    obtain ⟨commit, hcommit, hwho⟩ := List.mem_map.mp hd
    exact huncommitted commit hcommit (hwho.trans (List.mem_singleton.mp hd'))
  · intro table htable key item hitem
    rcases List.mem_append.mp htable with htable | htable
    · exact (h.kept table htable key item hitem).later (List.prefix_append _ _) hvotes
    · obtain rfl := List.mem_singleton.mp htable
      exact hkept key item hitem
  · intro item hitem
    have haction : putItem (.voting input.sessionId)
        ⟨toPersistedVotingRecord next, authority.voting.revision + 1, authority.expiresAt⟩
        (fun item => item.any (matchVoting authority)) ∈
          voteMutationItems (U := U) config input.sessionId authority nonces next := by
      simp [voteMutationItems]
    have hwritten := lookup_commit_of_mem hkeys haction journal.shared.table
    rw [← Option.some.inj (hwritten.symm.trans hitem)]
    rw [hrevision, List.length_append, List.length_singleton, Nat.add_assoc]
  · exact ⟨authority.expiresAt, lasting_commit hnext (hcount ▸ hseen.votes) hcount hkeys hconditions _⟩

end Commit

variable [DecidableEq ι]

theorem keepsReading_journalOk :
    KeepsReading (JournalOk (ι := ι) U config input calls start revision) where
  prepared := by
    rintro journal choice ⟨voting, h⟩
    exact ⟨voting, h.prepared choice⟩
  noted := by
    rintro journal c key ⟨voting, h⟩
    exact ⟨voting, ⟨h.once, h.run, h.kept, h.revision_eq, h.lasting⟩⟩

end Invariant

end StarkBallot.AwsAdapters.Dynamo
