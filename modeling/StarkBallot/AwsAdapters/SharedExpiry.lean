import StarkBallot.AwsAdapters.CommitCalls
import StarkBallot.AwsAdapters.RestoredRecords
import StarkBallot.AwsAdapters.VoteLinearization

/-! The expiry of a session (`buildSessionTtlUpdates`, `buildArtifactTtlUpdatePlan` of
    `aws-adapters/src/store/dynamoSessionStore.ts`). Votes, touches, transitions of the finalization and
    commits all give the items of the session a new expiry, worked out from reads that are no snapshot.
    They are conditioned on the voting item that was read; its revision tells whether a vote came in
    between, so each of them finds every vote there is.

        identity ── voting ── vote 0 ⋯ vote n - 1        one expiry, n roots in the history
           │          │          │
           ▼          ▼          ▼                       a transaction: no shorter expiry, n' ≥ n
        identity ── voting ── vote 0 ⋯ vote n' - 1 -/

namespace StarkBallot.AwsAdapters.Dynamo
open Schemes ContractCore CryptoPrimitives Domain Application

variable {U ι : Type}

/-! ### What the items share -/

/-- The items that are the session itself. -/
def isSessionKey (sessionId : JsString) : Key → Bool
  | .identity owner => owner = sessionId
  | .voting owner => owner = sessionId
  | .vote owner _ => owner = sessionId
  | _ => false

section View

variable (sessionId : JsString) (lost : Prop)

/-- All items of the session have one expiry, the longest so far; there is a vote for each root of the
    history, and what is missing was lost after its expiry. -/
structure SharesExpiry (votes expiry : ℕ) (s : SharedTable ι U) : Prop where
  shared : ∀ key item, isSessionKey sessionId key = true → s.table.lookup key = some item →
    expiresAt key item = some expiry
  history : ∀ item, s.table.lookup (.voting sessionId) = some item →
    item.record.bulletinRootHistory.length = votes
  indices : ∀ i, (s.table.lookup (.vote sessionId i)).isSome = true → i < votes
  kept : ∀ key ∈ sessionKeys sessionId votes, s.table.lookup key = none →
    lost ∧ expiry ≤ s.clockMs / 1000
  longest : ∀ key item, isSessionKey sessionId key = true → Seen s key item →
    (expiresAt key item).all (· ≤ expiry) = true

/-- What every voting item so far tells of the present one. -/
structure InStep (revision votes expiry : ℕ) (s : SharedTable ι U) : Prop
    extends SharesExpiry sessionId lost votes expiry s where
  current : ∀ item, s.table.lookup (.voting sessionId) = some item → item.revision = revision
  past : ∀ item, Seen s (.voting sessionId) item → item.revision ≤ revision ∧
    (item.revision = revision → item.record.bulletinRootHistory.length = votes) ∧
    item.record.botCount ≤ Domain.botCount

def SessionOk (s : SharedTable ι U) : Prop :=
  ∃ revision votes expiry, InStep sessionId lost revision votes expiry s

end View

variable {sessionId : JsString} {lost : Prop} {revision votes expiry : ℕ}
    {s s' : SharedTable ι U} {c : ι}

theorem isSessionKey_of_mem {key : Key} (h : key ∈ sessionKeys sessionId votes) :
    isSessionKey sessionId key = true := by
  simp only [sessionKeys, List.mem_cons, List.mem_map] at h
  rcases h with rfl | rfl | ⟨i, -, rfl⟩ <;> exact decide_eq_true rfl

/-! ### Time -/

theorem seen_prepare {choice : Choice} {key : Key} {item : Item U key}
    (h : Seen (s.prepare choice) key item) :
    Seen s key item := by
  obtain ⟨table, htable, hlookup⟩ := h
  rcases mem_tables_prepare htable with htable | rfl
  · exact ⟨table, htable, hlookup⟩
  · rcases lookup_prepare s choice key with hkept | ⟨hremoved, -⟩
    · exact seen_of_lookup (hkept ▸ hlookup)
    · cases hremoved.symm.trans hlookup

/-- TIME: the items share their expiry while time passes and expired ones are removed. -/
theorem InStep.prepared (h : InStep sessionId lost revision votes expiry s) {choice : Choice}
    (hlost : choice.removed ≠ [] → lost) :
    InStep sessionId lost revision votes expiry (s.prepare choice) := by
  have hclock : s.clockMs / 1000 ≤ (s.prepare choice).clockMs / 1000 :=
    Nat.div_le_div_right (grows_prepare s choice).clock
  have hback : ∀ key item, (s.prepare choice).table.lookup key = some item →
      s.table.lookup key = some item := by
    intro key item hitem
    rcases lookup_prepare s choice key with hkept | ⟨hremoved, -⟩
    · exact hkept ▸ hitem
    · cases hremoved.symm.trans hitem
  refine ⟨⟨?_, ?_, ?_, ?_, ?_⟩, ?_, ?_⟩
  · intro key item hkey hitem
    exact h.shared key item hkey (hback key item hitem)
  · intro item hitem
    exact h.history item (hback _ item hitem)
  · intro i hvote
    obtain ⟨item, hitem⟩ := Option.isSome_iff_exists.mp hvote
    exact h.indices i (by rw [hback _ item hitem]; rfl)
  · intro key hkey hnone
    cases hitem : s.table.lookup key with
    | none =>
      obtain ⟨hlost, hexpired⟩ := h.kept key hkey hitem
      exact ⟨hlost, hexpired.trans hclock⟩
    | some item =>
      rcases lookup_prepare s choice key with hkept | ⟨-, hexpired⟩
      · cases hnone.symm.trans (hkept.trans hitem)
      · refine ⟨hlost ?_, ?_⟩
        · intro hnothing
          rw [(tables_prepare_of_kept hnothing s).1, hitem] at hnone
          cases hnone
        · rw [hitem, Option.any_some, isExpiredItem, h.shared key item (isSessionKey_of_mem hkey) hitem,
            Option.any_some, decide_eq_true_eq] at hexpired
          exact hexpired
  · intro key item hkey hseen
    exact h.longest key item hkey (seen_prepare hseen)
  · intro item hitem
    exact h.current item (hback _ item hitem)
  · intro item hseen
    exact h.past item (seen_prepare hseen)

/-! ### Transactions -/

section Transactions

variable (sessionId) (authority : SessionTtlAuthority)

/-- What a transaction leaves of the voting item that was read. -/
def WritesVoting (expiresAt votes : ℕ) (items : List (TransactItem (Item U))) : Prop :=
  (∃ record : PersistedVotingRecord, record.bulletinRootHistory.length = votes ∧
      record.botCount ≤ Domain.botCount ∧
      putItem (.voting sessionId) ⟨record, authority.voting.revision + 1, expiresAt⟩
        (fun item => item.any (matchVoting authority)) ∈ items) ∨
    votes = authority.voting.record.bulletinRootHistory.length ∧
      updateVotingTtl sessionId authority expiresAt ∈ items

/-- A transaction that writes one expiry to all items of the session, and votes
    after those that were read. -/
structure Refreshes (expiresAt votes : ℕ) (items : List (TransactItem (Item U))) : Prop where
  long : authority.expiresAt ≤ expiresAt
  grown : authority.voting.record.bulletinRootHistory.length ≤ votes
  ttl : ∀ action ∈ buildSessionTtlUpdates sessionId authority expiresAt, action ∈ items
  voting : WritesVoting sessionId authority expiresAt votes items
  new : ∀ i, authority.voting.record.bulletinRootHistory.length ≤ i → i < votes →
    ∃ (vote : VoteItemAt sessionId i) (condition : Option (VoteItemAt sessionId i) → Bool),
      vote.1.expiresAt = expiresAt ∧ putItem (.vote sessionId i) vote condition ∈ items
  only : ∀ key ∈ keysOf items, isSessionKey sessionId key = true → key ∈ sessionKeys sessionId votes

variable {sessionId authority} {newExpiry newVotes : ℕ} {items : List (TransactItem (Item U))}

/-- The expiry is no shorter than that of the voting item. -/
theorem le_expiresAt (authority : SessionTtlAuthority) :
    authority.voting.expiresAt ≤ authority.expiresAt := by
  unfold SessionTtlAuthority.expiresAt
  have hfold : ∀ (expiries : List ℕ) (start : ℕ), start ≤ expiries.foldl max start := by
    intro expiries
    induction expiries with
    | nil => exact fun start => Nat.le_refl start
    | cons expiry expiries ih => exact fun start => (Nat.le_max_left start expiry).trans (ih _)
  exact (Nat.le_max_right _ _).trans (hfold _ _)

/-- The voting item that a transaction goes through on is the one that was read. -/
theorem Refreshes.current (h : Refreshes sessionId authority newExpiry newVotes items)
    {table : AList (Item U)} (hconditions : conditionsHold items table = true) :
    ∃ item, table.lookup (.voting sessionId) = some item ∧ matchVoting authority item = true := by
  rcases h.voting with ⟨record, -, -, hput⟩ | ⟨-, hupdate⟩
  · exact (Option.any_eq_true _ _).mp (condition_of_mem hconditions hput)
  · exact (Option.any_eq_true _ _).mp (condition_of_mem hconditions hupdate)

/-- An item of the session after the transaction. -/
theorem Refreshes.lookup (h : Refreshes sessionId authority newExpiry newVotes items)
    (hvotes : (authority.votes.map (·.voteIndex)).Perm
      (List.range authority.voting.record.bulletinRootHistory.length))
    (hkeys : (keysOf items).Nodup) {table : AList (Item U)}
    (hconditions : conditionsHold items table = true) {key : Key}
    (hkey : key ∈ sessionKeys sessionId newVotes) :
    ∃ item, (commit items table).lookup key = some item ∧ expiresAt key item = some newExpiry := by
  simp only [sessionKeys, List.mem_cons, List.mem_map, List.mem_range] at hkey
  rcases hkey with rfl | rfl | ⟨i, hi, rfl⟩
  · have haction := h.ttl (updateIdentityTtl sessionId authority newExpiry) List.mem_cons_self
    obtain ⟨item, hitem⟩ := found_of_update hconditions haction
    have hlookup := lookup_commit_of_mem hkeys haction table
    refine ⟨{ item with expiresAt := newExpiry }, hlookup.trans ?_, rfl⟩
    simp only [updateIdentityTtl, updateItem, hitem, Option.map_some]
  · rcases h.voting with ⟨record, -, -, haction⟩ | ⟨-, haction⟩
    · exact ⟨_, lookup_commit_of_mem hkeys haction table, rfl⟩
    · obtain ⟨item, hitem⟩ := found_of_update hconditions haction
      have hlookup := lookup_commit_of_mem hkeys haction table
      refine ⟨{ item with expiresAt := newExpiry }, hlookup.trans ?_, rfl⟩
      simp only [updateVotingTtl, updateItem, hitem, Option.map_some]
  · rcases Nat.lt_or_ge i authority.voting.record.bulletinRootHistory.length with hold | hnew
    · have hindex : i ∈ authority.votes.map (·.voteIndex) := hvotes.mem_iff.mpr (List.mem_range.mpr hold)
      obtain ⟨vote, hvote, rfl⟩ := List.mem_map.mp hindex
      have haction :=
        h.ttl (updateVoteTtl sessionId newExpiry vote)
          (List.mem_cons_of_mem _ (List.mem_map_of_mem hvote))
      obtain ⟨item, hitem⟩ := found_of_update hconditions haction
      have hlookup := lookup_commit_of_mem hkeys haction table
      refine ⟨⟨{ item.1 with expiresAt := newExpiry }, item.2⟩, hlookup.trans ?_, rfl⟩
      simp only [updateVoteTtl, updateItem, hitem, Option.map_some]
    · obtain ⟨vote, condition, rfl, haction⟩ := h.new i hnew hi
      exact ⟨vote, lookup_commit_of_mem hkeys haction table, rfl⟩

/-- The voting item after the transaction. -/
theorem Refreshes.lookup_voting (h : Refreshes sessionId authority newExpiry newVotes items)
    (hkeys : (keysOf items).Nodup) {table : AList (Item U)} {item : VotingItem}
    (hitem : table.lookup (.voting sessionId) = some item) (hmatch : matchVoting authority item = true)
    (hhistory : item.record.bulletinRootHistory.length =
      authority.voting.record.bulletinRootHistory.length)
    (hbots : item.record.botCount ≤ Domain.botCount) :
    ∃ item', (commit items table).lookup (.voting sessionId) = some item' ∧
      item'.record.bulletinRootHistory.length = newVotes ∧ item'.record.botCount ≤ Domain.botCount ∧
      (item'.revision = item.revision + 1 ∨
        item'.revision = item.revision ∧ newVotes = item.record.bulletinRootHistory.length) := by
  rw [matchVoting, Bool.and_eq_true, decide_eq_true_eq, decide_eq_true_eq] at hmatch
  rcases h.voting with ⟨record, hlength, hrecord, haction⟩ | ⟨hvotes, haction⟩
  · refine ⟨_, lookup_commit_of_mem hkeys haction table, hlength, hrecord, .inl ?_⟩
    rw [hmatch.1]
  · have hlookup := lookup_commit_of_mem hkeys haction table
    refine ⟨{ item with expiresAt := newExpiry }, hlookup.trans ?_, hhistory.trans hvotes.symm, hbots,
      .inr ⟨rfl, hvotes.trans hhistory.symm⟩⟩
    simp only [updateVotingTtl, updateItem, hitem, Option.map_some]

/-- What was read of a voting item keeps its revision, its expiry and the length of its history. -/
theorem voting_of_read (h : AuthorityRead sessionId authority s) :
    ∃ raw, Seen s (.voting sessionId) raw ∧ raw.revision = authority.voting.revision ∧
      raw.record.bulletinRootHistory.length = authority.voting.record.bulletinRootHistory.length ∧
      raw.record.botCount = authority.voting.record.botCount := by
  obtain ⟨raw, hseen, hparse⟩ := h.voting
  obtain ⟨history, hvoting, hhistory⟩ := parseVotingItem_eq_some hparse
  refine ⟨raw, hseen, by rw [hvoting], ?_, by rw [hvoting]⟩
  rw [hvoting]
  exact (forall₂_of_mapM_eq_some hhistory).length_eq

/-- Nothing of the session lies beyond its votes. -/
theorem Refreshes.lookup_beyond (h : Refreshes sessionId authority newExpiry newVotes items)
    {table : AList (Item U)}
    (hindices : ∀ i, (table.lookup (.vote sessionId i)).isSome = true → i < newVotes) {key : Key}
    (hkey : isSessionKey sessionId key = true) (hbeyond : key ∉ sessionKeys sessionId newVotes) :
    (commit items table).lookup key = none := by
  rw [lookup_commit_of_not_mem (fun hmem => hbeyond (h.only key hmem hkey))]
  cases key with
  | identity owner => exact absurd (by simp [sessionKeys, of_decide_eq_true hkey]) hbeyond
  | voting owner => exact absurd (by simp [sessionKeys, of_decide_eq_true hkey]) hbeyond
  | vote owner i =>
    obtain rfl := of_decide_eq_true hkey
    refine Option.not_isSome_iff_eq_none.mp fun hvote => hbeyond ?_
    simp [sessionKeys, hindices i hvote]
  | _ => cases hkey

/-- All that is there of the session after the transaction has the new expiry. -/
theorem Refreshes.shared (h : Refreshes sessionId authority newExpiry newVotes items)
    (hvotes : (authority.votes.map (·.voteIndex)).Perm
      (List.range authority.voting.record.bulletinRootHistory.length))
    (hkeys : (keysOf items).Nodup) {table : AList (Item U)}
    (hconditions : conditionsHold items table = true)
    (hindices : ∀ i, (table.lookup (.vote sessionId i)).isSome = true → i < newVotes) {key : Key}
    {item : Item U key} (hkey : isSessionKey sessionId key = true)
    (hlookup : (commit items table).lookup key = some item) :
    key ∈ sessionKeys sessionId newVotes ∧ expiresAt key item = some newExpiry := by
  by_cases hmem : key ∈ sessionKeys sessionId newVotes
  · obtain ⟨found, hfound, hexpiry⟩ := h.lookup hvotes hkeys hconditions hmem
    obtain rfl := Option.some.inj (hlookup.symm.trans hfound)
    exact ⟨hmem, hexpiry⟩
  · cases (h.lookup_beyond hindices hkey hmem).symm.trans hlookup

theorem seen_put {table : AList (Item U)} {key : Key} {item : Item U key}
    (h : Seen (s.put table) key item) : Seen s key item ∨ table.lookup key = some item := by
  obtain ⟨before, hbefore, hlookup⟩ := h
  rcases List.mem_append.mp hbefore with hbefore | hbefore
  · exact .inl ⟨before, hbefore, hlookup⟩
  · obtain rfl := List.mem_singleton.mp hbefore
    exact .inr hlookup

/-- COMMIT: a transaction that goes through finds all items, and leaves them with one
    expiry that is no shorter. -/
theorem InStep.commit (hstep : InStep sessionId lost revision votes expiry s)
    (hread : AuthorityRead sessionId authority s)
    (h : Refreshes sessionId authority newExpiry newVotes items) (hkeys : (keysOf items).Nodup)
    (hconditions : conditionsHold items s.table = true) :
    ∃ newRevision, InStep sessionId lost newRevision newVotes newExpiry
      (s.put (Schemes.commit items s.table)) := by
  obtain ⟨item, hitem, hmatch⟩ := h.current hconditions
  have hmatched := hmatch
  rw [matchVoting, Bool.and_eq_true, decide_eq_true_eq, decide_eq_true_eq] at hmatched
  -- no vote came in since the voting item was read
  obtain ⟨raw, hseen, hrevision, hlength, -⟩ := voting_of_read hread
  have hsame : raw.record.bulletinRootHistory.length = votes :=
    (hstep.past raw hseen).2.1 (by rw [hrevision, ← hmatched.1, hstep.current item hitem])
  have hcount : authority.voting.record.bulletinRootHistory.length = votes := hlength.symm.trans hsame
  have hhistory := hstep.history item hitem
  obtain ⟨item', hitem', hlength', hbots', hadvance⟩ :=
    h.lookup_voting hkeys hitem hmatch (hhistory.trans hcount.symm)
    (hstep.past item (seen_of_lookup hitem)).2.2
  have hlonger : expiry ≤ newExpiry := by
    have hexpiry : item.expiresAt = expiry :=
      Option.some.inj (hstep.shared _ item (decide_eq_true rfl) hitem)
    rw [← hexpiry, hmatched.2]
    exact (le_expiresAt authority).trans h.long
  have hcurrent := hstep.current item hitem
  have hnewer : revision ≤ item'.revision := by
    rcases hadvance with hnext | ⟨hsame, -⟩ <;> omega
  have hindices : ∀ i, (s.table.lookup (.vote sessionId i)).isSome = true → i < newVotes :=
    fun i hvote => (hstep.indices i hvote).trans_le (hcount ▸ h.grown)
  have hshared {key : Key} {item : Item U key} (hkey : isSessionKey sessionId key = true)
      (hlookup : (Schemes.commit items s.table).lookup key = some item) :
      key ∈ sessionKeys sessionId newVotes ∧ expiresAt key item = some newExpiry :=
    h.shared hread.votes hkeys hconditions hindices hkey hlookup
  refine ⟨item'.revision, ⟨⟨?_, ?_, ?_, ?_, ?_⟩, ?_, ?_⟩⟩
  · exact fun key item hkey hlookup => (hshared hkey hlookup).2
  · intro found hfound
    obtain rfl := Option.some.inj (hitem'.symm.trans hfound)
    exact hlength'
  · intro i hvote
    obtain ⟨vote, hvote⟩ := Option.isSome_iff_exists.mp hvote
    have hmem := (@hshared (.vote sessionId i) vote (decide_eq_true rfl) hvote).1
    simpa [sessionKeys] using hmem
  · intro key hkey hnone
    obtain ⟨found, hfound, -⟩ := h.lookup hread.votes hkeys hconditions hkey
    cases hnone.symm.trans hfound
  · intro key found hkey hfound
    rcases seen_put hfound with hold | hnew
    · have hbefore := hstep.longest key found hkey hold
      rw [Option.all_eq_true] at hbefore ⊢
      exact fun e he => decide_eq_true ((of_decide_eq_true (hbefore e he)).trans hlonger)
    · rw [(hshared hkey hnew).2]
      exact decide_eq_true (Nat.le_refl _)
  · intro found hfound
    rw [Option.some.inj (hitem'.symm.trans hfound)]
  · intro found hfound
    rcases seen_put hfound with hold | hnew
    · obtain ⟨hle, heq, hbots⟩ := hstep.past found hold
      refine ⟨hle.trans hnewer, ?_, hbots⟩
      intro hsame
      rcases hadvance with hnext | ⟨hrev, hvotes⟩
      · omega
      · rw [heq (by omega), hvotes, hhistory]
    · obtain rfl := Option.some.inj (hitem'.symm.trans hnew)
      exact ⟨Nat.le_refl _, fun _ => hlength', hbots'⟩

end Transactions

/-! ### What the calls write -/

section Calls

variable (config : StoreConfig) (sessionId)

/-- The transactions of a session's calls, by what was read. -/
inductive SessionIssued (s : SharedTable ι U) : List (TransactItem (Item U)) → Prop
  | votes {authority : SessionTtlAuthority} {nonces : ℕ → Nonces} {next : SessionVotingRecord}
    (hread : AuthorityRead sessionId authority s)
    (hnext : NextVotingFrom (U := U) config authority next) :
    SessionIssued s (voteMutationItems config sessionId authority nonces next)
  | touch {authority : SessionTtlAuthority} {lastActivityMs : ℕ}
      (hread : AuthorityRead sessionId authority s) :
    SessionIssued s (touchItems sessionId authority lastActivityMs)
  | lifecycle {expected : EncodedLifecycleRevision} {finalizationId : JsString}
      {stored : PersistedFinalizationRecord U}
    {plan : ArtifactTtlPlan} (hread : AuthorityRead sessionId plan.authority s)
    (hplan : plan.authority.expiresAt ≤ plan.expiresAt) :
    SessionIssued s (lifecycleItems sessionId expected finalizationId stored plan)
  | commit {write : SuccessfulFinalizationWrite U} {plan : ArtifactTtlPlan}
      {items : List (TransactItem (Item U))}
    (hread : AuthorityRead sessionId plan.authority s)
      (hplan : plan.authority.expiresAt ≤ plan.expiresAt)
    (hbuilt : buildSuccessfulFinalizationTransaction write (storageOf sessionId plan) = .ok items) :
    SessionIssued s items

variable {config sessionId}

theorem SessionIssued.later {items : List (TransactItem (Item U))}
    (h : SessionIssued sessionId config s items) (hgrows : Grows s s') :
    SessionIssued sessionId config s' items := by
  cases h with
  | votes hread hnext => exact .votes (hread.later hgrows) hnext
  | touch hread => exact .touch (hread.later hgrows)
  | lifecycle hread hplan => exact .lifecycle (hread.later hgrows) hplan
  | commit hread hplan hbuilt => exact .commit (hread.later hgrows) hplan hbuilt

/-- The keys of what gives a session its expiry are those of the session. -/
theorem keys_of_ttl {authority : SessionTtlAuthority} {expiresAt : ℕ} {key : Key}
    (h : key ∈ keysOf (buildSessionTtlUpdates (U := U) sessionId authority expiresAt)) :
    key = .identity sessionId ∨ ∃ vote ∈ authority.votes, key = .vote sessionId vote.voteIndex := by
  simp only [buildSessionTtlUpdates, updateIdentityTtl, updateItem, keysOf, List.map_cons, List.map_map,
    List.mem_cons, List.mem_map] at h
  rcases h with rfl | ⟨vote, hvote, rfl⟩
  · exact .inl rfl
  · exact .inr ⟨vote, hvote, rfl⟩

theorem mem_sessionKeys_of_ttl {authority : SessionTtlAuthority} {expiresAt votes : ℕ} {key : Key}
    (hvotes : (authority.votes.map (·.voteIndex)).Perm
      (List.range authority.voting.record.bulletinRootHistory.length))
    (hgrown : authority.voting.record.bulletinRootHistory.length ≤ votes)
    (h : key ∈ keysOf (buildSessionTtlUpdates (U := U) sessionId authority expiresAt)) :
    key ∈ sessionKeys sessionId votes := by
  rcases keys_of_ttl h with rfl | ⟨vote, hvote, rfl⟩
  · simp [sessionKeys]
  · have hlt := List.mem_range.mp (hvotes.mem_iff.mp (List.mem_map_of_mem hvote))
    simp [sessionKeys, hlt.trans_le hgrown]

/-- Outside of its expiry writes, a commit writes no item of a session. -/
theorem keys_of_commit {write : SuccessfulFinalizationWrite U} {storage : TransactionStorage U}
    {items : List (TransactItem (Item U))}
    (h : buildSuccessfulFinalizationTransaction write storage = .ok items) {key : Key}
    (hkey : key ∈ keysOf items) :
    key ∈ keysOf storage.ttlItems ∨ ∀ owner, isSessionKey owner key = false := by
  obtain ⟨stored, -, h⟩ := bind_eq_ok.mp h
  obtain rfl := Except.ok.inj h
  have hreceipt : key ∈ keysOf (receiptPublicationWrites write storage) →
      ∀ owner, isSessionKey owner key = false := by
    unfold receiptPublicationWrites
    intro hmem owner
    split at hmem
    · simp only [keysOf, List.map_cons, List.map_nil, List.mem_cons, List.not_mem_nil, or_false] at hmem
      rcases hmem with rfl | rfl <;> rfl
    · cases hmem
  have hverification : key ∈ keysOf (verificationWrites write storage) →
      ∀ owner, isSessionKey owner key = false := by
    unfold verificationWrites
    intro hmem owner
    split at hmem <;> exact List.mem_singleton.mp hmem ▸ rfl
  have hbitmap :
      key ∈ keysOf (bitmapWrites write storage) → ∀ owner, isSessionKey owner key = false := by
    unfold bitmapWrites
    intro hmem owner
    split at hmem <;> exact List.mem_singleton.mp hmem ▸ rfl
  have hmetadata :
      key ∈ keysOf (metadataWrites write storage) → ∀ owner, isSessionKey owner key = false := by
    unfold metadataWrites
    intro hmem owner
    rw [keysOf, List.map_append, List.mem_append] at hmem
    rcases hmem with hmem | hmem
    · split at hmem
      · exact List.mem_singleton.mp hmem ▸ rfl
      · cases hmem
    · split at hmem
      · exact List.mem_singleton.mp hmem ▸ rfl
      · cases hmem
  simp only [keysOf, List.map_append, List.mem_append] at hkey
  rcases hkey with ((((hkey | hkey) | hkey) | hkey) | hkey) | hkey
  · simp only [List.map_cons, List.map_nil, List.mem_cons, List.not_mem_nil, or_false] at hkey
    rcases hkey with rfl | rfl <;> exact .inr fun _ => rfl
  · exact .inr (hreceipt hkey)
  · exact .inr (hverification hkey)
  · exact .inr (hbitmap hkey)
  · exact .inr (hmetadata hkey)
  · exact .inl hkey

/-- The next record is sound, and goes on where the record that was read ends. -/
theorem sound_of_next {authority : SessionTtlAuthority}
    (hbots : authority.voting.record.botCount ≤ Domain.botCount) {next : SessionVotingRecord}
    (hnext : NextVotingFrom (U := U) config authority next) :
    ∃ entries, Sound config.noble config.sha256 authority.identity.identity.electionId entries next ∧
      authority.voting.record.bulletinRootHistory.length ≤ entries.length := by
  obtain ⟨finalization, boardClock, voting, command, dependencies, mutation, hrestored, heval,
      hmutation⟩ := hnext
  obtain ⟨entries, hsound, hlength⟩ := sound_of_restore hbots hrestored
  obtain ⟨added, stored, hsubmit, -⟩ :=
    submit_sound hsound (⟨command, dependencies, finalization⟩ : Attempt U)
  rw [submit_of_evaluate heval hmutation] at hsubmit
  refine ⟨entries ++ added, hsubmit, ?_⟩
  rw [← hlength, List.length_append]
  exact Nat.le_add_right _ _

theorem refreshes_votes (hread : AuthorityRead sessionId authority s)
    (hbots : authority.voting.record.botCount ≤ Domain.botCount) {next : SessionVotingRecord}
    (hnext : NextVotingFrom (U := U) config authority next) (nonces : ℕ → Nonces) :
    Refreshes sessionId authority authority.expiresAt next.bulletinRootHistory.length
      (voteMutationItems (U := U) config sessionId authority nonces next) := by
  obtain ⟨entries, hsound, hgrown⟩ := sound_of_next hbots hnext
  have hlength : next.bulletinRootHistory.length = entries.length := hsound.snapshots.length_eq
  have hvotes : next.votes.length = entries.length := hsound.holds.length_eq
  refine ⟨Nat.le_refl _, hgrown.trans hlength.ge, ?_, .inl ?_, ?_, ?_⟩
  · intro action haction
    exact List.mem_append_left _ (List.mem_append_left _ haction)
  · exact ⟨toPersistedVotingRecord next, rfl, hsound.botCount_le, by simp [voteMutationItems]⟩
  · intro i hnew hi
    obtain ⟨⟨index, vote⟩, hvote⟩ : ∃ entry, next.votes[i]? = some entry :=
      ⟨_, List.getElem?_eq_getElem (by omega)⟩
    obtain ⟨-, -, rfl, -⟩ := hsound.holds.get hvote
    refine ⟨⟨toVoteItem config.cipher (nonces index) sessionId index vote (next.userParticipation =
      .cast index) authority.expiresAt, rfl, rfl⟩, isAbsent, rfl, ?_⟩
    refine List.mem_append_right _ (List.mem_map.mpr ⟨(index, vote), List.mem_filter.mpr ⟨?_, ?_⟩, rfl⟩)
    · exact List.mem_of_getElem? hvote
    · exact decide_eq_true hnew
  · intro key hkey hsession
    simp only [voteMutationItems, keysOf, List.map_append, List.mem_append] at hkey
    rcases hkey with (hkey | hkey) | hkey
    · exact mem_sessionKeys_of_ttl hread.votes (hgrown.trans hlength.ge) hkey
    · simp only [putItem, conditionCheck, List.map_cons, List.map_nil, List.mem_cons, List.not_mem_nil,
        or_false] at hkey
      rcases hkey with rfl | rfl
      · simp [sessionKeys]
      · cases hsession
    · simp only [List.map_map, List.mem_map, newVotes] at hkey
      obtain ⟨⟨index, vote⟩, hmem, rfl⟩ := hkey
      obtain ⟨k, hk⟩ := List.getElem?_of_mem (List.mem_filter.mp hmem).1
      obtain ⟨hlt, -⟩ := List.getElem?_eq_some_iff.mp hk
      obtain ⟨-, -, rfl, -⟩ := hsound.holds.get hk
      have hbound : index < next.bulletinRootHistory.length := by omega
      simp [sessionKeys, putVote, putItem, hbound]

theorem refreshes_touch (hread : AuthorityRead sessionId authority s)
    (hbots : authority.voting.record.botCount ≤ Domain.botCount) (lastActivityMs : ℕ) :
    Refreshes sessionId authority authority.expiresAt authority.voting.record.bulletinRootHistory.length
      (touchItems (U := U) sessionId authority lastActivityMs) := by
  refine ⟨Nat.le_refl _, Nat.le_refl _, fun _ => List.mem_append_left _, .inl ?_, ?_, ?_⟩
  · exact ⟨{ authority.voting.record with lastActivityMs := .ofNat lastActivityMs }, rfl,
      hbots, by simp [touchItems]⟩
  · intro i hold hnew
    exact absurd hnew (Nat.not_lt.mpr hold)
  · intro key hkey _
    simp only [touchItems, keysOf, List.map_append, List.mem_append] at hkey
    rcases hkey with hkey | hkey
    · exact mem_sessionKeys_of_ttl hread.votes (Nat.le_refl _) hkey
    · obtain rfl := List.mem_singleton.mp hkey
      simp [sessionKeys, putItem]

/-- The writes of an artifact's transaction that keep the session alive. -/
theorem refreshes_artifact {plan : ArtifactTtlPlan} {items : List (TransactItem (Item U))}
    (hread : AuthorityRead sessionId plan.authority s)
    (hplan : plan.authority.expiresAt ≤ plan.expiresAt)
    (hmem : ∀ action ∈ artifactTtlItems sessionId plan.authority plan.expiresAt, action ∈ items)
    (hkeys : ∀ key ∈ keysOf items,
      key ∈ keysOf (artifactTtlItems (U := U) sessionId plan.authority plan.expiresAt) ∨
      isSessionKey sessionId key = false) :
    Refreshes sessionId plan.authority plan.expiresAt
      plan.authority.voting.record.bulletinRootHistory.length items := by
  refine ⟨hplan, Nat.le_refl _, ?_, .inr ⟨rfl, ?_⟩, ?_, ?_⟩
  · exact fun action haction => hmem action (List.mem_append_left _ haction)
  · exact hmem _ (List.mem_append_right _ List.mem_cons_self)
  · intro i hold hnew
    exact absurd hnew (Nat.not_lt.mpr hold)
  · intro key hkey hsession
    rcases hkeys key hkey with hkey | hother
    · simp only [artifactTtlItems, keysOf, List.map_append, List.mem_append] at hkey
      rcases hkey with hkey | hkey
      · exact mem_sessionKeys_of_ttl hread.votes (Nat.le_refl _) hkey
      · obtain rfl := List.mem_singleton.mp hkey
        simp [sessionKeys, updateVotingTtl, updateItem]
    · cases hsession.symm.trans hother

/-- Every call's transaction gives the items of its session one expiry. -/
theorem SessionIssued.refreshes {items : List (TransactItem (Item U))}
    (h : SessionIssued sessionId config s items)
    (hbots : ∀ item, Seen s (.voting sessionId) item → item.record.botCount ≤ Domain.botCount) :
    ∃ authority newExpiry newVotes, AuthorityRead sessionId authority s ∧
      Refreshes sessionId authority newExpiry newVotes items := by
  have hread : ∀ authority, AuthorityRead sessionId authority s →
      authority.voting.record.botCount ≤ Domain.botCount := by
    intro authority hauthority
    obtain ⟨raw, hseen, -, -, hsame⟩ := voting_of_read hauthority
    exact hsame ▸ hbots raw hseen
  cases h with
  | votes hauthority hnext =>
      exact ⟨_, _, _, hauthority, refreshes_votes hauthority (hread _ hauthority) hnext _⟩
  | touch hauthority => exact ⟨_, _, _, hauthority, refreshes_touch hauthority (hread _ hauthority) _⟩
  | lifecycle hauthority hplan =>
    refine ⟨_, _, _, hauthority, refreshes_artifact hauthority hplan ?_ ?_⟩
    · exact fun action haction => List.mem_cons_of_mem _ (List.mem_cons_of_mem _ haction)
    · intro key hkey
      simp only [lifecycleItems, keysOf, List.map_cons, List.mem_cons] at hkey
      rcases hkey with rfl | rfl | hkey
      · exact .inr rfl
      · exact .inr rfl
      · exact .inl hkey
  | commit hauthority hplan hbuilt =>
    refine ⟨_, _, _, hauthority, refreshes_artifact hauthority hplan ?_ ?_⟩
    · obtain ⟨stored, -, hitems⟩ := bind_eq_ok.mp hbuilt
      obtain rfl := Except.ok.inj hitems
      exact fun action haction => List.mem_append_right _ haction
    · intro key hkey
      exact (keys_of_commit hbuilt hkey).imp_right fun hother => hother sessionId

theorem owner_of_ttl {owner : JsString} {authority : SessionTtlAuthority} {expiresAt : ℕ} {key : Key}
    (h : key ∈ keysOf (buildSessionTtlUpdates (U := U) owner authority expiresAt))
    (hkey : isSessionKey sessionId key = true) : owner = sessionId := by
  rcases keys_of_ttl h with rfl | ⟨vote, -, rfl⟩
  · exact of_decide_eq_true hkey
  · exact of_decide_eq_true hkey

/-- A transaction writes items of its own session only. -/
theorem SessionIssued.owner {owner : JsString} {items : List (TransactItem (Item U))}
    (h : SessionIssued owner config s items) {key : Key} (hkey : key ∈ keysOf items)
    (hsession : isSessionKey sessionId key = true) : owner = sessionId := by
  have hartifact : ∀ plan : ArtifactTtlPlan,
      key ∈ keysOf (artifactTtlItems (U := U) owner plan.authority plan.expiresAt) →
      owner = sessionId := by
    intro plan hmem
    simp only [artifactTtlItems, keysOf, List.map_append, List.mem_append] at hmem
    rcases hmem with hmem | hmem
    · exact owner_of_ttl hmem hsession
    · obtain rfl := List.mem_singleton.mp hmem
      exact of_decide_eq_true hsession
  cases h with
  | votes hread hnext =>
    simp only [voteMutationItems, keysOf, List.map_append, List.mem_append] at hkey
    rcases hkey with (hkey | hkey) | hkey
    · exact owner_of_ttl hkey hsession
    · simp only [putItem, conditionCheck, List.map_cons, List.map_nil, List.mem_cons, List.not_mem_nil,
        or_false] at hkey
      rcases hkey with rfl | rfl
      · exact of_decide_eq_true hsession
      · cases hsession
    · simp only [List.map_map, List.mem_map] at hkey
      obtain ⟨vote, -, rfl⟩ := hkey
      exact of_decide_eq_true hsession
  | touch hread =>
    simp only [touchItems, keysOf, List.map_append, List.mem_append] at hkey
    rcases hkey with hkey | hkey
    · exact owner_of_ttl hkey hsession
    · obtain rfl := List.mem_singleton.mp hkey
      exact of_decide_eq_true hsession
  | lifecycle hread hplan =>
    simp only [lifecycleItems, keysOf, List.map_cons, List.mem_cons] at hkey
    rcases hkey with rfl | rfl | hkey
    · cases hsession
    · cases hsession
    · exact hartifact _ hkey
  | commit hread hplan hbuilt =>
    rcases keys_of_commit hbuilt hkey with hkey | hother
    · exact hartifact _ hkey
    · cases hsession.symm.trans (hother sessionId)

/-- What is written elsewhere leaves the session as it is. -/
theorem InStep.apart (h : InStep sessionId lost revision votes expiry s)
    {items : List (TransactItem (Item U))}
    (hapart : ∀ key, isSessionKey sessionId key = true → key ∉ keysOf items) :
    InStep sessionId lost revision votes expiry (s.put (Schemes.commit items s.table)) := by
  have hsame : ∀ key, isSessionKey sessionId key = true →
      (Schemes.commit items s.table).lookup key = s.table.lookup key :=
    fun key hkey => lookup_commit_of_not_mem (hapart key hkey) s.table
  have hback : ∀ key item, isSessionKey sessionId key = true →
      Seen (s.put (Schemes.commit items s.table)) key item → Seen s key item := by
    rintro key item hkey ⟨table, htable, hlookup⟩
    rcases List.mem_append.mp htable with htable | htable
    · exact ⟨table, htable, hlookup⟩
    · obtain rfl := List.mem_singleton.mp htable
      exact seen_of_lookup ((hsame key hkey).symm.trans hlookup)
  have hvoting : isSessionKey sessionId (.voting sessionId) = true := decide_eq_true rfl
  refine ⟨⟨?_, ?_, ?_, ?_, ?_⟩, ?_, ?_⟩
  · intro key item hkey hitem
    exact h.shared key item hkey ((hsame key hkey).symm.trans hitem)
  · intro item hitem
    exact h.history item ((hsame _ hvoting).symm.trans hitem)
  · intro i hvote
    exact h.indices i (hsame (.vote sessionId i) (decide_eq_true rfl) ▸ hvote)
  · intro key hkey hnone
    exact h.kept key hkey ((hsame key (isSessionKey_of_mem hkey)).symm.trans hnone)
  · intro key item hkey hseen
    exact h.longest key item hkey (hback key item hkey hseen)
  · intro item hitem
    exact h.current item ((hsame _ hvoting).symm.trans hitem)
  · intro item hseen
    exact h.past item (hback _ item hvoting hseen)

variable [DecidableEq ι]

/-- STEP: the session stays in step, whichever of the transactions goes through. -/
theorem keeps_session : Keeps (fun (_ : ι) choice _ _ => choice.removed ≠ [] → lost)
    (fun _ _ items s => ∃ owner, SessionIssued (U := U) owner config s items)
    (SessionOk sessionId lost) where
  prepared := by
    rintro c choice r s hguard ⟨revision, votes, expiry, h⟩
    refine ⟨revision, votes, expiry, h.prepared ?_⟩
    rcases hguard with hguard | rfl
    · exact hguard
    · exact fun hremoved => absurd rfl hremoved
  noted := by
    rintro s c key ⟨revision, votes, expiry, h⟩
    exact ⟨revision, votes, expiry, ⟨h.shared, h.history, h.indices, h.kept, h.longest⟩,
      h.current, h.past⟩
  commits := by
    rintro c choice operation items s - ⟨owner, hissued⟩ ⟨-, hkeys, hconditions⟩
      ⟨revision, votes, expiry, h⟩
    by_cases howner : owner = sessionId
    · subst howner
      obtain ⟨authority, newExpiry, newVotes, hread, hrefreshes⟩ :=
        hissued.refreshes fun item hseen => (h.past item hseen).2.2
      obtain ⟨newRevision, hstep⟩ := h.commit hread hrefreshes hkeys hconditions
      exact ⟨newRevision, newVotes, newExpiry, hstep⟩
    · refine ⟨revision, votes, expiry, h.apart ?_⟩
      exact fun key hkey hmem => howner (hissued.owner hmem hkey)
  later := by
    rintro c operation items s s' hlater ⟨owner, hissued⟩
    exact ⟨owner, hissued.later hlater.toGrows⟩

end Calls

/-! ### Runs -/

section Runs

variable (U) in
/-- A call on a session. -/
inductive SessionCall where
  | mutateVotes (sessionId : JsString) (input : VoteMutationInput)
  | touchSession (sessionId : JsString)
  | applyFinalizationCommand (command : FinalizationTransitionCommand U)
  | commitSuccessfulFinalization (input : SuccessfulFinalizationCommitInput U)

/-- A session that was just created. -/
theorem inStep_created {input : SessionCreationInput} {table : AList (Item U)} (expiresAt clockMs : ℕ)
    (hfresh : ∀ key, isSessionKey input.sessionId key = true → table.lookup key = none)
    (readAt : ι → Key → ℕ) :
    InStep input.sessionId lost 0 0 expiresAt
      (⟨commit (createSessionItems input expiresAt) table, clockMs, [], readAt⟩ : SharedTable ι U) := by
  have hkeys :
      (keysOf (createSessionItems (U := U) input expiresAt)).Nodup := by
        simp [createSessionItems, putItem]
  have hidentity := lookup_commit_of_mem hkeys List.mem_cons_self table
  have hvoting := lookup_commit_of_mem hkeys (List.mem_cons_of_mem _ List.mem_cons_self) table
  have hvote :
      ∀ i, (commit (createSessionItems input expiresAt) table).lookup
        (.vote input.sessionId i) = none := by
    intro i
    rw [lookup_commit_of_not_mem (by simp [createSessionItems, putItem])]
    exact hfresh _ (decide_eq_true rfl)
  have hshared : ∀ key item, isSessionKey input.sessionId key = true →
      (commit (createSessionItems input expiresAt) table).lookup key = some item →
      Dynamo.expiresAt key item = some expiresAt := by
    intro key item hkey hitem
    cases key with
    | identity owner =>
      obtain rfl := of_decide_eq_true hkey
      rw [← Option.some.inj (hidentity.symm.trans hitem)]
      rfl
    | voting owner =>
      obtain rfl := of_decide_eq_true hkey
      rw [← Option.some.inj (hvoting.symm.trans hitem)]
      rfl
    | vote owner i =>
      obtain rfl := of_decide_eq_true hkey
      cases (hvote i).symm.trans hitem
    | _ => cases hkey
  have hseen :
      ∀ key item, Seen (⟨commit (createSessionItems input expiresAt) table, clockMs, [], readAt⟩ :
      SharedTable ι U) key item →
      (commit (createSessionItems input expiresAt) table).lookup key = some item := by
    rintro key item ⟨found, hmem, hlookup⟩
    obtain rfl := List.mem_singleton.mp hmem
    exact hlookup
  refine ⟨⟨hshared, ?_, ?_, ?_, ?_⟩, ?_, ?_⟩
  · intro item hitem
    rw [← Option.some.inj (hvoting.symm.trans hitem)]
    rfl
  · intro i hi
    rw [hvote i] at hi
    cases hi
  · intro key hkey hnone
    simp only [sessionKeys, List.range_zero, List.map_nil, List.mem_cons, List.not_mem_nil,
      or_false] at hkey
    rcases hkey with rfl | rfl
    · cases hnone.symm.trans hidentity
    · cases hnone.symm.trans hvoting
  · intro key item hkey hitem
    rw [hshared key item hkey (hseen key item hitem), Option.all_some]
    exact decide_eq_true (Nat.le_refl _)
  · intro item hitem
    rw [← Option.some.inj (hvoting.symm.trans hitem)]
  · intro item hitem
    rw [← Option.some.inj (hvoting.symm.trans (hseen _ item hitem))]
    exact ⟨Nat.le_refl _, fun _ => rfl, Nat.zero_le _⟩

variable [DecidableEq ι] [DecidableEq U] (config : StoreConfig)

def sessionCall : SessionCall U → Call U Unit
  | .mutateVotes sessionId input => do let _ ← mutateVotes config sessionId input
  | .touchSession sessionId => touchSession config sessionId
  | .applyFinalizationCommand command => do let _ ← applyFinalizationCommand config command
  | .commitSuccessfulFinalization input => do let _ ← commitSuccessfulFinalization config input

/-- A client makes its calls, whatever comes of each. -/
def sessionCalls :
    List (SessionCall U) → Async (TableRequest U) TableRequest.Answer (List (Except StoreError Unit))
  | [] => return []
  | call :: calls => do
    let answer ← (sessionCall config call).run
    let answers ← sessionCalls calls
    return answer :: answers

/-- The clients when the session was created. -/
def sessionSystem (input : SessionCreationInput) (expiresAt : ℕ) (calls : ι → List (SessionCall U))
    (table : AList (Item U)) (clockMs : ℕ) :
    Concurrent ι (SharedTable ι U)
      (TableRequest U) TableRequest.Answer (List (Except StoreError Unit)) :=
  ⟨⟨commit (createSessionItems input expiresAt) table, clockMs, [], fun _ _ => 0⟩,
    fun c => sessionCalls config (calls c)⟩

variable {config}

theorem safe_sessionCall {guard : Guard ι U} {issued : Issued ι U} {inv : SharedTable ι U → Prop}
    (h : Keeps guard issued inv)
    (hissued : ∀ operation items s, (∃ owner, SessionIssued owner config s items) →
      issued c operation items s)
    (call : SessionCall U) : CallSafe guard inv c (fun _ _ => True) (sessionCall config call) s := by
  cases call with
  | mutateVotes sessionId input =>
    refine safe_seq (safe_mutateVotes h input ?_) fun _ _ _ => safe_pure trivial
    exact fun authority nonces next s hread hnext => hissued _ _ _ ⟨sessionId, .votes hread hnext⟩
  | touchSession sessionId =>
    exact safe_touchSession h config sessionId fun authority lastActivityMs s hread =>
      hissued _ _ _ ⟨sessionId, .touch hread⟩
  | applyFinalizationCommand command =>
    refine safe_seq (safe_applyFinalizationCommand h config command ?_) fun _ _ _ => safe_pure trivial
    exact fun expected stored plan s hread hplan =>
      hissued _ _ _ ⟨command.sessionId, .lifecycle hread hplan⟩
  | commitSuccessfulFinalization input =>
    refine safe_seq (safe_commitSuccessfulFinalization h ?_) fun _ _ _ => safe_pure trivial
    intro admitted readings outcome plan items s _ hbuilt hread
    exact hissued _ _ _ ⟨admitted.requested.sessionId, .commit hread hbuilt.planned hbuilt.built⟩

theorem safe_sessionCalls {guard : Guard ι U} {issued : Issued ι U} {inv : SharedTable ι U → Prop}
    (h : Keeps guard issued inv)
    (hissued : ∀ operation items s, (∃ owner, SessionIssued owner config s items) →
      issued c operation items s)
    (calls : List (SessionCall U)) :
    Safe (serveGuarded guard) inv Later c (fun _ _ => True) (sessionCalls config calls) s := by
  induction calls generalizing s with
  | nil => trivial
  | cons call calls ih =>
    refine safe_bind (safe_program (safe_sessionCall h hissued call)) ?_
    intro answer s₁ _
    exact safe_bind ih fun _ _ _ => trivial

/-- SAFETY: whatever calls race, the items of a session share one expiry, no shorter than any before,
    and there is a vote for each root of the stored history; an item is missing only if it was removed
    after that expiry. -/
theorem session_items_share_expiry (config : StoreConfig) (input : SessionCreationInput) (expiresAt : ℕ)
    (calls : ι → List (SessionCall U)) {table : AList (Item U)}
    (hfresh : ∀ key, isSessionKey input.sessionId key = true → table.lookup key = none) (clockMs : ℕ)
    (schedule : List (ι × Choice)) :
    ∃ votes expiry, SharesExpiry input.sessionId (∃ turn ∈ schedule, turn.2.removed ≠ []) votes expiry
      (runSchedule serve (sessionSystem config input expiresAt calls table clockMs)
        schedule).shared := by
  have hmeets :
      Meets (fun _ choice _ _ => choice.removed ≠ [] → ∃ turn ∈ schedule, turn.2.removed ≠ []) serve
      (sessionSystem config input expiresAt calls table clockMs) schedule :=
    meets_of_forall (fun turn hturn _ _ hremoved => ⟨turn, hturn, hremoved⟩) _
  have hsafe :
      ∀ c, Safe (serveGuarded fun _ choice _ _ => choice.removed ≠ [] → ∃ turn ∈ schedule,
        turn.2.removed ≠ [])
      (SessionOk input.sessionId (∃ turn ∈ schedule, turn.2.removed ≠ [])) Later c (fun _ _ => True)
      ((sessionSystem config input expiresAt calls table clockMs).programs c)
      (sessionSystem config input expiresAt calls table clockMs).shared :=
    fun c => safe_sessionCalls keeps_session (fun _ _ _ hissued => hissued) (calls c)
  obtain ⟨revision, votes, expiry, hstep⟩ :=
    inv_of_run ⟨0, 0, expiresAt, inStep_created expiresAt clockMs hfresh _⟩ hsafe hmeets
  exact ⟨votes, expiry, hstep.toSharesExpiry⟩

/-- One client votes, the other one touches the session. -/
def racingSessionCalls (c : Bool) : List (SessionCall Empty) :=
  if c then [.mutateVotes sampleSession.sessionId (sampleCalls c)]
    else [.touchSession sampleSession.sessionId]

/-- The touch reads before the vote is there, and has to read again. -/
def racingTouch : List (Bool × Choice) :=
  (List.replicate 6 false ++ List.replicate 12 true ++ List.replicate 12 false).map
    (·, ⟨10000, [], .served, 1⟩)

/-- The session after the race. -/
def racedSession : SharedTable Bool Empty :=
  (runSchedule serve (sessionSystem sampleStore sampleSession 300 racingSessionCalls ∅ 5)
    racingTouch).shared

theorem session_items_share_expiry_on_sample :
    ((racedSession.table.lookup (.identity sampleSession.sessionId)).bind (expiresAt _) = some 570 ∧
      (racedSession.table.lookup (.vote sampleSession.sessionId 0)).bind (expiresAt _) = some 570) ∧
    ∃ votes expiry,
      SharesExpiry sampleSession.sessionId (∃ turn ∈ racingTouch, turn.2.removed ≠ []) votes expiry
        racedSession :=
  ⟨by decide +kernel, session_items_share_expiry sampleStore sampleSession 300 racingSessionCalls
    (fun _ _ => rfl) 5 _⟩

end Runs

end StarkBallot.AwsAdapters.Dynamo
