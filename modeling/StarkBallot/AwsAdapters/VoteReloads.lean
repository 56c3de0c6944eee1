import StarkBallot.AwsAdapters.DynamoRecords
import StarkBallot.AwsAdapters.VoteRestore
import StarkBallot.Application.VoteAppends

/-! A voting record read back from its items (`aws-adapters/src/store/dynamoSessionStore.ts`). Reading
    normalizes the roots, restoring compares and copies; whatever the times in the record, what comes
    back from the items of a sound record is alike it. So an evaluation of what came back is one of the
    record itself. -/

namespace StarkBallot.AwsAdapters.Dynamo
open Schemes ContractCore CryptoPrimitives Merkle Domain Application

variable {noble : NobleUtils} {sha256 : List UInt8 → Bytes 32} {cipher : VoteSecretCipher}
  {entries : List Entry}
  {identity : SessionIdentityRecord} {voting restored : SessionVotingRecord} {items : List VoteItem}

/-! ### Records whose roots are spelled anew -/

/-- A root in its one spelling is parsed to the same. -/
theorem normalizePersistedRootSnapshot_congr {snapshot snapshot' : RootSnapshot} {root : Bytes 32}
    (hspells : Spells snapshot.root root.toList) (hsame : SameSnapshot snapshot snapshot') :
    normalizePersistedRootSnapshot snapshot' = normalizePersistedRootSnapshot snapshot := by
  obtain ⟨timestamp, treeSize, value, signature⟩ := snapshot
  obtain ⟨timestamp', treeSize', value', signature'⟩ := snapshot'
  obtain ⟨htimestamp, htreeSize, hsignature, hroot⟩ := hsame
  dsimp only at hspells htimestamp htreeSize hsignature hroot
  subst htimestamp htreeSize hsignature
  obtain rfl : prefixed root = value' :=
    Except.ok.inj ((normalizeHex_of_spells hspells false).symm.trans hroot)
  have hne : value ≠ [] := by
    rintro rfl
    cases hroot
  have hne' : prefixed root ≠ [] := List.cons_ne_nil _ _
  have hnormal : normalizeHex value orEmpty = .ok (prefixed root) := normalizeHex_of_spells hspells true
  have hnormal' : normalizeHex (prefixed root) orEmpty = .ok (prefixed root) :=
    normalizeHex_prefixed root true
  simp only [normalizePersistedRootSnapshot, hne, hne', hnormal, hnormal', false_or]

theorem mapM_congr_of_forall₂ {α β γ : Type} {f : α → Option γ} {g : β → Option γ} {l : List α}
    {l' : List β} (h : List.Forall₂ (fun a b => g b = f a) l l') : l'.mapM g = l.mapM f := by
  induction h with
  | nil => rfl
  | cons hhead _ ih => rw [List.mapM_cons, List.mapM_cons, hhead, ih]

/-- The same record on a board of the same log is alike. -/
theorem SameRecord.alike (h : Sound noble sha256 identity.electionId entries voting)
    (hsame : SameRecord voting restored) (hlog : restored.bulletin.logId = voting.bulletin.logId) :
    Alike voting restored where
  sessionId_eq := hsame.sessionId_eq
  logId_eq := hlog
  votes_eq := hsame.votes_eq
  history_eq := by
    refine mapM_congr_of_forall₂ (List.forall₂_iff_get.mpr ⟨hsame.history.length_eq, ?_⟩)
    intro k hk hk'
    obtain ⟨-, hspells⟩ := h.snapshots.get k _ (List.getElem?_eq_getElem hk)
    exact normalizePersistedRootSnapshot_congr hspells
      ((List.forall₂_iff_get.mp hsame.history).2 k hk hk')
  botCount_eq := hsame.botCount_eq
  userParticipation_eq := hsame.userParticipation_eq

/-! ### Reading -/

/-- A stored snapshot is read as it was, its root in the one spelling. -/
theorem parseRootSnapshot_same {snapshot parsed : RootSnapshot} {root : Bytes 32}
    (hspells : Spells snapshot.root root.toList) (h : parseRootSnapshot snapshot = some parsed) :
    SameSnapshot snapshot parsed := by
  unfold parseRootSnapshot at h
  split at h
  · cases h
  · rw [normalizeHex_of_spelling hspells false false] at h
    rw [← Option.some.inj h]
    exact ⟨rfl, rfl, rfl, normalizeHex_of_spells hspells false⟩

theorem forall₂_of_mapM_eq_some {α β : Type} {f : α → Option β} {l : List α} {l' : List β}
    (h : l.mapM f = some l') :
    List.Forall₂ (fun a b => f a = some b) l l' := by
  induction l generalizing l' with
  | nil =>
    rw [← Option.some.inj h]
    exact .nil
  | cons a l ih =>
    rw [List.mapM_cons] at h
    obtain ⟨b, hb, h⟩ := Option.bind_eq_some_iff.mp h
    obtain ⟨rest, hrest, h⟩ := Option.bind_eq_some_iff.mp h
    rw [← Option.some.inj h]
    exact .cons hb (ih hrest)

/-- What is read of a voting item is the item with its roots spelled anew. -/
theorem parseVotingItem_eq_some {sessionId : JsString} {raw parsed : VotingItem}
    (h : parseVotingItem sessionId raw = some parsed) :
    ∃ history, parsed = { raw with record := { raw.record with bulletinRootHistory := history } } ∧
      raw.record.bulletinRootHistory.mapM parseRootSnapshot = some history := by
  unfold parseVotingItem at h
  split at h
  · cases h
  obtain ⟨record, hrecord, h⟩ := Option.bind_eq_some_iff.mp h
  rw [← Option.some.inj h]
  unfold parsePersistedVotingRecord at hrecord
  obtain ⟨participation, hparticipation, hrecord⟩ := Option.bind_eq_some_iff.mp hrecord
  split at hrecord
  · cases hrecord
  obtain ⟨history, hhistory, hrecord⟩ := Option.bind_eq_some_iff.mp hrecord
  obtain ⟨-, rfl⟩ := accept_eq_some.mp hparticipation
  rw [← Option.some.inj hrecord]
  exact ⟨history, rfl, hhistory⟩

/-- The record as it is read is the same record. -/
theorem sameRecord_of_parse (h : Sound noble sha256 identity.electionId entries voting)
    {history : List RootSnapshot}
    (hhistory : voting.bulletinRootHistory.mapM parseRootSnapshot = some history) :
    SameRecord voting { voting with bulletinRootHistory := history } where
  sessionId_eq := rfl
  votes_eq := rfl
  botCount_eq := rfl
  userParticipation_eq := rfl
  lastActivityMs_eq := rfl
  commitments_eq := rfl
  history := by
    have hparsed := forall₂_of_mapM_eq_some hhistory
    refine List.forall₂_iff_get.mpr ⟨hparsed.length_eq, ?_⟩
    intro k hk hk'
    obtain ⟨-, hspells⟩ := h.snapshots.get k _ (List.getElem?_eq_getElem hk)
    exact parseRootSnapshot_same hspells ((List.forall₂_iff_get.mp hparsed).2 k hk hk')

/-! ### Restoring -/

/-- A snapshot that was restored is the stored one. -/
theorem restoreRootSnapshot_same {persisted : List RootSnapshot} {votes : Votes}
    {snapshot stored found : RootSnapshot} {index : ℕ} {root : Bytes 32}
    (hstored : persisted[index]? = some stored) (hspells : Spells stored.root root.toList)
    (h : restoreRootSnapshot persisted votes (snapshot, index) = .ok found) :
    SameSnapshot stored found := by
  simp only [restoreRootSnapshot, hstored, okOr, ok_bind, normalizeStrictHex32_of_spells hspells] at h
  obtain ⟨_, -, h⟩ := bind_eq_ok.mp h
  obtain ⟨_, hroot, h⟩ := bind_eq_ok.mp h
  obtain ⟨_, -, h⟩ := bind_eq_ok.mp h
  have hroot : prefixed root = snapshot.root := not_not.mp (refuseIf_eq_ok.mp hroot)
  rw [← Except.ok.inj h]
  exact ⟨rfl, rfl, rfl, by rw [← hroot]; exact normalizeHex_of_spells hspells false⟩

/-- A history that was restored is the stored one. -/
theorem restorePersistedRootHistory_same (h : Sound noble sha256 identity.electionId entries voting)
    {reconstructed history : List RootSnapshot} {votes : Votes}
    (hrestored : restorePersistedRootHistory voting.bulletinRootHistory reconstructed votes =
      .ok history) :
    List.Forall₂ SameSnapshot voting.bulletinRootHistory history := by
  unfold restorePersistedRootHistory at hrestored
  obtain ⟨_, hlength, hrestored⟩ := bind_eq_ok.mp hrestored
  have hlength : voting.bulletinRootHistory.length = reconstructed.length :=
    not_not.mp (refuseIf_eq_ok.mp hlength)
  have hall := forall₂_of_mapM hrestored
  have hcount : history.length = voting.bulletinRootHistory.length := by
    rw [← hall.length_eq, List.length_zipIdx, hlength]
  refine List.forall₂_iff_get.mpr ⟨hcount.symm, ?_⟩
  intro k hk hk'
  have hstored := List.getElem?_eq_getElem hk
  obtain ⟨-, hspells⟩ := h.snapshots.get k _ hstored
  have hstep := (List.forall₂_iff_get.mp hall).2 k (by rw [List.length_zipIdx, ← hlength]; exact hk) hk'
  simp only [List.get_eq_getElem, List.getElem_zipIdx, Nat.zero_add] at hstep
  exact restoreRootSnapshot_same hstored hspells hstep

/-- RESTORE: what was restored from the items of a sound record is the same record. -/
theorem restoreVotingRecord_same (h : Sound noble sha256 identity.electionId entries voting)
    (hsession : voting.sessionId = identity.sessionId) (hitems : ItemsOf cipher voting.votes items)
    {voteItems : List VoteItem} (hperm : voteItems.Perm items) {now : ℕ → Num}
    (hrestored : restoreVotingRecord noble sha256 cipher identity (toPersistedVotingRecord voting)
      voteItems now = .ok restored) :
    SameRecord voting restored ∧ Lists sha256 entries restored.bulletin ∧
      restored.bulletin.logId = identity.logId := by
  have hsorted :
      sortBy (fun left right : VoteItem => byNumber left.voteIndex right.voteIndex) voteItems = items :=
    sortBy_of_perm hperm (hitems.sorted h.holds)
  obtain ⟨board, hboard, hlists, hlog⟩ := restoreVoteItems_ok h hitems now
  simp only [restoreVotingRecord, hsorted, hboard, ok_bind] at hrestored
  obtain ⟨history, hhistory, hrestored⟩ := bind_eq_ok.mp hrestored
  obtain ⟨_, -, hrestored⟩ := bind_eq_ok.mp hrestored
  rw [← Except.ok.inj hrestored]
  refine ⟨⟨hsession.symm, rfl, rfl, rfl, rfl, ?_, ?_⟩, hlists, hlog⟩
  · rw [hlists.commitments_eq, h.lists.commitments_eq]
  · exact restorePersistedRootHistory_same h hhistory

/-- READ AND RESTORE: what comes back from the items of a sound record is sound, and alike. -/
theorem reload_alike (h : Sound noble sha256 identity.electionId entries voting)
    (hsession : voting.sessionId = identity.sessionId) (hlog : voting.bulletin.logId = identity.logId)
    (hitems : ItemsOf cipher voting.votes items) {voteItems : List VoteItem}
    (hperm : voteItems.Perm items) {history : List RootSnapshot}
    (hhistory : voting.bulletinRootHistory.mapM parseRootSnapshot = some history) {now : ℕ → Num}
    (hrestored : restoreVotingRecord noble sha256 cipher identity
      { toPersistedVotingRecord voting with bulletinRootHistory := history } voteItems now =
        .ok restored) :
    Sound noble sha256 identity.electionId entries restored ∧ Alike voting restored := by
  have hread := sameRecord_of_parse h hhistory
  have hsound := hread.sound h h.lists
  obtain ⟨hsame, hlists, hlogId⟩ := restoreVotingRecord_same hsound hsession hitems hperm hrestored
  have halike := hread.alike h rfl
  have halike' := hsame.alike hsound (hlogId.trans hlog.symm)
  refine ⟨hsame.sound hsound hlists, ⟨?_, ?_⟩, ?_, ?_, ?_, ?_⟩
  · exact halike'.sessionId_eq
  · exact halike'.logId_eq
  · exact halike'.votes_eq
  · exact halike'.history_eq.trans halike.history_eq
  · exact halike'.botCount_eq
  · exact halike'.userParticipation_eq

end StarkBallot.AwsAdapters.Dynamo
