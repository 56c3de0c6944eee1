import StarkBallot.Application.InputBuilder
import StarkBallot.Application.VotingTimes
import StarkBallot.Merkle.Audit

/-! The prover's input out of a session (`buildZkVMInputFromSession` of
    `application/src/zkvm-input/input-builder.ts`). On a sound record the builder returns, also when
    some of the votes are left out: the stored history gives size, root and time, and each vote that is
    kept gets its place, its opening and its path in the tree of all votes.

        votes    0 1 2 3 4        board   root of 5 leaves
        kept     0   2 3 4        input   size 5, that root, 4 records -/

namespace StarkBallot.Application
open Schemes ContractCore CryptoPrimitives Merkle Domain ZkvmContract

variable {noble : NobleUtils} {sha256 : List UInt8 → Bytes 32} {entries : List Entry} {α β : Type}

/-! ### Replies of a board -/

variable (sha256 entries) in
/-- Whichever board lists the entries, the call comes to the result, and the board lists them still. -/
def Replies (call : BuilderM α) (result : Except InputBuilderError α) : Prop :=
  ∀ board, Lists sha256 entries board → ∃ board', exec call board = (result, board') ∧
    Lists sha256 entries board'

theorem replies_pure (a : α) : Replies sha256 entries (pure a) (.ok a) :=
  fun board hlists => ⟨board, rfl, hlists⟩

theorem replies_computed {result : JsM α} {a : α} (h : result = .ok a) :
    Replies sha256 entries (computed result) (.ok a) := by
  subst h
  exact fun board hlists => ⟨board, rfl, hlists⟩

theorem replies_bind {call : BuilderM α} {next : α → BuilderM β} {a : α}
    {result : Except InputBuilderError β} (hcall : Replies sha256 entries call (.ok a))
    (hnext : Replies sha256 entries (next a) result) :
    Replies sha256 entries (call >>= next) result := by
  intro board hlists
  obtain ⟨board₁, hexec, hlists₁⟩ := hcall board hlists
  obtain ⟨board₂, hexec₂, hlists₂⟩ := hnext board₁ hlists₁
  exact ⟨board₂, by rw [exec_bind_ok hexec, hexec₂], hlists₂⟩

theorem replies_outcome {call : BuilderM α} {result : Except InputBuilderError α}
    (h : Replies sha256 entries call result) :
    Replies sha256 entries (outcome call) (.ok result) := by
  intro board hlists
  obtain ⟨board', hexec, hlists'⟩ := h board hlists
  refine ⟨board', ?_, hlists'⟩
  have houtcome : exec (outcome call) board = (.ok (exec call board).1, (exec call board).2) := rfl
  rw [houtcome, hexec]

/-- RUN: a call on each of a list. -/
theorem replies_mapM {call : α → BuilderM β} {f : α → β} {l : List α}
    (h : ∀ a ∈ l, Replies sha256 entries (call a) (.ok (f a))) :
    Replies sha256 entries (l.mapM call) (.ok (l.map f)) := by
  induction l with
  | nil => exact replies_pure []
  | cons a l ih =>
    rw [List.mapM_cons]
    refine replies_bind (h a List.mem_cons_self) (replies_bind (ih ?_) (replies_pure _))
    exact fun b hb => h b (List.mem_cons_of_mem a hb)

theorem replies_getSize : Replies sha256 entries (onBoard getSize) (.ok entries.length) := by
  intro board hlists
  refine ⟨board, ?_, hlists⟩
  rw [exec_onBoard]
  simp only [getSize, exec_bind, exec_get, exec_pure, hlists.size_eq, mapErr]

theorem replies_getCurrentRoot (hne : entries ≠ []) :
    Replies sha256 entries (onBoard (getCurrentRoot noble sha256))
      (.ok (text (rootOf sha256 entries))) := by
  intro board hlists
  obtain ⟨tree, hroot, hcoherent, hleaves⟩ := tree_getRoot noble hlists.coherent hne
  refine ⟨{ board with tree := tree }, ?_, hlists.tree_only hcoherent hleaves⟩
  rw [exec_onBoard, getCurrentRoot, onTree, exec_onPart, hroot, mapErr]

/-! ### The snapshot -/

theorem normalizeHexOrZero_of_spells {hex : JsString} {b : Bytes 32} (h : Spells hex b.toList) :
    normalizeHexOrZero hex = .ok (prefixed b) := by
  rw [normalizeHexOrZero, if_neg (spelling_ne_nil h)]
  exact normalizeHex_of_spells h false

theorem normalizeHexOrZero_prefixed (b : Bytes 32) :
    normalizeHexOrZero (prefixed b) = .ok (prefixed b) :=
  normalizeHexOrZero_of_spells (prefixed_spells b.toList)

/-- A snapshot of the whole board is taken. -/
theorem resolvePersisted_replies (hne : entries ≠ []) {latest : RootSnapshot}
    (hsize : latest.treeSize = entries.length) (hroot : latest.root = prefixed (rootOf sha256 entries)) :
    Replies sha256 entries (resolvePersistedBulletinSnapshot noble sha256 latest)
      (.ok (some latest)) := by
  unfold resolvePersistedBulletinSnapshot
  refine replies_bind replies_getSize ?_
  rw [if_neg fun hzero => hne (List.length_eq_zero_iff.mp hzero)]
  have hcompared : Replies sha256 entries (do
      let bulletinRoot ← computed (normalizeHexOrZero (← onBoard (getCurrentRoot noble sha256)))
      if entries.length = latest.treeSize then
        return decide (bulletinRoot = (← computed (normalizeHexOrZero latest.root)))
      else return false) (.ok true) := by
    refine replies_bind (replies_getCurrentRoot hne) ?_
    refine replies_bind (replies_computed (normalizeHexOrZero_of_spells (text_spells _))) ?_
    rw [if_pos hsize.symm]
    refine replies_bind (replies_computed (hroot ▸ normalizeHexOrZero_prefixed _)) ?_
    rw [hroot, decide_eq_true rfl]
    exact replies_pure true
  exact replies_bind (replies_outcome hcompared) (replies_pure _)

/-- A stored snapshot of positive time is read back in normal form. -/
theorem normalizePersisted_eq {snapshot : RootSnapshot} {root : Bytes 32} (hsize : snapshot.treeSize ≠ 0)
    (hroot : Spells snapshot.root root.toList) (htime : isPositiveInteger snapshot.timestamp = true) :
    normalizePersistedRootSnapshot snapshot = some { snapshot with root := prefixed root } := by
  unfold normalizePersistedRootSnapshot
  rw [if_neg (by simp [spelling_ne_nil hroot, hsize, htime]), orEmpty, normalizeHex_of_spells hroot true]
  rfl

theorem getLast?_of_mapM {f : α → Option β} {l : List α} {l' : List β} (h : l.mapM f = some l') {b : β}
    (hlast : l.getLast?.bind f = some b) : l'.getLast? = some b := by
  induction l using List.reverseRecOn generalizing l' with
  | nil => cases hlast
  | append_singleton l a _ =>
    rw [List.mapM_append] at h
    obtain ⟨init, -, h⟩ := Option.bind_eq_some_iff.mp h
    obtain ⟨last, hsingle, h⟩ := Option.bind_eq_some_iff.mp h
    rw [List.getLast?_concat, Option.bind_some] at hlast
    rw [List.mapM_cons, hlast] at hsingle
    rw [← Option.some.inj h, ← Option.some.inj hsingle]
    exact List.getLast?_concat

/-- The last snapshot of a timed history is one of the whole board. -/
theorem latest_of_snapshots {history : List RootSnapshot} (hsnapshots : Snapshots sha256 entries history)
    (hpositive : ∀ snapshot ∈ history, isPositiveInteger snapshot.timestamp = true)
    (hne : entries ≠ []) :
    ∃ latest, (parsePersistedRootHistory history).bind List.getLast? = some latest ∧
      latest.treeSize = entries.length ∧
      latest.root = prefixed (rootOf sha256 entries) ∧ latest.timestamp ∈ history.map (·.timestamp) := by
  have hlength := hsnapshots.length_eq
  have hpos : 0 < entries.length := List.length_pos_iff.mpr hne
  have hall :
      ∀ snapshot ∈ history, ∃ normalized, normalizePersistedRootSnapshot snapshot = some normalized := by
    intro snapshot hmem
    obtain ⟨k, hk⟩ := List.mem_iff_getElem?.mp hmem
    obtain ⟨hsize, hroot⟩ := hsnapshots.get k snapshot hk
    exact ⟨_, normalizePersisted_eq (by omega) hroot (hpositive snapshot hmem)⟩
  obtain ⟨parsed, hparsed⟩ : ∃ parsed, history.mapM normalizePersistedRootSnapshot = some parsed := by
    clear hsnapshots hpositive hlength
    induction history with
    | nil => exact ⟨[], rfl⟩
    | cons snapshot history ih =>
      obtain ⟨normalized, hnormalized⟩ := hall snapshot List.mem_cons_self
      obtain ⟨rest, hrest⟩ := ih fun other hother => hall other (List.mem_cons_of_mem _ hother)
      exact ⟨normalized :: rest, by rw [List.mapM_cons, hnormalized, hrest]; rfl⟩
  obtain ⟨last, hlast⟩ : ∃ last, history[entries.length - 1]? = some last :=
    ⟨_, List.getElem?_eq_getElem (by omega)⟩
  obtain ⟨hsize, hroot⟩ := hsnapshots.get _ _ hlast
  rw [Nat.sub_add_cancel hpos] at hsize hroot
  rw [List.take_length] at hroot
  have htime := hpositive _ (List.mem_of_getElem? hlast)
  refine ⟨{ last with root := prefixed (rootOf sha256 entries) }, ?_, hsize, rfl,
    List.mem_map.mpr ⟨last, List.mem_of_getElem? hlast, rfl⟩⟩
  rw [parsePersistedRootHistory, hparsed, Option.bind_some]
  refine getLast?_of_mapM hparsed ?_
  rw [List.getLast?_eq_getElem?, hlength, hlast, Option.bind_some]
  exact normalizePersisted_eq (by omega) hroot htime

/-- SPEC: the stored history gives size, root and time of the input. -/
theorem getLatestSTHSnapshot_replies {history : List RootSnapshot}
    (hsnapshots : Snapshots sha256 entries history)
    (hpositive : ∀ snapshot ∈ history, isPositiveInteger snapshot.timestamp = true) (hne : entries ≠ [])
    (votes : Votes) (allowSparseVoteIndices : Bool) (now : Num) :
    ∃ latest, latest.treeSize = entries.length ∧ latest.root = prefixed (rootOf sha256 entries) ∧
      latest.timestamp ∈ history.map (·.timestamp) ∧
      Replies sha256 entries
        (getLatestSTHSnapshot noble sha256 votes history allowSparseVoteIndices now) (.ok latest) := by
  obtain ⟨latest, hlatest, hsize, hroot, htime⟩ := latest_of_snapshots hsnapshots hpositive hne
  refine ⟨latest, hsize, hroot, htime, ?_⟩
  have hpersisted :
      Replies sha256 entries (getLatestPersistedSTHSnapshot noble sha256 history)
        (.ok (some latest)) := by
    unfold getLatestPersistedSTHSnapshot
    rw [hlatest]
    exact resolvePersisted_replies hne hsize hroot
  exact replies_bind hpersisted (replies_pure latest)

/-! ### The votes -/

/-- In a tree of several leaves every path has a node. -/
theorem proofNodesOf_ne_nil {i : ℕ} (h : 1 < entries.length) :
    proofNodesOf sha256 entries i entries.length ≠ [] := by
  have hlength : 1 < (hashedRange sha256 (commitsOf entries) 0 entries.length).length := by
    rw [hashedRange_length sha256 (by simp)]
    exact h
  unfold proofNodesOf
  rw [auditPath, if_pos hlength]
  split <;> simp

/-- The path of a listed vote. -/
theorem resolveMerklePath_replies {i : ℕ} {entry : Entry} (hentry : entries[i]? = some entry)
    (hsafe : entries.length ≤ Num.maxSafeInteger) :
    Replies sha256 entries (resolveMerklePath noble sha256 i entry.1 entries.length)
      (.ok ((proofNodesOf sha256 entries i entries.length).map prefixed)) := by
  obtain ⟨hi, -⟩ := List.getElem?_eq_some_iff.mp hentry
  have hproof :
      Replies sha256 entries (onBoard (getInclusionProof noble sha256 entry.1 (some entries.length)))
      (.ok (some ⟨i, (proofNodesOf sha256 entries i entries.length).map text, entries.length,
        text (subtree sha256 (commitsOf entries) 0 entries.length)⟩)) := by
    intro board hlists
    obtain ⟨tree, hexec, hlists'⟩ :=
      @getInclusionProof_lists noble sha256 _ _ hlists i _ entry hentry hi le_rfl hsafe
    exact ⟨_, by rw [exec_onBoard, hexec, mapErr], hlists'⟩
  have hpath : Replies sha256 entries (proofPath noble sha256 i entry.1 entries.length)
      (.ok (some ((proofNodesOf sha256 entries i entries.length).map prefixed))) := by
    have hnodes :
        ((proofNodesOf sha256 entries i entries.length).map text).mapM
          (fun node => normalizeHexOrZero node) =
        .ok ((proofNodesOf sha256 entries i entries.length).map prefixed) := by
      refine mapM_of_forall₂ ?_
      rw [List.forall₂_map_left_iff, List.forall₂_map_right_iff, List.forall₂_same]
      exact fun node _ => normalizeHexOrZero_of_spells (text_spells node)
    unfold proofPath
    refine replies_bind hproof ?_
    dsimp only
    refine replies_bind (replies_computed (asIndex_of_le _ (by omega))) ?_
    rw [if_neg (by simp), if_neg (by simp)]
    exact replies_bind (replies_computed hnodes) (replies_pure _)
  unfold resolveMerklePath resolvePathFromBulletin
  refine replies_bind (replies_bind (replies_outcome hpath) (replies_pure _)) ?_
  dsimp only
  rw [if_pos]
  · exact replies_pure _
  · by_cases hmany : 1 < entries.length
    · left
      rw [List.length_map]
      exact List.length_pos_iff.mpr (proofNodesOf_ne_nil hmany)
    · exact .inr (not_lt.mp hmany)

/-- The record of a stored vote. -/
def inputVote (sha256 : List UInt8 → Bytes 32) (entries : List Entry) (entry : ℕ × StoredVoteRecord) :
    ZkVMInput.VoteWithProof where
  commitment := entry.2.commit
  choice := .ofNat entry.2.vote.toNumber
  random := entry.2.rand
  index := .ofNat entry.1
  merklePath := (proofNodesOf sha256 entries entry.1 entries.length).map prefixed

theorem normalizeHexOrZero_of_normal {hex : JsString} (h : Normal hex) :
    normalizeHexOrZero hex = .ok hex := by
  obtain ⟨digits, rfl, hrest⟩ := h
  rw [normalizeHexOrZero, if_neg (by simp [js])]
  exact normalizeHex_of_normal ⟨digits, rfl, hrest⟩ false

/-- SPEC: a stored vote comes with its opening, its commitment and its path. -/
theorem buildVoteWithProof_replies {electionId : JsString} {votes kept : Votes}
    {entry : ℕ × StoredVoteRecord} (hholds : Holds sha256 entries votes)
    (hopened : Opened noble sha256 electionId entry.2.toBotVoteCommand entry.2.commit)
    (hsafe : entries.length ≤ Num.maxSafeInteger) (hmem : entry ∈ votes)
    (hkept : kept.lookup entry.1 = some entry.2) :
    Replies sha256 entries (buildVoteWithProof noble sha256 kept electionId entries.length entry.1)
      (.ok (inputVote sha256 entries entry)) := by
  obtain ⟨k, hk⟩ := List.mem_iff_getElem?.mp hmem
  obtain ⟨listed, hlisted, hindex, hid, -, -⟩ :=
    @Domain.Holds.get sha256 entries votes hholds k entry.1 entry.2 hk
  have hpath := @resolveMerklePath_replies noble sha256 entries entry.1 listed (hindex ▸ hlisted) hsafe
  rw [← hid] at hpath
  unfold buildVoteWithProof
  rw [hkept]
  dsimp only
  refine replies_bind (replies_computed (normalizeHexOrZero_of_normal hopened.normal)) ?_
  refine replies_bind (replies_computed hopened.commit_eq) ?_
  exact replies_bind hpath (replies_pure _)

/-! ### Votes that are kept -/

/-- The votes that are kept, in their order, and with gaps only where that is allowed. -/
structure Retains (votes : Votes) (allowSparseVoteIndices : Bool) (kept : Votes) : Prop where
  sublist : kept.Sublist votes
  all : allowSparseVoteIndices = false → kept = votes

theorem retains_all (votes : Votes) (allowSparseVoteIndices : Bool) :
    Retains votes allowSparseVoteIndices votes :=
  ⟨.refl votes, fun _ => rfl⟩

theorem retains_delete (votes : Votes) (index : ℕ) : Retains votes true (mapDelete votes index) :=
  ⟨List.filter_sublist, fun h => by cases h⟩

section Kept

variable {votes kept : Votes} {allowSparseVoteIndices : Bool}

theorem Retains.keys_sorted (hkept : Retains votes allowSparseVoteIndices kept)
    (hholds : Holds sha256 entries votes) :
    (kept.map Prod.fst).Pairwise (· < ·) := by
  have hkeys : (kept.map Prod.fst).Sublist (List.range entries.length) :=
    hholds.keys_eq ▸ hkept.sublist.map Prod.fst
  exact (List.pairwise_lt_range).sublist hkeys

theorem Retains.key_lt (hkept : Retains votes allowSparseVoteIndices kept)
    (hholds : Holds sha256 entries votes) :
    ∀ index ∈ kept.map Prod.fst, index < entries.length := by
  intro index hindex
  have hmem := (hkept.sublist.map Prod.fst).subset hindex
  rwa [hholds.keys_eq, List.mem_range] at hmem

theorem resolveInputVoteIndices_ok (hholds : Holds sha256 entries votes)
    (hsafe : entries.length ≤ Num.maxSafeInteger) (hkept : Retains votes allowSparseVoteIndices kept) :
    resolveInputVoteIndices kept allowSparseVoteIndices = .ok (kept.map Prod.fst) := by
  have hsorted : sortBy byNumber (kept.map Prod.fst) = kept.map Prod.fst :=
    sortBy_of_sorted ((hkept.keys_sorted hholds).imp fun hlt => byNumber_not_pos hlt.le)
  have hintegers :
      ((kept.map Prod.fst : List ℕ) : List ℤ) = (kept.map Prod.fst).map fun index : ℕ => (index : ℤ) :=
    List.flatMap_pure_eq_map _ _
  have hindices : ((kept.map Prod.fst : List ℕ) : List ℤ).mapM (fun index => asVoteIndex index) =
      .ok (kept.map Prod.fst) := by
    rw [hintegers]
    refine mapM_of_forall₂ (List.forall₂_map_left_iff.mpr (List.forall₂_same.mpr ?_))
    intro index hindex
    have hlt := hkept.key_lt hholds index hindex
    exact asIndex_of_le _ (by omega)
  unfold resolveInputVoteIndices
  dsimp only
  rw [hsorted, hindices]
  cases allowSparseVoteIndices with
  | true =>
    rw [if_neg (by simp)]
    rfl
  | false =>
    rw [if_pos (by simp), hkept.all rfl, hholds.canonical hsafe]
    rfl

end Kept

/-! ### The input -/

/-- The input that is built from the votes that are kept. -/
def sessionInput (sha256 : List UInt8 → Bytes 32) (identity : SessionIdentityRecord)
    (entries : List Entry) (kept : Votes) (logId : JsString) (timestamp : Num) : ZkVMInput where
  electionId := identity.electionId
  bulletinRoot := prefixed (rootOf sha256 entries)
  treeSize := .ofNat entries.length
  logId := logId
  timestamp := timestamp
  totalExpected := identity.electionConfig.totalExpected
  electionConfigHash := identity.electionConfigHash
  votes := kept.map (inputVote sha256 entries)

/-- SPEC: on a sound and timed record the builder returns, whichever votes are kept. -/
theorem buildZkVMInputFromSession_replies {identity : SessionIdentityRecord}
    {voting : SessionVotingRecord} {kept : Votes} {allowSparseVoteIndices : Bool} {logId : JsString}
    (h : Sound noble sha256 identity.electionId entries voting)
    (htimed : Timed voting.votes voting.bulletinRootHistory) (hne : entries ≠ [])
    (hsession : identity.sessionId = voting.sessionId)
    (hconfig : hasMatchingElectionConfigHash noble sha256 identity.electionConfig
      identity.electionConfigHash = true)
    (hlogId : identity.logId ≠ []) (hlog : normalizeHexOrZero identity.logId = .ok logId)
    (hkept : Retains voting.votes allowSparseVoteIndices kept) (now : Num) :
    ∃ timestamp ∈ voting.votes.map (·.2.timestamp), Replies sha256 entries
      (buildZkVMInputFromSession noble sha256 identity { voting with votes := kept }
        allowSparseVoteIndices now)
      (.ok (sessionInput sha256 identity entries kept logId timestamp)) := by
  have hpositive :
      ∀ snapshot ∈ voting.bulletinRootHistory, isPositiveInteger snapshot.timestamp = true := by
    intro snapshot hsnapshot
    have htime : snapshot.timestamp ∈ voting.votes.map (·.2.timestamp) :=
      htimed.times_eq ▸ List.mem_map_of_mem hsnapshot
    obtain ⟨entry, hentry, htime⟩ := List.mem_map.mp htime
    rw [← htime]
    exact htimed.positive entry hentry
  obtain ⟨latest, hsize, hroot, htime, hlatest⟩ :=
    @getLatestSTHSnapshot_replies noble sha256 entries _ h.snapshots hpositive hne kept
      allowSparseVoteIndices now
  have hkeys : (kept.map Prod.fst).Nodup := (hkept.keys_sorted h.holds).imp fun hlt => hlt.ne
  have hvotes : Replies sha256 entries
      (buildVotesWithProofs noble sha256 kept identity.electionId entries.length allowSparseVoteIndices)
      (.ok (kept.map (inputVote sha256 entries))) := by
    unfold buildVotesWithProofs
    refine replies_bind (replies_computed (resolveInputVoteIndices_ok h.holds h.safe hkept)) ?_
    rw [List.mapM_map]
    refine replies_mapM ?_
    intro entry hentry
    have hmem := hkept.sublist.subset hentry
    exact buildVoteWithProof_replies h.holds (h.opened entry hmem) h.safe hmem
      (lookup_of_mem hkeys hentry)
  have hnormal : normalizeHexOrZero latest.root = .ok (prefixed (rootOf sha256 entries)) := by
    rw [hroot]
    exact normalizeHexOrZero_prefixed _
  refine ⟨latest.timestamp, htimed.times_eq ▸ htime, ?_⟩
  unfold buildZkVMInputFromSession
  rw [if_neg (not_not.mpr hsession), if_neg (not_not.mpr hconfig), if_neg hlogId]
  refine replies_bind hlatest ?_
  refine replies_bind (replies_computed hnormal) ?_
  refine replies_bind (replies_computed hlog) ?_
  rw [hsize]
  exact replies_bind hvotes (replies_pure _)

end StarkBallot.Application
