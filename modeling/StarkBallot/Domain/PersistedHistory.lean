import StarkBallot.Domain.SessionState
import StarkBallot.Validation.UnknownValues
import StarkBallot.Runtime.Sha256

/-! A stored root history of any shape (`domain/src/lib/bulletin/ctSessionState.ts`). What was stored is
    data of type `unknown`: it is parsed, compared with the roots that are recomputed from the votes,
    and taken over only where every size and every root is the recomputed one; then its times and
    signatures go into the answer.

        votes  ──▶ recomputed  (t₀, 1, r₁) (t₁, 2, r₂)
        stored ──▶ parsed      (s₀, 1, r₁) (s₁, 2, r₂)   ──▶  (s₀, 1, r₁) (s₁, 2, r₂)
                               (s₀, 1, r₁) (s₁, 2, x)    ──▶  (t₀, 1, r₁) (t₁, 2, r₂)

    `number` is what the language makes of a text, whatever that is. -/

namespace StarkBallot.Domain.UnknownHistory
open Schemes ContractCore CryptoPrimitives Merkle Validation

/-! ### Parsing -/

section Parsing

variable (number : JsString → Num)

/-- `\s`, as `trim` takes it away. -/
def isWhitespace (c : Char) : Bool :=
  c.toNat ∈ [0x9, 0xA, 0xB, 0xC, 0xD, 0x20, 0xA0, 0x1680, 0x2028, 0x2029, 0x202F, 0x205F,
    0x3000, 0xFEFF] || (0x2000 ≤ c.toNat && c.toNat ≤ 0x200A)

def toPositiveInteger (value : JsValue) : Option Num :=
  match value with
  | .number n => if isPositiveInteger n then some n else none
  | .string text =>
    if text.any (fun c => !isWhitespace c) ∧ isPositiveInteger (number text) then
      some (number text) else none
  | _ => none

/-- The signature is kept if it is a text. -/
def normalizePersistedRootSnapshot (value : JsValue) : Option RootSnapshot :=
  match getStringProperty value "root", toPositiveInteger number (property value "treeSize"),
    toPositiveInteger number (property value "timestamp") with
  | some root, some treeSize, some timestamp =>
    if root = [] then none
    else (normalizeHex root orEmpty).toOption.map fun root =>
      ⟨timestamp, treeSize.toNat, root, getStringProperty value "signature"⟩
  | _, _, _ => none

def parsePersistedRootHistory (value : JsValue) : Option (List RootSnapshot) :=
  match value with
  | .array elements => elements.mapM (normalizePersistedRootSnapshot number)
  | _ => none

variable (noble : NobleUtils) (sha256 : List UInt8 → Bytes 32)

def getCanonicalBulletinRootHistory (votes : Votes) (bulletinRootHistory : JsValue)
    (fallbackTimestamp : Num) :
    JsM (List RootSnapshot) := do
  let reconstructedHistory ← rebuildCanonicalHistoryFromVotes noble sha256 votes fallbackTimestamp
  return mergePersistedRootHistory reconstructedHistory
    (parsePersistedRootHistory number bulletinRootHistory)

end Parsing

/-! ### The recomputed history -/

variable {number : JsString → Num} {noble : NobleUtils} {sha256 : List UInt8 → Bytes 32}

/-- The commits that the votes spell, in the order of their indices. -/
def CommitsOf (votes : List StoredVoteRecord) (commits : List (Bytes 32)) : Prop :=
  List.Forall₂ (fun vote commit => Spells (normalizeHexString vote.commit) commit.toList) votes commits

variable (sha256) in
def rootOfCommits (commits : List (Bytes 32)) : Bytes 32 :=
  computeMerkleRoot sha256 (commits.map (ContractCore.hashLeaf sha256))

variable (sha256) in
/-- One snapshot for each vote. -/
def recomputed (fallbackTimestamp : Num) (votes : List StoredVoteRecord) (commits : List (Bytes 32)) :
    List RootSnapshot :=
  votes.zipIdx.map fun vote => ⟨resolveSnapshotTimestamp vote.1 fallbackTimestamp, vote.2 + 1,
    prefixed (rootOfCommits sha256 (commits.take (vote.2 + 1))), none⟩

section Recomputed

variable {votes : List StoredVoteRecord} {commits : List (Bytes 32)} {vote : StoredVoteRecord}
  {commit : Bytes 32} {fallbackTimestamp : Num}

theorem recomputed_length :
    (recomputed sha256 fallbackTimestamp votes commits).length = votes.length := by
  rw [recomputed, List.length_map, List.length_zipIdx]

theorem recomputed_get (k : ℕ) : (recomputed sha256 fallbackTimestamp votes commits)[k]? =
    votes[k]?.map fun vote => ⟨resolveSnapshotTimestamp vote fallbackTimestamp, k + 1,
      prefixed (rootOfCommits sha256 (commits.take (k + 1))), none⟩ := by
  rw [recomputed, List.getElem?_map, List.getElem?_zipIdx, Option.map_map, Nat.zero_add]
  rfl

theorem recomputed_concat (hlength : votes.length = commits.length) :
    recomputed sha256 fallbackTimestamp (votes ++ [vote]) (commits ++ [commit]) =
      recomputed sha256 fallbackTimestamp votes commits ++
        [⟨resolveSnapshotTimestamp vote fallbackTimestamp, commits.length + 1,
          prefixed (rootOfCommits sha256 (commits ++ [commit])), none⟩] := by
  refine List.ext_getElem? fun k => ?_
  rw [recomputed_get]
  rcases Nat.lt_trichotomy k votes.length with hk | rfl | hk
  · rw [List.getElem?_append_left hk, List.getElem?_append_left (by rwa [recomputed_length]),
      recomputed_get, List.take_append_of_le_length (by omega)]
  · rw [List.getElem?_append_right le_rfl, List.getElem?_append_right (by rw [recomputed_length]),
      recomputed_length, Nat.sub_self, hlength, List.take_of_length_le (by simp)]
    rfl
  · rw [List.getElem?_eq_none (by simp; omega),
      List.getElem?_eq_none (by simp [recomputed_length]; omega)]
    rfl

/-- A tree takes a commit exactly if its normal form spells one. -/
theorem append_spelled {tree : Tree} (hcoherent : Coherent sha256 commits tree) {hex : JsString}
    (hspells : Spells (normalizeHexString hex) commit.toList) :
    ∃ tree', exec (Merkle.append hex) tree = (.ok (), tree') ∧
      Coherent sha256 (commits ++ [commit]) tree' ∧
      tree'.leaves.length = tree.leaves.length + 1 := by
  have hexec : exec (Merkle.append hex) tree = (.ok (), { tree with
      leaves := tree.leaves ++ [normalizeHexString hex]
      rootCache := tree.rootCache.filter fun cached =>
        cached.1 ≤ (tree.leaves ++ [normalizeHexString hex]).length - 1 }) := by
    simp only [Merkle.append, if_neg (spelling_ne_nil hspells), isValidHexString_spelling hspells,
      not_true_eq_false, if_false, exec_bind, exec_modify]
  exact ⟨_, hexec, append_coherent hcoherent hspells, by simp⟩

theorem spelled_of_append {tree tree' : Tree} {hex : JsString}
    (h : exec (Merkle.append hex) tree = (.ok (), tree')) :
    ∃ commit : Bytes 32, Spells (normalizeHexString hex) commit.toList := by
  simp only [Merkle.append] at h
  split at h
  · cases h
  split at h
  · cases h
  · rename_i hvalid
    exact isValidHexString_spells (not_not.mp hvalid)

/-- STEP: one vote more, and its snapshot. -/
theorem rebuildHistoryStep_spelled {tree : Tree} {done : List StoredVoteRecord}
    (hdone : CommitsOf done commits) (hcoherent : Coherent sha256 commits tree)
    (hspells : Spells (normalizeHexString vote.commit) commit.toList) :
    ∃ tree', exec (rebuildHistoryStep noble sha256 fallbackTimestamp
        (recomputed sha256 fallbackTimestamp done commits) vote) tree =
          (.ok (recomputed sha256 fallbackTimestamp (done ++ [vote]) (commits ++ [commit])), tree') ∧
      Coherent sha256 (commits ++ [commit]) tree' := by
  obtain ⟨tree₁, happend, hcoherent₁, hleaves₁⟩ := append_spelled hcoherent hspells
  obtain ⟨tree₂, hroot, hcoherent₂⟩ := @getRoot_yields noble sha256 _ tree₁ hcoherent₁ (by simp)
  have hleaves₂ := hcoherent₂.length_eq
  rw [List.length_append, List.length_singleton] at hleaves₂
  have hnormal := normalizeHex_text (rootOfCommits sha256 (commits ++ [commit])) true
  refine ⟨tree₂, ?_, hcoherent₂⟩
  rw [recomputed_concat hdone.length_eq]
  unfold rebuildHistoryStep
  rw [rootOfCommits] at hnormal
  simp only [exec_bind, happend, hroot, exec_lifted, orEmpty, hnormal, rootOfCommits,
    exec_get, exec_pure]
  rw [hleaves₂]

end Recomputed

/-- The commit of the vote that a loop has come to. -/
theorem CommitsOf.get_of_split {votes done rest : List StoredVoteRecord} {vote : StoredVoteRecord}
    {commits : List (Bytes 32)} (h : CommitsOf votes commits) (hsplit : votes = done ++ vote :: rest) :
    ∃ commit, commits[done.length]? = some commit ∧
    Spells (normalizeHexString vote.commit) commit.toList := by
  subst hsplit
  have hdrop := List.forall₂_drop done.length h
  rw [List.drop_left] at hdrop
  obtain ⟨commit, rest', hspells, -, hcommits⟩ := List.forall₂_cons_left_iff.mp hdrop
  refine ⟨commit, ?_, hspells⟩
  rw [← Nat.add_zero done.length, ← List.getElem?_drop, hcommits, List.getElem?_cons_zero]

section Rebuilt

variable {votes : Votes} {commits : List (Bytes 32)} {n : ℕ} {fallbackTimestamp : Num}

/-- RUN: where the votes spell commits, the history is the recomputed one. -/
theorem rebuild_spelled (hcanonical : assertCanonicalCtVoteIndices (votes.map Prod.fst) = .ok n)
    (hcommits : CommitsOf (sortedVotes votes) commits) :
    rebuildCanonicalHistoryFromVotes noble sha256 votes fallbackTimestamp =
      .ok (recomputed sha256 fallbackTimestamp (sortedVotes votes) commits) := by
  have hloop := @exec_foldlM_returns JsError Tree _ _ (sortedVotes votes)
    (fun done history tree => CommitsOf done (commits.take done.length) ∧
      Coherent sha256 (commits.take done.length) tree ∧
      history = recomputed sha256 fallbackTimestamp done (commits.take done.length))
    (rebuildHistoryStep noble sha256 fallbackTimestamp) [] Tree.new ⟨.nil, coherent_new, rfl⟩
  obtain ⟨history, tree, hexec, -, -, hhistory⟩ := hloop (by
    rintro done vote rest hsplit history tree ⟨hdone, hcoherent, rfl⟩
    obtain ⟨commit, hcommit, hspells⟩ := hcommits.get_of_split hsplit
    have htake : commits.take (done ++ [vote]).length = commits.take done.length ++ [commit] := by
      rw [List.length_append, List.length_singleton, List.take_add_one, hcommit, Option.toList_some]
    obtain ⟨tree', hexec, hcoherent'⟩ :=
      @rebuildHistoryStep_spelled noble _ _ _ _ fallbackTimestamp _ _ hdone hcoherent
      hspells
    rw [htake]
    exact ⟨_, tree', hexec, List.rel_append hdone (.cons hspells .nil), hcoherent', rfl⟩)
  rw [hcommits.length_eq, List.take_length] at hhistory
  rw [rebuildCanonicalHistoryFromVotes, hcanonical, ok_bind, hexec, hhistory]

/-- RUN: where a vote spells no commit, nothing is rebuilt. -/
theorem commits_of_rebuild {history : List RootSnapshot}
    (h : rebuildCanonicalHistoryFromVotes noble sha256 votes fallbackTimestamp = .ok history) :
    ∃ commits, CommitsOf (sortedVotes votes) commits := by
  obtain ⟨_, -, h⟩ := bind_eq_ok.mp h
  rcases hexec :
    exec ((sortedVotes votes).foldlM (rebuildHistoryStep noble sha256 fallbackTimestamp) [])
      Tree.new with
    ⟨_ | history', tree⟩
  · rw [hexec] at h
    cases h
  · refine @exec_foldlM_eq_ok JsError Tree _ _ (sortedVotes votes)
      (fun done _ _ => ∃ commits, CommitsOf done commits) _ _ _ _ _ ⟨[], .nil⟩ ?_ hexec
    rintro done vote rest - b s b' s' ⟨commits, hdone⟩ hstep
    obtain ⟨_, tree', happend, -⟩ := exec_bind_eq_ok hstep
    obtain ⟨commit, hspells⟩ := spelled_of_append happend
    exact ⟨commits ++ [commit], List.rel_append hdone (.cons hspells .nil)⟩

end Rebuilt

/-! ### What is taken over -/

variable (sha256) in
/-- The sizes and the roots of a history are those of the commits. -/
structure RootsOf (commits : List (Bytes 32)) (history : List RootSnapshot) : Prop where
  length_eq : history.length = commits.length
  get : ∀ k snapshot, history[k]? = some snapshot →
    snapshot.treeSize = k + 1 ∧ snapshot.root = prefixed (rootOfCommits sha256 (commits.take (k + 1)))

/-- A snapshot with the time and the signature of a stored one. -/
def withStored (plain stored : RootSnapshot) : RootSnapshot :=
  { plain with timestamp := stored.timestamp, signature := stored.signature }

/-- Unsigned, as every recomputed snapshot is. -/
def Unsigned (history : List RootSnapshot) : Prop := ∀ snapshot ∈ history, snapshot.signature = none

section Merged

variable {commits : List (Bytes 32)} {plain persisted history : List RootSnapshot}

theorem RootsOf.of_agreesWith (h : RootsOf sha256 commits plain)
    (hagrees : agreesWith plain persisted = true) :
    RootsOf sha256 commits persisted := by
  rw [agreesWith, Bool.and_eq_true, decide_eq_true_eq, List.all_eq_true] at hagrees
  obtain ⟨hlength, hall⟩ := hagrees
  refine ⟨hlength.trans h.length_eq, fun k stored hstored => ?_⟩
  have hk : k < plain.length := by
    rw [← hlength]
    exact (List.getElem?_eq_some_iff.mp hstored).1
  obtain ⟨hsize, hroot⟩ := h.get k plain[k] (List.getElem?_eq_getElem hk)
  have hpair := hall (plain[k], stored)
    (List.mem_of_getElem? (List.getElem?_zip_eq_some.mpr ⟨List.getElem?_eq_getElem hk, hstored⟩))
  rw [Bool.and_eq_true, decide_eq_true_eq, decide_eq_true_eq] at hpair
  exact ⟨hpair.1.trans hsize, hpair.2.trans hroot⟩

theorem RootsOf.agreesWith (h : RootsOf sha256 commits plain) (h' : RootsOf sha256 commits persisted) :
    agreesWith plain persisted = true := by
  rw [Domain.agreesWith, Bool.and_eq_true, decide_eq_true_eq, List.all_eq_true]
  refine ⟨h'.length_eq.trans h.length_eq.symm, fun pair hpair => ?_⟩
  obtain ⟨k, hk⟩ := List.mem_iff_getElem?.mp hpair
  obtain ⟨hplain, hstored⟩ := List.getElem?_zip_eq_some.mp hk
  obtain ⟨hsize, hroot⟩ := h.get k _ hplain
  obtain ⟨hsize', hroot'⟩ := h'.get k _ hstored
  rw [hsize, hsize', hroot, hroot']
  simp

theorem zip_map_eq_zipWith (hplain : Unsigned plain) :
    (plain.zip persisted).map (fun pair => { pair.1 with
      timestamp := pair.2.timestamp
      signature :=
        pair.2.signature.or pair.1.signature }) = List.zipWith withStored plain persisted := by
  induction plain generalizing persisted with
  | nil => rfl
  | cons snapshot plain ih =>
    obtain ⟨hsnapshot, hrest⟩ := List.forall_mem_cons.mp hplain
    cases persisted with
    | nil => rfl
    | cons stored persisted =>
      rw [List.zip_cons_cons, List.map_cons, List.zipWith_cons_cons, ih hrest, hsnapshot, Option.or_none]
      rfl

/-- MERGE: the recomputed history, or the stored times and signatures where all roots agree. -/
theorem merge_cases (hplain : Unsigned plain) (stored : Option (List RootSnapshot)) :
    mergePersistedRootHistory plain stored = plain ∨ ∃ persisted, stored = some persisted ∧
      agreesWith plain persisted = true ∧
      mergePersistedRootHistory plain stored = List.zipWith withStored plain persisted := by
  unfold mergePersistedRootHistory
  split
  · rename_i hzero
    exact .inl (List.length_eq_zero_iff.mp hzero).symm
  split
  · exact .inl rfl
  · rename_i persisted
    split
    · exact .inl rfl
    · rename_i hagrees
      exact .inr ⟨persisted, rfl, not_not.mp hagrees, zip_map_eq_zipWith hplain⟩

theorem RootsOf.withStored (h : RootsOf sha256 commits plain)
    (hlength : persisted.length = plain.length) :
    RootsOf sha256 commits (List.zipWith withStored plain persisted) := by
  refine ⟨by rw [List.length_zipWith, hlength, Nat.min_self, h.length_eq],
    fun k snapshot hsnapshot => ?_⟩
  rw [List.getElem?_zipWith] at hsnapshot
  rcases hplain : plain[k]? with _ | first
  · rw [hplain] at hsnapshot
    cases hsnapshot
  · rcases hstored : persisted[k]? with _ | stored
    · rw [hplain, hstored] at hsnapshot
      cases hsnapshot
    · rw [hplain, hstored] at hsnapshot
      cases hsnapshot
      exact h.get k first hplain

/-- FIXED: a history with the roots of the commits is left as it is. -/
theorem merge_own (hplain : Unsigned plain) (hroots : RootsOf sha256 commits plain)
    (hown : RootsOf sha256 commits history) :
    mergePersistedRootHistory plain (some history) = history := by
  have hlength : history.length = plain.length := hown.length_eq.trans hroots.length_eq.symm
  unfold mergePersistedRootHistory
  split
  · rename_i hzero
    exact (List.length_eq_zero_iff.mp (hlength.trans hzero)).symm
  · dsimp only
    rw [if_neg (not_not.mpr (hroots.agreesWith hown)), zip_map_eq_zipWith hplain]
    refine List.ext_getElem? fun k => ?_
    rw [List.getElem?_zipWith]
    rcases hk : plain[k]? with _ | first
    · have hnone : history[k]? = none := by
        rw [List.getElem?_eq_none_iff, hlength]
        exact List.getElem?_eq_none_iff.mp hk
      rw [hnone]
    · have hlt : k < history.length := by
        rw [hlength]
        exact (List.getElem?_eq_some_iff.mp hk).1
      rw [List.getElem?_eq_getElem hlt]
      obtain ⟨hsize, hroot⟩ := hroots.get k first hk
      obtain ⟨hsize', hroot'⟩ := hown.get k _ (List.getElem?_eq_getElem hlt)
      have hsame : UnknownHistory.withStored first history[k] = history[k] := by
        rw [UnknownHistory.withStored, hroot, ← hroot', hsize, ← hsize']
      exact congrArg some hsame

end Merged

/-! ### A history as data -/

/-- A snapshot as a plain object. -/
def ofSnapshot (snapshot : RootSnapshot) : JsValue := .object (
  [(js "timestamp", .number snapshot.timestamp), (js "root", .string snapshot.root),
    (js "treeSize", .number (.ofNat snapshot.treeSize))] ++
  (snapshot.signature.map fun signature => (js "signature", .string signature)).toList)

def ofHistory (history : List RootSnapshot) : JsValue := .array (history.map ofSnapshot)

/-- What is kept of a snapshot when it is read. -/
structure Readable (snapshot : RootSnapshot) : Prop where
  timestamp : isPositiveInteger snapshot.timestamp = true
  treeSize : 0 < snapshot.treeSize
  root : ∃ root : Bytes 32, snapshot.root = prefixed root

section Data

variable {snapshot : RootSnapshot} {history : List RootSnapshot}

theorem isPositiveInteger_ofNat {n : ℕ} (h : 0 < n) : isPositiveInteger (.ofNat n) = true := by
  rw [isPositiveInteger, Num.ofNat_isInteger, Num.ofNat_lt, Bool.true_and, decide_eq_true_eq]
  exact h

theorem ofSnapshot_signature :
    getStringProperty (ofSnapshot snapshot) "signature" = snapshot.signature := by
  cases hsigned : snapshot.signature with
  | none =>
    rw [ofSnapshot, hsigned]
    rfl
  | some signature =>
    rw [ofSnapshot, hsigned]
    rfl

/-- TYPED: on a snapshot, data is read as the snapshot itself is. -/
theorem normalize_ofSnapshot : normalizePersistedRootSnapshot number (ofSnapshot snapshot) =
    Domain.normalizePersistedRootSnapshot snapshot := by
  have hroot : getStringProperty (ofSnapshot snapshot) "root" = some snapshot.root := rfl
  have hsize : toPositiveInteger number (property (ofSnapshot snapshot) "treeSize") =
      if isPositiveInteger (.ofNat snapshot.treeSize) then some (.ofNat snapshot.treeSize) else none :=
      rfl
  have htime : toPositiveInteger number (property (ofSnapshot snapshot) "timestamp") =
      if isPositiveInteger snapshot.timestamp then some snapshot.timestamp else none := rfl
  rw [normalizePersistedRootSnapshot, Domain.normalizePersistedRootSnapshot, hroot, hsize, htime,
    ofSnapshot_signature]
  by_cases hkept :
    snapshot.root = [] ∨ snapshot.treeSize = 0 ∨ ¬ isPositiveInteger snapshot.timestamp = true
  · rw [if_pos hkept]
    rcases hkept with hempty | hzero | htimestamp
    · rw [hempty]
      split
      · rename_i hread _ _
        obtain rfl := Option.some.inj hread
        rfl
      · rfl
    · rw [hzero]
      rfl
    · rw [if_neg htimestamp]
      split
      · rename_i hread
        cases hread
      · rfl
  · rw [if_neg hkept]
    obtain ⟨hempty, hsizePos, htimestamp⟩ : snapshot.root ≠ [] ∧ 0 < snapshot.treeSize ∧
        isPositiveInteger snapshot.timestamp = true := by
      simpa [not_or, Nat.pos_iff_ne_zero] using hkept
    rw [if_pos (isPositiveInteger_ofNat hsizePos), if_pos htimestamp]
    simp only [if_neg hempty, Num.ofNat_toNat]

/-- TYPED: on a history, data is parsed as the history itself is. -/
theorem parse_ofHistory :
    parsePersistedRootHistory number (ofHistory history) = Domain.parsePersistedRootHistory history := by
  have hread : (history.map ofSnapshot).mapM (normalizePersistedRootSnapshot number) =
      history.mapM Domain.normalizePersistedRootSnapshot := by
    induction history with
    | nil => rfl
    | cons snapshot history ih =>
        rw [List.map_cons, List.mapM_cons, List.mapM_cons, normalize_ofSnapshot, ih]
  exact hread

/-- TYPED: the answer on a history is the answer on its data. -/
theorem getCanonical_ofHistory {votes : Votes} {fallbackTimestamp : Num} :
    getCanonicalBulletinRootHistory number noble sha256 votes (ofHistory history) fallbackTimestamp =
      Domain.getCanonicalBulletinRootHistory noble sha256 votes history fallbackTimestamp := by
  rw [getCanonicalBulletinRootHistory, parse_ofHistory]
  rfl

theorem normalize_of_readable (h : Readable snapshot) :
    Domain.normalizePersistedRootSnapshot snapshot = some snapshot := by
  obtain ⟨root, hroot⟩ := h.root
  have hspells : Spells snapshot.root root.toList := hroot ▸ prefixed_spells root.toList
  have hnormal : normalizeHex snapshot.root orEmpty = .ok snapshot.root := by
    rw [orEmpty, normalizeHex_of_spelling hspells true true, hroot]
  rw [Domain.normalizePersistedRootSnapshot, hnormal, if_neg]
  · rfl
  · simp [spelling_ne_nil hspells, h.treeSize.ne', h.timestamp]

/-- ROUND TRIP: a history that can be read is read as it is. -/
theorem parse_of_readable (h : ∀ snapshot ∈ history, Readable snapshot) :
    Domain.parsePersistedRootHistory history = some history := by
  induction history with
  | nil => rfl
  | cons snapshot history ih =>
    obtain ⟨hsnapshot, hrest⟩ := List.forall_mem_cons.mp h
    have hparsed := ih hrest
    rw [Domain.parsePersistedRootHistory] at hparsed ⊢
    rw [List.mapM_cons, normalize_of_readable hsnapshot, hparsed]
    rfl

end Data

/-! ### The result -/

theorem mapM_mem {α β : Type} {f : α → Option β} {l : List α} {r : List β} (h : l.mapM f = some r) :
    ∀ b ∈ r, ∃ a ∈ l, f a = some b := by
  induction l generalizing r with
  | nil =>
    rw [List.mapM_nil] at h
    obtain rfl := Option.some.inj h
    exact fun b hb => absurd hb List.not_mem_nil
  | cons a l ih =>
    rw [List.mapM_cons] at h
    obtain ⟨first, hfirst, h⟩ := Option.bind_eq_some_iff.mp h
    obtain ⟨rest, hrest, h⟩ := Option.bind_eq_some_iff.mp h
    obtain rfl := Option.some.inj h
    rintro b (_ | ⟨_, hb⟩)
    · exact ⟨a, List.mem_cons_self, hfirst⟩
    · obtain ⟨a', ha', hb⟩ := ih hrest b hb
      exact ⟨a', List.mem_cons_of_mem a ha', hb⟩

section Result

variable {votes : Votes} {cast : List StoredVoteRecord} {commits : List (Bytes 32)} {n : ℕ}
  {fallbackTimestamp : Num} {history : List RootSnapshot}

theorem recomputed_roots (hlength : cast.length = commits.length) :
    RootsOf sha256 commits (recomputed sha256 fallbackTimestamp cast commits) := by
  refine ⟨recomputed_length.trans hlength, fun k snapshot hsnapshot => ?_⟩
  rw [recomputed_get, Option.map_eq_some_iff] at hsnapshot
  obtain ⟨vote, -, rfl⟩ := hsnapshot
  exact ⟨rfl, rfl⟩

theorem recomputed_unsigned : Unsigned (recomputed sha256 fallbackTimestamp cast commits) := by
  intro snapshot hsnapshot
  obtain ⟨vote, -, rfl⟩ := List.mem_map.mp hsnapshot
  rfl

/-- Every time of an answer is a positive integer. -/
def Timed (history : List RootSnapshot) : Prop :=
  ∀ snapshot ∈ history, isPositiveInteger snapshot.timestamp = true

theorem recomputed_timed (hnow : isPositiveInteger fallbackTimestamp = true) :
    Timed (recomputed sha256 fallbackTimestamp cast commits) := by
  intro snapshot hsnapshot
  obtain ⟨vote, -, rfl⟩ := List.mem_map.mp hsnapshot
  rw [resolveSnapshotTimestamp]
  split
  · assumption
  · exact hnow

theorem toPositiveInteger_positive {value : JsValue} {n : Num}
    (h : toPositiveInteger number value = some n) :
    isPositiveInteger n = true := by
  unfold toPositiveInteger at h
  split at h
  · split at h
    · obtain rfl := Option.some.inj h
      assumption
    · cases h
  · split at h
    · rename_i hread
      obtain rfl := Option.some.inj h
      exact hread.2
    · cases h
  · cases h

theorem parsed_timed {value : JsValue} {persisted : List RootSnapshot}
    (h : parsePersistedRootHistory number value = some persisted) : Timed persisted := by
  unfold parsePersistedRootHistory at h
  split at h
  · intro snapshot hsnapshot
    obtain ⟨element, -, hread⟩ := mapM_mem h snapshot hsnapshot
    unfold normalizePersistedRootSnapshot at hread
    split at hread
    · rename_i hroot hsize htime
      split at hread
      · cases hread
      · obtain ⟨root, -, rfl⟩ := Option.map_eq_some_iff.mp hread
        exact toPositiveInteger_positive htime
    · cases hread
  · cases h

theorem Timed.withStored {plain persisted : List RootSnapshot} (h : Timed persisted) :
    Timed (List.zipWith withStored plain persisted) := by
  intro snapshot hsnapshot
  obtain ⟨k, hk⟩ := List.mem_iff_getElem?.mp hsnapshot
  obtain ⟨first, stored, -, hstored, rfl⟩ := List.getElem?_zipWith_eq_some.mp hk
  exact h stored (List.mem_of_getElem? hstored)

theorem readable_of_roots (hroots : RootsOf sha256 commits history) (htimed : Timed history) :
    ∀ snapshot ∈ history, Readable snapshot := by
  intro snapshot hsnapshot
  obtain ⟨k, hk⟩ := List.mem_iff_getElem?.mp hsnapshot
  obtain ⟨hsize, hroot⟩ := hroots.get k snapshot hk
  exact ⟨htimed snapshot hsnapshot, hsize ▸ Nat.succ_pos k, _, hroot⟩

theorem getCanonical_eq (hcanonical : assertCanonicalCtVoteIndices (votes.map Prod.fst) = .ok n)
    (hcommits : CommitsOf (sortedVotes votes) commits) (value : JsValue) :
    getCanonicalBulletinRootHistory number noble sha256 votes value fallbackTimestamp =
      .ok (mergePersistedRootHistory (recomputed sha256 fallbackTimestamp (sortedVotes votes) commits)
        (parsePersistedRootHistory number value)) := by
  rw [getCanonicalBulletinRootHistory, rebuild_spelled hcanonical hcommits, ok_bind]
  rfl

/-- The answer on a stored value, next to the answer on none. -/
structure Answer (number : JsString → Num) (sha256 : List UInt8 → Bytes 32) (commits : List (Bytes 32))
    (value : JsValue) (plain history : List RootSnapshot) : Prop where
  roots : RootsOf sha256 commits history
  stored : history = plain ∨ ∃ persisted, parsePersistedRootHistory number value = some persisted ∧
    RootsOf sha256 commits persisted ∧ history = List.zipWith withStored plain persisted

/-- STORED DATA: with canonical indices, either every vote spells a commit and the answer has the roots
    of the commits, whatever was stored; what was stored gives times and signatures only, and only where
    its own sizes and roots are the same; and the answer is its own answer. Or a vote spells none, and
    the call throws, whatever was stored. -/
theorem stored_history_forges_no_root
    (hcanonical : assertCanonicalCtVoteIndices (votes.map Prod.fst) = .ok n)
    (hnow : isPositiveInteger fallbackTimestamp = true) :
    (∀ commits, CommitsOf (sortedVotes votes) commits → commits.length = votes.length ∧
      ∀ value, ∃ plain history,
      getCanonicalBulletinRootHistory number noble sha256 votes .undefined
        fallbackTimestamp = .ok plain ∧
      getCanonicalBulletinRootHistory number noble sha256 votes value fallbackTimestamp = .ok history ∧
      Answer number sha256 commits value plain history ∧
      ∀ later, getCanonicalBulletinRootHistory number noble sha256 votes (ofHistory history) later =
        .ok history) ∧
    ((¬ ∃ commits, CommitsOf (sortedVotes votes) commits) → ∃ e, ∀ value,
      getCanonicalBulletinRootHistory number noble sha256 votes value fallbackTimestamp = .error e) := by
  constructor
  · intro commits hcommits
    have hlength : (sortedVotes votes).length = votes.length := by
      rw [sortedVotes, List.length_map, sortBy, (List.mergeSort_perm _ _).length_eq]
    refine ⟨hcommits.length_eq.symm.trans hlength, fun value => ?_⟩
    have hroots := @recomputed_roots sha256 _ _ fallbackTimestamp hcommits.length_eq
    have hunsigned := @recomputed_unsigned sha256 (sortedVotes votes) commits fallbackTimestamp
    have htimed := @recomputed_timed sha256 (sortedVotes votes) commits fallbackTimestamp hnow
    have hplain :
        mergePersistedRootHistory (recomputed sha256 fallbackTimestamp (sortedVotes votes) commits)
        (parsePersistedRootHistory number .undefined) =
          recomputed sha256 fallbackTimestamp (sortedVotes votes) commits := by
      rcases merge_cases hunsigned
        (parsePersistedRootHistory number .undefined) with hplain | ⟨_, hnone, -⟩
      · exact hplain
      · cases hnone
    have hanswer : RootsOf sha256 commits (mergePersistedRootHistory
          (recomputed sha256 fallbackTimestamp (sortedVotes votes) commits)
          (parsePersistedRootHistory number value)) ∧
        Timed (mergePersistedRootHistory
          (recomputed sha256 fallbackTimestamp (sortedVotes votes) commits)
          (parsePersistedRootHistory number value)) := by
      rcases merge_cases hunsigned (parsePersistedRootHistory number value) with
        hsame | ⟨persisted, hparsed, hagrees, htaken⟩
      · rw [hsame]
        exact ⟨hroots, htimed⟩
      · have hpersisted := hroots.of_agreesWith hagrees
        rw [htaken]
        exact ⟨hroots.withStored (hpersisted.length_eq.trans hroots.length_eq.symm),
          (parsed_timed hparsed).withStored⟩
    refine ⟨_, _, getCanonical_eq hcanonical hcommits .undefined,
      getCanonical_eq hcanonical hcommits value, ⟨hanswer.1, ?_⟩, fun later => ?_⟩
    · rw [hplain]
      refine (merge_cases hunsigned (parsePersistedRootHistory number value)).imp_right ?_
      rintro ⟨persisted, hparsed, hagrees, htaken⟩
      exact ⟨persisted, hparsed, hroots.of_agreesWith hagrees, htaken⟩
    · rw [getCanonical_eq hcanonical hcommits, parse_ofHistory,
        parse_of_readable (readable_of_roots hanswer.1 hanswer.2),
        merge_own recomputed_unsigned (recomputed_roots hcommits.length_eq) hanswer.1]
  · intro hnone
    rcases hrebuild :
      rebuildCanonicalHistoryFromVotes noble sha256 votes fallbackTimestamp with e | history
    · refine ⟨e, fun value => ?_⟩
      rw [getCanonicalBulletinRootHistory, hrebuild]
      rfl
    · exact absurd (commits_of_rebuild hrebuild) hnone

end Result

/-! ### One vote -/

/-- A text of digits as a number. -/
def readDigits (text : JsString) : Num :=
  if text ≠ [] ∧ text.all Char.isDigit then .ofNat (Nat.ofDigitChars 10 text 0) else .nan

def voteWithCommit (commit : JsString) : StoredVoteRecord where
  vote := .a
  rand := prefixed (Bytes.fill 32 2)
  voteId := js "11111111-1111-4111-8111-111111111111"
  timestamp := .ofNat 7
  commit := commit
  rootAtCast := prefixed (Bytes.fill 32 0)

theorem one_vote_canonical (vote : StoredVoteRecord) :
    assertCanonicalCtVoteIndices (([(0, vote)] : Votes).map Prod.fst) = .ok 1 := by
  have hsorted : assertCanonicalCtVoteIndices [0] = .ok 1 := by
    rw [assertCanonicalCtVoteIndices, sortBy, List.mergeSort_singleton]
    decide
  exact hsorted

/-- A stored history of one root that is not the root of the vote. -/
def forgedHistory : JsValue := .array [.object [(js "timestamp", .string (js "9")),
  (js "root", .string (prefixed (Bytes.fill 32 0))), (js "treeSize", .number (.ofNat 1))]]

theorem stored_history_on_sample : ∃ history,
    getCanonicalBulletinRootHistory readDigits .reference Sha256.digest
      [(0, voteWithCommit (prefixed (Bytes.fill 32 1)))] forgedHistory (.ofNat 5) = .ok history ∧
    RootsOf Sha256.digest [Bytes.fill 32 1] history := by
  have hcommits :
      CommitsOf (sortedVotes [(0, voteWithCommit (prefixed (Bytes.fill 32 1)))]) [Bytes.fill 32 1] := by
    rw [sortedVotes, sortBy, List.mergeSort_singleton]
    refine .cons ?_ .nil
    have hnormal : normalizeHexString (prefixed (Bytes.fill 32 1)) = text (Bytes.fill 32 1) :=
      normalizeHexString_of_spells (prefixed_spells _)
    exact hnormal.symm ▸ text_spells _
  obtain ⟨-, hstored⟩ :=
    (@stored_history_forges_no_root readDigits .reference Sha256.digest _ _ (.ofNat 5)
    (one_vote_canonical _) (by decide)).1 _ hcommits
  obtain ⟨plain, history, -, hhistory, hanswer, -⟩ := hstored forgedHistory
  exact ⟨history, hhistory, hanswer.roots⟩

/-- A vote that spells no commit is in no history. -/
theorem malformed_commit_throws : ¬ ∀ (votes : Votes) (n : ℕ) (value : JsValue) (now : Num),
    assertCanonicalCtVoteIndices (votes.map Prod.fst) = .ok n → isPositiveInteger now = true →
    ∃ history, getCanonicalBulletinRootHistory readDigits .reference Sha256.digest votes value now =
      .ok history := by
  intro hall
  obtain ⟨history, hhistory⟩ :=
    hall [(0, voteWithCommit (js "zz"))] 1 .undefined (.ofNat 5) (one_vote_canonical _)
    (by decide)
  obtain ⟨rebuilt, hrebuilt, -⟩ := bind_eq_ok.mp hhistory
  obtain ⟨commits, hcommits⟩ := commits_of_rebuild hrebuilt
  rw [sortedVotes, sortBy, List.mergeSort_singleton, List.map_singleton, CommitsOf,
    List.forall₂_cons_left_iff] at hcommits
  obtain ⟨commit, -, hspells, -⟩ := hcommits
  have hvalid := isValidHexString_spelling hspells
  rw [show isValidHexString (normalizeHexString (voteWithCommit (js "zz")).commit) (some 32) =
    false by decide] at hvalid
  cases hvalid

end StarkBallot.Domain.UnknownHistory
