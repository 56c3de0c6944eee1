import StarkBallot.Domain.Constants
import StarkBallot.Domain.Hex
import StarkBallot.Merkle.Transparency

/-! The bulletin board (`domain/src/lib/bulletin/simple-bulletin-board.ts`): a tree over the
    commitments, and next to it maps and lists that say the same in other ways. A board `Lists` entries
    when all of them agree on the votes and their order; appending a fresh vote to such a board adds it
    everywhere, anything else throws and leaves the board as it was. The clock is read once for each
    append; the reading is an argument. -/

namespace StarkBallot.Domain
open Schemes ContractCore CryptoPrimitives Merkle

variable (noble : NobleUtils) (sha256 : List UInt8 → Bytes 32)

structure VoteEntry where
  voteId : JsString
  commitment : JsString
  index : ℕ
  timestamp : Num
  rootAtAppend : JsString

structure AppendResult where
  index : ℕ
  rootAtAppend : JsString
  timestamp : Num

structure RootSnapshot where
  timestamp : Num
  treeSize : ℕ
  root : JsString
  signature : Option JsString := none

/-- The proof the board hands out; the tree's own has no root. -/
structure BoardProof where
  leafIndex : ℕ
  proofNodes : List JsString
  treeSize : ℤ
  rootHash : JsString

structure SimpleBulletinBoard where
  tree : Tree
  voteEntries : List (JsString × VoteEntry)
  commitmentSet : List JsString
  commitments : List JsString
  rootHistory : List RootSnapshot
  logId : JsString

/-- `new SimpleBulletinBoard(logId)`. -/
def SimpleBulletinBoard.new (logId : JsString) : SimpleBulletinBoard := ⟨Tree.new, [], [], [], [], logId⟩

abbrev BoardM := ExceptT JsError (StateM SimpleBulletinBoard)

/-- A call on the board's tree. -/
def onTree {α : Type} (call : TreeM α) : BoardM α :=
  onPart (·.tree) (fun board tree => { board with tree := tree }) call

def appendVote (voteId commitment : JsString) (now : Num) : BoardM AppendResult := do
  if ¬ isValidVoteId voteId then throw (.error "Invalid vote ID format")
  else if ((← get).voteEntries.lookup voteId).isSome then throw (.error "Vote ID already exists")
  else if normalizeHexString commitment = [] then throw (.error "Commitment cannot be empty")
  else if ¬ isValidHexString (normalizeHexString commitment) (some 32) then
    throw (.error "Invalid commitment format")
  else if normalizeHexString commitment ∈ (← get).commitmentSet then
    throw (.error "Commitment already exists")
  else
    let normalizedCommitment := normalizeHexString commitment
    let index ← lifted (asBulletinIndex (← get).commitments.length)
    onTree (Merkle.append normalizedCommitment)
    let rootAtAppend ← onTree (getRoot noble sha256)
    modify fun board => { board with
      voteEntries :=
        mapSet board.voteEntries voteId ⟨voteId, normalizedCommitment, index, now, rootAtAppend⟩
      commitmentSet := setAdd board.commitmentSet normalizedCommitment
      commitments := board.commitments ++ [normalizedCommitment]
      rootHistory := board.rootHistory ++ [⟨now, board.tree.leaves.length, rootAtAppend, none⟩] }
    return ⟨index, rootAtAppend, now⟩

def getSize : BoardM ℕ := do return (← get).tree.leaves.length

def getCurrentRoot : BoardM JsString := onTree (getRoot noble sha256)

def proofOf (entry : VoteEntry) (size : ℤ) : BoardM BoardProof := do
  if size ≤ 0 then throw (.error "Tree size must be positive")
  else if size > (← get).tree.leaves.length then
    throw (.error s!"Tree size {size} exceeds current tree size {(← get).tree.leaves.length}")
  else if entry.index ≥ size then
    throw (.error s!"Leaf index {entry.index} is out of range for tree size {size}")
  else
    let proof ← onTree (Merkle.getInclusionProof noble sha256 entry.index (some size))
    let leafIndex ← lifted (asLeafIndex proof.leafIndex)
    let rootHash ← onTree (getRootAtSize noble sha256 size)
    return ⟨leafIndex, proof.proofNodes, size, rootHash⟩

def getInclusionProof (voteId : JsString) (treeSize : Option ℤ) : BoardM (Option BoardProof) := do
  match (← get).voteEntries.lookup voteId with
  | none => return none
  | some entry => return some (← proofOf noble sha256 entry (treeSize.getD (← get).tree.leaves.length))

/-! ### What a board lists -/

/-- A vote on the board. -/
abbrev Entry := JsString × Bytes 32

def commitsOf (entries : List Entry) : List (Bytes 32) := entries.map Prod.snd

/-- A vote that may be appended. -/
structure Fresh (entries : List Entry) (entry : Entry) : Prop where
  valid_id : isValidVoteId entry.1 = true
  new_id : entry.1 ∉ entries.map Prod.fst
  new_commit : entry.2 ∉ commitsOf entries

/-- All parts of the board agree on the entries. -/
structure Lists (entries : List Entry) (board : SimpleBulletinBoard) : Prop where
  coherent : Coherent sha256 (commitsOf entries) board.tree
  leaves_eq : board.tree.leaves = (commitsOf entries).map text
  commitments_eq : board.commitments = (commitsOf entries).map text
  commitmentSet_eq : board.commitmentSet = (commitsOf entries).map text
  keys_eq : board.voteEntries.map Prod.fst = entries.map Prod.fst
  indices_eq : board.voteEntries.map (fun e => e.2.index) = List.range entries.length
  ids_nodup : (entries.map Prod.fst).Nodup
  commits_nodup : (commitsOf entries).Nodup
  ids_valid : ∀ entry ∈ entries, isValidVoteId entry.1 = true

variable {sha256} {entries : List Entry} {board : SimpleBulletinBoard}

@[simp] theorem commitsOf_length (entries : List Entry) : (commitsOf entries).length = entries.length :=
  List.length_map _

@[simp] theorem commitsOf_concat (entries : List Entry) (entry : Entry) :
    commitsOf (entries ++ [entry]) = commitsOf entries ++ [entry.2] := by
  simp [commitsOf]

theorem lists_new (logId : JsString) : Lists sha256 [] (SimpleBulletinBoard.new logId) where
  coherent := coherent_new
  leaves_eq := rfl
  commitments_eq := rfl
  commitmentSet_eq := rfl
  keys_eq := rfl
  indices_eq := rfl
  ids_nodup := List.nodup_nil
  commits_nodup := List.nodup_nil
  ids_valid := by simp

theorem Lists.lookup_isSome (h : Lists sha256 entries board) (voteId : JsString) :
    (board.voteEntries.lookup voteId).isSome = true ↔ voteId ∈ entries.map Prod.fst := by
  rw [lookup_isSome_iff_mem, h.keys_eq]

/-- A listed vote is found, with its position. -/
theorem Lists.lookup (h : Lists sha256 entries board) {i : ℕ} {entry : Entry}
    (hentry : entries[i]? = some entry) :
    ∃ voteEntry, board.voteEntries.lookup entry.1 = some voteEntry ∧ voteEntry.index = i := by
  have hlen : board.voteEntries.length = entries.length := by
    have hkeys := congrArg List.length h.keys_eq
    rwa [List.length_map, List.length_map] at hkeys
  obtain ⟨hi, -⟩ := List.getElem?_eq_some_iff.mp hentry
  obtain ⟨found, hfound⟩ : ∃ found, board.voteEntries[i]? = some found :=
    ⟨_, List.getElem?_eq_getElem (hlen ▸ hi)⟩
  have hkey : found.1 = entry.1 := by
    have hkeys := congrArg (·[i]?) h.keys_eq
    simpa [hfound, hentry] using hkeys
  have hindex : found.2.index = i := by
    have hindices := congrArg (·[i]?) h.indices_eq
    simpa [hfound, hi] using hindices
  refine ⟨found.2, lookup_of_mem ?_ ?_, hindex⟩
  · rw [h.keys_eq]
    exact h.ids_nodup
  · rw [← hkey]
    exact List.mem_of_getElem? hfound

/-- The root of a board that lists the entries. -/
def rootOf (sha256 : List UInt8 → Bytes 32) (entries : List Entry) : Bytes 32 :=
  computeMerkleRoot sha256 ((commitsOf entries).map (ContractCore.hashLeaf sha256))

/-- A tree takes any spelling of the next commitment. -/
theorem tree_append {tree : Tree} (hcoherent : Coherent sha256 (commitsOf entries) tree) (entry : Entry)
    {hex : JsString} (hspells : Spells hex entry.2.toList) :
    ∃ tree', exec (Merkle.append hex) tree = (.ok (), tree') ∧
      Coherent sha256 (commitsOf (entries ++ [entry])) tree' ∧
      tree'.leaves = tree.leaves ++ [text entry.2] := by
  have hvalid := isValidHexString_text entry.2
  have hexec : exec (Merkle.append hex) tree = (.ok (), { tree with
      leaves := tree.leaves ++ [text entry.2]
      rootCache := tree.rootCache.filter fun cached =>
        cached.1 ≤ (tree.leaves ++ [text entry.2]).length - 1 }) := by
    have hnormal : normalizeHexString hex = text entry.2 := normalizeHexString_of_spells hspells
    simp only [Merkle.append, hnormal, if_neg (text_ne_nil entry.2), hvalid, not_true_eq_false,
      if_false, exec_bind, exec_modify]
  refine ⟨_, hexec, ?_, rfl⟩
  rw [commitsOf_concat]
  exact append_coherent hcoherent (text_spells entry.2)

/-- The tree's root, read off without changing the leaves. -/
theorem tree_getRoot {tree : Tree} (hcoherent : Coherent sha256 (commitsOf entries) tree)
    (hne : entries ≠ []) :
    ∃ tree', exec (getRoot noble sha256) tree = (.ok (text (rootOf sha256 entries)), tree') ∧
      Coherent sha256 (commitsOf entries) tree' ∧ tree'.leaves = tree.leaves := by
  have hcommits : commitsOf entries ≠ [] := by
    rw [← List.length_pos_iff, commitsOf_length]
    exact List.length_pos_iff.mpr hne
  obtain ⟨tree', hexec, hcoherent'⟩ := @getRoot_yields noble sha256 _ tree hcoherent hcommits
  have hleaves := getRoot_frames noble sha256 tree
  rw [hexec] at hleaves
  exact ⟨tree', hexec, hcoherent', hleaves⟩

/-- APPEND: a fresh vote is listed last, under the root of all. -/
theorem appendVote_fresh (h : Lists sha256 entries board) {entry : Entry} (hfresh : Fresh entries entry)
    (hsize : entries.length ≤ Num.maxSafeInteger) (now : Num) :
    ∃ board', exec (appendVote noble sha256 entry.1 (text entry.2) now) board =
        (.ok ⟨entries.length, text (rootOf sha256 (entries ++ [entry])), now⟩, board') ∧
      Lists sha256 (entries ++ [entry]) board' ∧ board'.logId = board.logId := by
  obtain ⟨tree, happend, hcoherent, hleaves⟩ := tree_append h.coherent entry (text_spells entry.2)
  obtain ⟨tree', hroot, hcoherent', hleaves'⟩ := tree_getRoot noble hcoherent (by simp)
  have hid : ¬ (board.voteEntries.lookup entry.1).isSome = true := by
    rw [h.lookup_isSome]
    exact hfresh.new_id
  have hcommit : text entry.2 ∉ board.commitmentSet := by
    rw [h.commitmentSet_eq]
    rintro hmem
    obtain ⟨c, hc, heq⟩ := List.mem_map.mp hmem
    exact hfresh.new_commit (text_injective heq ▸ hc)
  have hindex : asBulletinIndex board.commitments.length = .ok entries.length := by
    rw [h.commitments_eq, List.length_map, commitsOf_length]
    exact asIndex_of_le _ hsize
  have hexec : exec (appendVote noble sha256 entry.1 (text entry.2) now) board =
      (.ok ⟨entries.length, text (rootOf sha256 (entries ++ [entry])), now⟩, { board with
        tree := tree'
        voteEntries := mapSet board.voteEntries entry.1
          ⟨entry.1, text entry.2, entries.length, now, text (rootOf sha256 (entries ++ [entry]))⟩
        commitmentSet := setAdd board.commitmentSet (text entry.2)
        commitments := board.commitments ++ [text entry.2]
        rootHistory := board.rootHistory ++
          [⟨now, tree'.leaves.length, text (rootOf sha256 (entries ++ [entry])), none⟩] }) := by
    unfold appendVote
    rw [if_neg (not_not.mpr hfresh.valid_id), exec_get_bind, if_neg hid, normalizeHexString_text,
      if_neg (text_ne_nil entry.2), if_neg (by simp [isValidHexString_text]), exec_get_bind,
      if_neg hcommit]
    simp only [exec_get, exec_bind, exec_lifted, hindex, onTree, exec_onPart, happend, hroot,
      exec_modify, exec_pure]
  have hkey : entry.1 ∉ board.voteEntries.map Prod.fst := by
    rw [h.keys_eq]
    exact hfresh.new_id
  refine ⟨_, hexec, ?_, rfl⟩
  exact {
    coherent := hcoherent'
    leaves_eq := by simp [hleaves', hleaves, h.leaves_eq]
    commitments_eq := by simp [h.commitments_eq]
    commitmentSet_eq := by
      rw [setAdd_of_not_mem hcommit, h.commitmentSet_eq]
      simp
    keys_eq := by simp [mapSet_of_not_mem hkey, h.keys_eq]
    indices_eq := by simp [mapSet_of_not_mem hkey, h.indices_eq, List.range_succ]
    ids_nodup := by
      rw [List.map_append, List.nodup_append]
      refine ⟨h.ids_nodup, by simp, ?_⟩
      intro id hid id' hid'
      rw [List.map_singleton, List.mem_singleton] at hid'
      rintro rfl
      exact hfresh.new_id (hid' ▸ hid)
    commits_nodup := by
      rw [commitsOf_concat, List.nodup_append]
      refine ⟨h.commits_nodup, by simp, ?_⟩
      intro c hc c' hc'
      rw [List.mem_singleton] at hc'
      rintro rfl
      exact hfresh.new_commit (hc' ▸ hc)
    ids_valid := by
      intro listed hlisted
      rcases List.mem_append.mp hlisted with hlisted | hlisted
      · exact h.ids_valid listed hlisted
      · rw [List.mem_singleton.mp hlisted]
        exact hfresh.valid_id }

/-- Any other vote is refused and leaves no trace. -/
theorem appendVote_stale (h : Lists sha256 entries board) {entry : Entry}
    (hstale : ¬ Fresh entries entry) (now : Num) :
    ∃ e, exec (appendVote noble sha256 entry.1 (text entry.2) now) board = (.error e, board) := by
  unfold appendVote
  by_cases hvalid : isValidVoteId entry.1 = true
  · rw [if_neg (not_not.mpr hvalid), exec_get_bind]
    by_cases hid : (board.voteEntries.lookup entry.1).isSome = true
    · rw [if_pos hid]
      exact ⟨_, rfl⟩
    rw [if_neg hid, normalizeHexString_text, if_neg (text_ne_nil entry.2),
      if_neg (by simp [isValidHexString_text]), exec_get_bind]
    have hcommit : text entry.2 ∈ board.commitmentSet := by
      rw [h.commitmentSet_eq]
      refine List.mem_map_of_mem ?_
      by_contra hnew
      exact hstale ⟨hvalid, fun hmem => hid ((h.lookup_isSome _).mpr hmem), hnew⟩
    rw [if_pos hcommit]
    exact ⟨_, rfl⟩
  · rw [if_pos hvalid]
    exact ⟨_, rfl⟩

/-! ### Reading -/

/-- A board whose tree answered a query still lists the entries. -/
theorem Lists.tree_only (h : Lists sha256 entries board) {tree : Tree}
    (hcoherent : Coherent sha256 (commitsOf entries) tree) (hleaves : tree.leaves = board.tree.leaves) :
    Lists sha256 entries { board with tree := tree } where
  coherent := hcoherent
  leaves_eq := hleaves.trans h.leaves_eq
  commitments_eq := h.commitments_eq
  commitmentSet_eq := h.commitmentSet_eq
  keys_eq := h.keys_eq
  indices_eq := h.indices_eq
  ids_nodup := h.ids_nodup
  commits_nodup := h.commits_nodup
  ids_valid := h.ids_valid

theorem Lists.size_eq (h : Lists sha256 entries board) : board.tree.leaves.length = entries.length := by
  rw [h.leaves_eq, List.length_map, commitsOf_length]

/-- The nodes of a proof for a listed vote. -/
def proofNodesOf (sha256 : List UInt8 → Bytes 32) (entries : List Entry) (i size : ℕ) :
    List (Bytes 32) :=
  auditPath (hashInternal sha256) (Bytes.fill 32 0) i (hashedRange sha256 (commitsOf entries) 0 size)

/-- A tree of one leaf has no path. -/
theorem proofNodesOf_one (entries : List Entry) (i : ℕ) : proofNodesOf sha256 entries i 1 = [] := by
  have hlength : ¬ 1 < (hashedRange sha256 (commitsOf entries) 0 1).length := by
    rw [hashedRange, List.length_take]
    omega
  rw [proofNodesOf, auditPath, if_neg hlength]

/-- PROOF: a listed vote gets its audit path in the tree of any size that covers it. -/
theorem getInclusionProof_lists (h : Lists sha256 entries board) {i size : ℕ} {entry : Entry}
    (hentry : entries[i]? = some entry) (hi : i < size) (hsize : size ≤ entries.length)
    (hsafe : entries.length ≤ Num.maxSafeInteger) :
    ∃ tree, exec (getInclusionProof noble sha256 entry.1 (some size)) board =
        (.ok (some ⟨i, (proofNodesOf sha256 entries i size).map text, size,
          text (subtree sha256 (commitsOf entries) 0 size)⟩), { board with tree := tree }) ∧
      Lists sha256 entries { board with tree := tree } := by
  obtain ⟨voteEntry, hlookup, hindex⟩ := h.lookup hentry
  have hrange : size ≤ (commitsOf entries).length := by rwa [commitsOf_length]
  obtain ⟨tree, hproof, hcoherent⟩ :=
    @getInclusionProof_yields noble sha256 (commitsOf entries) board.tree i size h.coherent hi hrange
      (some size) rfl
  have hleaves := Merkle.getInclusionProof_frames noble sha256 i (some (size : ℤ)) board.tree
  rw [hproof] at hleaves
  obtain ⟨tree', hroot, hcoherent'⟩ :=
    @getRootAtSize_yields noble sha256 _ tree size hcoherent (by omega) hrange
  have hleaves' := getRootAtSize_frames noble sha256 size tree
  rw [hroot] at hleaves'
  have hleaf : asLeafIndex (i : ℤ) = .ok i := asIndex_of_le _ (by omega)
  have hproofOf : exec (proofOf noble sha256 voteEntry size) board =
      (.ok ⟨i, (proofNodesOf sha256 entries i size).map text, size,
        text (subtree sha256 (commitsOf entries) 0 size)⟩, { board with tree := tree' }) := by
    unfold proofOf
    rw [if_neg (by omega), exec_get_bind, if_neg (by rw [h.size_eq]; omega), if_neg (by omega), hindex]
    simp only [exec_bind, onTree, exec_onPart, hproof, exec_lifted, hleaf, hroot, exec_pure,
      proofNodesOf]
  refine ⟨tree', ?_, h.tree_only hcoherent' (hleaves'.trans hleaves)⟩
  unfold getInclusionProof
  rw [exec_get_bind, hlookup]
  simp only [Option.getD_some, exec_bind, exec_get, hproofOf, exec_pure]

end StarkBallot.Domain
