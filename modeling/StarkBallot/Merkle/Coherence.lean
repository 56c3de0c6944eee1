import StarkBallot.Merkle.Plain
import StarkBallot.Runtime.Sha256
import StarkBallot.Schemes.Memo

/-! The caches of the tree never change a result. A tree is `Coherent` with a list of leaves when it
    stores spellings of them and both caches are memos of the same function, the Merkle tree hash of a
    range (`subtree`). Every method keeps this, also when it throws, so after any calls the root is the
    Rust root of the leaves and every path it hands out is one the Rust verifier accepts. -/

namespace StarkBallot.Merkle
open Schemes ContractCore CryptoPrimitives

variable (noble : NobleUtils) (sha256 : List UInt8 → Bytes 32)

/-! ### The invariant -/

/-- The tree stores spellings of the leaves, and both caches are memos of `subtree`. -/
structure Coherent (leaves : List (Bytes 32)) (t : Tree) : Prop where
  stored : List.Forall₂ (fun hex leaf => Spells hex leaf.toList) t.leaves leaves
  subtrees : Memo (fun range => range.1 + range.2 ≤ leaves.length)
    (fun range => text (subtree sha256 leaves range.1 range.2)) t.mthCache
  roots : Memo (fun size => size ≤ leaves.length)
    (fun size => text (subtree sha256 leaves 0 size)) t.rootCache

variable {noble sha256} {leaves : List (Bytes 32)} {t : Tree}

theorem Coherent.length_eq (h : Coherent sha256 leaves t) : t.leaves.length = leaves.length :=
  h.stored.length_eq

theorem Coherent.leaf {i : ℕ} (h : Coherent sha256 leaves t) (hi : i < leaves.length) :
    ∃ hex leaf, t.leaves[i]? = some hex ∧ leaves[i]? = some leaf ∧ Spells hex leaf.toList :=
  spelled_leaf h.stored hi

theorem coherent_new : Coherent sha256 [] Tree.new := ⟨.nil, memo_nil, memo_nil⟩

theorem text_eq_cons (b : Bytes 32) : ∃ c cs, text b = c :: cs :=
  List.exists_cons_of_ne_nil (spelling_ne_nil (text_spells b))

theorem validateMthRange_yields {start size : ℕ} (h : Coherent sha256 leaves t)
    (hr : start + size ≤ leaves.length) :
    Yields (Coherent sha256 leaves) (validateMthRange start size) t () := by
  refine yields_get_bind ?_
  rw [if_neg (by rw [h.length_eq]; omega)]
  exact yields_pure h

/-- A memoised hash is the hash. -/
theorem mthRange_yields (size : ℕ) : ∀ {start : ℕ} {t : Tree}, Coherent sha256 leaves t → 0 < size →
    start + size ≤ leaves.length →
      Yields (Coherent sha256 leaves)
        (mthRange noble sha256 start size) t (text (subtree sha256 leaves start size)) := by
  induction size using Nat.strong_induction_on with
  | _ size ih =>
    intro start t h hpos hr
    rw [mthRange]
    refine yields_bind (validateMthRange_yields h hr) fun t h => ?_
    rw [if_neg (by omega)]
    by_cases hone : size = 1
    · subst hone
      obtain ⟨hex, leaf, hhex, hleaf, hspells⟩ := h.leaf (i := start) (by omega)
      obtain ⟨c, cs, rfl⟩ := List.exists_cons_of_ne_nil (spelling_ne_nil hspells)
      rw [dif_pos rfl]
      refine yields_get_bind ?_
      simp only [hhex, hashLeaf_spelling noble sha256 hspells, subtree_one sha256 hleaf]
      exact yields_lifted h
    · have hsize : 1 < size := by omega
      have hk := splitPoint_pos size
      have hlt := splitPoint_lt hsize
      rw [dif_neg hone]
      refine yields_get_bind ?_
      rcases hlook : t.mthCache.lookup (start, size) with _ | cached
      · -- a miss: both parts, then the new entry
        rw [largestPowerOfTwoLessThan_eq hsize, if_neg (by omega)]
        refine yields_bind (ih _ hlt h hk (by omega)) fun t h => ?_
        refine yields_bind (ih _ (by omega) h (by omega) (by omega)) fun t h => ?_
        rw [hashPair_text, ← subtree_split sha256 hsize hr]
        refine yields_bind (yields_lifted h) fun t h => ?_
        refine yields_bind (yields_modify ?_) fun t h => yields_pure h
        exact ⟨h.stored, memo_cons hr h.subtrees, h.roots⟩
      · have hhit := memo_lookup h.subtrees hlook
        obtain ⟨c, cs, hcons⟩ := text_eq_cons (subtree sha256 leaves start size)
        rw [hhit, hcons]
        exact yields_pure h

theorem getRootAtSize_yields {size : ℕ} (h : Coherent sha256 leaves t) (hpos : 0 < size)
    (hr : size ≤ leaves.length) :
    Yields (Coherent sha256 leaves)
      (getRootAtSize noble sha256 size) t (text (subtree sha256 leaves 0 size)) := by
  rw [getRootAtSize, if_neg (by omega), if_neg (by omega)]
  refine yields_get_bind ?_
  rw [if_neg (by rw [h.length_eq]; omega), Int.toNat_natCast]
  refine yields_get_bind ?_
  rcases hlook : t.rootCache.lookup size with _ | cached
  · refine yields_bind (yields_modify ⟨h.stored, h.subtrees, h.roots⟩) fun t h => ?_
    refine yields_bind (mthRange_yields size h hpos (by omega)) fun t h => ?_
    refine yields_bind (yields_modify ?_) fun t h => yields_pure h
    exact ⟨h.stored, h.subtrees, memo_cons hr h.roots⟩
  · have hhit := memo_lookup h.roots hlook
    refine yields_bind (yields_modify ⟨h.stored, h.subtrees, h.roots⟩) fun t h => ?_
    rw [hhit, if_neg (spelling_ne_nil (text_spells _))]
    exact yields_pure h

theorem getRoot_yields (h : Coherent sha256 leaves t) (hne : leaves ≠ []) :
    Yields (Coherent sha256 leaves) (getRoot noble sha256) t
      (text (computeMerkleRoot sha256 (leaves.map (ContractCore.hashLeaf sha256)))) := by
  have hpos := List.length_pos_iff.mpr hne
  refine yields_get_bind ?_
  rw [if_neg (by rw [h.length_eq]; omega)]
  refine yields_get_bind ?_
  rw [h.length_eq, ← subtree_all]
  exact getRootAtSize_yields h hpos le_rfl

/-- The path of a range is its audit path. -/
theorem path_yields (size : ℕ) : ∀ {m start : ℕ} {t : Tree}, Coherent sha256 leaves t →
    start + size ≤ leaves.length → Yields (Coherent sha256 leaves) (path noble sha256 m start size) t
      ((auditPath (hashInternal sha256) (Bytes.fill 32 0) m (hashedRange sha256 leaves start size)).map
        text) := by
  induction size using Nat.strong_induction_on with
  | _ size ih =>
    intro m start t h hr
    have hlen := hashedRange_length sha256 hr
    rw [path, auditPath, hlen]
    by_cases hsize : size ≤ 1
    · rw [dif_pos hsize, if_neg (by omega)]
      exact yields_pure h
    · have hk := splitPoint_pos size
      have hlong : 1 < size := by omega
      have hlt := splitPoint_lt hlong
      rw [dif_neg hsize, if_pos hlong, largestPowerOfTwoLessThan_eq (by omega),
        hashedRange_take sha256 hlt.le, hashedRange_drop]
      by_cases hleft : m < splitPoint size
      · rw [if_pos hleft, if_pos hleft, List.map_append]
        refine yields_bind (ih _ hlt h (by omega)) fun t h => ?_
        exact yields_bind (mthRange_yields _ h (by omega) (by omega)) fun t h => yields_pure h
      · rw [if_neg hleft, if_neg hleft, List.map_append]
        refine yields_bind (ih _ (by omega) h (by omega)) fun t h => ?_
        exact yields_bind (mthRange_yields _ h hk (by omega)) fun t h => yields_pure h

theorem getInclusionProof_yields {index size : ℕ} (h : Coherent sha256 leaves t) (hi : index < size)
    (hr : size ≤ leaves.length) {treeSize : Option ℤ} (hsize : treeSize.getD t.leaves.length = size) :
    Yields (Coherent sha256 leaves) (getInclusionProof noble sha256 index treeSize) t
      ⟨index, (auditPath (hashInternal sha256) (Bytes.fill 32 0) index
        (hashedRange sha256 leaves 0 size)).map text⟩ := by
  refine yields_get_bind ?_
  rw [hsize, if_neg (by omega), if_neg (by omega)]
  refine yields_get_bind ?_
  rw [if_neg (by rw [h.length_eq]; omega), Int.toNat_natCast, Int.toNat_natCast]
  exact yields_bind (path_yields size h (by omega)) fun t h => yields_pure h

/-- A consistency proof is the one recomputed from the stored leaves. -/
theorem subproof_yields (size : ℕ) :
    ∀ (m start : ℕ) (b : Bool) {t : Tree}, Coherent sha256 leaves t → 0 < m →
    m ≤ size → start + size ≤ leaves.length →
      ∃ nodes, Plain.subproof noble sha256 t.leaves m start size b = .ok nodes ∧
        Yields (Coherent sha256 leaves) (subproof noble sha256 m start size b) t nodes := by
  induction size using Nat.strong_induction_on with
  | _ size ih =>
    intro m start b t h hpos hle hr
    rw [subproof, Plain.subproof]
    by_cases hwhole : m = size
    · rw [if_pos hwhole, if_pos hwhole]
      cases b with
      | true => exact ⟨_, rfl, yields_pure h⟩
      | false =>
        rw [plain_mthRange h.stored _ (by omega) hr]
        exact ⟨_, rfl, yields_bind (mthRange_yields _ h (by omega) hr) fun t h => yields_pure h⟩
    rw [if_neg hwhole, if_neg hwhole]
    by_cases hraw : m = 1 ∧ size = 2 ∧ b = true
    · obtain ⟨hex, leaf, hhex, -, hspells⟩ := h.leaf (i := start + 1) (by omega)
      obtain ⟨c, cs, rfl⟩ := List.exists_cons_of_ne_nil (spelling_ne_nil hspells)
      rw [if_pos hraw, if_pos hraw, hhex]
      refine ⟨[c :: cs], rfl, yields_get_bind ?_⟩
      rw [hhex]
      exact yields_pure h
    have hk := splitPoint_pos size
    have hlt := splitPoint_lt (show 1 < size by omega)
    rw [if_neg hraw, if_neg hraw, dif_neg (by omega), dif_neg (by omega),
      largestPowerOfTwoLessThan_eq (by omega)]
    by_cases hleft : m ≤ splitPoint size
    · obtain ⟨nodes, hplain, t', hexec, h'⟩ := ih _ hlt m start b h hpos hleft (by omega)
      rw [if_pos hleft, if_pos hleft, hplain, ok_bind, plain_mthRange h.stored _ (by omega) (by omega)]
      exact ⟨_, rfl, yields_bind ⟨t', hexec, h'⟩ fun t h =>
        yields_bind (mthRange_yields _ h (by omega) (by omega)) fun t h => yields_pure h⟩
    · obtain ⟨nodes, hplain, t', hexec, h'⟩ :=
        ih (size - splitPoint size) (by omega) (m - splitPoint size)
        (start + splitPoint size) false h (by omega) (by omega) (by omega)
      rw [if_neg hleft, if_neg hleft, hplain, ok_bind, plain_mthRange h.stored _ hk (by omega)]
      exact ⟨_, rfl, yields_bind ⟨t', hexec, h'⟩ fun t h =>
        yields_bind (mthRange_yields _ h hk (by omega)) fun t h => yields_pure h⟩

/-! ### Runs -/

/-- An accepted leaf extends the tree; no cached range reaches beyond the old leaves. -/
theorem append_coherent {hex : JsString} {leaf : Bytes 32} (h : Coherent sha256 leaves t)
    (hspells : Spells hex leaf.toList) :
    Coherent sha256 (leaves ++ [leaf]) { t with
      leaves := t.leaves ++ [hex]
      rootCache := t.rootCache.filter fun entry => entry.1 ≤ (t.leaves ++ [hex]).length - 1 } := by
  have hsame : ∀ start size, start + size ≤ leaves.length →
      text (subtree sha256 leaves start size) = text (subtree sha256 (leaves ++ [leaf]) start size) := by
    intro start size hr
    rw [subtree, subtree, hashedRange_append sha256 leaf hr]
  refine ⟨?_, ?_, ?_⟩
  · exact List.rel_append h.stored (.cons hspells .nil)
  · exact memo_mono (fun range hr => by rw [List.length_append]; omega)
      (fun range hr => hsame _ _ hr) h.subtrees
  · exact memo_mono (fun size hr => by rw [List.length_append]; omega)
      (fun size hr => hsame _ _ (by omega)) (memo_filter _ h.roots)

theorem append_keeps (hex : JsString) (h : Coherent sha256 leaves t) :
    ∃ leaves', Coherent sha256 leaves' (exec (append hex) t).2 := by
  unfold append
  simp only
  split
  · exact ⟨leaves, h⟩
  split
  · exact ⟨leaves, h⟩
  rename_i hvalid
  obtain ⟨leaf, hspells⟩ := isValidHexString_spells (Decidable.not_not.mp hvalid)
  exact ⟨leaves ++ [leaf], append_coherent h hspells⟩

theorem getRootAtSize_answers (size : ℤ) (h : Coherent sha256 leaves t) :
    Answers (Coherent sha256 leaves) (getRootAtSize noble sha256 size) t
      (Plain.getRootAtSize noble sha256 t.leaves size) := by
  by_cases hr : 0 < size ∧ size ≤ t.leaves.length
  · lift size to ℕ using hr.1.le
    have hlen := h.length_eq
    have hplain :
        Plain.getRootAtSize noble sha256 t.leaves size = .ok (text (subtree sha256 leaves 0 size)) := by
      rw [Plain.getRootAtSize, if_neg (by omega), if_neg (by omega), if_neg (by omega),
        Int.toNat_natCast, plain_mthRange h.stored _ (by omega) (by omega)]
    rw [hplain]
    exact (getRootAtSize_yields h (by omega) (by omega)).answers
  · refine answers_ite (fun _ => answers_throw h) fun _ =>
      answers_ite (fun _ => answers_throw h) fun _ => ?_
    refine answers_get_bind ?_
    rw [if_pos (by omega), if_pos (by omega)]
    exact answers_get_bind (answers_throw h)

theorem getRoot_answers (h : Coherent sha256 leaves t) :
    Answers (Coherent sha256 leaves) (getRoot noble sha256) t (Plain.getRoot noble sha256 t.leaves) :=
  answers_get_bind
    (answers_ite (fun _ => ⟨rfl, h⟩) fun _ => answers_get_bind (getRootAtSize_answers _ h))

theorem getInclusionProof_answers (index : ℤ) (treeSize : Option ℤ) (h : Coherent sha256 leaves t) :
    Answers (Coherent sha256 leaves) (getInclusionProof noble sha256 index treeSize) t
      (Plain.getInclusionProof noble sha256 t.leaves index treeSize) := by
  have hlen := h.length_eq
  by_cases hr :
    0 ≤ index ∧ index < treeSize.getD t.leaves.length ∧ treeSize.getD t.leaves.length ≤ t.leaves.length
  · obtain ⟨hpos, hi, hle⟩ := hr
    lift index to ℕ using hpos
    have hsize : treeSize.getD t.leaves.length = ((treeSize.getD t.leaves.length).toNat : ℤ) := by omega
    have hplain : Plain.getInclusionProof noble sha256 t.leaves index treeSize =
        .ok ⟨index, (auditPath (hashInternal sha256) (Bytes.fill 32 0) index
          (hashedRange sha256 leaves 0 (treeSize.getD t.leaves.length).toNat)).map text⟩ := by
      simp only [Plain.getInclusionProof]
      rw [if_neg (by omega), if_neg (by omega), if_neg (by omega), Int.toNat_natCast,
        plain_path h.stored _ (by omega)]
      rfl
    rw [hplain]
    exact (getInclusionProof_yields h (by omega) (by omega) hsize).answers
  · refine answers_get_bind ?_
    simp only [Plain.getInclusionProof]
    refine answers_ite (fun _ => answers_throw h) fun _ =>
      answers_ite (fun _ => answers_throw h) fun _ => ?_
    refine answers_get_bind ?_
    rw [if_pos (by omega), if_pos (by omega)]
    exact answers_get_bind (answers_throw h)

theorem getConsistencyProof_answers (oldSize newSize : ℤ) (h : Coherent sha256 leaves t) :
    Answers (Coherent sha256 leaves) (getConsistencyProof noble sha256 oldSize newSize) t
      (Plain.getConsistencyProof noble sha256 t.leaves oldSize newSize) := by
  have hlen := h.length_eq
  refine answers_ite (fun _ => answers_throw h) fun hold =>
    answers_ite (fun _ => answers_throw h) fun hnew => ?_
  refine answers_ite (fun _ => answers_throw h) fun hle => answers_get_bind ?_
  refine answers_ite (fun _ => answers_get_bind (answers_throw h)) fun hsize => ?_
  refine answers_ite (fun _ => ⟨rfl, h⟩) fun _ => ?_
  obtain ⟨nodes, hplain, hyields⟩ :=
    @subproof_yields noble sha256 leaves newSize.toNat oldSize.toNat 0 true t h
    (by omega) (by omega) (by omega)
  rw [hplain, ok_bind]
  refine Yields.answers (a := ConsistencyProof.mk oldSize newSize nodes) ?_
  exact yields_bind hyields fun t h => yields_pure h

/-- Every call keeps the tree coherent with some leaves. -/
theorem call_keeps (call : Call) (h : Coherent sha256 leaves t) :
    ∃ leaves', Coherent sha256 leaves' (call.after noble sha256 t) := by
  cases call with
  | append leaf => exact append_keeps leaf h
  | getRoot => exact ⟨leaves, (getRoot_answers h).2⟩
  | getRootAtSize size => exact ⟨leaves, (getRootAtSize_answers size h).2⟩
  | getInclusionProof index treeSize => exact ⟨leaves, (getInclusionProof_answers index treeSize h).2⟩
  | getConsistencyProof oldSize newSize =>
      exact ⟨leaves, (getConsistencyProof_answers oldSize newSize h).2⟩
  | clearCache => exact ⟨leaves, h.stored, memo_nil, memo_nil⟩

variable (noble sha256)

/-- INVARIANT: after any calls the tree is coherent with some leaves. -/
theorem reached_keeps (calls : List Call) :
    ∃ leaves, Coherent sha256 leaves (reached noble sha256 calls) := by
  induction calls using List.reverseRecOn with
  | nil => exact ⟨[], coherent_new⟩
  | append_singleton calls call ih =>
    obtain ⟨leaves, hcoherent⟩ := ih
    rw [reached, List.foldl_concat]
    exact call_keeps call hcoherent

/-- They are the leaves whose spellings it stores. -/
theorem reached_coherent {calls : List Call} {leaves : List (Bytes 32)}
    (h : List.Forall₂ (fun hex leaf => Spells hex leaf.toList)
      (reached noble sha256 calls).leaves leaves) :
    Coherent sha256 leaves (reached noble sha256 calls) := by
  obtain ⟨leaves', hcoherent⟩ := reached_keeps noble sha256 calls
  have hunique : Relator.RightUnique fun (hex : JsString) (leaf : Bytes 32) => Spells hex leaf.toList :=
    fun _ _ _ => spells_unique
  rwa [← List.right_unique_forall₂' hunique hcoherent.stored h]

/-- Appending texts stores them. -/
theorem reached_appends (leaves : List (Bytes 32)) :
    (reached noble sha256 (leaves.map fun leaf => .append (text leaf))).leaves = leaves.map text := by
  induction leaves using List.reverseRecOn with
  | nil => rfl
  | append_singleton leaves leaf ih =>
    have hne : text leaf ≠ [] := spelling_ne_nil (text_spells leaf)
    have hvalid := isValidHexString_text leaf
    rw [List.map_append, List.map_append, ← ih, List.map_singleton, reached, List.foldl_concat]
    simp only [Call.after, append, normalizeHexString_text, if_neg hne, hvalid,
      not_true_eq_false, if_false, exec_bind, exec_modify]
    rfl

/-- ONE TREE: for any leaves, in whatever spelling and with whatever other calls they were appended, the
    tree's root is the Rust root, and the Rust verifier accepts every path the tree hands out. -/
theorem one_tree_two_root_algorithms (leaves : List (Bytes 32)) (hne : leaves ≠ []) :
    (reached noble sha256 (leaves.map fun leaf => .append (text leaf))).leaves = leaves.map text ∧
    ∀ calls : List Call,
      List.Forall₂ (fun hex leaf => Spells hex leaf.toList) (reached noble sha256 calls).leaves leaves →
      (exec (getRoot noble sha256) (reached noble sha256 calls)).1 =
        .ok (text (computeMerkleRoot sha256 (leaves.map (ContractCore.hashLeaf sha256)))) ∧
      ∀ (index treeSize : UInt32) (leaf : Bytes 32), treeSize.toNat = leaves.length →
        leaves[index.toNat]? = some leaf →
        ∃ nodes : List (Bytes 32),
          (exec (getInclusionProof noble sha256 index.toNat none) (reached noble sha256 calls)).1 =
            .ok ⟨index.toNat, nodes.map text⟩ ∧
          verifyInclusionProofRfc6962 sha256 leaf index nodes
            (computeMerkleRoot sha256 (leaves.map (ContractCore.hashLeaf sha256))) treeSize =
              .ok true := by
  refine ⟨reached_appends noble sha256 leaves, fun calls hstored => ?_⟩
  have h := reached_coherent noble sha256 hstored
  refine ⟨(getRoot_yields h hne).result, fun index treeSize leaf hsize hleaf => ?_⟩
  obtain ⟨hi, -⟩ := List.getElem?_eq_some_iff.mp hleaf
  have hsized :
      (none : Option ℤ).getD (reached noble sha256 calls).leaves.length = (leaves.length : ℤ) := by
    rw [Option.getD_none, h.length_eq]
  refine ⟨_, (getInclusionProof_yields h hi le_rfl hsized).result, ?_⟩
  have hnode : (leaves.map (ContractCore.hashLeaf sha256))[index.toNat]? =
      some (ContractCore.hashLeaf sha256 leaf) := by
    rw [List.getElem?_map, hleaf, Option.map_some]
  have hwalk := descend_auditPath (hashInternal sha256) (d := Bytes.fill 32 0) _ [] hnode
  rw [List.append_nil, List.length_map, ← levelsRoot_eq_mth, ← computeMerkleRoot_eq, ← hsize,
    ← climb_eq_descend _ _ _ _ _ (by omega)] at hwalk
  rw [verifyInclusionProofRfc6962_eq, hashedRange_all]
  simp only [Included, hwalk, and_true, decide_eq_true_eq, Except.ok.injEq]
  omega

def sampleLeaves : List (Bytes 32) := [Bytes.fill 32 1, Bytes.fill 32 2, Bytes.fill 32 3]

/-- Three leaves: the promoted third one is still provable. -/
theorem one_tree_on_sample :
    (exec (getRoot NobleUtils.reference Sha256.digest) (reached NobleUtils.reference Sha256.digest
      (sampleLeaves.map fun leaf => .append (text leaf)))).1 =
        .ok (text (computeMerkleRoot Sha256.digest
          (sampleLeaves.map (ContractCore.hashLeaf Sha256.digest)))) ∧
    ∃ nodes, verifyInclusionProofRfc6962 Sha256.digest (Bytes.fill 32 3) 2 nodes
      (computeMerkleRoot Sha256.digest (sampleLeaves.map (ContractCore.hashLeaf Sha256.digest))) 3 =
        .ok true := by
  obtain ⟨hstored, hruns⟩ :=
    one_tree_two_root_algorithms NobleUtils.reference Sha256.digest sampleLeaves (by decide)
  obtain ⟨hroot, hproofs⟩ := hruns _ (hstored ▸ texts_spell sampleLeaves)
  obtain ⟨nodes, -, hverify⟩ := hproofs 2 3 (Bytes.fill 32 3) rfl rfl
  exact ⟨hroot, nodes, hverify⟩

end StarkBallot.Merkle
