import StarkBallot.ContractCore.InclusionProof
import StarkBallot.Merkle.Rfc6962

/-! The TypeScript inclusion verifier against the Rust one. On texts of 32-byte values the two hash
    functions are the same functions; what differs is the walk. Rust checks the length of the path and
    folds it level by level, TypeScript splits top-down and counts the nodes it used:

        Rust        climb    leaf → root, level by level
        TypeScript  descend  root → leaf, split by split      (`climb_eq_descend`)

    A recursion that runs out of nodes throws; one that leaves nodes over is caught by the count. -/

namespace StarkBallot.Merkle
open Schemes ContractCore CryptoPrimitives

variable (noble : NobleUtils) (sha256 : List UInt8 → Bytes 32)

theorem hashLeaf_spelling {hex : JsString} {leaf : Bytes 32} (h : Spells hex leaf.toList) :
    hashLeaf noble sha256 hex = .ok (text (ContractCore.hashLeaf sha256 leaf)) := by
  rw [hashLeaf, hexToBytesStrict_spelling noble h, ok_bind, sha256Hex_eq]
  simp [ContractCore.hashLeaf, leafMessage, leafDomainTag, pure, Except.pure]

theorem hashPair_spelling {left right : JsString} {a b : Bytes 32} (ha : Spells left a.toList)
    (hb : Spells right b.toList) :
    hashPair noble sha256 left right = .ok (text (hashInternal sha256 a b)) := by
  rw [hashPair, hexToBytesStrict_spelling noble ha, hexToBytesStrict_spelling noble hb, ok_bind, ok_bind,
    sha256Hex_eq]
  simp [hashInternal, internalMessage, pure, Except.pure]

theorem hashPair_text (left right : Bytes 32) :
    hashPair noble sha256 (text left) (text right) = .ok (text (hashInternal sha256 left right)) :=
  hashPair_spelling noble sha256 (text_spells left) (text_spells right)

/-- A result of the recursion mirrors a walk: the text of the node reached and the number of nodes used,
    or a throw when the walk ran out. -/
def Mirrors (nodes : List (Bytes 32)) (result : JsM (JsString × ℕ)) :
    Option (Bytes 32 × List (Bytes 32)) → Prop
  | some (root, rest) => ∃ consumed, result = .ok (text root, consumed) ∧ rest = nodes.drop consumed ∧
      consumed ≤ nodes.length
  | none => ∃ e, result = .error e

/-- One split: read the sibling after the nodes used so far and join it. -/
theorem mirrors_joinNext {hexes : List JsString} {nodes : List (Bytes 32)}
    (hnodes : SpellEach hexes nodes) {result : JsM (JsString × ℕ)}
    {walk : Option (Bytes 32 × List (Bytes 32))} {join : Bytes 32 → Bytes 32 → Bytes 32}
    (joinTexts : JsString → JsString → JsM JsString)
    (hjoin : ∀ a {hex b}, Spells hex b.toList → joinTexts (text a) hex = .ok (text (join a b)))
    (h : Mirrors nodes result walk) :
    Mirrors nodes (do
      let (computedRoot, nodesConsumed) ← result
      match hexes[0 + nodesConsumed]? with
      | none | some [] => throw (.error "Insufficient proof nodes")
      | some sibling =>
        return (← joinTexts computedRoot sibling, nodesConsumed + 1)) (joinNext join walk) := by
  match walk with
  | none =>
    obtain ⟨e, rfl⟩ := h
    exact ⟨e, rfl⟩
  | some (root, rest) =>
    obtain ⟨consumed, rfl, rfl, hle⟩ := h
    simp only [ok_bind, Nat.zero_add]
    rcases Nat.lt_or_ge consumed nodes.length with hlt | hge
    · have hlt' : consumed < hexes.length := by rw [hnodes.length_eq]; exact hlt
      have hspells : Spells hexes[consumed] nodes[consumed].toList := hnodes.get hlt' hlt
      obtain ⟨c, cs, hcons⟩ := List.exists_cons_of_ne_nil (spelling_ne_nil hspells)
      have hjoined := hjoin root hspells
      rw [List.drop_eq_getElem_cons hlt, List.getElem?_eq_getElem hlt', hcons]
      rw [hcons] at hjoined
      refine ⟨consumed + 1, ?_, rfl, hlt⟩
      simp only [hjoined, ok_bind]
      rfl
    · -- no node left
      rw [List.drop_eq_nil_of_le hge, List.getElem?_eq_none (by rw [hnodes.length_eq]; exact hge)]
      exact ⟨_, rfl⟩

/-- The recursion mirrors the top-down walk. -/
theorem verifyPathRecursive_mirrors {hexes : List JsString} {nodes : List (Bytes 32)}
    (hnodes : SpellEach hexes nodes) (size : ℕ) : ∀ (index : ℕ) (cur : Bytes 32),
    Mirrors nodes (verifyPathRecursive noble sha256 index size (text cur) hexes 0)
      (descend (hashInternal sha256) index size cur nodes) := by
  induction size using Nat.strong_induction_on with
  | _ size ih =>
    intro index cur
    rw [verifyPathRecursive]
    by_cases hsize : size ≤ 1
    · rw [dif_pos hsize, descend_done _ hsize]
      exact ⟨0, rfl, rfl, Nat.zero_le _⟩
    · have hpos := splitPoint_pos size
      have hlt := splitPoint_lt (show 1 < size by omega)
      rw [dif_neg hsize, largestPowerOfTwoLessThan_eq (by omega)]
      by_cases hleft : index < splitPoint size
      · rw [if_pos hleft, descend_left _ (by omega) hleft]
        exact mirrors_joinNext hnodes
          _ (fun a _ _ hb => hashPair_spelling noble sha256 (text_spells a) hb) (ih _ hlt _ _)
      · rw [if_neg hleft, descend_right _ (by omega) (by omega)]
        exact mirrors_joinNext hnodes (fun a b => hashPair noble sha256 b a)
          (fun a _ _ hb => hashPair_spelling noble sha256 hb (text_spells a)) (ih _ (by omega) _ _)

/-- SPEC: verification returns, and returns `true` exactly when the index is in range and the walk from
    the hashed leaf uses the whole path and ends in the root. -/
theorem verifyInclusionProof_spelling {hex : JsString} {leaf : Bytes 32} (hleaf : Spells hex leaf.toList)
    {hexes : List JsString} {nodes : List (Bytes 32)} (hnodes : SpellEach hexes nodes) (index size : ℕ)
    (root : Bytes 32) :
    verifyInclusionProof noble sha256 hex index hexes (text root) size =
      .ok (decide (index < size ∧
        descend (hashInternal sha256) index size (ContractCore.hashLeaf sha256 leaf) nodes =
        some (root, []))) := by
  unfold verifyInclusionProof
  by_cases hlt : index < size
  swap
  · rw [if_pos (Or.inr (by omega))]
    simp [hlt, pure, Except.pure]
  have hwalk :=
    verifyPathRecursive_mirrors noble sha256 hnodes size index (ContractCore.hashLeaf sha256 leaf)
  have hlen := hnodes.length_eq
  simp only [hlt, true_and]
  rw [if_neg (by omega), hashLeaf_spelling noble sha256 hleaf, ok_bind]
  by_cases hone : size = 1 ∧ nodes = []
  · obtain ⟨rfl, rfl⟩ := hone
    rw [if_pos ⟨rfl, hlen⟩]
    simp [descend_done _ le_rfl, pure, Except.pure, text_injective.eq_iff]
  · rw [if_neg fun h => hone ⟨by omega, List.length_eq_zero_iff.mp (by omega)⟩]
    simp only [Int.toNat_natCast]
    match hdesc : descend (hashInternal sha256) index size (ContractCore.hashLeaf sha256 leaf) nodes with
    | none =>
      rw [hdesc] at hwalk
      obtain ⟨e, he⟩ := hwalk
      rw [he]
      rfl
    | some (r, rest) =>
      rw [hdesc] at hwalk
      obtain ⟨consumed, he, rfl, hle⟩ := hwalk
      have hall : nodes.drop consumed = [] ↔ consumed = hexes.length := by
        rw [List.drop_eq_nil_iff]; omega
      rw [he]
      simp [pure, Except.pure, text_injective.eq_iff, hall]

/-- On the values Rust takes, the condition is `Included`. -/
theorem verifyInclusionProof_eq (leaf : Bytes 32) (index : UInt32) (nodes : List (Bytes 32))
    (root : Bytes 32) (treeSize : UInt32) :
    verifyInclusionProof noble sha256 (text leaf) index.toNat (nodes.map text)
      (text root) treeSize.toNat = .ok (decide (Included sha256 leaf index nodes root treeSize)) := by
  rw [verifyInclusionProof_spelling noble sha256 (text_spells leaf) (texts_spell nodes)]
  refine congrArg Except.ok (decide_eq_decide.mpr (and_congr_right fun hlt => ?_))
  rw [climb_eq_descend _ _ _ _ _ hlt]

/-- AGREEMENT: the level fold and the split recursion accept the same proofs. -/
theorem inclusion_verifiers_agree (leaf : Bytes 32) (index treeSize : UInt32) (nodes : List (Bytes 32))
    (root : Bytes 32) :
    verifyInclusionProofRfc6962 sha256 leaf index nodes root treeSize = .ok true ↔
      verifyInclusionProof noble sha256 (text leaf) index.toNat (nodes.map text)
        (text root) treeSize.toNat = .ok true := by
  rw [verifyInclusionProofRfc6962_eq, verifyInclusionProof_eq]
  simp

end StarkBallot.Merkle
