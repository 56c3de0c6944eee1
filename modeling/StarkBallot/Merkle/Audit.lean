import StarkBallot.Merkle.Coherence
import StarkBallot.Schemes.Collision

/-! Inclusion proofs of a tree that was built by any calls. The path it hands out leads from the leaf to
    the root; and nothing else does: another leaf, or another path for the same leaf, that leads to the
    same root meets a node with two preimages. The two walks take the same turns, so the node is found by
    comparing the messages they hash. -/

namespace StarkBallot.Merkle
open Schemes ContractCore CryptoPrimitives

variable (noble : NobleUtils) (sha256 : List UInt8 → Bytes 32)

/-- The messages hashed on the way from a leaf to the root. -/
def walkMessages (leaf : Bytes 32) (index size : ℕ) (nodes : List (Bytes 32)) : List (List UInt8) :=
  leafMessage leaf ::
    (climbPairs (hashInternal sha256) index size (ContractCore.hashLeaf sha256 leaf) nodes).map
    (Function.uncurry internalMessage)

variable {sha256}

theorem mem_of_walkMessages {Q : Set (List UInt8)} {leaf : Bytes 32} {index size : ℕ}
    {nodes : List (Bytes 32)} (h : ∀ m ∈ walkMessages sha256 leaf index size nodes, m ∈ Q) :
    ∀ p ∈ climbPairs (hashInternal sha256) index size (ContractCore.hashLeaf sha256 leaf) nodes,
      p ∈ {p | Function.uncurry internalMessage p ∈ Q} :=
  fun p hp => h _ (List.mem_cons_of_mem _ (List.mem_map.mpr ⟨p, hp, rfl⟩))

/-- BINDING: two walks to one root start from one leaf and take one path, or two of
    their messages collide. -/
theorem walk_unique {leaf leaf' root : Bytes 32} {index size : ℕ} {nodes nodes' : List (Bytes 32)}
    (hi : index < size)
    (h : descend (hashInternal sha256) index size (ContractCore.hashLeaf sha256 leaf) nodes =
      some (root, []))
    (h' : descend (hashInternal sha256) index size (ContractCore.hashLeaf sha256 leaf') nodes' =
      some (root, [])) :
    (leaf' = leaf ∧ nodes' = nodes) ∨ Exhibits sha256 (findCollision sha256
      (walkMessages sha256 leaf index size nodes ++ walkMessages sha256 leaf' index size nodes')) := by
  refine (injOn_or_collision sha256 _).imp_left fun hinj => ?_
  have hmem :
      ∀ m ∈ walkMessages sha256 leaf index size nodes, m ∈ walkMessages sha256 leaf index size nodes ++
      walkMessages sha256 leaf' index size nodes' := fun m hm => List.mem_append_left _ hm
  have hmem' :
      ∀ m ∈ walkMessages sha256 leaf' index size nodes', m ∈ walkMessages sha256 leaf index size nodes ++
      walkMessages sha256 leaf' index size nodes' := fun m hm => List.mem_append_right _ hm
  rw [← climb_eq_descend _ _ _ _ _ hi] at h h'
  obtain ⟨hhash, hnodes⟩ := climb_inj (hashInternal_injOn hinj) _ _ (mem_of_walkMessages hmem)
    (mem_of_walkMessages hmem') h h'
  have hleaf := hinj (hmem _ List.mem_cons_self) (hmem' _ List.mem_cons_self) hhash
  exact ⟨(leafMessage_injective hleaf).symm, hnodes.symm⟩

theorem map_normalize_of_spellEach {hexes : List JsString} {values : List (Bytes 32)}
    (h : SpellEach hexes values) :
    hexes.map normalizeHexString = values.map text := by
  induction h with
  | nil => rfl
  | cons hhead _ ih => rw [List.map_cons, List.map_cons, ih, normalizeHexString_of_spells hhead, text]

/-- The path of a leaf, as the tree hands it out, leads to the root of the prefix. -/
theorem descend_range {leaves : List (Bytes 32)} {leaf : Bytes 32} {index size : ℕ} (hi : index < size)
    (hsize : size ≤ leaves.length) (hleaf : leaves[index]? = some leaf) :
    descend (hashInternal sha256) index size (ContractCore.hashLeaf sha256 leaf)
      (auditPath (hashInternal sha256) (Bytes.fill 32 0) index (hashedRange sha256 leaves 0 size)) =
        some (subtree sha256 leaves 0 size, []) := by
  have hnode :
      (hashedRange sha256 leaves 0 size)[index]? = some (ContractCore.hashLeaf sha256 leaf) := by
    rw [hashedRange, List.drop_zero, List.getElem?_take_of_lt hi, List.getElem?_map, hleaf,
      Option.map_some]
  have hwalk := descend_auditPath (hashInternal sha256) (d := Bytes.fill 32 0) _ [] hnode
  rwa [List.append_nil, hashedRange_length sha256 (by omega)] at hwalk

variable (sha256)

/-- AUDIT: on a tree reached by any calls the proof handed out for a leaf verifies against the root of
    any size above its index, and whatever verifies there is that leaf with that proof, up to spelling,
    or two hashed messages collide. -/
theorem inclusion_proofs_complete_and_sound (calls : List Call) (index size : ℕ) (hi : index < size)
    (hsize : size ≤ (reached noble sha256 calls).leaves.length) :
    ∃ (hex : JsString) (leaf root : Bytes 32) (nodes : List (Bytes 32)),
      (reached noble sha256 calls).leaves[index]? = some hex ∧ Spells hex leaf.toList ∧
      (exec (getRootAtSize noble sha256 size) (reached noble sha256 calls)).1 = .ok (text root) ∧
      (exec (getInclusionProof noble sha256 index (some size)) (reached noble sha256 calls)).1 =
        .ok ⟨index, nodes.map text⟩ ∧
      verifyInclusionProof noble sha256 hex index (nodes.map text) (text root) size = .ok true ∧
      ∀ (x : JsString) (value : Bytes 32) (proofNodes : List JsString) (values : List (Bytes 32)),
        Spells x value.toList → SpellEach proofNodes values →
        verifyInclusionProof noble sha256 x index proofNodes (text root) size = .ok true →
          (normalizeHexString x = normalizeHexString hex ∧
            proofNodes.map normalizeHexString = nodes.map text) ∨
          Exhibits sha256 (findCollision sha256
            (walkMessages sha256 leaf index size nodes ++
              walkMessages sha256 value index size values)) := by
  obtain ⟨leaves, h⟩ := reached_keeps noble sha256 calls
  rw [h.length_eq] at hsize
  obtain ⟨hex, leaf, hhex, hleaf, hspells⟩ := h.leaf (i := index) (by omega)
  have hwalk : descend (hashInternal sha256) index size (ContractCore.hashLeaf sha256 leaf) _ = _ :=
    descend_range hi hsize hleaf
  refine ⟨hex, leaf, _, _, hhex, hspells, (getRootAtSize_yields h (by omega) hsize).result,
    (getInclusionProof_yields h hi hsize rfl).result, ?_,
    fun x value proofNodes values hx hnodes hverify => ?_⟩
  · rw [verifyInclusionProof_spelling noble sha256 hspells (texts_spell _), decide_eq_true ⟨hi, hwalk⟩]
  · rw [verifyInclusionProof_spelling noble sha256 hx hnodes, Except.ok.injEq,
      decide_eq_true_eq] at hverify
    refine (walk_unique hi hwalk hverify.2).imp_left fun ⟨hvalue, hpath⟩ => ?_
    rw [normalizeHexString_of_spells hx, normalizeHexString_of_spells hspells,
      map_normalize_of_spellEach hnodes, hvalue, hpath]
    exact ⟨rfl, rfl⟩

/-- The second of three leaves, in the tree of the first two. -/
theorem inclusion_proofs_on_sample :
    ∃ nodes root, verifyInclusionProof NobleUtils.reference Sha256.digest (text (Bytes.fill 32 2)) 1
      nodes root 2 = .ok true := by
  have hstored := reached_appends NobleUtils.reference Sha256.digest sampleLeaves
  obtain ⟨hex, leaf, root, nodes, hhex, -, -, -, hverify, -⟩ := inclusion_proofs_complete_and_sound
    NobleUtils.reference Sha256.digest (sampleLeaves.map fun leaf => .append (text leaf)) 1 2 (by decide)
    (by rw [hstored]; decide)
  rw [hstored] at hhex
  obtain rfl : text (Bytes.fill 32 2) = hex := Option.some.inj hhex
  exact ⟨_, _, hverify⟩

end StarkBallot.Merkle
