import StarkBallot.ContractCore.InclusionProof
import StarkBallot.Schemes.Packing

/-! Bitmap roots of `bitmap.rs`: the bits are packed into bytes, cut into zero-padded 32-byte leaves and
    hashed into a CT tree.

        bits  b0 b1 ... b255 | b256 ...        256 bits a leaf, least significant bit first
        root  = computeMerkleRoot (hashLeaf leaf 0, hashLeaf leaf 1, ...)

    The zero padding hides the length, so a root binds the bitmap only together with its length; the
    journal carries that length as the tree size. -/

namespace StarkBallot.ContractCore
open Schemes

variable (sha256 : List UInt8 → Bytes 32)

def bitmapChunkBytes : ℕ := 32
def bitmapChunkBits : ℕ := bitmapChunkBytes * 8

/-- `PackedBitmap::from_bits`. -/
def packBitsToBytes (bits : List Bool) : List UInt8 := packBits bits

def bitmapLeafCount (bitLen : ℕ) : ℕ := max 1 ((bitLen + bitmapChunkBits - 1) / bitmapChunkBits)

def bitmapLeafChunkFromPacked (packedBytes : List UInt8) (leafIndex : ℕ) : Bytes 32 :=
  ⟨paddedBlock bitmapChunkBytes packedBytes leafIndex, paddedBlock_length ..⟩

/-- The leaves of the bitmap tree before hashing. -/
def bitmapLeafChunks (bitmap : List Bool) : List (Bytes 32) :=
  (List.range (bitmapLeafCount bitmap.length)).map (bitmapLeafChunkFromPacked (packBitsToBytes bitmap))

def bitmapLeafHashes (bitmap : List Bool) : List (Bytes 32) :=
  (bitmapLeafChunks bitmap).map (hashLeaf sha256)

/-- CT Merkle root of a bitmap packed into 32-byte leaves. -/
def computeBitmapMerkleRoot (bitmap : List Bool) : Bytes 32 :=
  computeMerkleRoot sha256 (bitmapLeafHashes sha256 bitmap)

/-- The messages hashed for a bitmap root. -/
def bitmapMessages (bitmap : List Bool) : List (List UInt8) :=
  treeMessages sha256 (bitmapLeafChunks bitmap)

theorem bitmapLeafChunks_length (bitmap : List Bool) :
    (bitmapLeafChunks bitmap).length = bitmapLeafCount bitmap.length := by simp [bitmapLeafChunks]

theorem bitmapLeafHashes_length (bitmap : List Bool) :
    (bitmapLeafHashes sha256 bitmap).length = bitmapLeafCount bitmap.length := by
  rw [bitmapLeafHashes, List.length_map, bitmapLeafChunks_length]

theorem leaf_lt_bitmapLeafCount {j bitLen : ℕ} (hj : j < bitLen) :
    j / bitmapChunkBits < bitmapLeafCount bitLen := by
  simp only [bitmapLeafCount, bitmapChunkBits, bitmapChunkBytes]
  omega

/-- A bit of the bitmap can be read off the leaf that holds it. -/
theorem bitmapLeafChunks_bit {bitmap : List Bool} {j : ℕ} (hj : j < bitmap.length) :
    ∃ leaf, (bitmapLeafChunks bitmap)[j / bitmapChunkBits]? = some leaf ∧
      bitmap[j]? = some (bitOf (leaf.toList.getD (j % bitmapChunkBits / 8) 0) (j % 8)) := by
  have hleaf := leaf_lt_bitmapLeafCount hj
  refine ⟨bitmapLeafChunkFromPacked (packBitsToBytes bitmap) (j / bitmapChunkBits), ?_, ?_⟩
  · simp [bitmapLeafChunks, hleaf]
  · have hbit := bitOf_paddedBlock (show 0 < bitmapChunkBytes by decide) bitmap j
    rw [bitmapLeafChunkFromPacked, packBitsToBytes, bitmapChunkBits, hbit, List.getElem?_eq_getElem hj,
      List.getD_eq_getElem?_getD, List.getElem?_eq_getElem hj, Option.getD_some]

/-- Bitmaps of one length with the same leaves are equal. -/
theorem bitmapLeafChunks_inj {bitmap bitmap' : List Bool} (hlen : bitmap.length = bitmap'.length)
    (h : bitmapLeafChunks bitmap = bitmapLeafChunks bitmap') : bitmap = bitmap' := by
  refine List.ext_getElem? fun j => ?_
  rcases Nat.lt_or_ge j bitmap.length with hj | hj
  · obtain ⟨leaf, hleaf, hbit⟩ := bitmapLeafChunks_bit hj
    obtain ⟨leaf', hleaf', hbit'⟩ := bitmapLeafChunks_bit (hlen ▸ hj)
    rw [h, hleaf'] at hleaf
    cases hleaf
    rw [hbit, hbit']
  · rw [List.getElem?_eq_none hj, List.getElem?_eq_none (hlen ▸ hj)]

/-- BINDING: one root, one bitmap of a given length. -/
theorem computeBitmapMerkleRoot_inj {sha256 : List UInt8 → Bytes 32} {Q : Set (List UInt8)}
    (hQ : Set.InjOn sha256 Q) {bitmap bitmap' : List Bool} (hlen : bitmap.length = bitmap'.length)
    (hmem : ∀ m ∈ bitmapMessages sha256 bitmap, m ∈ Q)
    (hmem' : ∀ m ∈ bitmapMessages sha256 bitmap', m ∈ Q)
    (h : computeBitmapMerkleRoot sha256 bitmap = computeBitmapMerkleRoot sha256 bitmap') :
    bitmap = bitmap' :=
  bitmapLeafChunks_inj hlen (computeMerkleRoot_inj hQ
    (by rw [bitmapLeafChunks_length, bitmapLeafChunks_length, hlen]) hmem hmem' h)

/-! ### Proofs of one bit -/

inductive BitmapAuditPathPosition where
  | left
  | right
  deriving DecidableEq, Repr

structure BitmapAuditPathNode where
  hash : Bytes 32
  position : BitmapAuditPathPosition

structure BitmapMerkleProof where
  leafChunk : Bytes 32
  auditPath : List BitmapAuditPathNode
  leafIndex : ℕ
  bitIndex : ℕ

def bitmapLeafChunk (bitmap : List Bool) (leafIndex : ℕ) : Bytes 32 :=
  bitmapLeafChunkFromPacked (packBitsToBytes bitmap) leafIndex

/-- A bit of a chunk is the bit of the bitmap at its place; past the end the bits are zero. -/
theorem bitOf_bitmapLeafChunk (bitmap : List Bool) (leafIndex : ℕ) {j : ℕ} (hj : j < bitmapChunkBits) :
    bitOf ((bitmapLeafChunk bitmap leafIndex).toList.getD (j / 8) 0) (j % 8) =
      bitmap.getD (leafIndex * bitmapChunkBits + j) false := by
  have hbyte : leafIndex * bitmapChunkBytes + j / 8 = (leafIndex * bitmapChunkBits + j) / 8 := by
    simp only [bitmapChunkBits, bitmapChunkBytes]
    omega
  have hplace : j % 8 = (leafIndex * bitmapChunkBits + j) % 8 := by
    simp only [bitmapChunkBits, bitmapChunkBytes]
    omega
  rw [bitmapLeafChunk, bitmapLeafChunkFromPacked, packBitsToBytes,
    paddedBlock_getD _ (show j / 8 < bitmapChunkBytes from Nat.div_lt_of_lt_mul hj), hbyte, hplace,
    bitOf_packBits]

/-- The `while` loop of `bitmap_merkle_tree_levels`: a level and the levels above it. -/
def pushLevels (current : List (Bytes 32)) : List (List (Bytes 32)) :=
  if 1 < current.length then current :: pushLevels (pairUp (hashInternal sha256) current) else [current]
termination_by current.length
decreasing_by rw [pairUp_length]; omega

def bitmapMerkleTreeLevels (bitmap : List Bool) : List (List (Bytes 32)) :=
  pushLevels sha256 (bitmapLeafHashes sha256 bitmap)

/-- The loop of `generate_bitmap_merkle_proof` over the levels. -/
def pushSiblings (currentIndex : ℕ) : List (List (Bytes 32)) → List BitmapAuditPathNode
  | [] => []
  | level :: levels =>
    let siblingIndex := if currentIndex % 2 = 0 then currentIndex + 1 else currentIndex - 1
    (match level[siblingIndex]? with
      | some sibling => [⟨sibling, if currentIndex % 2 = 0 then .right else .left⟩]
      | none => []) ++ pushSiblings (currentIndex / 2) levels

def generateBitmapMerkleProof (bitmap : List Bool) (bitIndex : ℕ) : Option BitmapMerkleProof :=
  if bitmap.isEmpty then none
  else
    match BitmapBitIndex.new bitIndex bitmap.length with
    | .error _ => none
    | .ok bitIndex => some {
        leafChunk := bitmapLeafChunk bitmap bitIndex.leafIndex
        auditPath := pushSiblings bitIndex.leafIndex
          ((bitmapMerkleTreeLevels sha256 bitmap).takeWhile fun level => level.length > 1)
        leafIndex := bitIndex.leafIndex
        bitIndex := bitIndex.get }

/-- A step of a trail as a path node. -/
def trailNode (step : Bytes 32 × Bool) : BitmapAuditPathNode :=
  ⟨step.1, if step.2 then .left else .right⟩

/-- The loop collects the trail of the leaf. -/
theorem pushSiblings_eq (currentIndex : ℕ) (level : List (Bytes 32)) :
    pushSiblings currentIndex ((pushLevels sha256 level).takeWhile fun level => level.length > 1) =
      (trail (hashInternal sha256) currentIndex level).map trailNode := by
  induction hn : level.length using Nat.strong_induction_on generalizing currentIndex level with
  | _ n ih =>
    subst hn
    rw [pushLevels, trail]
    by_cases hlong : 1 < level.length
    · rw [if_pos hlong, if_pos hlong, List.takeWhile_cons_of_pos (by simpa using hlong), pushSiblings,
        ih _ (by rw [pairUp_length]; omega) _ _ rfl, List.map_append, siblingIndex]
      congr 1
      rcases Nat.mod_two_eq_zero_or_one currentIndex with heven | hodd
      · cases hnode : level[if currentIndex % 2 = 0 then currentIndex + 1 else currentIndex - 1]? with
        | none => rfl
        | some sibling => simp [trailNode, heven]
      · cases hnode : level[if currentIndex % 2 = 0 then currentIndex + 1 else currentIndex - 1]? with
        | none => rfl
        | some sibling => simp [trailNode, hodd]
    · rw [if_neg hlong, if_neg hlong, List.takeWhile_cons_of_neg (by simpa using hlong)]
      rfl

/-- SPEC: the proof of a bit in range is its leaf with the trail of the leaf. -/
theorem generateBitmapMerkleProof_eq {bitmap : List Bool} {bitIndex : ℕ} (h : bitIndex < bitmap.length) :
    generateBitmapMerkleProof sha256 bitmap bitIndex = some
      ⟨bitmapLeafChunk bitmap (bitIndex / 256),
        (trail (hashInternal sha256) (bitIndex / 256) (bitmapLeafHashes sha256 bitmap)).map trailNode,
        bitIndex / 256, bitIndex⟩ := by
  have hne : ¬ bitmap.isEmpty := by
    rw [List.isEmpty_iff]
    rintro rfl
    exact absurd h (Nat.not_lt_zero _)
  rw [generateBitmapMerkleProof, if_neg hne, BitmapBitIndex.new, dif_pos h]
  simp only [BitmapBitIndex.leafIndex, bitmapMerkleTreeLevels, pushSiblings_eq]

end StarkBallot.ContractCore
