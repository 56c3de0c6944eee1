import StarkBallot.ZkvmContract.Bitmap
import StarkBallot.Schemes.Collision
import StarkBallot.Runtime.Sha256

/-! Proofs of single bits of a bitmap (`verification/src/merkle/bitmap-merkle-tree.ts`). A proof is the
    chunk that holds the bit and the siblings on the way to the root, each with its side. The verifier
    trusts the bit index, the size and the root (its context) and nothing else: the sides a path must
    have follow from index and size, so a path of another shape is turned away
    before anything is hashed.

        positions  of leaf 4 among 5:          (none), (none), left
                   of leaf 1 among 5:          left, right, right

    What is accepted is the chunk of the bitmap, or two hashed messages collide; neither the case of the
    digits nor the length of what they decode to matters for that. -/

namespace StarkBallot.Verification
open Schemes ContractCore CryptoPrimitives ZkvmContract

variable (noble : NobleUtils) (sha256 : List UInt8 → Bytes 32)

structure PathNode where
  hash : JsString
  position : JsString
  deriving DecidableEq

structure BitmapMerkleProof where
  leafChunk : JsString
  auditPath : List PathNode
  leafIndex : ℕ
  bitIndex : ℕ
  deriving DecidableEq

def calculateLeafIndex (bitIndex : ℕ) : ℕ := calculateBitmapLeafIndex bitIndex

def calculateBitOffset (bitIndex : ℕ) : ℕ := calculateBitmapBitOffset bitIndex

def getLeafChunk (bitmap : List Bool) (leafIndex : ℕ) : JsM JsString :=
  getBitmapLeafChunkHex noble bitmap leafIndex

/-- The loop of the generator over the levels below the root; an empty text counts as no sibling. -/
def pushSiblings (currentIndex : ℕ) : List (List JsString) → List PathNode
  | [] => []
  | levelNodes :: levels =>
    let siblingIndex := if currentIndex % 2 = 0 then currentIndex + 1 else currentIndex - 1
    (match levelNodes[siblingIndex]? with
      | some sibling =>
        if sibling = [] then []
        else [⟨sibling, js (if currentIndex % 2 = 0 then "right" else "left")⟩]
      | none => []) ++ pushSiblings (currentIndex / 2) levels

def generateBitmapMerkleProof (bitmap : List Bool) (bitIndex : ℤ) : JsM BitmapMerkleProof :=
  if bitmap.length = 0 then .error (.error "Empty bitmap")
  else if bitIndex < 0 ∨ bitIndex ≥ bitmap.length then .error (.error "Index out of range")
  else do
    let leafIndex := calculateLeafIndex bitIndex.toNat
    let leafChunk ← getLeafChunk noble bitmap leafIndex
    let levels ← buildBitmapMerkleTreeHexLevels noble sha256 bitmap
    return ⟨leafChunk, pushSiblings leafIndex levels.dropLast, leafIndex, bitIndex.toNat⟩

/-! ### The context -/

/-- `/^(0x)?[0-9a-fA-F]{64}$/`. -/
def isBitmapRoot (value : JsString) : Bool :=
  isBitmapChunkHex value || (value.take 2 = js "0x" && isBitmapChunkHex (value.drop 2))

/-- The values a verification takes on trust, as the branding functions check them. -/
structure AuthenticatedBitmapProofContext where
  bitIndex : ℕ
  treeSize : ℕ
  expectedRoot : JsString
  bitIndex_le : bitIndex ≤ Num.maxSafeInteger
  treeSize_pos : 0 < treeSize
  treeSize_le : treeSize ≤ Num.maxSafeInteger
  expectedRoot_ok : isBitmapRoot expectedRoot = true

def asBitmapBitIndex (value : Num) : JsM {n : ℕ // n ≤ Num.maxSafeInteger} :=
  if h : value.isSafeInteger = true ∧ value.lt (.ofNat 0) = false then
    .ok ⟨value.toNat, Num.toNat_le_of_safe h.1⟩
  else .error (.error "bitmap bit index must be a non-negative safe integer")

def asAuthenticatedBitmapTreeSize (value : Num) : JsM {n : ℕ // 0 < n ∧ n ≤ Num.maxSafeInteger} :=
  if h : value.isSafeInteger = true ∧ value.le (.ofNat 0) = false then
    .ok ⟨value.toNat, Num.toNat_pos_of_safe h.1 h.2, Num.toNat_le_of_safe h.1⟩
  else .error (.error "authenticated bitmap tree size must be a positive safe integer")

def asBitmapLeafIndex (value : Num) : JsM ℕ :=
  if value.isSafeInteger = true ∧ value.lt (.ofNat 0) = false then .ok value.toNat
  else .error (.error "bitmap leaf index must be a non-negative safe integer")

def asBitmapBitOffset (value : Num) : JsM ℕ :=
  if value.isSafeInteger = true ∧ value.lt (.ofNat 0) = false ∧ value.lt (.ofNat 256) = true then
    .ok value.toNat
  else .error (.error "bitmap bit offset must be a safe integer in [0, 255]")

def asBitmapRoot (value : JsString) : JsM {root : JsString // isBitmapRoot root = true} :=
  if h : isBitmapRoot value = true then .ok ⟨value, h⟩
  else .error (.error "bitmap root must be a 32-byte hex string")

def buildAuthenticatedBitmapProofContext (bitIndex treeSize : Num) (expectedRoot : JsString) :
    JsM AuthenticatedBitmapProofContext := do
  let bitIndex ← asBitmapBitIndex bitIndex
  let treeSize ← asAuthenticatedBitmapTreeSize treeSize
  let expectedRoot ← asBitmapRoot expectedRoot
  return ⟨bitIndex.1, treeSize.1, expectedRoot.1, bitIndex.2, treeSize.2.1, treeSize.2.2, expectedRoot.2⟩

/-! ### The verifier -/

structure BitmapVerificationResult where
  valid : Bool
  included : Bool
  leafIndex : ℕ
  bitOffset : ℕ
  deriving DecidableEq

def invalidBitmapResult (leafIndex bitOffset : ℕ) : BitmapVerificationResult :=
  ⟨false, false, leafIndex, bitOffset⟩

def calculateBrandedLeafIndex (bitIndex : ℕ) : JsM ℕ :=
  asBitmapLeafIndex (.ofNat (calculateLeafIndex bitIndex))

def calculateBrandedBitOffset (bitIndex : ℕ) : JsM ℕ :=
  asBitmapBitOffset (.ofNat (calculateBitOffset bitIndex))

def deriveAuditPathPositions (currentIndex levelSize : ℕ) : List JsString :=
  if 1 < levelSize then
    let siblingIndex := if currentIndex % 2 = 0 then currentIndex + 1 else currentIndex - 1
    (if siblingIndex < levelSize then [js (if currentIndex % 2 = 0 then "right" else "left")] else []) ++
      deriveAuditPathPositions (currentIndex / 2) ((levelSize + 1) / 2)
  else []
termination_by levelSize

/-- `Math.ceil(treeSize / BITMAP_CHUNK_BITS)`. -/
def leafCount (treeSize : ℕ) : ℕ := (treeSize + (bitmapChunkBits - 1)) / bitmapChunkBits

def isValidAuthenticatedTreeShape (treeSize bitIndex leafIndex : ℕ) (auditPath : List PathNode) : Bool :=
  if ¬ (Num.ofNat treeSize).isSafeInteger ∨ treeSize = 0 then false
  else if bitIndex ≥ treeSize then false
  else if leafIndex ≥ leafCount treeSize then false
  else
    let expectedPositions := deriveAuditPathPositions leafIndex (leafCount treeSize)
    if auditPath.length ≠ expectedPositions.length then false
    else auditPath.zipIdx.all fun node => expectedPositions[node.2]? = some node.1.position

/-- The loop over the unused bits: whether one is set. -/
def anySet (chunkHex : JsString) : List ℕ → JsM Bool
  | [] => return false
  | bitOffset :: rest => do
    if ← extractBitFromBitmapChunkHex noble chunkHex bitOffset then return true
    else anySet chunkHex rest

def hasZeroUnusedPadding (chunkHex : JsString) (treeSize leafIndex : ℕ) : JsM Bool :=
  if leafIndex + 1 ≠ leafCount treeSize then return true
  else
    let usedBitsInLeaf := treeSize % bitmapChunkBits
    if usedBitsInLeaf = 0 then return true
    else do
      return !(← anySet noble chunkHex
        (List.range' usedBitsInLeaf (bitmapChunkBits - usedBitsInLeaf)))

/-- The sibling on the left, the current node on the right; or the other way round. -/
def hashPathNode (currentHash : JsString) (pathNode : PathNode) : JsM JsString :=
  if pathNode.position = js "left" then hashBitmapInternalNodeHex noble sha256 pathNode.hash currentHash
  else hashBitmapInternalNodeHex noble sha256 currentHash pathNode.hash

/-- The loop over the path; `none` if a node is no digest. -/
def hashAlong (currentHash : JsString) : List PathNode → JsM (Option JsString)
  | [] => return some currentHash
  | pathNode :: rest => do
    if ¬ isBitmapChunkHex pathNode.hash then return none
    else hashAlong (← hashPathNode noble sha256 currentHash pathNode) rest

/-- The expected root, with the prefix of the computed one. -/
def normalizedExpected (expectedRoot : JsString) : JsString :=
  if expectedRoot.take 2 = js "0x" then expectedRoot else js "0x" ++ expectedRoot

def verifyBitmapMerkleProof (leafChunk : JsString) (auditPath : List PathNode)
    (context : AuthenticatedBitmapProofContext) : JsM BitmapVerificationResult := do
  let leafIndex ← calculateBrandedLeafIndex context.bitIndex
  let bitOffset ← calculateBrandedBitOffset context.bitIndex
  if ¬ isValidAuthenticatedTreeShape context.treeSize context.bitIndex leafIndex auditPath then
    return invalidBitmapResult leafIndex bitOffset
  else if ¬ isBitmapChunkHex leafChunk then return invalidBitmapResult leafIndex bitOffset
  else if ¬ (← hasZeroUnusedPadding noble leafChunk context.treeSize leafIndex) then
    return invalidBitmapResult leafIndex bitOffset
  else
    let included ← extractBitFromBitmapChunkHex noble leafChunk bitOffset
    let currentHash ← hashBitmapLeafChunkHex noble sha256 leafChunk
    match ← hashAlong noble sha256 currentHash auditPath with
    | none => return ⟨false, included, leafIndex, bitOffset⟩
    | some currentHash =>
      let computedRoot := js "0x" ++ currentHash
      return ⟨computedRoot = normalizedExpected context.expectedRoot, included, leafIndex, bitOffset⟩

/-! ### The generator -/

/-- The text of a turn. -/
def sideText (turn : Bool) : JsString := js (if turn then "left" else "right")

/-- A step of a trail as the texts of a path node. -/
def stepNode (step : Bytes 32 × Bool) : PathNode := ⟨text step.1, sideText step.2⟩

/-- The loop collects the trail of the leaf. -/
theorem pushSiblings_trail (currentIndex : ℕ) (level : List (Bytes 32)) :
    pushSiblings currentIndex (((levelsFrom sha256 level).map fun level => level.map text).dropLast) =
      (trail (hashInternal sha256) currentIndex level).map stepNode := by
  induction hn : level.length using Nat.strong_induction_on generalizing currentIndex level with
  | _ n ih =>
    subst hn
    rw [levelsFrom, trail]
    by_cases hlong : 1 < level.length
    · have hne : (levelsFrom sha256 (pairUp (hashBitmapInternalNode sha256) level)).map
          (fun level => level.map text) ≠ [] := by
        rw [levelsFrom]
        split <;> simp
      rw [if_pos hlong, if_pos hlong, List.map_cons, List.dropLast_cons_of_ne_nil hne, pushSiblings,
        ih _ (by rw [pairUp_length]; omega) _ _ rfl, List.map_append, siblingIndex, List.getElem?_map]
      congr 1
      cases hnode : level[if currentIndex % 2 = 0 then currentIndex + 1 else currentIndex - 1]? with
      | none => rfl
      | some sibling =>
        simp only [Option.map_some, if_neg (text_ne_nil sibling), Option.toList_some, List.map_cons,
          List.map_nil, stepNode, sideText]
        rcases Nat.mod_two_eq_zero_or_one currentIndex with heven | hodd
        · simp [heven]
        · simp [hodd]
    · rw [if_neg hlong, if_neg hlong]
      rfl

/-- SPEC: the proof of a bit in range is the text of its chunk with the trail of the leaf. -/
theorem generateBitmapMerkleProof_trail {bitmap : List Bool} {i : ℕ} (hi : i < bitmap.length) :
    generateBitmapMerkleProof noble sha256 bitmap i = .ok
      ⟨text (bitmapLeafChunk bitmap (i / 256)),
        (trail (hashInternal sha256) (i / 256) (bitmapLeafHashes sha256 bitmap)).map stepNode,
        i / 256, i⟩ := by
  have hchunks :
      (bitmapLeafChunks bitmap).map (hashBitmapLeafChunk sha256) = bitmapLeafHashes sha256 bitmap := rfl
  have hne : ¬ (bitmapLeafHashes sha256 bitmap).length = 0 := by
    rw [bitmapLeafHashes_length, bitmapLeafCount]
    omega
  have hlevels : buildBitmapMerkleTreeHexLevels noble sha256 bitmap =
      .ok ((levelsFrom sha256 (bitmapLeafHashes sha256 bitmap)).map fun level => level.map text) := by
    rw [buildBitmapMerkleTreeHexLevels, packBitmapBitsToBytes_eq, ok_bind, splitBitmapBytesIntoChunks_eq]
    simp only [hchunks, buildBitmapMerkleTreeByteLevels, if_neg hne, noble.bytesToHex_eq]
    rfl
  have hchunk : getLeafChunk noble bitmap (i / 256) = .ok (text (bitmapLeafChunk bitmap (i / 256))) := by
    rw [getLeafChunk, getBitmapLeafChunkHex, getBitmapLeafChunkBytes_eq, ok_bind, noble.bytesToHex_eq]
    rfl
  have hleaf : calculateLeafIndex i = i / 256 := rfl
  rw [generateBitmapMerkleProof, if_neg (by omega), if_neg (by omega)]
  simp only [Int.toNat_natCast, hleaf, hchunk, hlevels, ok_bind, pushSiblings_trail]
  rfl

/-! ### The shape of a path -/

/-- The sides expected of a path are the turns of the leaf. -/
theorem deriveAuditPathPositions_eq (currentIndex levelSize : ℕ) :
    deriveAuditPathPositions currentIndex levelSize = (turns currentIndex levelSize).map sideText := by
  refine climb_induction (motive := fun currentIndex levelSize =>
    deriveAuditPathPositions currentIndex levelSize =
      (turns currentIndex levelSize).map sideText) ?_ ?_ _ _
  · intro currentIndex levelSize hsize
    rw [deriveAuditPathPositions, if_neg (by omega), turns, if_neg (by omega)]
    rfl
  · intro currentIndex levelSize hsize ih
    rw [deriveAuditPathPositions, if_pos hsize, turns, if_pos hsize, ih, List.map_append, siblingIndex]
    rcases Nat.mod_two_eq_zero_or_one currentIndex with heven | hodd
    · simp only [heven, if_true]
      split <;> rfl
    · simp only [hodd, Nat.one_ne_zero, if_false]
      split <;> rfl

theorem leafCount_eq {treeSize : ℕ} (h : 0 < treeSize) :
    leafCount treeSize = bitmapLeafCount treeSize := by
  simp only [leafCount, bitmapLeafCount, bitmapChunkBits, bitmapChunkBytes]
  omega

/-- Comparing place by place compares the lists. -/
theorem positions_all {auditPath : List PathNode} {expected : List JsString}
    (h : auditPath.length = expected.length) :
    (auditPath.zipIdx.all fun node => expected[node.2]? = some node.1.position) =
      decide (auditPath.map PathNode.position = expected) := by
  rw [Bool.eq_iff_iff, List.all_eq_true, decide_eq_true_eq]
  constructor
  · intro hall
    refine List.ext_getElem? fun i => ?_
    rcases Nat.lt_or_ge i auditPath.length with hi | hi
    · have hnode :=
        hall (auditPath[i], i) (List.mem_zipIdx_iff_getElem?.mpr (List.getElem?_eq_getElem hi))
      rw [decide_eq_true_eq] at hnode
      rw [hnode, List.getElem?_map, List.getElem?_eq_getElem hi, Option.map_some]
    · rw [List.getElem?_eq_none (by simpa using hi), List.getElem?_eq_none (by omega)]
  · rintro rfl ⟨node, i⟩ hnode
    rw [List.mem_zipIdx_iff_getElem?] at hnode
    rw [decide_eq_true_eq, List.getElem?_map, hnode, Option.map_some]

/-- SPEC: the shapes accepted for a bit of a bitmap are those with the turns of its leaf. -/
theorem isValidAuthenticatedTreeShape_iff {treeSize bitIndex : ℕ} {auditPath : List PathNode}
    (hsafe : treeSize ≤ Num.maxSafeInteger) (hi : bitIndex < treeSize) :
    isValidAuthenticatedTreeShape treeSize bitIndex (bitIndex / 256) auditPath = true ↔
      auditPath.map PathNode.position = (turns (bitIndex / 256) (bitmapLeafCount treeSize)).map
        sideText := by
  have hcount := leafCount_eq (show 0 < treeSize by omega)
  have hleaf : ¬ bitIndex / 256 ≥ bitmapLeafCount treeSize := not_le.mpr (leaf_lt_bitmapLeafCount hi)
  have hsafe' : (Num.ofNat treeSize).isSafeInteger = true := Num.ofNat_isSafeInteger.mpr hsafe
  simp only [isValidAuthenticatedTreeShape, hsafe', not_true, false_or, hcount,
    deriveAuditPathPositions_eq]
  rw [if_neg (by omega), if_neg (by omega), if_neg hleaf]
  split
  · rename_i hlen
    refine ⟨nofun, fun h => absurd ?_ hlen⟩
    have := congrArg List.length h
    rwa [List.length_map] at this
  · rename_i hlen
    rw [positions_all (not_not.mp hlen), decide_eq_true_eq]

/-! ### Hashing along a path -/

/-- What a text decodes to. -/
def decoded (hex : JsString) : List UInt8 :=
  match noble.hexToBytes hex with
  | .ok bytes => bytes
  | .error _ => []

theorem decoded_of_decodes {noble : NobleUtils} {hex : JsString} {bytes : List UInt8}
    (h : Decodes noble hex bytes) :
    decoded noble hex = bytes := by
  rw [decoded, h.2]

/-- The message of a step: a sibling of any length on its side. -/
def stepMessage (turn : Bool) (sibling : List UInt8) (cur : Bytes 32) : List UInt8 :=
  if turn then bitmapInternalMessage sibling cur.toList else bitmapInternalMessage cur.toList sibling

def hashStep (turn : Bool) (sibling : List UInt8) (cur : Bytes 32) : Bytes 32 :=
  sha256 (stepMessage turn sibling cur)

/-- A path node as a step. -/
def decodedStep (node : PathNode) : List UInt8 × Bool :=
  (decoded noble node.hash, decide (node.position = js "left"))

/-- One pass of the loop. -/
theorem hashPathNode_step {cur : Bytes 32} {node : PathNode} {hash : JsString}
    (h : hashPathNode noble sha256 (text cur) node = .ok hash) :
    text (hashStep sha256 (decodedStep noble node).2 (decodedStep noble node).1 cur) = hash := by
  unfold hashPathNode at h
  unfold hashStep stepMessage decodedStep
  split at h
  · rename_i hleft
    obtain ⟨left, right, hl, hr, rfl⟩ := hashBitmapInternalNodeHex_eq_ok.mp h
    rw [if_pos (decide_eq_true hleft), decoded_of_decodes hl, decodes_unique hr (decodes_text noble cur)]
  · rename_i hright
    obtain ⟨left, right, hl, hr, rfl⟩ := hashBitmapInternalNodeHex_eq_ok.mp h
    rw [if_neg (by simpa using hright), decoded_of_decodes hr,
      decodes_unique hl (decodes_text noble cur)]

theorem hashPathNode_trail (cur s : Bytes 32) (turn : Bool) :
    hashPathNode noble sha256 (text cur) (stepNode (s, turn)) =
      .ok (text (joinSide (hashInternal sha256) turn s cur)) := by
  unfold hashPathNode stepNode
  cases turn with
  | true =>
    rw [if_pos (show sideText true = js "left" from rfl)]
    exact hashBitmapInternalNodeHex_eq_ok.mpr ⟨_, _, decodes_text noble s, decodes_text noble cur, rfl⟩
  | false =>
    rw [if_neg (show ¬ sideText false = js "left" by decide)]
    exact hashBitmapInternalNodeHex_eq_ok.mpr ⟨_, _, decodes_text noble cur, decodes_text noble s, rfl⟩

/-- What the loop returns is where the decoded steps lead. -/
theorem hashAlong_follow {path : List PathNode} {result : JsString} : ∀ {cur : Bytes 32},
    hashAlong noble sha256 (text cur) path = .ok (some result) →
      text (follow (hashStep sha256) cur (path.map (decodedStep noble))) = result := by
  induction path with
  | nil =>
    intro cur h
    exact Option.some.inj (Except.ok.inj h)
  | cons node rest ih =>
    intro cur h
    rw [hashAlong] at h
    split at h
    · cases h
    · obtain ⟨hash, hhash, hrest⟩ := bind_eq_ok.mp h
      rw [← hashPathNode_step noble sha256 hhash] at hrest
      exact ih hrest

/-- The loop returns on the texts of a trail. -/
theorem hashAlong_trail {steps : List (Bytes 32 × Bool)} : ∀ {cur : Bytes 32},
    hashAlong noble sha256 (text cur) (steps.map stepNode) =
      .ok (some (text (follow (joinSide (hashInternal sha256)) cur steps))) := by
  induction steps with
  | nil => exact rfl
  | cons step steps ih =>
    intro cur
    obtain ⟨s, turn⟩ := step
    have hchunk : ¬ ¬ isBitmapChunkHex (stepNode (s, turn)).hash = true :=
      not_not.mpr (isBitmapChunkHex_text s)
    rw [List.map_cons, hashAlong, if_neg hchunk, hashPathNode_trail, ok_bind, ih]
    rfl

/-! ### Verification -/

theorem calculateBrandedLeafIndex_eq {bitIndex : ℕ} (h : bitIndex ≤ Num.maxSafeInteger) :
    calculateBrandedLeafIndex bitIndex = .ok (bitIndex / 256) := by
  have hsafe : (Num.ofNat (calculateLeafIndex bitIndex)).isSafeInteger = true :=
    Num.ofNat_isSafeInteger.mpr ((Nat.div_le_self bitIndex 256).trans h)
  rw [calculateBrandedLeafIndex, asBitmapLeafIndex, if_pos ⟨hsafe, by simp⟩, Num.ofNat_toNat]
  rfl

theorem calculateBrandedBitOffset_eq {bitIndex : ℕ} (h : bitIndex ≤ Num.maxSafeInteger) :
    calculateBrandedBitOffset bitIndex = .ok (bitIndex % 256) := by
  have hlt : calculateBitOffset bitIndex < 256 := Nat.mod_lt bitIndex (by decide)
  have hsafe : (Num.ofNat (calculateBitOffset bitIndex)).isSafeInteger = true :=
    Num.ofNat_isSafeInteger.mpr ((Nat.mod_le bitIndex 256).trans h)
  rw [calculateBrandedBitOffset, asBitmapBitOffset, if_pos ⟨hsafe, by simp, by simpa using hlt⟩,
    Num.ofNat_toNat]
  rfl

theorem anySet_of_unset {noble : NobleUtils} {chunkHex : JsString} : ∀ {offsets : List ℕ},
    (∀ j ∈ offsets, extractBitFromBitmapChunkHex noble chunkHex j = .ok false) →
      anySet noble chunkHex offsets = .ok false
  | [], _ => rfl
  | j :: offsets, h => by
      rw [anySet, h j List.mem_cons_self, ok_bind]
      exact anySet_of_unset fun k hk => h k (List.mem_cons_of_mem _ hk)

/-- A chunk of the bitmap has no bit set past the end. -/
theorem hasZeroUnusedPadding_own (bitmap : List Bool) (i : ℕ) :
    hasZeroUnusedPadding noble (text (bitmapLeafChunk bitmap (i / 256))) bitmap.length (i / 256) =
      .ok true := by
  have hbits : bitmapChunkBits = 256 := rfl
  unfold hasZeroUnusedPadding
  split
  · rfl
  rename_i hlast
  rw [not_not, leafCount, hbits] at hlast
  simp only
  split
  · rfl
  rename_i hused
  have hunset : anySet noble (text (bitmapLeafChunk bitmap (i / 256)))
      (List.range' (bitmap.length % bitmapChunkBits)
        (bitmapChunkBits - bitmap.length % bitmapChunkBits)) = .ok false := by
    refine anySet_of_unset fun j hj => ?_
    rw [List.mem_range'_1, hbits] at hj
    rw [hbits] at hused
    have hj' : j < bitmapChunkBits := by omega
    have hpast : bitmap.length ≤ i / 256 * bitmapChunkBits + j := by rw [hbits]; omega
    rw [extractBit_bitmapLeafChunk noble bitmap _ hj', List.getD_eq_getElem?_getD,
      List.getElem?_eq_none hpast]
    rfl
  rw [hunset]
  rfl

theorem isBitmapRoot_prefixed (root : Bytes 32) : isBitmapRoot (prefixed root) = true := by
  have hlead : (prefixed root).take 2 = js "0x" := rfl
  have hdigits : (prefixed root).drop 2 = text root := rfl
  rw [isBitmapRoot, hlead, hdigits, isBitmapChunkHex_text]
  simp

/-- The context of a bit of a bitmap. -/
def contextOf (bitmap : JsArray Bool) {i : ℕ} (hi : i < bitmap.toList.length) :
    AuthenticatedBitmapProofContext where
  bitIndex := i
  treeSize := bitmap.toList.length
  expectedRoot := prefixed (computeBitmapMerkleRoot sha256 bitmap.toList)
  bitIndex_le := hi.le.trans bitmap.length_le_safe
  treeSize_pos := by omega
  treeSize_le := bitmap.length_le_safe
  expectedRoot_ok := isBitmapRoot_prefixed _

theorem buildAuthenticatedBitmapProofContext_eq (bitmap : JsArray Bool) {i : ℕ}
    (hi : i < bitmap.toList.length) :
    buildAuthenticatedBitmapProofContext (.ofNat i) (.ofNat bitmap.toList.length)
      (prefixed (computeBitmapMerkleRoot sha256 bitmap.toList)) = .ok (contextOf sha256 bitmap hi) := by
  have hindex : (Num.ofNat i).isSafeInteger = true ∧ (Num.ofNat i).lt (.ofNat 0) = false :=
    ⟨Num.ofNat_isSafeInteger.mpr (hi.le.trans bitmap.length_le_safe), by simp⟩
  have hsize : (Num.ofNat bitmap.toList.length).isSafeInteger = true ∧
      (Num.ofNat bitmap.toList.length).le (.ofNat 0) = false := by
    refine ⟨Num.ofNat_isSafeInteger.mpr bitmap.length_le_safe, ?_⟩
    rw [Num.ofNat_le]
    exact decide_eq_false (by omega)
  rw [buildAuthenticatedBitmapProofContext, asBitmapBitIndex, dif_pos hindex, ok_bind,
    asAuthenticatedBitmapTreeSize, dif_pos hsize, ok_bind, asBitmapRoot,
    dif_pos (isBitmapRoot_prefixed _), ok_bind]
  simp only [Num.ofNat_toNat]
  rfl

theorem normalizedExpected_prefixed (root : Bytes 32) :
    normalizedExpected (prefixed root) = js "0x" ++ text root :=
  if_pos rfl

/-- COMPLETENESS: the chunk of a bit with the trail of its leaf verifies and shows the bit. -/
theorem verifyBitmapMerkleProof_trail (bitmap : JsArray Bool) {i : ℕ} (hi : i < bitmap.toList.length) :
    verifyBitmapMerkleProof noble sha256 (text (bitmapLeafChunk bitmap.toList (i / 256)))
      ((trail (hashInternal sha256) (i / 256) (bitmapLeafHashes sha256 bitmap.toList)).map stepNode)
      (contextOf sha256 bitmap hi) = .ok ⟨true, bitmap.toList[i], i / 256, i % 256⟩ := by
  have hsafe := hi.le.trans bitmap.length_le_safe
  have hlen := bitmapLeafHashes_length sha256 bitmap.toList
  have hshape : isValidAuthenticatedTreeShape bitmap.toList.length i (i / 256)
      ((trail (hashInternal sha256) (i / 256) (bitmapLeafHashes sha256 bitmap.toList)).map stepNode) =
        true := by
    rw [isValidAuthenticatedTreeShape_iff bitmap.length_le_safe hi, ← hlen, ← trail_turns
      (hashInternal sha256), List.map_map, List.map_map]
    rfl
  have hbit :
      extractBitFromBitmapChunkHex noble (text (bitmapLeafChunk bitmap.toList (i / 256))) (i % 256) =
      .ok bitmap.toList[i] := by
    have hoffset : i % 256 < bitmapChunkBits := Nat.mod_lt i (by decide)
    have hplace : i / 256 * bitmapChunkBits + i % 256 = i := Nat.div_add_mod' i 256
    rw [extractBit_bitmapLeafChunk noble _ _ hoffset, hplace, List.getD_eq_getElem?_getD,
      List.getElem?_eq_getElem hi, Option.getD_some]
  have hhash : hashBitmapLeafChunkHex noble sha256 (text (bitmapLeafChunk bitmap.toList (i / 256))) =
      .ok (text (hashLeaf sha256 (bitmapLeafChunk bitmap.toList (i / 256)))) :=
    hashBitmapLeafChunkHex_eq_ok.mpr ⟨_, decodes_text noble _, rfl⟩
  have hleaf : (bitmapLeafHashes sha256 bitmap.toList)[i / 256]? =
      some (hashLeaf sha256 (bitmapLeafChunk bitmap.toList (i / 256))) := by
    have hcount : i / 256 < bitmapLeafCount bitmap.toList.length := leaf_lt_bitmapLeafCount hi
    rw [bitmapLeafHashes, bitmapLeafChunks, List.map_map, List.getElem?_map, List.getElem?_range hcount]
    rfl
  have halong : hashAlong noble sha256 (text (hashLeaf sha256 (bitmapLeafChunk bitmap.toList (i / 256))))
      ((trail (hashInternal sha256) (i / 256) (bitmapLeafHashes sha256 bitmap.toList)).map stepNode) =
        .ok (some (text (computeBitmapMerkleRoot sha256 bitmap.toList))) := by
    rw [hashAlong_trail, follow_trail (hashInternal sha256) (d := Bytes.fill 32 0)
      _ hleaf, ← computeMerkleRoot_eq]
    rfl
  have hpad := hasZeroUnusedPadding_own noble bitmap.toList i
  simp only [verifyBitmapMerkleProof, contextOf, calculateBrandedLeafIndex_eq hsafe,
    calculateBrandedBitOffset_eq hsafe, hshape, isBitmapChunkHex_text, hpad, hbit, hhash, halong,
    ok_bind, not_true, if_false, normalizedExpected_prefixed, decide_true]
  rfl

/-- What a valid answer rests on. -/
theorem verifyBitmapMerkleProof_valid {leafChunk : JsString} {auditPath : List PathNode}
    {context : AuthenticatedBitmapProofContext} {result : BitmapVerificationResult}
    (h : verifyBitmapMerkleProof noble sha256 leafChunk auditPath context = .ok result)
    (hvalid : result.valid = true) :
    isValidAuthenticatedTreeShape context.treeSize context.bitIndex (context.bitIndex / 256)
      auditPath = true ∧
      extractBitFromBitmapChunkHex noble leafChunk (context.bitIndex % 256) = .ok result.included ∧
      ∃ leafHash rootHash, hashBitmapLeafChunkHex noble sha256 leafChunk = .ok leafHash ∧
        hashAlong noble sha256 leafHash auditPath = .ok (some rootHash) ∧
        js "0x" ++ rootHash = normalizedExpected context.expectedRoot := by
  unfold verifyBitmapMerkleProof at h
  rw [calculateBrandedLeafIndex_eq context.bitIndex_le, ok_bind,
    calculateBrandedBitOffset_eq context.bitIndex_le, ok_bind] at h
  split at h
  · rw [← Except.ok.inj h] at hvalid
    cases hvalid
  rename_i hshape
  split at h
  · rw [← Except.ok.inj h] at hvalid
    cases hvalid
  obtain ⟨padded, -, h⟩ := bind_eq_ok.mp h
  split at h
  · rw [← Except.ok.inj h] at hvalid
    cases hvalid
  obtain ⟨included, hincluded, h⟩ := bind_eq_ok.mp h
  obtain ⟨leafHash, hleaf, h⟩ := bind_eq_ok.mp h
  obtain ⟨reached, hreached, h⟩ := bind_eq_ok.mp h
  cases reached with
  | none =>
    rw [← Except.ok.inj h] at hvalid
    cases hvalid
  | some rootHash =>
    rw [← Except.ok.inj h] at hvalid ⊢
    exact ⟨not_not.mp hshape, hincluded, leafHash, rootHash, hleaf, hreached, of_decide_eq_true hvalid⟩

/-- The messages hashed to verify a proof. -/
def proofMessages (leafChunk : JsString) (auditPath : List PathNode) : List (List UInt8) :=
  bitmapLeafMessage (decoded noble leafChunk) ::
    (followSteps (hashStep sha256) (sha256 (bitmapLeafMessage (decoded noble leafChunk)))
      (auditPath.map (decodedStep noble))).map fun e => stepMessage e.1.2 e.1.1 e.2

/-- A step and a joined pair with one message share the half that was not the sibling. -/
theorem stepMessage_half {turn : Bool} {sibling : List UInt8} {cur : Bytes 32} {p : Bytes 32 × Bytes 32}
    (h : stepMessage turn sibling cur = Function.uncurry internalMessage p) :
    cur = if turn then p.2 else p.1 := by
  obtain ⟨left, right⟩ := p
  cases turn with
  | true =>
    have hparts : sibling ++ cur.toList = left.toList ++ right.toList := List.cons_inj_right _ |>.mp h
    exact Bytes.ext (List.append_inj' hparts (by simp)).2
  | false =>
    have hparts : cur.toList ++ sibling = left.toList ++ right.toList := List.cons_inj_right _ |>.mp h
    exact Bytes.ext (List.append_inj hparts (by simp)).1

/-- SOUNDNESS: a valid answer shows the bit of the bitmap, where no two of the
    hashed messages collide. -/
theorem verifyBitmapMerkleProof_sound {noble : NobleUtils} {sha256 : List UInt8 → Bytes 32}
    {Q : Set (List UInt8)} (hQ : Set.InjOn sha256 Q) (bitmap : JsArray Bool) {i : ℕ}
    (hi : i < bitmap.toList.length) {leafChunk : JsString} {auditPath : List PathNode}
    {result : BitmapVerificationResult} (hbitmap : ∀ m ∈ bitmapMessages sha256 bitmap.toList, m ∈ Q)
    (hproof : ∀ m ∈ proofMessages noble sha256 leafChunk auditPath, m ∈ Q)
    (h : verifyBitmapMerkleProof noble sha256 leafChunk auditPath
      (contextOf sha256 bitmap hi) = .ok result)
    (hvalid : result.valid = true) : result.included = bitmap.toList[i] := by
  obtain ⟨hshape, hbit, leafHash, rootHash, hleafHash, halong, hroot⟩ :=
    verifyBitmapMerkleProof_valid noble sha256 h hvalid
  obtain ⟨chunk, hchunk, rfl⟩ := hashBitmapLeafChunkHex_eq_ok.mp hleafHash
  obtain ⟨chunk', hchunk', hbit⟩ := extractBitFromBitmapChunkHex_eq_ok.mp hbit
  obtain rfl := decodes_unique hchunk hchunk'
  have hlen := bitmapLeafHashes_length sha256 bitmap.toList
  have hturns : (auditPath.map (decodedStep noble)).map Prod.snd =
      turns (i / 256) (bitmapLeafHashes sha256 bitmap.toList).length := by
    have hsides := (isValidAuthenticatedTreeShape_iff bitmap.length_le_safe hi).mp hshape
    have hleft : ∀ turn, decide (sideText turn = js "left") = turn := by decide
    have hmap := congrArg (List.map fun side => decide (side = js "left")) hsides
    rw [List.map_map, List.map_map] at hmap
    rw [hlen, List.map_map]
    exact hmap.trans ((List.map_congr_left fun turn _ => hleft turn).trans (List.map_id _))
  rw [proofMessages, decoded_of_decodes hchunk] at hproof
  -- the walk ends in the root of the tree, so it started from the leaf of the tree
  have hreached :
      follow (hashStep sha256) (sha256 (bitmapLeafMessage chunk)) (auditPath.map (decodedStep noble)) =
      levelsRoot (hashInternal sha256) (Bytes.fill 32 0) (bitmapLeafHashes sha256 bitmap.toList) := by
    have htext := hashAlong_follow noble sha256 halong
    have hexpected :=
      hroot.trans (normalizedExpected_prefixed (computeBitmapMerkleRoot sha256 bitmap.toList))
    rw [← htext] at hexpected
    rw [text_injective (List.append_cancel_left hexpected), computeBitmapMerkleRoot,
      computeMerkleRoot_eq]
  have hjoin : ∀ {turn sibling cur p}, stepMessage turn sibling cur ∈ Q →
      p ∈ {p | Function.uncurry internalMessage p ∈ Q} →
      hashStep sha256 turn sibling cur = Function.uncurry (hashInternal sha256) p →
      cur = if turn then p.2 else p.1 :=
    fun hmet hp hjoin => stepMessage_half (hQ hmet hp hjoin)
  have hlt : i / 256 < (bitmapLeafHashes sha256 bitmap.toList).length := by
    rw [hlen]
    exact leaf_lt_bitmapLeafCount hi
  have hnode := follow_sound hjoin _ hlt hturns (mem_of_levelsPairs hbitmap)
    (fun e he => hproof _ (List.mem_cons_of_mem _ (List.mem_map.mpr ⟨e, he, rfl⟩))) hreached
  obtain ⟨leaf, hleaf, hown⟩ := bitmapLeafChunks_bit hi
  have hmem : leafMessage leaf ∈ Q :=
    hbitmap _ (List.mem_append_left _ (List.mem_map.mpr ⟨leaf, List.mem_of_getElem? hleaf, rfl⟩))
  have hsame : hashLeaf sha256 leaf = sha256 (bitmapLeafMessage chunk) := by
    have hhash : (bitmapLeafHashes sha256 bitmap.toList)[i / 256]? = some (hashLeaf sha256 leaf) := by
      rw [bitmapLeafHashes, List.getElem?_map]
      exact congrArg (Option.map (hashLeaf sha256)) hleaf
    exact Option.some.inj (hhash.symm.trans hnode)
  have hbytes : leaf.toList = chunk :=
    List.append_cancel_left (hQ hmem (hproof _ List.mem_cons_self) hsame)
  obtain ⟨-, -, hbit⟩ := extractBitFromBitmapChunkBytes_eq_ok.mp hbit
  have hplace : i % bitmapChunkBits % 8 = i % 8 := Nat.mod_mod_of_dvd i (by decide)
  rw [List.getElem?_eq_getElem hi, Option.some.injEq, hbytes, ← hplace] at hown
  exact hbit.symm.trans hown.symm

/-- BITMAP PROOFS: the proof generated for a bit verifies against the root of the bitmap and shows the
    bit; and any chunk with any path that verifies there shows the bit, or two
    hashed messages collide. -/
theorem bitmap_proofs_complete_and_sound (bitmap : JsArray Bool) (i : ℕ)
    (hi : i < bitmap.toList.length) :
    ∃ root context proof,
      computeIncludedBitmapRootHex noble sha256 bitmap.toList = .ok root ∧
      buildAuthenticatedBitmapProofContext (.ofNat i) (.ofNat bitmap.toList.length) root = .ok context ∧
      generateBitmapMerkleProof noble sha256 bitmap.toList i = .ok proof ∧
      (∃ leafIndex bitOffset, verifyBitmapMerkleProof noble sha256 proof.leafChunk
        proof.auditPath context = .ok ⟨true, bitmap.toList[i], leafIndex, bitOffset⟩) ∧
      ∀ leafChunk auditPath result, verifyBitmapMerkleProof noble sha256 leafChunk auditPath context =
        .ok result →
        result.valid = true → result.included = bitmap.toList[i] ∨ Exhibits sha256 (findCollision sha256
          (bitmapMessages sha256 bitmap.toList ++ proofMessages noble sha256 leafChunk auditPath)) := by
  refine ⟨_, _, _, computeIncludedBitmapRoot_eq noble sha256 bitmap.toList,
    buildAuthenticatedBitmapProofContext_eq sha256 bitmap hi,
    generateBitmapMerkleProof_trail noble sha256 hi,
    ⟨_, _, verifyBitmapMerkleProof_trail noble sha256 bitmap hi⟩,
    fun leafChunk auditPath result h hvalid => ?_⟩
  refine (injOn_or_collision sha256 _).imp_left fun hinj => ?_
  exact verifyBitmapMerkleProof_sound hinj bitmap hi (fun m hm => List.mem_append_left _ hm)
    (fun m hm => List.mem_append_right _ hm) h hvalid

def sampleBitmap : JsArray Bool := ⟨[true, false, true], by decide⟩

/-- The last of three bits. -/
theorem bitmap_proofs_on_sample : ∃ root context proof,
    buildAuthenticatedBitmapProofContext (.ofNat 2) (.ofNat 3) root = .ok context ∧
    generateBitmapMerkleProof NobleUtils.reference Sha256.digest [true, false, true] 2 = .ok proof ∧
    ∃ leafIndex bitOffset, verifyBitmapMerkleProof NobleUtils.reference Sha256.digest proof.leafChunk
      proof.auditPath context = .ok ⟨true, true, leafIndex, bitOffset⟩ := by
  obtain ⟨root, context, proof, -, hcontext, hproof, hverify, -⟩ :=
    bitmap_proofs_complete_and_sound NobleUtils.reference Sha256.digest sampleBitmap 2 (by decide)
  exact ⟨root, context, proof, hcontext, hproof, hverify⟩

/-! ### The two generators -/

def positionText : BitmapAuditPathPosition → JsString
  | .left => js "left"
  | .right => js "right"

/-- A proof of the host, as text. -/
def proofText (proof : ContractCore.BitmapMerkleProof) : BitmapMerkleProof where
  leafChunk := text proof.leafChunk
  auditPath := proof.auditPath.map fun node => ⟨text node.hash, positionText node.position⟩
  leafIndex := proof.leafIndex
  bitIndex := proof.bitIndex

/-- A trail has the same texts in both languages. -/
theorem trailNode_texts (steps : List (Bytes 32 × Bool)) :
    (steps.map trailNode).map (fun node => PathNode.mk (text node.hash) (positionText node.position)) =
      steps.map stepNode := by
  rw [List.map_map]
  refine List.map_congr_left fun step _ => ?_
  obtain ⟨hash, turn⟩ := step
  cases turn <;> rfl

/-- AGREEMENT: both languages compute one root and one proof for each bit, and the verifier accepts the
    host's proof. -/
theorem bitmap_trees_agree (bitmap : JsArray Bool) (i : ℕ) (hi : i < bitmap.toList.length) :
    computeIncludedBitmapRootHex noble sha256 bitmap.toList =
        .ok (prefixed (computeBitmapMerkleRoot sha256 bitmap.toList)) ∧
      ∃ context proof,
        buildAuthenticatedBitmapProofContext (.ofNat i) (.ofNat bitmap.toList.length)
          (prefixed (computeBitmapMerkleRoot sha256 bitmap.toList)) = .ok context ∧
        ContractCore.generateBitmapMerkleProof sha256 bitmap.toList i = some proof ∧
        generateBitmapMerkleProof noble sha256 bitmap.toList i = .ok (proofText proof) ∧
        (∃ leafIndex bitOffset, verifyBitmapMerkleProof noble sha256 (proofText proof).leafChunk
          (proofText proof).auditPath context = .ok ⟨true, bitmap.toList[i], leafIndex, bitOffset⟩) := by
  refine ⟨computeIncludedBitmapRoot_eq noble sha256 bitmap.toList, _, _,
    buildAuthenticatedBitmapProofContext_eq sha256 bitmap hi, generateBitmapMerkleProof_eq sha256 hi, ?_,
    i / 256, i % 256, ?_⟩
  · rw [generateBitmapMerkleProof_trail noble sha256 hi, proofText, trailNode_texts]
  · rw [proofText, trailNode_texts]
    exact verifyBitmapMerkleProof_trail noble sha256 bitmap hi

/-- The host's proof of the middle of three bits. -/
theorem bitmap_trees_on_sample : ∃ proof,
    ContractCore.generateBitmapMerkleProof Sha256.digest [true, false, true] 1 = some proof ∧
    generateBitmapMerkleProof NobleUtils.reference Sha256.digest [true, false, true] 1 =
      .ok (proofText proof) := by
  obtain ⟨-, -, proof, -, hhost, hbrowser, -⟩ :=
    bitmap_trees_agree NobleUtils.reference Sha256.digest sampleBitmap 1 (by decide)
  exact ⟨proof, hhost, hbrowser⟩

end StarkBallot.Verification
