import StarkBallot.Merkle.Inclusion

/-! The tree without its caches: what each method returns or throws, recomputed from the list of leaves
    alone. This is the behaviour the memoised methods are compared with. On leaves that spell 32-byte
    values it is the Merkle tree hash of `Schemes.Split`. -/

namespace StarkBallot.Merkle
open Schemes ContractCore CryptoPrimitives

variable (noble : NobleUtils) (sha256 : List UInt8 → Bytes 32)

/-- The hashed leaves of a range. -/
def hashedRange (leaves : List (Bytes 32)) (start size : ℕ) : List (Bytes 32) :=
  ((leaves.map (ContractCore.hashLeaf sha256)).drop start).take size

/-- Merkle tree hash of a range of leaves. -/
def subtree (leaves : List (Bytes 32)) (start size : ℕ) : Bytes 32 :=
  mth (hashInternal sha256) (Bytes.fill 32 0) (hashedRange sha256 leaves start size)

section Ranges

variable {leaves : List (Bytes 32)} {start size : ℕ}

theorem hashedRange_length (h : start + size ≤ leaves.length) :
    (hashedRange sha256 leaves start size).length = size := by
  simp only [hashedRange, List.length_take, List.length_drop, List.length_map]
  omega

theorem hashedRange_take {k : ℕ} (hk : k ≤ size) :
    (hashedRange sha256 leaves start size).take k = hashedRange sha256 leaves start k := by
  rw [hashedRange, List.take_take, Nat.min_eq_left hk, hashedRange]

theorem hashedRange_drop (k : ℕ) :
    (hashedRange sha256 leaves start size).drop k = hashedRange sha256 leaves (start + k)
    (size - k) := by
  rw [hashedRange, List.drop_take, List.drop_drop, hashedRange]

theorem hashedRange_all :
    hashedRange sha256 leaves 0 leaves.length = leaves.map (ContractCore.hashLeaf sha256) := by
  rw [hashedRange, List.drop_zero, List.take_of_length_le (by simp)]

theorem hashedRange_append (leaf : Bytes 32) (h : start + size ≤ leaves.length) :
    hashedRange sha256 (leaves ++ [leaf]) start size = hashedRange sha256 leaves start size := by
  rw [hashedRange, List.map_append, List.drop_append_of_le_length (by rw [List.length_map]; omega),
    List.take_append_of_le_length (by rw [List.length_drop, List.length_map]; omega), hashedRange]

theorem subtree_one {leaf : Bytes 32} (h : leaves[start]? = some leaf) :
    subtree sha256 leaves start 1 = ContractCore.hashLeaf sha256 leaf := by
  obtain ⟨hlt, rfl⟩ := List.getElem?_eq_some_iff.mp h
  have hrange : hashedRange sha256 leaves start 1 = [ContractCore.hashLeaf sha256 leaves[start]] := by
    rw [hashedRange, List.drop_eq_getElem_cons (by simpa using hlt)]
    simp
  rw [subtree, hrange, mth_of_le _ (by simp)]
  rfl

/-- The hash of a range joins the hashes of its two parts. -/
theorem subtree_split (hsize : 1 < size) (h : start + size ≤ leaves.length) :
    subtree sha256 leaves start size =
      hashInternal sha256 (subtree sha256 leaves start (splitPoint size))
      (subtree sha256 leaves (start + splitPoint size) (size - splitPoint size)) := by
  have hlen := hashedRange_length sha256 h
  rw [subtree, mth_of_lt _ (by omega), hlen, hashedRange_take _ (splitPoint_lt hsize).le,
    hashedRange_drop]
  rfl

/-- The whole range hashes to the root Rust computes. -/
theorem subtree_all (leaves : List (Bytes 32)) :
    subtree sha256 leaves 0 leaves.length = computeMerkleRoot sha256
      (leaves.map (ContractCore.hashLeaf sha256)) := by
  rw [subtree, hashedRange_all, computeMerkleRoot_eq, levelsRoot_eq_mth]

end Ranges

namespace Plain

variable (leaves : List JsString)

def mthRange (start size : ℕ) : JsM JsString := do
  if start + size > leaves.length then throw (.error "MTH range exceeds tree size")
  else if size = 0 then return sha256Hex noble sha256 []
  else if _hone : size = 1 then
    match leaves[start]? with
    | none | some [] => throw (.error s!"Missing leaf at index {start}")
    | some leaf => hashLeaf noble sha256 leaf
  else if largestPowerOfTwoLessThan size = 0 then throw (.error "Invalid MTH split encountered")
  else
    let leftHash ← mthRange start (largestPowerOfTwoLessThan size)
    let rightHash ← mthRange (start + largestPowerOfTwoLessThan size)
        (size - largestPowerOfTwoLessThan size)
    hashPair noble sha256 leftHash rightHash
termination_by size
decreasing_by
  · exact largestPowerOfTwoLessThan_lt (by omega)
  · omega

def append (leaf : JsString) : JsM (List JsString) :=
  if normalizeHexString leaf = [] then throw (.error "Leaf cannot be empty")
  else if ¬ isValidHexString (normalizeHexString leaf) (some 32) then throw (.error "Invalid hex string")
  else return leaves ++ [normalizeHexString leaf]

def getRootAtSize (size : ℤ) : JsM JsString :=
  if size < 0 then throw (.error "Size must be positive")
  else if size = 0 then throw (.error "Size must be positive")
  else if size > leaves.length then throw (.error s!"Size {size} exceeds tree size {leaves.length}")
  else mthRange noble sha256 leaves 0 size.toNat

def getRoot : JsM JsString :=
  if leaves.length = 0 then return sha256Hex noble sha256 []
    else getRootAtSize noble sha256 leaves leaves.length

def path (m start size : ℕ) : JsM (List JsString) := do
  if _hsize : size ≤ 1 then return []
  else if m < largestPowerOfTwoLessThan size then
    let leftPath ← path m start (largestPowerOfTwoLessThan size)
    let rightHash ← mthRange noble sha256 leaves (start + largestPowerOfTwoLessThan size)
      (size - largestPowerOfTwoLessThan size)
    return leftPath ++ [rightHash]
  else
    let rightPath ← path (m - largestPowerOfTwoLessThan size) (start + largestPowerOfTwoLessThan size)
      (size - largestPowerOfTwoLessThan size)
    let leftHash ← mthRange noble sha256 leaves start (largestPowerOfTwoLessThan size)
    return rightPath ++ [leftHash]
termination_by size
decreasing_by
  · exact largestPowerOfTwoLessThan_lt (by omega)
  · have := largestPowerOfTwoLessThan_pos (show 1 < size by omega)
    omega

def getInclusionProof (leafIndex : ℤ) (treeSize : Option ℤ) : JsM InclusionProof := do
  let size := treeSize.getD leaves.length
  if leafIndex < 0 then throw (.error "Leaf index must be non-negative")
  else if leafIndex ≥ size then
    throw (.error s!"Leaf index {leafIndex} is out of range for tree size {size}")
  else if size > leaves.length then
    throw (.error s!"Tree size {size} exceeds actual tree size {leaves.length}")
  else
    let proofNodes ← path noble sha256 leaves leafIndex.toNat 0 size.toNat
    return { leafIndex, proofNodes }

def subproof (m start size : ℕ) (b : Bool) : JsM (List JsString) := do
  if m = size then
    if b then return [] else return [← mthRange noble sha256 leaves start size]
  else if m = 1 ∧ size = 2 ∧ b then
    match leaves[start + 1]? with
    | none | some [] => throw (.error "Missing leaf for 1→2 consistency proof")
    | some leaf => return [leaf]
  else if _hsize : size ≤ 1 then throw (.rangeError "Maximum call stack size exceeded")
  else if m ≤ largestPowerOfTwoLessThan size then
    let leftProof ← subproof m start (largestPowerOfTwoLessThan size) b
    let rightHash ← mthRange noble sha256 leaves (start + largestPowerOfTwoLessThan size)
      (size - largestPowerOfTwoLessThan size)
    return leftProof ++ [rightHash]
  else
    let rightProof ← subproof (m - largestPowerOfTwoLessThan size)
        (start + largestPowerOfTwoLessThan size)
      (size - largestPowerOfTwoLessThan size) false
    let leftHash ← mthRange noble sha256 leaves start (largestPowerOfTwoLessThan size)
    return rightProof ++ [leftHash]
termination_by size
decreasing_by
  · exact largestPowerOfTwoLessThan_lt (by omega)
  · have := largestPowerOfTwoLessThan_pos (show 1 < size by omega)
    omega

def getConsistencyProof (oldSize newSize : ℤ) : JsM ConsistencyProof := do
  if oldSize ≤ 0 then throw (.error "oldSize must be positive")
  else if newSize ≤ 0 then throw (.error "newSize must be positive")
  else if oldSize > newSize then throw (.error "oldSize must be <= newSize")
  else if newSize > leaves.length then
    throw (.error s!"newSize {newSize} exceeds tree size {leaves.length}")
  else if oldSize = newSize then return { oldSize, newSize, proofNodes := [] }
  else
    let proofNodes ← subproof noble sha256 leaves oldSize.toNat 0 newSize.toNat true
    return { oldSize, newSize, proofNodes }

end Plain

/-! ### On spelled leaves -/

variable {noble sha256} {hexes : List JsString} {leaves : List (Bytes 32)}

theorem spelled_leaf (h : SpellEach hexes leaves) {i : ℕ} (hi : i < leaves.length) :
    ∃ hex leaf, hexes[i]? = some hex ∧ leaves[i]? = some leaf ∧ Spells hex leaf.toList := by
  have hi' : i < hexes.length := by rw [h.length_eq]; exact hi
  exact ⟨_, _, List.getElem?_eq_getElem hi', List.getElem?_eq_getElem hi, h.get hi' hi⟩

/-- The recomputed hash is the Merkle tree hash. -/
theorem plain_mthRange (h : SpellEach hexes leaves) (size : ℕ) : ∀ {start : ℕ}, 0 < size →
    start + size ≤ leaves.length →
      Plain.mthRange noble sha256 hexes start size = .ok (text (subtree sha256 leaves start size)) := by
  induction size using Nat.strong_induction_on with
  | _ size ih =>
    intro start hpos hr
    rw [Plain.mthRange, if_neg (by rw [h.length_eq]; omega), if_neg (by omega)]
    by_cases hone : size = 1
    · subst hone
      obtain ⟨hex, leaf, hhex, hleaf, hspells⟩ := spelled_leaf h (i := start) (by omega)
      obtain ⟨c, cs, rfl⟩ := List.exists_cons_of_ne_nil (spelling_ne_nil hspells)
      rw [dif_pos rfl, hhex]
      simp only [hashLeaf_spelling noble sha256 hspells, subtree_one sha256 hleaf]
    · have hsize : 1 < size := by omega
      have hk := splitPoint_pos size
      have hlt := splitPoint_lt hsize
      rw [dif_neg hone, largestPowerOfTwoLessThan_eq hsize, if_neg (by omega),
        ih _ hlt hk (by omega), ok_bind, ih _ (by omega) (by omega) (by omega), ok_bind,
        hashPair_text, ← subtree_split sha256 hsize hr]

/-- The recomputed path is the audit path. -/
theorem plain_path (h : SpellEach hexes leaves) (size : ℕ) :
    ∀ {m start : ℕ}, start + size ≤ leaves.length →
    Plain.path noble sha256 hexes m start size =
      .ok ((auditPath (hashInternal sha256) (Bytes.fill 32 0) m
        (hashedRange sha256 leaves start size)).map text) := by
  induction size using Nat.strong_induction_on with
  | _ size ih =>
    intro m start hr
    rw [Plain.path, auditPath, hashedRange_length sha256 hr]
    by_cases hsize : size ≤ 1
    · rw [dif_pos hsize, if_neg (by omega)]
      rfl
    · have hk := splitPoint_pos size
      have hlong : 1 < size := by omega
      have hlt := splitPoint_lt hlong
      rw [dif_neg hsize, if_pos hlong, largestPowerOfTwoLessThan_eq hlong,
        hashedRange_take sha256 hlt.le, hashedRange_drop]
      by_cases hleft : m < splitPoint size
      · rw [if_pos hleft, if_pos hleft, ih _ hlt (by omega), ok_bind,
          plain_mthRange h _ (by omega) (by omega), List.map_append]
        rfl
      · rw [if_neg hleft, if_neg hleft, ih _ (by omega) (by omega), ok_bind,
          plain_mthRange h _ hk (by omega), List.map_append]
        rfl

end StarkBallot.Merkle
