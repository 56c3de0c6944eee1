import StarkBallot.ContractCore.InclusionProof
import StarkBallot.CryptoPrimitives.Hex
import StarkBallot.Schemes.Split
import StarkBallot.Schemes.Stateful

/-! The TypeScript Merkle tree (`rfc6962-merkle-tree.ts`). Nodes are hexadecimal strings without prefix,
    in lower case; roots, paths and verification all split a tree at the largest power of two below its
    size. Roots are memoised twice: whole trees by size, and subtrees by their range of leaves.

    A method runs on the object's fields and may throw. Indices and sizes that come from a caller are
    integers; those the recursion makes are naturals. -/

namespace StarkBallot.Merkle
open Schemes ContractCore CryptoPrimitives

variable (noble : NobleUtils) (sha256 : List UInt8 → Bytes 32)

/-- The fields of the object. Subtrees are cached under the text `start:size`, which is the pair here. -/
structure Tree where
  leaves : List JsString
  rootCache : List (ℕ × JsString)
  mthCache : List ((ℕ × ℕ) × JsString)
  hits : ℕ
  misses : ℕ

/-- `new RFC6962MerkleTree()`. -/
def Tree.new : Tree := ⟨[], [], [], 0, 0⟩

abbrev TreeM := ExceptT JsError (StateM Tree)

/-- Doubling loop of `largestPowerOfTwoLessThan`. -/
def doubleWhile (n k : ℕ) : ℕ := if 0 < k ∧ k * 2 < n then doubleWhile n (k * 2) else k
termination_by n - k

def largestPowerOfTwoLessThan (n : ℕ) : ℕ := if n ≤ 1 then 0 else doubleWhile n 1

theorem doubleWhile_eq (n e : ℕ) (h : 2 ^ e < n) : doubleWhile n (2 ^ e) = splitPoint n := by
  induction hm : n - 2 ^ e using Nat.strong_induction_on generalizing e with
  | _ m ih =>
    have hpos := Nat.two_pow_pos e
    rw [doubleWhile]
    split
    · rename_i hloop
      rw [← Nat.pow_succ] at hloop ⊢
      have hsucc : 2 ^ (e + 1) = 2 ^ e * 2 := Nat.pow_succ ..
      exact ih _ (by omega) (e + 1) hloop.2 rfl
    · rename_i hstop
      refine (splitPoint_unique h ?_).symm
      rw [Nat.pow_succ]
      omega

theorem largestPowerOfTwoLessThan_eq {n : ℕ} (h : 1 < n) :
    largestPowerOfTwoLessThan n = splitPoint n := by
  rw [largestPowerOfTwoLessThan, if_neg (by omega)]
  exact doubleWhile_eq n 0 h

theorem largestPowerOfTwoLessThan_lt {n : ℕ} (h : 1 < n) : largestPowerOfTwoLessThan n < n := by
  rw [largestPowerOfTwoLessThan_eq h]
  exact splitPoint_lt h

theorem largestPowerOfTwoLessThan_pos {n : ℕ} (h : 1 < n) : 0 < largestPowerOfTwoLessThan n := by
  rw [largestPowerOfTwoLessThan_eq h]
  exact splitPoint_pos n

/-- Leaf hash with domain separator. -/
def hashLeaf (leafHex : JsString) : JsM JsString := do
  let leaf ← hexToBytesStrict noble leafHex
  return sha256Hex noble sha256 [[0x00], ascii "stark-ballot:leaf|v1", leaf]

/-- Internal node hash with domain separator. -/
def hashPair (left right : JsString) : JsM JsString := do
  let left ← hexToBytesStrict noble left
  let right ← hexToBytesStrict noble right
  return sha256Hex noble sha256 [[0x01], left, right]

/-! ### Roots -/

def append (leaf : JsString) : TreeM Unit := do
  let normalized := normalizeHexString leaf
  if normalized = [] then throw (.error "Leaf cannot be empty")
  else if ¬ isValidHexString normalized (some 32) then throw (.error "Invalid hex string")
  else
    modify fun t => { t with leaves := t.leaves ++ [normalized] }
    -- roots of sizes above the old size are stale
    modify fun t => { t with rootCache := t.rootCache.filter fun entry => entry.1 ≤ t.leaves.length - 1 }

def validateMthRange (start size : ℕ) : TreeM Unit := do
  if start + size > (← get).leaves.length then throw (.error "MTH range exceeds tree size")

/-- Merkle tree hash of a range of leaves, memoised. -/
def mthRange (start size : ℕ) : TreeM JsString := do
  validateMthRange start size
  if size = 0 then return sha256Hex noble sha256 []
  else if _hone : size = 1 then
    match (← get).leaves[start]? with
    | none | some [] => throw (.error s!"Missing leaf at index {start}")
    | some leaf => lifted (hashLeaf noble sha256 leaf)
  else
    match (← get).mthCache.lookup (start, size) with
    | some [] => throw (.error s!"Missing cached MTH for key {start}:{size}")
    | some cached => return cached
    | none =>
      if largestPowerOfTwoLessThan size = 0 then throw (.error "Invalid MTH split encountered")
      else
        let leftHash ← mthRange start (largestPowerOfTwoLessThan size)
        let rightHash ← mthRange (start + largestPowerOfTwoLessThan size)
            (size - largestPowerOfTwoLessThan size)
        let result ← lifted (hashPair noble sha256 leftHash rightHash)
        modify fun t => { t with mthCache := ((start, size), result) :: t.mthCache }
        return result
termination_by size
decreasing_by
  · exact largestPowerOfTwoLessThan_lt (by omega)
  · omega

def getRootAtSize (size : ℤ) : TreeM JsString := do
  if size < 0 then throw (.error "Size must be positive")
  else if size = 0 then throw (.error "Size must be positive")
  else if size > (← get).leaves.length then
    throw (.error s!"Size {size} exceeds tree size {(← get).leaves.length}")
  else
    match (← get).rootCache.lookup size.toNat with
    | some cached =>
      modify fun t => { t with hits := t.hits + 1 }
      if cached = [] then throw (.error s!"Missing cached root for size {size}") else return cached
    | none =>
      modify fun t => { t with misses := t.misses + 1 }
      let root ← mthRange noble sha256 0 size.toNat
      modify fun t => { t with rootCache := (size.toNat, root) :: t.rootCache }
      return root

def getRoot : TreeM JsString := do
  if (← get).leaves.length = 0 then return sha256Hex noble sha256 []
  else getRootAtSize noble sha256 (← get).leaves.length

def clearCache : TreeM Unit :=
  modify fun t => { t with rootCache := [], mthCache := [], hits := 0, misses := 0 }

/-! ### Inclusion proofs -/

/-- Audit path of leaf `m` of a range. -/
def path (m start size : ℕ) : TreeM (List JsString) := do
  if _hsize : size ≤ 1 then return []
  else if m < largestPowerOfTwoLessThan size then
    let leftPath ← path m start (largestPowerOfTwoLessThan size)
    let rightHash ← mthRange noble sha256 (start + largestPowerOfTwoLessThan size)
      (size - largestPowerOfTwoLessThan size)
    return leftPath ++ [rightHash]
  else
    let rightPath ← path (m - largestPowerOfTwoLessThan size) (start + largestPowerOfTwoLessThan size)
      (size - largestPowerOfTwoLessThan size)
    let leftHash ← mthRange noble sha256 start (largestPowerOfTwoLessThan size)
    return rightPath ++ [leftHash]
termination_by size
decreasing_by
  · exact largestPowerOfTwoLessThan_lt (by omega)
  · have := largestPowerOfTwoLessThan_pos (show 1 < size by omega)
    omega

structure InclusionProof where
  leafIndex : ℤ
  proofNodes : List JsString

def getInclusionProof (leafIndex : ℤ) (treeSize : Option ℤ) : TreeM InclusionProof := do
  let size := treeSize.getD (← get).leaves.length
  if leafIndex < 0 then throw (.error "Leaf index must be non-negative")
  else if leafIndex ≥ size then
    throw (.error s!"Leaf index {leafIndex} is out of range for tree size {size}")
  else if size > (← get).leaves.length then
    throw (.error s!"Tree size {size} exceeds actual tree size {(← get).leaves.length}")
  else
    let proofNodes ← path noble sha256 leafIndex.toNat 0 size.toNat
    return { leafIndex, proofNodes }

/-- Root of a subtree from one of its nodes, and the number of proof nodes used. -/
def verifyPathRecursive (index size : ℕ) (nodeHash : JsString) (proofNodes : List JsString)
    (proofPos : ℕ) :
    JsM (JsString × ℕ) := do
  if _hsize : size ≤ 1 then return (nodeHash, 0)
  else if index < largestPowerOfTwoLessThan size then
    let (computedRoot, nodesConsumed) ←
      verifyPathRecursive index (largestPowerOfTwoLessThan size) nodeHash proofNodes proofPos
    match proofNodes[proofPos + nodesConsumed]? with
    | none | some [] => throw (.error "Insufficient proof nodes")
    | some rightSiblingHash =>
        return (← hashPair noble sha256 computedRoot rightSiblingHash, nodesConsumed + 1)
  else
    let (computedRoot, nodesConsumed) ← verifyPathRecursive (index - largestPowerOfTwoLessThan size)
      (size - largestPowerOfTwoLessThan size) nodeHash proofNodes proofPos
    match proofNodes[proofPos + nodesConsumed]? with
    | none | some [] => throw (.error "Insufficient proof nodes")
    | some leftSiblingHash =>
        return (← hashPair noble sha256 leftSiblingHash computedRoot, nodesConsumed + 1)
termination_by size
decreasing_by
  · exact largestPowerOfTwoLessThan_lt (by omega)
  · have := largestPowerOfTwoLessThan_pos (show 1 < size by omega)
    omega

/-- Whatever the recursion throws is a proof that does not verify. -/
def verifyInclusionProof (leafHash : JsString) (leafIndex : ℤ) (proofNodes : List JsString)
    (rootHash : JsString) (treeSize : ℤ) : JsM Bool := do
  if leafIndex < 0 ∨ leafIndex ≥ treeSize then return false
  else
    let hashedLeaf ← hashLeaf noble sha256 leafHash
    if treeSize = 1 ∧ proofNodes.length = 0 then return hashedLeaf = rootHash
    else
      match verifyPathRecursive noble sha256 leafIndex.toNat treeSize.toNat hashedLeaf proofNodes 0 with
      | .ok (computedRoot, nodesConsumed) =>
        return computedRoot = rootHash ∧ nodesConsumed = proofNodes.length
      | .error _ => return false

/-! ### Consistency proofs -/

structure ConsistencyProof where
  oldSize : ℤ
  newSize : ℤ
  proofNodes : List JsString

/-- Minimal consistency proof of a range with its first `m` leaves, `1 ≤ m ≤ size`; `b` says that the old
    tree is a subtree of its own. -/
def subproof (m start size : ℕ) (b : Bool) : TreeM (List JsString) := do
  if m = size then
    if b then return [] else return [← mthRange noble sha256 start size]
  else if m = 1 ∧ size = 2 ∧ b then
    -- the raw leaf, not its hash
    match (← get).leaves[start + 1]? with
    | none | some [] => throw (.error "Missing leaf for 1→2 consistency proof")
    | some leaf => return [leaf]
  else if _hsize : size ≤ 1 then throw (.rangeError "Maximum call stack size exceeded")
  else if m ≤ largestPowerOfTwoLessThan size then
    let leftProof ← subproof m start (largestPowerOfTwoLessThan size) b
    let rightHash ← mthRange noble sha256 (start + largestPowerOfTwoLessThan size)
      (size - largestPowerOfTwoLessThan size)
    return leftProof ++ [rightHash]
  else
    let rightProof ← subproof (m - largestPowerOfTwoLessThan size)
        (start + largestPowerOfTwoLessThan size)
      (size - largestPowerOfTwoLessThan size) false
    let leftHash ← mthRange noble sha256 start (largestPowerOfTwoLessThan size)
    return rightProof ++ [leftHash]
termination_by size
decreasing_by
  · exact largestPowerOfTwoLessThan_lt (by omega)
  · have := largestPowerOfTwoLessThan_pos (show 1 < size by omega)
    omega

def getConsistencyProof (oldSize newSize : ℤ) : TreeM ConsistencyProof := do
  if oldSize ≤ 0 then throw (.error "oldSize must be positive")
  else if newSize ≤ 0 then throw (.error "newSize must be positive")
  else if oldSize > newSize then throw (.error "oldSize must be <= newSize")
  else if newSize > (← get).leaves.length then
    throw (.error s!"newSize {newSize} exceeds tree size {(← get).leaves.length}")
  else if oldSize = newSize then return { oldSize, newSize, proofNodes := [] }
  else
    let proofNodes ← subproof noble sha256 oldSize.toNat 0 newSize.toNat true
    return { oldSize, newSize, proofNodes }

/-! ### Runs -/

/-- A call of a method that may change the object. -/
inductive Call where
  | append (leaf : JsString)
  | getRoot
  | getRootAtSize (size : ℤ)
  | getInclusionProof (leafIndex : ℤ) (treeSize : Option ℤ)
  | getConsistencyProof (oldSize newSize : ℤ)
  | clearCache

/-- The object after a call, whether it returned or threw. -/
def Call.after : Call → Tree → Tree
  | .append leaf, t => (exec (Merkle.append leaf) t).2
  | .getRoot, t => (exec (Merkle.getRoot noble sha256) t).2
  | .getRootAtSize size, t => (exec (Merkle.getRootAtSize noble sha256 size) t).2
  | .getInclusionProof leafIndex treeSize,
      t => (exec (Merkle.getInclusionProof noble sha256 leafIndex treeSize) t).2
  | .getConsistencyProof oldSize newSize, t =>
    (exec (Merkle.getConsistencyProof noble sha256 oldSize newSize) t).2
  | .clearCache, t => (exec Merkle.clearCache t).2

/-- The object after a sequence of calls on a new tree. -/
def reached (calls : List Call) : Tree := calls.foldl (fun t call => call.after noble sha256 t) Tree.new

end StarkBallot.Merkle
