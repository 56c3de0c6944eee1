import StarkBallot.Merkle.Transparency

/-! Consistency proofs (`verifyConsistencyProof` of `rfc6962-merkle-tree.ts`). The verifier rebuilds the
    old and the new root from the proof by the recursion that generated it. Two cases are decided by one
    hash instead: a tree of one leaf that gains a second, whose proof is the raw leaf, and a perfect
    tree that doubles.

        oldSize = newSize          roots equal, no nodes
        1 → 2                      hashPair(oldRoot, hashLeaf(node)) = newRoot
        perfect doubling           hashPair(oldRoot, node) = newRoot
        otherwise                  reconstruct both roots

    The proof a tree hands out verifies, with one exception: the raw leaf is handed out as it is stored,
    and a leaf that was appended with two prefixes is stored with one, which the
    check of the nodes refuses. -/

namespace StarkBallot.Merkle
open Schemes ContractCore CryptoPrimitives

variable (noble : NobleUtils) (sha256 : List UInt8 → Bytes 32)

def isPowerOfTwo (n : ℤ) : Bool := n > 0 ∧ bitAnd n (n - 1) = 0

def isPerfectTreeDoubling (oldSize newSize : ℤ) : Bool :=
  isPowerOfTwo oldSize && isPowerOfTwo newSize && newSize = oldSize * 2

/-- Sixty-four digits in either case, no prefix. -/
def hasValidConsistencyProofNodes (nodes : List JsString) : Bool :=
  nodes.all fun node => node ≠ [] ∧ node.length = 64 ∧ node.all fun c => isHexDigit c.toLower

structure ReconstructedConsistencyHashes where
  oldHash : JsString
  newHash : JsString
  nextIndex : ℕ

def readConsistencyProofNode (nodes : List JsString) (index : ℕ) (label : String) : JsM JsString :=
  match nodes[index]? with
  | none | some [] => throw (.error s!"Proof exhausted while reading {label}")
  | some node => return node

def resolveEqualConsistencySubtree (proofNodes : List JsString) (index : ℕ) (includeOldRoot : Bool)
    (knownOldRoot : Option JsString) : JsM ReconstructedConsistencyHashes := do
  if includeOldRoot then
    match knownOldRoot with
    | none | some [] => throw (.error "Known old root required for prefix subtree")
    | some knownOldRoot => return ⟨knownOldRoot, knownOldRoot, index⟩
  else
    let subtreeHash ← readConsistencyProofNode proofNodes index "subtree hash"
    return ⟨subtreeHash, subtreeHash, index + 1⟩

def reconstructRawLeafExtension (proofNodes : List JsString) (index : ℕ)
    (knownOldRoot : Option JsString) :
    JsM ReconstructedConsistencyHashes := do
  match knownOldRoot with
  | none | some [] => throw (.error "Known old root required for 1→2 verification")
  | some knownOldRoot =>
    let rawLeaf ← readConsistencyProofNode proofNodes index "raw leaf"
    let hashedLeaf ← hashLeaf noble sha256 rawLeaf
    return ⟨knownOldRoot, ← hashPair noble sha256 knownOldRoot hashedLeaf, index + 1⟩

def assertKnownOldRootMatch (combinedOldHash : JsString) (includeOldRoot : Bool)
    (knownOldRoot : Option JsString) :
    JsM Unit :=
  match knownOldRoot with
  | none | some [] => return
  | some knownOldRoot =>
    if includeOldRoot ∧ combinedOldHash ≠ knownOldRoot then
      throw (.error "Old root mismatch detected") else return

/-- Old and new root of a range from the proof nodes, from `index` on. -/
def reconstructConsistencyHashes (oldSize newSize : ℤ) (proofNodes : List JsString) (index : ℕ)
    (includeOldRoot : Bool) (knownOldRoot : Option JsString) : JsM ReconstructedConsistencyHashes := do
  if oldSize = newSize then resolveEqualConsistencySubtree proofNodes index includeOldRoot knownOldRoot
  else if oldSize = 1 ∧ newSize = 2 ∧ includeOldRoot then
    reconstructRawLeafExtension noble sha256 proofNodes index knownOldRoot
  else if _hsplit : largestPowerOfTwoLessThan newSize.toNat = 0 then
    throw (.error "Invalid tree split encountered")
  else if oldSize ≤ largestPowerOfTwoLessThan newSize.toNat then
    -- the old leaves lie in the left part
    let left ← reconstructConsistencyHashes oldSize (largestPowerOfTwoLessThan newSize.toNat)
        proofNodes index includeOldRoot knownOldRoot
    let rightHash ← readConsistencyProofNode proofNodes left.nextIndex "right subtree hash"
    let combinedNewHash ← hashPair noble sha256 left.newHash rightHash
    return ⟨left.oldHash, combinedNewHash, left.nextIndex + 1⟩
  else
    let right ← reconstructConsistencyHashes (oldSize - largestPowerOfTwoLessThan newSize.toNat)
      (newSize - largestPowerOfTwoLessThan newSize.toNat) proofNodes index false none
    let leftHash ← readConsistencyProofNode proofNodes right.nextIndex "left subtree hash"
    let combinedOldHash ← hashPair noble sha256 leftHash right.oldHash
    let combinedNewHash ← hashPair noble sha256 leftHash right.newHash
    assertKnownOldRootMatch combinedOldHash includeOldRoot knownOldRoot
    return ⟨combinedOldHash, combinedNewHash, right.nextIndex + 1⟩
termination_by newSize.toNat
decreasing_by
  all_goals
    have hlong : 1 < newSize.toNat := by
      by_contra hshort
      exact _hsplit (if_pos (by omega))
    have := largestPowerOfTwoLessThan_lt hlong
    omega

def verifySingleNodeExtension (oldRoot newRoot : JsString) (proofNodes : List JsString)
    (rawLeaf : Bool) :
    JsM Bool := do
  if proofNodes.length ≠ 1 then return false
  else
    match proofNodes[0]? with
    | none | some [] => return false
    | some node =>
      let rightHash ← if rawLeaf then hashLeaf noble sha256 node else pure node
      return (← hashPair noble sha256 oldRoot rightHash) = newRoot

/-- Whatever the reconstruction throws is a proof that does not verify. -/
def verifyReconstructedConsistencyProof (oldRoot newRoot : JsString) (proof : ConsistencyProof) : Bool :=
  match reconstructConsistencyHashes noble sha256 proof.oldSize proof.newSize proof.proofNodes 0 true
    (some oldRoot) with
  | .ok hashes =>
    hashes.nextIndex = proof.proofNodes.length ∧ hashes.oldHash = oldRoot ∧ hashes.newHash = newRoot
  | .error _ => false

def verifyConsistencyProof (oldRoot newRoot : JsString) (proof : ConsistencyProof) : JsM Bool :=
  if proof.oldSize = proof.newSize then return oldRoot = newRoot ∧ proof.proofNodes.length = 0
  else if proof.proofNodes.length = 0 then return false
  else if ¬ hasValidConsistencyProofNodes proof.proofNodes then return false
  else if proof.oldSize = 1 ∧ proof.newSize = 2 then
    verifySingleNodeExtension noble sha256 oldRoot newRoot proof.proofNodes true
  else if isPerfectTreeDoubling proof.oldSize proof.newSize then
    verifySingleNodeExtension noble sha256 oldRoot newRoot proof.proofNodes false
  else return verifyReconstructedConsistencyProof noble sha256 oldRoot newRoot proof

/-! ### One split of the reconstruction -/

section unfolding

variable {m n index : ℕ} {nodes : List JsString} {b : Bool} {known : Option JsString}

theorem reconstruct_equal : reconstructConsistencyHashes noble sha256 m m nodes index b known =
    resolveEqualConsistencySubtree nodes index b known := by
  rw [reconstructConsistencyHashes, if_pos rfl]

theorem reconstruct_raw : reconstructConsistencyHashes noble sha256 1 2 nodes index true known =
    reconstructRawLeafExtension noble sha256 nodes index known := by
  rw [reconstructConsistencyHashes, if_neg (by decide), if_pos (by simp)]

theorem reconstruct_left (hlt : m < n) (hraw : ¬ (m = 1 ∧ n = 2 ∧ b = true)) (hpos : 0 < m)
    (hle : m ≤ splitPoint n) :
    reconstructConsistencyHashes noble sha256 m n nodes index b known = do
      let left ← reconstructConsistencyHashes noble sha256 m (splitPoint n) nodes index b known
      let rightHash ← readConsistencyProofNode nodes left.nextIndex "right subtree hash"
      let combinedNewHash ← hashPair noble sha256 left.newHash rightHash
      return ⟨left.oldHash, combinedNewHash, left.nextIndex + 1⟩ := by
  have hk := splitPoint_pos n
  rw [reconstructConsistencyHashes, if_neg (by omega),
    if_neg (fun h => hraw ⟨by omega, by omega, h.2.2⟩), Int.toNat_natCast,
    largestPowerOfTwoLessThan_eq (by omega), dif_neg (by omega), if_pos (by omega)]

theorem reconstruct_right (hlt : m < n) (hgt : splitPoint n < m) :
    reconstructConsistencyHashes noble sha256 m n nodes index b known = do
      let right ← reconstructConsistencyHashes noble sha256 (m - splitPoint n : ℕ)
          (n - splitPoint n : ℕ) nodes index false none
      let leftHash ← readConsistencyProofNode nodes right.nextIndex "left subtree hash"
      let combinedOldHash ← hashPair noble sha256 leftHash right.oldHash
      let combinedNewHash ← hashPair noble sha256 leftHash right.newHash
      assertKnownOldRootMatch combinedOldHash b known
      return ⟨combinedOldHash, combinedNewHash, right.nextIndex + 1⟩ := by
  have hk := splitPoint_pos n
  rw [reconstructConsistencyHashes, if_neg (by omega), if_neg (by omega), Int.toNat_natCast,
    largestPowerOfTwoLessThan_eq (by omega), dif_neg (by omega), if_neg (by omega), Nat.cast_sub hgt.le,
    Nat.cast_sub (by omega)]

end unfolding

theorem readConsistencyProofNode_eq_ok {nodes : List JsString} {index : ℕ} {label : String}
    {node : JsString} :
    readConsistencyProofNode nodes index label = .ok node ↔ nodes[index]? = some node ∧ node ≠ [] := by
  unfold readConsistencyProofNode
  split
  · rename_i hnone
    simp [hnone, throw, throwThe, MonadExceptOf.throw]
  · rename_i hnil
    simp [hnil, throw, throwThe, MonadExceptOf.throw]
  · rename_i found hne hfound
    rw [hfound]
    simp only [pure, Except.pure, Except.ok.injEq, Option.some.injEq]
    exact ⟨fun h => ⟨h, h ▸ hne⟩, And.left⟩

/-- INVERSION: what a reconstruction that returned has read and hashed. -/
theorem reconstruct_cases {m n index : ℕ} {nodes : List JsString} {b : Bool} {known : Option JsString}
    {hashes : ReconstructedConsistencyHashes} (hpos : 0 < m) (hle : m ≤ n)
    (h : reconstructConsistencyHashes noble sha256 m n nodes index b known = .ok hashes) :
    (m = n ∧ hashes.oldHash = hashes.newHash ∧
      (b = true → known = some hashes.oldHash ∧ hashes.nextIndex = index)) ∨
    (m = 1 ∧ n = 2 ∧ b = true ∧ known = some hashes.oldHash ∧ hashes.nextIndex = index + 1 ∧
      ∃ leaf hashed, nodes[index]? = some leaf ∧ leaf ≠ [] ∧ hashLeaf noble sha256 leaf = .ok hashed ∧
        hashPair noble sha256 hashes.oldHash hashed = .ok hashes.newHash) ∨
    (m < n ∧ m ≤ splitPoint n ∧ ¬ (m = 1 ∧ n = 2 ∧ b = true) ∧
      ∃ left right, reconstructConsistencyHashes noble sha256 m (splitPoint n) nodes index b
        known = .ok left ∧
        nodes[left.nextIndex]? = some right ∧ right ≠ [] ∧
        hashPair noble sha256 left.newHash right = .ok hashes.newHash ∧ hashes.oldHash = left.oldHash ∧
        hashes.nextIndex = left.nextIndex + 1) ∨
    (m < n ∧ splitPoint n < m ∧
      ∃ right left, reconstructConsistencyHashes noble sha256 (m - splitPoint n : ℕ)
          (n - splitPoint n : ℕ) nodes index false none = .ok right ∧
        nodes[right.nextIndex]? = some left ∧
          hashPair noble sha256 left right.oldHash = .ok hashes.oldHash ∧
        hashPair noble sha256 left right.newHash = .ok hashes.newHash ∧
          hashes.nextIndex = right.nextIndex + 1) := by
  rcases hle.eq_or_lt with rfl | hlt
  · left
    rw [reconstruct_equal] at h
    unfold resolveEqualConsistencySubtree at h
    cases b with
    | true =>
      rcases known with _ | _ | ⟨c, cs⟩
      · cases h
      · cases h
      · cases h
        exact ⟨rfl, rfl, fun _ => ⟨rfl, rfl⟩⟩
    | false =>
      simp only [Bool.false_eq_true, if_false, bind_eq_ok] at h
      obtain ⟨node, -, hnode⟩ := h
      cases hnode
      exact ⟨rfl, rfl, by simp⟩
  by_cases hraw : m = 1 ∧ n = 2 ∧ b = true
  · right; left
    obtain ⟨rfl, rfl, rfl⟩ := hraw
    rw [Nat.cast_one, Nat.cast_ofNat, reconstruct_raw] at h
    rcases known with _ | _ | ⟨c, cs⟩
    · cases h
    · cases h
    · simp only [reconstructRawLeafExtension, bind_eq_ok, readConsistencyProofNode_eq_ok] at h
      obtain ⟨leaf, ⟨hleaf, hne⟩, hashed, hhashed, newHash, hnew, hret⟩ := h
      cases hret
      exact ⟨rfl, rfl, rfl, rfl, rfl, leaf, hashed, hleaf, hne, hhashed, hnew⟩
  right; right
  rcases Nat.lt_or_ge (splitPoint n) m with hgt | hleft
  · right
    rw [reconstruct_right noble sha256 hlt hgt] at h
    simp only [bind_eq_ok, readConsistencyProofNode_eq_ok] at h
    obtain ⟨right, hright, left, ⟨hnode, -⟩, oldHash, hold, newHash, hnew, -, -, hret⟩ := h
    cases hret
    exact ⟨hlt, hgt, right, left, hright, hnode, hold, hnew, rfl⟩
  · left
    rw [reconstruct_left noble sha256 hlt hraw hpos hleft] at h
    simp only [bind_eq_ok, readConsistencyProofNode_eq_ok] at h
    obtain ⟨left, hleft', right, ⟨hnode, hne⟩, newHash, hnew, hret⟩ := h
    cases hret
    exact ⟨hlt, hleft, hraw, left, right, hleft', hnode, hne, hnew, rfl, rfl⟩

/-- A proper prefix takes at least one node. -/
theorem reconstruct_nextIndex_pos {m n index : ℕ} {nodes : List JsString} {b : Bool}
    {known : Option JsString} {hashes : ReconstructedConsistencyHashes} (hpos : 0 < m) (hlt : m < n)
    (h : reconstructConsistencyHashes noble sha256 m n nodes index b known = .ok hashes) :
    0 < hashes.nextIndex := by
  rcases reconstruct_cases noble sha256 hpos hlt.le h with ⟨rfl, -⟩ | ⟨-, -, -, -, hnext, -⟩ |
    ⟨-, -, -, left, right, -, -, -, -, -, hnext⟩ | ⟨-, -, right, left, -, -, -, -, hnext⟩
  all_goals omega

/-! ### The nodes of a generated proof -/

theorem read_node (pre post : List JsString) {node : JsString} (hne : node ≠ []) (label : String) :
    readConsistencyProofNode (pre ++ node :: post) pre.length label = .ok node := by
  obtain ⟨c, cs, rfl⟩ := List.exists_cons_of_ne_nil hne
  rw [readConsistencyProofNode, List.getElem?_append_right le_rfl, Nat.sub_self]
  rfl

theorem hasValidConsistencyProofNodes_append (nodes nodes' : List JsString) :
    hasValidConsistencyProofNodes (nodes ++ nodes') =
      (hasValidConsistencyProofNodes nodes && hasValidConsistencyProofNodes nodes') := List.all_append

/-- A spelled node passes the check when it has no prefix. -/
theorem hasValid_spelling {hex : JsString} {b : Bytes 32} (h : Spells hex b.toList) :
    hasValidConsistencyProofNodes [hex] = true ↔ hex.length = 64 := by
  have hne := spelling_ne_nil h
  simp only [hasValidConsistencyProofNodes, List.all_cons, List.all_nil, Bool.and_true,
    decide_eq_true_eq, List.all_eq_true]
  refine ⟨fun hvalid => hvalid.2.1, fun hlen => ⟨hne, hlen, ?_⟩⟩
  obtain ⟨lead, hlead, digits, rfl, hdigits⟩ := h
  have hcount : digits.length = 64 := by
    have := congrArg List.length hdigits
    simpa [toLowerCase] using this
  have hbare : lead = [] := by
    rw [List.length_append] at hlen
    exact List.length_eq_zero_iff.mp (by omega)
  intro c hc
  rw [hbare, List.nil_append] at hc
  exact hexText_isHexDigit b.toList _ (hdigits ▸ List.mem_map_of_mem hc)

theorem hasValid_text (b : Bytes 32) : hasValidConsistencyProofNodes [text b] = true :=
  (hasValid_spelling (text_spells b)).mpr (by rw [text, hexText_length, b.length_eq])

/-- Proof nodes that carry the first `m` leaves of a range to the whole range. -/
structure Carries (hexes : List JsString) (leaves : List (Bytes 32)) (m start size : ℕ) (b : Bool)
    (nodes : List JsString) : Prop where
  rebuilds : ∀ (known : Option JsString) (pre post : List JsString),
    (b = true → known = some (text (subtree sha256 leaves start m))) →
    reconstructConsistencyHashes noble sha256 m size (pre ++ nodes ++ post) pre.length b known =
      .ok ⟨text (subtree sha256 leaves start m), text (subtree sha256 leaves start size), pre.length +
        nodes.length⟩
  valid_iff : hasValidConsistencyProofNodes nodes = true ↔
    (b = true → m = 1 → m < size → ∀ hex, hexes[start + 1]? = some hex → hex.length = 64)
  nonempty : m < size → nodes ≠ []

variable {noble sha256} {hexes : List JsString} {leaves : List (Bytes 32)}

/-- A proof that stays left: the nodes of the left part, then the right part's hash. -/
theorem Carries.left {m start size : ℕ} {b : Bool} {nodes : List JsString}
    (hsize : start + size ≤ leaves.length) (hpos : 0 < m) (hlt : m < size)
    (hraw : ¬ (m = 1 ∧ size = 2 ∧ b = true)) (hle : m ≤ splitPoint size)
    (h : Carries noble sha256 hexes leaves m start (splitPoint size) b nodes) :
    Carries noble sha256 hexes leaves m start size b
      (nodes ++ [text (subtree sha256 leaves (start + splitPoint size) (size - splitPoint size))]) := by
  refine ⟨fun known pre post hknown => ?_, ?_, fun _ => by simp⟩
  · have hrest := h.rebuilds known pre
      (text (subtree sha256 leaves (start + splitPoint size) (size - splitPoint size)) :: post) hknown
    have hread := read_node (pre ++ nodes) post
      (text_ne_nil (subtree sha256 leaves (start + splitPoint size) (size - splitPoint size)))
      "right subtree hash"
    rw [List.length_append] at hread
    rw [reconstruct_left noble sha256 hlt hraw hpos hle]
    simp only [List.append_assoc, List.singleton_append] at hrest hread ⊢
    rw [hrest, ok_bind, hread, ok_bind, hashPair_text, ← subtree_split sha256 (by omega) hsize, ok_bind,
      List.length_append, List.length_singleton, Nat.add_assoc]
    rfl
  · rw [hasValidConsistencyProofNodes_append, hasValid_text, Bool.and_true, h.valid_iff]
    have hlong : b = true → m = 1 → (m < splitPoint size ↔ m < size) := by
      intro hb hm
      have hhalf := le_two_mul_splitPoint (n := size) (by omega)
      have hne : size ≠ 2 := fun htwo => hraw ⟨hm, htwo, hb⟩
      omega
    exact forall_congr' fun hb => forall_congr' fun hm => imp_congr (hlong hb hm) Iff.rfl

/-- A proof that turns right: the nodes of the right part, then the left part's hash. -/
theorem Carries.right {m start size : ℕ} {b : Bool} {nodes : List JsString}
    (hsize : start + size ≤ leaves.length) (hlt : m < size) (hgt : splitPoint size < m)
    (h : Carries noble sha256 hexes leaves (m - splitPoint size) (start + splitPoint size)
      (size - splitPoint size) false nodes) :
    Carries noble sha256 hexes leaves m start size b
      (nodes ++ [text (subtree sha256 leaves start (splitPoint size))]) := by
  have hk := splitPoint_pos size
  refine ⟨fun known pre post hknown => ?_, ?_, fun _ => by simp⟩
  · have hrest :=
      h.rebuilds none pre (text (subtree sha256 leaves start (splitPoint size)) :: post) (by simp)
    have hread := read_node (pre ++ nodes) post
      (text_ne_nil (subtree sha256 leaves start (splitPoint size))) "left subtree hash"
    have hold : hashInternal sha256 (subtree sha256 leaves start (splitPoint size))
        (subtree sha256 leaves (start + splitPoint size) (m - splitPoint size)) =
          subtree sha256 leaves start m := by
      have hsplit : subtree sha256 leaves start m = _ := subtree_split sha256 (by omega) (by omega)
      rw [hsplit, splitPoint_between hgt hlt.le]
    have hmatch : assertKnownOldRootMatch (text (subtree sha256 leaves start m)) b known = .ok () := by
      cases b with
      | true =>
        obtain ⟨c, cs, hcons⟩ := text_eq_cons (subtree sha256 leaves start m)
        rw [hknown rfl, hcons]
        simp [assertKnownOldRootMatch, pure, Except.pure]
      | false =>
        unfold assertKnownOldRootMatch
        split <;> simp [pure, Except.pure]
    rw [List.length_append] at hread
    rw [reconstruct_right noble sha256 hlt hgt]
    simp only [List.append_assoc, List.singleton_append] at hrest hread ⊢
    rw [hrest, ok_bind, hread, ok_bind, hashPair_text, ok_bind,
      hashPair_text, ← subtree_split sha256 (by omega) hsize, ok_bind, hold, hmatch, ok_bind,
      List.length_append, List.length_singleton, Nat.add_assoc]
    rfl
  · rw [hasValidConsistencyProofNodes_append, hasValid_text, Bool.and_true, h.valid_iff]
    refine ⟨fun _ _ hm => ?_, fun _ hb => by cases hb⟩
    omega

/-- COMPLETENESS of the walk: the generated nodes carry the prefix to the whole. -/
theorem subproof_carries (h : SpellEach hexes leaves) (size : ℕ) :
    ∀ (m start : ℕ) (b : Bool), 0 < m → m ≤ size →
    start + size ≤ leaves.length →
      ∃ nodes, Plain.subproof noble sha256 hexes m start size b = .ok nodes ∧
      Carries noble sha256 hexes leaves m start size b nodes := by
  induction size using Nat.strong_induction_on with
  | _ size ih =>
    intro m start b hpos hle hr
    rw [Plain.subproof]
    by_cases hwhole : m = size
    · subst hwhole
      rw [if_pos rfl]
      cases b with
      | true =>
        refine ⟨[], rfl, fun known pre post hknown =>
          ?_, by simp [hasValidConsistencyProofNodes], by omega⟩
        obtain ⟨c, cs, hcons⟩ := text_eq_cons (subtree sha256 leaves start m)
        rw [reconstruct_equal, hknown rfl, hcons]
        rfl
      | false =>
        rw [if_neg (by simp), plain_mthRange h _ hpos hr, ok_bind]
        refine ⟨_, rfl, fun known pre post _ => ?_, by simp [hasValid_text], by omega⟩
        rw [reconstruct_equal, List.append_assoc, List.singleton_append]
        simp only [resolveEqualConsistencySubtree, Bool.false_eq_true, if_false]
        rw [read_node _ _ (text_ne_nil _), ok_bind]
        rfl
    rw [if_neg hwhole]
    by_cases hraw : m = 1 ∧ size = 2 ∧ b = true
    · obtain ⟨rfl, rfl, rfl⟩ := hraw
      obtain ⟨hex, leaf, hhex, hleaf, hspells⟩ := spelled_leaf h (i := start + 1) (by omega)
      have hne := spelling_ne_nil hspells
      rw [if_pos ⟨rfl, rfl, rfl⟩, hhex]
      obtain ⟨c, cs, hcons⟩ := List.exists_cons_of_ne_nil hne
      refine ⟨[hex], by rw [hcons]; rfl, fun known pre post hknown => ?_, ?_, by simp⟩
      · obtain ⟨d, ds, hroot⟩ := text_eq_cons (subtree sha256 leaves start 1)
        have hwhole :
            hashInternal sha256 (subtree sha256 leaves start 1) (ContractCore.hashLeaf sha256 leaf) =
            subtree sha256 leaves start 2 := by
          rw [subtree_split sha256 (by omega) hr, splitPoint_two, ← subtree_one sha256 hleaf]
        rw [Nat.cast_one, Nat.cast_ofNat, reconstruct_raw, hknown rfl, List.append_assoc,
          List.singleton_append]
        simp only [hroot, reconstructRawLeafExtension]
        rw [read_node _ _ hne, ok_bind, hashLeaf_spelling noble sha256 hspells, ok_bind, ← hroot,
          hashPair_text, hwhole]
        rfl
      · rw [hasValid_spelling hspells]
        simp [hhex]
    have hk := splitPoint_pos size
    have hlt := splitPoint_lt (show 1 < size by omega)
    rw [if_neg hraw, dif_neg (by omega), largestPowerOfTwoLessThan_eq (by omega)]
    by_cases hleft : m ≤ splitPoint size
    · obtain ⟨nodes, hplain, hcarries⟩ := ih _ hlt m start b hpos hleft (by omega)
      rw [if_pos hleft, hplain, ok_bind, plain_mthRange h _ (by omega) (by omega), ok_bind]
      exact ⟨_, rfl, hcarries.left hr hpos (by omega) hraw hleft⟩
    · obtain ⟨nodes, hplain, hcarries⟩ := ih (size - splitPoint size) (by omega) (m - splitPoint size)
        (start + splitPoint size) false (by omega) (by omega) (by omega)
      rw [if_neg hleft, hplain, ok_bind, plain_mthRange h _ hk (by omega), ok_bind]
      exact ⟨_, rfl, hcarries.right hr (by omega) (by omega)⟩

/-! ### Proofs handed out by a tree -/

/-- The shortcut for doubling is taken, and the old tree is no perfect tree. -/
def Misfires (m n : ℕ) : Prop := isPerfectTreeDoubling m n = true ∧ ¬ m.isPowerOfTwo

/-- A perfect tree that doubles splits at its old size. -/
theorem splitPoint_double {m : ℕ} (h : m.isPowerOfTwo) : splitPoint (m * 2) = m := by
  obtain ⟨e, rfl⟩ := h
  have hpos := Nat.two_pow_pos e
  exact splitPoint_unique (by omega) (by rw [Nat.pow_succ])

/-- One hash decides a proof of one node. -/
theorem verifySingleNodeExtension_eq_true {oldRoot newRoot : JsString} {nodes : List JsString}
    {rawLeaf : Bool} :
    verifySingleNodeExtension noble sha256 oldRoot newRoot nodes rawLeaf = .ok true ↔
      ∃ node right, nodes = [node] ∧ node ≠ [] ∧
        (if rawLeaf then hashLeaf noble sha256 node else .ok node) = .ok right ∧
        hashPair noble sha256 oldRoot right = .ok newRoot := by
  match nodes with
  | [] => simp [verifySingleNodeExtension, pure, Except.pure]
  | [[]] => simp [verifySingleNodeExtension, pure, Except.pure]
  | [c :: cs] => cases rawLeaf <;> simp [verifySingleNodeExtension, bind_eq_ok, pure, Except.pure]
  | _ :: _ :: _ => simp [verifySingleNodeExtension, pure, Except.pure]

/-- A reconstruction of one level that uses all nodes is the shortcut. -/
theorem verifySingleNodeExtension_of_reconstruct {oldRoot newRoot : JsString} {nodes : List JsString}
    {m n : ℕ} (hpos : 0 < m) (hlt : m < n) (hsplit : splitPoint n = m)
    (h : reconstructConsistencyHashes noble sha256 m n nodes 0 true (some oldRoot) =
      .ok ⟨oldRoot, newRoot, nodes.length⟩) :
    verifySingleNodeExtension noble sha256 oldRoot newRoot nodes (decide (m = 1 ∧ n = 2)) =
      .ok true := by
  rw [verifySingleNodeExtension_eq_true]
  have honly : ∀ {node : JsString}, nodes[0]? = some node → nodes.length = 1 → nodes = [node] := by
    intro node hnode hlen
    obtain ⟨only, rfl⟩ := List.length_eq_one_iff.mp hlen
    simpa using hnode
  rcases reconstruct_cases noble sha256 hpos hlt.le h with ⟨rfl, -⟩ | ⟨rfl, rfl, -, -, hlen, leaf,
    hashed, hleaf, hne, hhashed,
    hnew⟩ | ⟨-, -, hraw, left, right, hleft, hnode, hne, hnew, -, hlen⟩ | ⟨-, hgt, -⟩
  · omega
  · exact ⟨leaf, hashed, honly hleaf hlen, hne, by simpa using hhashed, hnew⟩
  · rw [hsplit] at hleft
    rcases reconstruct_cases noble sha256 hpos le_rfl hleft with ⟨-, hsame, hroot⟩ | ⟨rfl, htwo,
      -⟩ | ⟨hself, -⟩ | ⟨hself, -⟩
    · obtain ⟨hold, hstart⟩ := hroot rfl
      rw [hstart] at hnode hlen
      rw [← hsame, ← Option.some.inj hold] at hnew
      exact ⟨right, right, honly hnode hlen, hne, by rw [if_neg (by simpa using hraw)], hnew⟩
    · omega
    · omega
    · omega
  · omega

/-- SPEC: the generated proof of a proper prefix verifies unless its raw leaf is stored with a prefix or
    the shortcut misfires. -/
theorem verify_subproof (h : SpellEach hexes leaves) {m n : ℕ} (hpos : 0 < m) (hlt : m < n)
    (hn : n ≤ leaves.length) {nodes : List JsString}
    (hplain : Plain.subproof noble sha256 hexes m 0 n true = .ok nodes) :
    verifyConsistencyProof noble sha256 (text (subtree sha256 leaves 0 m))
      (text (subtree sha256 leaves 0 n)) ⟨m, n, nodes⟩ = .ok true ↔
      (m = 1 → ∀ hex, hexes[1]? = some hex → hex.length = 64) ∧ ¬ Misfires m n := by
  obtain ⟨_, hplain', hcarries⟩ :=
    @subproof_carries noble sha256 hexes leaves h n m 0 true hpos hlt.le (by omega)
  obtain rfl := Except.ok.inj (hplain.symm.trans hplain')
  have hvalid := hcarries.valid_iff
  have hnonempty := List.length_pos_iff.mpr (hcarries.nonempty hlt)
  have hrebuilds := hcarries.rebuilds (some (text (subtree sha256 leaves 0 m))) [] [] fun _ => rfl
  simp only [List.nil_append, List.append_nil, List.length_nil, Nat.zero_add] at hrebuilds
  simp only [Nat.zero_add, hlt, forall_const] at hvalid
  simp only [verifyConsistencyProof]
  rw [if_neg (by omega), if_neg (by omega), ← hvalid]
  by_cases hnodes : hasValidConsistencyProofNodes nodes = true
  swap
  · simp [hnodes, pure, Except.pure]
  rw [if_neg (by simpa using hnodes), and_iff_right hnodes]
  by_cases hraw : m = 1 ∧ n = 2
  · obtain ⟨rfl, rfl⟩ := hraw
    have hshort := verifySingleNodeExtension_of_reconstruct hpos hlt splitPoint_two hrebuilds
    rw [if_pos ⟨rfl, rfl⟩]
    exact iff_of_true (by simpa using hshort) fun hmis => hmis.2 ⟨0, rfl⟩
  rw [if_neg (by omega)]
  by_cases hdouble : isPerfectTreeDoubling m n = true
  · rw [if_pos hdouble]
    obtain rfl : n = m * 2 := by
      simp only [isPerfectTreeDoubling, Bool.and_eq_true, decide_eq_true_eq] at hdouble
      omega
    by_cases hpow : m.isPowerOfTwo
    · have hshort := verifySingleNodeExtension_of_reconstruct hpos hlt (splitPoint_double hpow) hrebuilds
      rw [decide_eq_false hraw] at hshort
      exact iff_of_true hshort fun hmis => hmis.2 hpow
    · -- an imperfect tree that doubles needs a second node
      refine iff_of_false (fun hshort => ?_) fun hmis => hmis ⟨hdouble, hpow⟩
      obtain ⟨node, -, rfl, -⟩ := verifySingleNodeExtension_eq_true.mp hshort
      have hne : splitPoint (m * 2) ≠ m := fun hsplit => hpow ⟨_, hsplit.symm⟩
      have hhalf := le_two_mul_splitPoint (n := m * 2) (by omega)
      rcases reconstruct_cases noble sha256 hpos hlt.le hrebuilds with ⟨hself, -⟩ | ⟨rfl, htwo, -⟩ |
        ⟨-, hleft, -, left, right, hrec, -, -, -, -, hnext⟩ | ⟨-, hgt, -⟩
      · omega
      · exact hraw ⟨rfl, htwo⟩
      · have hmore := reconstruct_nextIndex_pos noble sha256 hpos (by omega) hrec
        simp only [List.length_singleton] at hnext
        omega
      · omega
  · rw [if_neg hdouble]
    refine iff_of_true ?_ fun hmis => hdouble hmis.1
    simp [verifyReconstructedConsistencyProof, hrebuilds, pure, Except.pure]

/-- Within the 32 bits the shortcut looks at, it never misfires. -/
theorem not_misfires_of_lt {m n : ℕ} (hpos : 0 < m) (hm : m < 4294967296) : ¬ Misfires m n := by
  rintro ⟨hdouble, hpow⟩
  simp only [isPerfectTreeDoubling, isPowerOfTwo, Bool.and_eq_true, decide_eq_true_eq] at hdouble
  have hlow := (bitAnd_pred_eq_zero hpos).mp hdouble.1.1.2
  rw [Nat.mod_eq_of_lt hm] at hlow
  exact hlow.elim hpos.ne' hpow

/-- The whole tree, proper prefixes included. -/
theorem verify_generated {t : Tree} (h : Coherent sha256 leaves t) {m n : ℕ} (hpos : 0 < m) (hle : m ≤ n)
    (hn : n ≤ t.leaves.length) :
    ∃ proof, (exec (getConsistencyProof noble sha256 m n) t).1 = .ok proof ∧
      (verifyConsistencyProof noble sha256 (text (subtree sha256 leaves 0 m))
        (text (subtree sha256 leaves 0 n)) proof =
        .ok true ↔ (m = 1 → m < n → ∀ hex, t.leaves[1]? = some hex → hex.length = 64) ∧
        ¬ Misfires m n) := by
  have hlen := h.length_eq
  rw [(getConsistencyProof_answers m n h).1, Plain.getConsistencyProof, if_neg (by omega),
    if_neg (by omega), if_neg (by omega), if_neg (by omega)]
  rcases hle.eq_or_lt with rfl | hlt
  · rw [if_pos rfl]
    refine ⟨_, rfl, iff_of_true (by simp [verifyConsistencyProof, pure, Except.pure]) ⟨by omega, ?_⟩⟩
    rintro ⟨hdouble, -⟩
    simp only [isPerfectTreeDoubling, Bool.and_eq_true, decide_eq_true_eq] at hdouble
    omega
  · obtain ⟨nodes, hplain, -⟩ :=
      @subproof_carries noble sha256 t.leaves leaves h.stored n m 0 true hpos hle (by omega)
    rw [if_neg (by omega), Int.toNat_natCast, Int.toNat_natCast, hplain]
    refine ⟨_, rfl, ?_⟩
    rw [verify_subproof h.stored hpos hlt (by omega) hplain]
    simp only [hlt, forall_const]

variable (noble sha256)

/-- COMPLETENESS: on a tree reached by any calls, the consistency proof handed out for two sizes
    verifies against the roots of these sizes exactly when it does not hand out a second leaf that is
    stored with a prefix, and the shortcut for doubling does not misfire. -/
theorem consistency_proofs_verify_iff (calls : List Call) (m n : ℕ) (hpos : 1 ≤ m) (hle : m ≤ n)
    (hn : n ≤ (reached noble sha256 calls).leaves.length) :
    ∃ oldRoot newRoot proof,
      (exec (getRootAtSize noble sha256 m) (reached noble sha256 calls)).1 = .ok oldRoot ∧
      (exec (getRootAtSize noble sha256 n) (reached noble sha256 calls)).1 = .ok newRoot ∧
      (exec (getConsistencyProof noble sha256 m n) (reached noble sha256 calls)).1 = .ok proof ∧
      (verifyConsistencyProof noble sha256 oldRoot newRoot proof = .ok true ↔
        (m = 1 → m < n → ∀ hex, (reached noble sha256 calls).leaves[1]? = some hex → hex.length = 64) ∧
        ¬ Misfires m n) := by
  obtain ⟨leaves, h⟩ := reached_keeps noble sha256 calls
  have hlen := h.length_eq
  obtain ⟨proof, hproof, hverify⟩ := @verify_generated noble sha256 leaves _ h m n hpos hle hn
  exact ⟨_, _, proof, (getRootAtSize_yields h hpos (by omega)).result,
    (getRootAtSize_yields h (by omega) (by omega)).result, hproof, hverify⟩

/-- The first of three leaves, carried to the whole by the raw second leaf and a hash. -/
theorem consistency_proofs_verify_on_sample :
    ∃ oldRoot newRoot proof,
      (exec (getConsistencyProof NobleUtils.reference Sha256.digest 1 3)
        (reached NobleUtils.reference Sha256.digest
        (sampleLeaves.map fun leaf => .append (text leaf)))).1 = .ok proof ∧
      verifyConsistencyProof NobleUtils.reference Sha256.digest oldRoot newRoot proof = .ok true := by
  have hstored := reached_appends NobleUtils.reference Sha256.digest sampleLeaves
  obtain ⟨oldRoot, newRoot, proof, -, -, hproof, hverify⟩ :=
    consistency_proofs_verify_iff NobleUtils.reference
    Sha256.digest (sampleLeaves.map fun leaf => .append (text leaf)) 1 3 (by decide) (by decide)
    (by rw [hstored]; decide)
  refine ⟨oldRoot, newRoot, proof, hproof,
    hverify.mpr ⟨fun _ _ hex hhex => ?_, not_misfires_of_lt (by decide) (by decide)⟩⟩
  rw [hstored] at hhex
  rw [← Option.some.inj hhex]
  decide

/-- A first leaf, and a second one with two prefixes: the tree strips one and accepts. -/
def twicePrefixed : List Call :=
  [.append (text (Bytes.fill 32 1)), .append (js "0x0x" ++ text (Bytes.fill 32 2))]

/-- Its proof from one leaf to two does not verify. -/
theorem twice_prefixed_leaf_not_verified :
    ∃ oldRoot newRoot proof,
      (exec (getRootAtSize NobleUtils.reference Sha256.digest 1)
        (reached NobleUtils.reference Sha256.digest twicePrefixed)).1 = .ok oldRoot ∧
      (exec (getRootAtSize NobleUtils.reference Sha256.digest 2)
        (reached NobleUtils.reference Sha256.digest twicePrefixed)).1 = .ok newRoot ∧
      (exec (getConsistencyProof NobleUtils.reference Sha256.digest 1 2)
        (reached NobleUtils.reference Sha256.digest twicePrefixed)).1 = .ok proof ∧
      verifyConsistencyProof NobleUtils.reference Sha256.digest oldRoot newRoot proof ≠ .ok true := by
  have hstored : (reached NobleUtils.reference Sha256.digest twicePrefixed).leaves =
      [text (Bytes.fill 32 1), prefixed (Bytes.fill 32 2)] := by
    rw [reached_leaves]
    decide
  obtain ⟨leaves, h⟩ := reached_keeps NobleUtils.reference Sha256.digest twicePrefixed
  have hlen : leaves.length = 2 := by rw [← h.length_eq, hstored]; rfl
  obtain ⟨proof, hproof, hverify⟩ := verify_generated (m := 1) (n := 2) h (by decide) (by decide)
    (by rw [hstored]; decide)
  refine ⟨_, _, proof, (getRootAtSize_yields h Nat.one_pos (by omega)).result,
    (getRootAtSize_yields h Nat.two_pos (by omega)).result, hproof, fun htrue => ?_⟩
  have hshort := (hverify.mp htrue).1 rfl (by decide) (prefixed (Bytes.fill 32 2)) (by rw [hstored]; rfl)
  revert hshort
  decide

end StarkBallot.Merkle
