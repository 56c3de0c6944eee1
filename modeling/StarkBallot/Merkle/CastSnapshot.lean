import StarkBallot.Merkle.AppendOnly

/-! The last leaf of an old tree keeps its place. A voter holds the root of the tree that ended with
    their vote, and a later root is joined to it by a consistency proof:

        at cast    leaf at m - 1 of m ──path──▶ old root
                                                   │ consistency, m to n
        at close   leaf at m - 1 of n ──path──▶ new root

    The two leaves are one, or two of the messages hashed on the three ways collide. No list of leaves
    is given: the roots may be those of no tree at all. The reconstruction splits where the paths split,
    so one induction takes the three apart together, from the roots down. -/

namespace StarkBallot.Merkle
open Schemes ContractCore CryptoPrimitives

variable (noble : NobleUtils) (sha256 : List UInt8 → Bytes 32)

/-! ### The messages hashed -/

/-- The messages hashed on the way up a path. -/
def pathWalkMessages (index size : ℕ) (nodeHash : JsString) (proofNodes : List JsString) (proofPos : ℕ) :
    List (List UInt8) :=
  if 1 < size then
    if index < splitPoint size then
      pathWalkMessages index (splitPoint size) nodeHash proofNodes proofPos ++
        (verifyPathRecursive noble sha256 index (splitPoint size) nodeHash proofNodes
          proofPos).toOption.toList.flatMap fun walked =>
            pairMessages noble walked.1 (proofNodes.getD (proofPos + walked.2) [])
    else
      pathWalkMessages (index - splitPoint size) (size - splitPoint size) nodeHash proofNodes proofPos ++
        (verifyPathRecursive noble sha256 (index - splitPoint size) (size - splitPoint size)
          nodeHash proofNodes proofPos).toOption.toList.flatMap fun walked =>
            pairMessages noble (proofNodes.getD (proofPos + walked.2) []) walked.1
  else []
termination_by size
decreasing_by
  · exact splitPoint_lt (by omega)
  · have := splitPoint_pos size
    omega

/-- The messages of the reconstruction, on the side of the old root. -/
def reconstructOldMessages (proofNodes : List JsString) (m n index : ℕ) (includeOldRoot : Bool)
    (knownOldRoot : Option JsString) : List (List UInt8) :=
  if m < n ∧ 1 < n then
    if m = 1 ∧ n = 2 ∧ includeOldRoot then []
    else if m ≤ splitPoint n then
      reconstructOldMessages proofNodes m (splitPoint n) index includeOldRoot knownOldRoot
    else
      reconstructOldMessages proofNodes (m - splitPoint n) (n - splitPoint n) index false none ++
        (reconstructConsistencyHashes noble sha256 (m - splitPoint n : ℕ) (n - splitPoint n : ℕ)
          proofNodes index false none).toOption.toList.flatMap fun right =>
            pairMessages noble (proofNodes.getD right.nextIndex []) right.oldHash
  else []
termination_by n
decreasing_by
  · exact splitPoint_lt (by omega)
  · have := splitPoint_pos n
    omega

variable {noble sha256}

/-! ### Walks -/

section Walks

variable {index size pos consumed : ℕ} {path : List JsString} {cur : Bytes 32} {root : JsString}

/-- INVERSION: a walk that returned stands at its leaf, or joined a sibling to the root of one part. -/
theorem walk_cases {node : JsString}
    (h : verifyPathRecursive noble sha256 index size node path pos = .ok (root, consumed)) :
    (size ≤ 1 ∧ root = node) ∨
    (1 < size ∧ index < splitPoint size ∧ ∃ part used,
      verifyPathRecursive noble sha256 index (splitPoint size) node path pos = .ok (part, used) ∧
        hashPair noble sha256 part (path.getD (pos + used) []) = .ok root) ∨
    (1 < size ∧ splitPoint size ≤ index ∧ ∃ part used,
      verifyPathRecursive noble sha256 (index - splitPoint size) (size - splitPoint size) node path pos =
          .ok (part, used) ∧
        hashPair noble sha256 (path.getD (pos + used) []) part = .ok root) := by
  rw [verifyPathRecursive] at h
  by_cases hsize : size ≤ 1
  · rw [dif_pos hsize] at h
    cases h
    exact Or.inl ⟨hsize, rfl⟩
  rw [dif_neg hsize, largestPowerOfTwoLessThan_eq (by omega)] at h
  right
  by_cases hleft : index < splitPoint size
  · rw [if_pos hleft] at h
    obtain ⟨⟨part, used⟩, hpart, h⟩ := bind_eq_ok.mp h
    dsimp only at h
    split at h
    · cases h
    · cases h
    · rename_i sibling hsibling hfound
      obtain ⟨joined, hjoined, h⟩ := bind_eq_ok.mp h
      cases h
      refine Or.inl ⟨by omega, hleft, part, used, hpart, ?_⟩
      rw [List.getD_eq_getElem?_getD, hfound, Option.getD_some]
      exact hjoined
  · rw [if_neg hleft] at h
    obtain ⟨⟨part, used⟩, hpart, h⟩ := bind_eq_ok.mp h
    dsimp only at h
    split at h
    · cases h
    · cases h
    · rename_i sibling hsibling hfound
      obtain ⟨joined, hjoined, h⟩ := bind_eq_ok.mp h
      cases h
      refine Or.inr ⟨by omega, by omega, part, used, hpart, ?_⟩
      rw [List.getD_eq_getElem?_getD, hfound, Option.getD_some]
      exact hjoined

/-- A walk from the text of a value ends in the text of a value. -/
theorem walk_text (h : verifyPathRecursive noble sha256 index size (text cur) path pos =
    .ok (root, consumed)) :
    ∃ value : Bytes 32, root = text value := by
  rcases walk_cases h with ⟨-, rfl⟩ | ⟨-, -, part, used, -, hjoined⟩ | ⟨-, -, part, used, -, hjoined⟩
  · exact ⟨cur, rfl⟩
  · obtain ⟨_, _, -, -, rfl⟩ := hashPair_eq_ok.mp hjoined
    exact ⟨_, rfl⟩
  · obtain ⟨_, _, -, -, rfl⟩ := hashPair_eq_ok.mp hjoined
    exact ⟨_, rfl⟩

/-- A part of a walk that is joined on the left: its messages, and the messages of the join. -/
theorem walk_left_mem {Q : Set (List UInt8)} {part : JsString} {node : JsString} {used : ℕ}
    (hsize : 1 < size) (hindex : index < splitPoint size)
    (hpart : verifyPathRecursive noble sha256 index (splitPoint size) node path pos = .ok (part, used))
    (hmem : ∀ m ∈ pathWalkMessages noble sha256 index size node path pos, m ∈ Q) :
    (∀ m ∈ pathWalkMessages noble sha256 index (splitPoint size) node path pos, m ∈ Q) ∧
      ∀ m ∈ pairMessages noble part (path.getD (pos + used) []), m ∈ Q := by
  rw [pathWalkMessages, if_pos hsize, if_pos hindex, hpart] at hmem
  exact ⟨fun m hm => hmem m (List.mem_append_left _ hm),
    fun m hm => hmem m (List.mem_append_right _ (by simpa [Except.toOption] using hm))⟩

theorem walk_right_mem {Q : Set (List UInt8)} {part : JsString} {node : JsString} {used : ℕ}
    (hsize : 1 < size) (hindex : splitPoint size ≤ index)
    (hpart : verifyPathRecursive noble sha256 (index - splitPoint size) (size - splitPoint size)
      node path pos = .ok (part, used))
    (hmem : ∀ m ∈ pathWalkMessages noble sha256 index size node path pos, m ∈ Q) :
    (∀ m ∈ pathWalkMessages noble sha256 (index - splitPoint size) (size - splitPoint size) node path
      pos, m ∈ Q) ∧
      ∀ m ∈ pairMessages noble (path.getD (pos + used) []) part, m ∈ Q := by
  rw [pathWalkMessages, if_pos hsize, if_neg (by omega), hpart] at hmem
  exact ⟨fun m hm => hmem m (List.mem_append_left _ hm),
    fun m hm => hmem m (List.mem_append_right _ (by simpa [Except.toOption] using hm))⟩

end Walks

/-! ### Binding -/

section Binding

variable {Q : Set (List UInt8)} (hQ : Set.InjOn sha256 Q)
include hQ

/-- Equal joins have equal bytes. -/
theorem joined_bytes {left right left' right' hash hash' : JsString} {value : Bytes 32}
    (hmem : ∀ m ∈ pairMessages noble left right, m ∈ Q)
    (hmem' : ∀ m ∈ pairMessages noble left' right', m ∈ Q)
    (h : hashPair noble sha256 left right = .ok hash)
    (h' : hashPair noble sha256 left' right' = .ok hash') (hreads : Reads noble hash value)
    (hreads' : Reads noble hash' value) :
    ∃ a b a' b', hexToBytesStrict noble left = .ok a ∧ hexToBytesStrict noble right = .ok b ∧
      hexToBytesStrict noble left' = .ok a' ∧ hexToBytesStrict noble right' = .ok b' ∧
      a ++ b = a' ++ b' := by
  obtain ⟨a, b, ha, hb, rfl⟩ := hashPair_eq_ok.mp h
  obtain ⟨a', b', ha', hb', rfl⟩ := hashPair_eq_ok.mp h'
  have hdigest := (reads_unique (reads_text _) hreads).trans (reads_unique (reads_text _) hreads').symm
  have hmessage : [0x01] ++ a ++ b = [0x01] ++ a' ++ b' :=
    hQ (hmem _ (by simp [pairMessages, ha, hb])) (hmem' _ (by simp [pairMessages, ha', hb'])) hdigest
  exact ⟨a, b, a', b', ha, hb, ha', hb', (List.cons_inj_right _).mp hmessage⟩

/-- Equal joins with 32 bytes on the left have the same value there. -/
theorem joined_left {left right left' right' hash hash' : JsString} {value x x' : Bytes 32}
    (hmem : ∀ m ∈ pairMessages noble left right, m ∈ Q)
    (hmem' : ∀ m ∈ pairMessages noble left' right', m ∈ Q)
    (h : hashPair noble sha256 left right = .ok hash)
    (h' : hashPair noble sha256 left' right' = .ok hash') (hreads : Reads noble hash value)
    (hreads' : Reads noble hash' value) (hx : Reads noble left x) (hx' : Reads noble left' x') :
    x = x' := by
  obtain ⟨a, b, a', b', ha, -, ha', -, heq⟩ := joined_bytes hQ hmem hmem' h h' hreads hreads'
  obtain rfl := Except.ok.inj (ha.symm.trans hx)
  obtain rfl := Except.ok.inj (ha'.symm.trans hx')
  exact Bytes.ext (List.append_inj heq (by rw [x.length_eq, x'.length_eq])).1

theorem joined_right {left right left' right' hash hash' : JsString} {value x x' : Bytes 32}
    (hmem : ∀ m ∈ pairMessages noble left right, m ∈ Q)
    (hmem' : ∀ m ∈ pairMessages noble left' right', m ∈ Q)
    (h : hashPair noble sha256 left right = .ok hash)
    (h' : hashPair noble sha256 left' right' = .ok hash') (hreads : Reads noble hash value)
    (hreads' : Reads noble hash' value) (hx : Reads noble right x) (hx' : Reads noble right' x') :
    x = x' := by
  obtain ⟨a, b, a', b', -, hb, -, hb', heq⟩ := joined_bytes hQ hmem hmem' h h' hreads hreads'
  obtain rfl := Except.ok.inj (hb.symm.trans hx)
  obtain rfl := Except.ok.inj (hb'.symm.trans hx')
  exact Bytes.ext (List.append_inj' heq (by rw [x.length_eq, x'.length_eq])).2

/-- A walk from the text of a value to a hash, over messages of `Q`. -/
def WalksTo (noble : NobleUtils) (sha256 : List UInt8 → Bytes 32) (Q : Set (List UInt8)) (index size : ℕ)
    (cur : Bytes 32) (hash : JsString) : Prop :=
  ∃ path pos used value, (∀ m ∈ pathWalkMessages noble sha256 index size (text cur) path pos, m ∈ Q) ∧
    verifyPathRecursive noble sha256 index size (text cur) path pos = .ok (text value, used) ∧
    Reads noble hash value

section WalksTo

variable {index size : ℕ} {cur cur' x : Bytes 32} {first second hash : JsString}

omit hQ in
/-- A hash and the text of its value are walked to alike. -/
theorem WalksTo.ofReads (h : WalksTo noble sha256 Q index size cur hash) (hreads : Reads noble hash x) :
    WalksTo noble sha256 Q index size cur (text x) := by
  obtain ⟨path, pos, used, value, hmem, hwalk, hvalue⟩ := h
  obtain rfl := reads_unique hvalue hreads
  exact ⟨path, pos, used, value, hmem, hwalk, reads_text value⟩

omit hQ in
theorem WalksTo.one (h : WalksTo noble sha256 Q index 1 cur hash) : Reads noble hash cur := by
  obtain ⟨path, pos, used, value, -, hwalk, hreads⟩ := h
  rcases walk_cases hwalk with ⟨-, hcur⟩ | ⟨hsize, -⟩ | ⟨hsize, -⟩
  · rwa [text_injective hcur] at hreads
  · omega
  · omega

/-- STEP: a walk to a join walks to the part on its side. -/
theorem WalksTo.left (h : WalksTo noble sha256 Q index size cur hash) (hsize : 1 < size)
    (hside : index < splitPoint size) (hmem : ∀ m ∈ pairMessages noble first second, m ∈ Q)
    (hpair : hashPair noble sha256 first second = .ok hash) (hleft : Reads noble first x) :
    WalksTo noble sha256 Q index (splitPoint size) cur first := by
  obtain ⟨path, pos, used, value, hwalkMem, hwalk, hreads⟩ := h
  rcases walk_cases hwalk with ⟨hone, -⟩ | ⟨-, -, part, partUsed, hpart, hjoined⟩ | ⟨-, hother, -⟩
  · omega
  · obtain ⟨y, rfl⟩ := walk_text hpart
    obtain ⟨hmemPart, hmemJoin⟩ := walk_left_mem hsize hside hpart hwalkMem
    obtain rfl :=
      joined_left hQ hmem hmemJoin hpair hjoined hreads (reads_text value) hleft (reads_text y)
    exact ⟨path, pos, partUsed, _, hmemPart, hpart, hleft⟩
  · omega

theorem WalksTo.right (h : WalksTo noble sha256 Q index size cur hash) (hsize : 1 < size)
    (hside : splitPoint size ≤ index) (hmem : ∀ m ∈ pairMessages noble first second, m ∈ Q)
    (hpair : hashPair noble sha256 first second = .ok hash) (hright : Reads noble second x) :
    WalksTo noble sha256 Q (index - splitPoint size) (size - splitPoint size) cur second := by
  obtain ⟨path, pos, used, value, hwalkMem, hwalk, hreads⟩ := h
  rcases walk_cases hwalk with ⟨hone, -⟩ | ⟨-, hother, -⟩ | ⟨-, -, part, partUsed, hpart, hjoined⟩
  · omega
  · omega
  · obtain ⟨y, rfl⟩ := walk_text hpart
    obtain ⟨hmemPart, hmemJoin⟩ := walk_right_mem hsize hside hpart hwalkMem
    obtain rfl :=
      joined_right hQ hmem hmemJoin hpair hjoined hreads (reads_text value) hright (reads_text y)
    exact ⟨path, pos, partUsed, _, hmemPart, hpart, hright⟩

/-- BINDING: two walks over one place of one size to one hash started from one value. -/
theorem walksTo_inj (size : ℕ) :
    ∀ {index : ℕ} {hash : JsString}, WalksTo noble sha256 Q index size cur hash →
    WalksTo noble sha256 Q index size cur' hash → cur = cur' := by
  induction size using Nat.strong_induction_on with
  | _ size ih =>
    intro index hash h h'
    have hwhole := h
    obtain ⟨path, pos, used, value, hmem, hwalk, hreads⟩ := h
    rcases walk_cases hwalk with ⟨hsize, hroot⟩ | ⟨hsize, hside, part, partUsed, hpart, hjoined⟩ |
      ⟨hsize, hside, part, partUsed, hpart, hjoined⟩
    · obtain ⟨path', pos', used', value', -, hwalk', hreads'⟩ := h'
      rcases walk_cases hwalk' with ⟨-, hroot'⟩ | ⟨hsize', -⟩ | ⟨hsize', -⟩
      · rw [← text_injective hroot, ← text_injective hroot']
        exact reads_unique hreads hreads'
      · omega
      · omega
    · obtain ⟨x, rfl⟩ := walk_text hpart
      obtain ⟨-, hmemJoin⟩ := walk_left_mem hsize hside hpart hmem
      exact ih _ (splitPoint_lt hsize)
        ((hwhole.ofReads hreads).left hQ hsize hside hmemJoin hjoined (reads_text x))
        ((h'.ofReads hreads).left hQ hsize hside hmemJoin hjoined (reads_text x))
    · obtain ⟨x, rfl⟩ := walk_text hpart
      obtain ⟨-, hmemJoin⟩ := walk_right_mem hsize hside hpart hmem
      have hpos := splitPoint_pos size
      exact ih _ (by omega)
        ((hwhole.ofReads hreads).right hQ hsize hside hmemJoin hjoined (reads_text x))
        ((h'.ofReads hreads).right hQ hsize hside hmemJoin hjoined (reads_text x))

end WalksTo

omit hQ in
theorem hashPair_reads_of_ok {left right hash : JsString}
    (h : hashPair noble sha256 left right = .ok hash) :
    ∃ value, Reads noble hash value := by
  obtain ⟨_, _, -, -, rfl⟩ := hashPair_eq_ok.mp h
  exact ⟨_, reads_text _⟩

omit hQ in
/-- The nodes are 32 bytes long, so both roots of a reconstruction are. -/
theorem reconstruct_reads {nodes : List JsString}
    (hnodes : ∀ node ∈ nodes, ∃ value, Reads noble node value) (n : ℕ) :
    ∀ {m index : ℕ} {b : Bool} {known : Option JsString} {hashes : ReconstructedConsistencyHashes},
      0 < m → m ≤ n →
      (∀ root, known = some root → ∃ value, Reads noble root value) →
      reconstructConsistencyHashes noble sha256 m n nodes index b known = .ok hashes →
      (∃ value, Reads noble hashes.oldHash value) ∧ ∃ value, Reads noble hashes.newHash value := by
  induction n using Nat.strong_induction_on with
  | _ n ih =>
    intro m index b known hashes hpos hle hknown h
    rcases reconstruct_cases noble sha256 hpos hle h with ⟨rfl, hsame, hroot⟩ |
      ⟨-, -, -, hroot, -, leaf, hashed, -, -, -, hpair⟩ |
      ⟨hlt, hleft, -, left, right, hrec, -, -, hpair, hold, -⟩ | ⟨-, -, right, left, -, -,
        hpairOld, hpair, -⟩
    · rw [← hsame, and_self]
      cases b with
      | true => exact hknown _ (hroot rfl).1
      | false =>
        rw [reconstruct_equal] at h
        unfold resolveEqualConsistencySubtree at h
        rw [if_neg Bool.false_ne_true, bind_eq_ok] at h
        obtain ⟨node, hnode, h⟩ := h
        obtain ⟨hread, -⟩ := readConsistencyProofNode_eq_ok.mp hnode
        cases h
        exact hnodes node (List.mem_of_getElem? hread)
    · exact ⟨hknown _ hroot, hashPair_reads_of_ok hpair⟩
    · rw [hold]
      exact ⟨(ih _ (splitPoint_lt (by omega)) hpos hleft hknown hrec).1, hashPair_reads_of_ok hpair⟩
    · exact ⟨hashPair_reads_of_ok hpairOld, hashPair_reads_of_ok hpair⟩

/-- What is reconstructed from known hashes and nodes, over messages of `Q`. -/
structure Reconstructs (noble : NobleUtils) (sha256 : List UInt8 → Bytes 32) (Q : Set (List UInt8))
    (nodes : List JsString) (m n index : ℕ) (b : Bool) (known : Option JsString)
    (hashes : ReconstructedConsistencyHashes) : Prop where
  known_reads : ∀ root, known = some root → ∃ value, Reads noble root value
  messages : ∀ msg ∈ reconstructMessages noble sha256 nodes m n index b known, msg ∈ Q
  oldMessages : ∀ msg ∈ reconstructOldMessages noble sha256 nodes m n index b known, msg ∈ Q
  hashes_eq : reconstructConsistencyHashes noble sha256 m n nodes index b known = .ok hashes

section Reconstructs

variable {nodes : List JsString} {m n index : ℕ} {b : Bool} {known : Option JsString}
  {hashes part : ReconstructedConsistencyHashes} {node : JsString}

omit hQ in
/-- The whole old tree is on the left: the messages of the part, and of the join. -/
theorem Reconstructs.left (h : Reconstructs noble sha256 Q nodes m n index b known hashes) (hpos : 0 < m)
    (hlt : m < n) (hside : m ≤ splitPoint n) (hraw : ¬ (m = 1 ∧ n = 2 ∧ b = true))
    (hpart : reconstructConsistencyHashes noble sha256 m (splitPoint n) nodes index b known = .ok part)
    (hnode : nodes[part.nextIndex]? = some node) :
    Reconstructs noble sha256 Q nodes m (splitPoint n) index b known part ∧
      ∀ msg ∈ pairMessages noble part.newHash node, msg ∈ Q := by
  have hmem := h.messages
  have hmemOld := h.oldMessages
  rw [reconstructMessages, if_pos (by omega), if_neg hraw, if_pos hside, hpart] at hmem
  rw [reconstructOldMessages, if_pos (by omega), if_neg hraw, if_pos hside] at hmemOld
  exact ⟨⟨h.known_reads, fun msg hmsg => hmem msg (List.mem_append_left _ hmsg), hmemOld, hpart⟩,
    fun msg hmsg => hmem msg (List.mem_append_right _ (by simpa [Except.toOption, hnode] using hmsg))⟩

omit hQ in
/-- The old tree goes on to the right: the messages of the part, and of the two joins. -/
theorem Reconstructs.right (h : Reconstructs noble sha256 Q nodes m n index b known hashes) (hlt : m < n)
    (hside : splitPoint n < m)
    (hpart : reconstructConsistencyHashes noble sha256 (m - splitPoint n : ℕ)
      (n - splitPoint n : ℕ) nodes index
      false none = .ok part) (hnode : nodes[part.nextIndex]? = some node) :
    Reconstructs noble sha256 Q nodes (m - splitPoint n) (n - splitPoint n) index false none part ∧
      (∀ msg ∈ pairMessages noble node part.oldHash, msg ∈ Q) ∧
      ∀ msg ∈ pairMessages noble node part.newHash, msg ∈ Q := by
  have hk := splitPoint_pos n
  have hmem := h.messages
  have hmemOld := h.oldMessages
  rw [reconstructMessages, if_pos (by omega), if_neg (by omega), if_neg (by omega), hpart] at hmem
  rw [reconstructOldMessages, if_pos (by omega), if_neg (by omega), if_neg (by omega), hpart] at hmemOld
  refine ⟨⟨by rintro _ ⟨⟩, fun msg hmsg => hmem msg (List.mem_append_left _ hmsg),
    fun msg hmsg => hmemOld msg (List.mem_append_left _ hmsg), hpart⟩, ?_, ?_⟩
  · exact fun msg hmsg =>
      hmemOld msg (List.mem_append_right _ (by simpa [Except.toOption, hnode] using hmsg))
  · exact fun msg hmsg =>
      hmem msg (List.mem_append_right _ (by simpa [Except.toOption, hnode] using hmsg))

/-- The raw leaf: the old root is the leaf that both walks start from. -/
theorem rawLeaf_bound {cur cur' : Bytes 32} {leaf hashed : JsString}
    (h : Reconstructs noble sha256 Q nodes 1 2 index true (some hashes.oldHash) hashes)
    (hleaf : nodes[index]? = some leaf) (hhashed : hashLeaf noble sha256 leaf = .ok hashed)
    (hpair : hashPair noble sha256 hashes.oldHash hashed = .ok hashes.newHash)
    (hold : WalksTo noble sha256 Q 0 1 cur hashes.oldHash)
    (hnew : WalksTo noble sha256 Q 0 2 cur' hashes.newHash) :
    cur = cur' := by
  have hmem := h.messages
  rw [reconstructMessages, if_pos (by omega), if_pos ⟨rfl, rfl, rfl⟩, List.getD_eq_getElem?_getD, hleaf,
    Option.getD_some, Option.getD_some, hhashed] at hmem
  have hleft := hnew.left hQ (by omega) (by rw [splitPoint_two]; omega)
    (fun msg hmsg => hmem msg (by simpa [Except.toOption] using hmsg)) hpair hold.one
  rw [splitPoint_two] at hleft
  exact reads_unique hold.one hleft.one

end Reconstructs

/-- BINDING: the reconstruction splits where the two walks split. -/
theorem reconstruct_bound {nodes : List JsString}
    (hnodes : ∀ node ∈ nodes, ∃ value, Reads noble node value) (n : ℕ) :
    ∀ {m index : ℕ} {b : Bool} {known : Option JsString} {hashes : ReconstructedConsistencyHashes}
      {cur cur' : Bytes 32}, 0 < m → m ≤ n → Reconstructs noble sha256 Q nodes m n index b known hashes →
      WalksTo noble sha256 Q (m - 1) m cur hashes.oldHash →
      WalksTo noble sha256 Q (m - 1) n cur' hashes.newHash →
      cur = cur' := by
  induction n using Nat.strong_induction_on with
  | _ n ih =>
    intro m index b known hashes cur cur' hpos hle h hold hnew
    have hk := splitPoint_pos n
    rcases reconstruct_cases noble sha256 hpos hle h.hashes_eq with ⟨rfl, hsame, -⟩ |
      ⟨rfl, rfl, rfl, rfl, -, leaf, hashed, hleaf, -, hhashed, hpair⟩ |
      ⟨hlt, hside, hraw, part, node, hpart, hnode, -, hpair, heq, -⟩ |
      ⟨hlt, hside, part, node, hpart, hnode, hpairOld, hpair, -⟩
    · -- one tree
      exact walksTo_inj hQ m (hsame ▸ hold) hnew
    · exact rawLeaf_bound hQ h hleaf hhashed hpair hold hnew
    · -- the node is the right part, for the walk too
      obtain ⟨hleft, hmemJoin⟩ := h.left hpos hlt hside hraw hpart hnode
      obtain ⟨-, value, hvalue⟩ := reconstruct_reads hnodes _ hpos hside h.known_reads hpart
      exact ih _ (splitPoint_lt (by omega)) hpos hside hleft (heq ▸ hold)
        (hnew.left hQ (by omega) (by omega) hmemJoin hpair hvalue)
    · -- the node is the left part, for both walks
      obtain ⟨hright, hmemOld, hmemNew⟩ := h.right hlt hside hpart hnode
      have hsplit : splitPoint m = splitPoint n := splitPoint_between hside hle
      have hplace : m - 1 - splitPoint n = m - splitPoint n - 1 := by omega
      obtain ⟨⟨oldValue, holdValue⟩, newValue, hnewValue⟩ :=
        reconstruct_reads hnodes _ (by omega) (by omega)
        hright.known_reads hpart
      have holdPart := hold.right hQ (by omega) (by omega) hmemOld hpairOld holdValue
      have hnewPart := hnew.right hQ (by omega) (by omega) hmemNew hpair hnewValue
      rw [hsplit, hplace] at holdPart
      rw [hplace] at hnewPart
      exact ih (n - splitPoint n) (by omega) (by omega) (by omega) hright holdPart hnewPart

/-- BINDING: the shortcut joins the old root on the left, and so does the walk. -/
theorem singleNode_bound {m n : ℕ} {nodes : List JsString} {rawLeaf : Bool} {cur cur' old new : Bytes 32}
    (hpos : 0 < m) (hlt : m < n) (hsplit : splitPoint n = m)
    (hmem : ∀ msg ∈ singleNodeMessages noble sha256 (text old) nodes rawLeaf, msg ∈ Q)
    (h : verifySingleNodeExtension noble sha256 (text old) (text new) nodes rawLeaf = .ok true)
    (hold : WalksTo noble sha256 Q (m - 1) m cur (text old))
    (hnew : WalksTo noble sha256 Q (m - 1) n cur' (text new)) : cur = cur' := by
  obtain ⟨node, right, rfl, -, hright, hpair⟩ := verifySingleNodeExtension_eq_true.mp h
  have hleft := hnew.left hQ (by omega) (by omega)
    (fun msg hmsg => hmem msg (by simpa [singleNodeMessages, hright, Except.toOption] using hmsg)) hpair
    (reads_text old)
  rw [hsplit] at hleft
  exact walksTo_inj hQ m hold hleft

/-- BINDING: whatever branch the verifier takes. -/
theorem consistency_bound {m n : ℕ} {nodes : List JsString} {cur cur' old new : Bytes 32} (hpos : 0 < m)
    (hle : m ≤ n) (hfires : ¬ Misfires m n)
    (hmem : ∀ msg ∈ consistencyMessages noble sha256 (text old) m n nodes, msg ∈ Q)
    (hmemOld : ∀ msg ∈ reconstructOldMessages noble sha256 nodes m n 0 true (some (text old)), msg ∈ Q)
    (h : verifyConsistencyProof noble sha256 (text old) (text new) ⟨m, n, nodes⟩ = .ok true)
    (hold : WalksTo noble sha256 Q (m - 1) m cur (text old))
    (hnew : WalksTo noble sha256 Q (m - 1) n cur' (text new)) : cur = cur' := by
  simp only [verifyConsistencyProof] at h
  rcases hle.eq_or_lt with rfl | hlt
  · rw [if_pos rfl] at h
    simp only [pure, Except.pure, Except.ok.injEq, decide_eq_true_eq] at h
    obtain rfl := text_injective h.1
    exact walksTo_inj hQ m hold hnew
  rw [if_neg (by omega)] at h
  split at h
  · cases h
  split at h
  · cases h
  rename_i hvalid
  have hnodes := Decidable.not_not.mp hvalid
  unfold consistencyMessages at hmem
  by_cases hraw : m = 1 ∧ n = 2
  · rw [if_pos hraw] at hmem
    rw [if_pos (by omega)] at h
    obtain ⟨rfl, rfl⟩ := hraw
    exact singleNode_bound hQ hpos hlt splitPoint_two hmem h hold hnew
  rw [if_neg hraw] at hmem
  rw [if_neg (by omega)] at h
  by_cases hdouble : isPerfectTreeDoubling m n = true
  · rw [if_pos hdouble] at hmem h
    have hpow : m.isPowerOfTwo := Decidable.not_not.mp fun hpow => hfires ⟨hdouble, hpow⟩
    have hsplit : splitPoint n = m := by
      simp only [isPerfectTreeDoubling, Bool.and_eq_true, decide_eq_true_eq] at hdouble
      rw [← splitPoint_double hpow]
      congr 1
      omega
    exact singleNode_bound hQ hpos hlt hsplit hmem h hold hnew
  · rw [if_neg hdouble] at hmem h
    simp only [pure, Except.pure, Except.ok.injEq, verifyReconstructedConsistencyProof] at h
    split at h
    · rename_i hashes hrec
      simp only [decide_eq_true_eq] at h
      obtain ⟨-, holdHash, hnewHash⟩ := h
      have hreconstructs : Reconstructs noble sha256 Q nodes m n 0 true (some (text old)) hashes := by
        refine ⟨?_, hmem, hmemOld, hrec⟩
        rintro _ ⟨⟩
        exact ⟨old, reads_text old⟩
      exact reconstruct_bound hQ (valid_node_reads hnodes) n hpos hle hreconstructs (holdHash ▸ hold)
        (hnewHash ▸ hnew)
    · cases h

end Binding

/-! ### A leaf at cast -/

/-- The message hashed for a leaf. -/
def leafBytesMessage (leaf : List UInt8) : List UInt8 :=
  [[0x00], ascii "stark-ballot:leaf|v1", leaf].flatten

theorem leafBytesMessage_injective {leaf leaf' : List UInt8}
    (h : leafBytesMessage leaf = leafBytesMessage leaf') :
    leaf = leaf' := by
  simpa [leafBytesMessage] using h

/-- INVERSION: an accepted path is a walk from the hashed leaf to the root. -/
theorem inclusion_walks {leafHash root : JsString} {i size : ℕ} {path : List JsString}
    (h : verifyInclusionProof noble sha256 leafHash i path root size = .ok true) :
    i < size ∧ ∃ leaf used, hexToBytesStrict noble leafHash = .ok leaf ∧
      verifyPathRecursive noble sha256 i size (text (sha256 (leafBytesMessage leaf))) path 0 =
        .ok (root, used) := by
  unfold verifyInclusionProof at h
  split at h
  · cases h
  rename_i hrange
  obtain ⟨hashed, hhashed, h⟩ := bind_eq_ok.mp h
  obtain ⟨leaf, hleaf, hhashed⟩ := bind_eq_ok.mp hhashed
  rw [sha256Hex_eq] at hhashed
  have htext : text (sha256 (leafBytesMessage leaf)) = hashed := Except.ok.inj hhashed
  refine ⟨by omega, leaf, ?_⟩
  rw [htext]
  split at h
  · rename_i hone
    have hsize : size ≤ 1 := by omega
    have hroot := of_decide_eq_true (Except.ok.inj h)
    refine ⟨0, hleaf, ?_⟩
    rw [verifyPathRecursive, dif_pos hsize]
    exact congrArg (fun root => Except.ok (root, 0)) hroot
  · simp only [Int.toNat_natCast] at h
    split at h
    · rename_i computedRoot used hwalk
      have hboth := of_decide_eq_true (Except.ok.inj h)
      exact ⟨used, hleaf, hboth.1 ▸ hwalk⟩
    · cases h

/-- Every message hashed to verify a path. -/
def inclusionMessages (noble : NobleUtils) (sha256 : List UInt8 → Bytes 32) (leafHash : JsString)
    (i size : ℕ) (path : List JsString) : List (List UInt8) :=
  (hexToBytesStrict noble leafHash).toOption.toList.flatMap fun leaf =>
    leafBytesMessage leaf ::
      pathWalkMessages noble sha256 i size (text (sha256 (leafBytesMessage leaf))) path 0

/-- COMMIT: one place of an old tree and of a later one that a consistency proof joins to it holds one
    leaf, or two of the messages hashed collide. -/
theorem leaf_kept {leafHash leafHash' oldRoot newRoot : JsString} {m n : ℕ}
    {path path' nodes : List JsString} (hpos : 0 < m) (hle : m ≤ n) (hfires : ¬ Misfires m n)
    {Q : Set (List UInt8)} (hQ : Set.InjOn sha256 Q)
    (hmem : ∀ msg ∈ consistencyMessages noble sha256 oldRoot m n nodes, msg ∈ Q)
    (hmemOld : ∀ msg ∈ reconstructOldMessages noble sha256 nodes m n 0 true (some oldRoot), msg ∈ Q)
    (hwalk : ∀ msg ∈ inclusionMessages noble sha256 leafHash (m - 1) m path, msg ∈ Q)
    (hwalk' : ∀ msg ∈ inclusionMessages noble sha256 leafHash' (m - 1) n path', msg ∈ Q)
    (hold : verifyInclusionProof noble sha256 leafHash (m - 1 : ℕ) path oldRoot m = .ok true)
    (h : verifyConsistencyProof noble sha256 oldRoot newRoot ⟨m, n, nodes⟩ = .ok true)
    (hnew : verifyInclusionProof noble sha256 leafHash' (m - 1 : ℕ) path' newRoot n = .ok true) :
    hexToBytesStrict noble leafHash = hexToBytesStrict noble leafHash' := by
  obtain ⟨-, leaf, used, hleaf, hwalked⟩ := inclusion_walks hold
  obtain ⟨-, leaf', used', hleaf', hwalked'⟩ := inclusion_walks hnew
  obtain ⟨old, rfl⟩ := walk_text hwalked
  obtain ⟨new, rfl⟩ := walk_text hwalked'
  simp only [inclusionMessages, hleaf, hleaf', Except.toOption, Option.toList, List.flatMap_cons,
    List.flatMap_nil, List.append_nil, List.mem_cons, forall_eq_or_imp] at hwalk hwalk'
  have hsame := consistency_bound hQ hpos hle hfires hmem hmemOld h
    ⟨path, 0, used, old, hwalk.2, hwalked, reads_text old⟩
    ⟨path', 0, used', new, hwalk'.2, hwalked', reads_text new⟩
  rw [hleaf, hleaf', leafBytesMessage_injective (hQ hwalk.1 hwalk'.1 hsame)]

end StarkBallot.Merkle
