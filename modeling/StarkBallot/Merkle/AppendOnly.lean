import StarkBallot.Merkle.Consistency
import StarkBallot.Schemes.Collision

/-! What an accepted consistency proof shows: the tree grew by appending. If the new root is the Merkle
    tree hash of a list of leaves, the old root is that of its first `oldSize` leaves, or two of the
    messages hashed by the tree and by the verifier collide. The walk is inverted hash by hash: a node
    of the new tree has one preimage, so each part the verifier joined is the tree's own part.

    The argument needs the verifier to split where the tree splits. The shortcut for doubling does not:
    it tests for a power of two with 32-bit arithmetic, and for a size such as `3 * 2 ^ 32` it takes the
    old root for the left part of a tree whose left part is larger. -/

namespace StarkBallot.Merkle
open Schemes ContractCore CryptoPrimitives

variable (noble : NobleUtils) (sha256 : List UInt8 → Bytes 32)

/-- The string decodes to the value. -/
def Reads (hex : JsString) (value : Bytes 32) : Prop := hexToBytesStrict noble hex = .ok value.toList

/-! ### The messages hashed -/

/-- The message `hashPair` hashes, when both strings decode. -/
def pairMessages (left right : JsString) : List (List UInt8) :=
  match hexToBytesStrict noble left, hexToBytesStrict noble right with
  | .ok left, .ok right => [[0x01] ++ left ++ right]
  | _, _ => []

/-- The messages of the shortcut. -/
def singleNodeMessages (oldRoot : JsString) (proofNodes : List JsString) (rawLeaf : Bool) :
    List (List UInt8) :=
  let node := proofNodes.getD 0 []
  (if rawLeaf then hashLeaf noble sha256 node else .ok node).toOption.toList.flatMap
    (pairMessages noble oldRoot)

/-- The messages of the reconstruction, on the side of the new root. -/
def reconstructMessages (proofNodes : List JsString) (m n index : ℕ) (includeOldRoot : Bool)
    (knownOldRoot : Option JsString) : List (List UInt8) :=
  if m < n ∧ 1 < n then
    if m = 1 ∧ n = 2 ∧ includeOldRoot then
      (hashLeaf noble sha256 (proofNodes.getD index [])).toOption.toList.flatMap
        (pairMessages noble (knownOldRoot.getD []))
    else if m ≤ splitPoint n then
      reconstructMessages proofNodes m (splitPoint n) index includeOldRoot knownOldRoot ++
        (reconstructConsistencyHashes noble sha256 m (splitPoint n) proofNodes index includeOldRoot
          knownOldRoot).toOption.toList.flatMap fun left =>
            pairMessages noble left.newHash (proofNodes.getD left.nextIndex [])
    else
      reconstructMessages proofNodes (m - splitPoint n) (n - splitPoint n) index false none ++
        (reconstructConsistencyHashes noble sha256 (m - splitPoint n : ℕ) (n - splitPoint n : ℕ)
          proofNodes index false none).toOption.toList.flatMap fun right =>
            pairMessages noble (proofNodes.getD right.nextIndex []) right.newHash
  else []
termination_by n
decreasing_by
  · exact splitPoint_lt (by omega)
  · have := splitPoint_pos n
    omega

/-- The messages the verifier hashes, branch by branch. -/
def consistencyMessages (oldRoot : JsString) (m n : ℕ) (proofNodes : List JsString) :
    List (List UInt8) :=
  if m = 1 ∧ n = 2 then singleNodeMessages noble sha256 oldRoot proofNodes true
  else if isPerfectTreeDoubling m n then singleNodeMessages noble sha256 oldRoot proofNodes false
  else reconstructMessages noble sha256 proofNodes m n 0 true (some oldRoot)

/-- The messages hashed to build the tree over `leaves`. -/
def mthMessages (leaves : List (Bytes 32)) : List (List UInt8) :=
  leaves.map leafMessage ++ (mthPairs (hashInternal sha256) (Bytes.fill 32 0)
    (leaves.map (ContractCore.hashLeaf sha256))).map (Function.uncurry internalMessage)

/-- For these sizes every accepted proof shows growth by appending, or a collision. -/
def AppendOnly (oldSize newSize : ℕ) : Prop :=
  ∀ (oldRoot newRoot : JsString) (proofNodes : List JsString) (leaves : List (Bytes 32)),
    verifyConsistencyProof noble sha256 oldRoot newRoot ⟨oldSize, newSize, proofNodes⟩ = .ok true →
    leaves.length = newSize → Reads noble newRoot (subtree sha256 leaves 0 newSize) →
      Reads noble oldRoot (subtree sha256 leaves 0 oldSize) ∨
      Exhibits sha256 (findCollision sha256
        (mthMessages sha256 leaves ++
          consistencyMessages noble sha256 oldRoot oldSize newSize proofNodes))

/-! ### Inverting a hash -/

variable {noble sha256}

theorem reads_text (value : Bytes 32) : Reads noble (text value) value :=
  hexToBytesStrict_spelling noble (text_spells value)

theorem reads_unique {hex : JsString} {a b : Bytes 32} (ha : Reads noble hex a)
    (hb : Reads noble hex b) : a = b :=
  Bytes.ext (Except.ok.inj (ha.symm.trans hb))

theorem hashPair_eq_ok {left right hash : JsString} : hashPair noble sha256 left right = .ok hash ↔
    ∃ a b, hexToBytesStrict noble left = .ok a ∧ hexToBytesStrict noble right = .ok b ∧
      hash = text (sha256 ([0x01] ++ a ++ b)) := by
  simp only [hashPair, bind_eq_ok, sha256Hex_eq]
  constructor
  · rintro ⟨a, ha, b, hb, hret⟩
    cases hret
    exact ⟨a, b, ha, hb, by simp⟩
  · rintro ⟨a, b, ha, hb, rfl⟩
    exact ⟨a, ha, b, hb, by simp [pure, Except.pure]⟩

theorem hashPair_reads {left right : JsString} {a b : Bytes 32} (ha : Reads noble left a)
    (hb : Reads noble right b) :
    hashPair noble sha256 left right = .ok (text (hashInternal sha256 a b)) :=
  hashPair_eq_ok.mpr ⟨_, _, ha, hb, rfl⟩

/-- A node of a tree has one preimage: whatever was joined to it is its two parts, once one of the joined
    strings is known to decode to 32 bytes. -/
theorem hashPair_preimage {Q : Set (List UInt8)} (hQ : Set.InjOn sha256 Q) {left right hash : JsString}
    {a b : Bytes 32} (hmem : ∀ m ∈ pairMessages noble left right, m ∈ Q)
    (htree : internalMessage a b ∈ Q) (hhash : hashPair noble sha256 left right = .ok hash)
    (hreads : Reads noble hash (hashInternal sha256 a b))
    (h32 : ∃ value, Reads noble left value ∨ Reads noble right value) :
    Reads noble left a ∧ Reads noble right b := by
  obtain ⟨x, y, hx, hy, rfl⟩ := hashPair_eq_ok.mp hhash
  have hdigest := reads_unique (reads_text _) hreads
  have hmessage : [0x01] ++ x ++ y = internalMessage a b :=
    hQ (hmem _ (by simp [pairMessages, hx, hy])) htree hdigest
  have hparts : x ++ y = a.toList ++ b.toList := (List.cons_inj_right _).mp hmessage
  have hlen : x.length = 32 := by
    have htotal := congrArg List.length hparts
    rw [List.length_append, List.length_append, a.length_eq, b.length_eq] at htotal
    obtain ⟨value, hvalue | hvalue⟩ := h32
    · rw [Except.ok.inj (hx.symm.trans hvalue), value.length_eq]
    · rw [Except.ok.inj (hy.symm.trans hvalue), value.length_eq] at htotal
      omega
  obtain ⟨rfl, rfl⟩ := List.append_inj hparts (by rw [hlen, a.length_eq])
  exact ⟨hx, hy⟩

/-! ### Soundness of the walk -/

section Sound

variable {Q : Set (List UInt8)} {l : List (Bytes 32)}

/-- Every pair the tree over these hashed leaves joins is among the messages. -/
abbrev Covers (sha256 : List UInt8 → Bytes 32) (Q : Set (List UInt8)) (l : List (Bytes 32)) : Prop :=
  ∀ p ∈ mthPairs (hashInternal sha256) (Bytes.fill 32 0) l, Function.uncurry internalMessage p ∈ Q

theorem Covers.parts (h : Covers sha256 Q l) (hlen : 1 < l.length) :
    internalMessage (mth (hashInternal sha256) (Bytes.fill 32 0) (l.take (splitPoint l.length)))
      (mth (hashInternal sha256) (Bytes.fill 32 0) (l.drop (splitPoint l.length))) ∈ Q ∧
    Covers sha256 Q (l.take (splitPoint l.length)) ∧ Covers sha256 Q (l.drop (splitPoint l.length)) := by
  unfold Covers at h
  rw [mthPairs_of_lt _ hlen] at h
  exact ⟨h _ List.mem_cons_self, fun p hp => h p (by simp [hp]), fun p hp => h p (by simp [hp])⟩

variable (hQ : Set.InjOn sha256 Q)
include hQ

/-- What was joined to the root of a tree is the roots of its two parts. -/
theorem root_preimage (hcovers : Covers sha256 Q l) (hlen : 1 < l.length) {left right hash : JsString}
    (hmem : ∀ m ∈ pairMessages noble left right, m ∈ Q)
    (hhash : hashPair noble sha256 left right = .ok hash)
    (hreads : Reads noble hash (mth (hashInternal sha256) (Bytes.fill 32 0) l))
    (h32 : ∃ value, Reads noble left value ∨ Reads noble right value) :
    Reads noble left (mth (hashInternal sha256) (Bytes.fill 32 0) (l.take (splitPoint l.length))) ∧
      Reads noble
        right (mth (hashInternal sha256) (Bytes.fill 32 0) (l.drop (splitPoint l.length))) := by
  rw [mth_of_lt _ hlen] at hreads
  exact hashPair_preimage hQ hmem (hcovers.parts hlen).1 hhash hreads h32

/-- SOUNDNESS of the walk: if the rebuilt new root is the root of a tree, the rebuilt old root is the
    root of its first `m` leaves. -/
theorem reconstruct_sound {nodes : List JsString}
    (hnodes : ∀ node ∈ nodes, ∃ value, Reads noble node value) (n : ℕ) :
    ∀ {m index : ℕ} {b : Bool} {known : Option JsString} {hashes : ReconstructedConsistencyHashes}
      {l : List (Bytes 32)}, 0 < m → m ≤ n → l.length = n → Covers sha256 Q l →
      (∀ msg ∈ reconstructMessages noble sha256 nodes m n index b known, msg ∈ Q) →
      reconstructConsistencyHashes noble sha256 m n nodes index b known = .ok hashes →
      Reads noble hashes.newHash (mth (hashInternal sha256) (Bytes.fill 32 0) l) →
      Reads noble hashes.oldHash (mth (hashInternal sha256) (Bytes.fill 32 0) (l.take m)) := by
  induction n using Nat.strong_induction_on with
  | _ n ih =>
    intro m index b known hashes l hpos hle hlen hcovers hmem h hnew
    have hk := splitPoint_pos n
    rcases reconstruct_cases noble sha256 hpos hle h with ⟨rfl, hsame, -⟩ | ⟨rfl, rfl, rfl, hknown, -,
      leaf, hashed, hleaf, -, hhashed,
      hpair⟩ | ⟨hlt, hleft, hraw, left, right, hrec, hright, -, hpair, hold, -⟩ | ⟨hlt, hgt, right,
        left, hrec, hleft, hold, hpair, -⟩
    · rw [hsame, List.take_of_length_le hlen.le]
      exact hnew
    · -- the raw leaf: its hash is the right part
      obtain ⟨value, hvalue⟩ : ∃ value, Reads noble hashed value := by
        simp only [hashLeaf, bind_eq_ok, sha256Hex_eq] at hhashed
        obtain ⟨bytes, -, hret⟩ := hhashed
        cases hret
        exact ⟨_, reads_text _⟩
      rw [reconstructMessages, if_pos (by omega), if_pos ⟨rfl, rfl, rfl⟩,
        List.getD_eq_getElem?_getD, hleaf, Option.getD_some, hhashed, hknown] at hmem
      have hparts :=
        root_preimage hQ hcovers (by omega) (fun m hm => hmem m (by simpa [Except.toOption] using hm))
        hpair hnew ⟨value, Or.inr hvalue⟩
      rw [hlen, splitPoint_two] at hparts
      exact hparts.1
    · -- the node is the right part, so the rest rebuilt the left part
      rw [reconstructMessages, if_pos (by omega), if_neg hraw, if_pos hleft, hrec] at hmem
      obtain ⟨value, hvalue⟩ := hnodes right (List.mem_of_getElem? hright)
      obtain ⟨hwhole, -⟩ := root_preimage hQ hcovers (by omega)
        (fun m hm => hmem m (List.mem_append_right _ (by simpa [Except.toOption, hright] using hm)))
        hpair hnew ⟨value, Or.inr hvalue⟩
      have hparts := (hcovers.parts (by omega)).2.1
      have htake :
          (l.take (splitPoint n)).take m = l.take m := by rw [List.take_take, Nat.min_eq_left hleft]
      rw [hlen] at hwhole hparts
      rw [hold, ← htake]
      exact ih _ (splitPoint_lt (by omega)) hpos hleft
        (by rw [List.length_take]; have := splitPoint_lt (n := n); omega)
        hparts (fun m hm => hmem m (List.mem_append_left _ hm)) hrec hwhole
    · -- the node is the left part of both trees
      rw [reconstructMessages, if_pos (by omega), if_neg (by omega), if_neg (by omega), hrec] at hmem
      obtain ⟨value, hvalue⟩ := hnodes left (List.mem_of_getElem? hleft)
      obtain ⟨hshared, hrest⟩ := root_preimage hQ hcovers (by omega)
        (fun m hm => hmem m (List.mem_append_right _ (by simpa [Except.toOption, hleft] using hm)))
        hpair hnew ⟨value, Or.inl hvalue⟩
      have hparts := (hcovers.parts (by omega)).2.2
      rw [hlen] at hshared hrest hparts
      have hwrong :=
        ih (n - splitPoint n) (by omega) (by omega) (by omega) (by rw [List.length_drop]; omega) hparts
        (fun m hm => hmem m (List.mem_append_left _ hm)) hrec hrest
      have hjoined :=
        mth_take (hashInternal sha256) (d := Bytes.fill 32 0) (l := l) (hlen ▸ hgt) (by omega)
      rw [hlen] at hjoined
      have htext := Except.ok.inj (hold.symm.trans (hashPair_reads hshared hwrong))
      rw [htext, hjoined]
      exact reads_text _

end Sound

/-- A checked node decodes to 32 bytes. -/
theorem valid_node_reads {nodes : List JsString} (h : hasValidConsistencyProofNodes nodes = true) :
    ∀ node ∈ nodes, ∃ value, Reads noble node value := by
  intro node hnode
  have hvalid := List.all_eq_true.mp h node hnode
  simp only [decide_eq_true_eq, List.all_eq_true] at hvalid
  obtain ⟨-, hlen, hdigits⟩ := hvalid
  have hlower : ∀ c ∈ toLowerCase node, isHexDigit c = true := by
    intro c hc
    obtain ⟨d, hd, rfl⟩ := List.mem_map.mp hc
    exact hdigits d hd
  have hcount : (toLowerCase node).length = 64 := by rw [toLowerCase, List.length_map, hlen]
  obtain ⟨bytes, hbytes⟩ := exists_hexText _ hlower (by omega)
  rw [hbytes, hexText_length] at hcount
  exact ⟨⟨bytes, by omega⟩, hexToBytesStrict_spelling noble ⟨js "", by simp, node, rfl, hbytes⟩⟩

/-- SOUNDNESS of the shortcut, for a tree that splits at the old size. -/
theorem single_node_sound {Q : Set (List UInt8)} (hQ : Set.InjOn sha256 Q)
    {l : List (Bytes 32)} {m n : ℕ} (hpos : 0 < m) (hlt : m < n) (hsplit : splitPoint n = m)
    (hlen : l.length = n) (hcovers : Covers sha256 Q l) {oldRoot newRoot : JsString}
    {nodes : List JsString} {rawLeaf : Bool} (hnodes : hasValidConsistencyProofNodes nodes = true)
    (hmem : ∀ msg ∈ singleNodeMessages noble sha256 oldRoot nodes rawLeaf, msg ∈ Q)
    (h : verifySingleNodeExtension noble sha256 oldRoot newRoot nodes rawLeaf = .ok true)
    (hnew : Reads noble newRoot (mth (hashInternal sha256) (Bytes.fill 32 0) l)) :
    Reads noble oldRoot (mth (hashInternal sha256) (Bytes.fill 32 0) (l.take m)) := by
  obtain ⟨node, right, rfl, -, hright, hpair⟩ := verifySingleNodeExtension_eq_true.mp h
  have h32 : ∃ value, Reads noble right value := by
    cases rawLeaf with
    | true =>
      simp only [if_true, hashLeaf, bind_eq_ok, sha256Hex_eq] at hright
      obtain ⟨bytes, -, hret⟩ := hright
      cases hret
      exact ⟨_, reads_text _⟩
    | false =>
      cases hright
      exact valid_node_reads hnodes node (by simp)
  obtain ⟨value, hvalue⟩ := h32
  have hparts := root_preimage hQ hcovers (by omega)
    (fun m hm => hmem m (by simpa [singleNodeMessages, hright, Except.toOption] using hm)) hpair hnew
    ⟨value, Or.inr hvalue⟩
  rw [hlen, hsplit] at hparts
  exact hparts.1

theorem subtree_take (leaves : List (Bytes 32)) (m : ℕ) : subtree sha256 leaves 0 m =
    mth (hashInternal sha256) (Bytes.fill 32 0)
      ((leaves.map (ContractCore.hashLeaf sha256)).take m) := by
  rw [subtree, hashedRange, List.drop_zero]

/-- SOUNDNESS: unless the shortcut misfires, an accepted proof shows growth by appending. -/
theorem appendOnly_of_not_misfires {m n : ℕ} (hpos : 0 < m) (hle : m ≤ n) (hfires : ¬ Misfires m n) :
    AppendOnly noble sha256 m n := by
  intro oldRoot newRoot nodes leaves hverify hlen hnew
  refine (injOn_or_collision sha256 _).imp_left fun hinj => ?_
  obtain ⟨Q, hQ, hcovers, hmem⟩ : ∃ Q, Set.InjOn sha256 Q ∧
      Covers sha256 Q (leaves.map (ContractCore.hashLeaf sha256)) ∧
      ∀ msg ∈ consistencyMessages noble sha256 oldRoot m n nodes, msg ∈ Q :=
    ⟨_, hinj, fun p hp => List.mem_append_left _ (List.mem_append_right _ (List.mem_map_of_mem hp)),
      fun msg hmsg => List.mem_append_right _ hmsg⟩
  have hhashed : (leaves.map (ContractCore.hashLeaf sha256)).length = n := by rw [List.length_map, hlen]
  simp only [verifyConsistencyProof] at hverify
  rcases hle.eq_or_lt with rfl | hlt
  · rw [if_pos rfl] at hverify
    simp only [pure, Except.pure, Except.ok.injEq, decide_eq_true_eq] at hverify
    rw [hverify.1]
    exact hnew
  have hwhole : leaves.map (ContractCore.hashLeaf sha256) =
      (leaves.map (ContractCore.hashLeaf sha256)).take n := (List.take_of_length_le hhashed.le).symm
  rw [subtree_take, ← hwhole] at hnew
  rw [subtree_take]
  rw [if_neg (by omega)] at hverify
  split at hverify
  · cases hverify
  split at hverify
  · cases hverify
  rename_i hvalid
  have hnodes := Decidable.not_not.mp hvalid
  unfold consistencyMessages at hmem
  by_cases hraw : m = 1 ∧ n = 2
  · rw [if_pos hraw] at hmem
    rw [if_pos (by omega)] at hverify
    obtain ⟨rfl, rfl⟩ := hraw
    exact single_node_sound hQ hpos hlt splitPoint_two hhashed hcovers hnodes hmem hverify hnew
  rw [if_neg hraw] at hmem
  rw [if_neg (by omega)] at hverify
  by_cases hdouble : isPerfectTreeDoubling m n = true
  · rw [if_pos hdouble] at hmem hverify
    have hpow : m.isPowerOfTwo := Decidable.not_not.mp fun hpow => hfires ⟨hdouble, hpow⟩
    have hsplit : splitPoint n = m := by
      simp only [isPerfectTreeDoubling, Bool.and_eq_true, decide_eq_true_eq] at hdouble
      rw [← splitPoint_double hpow]
      congr 1
      omega
    exact single_node_sound hQ hpos hlt hsplit hhashed hcovers hnodes hmem hverify hnew
  · rw [if_neg hdouble] at hmem hverify
    simp only [pure, Except.pure, Except.ok.injEq, verifyReconstructedConsistencyProof] at hverify
    split at hverify
    · rename_i hashes hrec
      simp only [decide_eq_true_eq] at hverify
      obtain ⟨-, hold, rfl⟩ := hverify
      rw [← hold]
      exact reconstruct_sound hQ (valid_node_reads hnodes) n hpos hle hhashed hcovers hmem hrec hnew
    · cases hverify

/-! ### Where the shortcut misfires -/

/-- Root of a tree of `s` equal leaves. -/
def uniformRoot (sha256 : List UInt8 → Bytes 32) (leaf : Bytes 32) (s : ℕ) : Bytes 32 :=
  mth (hashInternal sha256) (Bytes.fill 32 0) (List.replicate s (ContractCore.hashLeaf sha256 leaf))

theorem uniformRoot_split {leaf : Bytes 32} {s : ℕ} (h : 1 < s) : uniformRoot sha256 leaf s =
    hashInternal sha256 (uniformRoot sha256 leaf (splitPoint s))
      (uniformRoot sha256 leaf (s - splitPoint s)) :=
  mth_replicate _ h

theorem subtree_uniform {leaf : Bytes 32} {m n : ℕ} (h : m ≤ n) :
    subtree sha256 (List.replicate n leaf) 0 m = uniformRoot sha256 leaf m := by
  rw [subtree_take, List.map_replicate, List.take_replicate, Nat.min_eq_left h, uniformRoot]

/-- The message behind the root of `s` equal leaves. -/
def uniformMessage (sha256 : List UInt8 → Bytes 32) (leaf : Bytes 32) (s : ℕ) : List UInt8 :=
  if 1 < s then internalMessage (uniformRoot sha256 leaf (splitPoint s))
    (uniformRoot sha256 leaf (s - splitPoint s))
  else leafMessage leaf

theorem uniformMessage_digest {leaf : Bytes 32} {s : ℕ} (h : 0 < s) :
    sha256 (uniformMessage sha256 leaf s) = uniformRoot sha256 leaf s := by
  unfold uniformMessage
  split
  · exact (uniformRoot_split ‹_›).symm
  · obtain rfl : s = 1 := by omega
    rw [uniformRoot, mth_of_le _ (by simp)]
    rfl

/-- Building a tree of equal leaves hashes one message for each size met. -/
theorem mem_mthMessages_uniform {P : ℕ → Prop} {leaf : Bytes 32} {n : ℕ}
    (hP : ∀ s, 1 < s → P s → P (splitPoint s) ∧ P (s - splitPoint s)) (hone : P 1) (hn : P n)
    {msg : List UInt8} (h : msg ∈ mthMessages sha256 (List.replicate n leaf)) :
    ∃ s, 0 < s ∧ P s ∧ msg = uniformMessage sha256 leaf s := by
  rw [mthMessages, List.map_replicate, List.map_replicate, List.mem_append] at h
  rcases h with hleaf | hpair
  · exact ⟨1, Nat.one_pos, hone, (List.eq_of_mem_replicate hleaf).trans (if_neg (by omega)).symm⟩
  · obtain ⟨p, hp, rfl⟩ := List.mem_map.mp hpair
    obtain ⟨s, hs, hPs, rfl⟩ := mem_mthPairs_replicate _ hP n hn hp
    exact ⟨s, by omega, hPs, (if_pos hs).symm⟩

/-- An accepted proof that shows nothing: the leaves are equal, the old root is the root of the left
    part of the new tree, the only node is the root of its right part. The old root is not that of the
    prefix, and no two messages collide. -/
structure Refutes (noble : NobleUtils) (sha256 : List UInt8 → Bytes 32) (leaf : Bytes 32) (m n : ℕ) :
    Prop where
  accepted : verifyConsistencyProof noble sha256 (text (uniformRoot sha256 leaf (splitPoint n)))
    (text (uniformRoot sha256 leaf n)) ⟨m, n, [text (uniformRoot sha256 leaf (n - splitPoint n))]⟩ =
      .ok true
  new : Reads noble (text (uniformRoot sha256 leaf n)) (subtree sha256 (List.replicate n leaf) 0 n)
  old : ¬ Reads noble (text (uniformRoot sha256 leaf (splitPoint n)))
    (subtree sha256 (List.replicate n leaf) 0 m)
  free : ¬ Exhibits sha256 (findCollision sha256 (mthMessages sha256 (List.replicate n leaf) ++
    consistencyMessages noble sha256 (text (uniformRoot sha256 leaf (splitPoint n))) m n
      [text (uniformRoot sha256 leaf (n - splitPoint n))]))

theorem Refutes.not_appendOnly {leaf : Bytes 32} {m n : ℕ} (h : Refutes noble sha256 leaf m n) :
    ¬ AppendOnly noble sha256 m n := fun hsound =>
  (hsound _ _ _ (List.replicate n leaf) h.accepted List.length_replicate h.new).elim h.old h.free

/-- Where the shortcut misfires there is such a proof, for a hash that tells the sizes
    met on the way down apart. -/
theorem refutes_of_misfires {P : ℕ → Prop} (leaf : Bytes 32) {m n : ℕ} (hpos : 0 < m)
    (hfires : Misfires m n) (hP : ∀ s, 1 < s → P s → P (splitPoint s) ∧ P (s - splitPoint s))
    (hone : P 1) (hn : P n)
    (hinj : ∀ s s', P s → P s' → uniformRoot sha256 leaf s = uniformRoot sha256 leaf s' → s = s')
    (hwrong : uniformRoot sha256 leaf m ≠ uniformRoot sha256 leaf (splitPoint n)) :
    Refutes noble sha256 leaf m n := by
  obtain ⟨hdouble, hpow⟩ := hfires
  have hsize : n = m * 2 := by
    simp only [isPerfectTreeDoubling, Bool.and_eq_true, decide_eq_true_eq] at hdouble
    omega
  have hnotone : m ≠ 1 := fun h => hpow ⟨0, h⟩
  refine ⟨?_, ?_, ?_, not_exhibits_of_injOn fun x hx y hy hxy => ?_⟩
  · simp only [verifyConsistencyProof]
    rw [if_neg (by omega), if_neg (by simp), if_neg (by simp [hasValid_text]), if_neg (by omega),
      if_pos hdouble, verifySingleNodeExtension_eq_true]
    exact ⟨_, _, rfl, text_ne_nil _, rfl, by rw [hashPair_text, uniformRoot_split (by omega : 1 < n)]⟩
  · rw [subtree_uniform le_rfl]
    exact reads_text _
  · rw [subtree_uniform (by omega)]
    exact fun hreads => hwrong (reads_unique hreads (reads_text _))
  · -- every message is that of a size met on the way down
    have hmessages :
        ∀ msg ∈ mthMessages sha256 (List.replicate n leaf) ++ consistencyMessages noble sha256
        (text (uniformRoot sha256 leaf (splitPoint n))) m n
          [text (uniformRoot sha256 leaf (n - splitPoint n))],
        ∃ s, 0 < s ∧ P s ∧ msg = uniformMessage sha256 leaf s := by
      intro msg hmsg
      rcases List.mem_append.mp hmsg with htree | hwalk
      · exact mem_mthMessages_uniform hP hone hn htree
      · rw [consistencyMessages, if_neg (by omega), if_pos hdouble] at hwalk
        refine ⟨n, by omega, hn, ?_⟩
        have hleft : hexToBytesStrict noble (text (uniformRoot sha256 leaf (splitPoint n))) = _ :=
          reads_text _
        have hright : hexToBytesStrict noble (text (uniformRoot sha256 leaf (n - splitPoint n))) = _ :=
          reads_text _
        rw [uniformMessage, if_pos (by omega)]
        simpa [singleNodeMessages, Except.toOption, pairMessages, hleft, hright,
          internalMessage] using hwalk
    obtain ⟨s, hs, hPs, rfl⟩ := hmessages x hx
    obtain ⟨s', hs', hPs', rfl⟩ := hmessages y hy
    have hroots := (uniformMessage_digest hs).symm.trans (hxy.trans (uniformMessage_digest hs'))
    rw [hinj s s' hPs hPs' hroots]

/-! ### A hash that counts leaves -/

/-- The number as a 32-byte value. -/
def sizeNode (s : ℕ) : Bytes 32 := ⟨leBytes 32 s, leBytes_length 32 s⟩

theorem sizeNode_inj {s s' : ℕ} (hs : s < 2 ^ 64) (hs' : s' < 2 ^ 64) (h : sizeNode s = sizeNode s') :
    s = s' := by
  have hbound : 2 ^ 64 ≤ 256 ^ 32 := by decide
  exact leBytes_inj (hs.trans_le hbound) (hs'.trans_le hbound) (congrArg Bytes.toList h)

/-- The message joins two numbers. -/
def JoinsSizes (message : List UInt8) : Prop :=
  ∃ p : ℕ × ℕ, p.1 < 2 ^ 64 ∧ p.2 < 2 ^ 64 ∧ message = internalMessage (sizeNode p.1) (sizeNode p.2)

open Classical in
/-- A message that joins two numbers is hashed to their sum, every other message to one: the hash of a
    tree is the number of its leaves. -/
noncomputable def sizeHash (message : List UInt8) : Bytes 32 :=
  if h : JoinsSizes message then sizeNode (h.choose.1 + h.choose.2) else sizeNode 1

theorem hashInternal_sizeHash {a b : ℕ} (ha : a < 2 ^ 64) (hb : b < 2 ^ 64) :
    hashInternal sizeHash (sizeNode a) (sizeNode b) = sizeNode (a + b) := by
  have hjoins : JoinsSizes (internalMessage (sizeNode a) (sizeNode b)) := ⟨(a, b), ha, hb, rfl⟩
  obtain ⟨hleft, hright, hmessage⟩ := hjoins.choose_spec
  have hpair : (sizeNode a, sizeNode b) = (sizeNode hjoins.choose.1, sizeNode hjoins.choose.2) :=
    internalMessage_injective hmessage
  rw [Prod.mk.injEq] at hpair
  rw [hashInternal, sizeHash,
    dif_pos hjoins, ← sizeNode_inj ha hleft hpair.1, ← sizeNode_inj hb hright hpair.2]

theorem hashLeaf_sizeHash (leaf : Bytes 32) : ContractCore.hashLeaf sizeHash leaf = sizeNode 1 := by
  rw [ContractCore.hashLeaf, sizeHash, dif_neg]
  rintro ⟨p, -, -, hmessage⟩
  have hfirst := congrArg List.head? hmessage
  simp [leafMessage, internalMessage] at hfirst

theorem uniformRoot_sizeHash (leaf : Bytes 32) (s : ℕ) : 0 < s → s < 2 ^ 64 →
    uniformRoot sizeHash leaf s = sizeNode s := by
  induction s using Nat.strong_induction_on with
  | _ s ih =>
    intro hpos hs
    rcases Nat.lt_or_ge 1 s with h | h
    · have hk := splitPoint_pos s
      have hlt := splitPoint_lt h
      rw [uniformRoot_split h, ih _ hlt hk (by omega), ih _ (by omega) (by omega) (by omega),
        hashInternal_sizeHash (by omega) (by omega)]
      congr 1
      omega
    · obtain rfl : s = 1 := by omega
      rw [uniformRoot, mth_of_le _ (by simp)]
      exact hashLeaf_sizeHash leaf

theorem isPowerOfTwo_iff {n : ℕ} (hpos : 0 < n) :
    isPowerOfTwo n = true ↔ n % 4294967296 = 0 ∨ (n % 4294967296).isPowerOfTwo := by
  rw [isPowerOfTwo, decide_eq_true_eq, bitAnd_pred_eq_zero hpos]
  exact and_iff_right (by omega)

/-- The shortcut misfires when the old size doubles, its low 32 bits are zero or a power of two, and it
    is itself no power of two. -/
theorem misfires_iff {m n : ℕ} (hpos : 0 < m) : Misfires m n ↔
    n = 2 * m ∧ (m % 4294967296 = 0 ∨ (m % 4294967296).isPowerOfTwo) ∧ ¬ m.isPowerOfTwo := by
  have hdoubled : (m % 4294967296 = 0 ∨ (m % 4294967296).isPowerOfTwo) →
      (2 * m) % 4294967296 = 0 ∨ ((2 * m) % 4294967296).isPowerOfTwo := by
    rintro (hzero | ⟨e, he⟩)
    · left; omega
    · by_cases htop : 2 ^ (e + 1) = 4294967296
      · left; rw [Nat.pow_succ] at htop; omega
      · right
        have hlt : 2 ^ e < 2 ^ 32 := by rw [← he]; exact Nat.mod_lt _ (by decide)
        have hle : 2 ^ (e + 1) ≤ 2 ^ 32 :=
          Nat.pow_le_pow_right (by decide) ((Nat.pow_lt_pow_iff_right (by decide)).mp hlt)
        refine ⟨e + 1, ?_⟩
        rw [Nat.pow_succ] at hle htop ⊢
        omega
  simp only [Misfires, isPerfectTreeDoubling, Bool.and_eq_true, decide_eq_true_eq]
  constructor
  · rintro ⟨⟨⟨hold, -⟩, hsize⟩, hpow⟩
    exact ⟨by omega, (isPowerOfTwo_iff hpos).mp hold, hpow⟩
  · rintro ⟨rfl, hlow, hpow⟩
    exact ⟨⟨⟨(isPowerOfTwo_iff hpos).mpr hlow,
      (isPowerOfTwo_iff (by omega)).mpr (hdoubled hlow)⟩, by omega⟩, hpow⟩

variable (noble)

/-- APPEND-ONLY: for sizes in the safe integers, every accepted proof shows growth by appending,
    whatever the hash, exactly when the sizes are none at which the shortcut misfires. -/
theorem append_only_iff (oldSize newSize : ℕ) (hpos : 1 ≤ oldSize) (hle : oldSize ≤ newSize)
    (hsafe : newSize ≤ Num.maxSafeInteger) :
    (∀ sha256, AppendOnly noble sha256 oldSize newSize) ↔
      ¬ (newSize = 2 * oldSize ∧ (oldSize % 4294967296 = 0 ∨ (oldSize % 4294967296).isPowerOfTwo) ∧
        ¬ oldSize.isPowerOfTwo) := by
  rw [← misfires_iff hpos]
  refine ⟨fun hsound hfires => ?_, fun hfires sha256 => appendOnly_of_not_misfires hpos hle hfires⟩
  have hsmall : newSize < 2 ^ 64 := hsafe.trans_lt (by decide)
  have hroot : ∀ s, 0 < s ∧ s ≤ newSize → uniformRoot sizeHash (Bytes.fill 32 0) s = sizeNode s :=
    fun s hs => uniformRoot_sizeHash _ s hs.1 (by omega)
  have hlong : 1 < newSize := by
    have := ((misfires_iff hpos).mp hfires).1
    omega
  have hlt := splitPoint_lt hlong
  have hk := splitPoint_pos newSize
  refine (refutes_of_misfires (P := fun s => 0 < s ∧ s ≤ newSize) (Bytes.fill 32 0) hpos hfires ?_
    ⟨by omega, by omega⟩ ⟨by omega, le_rfl⟩ ?_ ?_).not_appendOnly (hsound sizeHash)
  · intro s hs hrange
    have hlt := splitPoint_lt hs
    have hk := splitPoint_pos s
    exact ⟨⟨hk, by omega⟩, by omega, by omega⟩
  · intro s s' hs hs' hsame
    rw [hroot s hs, hroot s' hs'] at hsame
    exact sizeNode_inj (by omega) (by omega) hsame
  · rw [hroot _ ⟨hpos, hle⟩, hroot _ ⟨hk, hlt.le⟩]
    intro hsame
    have hsplit : oldSize = splitPoint newSize := sizeNode_inj (by omega) (by omega) hsame
    exact hfires.2 ⟨_, hsplit⟩

/-- Sizes at which it holds: three leaves that become five. -/
theorem append_only_three_five : AppendOnly NobleUtils.reference Sha256.digest 3 5 :=
  (append_only_iff NobleUtils.reference 3 5 (by decide) (by decide) (by decide)).mpr
    (by decide) Sha256.digest

/-! ### The shortcut at three times `2 ^ 32` -/

/-- Root of a perfect tree of `2 ^ k` zero leaves. -/
def perfectRoot : ℕ → Bytes 32
  | 0 => ContractCore.hashLeaf Sha256.digest (Bytes.fill 32 0)
  | k + 1 => hashInternal Sha256.digest (perfectRoot k) (perfectRoot k)

theorem uniformRoot_perfect (k : ℕ) :
    uniformRoot Sha256.digest (Bytes.fill 32 0) (2 ^ k) = perfectRoot k := by
  induction k with
  | zero =>
    rw [uniformRoot, mth_of_le _ (by simp)]
    rfl
  | succ k ih =>
    have hpos := Nat.two_pow_pos k
    have hsplit : splitPoint (2 ^ (k + 1)) = 2 ^ k :=
      splitPoint_unique (by rw [Nat.pow_succ]; omega) le_rfl
    have hrest : 2 ^ (k + 1) - 2 ^ k = 2 ^ k := by rw [Nat.pow_succ]; omega
    rw [uniformRoot_split (by rw [Nat.pow_succ]; omega), hsplit, hrest, ih, perfectRoot]

/-- The sizes met on the way down from `6 * 2 ^ 32`: powers of two. -/
def MetBelow (s : ℕ) : Prop := s = 6 * 2 ^ 32 ∨ ∃ k < 35, s = 2 ^ k

theorem metBelow_split (s : ℕ) (hs : 1 < s) (h : MetBelow s) :
    MetBelow (splitPoint s) ∧ MetBelow (s - splitPoint s) := by
  rcases h with rfl | ⟨k, hk, rfl⟩
  · have hsplit : splitPoint (6 * 2 ^ 32) = 2 ^ 34 := splitPoint_unique (by decide) (by decide)
    rw [hsplit]
    exact ⟨Or.inr ⟨34, by decide, rfl⟩, Or.inr ⟨33, by decide, rfl⟩⟩
  · obtain ⟨k, rfl⟩ : ∃ j, k = j + 1 := Nat.exists_eq_succ_of_ne_zero (by rintro rfl; simp at hs)
    have hpos := Nat.two_pow_pos k
    have hsplit : splitPoint (2 ^ (k + 1)) = 2 ^ k :=
      splitPoint_unique (by rw [Nat.pow_succ]; omega) le_rfl
    have hrest : 2 ^ (k + 1) - 2 ^ k = 2 ^ k := by rw [Nat.pow_succ]; omega
    rw [hsplit, hrest]
    exact ⟨Or.inr ⟨k, by omega, rfl⟩, Or.inr ⟨k, by omega, rfl⟩⟩

/-- Thirty-seven different digests: the perfect trees, the new tree and the true prefix. -/
theorem perfectRoots_nodup : ((List.range 35).map perfectRoot ++
    [hashInternal Sha256.digest (perfectRoot 34) (perfectRoot 33),
      hashInternal Sha256.digest (perfectRoot 33) (perfectRoot 32)]).Nodup := by decide +kernel

theorem uniformRoot_six : uniformRoot Sha256.digest (Bytes.fill 32 0) (6 * 2 ^ 32) =
    hashInternal Sha256.digest (perfectRoot 34) (perfectRoot 33) := by
  have hsplit : splitPoint (6 * 2 ^ 32) = 2 ^ 34 := splitPoint_unique (by decide) (by decide)
  have hrest : 6 * 2 ^ 32 - 2 ^ 34 = 2 ^ 33 := rfl
  rw [uniformRoot_split (by decide), hsplit, hrest, uniformRoot_perfect, uniformRoot_perfect]

theorem uniformRoot_three : uniformRoot Sha256.digest (Bytes.fill 32 0) (3 * 2 ^ 32) =
    hashInternal Sha256.digest (perfectRoot 33) (perfectRoot 32) := by
  have hsplit : splitPoint (3 * 2 ^ 32) = 2 ^ 33 := splitPoint_unique (by decide) (by decide)
  have hrest : 3 * 2 ^ 32 - 2 ^ 33 = 2 ^ 32 := rfl
  rw [uniformRoot_split (by decide), hsplit, hrest, uniformRoot_perfect, uniformRoot_perfect]

/-- With SHA-256 itself: an accepted proof from `3 * 2 ^ 32` to `6 * 2 ^ 32` zero leaves whose old root
    is the root of the first `2 ^ 34` of them. -/
theorem doubling_shortcut_accepts_wrong_root :
    Refutes NobleUtils.reference Sha256.digest (Bytes.fill 32 0) (3 * 2 ^ 32) (6 * 2 ^ 32) := by
  obtain ⟨hperfect, -, hdisjoint⟩ := List.nodup_append.mp perfectRoots_nodup
  have hnew : ∀ k < 35, perfectRoot k ≠ hashInternal Sha256.digest (perfectRoot 34) (perfectRoot 33) :=
    fun k hk =>
    hdisjoint _ (List.mem_map_of_mem (List.mem_range.mpr hk)) _ (by simp)
  refine refutes_of_misfires (P := MetBelow) _ (by decide) ⟨by decide, by decide⟩ metBelow_split
    (Or.inr ⟨0, by decide, rfl⟩) (Or.inl rfl) ?_ ?_
  · rintro s s' (rfl | ⟨k, hk, rfl⟩) (rfl | ⟨k', hk', rfl⟩) hsame
    · rfl
    · rw [uniformRoot_six, uniformRoot_perfect] at hsame
      exact absurd hsame.symm (hnew k' hk')
    · rw [uniformRoot_six, uniformRoot_perfect] at hsame
      exact absurd hsame (hnew k hk)
    · rw [uniformRoot_perfect, uniformRoot_perfect] at hsame
      rw [List.inj_on_of_nodup_map hperfect (List.mem_range.mpr hk) (List.mem_range.mpr hk') hsame]
  · have hsplit : splitPoint (6 * 2 ^ 32) = 2 ^ 34 := splitPoint_unique (by decide) (by decide)
    rw [uniformRoot_three, hsplit, uniformRoot_perfect]
    exact (hdisjoint _ (List.mem_map_of_mem (List.mem_range.mpr (by decide : 34 < 35))) _ (by simp)).symm

end StarkBallot.Merkle
