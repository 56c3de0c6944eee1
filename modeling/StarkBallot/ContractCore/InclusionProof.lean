import StarkBallot.ContractCore.Domain
import StarkBallot.Schemes.Framing

/-! Hashing and inclusion proofs of `contract-core` (`sha256.rs`, `inclusion_proof.rs`). SHA-256 is a
    parameter: nothing is assumed about it, and every message it is applied to has a name
    (`commitmentMessage`, `leafMessage`, `internalMessage`), so that a collision can be pointed at.

    The Rust verifier checks the path length, then folds the path level by level with two `expect`s.
    `verifyInclusionProofRfc6962_eq` says what that amounts to: the walk of `Schemes.Levels` from the
    leaf hash uses the whole path and ends in the root. In particular it never panics. -/

namespace StarkBallot.ContractCore
open Schemes

variable (sha256 : List UInt8 → Bytes 32)

def voteCommitmentDomainTag : List UInt8 := ascii "stark-ballot:commit|v1.0"

def leafDomainTag : List UInt8 := ascii "stark-ballot:leaf|v1"

def commitmentMessage (electionId : Bytes 16) (choice : UInt8) (random : Bytes 32) : List UInt8 :=
  voteCommitmentDomainTag ++ electionId.toList ++ [choice] ++ random.toList

def leafMessage (data : Bytes 32) : List UInt8 := [0x00] ++ leafDomainTag ++ data.toList

def internalMessage (left right : Bytes 32) : List UInt8 := [0x01] ++ left.toList ++ right.toList

/-- Vote commitment with domain separation. -/
def computeCommitment (electionId : Bytes 16) (choice : UInt8) (random : Bytes 32) : Bytes 32 :=
  sha256 (commitmentMessage electionId choice random)

def hashLeaf (data : Bytes 32) : Bytes 32 := sha256 (leafMessage data)

def hashInternal (left right : Bytes 32) : Bytes 32 := sha256 (internalMessage left right)

/-! ### Roots -/

/-- Root of already-hashed leaves: adjacent nodes are paired until one is left. -/
def computeMerkleRoot (leaves : List (Bytes 32)) : Bytes 32 :=
  if leaves.isEmpty then Bytes.fill 32 0
  else if leaves.length = 1 then leaves.headD (Bytes.fill 32 0)
  else levelsRoot (hashInternal sha256) (Bytes.fill 32 0) leaves

theorem computeMerkleRoot_eq (leaves : List (Bytes 32)) :
    computeMerkleRoot sha256 leaves = levelsRoot (hashInternal sha256) (Bytes.fill 32 0) leaves := by
  match leaves with
  | [] => rw [levelsRoot_of_le _ (by simp)]; rfl
  | [a] => rw [levelsRoot_of_le _ (by simp)]; rfl
  | _ :: _ :: _ => simp [computeMerkleRoot]

/-! ### Inclusion proofs -/

/-- The level loop of `fold_validated_inclusion_proof`. -/
def foldLoop (index levelSize : ℕ) (currentHash : Bytes 32) (pathIter : List (Bytes 32)) :
    RustM (Bytes 32) :=
  if 1 < levelSize then
    if index % 2 = 1 then
      match pathIter with
      | [] => .error (.panic "validated RFC6962 audit path should contain left sibling")
      | sibling :: rest =>
        foldLoop (index / 2) ((levelSize + 1) / 2) (hashInternal sha256 sibling currentHash) rest
    else if index + 1 = levelSize then
      -- no sibling on this level: the current hash is promoted unchanged
      foldLoop (index / 2) ((levelSize + 1) / 2) currentHash pathIter
    else
      match pathIter with
      | [] => .error (.panic "validated RFC6962 audit path should contain right sibling")
      | sibling :: rest =>
        foldLoop (index / 2) ((levelSize + 1) / 2) (hashInternal sha256 currentHash sibling) rest
  else .ok currentHash
termination_by levelSize

def foldValidatedInclusionProof (leafData : Bytes 32) (auditPath : ValidatedAuditPath) :
    RustM (Bytes 32) :=
  foldLoop sha256 auditPath.leafIndex.get.toNat auditPath.treeSize.get.toNat (hashLeaf sha256 leafData)
    auditPath.nodes

def verifyValidatedInclusionProofRfc6962 (leafData : Bytes 32) (auditPath : ValidatedAuditPath)
    (treeRoot : Bytes 32) : RustM Bool := do
  let root ← foldValidatedInclusionProof sha256 leafData auditPath
  return root = treeRoot

/-- Verify an inclusion proof with CT semantics. -/
def verifyInclusionProofRfc6962 (leafData : Bytes 32) (leafIndex : UInt32) (auditPath : List (Bytes 32))
    (treeRoot : Bytes 32) (treeSize : UInt32) : RustM Bool :=
  match TreeSize.new treeSize with
  | .error _ => .ok false
  | .ok treeSize =>
    match BulletinIndex.new leafIndex treeSize with
    | .error _ => .ok false
    | .ok leafIndex =>
      match ValidatedAuditPath.validate treeSize leafIndex auditPath with
      | .error _ => .ok false
      | .ok path => verifyValidatedInclusionProofRfc6962 sha256 leafData path treeRoot

/-- What verification means: the walk from the leaf hash takes exactly the path and ends in the root. -/
def Included (leafData : Bytes 32) (leafIndex : UInt32) (auditPath : List (Bytes 32))
    (treeRoot : Bytes 32) (treeSize : UInt32) : Prop :=
  leafIndex.toNat < treeSize.toNat ∧ climb (hashInternal sha256) leafIndex.toNat treeSize.toNat
    (hashLeaf sha256 leafData) auditPath = some (treeRoot, [])

instance (leafData : Bytes 32) (leafIndex : UInt32) (auditPath : List (Bytes 32)) (treeRoot : Bytes 32)
    (treeSize : UInt32) : Decidable (Included sha256 leafData leafIndex auditPath treeRoot treeSize) :=
  inferInstanceAs (Decidable (_ ∧ _))

/-- The fold returns what the walk reaches. -/
theorem foldLoop_of_climb (index levelSize : ℕ) : ∀ {cur r : Bytes 32} {path rest : List (Bytes 32)},
    climb (hashInternal sha256) index levelSize cur path = some (r, rest) →
      foldLoop sha256 index levelSize cur path = .ok r := by
  refine climb_induction
    (motive := fun index levelSize => ∀ {cur r : Bytes 32} {path rest : List (Bytes 32)},
    climb (hashInternal sha256) index levelSize cur path = some (r, rest) →
      foldLoop sha256 index levelSize cur path = .ok r) ?_ ?_ levelSize index
  · intro index levelSize hsize cur r path rest h
    rw [climb_done _ hsize, Option.some.injEq, Prod.mk.injEq] at h
    rw [foldLoop.eq_def, if_neg (by omega), h.1]
  · intro index levelSize hsize ih cur r path rest h
    rw [foldLoop.eq_def, if_pos hsize]
    by_cases hp : Promoted index levelSize
    · rw [climb_promoted _ hsize hp] at h
      rw [if_neg (by omega), if_pos hp.2, ih h]
    · cases path with
      | nil => rw [climb_nil _ hsize hp] at h; cases h
      | cons s path =>
        rw [climb_cons _ hsize hp] at h
        rcases Nat.mod_two_eq_zero_or_one index with heven | hodd
        · rw [siblingPair, if_neg (by omega)] at h
          rw [if_neg (by omega), if_neg fun hlast => hp ⟨heven, hlast⟩]
          exact ih h
        · rw [siblingPair, if_pos hodd] at h
          rw [if_pos hodd]
          exact ih h

/-- A validated path never runs out: both `expect`s of the fold are unreachable. -/
theorem foldValidatedInclusionProof_ok (leafData : Bytes 32) (path : ValidatedAuditPath) :
    ∃ r, foldValidatedInclusionProof sha256 leafData path = .ok r ∧
      climb (hashInternal sha256) path.leafIndex.get.toNat path.treeSize.get.toNat
        (hashLeaf sha256 leafData) path.nodes = some (r, []) := by
  have hlen := path.length_eq
  rw [expectedRfc6962AuditPathLen_eq] at hlen
  obtain ⟨r, rest, hwalk⟩ :=
    climb_isSome (hashInternal sha256) path.leafIndex.get.toNat path.treeSize.get.toNat
    (hashLeaf sha256 leafData) hlen.ge
  have hrest : rest = [] := by
    have := climb_length _ _ _ hwalk
    exact List.length_eq_zero_iff.mp (by omega)
  subst hrest
  exact ⟨r, foldLoop_of_climb sha256 _ _ hwalk, hwalk⟩

/-- SPEC: verification returns, and returns `true` exactly when the leaf is `Included`. -/
theorem verifyInclusionProofRfc6962_eq (leafData : Bytes 32) (leafIndex : UInt32)
    (auditPath : List (Bytes 32)) (treeRoot : Bytes 32) (treeSize : UInt32) :
    verifyInclusionProofRfc6962 sha256 leafData leafIndex auditPath treeRoot treeSize =
      .ok (decide (Included sha256 leafData leafIndex auditPath treeRoot treeSize)) := by
  unfold verifyInclusionProofRfc6962 Included
  by_cases hzero : treeSize = 0
  · subst hzero
    simp [TreeSize.new]
  by_cases hlt : leafIndex < treeSize
  · have hlt' := UInt32.lt_iff_toNat_lt.mp hlt
    simp only [TreeSize.new, hzero, ↓reduceDIte, BulletinIndex.new, hlt, hlt', true_and]
    unfold ValidatedAuditPath.validate
    split
    · rename_i path hpath
      split at hpath
      · cases hpath
      · rename_i hlen
        cases hpath
        rw [expectedRfc6962AuditPathLen_eq] at hlen
        have hnone :
            climb (hashInternal sha256) leafIndex.toNat treeSize.toNat (hashLeaf sha256 leafData)
            auditPath ≠ some (treeRoot, []) := fun hwalk => hlen (by
          simpa using climb_length _ _ _ hwalk)
        simp [hnone]
    · rename_i path hpath
      split at hpath
      · cases hpath
        obtain ⟨r, hfold, hwalk⟩ := foldValidatedInclusionProof_ok sha256 leafData
          ⟨⟨treeSize, hzero⟩, ⟨leafIndex, hlt⟩, auditPath, ‹_›⟩
        simp only [verifyValidatedInclusionProofRfc6962, hfold]
        simp only at hwalk
        simp [hwalk]
      · cases hpath
  · have hlt' : ¬ leafIndex.toNat < treeSize.toNat := fun h => hlt (UInt32.lt_iff_toNat_lt.mpr h)
    simp [TreeSize.new, hzero, BulletinIndex.new, hlt, hlt']

/-! ### Binding -/

theorem leafMessage_injective : Function.Injective leafMessage := fun _ _ h =>
  Bytes.ext (List.append_cancel_left h)

theorem internalMessage_injective : Function.Injective (Function.uncurry internalMessage) := by
  rintro ⟨a, b⟩ ⟨a', b'⟩ h
  have hab := List.append_inj (List.cons_inj_right _ |>.mp h) (by simp)
  exact Prod.ext (Bytes.ext hab.1) (Bytes.ext hab.2)

theorem commitmentMessage_injective {electionId electionId' : Bytes 16} {choice choice' : UInt8}
    {random random' : Bytes 32}
    (h : commitmentMessage electionId choice random = commitmentMessage electionId' choice' random') :
    electionId = electionId' ∧ choice = choice' ∧ random = random' := by
  simp only [commitmentMessage, List.append_assoc] at h
  obtain ⟨hid, hrest⟩ := List.append_inj (List.append_cancel_left h) (by simp)
  obtain ⟨hchoice, hrandom⟩ := List.append_inj hrest (by simp)
  exact ⟨Bytes.ext hid, List.singleton_inj.mp hchoice, Bytes.ext hrandom⟩

/-- The messages hashed to build the tree over `leaves`. -/
def treeMessages (leaves : List (Bytes 32)) : List (List UInt8) :=
  leaves.map leafMessage ++
    (levelsPairs (hashInternal sha256) (leaves.map (hashLeaf sha256))).map
      (Function.uncurry internalMessage)

/-- The messages hashed to walk one audit path. -/
def pathMessages (leafData : Bytes 32) (leafIndex : UInt32) (auditPath : List (Bytes 32))
    (treeSize : UInt32) :
    List (List UInt8) :=
  leafMessage leafData :: (climbPairs (hashInternal sha256) leafIndex.toNat treeSize.toNat
    (hashLeaf sha256 leafData) auditPath).map (Function.uncurry internalMessage)

variable {sha256} {Q : Set (List UInt8)}

theorem hashInternal_injOn (hQ : Set.InjOn sha256 Q) :
    Set.InjOn (Function.uncurry (hashInternal sha256)) {p | Function.uncurry internalMessage p ∈ Q} :=
  fun _ hp _ hp' h => internalMessage_injective (hQ hp hp' h)

theorem mem_of_levelsPairs {leaves : List (Bytes 32)} (hmem : ∀ m ∈ treeMessages sha256 leaves, m ∈ Q) :
    ∀ p ∈ levelsPairs (hashInternal sha256) (leaves.map (hashLeaf sha256)),
      p ∈ {p | Function.uncurry internalMessage p ∈ Q} :=
  fun p hp => hmem _ (List.mem_append_right _ (List.mem_map.mpr ⟨p, hp, rfl⟩))

theorem mem_of_climbPairs {leafData : Bytes 32} {leafIndex treeSize : UInt32}
    {auditPath : List (Bytes 32)}
    (hmem : ∀ m ∈ pathMessages sha256 leafData leafIndex auditPath treeSize, m ∈ Q) :
    ∀ p ∈ climbPairs (hashInternal sha256) leafIndex.toNat treeSize.toNat
      (hashLeaf sha256 leafData) auditPath, p ∈ {p | Function.uncurry internalMessage p ∈ Q} :=
  fun p hp => hmem _ (List.mem_cons_of_mem _ (List.mem_map.mpr ⟨p, hp, rfl⟩))

/-- BINDING: one root, one list of leaves of a given length. -/
theorem computeMerkleRoot_inj (hQ : Set.InjOn sha256 Q) {leaves leaves' : List (Bytes 32)}
    (hlen : leaves.length = leaves'.length) (hmem : ∀ m ∈ treeMessages sha256 leaves, m ∈ Q)
    (hmem' : ∀ m ∈ treeMessages sha256 leaves', m ∈ Q)
    (h : computeMerkleRoot sha256 (leaves.map (hashLeaf sha256)) =
      computeMerkleRoot sha256 (leaves'.map (hashLeaf sha256))) : leaves = leaves' := by
  simp only [computeMerkleRoot_eq] at h
  have hhashes := levelsRoot_inj (hashInternal_injOn hQ) (by simpa using hlen) (mem_of_levelsPairs hmem)
    (mem_of_levelsPairs hmem') h
  refine List.ext_getElem hlen fun i hi hi' => ?_
  have hi : (leaves.map (hashLeaf sha256))[i]? = (leaves'.map (hashLeaf sha256))[i]? := by rw [hhashes]
  rw [List.getElem?_eq_getElem (by simpa), List.getElem?_eq_getElem (by simpa), List.getElem_map,
    List.getElem_map, Option.some.injEq] at hi
  refine leafMessage_injective (hQ (hmem _ ?_) (hmem' _ ?_) hi) <;>
    exact List.mem_append_left _ (List.mem_map_of_mem (List.getElem_mem _))

/-- BINDING: a leaf included under the root of a tree is that tree's leaf at the index. -/
theorem included_sound (hQ : Set.InjOn sha256 Q) {leaves : List (Bytes 32)} {leafData : Bytes 32}
    {leafIndex treeSize : UInt32} {auditPath : List (Bytes 32)} (hlen : leaves.length = treeSize.toNat)
    (hmem : ∀ m ∈ treeMessages sha256 leaves, m ∈ Q)
    (hpath : ∀ m ∈ pathMessages sha256 leafData leafIndex auditPath treeSize, m ∈ Q)
    (h : Included sha256 leafData leafIndex auditPath
      (computeMerkleRoot sha256 (leaves.map (hashLeaf sha256))) treeSize) :
    leaves[leafIndex.toNat]? = some leafData := by
  obtain ⟨hlt, hwalk⟩ := h
  rw [computeMerkleRoot_eq] at hwalk
  have hnode :=
    climb_sound (hashInternal_injOn hQ) _ _ (by simpa using hlen) hlt (mem_of_climbPairs hpath)
    (mem_of_levelsPairs hmem) hwalk
  rw [List.getElem?_map, Option.map_eq_some_iff] at hnode
  obtain ⟨leaf, hleaf, hhash⟩ := hnode
  have hleafMem :=
    hmem _ (List.mem_append_left _ (List.mem_map.mpr ⟨leaf, List.mem_of_getElem? hleaf, rfl⟩))
  rw [hleaf, leafMessage_injective (hQ hleafMem (hpath _ List.mem_cons_self) hhash)]

/-- BINDING: at one index of one root there is one included leaf. -/
theorem included_unique (hQ : Set.InjOn sha256 Q) {leafData leafData' treeRoot : Bytes 32}
    {leafIndex treeSize : UInt32} {auditPath auditPath' : List (Bytes 32)}
    (hpath : ∀ m ∈ pathMessages sha256 leafData leafIndex auditPath treeSize, m ∈ Q)
    (hpath' : ∀ m ∈ pathMessages sha256 leafData' leafIndex auditPath' treeSize, m ∈ Q)
    (h : Included sha256 leafData leafIndex auditPath treeRoot treeSize)
    (h' : Included sha256 leafData' leafIndex auditPath' treeRoot treeSize) : leafData = leafData' :=
  leafMessage_injective (hQ (hpath _ List.mem_cons_self) (hpath' _ List.mem_cons_self)
    (climb_inj (hashInternal_injOn hQ) _ _ (mem_of_climbPairs hpath) (mem_of_climbPairs hpath')
      h.2 h'.2).1)

end StarkBallot.ContractCore
