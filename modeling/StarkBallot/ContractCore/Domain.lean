import StarkBallot.Runtime.Rust
import StarkBallot.Schemes.Levels

/-! The validated domain values of `domain.rs`. A newtype whose constructor checks something is a
    structure that carries what was checked; a newtype that only renames bytes (`VoteCommitment`,
    `SthDigest`, ...) is the bytes themselves. -/

namespace StarkBallot.ContractCore
open Schemes

inductive DomainValidationError where
  | emptyTree
  | nonPositiveTimestamp
  | indexOutOfRange (index treeSize : UInt32)
  | bitmapIndexOutOfRange (index bitLen : ℕ)
  | auditPathLengthMismatch (actual expected : ℕ)
  | invalidByteLength (field : String) (actual expected : ℕ)
  | zeroHash (field : String)
  | countOverflow (field : String)

/-- A bulletin root that is not all zeros. -/
structure BulletinRoot where
  get : Bytes 32
  nonzero : ¬ get.toList.all (· == 0)

structure TreeSize where
  get : UInt32
  ne_zero : get ≠ 0

structure UnixTimestampMillis where
  get : UInt64
  ne_zero : get ≠ 0

/-- An index of a bulletin of the given size. -/
structure BulletinIndex (treeSize : TreeSize) where
  get : UInt32
  lt : get < treeSize.get

def BulletinRoot.new (value : Bytes 32) : Except DomainValidationError BulletinRoot :=
  if h : value.toList.all (· == 0) then .error (.zeroHash "BulletinRoot") else .ok ⟨value, h⟩

def TreeSize.new (value : UInt32) : Except DomainValidationError TreeSize :=
  if h : value = 0 then .error .emptyTree else .ok ⟨value, h⟩

def UnixTimestampMillis.new (value : UInt64) : Except DomainValidationError UnixTimestampMillis :=
  if h : value = 0 then .error .nonPositiveTimestamp else .ok ⟨value, h⟩

def BulletinIndex.new (value : UInt32) (treeSize : TreeSize) :
    Except DomainValidationError (BulletinIndex treeSize) :=
  if h : value < treeSize.get then .ok ⟨value, h⟩ else .error (.indexOutOfRange value treeSize.get)

/-- A record count that fits the journal's `u32`. -/
def VoteCount.new (value : ℕ) : Except DomainValidationError ℕ :=
  if value ≤ u32Max then .ok value else .error (.countOverflow "VoteCount")

/-- An index of a bitmap of the given length. -/
structure BitmapBitIndex (bitLen : ℕ) where
  get : ℕ
  lt : get < bitLen

def BitmapBitIndex.new (value bitLen : ℕ) : Except DomainValidationError (BitmapBitIndex bitLen) :=
  if h : value < bitLen then .ok ⟨value, h⟩ else .error (.bitmapIndexOutOfRange value bitLen)

/-- `BitmapLeafIndex::from_bit_index`. -/
def BitmapBitIndex.leafIndex {bitLen : ℕ} (bitIndex : BitmapBitIndex bitLen) : ℕ := bitIndex.get / 256

theorem BulletinRoot.new_get {value : Bytes 32} {root : BulletinRoot}
    (h : BulletinRoot.new value = .ok root) :
    root.get = value := by
  unfold BulletinRoot.new at h
  split at h <;> cases h
  rfl

theorem TreeSize.new_get {value : UInt32} {treeSize : TreeSize} (h : TreeSize.new value = .ok treeSize) :
    treeSize.get = value := by
  unfold TreeSize.new at h
  split at h <;> cases h
  rfl

theorem UnixTimestampMillis.new_get {value : UInt64} {timestamp : UnixTimestampMillis}
    (h : UnixTimestampMillis.new value = .ok timestamp) : timestamp.get = value := by
  unfold UnixTimestampMillis.new at h
  split at h <;> cases h
  rfl

theorem VoteCount.new_of_le {value : ℕ} (h : value ≤ u32Max) : VoteCount.new value = .ok value :=
  if_pos h

/-! ### Audit paths -/

/-- The level loop of `expected_rfc6962_audit_path_len`. -/
def expectedPathLoop (index levelSize expected : ℕ) : ℕ :=
  if 1 < levelSize then
    expectedPathLoop (index / 2) ((levelSize + 1) / 2)
      (if index % 2 = 1 ∨ index + 1 < levelSize then expected + 1 else expected)
  else expected
termination_by levelSize

def expectedRfc6962AuditPathLen (treeSize : TreeSize) (leafIndex : BulletinIndex treeSize) : ℕ :=
  expectedPathLoop leafIndex.get.toNat treeSize.get.toNat 0

/-- A path of the length its tree size and index ask for. -/
structure ValidatedAuditPath where
  treeSize : TreeSize
  leafIndex : BulletinIndex treeSize
  nodes : List (Bytes 32)
  length_eq : nodes.length = expectedRfc6962AuditPathLen treeSize leafIndex

def ValidatedAuditPath.validate (treeSize : TreeSize) (leafIndex : BulletinIndex treeSize)
    (nodes : List (Bytes 32)) : Except DomainValidationError ValidatedAuditPath :=
  if h : nodes.length = expectedRfc6962AuditPathLen treeSize leafIndex then
    .ok ⟨treeSize, leafIndex, nodes, h⟩
  else .error (.auditPathLengthMismatch nodes.length (expectedRfc6962AuditPathLen treeSize leafIndex))

/-- The loop counts the siblings a walk takes. -/
theorem expectedPathLoop_eq (index levelSize : ℕ) : ∀ expected, index < levelSize →
    expectedPathLoop index levelSize expected = expected + climbLength index levelSize := by
  refine climb_induction (motive := fun index levelSize => ∀ expected, index < levelSize →
    expectedPathLoop index levelSize expected = expected + climbLength index levelSize) ?_ ?_
      levelSize index
  · intro index levelSize hsize expected _
    rw [expectedPathLoop, if_neg (by omega), climbLength, if_neg (by omega), Nat.add_zero]
  · intro index levelSize hsize ih expected hi
    rw [climbLength_up hsize, expectedPathLoop, if_pos hsize, ih _ (by omega)]
    by_cases hp : Promoted index levelSize
    · rw [if_pos hp, if_neg (by omega)]; omega
    · rw [if_neg hp, if_pos (by unfold Promoted at hp; omega)]; omega

theorem expectedRfc6962AuditPathLen_eq (treeSize : TreeSize) (leafIndex : BulletinIndex treeSize) :
    expectedRfc6962AuditPathLen treeSize leafIndex =
      climbLength leafIndex.get.toNat treeSize.get.toNat := by
  rw [expectedRfc6962AuditPathLen, expectedPathLoop_eq _ _ _ (UInt32.lt_iff_toNat_lt.mp leafIndex.lt),
    Nat.zero_add]

end StarkBallot.ContractCore
