import Mathlib.Algebra.Ring.Nat
import StarkBallot.Runtime.Rust

/-! The records of the zkVM contract (`types.rs`) and the work budget every input must fit
    (`work_budget.rs`). The integer fields have their Rust widths, so an input of the model is exactly
    a value the guest can read; lengths of vectors are naturals. -/

namespace StarkBallot.ContractCore
open Schemes

def currentMethodVersion : ℕ := 14

/-- A vote with its audit path; `choice` and `random` are witness data. -/
structure VoteWithProof where
  commitment : Bytes 32
  choice : UInt8
  random : Bytes 32
  index : UInt32
  merklePath : List (Bytes 32)
  deriving DecidableEq

structure AggregatorInput where
  electionId : Bytes 16
  bulletinRoot : Bytes 32
  treeSize : UInt32
  logId : Bytes 32
  timestamp : UInt64
  totalExpected : UInt32
  electionConfigHash : Bytes 32
  votes : List VoteWithProof

/-- The journal the guest commits. -/
structure VerificationOutput where
  electionId : Bytes 16
  electionConfigHash : Bytes 32
  bulletinRoot : Bytes 32
  treeSize : ℕ
  totalExpected : ℕ
  sthDigest : Bytes 32
  verifiedTally : Vector ℕ 5
  totalVotes : ℕ
  validVotes : ℕ
  invalidVotes : ℕ
  seenIndicesCount : ℕ
  missingSlots : ℕ
  invalidPresentedSlots : ℕ
  rejectedRecords : ℕ
  seenBitmapRoot : Bytes 32
  includedBitmapRoot : Bytes 32
  excludedSlots : ℕ
  inputCommitment : Bytes 32
  methodVersion : ℕ

/-! ### Work budget -/

def maxGuestTotalPathNodes : ℕ := 1000000
def maxGuestSerializedInputBytes : ℕ := 64 * 1024 * 1024
def maxGuestTreeSize : ℕ := 1000000
def maxGuestTotalExpected : ℕ := maxGuestTreeSize
def maxGuestVoteCount : ℕ := maxGuestTreeSize
def maxGuestMerklePathNodesPerRecord : ℕ := u16Max

def fixedInputBytes : ℕ := 16 + 32 + 4 + 32 + 8 + 4 + 32
def voteFixedBytes : ℕ := 32 + 1 + 32 + 4
def vecLenBytes : ℕ := 8
def merklePathNodeBytes : ℕ := 32

structure GuestWorkBudget where
  totalPathNodes : ℕ
  estimatedStructuralBytes : ℕ
  serializedInputBytes : Option ℕ

inductive GuestWorkBudgetError where
  | treeSizeOutOfBounds (actual min max : ℕ)
  | totalExpectedExceeded (actual max : ℕ)
  | voteCountExceeded (actual max : ℕ)
  | merklePathNodesPerRecordExceeded (votePosition actual max : ℕ)
  | totalPathNodesExceeded (actual max : ℕ)
  | serializedInputBytesExceeded (actual max : ℕ)
  | structuralInputBytesExceeded (actual max : ℕ)
  | structuralInputBytesOverflow

/-- The derived `Debug` text, as the guest puts it into its error. -/
def GuestWorkBudgetError.debug : GuestWorkBudgetError → String
  | .treeSizeOutOfBounds a lo hi => s!"TreeSizeOutOfBounds \x7b actual: {a}, min: {lo}, max: {hi} \x7d"
  | .totalExpectedExceeded a hi => s!"TotalExpectedExceeded \x7b actual: {a}, max: {hi} \x7d"
  | .voteCountExceeded a hi => s!"VoteCountExceeded \x7b actual: {a}, max: {hi} \x7d"
  | .merklePathNodesPerRecordExceeded p a hi =>
    s!"MerklePathNodesPerRecordExceeded \x7b vote_position: {p}, actual: {a}, max: {hi} \x7d"
  | .totalPathNodesExceeded a hi => s!"TotalPathNodesExceeded \x7b actual: {a}, max: {hi} \x7d"
  | .serializedInputBytesExceeded a hi =>
      s!"SerializedInputBytesExceeded \x7b actual: {a}, max: {hi} \x7d"
  | .structuralInputBytesExceeded a hi =>
      s!"StructuralInputBytesExceeded \x7b actual: {a}, max: {hi} \x7d"
  | .structuralInputBytesOverflow => "StructuralInputBytesOverflow"

def validateGuestContractBounds (treeSize totalExpected voteCount : ℕ) :
    Except GuestWorkBudgetError Unit := do
  refuseIf (¬ (1 ≤ treeSize ∧ treeSize ≤ maxGuestTreeSize))
    (.treeSizeOutOfBounds treeSize 1 maxGuestTreeSize)
  refuseIf (totalExpected > maxGuestTotalExpected)
    (.totalExpectedExceeded totalExpected maxGuestTotalExpected)
  refuseIf (voteCount > maxGuestVoteCount) (.voteCountExceeded voteCount maxGuestVoteCount)

/-- One step of the path-node count; the position only serves the error. -/
def countPathNodes (total : ℕ) (vote : VoteWithProof × ℕ) : Except GuestWorkBudgetError ℕ := do
  refuseIf (vote.1.merklePath.length > maxGuestMerklePathNodesPerRecord)
    (.merklePathNodesPerRecordExceeded vote.2 vote.1.merklePath.length maxGuestMerklePathNodesPerRecord)
  okOr (checkedAdd total vote.1.merklePath.length)
    (.totalPathNodesExceeded u32Max maxGuestTotalPathNodes)

def totalPathNodes (input : AggregatorInput) : Except GuestWorkBudgetError ℕ :=
  input.votes.zipIdx.foldlM countPathNodes 0

/-- The byte estimate, `none` on `u64` overflow. -/
def structuralBytes (voteCount pathNodes : ℕ) : Option ℕ := do
  let header ← checkedAddIn u64Max fixedInputBytes vecLenBytes
  let records ← checkedMulIn u64Max voteCount (voteFixedBytes + vecLenBytes)
  let withRecords ← checkedAddIn u64Max header records
  let nodes ← checkedMulIn u64Max pathNodes merklePathNodeBytes
  checkedAddIn u64Max withRecords nodes

def estimateStructuralInputBytes (input : AggregatorInput) : Except GuestWorkBudgetError ℕ := do
  let pathNodes ← totalPathNodes input
  okOr (structuralBytes input.votes.length pathNodes) .structuralInputBytesOverflow

/-- The serialized size is only known to the host. -/
def validateSerializedInputBytes : Option ℕ → Except GuestWorkBudgetError Unit
  | some actual => refuseIf (actual > maxGuestSerializedInputBytes)
      (.serializedInputBytesExceeded actual maxGuestSerializedInputBytes)
  | none => .ok ()

def validateGuestWorkBudget (input : AggregatorInput) (serializedInputBytes : Option ℕ) :
    Except GuestWorkBudgetError GuestWorkBudget := do
  validateGuestContractBounds input.treeSize.toNat input.totalExpected.toNat input.votes.length
  let total ← totalPathNodes input
  refuseIf (total > maxGuestTotalPathNodes) (.totalPathNodesExceeded total maxGuestTotalPathNodes)
  validateSerializedInputBytes serializedInputBytes
  let estimated ← estimateStructuralInputBytes input
  refuseIf (estimated > maxGuestSerializedInputBytes)
    (.structuralInputBytesExceeded estimated maxGuestSerializedInputBytes)
  return ⟨total, estimated, serializedInputBytes⟩

/-! ### What an admitted input satisfies -/

/-- Total number of path nodes, as a plain sum. -/
def pathNodeSum (votes : List VoteWithProof) : ℕ := (votes.map fun v => v.merklePath.length).sum

/-- The bounds the work budget enforces. -/
structure WithinBudget (input : AggregatorInput) : Prop where
  treeSize_pos : 1 ≤ input.treeSize.toNat
  treeSize_le : input.treeSize.toNat ≤ maxGuestTreeSize
  totalExpected_le : input.totalExpected.toNat ≤ maxGuestTotalExpected
  votes_le : input.votes.length ≤ maxGuestVoteCount
  path_le : ∀ v ∈ input.votes, v.merklePath.length ≤ maxGuestMerklePathNodesPerRecord
  nodes_le : pathNodeSum input.votes ≤ maxGuestTotalPathNodes
  bytes_le : fixedInputBytes + vecLenBytes + input.votes.length * (voteFixedBytes + vecLenBytes) +
    pathNodeSum input.votes * merklePathNodeBytes ≤ maxGuestSerializedInputBytes

theorem countPathNodes_foldlM : ∀ {votes : List VoteWithProof} {start total n : ℕ},
    (votes.zipIdx start).foldlM countPathNodes total = .ok n →
      (∀ v ∈ votes, v.merklePath.length ≤ maxGuestMerklePathNodesPerRecord) ∧
      n = total + pathNodeSum votes
  | [], _, total, n, h => by
      cases h
      exact ⟨by simp, by simp [pathNodeSum]⟩
  | v :: votes, start, total, n, h => by
      rw [List.zipIdx_cons, List.foldlM_cons, bind_eq_ok] at h
      obtain ⟨total', hstep, hrest⟩ := h
      simp only [countPathNodes, bind_eq_ok, refuseIf_eq_ok, okOr_eq_ok, checkedAdd,
        checkedAddIn] at hstep
      obtain ⟨_, hlen, hadd⟩ := hstep
      obtain ⟨hvotes, rfl⟩ := countPathNodes_foldlM hrest
      have htotal : total' = total + v.merklePath.length := by
        split at hadd
        · simpa using hadd.symm
        · cases hadd
      refine ⟨?_, ?_⟩
      · intro w hw
        rcases List.mem_cons.mp hw with rfl | hw
        · omega
        · exact hvotes w hw
      · simp only [pathNodeSum, List.map_cons, List.sum_cons] at *
        omega

/-- The byte estimate, as a plain sum. -/
def structuralSum (votes : List VoteWithProof) : ℕ :=
  fixedInputBytes + vecLenBytes + votes.length * (voteFixedBytes + vecLenBytes) + pathNodeSum votes *
    merklePathNodeBytes

theorem estimateStructuralInputBytes_eq_ok {input : AggregatorInput} {estimated : ℕ}
    (h : estimateStructuralInputBytes input = .ok estimated) :
    estimated = structuralSum input.votes := by
  obtain ⟨total, hpaths, h⟩ := bind_eq_ok.mp h
  obtain ⟨-, rfl⟩ := countPathNodes_foldlM hpaths
  rw [okOr_eq_ok] at h
  simp only [structuralBytes, checkedAddIn, checkedMulIn, Option.bind_eq_bind, Option.bind_eq_some_iff,
    Option.ite_none_right_eq_some, Option.some.injEq] at h
  obtain ⟨_, ⟨_, rfl⟩, _, ⟨_, rfl⟩, _, ⟨_, rfl⟩, _, ⟨_, rfl⟩, _, rfl⟩ := h
  rw [Nat.zero_add, structuralSum]

/-- The budget check admits only inputs within the bounds. -/
theorem validateGuestWorkBudget_ok {input : AggregatorInput} {serialized : Option ℕ}
    {budget : GuestWorkBudget} (h : validateGuestWorkBudget input serialized = .ok budget) :
    WithinBudget input := by
  simp only [validateGuestWorkBudget, validateGuestContractBounds, bind_eq_ok, refuseIf_eq_ok] at h
  obtain ⟨_, ⟨_, htree, _, hexp, hvotes⟩, total, hpaths, _, htotal, _, _, estimated, hbytes, _,
      hestimated, _⟩ := h
  obtain ⟨hpath, rfl⟩ := countPathNodes_foldlM hpaths
  rw [estimateStructuralInputBytes_eq_ok hbytes, structuralSum] at hestimated
  rw [Nat.zero_add] at htotal
  exact ⟨by omega, by omega, by omega, by omega, hpath, by omega, by omega⟩

/-! ### What is within the bounds is admitted -/

theorem pathNodeSum_perm {votes votes' : List VoteWithProof} (h : votes.Perm votes') :
    pathNodeSum votes = pathNodeSum votes' := (h.map _).sum_nat

theorem countPathNodes_of_le : ∀ {votes : List VoteWithProof} {start total : ℕ},
    (∀ v ∈ votes, v.merklePath.length ≤ maxGuestMerklePathNodesPerRecord) →
      total + pathNodeSum votes ≤ u32Max →
      (votes.zipIdx start).foldlM countPathNodes total = .ok (total + pathNodeSum votes)
  | [], _, _, _, _ => rfl
  | v :: votes, start, total, hpath, hsum => by
      have hv := hpath v List.mem_cons_self
      simp only [pathNodeSum, List.map_cons, List.sum_cons] at hsum ⊢
      have hstep : countPathNodes total (v, start) = .ok (total + v.merklePath.length) := by
        simp only [countPathNodes]
        rw [refuseIf_of_not (by omega), ok_bind, checkedAdd_of_le (by omega)]
        rfl
      have hrest := @countPathNodes_of_le votes (start + 1) (total + v.merklePath.length)
        (fun w hw => hpath w (List.mem_cons_of_mem _ hw)) (by simp only [pathNodeSum]; omega)
      rw [List.zipIdx_cons, List.foldlM_cons, hstep, ok_bind, hrest, pathNodeSum, Nat.add_assoc]

theorem totalPathNodes_of_within {input : AggregatorInput} (h : WithinBudget input) :
    totalPathNodes input = .ok (pathNodeSum input.votes) := by
  have hmax : maxGuestTotalPathNodes ≤ u32Max := by decide
  have hnodes := h.nodes_le
  have hfold := @countPathNodes_of_le input.votes 0 0 h.path_le (by omega)
  rwa [Nat.zero_add] at hfold


theorem estimateStructuralInputBytes_of_within {input : AggregatorInput} (h : WithinBudget input) :
    estimateStructuralInputBytes input = .ok (structuralSum input.votes) := by
  have hmax : maxGuestSerializedInputBytes ≤ u64Max := by decide
  have hbytes := h.bytes_le
  have hsum :
      structuralBytes input.votes.length (pathNodeSum input.votes) =
        some (structuralSum input.votes) := by
    simp only [structuralBytes, checkedAddIn, checkedMulIn]
    rw [if_pos (by decide), Option.bind_eq_bind, Option.bind_some, if_pos (by omega), Option.bind_some,
      if_pos (by omega), Option.bind_some, if_pos (by omega), Option.bind_some, if_pos (by omega)]
    rfl
  rw [estimateStructuralInputBytes, totalPathNodes_of_within h, ok_bind, hsum]
  rfl

/-- What is within the bounds is admitted, with a serialized size that is none or fits. -/
theorem validateGuestWorkBudget_eq_ok {input : AggregatorInput} (h : WithinBudget input)
    {serialized : Option ℕ} (hserialized : validateSerializedInputBytes serialized = .ok ()) :
    validateGuestWorkBudget input serialized =
      .ok ⟨pathNodeSum input.votes, structuralSum input.votes, serialized⟩ := by
  have hpos := h.treeSize_pos
  have hsize := h.treeSize_le
  have hexpected := h.totalExpected_le
  have hvotes := h.votes_le
  have hnodes := h.nodes_le
  have hbytes : structuralSum input.votes ≤ maxGuestSerializedInputBytes := h.bytes_le
  rw [validateGuestWorkBudget, validateGuestContractBounds, refuseIf_of_not (by omega), ok_bind,
    refuseIf_of_not (by omega), ok_bind, refuseIf_of_not (by omega), ok_bind,
    totalPathNodes_of_within h, ok_bind, refuseIf_of_not (by omega), ok_bind, hserialized, ok_bind,
    estimateStructuralInputBytes_of_within h, ok_bind, refuseIf_of_not (by omega), ok_bind]
  rfl

/-- SPEC: the budget accepts exactly what is within the bounds, if the serialized size passes. -/
theorem validateGuestWorkBudget_isOk {input : AggregatorInput} (serialized : Option ℕ) :
    (validateGuestWorkBudget input serialized).isOk = true ↔
      WithinBudget input ∧ (validateSerializedInputBytes serialized).isOk = true := by
  constructor
  · intro hok
    obtain ⟨budget, hok⟩ := exists_of_isOk hok
    refine ⟨validateGuestWorkBudget_ok hok, ?_⟩
    rw [validateGuestWorkBudget] at hok
    obtain ⟨_, -, hok⟩ := bind_eq_ok.mp hok
    obtain ⟨_, -, hok⟩ := bind_eq_ok.mp hok
    obtain ⟨_, -, hok⟩ := bind_eq_ok.mp hok
    obtain ⟨_, hserialized, -⟩ := bind_eq_ok.mp hok
    rw [hserialized]
    rfl
  · rintro ⟨hwithin, hserialized⟩
    obtain ⟨_, hserialized⟩ := exists_of_isOk hserialized
    rw [validateGuestWorkBudget_eq_ok hwithin hserialized]
    rfl

theorem WithinBudget.perm {input : AggregatorInput} (h : WithinBudget input) {votes : List VoteWithProof}
    (hperm : votes.Perm input.votes) : WithinBudget { input with votes := votes } where
  treeSize_pos := h.treeSize_pos
  treeSize_le := h.treeSize_le
  totalExpected_le := h.totalExpected_le
  votes_le := by
    rw [hperm.length_eq]
    exact h.votes_le
  path_le := fun v hv => h.path_le v (hperm.mem_iff.mp hv)
  nodes_le := by
    rw [pathNodeSum_perm hperm]
    exact h.nodes_le
  bytes_le := by
    have hbytes := h.bytes_le
    simp only [hperm.length_eq, pathNodeSum_perm hperm]
    exact hbytes

end StarkBallot.ContractCore
