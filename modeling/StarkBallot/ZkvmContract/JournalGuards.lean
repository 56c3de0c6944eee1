import StarkBallot.Guest.Journal
import StarkBallot.ZkvmContract.InputCommitment

/-! The semantic checks a TypeScript verifier makes on a journal (`journal-guards.ts`). They ask for more
    than the guest checks: rejected records cover the invalid slots, and the two bitmap roots agree when
    no presented slot is invalid. Both follow from how the guest's log was made, so every journal the
    guest can emit passes. -/

namespace StarkBallot.ZkvmContract
open Schemes ContractCore Guest CryptoPrimitives

def voteChoices : List String := ["A", "B", "C", "D", "E"]

/-- `undefined` is `none`. -/
structure ZkVMVoteSlotPartitionEvidence where
  verifiedTally : Option (List Num)
  treeSize : Option Num
  seenIndicesCount : Option Num
  missingSlots : Option Num
  invalidPresentedSlots : Option Num
  rejectedRecords : Option Num
  excludedSlots : Option Num
  seenBitmapRoot : Option JsString
  includedBitmapRoot : Option JsString

structure CurrentZkVMJournalSemanticEvidence extends ZkVMVoteSlotPartitionEvidence where
  totalExpected : Option Num
  totalVotes : Option Num
  validVotes : Option Num
  invalidVotes : Option Num

def isCurrentJournalUint32 (value : Num) : Bool :=
  value.isSafeInteger && (Num.ofNat 0).le value && value.le (Num.ofNat uint32Max)

def isCurrentJournalPositiveUint32 (value : Num) : Bool :=
  isCurrentJournalUint32 value && (Num.ofNat 0).lt value

def addSafeIntegers (left right : Num) : Option Num :=
  if (left.add right).isSafeInteger then some (left.add right) else none

/-- `a === b` where the left side may be `undefined` and the right side is a number. -/
def equalsNumber (a : Option Num) (b : Num) : Bool := a.any fun a => a.eq b

def sumTally (verifiedTally : List Num) : Num :=
  verifiedTally.foldl (fun sum count => (addSafeIntegers sum count).getD .nan) (Num.ofNat 0)

/-- The comparisons of the partition, on fields that are all defined. -/
def partitionCoheres (verifiedTally : List Num)
    (treeSize seenIndicesCount missingSlots invalidPresentedSlots rejectedRecords excludedSlots : Num)
    (seenBitmapRoot includedBitmapRoot : JsString) : Bool :=
  (sumTally verifiedTally).isSafeInteger &&
  equalsNumber (addSafeIntegers (sumTally verifiedTally) invalidPresentedSlots) seenIndicesCount &&
  equalsNumber (addSafeIntegers seenIndicesCount missingSlots) treeSize &&
  invalidPresentedSlots.le rejectedRecords &&
  equalsNumber (addSafeIntegers missingSlots invalidPresentedSlots) excludedSlots &&
  (!invalidPresentedSlots.eq (Num.ofNat 0) ||
    normalizeHexString seenBitmapRoot = normalizeHexString includedBitmapRoot)

def hasCoherentZkVMVoteSlotPartition (partition : ZkVMVoteSlotPartitionEvidence) : Bool :=
  match partition with
  | ⟨some verifiedTally, some treeSize, some seenIndicesCount, some missingSlots,
      some invalidPresentedSlots, some rejectedRecords, some excludedSlots, some seenBitmapRoot,
      some includedBitmapRoot⟩ =>
    verifiedTally.length = voteChoices.length && verifiedTally.all isCurrentJournalUint32 &&
    isCurrentJournalPositiveUint32 treeSize && isCurrentJournalUint32 seenIndicesCount &&
    isCurrentJournalUint32 missingSlots && isCurrentJournalUint32 invalidPresentedSlots &&
    isCurrentJournalUint32 rejectedRecords && isCurrentJournalUint32 excludedSlots &&
    seenBitmapRoot ≠ [] && includedBitmapRoot ≠ [] &&
    partitionCoheres verifiedTally treeSize seenIndicesCount missingSlots invalidPresentedSlots
      rejectedRecords excludedSlots seenBitmapRoot includedBitmapRoot
  | _ => false

def hasCoherentCurrentZkVMJournalSemantics (journal : CurrentZkVMJournalSemanticEvidence) : Bool :=
  hasCoherentZkVMVoteSlotPartition journal.toZkVMVoteSlotPartitionEvidence &&
  match journal.totalExpected, journal.totalVotes, journal.validVotes, journal.invalidVotes with
  | some totalExpected, some totalVotes, some validVotes, some invalidVotes =>
    isCurrentJournalUint32 totalExpected && isCurrentJournalUint32 totalVotes &&
    isCurrentJournalUint32 validVotes && isCurrentJournalUint32 invalidVotes &&
    equalsNumber (journal.verifiedTally.map sumTally) validVotes &&
    equalsNumber (addSafeIntegers validVotes invalidVotes) totalVotes &&
    equalsNumber journal.rejectedRecords invalidVotes
  | _, _, _, _ => false

/-- The host JSON of a journal, as far as the checks read it. -/
def journalEvidence (output : VerificationOutput) : CurrentZkVMJournalSemanticEvidence where
  verifiedTally := some (output.verifiedTally.toList.map Num.ofNat)
  treeSize := some (.ofNat output.treeSize)
  seenIndicesCount := some (.ofNat output.seenIndicesCount)
  missingSlots := some (.ofNat output.missingSlots)
  invalidPresentedSlots := some (.ofNat output.invalidPresentedSlots)
  rejectedRecords := some (.ofNat output.rejectedRecords)
  excludedSlots := some (.ofNat output.excludedSlots)
  seenBitmapRoot := some (js "0x" ++ hexText output.seenBitmapRoot.toList)
  includedBitmapRoot := some (js "0x" ++ hexText output.includedBitmapRoot.toList)
  totalExpected := some (.ofNat output.totalExpected)
  totalVotes := some (.ofNat output.totalVotes)
  validVotes := some (.ofNat output.validVotes)
  invalidVotes := some (.ofNat output.invalidVotes)

/-! ### The laws of a journal -/

/-- What a verifier relies on, in plain arithmetic. -/
structure JournalLaws (output : VerificationOutput) : Prop where
  tally_seen : output.verifiedTally.toList.sum + output.invalidPresentedSlots = output.seenIndicesCount
  seen_missing : output.seenIndicesCount + output.missingSlots = output.treeSize
  rejected_ge : output.invalidPresentedSlots ≤ output.rejectedRecords
  excluded : output.excludedSlots = output.missingSlots + output.invalidPresentedSlots
  roots : output.invalidPresentedSlots = 0 → output.seenBitmapRoot = output.includedBitmapRoot
  tally_valid : output.verifiedTally.toList.sum = output.validVotes
  valid_invalid : output.validVotes + output.invalidVotes = output.totalVotes
  rejected_eq : output.rejectedRecords = output.invalidVotes

/-- The fields fit their `u32`, and the tree is not empty. -/
structure JournalBounds (output : VerificationOutput) : Prop where
  treeSize_pos : 0 < output.treeSize
  treeSize_le : output.treeSize ≤ uint32Max
  totalExpected_le : output.totalExpected ≤ uint32Max
  totalVotes_le : output.totalVotes ≤ uint32Max

/-- Every journal read off a log satisfies the laws. -/
theorem journalOf_laws (sha256 : List UInt8 → Bytes 32) (input : AggregatorInput) (digest : Bytes 32) :
    JournalLaws (journalOf sha256 input digest) := by
  have hvalid := valid_le_seen sha256 input
  have hseen := seen_le_treeSize sha256 input
  have htotal := valid_le_total sha256 input
  have hpresented : (seenSlots (ballotLog sha256 input)).length ≤ input.votes.length := by
    rw [seenSlots, List.length_map]
    exact (picked_length_le _).trans (by rw [ballotLog, replay_length])
  have hsum : (tallyOf (countedVotes (ballotLog sha256 input))).toList.sum =
      (countedVotes (ballotLog sha256 input)).length :=
    tallyOf_sum fun vote hvote => (countedVotes_counts sha256 input.votes vote hvote).choice_lt
  refine ⟨?_, ?_, ?_, rfl, fun hzero => ?_, hsum, ?_, rfl⟩
  · simp only [journalOf, hsum]
    omega
  · simp only [journalOf]
    omega
  · simp only [journalOf]
    omega
  · simp only [journalOf] at hzero ⊢
    have hlen :
        (includedSlots (ballotLog sha256 input)).length =
          (seenSlots (ballotLog sha256 input)).length := by
      rw [includedSlots, List.length_map]
      omega
    rw [(includedSlots_sublist _).eq_of_length hlen]
  · simp only [journalOf]
    omega

theorem isCurrentJournalUint32_ofNat {n : ℕ} (h : n ≤ uint32Max) :
    isCurrentJournalUint32 (.ofNat n) = true := by
  have hsafe : n ≤ Num.maxSafeInteger := h.trans (by decide)
  simp [isCurrentJournalUint32, Num.ofNat_isSafeInteger.mpr hsafe, h]

theorem addSafeIntegers_ofNat {m n : ℕ} (h : m + n ≤ uint32Max) :
    addSafeIntegers (.ofNat m) (.ofNat n) = some (.ofNat (m + n)) := by
  have hsafe : m + n ≤ Num.maxSafeInteger := h.trans (by decide)
  simp [addSafeIntegers, Num.ofNat_isSafeInteger.mpr hsafe]

theorem sumTally_ofNat {counts : List ℕ} (h : counts.sum ≤ uint32Max) :
    sumTally (counts.map Num.ofNat) = .ofNat counts.sum := by
  suffices hfold : ∀ (counts : List ℕ) (acc : ℕ), acc + counts.sum ≤ uint32Max →
      (counts.map Num.ofNat).foldl (fun sum count => (addSafeIntegers sum count).getD .nan)
        (.ofNat acc) = .ofNat (acc + counts.sum) by
    simpa [sumTally] using hfold counts 0 (by simpa using h)
  intro counts
  induction counts with
  | nil => intro acc _; rfl
  | cons count counts ih =>
    intro acc hacc
    rw [List.sum_cons] at hacc
    rw [List.map_cons, List.foldl_cons, addSafeIntegers_ofNat (by omega), Option.getD_some,
      ih _ (by omega), List.sum_cons, Nat.add_assoc]

@[simp] theorem equalsNumber_ofNat (m n : ℕ) :
    equalsNumber (some (.ofNat m)) (.ofNat n) = decide (m = n) := by
  simp [equalsNumber]

/-- The laws and the bounds are all the guard asks for. -/
theorem coherent_of_laws {output : VerificationOutput} (h : JournalLaws output)
    (hb : JournalBounds output) :
    hasCoherentCurrentZkVMJournalSemantics (journalEvidence output) = true := by
  obtain ⟨hseen, hmissing, hrejected, hexcluded, hroots, hvalid, htotal, hrejectedEq⟩ := h
  obtain ⟨hpos, hsize, hexpected, hvotes⟩ := hb
  have hsum :
      sumTally (output.verifiedTally.toList.map Num.ofNat) = .ofNat output.verifiedTally.toList.sum :=
    sumTally_ofNat (by omega)
  have htally : (output.verifiedTally.toList.map Num.ofNat).all isCurrentJournalUint32 = true := by
    rw [List.all_map, List.all_eq_true]
    intro count hcount
    have := List.le_sum_of_mem hcount
    exact isCurrentJournalUint32_ofNat (by omega)
  -- every sum the guard forms is one of the fields, and so fits
  have hsum_le : output.verifiedTally.toList.sum ≤ uint32Max := by omega
  have hseen_le : output.seenIndicesCount ≤ uint32Max := by omega
  have hmissing_le : output.missingSlots ≤ uint32Max := by omega
  have hinvalid_le : output.invalidPresentedSlots ≤ uint32Max := by omega
  have hrejected_le : output.rejectedRecords ≤ uint32Max := by omega
  have hexcluded_le : output.excludedSlots ≤ uint32Max := by omega
  have hvalid_le : output.validVotes ≤ uint32Max := by omega
  have hinvalidVotes_le : output.invalidVotes ≤ uint32Max := by omega
  have hsafe : output.verifiedTally.toList.sum ≤ Num.maxSafeInteger := hsum_le.trans (by decide)
  have hpartition :
      hasCoherentZkVMVoteSlotPartition (journalEvidence output).toZkVMVoteSlotPartitionEvidence =
      true := by
    simp only [hasCoherentZkVMVoteSlotPartition, journalEvidence, partitionCoheres,
      isCurrentJournalPositiveUint32, htally, hsum, isCurrentJournalUint32_ofNat hsize,
      isCurrentJournalUint32_ofNat hseen_le, isCurrentJournalUint32_ofNat hmissing_le,
      isCurrentJournalUint32_ofNat hinvalid_le, isCurrentJournalUint32_ofNat hrejected_le,
      isCurrentJournalUint32_ofNat hexcluded_le, addSafeIntegers_ofNat (hseen.trans_le hseen_le),
      addSafeIntegers_ofNat (hmissing.trans_le hsize),
      addSafeIntegers_ofNat (hexcluded.symm.trans_le hexcluded_le), Num.ofNat_isSafeInteger.mpr hsafe,
      normalizeHexString_of_spells (prefixed_spells _), equalsNumber_ofNat, Num.ofNat_le, Num.ofNat_lt,
      Num.ofNat_eq, decide_eq_true hseen]
    by_cases hzero : output.invalidPresentedSlots = 0
    · simp [hmissing, hrejected, hexcluded, hpos, hroots hzero, voteChoices, js]
    · simp [hmissing, hrejected, hexcluded, hpos, hzero, voteChoices, js]
  simp only [hasCoherentCurrentZkVMJournalSemantics, hpartition]
  simp only [journalEvidence, hsum, isCurrentJournalUint32_ofNat hexpected,
    isCurrentJournalUint32_ofNat hvotes, isCurrentJournalUint32_ofNat hvalid_le,
    isCurrentJournalUint32_ofNat hinvalidVotes_le, Option.map_some,
    addSafeIntegers_ofNat (htotal.trans_le hvotes), equalsNumber_ofNat]
  rw [hvalid]
  simp [htotal, hrejectedEq]

/-- ACCEPTANCE: every journal the guest emits passes the verifier's semantic checks, and the laws behind
    them hold. -/
theorem guest_journal_coherent {sha256 : List UInt8 → Bytes 32} {input : AggregatorInput}
    {output : VerificationOutput} (h : verifyAndTallyCheckedOutput sha256 input = .ok output) :
    hasCoherentCurrentZkVMJournalSemantics (journalEvidence output) = true ∧ JournalLaws output := by
  obtain ⟨validated, digest, hadmits, -, rfl⟩ := verifyAndTallyCheckedOutput_ok sha256 h
  have hbounds : JournalBounds (journalOf sha256 input digest) := by
    refine ⟨hadmits.budget.treeSize_pos, hadmits.budget.treeSize_le.trans ?_,
      hadmits.budget.totalExpected_le.trans ?_, hadmits.budget.votes_le.trans ?_⟩ <;> decide
  have hlaws := journalOf_laws sha256 input digest
  exact ⟨coherent_of_laws hlaws hbounds, hlaws⟩

theorem guest_journal_coherent_on_sample : ∃ output,
    verifyAndTallyCheckedOutput Sha256.digest (sampleInput [sampleVote, sampleVote]) = .ok output ∧
      hasCoherentCurrentZkVMJournalSemantics (journalEvidence output) = true := by
  obtain ⟨inspection, -, houtput⟩ :=
    verifyAndTallyChecked_of_admitted Sha256.digest sampleInput_twice_admitted
  exact ⟨_, houtput, (guest_journal_coherent houtput).1⟩

end StarkBallot.ZkvmContract
