import StarkBallot.Application.FinalizationStorage

/-! What the guard of a journal leaves (`zkvm-contract/src/zkvm/journal-guards.ts`, read backwards).
    Every count of a supported journal is a natural number, the numbers satisfy the equations of the
    guard, and no text is empty. -/

namespace StarkBallot.Application
open Schemes CryptoPrimitives ZkvmContract Domain

theorem exists_ofNat_of_uint32 {value : Num} (h : isCurrentJournalUint32 value = true) :
    ∃ n ≤ uint32Max, value = .ofNat n := by
  simp only [isCurrentJournalUint32, Bool.and_eq_true] at h
  obtain ⟨⟨hsafe, hzero⟩, hmax⟩ := h
  cases value with
  | nan => cases hsafe
  | infinity _ => cases hsafe
  | finite value =>
    simp only [Num.isSafeInteger, decide_eq_true_eq] at hsafe
    obtain ⟨hden, -, -⟩ := hsafe
    simp only [Num.le, Num.lt, Num.eq, Num.ofNat, Nat.cast_zero, Bool.or_eq_true,
      decide_eq_true_eq] at hzero hmax
    obtain ⟨n, hn⟩ := Int.eq_ofNat_of_zero_le (Rat.num_nonneg.mpr (hzero.elim le_of_lt le_of_eq))
    have hvalue : value = (n : ℚ) := by
      rw [← Rat.coe_int_num_of_den_eq_one hden, hn]
      rfl
    refine ⟨n, ?_, by rw [hvalue]; rfl⟩
    rw [hvalue] at hmax
    exact hmax.elim (fun hlt => (Nat.cast_lt.mp hlt).le) (fun heq => (Nat.cast_injective heq).le)

theorem equalsNumber_add {m n k : ℕ}
    (h : equalsNumber (addSafeIntegers (.ofNat m) (.ofNat n)) (.ofNat k) = true) :
    m + n = k := by
  unfold addSafeIntegers at h
  split at h
  · simpa using h
  · cases h

/-- The counts of a supported journal. -/
structure JournalNumbers (journal : CurrentZkVMJournal) where
  verifiedTally : Vector ℕ 5
  treeSize : ℕ
  totalExpected : ℕ
  totalVotes : ℕ
  validVotes : ℕ
  invalidVotes : ℕ
  seenIndicesCount : ℕ
  missingSlots : ℕ
  invalidPresentedSlots : ℕ
  rejectedRecords : ℕ
  excludedSlots : ℕ
  verifiedTally_eq : journal.verifiedTally = verifiedTally.map .ofNat
  treeSize_eq : journal.treeSize = .ofNat treeSize
  totalExpected_eq : journal.totalExpected = .ofNat totalExpected
  totalVotes_eq : journal.totalVotes = .ofNat totalVotes
  validVotes_eq : journal.validVotes = .ofNat validVotes
  invalidVotes_eq : journal.invalidVotes = .ofNat invalidVotes
  seenIndicesCount_eq : journal.seenIndicesCount = .ofNat seenIndicesCount
  missingSlots_eq : journal.missingSlots = .ofNat missingSlots
  invalidPresentedSlots_eq : journal.invalidPresentedSlots = .ofNat invalidPresentedSlots
  rejectedRecords_eq : journal.rejectedRecords = .ofNat rejectedRecords
  excludedSlots_eq : journal.excludedSlots = .ofNat excludedSlots
  treeSize_pos : 0 < treeSize
  treeSize_le : treeSize ≤ uint32Max
  rejected_ge : invalidPresentedSlots ≤ rejectedRecords
  rejected_eq : rejectedRecords = invalidVotes
  seen_missing : seenIndicesCount + missingSlots = treeSize
  excluded : missingSlots + invalidPresentedSlots = excludedSlots
  valid_invalid : validVotes + invalidVotes = totalVotes
  rejected_le : rejectedRecords ≤ uint32Max
  excluded_le : excludedSlots ≤ uint32Max

section Supported

variable {journal : CurrentZkVMJournal}

/-- The texts of a supported journal. -/
theorem supported_hashes (h : isSupportedZkVMJournal journal = true) :
    ∀ hash ∈ [journal.electionConfigHash, journal.bulletinRoot, journal.sthDigest,
      journal.includedBitmapRoot, journal.inputCommitment, journal.seenBitmapRoot],
      isValidHexString hash (some 32) = true := by
  simp only [isSupportedZkVMJournal, Bool.and_eq_true] at h
  exact List.all_eq_true.mp h.1.1.1.2

theorem journalNumbers_of_supported (h : isSupportedZkVMJournal journal = true) :
    Nonempty (JournalNumbers journal) := by
  simp only [isSupportedZkVMJournal, Bool.and_eq_true, hasCoherentCurrentZkVMJournalSemantics,
    CurrentZkVMJournal.evidence, hasCoherentZkVMVoteSlotPartition, partitionCoheres,
    isCurrentJournalPositiveUint32, decide_eq_true_eq] at h
  obtain ⟨⟨-, ⟨⟨⟨⟨⟨⟨⟨⟨⟨⟨⟨-, htally⟩, ⟨htree, hpos⟩⟩, hseen⟩, hmissing⟩, hinvalid⟩, hrejected⟩,
    hexcluded⟩, -⟩, -⟩,
    ⟨⟨⟨⟨⟨-, -⟩, hseenMissing⟩, hge⟩, hexcludedEq⟩, -⟩⟩,
      ⟨⟨⟨⟨⟨⟨hexpected, htotal⟩, hvalid⟩, hinvalidVotes⟩, -⟩, htotalEq⟩, hrejectedEq⟩⟩⟩, -⟩ := h
  obtain ⟨treeSize, htreeLe, htreeEq⟩ := exists_ofNat_of_uint32 htree
  obtain ⟨seenIndicesCount, -, hseenEq⟩ := exists_ofNat_of_uint32 hseen
  obtain ⟨missingSlots, -, hmissingEq⟩ := exists_ofNat_of_uint32 hmissing
  obtain ⟨invalidPresentedSlots, -, hinvalidEq⟩ := exists_ofNat_of_uint32 hinvalid
  obtain ⟨rejectedRecords, hrejectedLe, hrejectedRecordsEq⟩ := exists_ofNat_of_uint32 hrejected
  obtain ⟨excludedSlots, hexcludedLe, hexcludedSlotsEq⟩ := exists_ofNat_of_uint32 hexcluded
  obtain ⟨totalExpected, -, hexpectedEq⟩ := exists_ofNat_of_uint32 hexpected
  obtain ⟨totalVotes, -, htotalVotesEq⟩ := exists_ofNat_of_uint32 htotal
  obtain ⟨validVotes, -, hvalidEq⟩ := exists_ofNat_of_uint32 hvalid
  obtain ⟨invalidVotes, -, hinvalidVotesEq⟩ := exists_ofNat_of_uint32 hinvalidVotes
  rw [hseenEq, hmissingEq, htreeEq] at hseenMissing
  rw [hmissingEq, hinvalidEq, hexcludedSlotsEq] at hexcludedEq
  rw [hvalidEq, hinvalidVotesEq, htotalVotesEq] at htotalEq
  rw [hrejectedRecordsEq, hinvalidVotesEq, equalsNumber_ofNat, decide_eq_true_eq] at hrejectedEq
  rw [hinvalidEq, hrejectedRecordsEq, Num.ofNat_le, decide_eq_true_eq] at hge
  rw [htreeEq, Num.ofNat_lt, decide_eq_true_eq] at hpos
  have htallyEq : journal.verifiedTally = (journal.verifiedTally.map Num.toNat).map .ofNat := by
    refine Vector.ext fun k hk => ?_
    obtain ⟨n, -, hn⟩ := exists_ofNat_of_uint32 (List.all_eq_true.mp htally journal.verifiedTally[k]
      (List.mem_of_getElem? (i := k) (by simp [hk])))
    simp [hn]
  exact ⟨{ treeSize, totalExpected, totalVotes, validVotes, invalidVotes, seenIndicesCount, missingSlots
           invalidPresentedSlots, rejectedRecords, excludedSlots
           verifiedTally := journal.verifiedTally.map Num.toNat
           verifiedTally_eq := htallyEq
           treeSize_eq := htreeEq
           totalExpected_eq := hexpectedEq
           totalVotes_eq := htotalVotesEq
           validVotes_eq := hvalidEq
           invalidVotes_eq := hinvalidVotesEq
           seenIndicesCount_eq := hseenEq
           missingSlots_eq := hmissingEq
           invalidPresentedSlots_eq := hinvalidEq
           rejectedRecords_eq := hrejectedRecordsEq
           excludedSlots_eq := hexcludedSlotsEq
           treeSize_pos := hpos
           treeSize_le := htreeLe
           rejected_ge := hge
           rejected_eq := hrejectedEq
           seen_missing := equalsNumber_add hseenMissing
           excluded := equalsNumber_add hexcludedEq
           valid_invalid := equalsNumber_add htotalEq
           rejected_le := hrejectedLe
           excluded_le := hexcludedLe }⟩

theorem JournalNumbers.tally_finite (numbers : JournalNumbers journal) :
    ∀ count ∈ journal.verifiedTally.toList, ∃ n, count = .ofNat n := by
  intro count hcount
  rw [numbers.verifiedTally_eq, Vector.toList_map, List.mem_map] at hcount
  obtain ⟨n, -, rfl⟩ := hcount
  exact ⟨n, rfl⟩

end Supported

end StarkBallot.Application
