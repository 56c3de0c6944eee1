import StarkBallot.Guest.Verdict
import StarkBallot.Runtime.Sha256

/-! From an admitted input to its journal. Admission bounds the tree size, the number of records and the
    path lengths; under these bounds the loop and every check after it succeed, and the journal is
    `journalOf`: the counts, roots and digests of the finished log. -/

namespace StarkBallot.Guest
open Schemes ContractCore GuestVoteInspection

variable (sha256 : List UInt8 → Bytes 32)

/-- What admission promises: the raw fields under other names, within the bounds. -/
structure Admits (input : AggregatorInput) (validated : ValidatedAggregatorInput) : Prop where
  raw : validated.raw = input
  electionId : validated.electionId = input.electionId
  bulletinRoot : validated.bulletinRoot.get = input.bulletinRoot
  treeSize : validated.treeSize.get = input.treeSize
  logId : validated.logId = input.logId
  timestamp : validated.timestamp.get = input.timestamp
  totalExpected : validated.totalExpected = input.totalExpected
  electionConfigHash : validated.electionConfigHash = input.electionConfigHash
  votes : validated.votes = input.votes.map ValidatedVoteRecord.new
  budget : WithinBudget input

theorem validate_admits {input : AggregatorInput} {validated : ValidatedAggregatorInput}
    (h : ValidatedAggregatorInput.validate input = .ok validated) : Admits input validated := by
  simp only [ValidatedAggregatorInput.validate, validateTreeSize, validateTotalExpected, bind_eq_ok,
    mapErr_eq_ok, refuseIf_eq_ok, pure, Except.pure, Except.ok.injEq] at h
  obtain ⟨root, hroot, treeSize, ⟨_, hsize, _, _, rfl⟩, timestamp, htime, totalExpected, ⟨_, _, rfl⟩,
    _, _, _, _, _, _, budget, hbudget, rfl⟩ := h
  exact ⟨rfl, rfl, BulletinRoot.new_get hroot, TreeSize.new_get hsize, rfl,
    UnixTimestampMillis.new_get htime, rfl, rfl, rfl, validateGuestWorkBudget_ok hbudget⟩

variable {input : AggregatorInput} {validated : ValidatedAggregatorInput}

/-- RUN: on an admitted input the loop returns after any number of records, in the state of their log. -/
theorem tallyLoop_take (h : Admits input validated) (start : Option (List GuestVoteInspection)) (k : ℕ) :
    ∃ s, (validated.votes.take k).foldlM (tallyStep sha256 validated)
        (TallyState.init validated.treeSize.get.toNat start) = .ok s ∧
      Represents input.treeSize.toNat start (replay (verdict sha256 input) (input.votes.take k)) s := by
  rw [h.votes, ← List.map_take, List.foldlM_map, h.treeSize]
  refine foldlM_replay (Represents input.treeSize.toNat start) (represents_init ..) ?_
  intro done vote rest s hvotes hrep
  refine tallyStep_represents sha256 h.electionId h.bulletinRoot h.treeSize ?_ hrep vote
  have hbound := (List.length_take_le' k input.votes).trans h.budget.votes_le
  rw [hvotes, List.length_append, List.length_cons] at hbound
  rw [replay_length]
  exact lt_of_lt_of_le (by omega) hbound

theorem tallyLoop_represents (h : Admits input validated) (start : Option (List GuestVoteInspection)) :
    ∃ s, tallyLoop sha256 validated start = .ok s ∧
      Represents input.treeSize.toNat start (ballotLog sha256 input) s := by
  have hloop := tallyLoop_take sha256 h start input.votes.length
  rwa [List.take_of_length_le (by rw [h.votes, List.length_map]), List.take_length] at hloop

/-! ### The journal -/

/-- What the checks of `build_verification_output` ask for. -/
structure Consistent (state : VerificationOutputConstruction) : Prop where
  seen_length : state.seenBitmap.length = state.treeSize.get.toNat
  included_length : state.includedBitmap.length = state.treeSize.get.toNat
  total : state.totalVotes = state.validVotes + state.invalidVotes
  total_le : state.totalVotes ≤ u32Max
  tally_sum : state.verifiedTally.toList.sum = state.validVotes
  seen_popcount : state.seenBitmap.count true = state.seenIndicesCount
  included_popcount : state.includedBitmap.count true = state.validVotes
  subset : ∀ bits ∈ state.includedBitmap.zip state.seenBitmap, bits.1 = true → bits.2 = true
  seen_le : state.seenIndicesCount ≤ state.treeSize.get.toNat
  valid_le : state.validVotes ≤ state.seenIndicesCount

theorem checkedSum_ok : ∀ {counts : List ℕ} {sum : ℕ} {e : Fault}, sum + counts.sum ≤ u32Max →
    counts.foldlM (fun sum count => okOr (checkedAdd sum count) e) sum = .ok (sum + counts.sum)
  | [], sum, _, _ => by simp; rfl
  | count :: counts, sum, e, h => by
      rw [List.sum_cons] at h
      have hadd :
          okOr (checkedAdd sum count) e = .ok (sum + count) := by rw [checkedAdd_of_le (by omega)]; rfl
      rw [List.foldlM_cons, hadd, ok_bind, checkedSum_ok (by omega), List.sum_cons, Nat.add_assoc]

/-- The journal of a consistent construction. -/
theorem buildVerificationOutput_ok {state : VerificationOutputConstruction} (h : Consistent state) :
    buildVerificationOutput state = .ok {
      electionId := state.electionId
      electionConfigHash := state.electionConfigHash
      bulletinRoot := state.bulletinRoot.get
      treeSize := state.treeSize.get.toNat
      totalExpected := state.totalExpected.toNat
      sthDigest := state.sthDigest
      verifiedTally := state.verifiedTally
      totalVotes := state.totalVotes
      validVotes := state.validVotes
      invalidVotes := state.invalidVotes
      seenIndicesCount := state.seenIndicesCount
      missingSlots := state.treeSize.get.toNat - state.seenIndicesCount
      invalidPresentedSlots := state.seenIndicesCount - state.validVotes
      rejectedRecords := state.invalidVotes
      seenBitmapRoot := state.seenBitmapRoot
      includedBitmapRoot := state.includedBitmapRoot
      excludedSlots := state.treeSize.get.toNat - state.seenIndicesCount +
        (state.seenIndicesCount - state.validVotes)
      inputCommitment := state.inputCommitment
      methodVersion := currentMethodVersion } := by
  have hsize : state.treeSize.get.toNat ≤ u32Max := Nat.le_of_lt_succ state.treeSize.get.toNat_lt
  have htotal := h.total
  have htotal_le := h.total_le
  have hseen := h.seen_le
  have hvalid := h.valid_le
  have hsum : checkedTallySum state.verifiedTally = .ok state.validVotes := by
    rw [checkedTallySum, checkedSum_ok (by rw [Nat.zero_add, h.tally_sum]; omega), Nat.zero_add,
      h.tally_sum]
  have hseenPop : checkedBitmapPopcount state.seenBitmap "seen bitmap" = .ok state.seenIndicesCount := by
    rw [checkedBitmapPopcount, h.seen_popcount, if_pos (by omega)]
  have hincludedPop :
      checkedBitmapPopcount state.includedBitmap "included bitmap" = .ok state.validVotes := by
    rw [checkedBitmapPopcount, h.included_popcount, if_pos (by omega)]
  have hsubset :
      ¬ ((state.includedBitmap.zip state.seenBitmap).any fun bits => bits.1 && !bits.2) = true := by
    simpa using fun a b hab ha => h.subset (a, b) hab ha
  have hvotes_le : state.validVotes + state.invalidVotes ≤ u32Max := by omega
  have hexcluded_le : state.treeSize.get.toNat - state.seenIndicesCount +
      (state.seenIndicesCount - state.validVotes) ≤ u32Max := by omega
  have hpresented_le :
      state.seenIndicesCount + (state.treeSize.get.toNat - state.seenIndicesCount) ≤ u32Max := by
    omega
  simp only [buildVerificationOutput, AccountingSummary.derive, h.seen_length, h.included_length,
    hsum, hseenPop, hincludedPop, ok_bind, checkedSub_of_le hseen, checkedSub_of_le hvalid,
    checkedAdd_of_le hvotes_le, checkedAdd_of_le hexcluded_le, checkedAdd_of_le hpresented_le, okOr,
    refuseIf, ne_eq, not_true_eq_false, if_false, htotal, hsubset,
    Nat.add_sub_cancel' hseen, pure, Except.pure]
  rfl

/-- The journal of an input, read off its log. -/
def journalOf (input : AggregatorInput) (inputCommitment : Bytes 32) : VerificationOutput :=
  let log := ballotLog sha256 input
  let treeSize := input.treeSize.toNat
  let valid := (countedVotes log).length
  let seen := (seenSlots log).length
  { electionId := input.electionId
    electionConfigHash := input.electionConfigHash
    bulletinRoot := input.bulletinRoot
    treeSize
    totalExpected := input.totalExpected.toNat
    sthDigest := computeSthDigest sha256 input.logId input.treeSize input.timestamp input.bulletinRoot
    verifiedTally := tallyOf (countedVotes log)
    totalVotes := input.votes.length
    validVotes := valid
    invalidVotes := input.votes.length - valid
    seenIndicesCount := seen
    missingSlots := treeSize - seen
    invalidPresentedSlots := seen - valid
    rejectedRecords := input.votes.length - valid
    seenBitmapRoot := computeBitmapMerkleRoot sha256 (marks treeSize (seenSlots log))
    includedBitmapRoot := computeBitmapMerkleRoot sha256 (marks treeSize (includedSlots log))
    excludedSlots := treeSize - seen + (seen - valid)
    inputCommitment
    methodVersion := currentMethodVersion }

section Accounting

variable (input)

theorem seen_le_treeSize : (seenSlots (ballotLog sha256 input)).length ≤ input.treeSize.toNat := by
  rw [ballotLog, ← count_marks (seenSlots_nodup sha256 input.votes) (seenSlots_lt sha256 input.votes)]
  exact List.count_le_length.trans (marks_length ..).le

theorem valid_le_seen :
    (countedVotes (ballotLog sha256 input)).length ≤ (seenSlots (ballotLog sha256 input)).length := by
  rw [← List.length_map slot]
  exact (includedSlots_sublist _).length_le

theorem valid_le_total : (countedVotes (ballotLog sha256 input)).length ≤ input.votes.length := by
  refine (picked_length_le _).trans ?_
  rw [ballotLog, replay_length]

end Accounting

/-- The finished loop is consistent. -/
theorem finishTally_ok (h : Admits input validated) {start : Option (List GuestVoteInspection)}
    {s : TallyState} (hrep : Represents input.treeSize.toNat start (ballotLog sha256 input) s)
    {digest : Bytes 32}
    (hdigest : computeInputCommitmentV4 sha256 input.electionId input.bulletinRoot input.treeSize
      input.totalExpected input.votes = .ok digest) :
    finishTally sha256 validated s = .ok ⟨journalOf sha256 input digest,
      marks input.treeSize.toNat (includedSlots (ballotLog sha256 input))⟩ := by
  have hcounts := hrep.counts
  have hvalid := hrep.validCount
  rw [ballotLog, replay_length] at hcounts
  have hinvalid :
      s.invalidCount = input.votes.length - (countedVotes (ballotLog sha256 input)).length := by omega
  have hvotes : input.votes.length ≤ u32Max := h.budget.votes_le.trans (by decide)
  have hlen : validated.votes.length = input.votes.length := by rw [h.votes, List.length_map]
  simp only [finishTally, h.raw, h.electionId, h.bulletinRoot, h.treeSize, h.totalExpected, h.logId,
    h.timestamp, h.electionConfigHash, hlen, hdigest, VoteCount.new_of_le hvotes, mapErr, ok_bind]
  rw [buildVerificationOutput_ok]
  · simp only [ok_bind, journalOf, hrep.indexSeen, hrep.includedBitmap, hrep.tally, hrep.validCount,
      hrep.seenCount, hinvalid, h.bulletinRoot, h.treeSize]
    rfl
  · refine ⟨?_, ?_, ?_, hvotes, ?_, ?_, ?_, ?_, ?_, ?_⟩
    · simp only [hrep.indexSeen, marks_length, h.treeSize]
    · simp only [hrep.includedBitmap, marks_length, h.treeSize]
    · exact hcounts.symm
    · simp only [hrep.tally, hrep.validCount]
      exact tallyOf_sum fun vote hvote => (countedVotes_counts sha256 input.votes vote hvote).choice_lt
    · simp only [hrep.indexSeen, hrep.seenCount]
      exact count_marks (seenSlots_nodup sha256 input.votes) (seenSlots_lt sha256 input.votes)
    · simp only [hrep.includedBitmap, hrep.validCount]
      rw [ballotLog, count_marks (includedSlots_nodup sha256 input.votes)
        (includedSlots_lt sha256 input.votes)]
      exact List.length_map ..
    · simp only [hrep.includedBitmap, hrep.indexSeen]
      exact marks_subset (includedSlots_sublist _).subset
    · simp only [hrep.seenCount, h.treeSize]
      exact seen_le_treeSize sha256 input
    · simp only [hrep.validCount, hrep.seenCount]
      exact valid_le_seen sha256 input

/-- SPEC: on an admitted input the guest returns the journal and the verdicts of its log. -/
theorem verifyAndTallyCore_ok (h : Admits input validated) (start : Option (List GuestVoteInspection)) :
    ∃ digest, computeInputCommitmentV4 sha256 input.electionId input.bulletinRoot input.treeSize
        input.totalExpected input.votes = .ok digest ∧
      verifyAndTallyCore sha256 validated start = .ok (⟨journalOf sha256 input digest,
        marks input.treeSize.toNat (includedSlots (ballotLog sha256 input))⟩,
        start.map (· ++ (ballotLog sha256 input).map Prod.snd)) := by
  obtain ⟨s, hloop, hrep⟩ := tallyLoop_represents sha256 h start
  have hvotes : input.votes.length ≤ u32Max := h.budget.votes_le.trans (by decide)
  obtain ⟨digest, hdigest⟩ := computeInputCommitmentV4_ok sha256 hvotes h.budget.path_le
  refine ⟨digest, hdigest, ?_⟩
  rw [verifyAndTallyCore, hloop, ok_bind, finishTally_ok sha256 h hrep hdigest, ok_bind, hrep.outcomes]
  rfl

/-! ### Both entry points -/

/-- An accepted input: what the inspecting entry point returns. -/
theorem verifyAndTallyChecked_ok {inspection : GuestTallyInspection}
    (h : verifyAndTallyChecked sha256 input = .ok inspection) :
    ∃ validated digest, Admits input validated ∧
      ValidatedAggregatorInput.validate input = .ok validated ∧
      computeInputCommitmentV4 sha256 input.electionId input.bulletinRoot input.treeSize
        input.totalExpected input.votes = .ok digest ∧
      inspection = ⟨journalOf sha256 input digest, (ballotLog sha256 input).map Prod.snd,
        marks input.treeSize.toNat (includedSlots (ballotLog sha256 input))⟩ := by
  rw [verifyAndTallyChecked, bind_eq_ok] at h
  obtain ⟨validated, hvalidate, h⟩ := h
  have hadmits := validate_admits hvalidate
  obtain ⟨digest, hdigest, hcore⟩ := verifyAndTallyCore_ok sha256 hadmits (some [])
  rw [hcore, ok_bind] at h
  cases h
  exact ⟨validated, digest, hadmits, hvalidate, hdigest, by simp⟩

/-- The two entry points differ only in what they show. -/
theorem verifyAndTallyCheckedOutput_eq (input : AggregatorInput) :
    GuestTallyInspection.output <$> verifyAndTallyChecked sha256 input =
      verifyAndTallyCheckedOutput sha256 input := by
  rw [verifyAndTallyChecked, verifyAndTallyCheckedOutput]
  cases hvalidate : ValidatedAggregatorInput.validate input with
  | error e => rfl
  | ok validated =>
    have hadmits := validate_admits hvalidate
    obtain ⟨digest, hdigest, hcore⟩ := verifyAndTallyCore_ok sha256 hadmits (some [])
    obtain ⟨digest', hdigest', hcore'⟩ := verifyAndTallyCore_ok sha256 hadmits none
    rw [hdigest] at hdigest'
    cases hdigest'
    simp only [ok_bind, hcore, hcore']
    rfl

/-- An accepted input: what the journal-only entry point returns. -/
theorem verifyAndTallyCheckedOutput_ok {output : VerificationOutput}
    (h : verifyAndTallyCheckedOutput sha256 input = .ok output) :
    ∃ validated digest, Admits input validated ∧
      computeInputCommitmentV4 sha256 input.electionId input.bulletinRoot input.treeSize
        input.totalExpected input.votes = .ok digest ∧ output = journalOf sha256 input digest := by
  rw [← verifyAndTallyCheckedOutput_eq] at h
  cases hchecked : verifyAndTallyChecked sha256 input with
  | error e => rw [hchecked] at h; cases h
  | ok inspection =>
    obtain ⟨validated, digest, hadmits, -, hdigest, rfl⟩ := verifyAndTallyChecked_ok sha256 hchecked
    rw [hchecked] at h
    cases h
    exact ⟨validated, digest, hadmits, hdigest, rfl⟩

/-- TOTALITY: after admission the guest cannot fail, with or without recorded outcomes. The two entry
    points return and fail together, and the outcomes are those of the records, one each, in order:
    after `k` passes of the loop exactly the first `k` outcomes have been pushed. -/
theorem guest_total_after_admission (input : AggregatorInput) :
    (∀ validated, ValidatedAggregatorInput.validate input = .ok validated →
      ∀ voteOutcomes, ∃ result, verifyAndTallyCore sha256 validated voteOutcomes = .ok result) ∧
    GuestTallyInspection.output <$> verifyAndTallyChecked sha256 input =
      verifyAndTallyCheckedOutput sha256 input ∧
    (∀ inspection validated, verifyAndTallyChecked sha256 input = .ok inspection →
      ValidatedAggregatorInput.validate input = .ok validated →
      inspection.voteOutcomes.length = input.votes.length ∧
      ∀ k, ∃ s, (validated.votes.take k).foldlM (tallyStep sha256 validated)
          (TallyState.init validated.treeSize.get.toNat (some [])) = .ok s ∧
        s.voteOutcomes = some (inspection.voteOutcomes.take k)) := by
  refine ⟨fun validated hvalidate voteOutcomes => ?_, verifyAndTallyCheckedOutput_eq sha256 input, ?_⟩
  · obtain ⟨digest, -, hcore⟩ := verifyAndTallyCore_ok sha256 (validate_admits hvalidate) voteOutcomes
    exact ⟨_, hcore⟩
  · intro inspection validated hinspection hvalidate
    obtain ⟨_, _, _, _, _, rfl⟩ := verifyAndTallyChecked_ok sha256 hinspection
    refine ⟨by simp [ballotLog], fun k => ?_⟩
    obtain ⟨s, hs, hrep⟩ := tallyLoop_take sha256 (validate_admits hvalidate) (some []) k
    exact ⟨s, hs, by simpa [ballotLog, replay_take] using hrep.outcomes⟩

/-- A vote for candidate 2 at the only slot of its bulletin. -/
def sampleVote : VoteWithProof where
  commitment := computeCommitment Sha256.digest (Bytes.fill 16 0x5a) 2 (Bytes.fill 32 0x11)
  choice := 2
  random := Bytes.fill 32 0x11
  index := 0
  merklePath := []

/-- A bulletin of one slot with the given records. -/
def sampleInput (votes : List VoteWithProof) : AggregatorInput where
  electionId := Bytes.fill 16 0x5a
  bulletinRoot := hashLeaf Sha256.digest sampleVote.commitment
  treeSize := 1
  logId := Bytes.fill 32 0x22
  timestamp := 1700000000000
  totalExpected := 1
  electionConfigHash := Bytes.fill 32 0x33
  votes

/-- An admitted input is accepted. -/
theorem verifyAndTallyChecked_of_admitted (h : (ValidatedAggregatorInput.validate input).isOk = true) :
    ∃ inspection, verifyAndTallyChecked sha256 input = .ok inspection ∧
      verifyAndTallyCheckedOutput sha256 input = .ok inspection.output := by
  obtain ⟨validated, hvalidate⟩ := exists_of_isOk h
  obtain ⟨digest, -, hcore⟩ := verifyAndTallyCore_ok sha256 (validate_admits hvalidate) (some [])
  have hchecked : ∃ inspection, verifyAndTallyChecked sha256 input = .ok inspection := by
    rw [verifyAndTallyChecked, hvalidate, ok_bind, hcore, ok_bind]
    exact ⟨_, rfl⟩
  obtain ⟨inspection, hinspection⟩ := hchecked
  exact ⟨inspection, hinspection, by rw [← verifyAndTallyCheckedOutput_eq, hinspection]; rfl⟩

theorem sampleInput_admitted :
    (ValidatedAggregatorInput.validate (sampleInput [sampleVote])).isOk = true := by
  decide +kernel

theorem sampleInput_twice_admitted :
    (ValidatedAggregatorInput.validate (sampleInput [sampleVote, sampleVote])).isOk = true := by
      decide +kernel

theorem guest_total_on_sample : ∃ validated result,
    ValidatedAggregatorInput.validate (sampleInput [sampleVote, sampleVote]) = .ok validated ∧
      verifyAndTallyCore Sha256.digest validated (some []) = .ok result := by
  obtain ⟨validated, hvalidate⟩ := exists_of_isOk sampleInput_twice_admitted
  obtain ⟨result, hresult⟩ :=
    (guest_total_after_admission Sha256.digest _).1 validated hvalidate (some [])
  exact ⟨validated, result, hvalidate, hresult⟩

end StarkBallot.Guest
