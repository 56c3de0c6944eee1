import StarkBallot.Guest.RecordOrder

/-! Inputs without a record to reject (`verify_and_tally_core` of `tally.rs`). Where every record could
    be counted on its own, and no two of them compete for a slot or a commitment,
    the guest accepts each one:

        record   v1 v2 v3         counts for its choice, fills its slot
        verdict  a  a  a          left over: the slots that no record claims -/

namespace StarkBallot.Guest
open Schemes ContractCore GuestVoteInspection

variable (sha256 : List UInt8 → Bytes 32)

/-- Every record counts, and none competes with another one. -/
structure AllCount (input : AggregatorInput) : Prop where
  counts : ∀ vote ∈ input.votes, Counts sha256 input vote
  slots : (input.votes.map slot).Nodup
  commitments : (input.votes.map VoteWithProof.commitment).Nodup

variable {sha256} {input : AggregatorInput}

theorem AllCount.distinct (h : AllCount sha256 input) : DistinctRecords input where
  slots := by
    refine (List.pairwise_map.mp h.slots).imp ?_
    intro v w hne _
    exact hne
  commitments := h.commitments

/-- A record that counts is accepted when it comes first. -/
theorem Counts.verdictAlone_eq {vote : VoteWithProof} (h : Counts sha256 input vote) :
    verdictAlone sha256 input vote = .accepted := by
  have hslot : slot vote ∉ seenSlots [] := List.not_mem_nil
  have hcommitment : vote.commitment ∉ reservedCommitments [] := List.not_mem_nil
  simp only [verdictAlone, verdict, h.slot_lt, h.choice_lt, h.opens, h.proves, hslot, hcommitment,
    not_true_eq_false, if_false]

theorem ballotLog_of_allCount (h : AllCount sha256 input) :
    ballotLog sha256 input = input.votes.map fun vote => (vote, .accepted) := by
  rw [ballotLog_of_distinct sha256 h.distinct]
  refine List.map_congr_left ?_
  intro vote hvote
  rw [(h.counts vote hvote).verdictAlone_eq]

/-- Whatever accepted records are picked for, all of them are. -/
theorem picked_of_accepted {p : GuestVoteInspection → Bool} (hp : p .accepted = true)
    (votes : List VoteWithProof) :
    picked p (votes.map fun vote => (vote, .accepted)) = votes := by
  rw [picked_map, hp, List.filter_eq_self]
  exact fun _ _ => rfl

/-- What the guest makes of such an input. -/
structure Tallied (sha256 : List UInt8 → Bytes 32) (input : AggregatorInput)
    (inspection : GuestTallyInspection) :
    Prop where
  outcomes : inspection.voteOutcomes = List.replicate input.votes.length .accepted
  electionId : inspection.output.electionId = input.electionId
  bulletinRoot : inspection.output.bulletinRoot = input.bulletinRoot
  treeSize : inspection.output.treeSize = input.treeSize.toNat
  totalExpected : inspection.output.totalExpected = input.totalExpected.toNat
  verifiedTally : inspection.output.verifiedTally = tallyOf input.votes
  totalVotes : inspection.output.totalVotes = input.votes.length
  validVotes : inspection.output.validVotes = input.votes.length
  invalidVotes : inspection.output.invalidVotes = 0
  rejectedRecords : inspection.output.rejectedRecords = 0
  seenIndicesCount : inspection.output.seenIndicesCount = input.votes.length
  missingSlots : inspection.output.missingSlots = input.treeSize.toNat - input.votes.length
  invalidPresentedSlots : inspection.output.invalidPresentedSlots = 0
  excludedSlots : inspection.output.excludedSlots = input.treeSize.toNat - input.votes.length
  includedBitmap : inspection.includedBitmap = marks input.treeSize.toNat (input.votes.map slot)

/-- What the guest admits. -/
theorem validate_isOk (hroot : input.bulletinRoot ≠ Bytes.fill 32 0) (htime : input.timestamp ≠ 0)
    (hbudget : WithinBudget input) : (ValidatedAggregatorInput.validate input).isOk = true := by
  have hvalue : ¬ input.bulletinRoot.toList.all (· == 0) = true := by
    intro hall
    refine hroot (Bytes.ext (List.eq_replicate_iff.mpr ⟨input.bulletinRoot.length_eq, ?_⟩))
    intro byte hbyte
    exact beq_iff_eq.mp (List.all_eq_true.mp hall byte hbyte)
  have hsize : input.treeSize ≠ 0 := by
    intro hzero
    have hpos := hbudget.treeSize_pos
    rw [hzero] at hpos
    exact absurd hpos (by decide)
  have htreeSize := hbudget.treeSize_le
  have hexpected : ¬ input.totalExpected.toNat > maxGuestTreeSize := not_lt.mpr hbudget.totalExpected_le
  have hvotes := hbudget.votes_le
  have hcount : input.votes.length ≤ u32Max := hvotes.trans (by decide)
  have hpaths :
      ¬ (input.votes.any fun vote => vote.merklePath.length > maxGuestMerklePathNodesPerRecord) =
        true := by
    simpa using hbudget.path_le
  have hwork := @validateGuestWorkBudget_eq_ok input hbudget none rfl
  simp only [ValidatedAggregatorInput.validate, BulletinRoot.new, hvalue, validateTreeSize,
    TreeSize.new, hsize, UnixTimestampMillis.new, htime, validateTotalExpected,
    VoteCount.new_of_le hcount, hwork, mapErr, ok_bind, Bool.false_eq_true, dite_false]
  rw [refuseIf_of_not (by simpa using htreeSize)]
  simp only [ok_bind, refuseIf_of_not hexpected, refuseIf_of_not (not_lt.mpr hvotes),
    refuseIf_of_not hpaths]
  rfl

/-- SPEC: the guest accepts every record and tallies all of them. -/
theorem tallied_of_allCount {inspection : GuestTallyInspection}
    (hrun : verifyAndTallyChecked sha256 input = .ok inspection) (h : AllCount sha256 input) :
    Tallied sha256 input inspection := by
  obtain ⟨_, digest, -, -, -, rfl⟩ := verifyAndTallyChecked_ok sha256 hrun
  have hlog := ballotLog_of_allCount h
  have hcounted : countedVotes (ballotLog sha256 input) = input.votes := by
    rw [hlog]
    exact picked_of_accepted rfl _
  have hseen : seenSlots (ballotLog sha256 input) = input.votes.map slot := by
    rw [hlog, seenSlots, picked_of_accepted rfl]
  exact {
    outcomes := by
      rw [hlog, List.map_map]
      exact List.map_const' ..
    electionId := rfl
    bulletinRoot := rfl
    treeSize := rfl
    totalExpected := rfl
    verifiedTally := congrArg tallyOf hcounted
    totalVotes := rfl
    validVotes := congrArg List.length hcounted
    invalidVotes := by simp [journalOf, hcounted]
    rejectedRecords := by simp [journalOf, hcounted]
    seenIndicesCount := by simp [journalOf, hseen]
    missingSlots := by simp [journalOf, hseen]
    invalidPresentedSlots := by simp [journalOf, hseen, hcounted]
    excludedSlots := by simp [journalOf, hseen, hcounted]
    includedBitmap := by simp only [includedSlots, hcounted] }

/-- SPEC: within the budget every record is tallied. -/
theorem verifyAndTallyChecked_of_allCount (hroot : input.bulletinRoot ≠ Bytes.fill 32 0)
    (htime : input.timestamp ≠ 0) (hbudget : WithinBudget input) (h : AllCount sha256 input) :
    ∃ inspection, verifyAndTallyChecked sha256 input = .ok inspection ∧
    Tallied sha256 input inspection := by
  obtain ⟨inspection, hinspection, -⟩ :=
    verifyAndTallyChecked_of_admitted sha256 (validate_isOk hroot htime hbudget)
  exact ⟨inspection, hinspection, tallied_of_allCount hinspection h⟩

end StarkBallot.Guest
