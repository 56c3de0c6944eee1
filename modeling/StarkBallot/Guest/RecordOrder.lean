import StarkBallot.Guest.Journal

/-! The order of the records. A record can only be turned away because of an earlier one when both claim
    a slot or both bring a commitment. Where no two records compete for either, each is judged as if it
    came alone, so the log of a permuted input is a permutation of the log:

        votes    v1 v2 v3    ──permute──▶    v3 v1 v2
        verdict  a  r  a                     a  a  r      the same verdict stays with its record

    The journal shows sets of slots, counts and the canonical preimage, none of which has an order. -/

namespace StarkBallot.Guest
open Schemes ContractCore GuestVoteInspection

variable (sha256 : List UInt8 → Bytes 32)

/-- No two records share a slot of the tree, and no two share a commitment. -/
structure DistinctRecords (input : AggregatorInput) : Prop where
  slots : input.votes.Pairwise fun v w => slot v < input.treeSize.toNat → slot v ≠ slot w
  commitments : (input.votes.map VoteWithProof.commitment).Nodup

variable {input : AggregatorInput} {votes : List VoteWithProof}

theorem DistinctRecords.perm (h : DistinctRecords input) (hperm : votes.Perm input.votes) :
    DistinctRecords { input with votes := votes } where
  slots := by
    refine (hperm.pairwise_iff ?_).mpr h.slots
    intro v w hvw hw hsame
    exact hvw (hsame ▸ hw) hsame.symm
  commitments := ((hperm.map VoteWithProof.commitment).nodup_iff).mpr h.commitments

/-- The verdict on a record that comes first. -/
abbrev verdictAlone (input : AggregatorInput) : VoteWithProof → GuestVoteInspection :=
  verdict sha256 input []

variable {log : Log} {vote : VoteWithProof}

theorem verdict_eq_alone (hslot : slot vote ∉ seenSlots log)
    (hcommitment : vote.commitment ∉ reservedCommitments log) :
    verdict sha256 input log vote = verdictAlone sha256 input vote := by
  have hnoSlot : slot vote ∉ seenSlots [] := List.not_mem_nil
  have hnoCommitment : vote.commitment ∉ reservedCommitments [] := List.not_mem_nil
  simp only [verdictAlone, verdict, hslot, hcommitment, hnoSlot, hnoCommitment, if_false]

/-- Distinct records are judged one by one. -/
theorem ballotLog_of_distinct (h : DistinctRecords input) :
    ballotLog sha256 input = input.votes.map fun vote => (vote, verdictAlone sha256 input vote) := by
  refine replay_eq_map ?_
  intro done vote rest hvotes
  have hslots := h.slots
  have hcommitments := h.commitments
  rw [hvotes, List.pairwise_append] at hslots
  rw [hvotes, List.map_append, List.nodup_append] at hcommitments
  refine verdict_eq_alone sha256 ?_ ?_
  · intro hseen
    obtain ⟨earlier, hearlier, hsame⟩ := List.mem_map.mp hseen
    rw [picked_map, List.mem_filter] at hearlier
    have hlt : slot earlier < input.treeSize.toNat := (marksSlot_verdict.mp hearlier.2).1
    exact hslots.2.2 earlier hearlier.1 vote List.mem_cons_self hlt hsame
  · intro hreserved
    obtain ⟨earlier, hearlier, hsame⟩ := List.mem_map.mp hreserved
    rw [picked_map, List.mem_filter] at hearlier
    exact hcommitments.2.2 _ (List.mem_map_of_mem hearlier.1)
      _ (List.mem_map_of_mem List.mem_cons_self) hsame

theorem tallyOf_perm {votes votes' : List VoteWithProof} (h : votes.Perm votes') :
    tallyOf votes = tallyOf votes' := by
  unfold tallyOf
  congr 1
  funext c
  exact h.countP_eq _

/-- The records that are picked, in another order. -/
theorem picked_perm (h : DistinctRecords input) (hperm : votes.Perm input.votes)
    (p : GuestVoteInspection → Bool) :
    (picked p (ballotLog sha256 { input with votes := votes })).Perm
      (picked p (ballotLog sha256 input)) := by
  rw [ballotLog_of_distinct sha256 h, ballotLog_of_distinct sha256 (h.perm hperm),
    picked_map, picked_map]
  exact hperm.filter _

/-- The journal does not show the order of the records. -/
theorem journalOf_perm (h : DistinctRecords input) (hperm : votes.Perm input.votes) (digest : Bytes 32) :
    journalOf sha256 { input with votes := votes } digest = journalOf sha256 input digest := by
  have hcounted := picked_perm sha256 h hperm isAccepted
  have hseen := (picked_perm sha256 h hperm marksSlot).map slot
  have hincluded := hcounted.map slot
  have hseenMarks := @marks_congr input.treeSize.toNat _ _ fun i => hseen.mem_iff (a := i)
  have hincludedMarks := @marks_congr input.treeSize.toNat _ _ fun i => hincluded.mem_iff (a := i)
  simp only [journalOf, countedVotes, seenSlots, includedSlots, hcounted.length_eq, hseen.length_eq,
    tallyOf_perm hcounted, hperm.length_eq, hseenMarks, hincludedMarks]

theorem computeInputCommitmentV4_perm (hperm : votes.Perm input.votes) :
    computeInputCommitmentV4 sha256 input.electionId input.bulletinRoot input.treeSize
      input.totalExpected votes =
      computeInputCommitmentV4 sha256 input.electionId input.bulletinRoot input.treeSize
        input.totalExpected input.votes := by
  rw [computeInputCommitmentV4, computeInputCommitmentV4, encodeInputCommitmentPreimage_eq,
    encodeInputCommitmentPreimage_eq, canonicalPreimage_perm (hperm.map VoteWithProof.committed)]

/-- Admission does not see the order of the records. -/
theorem validate_perm {validated : ValidatedAggregatorInput} (hperm : votes.Perm input.votes)
    (h : ValidatedAggregatorInput.validate input = .ok validated) :
    (ValidatedAggregatorInput.validate { input with votes := votes }).isOk = true := by
  have hbudget := (validate_admits h).budget.perm hperm
  simp only [ValidatedAggregatorInput.validate, bind_eq_ok, refuseIf_eq_ok] at h
  obtain ⟨root, hroot, treeSize, hsize, timestamp, htime, totalExpected, hexpected, _, hcount, count,
    hvoteCount, _, hpaths, budget, hadmitted, -⟩ := h
  have hany :
      ¬ (votes.any fun vote => vote.merklePath.length > maxGuestMerklePathNodesPerRecord) = true := by
    rwa [hperm.any_eq]
  have hnone : validateSerializedInputBytes none = .ok () := rfl
  simp only [ValidatedAggregatorInput.validate, hperm.length_eq]
  rw [hroot, ok_bind, hsize, ok_bind, htime, ok_bind, hexpected, ok_bind, refuseIf_of_not hcount,
    ok_bind, hvoteCount, ok_bind, refuseIf_of_not hany, ok_bind,
    validateGuestWorkBudget_eq_ok hbudget hnone]
  rfl

/-- ORDER: records that do not compete for a slot or a commitment may come in any order; the guest
    accepts the same inputs and writes the same journal. -/
theorem output_independent_of_record_order {input : AggregatorInput} {votes : List VoteWithProof}
    {output : VerificationOutput} (hdistinct : DistinctRecords input) (hperm : votes.Perm input.votes)
    (h : verifyAndTallyCheckedOutput sha256 input = .ok output) :
    verifyAndTallyCheckedOutput sha256 { input with votes := votes } = .ok output := by
  have hvalidated : ∃ validated, ValidatedAggregatorInput.validate input = .ok validated := by
    rw [verifyAndTallyCheckedOutput, bind_eq_ok] at h
    exact ⟨_, h.choose_spec.1⟩
  obtain ⟨validated, hvalidate⟩ := hvalidated
  obtain ⟨_, digest, -, hdigest, rfl⟩ := verifyAndTallyCheckedOutput_ok sha256 h
  obtain ⟨inspection, -, haccepted⟩ :=
    verifyAndTallyChecked_of_admitted sha256 (validate_perm hperm hvalidate)
  obtain ⟨_, digest', -, hdigest', houtput⟩ := verifyAndTallyCheckedOutput_ok sha256 haccepted
  obtain rfl : digest = digest' := by
    have hsame := computeInputCommitmentV4_perm sha256 hperm
    exact Except.ok.inj (hdigest.symm.trans (hsame.symm.trans hdigest'))
  rw [haccepted, houtput, journalOf_perm sha256 hdistinct hperm]

/-- Another vote for the only slot of the bulletin, out of range. -/
def strayVote : VoteWithProof := { sampleVote with commitment := Bytes.fill 32 0x44, index := 7 }

theorem record_order_on_sample : ∃ output,
    verifyAndTallyCheckedOutput Sha256.digest (sampleInput [sampleVote, strayVote]) = .ok output ∧
      verifyAndTallyCheckedOutput Sha256.digest (sampleInput [strayVote, sampleVote]) = .ok output := by
  have hadmitted :
      (ValidatedAggregatorInput.validate (sampleInput [sampleVote, strayVote])).isOk = true := by
    decide +kernel
  have hdistinct : DistinctRecords (sampleInput [sampleVote, strayVote]) :=
    ⟨by decide +kernel, by decide +kernel⟩
  obtain ⟨inspection, -, houtput⟩ := verifyAndTallyChecked_of_admitted Sha256.digest hadmitted
  have hswapped :=
    output_independent_of_record_order Sha256.digest hdistinct
      (List.Perm.swap sampleVote strayVote []) houtput
  exact ⟨inspection.output, houtput, hswapped⟩

end StarkBallot.Guest
