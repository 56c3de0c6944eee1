import StarkBallot.Guest.Journal
import StarkBallot.Schemes.Collision

/-! What a journal binds. A counted vote is pinned down by its slot: the bulletin root fixes the
    commitment at the slot and the commitment fixes the choice. So two runs over one bulletin that
    count the same slots count the same choices, and a run over the bulletin of a log counts votes of
    the log.

        included root ──▶ included slots ──▶ commitment at each slot ──▶ choice at each slot ──▶ tally
                 bitmap tree        bulletin tree               opening

    Each arrow is injectivity of the hash on messages the runs themselves hash; `hashedMessages` lists
    them, and where injectivity fails the search of that list returns the collision. -/

namespace StarkBallot.Guest
open Schemes ContractCore GuestVoteInspection

variable (sha256 : List UInt8 → Bytes 32)

/-- The messages hashed to check the records of an input. -/
def recordMessages (input : AggregatorInput) : List (List UInt8) :=
  input.votes.flatMap fun vote => commitmentMessage input.electionId vote.choice vote.random ::
    pathMessages sha256 vote.commitment vote.index vote.merklePath input.treeSize

/-- The bitmap of counted slots. -/
def includedBitmapOf (input : AggregatorInput) : List Bool :=
  marks input.treeSize.toNat (includedSlots (ballotLog sha256 input))

/-- The messages hashed to check the records and to commit the included bitmap. -/
def hashedMessages (input : AggregatorInput) : List (List UInt8) :=
  recordMessages sha256 input ++ bitmapMessages sha256 (includedBitmapOf sha256 input)

/-- Search two runs for a collision. -/
def extractCollision (A B : AggregatorInput) : Option (List UInt8 × List UInt8) :=
  findCollision sha256 (hashedMessages sha256 A ++ hashedMessages sha256 B)

variable {sha256} {A B input : AggregatorInput} {Q : Set (List UInt8)}

theorem countedVotes_mem {vote : VoteWithProof} (h : vote ∈ countedVotes (ballotLog sha256 input)) :
    vote ∈ input.votes := by
  obtain ⟨outcome, hmem, -⟩ := mem_picked.mp h
  have hrecords : (ballotLog sha256 input).map Prod.fst = input.votes := replay_records _
  exact hrecords ▸ List.mem_map_of_mem hmem

theorem commitmentMessage_mem {vote : VoteWithProof} (hmem : ∀ m ∈ recordMessages sha256 input, m ∈ Q)
    (hvote : vote ∈ input.votes) : commitmentMessage input.electionId vote.choice vote.random ∈ Q :=
  hmem _ (List.mem_flatMap.mpr ⟨vote, hvote, List.mem_cons_self⟩)

theorem pathMessages_mem {vote : VoteWithProof} (hmem : ∀ m ∈ recordMessages sha256 input, m ∈ Q)
    (hvote : vote ∈ input.votes) :
    ∀ m ∈ pathMessages sha256 vote.commitment vote.index vote.merklePath input.treeSize, m ∈ Q :=
  fun m hm => hmem m (List.mem_flatMap.mpr ⟨vote, hvote, List.mem_cons_of_mem _ hm⟩)

/-! ### Two runs over one bulletin -/

/-- Slot and choice of every counted vote. -/
def ballots (votes : List VoteWithProof) : List (ℕ × ℕ) :=
  votes.map fun vote => (slot vote, vote.choice.toNat)

theorem tallyOf_eq_of_perm {votes votes' : List VoteWithProof}
    (h : (ballots votes).Perm (ballots votes')) :
    tallyOf votes = tallyOf votes' := by
  refine Vector.ext fun c hc => ?_
  have hcount := h.countP_eq fun ballot => decide (ballot.2 = c)
  rw [ballots, ballots, List.countP_map, List.countP_map] at hcount
  rw [tallyOf_getElem _ hc, tallyOf_getElem _ hc]
  exact hcount

theorem ballots_nodup (input : AggregatorInput) :
    (ballots (countedVotes (ballotLog sha256 input))).Nodup := by
  refine List.Nodup.of_map Prod.fst ?_
  rw [ballots, List.map_map]
  exact includedSlots_nodup sha256 input.votes

/-- One slot of one bulletin has one choice. -/
theorem choice_unique (hQ : Set.InjOn sha256 Q) (hid : A.electionId = B.electionId)
    (hroot : A.bulletinRoot = B.bulletinRoot) (hsize : A.treeSize = B.treeSize)
    (hA : ∀ m ∈ recordMessages sha256 A, m ∈ Q) (hB : ∀ m ∈ recordMessages sha256 B, m ∈ Q)
    {a b : VoteWithProof} (ha : a ∈ countedVotes (ballotLog sha256 A))
    (hb : b ∈ countedVotes (ballotLog sha256 B)) (hslot : slot a = slot b) : a.choice = b.choice := by
  have hcountA := countedVotes_counts sha256 A.votes a ha
  have hcountB := countedVotes_counts sha256 B.votes b hb
  have hindex : a.index = b.index := UInt32.toNat_inj.mp hslot
  have hpathA := pathMessages_mem hA (countedVotes_mem ha)
  have hpathB := pathMessages_mem hB (countedVotes_mem hb)
  have hprovesA := hcountA.proves
  have hprovesB := hcountB.proves
  rw [Proves, hindex, hroot, hsize] at hprovesA
  rw [hindex, hsize] at hpathA
  have hcommitment : a.commitment = b.commitment := included_unique hQ hpathA hpathB hprovesA hprovesB
  have hopens : sha256 (commitmentMessage A.electionId a.choice a.random) =
      sha256 (commitmentMessage B.electionId b.choice b.random) :=
    hcountA.opens.trans (hcommitment.trans hcountB.opens.symm)
  have hmessage := hQ (commitmentMessage_mem hA (countedVotes_mem ha))
    (commitmentMessage_mem hB (countedVotes_mem hb)) hopens
  rw [hid] at hmessage
  exact (commitmentMessage_injective hmessage).2.1

theorem ballots_subset (hQ : Set.InjOn sha256 Q) (hid : A.electionId = B.electionId)
    (hroot : A.bulletinRoot = B.bulletinRoot) (hsize : A.treeSize = B.treeSize)
    (hA : ∀ m ∈ recordMessages sha256 A, m ∈ Q) (hB : ∀ m ∈ recordMessages sha256 B, m ∈ Q)
    (hslots : ∀ i ∈ includedSlots (ballotLog sha256 A), i ∈ includedSlots (ballotLog sha256 B)) :
    ballots (countedVotes (ballotLog sha256 A)) ⊆ ballots (countedVotes (ballotLog sha256 B)) := by
  intro ballot hballot
  obtain ⟨a, ha, rfl⟩ := List.mem_map.mp hballot
  obtain ⟨b, hb, hslot⟩ := List.mem_map.mp (hslots _ (List.mem_map_of_mem ha))
  have hchoice := choice_unique hQ hid hroot hsize hA hB ha hb hslot.symm
  exact List.mem_map.mpr ⟨b, hb, by rw [hslot, hchoice]⟩

/-- BINDING: without a collision, one bulletin and one included root give one tally. -/
theorem tallyOf_eq_of_root (hQ : Set.InjOn sha256 Q) (hid : A.electionId = B.electionId)
    (hroot : A.bulletinRoot = B.bulletinRoot) (hsize : A.treeSize = B.treeSize)
    (hA : ∀ m ∈ hashedMessages sha256 A, m ∈ Q) (hB : ∀ m ∈ hashedMessages sha256 B, m ∈ Q)
    (hbitmap : computeBitmapMerkleRoot sha256 (includedBitmapOf sha256 A) =
      computeBitmapMerkleRoot sha256 (includedBitmapOf sha256 B)) :
    tallyOf (countedVotes (ballotLog sha256 A)) = tallyOf (countedVotes (ballotLog sha256 B)) := by
  have hrecA : ∀ m ∈ recordMessages sha256 A, m ∈ Q := fun m hm => hA m (List.mem_append_left _ hm)
  have hrecB : ∀ m ∈ recordMessages sha256 B, m ∈ Q := fun m hm => hB m (List.mem_append_left _ hm)
  have hmarks := computeBitmapMerkleRoot_inj hQ (by simp [includedBitmapOf, hsize])
    (fun m hm => hA m (List.mem_append_right _ hm))
    (fun m hm => hB m (List.mem_append_right _ hm)) hbitmap
  rw [includedBitmapOf, includedBitmapOf, hsize] at hmarks
  have hAB : ∀ i ∈ includedSlots (ballotLog sha256 A), i ∈ includedSlots (ballotLog sha256 B) :=
    fun i hi =>
    (marks_inj hmarks (hsize ▸ includedSlots_lt sha256 A.votes i hi)).mp hi
  have hBA : ∀ i ∈ includedSlots (ballotLog sha256 B), i ∈ includedSlots (ballotLog sha256 A) :=
    fun i hi =>
    (marks_inj hmarks (includedSlots_lt sha256 B.votes i hi)).mpr hi
  refine tallyOf_eq_of_perm
    ((List.perm_ext_iff_of_nodup (ballots_nodup A) (ballots_nodup B)).mpr fun ballot => ?_)
  exact ⟨fun h => ballots_subset hQ hid hroot hsize hrecA hrecB hAB h,
    fun h => ballots_subset hQ hid.symm hroot.symm hsize.symm hrecB hrecA hBA h⟩

theorem included_eq_of_excluded_zero {digest : Bytes 32}
    (h : (journalOf sha256 input digest).excludedSlots = 0) :
    includedBitmapOf sha256 input = List.replicate input.treeSize.toNat true := by
  have hvalid := valid_le_seen sha256 input
  have hseen := seen_le_treeSize sha256 input
  have hlen : (includedSlots (ballotLog sha256 input)).length = input.treeSize.toNat := by
    simp only [journalOf] at h
    rw [includedSlots, List.length_map]
    omega
  refine List.ext_getElem (by simp [includedBitmapOf]) fun i hi hi' => ?_
  rw [List.length_replicate] at hi'
  have hmem : i ∈ includedSlots (ballotLog sha256 input) :=
    mem_of_length_eq (includedSlots_nodup sha256 input.votes)
      (includedSlots_lt sha256 input.votes) hlen hi'
  simpa [includedBitmapOf, marks] using hmem

/-- BINDING: two accepted inputs over one bulletin whose journals have one included bitmap root have one
    tally, or their hashed messages hold a collision. Journals that exclude no slot have one root. -/
theorem tally_bound_by_included_root {outA outB : VerificationOutput}
    (hA : verifyAndTallyCheckedOutput sha256 A = .ok outA)
    (hB : verifyAndTallyCheckedOutput sha256 B = .ok outB) (hid : A.electionId = B.electionId)
    (hroot : A.bulletinRoot = B.bulletinRoot) (hsize : A.treeSize = B.treeSize) :
    (outA.excludedSlots = 0 → outB.excludedSlots = 0 →
      outA.includedBitmapRoot = outB.includedBitmapRoot) ∧
    (outA.includedBitmapRoot = outB.includedBitmapRoot →
      outA.verifiedTally = outB.verifiedTally ∨ Exhibits sha256 (extractCollision sha256 A B)) := by
  obtain ⟨_, _, -, -, rfl⟩ := verifyAndTallyCheckedOutput_ok sha256 hA
  obtain ⟨_, _, -, -, rfl⟩ := verifyAndTallyCheckedOutput_ok sha256 hB
  constructor
  · intro hzeroA hzeroB
    have hmarks : includedBitmapOf sha256 A = includedBitmapOf sha256 B := by
      rw [included_eq_of_excluded_zero hzeroA, included_eq_of_excluded_zero hzeroB, hsize]
    exact congrArg (computeBitmapMerkleRoot sha256) hmarks
  · intro hbitmap
    refine (injOn_or_collision sha256 _).imp_left fun hQ => ?_
    exact tallyOf_eq_of_root hQ hid hroot hsize (fun m hm => List.mem_append_left _ hm)
      (fun m hm => List.mem_append_right _ hm) hbitmap

theorem tally_bound_on_sample : ∃ outA outB,
    verifyAndTallyCheckedOutput Sha256.digest (sampleInput [sampleVote]) = .ok outA ∧
    verifyAndTallyCheckedOutput Sha256.digest (sampleInput [sampleVote, sampleVote]) = .ok outB ∧
    (outA.includedBitmapRoot = outB.includedBitmapRoot → outA.verifiedTally = outB.verifiedTally ∨
      Exhibits Sha256.digest
        (extractCollision Sha256.digest (sampleInput [sampleVote])
          (sampleInput [sampleVote, sampleVote]))) := by
  obtain ⟨inspectionA, -, hA⟩ := verifyAndTallyChecked_of_admitted Sha256.digest sampleInput_admitted
  obtain ⟨inspectionB, -, hB⟩ :=
    verifyAndTallyChecked_of_admitted Sha256.digest sampleInput_twice_admitted
  exact ⟨_, _, hA, hB, (tally_bound_by_included_root hA hB rfl rfl rfl).2⟩

/-! ### One run over the bulletin of a log -/

/-- The records with outcome `Accepted`. -/
def acceptedRecords (input : AggregatorInput) (inspection : GuestTallyInspection) : List VoteWithProof :=
  ((input.votes.zip inspection.voteOutcomes).filter fun record => record.2 = .accepted).map Prod.fst

variable (sha256) in
/-- The accepted records are votes of the log `L`, each slot and each commitment once, and bitmap and
    tally count exactly these. -/
structure CountsLogged (L : List (Bytes 32)) (input : AggregatorInput)
    (inspection : GuestTallyInspection) :
    Prop where
  slots : ∃ slotOf : Fin (acceptedRecords input inspection).length → Fin L.length,
    Function.Injective slotOf ∧
    ∀ i, (slotOf i).val = ((acceptedRecords input inspection).get i).index.toNat ∧
      ((acceptedRecords input inspection).get i).commitment = L.get (slotOf i) ∧
      computeCommitment sha256 input.electionId ((acceptedRecords input inspection).get i).choice
        ((acceptedRecords input inspection).get i).random = L.get (slotOf i)
  index_lt : ∀ vote ∈ acceptedRecords input inspection, vote.index < input.treeSize
  index_nodup : ((acceptedRecords input inspection).map VoteWithProof.index).Nodup
  commitment_nodup : ((acceptedRecords input inspection).map VoteWithProof.commitment).Nodup
  included : ∀ i, inspection.includedBitmap[i]? = some true ↔
    ∃ vote ∈ acceptedRecords input inspection, vote.index.toNat = i
  tally : ∀ c (hc : c < 5), inspection.output.verifiedTally[c] =
    (acceptedRecords input inspection).countP fun vote => vote.choice.toNat = c

theorem acceptedRecords_eq {inspection : GuestTallyInspection}
    (h : inspection.voteOutcomes = (ballotLog sha256 input).map Prod.snd) :
    acceptedRecords input inspection = countedVotes (ballotLog sha256 input) := by
  have hzip : input.votes.zip ((ballotLog sha256 input).map Prod.snd) = ballotLog sha256 input :=
    zip_replay input.votes
  rw [acceptedRecords, h, hzip, countedVotes, picked]
  congr 2
  funext record
  rcases record.2 with _ | _ <;> simp [isAccepted]

/-- Without a collision a counted vote is the vote of the log at its slot. -/
theorem countedVotes_logged (hQ : Set.InjOn sha256 Q) {L : List (Bytes 32)}
    (hsize : input.treeSize.toNat = L.length)
    (hroot : input.bulletinRoot = computeMerkleRoot sha256 (L.map (hashLeaf sha256)))
    (hrecords : ∀ m ∈ recordMessages sha256 input, m ∈ Q) (htree : ∀ m ∈ treeMessages sha256 L, m ∈ Q)
    {vote : VoteWithProof} (hvote : vote ∈ countedVotes (ballotLog sha256 input)) :
    L[vote.index.toNat]? = some vote.commitment := by
  have hproves := (countedVotes_counts sha256 input.votes vote hvote).proves
  rw [Proves, hroot] at hproves
  exact included_sound hQ hsize.symm htree (pathMessages_mem hrecords (countedVotes_mem hvote)) hproves

/-- Votes of a log with different indices have different slots. -/
theorem exists_slotOf {L : List (Bytes 32)} {votes : List VoteWithProof}
    (hindex : (votes.map VoteWithProof.index).Nodup)
    (hlogged : ∀ vote ∈ votes, L[vote.index.toNat]? = some vote.commitment) :
    ∃ slotOf : Fin votes.length → Fin L.length, Function.Injective slotOf ∧
      ∀ i, (slotOf i).val = (votes.get i).index.toNat ∧ (votes.get i).commitment = L.get (slotOf i) := by
  have hlt : ∀ i, (votes.get i).index.toNat < L.length := fun i =>
    (List.getElem?_eq_some_iff.mp (hlogged _ (List.get_mem votes i))).1
  refine ⟨fun i => ⟨_, hlt i⟩, ?_, fun i => ⟨rfl, ?_⟩⟩
  · intro i j hij
    have hsame : (votes.get i).index = (votes.get j).index := UInt32.toNat_inj.mp (Fin.mk.inj hij)
    have hlen : ∀ k : Fin votes.length, k.val < (votes.map VoteWithProof.index).length :=
      fun k => by simp
    refine Fin.ext ((@List.Nodup.getElem_inj_iff _ _ hindex i (hlen i) j (hlen j)).mp ?_)
    simpa using hsame
  · have hget := hlogged _ (List.get_mem votes i)
    rw [List.getElem?_eq_getElem (hlt i), Option.some.injEq] at hget
    exact hget.symm

/-- SOUNDNESS: over the bulletin of a log the guest counts only logged votes, each once, or the messages
    hashed for the records and for the log hold a collision. -/
theorem guest_counts_logged_votes {L : List (Bytes 32)} {inspection : GuestTallyInspection}
    (h : verifyAndTallyChecked sha256 input = .ok inspection) (hsize : input.treeSize.toNat = L.length)
    (hroot : input.bulletinRoot = computeMerkleRoot sha256 (L.map (hashLeaf sha256))) :
    CountsLogged sha256 L input inspection ∨
      Exhibits sha256 (findCollision sha256 (recordMessages sha256 input ++ treeMessages sha256 L)) := by
  refine (injOn_or_collision sha256 _).imp_left fun hQ => ?_
  obtain ⟨_, digest, -, -, -, hinspection⟩ := verifyAndTallyChecked_ok sha256 h
  have haccepted : acceptedRecords input inspection = countedVotes (ballotLog sha256 input) :=
    acceptedRecords_eq (by rw [hinspection])
  have hcounts : ∀ vote ∈ acceptedRecords input inspection, Counts sha256 input vote := by
    rw [haccepted]
    exact countedVotes_counts sha256 input.votes
  have hlogged :
      ∀ vote ∈ acceptedRecords input inspection, L[vote.index.toNat]? = some vote.commitment := by
    rw [haccepted]
    exact fun vote hvote => countedVotes_logged hQ hsize hroot (fun m hm => List.mem_append_left _ hm)
      (fun m hm => List.mem_append_right _ hm) hvote
  have hindex : ((acceptedRecords input inspection).map VoteWithProof.index).Nodup := by
    refine List.Nodup.of_map UInt32.toNat ?_
    rw [haccepted, List.map_map]
    exact includedSlots_nodup sha256 input.votes
  obtain ⟨slotOf, hinjective, hslotOf⟩ := exists_slotOf hindex hlogged
  exact {
    slots := by
      refine ⟨slotOf, hinjective, fun i => ?_⟩
      obtain ⟨hslot, hcommitment⟩ := hslotOf i
      have hopens := (hcounts _ (List.get_mem _ i)).opens
      exact ⟨hslot, hcommitment, hopens.trans hcommitment⟩
    index_lt := fun vote hvote => UInt32.lt_iff_toNat_lt.mpr (hcounts vote hvote).slot_lt
    index_nodup := hindex
    commitment_nodup := haccepted ▸ countedCommitments_nodup sha256 input.votes
    included := by
      intro i
      rw [haccepted, hinspection]
      exact (marks_eq_true (includedSlots_lt sha256 input.votes)).trans List.mem_map
    tally := by
      intro c hc
      rw [haccepted, hinspection]
      exact tallyOf_getElem _ hc }

theorem guest_counts_logged_on_sample : ∃ inspection,
    verifyAndTallyChecked Sha256.digest (sampleInput [sampleVote, sampleVote]) = .ok inspection ∧
    (CountsLogged Sha256.digest [sampleVote.commitment] (sampleInput [sampleVote, sampleVote])
      inspection ∨
      Exhibits Sha256.digest (findCollision Sha256.digest
        (recordMessages Sha256.digest (sampleInput [sampleVote, sampleVote]) ++
          treeMessages Sha256.digest [sampleVote.commitment]))) := by
  obtain ⟨inspection, hchecked, -⟩ :=
    verifyAndTallyChecked_of_admitted Sha256.digest sampleInput_twice_admitted
  exact ⟨inspection, hchecked, guest_counts_logged_votes hchecked rfl rfl⟩

end StarkBallot.Guest
