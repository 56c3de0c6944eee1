import StarkBallot.Guest.Tally
import StarkBallot.Schemes.Marks
import StarkBallot.Schemes.Replay
import Mathlib.Algebra.BigOperators.Fin

/-! What the tally loop computes. Each record gets a verdict from the log of the records before it, and
    everything the guest reports is read off the finished log:

        seen slots            slots of the records that marked one
        reserved commitments  commitments of the records that reached the inclusion check
        counted votes         the accepted records

    The loop keeps these as bitmaps, counters and a sorted vector (`Represents`), and one pass of the
    loop is one verdict (`tallyStep_represents`). With at most a million records no counter overflows,
    so the loop returns and ends in the log of the whole input. -/

namespace StarkBallot.Guest
open Schemes ContractCore

variable (sha256 : List UInt8 → Bytes 32) (input : AggregatorInput)

namespace GuestVoteInspection

def marksSlot : GuestVoteInspection → Bool
  | .accepted => true
  | .rejected _ slotSeen _ => slotSeen

def reserves : GuestVoteInspection → Bool
  | .accepted => true
  | .rejected _ _ commitmentReserved => commitmentReserved

def isAccepted : GuestVoteInspection → Bool
  | .accepted => true
  | .rejected .. => false

end GuestVoteInspection

open GuestVoteInspection

abbrev Log := List (VoteWithProof × GuestVoteInspection)

/-- The slot a record claims. -/
def slot (vote : VoteWithProof) : ℕ := vote.index.toNat

def seenSlots (log : Log) : List ℕ := (picked marksSlot log).map slot

def reservedCommitments (log : Log) : List (Bytes 32) :=
  (picked reserves log).map VoteWithProof.commitment

def countedVotes (log : Log) : List VoteWithProof := picked isAccepted log

def includedSlots (log : Log) : List ℕ := (countedVotes log).map slot

/-- Votes for each candidate. -/
def tallyOf (votes : List VoteWithProof) : Vector ℕ 5 :=
  Vector.ofFn fun c => votes.countP fun vote => vote.choice.toNat = c.val

/-- A record opens its commitment for the election. -/
def Opens (vote : VoteWithProof) : Prop :=
  computeCommitment sha256 input.electionId vote.choice vote.random = vote.commitment

/-- A record proves that its commitment is in the bulletin. -/
def Proves (vote : VoteWithProof) : Prop :=
  Included sha256 vote.commitment vote.index vote.merklePath input.bulletinRoot input.treeSize

instance (vote : VoteWithProof) : Decidable (Opens sha256 input vote) :=
  inferInstanceAs (Decidable (_ = _))

instance (vote : VoteWithProof) : Decidable (Proves sha256 input vote) :=
  inferInstanceAs (Decidable (Included ..))

/-- The verdict on a record after the log before it. -/
def verdict (log : Log) (vote : VoteWithProof) : GuestVoteInspection :=
  if ¬ slot vote < input.treeSize.toNat then .rejected .outOfRangeIndex false false
  else if slot vote ∈ seenSlots log then .rejected .duplicateIndex false false
  else if ¬ vote.choice.toNat < 5 then .rejected .invalidChoice true false
  else if ¬ Opens sha256 input vote then .rejected .invalidCommitment true false
  else if vote.commitment ∈ reservedCommitments log then .rejected .duplicateCommitment true false
  else if ¬ Proves sha256 input vote then .rejected .invalidInclusionProof true true
  else .accepted

/-- The log of all records of the input. -/
def ballotLog : Log := replay (verdict sha256 input) input.votes

/-! ### The verdict, condition by condition -/

section

variable {sha256} {input} {log : Log} {vote : VoteWithProof}

theorem marksSlot_verdict : marksSlot (verdict sha256 input log vote) = true ↔
    slot vote < input.treeSize.toNat ∧ slot vote ∉ seenSlots log := by
  unfold verdict
  split_ifs <;> simp_all [marksSlot]

theorem reserves_verdict : reserves (verdict sha256 input log vote) = true ↔
    (slot vote < input.treeSize.toNat ∧ slot vote ∉ seenSlots log) ∧ vote.choice.toNat < 5 ∧
      Opens sha256 input vote ∧ vote.commitment ∉ reservedCommitments log := by
  unfold verdict
  split_ifs <;> simp_all [reserves]

theorem isAccepted_verdict : isAccepted (verdict sha256 input log vote) = true ↔
    reserves (verdict sha256 input log vote) = true ∧ Proves sha256 input vote := by
  rw [reserves_verdict]
  unfold verdict
  split_ifs <;> simp_all [isAccepted]

end

/-- What holds of every counted vote. -/
structure Counts (vote : VoteWithProof) : Prop where
  slot_lt : slot vote < input.treeSize.toNat
  choice_lt : vote.choice.toNat < 5
  opens : Opens sha256 input vote
  proves : Proves sha256 input vote

variable {input}

theorem seenSlots_nodup (votes : List VoteWithProof) :
    (seenSlots (replay (verdict sha256 input) votes)).Nodup :=
  picked_nodup slot (fun _ _ h => (marksSlot_verdict.mp h).2) votes

theorem seenSlots_lt (votes : List VoteWithProof) :
    ∀ i ∈ seenSlots (replay (verdict sha256 input) votes), i < input.treeSize.toNat := by
  have hvotes : ∀ vote ∈ picked marksSlot (replay (verdict sha256 input) votes),
      slot vote < input.treeSize.toNat := by
    refine picked_forall (fun log vote h => ?_) votes
    exact (marksSlot_verdict.mp h).1
  intro i hi
  obtain ⟨vote, hvote, rfl⟩ := List.mem_map.mp hi
  exact hvotes vote hvote

theorem reservedCommitments_nodup (votes : List VoteWithProof) :
    (reservedCommitments (replay (verdict sha256 input) votes)).Nodup :=
  picked_nodup VoteWithProof.commitment (fun _ _ h => (reserves_verdict.mp h).2.2.2) votes

theorem countedVotes_counts (votes : List VoteWithProof) :
    ∀ vote ∈ countedVotes (replay (verdict sha256 input) votes), Counts sha256 input vote := by
  refine picked_forall (fun log vote h => ?_) votes
  obtain ⟨hreserves, hproves⟩ := isAccepted_verdict.mp h
  obtain ⟨⟨hlt, -⟩, hchoice, hopens, -⟩ := reserves_verdict.mp hreserves
  exact ⟨hlt, hchoice, hopens, hproves⟩

theorem includedSlots_sublist (log : Log) : (includedSlots log).Sublist (seenSlots log) := by
  refine (picked_sublist ?_ log).map slot
  rintro (_ | _) h
  · rfl
  · cases h

theorem includedSlots_nodup (votes : List VoteWithProof) :
    (includedSlots (replay (verdict sha256 input) votes)).Nodup :=
  (seenSlots_nodup sha256 votes).sublist (includedSlots_sublist _)

theorem includedSlots_lt (votes : List VoteWithProof) :
    ∀ i ∈ includedSlots (replay (verdict sha256 input) votes), i < input.treeSize.toNat :=
  fun i hi => seenSlots_lt sha256 votes i ((includedSlots_sublist _).subset hi)

theorem countedCommitments_nodup (votes : List VoteWithProof) :
    ((countedVotes (replay (verdict sha256 input) votes)).map VoteWithProof.commitment).Nodup := by
  refine (reservedCommitments_nodup sha256 votes).sublist ((picked_sublist ?_ _).map _)
  rintro (_ | _) h
  · rfl
  · cases h

/-- No vote for a candidate that does not exist: the buckets add up. -/
theorem tallyOf_sum : ∀ {votes : List VoteWithProof}, (∀ vote ∈ votes, vote.choice.toNat < 5) →
    (tallyOf votes).toList.sum = votes.length
  | [], _ => by simp [tallyOf, Vector.ofFn]
  | vote :: votes, h => by
      have ih := tallyOf_sum fun v hv => h v (List.mem_cons_of_mem _ hv)
      have hchoice := h vote List.mem_cons_self
      simp only [tallyOf, Vector.toList_ofFn, List.sum_ofFn, List.countP_cons, decide_eq_true_eq] at ih ⊢
      rw [Finset.sum_add_distrib, ih, List.length_cons]
      congr 1
      rw [Finset.sum_eq_single ⟨vote.choice.toNat, hchoice⟩]
      · simp
      · rintro c - hc
        exact if_neg fun h => hc (Fin.ext h.symm)
      · simp

theorem tallyOf_getElem (votes : List VoteWithProof) {c : ℕ} (hc : c < 5) :
    (tallyOf votes)[c] = votes.countP fun vote => vote.choice.toNat = c := by simp [tallyOf]

/-- One more vote adds one to its bucket. -/
theorem tallyOf_concat (votes : List VoteWithProof) {vote : VoteWithProof} (h : vote.choice.toNat < 5) :
    (tallyOf votes).set vote.choice.toNat ((tallyOf votes)[vote.choice.toNat] + 1) =
      tallyOf (votes ++ [vote]) := by
  refine Vector.ext fun c hc => ?_
  rw [Vector.getElem_set, tallyOf_getElem (votes ++ [vote]) hc, tallyOf_getElem votes hc,
    tallyOf_getElem votes h, List.countP_append]
  split
  · rename_i heq
    simp [heq]
  · rename_i hne
    simp [hne]

/-! ### What the loop keeps of the log -/

/-- The state holds the given slots and commitments, and the counts and outcomes of the log. -/
structure Holds (treeSize : ℕ) (start : Option (List GuestVoteInspection)) (seen : List ℕ)
    (reserved : List (Bytes 32)) (log : Log) (s : TallyState) : Prop where
  indexSeen : s.indexSeen = marks treeSize seen
  seenCount : s.seenIndicesCount = seen.length
  increasing : Increasing s.seenCommitments
  mem_commitments : ∀ c, c ∈ s.seenCommitments ↔ c ∈ reserved
  includedBitmap : s.includedBitmap = marks treeSize (includedSlots log)
  tally : s.verifiedTally = tallyOf (countedVotes log)
  validCount : s.validCount = (countedVotes log).length
  counts : s.validCount + s.invalidCount = log.length
  outcomes : s.voteOutcomes = start.map (· ++ log.map Prod.snd)

/-- The state represents the log. -/
def Represents (treeSize : ℕ) (start : Option (List GuestVoteInspection)) (log : Log) (s : TallyState) :
    Prop :=
  Holds treeSize start (seenSlots log) (reservedCommitments log) log s

theorem represents_init (treeSize : ℕ) (start : Option (List GuestVoteInspection)) :
    Represents treeSize start [] (TallyState.init treeSize start) where
  indexSeen := (marks_nil treeSize).symm
  seenCount := rfl
  increasing := List.Pairwise.nil
  mem_commitments c := by simp [TallyState.init, reservedCommitments]
  includedBitmap := (marks_nil treeSize).symm
  tally := by simp [TallyState.init, tallyOf, countedVotes, Vector.ext_iff]
  validCount := rfl
  counts := rfl
  outcomes := by simp [TallyState.init]

section Steps

variable {treeSize : ℕ} {start : Option (List GuestVoteInspection)} {seen : List ℕ}
  {reserved : List (Bytes 32)} {log : Log} {s : TallyState} {vote : VoteWithProof}

theorem checkedIncrement_of_lt {value : ℕ} {label : String} (h : value < u32Max) :
    checkedIncrement value label = .ok (value + 1) := by
  rw [checkedIncrement, checkedAdd_of_le h]; rfl

theorem recordVoteOutcome_concat {outcome : GuestVoteInspection}
    (h : s.voteOutcomes = start.map (· ++ log.map Prod.snd)) :
    recordVoteOutcome s.voteOutcomes outcome =
      start.map (· ++ (log ++ [(vote, outcome)]).map Prod.snd) := by
  rw [recordVoteOutcome, h, Option.map_map]
  congr 1
  funext outcomes
  simp

/-- A rejection counts the record and leaves the rest alone. -/
theorem Holds.reject (h : Holds treeSize start seen reserved log s) (vote : VoteWithProof)
    (hlog : log.length < u32Max) (reason : RejectionReason) (slotSeen commitmentReserved : Bool) :
    ∃ s', s.reject reason slotSeen commitmentReserved = .ok s' ∧
      Holds treeSize start seen reserved
        (log ++ [(vote, .rejected reason slotSeen commitmentReserved)]) s' := by
  have hcounts := h.counts
  refine ⟨_, by rw [TallyState.reject, checkedIncrement_of_lt (by omega)]; rfl, ?_⟩
  exact {
    indexSeen := h.indexSeen
    seenCount := h.seenCount
    increasing := h.increasing
    mem_commitments := h.mem_commitments
    includedBitmap := by simpa [includedSlots, countedVotes, isAccepted] using h.includedBitmap
    tally := by simpa [countedVotes, isAccepted] using h.tally
    validCount := by simpa [countedVotes, isAccepted] using h.validCount
    counts := by simp only [List.length_append, List.length_singleton]; omega
    outcomes := recordVoteOutcome_concat h.outcomes }

/-- An acceptance counts the record for its candidate and marks its slot as included. -/
theorem Holds.accept (h : Holds treeSize start seen reserved log s)
    (hlog : log.length < maxFormalGuestTallyBucket) (hslot : slot vote < treeSize)
    (hchoice : vote.choice.toNat < 5) :
    ∃ s', s.accept (slot vote) vote.choice.toNat = .ok s' ∧
      Holds treeSize start seen reserved (log ++ [(vote, .accepted)]) s' := by
  have hcounts := h.counts
  have hmax : maxFormalGuestTallyBucket ≤ u32Max := by decide
  have hvalid : (countedVotes log).length ≤ log.length := picked_length_le log
  have hbucket : s.verifiedTally[vote.choice.toNat] ≤ log.length := by
    rw [h.tally, tallyOf_getElem _ hchoice]
    exact List.countP_le_length.trans hvalid
  have hincrement : s.verifiedTally[vote.choice.toNat] < u32Max := by omega
  have hbound : ¬ s.verifiedTally[vote.choice.toNat] + 1 > maxFormalGuestTallyBucket := by omega
  have hincluded : slot vote < s.includedBitmap.length := by simpa [h.includedBitmap] using hslot
  have hcount : s.validCount < u32Max := by omega
  have haccept : s.accept (slot vote) vote.choice.toNat = .ok { s with
      verifiedTally := s.verifiedTally.set vote.choice.toNat (s.verifiedTally[vote.choice.toNat] + 1)
      includedBitmap := s.includedBitmap.set (slot vote) true
      validCount := s.validCount + 1
      voteOutcomes := recordVoteOutcome s.voteOutcomes .accepted } := by
    simp only [TallyState.accept, arrGet_of_lt hchoice, arrSet_of_lt hchoice, ok_bind,
      checkedIncrement_of_lt hincrement, refuseIf_of_not hbound, vecSet_of_lt hincluded,
      checkedIncrement_of_lt hcount]
    rfl
  refine ⟨_, haccept, ?_⟩
  exact {
    indexSeen := h.indexSeen
    seenCount := h.seenCount
    increasing := h.increasing
    mem_commitments := h.mem_commitments
    includedBitmap := by simp [h.includedBitmap, marks_set, includedSlots, countedVotes, isAccepted]
    tally := by
      have hconcat : countedVotes (log ++ [(vote, .accepted)]) = countedVotes log ++ [vote] := by
        simp [countedVotes, isAccepted]
      rw [hconcat, ← tallyOf_concat _ hchoice]
      simp only [h.tally]
    validCount := by simp [h.validCount, countedVotes, isAccepted]
    counts := by simp only [List.length_append, List.length_singleton]; omega
    outcomes := recordVoteOutcome_concat h.outcomes }

/-- A free slot is marked. -/
theorem Holds.markSlot (h : Holds treeSize start seen reserved log s) (vote : VoteWithProof) :
    Holds treeSize start (seen ++ [slot vote]) reserved log
      { s with
        indexSeen := s.indexSeen.set (slot vote) true
        seenIndicesCount := s.seenIndicesCount + 1 } :=
  { h with
    indexSeen := by simp [h.indexSeen, marks_set]
    seenCount := by simp [h.seenCount] }

theorem mem_insert_reserved {commitments : List (Bytes 32)}
    (h : ∀ c, c ∈ commitments ↔ c ∈ reserved) {pos : ℕ} (hpos : pos ≤ commitments.length)
    (commitment : Bytes 32) :
    ∀ c, c ∈ commitments.insertIdx pos commitment ↔ c ∈ reserved ++ [commitment] := by
  intro c
  rw [List.mem_insertIdx hpos, h, List.mem_append, List.mem_singleton, or_comm]

/-- A free commitment is reserved. -/
theorem Holds.reserve (h : Holds treeSize start seen reserved log s) (vote : VoteWithProof) {pos : ℕ}
    (hpos : pos ≤ s.seenCommitments.length)
    (hinc : Increasing (s.seenCommitments.insertIdx pos vote.commitment)) :
    Holds treeSize start seen (reserved ++ [vote.commitment]) log
      { s with seenCommitments := s.seenCommitments.insertIdx pos vote.commitment } :=
  { h with
    increasing := hinc
    mem_commitments := mem_insert_reserved h.mem_commitments hpos vote.commitment }

theorem seenSlots_concat (outcome : GuestVoteInspection) : seenSlots (log ++ [(vote, outcome)]) =
    if marksSlot outcome then seenSlots log ++ [slot vote] else seenSlots log := by
  rw [seenSlots, picked_concat]
  split <;> simp [seenSlots]

theorem reservedCommitments_concat (outcome : GuestVoteInspection) :
    reservedCommitments (log ++ [(vote, outcome)]) =
      if reserves outcome then reservedCommitments log ++ [vote.commitment]
        else reservedCommitments log := by
  rw [reservedCommitments, picked_concat]
  split <;> simp [reservedCommitments]

theorem includedSlots_concat (outcome : GuestVoteInspection) : includedSlots (log ++ [(vote, outcome)]) =
    if isAccepted outcome then includedSlots log ++ [slot vote] else includedSlots log := by
  rw [includedSlots, countedVotes, picked_concat]
  split <;> simp [includedSlots, countedVotes]

/-! The tests of the two Rust loops in the words of the verdict. -/

theorem index_ge_iff {treeSize : UInt32} : vote.index ≥ treeSize ↔ ¬ slot vote < treeSize.toNat := by
  rw [ge_iff_le, UInt32.le_iff_toNat_le, not_lt, slot]

theorem choice_ge_iff : vote.choice ≥ 5 ↔ ¬ vote.choice.toNat < 5 := by
  rw [ge_iff_le, UInt8.le_iff_toNat_le, not_lt]
  rfl

theorem computeCommitment_ne_iff :
    computeCommitment sha256 input.electionId vote.choice vote.random ≠ vote.commitment ↔
      ¬ Opens sha256 input vote := Iff.rfl

theorem verifyInclusionProof_eq (vote : VoteWithProof) :
    verifyInclusionProofRfc6962 sha256 vote.commitment vote.index vote.merklePath input.bulletinRoot
      input.treeSize = .ok (decide (Proves sha256 input vote)) := verifyInclusionProofRfc6962_eq ..

theorem vecGet_marks (hlt : slot vote < treeSize) :
    vecGet (marks treeSize seen) vote.index.toNat = .ok (decide (slot vote ∈ seen)) :=
  vecGet_of_getElem? (marks_getElem? hlt seen)

theorem vecSet_marks (hlt : slot vote < treeSize) :
    vecSet (marks treeSize seen) vote.index.toNat true =
      .ok ((marks treeSize seen).set (slot vote) true) :=
  vecSet_of_lt (by rw [marks_length]; exact hlt)

/-- STEP: one pass of the loop is one verdict. -/
theorem tallyStep_represents {validated : ValidatedAggregatorInput}
    (hid : validated.electionId = input.electionId)
    (hroot : validated.bulletinRoot.get = input.bulletinRoot)
    (hsize : validated.treeSize.get = input.treeSize) (hlog : log.length < maxFormalGuestTallyBucket)
    (h : Represents input.treeSize.toNat start log s) (vote : VoteWithProof) :
    ∃ s', tallyStep sha256 validated s (ValidatedVoteRecord.new vote) = .ok s' ∧
      Represents input.treeSize.toNat start (log ++ [(vote, verdict sha256 input log vote)]) s' := by
  have hmax : maxFormalGuestTallyBucket ≤ u32Max := by decide
  have hlog' : log.length < u32Max := hlog.trans_le hmax
  have hseen : s.seenIndicesCount < u32Max := by
    rw [h.seenCount, seenSlots, List.length_map]
    exact (picked_length_le log).trans_lt hlog'
  simp only [tallyStep, ValidatedVoteRecord.new, hid, hroot, hsize, index_ge_iff, choice_ge_iff,
    computeCommitment_ne_iff, verifyInclusionProof_eq, Represents, seenSlots_concat,
    reservedCommitments_concat]
  unfold verdict
  -- the loop and the verdict make the same tests in the same order
  by_cases hlt : slot vote < input.treeSize.toNat
  swap
  · rw [if_pos hlt, if_pos hlt]
    exact h.reject vote hlog' .outOfRangeIndex false false
  rw [if_neg (not_not.mpr hlt), if_neg (not_not.mpr hlt), h.indexSeen, vecGet_marks hlt, ok_bind]
  by_cases hdup : slot vote ∈ seenSlots log
  · rw [if_pos (decide_eq_true hdup), if_pos hdup]
    exact h.reject vote hlog' .duplicateIndex false false
  rw [if_neg (by simpa using hdup), if_neg hdup, vecSet_marks hlt, ok_bind,
    checkedIncrement_of_lt hseen, ok_bind, ← h.indexSeen]
  have hmark := h.markSlot vote
  by_cases hchoice : vote.choice.toNat < 5
  swap
  · rw [if_pos hchoice, if_pos hchoice]
    exact hmark.reject vote hlog' .invalidChoice true false
  rw [if_neg (not_not.mpr hchoice), if_neg (not_not.mpr hchoice)]
  by_cases hopens : Opens sha256 input vote
  swap
  · rw [if_pos hopens, if_pos hopens]
    exact hmark.reject vote hlog' .invalidCommitment true false
  have hcommitment :
      computeCommitment sha256 input.electionId vote.choice vote.random = vote.commitment := hopens
  rw [if_neg (not_not.mpr hopens), if_neg (not_not.mpr hopens), hcommitment]
  rcases binarySearch_spec (x := vote.commitment) h.increasing with
    ⟨i, hfound, hmem⟩ | ⟨pos, hfound, hmem, hpos, hinc⟩
  · rw [h.mem_commitments] at hmem
    rw [if_pos hmem]
    simp only [hfound]
    exact hmark.reject vote hlog' .duplicateCommitment true false
  · rw [h.mem_commitments] at hmem
    rw [if_neg hmem]
    simp only [hfound, vecInsert_of_le hpos, ok_bind]
    have hreserve := hmark.reserve vote hpos hinc
    by_cases hproves : Proves sha256 input vote
    · rw [if_pos (decide_eq_true hproves), if_neg (not_not.mpr hproves)]
      exact hreserve.accept hlog hlt hchoice
    · rw [if_neg (by simpa using hproves), if_pos hproves]
      exact hreserve.reject vote hlog' .invalidInclusionProof true true

end Steps

end StarkBallot.Guest
