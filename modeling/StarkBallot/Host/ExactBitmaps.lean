import StarkBallot.Guest.Binding

/-! The host recomputes the two bitmaps from the private input (`build_exact_bitmaps`) and publishes them
    as artifacts only when their roots are the ones in the journal. Its loop is a second copy of the
    guest's: it keeps the seen slots twice, keeps no counters, and skips where the guest rejects. Both
    loops follow the same verdicts, so the bitmaps agree after every prefix of the records. -/

namespace StarkBallot.Host
open Schemes ContractCore Guest

variable (sha256 : List UInt8 → Bytes 32)

structure ExactBitmaps where
  seenBitmap : List Bool
  includedBitmap : List Bool

/-- The variables of the loop. -/
structure BitmapState where
  seenBitmap : List Bool
  includedBitmap : List Bool
  indexSeen : List Bool
  seenCommitments : List (Bytes 32)

/-- One pass of the loop; a `continue` returns the state as it stands. -/
def bitmapStep (input : AggregatorInput) (s : BitmapState) (vote : VoteWithProof) :
    RustM BitmapState := do
  if vote.index ≥ input.treeSize then return s
  else
    let index := vote.index.toNat
    if ← vecGet s.indexSeen index then return s
    else
      let indexSeen ← vecSet s.indexSeen index true
      let seenBitmap ← vecSet s.seenBitmap index true
      let s := { s with indexSeen, seenBitmap }
      if vote.choice ≥ 5 then return s
      else
        let computedCommitment := computeCommitment sha256 input.electionId vote.choice vote.random
        if computedCommitment ≠ vote.commitment then return s
        else
          match binarySearch s.seenCommitments computedCommitment with
          | .ok _ => return s
          | .error position =>
            let seenCommitments ← vecInsert s.seenCommitments position computedCommitment
            let s := { s with seenCommitments }
            if ← verifyInclusionProofRfc6962 sha256 vote.commitment vote.index vote.merklePath
                input.bulletinRoot input.treeSize then
              let includedBitmap ← vecSet s.includedBitmap index true
              return { s with includedBitmap }
            else return s

def buildExactBitmaps (input : AggregatorInput) : RustM ExactBitmaps := do
  let treeSize := input.treeSize.toNat
  let s ← input.votes.foldlM (bitmapStep sha256 input) {
    seenBitmap := List.replicate treeSize false
    includedBitmap := List.replicate treeSize false
    indexSeen := List.replicate treeSize false
    seenCommitments := [] }
  return { seenBitmap := s.seenBitmap, includedBitmap := s.includedBitmap }

/-- A bitmap file, with the root it was checked against. -/
structure BitmapArtifact where
  schema : String
  version : String
  treeSize : UInt32
  root : Bytes 32
  bitmap : List Bool

def seenBitmapArtifactSchema : String := "stark-ballot.seen_bitmap"
def includedBitmapArtifactSchema : String := "stark-ballot.included_bitmap"
def bitmapArtifactVersion : String := "1.0"

/-- The root check of `main`: an artifact, or a warning and no artifact. -/
def bitmapArtifact (schema : String) (input : AggregatorInput) (bitmap : List Bool)
    (journalRoot : Bytes 32) :
    Option BitmapArtifact :=
  if computeBitmapMerkleRoot sha256 bitmap = journalRoot then
    some ⟨schema, bitmapArtifactVersion, input.treeSize, computeBitmapMerkleRoot sha256 bitmap, bitmap⟩
  else none

/-- The seen and the included artifact for a journal. -/
def bitmapArtifacts (input : AggregatorInput) (output : VerificationOutput) :
    RustM (Option BitmapArtifact × Option BitmapArtifact) := do
  let bitmaps ← buildExactBitmaps sha256 input
  return (bitmapArtifact sha256 seenBitmapArtifactSchema input bitmaps.seenBitmap output.seenBitmapRoot,
    bitmapArtifact sha256 includedBitmapArtifactSchema input bitmaps.includedBitmap
      output.includedBitmapRoot)

/-! ### The host loop follows the verdicts -/

/-- The state holds the given slots and commitments. -/
structure Holds (treeSize : ℕ) (seen included : List ℕ) (reserved : List (Bytes 32)) (s : BitmapState) :
    Prop where
  indexSeen : s.indexSeen = marks treeSize seen
  seenBitmap : s.seenBitmap = marks treeSize seen
  includedBitmap : s.includedBitmap = marks treeSize included
  increasing : Increasing s.seenCommitments
  mem_commitments : ∀ c, c ∈ s.seenCommitments ↔ c ∈ reserved

/-- The state represents the log. -/
def Represents (treeSize : ℕ) (log : Log) (s : BitmapState) : Prop :=
  Holds treeSize (seenSlots log) (includedSlots log) (reservedCommitments log) s

section Steps

variable {treeSize : ℕ} {seen included : List ℕ} {reserved : List (Bytes 32)} {s : BitmapState}

theorem Holds.markSlot (h : Holds treeSize seen included reserved s) (vote : VoteWithProof) :
    Holds treeSize (seen ++ [slot vote]) included reserved
      { s with
        indexSeen := s.indexSeen.set (slot vote) true
        seenBitmap := s.seenBitmap.set (slot vote) true } :=
  { h with
    indexSeen := by simp [h.indexSeen, marks_set]
    seenBitmap := by simp [h.seenBitmap, marks_set] }

theorem Holds.reserve (h : Holds treeSize seen included reserved s) (vote : VoteWithProof) {pos : ℕ}
    (hpos : pos ≤ s.seenCommitments.length)
    (hinc : Increasing (s.seenCommitments.insertIdx pos vote.commitment)) :
    Holds treeSize seen included (reserved ++ [vote.commitment])
      { s with seenCommitments := s.seenCommitments.insertIdx pos vote.commitment } :=
  { h with
    increasing := hinc
    mem_commitments := mem_insert_reserved h.mem_commitments hpos vote.commitment }

theorem Holds.include (h : Holds treeSize seen included reserved s) (vote : VoteWithProof) :
    Holds treeSize seen (included ++ [slot vote]) reserved
      { s with includedBitmap := s.includedBitmap.set (slot vote) true } :=
  { h with includedBitmap := by simp [h.includedBitmap, marks_set] }

end Steps

variable {input : AggregatorInput}

/-- STEP: one pass of the host loop is one verdict. -/
theorem bitmapStep_represents {log : Log} {s : BitmapState} (h : Represents input.treeSize.toNat log s)
    (vote : VoteWithProof) : ∃ s', bitmapStep sha256 input s vote = .ok s' ∧
      Represents input.treeSize.toNat (log ++ [(vote, verdict sha256 input log vote)]) s' := by
  simp only [bitmapStep, index_ge_iff, choice_ge_iff, computeCommitment_ne_iff,
    verifyInclusionProof_eq, Represents, seenSlots_concat, includedSlots_concat,
    reservedCommitments_concat]
  unfold verdict
  by_cases hlt : slot vote < input.treeSize.toNat
  swap
  · rw [if_pos hlt, if_pos hlt]
    exact ⟨s, rfl, h⟩
  rw [if_neg (not_not.mpr hlt), if_neg (not_not.mpr hlt), h.indexSeen, vecGet_marks hlt, ok_bind]
  by_cases hdup : slot vote ∈ seenSlots log
  · rw [if_pos (decide_eq_true hdup), if_pos hdup]
    exact ⟨s, rfl, h⟩
  rw [if_neg (by simpa using hdup), if_neg hdup, vecSet_marks hlt, ok_bind, h.seenBitmap,
    vecSet_marks hlt, ok_bind]
  have hmark := h.markSlot vote
  rw [h.indexSeen, h.seenBitmap] at hmark
  by_cases hchoice : vote.choice.toNat < 5
  swap
  · rw [if_pos hchoice, if_pos hchoice]
    exact ⟨_, rfl, hmark⟩
  rw [if_neg (not_not.mpr hchoice), if_neg (not_not.mpr hchoice)]
  by_cases hopens : Opens sha256 input vote
  swap
  · rw [if_pos hopens, if_pos hopens]
    exact ⟨_, rfl, hmark⟩
  have hcommitment :
      computeCommitment sha256 input.electionId vote.choice vote.random = vote.commitment := hopens
  rw [if_neg (not_not.mpr hopens), if_neg (not_not.mpr hopens), hcommitment]
  rcases binarySearch_spec (x := vote.commitment) h.increasing with
    ⟨i, hfound, hmem⟩ | ⟨pos, hfound, hmem, hpos, hinc⟩
  · rw [h.mem_commitments] at hmem
    rw [if_pos hmem]
    simp only [hfound]
    exact ⟨_, rfl, hmark⟩
  · rw [h.mem_commitments] at hmem
    rw [if_neg hmem]
    simp only [hfound, vecInsert_of_le hpos, ok_bind]
    have hreserve := hmark.reserve vote hpos hinc
    by_cases hproves : Proves sha256 input vote
    · rw [if_pos (decide_eq_true hproves), if_neg (not_not.mpr hproves)]
      have hinclude := hreserve.include vote
      rw [h.includedBitmap] at hinclude
      rw [h.includedBitmap, vecSet_marks hlt, ok_bind]
      exact ⟨_, rfl, hinclude⟩
    · rw [if_neg (by simpa using hproves), if_pos hproves]
      exact ⟨_, rfl, hreserve⟩

/-- RUN: the host returns the bitmaps of the log. -/
theorem buildExactBitmaps_eq (input : AggregatorInput) : buildExactBitmaps sha256 input =
    .ok ⟨marks input.treeSize.toNat (seenSlots (ballotLog sha256 input)),
      marks input.treeSize.toNat (includedSlots (ballotLog sha256 input))⟩ := by
  have hinit : Represents input.treeSize.toNat []
      ⟨List.replicate input.treeSize.toNat false, List.replicate input.treeSize.toNat false,
        List.replicate input.treeSize.toNat false, []⟩ :=
    ⟨(marks_nil _).symm, (marks_nil _).symm, (marks_nil _).symm, List.Pairwise.nil, fun c => by
      simp [reservedCommitments]⟩
  obtain ⟨s, hloop, hrep⟩ := foldlM_replay (Represents input.treeSize.toNat) hinit
    (fun _ vote _ _ _ hs => bitmapStep_represents sha256 hs vote)
  rw [buildExactBitmaps, hloop, ok_bind, hrep.seenBitmap, hrep.includedBitmap]
  rfl

/-- AGREEMENT: for an input the guest accepts, the host's bitmaps are the guest's final bitmaps, their
    roots are the journal's, and both artifacts are written. -/
theorem host_bitmaps_agree_with_guest {inspection : GuestTallyInspection}
    (h : verifyAndTallyChecked sha256 input = .ok inspection) :
    ∃ validated s, ValidatedAggregatorInput.validate input = .ok validated ∧
      tallyLoop sha256 validated (some []) = .ok s ∧
      buildExactBitmaps sha256 input = .ok ⟨s.indexSeen, s.includedBitmap⟩ ∧
      inspection.includedBitmap = s.includedBitmap ∧
      computeBitmapMerkleRoot sha256 s.indexSeen = inspection.output.seenBitmapRoot ∧
      computeBitmapMerkleRoot sha256 s.includedBitmap = inspection.output.includedBitmapRoot ∧
      ∃ seen included, bitmapArtifacts sha256 input inspection.output = .ok (some seen, some included) ∧
        seen.bitmap = s.indexSeen ∧ included.bitmap = s.includedBitmap := by
  obtain ⟨validated, digest, hadmits, hvalidate, -, rfl⟩ := verifyAndTallyChecked_ok sha256 h
  obtain ⟨s, hloop, hrep⟩ := tallyLoop_represents sha256 hadmits (some [])
  have hbuild := buildExactBitmaps_eq sha256 input
  refine ⟨validated, s, hvalidate, hloop, ?_, hrep.includedBitmap.symm, ?_, ?_, ?_⟩
  · rw [hbuild, hrep.indexSeen, hrep.includedBitmap]
  · rw [hrep.indexSeen]
    rfl
  · rw [hrep.includedBitmap]
    rfl
  · rw [hrep.indexSeen, hrep.includedBitmap, bitmapArtifacts, hbuild, ok_bind]
    simp only [bitmapArtifact, journalOf, if_true, pure, Except.pure]
    exact ⟨_, _, rfl, rfl, rfl⟩

theorem host_bitmaps_on_sample : ∃ inspection validated s,
    verifyAndTallyChecked Sha256.digest (sampleInput [sampleVote, sampleVote]) = .ok inspection ∧
      tallyLoop Sha256.digest validated (some []) = .ok s ∧
      buildExactBitmaps Sha256.digest (sampleInput [sampleVote, sampleVote]) =
        .ok ⟨s.indexSeen, s.includedBitmap⟩ := by
  obtain ⟨inspection, hchecked, -⟩ :=
    verifyAndTallyChecked_of_admitted Sha256.digest sampleInput_twice_admitted
  obtain ⟨validated, s, -, hloop, hbuild, -⟩ := host_bitmaps_agree_with_guest Sha256.digest hchecked
  exact ⟨inspection, validated, s, hchecked, hloop, hbuild⟩

end StarkBallot.Host
