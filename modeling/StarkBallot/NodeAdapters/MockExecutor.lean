import StarkBallot.Guest.Journal
import StarkBallot.ZkvmContract.Bitmap
import StarkBallot.ZkvmContract.WireInput

/-! The mock prover (`mock-executor.ts`): the tally loop in TypeScript, without the inclusion check. Its
    loop differs from the guest's in what it remembers: slots and commitments are sets, and a commitment
    is added only once its record is counted.

        guest   commitment reserved ──▶ path verified ──▶ counted
        mock    commitment free     ──▶                   counted, commitment added

    Both come to the same: what the mock counts is exactly what the guest reserves. So the mock follows
    the guest's log, and where no record fails only its inclusion proof the two journals are equal. -/

namespace StarkBallot.NodeAdapters
open Schemes ContractCore CryptoPrimitives ZkvmContract

variable (noble : NobleUtils) (sha256 : List UInt8 → Bytes 32)

/-- Choices are 0 to 4. -/
def maxChoiceValue : ℕ := 4

structure VoteValidation where
  isValid : Bool
  reason : Option String

/-- The variables of the loop. -/
structure MockState where
  verifiedTally : List ℕ
  includedBitmap : List Bool
  seenBitmap : List Bool
  seenIndices : List Num
  seenCommitments : List JsString
  validCount : ℕ
  invalidCount : ℕ

structure ZkVMJournal where
  electionId : JsString
  electionConfigHash : JsString
  bulletinRoot : JsString
  treeSize : Num
  totalExpected : Num
  sthDigest : JsString
  verifiedTally : List Num
  totalVotes : Num
  validVotes : Num
  invalidVotes : Num
  seenIndicesCount : Num
  missingSlots : Num
  invalidPresentedSlots : Num
  rejectedRecords : Num
  seenBitmapRoot : JsString
  includedBitmapRoot : JsString
  excludedSlots : Num
  inputCommitment : JsString
  methodVersion : Num

structure ZkVMExecutionResult extends ZkVMJournal where
  imageId : JsString
  seenBitmap : List Bool
  includedBitmap : List Bool

def validateVote (vote : ZkVMInput.VoteWithProof) (input : ZkVMInput) (seenCommitments : List JsString) :
    JsM VoteValidation := do
  if (Num.ofNat maxChoiceValue).lt vote.choice then return ⟨false, some "Invalid choice value"⟩
  else
    let computedCommitment ← ZkvmContract.computeCommitment noble sha256 input.electionId
        vote.choice vote.random
    if computedCommitment ≠ vote.commitment then return ⟨false, some "Invalid commitment"⟩
    else if computedCommitment ∈ seenCommitments then return ⟨false, some "Duplicate commitment"⟩
    else return ⟨true, none⟩

/-- `invalidCount++`. -/
def MockState.reject (s : MockState) : MockState := { s with invalidCount := s.invalidCount + 1 }

/-- One pass of the loop over the votes. -/
def mockStep (input : ZkVMInput) (s : MockState) (vote : ZkVMInput.VoteWithProof) : JsM MockState := do
  if input.treeSize.le vote.index then return s.reject
  else if vote.index ∈ s.seenIndices then return s.reject
  else
    let s := { s with
      seenIndices := setAdd s.seenIndices vote.index
      seenBitmap := s.seenBitmap.set vote.index.toNat true }
    let validation ← validateVote noble sha256 vote input s.seenCommitments
    if validation.isValid then
      let commitment ← ZkvmContract.computeCommitment noble sha256 input.electionId
          vote.choice vote.random
      return { s with
        verifiedTally :=
          s.verifiedTally.set vote.choice.toNat (s.verifiedTally.getD vote.choice.toNat 0 + 1)
        includedBitmap := s.includedBitmap.set vote.index.toNat true
        validCount := s.validCount + 1
        seenCommitments := setAdd s.seenCommitments commitment }
    else return s.reject

def MockState.init (treeSize : ℕ) : MockState where
  verifiedTally := [0, 0, 0, 0, 0]
  includedBitmap := List.replicate treeSize false
  seenBitmap := List.replicate treeSize false
  seenIndices := []
  seenCommitments := []
  validCount := 0
  invalidCount := 0

def verifyAndTallyVotes (input : ZkVMInput) : JsM MockState :=
  input.votes.foldlM (mockStep noble sha256 input) (MockState.init input.treeSize.toNat)

structure Statistics where
  missingSlots : Num
  invalidPresentedSlots : Num
  rejectedRecords : Num
  excludedSlots : Num

def calculateStatistics (seenIndicesCount treeSize invalidCount validCount : Num) : Statistics :=
  let missingSlots := treeSize.sub seenIndicesCount
  let difference := seenIndicesCount.sub validCount
  let invalidPresentedSlots := if (Num.ofNat 0).lt difference then difference else .ofNat 0
  { missingSlots, invalidPresentedSlots, rejectedRecords := invalidCount,
    excludedSlots := missingSlots.add invalidPresentedSlots }

/-- A thrown commitment is logged and replaced by zeros. -/
def inputCommitmentOrZeros (input : ZkVMInput) : JsString :=
  match computeInputCommitment noble sha256 input with
  | .ok inputCommitment => inputCommitment
  | .error _ => js "0x" ++ List.replicate 64 '0'

/-- What the deployment configures: the variable `EXPECTED_IMAGE_ID`, and the id that the public mapping
    file gives for the current method version and the configured variant. -/
structure Environment where
  expectedImageId : Option JsString
  mappedImageId : JsM JsString

def resolveMockImageId (env : Environment) : JsM JsString :=
  match env.expectedImageId with
  | none | some [] => env.mappedImageId
  | some explicit => .ok explicit

def executeMockZkVM (env : Environment) (input : ZkVMInput) : JsM ZkVMExecutionResult := do
  assertZkvmWireNumericPreflight input
  let _ ← ZkvmContract.validateGuestWorkBudget input none
  let s ← verifyAndTallyVotes noble sha256 input
  let statistics :=
    calculateStatistics (.ofNat s.seenIndices.length) input.treeSize (.ofNat s.invalidCount)
    (.ofNat s.validCount)
  let includedBitmapRoot ← computeIncludedBitmapRoot noble sha256 s.includedBitmap
  let seenBitmapRoot ← computeIncludedBitmapRoot noble sha256 s.seenBitmap
  let timestamp ← asUnixTimestampMillis input.timestamp
  let sthDigest ← computeSTHDigest noble sha256 input.logId input.treeSize timestamp input.bulletinRoot
  let inputCommitment := inputCommitmentOrZeros noble sha256 input
  let imageId ← resolveMockImageId env
  return {
    electionId := input.electionId
    electionConfigHash := input.electionConfigHash
    bulletinRoot := input.bulletinRoot
    treeSize := input.treeSize
    totalExpected := input.totalExpected
    sthDigest
    verifiedTally := s.verifiedTally.map Num.ofNat
    totalVotes := .ofNat input.votes.length
    validVotes := .ofNat s.validCount
    invalidVotes := .ofNat s.invalidCount
    seenIndicesCount := .ofNat s.seenIndices.length
    missingSlots := statistics.missingSlots
    invalidPresentedSlots := statistics.invalidPresentedSlots
    rejectedRecords := statistics.rejectedRecords
    excludedSlots := statistics.excludedSlots
    imageId
    seenBitmapRoot
    includedBitmapRoot
    seenBitmap := s.seenBitmap
    includedBitmap := s.includedBitmap
    inputCommitment
    methodVersion := .ofNat currentMethodVersion }

/-! ### The mock loop follows the verdicts -/

open Guest GuestVoteInspection

/-- Outcomes of the guest that the mock counts. -/
def countsInMock : GuestVoteInspection → Bool
  | .accepted => true
  | .rejected reason _ _ => reason = .invalidInclusionProof

/-- What the guest reserves a commitment for is what the mock counts. -/
theorem countsInMock_verdict (input : AggregatorInput) (log : Log) (vote : VoteWithProof) :
    reserves (verdict sha256 input log vote) = countsInMock (verdict sha256 input log vote) := by
  unfold verdict
  split_ifs <;> rfl

/-- The state holds the given slots and counted votes after `n` records. -/
structure Holds (treeSize : ℕ) (seen : List ℕ) (counted : List VoteWithProof) (n : ℕ) (s : MockState) :
    Prop where
  seenBitmap : s.seenBitmap = marks treeSize seen
  seenIndices : s.seenIndices = seen.map Num.ofNat
  seenCommitments : s.seenCommitments = (counted.map VoteWithProof.commitment).map prefixed
  includedBitmap : s.includedBitmap = marks treeSize (counted.map slot)
  tally : s.verifiedTally = (tallyOf counted).toList
  validCount : s.validCount = counted.length
  counts : s.validCount + s.invalidCount = n

/-- The state represents the log. -/
def Represents (treeSize : ℕ) (log : Log) (s : MockState) : Prop :=
  Holds treeSize (seenSlots log) (picked countsInMock log) log.length s

theorem represents_init (treeSize : ℕ) : Represents treeSize [] (MockState.init treeSize) where
  seenBitmap := (marks_nil treeSize).symm
  seenIndices := rfl
  seenCommitments := rfl
  includedBitmap := (marks_nil treeSize).symm
  tally := rfl
  validCount := rfl
  counts := rfl

section Steps

variable {treeSize : ℕ} {seen : List ℕ} {counted : List VoteWithProof} {n : ℕ} {s : MockState}

theorem Holds.reject (h : Holds treeSize seen counted n s) :
    Holds treeSize seen counted (n + 1) s.reject :=
  { h with
    counts := by
      have := h.counts
      simp only [MockState.reject]
      omega }

theorem Holds.markSlot (h : Holds treeSize seen counted n s) {vote : VoteWithProof}
    (hfree : slot vote ∉ seen) :
    Holds treeSize (seen ++ [slot vote]) counted n { s with
      seenIndices := setAdd s.seenIndices (.ofNat (slot vote))
      seenBitmap := s.seenBitmap.set (slot vote) true } :=
  { h with
    seenBitmap := by simp [h.seenBitmap, marks_set]
    seenIndices := by
      have hnew : Num.ofNat (slot vote) ∉ seen.map Num.ofNat := by
        rwa [List.mem_map_of_injective Num.ofNat_injective]
      simp only [h.seenIndices, setAdd_of_not_mem hnew, List.map_append, List.map_singleton] }

theorem Holds.count (h : Holds treeSize seen counted n s) {vote : VoteWithProof}
    (hchoice : vote.choice.toNat < 5) (hfree : prefixed vote.commitment ∉ s.seenCommitments) :
    Holds treeSize seen (counted ++ [vote]) (n + 1) { s with
      verifiedTally :=
        s.verifiedTally.set vote.choice.toNat (s.verifiedTally.getD vote.choice.toNat 0 + 1)
      includedBitmap := s.includedBitmap.set (slot vote) true
      validCount := s.validCount + 1
      seenCommitments := setAdd s.seenCommitments (prefixed vote.commitment) } where
  seenBitmap := h.seenBitmap
  seenIndices := h.seenIndices
  seenCommitments := by
    simp only [setAdd_of_not_mem hfree]
    rw [h.seenCommitments, List.map_append, List.map_append, List.map_singleton, List.map_singleton]
  includedBitmap := by simp [h.includedBitmap, marks_set]
  tally := by
    rw [← tallyOf_concat counted hchoice, Vector.toList_set, h.tally, List.getD_eq_getElem?_getD,
      List.getElem?_eq_getElem (by simpa using hchoice), Option.getD_some, Vector.getElem_toList]
  validCount := by simp [h.validCount]
  counts := by
    have := h.counts
    simp only
    omega

end Steps

variable {input : AggregatorInput}

/-- A vote is valid to the mock when it opens a commitment that is not in the set. -/
theorem validateVote_render (input : AggregatorInput) (vote : VoteWithProof)
    (seenCommitments : List JsString) :
    ∃ validation, validateVote noble sha256 (renderVote vote)
      (render input) seenCommitments = .ok validation ∧
      (validation.isValid = true ↔ vote.choice.toNat < 5 ∧ Opens sha256 input vote ∧
        prefixed vote.commitment ∉ seenCommitments) := by
  have hcommit :
      ZkvmContract.computeCommitment noble sha256 (render input).electionId (renderVote vote).choice
      (renderVote vote).random =
        .ok (prefixed (ContractCore.computeCommitment sha256 input.electionId vote.choice
          vote.random)) :=
    computeCommitment_render noble sha256 input.electionId vote
  have hchoiceText : (renderVote vote).choice = .ofNat vote.choice.toNat := rfl
  have hcommitmentText : (renderVote vote).commitment = prefixed vote.commitment := rfl
  have hmax : maxChoiceValue = 4 := rfl
  rw [validateVote, hcommit, hchoiceText, hcommitmentText, Num.ofNat_lt, ok_bind]
  by_cases hchoice : vote.choice.toNat < 5
  swap
  · rw [if_pos (decide_eq_true (by omega))]
    exact ⟨_, rfl, by simp [hchoice]⟩
  rw [if_neg (by rw [decide_eq_true_eq]; omega)]
  by_cases hopens : Opens sha256 input vote
  swap
  · rw [if_pos (mt (fun h => prefixed_injective h) hopens)]
    exact ⟨_, rfl, by simp [hopens]⟩
  have hcommitment : ContractCore.computeCommitment sha256 input.electionId vote.choice vote.random =
      vote.commitment := hopens
  rw [hcommitment, if_neg (not_not.mpr rfl)]
  by_cases hseen : prefixed vote.commitment ∈ seenCommitments
  · rw [if_pos hseen]
    exact ⟨_, rfl, by simp [hseen]⟩
  · rw [if_neg hseen]
    exact ⟨_, rfl, by simp [hchoice, hopens, hseen]⟩

/-- STEP: one pass of the mock loop is one verdict of the guest. -/
theorem mockStep_represents {votes : List VoteWithProof} {s : MockState}
    (h : Represents input.treeSize.toNat (replay (verdict sha256 input) votes) s)
    (vote : VoteWithProof) :
    ∃ s', mockStep noble sha256 (render input) s (renderVote vote) = .ok s' ∧
      Represents input.treeSize.toNat (replay (verdict sha256 input) votes ++
        [(vote, verdict sha256 input (replay (verdict sha256 input) votes) vote)]) s' := by
  have hreserved : reservedCommitments (replay (verdict sha256 input) votes) =
      (picked countsInMock (replay (verdict sha256 input) votes)).map VoteWithProof.commitment := by
    rw [reservedCommitments, picked_congr (countsInMock_verdict sha256 input)]
  generalize replay (verdict sha256 input) votes = log at h hreserved ⊢
  have hindex : (renderVote vote).index = .ofNat (slot vote) := rfl
  have hsize : (render input).treeSize = .ofNat input.treeSize.toNat := rfl
  have hchoiceText : (renderVote vote).choice = .ofNat vote.choice.toNat := rfl
  have hmem : Num.ofNat (slot vote) ∈ s.seenIndices ↔ slot vote ∈ seenSlots log := by
    rw [h.seenIndices, List.mem_map_of_injective Num.ofNat_injective]
  have hfree :
      prefixed vote.commitment ∈ s.seenCommitments ↔ vote.commitment ∈ reservedCommitments log := by
    rw [h.seenCommitments, hreserved, List.mem_map_of_injective prefixed_injective]
  -- all the log needs of the verdict
  have hmarks : marksSlot (verdict sha256 input log vote) = true ↔
      slot vote < input.treeSize.toNat ∧ slot vote ∉ seenSlots log := marksSlot_verdict
  have hcounts : countsInMock (verdict sha256 input log vote) = true ↔
      (slot vote < input.treeSize.toNat ∧ slot vote ∉ seenSlots log) ∧ vote.choice.toNat < 5 ∧
        Opens sha256 input vote ∧ vote.commitment ∉ reservedCommitments log := by
    rw [← countsInMock_verdict]
    exact reserves_verdict
  simp only [Represents, seenSlots_concat, picked_concat, List.length_append, List.length_singleton]
  rw [mockStep, hindex, hsize, Num.ofNat_le, Num.ofNat_toNat]
  by_cases hlt : slot vote < input.treeSize.toNat
  swap
  · rw [if_pos (decide_eq_true (not_lt.mp hlt)), if_neg (by rw [hmarks]; exact fun h => hlt h.1),
      if_neg (by rw [hcounts]; exact fun h => hlt h.1.1)]
    exact ⟨_, rfl, h.reject⟩
  rw [if_neg (by simpa using hlt)]
  by_cases hdup : slot vote ∈ seenSlots log
  · rw [if_pos (hmem.mpr hdup), if_neg (by rw [hmarks]; exact fun h => h.2 hdup),
      if_neg (by rw [hcounts]; exact fun h => h.1.2 hdup)]
    exact ⟨_, rfl, h.reject⟩
  rw [if_neg (mt hmem.mp hdup), if_pos (hmarks.mpr ⟨hlt, hdup⟩)]
  have hmark := h.markSlot hdup
  obtain ⟨validation, hvalidate, hvalid⟩ := validateVote_render noble sha256 input vote s.seenCommitments
  simp only [hvalidate, ok_bind]
  by_cases hok : validation.isValid = true
  · obtain ⟨hchoice, hopens, hnew⟩ := hvalid.mp hok
    have hcommit :
        ZkvmContract.computeCommitment noble sha256 (render input).electionId (renderVote vote).choice
        (renderVote vote).random = .ok (prefixed vote.commitment) := by
      have hrender := computeCommitment_render noble sha256 input.electionId vote
      rwa [hopens] at hrender
    rw [if_pos hok, if_pos (hcounts.mpr ⟨⟨hlt, hdup⟩, hchoice, hopens, mt hfree.mpr hnew⟩),
      hcommit, ok_bind, hchoiceText, Num.ofNat_toNat]
    exact ⟨_, rfl, hmark.count hchoice hnew⟩
  · rw [if_neg hok, if_neg (by
      rw [hcounts]
      exact fun h => hok (hvalid.mpr ⟨h.2.1, h.2.2.1, mt hfree.mp h.2.2.2⟩))]
    exact ⟨_, rfl, hmark.reject⟩

/-- RUN: the mock loop returns after any number of records, in the state of the guest's log. -/
theorem mockLoop_take (input : AggregatorInput) (k : ℕ) :
    ∃ s, ((render input).votes.take k).foldlM (mockStep noble sha256 (render input))
        (MockState.init input.treeSize.toNat) = .ok s ∧
      Represents input.treeSize.toNat (replay (verdict sha256 input) (input.votes.take k)) s := by
  rw [render, ← List.map_take, List.foldlM_map]
  refine foldlM_replay (Represents input.treeSize.toNat) (represents_init _) ?_
  intro done vote rest s _ hrep
  exact mockStep_represents noble sha256 hrep vote

/-! ### Equal journals -/

/-- The text of a journal. -/
def renderJournal (output : VerificationOutput) : ZkVMJournal where
  electionId := uuidText output.electionId
  electionConfigHash := prefixed output.electionConfigHash
  bulletinRoot := prefixed output.bulletinRoot
  treeSize := .ofNat output.treeSize
  totalExpected := .ofNat output.totalExpected
  sthDigest := prefixed output.sthDigest
  verifiedTally := output.verifiedTally.toList.map Num.ofNat
  totalVotes := .ofNat output.totalVotes
  validVotes := .ofNat output.validVotes
  invalidVotes := .ofNat output.invalidVotes
  seenIndicesCount := .ofNat output.seenIndicesCount
  missingSlots := .ofNat output.missingSlots
  invalidPresentedSlots := .ofNat output.invalidPresentedSlots
  rejectedRecords := .ofNat output.rejectedRecords
  seenBitmapRoot := prefixed output.seenBitmapRoot
  includedBitmapRoot := prefixed output.includedBitmapRoot
  excludedSlots := .ofNat output.excludedSlots
  inputCommitment := prefixed output.inputCommitment
  methodVersion := .ofNat output.methodVersion

/-- The guest's journal, with other counted votes. -/
def journalCounting (input : AggregatorInput) (digest : Bytes 32) (counted : List VoteWithProof) :
    VerificationOutput :=
  { journalOf sha256 input digest with
    verifiedTally := tallyOf counted
    validVotes := counted.length
    invalidVotes := input.votes.length - counted.length
    invalidPresentedSlots := (seenSlots (ballotLog sha256 input)).length - counted.length
    rejectedRecords := input.votes.length - counted.length
    includedBitmapRoot := computeBitmapMerkleRoot sha256 (marks input.treeSize.toNat (counted.map slot))
    excludedSlots := input.treeSize.toNat - (seenSlots (ballotLog sha256 input)).length +
      ((seenSlots (ballotLog sha256 input)).length - counted.length) }

theorem calculateStatistics_eq {seen treeSize invalid valid : ℕ} (h : seen ≤ treeSize) :
    calculateStatistics (.ofNat seen) (.ofNat treeSize) (.ofNat invalid) (.ofNat valid) =
      ⟨.ofNat (treeSize - seen), .ofNat (seen - valid), .ofNat invalid,
        .ofNat (treeSize - seen + (seen - valid))⟩ := by
  have hpresented :
      (if (Num.ofNat 0).lt ((Num.ofNat seen).sub (.ofNat valid)) then (Num.ofNat seen).sub (.ofNat valid)
      else Num.ofNat 0) = .ofNat (seen - valid) := by
    rcases Nat.lt_or_ge valid seen with hlt | hge
    · rw [Num.ofNat_sub hlt.le, Num.ofNat_lt, if_pos (decide_eq_true (by omega))]
    · have hsign := (Num.sub_signs seen valid).not_pos
      rw [Nat.isLE_compare.mpr hge, Bool.not_eq_true'] at hsign
      rw [if_neg (by rw [hsign]; simp), Nat.sub_eq_zero_of_le hge]
  simp only [calculateStatistics, hpresented, Num.ofNat_sub h, Num.ofNat_add]

theorem computeSTHDigest_render (input : AggregatorInput) :
    computeSTHDigest noble sha256 (render input).logId (render input).treeSize
        (.ofNat input.timestamp.toNat) (render input).bulletinRoot =
      .ok (prefixed (computeSthDigest sha256 input.logId input.treeSize input.timestamp
        input.bulletinRoot)) := by
  have hlog : ZkvmContract.hexToBytesStrict noble (render input).logId = .ok input.logId.toList :=
    hexToBytesStrict_bytes noble (prefixed_spells _) (by decide)
  have hroot :
      ZkvmContract.hexToBytesStrict noble (render input).bulletinRoot = .ok input.bulletinRoot.toList :=
    hexToBytesStrict_bytes noble (prefixed_spells _) (by decide)
  have hsize : uint32LE (render input).treeSize = .ok (leBytes 4 input.treeSize.toNat) :=
    uint32LE_of_le (toNat_le_uint32Max _)
  rw [computeSTHDigest, hlog, ok_bind, hsize, ok_bind, hroot, ok_bind, noble.bytesToHex_eq,
    Num.ofNat_toNat]
  rfl

/-- SPEC: on an admitted input the mock returns the journal of the log, counting
    what the guest reserved. -/
theorem executeMockZkVM_ok {validated : ValidatedAggregatorInput} (h : Admits input validated)
    (htime : input.timestamp.toNat ≤ Num.maxSafeInteger) {digest : Bytes 32}
    (hdigest : computeInputCommitmentV4 sha256 input.electionId input.bulletinRoot input.treeSize
      input.totalExpected input.votes = .ok digest) {env : Environment} {imageId : JsString}
    (himage : resolveMockImageId env = .ok imageId) :
    executeMockZkVM noble sha256 env (render input) = .ok {
      renderJournal
        (journalCounting sha256 input digest (picked countsInMock (ballotLog sha256 input))) with
      imageId
      seenBitmap := marks input.treeSize.toNat (seenSlots (ballotLog sha256 input))
      includedBitmap :=
        marks input.treeSize.toNat ((picked countsInMock (ballotLog sha256 input)).map slot) } := by
  have hpos : 0 < input.timestamp.toNat := by
    rw [← h.timestamp, Nat.pos_iff_ne_zero]
    exact fun hzero => validated.timestamp.ne_zero (UInt64.toNat_inj.mp hzero)
  have hstamp :
      asUnixTimestampMillis (.ofNat input.timestamp.toNat) = .ok (.ofNat input.timestamp.toNat) :=
    asUnixTimestampMillis_of_le hpos htime
  obtain ⟨budget, hbudget⟩ := validateGuestWorkBudget_of_within h.budget
  obtain ⟨s, hloop, hrep⟩ := mockLoop_take noble sha256 input input.votes.length
  have hall : (render input).votes.take input.votes.length = (render input).votes :=
    List.take_of_length_le (by rw [render, List.length_map])
  rw [hall] at hloop
  rw [List.take_length] at hrep
  have htally : verifyAndTallyVotes noble sha256 (render input) = .ok s := hloop
  have hvotes : (render input).votes.length = input.votes.length := List.length_map ..
  have hsize : (render input).treeSize = .ofNat input.treeSize.toNat := rfl
  have htimestamp : (render input).timestamp = .ofNat input.timestamp.toNat := rfl
  have hseen : s.seenIndices.length = (seenSlots (ballotLog sha256 input)).length := by
    rw [hrep.seenIndices, List.length_map]
    rfl
  have hinvalid :
      s.invalidCount = input.votes.length - (picked countsInMock (ballotLog sha256 input)).length := by
    have hcounts := hrep.counts
    have hvalid := hrep.validCount
    rw [replay_length] at hcounts
    rw [ballotLog]
    omega
  rw [executeMockZkVM, assertZkvmWireNumericPreflight_ok hpos htime, ok_bind, hbudget, ok_bind,
    htally, ok_bind, hseen, computeIncludedBitmapRoot_eq, ok_bind, computeIncludedBitmapRoot_eq,
    ok_bind, htimestamp, hstamp, ok_bind, computeSTHDigest_render, ok_bind, himage, ok_bind,
    inputCommitmentOrZeros, computeInputCommitment_render noble sha256 hdigest, hsize,
    calculateStatistics_eq (seen_le_treeSize sha256 input), hvotes, hinvalid, hrep.tally,
    hrep.validCount, hrep.seenBitmap, hrep.includedBitmap]
  rfl

/-- REFINEMENT: on every input the guest accepts, with a safe timestamp and in canonical text, the mock
    returns, in any deployment that knows its image id. It presents the guest's seen slots; after every
    prefix of the records it has counted exactly the records the guest accepted or rejected for their
    inclusion proof only; and where there is no record of the second kind, the two journals are equal in
    every field. -/
theorem mock_refines_guest (input : AggregatorInput) (inspection : GuestTallyInspection)
    (h : verifyAndTallyChecked sha256 input = .ok inspection)
    (htime : input.timestamp.toNat ≤ Num.maxSafeInteger) (env : Environment) (imageId : JsString)
    (himage : resolveMockImageId env = .ok imageId) :
    ∃ result, executeMockZkVM noble sha256 env (render input) = .ok result ∧
      (∀ validated s, ValidatedAggregatorInput.validate input = .ok validated →
        tallyLoop sha256 validated (some []) = .ok s → result.seenBitmap = s.indexSeen) ∧
      result.seenIndicesCount = .ofNat inspection.output.seenIndicesCount ∧
      (∀ k, ∃ s, ((render input).votes.take k).foldlM (mockStep noble sha256 (render input))
          (MockState.init input.treeSize.toNat) = .ok s ∧
        s.validCount = ((inspection.voteOutcomes.take k).filter countsInMock).length) ∧
      (∃ counted, counted = picked countsInMock (input.votes.zip inspection.voteOutcomes) ∧
        result.validVotes = .ofNat counted.length ∧
        result.includedBitmap = marks input.treeSize.toNat (counted.map slot) ∧
        result.verifiedTally = (tallyOf counted).toList.map Num.ofNat) ∧
      ((∀ outcome ∈ inspection.voteOutcomes, ∀ slotSeen commitmentReserved,
          outcome ≠ .rejected .invalidInclusionProof slotSeen commitmentReserved) →
        result.toZkVMJournal = renderJournal inspection.output) := by
  obtain ⟨validated, digest, hadmits, hvalidate, hdigest, rfl⟩ := verifyAndTallyChecked_ok sha256 h
  have hzip : input.votes.zip ((ballotLog sha256 input).map Prod.snd) = ballotLog sha256 input :=
    zip_replay input.votes
  refine ⟨_, executeMockZkVM_ok noble sha256 hadmits htime hdigest himage, ?_, rfl, fun k => ?_,
    ⟨_, rfl, ?_, ?_, ?_⟩, fun hproofs => ?_⟩
  · intro validated' s hvalidate' hloop
    rw [hvalidate] at hvalidate'
    cases hvalidate'
    obtain ⟨s', hloop', hrep⟩ := tallyLoop_represents sha256 hadmits (some [])
    rw [hloop] at hloop'
    cases hloop'
    exact hrep.indexSeen.symm
  · obtain ⟨s, hloop, hrep⟩ := mockLoop_take noble sha256 input k
    refine ⟨s, hloop, ?_⟩
    rw [hrep.validCount, replay_take, picked, List.length_map, ← List.map_take, List.filter_map,
      List.length_map]
    rfl
  · rw [hzip]; rfl
  · rw [hzip]
  · rw [hzip]; rfl
  · have hsame :
      picked countsInMock (ballotLog sha256 input) = countedVotes (ballotLog sha256 input) := by
      rw [picked, countedVotes, picked, List.filter_congr]
      intro e he
      have houtcome := hproofs e.2 (List.mem_map_of_mem he)
      rcases e with ⟨vote, _ | ⟨reason, slotSeen, commitmentReserved⟩⟩
      · rfl
      · simp only [countsInMock, isAccepted, decide_eq_false_iff_not]
        rintro rfl
        exact houtcome slotSeen commitmentReserved rfl
    rw [hsame]
    simp only [journalCounting, renderJournal, journalOf, includedSlots]

def sampleEnvironment : Environment :=
  ⟨some (prefixed (Bytes.fill 32 0xaa)), .ok (prefixed (Bytes.fill 32 0xbb))⟩

/-- The guest's sample election: two copies of one vote, the second a duplicate. -/
theorem mock_refines_guest_on_sample : ∃ inspection result,
    verifyAndTallyChecked Sha256.digest (sampleInput [sampleVote, sampleVote]) = .ok inspection ∧
    executeMockZkVM NobleUtils.reference Sha256.digest sampleEnvironment
      (render (sampleInput [sampleVote, sampleVote])) = .ok result ∧
    result.seenIndicesCount = .ofNat inspection.output.seenIndicesCount := by
  obtain ⟨inspection, hinspection, -⟩ :=
    verifyAndTallyChecked_of_admitted Sha256.digest sampleInput_twice_admitted
  obtain ⟨result, hresult, -, hseen, -⟩ :=
    mock_refines_guest NobleUtils.reference Sha256.digest _ inspection
    hinspection (by decide) sampleEnvironment _ rfl
  exact ⟨inspection, result, hinspection, hresult, hseen⟩

end StarkBallot.NodeAdapters
