import StarkBallot.Verification.SuccessfulChecks

/-! What the counted checks establish together about a journal, and what they leave to the caller. A
    fact of the journal may be given a second time beside it:

        bulletinRoot, treeSize, sthDigest   compared with the journal's, over the close statement
        inputCommitment, excludedSlots      the journal's is read
        verifiedTally, totalExpected        the copy is read, and compared with nothing of the journal -/

namespace StarkBallot.Verification
open Schemes Application Domain CryptoPrimitives ZkvmContract

variable (noble : NobleUtils) (sha256 : List UInt8 → Bytes 32)

/-- Every required check of the counted votes succeeded. -/
def CountedChecksSucceed (results : CheckResults) : Prop :=
  ∀ id ∈ requiredCheckIdsForStep .countedAsRecorded none, (id, CheckResult.success) ∈ results

instance (results : CheckResults) : Decidable (CountedChecksSucceed results) :=
  inferInstanceAs
    (Decidable (∀ id ∈ requiredCheckIdsForStep .countedAsRecorded none,
      (id, CheckResult.success) ∈ results))

/-- What their success says, whatever the copies are. -/
structure CountedAgainstJournal (input : VerificationEvaluationInput) (journal : CurrentZkVMJournal) :
    Prop where
  excludedSlots : journal.excludedSlots = .ofNat 0
  totalVotes : journal.totalVotes.eq (.ofNat 0) = false
  tally : TallyCompared journal input.tally input.verifiedTally
  sizes : input.totalExpected.getD journal.totalExpected = input.treeSize.getD journal.treeSize
  treeSize : (input.treeSize.getD journal.treeSize).isInteger = true
  snapshot :
    ∃ closeStatement, input.closeStatement = some closeStatement ∧
    SnapshotAgrees input journal closeStatement
  inputCommitment :
    journal.inputCommitment ≠ [] ∧ ∃ publicInput, input.publicInputAuthority = some publicInput ∧
    normalizeHexString publicInput.recomputedInputCommitment = normalizeHexString journal.inputCommitment

/-- The published result is there, and the two copies that are not compared were
    taken from the journal. -/
structure CopiedFromJournal (input : VerificationEvaluationInput) (journal : CurrentZkVMJournal)
    (counts : Vector (Option Num) 5) (totalVotes : Num) : Prop where
  tally : input.tally = some ⟨some counts, some totalVotes⟩
  verifiedTally : input.verifiedTally = some journal.verifiedTally
  totalExpected : ∀ totalExpected, input.totalExpected = some totalExpected →
    totalExpected = journal.totalExpected

section Runs

variable {noble sha256} {input : VerificationEvaluationInput} {journal : CurrentZkVMJournal}
  {applyZkGate : Bool} {results : CheckResults}

theorem countedAgainstJournal (hjournal : input.journal = some journal)
    (hresults : evaluateAllChecks noble sha256 input applyZkGate = .ok results)
    (hsuccess : CountedChecksSucceed results) :
    CountedAgainstJournal input journal := by
  have hgate := gate_ne_success noble sha256 input applyZkGate
  have hevaluated (id : VerificationCheckId)
      (hid : id ∈ requiredCheckIdsForStep .countedAsRecorded none) :=
    evaluated_of_mem hresults (hsuccess id hid)
  have htally := Except.ok.inj (hevaluated .countedTallyConsistent (by decide))
  have hmissing := Except.ok.inj (hevaluated .countedMissingIndicesZero (by decide))
  have hsizes := Except.ok.inj (hevaluated .countedExpectedVsTreeSize (by decide))
  have hclose := Except.ok.inj (hevaluated .countedCloseStatementConsistent (by decide))
  have hcommitment := Except.ok.inj (hevaluated .countedInputCommitmentMatch (by decide))
  rw [hjournal] at htally hmissing hsizes
  obtain ⟨hprocessed, hcompared⟩ := countedTallyConsistent_success hgate htally
  obtain ⟨hequal, hinteger⟩ := countedExpectedVsTreeSize_success hgate hsizes
  exact ⟨countedMissingIndicesZero_success hmissing, hprocessed, hcompared, hequal, hinteger,
    countedCloseStatementConsistent_success hgate hjournal hclose,
    countedInputCommitmentMatch_success hgate hjournal hcommitment⟩

variable {counts : Vector (Option Num) 5} {totalVotes : Num}

theorem CopiedFromJournal.published (hcopied : CopiedFromJournal input journal counts totalVotes)
    (h : CountedAgainstJournal input journal) :
    counts = journal.verifiedTally.map some ∧ totalVotes = totalOf journal.verifiedTally.toList := by
  have htally := h.tally
  rw [hcopied.tally, hcopied.verifiedTally] at htally
  exact htally

theorem CopiedFromJournal.sizes_eq (hcopied : CopiedFromJournal input journal counts totalVotes)
    (h : CountedAgainstJournal input journal) (hinteger : journal.treeSize.isInteger = true) :
    journal.totalExpected = journal.treeSize := by
  obtain ⟨closeStatement, -, hsnapshot⟩ := h.snapshot
  have hexpected : input.totalExpected.getD journal.totalExpected = journal.totalExpected := by
    rcases hgiven : input.totalExpected with _ | totalExpected
    · rfl
    · exact hcopied.totalExpected totalExpected hgiven
  have htree : input.treeSize.getD journal.treeSize = journal.treeSize := by
    rcases hgiven : input.treeSize with _ | treeSize
    · rfl
    · have hint : treeSize.isInteger = true := by simpa [hgiven] using h.treeSize
      rw [Option.getD_some, hsnapshot.treeSize treeSize (.inl hgiven) hint]
      exact (hsnapshot.treeSize journal.treeSize (.inr rfl) hinteger).symm
  rw [← hexpected, h.sizes, htree]

end Runs

/-- AUTHORITY: when the required counted checks succeed, no slot was excluded, the snapshot beside the
    journal is its own, and so is the input commitment; the published tally equals the copy of the
    verified tally, and the copies of the expected and the tree size are equal. With the two copies
    taken from the journal, all of it is the journal's. -/
theorem journal_authority (input : VerificationEvaluationInput) (journal : CurrentZkVMJournal)
    (applyZkGate : Bool) (results : CheckResults) (hjournal : input.journal = some journal)
    (hresults : evaluateAllChecks noble sha256 input applyZkGate = .ok results)
    (hsuccess : CountedChecksSucceed results) :
    CountedAgainstJournal input journal ∧
      ∀ counts totalVotes, CopiedFromJournal input journal counts totalVotes →
        counts = journal.verifiedTally.map some ∧ totalVotes = totalOf journal.verifiedTally.toList ∧
          (journal.treeSize.isInteger = true → journal.totalExpected = journal.treeSize) := by
  have h := countedAgainstJournal hjournal hresults hsuccess
  refine ⟨h, fun counts totalVotes hcopied => ?_⟩
  obtain ⟨hcounts, htotal⟩ := hcopied.published h
  exact ⟨hcounts, htotal, hcopied.sizes_eq h⟩

/-! ### Copies that differ -/

def snapshotManifest : ElectionManifest where
  electionId := js "550e8400-e29b-41d4-a716-446655440000"
  totalExpected := .ofNat 1
  choices := choiceTexts
  version := js "1.0"
  botCount := .ofNat 0
  merkleTreeDepth := .ofNat 1
  electionConfigHash := recomputeElectionManifestHash .reference Sha256.digest
    ⟨[], .ofNat 1, choiceTexts, js "1.0", .ofNat 0, .ofNat 1, []⟩

def snapshotCloseStatement : CloseStatement where
  logId := List.replicate 64 '1'
  treeSize := .ofNat 1
  timestamp := .ofNat 1
  bulletinRoot := List.replicate 64 '2'
  sthDigest := (computeSTHDigest .reference Sha256.digest (List.replicate 64 '1') (.ofNat 1) (.ofNat 1)
    (List.replicate 64 '2')).toOption.getD []

/-- A bitmap of one bit that is set. -/
def snapshotChunk : List UInt8 := 1 :: List.replicate 31 0

def snapshotBitmapRoot : JsString := hexText (Sha256.digest (bitmapLeafMessage snapshotChunk)).toList

/-- One vote, for the fourth choice. -/
def snapshotJournal (totalExpected : ℕ) : CurrentZkVMJournal where
  electionId := snapshotManifest.electionId
  electionConfigHash := snapshotManifest.electionConfigHash
  bulletinRoot := snapshotCloseStatement.bulletinRoot
  treeSize := .ofNat 1
  totalExpected := .ofNat totalExpected
  sthDigest := snapshotCloseStatement.sthDigest
  verifiedTally := #v[.ofNat 0, .ofNat 0, .ofNat 0, .ofNat 1, .ofNat 0]
  totalVotes := .ofNat 1
  validVotes := .ofNat 1
  invalidVotes := .ofNat 0
  seenIndicesCount := .ofNat 1
  missingSlots := .ofNat 0
  invalidPresentedSlots := .ofNat 0
  rejectedRecords := .ofNat 0
  seenBitmapRoot := snapshotBitmapRoot
  includedBitmapRoot := snapshotBitmapRoot
  excludedSlots := .ofNat 0
  inputCommitment := List.replicate 64 '3'
  methodVersion := .ofNat ContractCore.currentMethodVersion
  imageId := none

def snapshotPublicInput : VerificationPublicInputAuthority where
  electionId := snapshotManifest.electionId
  electionConfigHash := snapshotManifest.electionConfigHash
  methodVersion := .ofNat ContractCore.currentMethodVersion
  bulletinRoot := snapshotCloseStatement.bulletinRoot
  treeSize := .ofNat 1
  totalExpected := .ofNat 1
  votesCount := .ofNat 1
  uniqueIndices := true
  uniqueCommitments := true
  logId := snapshotCloseStatement.logId
  timestamp := .ofNat 1
  recomputedInputCommitment := List.replicate 64 '3'
  source := .bundle

/-- The counts are published with a copy that says the same, and one slot is expected. -/
def snapshotInput (journal : CurrentZkVMJournal) (counts : Vector Num 5) :
    VerificationEvaluationInput where
  voteReceipt := some
    { voteId := js "id", commitment := List.replicate 64 '4', bulletinIndex := .ofNat 0
      bulletinRootAtCast := List.replicate 64 '2', timestamp := .ofNat 1 }
  journal := some journal
  electionManifest := some snapshotManifest
  closeStatement := some snapshotCloseStatement
  publicInputAuthority := some snapshotPublicInput
  bitmapProofSource := some .real
  includedBitmapProof := some (.admitted ⟨hexText snapshotChunk, []⟩)
  tally := some ⟨some (counts.map some), some (.ofNat 1)⟩
  verifiedTally := some counts
  totalExpected := some (.ofNat 1)
  verifierOutcome := some (.success none)

def snapshotResults : CheckResults := verificationCheckDefinitions.map fun definition =>
  (definition.id, if definition.category = .countedAsRecorded ∨ definition.id = .castReceiptPresent ∨
    definition.id = .starkReceiptVerify then .success else .notRun none)

/-- With the journal's own counts. -/
theorem journal_authority_on_sample :
    CountedAgainstJournal (snapshotInput (snapshotJournal 1) (snapshotJournal 1).verifiedTally)
      (snapshotJournal 1) :=
  (journal_authority .reference Sha256.digest
    (snapshotInput (snapshotJournal 1) (snapshotJournal 1).verifiedTally)
    (snapshotJournal 1) true snapshotResults rfl (by decide +kernel) (by decide)).1

/-- One vote for the second choice. -/
def outvotedCounts : Vector Num 5 := #v[.ofNat 0, .ofNat 1, .ofNat 0, .ofNat 0, .ofNat 0]

/-- A journal with a vote for the fourth choice that expected two slots: every counted check succeeds on
    the copies, which say otherwise. -/
theorem copies_outvote_journal :
    isSupportedZkVMJournal (snapshotJournal 2) = true ∧
      (snapshotInput (snapshotJournal 2) outvotedCounts).journal = some (snapshotJournal 2) ∧
      (∃ results, evaluateAllChecks .reference Sha256.digest
        (snapshotInput (snapshotJournal 2) outvotedCounts) =
        .ok results ∧ CountedChecksSucceed results) ∧
      outvotedCounts ≠ (snapshotJournal 2).verifiedTally ∧
      (snapshotJournal 2).totalExpected ≠ (snapshotJournal 2).treeSize :=
  ⟨by decide +kernel, rfl, ⟨snapshotResults, by decide +kernel, by decide⟩, by decide, by decide⟩

end StarkBallot.Verification
