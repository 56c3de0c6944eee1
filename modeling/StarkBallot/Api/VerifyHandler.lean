import StarkBallot.Application.SupportedJournal
import StarkBallot.Verification.BuildVerificationChecks
import StarkBallot.Verification.PublicEvidence

/-! The verification that the server reads out (`apps/api/src/server/api/handlers/verify.ts`,
    `utils/finalizationResultProjection.ts`). It evaluates the checks with the journal at hand and with
    copies of the journal's facts beside it; whoever receives the resource evaluates the same statuses
    without the journal.

        journal ──┬─ copies ──▶ buildVerificationChecks ──▶ checks ──┐
                  └─ copies ──▶ proofAuthority ──────────────────────┴─▶ evaluated again -/

namespace StarkBallot.Api
open Schemes Application Domain CryptoPrimitives ZkvmContract Verification

variable (noble : NobleUtils) (sha256 : List UInt8 → Bytes 32)

/-- What the handler has read before it evaluates anything. -/
structure VerificationRead where
  journal : CurrentZkVMJournal
  imageId : JsString
  logId : JsString
  counts : Counts
  totalVotes : Num
  voterEvidence : VoterEvidence
  verifierOutcome : VerificationOutcomeInput
  allowDevModeVerification : Bool
  publicInputAuthority : Option VerificationPublicInputAuthority
  electionManifest : Option ElectionManifest
  closeStatement : Option CloseStatement
  sthSourcesConfigured : Bool
  sthVerification : Option SthVerificationResult
  bitmapProofSource : Option BitmapProofSource
  consistencyProof : EvidenceAcquisition AdmittedConsistencyProof
  includedBitmapProof : EvidenceAcquisition BitmapProofResponse
  seenBitmapProof : Option (EvidenceAcquisition BitmapProofResponse)

namespace VerificationRead

variable (read : VerificationRead)

/-- `normalizeHex32` of a hash that was admitted. -/
def publicHash (value : JsString) : JsString := addHexPrefix (normalizeHexString value)

def voteReceipt : Option VoteReceipt :=
  match read.voterEvidence with
  | .available evidence => some evidence.voteReceipt.toVoteReceipt
  | .unavailable _ _ _ => none

def userVote : UserVoteInput :=
  match read.voterEvidence with
  | .available evidence => evidence.userVote.toUserVote
  | .unavailable _ commitment voteId => { commitment := some commitment, voteId := voteId }

/-- `verificationChecksBaseInput`, with the outcome. -/
def checksInput : VerificationEvaluationInput where
  electionId := some read.journal.electionId
  electionConfigHash := some
    ((read.publicInputAuthority.map (·.electionConfigHash)).getD read.journal.electionConfigHash)
  logId := some ((read.publicInputAuthority.map (·.logId)).getD read.logId)
  sthSourcesConfigured := some read.sthSourcesConfigured
  claimedImageId := some read.imageId
  comparisonImageId := read.journal.imageId
  allowDevModeVerification := some read.allowDevModeVerification
  voteReceipt := read.voteReceipt
  userVote := some read.userVote
  journal := some read.journal
  electionManifest := read.electionManifest
  closeStatement := read.closeStatement
  sthDigest := some (publicHash read.journal.sthDigest)
  sthVerification := read.sthVerification
  bulletinRoot := some read.journal.bulletinRoot
  treeSize := some read.journal.treeSize
  publicInputAuthority := read.publicInputAuthority
  seenBitmapRoot := some (publicHash read.journal.seenBitmapRoot)
  includedBitmapRoot := some (publicHash read.journal.includedBitmapRoot)
  bitmapProofSource := read.bitmapProofSource
  consistencyProof := some read.consistencyProof
  includedBitmapProof := some read.includedBitmapProof
  seenBitmapProof := read.seenBitmapProof
  missingSlots := some read.journal.missingSlots
  invalidPresentedSlots := some read.journal.invalidPresentedSlots
  rejectedRecords := some read.journal.rejectedRecords
  excludedSlots := some read.journal.excludedSlots
  tally := some ⟨some (read.counts.map some), some read.totalVotes⟩
  verifiedTally := some read.journal.verifiedTally
  totalExpected := some read.journal.totalExpected
  inputCommitment := some (publicHash read.journal.inputCommitment)
  verifierOutcome := some read.verifierOutcome

/-- Shorter texts are padded with zeros. -/
def ensureHex64 (value : JsString) : JsString :=
  if value = [] then js "0x" ++ zeroRoot
  else
    let clean := if value.take 2 = js "0x" then value.drop 2 else value
    js "0x" ++ toLowerCase (List.replicate (64 - clean.length) '0' ++ clean)

def proofAuthority : VerificationProofAuthority where
  electionId := read.journal.electionId
  electionConfigHash := read.journal.electionConfigHash
  logId := read.logId
  imageId := ensureHex64 read.imageId
  bulletinRoot := ensureHex64 read.journal.bulletinRoot
  verifiedTally := read.journal.verifiedTally.map fun count => if count.isFinite then count else .ofNat 0
  missingSlots := read.journal.missingSlots
  invalidPresentedSlots := read.journal.invalidPresentedSlots
  rejectedRecords := read.journal.rejectedRecords
  totalExpected := read.journal.totalExpected
  treeSize := read.journal.treeSize
  excludedSlots := read.journal.excludedSlots
  sthDigest := ensureHex64 (publicHash read.journal.sthDigest)
  seenBitmapRoot := ensureHex64 (publicHash read.journal.seenBitmapRoot)
  includedBitmapRoot := ensureHex64 (publicHash read.journal.includedBitmapRoot)
  inputCommitment := ensureHex64 (publicHash read.journal.inputCommitment)
  seenIndicesCount := read.journal.seenIndicesCount

/-- What the receiver of the resource evaluates again. -/
def publicFacts (checks : List VerificationCheck) : PublicFactCheckInput where
  checks := checks
  verificationStatus := read.verifierOutcome.status
  voterEvidence := read.voterEvidence
  proof := read.proofAuthority
  counts := read.counts
  totalVotes := read.totalVotes

/-- The voter's evidence fits the proof; without evidence there is nothing to fit. -/
def hasCoherentVoterEvidence : Bool :=
  match read.voterEvidence with
  | .available evidence => hasCoherentAvailableVoterEvidence evidence read.proofAuthority.bulletinRoot
      read.proofAuthority.inputCommitment read.proofAuthority.treeSize
  | .unavailable _ _ _ => true

/-- The proof is accepted, no record was processed, and that is what was published. -/
def PublishesEmptyTally : Prop :=
  resolveStarkStatus (some read.verifierOutcome) (some read.allowDevModeVerification) = .success ∧
    read.journal.totalVotes = .ofNat 0 ∧ read.counts = read.journal.verifiedTally ∧
    read.totalVotes = totalOf read.journal.verifiedTally.toList

end VerificationRead

/-! ### The second evaluation -/

section Reevaluation

variable {noble sha256} {read : VerificationRead} {checks : List VerificationCheck}
  {result : VerificationCheckId → CheckResult}

/-- What the evaluators returned on the handler's input. -/
def Evaluated (noble : NobleUtils) (sha256 : List UInt8 → Bytes 32) (read : VerificationRead)
    (result : VerificationCheckId → CheckResult) : Prop :=
  ∀ id, evaluateSelectedCheck noble sha256 read.checksInput
    (evaluationRuntime noble sha256 read.checksInput true) id = .ok (result id)

def VerificationRead.starkStatus (read : VerificationRead) : VerificationStepStatus :=
  resolveStarkStatus (some read.verifierOutcome) (some read.allowDevModeVerification)

/-- A check that is not derived from another one has the status of its own result. -/
theorem statusById_listed (h : ListsResults checks result) (id : VerificationCheckId)
    (hid : ∃ definition ∈ verificationCheckDefinitions, definition.id = id ∧
      definition.category ≠ .castAsIntended ∧
      definition.derivedFrom = none) : statusById checks id = some (result id).status := by
  obtain ⟨definition, hmem, rfl, hcast, hderived⟩ := hid
  obtain ⟨check, -, hfind, -, hlisted⟩ := h.find hmem
  rw [if_neg hcast, hderived] at hlisted
  rw [statusById, hfind, Option.map_some, hlisted.1]
  rfl

theorem canonicalFacts (h : ListsResults checks result) (hresult : Evaluated noble sha256 read result) :
    hasCoherentCanonicalFactChecks (read.publicFacts checks) = true := by
  simp only [hasCoherentCanonicalFactChecks, Bool.and_eq_true, List.all_eq_true, Bool.not_eq_true',
    List.any_eq_false, VerificationRead.publicFacts]
  constructor
  · intro definition hmem
    obtain ⟨check, -, hfind, -, hlisted⟩ := h.find hmem
    by_cases hcast : definition.category = .castAsIntended
    · have hnone : ∀ definition ∈ verificationCheckDefinitions, definition.category = .castAsIntended →
          definition.derivedFrom = none := by decide
      rw [if_pos hcast] at hlisted
      simp [statusById, hfind, hlisted.1, hnone definition hmem hcast]
    · have hsource : ∀ definition ∈ verificationCheckDefinitions, ∀ source ∈ definition.derivedFrom,
          ∃ definition ∈ verificationCheckDefinitions, definition.id = source ∧
            definition.category ≠ .castAsIntended ∧ definition.derivedFrom = none := by decide
      rw [if_neg hcast] at hlisted
      rcases hderived : definition.derivedFrom with _ | source
      · simp [statusById, hfind, hcast]
      · have hstatus := statusById_listed h _ (hsource definition hmem source hderived)
        have hown :
            statusById checks definition.id = some check.status := by
              rw [statusById, hfind, Option.map_some]
        rw [hderived, Option.getD_some] at hlisted
        simp [hown, hstatus, hcast, hlisted.1]
  · intro check hcheck
    obtain ⟨definition, hmem, hid, hlisted⟩ := exists_of_forall₂ h check hcheck
    simp only [hid, decide_eq_true_eq, not_and, Bool.not_eq_true, Option.isSome_eq_false_iff,
      Option.isNone_iff_eq_none, ListedCheckId.known.injEq, ne_eq]
    intro hother
    split at hlisted
    · exact hlisted.2
    · rw [hlisted.2, evaluated_noteKey (hresult definition.id) hother, ite_self]

/-- Both sides open and close the gate alike. -/
theorem publicGate (outcome : VerificationOutcomeInput) (allowDevModeVerification : Bool) :
    resolvePublicFactZkGate outcome.status
      (some (resolveStarkStatus (some outcome) (some allowDevModeVerification))) =
      resolveZkGateStatus (resolveStarkStatus (some outcome) (some allowDevModeVerification)) := by
  cases outcome <;> cases allowDevModeVerification <;> rfl

theorem gate_open_iff : resolveZkGateStatus read.starkStatus = none ↔ read.starkStatus = .success := by
  obtain ⟨outcome, allowDevModeVerification, hstatus⟩ : ∃ outcome allowDevModeVerification,
      read.starkStatus = resolveStarkStatus (some outcome) (some allowDevModeVerification) := ⟨_, _, rfl⟩
  rw [hstatus]
  cases outcome <;> cases allowDevModeVerification <;> simp [resolveStarkStatus, resolveZkGateStatus]

/-- Without a receipt the check is not run, and its note says why. -/
theorem myVote_unavailable {reason : UnavailableReason} {commitment : JsString}
    {voteId : Option JsString} (hvoter : read.voterEvidence = .unavailable reason commitment voteId) :
    resolveCountedMyVoteIncluded noble sha256 read.checksInput none =
      .notRun (some (if (Num.ofNat 0).lt read.journal.excludedSlots then .excluded
        else .missingReceipt)) := by
  have hposition : bitmapReceiptPosition read.checksInput.voteReceipt = none := by
    simp [bitmapReceiptPosition, VerificationRead.checksInput, VerificationRead.voteReceipt, hvoter]
  have hexcluded : resolveExcludedCount read.checksInput.journal read.checksInput.missingSlots
      read.checksInput.invalidPresentedSlots read.checksInput.excludedSlots =
        some read.journal.excludedSlots := rfl
  unfold resolveCountedMyVoteIncluded gated
  rw [hposition]
  simp only [unresolvedMyVoteCheck, resolveCountedMyVoteIncludedNoteKey, hexcluded, hposition]
  by_cases hpos : (Num.ofNat 0).lt read.journal.excludedSlots = true <;> simp [hpos]

/-- With a root and a position the note never asks for the receipt. -/
theorem myVote_note {input : VerificationEvaluationInput}
    (hroot : (resolvedIncludedBitmapRoot input).isSome = true)
    (hposition : (bitmapReceiptPosition input.voteReceipt).isSome = true) :
    (resolveCountedMyVoteIncluded noble sha256 input none).noteKey ≠ some .missingReceipt := by
  have hunresolved : (unresolvedMyVoteCheck input).noteKey ≠ some .missingReceipt := by
    obtain ⟨root, hroot⟩ := Option.isSome_iff_exists.mp hroot
    obtain ⟨position, hposition⟩ := Option.isSome_iff_exists.mp hposition
    simp only [unresolvedMyVoteCheck, CheckResult.noteKey, resolveCountedMyVoteIncludedNoteKey,
      hroot, hposition]
    split_ifs <;> simp_all
  have hprojected (result : VoteInclusionResult) :
      (projectMyVoteProofResult result).noteKey ≠ some .missingReceipt := by
    unfold projectMyVoteProofResult
    split_ifs
    · rw [CheckResult.noteKey_ofStatus]
      simp
    · simp [CheckResult.noteKey]
    · rcases result.statusDetail with _ | status
      · simp [CheckResult.noteKey]
      · cases status <;> simp [CheckResult.noteKey, noteKeyOfStatus]
  unfold resolveCountedMyVoteIncluded gated
  dsimp only
  split
  · unfold evaluateMyVoteBitmapProof
    dsimp only
    split
    · exact hprojected _
    · exact hunresolved
  · exact hunresolved

theorem resolvedRoot_isSome (hsupported : isSupportedZkVMJournal read.journal = true) :
    (resolvedIncludedBitmapRoot read.checksInput).isSome = true := by
  have hne : read.journal.includedBitmapRoot ≠ [] :=
    ne_nil_of_isValidHexString (supported_hashes hsupported _ (by simp))
  have hroot :
      resolvedIncludedBitmapRoot read.checksInput =
        nonEmptyText (some read.journal.includedBitmapRoot) := rfl
  rw [hroot, nonEmptyText_eq_some.mpr ⟨rfl, hne⟩, Option.isSome_some]

/-- The index of a coherent receipt. -/
structure CoherentIndex (evidence : AvailableVoterEvidence) : Prop where
  eq : evidence.voteReceipt.bulletinIndex = evidence.userVote.proof.leafIndex
  safe : evidence.userVote.proof.leafIndex.isSafeInteger = true
  nonneg : evidence.userVote.proof.leafIndex.lt (.ofNat 0) = false

theorem coherentIndex {evidence : AvailableVoterEvidence} {bulletinRoot inputCommitment : JsString}
    {treeSize : Num}
    (h : hasCoherentAvailableVoterEvidence evidence bulletinRoot inputCommitment treeSize = true) :
    CoherentIndex evidence := by
  unfold hasCoherentAvailableVoterEvidence at h
  dsimp only at h
  split at h
  · cases h
  · rename_i hcoherent
    simp only [Bool.or_eq_true, not_or, Bool.not_eq_true', Bool.not_eq_false,
      Bool.not_eq_true] at hcoherent
    obtain ⟨⟨⟨⟨⟨⟨⟨⟨⟨-, hindex⟩, -⟩, -⟩, hsafe⟩, hnonneg⟩, -⟩, -⟩, -⟩, -⟩ := hcoherent
    exact ⟨Num.eq_of_eq hindex, hsafe, hnonneg⟩

theorem position_isSome {evidence : AvailableVoterEvidence}
    (hevidence : read.voterEvidence = .available evidence)
    (hvoter : read.hasCoherentVoterEvidence = true) :
    (bitmapReceiptPosition read.checksInput.voteReceipt).isSome = true := by
  simp only [VerificationRead.hasCoherentVoterEvidence, hevidence] at hvoter
  obtain ⟨hindex, hsafe, -⟩ := coherentIndex hvoter
  have hinteger := Num.isInteger_of_isSafeInteger hsafe
  simp [bitmapReceiptPosition, VerificationRead.checksInput, VerificationRead.voteReceipt, hevidence,
    PublicVoteReceipt.toVoteReceipt, hindex, hinteger]

/-- The check of the voter's own slot, behind the gate of both sides. -/
theorem myVoteCheck (hsupported : isSupportedZkVMJournal read.journal = true)
    (hvoter : read.hasCoherentVoterEvidence = true) (h : ListsResults checks result)
    (hresult : Evaluated noble sha256 read result) :
    hasCoherentPublicMyVoteCheck (read.publicFacts checks)
      (resolveZkGateStatus read.starkStatus) = true := by
  obtain ⟨definition, hmem, hid, hcast, hderived⟩ : ∃ definition ∈ verificationCheckDefinitions,
      definition.id = .countedMyVoteIncluded ∧ definition.category ≠ .castAsIntended ∧
        definition.derivedFrom = none := by decide
  obtain ⟨check, hfind, -, -, hlisted⟩ := h.find hmem
  rw [if_neg hcast, hderived, Option.getD_none, hid] at hlisted
  have hvalue :
      resolveCountedMyVoteIncluded noble sha256 read.checksInput (resolveZkGateStatus read.starkStatus) =
      result .countedMyVoteIncluded := Except.ok.inj (hresult .countedMyVoteIncluded)
  rw [hid] at hfind
  simp only [hasCoherentPublicMyVoteCheck, checkById, VerificationRead.publicFacts, hfind]
  rcases hgate : resolveZkGateStatus read.starkStatus with _ | status
  · rw [hgate] at hvalue
    rcases hevidence : read.voterEvidence with evidence | ⟨reason, commitment, voteId⟩
    · have hnote := @myVote_note noble sha256 read.checksInput (resolvedRoot_isSome hsupported)
        (position_isSome hevidence hvoter)
      rw [hvalue] at hnote
      simp only [hasCoherentUngatedMyVoteCheck, Bool.not_eq_true', Bool.or_eq_false_iff,
        decide_eq_false_iff_not, Bool.and_eq_false_iff, hlisted.2]
      constructor
      · split_ifs <;> simp [hnote]
      · by_cases hsuccess : check.status = .success
        · simp [hsuccess]
        · exact .inl hsuccess
    · rw [myVote_unavailable hevidence] at hvalue
      rw [← hvalue] at hlisted
      simp [hasCoherentUngatedMyVoteCheck, hlisted.1, hlisted.2, CheckResult.status, CheckResult.noteKey,
        VerificationRead.proofAuthority]
      rfl
  · rw [hgate] at hvalue
    have hclosed : result .countedMyVoteIncluded = .ofStatus status := hvalue.symm
    simp [hlisted.1, hlisted.2, hclosed]

/-- The recorded checks have nothing but public facts to go by. -/
theorem recordedChecks (h : ListsResults checks result) (hresult : Evaluated noble sha256 read result) :
    hasCoherentRecordedFactChecks noble sha256 (read.publicFacts checks) = true := by
  have hindex := statusById_listed h .recordedIndexInRange (by decide)
  have hinclusion := statusById_listed h .recordedInclusionProof (by decide)
  have hconsistency := statusById_listed h .recordedConsistencyProof (by decide)
  rw [← Except.ok.inj (hresult .recordedIndexInRange)] at hindex
  rw [← Except.ok.inj (hresult .recordedInclusionProof)] at hinclusion
  simp only [hasCoherentRecordedFactChecks, VerificationRead.publicFacts]
  rcases hevidence : read.voterEvidence with evidence | ⟨reason, commitment, voteId⟩
  · have hreceipt : read.checksInput.voteReceipt = some evidence.voteReceipt.toVoteReceipt := by
      simp [VerificationRead.checksInput, VerificationRead.voteReceipt, hevidence]
    have huserVote : read.checksInput.userVote = some evidence.userVote.toUserVote := by
      simp [VerificationRead.checksInput, VerificationRead.userVote, hevidence]
    rw [hreceipt] at hindex hinclusion
    rw [huserVote] at hinclusion
    simp only [hindex, hinclusion, Bool.and_eq_true, decide_eq_true_eq]
    exact ⟨rfl, trivial⟩
  · have hreceipt : read.checksInput.voteReceipt = none := by
      simp [VerificationRead.checksInput, VerificationRead.voteReceipt, hevidence]
    have hproof : read.checksInput.userVote.bind (·.proof) = none := by
      simp [VerificationRead.checksInput, VerificationRead.userVote, hevidence]
    have hnotRun :
        resolveRecordedConsistencyProof noble sha256 read.checksInput = .ok (.notRun none) := by
      unfold resolveRecordedConsistencyProof
      rw [hreceipt]
      rfl
    have hvalue : result .recordedConsistencyProof = .notRun none :=
      Except.ok.inj ((hresult .recordedConsistencyProof).symm.trans hnotRun)
    rw [hvalue] at hconsistency
    have hindexValue :
        resolveRecordedIndexInRange read.checksInput.voteReceipt read.checksInput.treeSize =
        .notRun none := by
      rw [hreceipt]
      rfl
    have hinclusionValue : resolveRecordedInclusionProof noble sha256 read.checksInput.voteReceipt
        read.checksInput.userVote = .notRun none := by
      unfold resolveRecordedInclusionProof
      rw [hreceipt, hproof]
      rfl
    rw [hindexValue] at hindex
    rw [hinclusionValue] at hinclusion
    simp [hindex, hinclusion, hconsistency, CheckResult.status]

/-- The public copy of a supported tally is the tally. -/
theorem proofTally (hsupported : isSupportedZkVMJournal read.journal = true) :
    read.proofAuthority.verifiedTally = read.journal.verifiedTally := by
  obtain ⟨numbers⟩ := journalNumbers_of_supported hsupported
  simp only [VerificationRead.proofAuthority, numbers.verifiedTally_eq]
  refine Vector.ext fun k hk => ?_
  simp

theorem validCounts (hsupported : isSupportedZkVMJournal read.journal = true) :
    resolveInvalidJournalCounts (some read.journal) = none := by
  obtain ⟨numbers⟩ := journalNumbers_of_supported hsupported
  simp [resolveInvalidJournalCounts, numbers.excludedSlots_eq, numbers.missingSlots_eq,
    numbers.invalidPresentedSlots_eq, numbers.validVotes_eq, isValidCount]

theorem totalOf_ofNat (counts : List ℕ) : totalOf (counts.map Num.ofNat) = .ofNat counts.sum := by
  suffices hfold : ∀ (counts : List ℕ) (acc : ℕ),
      (counts.map Num.ofNat).foldl Num.add (.ofNat acc) = .ofNat (acc + counts.sum) by
    simpa [totalOf] using hfold counts 0
  intro counts
  induction counts with
  | nil => intro acc; rfl
  | cons count counts ih =>
    intro acc
    rw [List.map_cons, List.foldl_cons, Num.ofNat_add, ih, List.sum_cons, Nat.add_assoc]

/-- Numbers equal themselves. -/
theorem zip_self_eq {counts : List Num} (h : ∀ count ∈ counts, ∃ n, count = .ofNat n) :
    (((counts.map some).zip counts).all fun entry => entry.1.any (·.eq entry.2)) = true := by
  induction counts with
  | nil => rfl
  | cons count counts ih =>
    obtain ⟨n, rfl⟩ := h count List.mem_cons_self
    have hrest := ih fun other hother => h other (List.mem_cons_of_mem _ hother)
    simpa using hrest

/-- A published tally equals a supported one, or the comparison fails. -/
theorem comparePublishedTally_status (hsupported : isSupportedZkVMJournal read.journal = true) :
    (comparePublishedTally (read.counts.map some) read.totalVotes read.journal.verifiedTally).status =
      if read.counts = read.journal.verifiedTally ∧
      read.totalVotes = totalOf read.journal.verifiedTally.toList then
        .success else .failed := by
  obtain ⟨numbers⟩ := journalNumbers_of_supported hsupported
  have hpresent : ¬ (read.counts.map some).toList.any Option.isNone = true := by
    rw [List.any_eq_true]
    rintro ⟨count, hcount, hnone⟩
    rw [Vector.toList_map, List.mem_map] at hcount
    obtain ⟨_, -, rfl⟩ := hcount
    cases hnone
  split
  · rename_i hequal
    obtain ⟨hcounts, htotal⟩ := hequal
    have hself :
        (totalOf read.journal.verifiedTally.toList).eq (totalOf read.journal.verifiedTally.toList) =
          true := by
      rw [numbers.verifiedTally_eq, Vector.toList_map, totalOf_ofNat, Num.ofNat_eq, decide_eq_true rfl]
    rw [comparePublishedTally, if_neg hpresent, hcounts, htotal, Vector.toList_map,
      zip_self_eq numbers.tally_finite, hself]
    rfl
  · rename_i hdiffers
    have hne :
        comparePublishedTally (read.counts.map some) read.totalVotes read.journal.verifiedTally ≠
          .success := by
      intro hsuccess
      obtain ⟨hcounts, htotal⟩ := comparePublishedTally_success hsuccess
      exact hdiffers ⟨(Vector.map_inj_right fun _ _ => Option.some.inj).mp hcounts, htotal⟩
    rw [comparePublishedTally, if_neg hpresent] at hne ⊢
    dsimp only at hne ⊢
    rw [CheckResult.status_ofBool, if_neg fun hmatches => hne (by rw [hmatches]; rfl)]

theorem tallyChecks (hsupported : isSupportedZkVMJournal read.journal = true) :
    (resolveCountedTallyConsistent (some read.journal)
        (some ⟨some (read.counts.map some), some read.totalVotes⟩)
        (some read.journal.verifiedTally) (resolveZkGateStatus read.starkStatus)).status =
      (resolveCountedTallyConsistent none (some ⟨some (read.counts.map some), some read.totalVotes⟩)
        (some read.journal.verifiedTally) (resolveZkGateStatus read.starkStatus)).status ↔
        ¬ read.PublishesEmptyTally := by
  obtain ⟨numbers⟩ := journalNumbers_of_supported hsupported
  have hcompare := comparePublishedTally_status hsupported
  rcases hgate : resolveZkGateStatus read.starkStatus with _ | status
  · have hopen : read.starkStatus = .success := gate_open_iff.mp hgate
    simp only [resolveCountedTallyConsistent, gated, Option.any_some, Option.any_none, Option.bind_some]
    rw [if_neg Bool.false_ne_true]
    by_cases hzero : numbers.totalVotes = 0
    · -- the engine fails here whatever was published
      have htotal : read.journal.totalVotes = .ofNat 0 := by rw [numbers.totalVotes_eq, hzero]
      rw [if_pos (by rw [htotal]; rfl), hcompare, CheckResult.status_failure]
      split
      · rename_i hequal
        exact iff_of_false (by decide) (not_not.mpr ⟨hopen, htotal, hequal⟩)
      · rename_i hdiffers
        exact iff_of_true rfl fun hempty => hdiffers hempty.2.2
    · have htotal : read.journal.totalVotes.eq (.ofNat 0) = false := by
        rw [numbers.totalVotes_eq, Num.ofNat_eq, decide_eq_false hzero]
      rw [if_neg (by simp [htotal])]
      refine iff_of_true rfl fun hempty => ?_
      rw [hempty.2.1] at htotal
      cases htotal
  · refine iff_of_true rfl fun hempty => ?_
    have hopen := gate_open_iff.mpr hempty.1
    rw [hgate] at hopen
    cases hopen

/-- The counted checks: behind the gate, or from copies that are the journal's. -/
theorem countedChecks (hsupported : isSupportedZkVMJournal read.journal = true)
    (h : ListsResults checks result) (hresult : Evaluated noble sha256 read result) :
    hasCoherentCountedFactChecks (read.publicFacts checks)
      (resolveZkGateStatus read.starkStatus) = true ↔
      ¬ read.PublishesEmptyTally := by
  have hmanifest := statusById_listed h .countedElectionManifestConsistent (by decide)
  have hclose := statusById_listed h .countedCloseStatementConsistent (by decide)
  have hcommitment := statusById_listed h .countedInputCommitmentMatch (by decide)
  have hmissing := statusById_listed h .countedMissingIndicesZero (by decide)
  have htally := statusById_listed h .countedTallyConsistent (by decide)
  have hsizes := statusById_listed h .countedExpectedVsTreeSize (by decide)
  rw [← Except.ok.inj (hresult .countedMissingIndicesZero)] at hmissing
  rw [← Except.ok.inj (hresult .countedTallyConsistent)] at htally
  rw [← Except.ok.inj (hresult .countedExpectedVsTreeSize)] at hsizes
  have hagrees : ∀ status, resolveZkGateStatus read.starkStatus = some status →
      ∀ id ∈ [VerificationCheckId.countedElectionManifestConsistent, .countedCloseStatementConsistent,
        .countedInputCommitmentMatch], statusById checks id = some status := by
    intro status hgate
    have hclosed :
        ∀ inner : CheckResult, (gated (resolveZkGateStatus read.starkStatus) inner).status = status := by
      intro inner
      rw [hgate]
      exact CheckResult.status_ofStatus status
    rw [← Except.ok.inj (hresult .countedElectionManifestConsistent)] at hmanifest
    rw [← Except.ok.inj (hresult .countedCloseStatementConsistent)] at hclose
    rw [← Except.ok.inj (hresult .countedInputCommitmentMatch)] at hcommitment
    simp only [List.mem_cons, List.not_mem_nil, or_false, forall_eq_or_imp, forall_eq]
    exact ⟨hmanifest.trans (congrArg some (hclosed _)), hclose.trans (congrArg some (hclosed _)),
      hcommitment.trans (congrArg some (hclosed _))⟩
  have hmissingSame :
      resolveCountedMissingIndicesZero read.checksInput.journal read.checksInput.missingSlots
      read.checksInput.invalidPresentedSlots read.checksInput.excludedSlots
        (resolveZkGateStatus read.starkStatus) =
      resolveCountedMissingIndicesZero none (some read.journal.missingSlots)
        (some read.journal.invalidPresentedSlots) (some read.journal.excludedSlots)
        (resolveZkGateStatus read.starkStatus) := by
    have hjournal : read.checksInput.journal = some read.journal := rfl
    unfold resolveCountedMissingIndicesZero
    rw [hjournal, validCounts hsupported]
    rfl
  rw [← tallyChecks hsupported]
  unfold hasCoherentCountedFactChecks
  dsimp only [VerificationRead.publicFacts]
  simp only [Bool.and_eq_true, decide_eq_true_eq, Option.all_eq_true, List.all_eq_true, hmissing,
    htally, hsizes, proofTally hsupported, Option.some.injEq]
  constructor
  · rintro ⟨⟨-, hsame⟩, -⟩
    exact hsame
  · intro hsame
    exact ⟨⟨⟨fun status hgate id hid => decide_eq_true (hagrees status hgate id hid),
      congrArg CheckResult.status hmissingSame⟩, hsame⟩, rfl⟩

theorem asVerificationIndex_ok {value : Num} {label : String} (hsafe : value.isSafeInteger = true)
    (hnonneg : value.lt (.ofNat 0) = false) : asVerificationIndex label value = .ok value.toNat := by
  simp [asVerificationIndex, hsafe, hnonneg]

theorem validateConsistencySnapshot_total {proof : CanonicalRfc6962Proof} {voteReceipt : VoteReceipt}
    {newSize : Num} {i j : ℕ} (hbulletin : asBulletinIndex voteReceipt.bulletinIndex = .ok i)
    (hleaf : asLeafIndex proof.leafIndex = .ok j) :
    ∃ snapshotError, validateConsistencySnapshot proof voteReceipt newSize = .ok snapshotError := by
  unfold validateConsistencySnapshot
  split
  · exact ⟨_, rfl⟩
  · rw [hbulletin, ok_bind, hleaf, ok_bind]
    split_ifs <;> exact ⟨_, rfl⟩

/-- With a coherent index, or without a receipt, nothing is thrown. -/
theorem consistencyProof_total (hvoter : read.hasCoherentVoterEvidence = true) :
    ∃ consistency, resolveRecordedConsistencyProof noble sha256 read.checksInput = .ok consistency := by
  unfold resolveRecordedConsistencyProof
  split
  · rename_i voteReceipt bulletinRoot newSize proof hreceipt _ _ hproof
    split
    · exact ⟨_, rfl⟩
    split
    · exact ⟨_, rfl⟩
    obtain ⟨hreceipt, -⟩ := Option.filter_eq_some_iff.mp hreceipt
    rcases hevidence : read.voterEvidence with evidence | ⟨reason, commitment, voteId⟩
    · simp only [VerificationRead.hasCoherentVoterEvidence, hevidence] at hvoter
      obtain ⟨hindex, hsafe, hnonneg⟩ := coherentIndex hvoter
      simp only [VerificationRead.checksInput, VerificationRead.voteReceipt, hevidence,
        Option.some.injEq] at hreceipt
      simp only [VerificationRead.checksInput, VerificationRead.userVote, hevidence] at hproof
      obtain rfl := Option.some.inj hproof
      subst hreceipt
      have hbulletin : asBulletinIndex evidence.voteReceipt.toVoteReceipt.bulletinIndex =
          .ok evidence.userVote.proof.leafIndex.toNat := by
        rw [PublicVoteReceipt.toVoteReceipt, hindex]
        exact asVerificationIndex_ok hsafe hnonneg
      obtain ⟨snapshotError, hvalidated⟩ := @validateConsistencySnapshot_total evidence.userVote.proof
        evidence.voteReceipt.toVoteReceipt newSize _ _ hbulletin (asVerificationIndex_ok hsafe hnonneg)
      have hsame :
          CanonicalRfc6962Proof.mk evidence.userVote.proof.leafIndex evidence.userVote.proof.treeSize
          evidence.userVote.proof.merklePath evidence.userVote.proof.bulletinRootAtCast =
            evidence.userVote.proof := rfl
      rw [hsame, hvalidated, ok_bind]
      cases snapshotError <;> exact ⟨_, rfl⟩
    · simp [VerificationRead.checksInput, VerificationRead.voteReceipt, hevidence] at hreceipt
  · exact ⟨_, rfl⟩

end Reevaluation

/-- REEVALUATION: whatever the server read, it lists checks, and the receiver's evaluation accepts them
    exactly when it did not publish an empty tally for a journal without records behind an open gate. -/
theorem server_checks_accepted_iff (read : VerificationRead)
    (hsupported : isSupportedZkVMJournal read.journal = true)
    (hvoter : read.hasCoherentVoterEvidence = true) :
    ∃ checks, buildVerificationChecks noble sha256 read.checksInput .client = .ok checks ∧
      (hasCoherentPublicFactDerivedCheckStatuses noble sha256 (read.publicFacts checks) = true ↔
        ¬ read.PublishesEmptyTally) := by
  obtain ⟨consistency, hconsistency⟩ := @consistencyProof_total noble sha256 read hvoter
  obtain ⟨checks, result, hchecks, h, hresult⟩ := buildVerificationChecks_lists hconsistency
  refine ⟨checks, hchecks, ?_⟩
  have hreceipt :
      statusById (read.publicFacts checks).checks .starkReceiptVerify = some read.starkStatus := by
    refine (statusById_listed h _ (by decide)).trans (congrArg some ?_)
    rw [← Except.ok.inj (hresult .starkReceiptVerify)]
    exact CheckResult.status_ofStatus _
  have hgate :
      resolvePublicFactZkGate (read.publicFacts checks).verificationStatus (some read.starkStatus) =
      resolveZkGateStatus read.starkStatus :=
      publicGate read.verifierOutcome read.allowDevModeVerification
  unfold hasCoherentPublicFactDerivedCheckStatuses
  rw [canonicalFacts h hresult, hreceipt]
  dsimp only
  rw [hgate, myVoteCheck hsupported hvoter h hresult, recordedChecks h hresult, Bool.not_true,
    if_neg Bool.false_ne_true, Bool.true_and, Bool.true_and]
  exact countedChecks hsupported h hresult

/-! ### An election of one slot -/

/-- One slot, and nothing in it. -/
def emptyJournal : CurrentZkVMJournal where
  electionId := js "550e8400-e29b-41d4-a716-446655440000"
  electionConfigHash := List.replicate 64 '1'
  bulletinRoot := List.replicate 64 '2'
  treeSize := .ofNat 1
  totalExpected := .ofNat 1
  sthDigest := List.replicate 64 '3'
  verifiedTally := Vector.replicate 5 (.ofNat 0)
  totalVotes := .ofNat 0
  validVotes := .ofNat 0
  invalidVotes := .ofNat 0
  seenIndicesCount := .ofNat 0
  missingSlots := .ofNat 1
  invalidPresentedSlots := .ofNat 0
  rejectedRecords := .ofNat 0
  seenBitmapRoot := List.replicate 64 '4'
  includedBitmapRoot := List.replicate 64 '4'
  excludedSlots := .ofNat 1
  inputCommitment := List.replicate 64 '5'
  methodVersion := .ofNat ContractCore.currentMethodVersion
  imageId := none

def emptyRead (verifierOutcome : VerificationOutcomeInput) : VerificationRead where
  journal := emptyJournal
  imageId := List.replicate 64 '6'
  logId := List.replicate 64 '7'
  counts := Vector.replicate 5 (.ofNat 0)
  totalVotes := .ofNat 0
  voterEvidence := .unavailable .exactProofUnavailable (List.replicate 64 '8') (some (js "id"))
  verifierOutcome := verifierOutcome
  allowDevModeVerification := false
  publicInputAuthority := none
  electionManifest := none
  closeStatement := none
  sthSourcesConfigured := false
  sthVerification := none
  bitmapProofSource := none
  consistencyProof := .unavailable none
  includedBitmapProof := .unavailable none
  seenBitmapProof := none

/-- One vote, for the first choice. -/
def countedTally : Vector Num 5 :=
  (Vector.range 5).map fun choice => .ofNat (if choice = 0 then 1 else 0)

/-- The slot holds a vote for the first choice, and it is counted. -/
def countedJournal : CurrentZkVMJournal :=
  { emptyJournal with
    verifiedTally := countedTally
    totalVotes := .ofNat 1
    validVotes := .ofNat 1
    seenIndicesCount := .ofNat 1
    missingSlots := .ofNat 0
    excludedSlots := .ofNat 0 }

/-- The counted vote is published, and the proof is verified. -/
def countedRead : VerificationRead :=
  { emptyRead (.success none) with
    journal := countedJournal
    counts := countedTally
    totalVotes := .ofNat 1 }

/-- Behind an open gate a counted vote is accepted. -/
theorem server_checks_accepted_on_sample :
    resolveZkGateStatus countedRead.starkStatus = none ∧ ∃ checks,
      buildVerificationChecks .reference Sha256.digest countedRead.checksInput .client = .ok checks ∧
        hasCoherentPublicFactDerivedCheckStatuses .reference Sha256.digest
          (countedRead.publicFacts checks) = true := by
  obtain ⟨checks, hchecks, haccepted⟩ :=
    server_checks_accepted_iff .reference Sha256.digest countedRead (by decide +kernel) rfl
  refine ⟨by decide +kernel, checks, hchecks, haccepted.mpr ?_⟩
  rintro ⟨-, hnone, -⟩
  exact absurd hnone (by decide)

/-- Once it is verified the server lists a failure that the receiver's evaluation contradicts. -/
theorem empty_tally_not_accepted : isSupportedZkVMJournal (emptyRead (.success none)).journal = true ∧
    (emptyRead (.success none)).hasCoherentVoterEvidence = true ∧
    ∃ checks, buildVerificationChecks .reference Sha256.digest
        (emptyRead (.success none)).checksInput .client = .ok checks ∧
      hasCoherentPublicFactDerivedCheckStatuses .reference Sha256.digest
        ((emptyRead (.success none)).publicFacts checks) = false := by
  refine ⟨by decide +kernel, rfl, ?_⟩
  have hchecks :
      (buildVerificationChecks .reference Sha256.digest (emptyRead (.success none)).checksInput
      .client).toOption.any
        (fun checks => !hasCoherentPublicFactDerivedCheckStatuses .reference Sha256.digest
        ((emptyRead (.success none)).publicFacts checks)) = true := by decide +kernel
  rcases hbuilt :
    buildVerificationChecks .reference Sha256.digest (emptyRead (.success none)).checksInput .client
    with error | checks
  · rw [hbuilt] at hchecks
    cases hchecks
  · rw [hbuilt] at hchecks
    exact ⟨checks, rfl, by simpa [Except.toOption] using hchecks⟩

end StarkBallot.Api
