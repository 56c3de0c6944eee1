import StarkBallot.Application.SessionProving
import StarkBallot.Guest.Binding
import StarkBallot.Merkle.CastSnapshot
import StarkBallot.Verification.SuccessfulChecks
import StarkBallot.ZkvmContract.HostOutput

/-! One vote, from the voter to the tally. The checks of the four steps each bind another copy of the
    vote's place, of the roots and of the election, and the guest opens the vote once more:

        choice, random ──commitment──▶ receipt ──inclusion at cast──▶ root at cast ──consistency──▶ final root
                                                                                                       │ close statement
        tally ◀──choice── accepted record ◀──bitmap proof── included root of the journal ◀─────────────┘

    When every required check succeeds, the record that the guest accepted at the voter's slot is the
    voter's, or two of the messages hashed on the way collide. -/

namespace StarkBallot.Verification
open Schemes Application Domain CryptoPrimitives ZkvmContract Guest
open ContractCore
    (AggregatorInput VoteWithProof commitmentMessage bitmapMessages computeBitmapMerkleRoot)

/-! ### Success, check by check -/

section Success

variable {noble : NobleUtils} {sha256 : List UInt8 → Bytes 32}
    {zkGateStatus : Option VerificationStepStatus}

theorem toCheckResult_eq_success {result : LocalCastCheckResult} (h : result.toCheckResult = .success) :
    result = .success := by
  cases result with
  | success => rfl
  | notRun => cases h
  | failed error => cases h

/-- The receipt's commitment opens to the voter's choice. -/
theorem castCommitmentMatch_success {input : LocalCastCheckInput}
    (h : resolveCastCommitmentMatch noble sha256 input = .success) :
    ∃ electionId voteReceipt choice random recomputed, input.electionId = some electionId ∧
      electionId ≠ [] ∧
      input.voteReceipt = some voteReceipt ∧ input.choice = some choice ∧ input.random = some random ∧
      choice ∈ choiceTexts ∧
      computeCommitment noble sha256 electionId (.ofNat (choiceTexts.idxOf choice)) random = .ok
        recomputed ∧
      normalizeHexString voteReceipt.commitment = normalizeHexString recomputed := by
  unfold resolveCastCommitmentMatch at h
  split at h
  · rename_i electionId voteReceipt choice random helection hreceipt hchoice hrandom
    obtain ⟨helection, hne⟩ := nonEmptyText_eq_some.mp helection
    obtain ⟨hchoice, -⟩ := nonEmptyText_eq_some.mp hchoice
    obtain ⟨hrandom, -⟩ := nonEmptyText_eq_some.mp hrandom
    obtain ⟨hreceipt, -⟩ := Option.filter_eq_some_iff.mp hreceipt
    dsimp only at h
    split at h
    · cases h
    split at h
    · cases h
    rename_i hlisted
    unfold compareRecomputedCommitment at h
    split at h
    · cases h
    rename_i recomputed hrecomputed
    split at h
    · cases h
    rename_i hsame
    exact ⟨electionId, voteReceipt, choice, random, recomputed, helection, hne, hreceipt,
      hchoice, hrandom, not_not.mp hlisted, hrecomputed, not_not.mp hsame⟩
  · cases h

theorem castRandomFormat_success {random : Option JsString}
    (h : resolveCastRandomFormat random = .success) :
    ∃ value, random = some value ∧ isValidHexString value (some 32) = true := by
  unfold resolveCastRandomFormat at h
  split at h
  · cases h
  rename_i value hvalue
  split at h
  · rename_i hvalid
    exact ⟨value, (nonEmptyText_eq_some.mp hvalue).1, hvalid⟩
  · cases h

/-- What the inclusion at cast is checked on. -/
structure IncludedAtCast (noble : NobleUtils) (sha256 : List UInt8 → Bytes 32)
    (voteReceipt : VoteReceipt) (commitment : JsString) (proof : CanonicalRfc6962Proof) (index : ℕ) :
    Prop where
  bulletinIndex : voteReceipt.bulletinIndex = .ofNat index
  leafIndex : proof.leafIndex = .ofNat index
  treeSize : proof.treeSize = .ofNat (index + 1)
  root : normalizeHexString proof.bulletinRootAtCast = normalizeHexString voteReceipt.bulletinRootAtCast
  included : Merkle.verifyInclusionProof noble sha256 (normalizeHexString commitment) index
    (proof.merklePath.map normalizeHexString) (normalizeHexString proof.bulletinRootAtCast)
    (index + 1) = .ok true

theorem includedOrFailed_success {result : JsM Bool} (h : includedOrFailed result = .success) :
    result = .ok true := by
  unfold includedOrFailed at h
  split at h
  · rfl
  · cases h
  · cases h

theorem asVerificationIndex_eq_ok {label : String} {value : Num} {index : ℕ}
    (h : asVerificationIndex label value = .ok index) : value = .ofNat index := by
  unfold asVerificationIndex at h
  split at h
  · cases h
  rename_i hvalid
  simp only [Bool.or_eq_true, Bool.not_eq_true', not_or, Bool.not_eq_false] at hvalid
  rw [← Except.ok.inj h]
  exact Num.eq_ofNat_toNat (Num.isInteger_of_isSafeInteger hvalid.1)
    (Bool.eq_false_of_not_eq_true hvalid.2)

theorem recordedInclusionProof_success {voteReceipt : Option VoteReceipt}
    {userVote : Option UserVoteInput}
    (h : resolveRecordedInclusionProof noble sha256 voteReceipt userVote = .success) :
    ∃ receipt commitment proof index, voteReceipt = some receipt ∧
      userVote.bind (·.commitment) = some commitment ∧
      toCanonicalRfc6962Proof (userVote.bind (·.proof)) = some proof ∧
      IncludedAtCast noble sha256 receipt commitment proof index := by
  unfold resolveRecordedInclusionProof at h
  split at h
  · rename_i proof receipt commitment hproof hcommitment
    obtain ⟨hcommitment, -⟩ := nonEmptyText_eq_some.mp hcommitment
    split at h
    · cases h
    split at h
    · rename_i receiptIndex leafIndex hreceipt hleaf
      unfold verifyAtCast at h
      split at h
      · cases h
      rename_i hindex
      split at h
      · cases h
      split at h
      · cases h
      rename_i hsize
      split at h
      · cases h
      rename_i hroot
      obtain rfl := not_not.mp hindex
      have htreeSize : proof.treeSize = .ofNat (leafIndex + 1) := Num.eq_of_eq (by simpa using hsize)
      refine ⟨receipt, commitment, proof, leafIndex, rfl, hcommitment, hproof,
        asVerificationIndex_eq_ok hreceipt, asVerificationIndex_eq_ok hleaf, htreeSize,
        not_not.mp hroot, ?_⟩
      have hverified := includedOrFailed_success h
      rw [verifyCTMerkleInclusion, htreeSize, Num.ofNat_toNat, if_neg (Nat.succ_ne_zero _)] at hverified
      exact hverified
    · cases h
  · cases h

/-- What the consistency with the root at cast is checked on. -/
structure ConsistentWithCast (noble : NobleUtils) (sha256 : List UInt8 → Bytes 32)
    (voteReceipt : VoteReceipt) (bulletinRoot : JsString) (newSize : Num) (nodes : List JsString)
    (index : ℕ) : Prop where
  sizes : newSize.isInteger = true ∧ newSize.le (.ofNat 0) = false ∧
    newSize.lt (.ofNat (index + 1)) = false
  bulletinRoot_ne : bulletinRoot ≠ []
  consistent :
    Merkle.verifyConsistencyProof noble sha256 (normalizeHexString voteReceipt.bulletinRootAtCast)
    (normalizeHexString bulletinRoot) ⟨index + 1, newSize.toNat, nodes⟩ = .ok true

theorem verifyConsistencyProof_none {proof : AdmittedConsistencyProof}
    {expectation : ConsistencyProofExpectation}
    (h : verifyConsistencyProof noble sha256 proof expectation = none) :
    Merkle.verifyConsistencyProof noble sha256 (normalizeHexString expectation.rootAtFromTreeSize)
      (normalizeHexString expectation.rootAtToTreeSize)
      ⟨expectation.fromTreeSize, expectation.toTreeSize, proof.proofNodes.map normalizeHexString⟩ =
        .ok true := by
  unfold verifyConsistencyProof at h
  split at h
  · cases h
  dsimp only at h
  split at h
  · cases h
  rename_i hroots
  rw [not_or, not_not, not_not] at hroots
  rw [hroots.1, hroots.2] at h
  split at h
  · cases h
  · cases h
  · cases h
  · rename_i hverified
    exact hverified

theorem verifyAdmittedConsistencyProof_success
    {consistencyProof : EvidenceAcquisition AdmittedConsistencyProof}
    {snapshot : ConsistencyProofExpectation}
    (h : verifyAdmittedConsistencyProof noble sha256 consistencyProof snapshot = .success) :
    ∃ proof, consistencyProof = .admitted proof ∧
    verifyConsistencyProof noble sha256 proof snapshot = none := by
  unfold verifyAdmittedConsistencyProof at h
  split at h
  · cases h
  · cases h
  · cases h
  · rename_i proof
    split at h
    · rename_i hverified
      exact ⟨proof, rfl, hverified⟩
    · cases h

theorem validateConsistencySnapshot_success {proof : CanonicalRfc6962Proof} {voteReceipt : VoteReceipt}
    {newSize : Num} {index : ℕ} (hindex : voteReceipt.bulletinIndex = .ofNat index)
    {outcome : Option CheckResult}
    (h : validateConsistencySnapshot proof voteReceipt newSize = .ok outcome) :
    (outcome ≠ some .success) ∧ (outcome = none → proof.treeSize = .ofNat (index + 1) ∧
      newSize.lt (.ofNat (index + 1)) = false) := by
  unfold validateConsistencySnapshot at h
  split at h
  · rw [← Except.ok.inj h]
    exact ⟨by simp [CheckResult.failure], fun hnone => by cases hnone⟩
  obtain ⟨receiptIndex, hreceipt, h⟩ := bind_eq_ok.mp h
  obtain ⟨leafIndex, -, h⟩ := bind_eq_ok.mp h
  have hsame : receiptIndex = index := by
    have hvalue := asVerificationIndex_eq_ok hreceipt
    rw [hindex] at hvalue
    exact (Num.ofNat_injective hvalue).symm
  subst hsame
  split at h
  · rw [← Except.ok.inj h]
    exact ⟨by simp [CheckResult.failure], fun hnone => by cases hnone⟩
  split at h
  · rw [← Except.ok.inj h]
    exact ⟨by simp [CheckResult.failure], fun hnone => by cases hnone⟩
  split at h
  · rw [← Except.ok.inj h]
    exact ⟨by simp [CheckResult.failure], fun hnone => by cases hnone⟩
  rename_i hsize
  split at h
  · rw [← Except.ok.inj h]
    exact ⟨by simp [CheckResult.failure], fun hnone => by cases hnone⟩
  split at h
  · rw [← Except.ok.inj h]
    exact ⟨by simp [CheckResult.failure], fun hnone => by cases hnone⟩
  rename_i hlarge
  rw [← Except.ok.inj h]
  have htreeSize : proof.treeSize = .ofNat (receiptIndex + 1) := Num.eq_of_eq (by simpa using hsize)
  refine ⟨by simp, fun _ => ⟨htreeSize, ?_⟩⟩
  rw [← htreeSize]
  exact Bool.eq_false_of_not_eq_true hlarge

theorem recordedConsistencyProof_success {input : VerificationEvaluationInput}
    {receipt : VoteReceipt} {index : ℕ} (hreceipt : input.voteReceipt = some receipt)
    (hindex : receipt.bulletinIndex = .ofNat index)
    (h : resolveRecordedConsistencyProof noble sha256 input = .ok .success) :
    ∃ bulletinRoot newSize proof, input.bulletinRoot = some bulletinRoot ∧
      input.treeSize = some newSize ∧
      input.consistencyProof = some (.admitted proof) ∧
      ConsistentWithCast noble sha256 receipt bulletinRoot newSize
        (proof.proofNodes.map normalizeHexString) index := by
  unfold resolveRecordedConsistencyProof at h
  split at h
  · rename_i voteReceipt bulletinRoot newSize castProof hgiven hroot hsize hproof
    obtain ⟨hgiven, -⟩ := Option.filter_eq_some_iff.mp hgiven
    obtain rfl := Option.some.inj (hreceipt.symm.trans hgiven)
    obtain ⟨hroot, hne⟩ := nonEmptyText_eq_some.mp hroot
    split at h
    · cases h
    rename_i hinteger
    split at h
    · cases h
    obtain ⟨outcome, houtcome, h⟩ := bind_eq_ok.mp h
    obtain ⟨hfailed, hvalid⟩ := validateConsistencySnapshot_success hindex houtcome
    cases outcome with
    | some snapshotError =>
      obtain rfl := Except.ok.inj h
      exact absurd rfl hfailed
    | none =>
      obtain ⟨htreeSize, hlarge⟩ := hvalid rfl
      obtain ⟨proof, hadmitted, hverified⟩ := verifyAdmittedConsistencyProof_success (Except.ok.inj h)
      have hacquired : input.consistencyProof = some (.admitted proof) := by
        cases hacquired : input.consistencyProof with
        | none =>
          rw [hacquired] at hadmitted
          cases hadmitted
        | some acquired =>
          rw [hacquired] at hadmitted
          exact congrArg some hadmitted
      have hconsistent := verifyConsistencyProof_none hverified
      rw [htreeSize, Num.ofNat_toNat] at hconsistent
      simp only [Bool.or_eq_true, Bool.not_eq_true', not_or, Bool.not_eq_false] at hinteger
      exact ⟨bulletinRoot, newSize, proof, hroot, hsize, hacquired,
        ⟨hinteger.1, Bool.eq_false_of_not_eq_true hinteger.2, hlarge⟩, hne, hconsistent⟩
  · cases h

/-- The election of the voter is that of the journal. -/
theorem countedElectionManifestConsistent_success (hgate : zkGateStatus ≠ some .success)
    {input : VerificationEvaluationInput} {journal : CurrentZkVMJournal} {electionId : JsString}
    (hjournal : input.journal = some journal) (helection : input.electionId = some electionId)
    (hne : electionId ≠ []) (hjournalId : journal.electionId ≠ [])
    (h : resolveCountedElectionManifestConsistent noble sha256 input zkGateStatus = .success) :
    electionId = journal.electionId := by
  have hresult := gated_success hgate h
  split at hresult
  · cases hresult
  rename_i manifest hmanifest
  dsimp only at hresult
  split at hresult
  · cases hresult
  unfold compareElectionManifestInputs at hresult
  split at hresult
  · cases hresult
  rename_i hagree
  refine eq_of_not_disagree (Bool.eq_false_of_not_eq_true hagree) ?_ ?_
  · rw [mem_candidates, helection]
    exact ⟨by simp, hne⟩
  · rw [mem_candidates, hjournal]
    exact ⟨by simp, hjournalId⟩

theorem projectMyVoteProofResult_success {result : VoteInclusionResult}
    (h : projectMyVoteProofResult result = .success) : result.valid = true ∧ result.included = true := by
  unfold projectMyVoteProofResult at h
  split at h
  · cases h
  rename_i hvalid
  split at h
  · rename_i hincluded
    exact ⟨by simpa using hvalid, hincluded⟩
  · cases h

/-- Both verifiers of the voter's slot ask the same of the included bitmap. -/
theorem explainVoteInclusionStatus_included {myIndex treeSize : Num}
    {includedBitmapRoot seenBitmapRoot : JsString} {includedProof : BitmapProofResponse}
    {seenProof : Option BitmapProofResponse} {result : VoteInclusionResult}
    (h : explainVoteInclusionStatus noble sha256 myIndex includedBitmapRoot seenBitmapRoot
      includedProof seenProof treeSize = .ok result) :
        ∃ plain, verifyMyVoteWasCounted noble sha256 myIndex includedBitmapRoot includedProof
        treeSize = .ok plain ∧ plain.valid = result.valid ∧ plain.included = result.included := by
  obtain ⟨plain, hplain, h⟩ := bind_eq_ok.mp h
  refine ⟨plain, hplain, ?_⟩
  split at h
  · obtain rfl := Except.ok.inj h
    exact ⟨rfl, rfl⟩
  split at h
  · obtain rfl := Except.ok.inj h
    exact ⟨rfl, rfl⟩
  split at h
  · obtain rfl := Except.ok.inj h
    exact ⟨rfl, rfl⟩
  split at h
  · obtain rfl := Except.ok.inj h
    exact ⟨rfl, rfl⟩
  obtain ⟨seenResult, -, h⟩ := bind_eq_ok.mp h
  obtain rfl := Except.ok.inj h
  exact ⟨rfl, rfl⟩

/-- The bit of the voter's slot is proved under the journal's included root. -/
theorem countedMyVoteIncluded_success (hgate : zkGateStatus ≠ some .success)
    {input : VerificationEvaluationInput} {journal : CurrentZkVMJournal} {receipt : VoteReceipt}
    (hjournal : input.journal = some journal) (hreceipt : input.voteReceipt = some receipt)
    (h : resolveCountedMyVoteIncluded noble sha256 input zkGateStatus = .success) :
    ∃ proof result, input.includedBitmapProof = some (.admitted proof) ∧
      verifyAdmittedBitmapProof noble sha256 receipt.bulletinIndex journal.includedBitmapRoot proof
        journal.treeSize = .ok result ∧ result.valid = true ∧ result.included = true := by
  have hresult := gated_success hgate h
  split at hresult
  · rename_i includedBitmapRoot bulletinIndex treeSize source includedProof hroot hindex hsize
      hsource hproof
    have hrootEq : includedBitmapRoot = journal.includedBitmapRoot := by
      rw [resolvedIncludedBitmapRoot, hjournal] at hroot
      exact (Option.some.inj (nonEmptyText_eq_some.mp hroot).1).symm
    have hindexEq : bulletinIndex = receipt.bulletinIndex := by
      rw [bitmapReceiptPosition, hreceipt] at hindex
      exact (Option.some.inj (Option.filter_eq_some_iff.mp hindex).1).symm
    have hsizeEq : treeSize = journal.treeSize := by
      rw [admitBitmapTreeSize, hjournal] at hsize
      exact (Option.some.inj (Option.filter_eq_some_iff.mp hsize).1).symm
    subst hrootEq hindexEq hsizeEq
    have hadmitted : input.includedBitmapProof = some (.admitted includedProof) := by
      cases hacquired : input.includedBitmapProof with
      | none =>
        rw [hacquired] at hproof
        cases hproof
      | some acquired =>
        rw [hacquired] at hproof
        cases acquired with
        | admitted value =>
          obtain rfl := Option.some.inj hproof
          rfl
        | unavailable message => cases hproof
        | malformed message => cases hproof
        | transportFailed message => cases hproof
    have hplain :
        ∃ plain, verifyMyVoteWasCounted noble sha256 receipt.bulletinIndex journal.includedBitmapRoot
        includedProof journal.treeSize = .ok plain ∧ plain.valid = true ∧ plain.included = true := by
      unfold evaluateMyVoteBitmapProof at hresult
      dsimp only at hresult
      split at hresult
      · rename_i result hverified
        obtain ⟨hvalid, hincluded⟩ := projectMyVoteProofResult_success hresult
        split at hverified
        · obtain ⟨plain, hplain, hsameValid, hsameIncluded⟩ :=
            explainVoteInclusionStatus_included hverified
          exact ⟨plain, hplain, hsameValid.trans hvalid, hsameIncluded.trans hincluded⟩
        · exact ⟨result, hverified, hvalid, hincluded⟩
      · cases hresult
    obtain ⟨plain, hplain, hvalid, hincluded⟩ := hplain
    obtain ⟨result, hverified, hplain⟩ := bind_eq_ok.mp hplain
    obtain rfl := Except.ok.inj hplain
    exact ⟨includedProof, result, hadmitted, hverified, hvalid, hincluded⟩
  · cases hresult

end Success

/-! ### The messages hashed -/

section Messages

variable (noble : NobleUtils) (sha256 : List UInt8 → Bytes 32)

/-- The voter's opening of the commitment. -/
def openingMessages (input : VerificationEvaluationInput) : List (List UInt8) :=
  match input.electionId, input.userVote.bind (·.vote), input.userVote.bind (·.random) with
  | some electionId, some choice, some random =>
    (toUuidBytes noble electionId).toOption.toList.flatMap fun electionId =>
      (ZkvmContract.hexToBytesStrict noble random).toOption.toList.map fun random =>
        ascii "stark-ballot:commit|v1.0" ++ electionId ++
          [UInt8.ofNat (choiceTexts.idxOf choice)] ++ random
  | _, _, _ => []

/-- The path to the root at cast. -/
def castPathMessages (input : VerificationEvaluationInput) : List (List UInt8) :=
  match input.voteReceipt, input.userVote.bind (·.commitment),
      toCanonicalRfc6962Proof (input.userVote.bind (·.proof)) with
  | some voteReceipt, some commitment, some proof =>
    Merkle.inclusionMessages noble sha256 (normalizeHexString commitment) voteReceipt.bulletinIndex.toNat
      (voteReceipt.bulletinIndex.toNat + 1) (proof.merklePath.map normalizeHexString)
  | _, _, _ => []

/-- The growth from the root at cast to the final root. -/
def growthMessages (input : VerificationEvaluationInput) : List (List UInt8) :=
  match input.voteReceipt, input.treeSize,
      (input.consistencyProof.getD (.unavailable none)).admitted? with
  | some voteReceipt, some newSize, some proof =>
    let oldRoot := normalizeHexString voteReceipt.bulletinRootAtCast
    let nodes := proof.proofNodes.map normalizeHexString
    let oldSize := voteReceipt.bulletinIndex.toNat + 1
    Merkle.consistencyMessages noble sha256 oldRoot oldSize newSize.toNat nodes ++
      Merkle.reconstructOldMessages noble sha256 nodes oldSize newSize.toNat 0 true (some oldRoot)
  | _, _, _ => []

/-- The proof of the bit of the voter's slot. -/
def slotMessages (input : VerificationEvaluationInput) : List (List UInt8) :=
  match (input.includedBitmapProof.getD (.unavailable none)).admitted? with
  | some proof => proofMessages noble sha256 proof.leafChunk proof.auditPath
  | none => []

/-- The guest's run: the opening and the path of each record, and the included bitmap. -/
def runMessages (run : AggregatorInput) : List (List UInt8) :=
  (run.votes.flatMap fun vote => commitmentMessage run.electionId vote.choice vote.random ::
    Merkle.inclusionMessages noble sha256 (text vote.commitment) vote.index.toNat run.treeSize.toNat
      (vote.merklePath.map text)) ++
  bitmapMessages sha256 (includedBitmapOf sha256 run)

def evidenceMessages (input : VerificationEvaluationInput) (run : AggregatorInput) : List (List UInt8) :=
  [openingMessages noble input, castPathMessages noble sha256 input, growthMessages noble sha256 input,
    slotMessages noble sha256 input, runMessages noble sha256 run].flatten

end Messages

/-! ### Binding -/

section Binding

variable {noble : NobleUtils} {sha256 : List UInt8 → Bytes 32} {Q : Set (List UInt8)}
    {run : AggregatorInput}

/-- The branding of the index and the size, and the context. -/
theorem verifyAdmittedBitmapProof_eq {bitmap : List Bool} {index : ℕ} (hlt : bitmap.length < 4294967296)
    (hindex : index < bitmap.length) (proof : BitmapProofResponse) :
    verifyAdmittedBitmapProof noble sha256 (.ofNat index)
      (prefixed (computeBitmapMerkleRoot sha256 bitmap)) proof (.ofNat bitmap.length) =
        verifyBitmapMerkleProof noble sha256 proof.leafChunk proof.auditPath
        (contextOf sha256 ⟨bitmap, hlt⟩ hindex) := by
  have hcontext := buildAuthenticatedBitmapProofContext_eq sha256 ⟨bitmap, hlt⟩ hindex
  have hparts := hcontext
  rw [buildAuthenticatedBitmapProofContext] at hparts
  obtain ⟨bit, hbit, hparts⟩ := bind_eq_ok.mp hparts
  obtain ⟨size, hsize, hparts⟩ := bind_eq_ok.mp hparts
  rw [verifyAdmittedBitmapProof, hbit, ok_bind, hsize, ok_bind, verifyBitmapProof, hcontext]

/-- SOUND: a proof that verifies shows the bit, where no two hashed messages collide. -/
theorem verified_bit_shown {bitmap : List Bool} {index : ℕ} (hQ : Set.InjOn sha256 Q)
    (hlt : bitmap.length < 4294967296) (hindex : index < bitmap.length) {proof : BitmapProofResponse}
    {result : BitmapVerificationResult} (hbitmap : ∀ m ∈ bitmapMessages sha256 bitmap, m ∈ Q)
    (hproof : ∀ m ∈ proofMessages noble sha256 proof.leafChunk proof.auditPath, m ∈ Q)
    (h : verifyAdmittedBitmapProof noble sha256 (.ofNat index)
      (prefixed (computeBitmapMerkleRoot sha256 bitmap)) proof
      (.ofNat bitmap.length) = .ok result) (hvalid : result.valid = true) :
      bitmap[index]? = some result.included := by
  rw [verifyAdmittedBitmapProof_eq hlt hindex] at h
  rw [List.getElem?_eq_getElem hindex]
  exact congrArg some
    (verifyBitmapMerkleProof_sound hQ ⟨bitmap, hlt⟩ hindex hbitmap hproof h hvalid).symm

/-- A bit that is proved set is that of a counted vote. -/
theorem counted_of_bitmapProof (hQ : Set.InjOn sha256 Q) {index : ℕ}
    (hindex : index < run.treeSize.toNat) {proof : BitmapProofResponse}
    {result : BitmapVerificationResult}
    (hbitmap : ∀ m ∈ bitmapMessages sha256 (includedBitmapOf sha256 run), m ∈ Q)
    (hproof : ∀ m ∈ proofMessages noble sha256 proof.leafChunk proof.auditPath, m ∈ Q)
    (h : verifyAdmittedBitmapProof noble sha256 (.ofNat index)
      (prefixed (computeBitmapMerkleRoot sha256 (includedBitmapOf sha256 run))) proof
      (.ofNat run.treeSize.toNat) = .ok result)
    (hvalid : result.valid = true) (hincluded : result.included = true) :
    ∃ vote ∈ countedVotes (ballotLog sha256 run), vote.index.toNat = index := by
  have hlen : (includedBitmapOf sha256 run).length = run.treeSize.toNat := by simp [includedBitmapOf]
  rw [← hlen] at h
  have hset : (includedBitmapOf sha256 run)[index]? = some true :=
    hincluded ▸ verified_bit_shown hQ (hlen ▸ run.treeSize.toNat_lt)
      (hlen ▸ hindex) hbitmap hproof h hvalid
  exact List.mem_map.mp ((marks_eq_true (includedSlots_lt sha256 run.votes)).mp hset)

/-- The commitment that was included at cast is that of the record at its slot. -/
theorem commitment_kept (hQ : Set.InjOn sha256 Q) {receipt : VoteReceipt}
    {commitment bulletinRoot : JsString} {proof : CanonicalRfc6962Proof} {newSize : Num}
    {nodes : List JsString} {index : ℕ} {vote : VoteWithProof}
    (hcast : IncludedAtCast noble sha256 receipt commitment proof index)
    (hgrown : ConsistentWithCast noble sha256 receipt bulletinRoot newSize nodes index)
    (hsize : newSize = .ofNat run.treeSize.toNat)
    (hroot : normalizeHexString bulletinRoot = text run.bulletinRoot) (hproves : Proves sha256 run vote)
    (hslot : vote.index.toNat = index)
    (hpath : ∀ m ∈ Merkle.inclusionMessages noble sha256 (normalizeHexString commitment) index
      (index + 1) (proof.merklePath.map normalizeHexString), m ∈ Q)
    (hgrowth : ∀ m ∈ Merkle.consistencyMessages noble sha256
      (normalizeHexString receipt.bulletinRootAtCast) (index + 1) run.treeSize.toNat nodes, m ∈ Q)
    (hold : ∀ m ∈ Merkle.reconstructOldMessages noble sha256 nodes (index + 1) run.treeSize.toNat 0 true
      (some (normalizeHexString receipt.bulletinRootAtCast)), m ∈ Q)
    (hrecord : ∀ m ∈ Merkle.inclusionMessages noble sha256 (text vote.commitment) index
      run.treeSize.toNat (vote.merklePath.map text), m ∈ Q) :
    CryptoPrimitives.hexToBytesStrict noble (normalizeHexString commitment) =
      .ok vote.commitment.toList := by
  have hle : index + 1 ≤ run.treeSize.toNat := by
    have hlarge := hgrown.sizes.2.2
    rw [hsize, Num.ofNat_lt, decide_eq_false_iff_not] at hlarge
    omega
  have hlt : index + 1 < 4294967296 := hle.trans_lt run.treeSize.toNat_lt
  have hconsistent := hgrown.consistent
  rw [hsize, Num.ofNat_toNat, hroot] at hconsistent
  have hincluded := hcast.included
  rw [hcast.root] at hincluded
  have hproved := Merkle.verifyInclusionProof_eq noble sha256 vote.commitment vote.index vote.merklePath
    run.bulletinRoot run.treeSize
  rw [hslot] at hproved
  replace hproved := hproved.trans (congrArg Except.ok (decide_eq_true hproves))
  have hkept := Merkle.leaf_kept (m := index + 1) (Nat.succ_pos index) hle
    (Merkle.not_misfires_of_lt (Nat.succ_pos index) hlt) hQ hgrowth hold hpath hrecord hincluded
      hconsistent hproved
  rw [hkept]
  exact hexToBytesStrict_spelling noble (text_spells vote.commitment)

/-- The voter's opening, as the guest hashes it. -/
theorem opening_eq {input : VerificationEvaluationInput} {i : Bytes 16}
    (hmatch : resolveCastCommitmentMatch noble sha256 ⟨input.electionId, input.voteReceipt,
      input.userVote.bind (·.vote), input.userVote.bind (·.random)⟩ = .success)
    (hformat : resolveCastRandomFormat (input.userVote.bind (·.random)) = .success)
    (helection : ∀ electionId, input.electionId = some electionId → electionId ≠ [] →
      SpellsUuid electionId i) :
    ∃ voteReceipt choice random value, input.voteReceipt = some voteReceipt ∧
      input.userVote.bind (·.vote) = some choice ∧ input.userVote.bind (·.random) = some random ∧
      choice ∈ choiceTexts ∧ Spells random value.toList ∧
      normalizeHexString voteReceipt.commitment =
        text (ContractCore.computeCommitment sha256 i (UInt8.ofNat (choiceTexts.idxOf choice)) value) ∧
      openingMessages noble input =
        [commitmentMessage i (UInt8.ofNat (choiceTexts.idxOf choice)) value] := by
  obtain ⟨electionId, voteReceipt, choice, random, recomputed, hgiven, hne, hreceipt, hchoice,
    hrandom, hlisted, hrecomputed, hsame⟩ := castCommitmentMatch_success hmatch
  dsimp only at hgiven hreceipt hchoice hrandom
  obtain ⟨_, hformatted, hvalid⟩ := castRandomFormat_success hformat
  obtain rfl := Option.some.inj (hrandom.symm.trans hformatted)
  obtain ⟨value, hspells⟩ := isValidHexString_spells hvalid
  have hid := helection electionId hgiven hne
  have hlt : choiceTexts.idxOf choice < 256 := (List.idxOf_lt_length_of_mem hlisted).trans (by decide)
  have hcommitment : computeCommitment noble sha256 electionId
      (.ofNat (UInt8.ofNat (choiceTexts.idxOf choice)).toNat) random =
        .ok (prefixed (ContractCore.computeCommitment sha256 i
          (UInt8.ofNat (choiceTexts.idxOf choice)) value)) :=
    computeCommitment_of_spells hid hspells _
  rw [UInt8.toNat_ofNat_of_lt' hlt, hrecomputed] at hcommitment
  obtain rfl := Except.ok.inj hcommitment
  refine ⟨voteReceipt, choice, random, value, hreceipt, hchoice, hrandom, hlisted, hspells, ?_, ?_⟩
  · rw [hsame]
    exact normalizeHexString_of_spells (prefixed_spells _)
  · simp only [openingMessages, hgiven, hchoice, hrandom]
    rw [toUuidBytes_eq noble hid, ZkvmContract.hexToBytesStrict_bytes noble hspells (by decide)]
    rfl

end Binding

/-! ### Counted as cast -/

/-- Every required check succeeded. -/
def RequiredChecksSucceed (results : CheckResults) : Prop :=
  ∀ definition ∈ verificationCheckDefinitions, isVerificationCheckRequired definition none = true →
    (definition.id, CheckResult.success) ∈ results

instance (results : CheckResults) : Decidable (RequiredChecksSucceed results) :=
  inferInstanceAs (Decidable (∀ definition ∈ verificationCheckDefinitions, _ → _))

def requiredCheckIds : List VerificationCheckId :=
  (verificationCheckDefinitions.filter fun definition => isVerificationCheckRequired definition
    none).map (·.id)

/-- The record is the voter's vote. -/
structure VotersOwn (receipt : VoteReceipt) (userVote : UserVoteInput) (vote : VoteWithProof) :
    Prop where
  slot : receipt.bulletinIndex = .ofNat vote.index.toNat
  commitment : normalizeHexString receipt.commitment = text vote.commitment
  choice : ∃ choice, userVote.vote = some choice ∧ choiceTexts[vote.choice.toNat]? = some choice
  random : ∃ random, userVote.random = some random ∧ Spells random vote.random.toList

section Runs

variable {noble : NobleUtils} {sha256 : List UInt8 → Bytes 32} {run : AggregatorInput}
  {inspection : GuestTallyInspection} {imageId : Bytes 32} {journal : CurrentZkVMJournal}
  {input : VerificationEvaluationInput} {applyZkGate : Bool} {results : CheckResults}

theorem evaluated_of_required (hresults : evaluateAllChecks noble sha256 input applyZkGate = .ok results)
    (hsuccess : RequiredChecksSucceed results) {id : VerificationCheckId} (hid : id ∈ requiredCheckIds) :
    evaluateSelectedCheck noble sha256 input (evaluationRuntime noble sha256 input applyZkGate) id =
      .ok .success := by
  obtain ⟨definition, hdefinition, rfl⟩ := List.mem_map.mp hid
  obtain ⟨hlisted, hrequired⟩ := List.mem_filter.mp hdefinition
  exact evaluated_of_mem hresults (hsuccess definition hlisted hrequired)

/-- The journal that is read is the run's. -/
theorem journal_of_run (hrun : verifyAndTallyChecked sha256 run = .ok inspection)
    (hread : HostOutput.parseHostZkVMOutput (HostOutput.hostJson inspection.output imageId) =
      .ok journal) :
    journal = HostOutput.hostJournal inspection.output (some imageId) := by
  have houtput : verifyAndTallyCheckedOutput sha256 run = .ok inspection.output := by
    rw [← verifyAndTallyCheckedOutput_eq, hrun]
    rfl
  rw [HostOutput.parseHostZkVMOutput_hostJson (HostOutput.emitted_of_accepted houtput)] at hread
  split at hread
  · exact (Except.ok.inj hread).symm
  · cases hread

/-- The close statement ties the final root and size to the run's. -/
theorem snapshot_of_run (hclose : ∃ closeStatement, input.closeStatement = some closeStatement ∧
      SnapshotAgrees input journal closeStatement) {bulletinRoot : JsString} {newSize : Num}
    (hsize : journal.treeSize = .ofNat run.treeSize.toNat)
    (hroot : journal.bulletinRoot = prefixed run.bulletinRoot)
    (hgivenRoot : input.bulletinRoot = some bulletinRoot) (hne : bulletinRoot ≠ [])
    (hgivenSize : input.treeSize = some newSize) (hinteger : newSize.isInteger = true) :
    newSize = .ofNat run.treeSize.toNat ∧ normalizeHexString bulletinRoot = text run.bulletinRoot := by
  obtain ⟨closeStatement, -, hsnapshot⟩ := hclose
  have hjournalRoot : journal.bulletinRoot ≠ [] := by simp [hroot, prefixed, js]
  constructor
  · rw [hsnapshot.treeSize newSize (.inl hgivenSize) hinteger, ← hsize]
    exact (hsnapshot.treeSize journal.treeSize (.inr rfl)
      (by rw [hsize]; exact Num.ofNat_isInteger)).symm
  · rw [hsnapshot.bulletinRoot bulletinRoot (.inl hgivenRoot) hne,
      ← hsnapshot.bulletinRoot journal.bulletinRoot (.inr rfl) hjournalRoot, hroot]
    exact normalizeHexString_of_spells (prefixed_spells _)

/-- The checks read the journal of the run, and the required ones succeeded. -/
structure CheckedRun (noble : NobleUtils) (sha256 : List UInt8 → Bytes 32) (run : AggregatorInput)
    (input : VerificationEvaluationInput) (applyZkGate : Bool) (results : CheckResults)
    (journal : CurrentZkVMJournal) : Prop where
  electionId_eq : journal.electionId = uuidText run.electionId
  root_eq : journal.bulletinRoot = prefixed run.bulletinRoot
  size_eq : journal.treeSize = .ofNat run.treeSize.toNat
  bitmapRoot_eq : journal.includedBitmapRoot =
    prefixed (computeBitmapMerkleRoot sha256 (includedBitmapOf sha256 run))
  journal_eq : input.journal = some journal
  results_eq : evaluateAllChecks noble sha256 input applyZkGate = .ok results
  required : RequiredChecksSucceed results

theorem checkedRun_of_run (hrun : verifyAndTallyChecked sha256 run = .ok inspection)
    (hread : HostOutput.parseHostZkVMOutput (HostOutput.hostJson inspection.output imageId) =
      .ok journal)
    (hjournal : input.journal = some journal)
    (hresults : evaluateAllChecks noble sha256 input applyZkGate = .ok results)
    (hsuccess : RequiredChecksSucceed results) :
    CheckedRun noble sha256 run input applyZkGate results journal := by
  have hjournalEq := journal_of_run hrun hread
  obtain ⟨_, digest, -, -, -, hinspection⟩ := verifyAndTallyChecked_ok sha256 hrun
  rw [hinspection] at hjournalEq
  subst hjournalEq
  exact ⟨rfl, rfl, rfl, rfl, hjournal, hresults, hsuccess⟩

variable {receipt : VoteReceipt} {userVote : UserVoteInput} {commitment : JsString} {index : ℕ}

/-- OPENING: the voter's opening is one of the receipt's commitment in this election. -/
theorem CheckedRun.opening (h : CheckedRun noble sha256 run input applyZkGate results journal)
    (hreceipt : input.voteReceipt = some receipt) :
    ∃ choice random value, input.userVote.bind (·.vote) = some choice ∧
      input.userVote.bind (·.random) = some random ∧ choice ∈ choiceTexts ∧ Spells random value.toList ∧
      normalizeHexString receipt.commitment = text (ContractCore.computeCommitment sha256 run.electionId
        (UInt8.ofNat (choiceTexts.idxOf choice)) value) ∧
      openingMessages noble input =
        [commitmentMessage run.electionId (UInt8.ofNat (choiceTexts.idxOf choice)) value] := by
  have hgate := gate_ne_success noble sha256 input applyZkGate
  have hmanifest := Except.ok.inj (evaluated_of_required h.results_eq h.required
    (show VerificationCheckId.countedElectionManifestConsistent ∈ requiredCheckIds by decide))
  have hmatch := toCheckResult_eq_success (Except.ok.inj (evaluated_of_required h.results_eq h.required
    (show VerificationCheckId.castCommitmentMatch ∈ requiredCheckIds by decide)))
  have hformat := toCheckResult_eq_success (Except.ok.inj (evaluated_of_required h.results_eq h.required
    (show VerificationCheckId.castRandomFormat ∈ requiredCheckIds by decide)))
  have helection : ∀ electionId, input.electionId = some electionId → electionId ≠ [] →
      SpellsUuid electionId run.electionId := by
    intro electionId helection hne
    rw [countedElectionManifestConsistent_success hgate h.journal_eq helection hne
      (by simp [h.electionId_eq, uuidText]) hmanifest, h.electionId_eq]
    exact uuidText_spells run.electionId
  obtain ⟨voteReceipt, choice, random, value, hgiven, hopening⟩ := opening_eq hmatch hformat helection
  obtain rfl := Option.some.inj (hreceipt.symm.trans hgiven)
  exact ⟨choice, random, value, hopening⟩

/-- What ties the commitment that was included at cast to the run. -/
structure CastIntoRun (noble : NobleUtils) (sha256 : List UInt8 → Bytes 32) (run : AggregatorInput)
    (input : VerificationEvaluationInput) (receipt : VoteReceipt) (commitment : JsString)
    (proof : CanonicalRfc6962Proof) (index : ℕ) (bulletinRoot : JsString)
    (consistency : AdmittedConsistencyProof) : Prop where
  proof_eq : toCanonicalRfc6962Proof (input.userVote.bind (·.proof)) = some proof
  cast : IncludedAtCast noble sha256 receipt commitment proof index
  size_eq : input.treeSize = some (.ofNat run.treeSize.toNat)
  consistency_eq : input.consistencyProof = some (.admitted consistency)
  grown : ConsistentWithCast noble sha256 receipt bulletinRoot (.ofNat run.treeSize.toNat)
    (consistency.proofNodes.map normalizeHexString) index
  root_eq : normalizeHexString bulletinRoot = text run.bulletinRoot

/-- GROWTH: the path at cast, the growth since then, and the close. -/
theorem CheckedRun.castIntoRun (h : CheckedRun noble sha256 run input applyZkGate results journal)
    (hreceipt : input.voteReceipt = some receipt) (hvote : input.userVote = some userVote)
    (hcommitment : userVote.commitment = some commitment) :
    ∃ proof index bulletinRoot consistency,
      CastIntoRun noble sha256 run input receipt commitment proof index bulletinRoot consistency := by
  have hgate := gate_ne_success noble sha256 input applyZkGate
  obtain ⟨receipt', commitment', proof, index, hreceipt', hcommitment', hproof, hcast⟩ :=
    recordedInclusionProof_success (Except.ok.inj (evaluated_of_required h.results_eq h.required
      (show VerificationCheckId.recordedInclusionProof ∈ requiredCheckIds by decide)))
  obtain rfl := Option.some.inj (hreceipt.symm.trans hreceipt')
  rw [hvote] at hcommitment'
  obtain rfl := Option.some.inj (hcommitment.symm.trans hcommitment')
  obtain ⟨bulletinRoot, newSize, consistency, hgivenRoot, hgivenSize, hacquired, hgrown⟩ :=
    recordedConsistencyProof_success hreceipt hcast.bulletinIndex
      (evaluated_of_required h.results_eq h.required
      (show VerificationCheckId.recordedConsistencyProof ∈ requiredCheckIds by decide))
  have hclose := countedCloseStatementConsistent_success hgate h.journal_eq (Except.ok.inj
    (evaluated_of_required h.results_eq h.required
      (show VerificationCheckId.countedCloseStatementConsistent ∈ requiredCheckIds by decide)))
  obtain ⟨rfl, hnewRoot⟩ := snapshot_of_run hclose h.size_eq h.root_eq hgivenRoot hgrown.bulletinRoot_ne
    hgivenSize hgrown.sizes.1
  exact ⟨proof, index, bulletinRoot, consistency, hproof, hcast, hgivenSize, hacquired, hgrown, hnewRoot⟩

section Collisions

variable {Q : Set (List UInt8)} {proof : CanonicalRfc6962Proof} {bulletinRoot : JsString}
  {consistency : AdmittedConsistencyProof}

theorem CastIntoRun.lt
    (h : CastIntoRun noble sha256 run input receipt commitment proof index bulletinRoot
    consistency) : index < run.treeSize.toNat := by
  have hlarge := h.grown.sizes.2.2
  rw [Num.ofNat_lt, decide_eq_false_iff_not] at hlarge
  omega

/-- SLOT: the guest counted a record at the voter's slot. -/
theorem CheckedRun.counted (h : CheckedRun noble sha256 run input applyZkGate results journal)
    (hQ : Set.InjOn sha256 Q) (hreceipt : input.voteReceipt = some receipt)
    (hindex : receipt.bulletinIndex = .ofNat index) (hlt : index < run.treeSize.toNat)
    (hslot : ∀ m ∈ slotMessages noble sha256 input, m ∈ Q)
    (hbitmap : ∀ m ∈ bitmapMessages sha256 (includedBitmapOf sha256 run), m ∈ Q) :
    ∃ vote ∈ countedVotes (ballotLog sha256 run), vote.index.toNat = index := by
  have hgate := gate_ne_success noble sha256 input applyZkGate
  obtain ⟨bitmapProof, result, hbitmapProof, hverified, hvalid, hincluded⟩ :=
    countedMyVoteIncluded_success hgate h.journal_eq hreceipt (Except.ok.inj
      (evaluated_of_required h.results_eq h.required
        (show VerificationCheckId.countedMyVoteIncluded ∈ requiredCheckIds by decide)))
  rw [hindex, h.bitmapRoot_eq, h.size_eq] at hverified
  have hslotMessages : slotMessages noble sha256 input =
      proofMessages noble sha256 bitmapProof.leafChunk bitmapProof.auditPath := by
    simp only [slotMessages, hbitmapProof, Option.getD_some, EvidenceAcquisition.admitted?]
  exact counted_of_bitmapProof hQ hlt hbitmap (fun m hm => hslot m (hslotMessages ▸ hm)) hverified
    hvalid hincluded

/-- COMMITMENT: the record at the slot has the commitment that was included at cast. -/
theorem CastIntoRun.commitment_eq (h : CastIntoRun noble sha256 run input receipt commitment proof index
      bulletinRoot consistency) (hQ : Set.InjOn sha256 Q) (hreceipt : input.voteReceipt = some receipt)
    (hvote : input.userVote = some userVote) (hcommitment : userVote.commitment = some commitment)
    {vote : VoteWithProof} (hproves : Proves sha256 run vote) (hslot : vote.index.toNat = index)
    (hpath : ∀ m ∈ castPathMessages noble sha256 input, m ∈ Q)
    (hgrowth : ∀ m ∈ growthMessages noble sha256 input, m ∈ Q)
    (hrecord : ∀ m ∈ Merkle.inclusionMessages noble sha256 (text vote.commitment) vote.index.toNat
      run.treeSize.toNat (vote.merklePath.map text), m ∈ Q) :
    CryptoPrimitives.hexToBytesStrict noble (normalizeHexString commitment) =
      .ok vote.commitment.toList := by
  have hgiven : input.userVote.bind (·.commitment) = some commitment := by
    rw [hvote]
    exact hcommitment
  have hpathMessages : castPathMessages noble sha256 input =
      Merkle.inclusionMessages noble sha256 (normalizeHexString commitment) index (index + 1)
        (proof.merklePath.map normalizeHexString) := by
    simp only [castPathMessages, hreceipt, hgiven, h.proof_eq, h.cast.bulletinIndex, Num.ofNat_toNat]
  have hgrowthMessages : growthMessages noble sha256 input =
      Merkle.consistencyMessages noble sha256 (normalizeHexString receipt.bulletinRootAtCast) (index + 1)
          run.treeSize.toNat (consistency.proofNodes.map normalizeHexString) ++
        Merkle.reconstructOldMessages noble sha256 (consistency.proofNodes.map normalizeHexString)
          (index + 1) run.treeSize.toNat 0 true
            (some (normalizeHexString receipt.bulletinRootAtCast)) := by
    simp only [growthMessages, hreceipt, h.size_eq, h.consistency_eq, Option.getD_some,
      EvidenceAcquisition.admitted?, h.cast.bulletinIndex, Num.ofNat_toNat]
  rw [hpathMessages] at hpath
  rw [hgrowthMessages] at hgrowth
  exact commitment_kept hQ h.cast h.grown rfl h.root_eq hproves hslot hpath
    (fun m hm => hgrowth m (List.mem_append_left _ hm))
    (fun m hm => hgrowth m (List.mem_append_right _ hm)) (hslot ▸ hrecord)

end Collisions

end Runs

/-- COUNTED AS CAST: for the journal that is read of an accepted run, and a receipt whose commitment is
    the one beside the voter's proof: when every required check succeeds, the guest accepted a record at
    the voter's slot with the voter's commitment, choice and random value, or two of the messages hashed
    for the evidence and the run collide. -/
theorem counted_as_cast {noble : NobleUtils} {sha256 : List UInt8 → Bytes 32} {run : AggregatorInput}
    {inspection : GuestTallyInspection} {imageId : Bytes 32} {journal : CurrentZkVMJournal}
    {input : VerificationEvaluationInput} {applyZkGate : Bool} {results : CheckResults}
    {receipt : VoteReceipt} {userVote : UserVoteInput} {commitment : JsString}
    (hrun : verifyAndTallyChecked sha256 run = .ok inspection)
    (hread : HostOutput.parseHostZkVMOutput (HostOutput.hostJson inspection.output imageId) =
      .ok journal) (hjournal : input.journal = some journal)
    (hreceipt : input.voteReceipt = some receipt)
    (hvote : input.userVote = some userVote) (hcommitment : userVote.commitment = some commitment)
    (hsame : normalizeHexString receipt.commitment = normalizeHexString commitment)
    (hresults : evaluateAllChecks noble sha256 input applyZkGate = .ok results)
    (hsuccess : RequiredChecksSucceed results) :
    (∃ vote ∈ acceptedRecords run inspection, VotersOwn receipt userVote vote) ∨
      Exhibits sha256 (findCollision sha256 (evidenceMessages noble sha256 input run)) := by
  refine (injOn_or_collision sha256 _).imp_left fun hQ => ?_
  have hmem (part : List (List UInt8)) (hpart : part ∈ [openingMessages noble input,
      castPathMessages noble sha256 input, growthMessages noble sha256 input,
      slotMessages noble sha256 input, runMessages noble sha256 run]) :
      ∀ m ∈ part, m ∈ evidenceMessages noble sha256 input run :=
    fun m hm => List.mem_flatten.mpr ⟨part, hpart, hm⟩
  have hrunMem := hmem (runMessages noble sha256 run) (by simp)
  have hchecked := checkedRun_of_run hrun hread hjournal hresults hsuccess
  obtain ⟨choice, random, value, hchoice, hrandom, hlisted, hspells, hopened, hopening⟩ :=
    hchecked.opening hreceipt
  obtain ⟨proof, index, bulletinRoot, consistency, hcast⟩ :=
    hchecked.castIntoRun hreceipt hvote hcommitment
  obtain ⟨vote, hcounted, hslot⟩ := hchecked.counted hQ hreceipt hcast.cast.bulletinIndex hcast.lt
    (hmem (slotMessages noble sha256 input) (by simp)) fun m hm => hrunMem m (List.mem_append_right _ hm)
  have hcounts := countedVotes_counts sha256 run.votes vote hcounted
  have hrecordMem : ∀ m ∈ commitmentMessage run.electionId vote.choice vote.random ::
      Merkle.inclusionMessages noble sha256 (text vote.commitment) vote.index.toNat run.treeSize.toNat
        (vote.merklePath.map text), m ∈ evidenceMessages noble sha256 input run :=
    fun m hm =>
      hrunMem m (List.mem_append_left _ (List.mem_flatMap.mpr ⟨vote, countedVotes_mem hcounted, hm⟩))
  -- one commitment, and so one opening
  have hkept := hcast.commitment_eq hQ hreceipt hvote hcommitment hcounts.proves hslot
    (hmem (castPathMessages noble sha256 input) (by simp))
    (hmem (growthMessages noble sha256 input) (by simp)) fun m hm =>
      hrecordMem m (List.mem_cons_of_mem _ hm)
  rw [← hsame, hopened, hexToBytesStrict_spelling noble (text_spells _)] at hkept
  have hopens :
      ContractCore.computeCommitment sha256 run.electionId
        (UInt8.ofNat (choiceTexts.idxOf choice)) value =
      vote.commitment := Bytes.ext (Except.ok.inj hkept)
  have hmessage :=
    hQ (hmem (openingMessages noble input) (by simp) _ (hopening ▸ List.mem_singleton_self _))
    (hrecordMem _ List.mem_cons_self) (hopens.trans hcounts.opens.symm)
  obtain ⟨-, hsameChoice, hsameRandom⟩ := ContractCore.commitmentMessage_injective hmessage
  have hplace : vote.choice.toNat = choiceTexts.idxOf choice := by
    have hbyte : choiceTexts.idxOf choice < 256 :=
      (List.idxOf_lt_length_of_mem hlisted).trans (by decide)
    rw [← hsameChoice, UInt8.toNat_ofNat_of_lt' hbyte]
  rw [hvote] at hchoice hrandom
  obtain ⟨_, digest, -, -, -, hinspection⟩ := verifyAndTallyChecked_ok sha256 hrun
  refine ⟨vote, ?_, ?_⟩
  · rw [acceptedRecords_eq (by rw [hinspection])]
    exact hcounted
  · exact {
      slot := hslot ▸ hcast.cast.bulletinIndex
      commitment := hopened.trans (congrArg text hopens)
      choice := ⟨choice, hchoice, by rw [hplace,
        List.getElem?_eq_getElem (List.idxOf_lt_length_of_mem hlisted), List.getElem_idxOf]⟩
      random := ⟨random, hrandom, hsameRandom ▸ hspells⟩ }

/-! ### An election of two votes -/

def pairElection : Bytes 16 :=
  ⟨[0x6f, 0xa4, 0x59, 0xea, 0xee, 0x8a, 0x4c, 0xa4, 0x89, 0x4e, 0xdb, 0x77, 0xe1, 0x60, 0x35,
    0x5e], by decide⟩

def pairCommitment (choice : UInt8) (random : UInt8) : Bytes 32 :=
  ContractCore.computeCommitment Sha256.digest pairElection choice (Bytes.fill 32 random)

def pairLeaf (choice : UInt8) (random : UInt8) : Bytes 32 :=
  ContractCore.hashLeaf Sha256.digest (pairCommitment choice random)

def pairManifest : ElectionManifest where
  electionId := uuidText pairElection
  totalExpected := .ofNat 2
  choices := choiceTexts
  version := js "v1.0"
  botCount := .ofNat 1
  merkleTreeDepth := .ofNat 1
  electionConfigHash :=
    hashElectionConfig .reference Sha256.digest ⟨.ofNat 2, choiceTexts, js "v1.0", .ofNat 1, .ofNat 1⟩

/-- A vote for the second choice, then one for the fourth. -/
def pairRun : AggregatorInput where
  electionId := pairElection
  bulletinRoot := ContractCore.hashInternal Sha256.digest (pairLeaf 1 0x11) (pairLeaf 3 0x22)
  treeSize := 2
  logId := Bytes.fill 32 0x44
  timestamp := 1700000000000
  totalExpected := 2
  electionConfigHash :=
    Sha256.digest (utf8ToBytes (canonicalConfig ⟨.ofNat 2, choiceTexts, js "v1.0", .ofNat 1, .ofNat 1⟩))
  votes := [⟨pairCommitment 1 0x11, 1, Bytes.fill 32 0x11, 0, [pairLeaf 3 0x22]⟩,
    ⟨pairCommitment 3 0x22, 3, Bytes.fill 32 0x22, 1, [pairLeaf 1 0x11]⟩]

def pairDigest : Bytes 32 :=
  (ContractCore.computeInputCommitmentV4 Sha256.digest pairRun.electionId pairRun.bulletinRoot
    pairRun.treeSize pairRun.totalExpected pairRun.votes).toOption.getD (Bytes.fill 32 0)

def pairOutput : ContractCore.VerificationOutput := journalOf Sha256.digest pairRun pairDigest

def pairImage : Bytes 32 := Bytes.fill 32 0x55

def pairReceipt : VoteReceipt where
  voteId := js "id"
  commitment := prefixed (pairCommitment 1 0x11)
  bulletinIndex := .ofNat 0
  bulletinRootAtCast := prefixed (pairLeaf 1 0x11)
  timestamp := .ofNat 1

def pairVote : UserVoteInput where
  vote := some (js "B")
  random := some (prefixed (Bytes.fill 32 0x11))
  commitment := some (prefixed (pairCommitment 1 0x11))
  proof := some ⟨some (.ofNat 0), some (.ofNat 1), some [], some (prefixed (pairLeaf 1 0x11))⟩

/-- The first voter's evidence: cast into an empty bulletin, which grew by one vote. -/
def pairInput : VerificationEvaluationInput where
  electionId := some (uuidText pairElection)
  voteReceipt := some pairReceipt
  userVote := some pairVote
  journal := some (HostOutput.hostJournal pairOutput (some pairImage))
  electionManifest := some pairManifest
  closeStatement :=
    some ⟨prefixed pairRun.logId, .ofNat 2, .ofNat 1700000000000, prefixed pairRun.bulletinRoot,
    prefixed pairOutput.sthDigest⟩
  bulletinRoot := some (prefixed pairRun.bulletinRoot)
  treeSize := some (.ofNat 2)
  publicInputAuthority := some
    { electionId := uuidText pairElection, electionConfigHash := pairManifest.electionConfigHash
      methodVersion := .ofNat 14, bulletinRoot := prefixed pairRun.bulletinRoot, treeSize := .ofNat 2
      totalExpected := .ofNat 2, votesCount := .ofNat 2, uniqueIndices := true, uniqueCommitments := true
      logId := prefixed pairRun.logId, timestamp := .ofNat 1700000000000
      recomputedInputCommitment := prefixed pairDigest, source := .bundle }
  bitmapProofSource := some .real
  consistencyProof := some (.admitted
    { fromTreeSize := .ofNat 1, toTreeSize := .ofNat 2, rootAtFromTreeSize := prefixed (pairLeaf 1 0x11)
      rootAtToTreeSize := prefixed pairRun.bulletinRoot, proofNodes := [prefixed (pairCommitment 3 0x22)]
      generatedAtMs := .ofNat 1 })
  includedBitmapProof := some (.admitted ⟨hexText (3 :: List.replicate 31 0), []⟩)
  verifierOutcome := some (.success (some
    ⟨some .success, some (prefixed pairImage), some (some (prefixed pairImage)), none⟩))

theorem pair_checks_succeed :
    ∃ results, evaluateAllChecks .reference Sha256.digest pairInput = .ok results ∧
    RequiredChecksSucceed results := by
  have hany : ((evaluateAllChecks .reference Sha256.digest pairInput).toOption.any fun results =>
    RequiredChecksSucceed results) = true := by decide +kernel
  cases hresults : evaluateAllChecks .reference Sha256.digest pairInput with
  | error e =>
    rw [hresults] at hany
    cases hany
  | ok results =>
    rw [hresults] at hany
    exact ⟨results, rfl, of_decide_eq_true hany⟩

/-- The first voter's vote is counted. -/
theorem counted_as_cast_on_sample :
    ∃ inspection, verifyAndTallyChecked Sha256.digest pairRun = .ok inspection ∧
    ((∃ vote ∈ acceptedRecords pairRun inspection, VotersOwn pairReceipt pairVote vote) ∨
      Exhibits Sha256.digest
        (findCollision Sha256.digest
          (evidenceMessages .reference Sha256.digest pairInput pairRun))) := by
  have hadmitted : (ValidatedAggregatorInput.validate pairRun).isOk = true := by decide +kernel
  have hid : isUuid (uuidText pairRun.electionId) = true := by decide +kernel
  obtain ⟨inspection, hrun, houtput⟩ := verifyAndTallyChecked_of_admitted Sha256.digest hadmitted
  obtain ⟨_, digest, -, -, hdigest, hinspection⟩ := verifyAndTallyChecked_ok Sha256.digest hrun
  have hpair : pairDigest = digest := by
    rw [pairDigest, hdigest]
    rfl
  have hsame : inspection.output = pairOutput := by rw [hinspection, pairOutput, hpair]
  have hread : HostOutput.parseHostZkVMOutput (HostOutput.hostJson inspection.output pairImage) =
      .ok (HostOutput.hostJournal pairOutput (some pairImage)) := by
    have hpairId :
        inspection.output.electionId = pairRun.electionId := by rw [hsame, pairOutput, journalOf]
    rw [HostOutput.parseHostZkVMOutput_hostJson (HostOutput.emitted_of_accepted houtput), hpairId,
      if_pos hid, hsame]
  obtain ⟨results, hresults, hsuccess⟩ := pair_checks_succeed
  exact ⟨inspection, hrun, counted_as_cast hrun hread rfl rfl rfl rfl rfl hresults hsuccess⟩

end StarkBallot.Verification
