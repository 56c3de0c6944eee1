import StarkBallot.Verification.SuccessfulChecks

/-! The listed checks of a verification (`verification/src/verification/build-verification-checks.ts`).
    Each definition has one check, in the order of the registry; when the voter's client runs the cast
    checks, the server leaves them out.

        evaluation ── result of derivedFrom, or of the check itself ──▶ status
                  └── note of the check itself, for a failure or a missing result -/

namespace StarkBallot.Verification
open Schemes Application Domain CryptoPrimitives ZkvmContract

variable (noble : NobleUtils) (sha256 : List UInt8 → Bytes 32)

inductive CastSource where
  | server | client
  deriving DecidableEq

/-- The ids of some definitions and of the checks that they are derived from, each once. -/
def idsWithSources (definitions : List VerificationCheckDefinition) : List VerificationCheckId :=
  (definitions.flatMap fun definition => definition.id :: definition.derivedFrom.toList).foldl setAdd []

def checkIdsAll : List VerificationCheckId := idsWithSources verificationCheckDefinitions

def checkIdsWithoutCast : List VerificationCheckId :=
  idsWithSources (verificationCheckDefinitions.filter fun definition => definition.category ≠
    .castAsIntended)

def evaluateVerificationCheckResults (input : VerificationEvaluationInput) (castSource : CastSource)
    (applyZkGate : Bool := true) : JsM CheckResults :=
  evaluateChecks noble sha256 input (if castSource = .client then checkIdsWithoutCast
    else checkIdsAll) applyZkGate

def usesDevModeEvidence (verifierOutcome : Option VerificationOutcomeInput) : Bool :=
  verifierOutcome.any fun outcome => outcome.status = .devMode ||
    outcome.report.any (·.devModeReceipt = some true)

def projectedEvidence (definition : VerificationCheckDefinition) (usesDevModeEvidence : Bool) :
    VerificationEvidence :=
  if usesDevModeEvidence && definition.evidence = .zkEvidence then .demoEvidence else definition.evidence

def projectEvaluatedVerificationCheck (definition : VerificationCheckDefinition) (checks : CheckResults)
    (evidence : VerificationEvidence) : VerificationCheck :=
  let result := (definition.derivedFrom.bind fun id => checks.lookup id).or (checks.lookup definition.id)
  let noteKey := (checks.lookup definition.id).bind (·.noteKey)
  let status := (result.map (·.status)).getD .notRun
  { id := .known definition.id
    status := status
    evidence := evidence
    inputs := definition.inputs
    derivedFrom := definition.derivedFrom.map .known
    noteKey := if status = .notRun ∨ status = .failed then noteKey else none }

def projectVerificationCheck (definition : VerificationCheckDefinition) (checks : CheckResults)
    (castSource : CastSource) (usesDevModeEvidence : Bool) : VerificationCheck :=
  let evidence := projectedEvidence definition usesDevModeEvidence
  if castSource = .client ∧ definition.category = .castAsIntended then
    { id := .known definition.id
      status := .notRun
      evidence := evidence
      inputs := definition.inputs
      derivedFrom := none
      noteKey := none }
  else projectEvaluatedVerificationCheck definition checks evidence

def buildVerificationChecksFromResults (input : VerificationEvaluationInput) (castSource : CastSource)
    (checks : CheckResults) : List VerificationCheck :=
  verificationCheckDefinitions.map fun definition =>
    projectVerificationCheck definition checks castSource (usesDevModeEvidence input.verifierOutcome)

def buildVerificationChecks (input : VerificationEvaluationInput) (castSource : CastSource) :
    JsM (List VerificationCheck) := do
  let checks ← evaluateVerificationCheckResults noble sha256 input castSource
  return buildVerificationChecksFromResults input castSource checks

/-! ### The listed checks -/

section Built

variable {noble sha256} {input : VerificationEvaluationInput} {checks : List VerificationCheck}

/-- Only the two checks of the consistency proof can throw. -/
theorem evaluated_total {runtime : EvaluationRuntime} {consistency : CheckResult}
    (h : resolveRecordedConsistencyProof noble sha256 input = .ok consistency)
    (id : VerificationCheckId) :
    ∃ result, evaluateSelectedCheck noble sha256 input runtime id = .ok result := by
  cases id <;> first | exact ⟨_, rfl⟩ | exact ⟨consistency, h⟩

/-- A check with the result of its evaluator, or a cast check without one. -/
def ListsResult (result : VerificationCheckId → CheckResult) (definition : VerificationCheckDefinition)
    (check : VerificationCheck) : Prop :=
  check.id = .known definition.id ∧
    if definition.category = .castAsIntended then check.status = .notRun ∧ check.noteKey = none
    else check.status = (result (definition.derivedFrom.getD definition.id)).status ∧
      (check.noteKey = if check.status = .notRun ∨ check.status = .failed then
        (result definition.id).noteKey else none)

def ListsResults (checks : List VerificationCheck) (result : VerificationCheckId → CheckResult) : Prop :=
  List.Forall₂ (ListsResult result) verificationCheckDefinitions checks

theorem buildVerificationChecks_lists {consistency : CheckResult}
    (h : resolveRecordedConsistencyProof noble sha256 input = .ok consistency) :
    ∃ checks result, buildVerificationChecks noble sha256 input .client = .ok checks ∧
      ListsResults checks result ∧
      ∀ id, evaluateSelectedCheck noble sha256 input (evaluationRuntime noble sha256 input true) id =
        .ok (result id) := by
  choose result hresult using @evaluated_total noble sha256 input
    (evaluationRuntime noble sha256 input true) _ h
  have hresults :=
    @evaluateChecks_total noble sha256 input true checkIdsWithoutCast result (fun id _ => hresult id)
  have hlookup : ∀ id ∈ checkIdsWithoutCast,
      (checkIdsWithoutCast.map fun id => (id, result id)).lookup id = some (result id) := by
    intro id hid
    obtain ⟨found, hfound, hevaluated⟩ := lookup_of_evaluated hresults hid
    rw [hresult id] at hevaluated
    rw [hfound, Except.ok.inj hevaluated]
  refine ⟨_, result, congrArg (Except.map _) hresults, ?_, hresult⟩
  refine List.forall₂_map_right_iff.mpr (List.forall₂_same.mpr fun definition hdefinition => ?_)
  by_cases hcast : definition.category = .castAsIntended
  · simp [ListsResult, projectVerificationCheck, hcast]
  · have hlisted : ∀ definition ∈ verificationCheckDefinitions, definition.category ≠ .castAsIntended →
        definition.id ∈ checkIdsWithoutCast ∧ ∀ id ∈ definition.derivedFrom,
        id ∈ checkIdsWithoutCast := by decide
    obtain ⟨hid, hsource⟩ := hlisted definition hdefinition hcast
    rcases hderived : definition.derivedFrom with _ | source
    · simp [ListsResult, projectVerificationCheck, projectEvaluatedVerificationCheck, hcast, hderived,
        hlookup definition.id hid]
    · simp [ListsResult, projectVerificationCheck, projectEvaluatedVerificationCheck, hcast, hderived,
        hlookup definition.id hid, hlookup source (hsource source hderived)]

variable {result : VerificationCheckId → CheckResult}

theorem ListsResults.ids (h : ListsResults checks result) :
    checks.map (·.id) = verificationCheckDefinitions.map fun definition => .known definition.id :=
  map_eq_of_forall₂ (h.imp fun _ _ hlisted => hlisted.1)

theorem ListsResults.ids_nodup (h : ListsResults checks result) : (checks.map (·.id)).Nodup := by
  rw [h.ids]
  decide

theorem find_of_nodup {listed : List VerificationCheck} (hnodup : (listed.map (·.id)).Nodup)
    {check : VerificationCheck} (hmem : check ∈ listed) :
    (listed.find? fun other => other.id = check.id) = some check := by
  rcases hfind : listed.find? fun other => other.id = check.id with _ | found
  · have hnone := List.find?_eq_none.mp hfind check hmem
    simp at hnone
  · have hid : found.id = check.id := by simpa using List.find?_some hfind
    rw [hfind, List.inj_on_of_nodup_map hnodup (List.mem_of_find?_eq_some hfind) hmem hid]

/-- The check of a definition, whether the first or the last one of its id is looked for. -/
theorem ListsResults.find (h : ListsResults checks result) {definition : VerificationCheckDefinition}
    (hmem : definition ∈ verificationCheckDefinitions) :
    ∃ check, (checks.find? fun check => check.id = .known definition.id) = some check ∧
      (checks.reverse.find? fun check => check.id = .known definition.id) = some check ∧
      ListsResult result definition check := by
  obtain ⟨check, hcheck, hlisted⟩ := exists_of_forall₂ (List.Forall₂.flip h) definition hmem
  have hreverse : (checks.reverse.map (·.id)).Nodup := by
    rw [List.map_reverse]
    exact List.nodup_reverse.mpr h.ids_nodup
  have hid := hlisted.1
  refine ⟨check, ?_, ?_, hlisted⟩
  · rw [← hid]
    exact find_of_nodup h.ids_nodup hcheck
  · rw [← hid]
    exact find_of_nodup hreverse (List.mem_reverse.mpr hcheck)

end Built

/-! ### Notes -/

section Notes

variable {noble sha256} {zkGateStatus : Option VerificationStepStatus}
    {input : VerificationEvaluationInput}

theorem CheckResult.noteKey_ofBool (holds : Bool) : (CheckResult.ofBool holds).noteKey = none := by
  cases holds <;> rfl

theorem gated_noteKey {result : CheckResult} (h : result.noteKey = none) :
    (gated zkGateStatus result).noteKey = none := by
  rcases zkGateStatus with _ | status
  · exact h
  · exact CheckResult.noteKey_ofStatus status

theorem inclusionProof_noteKey {voteReceipt : Option VoteReceipt} {userVote : Option UserVoteInput} :
    (resolveRecordedInclusionProof noble sha256 voteReceipt userVote).noteKey = none := by
  have hincluded : ∀ verified : JsM Bool, (includedOrFailed verified).noteKey = none := by
    intro verified
    rcases verified with error | included
    · rfl
    · cases included <;> rfl
  have hcast {proof : CanonicalRfc6962Proof} {receipt : VoteReceipt} {commitment : JsString} {i j : ℕ} :
      (verifyAtCast noble sha256 proof receipt commitment i j).noteKey = none := by
    unfold verifyAtCast
    split_ifs <;> first | rfl | exact hincluded _
  unfold resolveRecordedInclusionProof
  split
  · split_ifs
    · rfl
    · split
      · exact hcast
      · rfl
  · rfl

theorem indexInRange_noteKey {voteReceipt : Option VoteReceipt} {treeSize : Option Num} :
    (resolveRecordedIndexInRange voteReceipt treeSize).noteKey = none := by
  unfold resolveRecordedIndexInRange
  split
  · split_ifs
    · rfl
    · split
      · rfl
      · split_ifs <;> rfl
  · rfl

theorem consistencyProof_noteKey {result : CheckResult}
    (h : resolveRecordedConsistencyProof noble sha256 input = .ok result) : result.noteKey = none := by
  have hadmitted {proof : EvidenceAcquisition AdmittedConsistencyProof}
      {snapshot : ConsistencyProofExpectation} :
      (verifyAdmittedConsistencyProof noble sha256 proof snapshot).noteKey = none := by
    unfold verifyAdmittedConsistencyProof
    split
    · rfl
    · rfl
    · rfl
    · split <;> rfl
  have hsnapshot {proof : CanonicalRfc6962Proof} {voteReceipt : VoteReceipt} {newSize : Num}
      {result : CheckResult}
      (h : validateConsistencySnapshot proof voteReceipt newSize = .ok (some result)) :
      result.noteKey = none := by
    unfold validateConsistencySnapshot at h
    split at h
    · cases h
      rfl
    · obtain ⟨receiptBulletinIndex, -, h⟩ := bind_eq_ok.mp h
      obtain ⟨proofLeafIndex, -, h⟩ := bind_eq_ok.mp h
      split_ifs at h <;> cases h <;> rfl
  unfold resolveRecordedConsistencyProof at h
  split at h
  · split at h
    · cases h
      rfl
    split at h
    · cases h
      rfl
    · obtain ⟨snapshotError, hvalidated, h⟩ := bind_eq_ok.mp h
      rcases snapshotError with _ | snapshotError
      · rw [← Except.ok.inj h]
        exact hadmitted
      · rw [← Except.ok.inj h]
        exact hsnapshot hvalidated
  · cases h
    rfl

theorem tallyConsistent_noteKey {journal : Option CurrentZkVMJournal} {tally : Option PublishedTally}
    {verifiedTally : Option (Vector Num 5)} :
    (resolveCountedTallyConsistent journal tally verifiedTally zkGateStatus).noteKey = none := by
  refine gated_noteKey ?_
  split
  · rfl
  · split
    · unfold comparePublishedTally
      split
      · rfl
      · exact CheckResult.noteKey_ofBool _
    · unfold validateJournalTally
      split
      · rfl
      · dsimp only
        split <;> rfl

theorem missingIndicesZero_noteKey {journal : Option CurrentZkVMJournal}
    {missingSlots invalidPresentedSlots excludedSlots : Option Num} :
    (resolveCountedMissingIndicesZero journal missingSlots invalidPresentedSlots excludedSlots
      zkGateStatus).noteKey = none := by
  unfold resolveCountedMissingIndicesZero
  split
  · rename_i journalCountError hinvalid
    obtain ⟨value, -, herror⟩ := Option.bind_eq_some_iff.mp hinvalid
    dsimp only at herror
    split at herror
    · cases herror
    · rw [← Option.some.inj herror]
      rfl
  · split
    · rfl
    · split
      · rfl
      · exact gated_noteKey rfl

theorem closeStatement_noteKey :
    (resolveCountedCloseStatementConsistent noble sha256 input zkGateStatus).noteKey = none := by
  refine gated_noteKey ?_
  split
  · split
    · rename_i artifactError hartifact
      unfold validateCloseStatementArtifact at hartifact
      split at hartifact
      · rw [← Option.some.inj hartifact]
        rfl
      · split at hartifact
        · rw [← Option.some.inj hartifact]
          rfl
        · cases hartifact
    · split
      · rfl
      · unfold compareCloseStatementInputs
        split_ifs <;> rfl
  · rfl

theorem imageIdMatch_noteKey {status : VerificationStepStatus} :
    (resolveStarkImageIdMatch input status).noteKey = none := by
  unfold resolveStarkImageIdMatch
  split
  · exact CheckResult.noteKey_ofStatus _
  · dsimp only
    split_ifs
    · rfl
    · rfl
    · unfold compareVerifierImageIds
      split
      · split
        · rfl
        · unfold compareConfirmedReceiptImageId
          dsimp only
          split_ifs <;> rfl
      · rfl

theorem LocalCastCheckResult.noteKey_toCheckResult (result : LocalCastCheckResult) :
    result.toCheckResult.noteKey = none := by
  cases result <;> rfl

/-- Only the check of the voter's own slot comes with a note. -/
theorem evaluated_noteKey {runtime : EvaluationRuntime} {id : VerificationCheckId} {result : CheckResult}
    (h : evaluateSelectedCheck noble sha256 input runtime id = .ok result)
    (hid : id ≠ .countedMyVoteIncluded) :
    result.noteKey = none := by
  cases id with
  | countedMyVoteIncluded => exact absurd rfl hid
  | recordedRootAtCastConsistent => exact consistencyProof_noteKey h
  | recordedConsistencyProof => exact consistencyProof_noteKey h
  | recordedCommitmentInBulletin => exact Except.ok.inj h ▸ inclusionProof_noteKey
  | recordedInclusionProof => exact Except.ok.inj h ▸ inclusionProof_noteKey
  | recordedIndexInRange => exact Except.ok.inj h ▸ indexInRange_noteKey
  | countedElectionManifestConsistent =>
    refine Except.ok.inj h ▸ gated_noteKey ?_
    split
    · rfl
    · dsimp only
      split
      · rfl
      · unfold compareElectionManifestInputs
        split_ifs <;> rfl
  | countedCloseStatementConsistent => exact Except.ok.inj h ▸ closeStatement_noteKey
  | starkImageIdMatch => exact Except.ok.inj h ▸ imageIdMatch_noteKey
  | countedMissingIndicesZero => exact Except.ok.inj h ▸ missingIndicesZero_noteKey
  | countedTallyConsistent => exact Except.ok.inj h ▸ tallyConsistent_noteKey
  | countedExpectedVsTreeSize =>
    refine Except.ok.inj h ▸ gated_noteKey ?_
    split
    · split_ifs
      · rfl
      · exact CheckResult.noteKey_ofBool _
    · rfl
  | countedInputCommitmentMatch =>
    refine Except.ok.inj h ▸ gated_noteKey ?_
    split
    · rfl
    · split
      · rfl
      · split_ifs
        · rfl
        · exact CheckResult.noteKey_ofBool _
  | starkReceiptVerify => exact Except.ok.inj h ▸ CheckResult.noteKey_ofStatus _
  | recordedSthThirdParty =>
    rw [← Except.ok.inj h]
    unfold resolveRecordedSthThirdParty
    split_ifs
    · rfl
    · rfl
    · split
      · rfl
      · exact CheckResult.noteKey_ofBool _
  | countedInputSanity =>
    rw [← Except.ok.inj h]
    unfold resolveCountedInputSanity
    split
    · rfl
    · split_ifs <;> first | rfl | exact CheckResult.noteKey_ofBool _
  | countedUniqueIndices =>
    rw [← Except.ok.inj h]
    unfold resolveCountedUniqueIndices
    split
    · rfl
    · exact CheckResult.noteKey_ofBool _
  | countedUniqueCommitments =>
    rw [← Except.ok.inj h]
    unfold resolveCountedUniqueCommitments
    split
    · rfl
    · exact CheckResult.noteKey_ofBool _
  | castReceiptPresent => exact Except.ok.inj h ▸ LocalCastCheckResult.noteKey_toCheckResult _
  | castChoiceRange => exact Except.ok.inj h ▸ LocalCastCheckResult.noteKey_toCheckResult _
  | castRandomFormat => exact Except.ok.inj h ▸ LocalCastCheckResult.noteKey_toCheckResult _
  | castCommitmentMatch => exact Except.ok.inj h ▸ LocalCastCheckResult.noteKey_toCheckResult _

end Notes

end StarkBallot.Verification
