import StarkBallot.Verification.EvaluateChecks

/-! What the success of a check says about the values it was evaluated on, one lemma for each check of
    the counted votes. The evaluation is taken apart once:

       evaluateAllChecks = results ──▶ (id, success) ∈ results ──▶ the evaluator of id succeeded
                                                                    └─ behind an open gate, on its own -/

namespace StarkBallot.Verification
open Schemes Application Domain CryptoPrimitives ZkvmContract

/-! ### Numbers and texts -/

/-- A count that is not positive is zero. -/
theorem eq_zero_of_isValidCount {value : Num} (hvalid : isValidCount value = true)
    (hpos : (Num.ofNat 0).lt value = false) : value = .ofNat 0 := by
  simp only [isValidCount, Bool.and_eq_true, Bool.not_eq_true'] at hvalid
  obtain ⟨hinteger, hneg⟩ := hvalid
  cases value with
  | nan => cases hinteger
  | infinity _ => cases hinteger
  | finite value =>
    simp only [Num.lt, Num.ofNat, Nat.cast_zero, decide_eq_false_iff_not, not_lt] at hneg hpos
    rw [le_antisymm hpos hneg, Num.ofNat, Nat.cast_zero]

theorem nonEmptyText_eq_some {value : Option JsString} {text : JsString} :
    nonEmptyText value = some text ↔ value = some text ∧ text ≠ [] := by
  simp [nonEmptyText, Option.filter_eq_some_iff]

theorem mem_candidates {values : List (Option JsString)} {text : JsString} :
    text ∈ candidates values ↔ some text ∈ values ∧ text ≠ [] := by
  simp only [candidates, List.mem_filterMap, nonEmptyText_eq_some]
  constructor
  · rintro ⟨value, hvalue, rfl, hne⟩
    exact ⟨hvalue, hne⟩
  · rintro ⟨hvalue, hne⟩
    exact ⟨some text, hvalue, rfl, hne⟩

/-- Values that do not disagree are all the same. -/
theorem eq_of_not_disagree {α : Type} [DecidableEq α] {values : List α}
    (h : disagree values = false) {a b : α} (ha : a ∈ values) (hb : b ∈ values) : a = b := by
  simp only [disagree, decide_eq_false_iff_not, not_lt] at h
  have ha' := List.mem_dedup.mpr ha
  have hb' := List.mem_dedup.mpr hb
  rcases hdedup : values.dedup with _ | ⟨c, _ | ⟨d, rest⟩⟩
  · simp [hdedup] at ha'
  · rw [hdedup, List.mem_singleton] at ha' hb'
    rw [ha', hb']
  · simp [hdedup] at h

/-! ### The evaluation -/

section Evaluation

variable {noble : NobleUtils} {sha256 : List UInt8 → Bytes 32} {input : VerificationEvaluationInput}
  {applyZkGate : Bool} {results : CheckResults}

/-- A listed result is the one that the check's evaluator returned. -/
theorem evaluated_of_mem {checkIds : List VerificationCheckId}
    (h : evaluateChecks noble sha256 input checkIds applyZkGate = .ok results) {id : VerificationCheckId}
    {result : CheckResult} (hmem : (id, result) ∈ results) :
    evaluateSelectedCheck noble sha256 input (evaluationRuntime noble sha256 input applyZkGate) id =
      .ok result := by
  obtain ⟨id', -, hresult⟩ := exists_of_forall₂ (forall₂_of_mapM h) (id, result) hmem
  obtain ⟨result', hevaluated, heq⟩ := bind_eq_ok.mp hresult
  cases heq
  exact hevaluated

/-- Every check that was asked for is found under its id. -/
theorem lookup_of_evaluated {checkIds : List VerificationCheckId}
    (h : evaluateChecks noble sha256 input checkIds applyZkGate = .ok results) {id : VerificationCheckId}
    (hid : id ∈ checkIds) : ∃ result, results.lookup id = some result ∧
      evaluateSelectedCheck noble sha256 input (evaluationRuntime noble sha256 input applyZkGate) id =
        .ok result := by
  obtain ⟨entry, hentry, hresult⟩ := exists_of_forall₂ (forall₂_of_mapM h).flip id hid
  obtain ⟨result, -, heq⟩ := bind_eq_ok.mp hresult
  cases heq
  obtain ⟨found, hfound⟩ := Option.isSome_iff_exists.mp
    (lookup_isSome_iff_mem.mpr (List.mem_map_of_mem (f := Prod.fst) hentry))
  obtain ⟨before, after, heq, -⟩ := List.lookup_eq_some_iff.mp hfound
  exact ⟨found, hfound, evaluated_of_mem h (heq ▸ by simp)⟩

/-- All checks return when each of them does. -/
theorem evaluateChecks_total {checkIds : List VerificationCheckId}
    {f : VerificationCheckId → CheckResult}
    (h : ∀ id ∈ checkIds, evaluateSelectedCheck noble sha256 input
      (evaluationRuntime noble sha256 input applyZkGate) id = .ok (f id)) :
        evaluateChecks noble sha256 input checkIds applyZkGate =
          .ok (checkIds.map fun id => (id, f id)) := by
  refine mapM_of_forall₂ (List.forall₂_map_right_iff.mpr (List.forall₂_same.mpr fun id hid => ?_))
  rw [h id hid]
  rfl

theorem gate_ne_success (noble : NobleUtils) (sha256 : List UInt8 → Bytes 32)
    (input : VerificationEvaluationInput) (applyZkGate : Bool) :
    (evaluationRuntime noble sha256 input applyZkGate).zkGateStatus ≠ some .success := by
  unfold evaluationRuntime
  dsimp only
  split
  · generalize resolveStarkStatus input.verifierOutcome input.allowDevModeVerification = status
    cases status <;> simp [resolveZkGateStatus]
  · simp

end Evaluation

/-! ### Success, check by check -/

section Success

variable {zkGateStatus : Option VerificationStepStatus} {journal : CurrentZkVMJournal}

theorem gated_success (hgate : zkGateStatus ≠ some .success) {result : CheckResult}
    (h : gated zkGateStatus result = .success) : result = .success := by
  rcases zkGateStatus with _ | status
  · exact h
  · cases status <;> first | exact absurd rfl hgate | cases h

theorem ofBool_eq_success {holds : Bool} (h : CheckResult.ofBool holds = .success) : holds = true := by
  cases holds with
  | true => rfl
  | false => cases h

theorem comparePublishedTally_success {counts : Vector (Option Num) 5} {totalVotes : Num}
    {verifiedTally : Vector Num 5}
    (h : comparePublishedTally counts totalVotes verifiedTally = .success) :
    counts = verifiedTally.map some ∧ totalVotes = totalOf verifiedTally.toList := by
  unfold comparePublishedTally at h
  split at h
  · cases h
  · have hmatches := ofBool_eq_success h
    simp only [Bool.and_eq_true, List.all_eq_true] at hmatches
    obtain ⟨hcounts, htotal⟩ := hmatches
    refine ⟨Vector.ext fun k hk => ?_, (Num.eq_of_eq htotal).symm⟩
    have hentry := hcounts (counts[k], verifiedTally[k]) (List.mem_of_getElem? (i := k) (by simp [hk]))
    cases hcount : counts[k] with
    | none => simp [hcount] at hentry
    | some count =>
      rw [hcount] at hentry
      simp [Num.eq_of_eq hentry]

theorem validateJournalTally_success (h : validateJournalTally (some journal) = .success) :
    totalOf journal.verifiedTally.toList = journal.validVotes := by
  unfold validateJournalTally at h
  dsimp only at h
  split at h
  · cases h
  · rename_i hsum
    exact Num.eq_of_eq (by simpa using hsum)

/-- What the tally was compared with: the copy of the verified tally or, without one,
    the journal with itself. -/
def TallyCompared (journal : CurrentZkVMJournal) (tally : Option PublishedTally)
    (verifiedTally : Option (Vector Num 5)) :
    Prop :=
  match tally.bind (·.counts), tally.bind (·.totalVotes), verifiedTally with
  | some counts, some totalVotes, some verifiedTally =>
    counts = verifiedTally.map some ∧ totalVotes = totalOf verifiedTally.toList
  | _, _, _ => totalOf journal.verifiedTally.toList = journal.validVotes

theorem countedTallyConsistent_success (hgate : zkGateStatus ≠ some .success)
    {tally : Option PublishedTally} {verifiedTally : Option (Vector Num 5)}
    (h : resolveCountedTallyConsistent (some journal) tally verifiedTally zkGateStatus = .success) :
    journal.totalVotes.eq (.ofNat 0) = false ∧ TallyCompared journal tally verifiedTally := by
  have hresult := gated_success hgate h
  split at hresult
  · cases hresult
  rename_i hprocessed
  refine ⟨by simpa using hprocessed, ?_⟩
  unfold TallyCompared
  generalize tally.bind (·.counts) = counts at hresult ⊢
  generalize tally.bind (·.totalVotes) = totalVotes at hresult ⊢
  rcases counts with _ | counts
  · exact validateJournalTally_success hresult
  rcases totalVotes with _ | totalVotes
  · exact validateJournalTally_success hresult
  rcases verifiedTally with _ | verifiedTally
  · exact validateJournalTally_success hresult
  · exact comparePublishedTally_success hresult

theorem countedMissingIndicesZero_success {missingSlots invalidPresentedSlots excludedSlots : Option Num}
    (h : resolveCountedMissingIndicesZero (some journal) missingSlots invalidPresentedSlots
      excludedSlots zkGateStatus = .success) : journal.excludedSlots = .ofNat 0 := by
  unfold resolveCountedMissingIndicesZero at h
  split at h
  · rename_i hinvalid
    simp only [resolveInvalidJournalCounts, Option.bind_eq_bind, Option.bind_some] at hinvalid
    split at hinvalid
    · cases hinvalid
    · rw [← Option.some.inj hinvalid] at h
      cases h
  rename_i hvalid
  have hcount : isValidCount journal.excludedSlots = true := by
    simp only [resolveInvalidJournalCounts, Option.bind_eq_bind, Option.bind_some] at hvalid
    split at hvalid
    · rename_i hfields
      simpa using List.filter_eq_nil_iff.mp hfields ("excludedSlots", journal.excludedSlots) (by simp)
    · cases hvalid
  simp only [resolveExcludedCount] at h
  split at h
  · cases h
  · rename_i hpos
    exact eq_zero_of_isValidCount hcount (by simpa using hpos)

theorem countedExpectedVsTreeSize_success (hgate : zkGateStatus ≠ some .success)
    {totalExpected treeSize : Option Num}
    (h : resolveCountedExpectedVsTreeSize (some journal) totalExpected treeSize
      zkGateStatus = .success) :
    totalExpected.getD journal.totalExpected = treeSize.getD journal.treeSize ∧
      (treeSize.getD journal.treeSize).isInteger = true := by
  have hresult := gated_success hgate h
  have hor (value : Option Num) (fallback : Num) :
      value.or (some fallback) = some (value.getD fallback) := by
    cases value <;> rfl
  simp only [Option.map_some, hor] at hresult
  split at hresult
  · cases hresult
  · rename_i hintegers
    simp only [Bool.or_eq_true, Bool.not_eq_true', not_or, Bool.not_eq_false] at hintegers
    exact ⟨Num.eq_of_eq (ofBool_eq_success hresult), hintegers.2⟩

theorem countedInputCommitmentMatch_success (hgate : zkGateStatus ≠ some .success)
    {input : VerificationEvaluationInput} (hjournal : input.journal = some journal)
    (h : resolveCountedInputCommitmentMatch input zkGateStatus = .success) :
    journal.inputCommitment ≠ [] ∧ ∃ publicInput, input.publicInputAuthority = some publicInput ∧
      normalizeHexString publicInput.recomputedInputCommitment =
        normalizeHexString journal.inputCommitment := by
  have hresult := gated_success hgate h
  rcases hpublic : input.publicInputAuthority with _ | publicInput
  · simp [hpublic] at hresult
  simp only [hpublic, hjournal, Option.map_some] at hresult
  split at hresult
  · cases hresult
  rename_i commitment hcommitment
  obtain ⟨hsome, hne⟩ := nonEmptyText_eq_some.mp hcommitment
  obtain rfl := Option.some.inj hsome
  split at hresult
  · cases hresult
  · exact ⟨hne, publicInput, rfl, of_decide_eq_true (ofBool_eq_success hresult)⟩

/-- The values of one snapshot: those beside the journal and its own agree with the close statement's. -/
structure SnapshotAgrees (input : VerificationEvaluationInput) (journal : CurrentZkVMJournal)
    (closeStatement : CloseStatement) : Prop where
  treeSize : ∀ treeSize, input.treeSize = some treeSize ∨ journal.treeSize = treeSize →
    treeSize.isInteger = true →
    treeSize = closeStatement.treeSize
  bulletinRoot : ∀ root, input.bulletinRoot = some root ∨ journal.bulletinRoot = root → root ≠ [] →
    normalizeHexString root = normalizeHexString closeStatement.bulletinRoot
  sthDigest : ∀ digest, input.sthDigest = some digest ∨ journal.sthDigest = digest → digest ≠ [] →
    normalizeHexString digest = normalizeHexString closeStatement.sthDigest

theorem ne_nil_of_isValidHexString {hex : JsString} {length : Option ℕ}
    (h : isValidHexString hex length = true) :
    hex ≠ [] := by
  rintro rfl
  cases h

variable {noble : NobleUtils} {sha256 : List UInt8 → Bytes 32}

/-- A statement that was built again has a size that is an integer, and a root. -/
theorem closeStatementArtifact_valid {closeStatement : CloseStatement}
    (h : validateCloseStatementArtifact noble sha256 closeStatement = none) :
    closeStatement.treeSize.isInteger = true ∧ closeStatement.bulletinRoot ≠ [] := by
  unfold validateCloseStatementArtifact at h
  split at h
  · cases h
  rename_i recomputed hbuilt
  obtain ⟨logId, -, hbuilt⟩ := bind_eq_ok.mp hbuilt
  obtain ⟨bulletinRoot, hroot, hbuilt⟩ := bind_eq_ok.mp hbuilt
  obtain ⟨timestamp, -, hbuilt⟩ := bind_eq_ok.mp hbuilt
  obtain ⟨sthDigest, hdigest, -⟩ := bind_eq_ok.mp hbuilt
  obtain ⟨logIdBytes, -, hdigest⟩ := bind_eq_ok.mp hdigest
  obtain ⟨treeSizeBytes, htreeSize, -⟩ := bind_eq_ok.mp hdigest
  obtain ⟨⟨⟩, hrange, -⟩ := bind_eq_ok.mp htreeSize
  obtain ⟨⟨⟩, hvalid, -⟩ := bind_eq_ok.mp hroot
  have hsafe := refuseIf_eq_ok.mp hrange
  simp only [not_or, not_not] at hsafe
  exact ⟨Num.isInteger_of_isSafeInteger hsafe.1,
    ne_nil_of_isValidHexString (not_not.mp (refuseIf_eq_ok.mp hvalid))⟩

theorem compareCloseStatementInputs_success {input : VerificationEvaluationInput}
    (hjournal : input.journal = some journal) {closeStatement : CloseStatement}
    (hinteger : closeStatement.treeSize.isInteger = true) (hroot : closeStatement.bulletinRoot ≠ [])
    (h : compareCloseStatementInputs input closeStatement closeStatement.sthDigest = .success) :
    SnapshotAgrees input journal closeStatement := by
  unfold compareCloseStatementInputs at h
  split at h
  · cases h
  split at h
  · cases h
  rename_i hsizes
  split at h
  · cases h
  rename_i hroots
  split at h
  · cases h
  rename_i hdigests
  simp only [hjournal, Option.map_some] at hsizes hroots hdigests
  refine ⟨fun treeSize hgiven hint => ?_, fun root hgiven hne => ?_, fun digest hgiven hne => ?_⟩
  · refine eq_of_not_disagree (by simpa using hsizes) ?_ ?_
    · rcases hgiven with hgiven | rfl
      · simp [hgiven, hint]
      · simp [hint]
    · simp [hinteger]
  · refine eq_of_not_disagree (by simpa using hroots) (List.mem_map_of_mem ?_) (List.mem_map_of_mem ?_)
    · rcases hgiven with hgiven | rfl
      · simp [mem_candidates, hgiven, hne]
      · simp [mem_candidates, hne]
    · simp [mem_candidates, hroot]
  · by_contra hdiffers
    refine hdigests (List.any_eq_true.mpr ⟨digest, ?_, decide_eq_true hdiffers⟩)
    rcases hgiven with hgiven | rfl
    · simp [mem_candidates, hgiven, hne]
    · simp [mem_candidates, hne]

theorem countedCloseStatementConsistent_success (hgate : zkGateStatus ≠ some .success)
    {input : VerificationEvaluationInput} (hjournal : input.journal = some journal)
    (h : resolveCountedCloseStatementConsistent noble sha256 input zkGateStatus = .success) :
    ∃ closeStatement, input.closeStatement = some closeStatement ∧
    SnapshotAgrees input journal closeStatement := by
  have hresult := gated_success hgate h
  split at hresult
  · rename_i closeStatement publicInput hclose hpublic
    split at hresult
    · rename_i artifactError hartifact
      subst hresult
      exact absurd hartifact (by
        unfold validateCloseStatementArtifact
        split
        · simp [CheckResult.failure]
        · split <;> simp [CheckResult.failure])
    · rename_i hartifact
      obtain ⟨hinteger, hroot⟩ := closeStatementArtifact_valid hartifact
      split at hresult
      · cases hresult
      · exact ⟨closeStatement, hclose,
          compareCloseStatementInputs_success hjournal hinteger hroot hresult⟩
  · cases hresult

end Success

end StarkBallot.Verification
