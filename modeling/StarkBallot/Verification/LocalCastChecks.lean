import StarkBallot.Verification.EngineTypes

/-! The four checks that need the voter's own secret
    (`verification/src/verification/local-cast-checks.ts`). They are evaluated by the voter, and their
    results take the place of whatever the server listed for them. -/

namespace StarkBallot.Verification
open Schemes ContractCore CryptoPrimitives ZkvmContract

variable (noble : NobleUtils) (sha256 : List UInt8 → Bytes 32)

def localCastCheckIds : List VerificationCheckId :=
  [.castReceiptPresent, .castChoiceRange, .castRandomFormat, .castCommitmentMatch]

inductive LocalCastCheckResult where
  | success
  | notRun
  | failed (error : Option String)
  deriving DecidableEq

def LocalCastCheckResult.status : LocalCastCheckResult → VerificationStepStatus
  | .success => .success
  | .notRun => .notRun
  | .failed _ => .failed

def LocalCastCheckResult.toCheckResult : LocalCastCheckResult → CheckResult
  | .success => .success
  | .notRun => .notRun none
  | .failed error => .failed error none

structure LocalCastCheckResults where
  castReceiptPresent : LocalCastCheckResult
  castChoiceRange : LocalCastCheckResult
  castRandomFormat : LocalCastCheckResult
  castCommitmentMatch : LocalCastCheckResult

structure LocalCastCheckInput where
  electionId : Option JsString
  voteReceipt : Option VoteReceipt
  choice : Option JsString
  random : Option JsString

/-- The texts of `VOTE_CHOICES`. -/
def choiceTexts : List JsString := voteChoices.map js

/-- The empty text counts as missing. -/
def nonEmptyText (value : Option JsString) : Option JsString := value.filter (· ≠ [])

def errorMessage : JsError → String
  | .error message => message
  | .rangeError message => message

def resolveCastReceiptPresent (voteReceipt : Option VoteReceipt) : LocalCastCheckResult :=
  match voteReceipt with
  | none => .notRun
  | some voteReceipt =>
    if voteReceipt.voteId = [] ∨ voteReceipt.commitment = [] then
      .failed (some "Invalid receipt: missing commitment or voteId")
    else .success

def unknownChoice (choice : JsString) : LocalCastCheckResult :=
  .failed (some s!"Unknown vote choice \"{String.ofList choice}\".")

def resolveCastChoiceRange (choice : Option JsString) : LocalCastCheckResult :=
  match nonEmptyText choice with
  | none => .notRun
  | some choice => if choice ∉ choiceTexts then unknownChoice choice else .success

def resolveCastRandomFormat (random : Option JsString) : LocalCastCheckResult :=
  match nonEmptyText random with
  | none => .notRun
  | some random =>
    if isValidHexString random (some 32) then .success
      else .failed (some "Random value must be a 32-byte hex string.")

def compareRecomputedCommitment (electionId : JsString) (choiceIndex : ℕ)
    (random normalizedCommitment : JsString) :
    LocalCastCheckResult :=
  match computeCommitment noble sha256 electionId (.ofNat choiceIndex) random with
  | .error error => .failed (some ("Failed to recompute commitment: " ++ errorMessage error))
  | .ok recomputed =>
    if normalizedCommitment ≠ normalizeHexString recomputed then
      .failed (some "Commitment mismatch between receipt and recomputed value.")
    else .success

def resolveCastCommitmentMatch (input : LocalCastCheckInput) : LocalCastCheckResult :=
  match nonEmptyText input.electionId, input.voteReceipt.filter (·.commitment ≠ []),
      nonEmptyText input.choice, nonEmptyText input.random with
  | some electionId, some voteReceipt, some choice, some random =>
    let normalizedCommitment := normalizeHexString voteReceipt.commitment
    if normalizedCommitment = [] then .failed (some "Receipt commitment is malformed.")
    else if choice ∉ choiceTexts then unknownChoice choice
    else
      compareRecomputedCommitment noble sha256 electionId (choiceTexts.idxOf choice) random
        normalizedCommitment
  | _, _, _, _ => .notRun

def evaluateLocalCastChecks (input : LocalCastCheckInput) : LocalCastCheckResults where
  castReceiptPresent := resolveCastReceiptPresent input.voteReceipt
  castChoiceRange := resolveCastChoiceRange input.choice
  castRandomFormat := resolveCastRandomFormat input.random
  castCommitmentMatch := resolveCastCommitmentMatch noble sha256 input

/-! ### The overlay -/

/-- `localResults[id]`, for the four ids. -/
def LocalCastCheckResults.get? (results : LocalCastCheckResults) :
    ListedCheckId → Option LocalCastCheckResult
  | .known .castReceiptPresent => some results.castReceiptPresent
  | .known .castChoiceRange => some results.castChoiceRange
  | .known .castRandomFormat => some results.castRandomFormat
  | .known .castCommitmentMatch => some results.castCommitmentMatch
  | _ => none

def LocalCastCheckResults.allSuccessful (results : LocalCastCheckResults) : Prop :=
  results.castReceiptPresent = .success ∧ results.castChoiceRange = .success ∧
    results.castRandomFormat = .success ∧
    results.castCommitmentMatch = .success

/-- Every id is a known one that was not listed before. -/
def areKnownOnce (seen : List ListedCheckId) : List ListedCheckId → Bool
  | [] => true
  | id :: rest =>
    if (definitionById id).isNone ∨ id ∈ seen then false
    else areKnownOnce (id :: seen) rest

def overlayCheck (localResults : LocalCastCheckResults) (check : VerificationCheck) :
    JsM VerificationCheck :=
  match localResults.get? check.id with
  | none => .ok check
  | some result =>
    match definitionById check.id with
    | none => .error (.error "Missing local cast check definition")
    | some definition =>
      .ok ⟨check.id, result.status, definition.evidence, definition.inputs,
        definition.derivedFrom.map .known, none⟩

/-- `null` for a list that is not one check of each definition. -/
def overlayLocalCastChecks (serverChecks : List VerificationCheck)
    (localResults : LocalCastCheckResults) :
    JsM (Option (List VerificationCheck)) :=
  if serverChecks.length ≠ verificationCheckDefinitions.length then .ok none
  else if ¬ areKnownOnce [] (serverChecks.map (·.id)) then .ok none
  else do return some (← serverChecks.mapM (overlayCheck localResults))

section Overlay

variable {localResults : LocalCastCheckResults} {serverChecks checks : List VerificationCheck}
  {check : VerificationCheck} {result : LocalCastCheckResult}

/-- The four results belong to known ids. -/
theorem definitionById_of_get? {id : ListedCheckId} (h : localResults.get? id = some result) :
    ∃ definition, definitionById id = some definition := by
  cases id with
  | unknown text => cases h
  | known id =>
    obtain ⟨definition, -, -, hdefinition⟩ := definitionById_known id
    exact ⟨definition, hdefinition⟩

theorem overlayCheck_other (h : localResults.get? check.id = none) :
    overlayCheck localResults check = .ok check := by
  rw [overlayCheck, h]

/-- Nothing of the check but its id is left. -/
theorem overlayCheck_local (h : localResults.get? check.id = some result) :
    ∃ definition, definitionById check.id = some definition ∧ overlayCheck localResults check =
      .ok ⟨check.id, result.status, definition.evidence, definition.inputs,
        definition.derivedFrom.map .known, none⟩ := by
  obtain ⟨definition, hdefinition⟩ := definitionById_of_get? h
  refine ⟨definition, hdefinition, ?_⟩
  rw [overlayCheck, h]
  dsimp only
  rw [hdefinition]

/-- The check that the overlay puts in a place. -/
theorem overlayCheck_total (localResults : LocalCastCheckResults) (check : VerificationCheck) :
    ∃ check', overlayCheck localResults check = .ok check' ∧ check'.id = check.id ∧
      ∀ result, localResults.get? check.id = some result → check'.status = result.status := by
  cases h : localResults.get? check.id with
  | none => exact ⟨check, overlayCheck_other h, rfl, fun result hresult => by cases hresult⟩
  | some result =>
    obtain ⟨definition, -, hoverlay⟩ := overlayCheck_local h
    refine ⟨_, hoverlay, rfl, ?_⟩
    rintro _ ⟨⟩
    rfl

/-- A list with every known id once is never refused. -/
theorem overlayLocalCastChecks_total
    (hlength : serverChecks.length = verificationCheckDefinitions.length)
    (hknown : areKnownOnce [] (serverChecks.map (·.id)) = true) (localResults : LocalCastCheckResults) :
    ∃ checks, overlayLocalCastChecks serverChecks localResults = .ok (some checks) := by
  obtain ⟨checks, hchecks⟩ : ∃ checks, serverChecks.mapM (overlayCheck localResults) = .ok checks := by
    refine ⟨serverChecks.map fun check => ((overlayCheck localResults check).toOption.getD check), ?_⟩
    refine mapM_of_forall₂ (List.forall₂_map_right_iff.mpr (List.forall₂_same.mpr fun check _ => ?_))
    obtain ⟨check', hoverlay, -⟩ := overlayCheck_total localResults check
    rw [hoverlay]
    rfl
  refine ⟨checks, ?_⟩
  rw [overlayLocalCastChecks, if_neg (by simp [hlength]), if_neg (by simp [hknown]), hchecks]
  rfl

/-- SOUND: after the overlay the four statuses are the voter's own. -/
theorem overlayLocalCastChecks_status
    (h : overlayLocalCastChecks serverChecks localResults = .ok (some checks))
    (hcheck : check ∈ checks) (hresult : localResults.get? check.id = some result) :
    check.status = result.status := by
  unfold overlayLocalCastChecks at h
  split at h
  · cases h
  split at h
  · cases h
  obtain ⟨overlaid, hoverlaid, hsome⟩ := bind_eq_ok.mp h
  cases hsome
  obtain ⟨i, hi, rfl⟩ := List.mem_iff_getElem.mp hcheck
  have hpairs := forall₂_of_mapM hoverlaid
  have hserver : i < serverChecks.length := hpairs.length_eq ▸ hi
  have hplace : overlayCheck localResults serverChecks[i] = .ok checks[i] := by
    simpa using hpairs.get hserver hi
  obtain ⟨check', hoverlay, hid, hstatus⟩ := overlayCheck_total localResults serverChecks[i]
  cases hoverlay.symm.trans hplace
  exact hstatus result (hid ▸ hresult)

/-- The same list, but for the voter's own checks. -/
def SameOutsideCast (localResults : LocalCastCheckResults) (left right : VerificationCheck) : Prop :=
  left = right ∨ (left.id = right.id ∧ (localResults.get? left.id).isSome = true)

theorem overlayCheck_congr {left right : VerificationCheck}
    (h : SameOutsideCast localResults left right) :
    left.id = right.id ∧ overlayCheck localResults left = overlayCheck localResults right := by
  rcases h with rfl | ⟨hid, hsome⟩
  · exact ⟨rfl, rfl⟩
  · refine ⟨hid, ?_⟩
    obtain ⟨result, hresult⟩ := Option.isSome_iff_exists.mp hsome
    obtain ⟨definition, hdefinition, hleft⟩ := overlayCheck_local hresult
    obtain ⟨definition', hdefinition', hright⟩ := overlayCheck_local (hid ▸ hresult)
    rw [← hid, hdefinition] at hdefinition'
    cases hdefinition'
    rw [hleft, hright, hid]

/-- INDEPENDENT: what the server listed for the four checks is not looked at. -/
theorem overlayLocalCastChecks_congr {otherChecks : List VerificationCheck}
    (h : List.Forall₂ (SameOutsideCast localResults) serverChecks otherChecks) :
    overlayLocalCastChecks serverChecks localResults =
      overlayLocalCastChecks otherChecks localResults := by
  have hids : serverChecks.map (·.id) = otherChecks.map (·.id) := by
    induction h with
    | nil => rfl
    | cons hsame _ ih => rw [List.map_cons, List.map_cons, (overlayCheck_congr hsame).1, ih]
  have hmap :
      serverChecks.mapM (overlayCheck localResults) = otherChecks.mapM (overlayCheck localResults) := by
    clear hids
    induction h with
    | nil => rfl
    | cons hsame _ ih => rw [List.mapM_cons, List.mapM_cons, (overlayCheck_congr hsame).2, ih]
  unfold overlayLocalCastChecks
  rw [hids, hmap, h.length_eq]

end Overlay

end StarkBallot.Verification
