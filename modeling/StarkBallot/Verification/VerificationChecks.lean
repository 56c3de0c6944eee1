import StarkBallot.Runtime.Js
import StarkBallot.Schemes.Worst

/-! The registry of verification checks (`verification/src/verification/verification-checks.ts`,
    `step-types.ts`, `engine/derive-stages.ts`). There are 22 checks in four steps; a list of checks
    that comes from outside may name other ones, in any order and more than once. -/

namespace StarkBallot.Verification
open Schemes

inductive VerificationStepStatus where
  | pending | running | success | failed | notRun
  deriving DecidableEq, Repr

inductive VerificationStepId where
  | castAsIntended | recordedAsCast | countedAsRecorded | starkVerification
  deriving DecidableEq, Repr

inductive VerificationEvidence where
  | localEvidence | publicEvidence | zkEvidence | demoEvidence
  deriving DecidableEq, Repr

inductive VerificationCheckRole where
  | proofVerification | castReceiptIntegrity | recordedInclusion | recordedAppendOnly
  | tallyInputIntegrity | tallyCompleteness | userInclusion | tallyConsistency | optionalExternalAudit
  deriving DecidableEq, Repr

inductive VerificationCheckCriticality where
  | required | optional
  deriving DecidableEq, Repr

/-- The last part of the key, after `pages.verify.stepsCard.notes.myVoteIncluded.`. -/
inductive VerificationCheckNoteKey where
  | notPresented | presentedButInvalid | excluded | missingReceipt | proofUnavailable
  deriving DecidableEq, Repr

inductive VerificationCheckId where
  | castReceiptPresent | castChoiceRange | castRandomFormat | castCommitmentMatch
  | recordedCommitmentInBulletin | recordedIndexInRange | recordedRootAtCastConsistent
  | recordedInclusionProof | recordedConsistencyProof | recordedSthThirdParty
  | countedInputSanity | countedUniqueIndices | countedUniqueCommitments | countedTallyConsistent
  | countedMissingIndicesZero | countedExpectedVsTreeSize | countedElectionManifestConsistent
  | countedCloseStatementConsistent | countedMyVoteIncluded | countedInputCommitmentMatch
  | starkImageIdMatch | starkReceiptVerify
  deriving DecidableEq, Repr

structure VerificationCheckDefinition where
  id : VerificationCheckId
  category : VerificationStepId
  evidence : VerificationEvidence
  inputs : List JsString
  role : VerificationCheckRole
  criticality : VerificationCheckCriticality
  derivedFrom : Option VerificationCheckId := none
  deriving DecidableEq

open VerificationCheckId in
def verificationCheckDefinitions : List VerificationCheckDefinition := [
  { id := castReceiptPresent, category := .castAsIntended, evidence := .localEvidence
    inputs := [js "user.voteId", js "user.commitment"], role := .castReceiptIntegrity, criticality :=
    .required },
  { id := castChoiceRange, category := .castAsIntended, evidence := .localEvidence
    inputs := [js "user.choice"], role := .castReceiptIntegrity, criticality := .required },
  { id := castRandomFormat, category := .castAsIntended, evidence := .localEvidence
    inputs := [js "user.random"], role := .castReceiptIntegrity, criticality := .required },
  { id := castCommitmentMatch, category := .castAsIntended, evidence := .localEvidence
    inputs := [js "electionId", js "user.choice", js "user.random", js "user.commitment"]
    role := .castReceiptIntegrity, criticality := .required },
  { id := recordedCommitmentInBulletin, category := .recordedAsCast, evidence := .publicEvidence
    inputs := [js "user.commitment", js "user.voteReceipt", js "user.merklePath"]
    role := .recordedInclusion, criticality := .optional, derivedFrom := some recordedInclusionProof },
  { id := recordedIndexInRange, category := .recordedAsCast, evidence := .publicEvidence
    inputs := [js "user.voteReceipt", js "treeSize"], role := .recordedInclusion, criticality :=
    .required },
  { id := recordedRootAtCastConsistent, category := .recordedAsCast, evidence := .publicEvidence
    inputs := [js "user.voteReceipt", js "user.merklePath", js "bulletinRoot", js "treeSize"]
    role := .recordedAppendOnly, criticality := .optional, derivedFrom :=
    some recordedConsistencyProof },
  { id := recordedInclusionProof, category := .recordedAsCast, evidence := .publicEvidence
    inputs := [js "user.commitment", js "user.voteReceipt", js "user.merklePath"]
    role := .recordedInclusion, criticality := .required },
  { id := recordedConsistencyProof, category := .recordedAsCast, evidence := .publicEvidence
    inputs := [js "user.voteReceipt", js "user.merklePath", js "bulletinRoot", js "treeSize"]
    role := .recordedAppendOnly, criticality := .required },
  { id := recordedSthThirdParty, category := .recordedAsCast, evidence := .publicEvidence
    inputs := [js "sthDigest"], role := .optionalExternalAudit, criticality := .optional },
  { id := countedInputSanity, category := .countedAsRecorded, evidence := .publicEvidence
    inputs := [js "proofBundleStatus", js "bulletinRoot", js "treeSize"]
    role := .tallyInputIntegrity, criticality := .required },
  { id := countedUniqueIndices, category := .countedAsRecorded, evidence := .publicEvidence
    inputs := [js "proofBundleStatus"], role := .tallyInputIntegrity, criticality := .required },
  { id := countedUniqueCommitments, category := .countedAsRecorded, evidence := .publicEvidence
    inputs := [js "proofBundleStatus"], role := .tallyInputIntegrity, criticality := .required },
  { id := countedTallyConsistent, category := .countedAsRecorded, evidence := .zkEvidence
    inputs := [js "tally.counts", js "tally.totalVotes"], role := .tallyConsistency, criticality :=
    .required },
  { id := countedMissingIndicesZero, category := .countedAsRecorded, evidence := .zkEvidence
    inputs := [js "missingSlots", js "invalidPresentedSlots"], role :=
    .tallyCompleteness, criticality := .required },
  { id := countedExpectedVsTreeSize, category := .countedAsRecorded, evidence := .zkEvidence
    inputs := [js "totalExpected", js "treeSize"], role := .tallyInputIntegrity, criticality :=
    .required },
  { id := countedElectionManifestConsistent, category := .countedAsRecorded, evidence := .publicEvidence
    inputs := [js "electionManifest", js "electionId", js "electionConfigHash", js "proofBundleStatus"]
    role := .tallyInputIntegrity, criticality := .required },
  { id := countedCloseStatementConsistent, category := .countedAsRecorded, evidence := .publicEvidence
    inputs := [js "closeStatement", js "logId", js "timestamp", js "sthDigest", js "bulletinRoot",
      js "treeSize"]
    role := .tallyInputIntegrity, criticality := .required },
  { id := countedMyVoteIncluded, category := .countedAsRecorded, evidence := .zkEvidence
    inputs := [js "includedBitmapRoot", js "user.voteReceipt"], role := .userInclusion, criticality :=
    .required },
  { id := countedInputCommitmentMatch, category := .countedAsRecorded, evidence := .publicEvidence
    inputs := [js "proofBundleStatus", js "inputCommitment"]
    role := .tallyInputIntegrity, criticality := .required },
  { id := starkImageIdMatch, category := .starkVerification, evidence := .zkEvidence
    inputs := [js "imageId"], role := .proofVerification, criticality := .required },
  { id := starkReceiptVerify, category := .starkVerification, evidence := .zkEvidence
    inputs := [js "proofBundleStatus"], role := .proofVerification, criticality := .required }]

def verificationCheckIds : List VerificationCheckId := verificationCheckDefinitions.map (·.id)

/-- The id that a listed check carries, a known one or some other text. -/
inductive ListedCheckId where
  | known (id : VerificationCheckId)
  | unknown (text : JsString)
  deriving DecidableEq

structure VerificationCheck where
  id : ListedCheckId
  status : VerificationStepStatus
  evidence : VerificationEvidence
  inputs : List JsString
  derivedFrom : Option ListedCheckId
  noteKey : Option VerificationCheckNoteKey
  deriving DecidableEq

/-- `CHECK_DEFINITION_BY_ID.get`. -/
def definitionById : ListedCheckId → Option VerificationCheckDefinition
  | .known id => verificationCheckDefinitions.find? fun definition => definition.id = id
  | .unknown _ => none

/-- `undefined` is `none`. -/
def isVerificationCheckRequired (definition : VerificationCheckDefinition)
    (sthSourcesConfigured : Option Bool) : Bool :=
  if definition.criticality = .required then true
  else if definition.role = .optionalExternalAudit then sthSourcesConfigured.getD false
  else false

def requiredCheckIdsForStep (stepId : VerificationStepId) (sthSourcesConfigured : Option Bool) :
    List VerificationCheckId :=
  ((verificationCheckDefinitions.filter fun definition => definition.category = stepId).filter
    fun definition =>
    isVerificationCheckRequired definition sthSourcesConfigured).map (·.id)

/-! ### Statuses -/

def statusPriority : VerificationStepStatus → ℕ
  | .success => 0
  | .notRun => 1
  | .pending => 2
  | .running => 3
  | .failed => 4

theorem statusPriority_injective : Function.Injective statusPriority := by
  intro a b h
  cases a <;> cases b <;> first | rfl | cases h

theorem success_least (status : VerificationStepStatus) :
    statusPriority .success ≤ statusPriority status :=
  Nat.zero_le _

theorem failed_greatest (status : VerificationStepStatus) :
    statusPriority status ≤ statusPriority .failed := by
  cases status <;> decide

/-- `undefined` for an empty list. -/
def resolveWorstStatus (statuses : List VerificationStepStatus) : Option VerificationStepStatus :=
  worst statusPriority statuses

def deriveStageStatus (statuses : List VerificationStepStatus) : VerificationStepStatus :=
  if .failed ∈ statuses then .failed
  else if .running ∈ statuses then .running
  else if .pending ∈ statuses then .pending
  else if statuses.all (· = .success) then .success
  else .notRun

/-- A map from checks to statuses; a check that is not there was not run. -/
def deriveStageStatusFromChecks (checks : VerificationCheckId → Option VerificationStepStatus)
    (checkIds : List VerificationCheckId) : VerificationStepStatus :=
  deriveStageStatus (checkIds.map fun id => (checks id).getD .notRun)

theorem deriveStageStatus_success {statuses : List VerificationStepStatus} :
    deriveStageStatus statuses = .success ↔ ∀ status ∈ statuses, status = .success := by
  constructor
  · intro h
    unfold deriveStageStatus at h
    split at h
    · cases h
    split at h
    · cases h
    split at h
    · cases h
    split at h
    · rename_i hall
      simpa using hall
    · cases h
  · intro h
    have hnot : ∀ status, status ≠ .success → status ∉ statuses :=
      fun status hne hmem => hne (h status hmem)
    rw [deriveStageStatus, if_neg (hnot _ (by decide)), if_neg (hnot _ (by decide)),
      if_neg (hnot _ (by decide)), if_pos (by simpa using h)]

/-! ### The registry -/

theorem ids_complete (id : VerificationCheckId) : id ∈ verificationCheckIds := by
  cases id <;> decide

theorem ids_nodup : verificationCheckIds.Nodup := by decide

/-- Every known id has its definition. -/
theorem definitionById_known (id : VerificationCheckId) :
    ∃ definition ∈ verificationCheckDefinitions, definition.id = id ∧
      definitionById (.known id) = some definition := by
  obtain ⟨candidate, hmem, hid⟩ := List.mem_map.mp (ids_complete id)
  rw [definitionById]
  cases hfind : verificationCheckDefinitions.find? fun definition => definition.id = id with
  | none => exact absurd hid (by simpa using List.find?_eq_none.mp hfind candidate hmem)
  | some definition =>
    exact ⟨definition, List.mem_of_find?_eq_some hfind, by simpa using List.find?_some hfind, rfl⟩

theorem definitionById_eq_some {id : ListedCheckId} {definition : VerificationCheckDefinition}
    (h : definitionById id = some definition) :
    definition ∈ verificationCheckDefinitions ∧ id = .known definition.id := by
  cases id with
  | unknown text => cases h
  | known id =>
    rw [definitionById] at h
    have hid : definition.id = id := by simpa using List.find?_some h
    exact ⟨List.mem_of_find?_eq_some h, by rw [hid]⟩

/-- A definition is the one listed under its id. -/
theorem definitionById_of_mem {definition : VerificationCheckDefinition}
    (h : definition ∈ verificationCheckDefinitions) :
    definitionById (.known definition.id) = some definition := by
  obtain ⟨found, hmem, hid, hfound⟩ := definitionById_known definition.id
  rw [hfound, List.inj_on_of_nodup_map ids_nodup hmem h hid]

end StarkBallot.Verification
