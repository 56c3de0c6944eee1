import StarkBallot.Application.SupportedJournal
import StarkBallot.Validation.UnknownValues

/-! The guard of a journal on a value of type `unknown` (`zkvm-contract/src/zkvm/journal-guards.ts`).
    The keys are compared before any field is read, so a value with a count of an older journal is
    turned away by its key alone.

        keys exactly those of today ──▶ texts ──▶ counts and their equations ──▶ method version

    On the value of a typed journal the guard is the guard of the journal. -/

namespace StarkBallot.ZkvmContract.JournalValue
open Schemes ContractCore Validation CryptoPrimitives Domain
open Application (CurrentZkVMJournal JournalNumbers journalNumbers_of_supported supported_hashes)

/-- `hostJsonProjectionFieldNames` without the key that may be missing. -/
def currentJournalRequiredKeys : List String :=
  ["electionId", "electionConfigHash", "bulletinRoot", "treeSize", "totalExpected", "sthDigest",
    "verifiedTally", "totalVotes", "validVotes", "invalidVotes", "seenIndicesCount", "missingSlots",
    "invalidPresentedSlots", "rejectedRecords", "seenBitmapRoot", "includedBitmapRoot", "excludedSlots",
    "inputCommitment", "methodVersion"]

def currentJournalAllowedKeys : List String := currentJournalRequiredKeys ++ ["imageId"]

def legacyJournalCountKeys : List String :=
  ["missingIndices", "invalidIndices", "countedIndices", "excludedCount"]

def hasOwn (value : JsValue) (key : String) : Bool := (objectKeys value).contains (js key)

def hasExactCurrentJournalKeys (value : JsValue) : Bool :=
  (objectKeys value).all (fun key => (currentJournalAllowedKeys.map js).contains key) &&
  currentJournalRequiredKeys.all (hasOwn value)

def hasLegacyJournalCountAliases (value : JsValue) : Bool :=
  isNonNullObject value && legacyJournalCountKeys.any (hasOwn value)

def isCurrentJournalRecord (value : JsValue) : Bool :=
  isNonNullObject value && hasExactCurrentJournalKeys value && !hasLegacyJournalCountAliases value

def finiteNumber : JsValue → Option Num
  | .number n => if n.isFinite then some n else none
  | _ => none

def getNumberArrayProperty (value : JsValue) (key : String) : Option (List Num) :=
  (getArrayProperty value key).bind fun elements => elements.mapM finiteNumber

def isJournalHash (value : Option JsString) : Bool :=
  value.any fun value => isValidHexString value (some 32)

def isSupportedJournalMethodVersion (value : Option Num) : Bool :=
  value.any fun value => value.isInteger && value.eq (.ofNat currentMethodVersion)

/-- The fields that the counts are checked on. -/
def evidence (value : JsValue) : CurrentZkVMJournalSemanticEvidence where
  verifiedTally := getNumberArrayProperty value "verifiedTally"
  treeSize := getNumberProperty value "treeSize"
  seenIndicesCount := getNumberProperty value "seenIndicesCount"
  missingSlots := getNumberProperty value "missingSlots"
  invalidPresentedSlots := getNumberProperty value "invalidPresentedSlots"
  rejectedRecords := getNumberProperty value "rejectedRecords"
  excludedSlots := getNumberProperty value "excludedSlots"
  seenBitmapRoot := getStringProperty value "seenBitmapRoot"
  includedBitmapRoot := getStringProperty value "includedBitmapRoot"
  totalExpected := getNumberProperty value "totalExpected"
  totalVotes := getNumberProperty value "totalVotes"
  validVotes := getNumberProperty value "validVotes"
  invalidVotes := getNumberProperty value "invalidVotes"

def isSupportedZkVMJournal (value : JsValue) : Bool :=
  isCurrentJournalRecord value &&
  (getStringProperty value "electionId").any isUuid &&
  ["electionConfigHash", "bulletinRoot", "sthDigest", "includedBitmapRoot", "inputCommitment",
    "seenBitmapRoot"].all (fun key => isJournalHash (getStringProperty value key)) &&
  (getStringProperty value "imageId").all (fun imageId => isValidHexString imageId (some 32)) &&
  hasCoherentCurrentZkVMJournalSemantics (evidence value) &&
  isSupportedJournalMethodVersion (getNumberProperty value "methodVersion")

/-! ### Typed journals -/

/-- A journal as a plain object. -/
def ofJournal (journal : CurrentZkVMJournal) : JsValue := .object (
  [(js "electionId", .string journal.electionId),
   (js "electionConfigHash", .string journal.electionConfigHash),
   (js "bulletinRoot", .string journal.bulletinRoot),
   (js "treeSize", .number journal.treeSize),
   (js "totalExpected", .number journal.totalExpected),
   (js "sthDigest", .string journal.sthDigest),
   (js "verifiedTally", .array (journal.verifiedTally.toList.map .number)),
   (js "totalVotes", .number journal.totalVotes),
   (js "validVotes", .number journal.validVotes),
   (js "invalidVotes", .number journal.invalidVotes),
   (js "seenIndicesCount", .number journal.seenIndicesCount),
   (js "missingSlots", .number journal.missingSlots),
   (js "invalidPresentedSlots", .number journal.invalidPresentedSlots),
   (js "rejectedRecords", .number journal.rejectedRecords),
   (js "seenBitmapRoot", .string journal.seenBitmapRoot),
   (js "includedBitmapRoot", .string journal.includedBitmapRoot),
   (js "excludedSlots", .number journal.excludedSlots),
   (js "inputCommitment", .string journal.inputCommitment),
   (js "methodVersion", .number journal.methodVersion)] ++
  (journal.imageId.map fun imageId => (js "imageId", .string imageId)).toList)

section Typed

variable {journal : CurrentZkVMJournal}

theorem ofJournal_record : isCurrentJournalRecord (ofJournal journal) = true := by
  cases himage : journal.imageId with
  | none =>
    rw [ofJournal, himage]
    rfl
  | some imageId =>
    rw [ofJournal, himage]
    rfl

theorem ofJournal_imageId : getStringProperty (ofJournal journal) "imageId" = journal.imageId := by
  cases himage : journal.imageId with
  | none =>
    rw [ofJournal, himage]
    rfl
  | some imageId =>
    rw [ofJournal, himage]
    rfl

theorem mapM_finiteNumber {counts : List Num} (h : ∀ count ∈ counts, ∃ n, count = .ofNat n) :
    (counts.map JsValue.number).mapM finiteNumber = some counts := by
  induction counts with
  | nil => rfl
  | cons count counts ih =>
    obtain ⟨⟨n, rfl⟩, hcounts⟩ := List.forall_mem_cons.mp h
    rw [List.map_cons, List.mapM_cons, ih hcounts]
    rfl

/-- The counts of a supported journal are all read. -/
theorem evidence_ofJournal (numbers : JournalNumbers journal) :
    evidence (ofJournal journal) = journal.evidence := by
  have hnumber :
      ∀ {key : String} {value : Num} {n : ℕ}, property (ofJournal journal) key = .number value →
      value = .ofNat n → getNumberProperty (ofJournal journal) key = some value := by
    intro key value n hproperty hvalue
    rw [getNumberProperty, hproperty, hvalue]
    rfl
  have htally :
      getNumberArrayProperty (ofJournal journal) "verifiedTally" = some journal.verifiedTally.toList :=
    mapM_finiteNumber numbers.tally_finite
  rw [evidence, htally, hnumber rfl numbers.treeSize_eq, hnumber rfl numbers.seenIndicesCount_eq,
    hnumber rfl numbers.missingSlots_eq, hnumber rfl numbers.invalidPresentedSlots_eq,
    hnumber rfl numbers.rejectedRecords_eq, hnumber rfl numbers.excludedSlots_eq,
    hnumber rfl numbers.totalExpected_eq, hnumber rfl numbers.totalVotes_eq,
    hnumber rfl numbers.validVotes_eq, hnumber rfl numbers.invalidVotes_eq]
  rfl

/-- TYPED: the value of a supported journal is supported. -/
theorem ofJournal_supported (h : Application.isSupportedZkVMJournal journal = true) :
    isSupportedZkVMJournal (ofJournal journal) = true := by
  obtain ⟨numbers⟩ := journalNumbers_of_supported h
  have hhashes := supported_hashes h
  simp only [Application.isSupportedZkVMJournal, Bool.and_eq_true] at h
  obtain ⟨⟨⟨⟨hid, -⟩, himage⟩, hcoherent⟩, hversion⟩ := h
  simp only [isSupportedZkVMJournal, Bool.and_eq_true]
  refine ⟨⟨⟨⟨⟨ofJournal_record, ?_⟩, ?_⟩, ?_⟩, ?_⟩, ?_⟩
  · exact hid
  · refine List.all_eq_true.mpr ?_
    simp only [List.forall_mem_cons] at hhashes ⊢
    obtain ⟨hconfig, hbulletin, hsth, hincluded, hinput, hseen, -⟩ := hhashes
    exact ⟨hconfig, hbulletin, hsth, hincluded, hinput, hseen,
      fun _ hmem => absurd hmem List.not_mem_nil⟩
  · rw [ofJournal_imageId]
    exact himage
  · rw [evidence_ofJournal numbers]
    exact hcoherent
  · have hnumber :
      getNumberProperty (ofJournal journal) "methodVersion" = some (.ofNat currentMethodVersion) := by
      have hproperty : property (ofJournal journal) "methodVersion" = .number journal.methodVersion :=
        rfl
      rw [getNumberProperty, hproperty, Num.eq_of_eq hversion]
      rfl
    rw [hnumber]
    rfl

end Typed

end StarkBallot.ZkvmContract.JournalValue
