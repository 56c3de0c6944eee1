import StarkBallot.Application.SuccessfulCommit
import StarkBallot.ZkvmContract.Bitmap

/-! Bitmap evidence of a successful finalization
    (`application/src/finalize/finalization-bitmap-admission.ts`). The bitmaps are not in the journal,
    their roots are: a bitmap is admitted if its root recomputes to the journal's and it has a bit for
    every vote of the tree. Evidence that the record carries itself has to be the same. -/

namespace StarkBallot.Application
open Schemes ContractCore CryptoPrimitives ZkvmContract Domain

variable (noble : NobleUtils) (sha256 : List UInt8 → Bytes 32) {U : Type}

def normalizeHex32 (value : JsString) : Option JsString :=
  if ¬ isValidHexString value (some 32) then none
  else
    let normalized := normalizeHexString value
    if normalized.take 2 = js "0x" then some normalized else some (js "0x" ++ normalized)

def sameSeenBitmapData (left right : Option (List Bool × JsString)) : Bool :=
  match left, right with
  | none, none => true
  | some (leftBitmap, leftRoot), some (rightBitmap, rightRoot) =>
    decide (normalizeHex32 leftRoot = normalizeHex32 rightRoot) && decide (leftBitmap = rightBitmap)
  | _, _ => false

def sameBitmapData (left right : FinalizationBitmapData) : Bool :=
  left.treeSize.eq right.treeSize && left.finalizedAtMs.eq right.finalizedAtMs &&
  decide (normalizeHex32 left.includedBitmapRoot = normalizeHex32 right.includedBitmapRoot) &&
  decide (left.includedBitmap = right.includedBitmap) && sameSeenBitmapData left.seen right.seen

def invalidBitmapEvidence : JsError := .error "Invalid finalization bitmap evidence"

/-- A bitmap for every vote of the tree whose two roots, stated and recomputed, are the journal's. -/
def admitBitmapRoot (bitmap : List Bool) (root journalRoot : JsString) (journalTreeSize : Num) :
    JsM JsString := do
  let journalRoot ← okOr (normalizeHex32 journalRoot) invalidBitmapEvidence
  let computedRoot ← computeIncludedBitmapRoot noble sha256 bitmap
  refuseIf (normalizeHex32 root ≠ some journalRoot ∨ normalizeHex32 computedRoot ≠ some journalRoot ∨
    ¬ (Num.ofNat bitmap.length).eq journalTreeSize) invalidBitmapEvidence
  return journalRoot

def admitIncludedBitmapRoot (data : FinalizationBitmapData) (journal : CurrentZkVMJournal) :
    JsM JsString := do
  let includedRoot ← admitBitmapRoot noble sha256 data.includedBitmap data.includedBitmapRoot
    journal.includedBitmapRoot journal.treeSize
  refuseIf (¬ data.treeSize.eq journal.treeSize) invalidBitmapEvidence
  return includedRoot

def admitSeenBitmapRoot (data : FinalizationBitmapData) (journal : CurrentZkVMJournal) :
    JsM (Option (List Bool × JsString)) :=
  match data.seen with
  | none => return none
  | some (seenBitmap, seenBitmapRoot) => do
    let seenRoot ← admitBitmapRoot noble sha256 seenBitmap seenBitmapRoot journal.seenBitmapRoot
        journal.treeSize
    return some (seenBitmap, seenRoot)

def admitUnavailableBitmap (record : SuccessfulFinalizationRecord U) :
    JsM (Option FinalizationBitmapData) := do
  refuseIf record.authority.artifacts.bitmap.isSome
    (.error "Successful finalization bitmap disposition contradicts embedded evidence")
  return none

/-- An unavailable bitmap is `none`. -/
def admitFinalizationBitmapDisposition (record : SuccessfulFinalizationRecord U) :
    Option FinalizationBitmapData → JsM (Option FinalizationBitmapData)
  | none => admitUnavailableBitmap record
  | some value => do
    let data ← okOr (parseFinalizationBitmapData value) invalidBitmapEvidence
    let includedRoot ← admitIncludedBitmapRoot noble sha256 data record.authority.journal
    let seen ← admitSeenBitmapRoot noble sha256 data record.authority.journal
    let admittedData := { data with includedBitmapRoot := includedRoot, seen := seen }
    refuseIf (¬ record.authority.artifacts.bitmap.all fun embedded => sameBitmapData embedded.data
      admittedData) (.error "Successful finalization bitmap evidence does not match its semantic record")
    return some admittedData

/-! ### What is admitted -/

theorem admitBitmapRoot_eq_ok {bitmap : List Bool} {root journalRoot admittedRoot : JsString}
    {journalTreeSize : Num}
    (h : admitBitmapRoot noble sha256 bitmap root journalRoot journalTreeSize = .ok admittedRoot) :
    normalizeHex32 journalRoot = some admittedRoot ∧
      (Num.ofNat bitmap.length).eq journalTreeSize = true ∧
      ∃ computedRoot, computeIncludedBitmapRoot noble sha256 bitmap = .ok computedRoot ∧
        normalizeHex32 computedRoot = some admittedRoot := by
  obtain ⟨journalRoot', hjournal, h⟩ := bind_eq_ok.mp h
  obtain ⟨computedRoot, hcomputed, h⟩ := bind_eq_ok.mp h
  obtain ⟨_, hchecks, h⟩ := bind_eq_ok.mp h
  obtain rfl := Except.ok.inj h
  rw [refuseIf_eq_ok, not_or, not_or, not_not, not_not, not_not] at hchecks
  exact ⟨okOr_eq_ok.mp hjournal, hchecks.2.2, computedRoot, hcomputed, hchecks.2.1⟩

/-- SOUND: an admitted bitmap is a bitmap of the journal's tree under the journal's root. -/
theorem admitted_bitmap_of_journal {record : SuccessfulFinalizationRecord U}
    {value : FinalizationBitmapData} {data : FinalizationBitmapData}
    (h : admitFinalizationBitmapDisposition noble sha256 record (some value) = .ok (some data)) :
    normalizeHex32 record.authority.journal.includedBitmapRoot = some data.includedBitmapRoot ∧
      (Num.ofNat data.includedBitmap.length).eq record.authority.journal.treeSize = true ∧
      ∃ computedRoot, computeIncludedBitmapRoot noble sha256 data.includedBitmap = .ok computedRoot ∧
        normalizeHex32 computedRoot = some data.includedBitmapRoot := by
  obtain ⟨parsed, -, h⟩ := bind_eq_ok.mp h
  obtain ⟨includedRoot, hincluded, h⟩ := bind_eq_ok.mp h
  obtain ⟨seen, -, h⟩ := bind_eq_ok.mp h
  obtain ⟨_, -, h⟩ := bind_eq_ok.mp h
  obtain rfl := Option.some.inj (Except.ok.inj h)
  obtain ⟨root, hroot, h⟩ := bind_eq_ok.mp hincluded
  obtain ⟨_, -, h⟩ := bind_eq_ok.mp h
  obtain rfl := Except.ok.inj h
  exact admitBitmapRoot_eq_ok noble sha256 hroot

end StarkBallot.Application
