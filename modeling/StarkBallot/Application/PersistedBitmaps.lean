import StarkBallot.Application.BitmapAdmission
import StarkBallot.ZkvmContract.JournalValues

/-! Bitmap evidence read back from storage (`application/src/finalize/finalization-bitmap-admission.ts`,
    the bitmap codec of `finalization-storage.ts`). What a store returns is of type `unknown`: any
    object may lack fields, carry others or hold a bitmap that is no array of booleans.

        candidate ──ids are the record's──▶ fields without the ids ──parse──▶ data ──roots are the journal's──▶ record
            ▲                                                                                                    │
            └──────────────────────────── stored with its ids, through JSON or not ──────────────────────────────┘

    Admission leaves one spelling of every root, so a record that was admitted is admitted again as it
    is, however often it goes around (`readings_eq`). The arrays of a value as storage
    gives it have no holes. -/

namespace StarkBallot.Application.BitmapValue
open Schemes ContractCore CryptoPrimitives ZkvmContract Domain Validation
open ZkvmContract.JournalValue (hasOwn)

variable (noble : NobleUtils) (sha256 : List UInt8 → Bytes 32) {U : Type}

/-! ### The codec -/

def isNonArrayObject (value : JsValue) : Bool := isNonNullObject value && !isArray value

def hasOnlyAllowedKeys (value : JsValue) (allowedKeys : List String) : Bool :=
  (objectKeys value).all fun key => (allowedKeys.map js).contains key

def booleanElement : JsValue → Option Bool
  | .boolean bit => some bit
  | _ => none

def getBooleanArrayProperty (value : JsValue) (key : String) : Option (List Bool) :=
  (getArrayProperty value key).bind fun elements => elements.mapM booleanElement

def bitmapDataKeys : List String :=
  ["includedBitmap", "includedBitmapRoot", "seenBitmap", "seenBitmapRoot", "treeSize", "finalizedAtMs"]

/-- The seen bitmap and its root are both there, or neither is. -/
def parseStoredSeenBitmap (value : JsValue) : Option (Option (List Bool × JsString)) :=
  let seenBitmap := getBooleanArrayProperty value "seenBitmap"
  let seenBitmapRoot := getStringProperty value "seenBitmapRoot"
  let hasSeenBitmap := hasOwn value "seenBitmap"
  let hasSeenBitmapRoot := hasOwn value "seenBitmapRoot"
  if hasSeenBitmap ≠ hasSeenBitmapRoot then none
  else if hasSeenBitmap ∧ seenBitmap.isNone then none
  else if hasSeenBitmapRoot ∧ ¬ seenBitmapRoot.any matchesBitmapRootPattern then none
  else
    match seenBitmap, nonEmpty seenBitmapRoot with
    | some seenBitmap, some seenBitmapRoot => some (some (seenBitmap, seenBitmapRoot))
    | _, _ => some none

def parseFinalizationBitmapData (value : JsValue) : Option FinalizationBitmapData :=
  if ¬ isNonNullObject value ∨ ¬ hasOnlyAllowedKeys value bitmapDataKeys then none
  else do
    let includedBitmap ← getBooleanArrayProperty value "includedBitmap"
    let includedBitmapRoot ← (getStringProperty value "includedBitmapRoot").filter
        matchesBitmapRootPattern
    let treeSize ← (getNumberProperty value "treeSize").filter isNonNegativeSafeInteger
    let finalizedAtMs ← (getNumberProperty value "finalizedAtMs").filter isNonNegativeSafeInteger
    let seen ← parseStoredSeenBitmap value
    return ⟨includedBitmap, includedBitmapRoot, seen, treeSize, finalizedAtMs⟩

/-! ### Admission -/

def availableDispositionKeys : List String := ["availability", "data"]

def unavailableDispositionKeys : List String := ["availability"]

/-- Data under the roots of the record's journal, with the spelling of the journal's roots. -/
def admitAvailableBitmap (record : SuccessfulFinalizationRecord U) (data : FinalizationBitmapData) :
    JsM (Option FinalizationBitmapData) := do
  let includedRoot ← admitIncludedBitmapRoot noble sha256 data record.authority.journal
  let seen ← admitSeenBitmapRoot noble sha256 data record.authority.journal
  let admittedData := { data with includedBitmapRoot := includedRoot, seen := seen }
  refuseIf (¬ record.authority.artifacts.bitmap.all fun embedded => sameBitmapData embedded.data
    admittedData) (.error "Successful finalization bitmap evidence does not match its semantic record")
  return some admittedData

/-- An unavailable bitmap is `none`. -/
def admitFinalizationBitmapDisposition (record : SuccessfulFinalizationRecord U) (value : JsValue) :
    JsM (Option FinalizationBitmapData) :=
  if ¬ isNonArrayObject value then .error invalidBitmapEvidence
  else if getStringProperty value "availability" = some (js "unavailable") then do
    refuseIf (¬ hasOnlyAllowedKeys value unavailableDispositionKeys) invalidBitmapEvidence
    admitUnavailableBitmap record
  else do
    refuseIf (getStringProperty value "availability" ≠ some (js "available") ∨
      ¬ hasOnlyAllowedKeys value availableDispositionKeys) invalidBitmapEvidence
    let data ← okOr (parseFinalizationBitmapData (property value "data")) invalidBitmapEvidence
    admitAvailableBitmap noble sha256 record data

structure FinalizationBitmapRecord where
  sessionId : JsString
  finalizationId : JsString
  data : FinalizationBitmapData
  deriving DecidableEq

/-- The rest of the fields once the two identifiers are taken out. -/
def withoutIds : JsValue → JsValue
  | .object fields =>
    .object (fields.filter fun field => field.1 ≠ js "sessionId" ∧ field.1 ≠ js "finalizationId")
  | value => value

def availableDisposition (data : JsValue) : JsValue :=
  .object [(js "availability", .string (js "available")), (js "data", data)]

/-- Whatever is thrown on the way, the candidate is not admitted. -/
def admitPersistedFinalizationBitmapData (record : SuccessfulFinalizationRecord U)
    (candidate : JsValue) :
    Option FinalizationBitmapRecord :=
  if ¬ isNonArrayObject candidate ∨ getStringProperty candidate "sessionId" ≠ some record.sessionId ∨
      getStringProperty candidate "finalizationId" ≠ some record.finalizationId then none
  else
    match admitFinalizationBitmapDisposition noble sha256 record
        (availableDisposition (withoutIds candidate)) with
    | .ok (some data) => some ⟨record.sessionId, record.finalizationId, data⟩
    | _ => none

/-! ### What is stored -/

def seenFields : Option (List Bool × JsString) → List (JsString × JsValue)
  | none => []
  | some (seenBitmap, seenBitmapRoot) =>
    [(js "seenBitmap", .array (seenBitmap.map .boolean)), (js "seenBitmapRoot", .string seenBitmapRoot)]

/-- `{ ...data }`. -/
def dataFields (data : FinalizationBitmapData) : List (JsString × JsValue) :=
  [(js "includedBitmap", .array (data.includedBitmap.map .boolean)),
   (js "includedBitmapRoot", .string data.includedBitmapRoot),
   (js "treeSize", .number data.treeSize),
   (js "finalizedAtMs", .number data.finalizedAtMs)] ++ seenFields data.seen

def dispositionValue : Option FinalizationBitmapData → JsValue
  | none => .object [(js "availability", .string (js "unavailable"))]
  | some data => availableDisposition (.object (dataFields data))

def FinalizationBitmapRecord.toValue (stored : FinalizationBitmapRecord) : JsValue := .object (
  [(js "sessionId", .string stored.sessionId), (js "finalizationId", .string stored.finalizationId)] ++
  dataFields stored.data)

/-- A value as it is, or written as JSON and parsed. -/
def fetched (throughJson : Bool) (value : JsValue) : Option JsValue :=
  if throughJson then value.viaJson.toOption else some value

/-- A record that was stored is read and admitted once more. -/
def readAgain (record : SuccessfulFinalizationRecord U) (stored : FinalizationBitmapRecord)
    (throughJson : Bool) :
    Option FinalizationBitmapRecord :=
  (fetched throughJson stored.toValue).bind (admitPersistedFinalizationBitmapData noble sha256 record)

/-! ### Spellings of a root -/

theorem text_take_ne (b : Bytes 32) : (text b).take 2 ≠ js "0x" := by
  intro htake
  have hmem : 'x' ∈ (text b).take 2 := by
    rw [htake]
    decide
  have hdigit := hexText_isHexDigit b.toList 'x' (List.mem_of_mem_take hmem)
  revert hdigit
  decide

/-- Every spelling of a root is normalized to one text. -/
theorem normalizeHex32_of_spells {value : JsString} {b : Bytes 32} (h : Spells value b.toList) :
    normalizeHex32 value = some (prefixed b) := by
  have hnormalized : normalizeHexString value = text b := normalizeHexString_of_spells h
  rw [normalizeHex32, if_neg (not_not.mpr (isValidHexString_spelling h))]
  simp only [hnormalized]
  rw [if_neg (text_take_ne b)]
  rfl

theorem normalizeHex32_prefixed (b : Bytes 32) : normalizeHex32 (prefixed b) = some (prefixed b) :=
  normalizeHex32_of_spells (prefixed_spells b.toList)

theorem matchesBitmapRootPattern_prefixed (b : Bytes 32) :
    matchesBitmapRootPattern (prefixed b) = true := by
  have hlead : (prefixed b).take 2 = js "0x" := rfl
  have hdigits : (prefixed b).drop 2 = text b := rfl
  have hlength : (text b).length = 64 := by rw [text, hexText_length, b.length_eq]
  have hall : (text b).all isHexDigit = true := List.all_eq_true.mpr (hexText_isHexDigit b.toList)
  simp only [matchesBitmapRootPattern, if_pos hlead, hdigits, hlength, hall, decide_true, Bool.and_self]

/-! ### What is admitted -/

/-- A bitmap with a bit for every vote of the tree, under the root that the journal states. -/
structure Rooted (journalRoot : JsString) (treeSize : Num) (bitmap : List Bool) (root : JsString) :
    Prop where
  stated : normalizeHex32 journalRoot = some root
  length_eq : (Num.ofNat bitmap.length).eq treeSize = true
  computed : root = prefixed (computeBitmapMerkleRoot sha256 bitmap)

/-- SPEC: a bitmap is admitted under its root if and only if it is rooted and states that root itself. -/
theorem admitBitmapRoot_iff {bitmap : List Bool} {root journalRoot admittedRoot : JsString}
    {treeSize : Num} :
    admitBitmapRoot noble sha256 bitmap root journalRoot treeSize = .ok admittedRoot ↔
      Rooted sha256 journalRoot treeSize bitmap admittedRoot ∧
      normalizeHex32 root = some admittedRoot := by
  unfold admitBitmapRoot
  simp only [computeIncludedBitmapRoot_eq, ok_bind, normalizeHex32_prefixed, bind_eq_ok, okOr_eq_ok,
    refuseIf_eq_ok, not_or, not_not, ne_eq, Option.some.injEq]
  constructor
  · rintro ⟨journalRoot', hjournal, _, ⟨hroot, hcomputed, hlength⟩, hreturn⟩
    obtain rfl : journalRoot' = admittedRoot := Except.ok.inj hreturn
    exact ⟨⟨hjournal, hlength, hcomputed.symm⟩, hroot⟩
  · rintro ⟨⟨hjournal, hlength, hcomputed⟩, hroot⟩
    exact ⟨_, hjournal, (), ⟨hroot, hcomputed.symm, hlength⟩, rfl⟩

/-- What holds of data that was admitted to a record: it is the data of the codec, its bitmaps are
    rooted in the journal and evidence that the record carries is the same. -/
structure Admitted (record : SuccessfulFinalizationRecord U) (data : FinalizationBitmapData) : Prop where
  parsed : Application.parseFinalizationBitmapData data = some data
  treeSize_eq : data.treeSize.eq record.authority.journal.treeSize = true
  included : Rooted sha256 record.authority.journal.includedBitmapRoot record.authority.journal.treeSize
    data.includedBitmap data.includedBitmapRoot
  seen : ∀ bitmap root, data.seen = some (bitmap, root) →
    Rooted sha256 record.authority.journal.seenBitmapRoot record.authority.journal.treeSize bitmap root
  embedded :
    (record.authority.artifacts.bitmap.all fun embedded => sameBitmapData embedded.data data) = true

section Admission

variable {noble sha256} {record : SuccessfulFinalizationRecord U}

theorem Rooted.normalized {journalRoot root : JsString} {treeSize : Num} {bitmap : List Bool}
    (h : Rooted sha256 journalRoot treeSize bitmap root) : normalizeHex32 root = some root := by
  rw [h.computed]
  exact normalizeHex32_prefixed _

theorem Rooted.matches {journalRoot root : JsString} {treeSize : Num} {bitmap : List Bool}
    (h : Rooted sha256 journalRoot treeSize bitmap root) : matchesBitmapRootPattern root = true := by
  rw [h.computed]
  exact matchesBitmapRootPattern_prefixed _

/-- The admitted included root. -/
theorem admitIncludedBitmapRoot_iff {data : FinalizationBitmapData} {journal : CurrentZkVMJournal}
    {root : JsString} :
    admitIncludedBitmapRoot noble sha256 data journal = .ok root ↔
      Rooted sha256 journal.includedBitmapRoot journal.treeSize data.includedBitmap root ∧
        normalizeHex32 data.includedBitmapRoot = some root ∧
        data.treeSize.eq journal.treeSize = true := by
  unfold admitIncludedBitmapRoot
  simp only [bind_eq_ok, refuseIf_eq_ok, not_not]
  constructor
  · rintro ⟨root', hroot, _, hsize, hreturn⟩
    obtain rfl : root' = root := Except.ok.inj hreturn
    obtain ⟨hrooted, hnormalized⟩ := (admitBitmapRoot_iff noble sha256).mp hroot
    exact ⟨hrooted, hnormalized, hsize⟩
  · rintro ⟨hrooted, hnormalized, hsize⟩
    exact ⟨root, (admitBitmapRoot_iff noble sha256).mpr ⟨hrooted, hnormalized⟩, (), hsize, rfl⟩

/-- An admitted seen bitmap is the one of the data, rooted in the journal. -/
theorem admitSeenBitmapRoot_rooted {data : FinalizationBitmapData} {journal : CurrentZkVMJournal}
    {seen : Option (List Bool × JsString)}
    (h : admitSeenBitmapRoot noble sha256 data journal = .ok seen) :
    ∀ bitmap root, seen = some (bitmap, root) →
      Rooted sha256 journal.seenBitmapRoot journal.treeSize bitmap root := by
  rintro bitmap root rfl
  unfold admitSeenBitmapRoot at h
  cases hseen : data.seen with
  | none =>
    rw [hseen] at h
    cases h
  | some entry =>
    obtain ⟨seenBitmap, seenBitmapRoot⟩ := entry
    rw [hseen] at h
    obtain ⟨seenRoot, hroot, h⟩ := bind_eq_ok.mp h
    obtain ⟨rfl, rfl⟩ := Prod.mk.inj (Option.some.inj (Except.ok.inj h))
    exact ((admitBitmapRoot_iff noble sha256).mp hroot).1

/-- SOUND: available data that is returned was admitted. -/
theorem admitted_of_admitAvailableBitmap {data : FinalizationBitmapData}
    {disposition : Option FinalizationBitmapData}
    (hparsed : Application.parseFinalizationBitmapData data = some data)
    (h : admitAvailableBitmap noble sha256 record data = .ok disposition) :
    ∃ admitted, disposition = some admitted ∧ Admitted sha256 record admitted := by
  obtain ⟨includedRoot, hincluded, h⟩ := bind_eq_ok.mp h
  obtain ⟨seen, hseen, h⟩ := bind_eq_ok.mp h
  obtain ⟨_, hembedded, h⟩ := bind_eq_ok.mp h
  obtain ⟨hrooted, -, hsize⟩ := admitIncludedBitmapRoot_iff.mp hincluded
  have hseens := admitSeenBitmapRoot_rooted hseen
  refine ⟨_, (Except.ok.inj h).symm,
    ⟨?_, hsize, hrooted, hseens, not_not.mp (refuseIf_eq_ok.mp hembedded)⟩⟩
  obtain ⟨hchecks, -⟩ := accept_eq_some.mp hparsed
  simp only [Bool.and_eq_true] at hchecks
  refine accept_eq_some.mpr ⟨?_, rfl⟩
  simp only [Bool.and_eq_true]
  refine ⟨⟨⟨hrooted.matches, hchecks.1.1.2⟩, hchecks.1.2⟩, ?_⟩
  rcases seen with _ | ⟨bitmap, root⟩
  · rfl
  · exact (hseens bitmap root rfl).matches

/-- STABLE: admitted data is returned as it is. -/
theorem Admitted.again {data : FinalizationBitmapData} (h : Admitted sha256 record data) :
    admitAvailableBitmap noble sha256 record data = .ok (some data) := by
  have hincluded :
      admitIncludedBitmapRoot noble sha256 data record.authority.journal = .ok data.includedBitmapRoot :=
    admitIncludedBitmapRoot_iff.mpr ⟨h.included, h.included.normalized, h.treeSize_eq⟩
  have hseen : admitSeenBitmapRoot noble sha256 data record.authority.journal = .ok data.seen := by
    unfold admitSeenBitmapRoot
    cases hdata : data.seen with
    | none => rfl
    | some entry =>
      obtain ⟨bitmap, root⟩ := entry
      have hrooted := h.seen bitmap root hdata
      simp only [(admitBitmapRoot_iff noble sha256).mpr ⟨hrooted, hrooted.normalized⟩]
      rfl
  rw [admitAvailableBitmap, hincluded, ok_bind, hseen, ok_bind]
  exact bind_eq_ok.mpr ⟨(), refuseIf_of_not (not_not.mpr h.embedded), rfl⟩

/-! ### Reading back -/

theorem mapM_booleanElement (bits : List Bool) :
    (bits.map JsValue.boolean).mapM booleanElement = some bits := by
  induction bits with
  | nil => rfl
  | cons bit bits ih =>
    rw [List.map_cons, List.mapM_cons, ih]
    rfl

theorem areJson_bits (bits : List Bool) : JsValue.areJson (bits.map JsValue.boolean) = true := by
  induction bits with
  | nil => rfl
  | cons bit bits ih =>
    rw [List.map_cons, JsValue.areJson, ih]
    rfl

theorem parseStoredSeenBitmap_dataFields (data : FinalizationBitmapData) :
    parseStoredSeenBitmap (.object (dataFields data)) =
      if data.seen.all fun seen => matchesBitmapRootPattern seen.2 then some data.seen else none := by
  rcases hseen : data.seen with _ | ⟨bitmap, root⟩
  · rw [dataFields, hseen]
    rfl
  have hbitmap : getBooleanArrayProperty (.object (dataFields data)) "seenBitmap" = some bitmap := by
    rw [dataFields, hseen]
    exact mapM_booleanElement bitmap
  have hroot : getStringProperty (.object (dataFields data)) "seenBitmapRoot" = some root := by
    rw [dataFields, hseen]
    rfl
  have hown : hasOwn (.object (dataFields data)) "seenBitmap" = true ∧
      hasOwn (.object (dataFields data)) "seenBitmapRoot" = true := by
    rw [dataFields, hseen]
    exact ⟨rfl, rfl⟩
  simp only [parseStoredSeenBitmap, hbitmap, hroot, hown.1, hown.2, Option.isNone_some, Option.any_some,
    Option.all_some, ne_eq, not_true_eq_false, if_false, true_and, Bool.false_eq_true, and_false]
  by_cases hmatches : matchesBitmapRootPattern root = true
  · have hne : root ≠ [] := by
      rintro rfl
      revert hmatches
      decide
    rw [if_neg (not_not.mpr hmatches), if_pos hmatches, nonEmpty, Option.filter_some,
      if_pos (by simpa using hne)]
  · rw [if_pos hmatches, if_neg hmatches]

/-- SPEC: on the fields of data, the parser makes the checks of the codec. -/
theorem parseFinalizationBitmapData_dataFields (data : FinalizationBitmapData) :
    parseFinalizationBitmapData (.object (dataFields data)) =
      Application.parseFinalizationBitmapData data := by
  have hkeys : hasOnlyAllowedKeys (.object (dataFields data)) bitmapDataKeys = true := by
    rcases hseen : data.seen with _ | seen
    · rw [dataFields, hseen]
      rfl
    · rw [dataFields, hseen]
      rfl
  have hbitmap :
      getBooleanArrayProperty (.object (dataFields data)) "includedBitmap" = some data.includedBitmap :=
    mapM_booleanElement data.includedBitmap
  have hroot :
      getStringProperty (.object (dataFields data)) "includedBitmapRoot" =
        some data.includedBitmapRoot := rfl
  have hnumber : ∀ key value, property (.object (dataFields data)) key = .number value →
      (getNumberProperty (.object (dataFields data)) key).filter isNonNegativeSafeInteger =
        if isNonNegativeSafeInteger value then some value else none := by
    intro key value hvalue
    rw [getNumberProperty, hvalue]
    cases value with
    | nan => rfl
    | infinity _ => rfl
    | finite value => rfl
  have hobject : isNonNullObject (.object (dataFields data)) = true := rfl
  rw [parseFinalizationBitmapData,
    if_neg (by simp only [hobject, hkeys, not_true_eq_false, or_self, not_false_eq_true]),
    hbitmap, hroot, hnumber "treeSize" data.treeSize rfl, hnumber "finalizedAtMs" data.finalizedAtMs rfl,
    parseStoredSeenBitmap_dataFields, Option.filter_some,
    Application.parseFinalizationBitmapData, accept]
  cases matchesBitmapRootPattern data.includedBitmapRoot
  · rfl
  cases isNonNegativeSafeInteger data.treeSize
  · rfl
  cases isNonNegativeSafeInteger data.finalizedAtMs
  · rfl
  cases data.seen.all fun seen => matchesBitmapRootPattern seen.2
  · rfl
  · rfl

theorem withoutIds_toValue (stored : FinalizationBitmapRecord) :
    withoutIds stored.toValue = .object (dataFields stored.data) := by
  rcases hseen : stored.data.seen with _ | seen
  · rw [FinalizationBitmapRecord.toValue, dataFields, hseen]
    rfl
  · rw [FinalizationBitmapRecord.toValue, dataFields, hseen]
    rfl

theorem isFinite_of_nonNegativeSafeInteger {value : Num} (h : isNonNegativeSafeInteger value = true) :
    value.isFinite = true := by
  cases value with
  | nan => cases h
  | infinity _ => cases h
  | finite _ => rfl

/-- Data of the codec is data that JSON has. -/
theorem areJsonFields_dataFields {data : FinalizationBitmapData}
    (h : Application.parseFinalizationBitmapData data = some data) :
    JsValue.areJsonFields (dataFields data) = true := by
  obtain ⟨hchecks, -⟩ := accept_eq_some.mp h
  simp only [Bool.and_eq_true] at hchecks
  have htreeSize := isFinite_of_nonNegativeSafeInteger hchecks.1.1.2
  have hfinalizedAtMs := isFinite_of_nonNegativeSafeInteger hchecks.1.2
  rcases hseen : data.seen with _ | ⟨bitmap, root⟩
  · simp only [dataFields, hseen, seenFields, List.append_nil, JsValue.areJsonFields, JsValue.isJson,
      areJson_bits, htreeSize, hfinalizedAtMs, Bool.and_self]
  · simp only [dataFields, hseen, seenFields, List.cons_append, List.nil_append, JsValue.areJsonFields,
      JsValue.isJson, areJson_bits, htreeSize, hfinalizedAtMs, Bool.and_self]

theorem fetched_of_isJson {value : JsValue} (h : value.isJson = true) (throughJson : Bool) :
    fetched throughJson value = some value := by
  cases throughJson with
  | false => rfl
  | true =>
    rw [fetched, if_pos rfl, JsValue.viaJson_of_isJson h]
    rfl

/-- SPEC: an available disposition is its data parsed and admitted. -/
theorem admit_availableDisposition (value : JsValue) :
    admitFinalizationBitmapDisposition noble sha256 record (availableDisposition value) =
      okOr (parseFinalizationBitmapData value) invalidBitmapEvidence >>=
        admitAvailableBitmap noble sha256 record := by
  have hobject : isNonArrayObject (availableDisposition value) = true := rfl
  have havailability :
      getStringProperty (availableDisposition value) "availability" = some (js "available") := rfl
  have hkeys : hasOnlyAllowedKeys (availableDisposition value) availableDispositionKeys = true := rfl
  have hdata : property (availableDisposition value) "data" = value := rfl
  have hdiffer : ¬ some (js "available") = some (js "unavailable") := by decide
  rw [admitFinalizationBitmapDisposition, if_neg (not_not.mpr hobject), havailability, if_neg hdiffer,
    hkeys, hdata, refuseIf_of_not (by simp), ok_bind]

/-- A text that was read is a property of the value itself. -/
theorem hasOwn_of_getStringProperty {value : JsValue} {key : String} {read : JsString}
    (h : getStringProperty value key = some read) : hasOwn value key = true := by
  cases value with
  | object fields =>
    have hsome : (fields.lookup (js key)).isSome = true := by
      cases hfield : fields.lookup (js key) with
      | none =>
        rw [getStringProperty, property, hfield] at h
        cases h
      | some field => rfl
    rw [hasOwn, List.contains_iff_mem]
    exact lookup_isSome_iff_mem.mp hsome
  | _ => cases h

theorem parseStoredSeenBitmap_matches {value : JsValue} {seen : Option (List Bool × JsString)}
    (h : parseStoredSeenBitmap value = some seen) :
    (seen.all fun seen => matchesBitmapRootPattern seen.2) = true := by
  simp only [parseStoredSeenBitmap] at h
  split at h
  · cases h
  split at h
  · cases h
  split at h
  · cases h
  rename_i hroot
  split at h
  · rename_i bitmap root hbitmap hnonEmpty
    obtain rfl := Option.some.inj h
    obtain ⟨hread, -⟩ := Option.filter_eq_some_iff.mp hnonEmpty
    rw [hread, hasOwn_of_getStringProperty hread] at hroot
    exact not_not.mp fun hno => hroot ⟨rfl, hno⟩
  · obtain rfl := Option.some.inj h
    rfl

/-- The checks of the parser are the checks of the codec. -/
theorem parsed_of_parseFinalizationBitmapData {value : JsValue} {data : FinalizationBitmapData}
    (h : parseFinalizationBitmapData value = some data) :
    Application.parseFinalizationBitmapData data = some data := by
  unfold parseFinalizationBitmapData at h
  split at h
  · cases h
  obtain ⟨includedBitmap, -, h⟩ := Option.bind_eq_some_iff.mp h
  obtain ⟨includedBitmapRoot, hroot, h⟩ := Option.bind_eq_some_iff.mp h
  obtain ⟨treeSize, htreeSize, h⟩ := Option.bind_eq_some_iff.mp h
  obtain ⟨finalizedAtMs, hfinalizedAtMs, h⟩ := Option.bind_eq_some_iff.mp h
  obtain ⟨seen, hseen, h⟩ := Option.bind_eq_some_iff.mp h
  obtain rfl := Option.some.inj h
  refine accept_eq_some.mpr ⟨?_, rfl⟩
  simp only [Bool.and_eq_true]
  exact ⟨⟨⟨(Option.filter_eq_some_iff.mp hroot).2, (Option.filter_eq_some_iff.mp htreeSize).2⟩,
    (Option.filter_eq_some_iff.mp hfinalizedAtMs).2⟩, parseStoredSeenBitmap_matches hseen⟩

/-- SOUND: what is returned as available was admitted. -/
theorem admitted_of_disposition {value : JsValue} {data : FinalizationBitmapData}
    (h : admitFinalizationBitmapDisposition noble sha256 record value = .ok (some data)) :
    Admitted sha256 record data := by
  unfold admitFinalizationBitmapDisposition at h
  split at h
  · cases h
  split at h
  · obtain ⟨_, -, h⟩ := bind_eq_ok.mp h
    obtain ⟨_, -, h⟩ := bind_eq_ok.mp h
    cases h
  · obtain ⟨_, -, h⟩ := bind_eq_ok.mp h
    obtain ⟨parsed, hparsed, h⟩ := bind_eq_ok.mp h
    obtain ⟨admitted, hadmitted, h⟩ := admitted_of_admitAvailableBitmap
      (parsed_of_parseFinalizationBitmapData (okOr_eq_ok.mp hparsed)) h
    obtain rfl := Option.some.inj hadmitted
    exact h

/-- An unavailable bitmap is returned if the record carries none. -/
theorem embedded_of_unavailable {value : JsValue}
    (h : admitFinalizationBitmapDisposition noble sha256 record value = .ok none) :
    admitUnavailableBitmap record = .ok none := by
  unfold admitFinalizationBitmapDisposition at h
  split at h
  · cases h
  split at h
  · obtain ⟨_, -, h⟩ := bind_eq_ok.mp h
    exact h
  · obtain ⟨_, -, h⟩ := bind_eq_ok.mp h
    obtain ⟨parsed, hparsed, h⟩ := bind_eq_ok.mp h
    obtain ⟨admitted, hadmitted, h⟩ := admitted_of_admitAvailableBitmap
      (parsed_of_parseFinalizationBitmapData (okOr_eq_ok.mp hparsed)) h
    cases hadmitted

/-- READ BACK: admitted data is admitted again, out of the disposition that carries it. -/
theorem Admitted.disposition_again {data : FinalizationBitmapData} (h : Admitted sha256 record data) :
    admitFinalizationBitmapDisposition noble sha256 record (dispositionValue (some data)) =
      .ok (some data) := by
  rw [dispositionValue, admit_availableDisposition, parseFinalizationBitmapData_dataFields, h.parsed]
  exact h.again

/-- READ BACK: a disposition that was admitted is admitted again, from JSON or as it is. -/
theorem disposition_again {value : JsValue} {disposition : Option FinalizationBitmapData}
    (h : admitFinalizationBitmapDisposition noble sha256 record value = .ok disposition)
    (throughJson : Bool) :
    (fetched throughJson (dispositionValue disposition)).map
      (admitFinalizationBitmapDisposition noble sha256 record) = some (.ok disposition) := by
  cases disposition with
  | none =>
    rw [fetched_of_isJson rfl, Option.map_some, ← embedded_of_unavailable h]
    rfl
  | some data =>
    have hadmitted := admitted_of_disposition h
    have hjson : (dispositionValue (some data)).isJson = true := by
      rw [dispositionValue, availableDisposition]
      simp only [JsValue.isJson, JsValue.areJsonFields, areJsonFields_dataFields hadmitted.parsed,
        Bool.and_self]
    rw [fetched_of_isJson hjson, Option.map_some, hadmitted.disposition_again]

/-- READ BACK: a record that was stored is admitted again as it is. -/
theorem Admitted.persisted_again {data : FinalizationBitmapData} (h : Admitted sha256 record data) :
    admitPersistedFinalizationBitmapData noble sha256 record
      (FinalizationBitmapRecord.toValue ⟨record.sessionId, record.finalizationId, data⟩) =
      some ⟨record.sessionId, record.finalizationId, data⟩ := by
  have hobject : isNonArrayObject (FinalizationBitmapRecord.toValue
    ⟨record.sessionId, record.finalizationId, data⟩) = true := rfl
  have hsession : getStringProperty (FinalizationBitmapRecord.toValue
    ⟨record.sessionId, record.finalizationId, data⟩) "sessionId" = some record.sessionId := rfl
  have hfinalization : getStringProperty (FinalizationBitmapRecord.toValue
    ⟨record.sessionId, record.finalizationId, data⟩) "finalizationId" = some record.finalizationId := rfl
  have hagain : admitFinalizationBitmapDisposition noble sha256 record
    (availableDisposition (.object (dataFields data))) = .ok (some data) := h.disposition_again
  rw [admitPersistedFinalizationBitmapData, hobject, hsession, hfinalization, if_neg (by simp),
    withoutIds_toValue, hagain]

theorem Admitted.readAgain_eq {data : FinalizationBitmapData} (h : Admitted sha256 record data)
    (throughJson : Bool) :
    readAgain noble sha256 record ⟨record.sessionId, record.finalizationId, data⟩ throughJson =
      some ⟨record.sessionId, record.finalizationId, data⟩ := by
  have hjson :
      (FinalizationBitmapRecord.toValue ⟨record.sessionId, record.finalizationId, data⟩).isJson =
        true := by
    rw [FinalizationBitmapRecord.toValue]
    simp only [List.cons_append, List.nil_append, JsValue.isJson, JsValue.areJsonFields,
      areJsonFields_dataFields h.parsed, Bool.and_self]
  rw [readAgain, fetched_of_isJson hjson, Option.bind_some, h.persisted_again]

/-- RUN: however often a record goes around, it comes back as it is. -/
theorem Admitted.readings_eq {data : FinalizationBitmapData} (h : Admitted sha256 record data)
    (trips : List Bool) :
    trips.foldlM (readAgain noble sha256 record) ⟨record.sessionId, record.finalizationId, data⟩ =
      some ⟨record.sessionId, record.finalizationId, data⟩ := by
  induction trips with
  | nil => rfl
  | cons throughJson trips ih =>
    rw [List.foldlM_cons, h.readAgain_eq throughJson]
    exact ih

/-- SOUND: a candidate that is admitted has the identifiers of the record, and its data was admitted. -/
theorem admitted_of_persisted {candidate : JsValue} {stored : FinalizationBitmapRecord}
    (h : admitPersistedFinalizationBitmapData noble sha256 record candidate = some stored) :
    stored.sessionId = record.sessionId ∧ stored.finalizationId = record.finalizationId ∧
      Admitted sha256 record stored.data := by
  unfold admitPersistedFinalizationBitmapData at h
  split at h
  · cases h
  split at h
  · rename_i data hdata
    obtain rfl := Option.some.inj h
    exact ⟨rfl, rfl, admitted_of_disposition hdata⟩
  · cases h

end Admission

end StarkBallot.Application.BitmapValue
