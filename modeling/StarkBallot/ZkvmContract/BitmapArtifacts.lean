import StarkBallot.Application.PersistedBitmaps
import StarkBallot.Host.ExactBitmaps
import StarkBallot.ZkvmContract.HostOutput

/-! The bitmap files of a run, from the host that writes them to the callers that read them
    (`zkvm-contract/src/zkvm/bitmap-artifacts.ts`, `JsonIncludedBitmapArtifact` and
    `JsonSeenBitmapArtifact` of `host/src/main.rs`, the readers in `finalize-sync.ts` and
    `async-prover-artifacts.ts`):

        host loop ──root is the journal's──▶ file ──keys, schema, root──▶ artifact ──▶ bitmap data of the result
                                                                                  sync │ async: the same

    The files of an accepted run are read as they were written. -/

namespace StarkBallot.ZkvmContract.BitmapArtifacts
open Schemes ContractCore CryptoPrimitives Domain Validation Guest
open Application (FinalizationBitmapData CurrentZkVMJournal addHexPrefix)
open Application.BitmapValue (getBooleanArrayProperty mapM_booleanElement)

variable (noble : NobleUtils) (sha256 : List UInt8 → Bytes 32)

/-! ### Artifacts -/

/-- The two kinds of artifact differ in these texts alone. -/
structure ArtifactKind where
  schema : String
  rootKey : String
  bitmapKey : String
  label : String

def includedKind : ArtifactKind :=
  ⟨Host.includedBitmapArtifactSchema, "includedBitmapRoot", "includedBitmap", "included"⟩

def seenKind : ArtifactKind := ⟨Host.seenBitmapArtifactSchema, "seenBitmapRoot", "seenBitmap", "seen"⟩

def ArtifactKind.keys (kind : ArtifactKind) : List String :=
  ["schema", "version", "treeSize", kind.rootKey, kind.bitmapKey]

structure BitmapArtifact where
  treeSize : Num
  root : JsString
  bitmap : List Bool
  deriving DecidableEq

def normalizeBitmapRoot (root : JsString) : JsString := js "0x" ++ normalizeHexString root

def hasExactKeys (value : JsValue) (expected : List String) : Bool :=
  (objectKeys value).length = expected.length && (objectKeys value).all fun key =>
    (expected.map js).contains key

def validateBitmapArtifact (bitmap : List Bool) (root : JsString) (treeSize : Num) (label : String) :
    JsM JsString := do
  refuseIf (¬ treeSize.isSafeInteger ∨ treeSize.lt (.ofNat 0))
    (.error s!"Invalid treeSize for {label} bitmap artifact")
  refuseIf (¬ (Num.ofNat bitmap.length).eq treeSize)
    (.error s!"{label} bitmap length must match treeSize")
  let normalizedRoot := normalizeBitmapRoot root
  refuseIf (¬ isValidHexString normalizedRoot (some 32))
    (.error s!"Invalid {label}BitmapRoot for {label} bitmap artifact")
  let computedRoot ← computeIncludedBitmapRoot noble sha256 bitmap
  refuseIf (normalizeHexString computedRoot ≠ normalizeHexString normalizedRoot)
    (.error s!"{label} bitmap root mismatch")
  return normalizedRoot

def createBitmapArtifact (kind : ArtifactKind) (bitmap : List Bool) (root : JsString) (treeSize : Num) :
    JsM BitmapArtifact := do
  return ⟨treeSize, ← validateBitmapArtifact noble sha256 bitmap root treeSize kind.label, bitmap⟩

/-- The root is checked when it is read and once more when the artifact is made. -/
def parseBitmapArtifact (kind : ArtifactKind) (value : JsValue) : Option BitmapArtifact :=
  if !isNonNullObject value || !hasExactKeys value kind.keys then none
  else if getStringProperty value "schema" ≠ some (js kind.schema) ∨
      getStringProperty value "version" ≠ some (js Host.bitmapArtifactVersion) then none
  else
    match property value "treeSize", property value kind.rootKey,
        getBooleanArrayProperty value kind.bitmapKey with
    | .number treeSize, .string root, some bitmap =>
      (do
        let root ← validateBitmapArtifact noble sha256 bitmap root treeSize kind.label
        createBitmapArtifact noble sha256 kind bitmap root treeSize).toOption
    | _, _, _ => none

def parseIncludedBitmapArtifact := parseBitmapArtifact noble sha256 includedKind

def parseSeenBitmapArtifact := parseBitmapArtifact noble sha256 seenKind

/-! ### Files -/

/-- What `JSON.parse` reads of the text that the host writes. -/
def artifactJson (kind : ArtifactKind) (artifact : Host.BitmapArtifact) : JsValue := .object
  [(js "schema", .string (js artifact.schema)),
   (js "version", .string (js artifact.version)),
   (js "treeSize", .number (.ofNat artifact.treeSize.toNat)),
   (js kind.rootKey, .string (prefixed artifact.root)),
   (js kind.bitmapKey, .array (artifact.bitmap.map .boolean))]

/-- The included and the seen file beside an input; either may be missing. -/
structure BitmapFiles where
  included : Option JsValue
  seen : Option JsValue

/-- What the host leaves of a run. -/
def bitmapFiles (input : AggregatorInput) (output : VerificationOutput) : RustM BitmapFiles := do
  let (seen, included) ← Host.bitmapArtifacts sha256 input output
  return ⟨included.map (artifactJson includedKind), seen.map (artifactJson seenKind)⟩

/-! ### The data of a result -/

/-- `params.zkvmResult.includedBitmap` of the synchronous executor: the bitmap of a file that is read. -/
def readOptionalBitmap (kind : ArtifactKind) (file : Option JsValue) : Option (List Bool) :=
  (file.bind (parseBitmapArtifact noble sha256 kind)).map (·.bitmap)

namespace FinalizeSync

def buildSeenBitmapData (seenBitmap : Option (List Bool)) (seenBitmapRoot : JsString) :
    JsM (Option (List Bool × JsString)) :=
  match seenBitmap with
  | none => .ok none
  | some seenBitmap =>
    if seenBitmapRoot = [] then .ok none
    else do
      let normalizedSeenRoot := addHexPrefix (normalizeHexString seenBitmapRoot)
      let computedSeenRoot ← computeIncludedBitmapRoot noble sha256 seenBitmap
      if normalizeHexString computedSeenRoot ≠ normalizeHexString normalizedSeenRoot then return none
      else return some (seenBitmap, normalizedSeenRoot)

/-- An unavailable disposition is `none`. -/
def buildBitmapData (result : CurrentZkVMJournal) (includedBitmap seenBitmap : Option (List Bool))
    (now : Num) :
    JsM (Option FinalizationBitmapData) :=
  match includedBitmap with
  | none => .ok none
  | some includedBitmap => do
    let normalizedRoot := addHexPrefix (normalizeHexString result.includedBitmapRoot)
    let computedRoot ← computeIncludedBitmapRoot noble sha256 includedBitmap
    if normalizeHexString computedRoot ≠ normalizeHexString normalizedRoot then return none
    else
      let seen ← buildSeenBitmapData noble sha256 seenBitmap result.seenBitmapRoot
      return some ⟨includedBitmap, normalizedRoot, seen, result.treeSize, now⟩

end FinalizeSync

namespace AsyncProver

def buildBitmapData (included seen : Option BitmapArtifact) (finalizedAtMs : Num) :
    Option FinalizationBitmapData :=
  included.map fun included =>
    ⟨included.bitmap, included.root, seen.map fun seen => (seen.bitmap, seen.root), included.treeSize,
      finalizedAtMs⟩

end AsyncProver

/-! ### What is read -/

section Reading

variable {noble sha256} {kind : ArtifactKind} {bitmap : List Bool} {root : JsString} {treeSize : Num}
    {label : String}

theorem normalizeBitmapRoot_prefixed (b : Bytes 32) : normalizeBitmapRoot (prefixed b) = prefixed b := by
  have hspelled : normalizeHexString (prefixed b) = text b :=
    normalizeHexString_of_spells (prefixed_spells b.toList)
  rw [normalizeBitmapRoot, hspelled]
  rfl

theorem validateBitmapArtifact_own (hsafe : bitmap.length ≤ Num.maxSafeInteger) :
    validateBitmapArtifact noble sha256 bitmap (prefixed (computeBitmapMerkleRoot sha256 bitmap))
      (.ofNat bitmap.length) label = .ok (prefixed (computeBitmapMerkleRoot sha256 bitmap)) := by
  have hsize :
      ¬ (¬ (Num.ofNat bitmap.length).isSafeInteger = true ∨
        (Num.ofNat bitmap.length).lt (.ofNat 0) = true) := by
    simp [Num.ofNat_isSafeInteger.mpr hsafe]
  have hvalid : isValidHexString (prefixed (computeBitmapMerkleRoot sha256 bitmap)) (some 32) = true :=
    isValidHexString_spelling (prefixed_spells _)
  rw [validateBitmapArtifact, refuseIf_of_not hsize, ok_bind, refuseIf_of_not (by simp), ok_bind]
  simp only [normalizeBitmapRoot_prefixed, computeIncludedBitmapRoot_eq, ok_bind]
  rw [refuseIf_of_not (not_not.mpr hvalid), ok_bind, refuseIf_of_not (by simp)]
  rfl

theorem parseBitmapArtifact_json {artifact : Host.BitmapArtifact}
    (hkind : kind = includedKind ∨ kind = seenKind) (hschema : artifact.schema = kind.schema)
    (hversion : artifact.version = Host.bitmapArtifactVersion)
    (hsize : artifact.treeSize.toNat = artifact.bitmap.length)
    (hroot : artifact.root = computeBitmapMerkleRoot sha256 artifact.bitmap) :
    parseBitmapArtifact noble sha256 kind (artifactJson kind artifact) =
      some ⟨.ofNat artifact.bitmap.length, prefixed artifact.root, artifact.bitmap⟩ := by
  have hsafe : artifact.bitmap.length ≤ Num.maxSafeInteger := by
    have hlt := artifact.treeSize.toNat_lt
    rw [hsize] at hlt
    exact hlt.le.trans (by decide)
  have hvalid := @validateBitmapArtifact_own noble sha256 artifact.bitmap kind.label hsafe
  have hkeys : hasExactKeys (artifactJson kind artifact) kind.keys = true := by
    have hread : objectKeys (artifactJson kind artifact) = kind.keys.map js := rfl
    rw [hasExactKeys, hread]
    obtain rfl | rfl := hkind
    · decide
    · decide
  have hfields : property (artifactJson kind artifact) "schema" = .string (js artifact.schema) ∧
      property (artifactJson kind artifact) "version" = .string (js artifact.version) ∧
      property (artifactJson kind artifact) "treeSize" = .number (.ofNat artifact.treeSize.toNat) ∧
      property (artifactJson kind artifact) kind.rootKey = .string (prefixed artifact.root) ∧
      property (artifactJson kind artifact) kind.bitmapKey = .array (artifact.bitmap.map .boolean) := by
    obtain rfl | rfl := hkind
    · exact ⟨rfl, rfl, rfl, rfl, rfl⟩
    · exact ⟨rfl, rfl, rfl, rfl, rfl⟩
  obtain ⟨hschemaField, hversionField, hsizeField, hrootField, hbitmapField⟩ := hfields
  have hbitmap :
      getBooleanArrayProperty (artifactJson kind artifact) kind.bitmapKey = some artifact.bitmap := by
    rw [getBooleanArrayProperty, getArrayProperty, hbitmapField]
    exact mapM_booleanElement artifact.bitmap
  have hobject : isNonNullObject (artifactJson kind artifact) = true := rfl
  rw [parseBitmapArtifact, hobject, hkeys, if_neg (by decide), if_neg]
  · rw [hsizeField, hrootField, hbitmap, hsize, hroot]
    simp only [createBitmapArtifact, hvalid, ok_bind]
    rfl
  · rw [getStringProperty, getStringProperty, hschemaField, hversionField, hschema, hversion]
    simp

end Reading

/-! ### The bitmaps of a run -/

/-- The bitmap of presented slots. -/
def seenBitmapOf (input : AggregatorInput) : List Bool :=
  marks input.treeSize.toNat (seenSlots (ballotLog sha256 input))

def runBitmapData (input : AggregatorInput) (finalizedAtMs : Num) : FinalizationBitmapData where
  includedBitmap := includedBitmapOf sha256 input
  includedBitmapRoot := prefixed (computeBitmapMerkleRoot sha256 (includedBitmapOf sha256 input))
  seen := some
    (seenBitmapOf sha256 input, prefixed (computeBitmapMerkleRoot sha256 (seenBitmapOf sha256 input)))
  treeSize := .ofNat input.treeSize.toNat
  finalizedAtMs := finalizedAtMs

variable {sha256} {input : AggregatorInput} {inspection : GuestTallyInspection}

theorem roots_of_run (hrun : verifyAndTallyChecked sha256 input = .ok inspection) :
    inspection.output.treeSize = input.treeSize.toNat ∧
      inspection.output.seenBitmapRoot = computeBitmapMerkleRoot sha256 (seenBitmapOf sha256 input) ∧
      inspection.output.includedBitmapRoot = computeBitmapMerkleRoot sha256
        (includedBitmapOf sha256 input) := by
  obtain ⟨_, digest, -, -, -, rfl⟩ := verifyAndTallyChecked_ok sha256 hrun
  exact ⟨rfl, rfl, rfl⟩

/-- The artifact of a bitmap of a run. -/
def runArtifact (sha256 : List UInt8 → Bytes 32) (schema : String) (input : AggregatorInput)
    (bitmap : List Bool) :
    Host.BitmapArtifact :=
  ⟨schema, Host.bitmapArtifactVersion, input.treeSize, computeBitmapMerkleRoot sha256 bitmap, bitmap⟩

/-- SPEC: both files of an accepted run are written, and are read as its bitmaps. -/
theorem bitmapFiles_of_run (hrun : verifyAndTallyChecked sha256 input = .ok inspection) :
    ∃ files, bitmapFiles sha256 input inspection.output = .ok files ∧
      files.included.bind (parseIncludedBitmapArtifact noble sha256) = some ⟨.ofNat input.treeSize.toNat,
        prefixed (computeBitmapMerkleRoot sha256 (includedBitmapOf sha256 input)),
        includedBitmapOf sha256 input⟩ ∧
      files.seen.bind (parseSeenBitmapArtifact noble sha256) = some ⟨.ofNat input.treeSize.toNat,
        prefixed (computeBitmapMerkleRoot sha256 (seenBitmapOf sha256 input)),
        seenBitmapOf sha256 input⟩ := by
  obtain ⟨-, hseen, hincluded⟩ := roots_of_run hrun
  have hbuild := Host.buildExactBitmaps_eq sha256 input
  have hincludedLength :
      (includedBitmapOf sha256 input).length = input.treeSize.toNat := by simp [includedBitmapOf]
  have hseenLength : (seenBitmapOf sha256 input).length = input.treeSize.toNat := by simp [seenBitmapOf]
  refine ⟨⟨some (artifactJson includedKind
      (runArtifact sha256 Host.includedBitmapArtifactSchema input (includedBitmapOf sha256 input))),
    some (artifactJson seenKind
      (runArtifact sha256 Host.seenBitmapArtifactSchema input (seenBitmapOf sha256 input)))⟩, ?_, ?_, ?_⟩
  · rw [bitmapFiles, Host.bitmapArtifacts, hbuild, hseen, hincluded]
    simp only [ok_bind, Host.bitmapArtifact, seenBitmapOf, includedBitmapOf, if_true]
    rfl
  · have hread := @parseBitmapArtifact_json noble sha256 includedKind
      (runArtifact sha256 Host.includedBitmapArtifactSchema input (includedBitmapOf sha256 input))
      (.inl rfl) rfl rfl hincludedLength.symm rfl
    rw [← hincludedLength]
    exact hread
  · have hread := @parseBitmapArtifact_json noble sha256 seenKind
      (runArtifact sha256 Host.seenBitmapArtifactSchema input (seenBitmapOf sha256 input))
      (.inr rfl) rfl rfl hseenLength.symm rfl
    rw [← hseenLength]
    exact hread

theorem addHexPrefix_prefixed (b : Bytes 32) :
    addHexPrefix (normalizeHexString (prefixed b)) = prefixed b := by
  rw [normalizeHexString_prefixed]
  exact Application.addHexPrefix_of_spells (text_spells b)

theorem buildSeenBitmapData_own (bitmap : List Bool) :
    FinalizeSync.buildSeenBitmapData noble sha256 (some bitmap)
      (prefixed (computeBitmapMerkleRoot sha256 bitmap)) =
        .ok (some (bitmap, prefixed (computeBitmapMerkleRoot sha256 bitmap))) := by
  have hne : prefixed (computeBitmapMerkleRoot sha256 bitmap) ≠ [] := by simp [prefixed, js]
  simp only [FinalizeSync.buildSeenBitmapData, if_neg hne, addHexPrefix_prefixed,
    computeIncludedBitmapRoot_eq, ok_bind, ne_eq, not_true_eq_false, if_false]
  rfl

/-- AGREEMENT: both ways of finalizing build the same data of a run. -/
theorem buildBitmapData_of_run (imageId : Option (Bytes 32)) (now : Num)
    (hrun : verifyAndTallyChecked sha256 input = .ok inspection) :
    ∃ files, bitmapFiles sha256 input inspection.output = .ok files ∧
      FinalizeSync.buildBitmapData noble sha256 (HostOutput.hostJournal inspection.output imageId)
        (readOptionalBitmap noble sha256 includedKind files.included)
        (readOptionalBitmap noble sha256 seenKind files.seen) now = .ok
          (some (runBitmapData sha256 input now)) ∧
      AsyncProver.buildBitmapData (files.included.bind (parseIncludedBitmapArtifact noble sha256))
        (files.seen.bind (parseSeenBitmapArtifact noble sha256)) now =
          some (runBitmapData sha256 input now) := by
  obtain ⟨files, hfiles, hincluded, hseen⟩ := bitmapFiles_of_run noble hrun
  obtain ⟨hsize, hseenRoot, hincludedRoot⟩ := roots_of_run hrun
  refine ⟨files, hfiles, ?_, ?_⟩
  · have hreadIncluded : readOptionalBitmap noble sha256 includedKind files.included =
        some (includedBitmapOf sha256 input) := congrArg (Option.map BitmapArtifact.bitmap) hincluded
    have hreadSeen :
        readOptionalBitmap noble sha256 seenKind files.seen = some (seenBitmapOf sha256 input) :=
      congrArg (Option.map BitmapArtifact.bitmap) hseen
    rw [hreadIncluded, hreadSeen, FinalizeSync.buildBitmapData]
    simp only [HostOutput.hostJournal, hsize, hseenRoot, hincludedRoot, addHexPrefix_prefixed,
      computeIncludedBitmapRoot_eq, buildSeenBitmapData_own, ok_bind, ne_eq, not_true_eq_false, if_false]
    rfl
  · rw [hincluded, hseen]
    rfl

end StarkBallot.ZkvmContract.BitmapArtifacts
