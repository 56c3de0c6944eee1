import StarkBallot.ZkvmContract.HostIo
import StarkBallot.ZkvmContract.JournalValues

/-! The JSON that the Rust host writes of a journal, and its admission (`HostJsonOutput` of
    `host/src/artifacts.rs`, `host-io.ts`, `validated-domain.ts`). Bytes are written as arrays of
    numbers and read as texts:

        VerificationOutput ──▶ {"electionId": [18, 62, …], "treeSize": 64, …, "imageId": "0x…"}
                                   └──── exact keys ──▶ texts and counts ──▶ guard ──▶ CurrentZkVMJournal

    The journal of every accepted run arrives, but for one whose election id is no UUID to the guard. -/

namespace StarkBallot.ZkvmContract.HostOutput
open Schemes ContractCore Guest CryptoPrimitives Domain Validation HostIo
open Application (CurrentZkVMJournal addHexPrefix)
open JournalValue (getNumberArrayProperty ofJournal)

/-! ### The writer -/

structure HostJsonOutput extends VerificationOutput where
  imageId : JsString

def HostJsonOutput.fromVerificationOutput (output : VerificationOutput) (imageId : JsString) :
    HostJsonOutput :=
  { output with imageId }

/-- `[u8; n]`. -/
def byteArray (bytes : List UInt8) : JsValue :=
  .array (bytes.map fun byte => .number (.ofNat byte.toNat))

def count (value : ℕ) : JsValue := .number (.ofNat value)

/-- What `JSON.parse` reads of the text of `serde_json`. -/
def HostJsonOutput.toJson (output : HostJsonOutput) : JsValue := .object
  [(js "electionId", byteArray output.electionId.toList),
   (js "electionConfigHash", byteArray output.electionConfigHash.toList),
   (js "bulletinRoot", byteArray output.bulletinRoot.toList),
   (js "treeSize", count output.treeSize),
   (js "totalExpected", count output.totalExpected),
   (js "sthDigest", byteArray output.sthDigest.toList),
   (js "verifiedTally", .array (output.verifiedTally.toList.map count)),
   (js "totalVotes", count output.totalVotes),
   (js "validVotes", count output.validVotes),
   (js "invalidVotes", count output.invalidVotes),
   (js "seenIndicesCount", count output.seenIndicesCount),
   (js "missingSlots", count output.missingSlots),
   (js "invalidPresentedSlots", count output.invalidPresentedSlots),
   (js "rejectedRecords", count output.rejectedRecords),
   (js "seenBitmapRoot", byteArray output.seenBitmapRoot.toList),
   (js "includedBitmapRoot", byteArray output.includedBitmapRoot.toList),
   (js "excludedSlots", count output.excludedSlots),
   (js "inputCommitment", byteArray output.inputCommitment.toList),
   (js "methodVersion", count output.methodVersion),
   (js "imageId", .string output.imageId)]

/-! ### Fields -/

def missing {α : Type} (fieldName : String) : JsM α :=
  .error (.error s!"Current zkVM host output missing {fieldName}")

def invalid {α : Type} (fieldName : String) : JsM α :=
  .error (.error s!"Current zkVM host output invalid {fieldName}")

/-- `Number.isInteger(entry) && entry >= 0 && entry <= 255`. -/
def byteOf : JsValue → Option UInt8
  | .number entry =>
    if entry.isInteger && (Num.ofNat 0).le entry && entry.le (.ofNat 255) then
      some (UInt8.ofNat entry.toNat) else none
  | _ => none

def parseHexField : JsValue → Option JsString
  | .string text => if text = [] then none else some (addHexPrefix (normalizeHexString text))
  | .array elements => (elements.mapM byteOf).map fun bytes => addHexPrefix (hexText bytes)
  | _ => none

/-- `getField`, and whether the field is there. -/
def getField (record : JsValue) (key : String) : Option JsValue :=
  if (property record key).isUndefined then none else some (property record key)

def getRequiredHexField (record : JsValue) (fieldName : String) (expectedBytes : ℕ) : JsM JsString :=
  match getField record fieldName with
  | none => missing fieldName
  | some value =>
    match parseHexField value with
    | none => invalid fieldName
    | some parsed =>
      if isValidHexString parsed (some expectedBytes) then .ok parsed
      else invalid fieldName

/-- The groups of digits between the dashes. -/
def uuidGroups : List ℕ := [8, 4, 4, 4, 12]

def matchesGroups : List ℕ → JsString → Bool
  | [], value => value = []
  | [group], value => value.length = group && value.all isHexDigit
  | group :: groups, value =>
    (value.take group).length = group && (value.take group).all isHexDigit && value[group]? = some '-' &&
    matchesGroups groups (value.drop (group + 1))

/-- `/^[0-9a-f]{8}-[0-9a-f]{4}-[0-9a-f]{4}-[0-9a-f]{4}-[0-9a-f]{12}$/i`: any
    version, unlike the guard's. -/
def matchesUuidPattern (value : JsString) : Bool := matchesGroups uuidGroups (toLowerCase value)

def compactToUuid (compactHex : JsString) : JsString :=
  let hex := toLowerCase compactHex
  hex.take 8 ++ ['-'] ++ (hex.drop 8).take 4 ++ ['-'] ++ (hex.drop 12).take 4 ++ ['-'] ++
    (hex.drop 16).take 4 ++ ['-'] ++ (hex.drop 20).take 12

def formatUuidField : JsValue → Option JsString
  | .string text =>
    let compact := text.filter (· ≠ '-')
    if compact.length = 32 && compact.all fun c => isHexDigit c.toLower then
      some (compactToUuid compact) else none
  | .array elements =>
    if elements.length = 16 then (elements.mapM byteOf).map fun bytes =>
      compactToUuid (hexText bytes) else none
  | _ => none

def getRequiredUuidField (record : JsValue) (fieldName : String) : JsM JsString :=
  match getField record fieldName with
  | none => missing fieldName
  | some raw =>
    match formatUuidField raw with
    | none => invalid fieldName
    | some value => if matchesUuidPattern value then .ok value else invalid fieldName

def getRequiredNumberField (record : JsValue) (fieldName : String) : JsM Num :=
  match getNumberProperty record fieldName with
  | none => missing fieldName
  | some value => .ok value

/-- No entry is missing once the length is right. -/
def getRequiredNumberArrayField (record : JsValue) (fieldName : String) (expectedLength : ℕ) :
    JsM (Vector Num expectedLength) :=
  match getNumberArrayProperty record fieldName with
  | none => missing fieldName
  | some value =>
    if hlength : value.length = expectedLength then
      if value.all fun entry => entry.isInteger && (Num.ofNat 0).le entry then
        .ok ⟨value.toArray, hlength⟩
      else invalid fieldName
    else invalid fieldName

def normalizeImageId : Option JsString → Option JsString
  | some value => if value = [] then none else some (addHexPrefix (normalizeHexString value))
  | none => none

def getRequiredImageIdField (record : JsValue) (fieldName : String) : JsM JsString :=
  match normalizeImageId (getStringProperty record fieldName) with
  | none => missing fieldName
  | some normalized =>
    if isValidHexString normalized (some 32) then .ok normalized
    else invalid fieldName

/-! ### Journals -/

def asVoteCount (value : Num) : JsM Num := asUnsignedInteger value uint32Max "vote count"

def toValidatedCurrentZkVMJournal (journal : CurrentZkVMJournal) : JsM CurrentZkVMJournal := do
  refuseIf (¬ JournalValue.isSupportedZkVMJournal (ofJournal journal))
    (.error "zkVM journal does not satisfy the current journal contract")
  let electionId ← asElectionId journal.electionId
  let electionConfigHash ← asHex32Identifier journal.electionConfigHash "electionConfigHash"
  let bulletinRoot ← asBulletinRoot journal.bulletinRoot
  let treeSize ← asTreeSize journal.treeSize
  let totalExpected ← asTotalExpected journal.totalExpected
  let sthDigest ← asHex32Identifier journal.sthDigest "sthDigest"
  let verifiedTally ← journal.verifiedTally.mapM asVoteCount
  let totalVotes ← asVoteCount journal.totalVotes
  let validVotes ← asVoteCount journal.validVotes
  let invalidVotes ← asVoteCount journal.invalidVotes
  let seenIndicesCount ← asVoteCount journal.seenIndicesCount
  let missingSlots ← asVoteCount journal.missingSlots
  let invalidPresentedSlots ← asVoteCount journal.invalidPresentedSlots
  let rejectedRecords ← asVoteCount journal.rejectedRecords
  let seenBitmapRoot ← asHex32Identifier journal.seenBitmapRoot "seenBitmapRoot"
  let includedBitmapRoot ← asHex32Identifier journal.includedBitmapRoot "includedBitmapRoot"
  let excludedSlots ← asVoteCount journal.excludedSlots
  let inputCommitment ← asInputCommitment journal.inputCommitment
  let imageId ← (journal.imageId.filter (· ≠ [])).mapM fun imageId => asHex32Identifier imageId "imageId"
  return { electionId, electionConfigHash, bulletinRoot, treeSize, totalExpected, sthDigest
           verifiedTally, totalVotes
           validVotes, invalidVotes, seenIndicesCount, missingSlots, invalidPresentedSlots
           rejectedRecords, seenBitmapRoot, includedBitmapRoot, excludedSlots, inputCommitment
           methodVersion := .ofNat currentMethodVersion, imageId }

/-- `CURRENT_HOST_OUTPUT_KEYS`: every key of a journal. -/
def currentHostOutputKeys : List String := JournalValue.currentJournalAllowedKeys

def journalCandidate (output : JsValue) : JsM CurrentZkVMJournal := do
  let electionId ← getRequiredUuidField output "electionId"
  let electionConfigHash ← getRequiredHexField output "electionConfigHash" 32
  let bulletinRoot ← getRequiredHexField output "bulletinRoot" 32
  let treeSize ← getRequiredNumberField output "treeSize"
  let totalExpected ← getRequiredNumberField output "totalExpected"
  let sthDigest ← getRequiredHexField output "sthDigest" 32
  let verifiedTally ← getRequiredNumberArrayField output "verifiedTally" 5
  let totalVotes ← getRequiredNumberField output "totalVotes"
  let validVotes ← getRequiredNumberField output "validVotes"
  let invalidVotes ← getRequiredNumberField output "invalidVotes"
  let seenIndicesCount ← getRequiredNumberField output "seenIndicesCount"
  let missingSlots ← getRequiredNumberField output "missingSlots"
  let invalidPresentedSlots ← getRequiredNumberField output "invalidPresentedSlots"
  let rejectedRecords ← getRequiredNumberField output "rejectedRecords"
  let seenBitmapRoot ← getRequiredHexField output "seenBitmapRoot" 32
  let includedBitmapRoot ← getRequiredHexField output "includedBitmapRoot" 32
  let excludedSlots ← getRequiredNumberField output "excludedSlots"
  let inputCommitment ← getRequiredHexField output "inputCommitment" 32
  return { electionId, electionConfigHash, bulletinRoot, treeSize, totalExpected, sthDigest
           verifiedTally, totalVotes
           validVotes, invalidVotes, seenIndicesCount, missingSlots, invalidPresentedSlots
           rejectedRecords, seenBitmapRoot, includedBitmapRoot, excludedSlots, inputCommitment
           methodVersion := .ofNat currentMethodVersion, imageId := none }

def parseCurrentHostExecutionResult (output : JsValue) : JsM CurrentZkVMJournal := do
  let actualKeys := objectKeys output
  refuseIf (actualKeys.length ≠ currentHostOutputKeys.length ∨
      actualKeys.any (fun key => !(currentHostOutputKeys.map js).contains key))
    (.error "Current zkVM host output must contain the exact current fields")
  let methodVersion ← getRequiredNumberField output "methodVersion"
  refuseIf (methodVersion ≠ .ofNat currentMethodVersion)
    (.error s!"Unsupported zkVM host output methodVersion: {methodVersion.toText}")
  let journal ← toValidatedCurrentZkVMJournal (← journalCandidate output)
  let imageId ← getRequiredImageIdField output "imageId"
  return { journal with imageId := some imageId }

def parseHostZkVMOutput (output : JsValue) : JsM CurrentZkVMJournal :=
  if !isNonNullObject output then .error (.error "Current zkVM host output must be an object")
  else parseCurrentHostExecutionResult output

/-! ### Reading what was written -/

/-- The journal of a run, as texts and numbers. -/
def hostJournal (output : VerificationOutput) (imageId : Option (Bytes 32)) : CurrentZkVMJournal where
  electionId := uuidText output.electionId
  electionConfigHash := prefixed output.electionConfigHash
  bulletinRoot := prefixed output.bulletinRoot
  treeSize := .ofNat output.treeSize
  totalExpected := .ofNat output.totalExpected
  sthDigest := prefixed output.sthDigest
  verifiedTally := output.verifiedTally.map .ofNat
  totalVotes := .ofNat output.totalVotes
  validVotes := .ofNat output.validVotes
  invalidVotes := .ofNat output.invalidVotes
  seenIndicesCount := .ofNat output.seenIndicesCount
  missingSlots := .ofNat output.missingSlots
  invalidPresentedSlots := .ofNat output.invalidPresentedSlots
  rejectedRecords := .ofNat output.rejectedRecords
  seenBitmapRoot := prefixed output.seenBitmapRoot
  includedBitmapRoot := prefixed output.includedBitmapRoot
  excludedSlots := .ofNat output.excludedSlots
  inputCommitment := prefixed output.inputCommitment
  methodVersion := .ofNat output.methodVersion
  imageId := imageId.map prefixed

/-- The value that the host writes of a run. -/
def hostJson (output : VerificationOutput) (imageId : Bytes 32) : JsValue :=
  (HostJsonOutput.fromVerificationOutput output (prefixed imageId)).toJson

section Fields

theorem byteOf_byte (byte : UInt8) : byteOf (.number (.ofNat byte.toNat)) = some byte := by
  have hle : byte.toNat ≤ 255 := by
    have := byte.toNat_lt
    omega
  simp only [byteOf, Num.ofNat_isInteger, Num.ofNat_le, Bool.true_and, decide_eq_true (Nat.zero_le _),
    decide_eq_true hle,
    if_true, Num.ofNat_toNat, UInt8.ofNat_toNat]

theorem mapM_byteOf : ∀ bytes : List UInt8,
    (bytes.map fun byte => JsValue.number (.ofNat byte.toNat)).mapM byteOf = some bytes
  | [] => rfl
  | byte :: bytes => by
      rw [List.map_cons, List.mapM_cons, byteOf_byte, mapM_byteOf bytes]
      rfl

theorem parseHexField_byteArray (b : Bytes 32) :
    parseHexField (byteArray b.toList) = some (prefixed b) := by
  have hnormal : normalizeHexString (hexText b.toList) = hexText b.toList := normalizeHexString_text b
  simp only [parseHexField, byteArray, mapM_byteOf, Option.map_some, addHexPrefix, hnormal]
  rfl

variable {record : JsValue} {fieldName : String}

theorem getRequiredHexField_eq {b : Bytes 32} (h : property record fieldName = byteArray b.toList) :
    getRequiredHexField record fieldName 32 = .ok (prefixed b) := by
  have hfield : getField record fieldName = some (byteArray b.toList) := by
    rw [getField, h]
    rfl
  simp only [getRequiredHexField, hfield, parseHexField_byteArray]
  exact if_pos (isValidHexString_spelling (prefixed_spells b.toList))

theorem getRequiredNumberField_eq {n : ℕ} (h : property record fieldName = count n) :
    getRequiredNumberField record fieldName = .ok (.ofNat n) := by
  rw [getRequiredNumberField, getNumberProperty, h]
  rfl

theorem mapM_vector_eq_ok {α β : Type} {n : ℕ} {f : α → JsM β} {v : Vector α n} {w : Vector β n} :
    v.mapM f = .ok w ↔ v.toList.mapM f = .ok w.toList := by
  have hlists : (fun xs => xs.toArray.toList) <$> v.mapM f = v.toList.mapM f := by
    rw [Vector.toList, ← Array.toList_mapM, ← Vector.toArray_mapM, Functor.map_map]
  rw [← hlists]
  cases v.mapM f with
  | error e =>
    constructor
    · rintro ⟨⟩
    · rintro ⟨⟩
  | ok read =>
    constructor
    · rintro ⟨⟩
      rfl
    · intro h
      exact congrArg Except.ok (Vector.toList_inj.mp (Except.ok.inj h))

theorem getRequiredNumberArrayField_eq {c : Vector ℕ 5}
    (h : property record fieldName = .array (c.toList.map count)) :
    getRequiredNumberArrayField record fieldName 5 = .ok (c.map .ofNat) := by
  have hnumbers : c.toList.map count = (c.toList.map Num.ofNat).map .number := by
    rw [List.map_map]
    rfl
  have hread : getNumberArrayProperty record fieldName = some (c.toList.map .ofNat) := by
    rw [getNumberArrayProperty, getArrayProperty, h, hnumbers]
    refine JournalValue.mapM_finiteNumber fun value hvalue => ?_
    obtain ⟨n, -, rfl⟩ := List.mem_map.mp hvalue
    exact ⟨n, rfl⟩
  have hall :
      (c.toList.map Num.ofNat).all (fun entry => entry.isInteger && (Num.ofNat 0).le entry) = true := by
    simp
  simp only [getRequiredNumberArrayField, hread]
  rw [dif_pos (by simp), if_pos hall]
  exact congrArg Except.ok (Vector.toList_inj.mp Vector.toList_map.symm)

theorem getRequiredImageIdField_eq {b : Bytes 32}
    (h : property record fieldName = .string (prefixed b)) :
    getRequiredImageIdField record fieldName = .ok (prefixed b) := by
  have hnormal : addHexPrefix (normalizeHexString (prefixed b)) = prefixed b := by
    have hspelled : normalizeHexString (prefixed b) = text b :=
      normalizeHexString_of_spells (prefixed_spells b.toList)
    rw [hspelled, addHexPrefix, normalizeHexString_text b]
    rfl
  have hne : prefixed b ≠ [] := by simp [prefixed, js]
  have himage : normalizeImageId (getStringProperty record fieldName) = some (prefixed b) := by
    rw [getStringProperty, h]
    simp only [normalizeImageId, if_neg hne, hnormal]
  simp only [getRequiredImageIdField, himage]
  exact if_pos (isValidHexString_spelling (prefixed_spells b.toList))

end Fields

/-! ### Election ids -/

section ElectionIds

theorem toLowerCase_uuidText (id : Bytes 16) : toLowerCase (uuidText id) = uuidText id := by
  have hlower : (text id).map Char.toLower = text id := toLowerCase_hexText id.toList
  simp only [uuidText, toLowerCase, List.map_append, List.map_take, List.map_drop, hlower]
  rfl

theorem matchesGroups_cons {group next : ℕ} {groups : List ℕ} {digits rest : JsString}
    (hlen : digits.length = group) (hdigits : digits.all isHexDigit = true) :
    matchesGroups (group :: next :: groups)
      (digits ++ '-' :: rest) = matchesGroups (next :: groups) rest := by
  have htake : (digits ++ '-' :: rest).take group = digits := by rw [← hlen, List.take_left]
  have hdash : (digits ++ '-' :: rest)[group]? = some '-' := by
    rw [List.getElem?_append_right hlen.le, hlen, Nat.sub_self]
    rfl
  have hdrop : (digits ++ '-' :: rest).drop (group + 1) = rest := by
    rw [← hlen, ← List.drop_drop, List.drop_left]
    rfl
  rw [matchesGroups, htake, hdash, hdrop, hlen, hdigits]
  · simp
  · simp

theorem matchesUuidPattern_uuidText (id : Bytes 16) : matchesUuidPattern (uuidText id) = true := by
  have hlen : (text id).length = 32 := by rw [text, hexText_length, id.length_eq]
  have hpart : ∀ start group : ℕ, (((text id).drop start).take group).all isHexDigit = true := by
    intro start group
    refine List.all_eq_true.mpr fun c hc => hexText_isHexDigit id.toList c ?_
    exact List.mem_of_mem_drop (List.mem_of_mem_take hc)
  have hlast : (text id).drop 20 = ((text id).drop 20).take 12 := by
    rw [List.take_of_length_le]
    simp [hlen]
  have hgroups : uuidText id = ((text id).drop 0).take 8 ++ '-' :: (((text id).drop 8).take 4 ++ '-' ::
      (((text id).drop 12).take 4 ++ '-' ::
        (((text id).drop 16).take 4 ++ '-' :: (text id).drop 20))) := by
    simp [uuidText]
  rw [matchesUuidPattern, toLowerCase_uuidText, hgroups, uuidGroups]
  rw [matchesGroups_cons (by simp [hlen]) (hpart 0 8), matchesGroups_cons (by simp [hlen]) (hpart 8 4),
    matchesGroups_cons (by simp [hlen]) (hpart 12 4), matchesGroups_cons (by simp [hlen])
      (hpart 16 4), hlast,
    matchesGroups]
  simp [hlen, hpart 20 12]

theorem getRequiredUuidField_eq {record : JsValue} {fieldName : String} {i : Bytes 16}
    (h : property record fieldName = byteArray i.toList) :
    getRequiredUuidField record fieldName = .ok (uuidText i) := by
  have hfield : getField record fieldName = some (byteArray i.toList) := by
    rw [getField, h]
    rfl
  have hlen : (text i).length = 32 := by rw [text, hexText_length, i.length_eq]
  have hcompact : compactToUuid (hexText i.toList) = uuidText i := by
    rw [compactToUuid, toLowerCase_hexText, uuidText, text,
      List.take_of_length_le (l := (hexText i.toList).drop 20)]
    rw [List.length_drop]
    rw [text] at hlen
    omega
  have hformat : formatUuidField (byteArray i.toList) = some (uuidText i) := by
    simp only [formatUuidField, byteArray, List.length_map, i.length_eq, if_true, mapM_byteOf,
      Option.map_some, hcompact]
  simp only [getRequiredUuidField, hfield, hformat]
  rw [if_pos (matchesUuidPattern_uuidText i)]

end ElectionIds

/-! ### The journal of a run -/

/-- What the journal of an accepted run satisfies. -/
structure Emitted (output : VerificationOutput) : Prop where
  laws : JournalLaws output
  bounds : JournalBounds output
  bulletinRoot : output.bulletinRoot ≠ Bytes.fill 32 0
  methodVersion : output.methodVersion = currentMethodVersion

theorem emitted_of_accepted {sha256 : List UInt8 → Bytes 32} {input : AggregatorInput}
    {output : VerificationOutput} (h : verifyAndTallyCheckedOutput sha256 input = .ok output) :
    Emitted output := by
  obtain ⟨validated, digest, hadmits, -, rfl⟩ := verifyAndTallyCheckedOutput_ok sha256 h
  refine ⟨journalOf_laws sha256 input digest, ?_, ?_, rfl⟩
  · refine ⟨hadmits.budget.treeSize_pos, hadmits.budget.treeSize_le.trans ?_,
      hadmits.budget.totalExpected_le.trans ?_, hadmits.budget.votes_le.trans ?_⟩ <;> decide
  · intro hzero
    have hroot : validated.bulletinRoot.get = Bytes.fill 32 0 := hadmits.bulletinRoot.trans hzero
    refine validated.bulletinRoot.nonzero ?_
    rw [hroot]
    decide

section Emitted

variable {output : VerificationOutput}

theorem hostJournal_evidence (output : VerificationOutput) (imageId : Option (Bytes 32)) :
    (hostJournal output imageId).evidence = journalEvidence output := by
  simp only [CurrentZkVMJournal.evidence, hostJournal, journalEvidence, Vector.toList_map]
  rfl

/-- With a UUID for its election the journal is supported. -/
theorem hostJournal_isSupported (h : Emitted output) (hid : isUuid (uuidText output.electionId) = true)
    (imageId : Option (Bytes 32)) :
    Application.isSupportedZkVMJournal (hostJournal output imageId) = true := by
  have hhash (b : Bytes 32) : isValidHexString (prefixed b) (some 32) = true :=
    isValidHexString_spelling (prefixed_spells b.toList)
  have hversion : (hostJournal output imageId).methodVersion = .ofNat currentMethodVersion :=
    congrArg Num.ofNat h.methodVersion
  simp only [Application.isSupportedZkVMJournal, hostJournal_evidence,
    coherent_of_laws h.laws h.bounds, hversion]
  cases imageId <;> simp [hostJournal, hid, hhash]

/-- The guard asks for nothing more than a UUID. -/
theorem hostJournal_supported (h : Emitted output) :
    JournalValue.isSupportedZkVMJournal (ofJournal (hostJournal output none)) =
      isUuid (uuidText output.electionId) := by
  by_cases hid : isUuid (uuidText output.electionId) = true
  · rw [hid]
    exact JournalValue.ofJournal_supported (hostJournal_isSupported h hid none)
  · have hother : (getStringProperty (ofJournal (hostJournal output none)) "electionId").any isUuid =
        isUuid (uuidText output.electionId) := rfl
    rw [JournalValue.isSupportedZkVMJournal, hother, Bool.eq_false_of_not_eq_true hid]
    simp

theorem toValidatedCurrentZkVMJournal_hostJournal (h : Emitted output)
    (hid : isUuid (uuidText output.electionId) = true) :
    toValidatedCurrentZkVMJournal (hostJournal output none) = .ok (hostJournal output none) := by
  have hsupported := (hostJournal_supported h).trans hid
  have hvote {n : ℕ} (hn : n ≤ uint32Max) : asVoteCount (.ofNat n) = .ok (.ofNat n) :=
    asUnsignedInteger_of_le hn (by decide)
  have hlaws := h.laws
  have hbounds := h.bounds
  obtain ⟨hseen, hmissing, hrejected, hexcluded, -, hvalid, htotal, hrejectedEq⟩ := hlaws
  have htotalLe := hbounds.totalVotes_le
  have htreeLe := hbounds.treeSize_le
  have htally :
      (output.verifiedTally.map Num.ofNat).mapM asVoteCount =
        .ok (output.verifiedTally.map Num.ofNat) := by
    refine mapM_vector_eq_ok.mpr (mapM_of_forall₂ (List.forall₂_same.mpr fun entry hentry => ?_))
    rw [Vector.toList_map] at hentry
    obtain ⟨n, hn, rfl⟩ := List.mem_map.mp hentry
    have hle := List.le_sum_of_mem hn
    exact hvote (by omega)
  rw [toValidatedCurrentZkVMJournal, refuseIf_of_not (by simp [hsupported]), ok_bind]
  have hhash (b : Bytes 32) (fieldName : String) :
      asHex32Identifier (prefixed b) fieldName = .ok (prefixed b) :=
    asHex32Identifier_of_valid fieldName (isHex32_prefixed b)
  simp only [hostJournal, asElectionId_of_valid hid, hhash, asBulletinRoot_prefixed h.bulletinRoot,
    asTreeSize, asTotalExpected, asUnsignedInteger_of_le htreeLe (by decide),
    asUnsignedInteger_of_le hbounds.totalExpected_le (by decide), htally, hvote htotalLe,
    hvote (show output.validVotes ≤ uint32Max by omega),
    hvote (show output.invalidVotes ≤ uint32Max by omega),
    hvote (show output.seenIndicesCount ≤ uint32Max by omega),
    hvote (show output.missingSlots ≤ uint32Max by omega),
    hvote (show output.invalidPresentedSlots ≤ uint32Max by omega),
    hvote (show output.rejectedRecords ≤ uint32Max by omega),
    hvote (show output.excludedSlots ≤ uint32Max by omega), asInputCommitment, ok_bind, h.methodVersion]
  rfl

/-- SPEC: the value that the host writes is read back, or refused by the guard
    for its election id alone. -/
theorem parseHostZkVMOutput_hostJson (h : Emitted output) (imageId : Bytes 32) :
    parseHostZkVMOutput (hostJson output imageId) =
      if isUuid (uuidText output.electionId) then .ok (hostJournal output (some imageId))
      else .error (.error "zkVM journal does not satisfy the current journal contract") := by
  have hcandidate : journalCandidate (hostJson output imageId) = .ok (hostJournal output none) := by
    rw [journalCandidate, getRequiredUuidField_eq (i := output.electionId) rfl, ok_bind,
      getRequiredHexField_eq (b := output.electionConfigHash) rfl, ok_bind,
      getRequiredHexField_eq (b := output.bulletinRoot) rfl, ok_bind,
      getRequiredNumberField_eq (n := output.treeSize) rfl, ok_bind,
      getRequiredNumberField_eq (n := output.totalExpected) rfl, ok_bind,
      getRequiredHexField_eq (b := output.sthDigest) rfl, ok_bind,
      getRequiredNumberArrayField_eq (c := output.verifiedTally) rfl, ok_bind,
      getRequiredNumberField_eq (n := output.totalVotes) rfl, ok_bind,
      getRequiredNumberField_eq (n := output.validVotes) rfl, ok_bind,
      getRequiredNumberField_eq (n := output.invalidVotes) rfl, ok_bind,
      getRequiredNumberField_eq (n := output.seenIndicesCount) rfl, ok_bind,
      getRequiredNumberField_eq (n := output.missingSlots) rfl, ok_bind,
      getRequiredNumberField_eq (n := output.invalidPresentedSlots) rfl, ok_bind,
      getRequiredNumberField_eq (n := output.rejectedRecords) rfl, ok_bind,
      getRequiredHexField_eq (b := output.seenBitmapRoot) rfl, ok_bind,
      getRequiredHexField_eq (b := output.includedBitmapRoot) rfl, ok_bind,
      getRequiredNumberField_eq (n := output.excludedSlots) rfl, ok_bind,
      getRequiredHexField_eq (b := output.inputCommitment) rfl, ok_bind, hostJournal, h.methodVersion]
    rfl
  have hkeys : ¬ ((objectKeys (hostJson output imageId)).length ≠ currentHostOutputKeys.length ∨
      (objectKeys (hostJson output imageId)).any
        (fun key => !(currentHostOutputKeys.map js).contains key)) := by
    have hread : objectKeys (hostJson output imageId) = currentHostOutputKeys.map js := rfl
    rw [hread]
    decide
  have hversion : getRequiredNumberField (hostJson output imageId) "methodVersion" =
      .ok (.ofNat currentMethodVersion) := by
    rw [getRequiredNumberField_eq (n := output.methodVersion) rfl, h.methodVersion]
  have hobject : (!isNonNullObject (hostJson output imageId)) = false := rfl
  rw [parseHostZkVMOutput, hobject, if_neg Bool.false_ne_true, parseCurrentHostExecutionResult,
    refuseIf_of_not hkeys, ok_bind, hversion, ok_bind, refuseIf_of_not (by simp), ok_bind,
    hcandidate, ok_bind]
  by_cases hid : isUuid (uuidText output.electionId) = true
  · rw [if_pos hid, toValidatedCurrentZkVMJournal_hostJournal h hid, ok_bind,
      getRequiredImageIdField_eq (b := imageId) rfl, ok_bind]
    rfl
  · rw [if_neg hid, toValidatedCurrentZkVMJournal, refuseIf,
      if_pos (by rw [hostJournal_supported h]; exact hid)]
    rfl

end Emitted

/-! ### Nothing is lost, and nothing else is taken -/

theorem uuidText_injective : Function.Injective uuidText := by
  intro a b h
  have ha := uuidText_spells a
  rw [h] at ha
  exact spells_unique ha (uuidText_spells b)

theorem hostJournal_injective {output output' : VerificationOutput}
    {imageId imageId' : Option (Bytes 32)}
    (h : hostJournal output imageId = hostJournal output' imageId') :
    output = output' ∧ imageId = imageId' := by
  simp only [hostJournal, CurrentZkVMJournal.mk.injEq, prefixed_injective.eq_iff,
    uuidText_injective.eq_iff, Num.ofNat_injective.eq_iff] at h
  obtain ⟨hid, hconfig, hroot, hsize, hexpected, hsth, htally, htotal, hvalid, hinvalid, hseen,
    hmissing, hpresented, hrejected, hseenRoot, hincludedRoot, hexcluded, hcommitment, hversion,
    himage⟩ := h
  have hcounts : output.verifiedTally = output'.verifiedTally := by
    refine Vector.ext fun c hc => Num.ofNat_injective ?_
    have hentry := congrArg (fun counts => counts[c]) htally
    simpa using hentry
  refine ⟨?_, Option.map_injective prefixed_injective himage⟩
  obtain ⟨⟩ := output
  obtain ⟨⟩ := output'
  dsimp only at *
  subst_vars
  rfl

/-- The image id is checked apart from the rest. -/
theorem supported_withImage {journal : CurrentZkVMJournal} {imageId : JsString}
    (h : JournalValue.isSupportedZkVMJournal (ofJournal { journal with imageId := none }) = true)
    (himage : isValidHexString imageId (some 32) = true) :
    JournalValue.isSupportedZkVMJournal (ofJournal { journal with imageId := some imageId }) = true := by
  simp only [JournalValue.isSupportedZkVMJournal, Bool.and_eq_true] at h ⊢
  obtain ⟨⟨⟨⟨⟨-, hid⟩, hhashes⟩, -⟩, hcoherent⟩, hversion⟩ := h
  refine ⟨⟨⟨⟨⟨JournalValue.ofJournal_record, hid⟩, hhashes⟩, ?_⟩, hcoherent⟩, hversion⟩
  rw [JournalValue.ofJournal_imageId]
  exact himage

theorem asElectionId_eq_ok {value read : JsString} (h : asElectionId value = .ok read) :
    read = value := by
  obtain ⟨_, -, h⟩ := bind_eq_ok.mp h
  exact (Except.ok.inj h).symm

theorem asBulletinRoot_eq_ok {value read : JsString} (h : asBulletinRoot value = .ok read) :
    read = value := by
  obtain ⟨root, hroot, h⟩ := bind_eq_ok.mp h
  obtain ⟨_, -, h⟩ := bind_eq_ok.mp h
  rw [← Except.ok.inj h, (asHex32Identifier_eq_ok hroot).1]

/-- Validation changes nothing. -/
theorem toValidatedCurrentZkVMJournal_eq_ok {journal validated : CurrentZkVMJournal}
    (himage : journal.imageId = none) (hversion : journal.methodVersion = .ofNat currentMethodVersion)
    (h : toValidatedCurrentZkVMJournal journal = .ok validated) :
    validated = journal ∧ JournalValue.isSupportedZkVMJournal (ofJournal journal) = true := by
  simp only [toValidatedCurrentZkVMJournal, bind_eq_ok, refuseIf_eq_ok, not_not, himage] at h
  obtain ⟨_, hsupported, electionId, helection, configHash, hconfig, root, hroot, treeSize, hsize,
    expected, hexpected, digest, hdigest, tally, hverified, total, htotal, valid, hvalid, invalid,
    hinvalid, seen, hseen, missing, hmissing, presented, hpresented, rejected, hrejected, seenRoot,
    hseenRoot, includedRoot, hincludedRoot, excluded, hexcluded, commitment, hcommitment, image,
    hread, hresult⟩ := h
  obtain rfl := asElectionId_eq_ok helection
  obtain rfl := asBulletinRoot_eq_ok hroot
  have hcount {value read : Num} (h : asVoteCount value = .ok read) : read = value :=
    (asUnsignedInteger_eq_ok h).1
  refine ⟨?_, hsupported⟩
  have htally : tally = journal.verifiedTally := by
    have hentries := forall₂_of_mapM (mapM_vector_eq_ok.mp hverified)
    refine Vector.toList_inj.mp (List.forall₂_eq_eq_eq ▸ hentries.imp fun _ _ hentry => ?_).symm
    exact (hcount hentry).symm
  obtain rfl := Except.ok.inj hread
  rw [← Except.ok.inj hresult, htally, (asHex32Identifier_eq_ok hconfig).1,
    (asUnsignedInteger_eq_ok hsize).1, (asUnsignedInteger_eq_ok hexpected).1,
    (asHex32Identifier_eq_ok hdigest).1, hcount htotal, hcount hvalid, hcount hinvalid, hcount hseen,
    hcount hmissing, hcount hpresented, hcount hrejected, (asHex32Identifier_eq_ok hseenRoot).1,
    (asHex32Identifier_eq_ok hincludedRoot).1, hcount hexcluded,
    (asHex32Identifier_eq_ok hcommitment).1, ← hversion]
  obtain ⟨⟩ := journal
  dsimp only at himage
  rw [himage]

/-- What the parser takes has the keys of today and is a supported journal of an image. -/
theorem parseHostZkVMOutput_eq_ok {value : JsValue} {journal : CurrentZkVMJournal}
    (h : parseHostZkVMOutput value = .ok journal) :
    (objectKeys value).length = currentHostOutputKeys.length ∧
      (∀ key ∈ objectKeys value, key ∈ currentHostOutputKeys.map js) ∧ journal.imageId.isSome = true ∧
      JournalValue.isSupportedZkVMJournal (ofJournal journal) = true := by
  unfold parseHostZkVMOutput at h
  split at h
  · cases h
  obtain ⟨_, hkeys, h⟩ := bind_eq_ok.mp h
  obtain ⟨version, -, h⟩ := bind_eq_ok.mp h
  obtain ⟨_, -, h⟩ := bind_eq_ok.mp h
  obtain ⟨candidate, hcandidate, h⟩ := bind_eq_ok.mp h
  obtain ⟨validated, hvalidated, h⟩ := bind_eq_ok.mp h
  obtain ⟨imageId, himageId, h⟩ := bind_eq_ok.mp h
  obtain rfl := Except.ok.inj h
  have hplain : candidate.imageId = none ∧ candidate.methodVersion = .ofNat currentMethodVersion := by
    simp only [journalCandidate, bind_eq_ok] at hcandidate
    obtain ⟨_, -, _, -, _, -, _, -, _, -, _, -, _, -, _, -, _, -, _, -, _, -, _, -, _, -, _, -, _, -, _,
      -, _, -, _, -, hcandidate⟩ := hcandidate
    rw [← Except.ok.inj hcandidate]
    exact ⟨rfl, rfl⟩
  obtain ⟨rfl, hsupported⟩ := toValidatedCurrentZkVMJournal_eq_ok hplain.1 hplain.2 hvalidated
  have himage : isValidHexString imageId (some 32) = true := by
    unfold getRequiredImageIdField at himageId
    split at himageId
    · cases himageId
    split at himageId
    · rename_i hvalid
      rw [← Except.ok.inj himageId]
      exact hvalid
    · cases himageId
  rw [refuseIf_eq_ok, not_or, not_not] at hkeys
  refine ⟨hkeys.1, fun key hkey => ?_, rfl, supported_withImage ?_ himage⟩
  · by_contra hother
    refine hkeys.2 (List.any_eq_true.mpr ⟨key, hkey, ?_⟩)
    rw [Bool.not_eq_true', List.contains_eq_mem, decide_eq_false hother]
  · rw [← hplain.1]
    exact hsupported

/-- ROUND TRIP: what the host writes of an accepted run is read as that run's journal, unless its
    election id is no UUID to the guard; two runs that are read as one journal had one output; and
    whatever value is read has the keys of today and is a supported journal of an image. -/
theorem host_output_read_back (sha256 : List UInt8 → Bytes 32) :
    (∀ input output imageId, verifyAndTallyCheckedOutput sha256 input = .ok output →
      parseHostZkVMOutput (hostJson output imageId) =
        if isUuid (uuidText input.electionId) then .ok (hostJournal output (some imageId))
        else .error (.error "zkVM journal does not satisfy the current journal contract")) ∧
    (∀ input input' output output' imageId imageId' journal,
      verifyAndTallyCheckedOutput sha256 input = .ok output →
      verifyAndTallyCheckedOutput sha256 input' = .ok output' →
      parseHostZkVMOutput (hostJson output imageId) = .ok journal →
      parseHostZkVMOutput (hostJson output' imageId') = .ok journal →
      output = output' ∧ imageId = imageId') ∧
    (∀ value journal, parseHostZkVMOutput value = .ok journal →
      (objectKeys value).length = currentHostOutputKeys.length ∧
        (∀ key ∈ objectKeys value, key ∈ currentHostOutputKeys.map js) ∧ journal.imageId.isSome = true ∧
        JournalValue.isSupportedZkVMJournal (ofJournal journal) = true) := by
  have hread {output : VerificationOutput} (h : Emitted output) {imageId : Bytes 32}
      {journal : CurrentZkVMJournal}
      (hparsed : parseHostZkVMOutput (hostJson output imageId) = .ok journal) :
      journal = hostJournal output (some imageId) := by
    rw [parseHostZkVMOutput_hostJson h] at hparsed
    split at hparsed
    · exact (Except.ok.inj hparsed).symm
    · cases hparsed
  refine ⟨?_, ?_, fun value journal => parseHostZkVMOutput_eq_ok⟩
  · intro input output imageId h
    obtain ⟨_, digest, -, -, houtput⟩ := verifyAndTallyCheckedOutput_ok sha256 h
    have hid : output.electionId = input.electionId := by rw [houtput, journalOf]
    rw [parseHostZkVMOutput_hostJson (emitted_of_accepted h), hid]
  · intro input input' output output' imageId imageId' journal h h' hparsed hparsed'
    have hjournal := hread (emitted_of_accepted h) hparsed
    rw [hread (emitted_of_accepted h') hparsed'] at hjournal
    obtain ⟨houtput, himage⟩ := hostJournal_injective hjournal
    exact ⟨houtput.symm, (Option.some.inj himage).symm⟩

/-- A run without records, of an election with a UUID. -/
def unansweredInput : AggregatorInput :=
  { sampleInput [] with
    electionId :=
      ⟨[0x55, 0x0e, 0x84, 0x00, 0xe2, 0x9b, 0x41, 0xd4, 0xa7, 0x16, 0x44, 0x66, 0x55, 0x44, 0, 0],
      by decide⟩ }

theorem host_output_read_back_on_sample : ∃ output,
    verifyAndTallyCheckedOutput Sha256.digest unansweredInput = .ok output ∧
    parseHostZkVMOutput (hostJson output (Bytes.fill 32 0x44)) =
      .ok (hostJournal output (some (Bytes.fill 32 0x44))) := by
  have hadmitted : (ValidatedAggregatorInput.validate unansweredInput).isOk = true := by decide +kernel
  have huuid : isUuid (uuidText unansweredInput.electionId) = true := by decide +kernel
  obtain ⟨inspection, -, houtput⟩ := verifyAndTallyChecked_of_admitted Sha256.digest hadmitted
  refine ⟨inspection.output, houtput, ?_⟩
  rw [(host_output_read_back Sha256.digest).1 unansweredInput inspection.output
    (Bytes.fill 32 0x44) houtput, if_pos huuid]

end StarkBallot.ZkvmContract.HostOutput
