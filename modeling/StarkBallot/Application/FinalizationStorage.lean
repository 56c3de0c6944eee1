import StarkBallot.Domain.Constants
import StarkBallot.ZkvmContract.JournalGuards
import StarkBallot.Schemes.Admission

/-! Finalization records and how they are stored (`application/src/finalize/finalization-types.ts`,
    `finalization-storage.ts`, `finalization-record.ts`). Values have the types the source declares, so
    what is left of a parser are its checks on the values and its clean-ups: an empty image id or bundle
    key is dropped, hashes of a public input get one spelling. An artifact is stored as flat fields that
    are present or absent; in memory it is one value that is available or not.

        record  --encode-->  stored item  --decode-->  record
           \________________admit________________________↗

    Admission flattens and decodes, so one law serves both ways of reading: what was decoded once is
    decoded again unchanged (`decode_encode`). Values of type `unknown` are of an arbitrary type `U`. -/

namespace StarkBallot.Application
open Schemes ContractCore CryptoPrimitives ZkvmContract Domain

/-! ### Results -/

/-- Counts in the order of the choices. -/
abbrev Counts := Vector Num 5

def areCounts (counts : Counts) : Bool := counts.toList.all isNonNegativeInteger

structure FinalizationTally where
  counts : Counts
  totalVotes : Num
  tamperedCount : Num
  deriving DecidableEq

def parseFinalizationTally : FinalizationTally → Option FinalizationTally := accept fun tally =>
  areCounts tally.counts && isNonNegativeInteger tally.totalVotes &&
  isNonNegativeInteger tally.tamperedCount

inductive ReceiptJournal where
  | text (journal : JsString)
  | bytes (bytes : List Num)
  deriving DecidableEq

/-- `fields` are the enumerable own properties of an object or array; `other` is
    a value that is neither. -/
inductive ReceiptMetadata (U : Type) where
  | object (fields : List (JsString × U))
  | other (value : U)
  deriving DecidableEq

structure ReceiptWithImageId (U : Type) where
  «seal» : JsString
  journal : ReceiptJournal
  imageId : Option JsString
  metadata : Option (ReceiptMetadata U)
  deriving DecidableEq

/-- An empty text is refused like a missing one. -/
def parseReceiptJournal : ReceiptJournal → Option ReceiptJournal := accept fun
  | .text journal => journal ≠ []
  | .bytes bytes => bytes.all Num.isInteger

/-- An optional text that is dropped when empty. -/
def nonEmpty (value : Option JsString) : Option JsString := value.filter (· ≠ [])

/-- `{ ...metadata }` of an object; any other value is dropped. -/
def copyMetadata {U : Type} : ReceiptMetadata U → Option (ReceiptMetadata U)
  | .object fields => some (.object fields)
  | .other _ => none

def parseReceiptWithImageId {U : Type} (value : ReceiptWithImageId U) :
    Option (ReceiptWithImageId U) := do
  let journal ← parseReceiptJournal value.journal
  return { value with
    journal := journal
    imageId := nonEmpty value.imageId
    metadata := value.metadata.bind copyMetadata }

structure FinalizationReceiptPublication where
  receiptHash : JsString
  boardIndex : Num
  timestamp : Option Num
  deriving DecidableEq

def parseReceiptPublication : FinalizationReceiptPublication → Option FinalizationReceiptPublication :=
  accept fun value => isNonNegativeInteger value.boardIndex && value.timestamp.all isNonNegativeInteger

/-- `/^(?:0x)?[0-9a-f]{64}$/`. -/
def matchesBitmapRootPattern (root : JsString) : Bool :=
  let digits := if root.take 2 = js "0x" then root.drop 2 else root
  digits.length = 64 && digits.all isHexDigit

structure FinalizationBitmapData where
  includedBitmap : List Bool
  includedBitmapRoot : JsString
  seen : Option (List Bool × JsString)
  treeSize : Num
  finalizedAtMs : Num
  deriving DecidableEq

def parseFinalizationBitmapData : FinalizationBitmapData → Option FinalizationBitmapData :=
  accept fun value =>
  matchesBitmapRootPattern value.includedBitmapRoot && isNonNegativeSafeInteger value.treeSize &&
  isNonNegativeSafeInteger value.finalizedAtMs &&
    value.seen.all fun seen => matchesBitmapRootPattern seen.2

structure FinalizationTamperSummary where
  ignoredVotes : Num
  recountedVotes : Num
  userRecountedTo : Option VoteChoice
  affectedBotIds : Option (List Num)
  deriving DecidableEq

def parseTamperSummary : FinalizationTamperSummary → Option FinalizationTamperSummary :=
  accept fun value =>
  isNonNegativeInteger value.ignoredVotes && isNonNegativeInteger value.recountedVotes &&
  value.affectedBotIds.all fun ids => ids.all Num.isInteger

/-! ### Public audit artifacts -/

inductive PublicInputArtifactSource where
  | bundle
  | generated
  deriving DecidableEq

structure PublicInputArtifactProvenance where
  source : PublicInputArtifactSource
  finalizationId : Option JsString
  bundleKey : Option JsString
  deriving DecidableEq

structure PublicInputAuthority where
  electionId : JsString
  electionConfigHash : JsString
  methodVersion : Num
  bulletinRoot : JsString
  treeSize : Num
  totalExpected : Num
  votesCount : Num
  uniqueIndices : Bool
  uniqueCommitments : Bool
  logId : JsString
  timestamp : Num
  recomputedInputCommitment : JsString
  deriving DecidableEq

structure SupportedPublicInputArtifact where
  provenance : PublicInputArtifactProvenance
  typedAuthority : PublicInputAuthority
  deriving DecidableEq

def addHexPrefix (hex : JsString) : JsString := js "0x" ++ normalizeHexString hex

theorem addHexPrefix_of_spells {hex : JsString} {b : Bytes 32} (h : Spells hex b.toList) :
    addHexPrefix hex = prefixed b := by
  rw [addHexPrefix, normalizeHexString_of_spells h]
  rfl

def isPublicInputHash (value : JsString) : Bool := value.length > 0 && isValidHexString value (some 32)

/-- A hash in its one spelling. -/
def admitHash (value : JsString) : Option JsString :=
  if isPublicInputHash value then some (addHexPrefix (normalizeHexString value)) else none

def admitStoredPublicInputAuthority (record : PublicInputAuthority) : Option PublicInputAuthority := do
  let electionConfigHash ← admitHash record.electionConfigHash
  let bulletinRoot ← admitHash record.bulletinRoot
  let logId ← admitHash record.logId
  let recomputedInputCommitment ← admitHash record.recomputedInputCommitment
  if record.electionId ≠ [] ∧ record.methodVersion.isInteger ∧ record.treeSize.isInteger ∧
      record.totalExpected.isInteger ∧ record.timestamp.isInteger ∧ record.votesCount.isInteger then
    return { record with
      electionConfigHash := electionConfigHash
      bulletinRoot := bulletinRoot
      logId := logId
      recomputedInputCommitment := recomputedInputCommitment }
  else none

def parseStoredPublicInputArtifact (value : SupportedPublicInputArtifact) :
    Option SupportedPublicInputArtifact := do
  let typedAuthority ← admitStoredPublicInputAuthority value.typedAuthority
  return {
    provenance := { value.provenance with
      finalizationId := nonEmpty value.provenance.finalizationId
      bundleKey := nonEmpty value.provenance.bundleKey }
    typedAuthority := typedAuthority }

/-- `s.number().int().nonnegative().max(bound)`. -/
def isIntegerUpTo (bound : ℕ) (value : Num) : Bool :=
  isNonNegativeInteger value && value.le (Num.ofNat bound)

structure ElectionManifest where
  electionId : JsString
  totalExpected : Num
  choices : List JsString
  version : JsString
  botCount : Num
  merkleTreeDepth : Num
  electionConfigHash : JsString
  deriving DecidableEq

def isElectionManifest (value : ElectionManifest) : Bool :=
  isUuid value.electionId && isIntegerUpTo uint32Max value.totalExpected && value.choices ≠ [] &&
  value.choices.all (· ≠ []) && value.version ≠ [] && isIntegerUpTo uint32Max value.botCount &&
  isIntegerUpTo uint32Max value.merkleTreeDepth && (Num.ofNat 1).le value.merkleTreeDepth &&
  isValidHexString value.electionConfigHash (some 32)

structure CloseStatement where
  logId : JsString
  treeSize : Num
  timestamp : Num
  bulletinRoot : JsString
  sthDigest : JsString
  deriving DecidableEq

def isCloseStatement (value : CloseStatement) : Bool :=
  isValidHexString value.logId (some 32) && isIntegerUpTo uint32Max value.treeSize &&
  (Num.ofNat 1).le value.treeSize && isIntegerUpTo Num.maxSafeInteger value.timestamp &&
  isValidHexString value.bulletinRoot (some 32) && isValidHexString value.sthDigest (some 32)

/-! ### Journals -/

structure CurrentZkVMJournal where
  electionId : JsString
  electionConfigHash : JsString
  bulletinRoot : JsString
  treeSize : Num
  totalExpected : Num
  sthDigest : JsString
  verifiedTally : Vector Num 5
  totalVotes : Num
  validVotes : Num
  invalidVotes : Num
  seenIndicesCount : Num
  missingSlots : Num
  invalidPresentedSlots : Num
  rejectedRecords : Num
  seenBitmapRoot : JsString
  includedBitmapRoot : JsString
  excludedSlots : Num
  inputCommitment : JsString
  methodVersion : Num
  imageId : Option JsString
  deriving DecidableEq

def CurrentZkVMJournal.evidence (journal : CurrentZkVMJournal) : CurrentZkVMJournalSemanticEvidence where
  verifiedTally := some journal.verifiedTally.toList
  treeSize := some journal.treeSize
  seenIndicesCount := some journal.seenIndicesCount
  missingSlots := some journal.missingSlots
  invalidPresentedSlots := some journal.invalidPresentedSlots
  rejectedRecords := some journal.rejectedRecords
  excludedSlots := some journal.excludedSlots
  seenBitmapRoot := some journal.seenBitmapRoot
  includedBitmapRoot := some journal.includedBitmapRoot
  totalExpected := some journal.totalExpected
  totalVotes := some journal.totalVotes
  validVotes := some journal.validVotes
  invalidVotes := some journal.invalidVotes

def isSupportedZkVMJournal (journal : CurrentZkVMJournal) : Bool :=
  isUuid journal.electionId &&
  [journal.electionConfigHash, journal.bulletinRoot, journal.sthDigest, journal.includedBitmapRoot,
    journal.inputCommitment, journal.seenBitmapRoot].all (fun hash => isValidHexString hash (some 32)) &&
  journal.imageId.all (fun imageId => isValidHexString imageId (some 32)) &&
  hasCoherentCurrentZkVMJournalSemantics journal.evidence &&
  journal.methodVersion.eq (Num.ofNat currentMethodVersion)

/-! ### Result authorities -/

structure PublicAudit where
  publicInputArtifact : SupportedPublicInputArtifact
  electionManifest : ElectionManifest
  closeStatement : CloseStatement
  deriving DecidableEq

inductive BitmapProofSource where
  | mock
  | real
  deriving DecidableEq

structure BitmapEvidence where
  proofSource : BitmapProofSource
  data : FinalizationBitmapData
  deriving DecidableEq

/-- An unavailable artifact is `none`. -/
structure FinalizationArtifactAvailability (U : Type) where
  publicAudit : Option PublicAudit
  receipt : Option (ReceiptWithImageId U)
  receiptPublication : Option FinalizationReceiptPublication
  bitmap : Option BitmapEvidence
  deriving DecidableEq

structure ResultFacts where
  tally : FinalizationTally
  imageId : JsString
  journal : CurrentZkVMJournal
  tamperDetected : Option Bool
  scenarios : Option (List JsString)
  tamperSummary : Option FinalizationTamperSummary
  deriving DecidableEq

structure FinalizationResultAuthority (U : Type) extends ResultFacts where
  artifacts : FinalizationArtifactAvailability U
  deriving DecidableEq

/-- The flat fields of a stored result. -/
structure PersistedFinalizationResultAuthority (U : Type) extends ResultFacts where
  receipt : Option (ReceiptWithImageId U)
  receiptPublication : Option FinalizationReceiptPublication
  publicInputArtifact : Option SupportedPublicInputArtifact
  electionManifest : Option ElectionManifest
  closeStatement : Option CloseStatement
  bitmapProofSource : Option BitmapProofSource
  bitmapData : Option FinalizationBitmapData
  deriving DecidableEq

section Codec

variable {U : Type}

def parseFacts : ResultFacts → Option ResultFacts := accept fun value =>
  (parseFinalizationTally value.tally).isSome && isSupportedZkVMJournal value.journal &&
  value.tamperSummary.all fun summary => (parseTamperSummary summary).isSome

def admitPublicAudit (value : PublicAudit) : Option PublicAudit := do
  let publicInputArtifact ← parseStoredPublicInputArtifact value.publicInputArtifact
  if isElectionManifest value.electionManifest ∧ isCloseStatement value.closeStatement then
    return { value with publicInputArtifact := publicInputArtifact }
  else none

/-- The three parts are stored together or not at all. -/
def parseStoredPublicAuditArtifacts (value : PersistedFinalizationResultAuthority U) :
    Option (Option PublicAudit) :=
  match value.publicInputArtifact, value.electionManifest, value.closeStatement with
  | none, none, none => some none
  | some publicInputArtifact, some electionManifest, some closeStatement =>
    ifPresent admitPublicAudit (some ⟨publicInputArtifact, electionManifest, closeStatement⟩)
  | _, _, _ => none

def admitBitmap (value : BitmapEvidence) : Option BitmapEvidence := do
  return { value with data := ← parseFinalizationBitmapData value.data }

def parseStoredBitmapArtifact (value : PersistedFinalizationResultAuthority U) :
    Option (Option BitmapEvidence) :=
  match value.bitmapProofSource, value.bitmapData with
  | none, none => some none
  | some proofSource, some data => ifPresent admitBitmap (some ⟨proofSource, data⟩)
  | _, _ => none

def parseFinalizationResultAuthority (value : PersistedFinalizationResultAuthority U) :
    Option (FinalizationResultAuthority U) := do
  let facts ← parseFacts value.toResultFacts
  let receipt ← ifPresent parseReceiptWithImageId value.receipt
  let receiptPublication ← ifPresent parseReceiptPublication value.receiptPublication
  let publicAudit ← parseStoredPublicAuditArtifacts value
  let bitmap ← parseStoredBitmapArtifact value
  return ⟨facts, ⟨publicAudit, receipt, receiptPublication, bitmap⟩⟩

def encodeFinalizationResultAuthority (authority : FinalizationResultAuthority U) :
    PersistedFinalizationResultAuthority U where
  toResultFacts := authority.toResultFacts
  receipt := authority.artifacts.receipt
  receiptPublication := authority.artifacts.receiptPublication
  publicInputArtifact := authority.artifacts.publicAudit.map PublicAudit.publicInputArtifact
  electionManifest := authority.artifacts.publicAudit.map PublicAudit.electionManifest
  closeStatement := authority.artifacts.publicAudit.map PublicAudit.closeStatement
  bitmapProofSource := authority.artifacts.bitmap.map BitmapEvidence.proofSource
  bitmapData := authority.artifacts.bitmap.map BitmapEvidence.data

/-- Flattens the artifacts as the encoder does, and parses. -/
def admitFinalizationResultAuthority (value : FinalizationResultAuthority U) :
    Option (FinalizationResultAuthority U) :=
  parseFinalizationResultAuthority (encodeFinalizationResultAuthority value)

end Codec

/-! ### States -/

inductive FinalizationFailureCategory where
  | configuration | input | proverExecution | infrastructureInterruption | imageSignature | capacity
  | artifact | upload | timeout | unknown
  deriving DecidableEq

/-- An absent category is `none`, one that is there and `undefined` is `some none`. `otherKeys` are the
    own properties that the type does not declare. -/
structure FinalizationError (U : Type) where
  code : JsString
  message : JsString
  category : Option (Option FinalizationFailureCategory)
  details : Option U
  otherKeys : List (JsString × U) := []
  deriving DecidableEq

inductive FinalizationStatus where
  | pending | running | succeeded | failed | timeout
  deriving DecidableEq

inductive FinalizationState (U : Type) where
  | pending (finalizationId : JsString) (queuedAtMs : Num)
  | running (finalizationId : JsString) (queuedAtMs startedAtMs : Num)
  | succeeded (finalizationId : JsString) (queuedAtMs startedAtMs completedAtMs : Num)
  | failed (finalizationId : JsString) (queuedAtMs : Num) (startedAtMs : Option Num) (failedAtMs : Num)
      (error : FinalizationError U)
  | timeout (finalizationId : JsString) (queuedAtMs : Num) (startedAtMs : Option Num) (timeoutAtMs : Num)
  deriving DecidableEq

def FinalizationState.status {U : Type} : FinalizationState U → FinalizationStatus
  | .pending .. => .pending
  | .running .. => .running
  | .succeeded .. => .succeeded
  | .failed .. => .failed
  | .timeout .. => .timeout

def FinalizationState.finalizationId {U : Type} : FinalizationState U → JsString
  | .pending finalizationId .. => finalizationId
  | .running finalizationId .. => finalizationId
  | .succeeded finalizationId .. => finalizationId
  | .failed finalizationId .. => finalizationId
  | .timeout finalizationId .. => finalizationId

/-- The times of a state are integers; nothing bounds them here. -/
def hasIntegerTimes {U : Type} : FinalizationState U → Bool
  | .pending _ queuedAtMs => isNonNegativeInteger queuedAtMs
  | .running _ queuedAtMs startedAtMs =>
    isNonNegativeInteger queuedAtMs && isNonNegativeInteger startedAtMs
  | .succeeded _ queuedAtMs startedAtMs completedAtMs =>
    isNonNegativeInteger queuedAtMs && isNonNegativeInteger startedAtMs &&
      isNonNegativeInteger completedAtMs
  | .failed _ queuedAtMs startedAtMs failedAtMs _ =>
    isNonNegativeInteger queuedAtMs && startedAtMs.all isNonNegativeInteger &&
      isNonNegativeInteger failedAtMs
  | .timeout _ queuedAtMs startedAtMs timeoutAtMs =>
    isNonNegativeInteger queuedAtMs && startedAtMs.all isNonNegativeInteger &&
      isNonNegativeInteger timeoutAtMs

/-- A category that is there must be one of the set, which `undefined` is not. -/
def parseFinalizationError {U : Type} : FinalizationError U → Option (FinalizationError U) :=
  accept fun error =>
  error.otherKeys.isEmpty && error.category.all Option.isSome

/-- The error of a failed state passes its parser. -/
def hasParsedError {U : Type} : FinalizationState U → Bool
  | .failed _ _ _ _ error => (parseFinalizationError error).isSome
  | _ => true

def parseFinalizationState {U : Type} : FinalizationState U → Option (FinalizationState U) :=
  accept fun state =>
  isSafeVerifierSegment state.finalizationId && hasIntegerTimes state && hasParsedError state

/-! ### Scenario contexts -/

structure FinalizationScenarioContext where
  scenarios : List JsString
  tamperMode : ScenarioTamperMode
  claimedCounts : Counts
  claimedTotalVotes : Num
  ignoredCount : Num
  recountedCount : Num
  userRecountChoice : Option VoteChoice
  affectedBotIds : Option (List Num)
  deriving DecidableEq

def parseFinalizationScenarioContext :
    FinalizationScenarioContext → Option FinalizationScenarioContext :=
  accept fun value =>
    areCounts value.claimedCounts && isNonNegativeInteger value.claimedTotalVotes &&
    isNonNegativeInteger value.ignoredCount && isNonNegativeInteger value.recountedCount &&
    value.affectedBotIds.all fun ids => ids.all Num.isInteger

/-! ### Records -/

structure ResultRecordOf (A : Type) where
  finalizationId : JsString
  authority : A
  deriving DecidableEq

/-- A record whose result, if it has one, carries an authority of the given type. -/
structure RecordOf (U A : Type) where
  sessionId : JsString
  finalizationId : JsString
  scenarioContext : FinalizationScenarioContext
  state : FinalizationState U
  finalizationResult : Option (ResultRecordOf A)
  deriving DecidableEq

abbrev FinalizationRecord (U : Type) := RecordOf U (FinalizationResultAuthority U)

abbrev PersistedFinalizationRecord (U : Type) := RecordOf U (PersistedFinalizationResultAuthority U)

section Records

variable {U A B : Type}

def parseResultRecordWith (parseAuthority : A → Option B) (value : ResultRecordOf A) :
    Option (ResultRecordOf B) := do
  if ¬ isSafeVerifierSegment value.finalizationId then none
  else return ⟨value.finalizationId, ← parseAuthority value.authority⟩

def parseFinalizationRecordIdentity (value : RecordOf U A) : Bool :=
  isSafeVerifierSegment value.sessionId && isSafeVerifierSegment value.finalizationId &&
  (parseFinalizationState value.state).isSome && value.state.finalizationId = value.finalizationId &&
  (parseFinalizationScenarioContext value.scenarioContext).isSome

/-- A succeeded record has a result and no other record has one. -/
def parseRecordWith (parseAuthority : A → Option B) (value : RecordOf U A) : Option (RecordOf U B) :=
  if ¬ parseFinalizationRecordIdentity value then none
  else if value.state.status = .succeeded then do
    let finalizationResult ← parseResultRecordWith parseAuthority (← value.finalizationResult)
    if finalizationResult.finalizationId ≠ value.finalizationId then none
    else
      return ⟨value.sessionId, value.finalizationId, value.scenarioContext, value.state,
        some finalizationResult⟩
  else if value.finalizationResult.isSome then none
  else return ⟨value.sessionId, value.finalizationId, value.scenarioContext, value.state, none⟩

def decodeFinalizationRecord : PersistedFinalizationRecord U → Option (FinalizationRecord U) :=
  parseRecordWith parseFinalizationResultAuthority

def admitFinalizationRecord : FinalizationRecord U → Option (FinalizationRecord U) :=
  parseRecordWith admitFinalizationResultAuthority

/-- `none` where the source throws: a succeeded record without a result. -/
def encodeFinalizationRecord (record : FinalizationRecord U) : Option (PersistedFinalizationRecord U) :=
  if record.state.status ≠ .succeeded then
    some ⟨record.sessionId, record.finalizationId, record.scenarioContext, record.state, none⟩
  else do
    let result ← record.finalizationResult
    return ⟨record.sessionId, record.finalizationId, record.scenarioContext, record.state,
      some ⟨result.finalizationId, encodeFinalizationResultAuthority result.authority⟩⟩

end Records

/-! ### Reading back -/

theorem stable_nonEmpty (value : Option JsString) : nonEmpty (nonEmpty value) = nonEmpty value := by
  cases value with
  | none => rfl
  | some value => by_cases h : value = [] <;> simp [nonEmpty, h]

theorem copyMetadata_again {U : Type} (metadata : Option (ReceiptMetadata U)) :
    (metadata.bind copyMetadata).bind copyMetadata = metadata.bind copyMetadata := by
  rcases metadata with _ | (fields | value) <;> rfl

theorem stable_receipt {U : Type} : Stable (@parseReceiptWithImageId U) := by
  intro a b h
  obtain ⟨journal, hjournal, hb⟩ := Option.bind_eq_some_iff.mp h
  rw [← Option.some.inj hb]
  have hagain : parseReceiptJournal journal = some journal := stable_accept _ hjournal
  simp only [parseReceiptWithImageId, hagain, stable_nonEmpty, copyMetadata_again]
  rfl

/-- An admitted hash is the prefixed text of the bytes that were spelled. -/
theorem admitHash_spells {value hash : JsString} (h : admitHash value = some hash) :
    ∃ bytes : Bytes 32, Spells value bytes.toList ∧ hash = prefixed bytes := by
  unfold admitHash at h
  split at h
  · rename_i hhash
    rw [isPublicInputHash, Bool.and_eq_true] at hhash
    obtain ⟨bytes, hspells⟩ := isValidHexString_spells hhash.2
    refine ⟨bytes, hspells, ?_⟩
    rw [← Option.some.inj h, addHexPrefix, normalizeHexString_of_spells hspells]
    exact congrArg (js "0x" ++ ·) (normalizeHexString_text bytes)
  · cases h

theorem admitHash_eq_some {value hash : JsString} (h : admitHash value = some hash) :
    ∃ bytes : Bytes 32, hash = prefixed bytes := by
  obtain ⟨bytes, -, hhash⟩ := admitHash_spells h
  exact ⟨bytes, hhash⟩

/-- Admission changes the spelling of a hash only. -/
theorem normalizeHexString_admitHash {value hash : JsString} (h : admitHash value = some hash) :
    normalizeHexString hash = normalizeHexString value := by
  obtain ⟨bytes, hspells, rfl⟩ := admitHash_spells h
  rw [normalizeHexString_of_spells hspells]
  exact normalizeHexString_of_spells (prefixed_spells bytes.toList)

theorem admitHash_prefixed (bytes : Bytes 32) : admitHash (prefixed bytes) = some (prefixed bytes) := by
  have hspells : Spells (prefixed bytes) bytes.toList := prefixed_spells bytes.toList
  have hhash : isPublicInputHash (prefixed bytes) = true := by
    rw [isPublicInputHash, isValidHexString_spelling hspells, Bool.and_true]
    exact decide_eq_true (List.length_pos_iff.mpr (spelling_ne_nil hspells))
  rw [admitHash, if_pos hhash, addHexPrefix, normalizeHexString_of_spells hspells]
  exact congrArg (fun digits => some (js "0x" ++ digits)) (normalizeHexString_text bytes)

theorem stable_admitHash : Stable admitHash := by
  intro a b h
  obtain ⟨bytes, rfl⟩ := admitHash_eq_some h
  exact admitHash_prefixed bytes

theorem stable_publicInputAuthority : Stable admitStoredPublicInputAuthority := by
  intro a b h
  unfold admitStoredPublicInputAuthority at h
  obtain ⟨configHash, hconfig, h⟩ := Option.bind_eq_some_iff.mp h
  obtain ⟨root, hroot, h⟩ := Option.bind_eq_some_iff.mp h
  obtain ⟨logId, hlogId, h⟩ := Option.bind_eq_some_iff.mp h
  obtain ⟨commitment, hcommitment, h⟩ := Option.bind_eq_some_iff.mp h
  split at h
  · rename_i hchecks
    rw [← Option.some.inj h]
    simp only [admitStoredPublicInputAuthority, stable_admitHash hconfig, stable_admitHash hroot,
      stable_admitHash hlogId, stable_admitHash hcommitment]
    exact if_pos hchecks
  · cases h

theorem stable_publicInputArtifact : Stable parseStoredPublicInputArtifact := by
  intro a b h
  obtain ⟨authority, hauthority, hb⟩ := Option.bind_eq_some_iff.mp h
  rw [← Option.some.inj hb]
  simp only [parseStoredPublicInputArtifact, stable_publicInputAuthority hauthority, stable_nonEmpty]
  rfl

theorem stable_publicAudit : Stable admitPublicAudit := by
  intro a b h
  obtain ⟨artifact, hartifact, h⟩ := Option.bind_eq_some_iff.mp h
  split at h
  · rename_i hchecks
    rw [← Option.some.inj h]
    simp only [admitPublicAudit, stable_publicInputArtifact hartifact]
    exact if_pos hchecks
  · cases h

theorem stable_bitmap : Stable admitBitmap := by
  intro a b h
  obtain ⟨data, hdata, hb⟩ := Option.bind_eq_some_iff.mp h
  rw [← Option.some.inj hb]
  have hagain : parseFinalizationBitmapData data = some data := stable_accept _ hdata
  simp only [admitBitmap, hagain]
  rfl

section ReadBack

variable {U : Type}

/-- Flattened and parsed, the public audit artifacts are admitted as a whole. -/
theorem parseStoredPublicAuditArtifacts_encode (authority : FinalizationResultAuthority U) :
    parseStoredPublicAuditArtifacts (encodeFinalizationResultAuthority authority) =
      ifPresent admitPublicAudit authority.artifacts.publicAudit := by
  simp only [parseStoredPublicAuditArtifacts, encodeFinalizationResultAuthority]
  cases authority.artifacts.publicAudit <;> rfl

theorem parseStoredBitmapArtifact_encode (authority : FinalizationResultAuthority U) :
    parseStoredBitmapArtifact (encodeFinalizationResultAuthority authority) =
      ifPresent admitBitmap authority.artifacts.bitmap := by
  simp only [parseStoredBitmapArtifact, encodeFinalizationResultAuthority]
  cases authority.artifacts.bitmap <;> rfl

/-- ROUND TRIP: an admitted result is stored and parsed unchanged. -/
theorem stable_resultAuthority : Stable (@admitFinalizationResultAuthority U) := by
  intro a b h
  unfold admitFinalizationResultAuthority parseFinalizationResultAuthority at h
  obtain ⟨facts, hfacts, h⟩ := Option.bind_eq_some_iff.mp h
  obtain ⟨receipt, hreceipt, h⟩ := Option.bind_eq_some_iff.mp h
  obtain ⟨publication, hpublication, h⟩ := Option.bind_eq_some_iff.mp h
  obtain ⟨audit, haudit, h⟩ := Option.bind_eq_some_iff.mp h
  obtain ⟨bitmap, hbitmap, h⟩ := Option.bind_eq_some_iff.mp h
  rw [← Option.some.inj h]
  rw [parseStoredPublicAuditArtifacts_encode] at haudit
  rw [parseStoredBitmapArtifact_encode] at hbitmap
  have hfacts' : parseFacts facts = some facts := stable_accept _ hfacts
  have hpublication' : ifPresent parseReceiptPublication publication = some publication :=
    (stable_accept _).ifPresent hpublication
  unfold admitFinalizationResultAuthority parseFinalizationResultAuthority
  rw [parseStoredPublicAuditArtifacts_encode, parseStoredBitmapArtifact_encode]
  simp only [encodeFinalizationResultAuthority, hfacts', stable_receipt.ifPresent hreceipt,
    hpublication', stable_publicAudit.ifPresent haudit, stable_bitmap.ifPresent hbitmap]
  rfl

/-- SPEC: the records a parser returns, by whether they have a result. -/
theorem parseRecordWith_eq_some {A B : Type} {parseAuthority : A → Option B} {value : RecordOf U A}
    {record : RecordOf U B} (h : parseRecordWith parseAuthority value = some record) :
    parseFinalizationRecordIdentity value = true ∧
      ((value.state.status ≠ .succeeded ∧ value.finalizationResult = none ∧
          record = ⟨value.sessionId, value.finalizationId, value.scenarioContext, value.state, none⟩) ∨
        (value.state.status = .succeeded ∧ ∃ authority authority',
          value.finalizationResult = some ⟨value.finalizationId, authority⟩ ∧
          parseAuthority authority = some authority' ∧
          record = ⟨value.sessionId, value.finalizationId, value.scenarioContext, value.state,
            some ⟨value.finalizationId, authority'⟩⟩)) := by
  unfold parseRecordWith at h
  split at h
  · cases h
  rename_i hidentity
  refine ⟨not_not.mp hidentity, ?_⟩
  split at h
  · rename_i hsucceeded
    obtain ⟨result, hresult, h⟩ := Option.bind_eq_some_iff.mp h
    obtain ⟨parsed, hparsed, h⟩ := Option.bind_eq_some_iff.mp h
    unfold parseResultRecordWith at hparsed
    split at hparsed
    · cases hparsed
    obtain ⟨authority', hauthority, hparsed⟩ := Option.bind_eq_some_iff.mp hparsed
    cases hparsed
    split at h
    · cases h
    rename_i hsame
    obtain ⟨resultId, authority⟩ := result
    obtain rfl : resultId = value.finalizationId := not_not.mp hsame
    exact Or.inr ⟨hsucceeded, authority, authority', hresult, hauthority, (Option.some.inj h).symm⟩
  · rename_i hsucceeded
    split at h
    · cases h
    rename_i hnone
    exact Or.inl ⟨hsucceeded, Option.not_isSome_iff_eq_none.mp hnone, (Option.some.inj h).symm⟩

/-- The result of a record, if it has one, was admitted. -/
def ResultAdmitted (record : FinalizationRecord U) : Prop :=
  ∀ result, record.finalizationResult = some result →
    admitFinalizationResultAuthority result.authority = some result.authority

theorem resultAdmitted_of_admit {record record' : FinalizationRecord U}
    (h : admitFinalizationRecord record = some record') :
    ResultAdmitted record' := by
  obtain ⟨-, ⟨-, -, rfl⟩ | ⟨-, authority, authority', -, hauthority, rfl⟩⟩ := parseRecordWith_eq_some h
  · intro result hresult
    cases hresult
  · intro result hresult
    obtain rfl := Option.some.inj hresult
    exact stable_resultAuthority hauthority

/-- Admitting a record again changes nothing. -/
theorem admitFinalizationRecord_unchanged {record record' : FinalizationRecord U}
    (hresult : ResultAdmitted record) (h : admitFinalizationRecord record = some record') :
    record' = record := by
  obtain ⟨sessionId, finalizationId, scenarioContext, state, finalizationResult⟩ := record
  obtain ⟨-, ⟨-, hnone, rfl⟩ | ⟨-, authority, authority', hsome, hauthority, rfl⟩⟩ :=
    parseRecordWith_eq_some h
  · simp only at hnone
    rw [hnone]
  · have hadmitted : admitFinalizationResultAuthority authority = some authority :=
      hresult ⟨finalizationId, authority⟩ hsome
    rw [hadmitted, Option.some.injEq] at hauthority
    simp only at hsome
    rw [← hauthority, hsome]

/-- ROUND TRIP: an admitted record is stored and read back unchanged. -/
theorem decode_encode {record record' : FinalizationRecord U}
    (h : admitFinalizationRecord record = some record') :
    ∃ stored, encodeFinalizationRecord record' = some stored ∧
    decodeFinalizationRecord stored = some record' := by
  obtain ⟨hidentity, ⟨hstatus, -, rfl⟩ | ⟨hstatus, authority, authority', -, hauthority, rfl⟩⟩ :=
    parseRecordWith_eq_some h
  · refine ⟨_, if_pos hstatus, ?_⟩
    exact (if_neg (not_not.mpr hidentity)).trans ((if_neg hstatus).trans rfl)
  · refine ⟨_, if_neg (not_not.mpr hstatus), ?_⟩
    have hparse :
        parseFinalizationResultAuthority (encodeFinalizationResultAuthority authority') =
          some authority' :=
      stable_resultAuthority hauthority
    have hsafe : isSafeVerifierSegment record.finalizationId = true := by
      simp only [parseFinalizationRecordIdentity, Bool.and_eq_true] at hidentity
      exact hidentity.1.1.1.2
    refine (if_neg (not_not.mpr hidentity)).trans ((if_pos hstatus).trans ?_)
    simp [parseResultRecordWith, hsafe, hparse]

/-- What the codec admitted it admits as it is. -/
theorem stable_admitFinalizationRecord : Stable (@admitFinalizationRecord U) := by
  intro value record h
  obtain ⟨hidentity, ⟨hstatus, -, rfl⟩ | ⟨hstatus, authority, authority', -, hauthority, rfl⟩⟩ :=
    parseRecordWith_eq_some h
  · exact (if_neg (not_not.mpr hidentity)).trans ((if_neg hstatus).trans rfl)
  · have hagain : admitFinalizationResultAuthority authority' = some authority' :=
      stable_resultAuthority hauthority
    have hsafe : isSafeVerifierSegment value.finalizationId = true := by
      simp only [parseFinalizationRecordIdentity, Bool.and_eq_true] at hidentity
      exact hidentity.1.1.1.2
    refine (if_neg (not_not.mpr hidentity)).trans ((if_pos hstatus).trans ?_)
    simp [parseResultRecordWith, hsafe, hagain]

end ReadBack

end StarkBallot.Application
