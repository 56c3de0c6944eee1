import StarkBallot.Schemes.Transactions
import StarkBallot.Application.SuccessfulCommit
import StarkBallot.Application.VerificationResult
import StarkBallot.AwsAdapters.FinalizationLifecycle
import StarkBallot.AwsAdapters.VoteItems

/-! Items of the store's tables and their keys (`aws-adapters/src/store/dynamo-records.ts`,
    `aws-adapters/src/finalize/finalizationMetadataAdmission.ts`). The text of a key names the kind of
    an item and whose it is, so a key is a value here and the type of its item follows from it; fields
    that repeat the key are left out. What is left of a parser are its checks on the values.

        identity s      voting s      vote s i
        currentFinalization s ──▶ finalization s f ── verification, verificationRollback, bitmap, metadata, receipt
        receiptCounter

    Every item but the counter says when it expires. An expired item may still be there. -/

namespace StarkBallot.AwsAdapters.Dynamo
open Schemes CryptoPrimitives Domain Application

/-! ### Items -/

inductive Key where
  | identity (sessionId : JsString)
  | voting (sessionId : JsString)
  | vote (sessionId : JsString) (voteIndex : ℕ)
  | currentFinalization (sessionId : JsString)
  | finalization (sessionId finalizationId : JsString)
  | verification (sessionId finalizationId : JsString)
  | verificationRollback (sessionId finalizationId : JsString)
  | bitmap (sessionId finalizationId : JsString)
  | runtimeMetadata (sessionId finalizationId : JsString)
  | deliveryMetadata (sessionId finalizationId : JsString)
  | receipt (sessionId finalizationId : JsString)
  | receiptCounter
  deriving DecidableEq

structure IdentityItem where
  identity : SessionIdentityRecord
  expiresAt : ℕ

structure VotingItem where
  record : PersistedVotingRecord
  revision : ℕ
  expiresAt : ℕ

structure CurrentFinalizationItem extends AwsAdapters.CurrentFinalizationItem where
  expiresAt : ℕ

structure PersistedFinalizationItem (U : Type) extends FinalizationItemOf
    (PersistedFinalizationRecord U) where
  expiresAt : ℕ

structure VerificationItem where
  record : VerificationResultRecord
  revision : ℕ
  expiresAt : ℕ
  deriving DecidableEq

structure VerificationRollbackItem where
  record : Option VerificationResultRecord
  expiresAt : ℕ
  deriving DecidableEq

structure BitmapItem where
  bitmap : FinalizationBitmapData
  expiresAt : ℕ
  deriving DecidableEq

structure AwsFinalizationBundleMetadata where
  s3BundleKey : Option JsString
  s3UploadedAtMs : Option Num
  deriving DecidableEq

structure AwsFinalizationRuntimeMetadata where
  stepFunctionsArn : Option JsString
  bundleMetadata : Option AwsFinalizationBundleMetadata
  deriving DecidableEq

structure AwsVerificationDeliveryMetadata where
  s3BundleKey : Option JsString
  s3ReportKey : Option JsString
  s3UploadedAtMs : Option Num
  verificationWorkQueuedAtMs : Option Num
  deriving DecidableEq

structure MetadataItem (M : Type) where
  metadata : M
  revision : ℕ
  expiresAt : ℕ
  deriving DecidableEq

structure ReceiptItem where
  receiptHash : JsString
  boardIndex : ℕ
  receipt : SuccessfulFinalizationReceipt
  expiresAt : ℕ
  deriving DecidableEq

structure ReceiptCounterItem where
  nextBoardIndex : ℕ
  deriving DecidableEq

/-- A vote under its key. -/
abbrev VoteItemAt (sessionId : JsString) (voteIndex : ℕ) : Type :=
  { item : VoteItem // item.sessionId = sessionId ∧ item.voteIndex = voteIndex }

@[reducible] def Item (U : Type) : Key → Type
  | .identity _ => IdentityItem
  | .voting _ => VotingItem
  | .vote sessionId voteIndex => VoteItemAt sessionId voteIndex
  | .currentFinalization _ => CurrentFinalizationItem
  | .finalization _ _ => PersistedFinalizationItem U
  | .verification _ _ => VerificationItem
  | .verificationRollback _ _ => VerificationRollbackItem
  | .bitmap _ _ => BitmapItem
  | .runtimeMetadata _ _ => MetadataItem AwsFinalizationRuntimeMetadata
  | .deliveryMetadata _ _ => MetadataItem AwsVerificationDeliveryMetadata
  | .receipt _ _ => ReceiptItem
  | .receiptCounter => ReceiptCounterItem

variable {U : Type}

/-- When the item under a key expires, in seconds. -/
def expiresAt : (key : Key) → Item U key → Option ℕ
  | .identity _, item => some item.expiresAt
  | .voting _, item => some item.expiresAt
  | .vote _ _, item => some item.1.expiresAt
  | .currentFinalization _, item => some item.expiresAt
  | .finalization _ _, item => some item.expiresAt
  | .verification _ _, item => some item.expiresAt
  | .verificationRollback _ _, item => some item.expiresAt
  | .bitmap _ _, item => some item.expiresAt
  | .runtimeMetadata _ _, item => some item.expiresAt
  | .deliveryMetadata _ _, item => some item.expiresAt
  | .receipt _ _, item => some item.expiresAt
  | .receiptCounter, _ => none

def isExpiredItem (nowMs : ℕ) (key : Key) (item : Item U key) : Bool :=
  (expiresAt key item).any (· ≤ nowMs / 1000)

/-! ### Parsers -/

def isSafe (value : ℕ) : Bool := value ≤ Num.maxSafeInteger

def isPositiveSafe (value : Num) : Bool := value.isSafeInteger && (Num.ofNat 0).lt value

def isElectionConfig (config : ElectionConfig) : Bool :=
  isPositiveSafe config.totalExpected && config.choices ≠ [] && config.choices.all (· ≠ []) &&
    config.version ≠ [] &&
    isNonNegativeSafeInteger config.botCount && isPositiveSafe config.merkleTreeDepth

def parseSessionIdentityRecord : SessionIdentityRecord → Option SessionIdentityRecord :=
  accept fun identity =>
  isSafeVerifierSegment identity.sessionId && matchesUuid "4" identity.electionId &&
  isValidHexString identity.electionConfigHash (some 32) && isElectionConfig identity.electionConfig &&
  isValidHexString identity.logId (some 32) && isNonNegativeSafeInteger identity.createdAtMs

def parseIdentityItem (expectedSessionId : JsString) : IdentityItem → Option IdentityItem :=
  accept fun item =>
  isSafe item.expiresAt && (parseSessionIdentityRecord item.identity).isSome &&
  item.identity.sessionId = expectedSessionId

/-- The root in its one spelling. -/
def parseRootSnapshot (snapshot : RootSnapshot) : Option RootSnapshot := do
  if ¬ isNonNegativeSafeInteger snapshot.timestamp ∨ ¬ isPositiveSafeInteger snapshot.treeSize ∨
      ¬ isValidHexString snapshot.root (some 32) then none
  else
    return { snapshot with root := ← (normalizeHex snapshot.root { allowOddLength := false }).toOption }

def parseUserParticipation : UserParticipation → Option UserParticipation := accept fun participation =>
  (voteIndexOf participation).all isSafe

def parsePersistedVotingRecord (expectedSessionId : JsString) (value : PersistedVotingRecord) :
    Option PersistedVotingRecord := do
  let userParticipation ← parseUserParticipation value.userParticipation
  if value.sessionId ≠ expectedSessionId ∨ ¬ isSafe value.botCount ∨
      ¬ isNonNegativeSafeInteger value.lastActivityMs then none
  else
    let bulletinRootHistory ← value.bulletinRootHistory.mapM parseRootSnapshot
    return { value with
      bulletinRootHistory := bulletinRootHistory, userParticipation := userParticipation }

def parseVotingItem (expectedSessionId : JsString) (item : VotingItem) : Option VotingItem := do
  if ¬ isSafe item.revision ∨ ¬ isSafe item.expiresAt then none
  else return { item with record := ← parsePersistedVotingRecord expectedSessionId item.record }

def parseVoteItem (expectedSessionId : JsString) : VoteItem → Option VoteItem := accept fun item =>
  item.sessionId = expectedSessionId && isSafe item.voteIndex &&
    isNonNegativeSafeInteger item.timestamp && isSafe item.expiresAt

def parseCurrentFinalizationItem (item : CurrentFinalizationItem) : Option CurrentFinalizationItem := do
  if ¬ isSafe item.expiresAt then none
  else return ⟨← AwsAdapters.parseCurrentFinalizationItem item.toCurrentFinalizationItem, item.expiresAt⟩

def parseFinalizationItem (expectedSessionId expectedFinalizationId : JsString)
    (item : PersistedFinalizationItem U) :
    Option (FinalizationItemOf (FinalizationRecord U)) := do
  if ¬ isSafe item.expiresAt then none
  else
    AwsAdapters.parseFinalizationItem expectedSessionId expectedFinalizationId item.toFinalizationItemOf

/-- A verification record of this finalization. -/
def parseOwnVerificationRecord (expectedSessionId expectedFinalizationId : JsString) :
    VerificationResultRecord → Option VerificationResultRecord := accept fun record =>
  (parseVerificationResultRecord record).isSome && record.sessionId = expectedSessionId &&
  record.finalizationId = expectedFinalizationId

def parseVerificationItem (expectedSessionId expectedFinalizationId : JsString) :
    VerificationItem → Option VerificationItem := accept fun item =>
  isPositiveSafeInteger item.revision && isSafe item.expiresAt &&
  (parseOwnVerificationRecord expectedSessionId expectedFinalizationId item.record).isSome

def parseRollbackItem (expectedSessionId expectedFinalizationId : JsString) :
    VerificationRollbackItem → Option VerificationRollbackItem := accept fun item =>
  isSafe item.expiresAt &&
  item.record.all fun record =>
    (parseOwnVerificationRecord expectedSessionId expectedFinalizationId record).isSome

def parseBitmapItem : BitmapItem → Option BitmapItem := accept fun item =>
  isSafe item.expiresAt && (parseFinalizationBitmapData item.bitmap).isSome

def isOptionalNonEmptyString (value : Option JsString) : Bool := value.all (· ≠ [])

def isOptionalTimestamp (value : Option Num) : Bool := value.all isNonNegativeSafeInteger

def parseAwsFinalizationBundleMetadata :
    AwsFinalizationBundleMetadata → Option AwsFinalizationBundleMetadata :=
  accept fun value => isOptionalNonEmptyString value.s3BundleKey &&
    isOptionalTimestamp value.s3UploadedAtMs

def parseAwsFinalizationRuntimeMetadata :
    AwsFinalizationRuntimeMetadata → Option AwsFinalizationRuntimeMetadata :=
  accept fun value => isOptionalNonEmptyString value.stepFunctionsArn &&
    value.bundleMetadata.all fun bundle => (parseAwsFinalizationBundleMetadata bundle).isSome

def parseAwsVerificationDeliveryMetadata :
    AwsVerificationDeliveryMetadata → Option AwsVerificationDeliveryMetadata :=
  accept fun value => isOptionalNonEmptyString value.s3BundleKey &&
    isOptionalNonEmptyString value.s3ReportKey &&
    isOptionalTimestamp value.s3UploadedAtMs && isOptionalTimestamp value.verificationWorkQueuedAtMs

/-- The items of both kinds of metadata. -/
def parseMetadataItem {M : Type} (parseMetadata : M → Option M) (item : MetadataItem M) :
    Option (MetadataItem M) := do
  if ¬ isPositiveSafeInteger item.revision ∨ ¬ isSafe item.expiresAt then none
  else return { item with metadata := ← parseMetadata item.metadata }

def parseRuntimeMetadataItem :
    MetadataItem AwsFinalizationRuntimeMetadata → Option (MetadataItem AwsFinalizationRuntimeMetadata) :=
  parseMetadataItem parseAwsFinalizationRuntimeMetadata

def parseDeliveryMetadataItem :
    MetadataItem AwsVerificationDeliveryMetadata →
    Option (MetadataItem AwsVerificationDeliveryMetadata) :=
  parseMetadataItem parseAwsVerificationDeliveryMetadata

/-! ### Metadata -/

/-- Apply an admitted runtime patch without replacing unrelated bundle fields. -/
def mergeFinalizationRuntimeMetadata (current : Option AwsFinalizationRuntimeMetadata)
    (patch : AwsFinalizationRuntimeMetadata) : AwsFinalizationRuntimeMetadata where
  stepFunctionsArn := patch.stepFunctionsArn <|> current.bind (·.stepFunctionsArn)
  bundleMetadata :=
    match current.bind (·.bundleMetadata), patch.bundleMetadata with
    | none, bundle => bundle
    | some bundle, none => some bundle
    | some bundle, some patch =>
      some ⟨patch.s3BundleKey <|> bundle.s3BundleKey, patch.s3UploadedAtMs <|> bundle.s3UploadedAtMs⟩

/-- Runtime publication owns only bundle delivery fields, never report or queue metadata. -/
def projectRuntimeBundleDelivery (metadata : Option AwsFinalizationRuntimeMetadata) :
    Option AwsVerificationDeliveryMetadata := do
  let bundle ← (← metadata).bundleMetadata
  return ⟨nonEmpty bundle.s3BundleKey, none, bundle.s3UploadedAtMs, none⟩

def mergeDeliveryMetadata (current : Option AwsVerificationDeliveryMetadata)
    (patch : AwsVerificationDeliveryMetadata) : AwsVerificationDeliveryMetadata where
  s3BundleKey := patch.s3BundleKey <|> current.bind (·.s3BundleKey)
  s3ReportKey := patch.s3ReportKey <|> current.bind (·.s3ReportKey)
  s3UploadedAtMs := patch.s3UploadedAtMs <|> current.bind (·.s3UploadedAtMs)
  verificationWorkQueuedAtMs :=
    patch.verificationWorkQueuedAtMs <|> current.bind (·.verificationWorkQueuedAtMs)

/-! ### Receipts -/

section Receipts

variable (sha256 : List UInt8 → Bytes 32)

/-- The hash of the text and of the digits of the time. -/
def computeSuccessfulFinalizationReceiptHash (receipt : SuccessfulFinalizationReceipt) : JsString :=
  prefixed (sha256 ((String.ofList receipt.receipt).toUTF8.toList ++ ascii receipt.timestamp.toText))

def parseReceiptItem : ReceiptItem → Option ReceiptItem := accept fun item =>
  isSafe item.boardIndex && isSafe item.expiresAt && isNonNegativeSafeInteger item.receipt.timestamp &&
  item.receiptHash = computeSuccessfulFinalizationReceiptHash sha256 item.receipt

end Receipts

def parseReceiptCounterItem : ReceiptCounterItem → Option ReceiptCounterItem := accept fun item =>
  isSafe item.nextBoardIndex

/-! ### Writes -/

/-- `attribute_not_exists`. -/
def isAbsent {A : Type} (item : Option A) : Bool := item.isNone

/-- Compare the observed revision, or require absence for a new record. -/
def matchItemRevision {A : Type} (revisionOf : A → ℕ) (current : Option ℕ) (item : Option A) : Bool :=
  match current with
  | some revision => item.any fun item => revisionOf item = revision
  | none => item.isNone

def putItem (key : Key) (item : Item U key) (condition : Option (Item U key) → Bool) :
    TransactItem (Item U) :=
  ⟨key, condition, fun _ => some item⟩

def deleteItem (key : Key) (condition : Option (Item U key) → Bool := fun _ => true) :
    TransactItem (Item U) :=
  ⟨key, condition, fun _ => none⟩

def conditionCheck (key : Key) (condition : Option (Item U key) → Bool) : TransactItem (Item U) :=
  ⟨key, condition, id⟩

/-- `SET #expiresAt = :expiresAt` on an item that is there. -/
def updateItem (key : Key) (update : Item U key → Item U key) (condition : Item U key → Bool) :
    TransactItem (Item U) :=
  ⟨key, fun item => item.any condition, Option.map update⟩

end StarkBallot.AwsAdapters.Dynamo
