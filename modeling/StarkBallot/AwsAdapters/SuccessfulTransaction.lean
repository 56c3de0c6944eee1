import StarkBallot.AwsAdapters.DynamoRecords

/-! The one transaction that commits a successful finalization
    (`aws-adapters/src/store/successful-finalization-transaction.ts`,
    `successfulFinalizationReceipt.ts`): the pointer, the record, the receipt with its place on the
    board, the verification result, the bitmap, the metadata and the new expiry of the session's items.
    What was read decides each condition; what must not be there yet is checked even when nothing is
    written in its place.

    The store that commits this way does not ask the policy. What it writes is what the policy applies,
    exactly when the end of the finalization is a safe integer
    (`transaction_agrees_with_policy_iff`). -/

namespace StarkBallot.AwsAdapters.Dynamo
open Schemes ContractCore Domain Application

variable {U : Type} (sha256 : List UInt8 → Bytes 32)

/-! ### Receipts -/

/-- A place on the board; `toPublication` is the record's account of it. -/
structure ReceiptPublication where
  receiptHash : JsString
  boardIndex : ℕ
  timestamp : Num
  deriving DecidableEq

def ReceiptPublication.toPublication (publication : ReceiptPublication) :
    FinalizationReceiptPublication :=
  ⟨publication.receiptHash, .ofNat publication.boardIndex, some publication.timestamp⟩

def firstReceiptBoardIndex : ℕ := 100

/-- Preserve an existing publication identity when retrying the same receipt. -/
def prepareReceiptPublication (receipt : Option SuccessfulFinalizationReceipt)
    (existing : Option ReceiptItem) (nextBoardIndex : ℕ) : Option ReceiptPublication :=
  receipt.map fun receipt => {
    receiptHash :=
      (existing.map (·.receiptHash)).getD (computeSuccessfulFinalizationReceiptHash sha256 receipt)
    boardIndex := (existing.map (·.boardIndex)).getD nextBoardIndex
    timestamp := receipt.timestamp }

/-! ### The transaction -/

structure SuccessfulCommitMetadata where
  existingRuntime : Option (MetadataItem AwsFinalizationRuntimeMetadata)
  runtimeMetadata : Option AwsFinalizationRuntimeMetadata
  existingDelivery : Option (MetadataItem AwsVerificationDeliveryMetadata)
  deliveryMetadata : Option AwsVerificationDeliveryMetadata

/-- An unavailable bitmap is `none`. -/
structure SuccessfulFinalizationWrite (U : Type) where
  requested : SuccessfulFinalizationRecord U
  committed : SuccessfulFinalizationRecord U
  revision : EncodedLifecycleRevision
  receipt : Option SuccessfulFinalizationReceipt
  receiptPublication : Option ReceiptPublication
  counter : Option ReceiptCounterItem
  verification : Option VerificationResultRecord
  bitmap : Option FinalizationBitmapData
  metadata : SuccessfulCommitMetadata

structure TransactionStorage (U : Type) where
  expiresAt : ℕ
  ttlItems : List (TransactItem (Item U))

section Writes

variable (input : SuccessfulFinalizationWrite U) (storage : TransactionStorage U)

/-- The condition on the counter that was read, or on its absence. -/
def matchCounter (counter : Option ReceiptCounterItem) (item : Option ReceiptCounterItem) : Bool :=
  match counter with
  | some counter => item.any fun item => item.nextBoardIndex = counter.nextBoardIndex
  | none => item.isNone

def receiptPublicationWrites : List (TransactItem (Item U)) :=
  match input.receipt, input.receiptPublication with
  | some receipt, some publication =>
    [putItem (.receipt input.requested.sessionId input.requested.finalizationId)
        ⟨publication.receiptHash, publication.boardIndex, receipt, storage.expiresAt⟩ isAbsent,
      putItem .receiptCounter ⟨publication.boardIndex + 1⟩ (matchCounter input.counter)]
  | _, _ => []

def verificationWrites : List (TransactItem (Item U)) :=
  let key := Key.verification input.requested.sessionId input.requested.finalizationId
  match input.verification with
  | some verification => [putItem key ⟨verification, 1, storage.expiresAt⟩ isAbsent]
  | none => [conditionCheck key isAbsent]

def bitmapWrites : List (TransactItem (Item U)) :=
  let key := Key.bitmap input.requested.sessionId input.requested.finalizationId
  match input.bitmap with
  | some data => [putItem key ⟨data, storage.expiresAt⟩ isAbsent]
  | none => [conditionCheck key isAbsent]

def nextRevision {M : Type} (existing : Option (MetadataItem M)) : ℕ :=
  (existing.map (·.revision)).getD 0 + 1

def metadataWrites : List (TransactItem (Item U)) :=
  let metadata := input.metadata
  (match metadata.runtimeMetadata with
    | some runtimeMetadata =>
      [putItem (.runtimeMetadata input.requested.sessionId input.requested.finalizationId)
        ⟨runtimeMetadata, nextRevision metadata.existingRuntime, storage.expiresAt⟩
        (matchItemRevision (·.revision) (metadata.existingRuntime.map (·.revision)))]
    | none => []) ++
  match metadata.deliveryMetadata with
  | some deliveryMetadata =>
    [putItem (.deliveryMetadata input.requested.sessionId input.requested.finalizationId)
      ⟨deliveryMetadata, nextRevision metadata.existingDelivery, storage.expiresAt⟩
      (matchItemRevision (·.revision) (metadata.existingDelivery.map (·.revision)))]
  | none => []

/-- The condition on the pointer: the revision that was read, still for this attempt. -/
def matchPointer (revision : EncodedLifecycleRevision) (finalizationId : JsString)
    (item : Option CurrentFinalizationItem) : Bool :=
  match revision.currentFinalizationId with
  | none => item.isNone
  | some _ =>
    item.any fun item => item.revision = revision.revision && item.currentFinalizationId = finalizationId

/-- The condition on the record of the attempt. -/
def matchRecord (revision : EncodedLifecycleRevision) : Option (PersistedFinalizationItem U) → Bool :=
  matchItemRevision (·.revision) (revision.currentFinalizationId.map fun _ => revision.revision)

/-- Pure assembly: the caller acquires current TTL authority and writes all items atomically. -/
def buildSuccessfulFinalizationTransaction : JsM (List (TransactItem (Item U))) := do
  let nextRevision := input.revision.revision + 1
  let stored ← okOr (encodeFinalizationRecord input.committed.toRecord)
    (.error "Succeeded finalization record is missing its result authority")
  return [putItem (.currentFinalization input.requested.sessionId)
      ⟨⟨input.requested.finalizationId, nextRevision⟩, storage.expiresAt⟩
      (matchPointer input.revision input.requested.finalizationId),
    putItem (.finalization input.requested.sessionId input.requested.finalizationId)
      ⟨⟨stored, nextRevision⟩, storage.expiresAt⟩ (matchRecord input.revision)] ++
    receiptPublicationWrites input storage ++ verificationWrites input storage ++
      bitmapWrites input storage ++ metadataWrites input storage ++ storage.ttlItems

end Writes

/-! ### The policy's account -/

/-- Among the writes is the record of the attempt, in a form that is read back as it is. -/
def WritesRecord (items : List (TransactItem (Item U))) (record : FinalizationRecord U) : Prop :=
  ∃ stored revision expiresAt condition, encodeFinalizationRecord record = some stored ∧
    decodeFinalizationRecord stored = some record ∧
    putItem (.finalization record.sessionId record.finalizationId) ⟨⟨stored, revision⟩, expiresAt⟩
      condition ∈ items

/-- The policy applies the success of the record that is written. -/
def AgreesWithPolicy (current : Option (FinalizationRecord U))
    (committed : SuccessfulFinalizationRecord U) (evaluatedAtMs : Num)
    (items : List (TransactItem (Item U))) : Prop :=
  ∃ state reason next, evaluateFinalizationTransition current (succeedCommand committed) evaluatedAtMs =
    .applied state reason next ∧ WritesRecord items next

theorem writesRecord_of_build {input : SuccessfulFinalizationWrite U} {storage : TransactionStorage U}
    {items : List (TransactItem (Item U))}
    (hadmitted : input.committed.IsAdmitted)
    (hsession : input.committed.sessionId = input.requested.sessionId)
    (hid : input.committed.finalizationId = input.requested.finalizationId)
    (h : buildSuccessfulFinalizationTransaction input storage = .ok items) :
    WritesRecord items input.committed.toRecord := by
  obtain ⟨stored, hstored, h⟩ := bind_eq_ok.mp h
  obtain rfl := Except.ok.inj h
  have hencode := okOr_eq_ok.mp hstored
  obtain ⟨stored', hencode', hdecode⟩ := decode_encode hadmitted
  obtain rfl : stored' = stored := Option.some.inj (hencode'.symm.trans hencode)
  have hsession' : input.committed.toRecord.sessionId = input.requested.sessionId := hsession
  have hid' : input.committed.toRecord.finalizationId = input.requested.finalizationId := hid
  rw [WritesRecord, hsession', hid']
  refine ⟨stored', input.revision.revision + 1, storage.expiresAt, matchRecord input.revision, hencode,
    hdecode, ?_⟩
  simp only [List.append_assoc, List.mem_append]
  exact .inl (List.mem_cons_of_mem _ List.mem_cons_self)

/-- EXACT: the transaction writes what the policy applies, as long as the end is a safe integer. -/
theorem transaction_agrees_with_policy_iff {value : FinalizationRecord U}
    {input : SuccessfulFinalizationWrite U} {storage : TransactionStorage U}
    {items : List (TransactItem (Item U))} {current : Option (FinalizationRecord U)}
    {evaluatedAtMs : Num}
    (hrequested : admitSuccessfulFinalizationCommitRecord value = .ok input.requested)
    (hcurrent : ∀ record, current = some record → (admitFinalizationRecord record).isSome ∧
      record.sessionId = input.requested.sessionId ∧
      (record.state.status = .pending ∨ record.state.status = .running))
    (hadmission : assertSuccessfulFinalizationLifecycleAdmission input.requested current = .ok ())
    (hcommitted : buildPublishedSuccessfulFinalization input.requested
      (input.receiptPublication.map (·.toPublication)) = .ok input.committed)
    (hitems : buildSuccessfulFinalizationTransaction input storage = .ok items)
    (hevaluated : isTime evaluatedAtMs = true) :
    AgreesWithPolicy current input.committed evaluatedAtMs items ↔
      isTime input.requested.completedAtMs = true := by
  obtain ⟨hadmitted, hsession, hid, -, -, -, hcompleted⟩ := published_of_build hcommitted
  rw [← hcompleted]
  constructor
  · rintro ⟨state, reason, next, happlied, -⟩
    exact isTime_of_evaluate_succeed happlied
  · intro hsafe
    have hfollowed := isFollowedBy_of_admission hcurrent hadmission hsession hid
    obtain ⟨reason, happlied⟩ :=
      (evaluate_succeed_iff (commitAdmitted_of_admission hrequested) hcommitted hfollowed
      hevaluated).mpr hsafe
    exact ⟨_, reason, _, happlied, writesRecord_of_build hadmitted hsession hid hitems⟩

/-! ### Runs on one record -/

def zeroHash : JsString := List.replicate 64 '0'

/-- One vote, counted. -/
def sampleAuthority : FinalizationResultAuthority Unit where
  tally := ⟨#v[.ofNat 1, .ofNat 0, .ofNat 0, .ofNat 0, .ofNat 0], .ofNat 1, .ofNat 0⟩
  imageId := []
  journal := {
    electionId := js "550e8400-e29b-41d4-a716-446655440000"
    electionConfigHash := zeroHash
    bulletinRoot := zeroHash
    treeSize := .ofNat 1
    totalExpected := .ofNat 1
    sthDigest := zeroHash
    verifiedTally := #v[.ofNat 1, .ofNat 0, .ofNat 0, .ofNat 0, .ofNat 0]
    totalVotes := .ofNat 1
    validVotes := .ofNat 1
    invalidVotes := .ofNat 0
    seenIndicesCount := .ofNat 1
    missingSlots := .ofNat 0
    invalidPresentedSlots := .ofNat 0
    rejectedRecords := .ofNat 0
    seenBitmapRoot := zeroHash
    includedBitmapRoot := zeroHash
    excludedSlots := .ofNat 0
    inputCommitment := zeroHash
    methodVersion := .ofNat ContractCore.currentMethodVersion
    imageId := none }
  tamperDetected := none
  scenarios := none
  tamperSummary := none
  artifacts := ⟨none, none, none, none⟩

/-- A success with this end. -/
def sampleSuccess (completedAtMs : Num) : SuccessfulFinalizationRecord Unit :=
  ⟨js "s", js "f", quietContext, .ofNat 1, .ofNat 2, completedAtMs, sampleAuthority⟩

/-- A commit of it on a session without a finalization. -/
def sampleWrite (completedAtMs : Num) : SuccessfulFinalizationWrite Unit :=
  ⟨sampleSuccess completedAtMs, sampleSuccess completedAtMs, ⟨none, 0⟩, none, none, none, none, none,
    ⟨none, none, none, none⟩⟩

theorem sampleWrite_admitted :
    admitSuccessfulFinalizationCommitRecord (sampleSuccess (.ofNat 3)).toRecord =
    .ok (sampleSuccess (.ofNat 3)) := by
  decide +kernel

/-- A success that ends in time agrees. -/
theorem transaction_agrees_with_policy_on_sample :
    ∃ items, buildSuccessfulFinalizationTransaction (sampleWrite (.ofNat 3)) ⟨0, []⟩ = .ok items ∧
      AgreesWithPolicy none (sampleSuccess (.ofNat 3)) (.ofNat 4) items := by
  refine ⟨_, rfl, ?_⟩
  exact (@transaction_agrees_with_policy_iff _ _ (sampleWrite (.ofNat 3)) _ _ none _ sampleWrite_admitted
    (fun _ hrecord => by cases hrecord) rfl (by decide +kernel) rfl rfl).mpr rfl

/-- A success that ends at 2^53 is admitted and written, and the policy does not apply it. -/
theorem late_success_disagrees_with_policy :
    ¬ (∀ (value : FinalizationRecord Unit) (input : SuccessfulFinalizationWrite Unit)
        (storage : TransactionStorage Unit)
        (items : List (TransactItem (Item Unit))) (current : Option (FinalizationRecord Unit))
        (evaluatedAtMs : Num),
      admitSuccessfulFinalizationCommitRecord value = .ok input.requested →
      (∀ record, current = some record → (admitFinalizationRecord record).isSome ∧
        record.sessionId = input.requested.sessionId ∧
        (record.state.status = .pending ∨ record.state.status = .running)) →
      assertSuccessfulFinalizationLifecycleAdmission input.requested current = .ok () →
      buildPublishedSuccessfulFinalization input.requested
        (input.receiptPublication.map (·.toPublication)) = .ok input.committed →
      buildSuccessfulFinalizationTransaction input storage = .ok items →
      isTime evaluatedAtMs = true → AgreesWithPolicy current input.committed evaluatedAtMs items) := by
  intro h
  have hadmitted :
      admitSuccessfulFinalizationCommitRecord (sampleSuccess (.ofNat 9007199254740992)).toRecord =
      .ok (sampleSuccess (.ofNat 9007199254740992)) := by decide +kernel
  obtain ⟨state, reason, next, happlied, -⟩ :=
    h _ (sampleWrite (.ofNat 9007199254740992)) ⟨0, []⟩ _ none (.ofNat 4)
    hadmitted (fun _ hrecord => by cases hrecord) rfl (by decide +kernel) rfl rfl
  have hlate := isTime_of_evaluate_succeed happlied
  revert hlate
  decide +kernel

end StarkBallot.AwsAdapters.Dynamo
