import StarkBallot.AwsAdapters.FileMockOperations
import StarkBallot.AwsAdapters.TableAlone
import StarkBallot.Schemes.Patches

/-! Delivery metadata in the three stores (`finalizationDeliveryMetadataStore.ts`,
    `mockSessionStore.ts`, `fileMockSessionStore.ts`, `dynamoSessionStore.ts`). The table merges a patch
    into the item that is there; the two mock stores put the patch in its place.

        recorded        bundle key            queued marker
        table           bundle key            bundle key, queued marker
        mock stores     bundle key            queued marker

    So a run of calls leaves the same in all of them exactly if the last patch has every field that was
    ever written. -/

namespace StarkBallot.AwsAdapters.Delivery
open Schemes Domain Application FileMock
open Dynamo hiding Operation

variable {U : Type} (sessionId finalizationId : JsString)

/-! ### The mock store -/

/-- The fields of a mock store that delivery metadata goes through. -/
structure MockFields where
  identityRecords : List (JsString × SessionIdentityRecord)
  deliveryMetadata : List (JsString × AwsVerificationDeliveryMetadata)

abbrev MockM := ExceptT JsError (StateM MockFields)

def buildDeliveryMetadataKey : JsString := sessionId ++ js ":" ++ finalizationId

def mockRequireIdentity : MockM SessionIdentityRecord := do
  let fields ← get
  match ((fields.identityRecords.lookup sessionId).bind parseSessionIdentityRecord).filter
      fun identity => identity.sessionId = sessionId with
  | some identity => return identity
  | none => throw (.error "Session identity is missing or invalid")

def mockRecordAwsProofBundlePublication (metadata : AwsVerificationDeliveryMetadata) : MockM Unit := do
  let _ ← mockRequireIdentity sessionId
  modify fun fields => { fields with
    deliveryMetadata :=
      mapSet fields.deliveryMetadata (buildDeliveryMetadataKey sessionId finalizationId) metadata }

def mockGetAwsVerificationDeliveryMetadata : MockM (Option AwsVerificationDeliveryMetadata) := do
  return (← get).deliveryMetadata.lookup (buildDeliveryMetadataKey sessionId finalizationId)

/-! ### The file store -/

def fileRecordAwsProofBundlePublication (metadata : AwsVerificationDeliveryMetadata) :
    StoreM U Unit := do
  let _ ← FileMock.recordAwsProofBundlePublication sessionId finalizationId metadata
  return

def fileGetAwsVerificationDeliveryMetadata : StoreM U (Option AwsVerificationDeliveryMetadata) := do
  return (← get).state.deliveryMetadataRecords.lookup (scopedKey sessionId finalizationId)

/-! ### The table -/

section Table

variable (config : StoreConfig)

/-- Metadata updates cannot replace an existing expired or malformed record. -/
def admitMetadataForMerge {α β : Type} (presence : Presence α) (parse : α → Option β)
    (message : String) :
    Dynamo.Call U (Option β) :=
  match presence with
  | .absent => return none
  | .expired => storeError message
  | .active item =>
    match parse item with
    | some parsed => return some parsed
    | none => storeError message

def putDelivery (item : MetadataItem AwsVerificationDeliveryMetadata)
    (current : Option (MetadataItem AwsVerificationDeliveryMetadata)) : TransactItem (Item U) :=
  putItem (.deliveryMetadata sessionId finalizationId) item
    (matchItemRevision (·.revision) (current.map (·.revision)))

/-- The item of the next revision, if nobody has written one in between. -/
def putMetadataRevision (item : MetadataItem AwsVerificationDeliveryMetadata)
    (current : Option (MetadataItem AwsVerificationDeliveryMetadata)) (attemptIndex : ℕ) :
    Dynamo.Call U Bool :=
  catchConflict attemptIndex (Dynamo.writeTransaction .writeVerification
    [putDelivery sessionId finalizationId item current])

/-- The loop over the attempts. -/
def mergeAttempts (patch : AwsVerificationDeliveryMetadata) : (left : ℕ) → Dynamo.Call U Unit
  | 0 => return
  | left + 1 => do
    let presence ← readItem (.deliveryMetadata sessionId finalizationId)
    let current ← admitMetadataForMerge presence parseDeliveryMetadataItem
      "Invalid persisted AWS verification delivery metadata"
    let metadata := mergeDeliveryMetadata (current.map (·.metadata)) patch
    let expiresAt ← artifactExpiresAt config
    let item : MetadataItem AwsVerificationDeliveryMetadata :=
      ⟨metadata, (current.map (·.revision)).getD 0 + 1, expiresAt⟩
    if ← putMetadataRevision sessionId finalizationId item current
        (maxConditionalRetries - (left + 1)) then return
    else mergeAttempts patch left

/-- `mergeDeliveryMetadata`, which both ways to record come to. -/
def tableRecordAwsProofBundlePublication (patch : AwsVerificationDeliveryMetadata) :
    Dynamo.Call U Unit :=
  match parseAwsVerificationDeliveryMetadata patch with
  | none => storeError "Invalid AWS verification delivery metadata"
  | some admittedPatch => do
    let _ ← Dynamo.requireIdentity sessionId
    mergeAttempts sessionId finalizationId config admittedPatch maxConditionalRetries

def tableGetAwsVerificationDeliveryMetadata :
    Dynamo.Call U (Option AwsVerificationDeliveryMetadata) := do
  let item ← readActive (.deliveryMetadata sessionId finalizationId) parseDeliveryMetadataItem
    "Invalid persisted AWS verification delivery metadata"
  return item.map (·.metadata)

end Table

/-! ### Runs -/

/-- All patches recorded one after the other, and then what is there. -/
def recordAll {m : Type → Type} [Monad m] (record : AwsVerificationDeliveryMetadata → m Unit)
    (read : m (Option AwsVerificationDeliveryMetadata)) :
    List AwsVerificationDeliveryMetadata → m (Option AwsVerificationDeliveryMetadata)
  | [] => read
  | patch :: patches => do
    record patch
    recordAll record read patches

/-- Every field ever written, with its last written value. -/
def everWritten (patches : List AwsVerificationDeliveryMetadata) :
    Option AwsVerificationDeliveryMetadata :=
  merged mergeDeliveryMetadata patches none

/-- Whatever field the patch has, the last one has too. -/
def hasFieldsOf (last patch : AwsVerificationDeliveryMetadata) : Bool :=
  (!patch.s3BundleKey.isSome || last.s3BundleKey.isSome) &&
    (!patch.s3ReportKey.isSome || last.s3ReportKey.isSome) &&
  (!patch.s3UploadedAtMs.isSome || last.s3UploadedAtMs.isSome) &&
  (!patch.verificationWorkQueuedAtMs.isSome || last.verificationWorkQueuedAtMs.isSome)

/-- The last patch has every field that any patch has. -/
def lastHasAll (patches : List AwsVerificationDeliveryMetadata) : Bool :=
  patches.getLast?.all fun last => patches.all (hasFieldsOf last)

/-! ### What is written last and what is written at all -/

section Fields

variable {patches : List AwsVerificationDeliveryMetadata} {last : AwsVerificationDeliveryMetadata}

theorem keeps_bundleKey : KeepsField mergeDeliveryMetadata (·.s3BundleKey) := fun _ _ => rfl

theorem keeps_reportKey : KeepsField mergeDeliveryMetadata (·.s3ReportKey) := fun _ _ => rfl

theorem keeps_uploadedAt : KeepsField mergeDeliveryMetadata (·.s3UploadedAtMs) := fun _ _ => rfl

theorem keeps_queuedAt : KeepsField mergeDeliveryMetadata (·.verificationWorkQueuedAtMs) :=
  fun _ _ => rfl

/-- SPEC: each field as it was written last. -/
theorem everWritten_fields (patches : List AwsVerificationDeliveryMetadata) :
    (everWritten patches).bind (·.s3BundleKey) = (patches.filterMap (·.s3BundleKey)).getLast? ∧
    (everWritten patches).bind (·.s3ReportKey) = (patches.filterMap (·.s3ReportKey)).getLast? ∧
    (everWritten patches).bind (·.s3UploadedAtMs) = (patches.filterMap (·.s3UploadedAtMs)).getLast? ∧
    (everWritten patches).bind (·.verificationWorkQueuedAtMs) =
      (patches.filterMap (·.verificationWorkQueuedAtMs)).getLast? :=
  ⟨field_merged keeps_bundleKey patches, field_merged keeps_reportKey patches,
    field_merged keeps_uploadedAt patches, field_merged keeps_queuedAt patches⟩

/-- The last patch is all that was ever written, exactly if no other one has a field that it lacks. -/
theorem everWritten_eq_last_iff : everWritten (patches ++ [last]) = some last ↔
    patches.all (hasFieldsOf last) = true := by
  have hfields : mergeDeliveryMetadata (everWritten patches) last = last ↔
      ((∀ patch ∈ patches, patch.s3BundleKey.isSome = true → last.s3BundleKey.isSome = true) ∧
        (∀ patch ∈ patches, patch.s3ReportKey.isSome = true → last.s3ReportKey.isSome = true)) ∧
      (∀ patch ∈ patches, patch.s3UploadedAtMs.isSome = true → last.s3UploadedAtMs.isSome = true) ∧
      (∀ patch ∈ patches, patch.verificationWorkQueuedAtMs.isSome = true →
        last.verificationWorkQueuedAtMs.isSome = true) := by
    rw [← field_eq_last_iff keeps_bundleKey, ← field_eq_last_iff keeps_reportKey, ← field_eq_last_iff
      keeps_uploadedAt, ← field_eq_last_iff keeps_queuedAt]
    constructor
    · intro h
      rw [everWritten] at h
      rw [h]
      exact ⟨⟨rfl, rfl⟩, rfl, rfl⟩
    · rintro ⟨⟨hbundle, hreport⟩, huploaded, hqueued⟩
      rw [everWritten]
      generalize mergeDeliveryMetadata (merged mergeDeliveryMetadata patches none) last = whole at *
      cases whole
      cases last
      simp_all
  rw [everWritten, merged_append, Option.some.injEq]
  refine hfields.trans ?_
  simp only [List.all_eq_true, hasFieldsOf, Bool.and_eq_true, Bool.or_eq_true, Bool.not_eq_true',
    ← Bool.not_eq_true, ← imp_iff_not_or, and_assoc]
  constructor
  · rintro ⟨hbundle, hreport, huploaded, hqueued⟩ patch hmem
    exact ⟨hbundle patch hmem, hreport patch hmem, huploaded patch hmem, hqueued patch hmem⟩
  · intro h
    exact ⟨fun patch hmem => (h patch hmem).1, fun patch hmem => (h patch hmem).2.1,
      fun patch hmem => (h patch hmem).2.2.1, fun patch hmem => (h patch hmem).2.2.2⟩

/-- COVERED: what was written last is all that was ever written. -/
theorem getLast_eq_everWritten_iff :
    patches.getLast? = everWritten patches ↔ lastHasAll patches = true := by
  rcases List.eq_nil_or_concat patches with rfl | ⟨before, last, rfl⟩
  · exact ⟨fun _ => rfl, fun _ => rfl⟩
  · have hself : hasFieldsOf last last = true := by
      simp only [hasFieldsOf, Bool.not_or_self, Bool.and_self]
    rw [List.concat_eq_append, List.getLast?_append, List.getLast?_singleton, Option.some_or, eq_comm,
      everWritten_eq_last_iff, lastHasAll, List.getLast?_append, List.getLast?_singleton, Option.some_or,
      Option.all_some, List.all_append, List.all_cons, hself, List.all_nil, Bool.and_true, Bool.and_true]

end Fields

/-! ### Stores that replace -/

section Replacing

variable {σ ε : Type} {record : AwsVerificationDeliveryMetadata → ExceptT ε (StateM σ) Unit}
  {field : σ → Option AwsVerificationDeliveryMetadata} {ready : σ → Prop}

/-- RUN: a store that replaces what it holds is left with the last patch. -/
theorem exec_recordAll
    (hrecord : ∀ patch s, ready s → ∃ s', exec (record patch) s = (.ok (), s') ∧ ready s' ∧
      field s' = some patch)
    (patches : List AwsVerificationDeliveryMetadata) (s : σ) (hready : ready s) :
    (exec (recordAll record (do return field (← get)) patches) s).1 =
      .ok (patches.getLast? <|> field s) := by
  induction patches generalizing s with
  | nil => rfl
  | cons patch patches ih =>
    obtain ⟨s', hexec, hready', hfield⟩ := hrecord patch s hready
    rw [recordAll, exec_bind_ok hexec, ih s' hready', hfield, List.getLast?_cons]
    cases patches.getLast? <;> rfl

/-- The identity of the session is there and admitted. -/
def HasIdentity (sessionId : JsString) (identityRecords : List (JsString × SessionIdentityRecord)) :
    Prop :=
  ∃ identity, ((identityRecords.lookup sessionId).bind parseSessionIdentityRecord).filter
    (fun identity => identity.sessionId = sessionId) = some identity

variable {sessionId finalizationId}

theorem exec_mockRecord (patch : AwsVerificationDeliveryMetadata) (fields : MockFields)
    (hidentity : HasIdentity sessionId fields.identityRecords) :
    ∃ fields', exec (mockRecordAwsProofBundlePublication sessionId finalizationId patch) fields =
      (.ok (), fields') ∧
      HasIdentity sessionId fields'.identityRecords ∧
      fields'.deliveryMetadata.lookup (buildDeliveryMetadataKey sessionId finalizationId) =
        some patch := by
  obtain ⟨identity, hfound⟩ := hidentity
  have hrequire : exec (mockRequireIdentity sessionId) fields = (.ok identity, fields) := by
    rw [mockRequireIdentity, exec_get_bind, hfound]
    rfl
  let written : MockFields := ⟨fields.identityRecords,
    mapSet fields.deliveryMetadata (buildDeliveryMetadataKey sessionId finalizationId) patch⟩
  refine ⟨written, ?_, ⟨identity, hfound⟩, lookup_mapSet_self fields.deliveryMetadata _ patch⟩
  rw [mockRecordAwsProofBundlePublication, exec_bind_ok hrequire]
  rfl

theorem exec_fileRecord (patch : AwsVerificationDeliveryMetadata) (fields : Fields U)
    (hidentity : HasIdentity sessionId fields.state.identityRecords) :
    ∃ fields', exec (fileRecordAwsProofBundlePublication sessionId finalizationId patch) fields =
      (.ok (), fields') ∧
      HasIdentity sessionId fields'.state.identityRecords ∧
      fields'.state.deliveryMetadataRecords.lookup (scopedKey sessionId finalizationId) =
        some patch := by
  obtain ⟨identity, hfound⟩ := hidentity
  have hrequire : exec (FileMock.requireIdentity sessionId) fields = (.ok identity, fields) := by
    rw [FileMock.requireIdentity, exec_get_bind, hfound]
    rfl
  let written : Fields U := { fields with state := { fields.state with
    deliveryMetadataRecords :=
      mapSet fields.state.deliveryMetadataRecords (scopedKey sessionId finalizationId) patch } }
  have hrecord : exec (FileMock.recordAwsProofBundlePublication sessionId finalizationId patch) fields =
      (.ok ⟨.none, true⟩, written) := by
    rw [FileMock.recordAwsProofBundlePublication, exec_bind_ok hrequire]
    rfl
  refine ⟨written, ?_, ⟨identity, hfound⟩,
    lookup_mapSet_self fields.state.deliveryMetadataRecords _ patch⟩
  rw [fileRecordAwsProofBundlePublication, exec_bind_ok hrecord]
  rfl

end Replacing

/-! ### The table merges -/

section Merging

variable {sessionId finalizationId} {s : SharedTable Unit U}
  {current : Option AwsVerificationDeliveryMetadata} {patch metadata : AwsVerificationDeliveryMetadata}

/-- A revision that the parsers take. -/
def isSafeRevision : (key : Key) → Item U key → Bool
  | .deliveryMetadata _ _, item => isSafe item.revision
  | _, _ => true

/-- Nothing has expired, and the revisions too are safe integers. -/
def Counted (s : SharedTable Unit U) : Prop :=
  Healthy s ∧ ∀ entry ∈ s.table.entries, isSafeRevision entry.1 entry.2 = true

instance : DecidablePred (Counted (U := U)) :=
  fun s => inferInstanceAs (Decidable (Healthy s ∧ ∀ entry ∈ s.table.entries, _))

/-- The item under the key of the metadata. -/
def HoldsItem (current : Option AwsVerificationDeliveryMetadata)
    (item : Option (MetadataItem AwsVerificationDeliveryMetadata)) : Prop :=
  item.map (·.metadata) = current ∧ ∀ found ∈ item, 0 < found.revision ∧
    parseAwsVerificationDeliveryMetadata found.metadata = some found.metadata

/-- The session is there, and so is this metadata. -/
structure Holds (sessionId finalizationId : JsString) (current : Option AwsVerificationDeliveryMetadata)
    (s : SharedTable Unit U) : Prop where
  identity :
    ∃ item, s.table.lookup (.identity sessionId) = some item ∧
    parseIdentityItem sessionId item = some item
  metadata : HoldsItem current (s.table.lookup (.deliveryMetadata sessionId finalizationId))

/-- What is merged into admitted metadata is admitted. -/
theorem merge_admitted
    (hcurrent : ∀ found ∈ current, parseAwsVerificationDeliveryMetadata found = some found)
    (hpatch : parseAwsVerificationDeliveryMetadata patch = some patch) :
    parseAwsVerificationDeliveryMetadata (mergeDeliveryMetadata current patch) =
      some (mergeDeliveryMetadata current patch) := by
  have horElse {α : Type} {ok : α → Bool} {value old : Option α} (hvalue : value.all ok = true)
      (hold : old.all ok = true) : (value <|> old).all ok = true := by
    cases value with
    | none => exact hold
    | some value => exact hvalue
  refine accept_eq_some.mpr ⟨?_, rfl⟩
  have hnew := (accept_eq_some.mp hpatch).1
  simp only [Bool.and_eq_true] at hnew ⊢
  obtain ⟨⟨⟨hbundle, hreport⟩, huploaded⟩, hqueued⟩ := hnew
  cases current with
  | none =>
    exact ⟨⟨⟨horElse hbundle rfl, horElse hreport rfl⟩, horElse huploaded rfl⟩, horElse hqueued rfl⟩
  | some found =>
    have hold := (accept_eq_some.mp (hcurrent found rfl)).1
    simp only [Bool.and_eq_true] at hold
    obtain ⟨⟨⟨hbundle', hreport'⟩, huploaded'⟩, hqueued'⟩ := hold
    exact ⟨⟨⟨horElse hbundle hbundle', horElse hreport hreport'⟩, horElse huploaded huploaded'⟩,
      horElse hqueued hqueued'⟩

theorem HoldsItem.admitted {item : Option (MetadataItem AwsVerificationDeliveryMetadata)}
    (h : HoldsItem current item) :
    ∀ found ∈ current, parseAwsVerificationDeliveryMetadata found = some found := by
  intro found hfound
  rw [← h.1] at hfound
  obtain ⟨own, hown, rfl⟩ := Option.map_eq_some_iff.mp hfound
  exact (h.2 own hown).2

/-- A counted item that is held is read as it is. -/
theorem parse_of_holds (h : Holds sessionId finalizationId current s) (hcounted : Counted s)
    {item : MetadataItem AwsVerificationDeliveryMetadata}
    (hitem : s.table.lookup (.deliveryMetadata sessionId finalizationId) = some item) :
    parseDeliveryMetadataItem item = some item := by
  have hexpiry := (healthy_item hcounted.1 hitem).2
  have hrevision :=
    hcounted.2 ⟨.deliveryMetadata sessionId finalizationId, item⟩ (List.of_mem_dlookup hitem)
  obtain ⟨hpositive, hparse⟩ := h.metadata.2 item hitem
  have hbad : ¬ (¬ isPositiveSafeInteger item.revision = true ∨ ¬ isSafe item.expiresAt = true) := by
    rw [not_or, not_not, not_not]
    refine ⟨?_, hexpiry⟩
    rw [isPositiveSafeInteger, Bool.and_eq_true]
    exact ⟨hrevision, decide_eq_true hpositive⟩
  rw [parseDeliveryMetadataItem, parseMetadataItem, if_neg hbad, hparse]
  rfl

theorem parse_map_of_holds (h : Holds sessionId finalizationId current s) (hcounted : Counted s) :
    (s.table.lookup (.deliveryMetadata sessionId finalizationId)).map parseDeliveryMetadataItem =
      (s.table.lookup (.deliveryMetadata sessionId finalizationId)).map some := by
  cases hitem : s.table.lookup (.deliveryMetadata sessionId finalizationId) with
  | none => rfl
  | some item => rw [Option.map_some, Option.map_some, parse_of_holds h hcounted hitem]

/-- What is read as it is, is admitted as it is. -/
theorem ends_admitMetadataForMerge {α β : Type} {parse : α → Option β} {message : String}
    {item : Option α} {found : Option β} (hhealthy : Healthy s)
    (hparse : item.map parse = found.map some) :
    CallEnds (Returns fun admitted s' => admitted = found ∧ Read s s')
      (admitMetadataForMerge (U := U) (arrived item) parse message) s := by
  cases item with
  | none =>
    obtain rfl : found = none := Option.map_eq_none_iff.mp hparse.symm
    exact ends_return ⟨rfl, rfl, hhealthy⟩
  | some item =>
    obtain ⟨own, rfl, hown⟩ := Option.map_eq_some_iff.mp hparse.symm
    simp only [arrived, admitMetadataForMerge, ← hown]
    exact ends_return ⟨rfl, rfl, hhealthy⟩

theorem Holds.of_read {s' : SharedTable Unit U} (h : Holds sessionId finalizationId current s)
    (hread : Read s s') :
    Holds sessionId finalizationId current s' := by
  obtain ⟨identity, metadata⟩ := h
  rw [← hread.table] at identity metadata
  exact ⟨identity, metadata⟩

theorem ends_requireIdentity (h : Holds sessionId finalizationId current s) :
    CallEnds (Returns fun _ s' => Read s s') (Dynamo.requireIdentity sessionId) s := by
  obtain ⟨item, hitem, hparse⟩ := h.identity
  have hread : CallEnds (Returns fun result s' => result = some item ∧ Read s s')
      (Dynamo.getSessionIdentity sessionId) s :=
    ends_readActive _ (by rw [hitem, Option.map_some, hparse]; rfl)
  refine ends_seq hread ?_
  rintro _ s' ⟨rfl, hread⟩
  exact ends_return hread

theorem keysOf_singleton_nodup (action : TransactItem (Item U)) : (keysOf [action]).Nodup :=
  List.nodup_singleton _

/-- A revision that nobody disputes is written. -/
theorem ends_putMetadataRevision {item : MetadataItem AwsVerificationDeliveryMetadata}
    {found : Option (MetadataItem AwsVerificationDeliveryMetadata)}
    (hfound : s.table.lookup (.deliveryMetadata sessionId finalizationId) = found) (attemptIndex : ℕ) :
    CallEnds (Returns fun done s' => done = true ∧
      s'.table = commit [putDelivery sessionId finalizationId item found] s.table)
      (putMetadataRevision sessionId finalizationId item found attemptIndex) s := by
  have hcondition : conditionsHold [putDelivery sessionId finalizationId item found] s.table = true := by
    simp only [conditionsHold, List.all_cons, List.all_nil, Bool.and_true, putDelivery, putItem, hfound]
    cases found with
    | none => rfl
    | some found => exact decide_eq_true rfl
  have hlength : 1 ≤ maxDynamodbTransactionItems := by decide
  have hwrite :=
    @ends_writeTransaction U s .writeVerification
      [putDelivery sessionId finalizationId item found] hlength
    (keysOf_singleton_nodup _) hcondition
  refine ends_seq (ends_attempt hwrite) ?_
  rintro _ s' ⟨_, rfl, htable, -⟩
  exact ends_return ⟨rfl, htable⟩

theorem Holds.of_put {s' : SharedTable Unit U} {item : MetadataItem AwsVerificationDeliveryMetadata}
    {found : Option (MetadataItem AwsVerificationDeliveryMetadata)}
    (h : Holds sessionId finalizationId current s)
    (htable : s'.table = commit [putDelivery sessionId finalizationId item found] s.table)
    (hrevision : 0 < item.revision)
    (hparse : parseAwsVerificationDeliveryMetadata item.metadata = some item.metadata) :
    Holds sessionId finalizationId (some item.metadata) s' := by
  obtain ⟨identity, hidentity, hparsed⟩ := h.identity
  have hother :
      Key.identity sessionId ∉ keysOf [putDelivery (U := U) sessionId finalizationId item found] := by
    simp [putDelivery, putItem]
  have hlookup : (commit [putDelivery sessionId finalizationId item found] s.table).lookup
      (.deliveryMetadata sessionId finalizationId) = some item :=
    lookup_commit_of_mem (keysOf_singleton_nodup (putDelivery sessionId finalizationId item found))
      (List.mem_singleton_self _) s.table
  constructor
  · refine ⟨identity, ?_, hparsed⟩
    rw [htable, lookup_commit_of_not_mem hother, hidentity]
  · rw [htable, hlookup]
    refine ⟨rfl, ?_⟩
    rintro _ ⟨⟩
    exact ⟨hrevision, hparse⟩

/-- STEP: an admitted patch is merged into what is there. -/
theorem ends_tableRecord (config : StoreConfig) (h : Holds sessionId finalizationId current s)
    (hcounted : Counted s) (hpatch : parseAwsVerificationDeliveryMetadata patch = some patch) :
    CallEnds (Returns fun _ s' => Holds sessionId finalizationId
      (some (mergeDeliveryMetadata current patch)) s')
      (tableRecordAwsProofBundlePublication sessionId finalizationId config patch) s := by
  have hmerged := merge_admitted h.metadata.admitted hpatch
  rw [tableRecordAwsProofBundlePublication, hpatch]
  refine ends_seq (ends_requireIdentity h) ?_
  rintro _ s₁ hread₁
  refine ends_seq (ends_readItem (.deliveryMetadata sessionId finalizationId)) ?_
  rintro _ s₂ ⟨rfl, hread₂⟩
  rw [hread₁.table]
  refine ends_seq (ends_admitMetadataForMerge hread₂.healthy (parse_map_of_holds h hcounted)) ?_
  rintro found s₃ ⟨rfl, hread₃⟩
  have hcurrent :
      (s.table.lookup (.deliveryMetadata sessionId finalizationId)).map (·.metadata) = current :=
    h.metadata.1
  rw [hcurrent]
  have hexpires : CallEnds (Returns fun _ s' => Read s₃ s') (artifactExpiresAt (U := U) config) s₃ := by
    refine ends_seq ends_now ?_
    rintro t s' ⟨-, hread⟩
    exact ends_return hread
  refine ends_seq hexpires ?_
  rintro expiresAt s₄ hread₄
  have hread := ((hread₁.trans hread₂).trans hread₃).trans hread₄
  refine ends_seq (ends_putMetadataRevision (by rw [hread.table]) _) ?_
  rintro _ s₅ ⟨rfl, htable⟩
  exact ends_return ((h.of_read hread).of_put htable (Nat.succ_pos _) hmerged)

theorem ends_tableGet (h : Holds sessionId finalizationId current s) (hcounted : Counted s) :
    CallEnds (Returns fun metadata _ => metadata = current)
      (tableGetAwsVerificationDeliveryMetadata sessionId finalizationId) s := by
  refine ends_seq (ends_readActive _ (parse_map_of_holds h hcounted)) ?_
  rintro _ s' ⟨rfl, -⟩
  exact ends_return h.metadata.1

/-! ### A run on the table -/

/-- Alone, while nothing expires and the revisions stay safe integers, a run ends like this. -/
abbrev RunEnds {α : Type} (post : Except StoreError α → SharedTable Unit U → Prop)
    (call : Dynamo.Call U α) (s : SharedTable Unit U) : Prop :=
  Ends serveAlone Counted post call.run s

/-- How a call ends in all healthy runs, it ends in the counted ones. -/
theorem runEnds_of_callEnds {α : Type} {post : α → SharedTable Unit U → Prop} {call : Dynamo.Call U α}
    (hcounted : Counted s) (h : CallEnds (Returns post) call s) :
    RunEnds (Returns fun a s' => post a s' ∧ Counted s') call s := by
  intro result s' hreaches
  obtain ⟨a, rfl, hpost⟩ := h result s' (hreaches.mono fun _ hs => hs.1)
  exact ⟨a, rfl, hpost, reaches_healthy hreaches hcounted⟩

/-- RUN: the table is left with everything that was ever written. -/
theorem ends_tableRecordAll (config : StoreConfig) {patches : List AwsVerificationDeliveryMetadata}
    (hpatches : ∀ patch ∈ patches, parseAwsVerificationDeliveryMetadata patch = some patch)
    (hcounted : Counted s) (h : Holds sessionId finalizationId current s) :
    RunEnds (Returns fun metadata _ => metadata = merged mergeDeliveryMetadata patches current)
      (recordAll (tableRecordAwsProofBundlePublication sessionId finalizationId config)
        (tableGetAwsVerificationDeliveryMetadata sessionId finalizationId) patches) s := by
  induction patches generalizing current s with
  | nil =>
    refine ends_mono ?_ (runEnds_of_callEnds hcounted (ends_tableGet h hcounted))
    rintro result s' ⟨metadata, hok, hmetadata, -⟩
    exact ⟨metadata, hok, hmetadata⟩
  | cons patch patches ih =>
    have hrecord := runEnds_of_callEnds hcounted
      (ends_tableRecord config h hcounted (hpatches patch List.mem_cons_self))
    refine ends_seq hrecord ?_
    rintro _ s' ⟨hholds, hcounted'⟩
    exact ih (fun patch hmem => hpatches patch (List.mem_cons_of_mem _ hmem)) hcounted' hholds

end Merging

/-! ### The three stores -/

section Stores

variable (config : StoreConfig)

/-- The stores of a session before anything was recorded for a finalization. -/
structure Stores (U : Type) (sessionId finalizationId : JsString) where
  mock : MockFields
  file : Fields U
  table : SharedTable Unit U
  mock_identity : HasIdentity sessionId mock.identityRecords
  mock_empty : mock.deliveryMetadata.lookup (buildDeliveryMetadataKey sessionId finalizationId) = none
  file_identity : HasIdentity sessionId file.state.identityRecords
  file_empty : file.state.deliveryMetadataRecords.lookup (scopedKey sessionId finalizationId) = none
  table_holds : Holds sessionId finalizationId none table
  table_counted : Counted table

/-- Every store returns this after all patches were recorded in it. -/
def AllReturn (stores : Stores U sessionId finalizationId)
    (patches : List AwsVerificationDeliveryMetadata)
    (metadata : Option AwsVerificationDeliveryMetadata) : Prop :=
  (exec (recordAll (mockRecordAwsProofBundlePublication sessionId finalizationId)
    (mockGetAwsVerificationDeliveryMetadata sessionId finalizationId) patches) stores.mock).1 =
      .ok metadata ∧
  (exec (recordAll (fileRecordAwsProofBundlePublication sessionId finalizationId)
    (fileGetAwsVerificationDeliveryMetadata sessionId finalizationId) patches) stores.file).1 =
      .ok metadata ∧
  RunEnds (Returns fun returned _ => returned = metadata)
    (recordAll (tableRecordAwsProofBundlePublication sessionId finalizationId config)
      (tableGetAwsVerificationDeliveryMetadata sessionId finalizationId) patches) stores.table

/-- STORES: all three return everything that was ever written, exactly if the last patch has every field
    of the others; the table always does. -/
theorem delivery_metadata_agrees_iff (stores : Stores U sessionId finalizationId)
    (patches : List AwsVerificationDeliveryMetadata)
    (hpatches : ∀ patch ∈ patches, parseAwsVerificationDeliveryMetadata patch = some patch) :
    AllReturn sessionId finalizationId config stores patches (everWritten patches) ↔
    lastHasAll patches = true := by
  have hmock :=
    exec_recordAll (@exec_mockRecord sessionId finalizationId) patches stores.mock stores.mock_identity
  have hfile :=
    exec_recordAll (@exec_fileRecord U sessionId finalizationId) patches stores.file stores.file_identity
  rw [stores.mock_empty, Option.orElse_eq_orElse, Option.orElse_eq_or, Option.or_none] at hmock
  rw [stores.file_empty, Option.orElse_eq_orElse, Option.orElse_eq_or, Option.or_none] at hfile
  have htable := ends_tableRecordAll config hpatches stores.table_counted stores.table_holds
  rw [← getLast_eq_everWritten_iff]
  constructor
  · rintro ⟨hreturned, -, -⟩
    exact Except.ok.inj (hmock.symm.trans hreturned)
  · intro hlast
    rw [hlast] at hmock hfile
    exact ⟨hmock, hfile, htable⟩

end Stores

/-! ### Samples -/

def sampleIdentity : SessionIdentityRecord := (buildSessionRecords sampleSession).1

theorem sampleIdentity_admitted : parseSessionIdentityRecord sampleIdentity = some sampleIdentity :=
  accept_eq_some.mpr ⟨by decide, rfl⟩

theorem sampleIdentity_found : HasIdentity (js "s") [(js "s", sampleIdentity)] := by
  refine ⟨sampleIdentity, ?_⟩
  rw [List.lookup_cons_self, Option.bind_some, sampleIdentity_admitted, Option.filter_some]
  rfl

/-- A session in all stores, without any delivery metadata. -/
def sampleStores : Stores Unit (js "s") (js "f") where
  mock := ⟨[(js "s", sampleIdentity)], []⟩
  file := ⟨{ createEmptyFileStoreState with identityRecords := [(js "s", sampleIdentity)] }, false, []⟩
  table := ⟨commit (createSessionItems sampleSession 7200) ∅, 0, [], fun _ _ => 0⟩
  mock_identity := sampleIdentity_found
  mock_empty := rfl
  file_identity := sampleIdentity_found
  file_empty := rfl
  table_holds :=
    ⟨⟨⟨sampleIdentity, 7200⟩, rfl, accept_eq_some.mpr ⟨by decide, rfl⟩⟩, rfl, by rintro _ ⟨⟩⟩
  table_counted := by decide

/-- What is recorded when the verification of a bundle is queued, and what its
    worker records at the end. -/
def queuedPublication : AwsVerificationDeliveryMetadata :=
  ⟨some (js "b"), none, some (.ofNat 24), some (.ofNat 25)⟩
def reportPublication : AwsVerificationDeliveryMetadata :=
  ⟨some (js "b"), some (js "r"), some (.ofNat 30), none⟩

theorem delivery_metadata_on_sample :
    AllReturn (js "s") (js "f") sampleStore sampleStores
      [⟨some (js "b"), none, some (.ofNat 24), none⟩, queuedPublication] (some queuedPublication) :=
  (delivery_metadata_agrees_iff (js "s") (js "f") sampleStore sampleStores
    [⟨some (js "b"), none, some (.ofNat 24), none⟩, queuedPublication]
    (by decide)).mpr (by decide)

/-- DROPPED: the worker's report makes the mock store forget that the work was queued. -/
theorem report_drops_queued_marker : ¬ ∀ (stores : Stores Unit (js "s") (js "f"))
    (patches : List AwsVerificationDeliveryMetadata),
    (∀ patch ∈ patches, parseAwsVerificationDeliveryMetadata patch = some patch) →
    AllReturn (js "s") (js "f") sampleStore stores patches (everWritten patches) := by
  intro h
  obtain ⟨hmock, -, -⟩ := h sampleStores [queuedPublication, reportPublication] (by decide)
  have hlost : (exec (recordAll (mockRecordAwsProofBundlePublication (js "s") (js "f"))
      (mockGetAwsVerificationDeliveryMetadata (js "s") (js "f")) [queuedPublication, reportPublication])
      sampleStores.mock).1 = .ok (some reportPublication) := rfl
  have hkept :
      everWritten [queuedPublication, reportPublication] ≠ some reportPublication := by decide
  exact hkept (Except.ok.inj (hmock.symm.trans hlost))

end StarkBallot.AwsAdapters.Delivery
