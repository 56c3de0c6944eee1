import StarkBallot.Application.TransitionPolicy
import StarkBallot.Runtime.Json

/-! What the policy applies and what the codec keeps (`finalization-transition-policy.ts`,
    `finalization-record.ts`, `prepareMappedFinalizationCommand` in
    `aws-adapters/src/store/mapped-session-records.ts`). Both check the same data on their own:

        command ──evaluate──▶ record ──encode──▶ stored ──JSON──▶ read ──decode──▶ record ?
                                 └───────────────admit────────────────────────▶ record ?

    They agree on identifiers, times, scenario contexts and results. They differ on the error of a
    failure, which the policy copies as it comes: the codec refuses a property that is not declared and
    a category that is there without a value, and what JSON does not have comes back changed. The
    properties of a receipt's metadata are of type `unknown` as well; metadata that is no object the
    policy drops by itself. -/

namespace StarkBallot.Application
open Schemes Domain JsValue

/-! ### JSON -/

def errorViaJson (error : FinalizationError JsValue) : JsM (FinalizationError JsValue) := do
  let details ← fieldViaJson error.details
  let otherKeys ← viaJsonFields error.otherKeys
  return { error with
    category := error.category.filter Option.isSome
    details := details
    otherKeys := otherKeys }

def stateViaJson : FinalizationState JsValue → JsM (FinalizationState JsValue)
  | .failed finalizationId queuedAtMs startedAtMs failedAtMs error => do
    return .failed finalizationId queuedAtMs startedAtMs failedAtMs (← errorViaJson error)
  | state => .ok state

def metadataViaJson : Option (ReceiptMetadata JsValue) → JsM (Option (ReceiptMetadata JsValue))
  | none => .ok none
  | some (.object fields) => do return some (.object (← viaJsonFields fields))
  | some (.other value) => do return (← fieldViaJson (some value)).map .other

def receiptViaJson : Option (ReceiptWithImageId JsValue) → JsM (Option (ReceiptWithImageId JsValue))
  | none => .ok none
  | some receipt => do
    let metadata ← metadataViaJson receipt.metadata
    return some { receipt with metadata := metadata }

def resultViaJson : Option (ResultRecordOf (PersistedFinalizationResultAuthority JsValue)) →
    JsM (Option (ResultRecordOf (PersistedFinalizationResultAuthority JsValue)))
  | none => .ok none
  | some result => do
    let receipt ← receiptViaJson result.authority.receipt
    return some { result with authority := { result.authority with receipt := receipt } }

/-- `JSON.parse(JSON.stringify(stored))`: the values of declared types are
    texts and integers and stay. -/
def storedViaJson (stored : PersistedFinalizationRecord JsValue) :
    JsM (PersistedFinalizationRecord JsValue) := do
  let state ← stateViaJson stored.state
  let finalizationResult ← resultViaJson stored.finalizationResult
  return { stored with state := state, finalizationResult := finalizationResult }

/-- The codec stores the record, reads it back and admits it, all without a change. -/
structure StoredUnchanged (record : FinalizationRecord JsValue) : Prop where
  readBack :
    ∃ stored read, encodeFinalizationRecord record = some stored ∧ storedViaJson stored = .ok read ∧
    decodeFinalizationRecord read = some record
  admitted : admitFinalizationRecord record = some record

/-! ### What a command brings along -/

section

variable {U : Type}

def receiptMetadata (authority : FinalizationResultAuthority U) : Option (ReceiptMetadata U) :=
  authority.artifacts.receipt.bind (·.metadata)

/-- The properties of metadata that is an object. -/
def metadataFields : Option (ReceiptMetadata U) → List (JsString × U)
  | some (.object fields) => fields
  | _ => []

/-- The error of a failed state. -/
def stateError : FinalizationState U → Option (FinalizationError U)
  | .failed _ _ _ _ error => some error
  | _ => none

end

/-- The declared properties only, no category without a value, and details that JSON has. -/
def isPlainError (error : FinalizationError JsValue) : Bool :=
  error.otherKeys.isEmpty && error.category.all Option.isSome && error.details.all isJson

/-- An error that a command brings is plain, and so are the properties of a receipt's metadata. -/
def bringsPlainValues : CommandBody JsValue → Bool
  | .fail _ _ error => isPlainError error
  | .succeed _ _ finalizationResult =>
      areJsonFields (metadataFields (receiptMetadata finalizationResult))
  | _ => true

def recordMetadata (record : FinalizationRecord JsValue) : Option (ReceiptMetadata JsValue) :=
  record.finalizationResult.bind fun result => receiptMetadata result.authority

def holdsPlainValues (record : FinalizationRecord JsValue) : Bool :=
  (stateError record.state).all isPlainError && areJsonFields (metadataFields (recordMetadata record))

/-! ### What the codec keeps -/

section

variable {U : Type}

/-- What the policy has checked of a record, in the codec's words. -/
structure PolicyChecked (record : FinalizationRecord U) : Prop where
  sessionId_safe : isSafeVerifierSegment record.sessionId = true
  finalizationId_safe : isSafeVerifierSegment record.finalizationId = true
  times : hasIntegerTimes record.state = true
  state_id : record.state.finalizationId = record.finalizationId
  context : parseFinalizationScenarioContext record.scenarioContext = some record.scenarioContext
  result : (record.state.status ≠ .succeeded ∧ record.finalizationResult = none) ∨
    (record.state.status = .succeeded ∧
      ∃ authority, record.finalizationResult = some ⟨record.finalizationId, authority⟩ ∧
      admitFinalizationResultAuthority authority = some authority)

theorem isSome_parseFinalizationError (error : FinalizationError U) :
    (parseFinalizationError error).isSome =
      (error.otherKeys.isEmpty && error.category.all Option.isSome) := by
  simp only [parseFinalizationError, accept]
  split <;> simp_all

theorem hasParsedError_eq (state : FinalizationState U) :
    hasParsedError state =
      (stateError state).all fun error => error.otherKeys.isEmpty &&
        error.category.all Option.isSome := by
  cases state with
  | failed _ _ _ _ error => exact isSome_parseFinalizationError error
  | _ => rfl

/-- Of what the policy has checked, the codec refuses some errors of a failure and nothing else. -/
theorem PolicyChecked.identity {record : FinalizationRecord U} (h : PolicyChecked record) :
    parseFinalizationRecordIdentity record = hasParsedError record.state := by
  simp only [parseFinalizationRecordIdentity, parseFinalizationState, accept, h.sessionId_safe,
    h.finalizationId_safe, h.state_id, h.context, h.times, Option.isSome_some, decide_true,
    Bool.and_true, Bool.true_and]
  cases hasParsedError record.state <;> rfl

theorem PolicyChecked.admitted_iff {record : FinalizationRecord U} (h : PolicyChecked record) :
    admitFinalizationRecord record = some record ↔ hasParsedError record.state = true := by
  rw [← h.identity]
  constructor
  · intro hadmission
    exact (parseRecordWith_eq_some hadmission).1
  · intro hidentity
    have hsafe := h.finalizationId_safe
    obtain ⟨hstatus, hnone⟩ | ⟨hstatus, authority, hsome, hauthority⟩ := h.result
    · obtain ⟨sessionId, finalizationId, scenarioContext, state, finalizationResult⟩ := record
      obtain rfl : finalizationResult = none := hnone
      exact (if_neg (not_not.mpr hidentity)).trans ((if_neg hstatus).trans rfl)
    · obtain ⟨sessionId, finalizationId, scenarioContext, state, finalizationResult⟩ := record
      obtain rfl : finalizationResult = some ⟨finalizationId, authority⟩ := hsome
      refine (if_neg (not_not.mpr hidentity)).trans ((if_pos hstatus).trans ?_)
      simp [parseResultRecordWith, hsafe, hauthority]

end

/-- Copied metadata comes back as it was when its properties are what JSON has. -/
theorem metadataViaJson_eq_self {metadata : Option (ReceiptMetadata JsValue)}
    (h : areJsonFields (metadataFields metadata) = true)
    (hcopied : metadata.bind copyMetadata = metadata) :
    metadataViaJson metadata = .ok metadata := by
  rcases metadata with _ | (fields | value)
  · rfl
  · have hfields : viaJsonFields fields = .ok fields := viaJsonFields_of_areJson h
    rw [metadataViaJson, hfields]
    rfl
  · cases hcopied

theorem areJson_of_metadataViaJson {metadata read : Option (ReceiptMetadata JsValue)}
    (h : metadataViaJson metadata = .ok read) (hback : read.bind copyMetadata = metadata) :
    areJsonFields (metadataFields metadata) = true := by
  rcases metadata with _ | (fields | value)
  · rfl
  · obtain ⟨fields', hfields, h⟩ := bind_eq_ok.mp h
    obtain rfl := Except.ok.inj h
    have hsame : fields' = fields := ReceiptMetadata.object.inj (Option.some.inj hback)
    rw [hsame] at hfields
    exact areJson_of_viaJsonFields hfields
  · rfl

theorem receiptViaJson_metadata {receipt receipt' : Option (ReceiptWithImageId JsValue)}
    (h : receiptViaJson receipt = .ok receipt') :
    metadataViaJson (receipt.bind (·.metadata)) = .ok (receipt'.bind (·.metadata)) := by
  cases receipt with
  | none =>
    rw [← Except.ok.inj h]
    rfl
  | some receipt =>
    obtain ⟨metadata, hmetadata, h⟩ := bind_eq_ok.mp h
    rw [← Except.ok.inj h]
    exact hmetadata

theorem receiptViaJson_eq_self {receipt : Option (ReceiptWithImageId JsValue)}
    (h : metadataViaJson (receipt.bind (·.metadata)) = .ok (receipt.bind (·.metadata))) :
    receiptViaJson receipt = .ok receipt := by
  cases receipt with
  | none => rfl
  | some receipt =>
    have hmetadata : metadataViaJson receipt.metadata = .ok receipt.metadata := h
    rw [receiptViaJson, hmetadata, ok_bind]
    rfl

/-- Parsing a result copies the metadata of its receipt. -/
theorem receiptMetadata_of_parse {value : PersistedFinalizationResultAuthority JsValue}
    {authority : FinalizationResultAuthority JsValue}
    (h : parseFinalizationResultAuthority value = some authority) :
    receiptMetadata authority = (value.receipt.bind (·.metadata)).bind copyMetadata := by
  unfold parseFinalizationResultAuthority at h
  obtain ⟨facts, -, h⟩ := Option.bind_eq_some_iff.mp h
  obtain ⟨receipt, hreceipt, h⟩ := Option.bind_eq_some_iff.mp h
  obtain ⟨publication, -, h⟩ := Option.bind_eq_some_iff.mp h
  obtain ⟨audit, -, h⟩ := Option.bind_eq_some_iff.mp h
  obtain ⟨bitmap, -, h⟩ := Option.bind_eq_some_iff.mp h
  rw [← Option.some.inj h, receiptMetadata]
  cases hvalue : value.receipt with
  | none =>
    rw [hvalue] at hreceipt
    rw [← Option.some.inj hreceipt]
    rfl
  | some given =>
    rw [hvalue] at hreceipt
    obtain ⟨parsed, hparsed, rfl⟩ := Option.map_eq_some_iff.mp hreceipt
    obtain ⟨journal, -, hparsed⟩ := Option.bind_eq_some_iff.mp hparsed
    rw [← Option.some.inj hparsed]
    rfl

/-- The error comes back as it was when what is in it is JSON. -/
theorem errorViaJson_eq_self {error : FinalizationError JsValue} (hkeys : error.otherKeys = [])
    (hcategory : error.category.all Option.isSome = true) :
    errorViaJson error = .ok error ↔ error.details.all isJson = true := by
  have hkept : error.category.filter Option.isSome = error.category := by
    cases hgiven : error.category with
    | none => rfl
    | some category =>
      rw [hgiven] at hcategory
      exact Option.filter_some_pos hcategory
  rw [← fieldViaJson_eq_self]
  constructor
  · intro hread
    obtain ⟨details, hdetails, hread⟩ := bind_eq_ok.mp hread
    obtain ⟨otherKeys, -, hread⟩ := bind_eq_ok.mp hread
    rw [hdetails, ← Except.ok.inj hread]
  · intro hdetails
    rw [errorViaJson, hdetails, ok_bind, hkeys, hkept]
    cases error
    subst hkeys
    rfl

theorem stateViaJson_eq_self {state : FinalizationState JsValue} (h : hasParsedError state = true) :
    stateViaJson state = .ok state ↔ (stateError state).all isPlainError = true := by
  cases state with
  | failed finalizationId queuedAtMs startedAtMs failedAtMs error =>
    rw [hasParsedError, isSome_parseFinalizationError, Bool.and_eq_true] at h
    rw [stateError, Option.all_some, isPlainError, h.1, h.2, Bool.true_and, Bool.true_and,
      ← errorViaJson_eq_self (List.isEmpty_iff.mp h.1) h.2]
    constructor
    · intro hread
      obtain ⟨error', herror, hread⟩ := bind_eq_ok.mp hread
      injection Except.ok.inj hread with _ _ _ _ hsame
      rw [herror, hsame]
    · intro hread
      rw [stateViaJson, hread, ok_bind]
      rfl
  | _ => simp [stateViaJson, stateError]

theorem encode_state {record : FinalizationRecord JsValue} {stored : PersistedFinalizationRecord JsValue}
    (h : encodeFinalizationRecord record = some stored) : stored.state = record.state := by
  unfold encodeFinalizationRecord at h
  split at h
  · rw [← Option.some.inj h]
  · obtain ⟨result, -, h⟩ := Option.bind_eq_some_iff.mp h
    rw [← Option.some.inj h]

/-- The metadata of the receipt in a stored record. -/
def storedMetadata (stored : PersistedFinalizationRecord JsValue) : Option (ReceiptMetadata JsValue) :=
  stored.finalizationResult.bind fun result => result.authority.receipt.bind (·.metadata)

theorem storedMetadata_of_decode {stored : PersistedFinalizationRecord JsValue}
    {record : FinalizationRecord JsValue} (h : decodeFinalizationRecord stored = some record) :
      record.state = stored.state ∧
      recordMetadata record = (storedMetadata stored).bind copyMetadata := by
  obtain ⟨-, ⟨-, hnone, rfl⟩ | ⟨-, authority, authority', hsome, hparse, rfl⟩⟩ :=
    parseRecordWith_eq_some h
  · rw [storedMetadata, hnone]
    exact ⟨rfl, rfl⟩
  · rw [storedMetadata, hsome]
    exact ⟨rfl, receiptMetadata_of_parse hparse⟩

/-- What is stored of an admitted record is the metadata it has, a copied object. -/
theorem storedMetadata_of_encode {record : FinalizationRecord JsValue}
    {stored : PersistedFinalizationRecord JsValue}
    (hencode : encodeFinalizationRecord record = some stored)
    (hdecode : decodeFinalizationRecord stored = some record) :
    storedMetadata stored = recordMetadata record ∧
      (storedMetadata stored).bind copyMetadata = storedMetadata stored := by
  have hcopy := (storedMetadata_of_decode hdecode).2
  have hstored : storedMetadata stored = recordMetadata record := by
    unfold encodeFinalizationRecord at hencode
    split at hencode
    · rw [← Option.some.inj hencode] at hcopy ⊢
      exact hcopy.symm
    · obtain ⟨result, hresult, hencode⟩ := Option.bind_eq_some_iff.mp hencode
      rw [← Option.some.inj hencode, recordMetadata, hresult]
      rfl
  exact ⟨hstored, hcopy.symm.trans hstored.symm⟩

theorem resultViaJson_metadata
    {result result' : Option (ResultRecordOf (PersistedFinalizationResultAuthority JsValue))}
    (h : resultViaJson result = .ok result') :
    metadataViaJson (result.bind fun result => result.authority.receipt.bind (·.metadata)) =
      .ok (result'.bind fun result => result.authority.receipt.bind (·.metadata)) := by
  cases result with
  | none =>
    rw [← Except.ok.inj h]
    rfl
  | some result =>
    obtain ⟨receipt, hreceipt, h⟩ := bind_eq_ok.mp h
    rw [← Except.ok.inj h]
    exact receiptViaJson_metadata hreceipt

theorem resultViaJson_eq_self
    {result : Option (ResultRecordOf (PersistedFinalizationResultAuthority JsValue))}
    (h : metadataViaJson (result.bind fun result => result.authority.receipt.bind (·.metadata)) =
      .ok (result.bind fun result => result.authority.receipt.bind (·.metadata))) :
    resultViaJson result = .ok result := by
  cases result with
  | none => rfl
  | some result =>
    have hreceipt : receiptViaJson result.authority.receipt = .ok result.authority.receipt :=
      receiptViaJson_eq_self h
    rw [resultViaJson, hreceipt, ok_bind]
    rfl

/-- Stored, written as JSON, parsed and decoded: what is of type `unknown` decides whether
    the record is the same. -/
theorem PolicyChecked.readBack_iff {record : FinalizationRecord JsValue} (h : PolicyChecked record)
    (hparsed : hasParsedError record.state = true) :
    (∃ stored read, encodeFinalizationRecord record = some stored ∧ storedViaJson stored = .ok read ∧
      decodeFinalizationRecord read = some record) ↔ holdsPlainValues record = true := by
  obtain ⟨stored, hencode, hdecode⟩ := decode_encode (h.admitted_iff.mpr hparsed)
  obtain ⟨hmetadata, hcopied⟩ := storedMetadata_of_encode hencode hdecode
  have hstate := encode_state hencode
  rw [holdsPlainValues, Bool.and_eq_true, ← stateViaJson_eq_self hparsed, ← hmetadata, ← hstate]
  constructor
  · rintro ⟨stored', read, hencode', hread, hdecode'⟩
    obtain rfl : stored = stored' := Option.some.inj (hencode.symm.trans hencode')
    obtain ⟨state, hstateRead, hread⟩ := bind_eq_ok.mp hread
    obtain ⟨result, hresultRead, hread⟩ := bind_eq_ok.mp hread
    obtain ⟨hstate', hmetadata'⟩ := storedMetadata_of_decode hdecode'
    rw [← Except.ok.inj hread] at hstate' hmetadata'
    refine ⟨?_, areJson_of_metadataViaJson (resultViaJson_metadata hresultRead) ?_⟩
    · rw [hstateRead, hstate, hstate']
    · exact hmetadata'.symm.trans hmetadata.symm
  · rintro ⟨hstateRead, hfields⟩
    have hresultRead : resultViaJson stored.finalizationResult = .ok stored.finalizationResult :=
      resultViaJson_eq_self (metadataViaJson_eq_self hfields hcopied)
    refine ⟨stored, stored, hencode, ?_, hdecode⟩
    rw [storedViaJson, hstateRead, ok_bind, hresultRead]
    rfl

/-- SPEC: the codec keeps what the policy has checked exactly when it holds plain values. -/
theorem PolicyChecked.storedUnchanged_iff {record : FinalizationRecord JsValue}
    (h : PolicyChecked record) :
    StoredUnchanged record ↔ holdsPlainValues record = true := by
  constructor
  · rintro ⟨hread, hadmission⟩
    exact (h.readBack_iff (h.admitted_iff.mp hadmission)).mp hread
  · intro hplain
    have hparsed : hasParsedError record.state = true := by
      rw [hasParsedError_eq]
      rw [holdsPlainValues, Bool.and_eq_true] at hplain
      cases herror : stateError record.state with
      | none => rfl
      | some error =>
        rw [herror, Option.all_some, isPlainError, Bool.and_eq_true] at hplain
        exact hplain.1.1
    exact ⟨(h.readBack_iff hparsed).mpr hplain, h.admitted_iff.mpr hparsed⟩

/-! ### What the policy applies -/

section

variable {U : Type}

theorem isInteger_of_isTime {value : Num} (h : isTime value = true) :
    isNonNegativeInteger value = true := by
  cases value with
  | nan => cases h
  | infinity _ => cases h
  | finite value =>
    simp only [isTime, isNonNegativeSafeInteger, Num.isSafeInteger, Bool.and_eq_true,
      decide_eq_true_eq] at h
    simp [isNonNegativeInteger, Num.isInteger, h.1.1, h.2]

theorem isInteger_of_hasValidStartedAt {queuedAtMs startedAtMs : Num}
    (h : hasValidStartedAt queuedAtMs startedAtMs = true) : isNonNegativeInteger startedAtMs = true := by
  rw [hasValidStartedAt, Bool.and_eq_true] at h
  exact isInteger_of_isTime h.1

theorem isInteger_of_hasValidTerminalAt {earliestAtMs terminalAtMs : Num}
    (h : hasValidTerminalAt earliestAtMs terminalAtMs = true) :
    isNonNegativeInteger terminalAtMs = true := by
  rw [hasValidTerminalAt, Bool.and_eq_true] at h
  exact isInteger_of_isTime h.1

theorem areIntegers_of_hasValidEnd {command : FinalizationTransitionCommand U} {startedAtMs : Option Num}
    {terminalAtMs : Num} (h : hasValidEnd command startedAtMs terminalAtMs = true) :
    startedAtMs.all isNonNegativeInteger = true ∧ isNonNegativeInteger terminalAtMs = true := by
  rw [hasValidEnd, Bool.and_eq_true] at h
  refine ⟨?_, isInteger_of_hasValidTerminalAt h.2⟩
  cases startedAtMs with
  | none => rfl
  | some startedAtMs =>
    have hstarted : hasValidStartedAt command.queuedAtMs startedAtMs = true := h.1
    exact isInteger_of_hasValidStartedAt hstarted

theorem requestUnless_eq_ok_iff {bad : Prop} [Decidable bad]
    {reason : InvalidFinalizationTransitionReason} {requested requested' : RequestedState U} :
    requestUnless bad reason requested = .ok requested' ↔ ¬ bad ∧ requested = requested' := by
  unfold requestUnless
  split <;> simp_all

/-- The times of a requested state were checked to be safe integers. -/
theorem admitCommandState_times {command : FinalizationTransitionCommand U}
    {requested : RequestedState U} (hqueued : isTime command.queuedAtMs = true)
    (h : admitCommandState command = .ok requested) :
    hasIntegerTimes requested.state = true := by
  have hqueued := isInteger_of_isTime hqueued
  unfold admitCommandState at h
  cases hbody : command.body with
  | queue =>
    rw [hbody] at h
    rw [← Except.ok.inj h]
    exact hqueued
  | start startedAtMs =>
    rw [hbody] at h
    obtain ⟨hvalid, rfl⟩ := requestUnless_eq_ok_iff.mp h
    simp [hasIntegerTimes, hqueued, isInteger_of_hasValidStartedAt (not_not.mp hvalid)]
  | succeed startedAtMs completedAtMs finalizationResult =>
    rw [hbody] at h
    obtain ⟨hvalid, rfl⟩ := requestUnless_eq_ok_iff.mp h
    rw [not_or, not_not, not_not] at hvalid
    simp [hasIntegerTimes, hqueued, isInteger_of_hasValidStartedAt hvalid.1,
      isInteger_of_hasValidTerminalAt hvalid.2]
  | fail startedAtMs failedAtMs error =>
    rw [hbody] at h
    obtain ⟨hvalid, rfl⟩ := requestUnless_eq_ok_iff.mp h
    obtain ⟨hstarted, hfailed⟩ := areIntegers_of_hasValidEnd (not_not.mp hvalid)
    simp only [hasIntegerTimes, hqueued, hstarted, hfailed, Bool.and_self]
  | timeOut startedAtMs timeoutAtMs =>
    rw [hbody] at h
    obtain ⟨hvalid, rfl⟩ := requestUnless_eq_ok_iff.mp h
    obtain ⟨hstarted, htimeout⟩ := areIntegers_of_hasValidEnd (not_not.mp hvalid)
    simp only [hasIntegerTimes, hqueued, hstarted, htimeout, Bool.and_self]
  | cancel startedAtMs failedAtMs message =>
    rw [hbody] at h
    obtain ⟨hvalid, rfl⟩ := requestUnless_eq_ok_iff.mp h
    rw [not_or, not_not] at hvalid
    obtain ⟨hstarted, hfailed⟩ := areIntegers_of_hasValidEnd hvalid.1
    simp only [hasIntegerTimes, hqueued, hstarted, hfailed, Bool.and_self]

theorem context_of_admit {record record' : FinalizationRecord U}
    (h : admitFinalizationRecord record = some record') :
    parseFinalizationScenarioContext record.scenarioContext = some record.scenarioContext := by
  have hidentity := (parseRecordWith_eq_some h).1
  simp only [parseFinalizationRecordIdentity, Bool.and_eq_true] at hidentity
  obtain ⟨context, hcontext⟩ := Option.isSome_iff_exists.mp hidentity.2
  obtain ⟨hok, rfl⟩ := accept_eq_some.mp hcontext
  exact hcontext

/-- STEP: the policy has checked all that the codec looks at, but for the error of a failure. -/
theorem applied_checked {current : Option (FinalizationRecord U)}
    (hcurrent : ∀ record, current = some record → (admitFinalizationRecord record).isSome)
    {command : FinalizationTransitionCommand U} {evaluatedAtMs : Num} {state : FinalizationState U}
    {reason : FinalizationEventReason} {next : FinalizationRecord U}
    (h : evaluateFinalizationTransition current command evaluatedAtMs = .applied state reason next) :
    PolicyChecked next := by
  obtain ⟨admitted, isCancel, hadmitted, -, hnext⟩ := applied_of_evaluate h
  have hrequests := admitCommand_requests hadmitted
  obtain ⟨hsession, hid, hqueued, -, requested, hrequested, rfl⟩ := admitCommand_eq_ok.mp hadmitted
  have htimes := admitCommandState_times hqueued hrequested
  unfold buildNextRecord at hnext
  obtain ⟨context, hsome, hnext⟩ := Option.bind_eq_some_iff.mp hnext
  have hparsed : parseFinalizationScenarioContext context = some context := by
    dsimp only at hsome
    rcases hgiven : command.scenarioContext.bind parseFinalizationScenarioContext with _ | given
    · rw [hgiven] at hsome
      obtain ⟨record, hrecord, rfl⟩ := Option.map_eq_some_iff.mp hsome
      obtain ⟨record', hadmission⟩ := Option.isSome_iff_exists.mp (hcurrent record hrecord)
      exact context_of_admit hadmission
    · rw [hgiven] at hsome
      obtain rfl : given = context := Option.some.inj hsome
      obtain ⟨value, -, hvalue⟩ := Option.bind_eq_some_iff.mp hgiven
      exact stable_accept _ hvalue
  have hstateId : requested.state.finalizationId = command.finalizationId := hrequests.state_id
  split at hnext
  · rename_i hstatus
    rw [← Option.some.inj hnext]
    exact ⟨hsession, hid, htimes, hstateId, hparsed, Or.inl ⟨hstatus, rfl⟩⟩
  · rename_i hstatus
    obtain ⟨authority, hauthority, hnext⟩ := Option.bind_eq_some_iff.mp hnext
    rw [← Option.some.inj hnext]
    exact ⟨hsession, hid, htimes, hstateId, hparsed,
      Or.inr ⟨not_not.mp hstatus, authority, rfl, hrequests.result_admitted authority hauthority⟩⟩

/-- Copying keeps the properties. -/
theorem metadataFields_copy (metadata : Option (ReceiptMetadata U)) :
    metadataFields (metadata.bind copyMetadata) = metadataFields metadata := by
  rcases metadata with _ | (fields | value) <;> rfl

end

/-- What a command brings ends up in the record that is applied. -/
theorem admitCommandState_brings {command : FinalizationTransitionCommand JsValue}
    {requested : RequestedState JsValue} (h : admitCommandState command = .ok requested) :
    (requested.state.status ≠ .succeeded →
      (stateError requested.state).all isPlainError = bringsPlainValues command.body) ∧
    (requested.state.status = .succeeded → ∀ authority, requested.successfulResult = some authority →
      areJsonFields (metadataFields (receiptMetadata authority)) = bringsPlainValues command.body) := by
  unfold admitCommandState at h
  cases hbody : command.body with
  | succeed startedAtMs completedAtMs finalizationResult =>
    rw [hbody] at h
    rw [← requestUnless_eq_ok h]
    refine ⟨fun hstatus => absurd rfl hstatus, ?_⟩
    intro _ authority hauthority
    rw [receiptMetadata_of_parse hauthority, metadataFields_copy]
    rfl
  | fail startedAtMs failedAtMs error =>
    rw [hbody] at h
    rw [← requestUnless_eq_ok h]
    exact ⟨fun _ => rfl, nofun⟩
  | cancel startedAtMs failedAtMs message =>
    rw [hbody] at h
    rw [← requestUnless_eq_ok h]
    exact ⟨fun _ => rfl, nofun⟩
  | queue =>
    rw [hbody] at h
    rw [← Except.ok.inj h]
    exact ⟨fun _ => rfl, nofun⟩
  | start startedAtMs =>
    rw [hbody] at h
    rw [← requestUnless_eq_ok h]
    exact ⟨fun _ => rfl, nofun⟩
  | timeOut startedAtMs timeoutAtMs =>
    rw [hbody] at h
    rw [← requestUnless_eq_ok h]
    exact ⟨fun _ => rfl, nofun⟩

theorem applied_holds {current : Option (FinalizationRecord JsValue)}
    {command : FinalizationTransitionCommand JsValue} {evaluatedAtMs : Num}
    {state : FinalizationState JsValue} {reason : FinalizationEventReason}
    {next : FinalizationRecord JsValue}
    (h : evaluateFinalizationTransition current command evaluatedAtMs = .applied state reason next) :
    holdsPlainValues next = bringsPlainValues command.body := by
  obtain ⟨admitted, isCancel, hadmitted, -, hnext⟩ := applied_of_evaluate h
  obtain ⟨-, -, -, -, requested, hrequested, rfl⟩ := admitCommand_eq_ok.mp hadmitted
  obtain ⟨hother, hsucceeded⟩ := admitCommandState_brings hrequested
  unfold buildNextRecord at hnext
  obtain ⟨context, -, hnext⟩ := Option.bind_eq_some_iff.mp hnext
  dsimp only at hnext
  split at hnext
  · rename_i hstatus
    rw [← Option.some.inj hnext, ← hother hstatus]
    exact Bool.and_true _
  · rename_i hstatus
    obtain ⟨authority, hauthority, hnext⟩ := Option.bind_eq_some_iff.mp hnext
    rw [← Option.some.inj hnext, ← hsucceeded (not_not.mp hstatus) authority hauthority]
    have hnoError : stateError requested.state = none := by
      cases hsome :
        requested.state <;> rw [hsome] at hstatus <;> first | rfl | exact absurd nofun hstatus
    rw [holdsPlainValues, hnoError]
    rfl

/-- EXACT: what is applied is stored and read back unchanged when the error of a failure has the
    declared properties only, no category without a value and JSON details, and the properties of a
    receipt's metadata are JSON values; then, and only then. -/
theorem applied_stored_unchanged_iff {current : Option (FinalizationRecord JsValue)}
    (hcurrent : ∀ record, current = some record → (admitFinalizationRecord record).isSome)
    (command : FinalizationTransitionCommand JsValue) (evaluatedAtMs : Num)
    {state : FinalizationState JsValue} {reason : FinalizationEventReason}
    {next : FinalizationRecord JsValue}
    (h : evaluateFinalizationTransition current command evaluatedAtMs = .applied state reason next) :
    StoredUnchanged next ↔ bringsPlainValues command.body = true := by
  rw [(applied_checked hcurrent h).storedUnchanged_iff, applied_holds h]

/-- No scenario, no claim. -/
def quietContext : FinalizationScenarioContext where
  scenarios := []
  tamperMode := .none
  claimedCounts := Vector.replicate 5 (Num.ofNat 0)
  claimedTotalVotes := Num.ofNat 0
  ignoredCount := Num.ofNat 0
  recountedCount := Num.ofNat 0
  userRecountChoice := none
  affectedBotIds := none

/-- A failure of the attempt `f` of session `s`, reported with the given error. -/
def failWith (error : FinalizationError JsValue) : FinalizationTransitionCommand JsValue where
  sessionId := js "s"
  finalizationId := js "f"
  queuedAtMs := Num.ofNat 1
  scenarioContext := some quietContext
  reason := none
  body := .fail none (Num.ofNat 2) error

def failedRecord (error : FinalizationError JsValue) : FinalizationRecord JsValue :=
  ⟨js "s", js "f", quietContext, .failed (js "f") (Num.ofNat 1) none (Num.ofNat 2) error, none⟩

def proverFailure (details : Option JsValue) (otherKeys : List (JsString × JsValue)) :
    FinalizationError JsValue :=
  ⟨js "PROVER_TASK_FAILED", js "exit code 1", some (some .proverExecution), details, otherKeys⟩

theorem failWith_applied (details : Option JsValue) (otherKeys : List (JsString × JsValue)) :
    evaluateFinalizationTransition none (failWith (proverFailure details otherKeys)) (Num.ofNat 3) =
      .applied (failedRecord (proverFailure details otherKeys)).state .proverTaskFailed
        (failedRecord (proverFailure details otherKeys)) := by
  rfl

/-- A failure with JSON details is stored as it is. -/
theorem failure_with_json_details_stored :
    StoredUnchanged
      (failedRecord (proverFailure (some (.object [(js "exitCode", .number (Num.ofNat 1))])) [])) :=
  (applied_stored_unchanged_iff (fun _ hrecord => by cases hrecord) _ _ (failWith_applied _ _)).mpr rfl

/-- The policy applies a failure whose error has one more property, and the codec refuses the record. -/
theorem applied_failure_not_stored_unchanged :
    ¬ (∀ (current : Option (FinalizationRecord JsValue))
        (command : FinalizationTransitionCommand JsValue)
        (evaluatedAtMs : Num) (state : FinalizationState JsValue) (reason : FinalizationEventReason)
        (next : FinalizationRecord JsValue),
      (∀ record, current = some record → (admitFinalizationRecord record).isSome) →
      evaluateFinalizationTransition current command evaluatedAtMs = .applied state reason next →
      StoredUnchanged next) := by
  intro h
  have happlied := failWith_applied none [(js "retryable", .boolean true)]
  have hstored := h none _ _ _ _ _ (fun _ hrecord => by cases hrecord) happlied
  have hkeys :=
    ((applied_checked (fun _ hrecord => by cases hrecord) happlied).admitted_iff.mp hstored.admitted)
  cases hkeys

end StarkBallot.Application
