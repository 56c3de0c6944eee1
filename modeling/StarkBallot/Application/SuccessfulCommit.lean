import StarkBallot.Application.TransitionStorage

/-! Admission of a successful finalization that is committed as a whole, with its receipt, bitmap and
    verification result (`application/src/finalize/successful-finalization-commit-admission.ts`). A
    store that commits on its own asks three questions in place of the policy: is the record well
    formed, does it follow the current one, and is it still well formed with its publication.

        requested ──admit──▶ ──follows current?──▶ ──publish──▶ committed ──encode──▶ stored
                                                       └──succeed──▶ policy ──▶ committed ?

    The policy asks for the same, and for times that are safe integers, which nothing
    asks for on the way above. -/

namespace StarkBallot.Application
open Schemes Domain

variable {U : Type}

/-! ### Records -/

/-- `Extract<FinalizationRecord, { state: { status: 'succeeded' } }>`. -/
structure SuccessfulFinalizationRecord (U : Type) where
  sessionId : JsString
  finalizationId : JsString
  scenarioContext : FinalizationScenarioContext
  queuedAtMs : Num
  startedAtMs : Num
  completedAtMs : Num
  authority : FinalizationResultAuthority U
  deriving DecidableEq

def SuccessfulFinalizationRecord.toRecord (record : SuccessfulFinalizationRecord U) :
    FinalizationRecord U where
  sessionId := record.sessionId
  finalizationId := record.finalizationId
  scenarioContext := record.scenarioContext
  state := .succeeded record.finalizationId record.queuedAtMs record.startedAtMs record.completedAtMs
  finalizationResult := some ⟨record.finalizationId, record.authority⟩

/-- A record of the codec that succeeded; the codec has compared its identifiers. -/
def successfulFinalizationRecord (record : FinalizationRecord U) :
    Option (SuccessfulFinalizationRecord U) :=
  match record.state, record.finalizationResult with
  | .succeeded _ queuedAtMs startedAtMs completedAtMs, some result =>
    some ⟨record.sessionId, record.finalizationId, record.scenarioContext, queuedAtMs, startedAtMs,
      completedAtMs, result.authority⟩
  | _, _ => none

def isSuccessfulFinalizationRecord (record : FinalizationRecord U) : Bool :=
  (successfulFinalizationRecord record).isSome

/-! ### Admission -/

structure SuccessfulFinalizationReceipt where
  receipt : JsString
  timestamp : Num
  deriving DecidableEq

def admitSuccessfulFinalizationReceipt (value : Option SuccessfulFinalizationReceipt) :
    JsM (Option SuccessfulFinalizationReceipt) :=
  okOr (ifPresent (accept fun receipt => isNonNegativeSafeInteger receipt.timestamp) value)
    (.error "Invalid succeeded finalization receipt publication")

def admitSuccessfulFinalizationCommitRecord (value : FinalizationRecord U) :
    JsM (SuccessfulFinalizationRecord U) := do
  let record ← okOr ((admitFinalizationRecord value).bind successfulFinalizationRecord)
    (.error "Invalid succeeded finalization record")
  refuseIf record.authority.artifacts.receiptPublication.isSome
    (.error "Successful finalization commit does not accept pre-populated receipt publication")
  refuseIf (record.startedAtMs.lt record.queuedAtMs ∨ record.completedAtMs.lt record.startedAtMs)
    (.error "Invalid successful finalization lifecycle chronology")
  return record

/-- Times and context of an open record are those of the success that ends it. -/
def matchesLifecycleAuthority (requested : SuccessfulFinalizationRecord U)
    (current : FinalizationRecord U) : Bool :=
  current.scenarioContext = requested.scenarioContext &&
  match current.state with
  | .pending _ queuedAtMs => queuedAtMs.eq requested.queuedAtMs
  | .running _ queuedAtMs startedAtMs =>
    queuedAtMs.eq requested.queuedAtMs && startedAtMs.eq requested.startedAtMs
  | _ => true

def assertSuccessfulFinalizationLifecycleAdmission (requested : SuccessfulFinalizationRecord U) :
    Option (FinalizationRecord U) → JsM Unit
  | none => return
  | some current => do
    refuseIf (current.finalizationId ≠ requested.finalizationId ∨
      ¬ (current.state.status = .pending ∨ current.state.status = .running ∨
        current.state.status = .succeeded))
      (.error "Stale successful finalization commit")
    refuseIf (current.state.status ≠ .succeeded ∧ ¬ matchesLifecycleAuthority requested current)
      (.error "Successful finalization commit does not match current lifecycle authority")

/-- The record with its publication, if it has one. -/
def SuccessfulFinalizationRecord.publish (requested : SuccessfulFinalizationRecord U)
    (receiptPublication : Option FinalizationReceiptPublication) : SuccessfulFinalizationRecord U :=
  match receiptPublication with
  | none => requested
  | some publication => { requested with
      authority := { requested.authority with
        artifacts := { requested.authority.artifacts with receiptPublication := some publication } } }

def buildPublishedSuccessfulFinalization (requested : SuccessfulFinalizationRecord U)
    (receiptPublication : Option FinalizationReceiptPublication) :
    JsM (SuccessfulFinalizationRecord U) :=
  okOr ((admitFinalizationRecord (requested.publish receiptPublication).toRecord).bind
    successfulFinalizationRecord) (.error "Invalid successful finalization commit")

/-- The command by which a store that goes through the policy commits the record. -/
def succeedCommand (successful : SuccessfulFinalizationRecord U) : FinalizationTransitionCommand U where
  sessionId := successful.sessionId
  finalizationId := successful.finalizationId
  queuedAtMs := successful.queuedAtMs
  scenarioContext := some successful.scenarioContext
  reason := none
  body := .succeed successful.startedAtMs successful.completedAtMs successful.authority

/-! ### What is admitted -/

/-- A record the codec admits as it is. -/
def SuccessfulFinalizationRecord.IsAdmitted (record : SuccessfulFinalizationRecord U) : Prop :=
  admitFinalizationRecord record.toRecord = some record.toRecord

theorem toRecord_of_admitted {value record : FinalizationRecord U}
    {successful : SuccessfulFinalizationRecord U}
    (hadmission : admitFinalizationRecord value = some record)
    (h : successfulFinalizationRecord record = some successful) : record = successful.toRecord := by
  obtain ⟨hidentity, ⟨-, -, rfl⟩ | ⟨-, authority, authority', -, -, rfl⟩⟩ :=
    parseRecordWith_eq_some hadmission
  · unfold successfulFinalizationRecord at h
    split at h
    · rename_i hnone
      cases hnone
    · cases h
  · have hid : value.state.finalizationId = value.finalizationId := by
      simp only [parseFinalizationRecordIdentity, Bool.and_eq_true, decide_eq_true_eq] at hidentity
      exact hidentity.1.2
    cases hstate : value.state with
    | succeeded id queuedAtMs startedAtMs completedAtMs =>
      rw [hstate] at hid h
      obtain rfl : id = value.finalizationId := hid
      rw [← Option.some.inj h]
      rfl
    | _ =>
      rw [hstate] at h
      cases h

/-- SPEC: the codec admits its own records again, and changes no more than the authority of a result. -/
theorem isAdmitted_of_admission {value record : FinalizationRecord U}
    {successful : SuccessfulFinalizationRecord U}
    (hadmission : admitFinalizationRecord value = some record)
    (h : successfulFinalizationRecord record = some successful) :
    successful.IsAdmitted ∧ successful.sessionId = value.sessionId ∧
      successful.finalizationId = value.finalizationId ∧
      successful.scenarioContext = value.scenarioContext ∧ successful.toRecord.state = value.state := by
  obtain rfl := toRecord_of_admitted hadmission h
  refine ⟨stable_admitFinalizationRecord hadmission, ?_⟩
  obtain ⟨-, ⟨-, -, hrecord⟩ | ⟨-, authority, authority', -, -, hrecord⟩⟩ :=
    parseRecordWith_eq_some hadmission
  · cases congrArg RecordOf.finalizationResult hrecord
  · have hsession : successful.toRecord.sessionId = value.sessionId := by rw [hrecord]
    have hid : successful.toRecord.finalizationId = value.finalizationId := by rw [hrecord]
    have hcontext : successful.toRecord.scenarioContext = value.scenarioContext := by rw [hrecord]
    have hstate : successful.toRecord.state = value.state := by rw [hrecord]
    exact ⟨hsession, hid, hcontext, hstate⟩

theorem admit_of_okOr {value : FinalizationRecord U} {successful : SuccessfulFinalizationRecord U}
    {e : JsError}
    (h : okOr ((admitFinalizationRecord value).bind successfulFinalizationRecord) e = .ok successful) :
    ∃ record, admitFinalizationRecord value = some record ∧
    successfulFinalizationRecord record = some successful :=
  Option.bind_eq_some_iff.mp (okOr_eq_ok.mp h)

/-- What a requested record has passed. -/
structure CommitAdmitted (requested : SuccessfulFinalizationRecord U) : Prop where
  admitted : requested.IsAdmitted
  unpublished : requested.authority.artifacts.receiptPublication = none
  started : requested.startedAtMs.lt requested.queuedAtMs = false
  completed : requested.completedAtMs.lt requested.startedAtMs = false

theorem commitAdmitted_of_admission {value : FinalizationRecord U}
    {requested : SuccessfulFinalizationRecord U}
    (h : admitSuccessfulFinalizationCommitRecord value = .ok requested) : CommitAdmitted requested := by
  obtain ⟨record, hrecord, h⟩ := bind_eq_ok.mp h
  obtain ⟨_, hunpublished, h⟩ := bind_eq_ok.mp h
  obtain ⟨_, hchronology, h⟩ := bind_eq_ok.mp h
  obtain rfl := Except.ok.inj h
  obtain ⟨parsed, hparsed, hsuccessful⟩ := admit_of_okOr hrecord
  rw [refuseIf_eq_ok, not_or, Bool.not_eq_true, Bool.not_eq_true] at hchronology
  rw [refuseIf_eq_ok, Option.not_isSome_iff_eq_none] at hunpublished
  exact ⟨(isAdmitted_of_admission hparsed hsuccessful).1, hunpublished, hchronology.1, hchronology.2⟩

/-- Publishing changes the publication only. -/
theorem published_of_build {requested committed : SuccessfulFinalizationRecord U}
    {receiptPublication : Option FinalizationReceiptPublication}
    (h : buildPublishedSuccessfulFinalization requested receiptPublication = .ok committed) :
    committed.IsAdmitted ∧ committed.sessionId = requested.sessionId ∧
      committed.finalizationId = requested.finalizationId ∧
      committed.scenarioContext = requested.scenarioContext ∧
      committed.queuedAtMs = requested.queuedAtMs ∧ committed.startedAtMs = requested.startedAtMs ∧
      committed.completedAtMs = requested.completedAtMs := by
  obtain ⟨record, hrecord, hsuccessful⟩ := admit_of_okOr h
  obtain ⟨hadmitted, hsession, hid, hcontext, hstate⟩ := isAdmitted_of_admission hrecord hsuccessful
  obtain ⟨-, hqueued, hstarted, hcompleted⟩ := FinalizationState.succeeded.inj hstate
  cases receiptPublication with
  | none => exact ⟨hadmitted, hsession, hid, hcontext, hqueued, hstarted, hcompleted⟩
  | some publication => exact ⟨hadmitted, hsession, hid, hcontext, hqueued, hstarted, hcompleted⟩

/-! ### Times -/

theorem le_of_not_lt {a b : Num} (ha : isNonNegativeInteger a = true)
    (hb : isNonNegativeInteger b = true) (h : b.lt a = false) : a.le b = true := by
  cases a with
  | nan => cases ha
  | infinity _ => cases ha
  | finite a =>
    cases b with
    | nan => cases hb
    | infinity _ => cases hb
    | finite b =>
      simp only [Num.lt, decide_eq_false_iff_not, not_lt] at h
      simp only [Num.le, Num.lt, Num.eq, Bool.or_eq_true, decide_eq_true_eq]
      exact h.lt_or_eq

/-- An integer below a safe one is safe. -/
theorem isTime_of_le {a b : Num} (ha : isNonNegativeInteger a = true) (hb : isTime b = true)
    (h : a.le b = true) :
    isTime a = true := by
  cases a with
  | nan => cases ha
  | infinity _ => cases ha
  | finite a =>
    cases b with
    | nan => cases hb
    | infinity _ => cases hb
    | finite b =>
      simp only [isNonNegativeInteger, Num.isInteger, Num.ofNat, Num.le, Num.lt, Num.eq,
        Bool.and_eq_true, Bool.or_eq_true, decide_eq_true_eq] at ha h
      simp only [isTime, isNonNegativeSafeInteger, Num.isSafeInteger, Num.ofNat, Num.le, Num.lt, Num.eq,
        Bool.and_eq_true, Bool.or_eq_true, decide_eq_true_eq] at hb ⊢
      have hle : a ≤ b := le_iff_lt_or_eq.mpr h
      have hnonneg : (0 : ℚ) ≤ a := by
        rw [← Nat.cast_zero]
        exact le_iff_lt_or_eq.mpr ha.2
      refine ⟨⟨ha.1, ?_, hle.trans hb.1.2.2⟩, ha.2⟩
      exact (neg_nonpos.mpr (Nat.cast_nonneg _)).trans hnonneg

/-! ### Through the policy -/

/-- What the codec has checked of an admitted success. -/
structure CodecChecked (record : SuccessfulFinalizationRecord U) : Prop where
  sessionId_safe : isSafeVerifierSegment record.sessionId = true
  finalizationId_safe : isSafeVerifierSegment record.finalizationId = true
  queued : isNonNegativeInteger record.queuedAtMs = true
  started : isNonNegativeInteger record.startedAtMs = true
  completed : isNonNegativeInteger record.completedAtMs = true
  context : parseFinalizationScenarioContext record.scenarioContext = some record.scenarioContext
  result : admitFinalizationResultAuthority record.authority = some record.authority

theorem SuccessfulFinalizationRecord.IsAdmitted.checked {record : SuccessfulFinalizationRecord U}
    (h : record.IsAdmitted) : CodecChecked record := by
  have hresult := resultAdmitted_of_admit h _ rfl
  obtain ⟨hidentity, -⟩ := parseRecordWith_eq_some h
  simp only [parseFinalizationRecordIdentity, Bool.and_eq_true, decide_eq_true_eq] at hidentity
  obtain ⟨⟨⟨⟨hsession, hid⟩, hstate⟩, -⟩, hcontext⟩ := hidentity
  obtain ⟨state, hstate⟩ := Option.isSome_iff_exists.mp hstate
  obtain ⟨hchecks, -⟩ := accept_eq_some.mp hstate
  obtain ⟨context, hcontext⟩ := Option.isSome_iff_exists.mp hcontext
  obtain ⟨hcounts, rfl⟩ := accept_eq_some.mp hcontext
  simp only [SuccessfulFinalizationRecord.toRecord, hasIntegerTimes, Bool.and_eq_true] at hchecks
  exact {
    sessionId_safe := hsession
    finalizationId_safe := hid
    queued := hchecks.1.2.1.1
    started := hchecks.1.2.1.2
    completed := hchecks.1.2.2
    context := accept_eq_some.mpr ⟨hcounts, rfl⟩
    result := hresult }

/-- An open record of the same attempt, or none. -/
def IsFollowedBy (committed : SuccessfulFinalizationRecord U)
    (current : Option (FinalizationRecord U)) : Prop :=
  ∀ record, current = some record → record.sessionId = committed.sessionId ∧
    record.state.finalizationId = committed.finalizationId ∧ isTerminalState record.state = false

theorem evaluatePrior_succeeded {committed : SuccessfulFinalizationRecord U}
    {current : Option (FinalizationRecord U)} (h : IsFollowedBy committed current) :
    evaluatePriorFinalizationState false committed.toRecord.state (current.map (·.state)) = none := by
  cases current with
  | none => rfl
  | some record =>
    obtain ⟨-, hid, hopen⟩ := h record rfl
    have hsame : record.state.finalizationId = committed.toRecord.state.finalizationId := hid
    simp [evaluatePriorFinalizationState, hsame, hopen]

theorem admitCommand_succeed {committed : SuccessfulFinalizationRecord U} (h : CodecChecked committed)
    (hqueued : isTime committed.queuedAtMs = true)
    (hstarted : hasValidStartedAt committed.queuedAtMs committed.startedAtMs = true)
    (hcompleted : hasValidTerminalAt committed.startedAtMs committed.completedAtMs = true) :
    admitCommand (succeedCommand committed) = .ok {
      sessionId := committed.sessionId
      finalizationId := committed.finalizationId
      state := committed.toRecord.state
      reason := .runtimeUpdateReceived
      scenarioContext := some committed.scenarioContext
      successfulResult := some committed.authority
      invalidSuccessfulResult := false } := by
  have hstate : admitCommandState (succeedCommand committed) = .ok {
      state := committed.toRecord.state
      successfulResult := some committed.authority
      invalidSuccessfulResult := false } := by
    simp only [admitCommandState, succeedCommand, admitSuccess, requestUnless, hstarted,
      hcompleted, h.result]
    rfl
  have hcontext : (succeedCommand committed).scenarioContext.bind parseFinalizationScenarioContext =
      some committed.scenarioContext := h.context
  have hrequired :
      ¬ ¬ hasRequiredScenarioContext (succeedCommand committed)
        (some committed.scenarioContext) = true :=
    not_not.mpr rfl
  have hsession : ¬ ¬ isSafeVerifierSegment (succeedCommand committed).sessionId = true :=
    not_not.mpr h.sessionId_safe
  have hid : ¬ ¬ isSafeVerifierSegment (succeedCommand committed).finalizationId = true :=
    not_not.mpr h.finalizationId_safe
  have htime : ¬ ¬ isTime (succeedCommand committed).queuedAtMs = true := not_not.mpr hqueued
  unfold admitCommand
  rw [refuseIf_of_not hsession, ok_bind, refuseIf_of_not hid, ok_bind, refuseIf_of_not htime,
    ok_bind, hcontext]
  simp only
  rw [refuseIf_of_not hrequired, ok_bind, hstate, ok_bind]
  rfl

/-- SPEC: a command that is no cancellation and asks for a terminal state is
    applied to what it follows. -/
theorem evaluate_eq_applied {current : Option (FinalizationRecord U)}
    {command : FinalizationTransitionCommand U} {evaluatedAtMs : Num}
    {admitted : AdmittedFinalizationCommand U} {next : FinalizationRecord U}
    (hbody : ∀ startedAtMs failedAtMs message, command.body ≠ .cancel startedAtMs failedAtMs message)
    (hevaluated : isTime evaluatedAtMs = true) (hadmitted : admitCommand command = .ok admitted)
    (hsession : ∀ record, current = some record → record.sessionId = admitted.sessionId)
    (hprior : evaluatePriorFinalizationState false admitted.state (current.map (·.state)) = none)
    (hvalid : admitted.invalidSuccessfulResult = false)
    (hterminal : isTerminalState admitted.state = true)
    (hnext : buildNextRecord current admitted = some next) :
    evaluateFinalizationTransition current command evaluatedAtMs =
      .applied admitted.state admitted.reason next := by
  have hmatches (state : FinalizationState U) :
      haveSameNonterminalState state admitted.state = false := by
    cases hstate :
      admitted.state <;> cases state <;> first | rfl | (rw [hstate] at hterminal; cases hterminal)
  have hany : ¬ current.any (fun record => record.sessionId ≠ admitted.sessionId) := by
    cases current with
    | none => exact Bool.false_ne_true
    | some record => simp [hsession record rfl]
  cases hcommand : command.body with
  | cancel startedAtMs failedAtMs message => exact absurd hcommand (hbody startedAtMs failedAtMs message)
  | _ =>
    simp only [evaluateFinalizationTransition, hevaluated, hadmitted, hcommand, hprior, hvalid, hnext,
      hmatches, hany]
    cases current <;> rfl

/-- The policy applies the success and its record is the committed one. -/
theorem evaluate_succeed {committed : SuccessfulFinalizationRecord U}
    {current : Option (FinalizationRecord U)} {evaluatedAtMs : Num} (hchecked : CodecChecked committed)
    (hcurrent : IsFollowedBy committed current) (hevaluated : isTime evaluatedAtMs = true)
    (hqueued : isTime committed.queuedAtMs = true)
    (hstarted : hasValidStartedAt committed.queuedAtMs committed.startedAtMs = true)
    (hcompleted : hasValidTerminalAt committed.startedAtMs committed.completedAtMs = true) :
    evaluateFinalizationTransition current (succeedCommand committed) evaluatedAtMs =
      .applied committed.toRecord.state .runtimeUpdateReceived committed.toRecord := by
  exact evaluate_eq_applied (fun _ _ _ h => by cases h) hevaluated
    (admitCommand_succeed hchecked hqueued hstarted hcompleted)
    (fun record hrecord => (hcurrent record hrecord).1) (evaluatePrior_succeeded hcurrent) rfl rfl rfl

/-- An applied success ends in time. -/
theorem isTime_of_evaluate_succeed {committed : SuccessfulFinalizationRecord U}
    {current : Option (FinalizationRecord U)} {evaluatedAtMs : Num} {state : FinalizationState U}
    {reason : FinalizationEventReason} {next : FinalizationRecord U}
    (h : evaluateFinalizationTransition current (succeedCommand committed) evaluatedAtMs =
      .applied state reason next) :
    isTime committed.completedAtMs = true := by
  obtain ⟨admitted, -, hadmitted, -, -⟩ := applied_of_evaluate h
  obtain ⟨-, -, -, -, requested, hrequested, -⟩ := admitCommand_eq_ok.mp hadmitted
  obtain ⟨htimes, -⟩ := requestUnless_eq_ok_iff.mp hrequested
  rw [not_or, not_not, not_not, hasValidTerminalAt, Bool.and_eq_true] at htimes
  exact htimes.2.1

/-- EXACT: what a store commits on its own is what the policy applies, as long as
    its end is a safe integer. -/
theorem evaluate_succeed_iff {requested committed : SuccessfulFinalizationRecord U}
    {receiptPublication : Option FinalizationReceiptPublication}
    {current : Option (FinalizationRecord U)} {evaluatedAtMs : Num}
    (hrequested : CommitAdmitted requested)
    (hcommitted : buildPublishedSuccessfulFinalization requested receiptPublication = .ok committed)
    (hcurrent : IsFollowedBy committed current) (hevaluated : isTime evaluatedAtMs = true) :
    (∃ reason, evaluateFinalizationTransition current (succeedCommand committed) evaluatedAtMs =
      .applied committed.toRecord.state reason committed.toRecord) ↔
      isTime committed.completedAtMs = true := by
  constructor
  · rintro ⟨reason, happlied⟩
    exact isTime_of_evaluate_succeed happlied
  · intro hsafe
    obtain ⟨hadmitted, -, -, -, hqueuedEq, hstartedEq, hcompletedEq⟩ := published_of_build hcommitted
    have hchecked := hadmitted.checked
    have hstarted : committed.startedAtMs.le committed.completedAtMs = true :=
      le_of_not_lt hchecked.started hchecked.completed
        (by rw [hstartedEq, hcompletedEq]; exact hrequested.completed)
    have hqueued : committed.queuedAtMs.le committed.startedAtMs = true :=
      le_of_not_lt hchecked.queued hchecked.started
        (by rw [hqueuedEq, hstartedEq]; exact hrequested.started)
    have hstartedTime := isTime_of_le hchecked.started hsafe hstarted
    have hqueuedTime := isTime_of_le hchecked.queued hstartedTime hqueued
    refine ⟨.runtimeUpdateReceived, evaluate_succeed hchecked hcurrent hevaluated hqueuedTime ?_ ?_⟩
    · rw [hasValidStartedAt, hstartedTime, hqueued]
      rfl
    · rw [hasValidTerminalAt, hsafe, hstarted]
      rfl

/-- An open record that admits the success is followed by it. -/
theorem isFollowedBy_of_admission {requested committed : SuccessfulFinalizationRecord U}
    {current : Option (FinalizationRecord U)}
    (hcurrent : ∀ record, current = some record → (admitFinalizationRecord record).isSome ∧
      record.sessionId = requested.sessionId ∧
      (record.state.status = .pending ∨ record.state.status = .running))
    (h : assertSuccessfulFinalizationLifecycleAdmission requested current = .ok ())
    (hsession : committed.sessionId = requested.sessionId)
    (hid : committed.finalizationId = requested.finalizationId) : IsFollowedBy committed current := by
  rintro record rfl
  obtain ⟨hadmission, hrecordSession, hopen⟩ := hcurrent record rfl
  obtain ⟨_, hstale, -⟩ := bind_eq_ok.mp h
  rw [refuseIf_eq_ok, not_or, not_not] at hstale
  refine ⟨hrecordSession.trans hsession.symm, ?_, ?_⟩
  · obtain ⟨admitted, hadmission⟩ := Option.isSome_iff_exists.mp hadmission
    obtain ⟨hidentity, -⟩ := parseRecordWith_eq_some hadmission
    simp only [parseFinalizationRecordIdentity, Bool.and_eq_true, decide_eq_true_eq] at hidentity
    exact hidentity.1.2.trans (hstale.1.trans hid.symm)
  · rcases hopen with hstatus | hstatus
    · rw [isTerminalState, hstatus]
      rfl
    · rw [isTerminalState, hstatus]
      rfl

end StarkBallot.Application
