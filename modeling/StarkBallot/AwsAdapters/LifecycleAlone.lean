import StarkBallot.Application.TransitionStorage
import StarkBallot.AwsAdapters.LifecycleSafety
import StarkBallot.Schemes.Alone

/-! One transition of the lifecycle that nobody disturbs. Its requests are all served, and no other
    caller writes while it is under way: it reads what is stored, and what the
    policy makes of that is stored.

        load ×3 ── transaction ✓        four requests, or three if there is nothing to store

    The stored record was admitted when it was stored, so a record that ends it is admitted as well. -/

namespace StarkBallot.AwsAdapters
open Schemes Domain Application

variable {U ι : Type} {sessionId : JsString}

/-! ### Commands that end an attempt -/

section Evaluate

variable {record : FinalizationRecord U} {command : FinalizationTransitionCommand U}

/-- A valid command that fails an attempt, or times it out. -/
structure EndingCommand (command : FinalizationTransitionCommand U) : Prop where
  state_eq : admitCommandState command = .ok { state := commandState command }
  queued : isTime command.queuedAtMs
  scenarioContext_eq : command.scenarioContext = none
  notQueue : command.body ≠ .queue
  ended : (commandState command).status = .failed ∨ (commandState command).status = .timeout
  error : hasParsedError (commandState command) = true

/-- The record of an attempt once the command has ended it. -/
def endedRecord (record : FinalizationRecord U) (command : FinalizationTransitionCommand U) :
    FinalizationRecord U :=
  ⟨record.sessionId, record.finalizationId, record.scenarioContext, commandState command, none⟩

theorem status_of_open {state : FinalizationState U} (h : isTerminalState state = false) :
    state.status = .pending ∨ state.status = .running := by
  cases state with
  | pending => exact Or.inl rfl
  | running => exact Or.inr rfl
  | succeeded => cases h
  | failed => cases h
  | timeout => cases h

theorem haveSameNonterminalState_of_ended (state : FinalizationState U) {ended : FinalizationState U}
    (h : ended.status = .failed ∨ ended.status = .timeout) :
    haveSameNonterminalState state ended = false := by
  cases ended with
  | pending => rcases h with h | h <;> cases h
  | running => rcases h with h | h <;> cases h
  | succeeded => cases state <;> rfl
  | failed => cases state <;> rfl
  | timeout => cases state <;> rfl

theorem EndingCommand.terminal (h : EndingCommand command) : isTerminalState (commandState command) := by
  unfold isTerminalState
  rcases h.ended with hstatus | hstatus
  · rw [hstatus]
    rfl
  · rw [hstatus]
    rfl

theorem EndingCommand.hasRequiredScenarioContext (h : EndingCommand command) :
    hasRequiredScenarioContext command none = true := by
  unfold Application.hasRequiredScenarioContext
  rw [h.scenarioContext_eq]
  split
  · rename_i hbody
    exact absurd hbody h.notQueue
  · rfl

/-- SPEC: the command applies to an open record of its attempt. -/
theorem EndingCommand.evaluate (h : EndingCommand command)
    (hrecord : (admitFinalizationRecord record).isSome) (hopen : isTerminalState record.state = false)
    (hsession : record.sessionId = command.sessionId)
    (hid : record.finalizationId = command.finalizationId) {evaluatedAtMs : Num}
    (hevaluated : isTime evaluatedAtMs) :
    ∃ reason, evaluateFinalizationTransition (some record) command evaluatedAtMs =
      .applied (commandState command) reason (endedRecord record command) := by
  obtain ⟨_, hadmission⟩ := Option.isSome_iff_exists.mp hrecord
  have hidentity := (parseRecordWith_eq_some hadmission).1
  simp only [parseFinalizationRecordIdentity, Bool.and_eq_true, decide_eq_true_eq] at hidentity
  obtain ⟨⟨⟨⟨hsafeSession, hsafeId⟩, -⟩, hstateId⟩, -⟩ := hidentity
  have hadmitted := admitCommand_eq_ok.mpr ⟨hsession ▸ hsafeSession, hid ▸ hsafeId, h.queued,
    by rw [h.scenarioContext_eq]; exact h.hasRequiredScenarioContext, _, h.state_eq, rfl⟩
  refine ⟨command.reason.getD (resolveDefaultReason command), ?_⟩
  have hsame : record.state.finalizationId = (commandState command).finalizationId := by
    rw [commandState_id, hstateId, hid]
  have hended : (commandState command).status ≠ .succeeded := by
    rcases h.ended with hstatus | hstatus
    · rw [hstatus]; decide
    · rw [hstatus]; decide
  have hother := haveSameNonterminalState_of_ended record.state h.ended
  have hprior (isCancel) :
      evaluatePriorFinalizationState isCancel (commandState command) (some record.state) = none := by
    cases isCancel with
    | true =>
      simp [evaluatePriorFinalizationState, isCurrentCancellableState, hsame, status_of_open hopen]
    | false => simp [evaluatePriorFinalizationState, hopen, hsame]
  have hnext : buildNextRecord (some record) ⟨command.sessionId, command.finalizationId,
      commandState command, command.reason.getD (resolveDefaultReason command), none, none, false⟩ =
        some (endedRecord record command) := by
    simp [buildNextRecord, hended, endedRecord, hsession, hid]
  unfold evaluateFinalizationTransition
  simp only [Option.map_some, hadmitted, hevaluated, not_true_eq_false, if_false, h.scenarioContext_eq,
    Option.bind_none, hprior, hnext, hother]
  simp [hsession]

/-- The record of the ended attempt is admitted as it is. -/
theorem EndingCommand.admitted (h : EndingCommand command)
    (hrecord : (admitFinalizationRecord record).isSome) {evaluatedAtMs : Num}
    {reason : FinalizationEventReason}
    (happlied : evaluateFinalizationTransition (some record) command evaluatedAtMs =
      .applied (commandState command) reason (endedRecord record command)) :
    admitFinalizationRecord (endedRecord record command) = some (endedRecord record command) := by
  refine (applied_checked ?_ happlied).admitted_iff.mpr h.error
  rintro _ ⟨⟩
  exact hrecord

end Evaluate

/-! ### The store, undisturbed -/

section Store

variable {clients : ι → Client U sessionId} {ledger : Ledger ι U} {record : FinalizationRecord U}

/-- The record that a read finds: its revision is one that the parsers accept. -/
structure IsCurrent (ledger : Ledger ι U) (record : FinalizationRecord U) : Prop where
  stored : storedRecord ledger.items = some record
  revision : ∀ pointer, ledger.items.current = some pointer → isPositiveSafeInteger pointer.revision

/-- How the items hold a record that a read finds. -/
theorem IsCurrent.items (hcurrent : IsCurrent ledger record) (hledger : LedgerOk clients ledger) :
    ∃ last stored, ledger.history.getLast? = some last ∧ last.2 = record ∧
      ledger.items.current = some ⟨record.finalizationId, ledger.history.length⟩ ∧
      ledger.items.finalizations record.finalizationId = some ⟨stored, ledger.history.length⟩ ∧
      decodeFinalizationRecord stored = some record ∧
      isPositiveSafeInteger ledger.history.length = true := by
  have hholds := hledger.holds
  have hlastStored := storedRecord_of_ledgerOk hledger
  rw [hcurrent.stored] at hlastStored
  obtain ⟨last, hlast, rfl⟩ := Option.map_eq_some_iff.mp hlastStored.symm
  rw [hlast] at hholds
  obtain ⟨hpointer, stored, hstored, hitems⟩ := hholds
  refine ⟨last, stored, hlast, rfl, hpointer, ?_, hstored, hcurrent.revision _ hpointer⟩
  rw [hitems, Function.update_self]

theorem admitted_of_decoded {stored : PersistedFinalizationRecord U}
    (h : decodeFinalizationRecord stored = some record) (hopen : isTerminalState record.state = false) :
    (admitFinalizationRecord record).isSome := by
  obtain ⟨hidentity, ⟨hstatus, -, rfl⟩ | ⟨hstatus, authority, authority', -, -, rfl⟩⟩ :=
    parseRecordWith_eq_some h
  · have hadmission : admitFinalizationRecord
        ⟨stored.sessionId, stored.finalizationId, stored.scenarioContext, stored.state, none⟩ =
          some ⟨stored.sessionId, stored.finalizationId, stored.scenarioContext, stored.state, none⟩ :=
      (if_neg (not_not.mpr hidentity)).trans ((if_neg hstatus).trans rfl)
    rw [hadmission]
    rfl
  · simp only [isTerminalState, hstatus] at hopen
    cases hopen

/-- A record that a read finds is of this session, and if it is open it was admitted. -/
theorem IsCurrent.readable (hcurrent : IsCurrent ledger record) (hledger : LedgerOk clients ledger) :
    record.sessionId = sessionId ∧
      (isTerminalState record.state = false → (admitFinalizationRecord record).isSome) := by
  obtain ⟨last, stored, hlast, rfl, -, -, hstored, -⟩ := hcurrent.items hledger
  obtain ⟨_, happlied⟩ := hledger.run.of_step last (List.mem_of_getLast? hlast)
  exact ⟨happlied.step.sessionId_eq.trans (clients last.1).sameSession, admitted_of_decoded hstored⟩

theorem isCurrent_of_length (hledger : LedgerOk clients ledger)
    (hstored : storedRecord ledger.items = some record)
    (hlength : ledger.history.length ≤ Num.maxSafeInteger) : IsCurrent ledger record := by
  refine ⟨hstored, ?_⟩
  intro pointer hpointer
  have hholds := hledger.holds
  cases hlast : ledger.history.getLast? with
  | none =>
    rw [hlast] at hholds
    cases hholds.1.symm.trans hpointer
  | some last =>
    rw [hlast] at hholds
    obtain rfl := Option.some.inj (hholds.1.symm.trans hpointer)
    have hpositive : 0 < ledger.history.length := List.length_pos_of_mem (List.mem_of_getLast? hlast)
    simp [isPositiveSafeInteger, hlength, hpositive]

/-- What a served load of the record gives. -/
def loadedAs (record : FinalizationRecord U) (revision : ℕ) :
    LoadedFinalizationLifecycle U EncodedLifecycleRevision :=
  ⟨some record, ⟨some record.finalizationId, revision⟩⟩

/-- LOAD: three requests. -/
theorem finishes_load (hledger : LedgerOk clients ledger) (hcurrent : IsCurrent ledger record)
    (hsession : record.sessionId = sessionId) (w : ι) :
    Finishes (serve w .served) 3 (loadFinalizationLifecycle sessionId) ledger
      (.loaded (loadedAs record ledger.history.length)) ledger := by
  obtain ⟨last, stored, -, -, hpointer, hitem, hstored, hrevision⟩ := hcurrent.items hledger
  have hidentity := (parseRecordWith_eq_some hstored).1
  have hid : isSafeVerifierSegment record.finalizationId = true := by
    obtain ⟨-, ⟨-, -, rfl⟩ | ⟨-, authority, authority', -, -, rfl⟩⟩ := parseRecordWith_eq_some hstored
    · simp only [parseFinalizationRecordIdentity, Bool.and_eq_true] at hidentity
      exact hidentity.1.1.1.2
    · simp only [parseFinalizationRecordIdentity, Bool.and_eq_true] at hidentity
      exact hidentity.1.1.1.2
  have hparsedPointer : parseCurrentFinalizationItem ⟨record.finalizationId, ledger.history.length⟩ =
      some ⟨record.finalizationId, ledger.history.length⟩ := by
    simp [parseCurrentFinalizationItem, hrevision, parseFinalizationId, accept, hid]
  have hparsedItem :
      parseFinalizationItem sessionId record.finalizationId ⟨stored, ledger.history.length⟩ =
      some ⟨record, ledger.history.length⟩ := by
    simp [parseFinalizationItem, hrevision, hstored, hsession]
  have hlast : Finishes (serve w .served) 1
      (loadFinalizationItem sessionId ⟨record.finalizationId, ledger.history.length⟩) ledger
      (.loaded (loadedAs record ledger.history.length)) ledger := by
    refine finishes_request ?_
    simp only [serve, if_true, hitem, Option.bind_some, hparsedItem, ne_eq, not_true_eq_false, if_false]
    exact .done 0 _ _
  have hpointed : Finishes (serve w .served) 2 (loadCurrentFinalization sessionId) ledger
      (.loaded (loadedAs record ledger.history.length)) ledger := by
    refine finishes_request ?_
    simp only [serve, if_true, hpointer, hparsedPointer]
    exact hlast
  exact finishes_request hpointed

variable [DecidableEq U]

/-- APPLY: one request, if the record follows the current one. -/
theorem finishes_apply (hledger : LedgerOk clients ledger) (hcurrent : IsCurrent ledger record) (w : ι)
    {next : FinalizationRecord U} (hnext : admitFinalizationRecord next = some next)
    (hid : next.finalizationId = record.finalizationId) (hsession : next.sessionId = sessionId) :
    ∃ later, Finishes (serve w .served) 1
        (applyFinalizationLifecycleMutation
          ⟨sessionId, record.finalizationId, ⟨some record.finalizationId, ledger.history.length⟩,
            next⟩) ledger
        (.applied (loadedAs next (ledger.history.length + 1))) later ∧
      later.history = ledger.history ++ [(w, next)] := by
  obtain ⟨last, stored, -, -, hpointer, hitem, hstored, hrevision⟩ := hcurrent.items hledger
  obtain ⟨stored', hencoded, -⟩ := decode_encode hnext
  have hsafe : isSafeVerifierSegment record.finalizationId = true := by
    have hidentity := (parseRecordWith_eq_some hnext).1
    simp only [parseFinalizationRecordIdentity, Bool.and_eq_true] at hidentity
    rw [← hid]
    exact hidentity.1.1.1.2
  have hsmall : ¬ Num.maxSafeInteger < ledger.history.length := by
    simp only [isPositiveSafeInteger, Bool.and_eq_true, decide_eq_true_eq] at hrevision
    omega
  have hadmitted : admitLifecycleMutation
      ⟨sessionId, record.finalizationId, ⟨some record.finalizationId, ledger.history.length⟩, next⟩ =
        some (⟨some record.finalizationId, ledger.history.length⟩, next) := by
    simp [admitLifecycleMutation, decodeLifecycleRevision, hsmall, ifPresent, parseFinalizationId,
      accept, hsafe, hnext, hid, hsession]
  have hconditions : LifecycleWrite.conditionsHold
      ⟨⟨some record.finalizationId, ledger.history.length⟩, record.finalizationId, next, stored'⟩
      ledger.items = true := by
    simp [LifecycleWrite.conditionsHold, hpointer, hitem]
  refine ⟨ledger.put w ⟨⟨some record.finalizationId, ledger.history.length⟩, record.finalizationId,
    next, stored'⟩, ?_, rfl⟩
  simp only [applyFinalizationLifecycleMutation, hadmitted, hencoded]
  refine finishes_request ?_
  simp only [serve, Ledger.commit, hconditions, if_true]
  rw [loadedAs, hid]
  exact .done 0 _ _

/-- COORDINATE: four requests, if the policy applies the command to the current record. -/
theorem finishes_coordinate (hledger : LedgerOk clients ledger)
    (hcurrent : IsCurrent ledger record) (w : ι) (hsession : record.sessionId = sessionId)
    {call : CoordinateFinalizationTransitionInput U} (hcall : call.command.sessionId = sessionId)
    (hcallId : call.command.finalizationId = record.finalizationId) {state : FinalizationState U}
    {reason : FinalizationEventReason} {next : FinalizationRecord U}
    (happlied : evaluateFinalizationTransition (some record) call.command call.evaluatedAtMs =
      .applied state reason next) (hnext : admitFinalizationRecord next = some next) :
    ∃ later, Finishes (serve w .served) 4
        (coordinateFinalizationTransition lifecyclePersistence call) ledger
        (.applied (loadedAs next (ledger.history.length + 1)) (.applied state reason next) 0) later ∧
      later.history = ledger.history ++ [(w, next)] := by
  have hstep := evaluateFinalizationTransition_applied happlied
  obtain ⟨later, happly, hhistory⟩ := finishes_apply hledger hcurrent w hnext
    (hstep.finalizationId_eq.trans hcallId) (hstep.sessionId_eq.trans hcall)
  refine ⟨later, ?_, hhistory⟩
  have hload := finishes_load hledger hcurrent hsession w
  have hafter (again) : Finishes (serve w .served) 1
      (afterLoad lifecyclePersistence call 0 again (.loaded (loadedAs record ledger.history.length)))
      ledger
      (.applied (loadedAs next (ledger.history.length + 1)) (.applied state reason next) 0) later := by
    simp only [afterLoad, loadedAs, happlied]
    rw [hcall, hcallId]
    exact finishes_bind (f := afterApply (.applied state reason next) 0 again) happly (.done 0 _ _)
  unfold coordinateFinalizationTransition
  cases call.staleRetryLimit.val with
  | zero =>
    unfold coordinateFrom
    rw [hcall]
    exact finishes_bind hload (hafter _)
  | succ left =>
    unfold coordinateFrom
    rw [hcall]
    exact finishes_bind hload (hafter _)

/-- REFUSED: three requests, if the policy does not apply the command. -/
theorem finishes_refused (hledger : LedgerOk clients ledger) (hcurrent : IsCurrent ledger record) (w : ι)
    {call : CoordinateFinalizationTransitionInput U} (hcall : call.command.sessionId = sessionId)
    (hrefused : ∀ state reason next,
      evaluateFinalizationTransition (some record) call.command call.evaluatedAtMs ≠
        .applied state reason next) :
    ∃ result, Finishes (serve w .served) 3
      (coordinateFinalizationTransition lifecyclePersistence call) ledger result ledger := by
  have hload := finishes_load hledger hcurrent (hcurrent.readable hledger).1 w
  have hafter (again) : ∃ result, Finishes (serve w .served) 0
      (afterLoad lifecyclePersistence call 0 again (.loaded (loadedAs record ledger.history.length)))
      ledger result ledger := by
    simp only [afterLoad, loadedAs]
    cases houtcome : evaluateFinalizationTransition (some record) call.command call.evaluatedAtMs with
    | applied state reason next => exact absurd houtcome (hrefused state reason next)
    | idempotent => exact ⟨_, .done 0 _ _⟩
    | rejected => exact ⟨_, .done 0 _ _⟩
    | invalid => exact ⟨_, .done 0 _ _⟩
  unfold coordinateFinalizationTransition
  cases call.staleRetryLimit.val with
  | zero =>
    obtain ⟨result, hresult⟩ := hafter none
    refine ⟨result, ?_⟩
    unfold coordinateFrom
    rw [hcall]
    exact finishes_bind hload hresult
  | succ left =>
    obtain ⟨result, hresult⟩ := hafter _
    refine ⟨result, ?_⟩
    unfold coordinateFrom
    rw [hcall]
    exact finishes_bind hload hresult

/-- DOWN: one request, if the store answers none. -/
theorem finishes_down (w : ι) (call : CoordinateFinalizationTransitionInput U) (ledger : Ledger ι U) :
    Finishes (serve w .failed) 1 (coordinateFinalizationTransition lifecyclePersistence call) ledger
      (.persistenceFailure .load 0) ledger := by
  unfold coordinateFinalizationTransition
  cases call.staleRetryLimit.val with
  | zero => exact .await (.done 0 _ _)
  | succ left => exact .await (.done 0 _ _)

/-- END: after a command that ends an attempt its record is terminal, whoever ended it. -/
theorem finishes_ending (hledger : LedgerOk clients ledger) (hcurrent : IsCurrent ledger record) (w : ι)
    {call : CoordinateFinalizationTransitionInput U} (hcall : call.command.sessionId = sessionId)
    (hid : record.finalizationId = call.command.finalizationId) (hends : EndingCommand call.command)
    (hevaluated : isTime call.evaluatedAtMs) :
    ∃ result later,
        Finishes (serve w .served) 4 (coordinateFinalizationTransition lifecyclePersistence call) ledger
          result later ∧ (later.history = ledger.history ∧ isTerminalState record.state ∨
          later.history = ledger.history ++ [(w, endedRecord record call.command)]) := by
  obtain ⟨hsession, hadmitted⟩ := hcurrent.readable hledger
  cases hopen : isTerminalState record.state with
  | true =>
    have hrefused : ∀ state reason next,
        evaluateFinalizationTransition (some record) call.command call.evaluatedAtMs ≠
          .applied state reason next := by
      intro state reason next happlied
      rw [(evaluateFinalizationTransition_applied happlied).current_open record rfl] at hopen
      cases hopen
    obtain ⟨result, hfinishes⟩ := finishes_refused hledger hcurrent w hcall hrefused
    exact ⟨result, ledger, hfinishes.mono (by decide), Or.inl ⟨rfl, rfl⟩⟩
  | false =>
    obtain ⟨reason, happlied⟩ :=
      hends.evaluate (hadmitted hopen) hopen (hsession.trans hcall.symm) hid hevaluated
    obtain ⟨later, hfinishes, hhistory⟩ := finishes_coordinate hledger hcurrent w hsession hcall hid.symm
      happlied (hends.admitted (hadmitted hopen) happlied)
    exact ⟨_, later, hfinishes, Or.inr hhistory⟩

end Store

end StarkBallot.AwsAdapters
