import StarkBallot.AwsAdapters.LifecycleAlone
import StarkBallot.AwsAdapters.ProvingSafety

/-! What becomes of a request whose upload or message fails (`failAsync` and `writeAsyncFailure` of
    `application/src/finalize/usecases/finalize-async.ts`). It records the failure, if that can be done,
    and ends in the error in any case. If its requests are served from then on and nobody else writes,
    the record is terminal.

        upload ✗ ── load ×3 ── transaction ✓ ──▶ error, record failed
                └── load ✗ ──────────────────▶ error, record as it was -/

namespace StarkBallot.AwsAdapters
open Schemes Domain Application

variable {U ι : Type} {sessionId : JsString}

/-! ### Answers that end a call -/

/-- The failure that a request stands for when it is not answered. -/
def JobRequest.failure : JobRequest U → Option AsyncFailure
  | .lifecycle _ _ => none
  | .persistAsyncProverInput _ => some .uploadFailed
  | .publish _ _ => some .publishFailed

/-- The failure that an answer is. -/
def refusedAs : (r : JobRequest U) → r.Answer → Option AsyncFailure
  | .lifecycle _ _, _ => none
  | .persistAsyncProverInput _, .ok _ => none
  | .persistAsyncProverInput _, .error _ => some .uploadFailed
  | .publish _ _, .ok _ => none
  | .publish _ _, .error _ => some .publishFailed

/-- The failure that the next request of a program stands for. -/
def nextFailure : Async (JobRequest U) JobRequest.Answer (CallResult U) → Option AsyncFailure
  | .done _ => none
  | .await r _ => r.failure

theorem refusedAs_serveJob {c : ι} {fate : Fate} {r : JobRequest U} {board : JobBoard ι U}
    {failure : AsyncFailure} (hfailure : r.failure = some failure) (hfate : fate ≠ .served) :
    refusedAs r (serveJob c fate r board).1 = some failure := by
  have hanswer : remoteAnswer fate = .error (.error "Request failed") := if_neg hfate
  cases r with
  | lifecycle => cases hfailure
  | persistAsyncProverInput =>
    simp only [serveJob, hanswer]
    exact hfailure
  | publish =>
    simp only [serveJob, hanswer]
    exact hfailure

/-- After an answer that is a failure the program goes on like this. -/
def GoesOn {α : Type} (rest : AsyncFailure → Async (JobRequest U) JobRequest.Answer α) (r : JobRequest U)
    (answer : r.Answer) (q : Async (JobRequest U) JobRequest.Answer α) : Prop :=
  ∀ failure, refusedAs r answer = some failure → q = rest failure

/-- A request of the lifecycle. -/
def IsLifecycle : JobRequest U → Prop
  | .lifecycle _ _ => True
  | _ => False

theorem goesOn_lifecycle {α : Type} {rest : AsyncFailure → Async (JobRequest U) JobRequest.Answer α}
    (r : JobRequest U) (answer : r.Answer) (q : Async (JobRequest U) JobRequest.Answer α)
    (h : IsLifecycle r) :
    GoesOn rest r answer q := by
  cases r with
  | lifecycle => rintro _ ⟨⟩
  | persistAsyncProverInput => exact h.elim
  | publish => exact h.elim

section Calls

variable [DecidableEq U] {call : FinalizeCall sessionId}

theorem asks_applyFinalizationCommand {purpose : Purpose}
    {input : CoordinateFinalizationTransitionInput U} :
    (applyFinalizationCommand purpose input).run.Asks IsLifecycle := by
  refine asks_bind (asks_lift (asks_embed (fun _ => trivial) _)) ?_
  rintro (_ | result)
  · trivial
  · change (throwing (resolveCoordinatedRecord result) : Job U _).run.Asks IsLifecycle
    cases resolveCoordinatedRecord result <;> trivial

/-- What a call does after a failure. -/
def failing (call : FinalizeCall sessionId) (failure : AsyncFailure) :
    Async (JobRequest U) JobRequest.Answer (CallResult U) := do
  let result ← (failAsync call.input call.dependencies failure).run
  return .finalized result

theorem asks_failAsync {failure : AsyncFailure} :
    (failAsync call.input (call.dependencies (U := U)) failure).run.Asks IsLifecycle := by
  have hwrite :
      (writeAsyncFailure call.input (call.dependencies (U := U)) failure).run.Asks IsLifecycle :=
    asks_seq (asks_attempt asks_applyFinalizationCommand) fun _ => trivial
  exact asks_seq hwrite fun _ => trivial

/-- A stage that fails gives its failure to what follows. -/
theorem follows_persistAsyncInput :
    (persistAsyncInput call.input (call.dependencies (U := U))).run.Follows
      (GoesOn fun failure => .done (.ok (some failure))) := by
  unfold persistAsyncInput
  cases hpersist : call.canPersist with
  | false =>
    simp only [FinalizeCall.dependencies, hpersist]
    trivial
  | true =>
    simp only [FinalizeCall.dependencies, hpersist, if_true]
    intro answer
    cases answer with
    | ok _ => exact ⟨by rintro _ ⟨⟩, trivial⟩
    | error _ =>
      refine ⟨?_, trivial⟩
      rintro _ ⟨⟩
      rfl

theorem follows_publishWorkItem {message : FinalizationWorkItem} :
    (publishWorkItem call.input (call.dependencies (U := U)) message).run.Follows
      (GoesOn fun failure => .done (.ok (some failure))) := by
  intro answer
  cases answer with
  | ok _ => exact ⟨by rintro _ ⟨⟩, trivial⟩
  | error _ =>
    refine ⟨?_, trivial⟩
    rintro _ ⟨⟩
    rfl

theorem follows_failAsync {failure : AsyncFailure} :
    (failAsync call.input (call.dependencies (U := U)) failure).run.Follows
      (GoesOn fun failure => (failAsync call.input call.dependencies failure).run) :=
  follows_of_asks asks_failAsync goesOn_lifecycle

omit [DecidableEq U] in
theorem follows_throwing {α β : Type} {rest : AsyncFailure → Async (JobRequest U) JobRequest.Answer _}
    {x : JsM α} {f : α → Job U β} (hf : ∀ a, (f a).run.Follows (GoesOn rest)) :
    (throwing x >>= f).run.Follows (GoesOn rest) := by
  cases x with
  | error e => trivial
  | ok a => exact hf a

/-- A stage of a call, and what follows it: the next stage, or the failure. -/
theorem follows_stage {stage : Job U (Option AsyncFailure)}
    {next : Option AsyncFailure → Job U (FinalizeAsyncResult U)}
    (hstage : stage.run.Follows (GoesOn fun failure => .done (.ok (some failure))))
    (hfails : ∀ failure, next (some failure) = failAsync call.input call.dependencies failure)
    (hnext : (next none).run.Follows
      (GoesOn fun failure => (failAsync call.input call.dependencies failure).run)) :
    (stage >>= next).run.Follows
      (GoesOn fun failure => (failAsync call.input call.dependencies failure).run) := by
  refine follows_seq hstage ?_ ?_
  · intro r answer q hq failure hfailure
    rw [hq failure hfailure]
    exact congrArg ExceptT.run (hfails failure)
  · rintro (_ | failure)
    · exact hnext
    · rw [hfails failure]
      exact follows_failAsync

theorem follows_enqueue {state : FinalizationState U} {commitment : JsString} :
    (enqueue call.input (call.dependencies (U := U)) state commitment).run.Follows
      (GoesOn fun failure => (failAsync call.input call.dependencies failure).run) :=
  follows_throwing fun _ => follows_stage follows_publishWorkItem (fun _ => rfl) trivial

theorem follows_startAsync {state : FinalizationState U} :
    (startAsync call.input (call.dependencies (U := U)) state).run.Follows
      (GoesOn fun failure => (failAsync call.input call.dependencies failure).run) := by
  have hupload : (uploadInput call.input (call.dependencies (U := U))).run.Follows
      (GoesOn fun failure => .done (.ok (some failure))) := by
    unfold uploadInput
    split
    · exact follows_persistAsyncInput
    · trivial
  exact follows_throwing fun _ => follows_stage hupload (fun _ => rfl) follows_enqueue

/-- FAILURE: whenever the upload or the message of a call fails, all that is left
    of it is to record that. -/
theorem follows_program (caller : Caller U sessionId) :
    caller.program.Follows fun r answer q => ∀ call, caller = .finalizeAsync call →
      GoesOn (failing call) r answer q := by
  cases caller with
  | transition client =>
    refine follows_of_asks (asks_any _) ?_
    rintro _ _ _ - _ ⟨⟩
  | finalizeAsync call =>
    have hfinalize : (finalizeAsync call.input (call.dependencies (U := U))).run.Follows
        (GoesOn fun failure => (failAsync call.input call.dependencies failure).run) := by
      have hqueue : (attempt (call.dependencies.markFinalizationQueued call.input.sessionId
          (queuedPayload call.input)) : Job U _).run.Asks IsLifecycle :=
          asks_attempt asks_applyFinalizationCommand
      refine follows_seq (R := fun r _ _ => IsLifecycle r)
        (follows_of_asks hqueue fun _ _ _ h => h) ?_ ?_
      · exact fun r answer q h => goesOn_lifecycle r answer _ h
      · rintro (_ | record)
        · trivial
        · dsimp only
          split
          · trivial
          · exact follows_startAsync
    refine follows_bind hfinalize ?_ fun _ => trivial
    rintro r answer q hq _ ⟨⟩ failure hfailure
    rw [hq failure hfailure]
    rfl

/-- ERROR: whatever becomes of the failure record, the call ends in the error. -/
theorem gives_failing {failure : AsyncFailure} :
    (failing (U := U) call failure).Gives (· = .finalized (.ok (.error failure.toError))) := by
  have hwrite :
      (writeAsyncFailure call.input (call.dependencies (U := U)) failure).run.Gives (· = .ok ()) := by
    refine gives_bind (gives_attempt _) ?_
    rintro _ ⟨_, rfl⟩
    rfl
  have hfail : (failAsync call.input (call.dependencies (U := U)) failure).run.Gives
      (· = .ok (.error failure.toError)) := by
    refine gives_bind hwrite ?_
    rintro _ rfl
    rfl
  refine gives_bind hfail ?_
  rintro _ rfl
  rfl

end Calls

/-! ### The failure record, undisturbed -/

/-- The clock of a call gives times, and it fails no earlier than it was queued. -/
structure FinalizeCall.InTime (call : FinalizeCall sessionId) : Prop where
  queued : isTime call.input.queuedAtMs
  failed : isTime call.failedAtMs
  order : call.input.queuedAtMs.le call.failedAtMs
  evaluated : isTime call.failEvaluatedAtMs

theorem endingCommand_of_inTime {call : FinalizeCall sessionId} (h : call.InTime)
    (failure : AsyncFailure) :
    EndingCommand (buildFailCommand (U := U) call.input.sessionId
      (failedPayload call.input call.failedAtMs failure)) := by
  have hbody := failCommand_body (U := U) call failure
  have hvalid : hasValidEnd (buildFailCommand (U := U) call.input.sessionId
      (failedPayload call.input call.failedAtMs failure)) none call.failedAtMs = true :=
    Bool.and_eq_true_iff.mpr ⟨rfl, Bool.and_eq_true_iff.mpr ⟨h.failed, h.order⟩⟩
  refine ⟨?_, h.queued, rfl, ?_, ?_, ?_⟩
  · unfold admitCommandState commandState
    rw [hbody]
    exact if_neg (not_not.mpr hvalid)
  · rw [hbody]
    rintro ⟨⟩
  · unfold commandState
    rw [hbody]
    exact Or.inl rfl
  · unfold commandState
    rw [hbody]
    rfl

section Undisturbed

variable {ι : Type} [DecidableEq U] {c : ι} {board : JobBoard ι U} {call : FinalizeCall sessionId}
  {failure : AsyncFailure} {fate : Fate} {n : ℕ}

theorem finishes_failing {result : FinalizationTransitionCoordinationResult U EncodedLifecycleRevision}
    {later : Ledger (ι × Purpose) U}
    (h : Finishes (serve (c, .failure failure.codeText) fate) n
      (coordinateFinalizationTransition lifecyclePersistence
      (call.failInput call.input.sessionId (failedPayload call.input call.failedAtMs failure)))
        board.ledger result later) :
    ∃ board', Finishes (serveJob c fate) n (failing call failure) board
      (.finalized (.ok (.error failure.toError))) board' ∧ board'.ledger = later := by
  have hcoordinate : ∃ board', Finishes (serveJob c fate) n (coordinate (.failure failure.codeText)
      (call.failInput call.input.sessionId (failedPayload call.input call.failedAtMs failure)))
        board result board' ∧ board'.ledger = later := finishes_embed (fun _ _ => rfl) (fun _ _ => rfl) h
  obtain ⟨board', hcoordinate, hledger⟩ := hcoordinate
  refine ⟨board', ?_, hledger⟩
  have hthrowing :
      Finishes (serveJob c fate) 0 (throwing (resolveCoordinatedRecord result) : Job U _).run board'
      (resolveCoordinatedRecord result) board' := by
    cases resolveCoordinatedRecord result with
    | error e => exact .done 0 _ _
    | ok record => exact .done 0 _ _
  have hmark :
      Finishes (serveJob c fate) n (call.dependencies.markFinalizationFailed call.input.sessionId
      (failedPayload call.input call.failedAtMs failure)).run board
        (resolveCoordinatedRecord result) board' :=
    finishes_seq (m := n) (n := 0) (finishes_lift hcoordinate) hthrowing
  have hwrite :
      Finishes (serveJob c fate) n (writeAsyncFailure call.input call.dependencies failure).run board
      (.ok ()) board' := finishes_seq (m := n) (n := 0) (finishes_attempt hmark) (.done 0 _ _)
  have hfail : Finishes (serveJob c fate) n (failAsync call.input call.dependencies failure).run board
      (.ok (.error failure.toError)) board' := finishes_seq (m := n) (n := 0) hwrite (.done 0 _ _)
  exact finishes_bind (m := n) (n := 0) hfail (.done 0 _ _)

variable {callers : ι → Caller U sessionId}

/-- The error of a call says that its attempt is stored. Were the store down from now on, the call would
    end in the error and store nothing more, so the attempt is stored already. -/
theorem attemptStored_of_failing (hboard : BoardOk callers board)
    (hcall : callers c = .finalizeAsync call)
    (hsafe : KeepsBoard callers c (CallerDone callers c) (failing call failure) board) :
    AttemptStored call.input.finalizationId board := by
  obtain ⟨board', hfinishes, hledger⟩ :=
    finishes_failing (finishes_down (c, .failure failure.codeText) _ board.ledger)
  have hdone := hfinishes.safe (relies_otherJobs.refl c) hsafe hboard
  obtain ⟨call', hcall', htold⟩ := hdone
  obtain rfl : call = call' := Caller.finalizeAsync.inj (hcall.symm.trans hcall')
  obtain ⟨entry, hentry, hid⟩ := (htold _ rfl).failed failure rfl
  rw [hledger] at hentry
  exact ⟨entry, hentry, hid⟩

/-- RECORD: undisturbed, a call that failed leaves the record of its attempt terminal. -/
theorem finishes_failing_ends (hboard : BoardOk callers board) (htime : call.InTime)
    (hstored : AttemptStored call.input.finalizationId board)
    (hlength : board.ledger.history.length ≤ Num.maxSafeInteger) :
    ∃ board', Finishes (serveJob c .served) 4 (failing call failure) board
        (.finalized (.ok (.error failure.toError))) board' ∧
      ∃ last, board'.ledger.history.getLast? = some last ∧
        last.2.finalizationId = call.input.finalizationId ∧
        isTerminalState last.2.state := by
  obtain ⟨record, hrecord, hid⟩ := hstored.current hboard
  have hcurrent := isCurrent_of_length hboard.ledger hrecord hlength
  have hends := endingCommand_of_inTime (U := U) htime failure
  have hsession : (call.failInput (U := U) call.input.sessionId
      (failedPayload call.input call.failedAtMs failure)).command.sessionId = sessionId :=
      call.sameSession
  obtain ⟨result, later, hfinishes, hlater⟩ := finishes_ending hboard.ledger hcurrent
    (c, .failure failure.codeText) hsession hid hends htime.evaluated
  obtain ⟨board', hfailing, rfl⟩ := finishes_failing hfinishes
  refine ⟨board', hfailing, ?_⟩
  rcases hlater with ⟨hsame, hterminal⟩ | happended
  · rw [storedRecord_of_ledgerOk hboard.ledger] at hrecord
    obtain ⟨last, hlast, rfl⟩ := Option.map_eq_some_iff.mp hrecord
    exact ⟨last, hsame ▸ hlast, hid, hterminal⟩
  · refine ⟨_, by rw [happended, List.getLast?_concat], hid, hends.terminal⟩

end Undisturbed

/-! ### Every schedule -/

section Schedules

variable {ι : Type} [DecidableEq U] [DecidableEq ι] {callers : ι → Caller U sessionId}

theorem runCallers_append (callers : ι → Caller U sessionId) (schedule more : List (ι × Fate)) :
    runCallers callers (schedule ++ more) = runSchedule serveJob (runCallers callers schedule) more :=
  List.foldl_append

/-- Whenever the upload or the message of the caller fails, all that is left of it is to record that. -/
def RecordsFailures (callers : ι → Caller U sessionId) (c : ι) :
    Async (JobRequest U) JobRequest.Answer (CallResult U) → Prop :=
  Async.Follows fun r answer q => ∀ call, callers c = .finalizeAsync call →
    GoesOn (failing call) r answer q

/-- STEP: after a failed upload or message all that is left of a call is to record that. -/
theorem program_after_failure {before : List (ι × Fate)} {c : ι} {call : FinalizeCall sessionId}
    {failure : AsyncFailure} {fate : Fate} (hcall : callers c = .finalizeAsync call)
    (hnext : nextFailure ((runCallers callers before).programs c) = some failure)
    (hfate : fate ≠ .served) :
    (runCallers callers (before ++ [(c, fate)])).programs c = failing call failure := by
  have hinitial : ∀ d, RecordsFailures callers d ((initialJobs callers).programs d) :=
    fun d => follows_program (callers d)
  have hfollows : RecordsFailures callers c ((runCallers callers before).programs c) :=
    runSchedule_programs (RecordsFailures callers) (fun _ _ _ answer h => (h answer).2) hinitial before c
  rw [runCallers_append]
  change (advance serveJob (runCallers callers before) (c, fate)).programs c = _
  unfold advance
  revert hnext hfollows
  cases hprogram : (runCallers callers before).programs c with
  | done result => rintro ⟨⟩
  | await r next =>
    intro hnext hfollows
    simp only [Function.update_self]
    exact (hfollows _).1 call hcall failure (refusedAs_serveJob hnext hfate)

/-- However its requests are answered, the caller ends in the error of the failure. -/
def EndsInError (failure : AsyncFailure) (c d : ι)
    (p : Async (JobRequest U) JobRequest.Answer (CallResult U)) :
    Prop :=
  d = c → p.Gives (· = .finalized (.ok (.error failure.toError)))

/-- RUN: so the call can only end in the error. -/
theorem result_of_failing
    {system : Concurrent ι (JobBoard ι U) (JobRequest U) JobRequest.Answer (CallResult U)}
    {c : ι} {call : FinalizeCall sessionId} {failure : AsyncFailure} {after : List (ι × Fate)}
    (hprogram : system.programs c = failing call failure) {result : CallResult U}
    (hresult : (runSchedule serveJob system after).programs c = .done result) :
    result = .finalized (.ok (.error failure.toError)) := by
  have hgives : ∀ d, EndsInError failure c d (system.programs d) := by
    rintro d rfl
    rw [hprogram]
    exact gives_failing
  have hlater : EndsInError failure c c ((runSchedule serveJob system after).programs c) :=
    runSchedule_programs (EndsInError failure c) (fun _ _ _ answer h hd => h hd answer) hgives after c
  rw [hresult] at hlater
  exact hlater rfl

end Schedules

/-- SAFETY: under every schedule at most one message is published; its attempt is the only one that is
    ever stored; every call that returns a state returns one of that attempt; and a call that fails
    leaves the record of its attempt terminal, or has itself stored nothing but its pending record. Once
    its upload or its message has failed a call can only end in that error; it does so and the record is
    terminal if from then on its requests are served and nobody else writes. -/
theorem at_most_one_proving_job [DecidableEq U] [DecidableEq ι] (callers : ι → Caller U sessionId)
    (hdistinct : ∀ c d call call', callers c = .finalizeAsync call → callers d = .finalizeAsync call' →
      call.input.finalizationId = call'.input.finalizationId → c = d) (schedule : List (ι × Fate)) :
    let final := runCallers callers schedule
    final.shared.published.length ≤ 1 ∧
      (∀ sent ∈ final.shared.published,
        (∃ record, storedRecord final.shared.ledger.items = some record) ∧
          ∀ entry ∈ final.shared.ledger.history, entry.2.finalizationId = sent.2.finalizationId) ∧
      (∀ c accepted, finalizeResult (final.programs c) = some (.ok accepted) →
        accepted.payload.finalizationId = accepted.state.finalizationId ∧
          (∃ record, storedRecord final.shared.ledger.items = some record ∧
            record.finalizationId = accepted.payload.finalizationId) ∧
          ∀ entry ∈ final.shared.ledger.history,
            entry.2.finalizationId = accepted.payload.finalizationId) ∧
      (∀ c call, callers c = .finalizeAsync call → ∀ failure : AsyncFailure,
        finalizeResult (final.programs c) = some (.error failure.toError) →
          ∃ record, storedRecord final.shared.ledger.items = some record ∧
            record.finalizationId = call.input.finalizationId ∧
            (isTerminalState record.state ∨ ∀ entry ∈ final.shared.ledger.history, entry.1.1 = c →
              entry.2.state = .pending call.input.finalizationId call.input.queuedAtMs)) ∧
      ∀ before after c fate call failure, schedule = before ++ (c, fate) :: after →
        callers c = .finalizeAsync call →
        nextFailure ((runCallers callers before).programs c) = some failure →
        fate ≠ .served →
          let failed := runCallers callers (before ++ [(c, fate)])
          (∀ result, final.programs c = .done result →
            result = .finalized (.ok (.error failure.toError))) ∧
          (call.InTime → failed.shared.ledger.history.length ≤ Num.maxSafeInteger →
            Undisturbed serveJob c .served failed after →
              4 ≤ (after.filter fun turn => turn.1 = c).length →
              final.programs c = .done (.finalized (.ok (.error failure.toError))) ∧
              ∃ record, storedRecord final.shared.ledger.items = some record ∧
                record.finalizationId = call.input.finalizationId ∧ isTerminalState record.state) := by
  intro final
  obtain ⟨hboard, hsafe⟩ := runCallers_safe callers schedule
  refine ⟨published_once hboard hdistinct, ?_, ?_, ?_, ?_⟩
  · intro sent hsent
    have hstored := hboard.stored sent hsent
    obtain ⟨record, hrecord, -⟩ := hstored.current hboard
    exact ⟨⟨record, hrecord⟩, hstored.all hboard⟩
  · intro c accepted hresult
    obtain ⟨_, -, htold⟩ := told_of_finalizeResult (hsafe c) hresult
    obtain ⟨hid, hstored⟩ := htold.accepted accepted rfl
    exact ⟨hid, hstored.current hboard, hstored.all hboard⟩
  · intro c call hcall failure hresult
    obtain ⟨call', hcall', htold⟩ := told_of_finalizeResult (hsafe c) hresult
    obtain rfl : call = call' := Caller.finalizeAsync.inj (hcall.symm.trans hcall')
    obtain ⟨record, hrecord, hid⟩ := (htold.failed failure rfl).current hboard
    exact ⟨record, hrecord, hid, terminal_or_only_pending hboard hcall hrecord⟩
  · intro before after c fate call failure hschedule hcall hnext hfate failed
    have hprogram := program_after_failure hcall hnext hfate
    have hfinal : final = runSchedule serveJob failed after := by
      rw [← runCallers_append, List.append_assoc, List.singleton_append, ← hschedule]
    refine ⟨?_, ?_⟩
    · intro result hresult
      exact result_of_failing hprogram (hfinal ▸ hresult)
    · intro htime hlength hundisturbed hturns
      obtain ⟨hfailedBoard, hfailedSafe⟩ := runCallers_safe callers (before ++ [(c, fate)])
      have hsafeFailing := hfailedSafe c
      rw [hprogram] at hsafeFailing
      have hstored := attemptStored_of_failing hfailedBoard hcall hsafeFailing
      obtain ⟨board', hfinishes, last, hlast, hid, hterminal⟩ :=
        finishes_failing_ends hfailedBoard htime hstored hlength
      rw [← hprogram] at hfinishes
      obtain ⟨hdone, hshared⟩ := finishes_undisturbed hfinishes hundisturbed hturns
      rw [← hfinal] at hdone hshared
      refine ⟨hdone, last.2, ?_, hid, hterminal⟩
      rw [storedRecord_of_ledgerOk hboard.ledger, hshared, hlast]
      rfl

/-- A request to finalize session `s` under an identifier. -/
def sampleRequest (finalizationId : JsString) : FinalizeCall (js "s") where
  input := {
    sessionId := js "s"
    finalizationId := finalizationId
    queuedAtMs := Num.ofNat 1
    zkvmInput := ⟨[], [], Num.ofNat 0, [], Num.ofNat 0, Num.ofNat 0, [], []⟩
    electionConfig := ⟨Num.ofNat 64, [], [], Num.ofNat 63, Num.ofNat 6⟩
    expectedImageId := js "i"
    scenarios := [js "S0"]
    scenarioContext := sampleContext
    publishMaxAttempts := Num.ofNat 3
    inputSource := .s3 }
  sameSession := rfl
  computeCommitment _ := .ok []
  canPersist := true
  queueEvaluatedAtMs := Num.ofNat 3
  failedAtMs := Num.ofNat 4
  failEvaluatedAtMs := Num.ofNat 4

inductive Party where
  | first
  | second
  | worker
  deriving DecidableEq

/-- Two requests and a worker. -/
def twoRequests : Party → Caller Empty (js "s")
  | .first => .finalizeAsync (sampleRequest (js "f"))
  | .second => .finalizeAsync (sampleRequest (js "g"))
  | .worker => .transition (sampleClient (.start (Num.ofNat 2)))

theorem twoRequests_distinct (c d : Party) (call call' : FinalizeCall (js "s"))
    (hcall : twoRequests c = .finalizeAsync call) (hcall' : twoRequests d = .finalizeAsync call')
    (hid : call.input.finalizationId = call'.input.finalizationId) : c = d := by
  have hne : js "f" ≠ js "g" := by decide
  cases c <;> cases d <;> cases hcall <;> cases hcall'
  · rfl
  · exact absurd hid hne
  · exact absurd hid hne.symm
  · rfl

/-- Both read that nothing is stored; the first to write goes on to publish. -/
def race : List (Party × Fate) :=
  [.first, .first, .second, .second, .first, .second, .second, .second, .second, .second, .second,
    .second, .first, .first].map (·, Fate.served)

/-- The upload of the first request fails, and its failure is recorded while nobody else writes. -/
def failedUpload : List (Party × Fate) :=
  [(.first, .served), (.first, .served), (.first, .served), (.first, .failed)] ++
    List.replicate 4 (.first, .served)

theorem sampleRequest_inTime : (sampleRequest (js "f")).InTime where
  queued := by decide
  failed := by decide
  order := by decide
  evaluated := by decide

theorem at_most_one_proving_job_on_sample :
    (runCallers twoRequests race).shared.published.map Prod.fst = [.first] ∧
      (runCallers twoRequests race).shared.published.length ≤ 1 ∧
      (runCallers twoRequests failedUpload).programs .first =
        .done (.finalized (.ok (.error AsyncFailure.uploadFailed.toError))) ∧
      ∃ record, storedRecord (runCallers twoRequests failedUpload).shared.ledger.items = some record ∧
        record.finalizationId = js "f" ∧ isTerminalState record.state := by
  obtain ⟨-, -, -, -, hfailed⟩ := at_most_one_proving_job twoRequests twoRequests_distinct failedUpload
  obtain ⟨-, hrecorded⟩ := hfailed [(.first, .served), (.first, .served), (.first, .served)]
    (List.replicate 4 (.first, .served)) .first .failed (sampleRequest (js "f")) .uploadFailed rfl rfl
    (by decide) (by decide)
  obtain ⟨hdone, hrecord⟩ := hrecorded sampleRequest_inTime (by decide)
    (undisturbed_of_alone (by simp) _) (by decide)
  exact ⟨by decide, (at_most_one_proving_job twoRequests twoRequests_distinct race).1,
    hdone, hrecord⟩

/-- The upload of the first request fails, the worker starts the attempt, and the
    failure cannot be recorded. -/
def orphaned : List (Party × Fate) :=
  [.first, .first, .first].map (·, Fate.served) ++ [(.first, .failed)] ++
    [.worker, .worker, .worker, .worker].map (·, Fate.served) ++ [(.first, .failed)]

/-- A record that a failed request leaves open may have been changed by others. -/
theorem failed_request_leaves_an_open_record :
    ¬ ∀ (callers : Party → Caller Empty (js "s")),
      (∀ c d call call', callers c = .finalizeAsync call → callers d = .finalizeAsync call' →
        call.input.finalizationId = call'.input.finalizationId → c = d) →
      ∀ (schedule : List (Party × Fate)) (c : Party) (failure : AsyncFailure)
        (record : FinalizationRecord Empty),
          finalizeResult ((runCallers callers schedule).programs c) = some (.error failure.toError) →
          storedRecord (runCallers callers schedule).shared.ledger.items = some record →
            isTerminalState record.state ∨
              ∀ entry ∈ (runCallers callers schedule).shared.ledger.history, entry.1.1 = c := by
  intro h
  have hresult : finalizeResult ((runCallers twoRequests orphaned).programs .first) =
      some (.error AsyncFailure.uploadFailed.toError) := by decide
  have hrecord : storedRecord (runCallers twoRequests orphaned).shared.ledger.items =
      some ⟨js "s", js "f", sampleContext, .running (js "f") (Num.ofNat 1) (Num.ofNat 2), none⟩ := by
        decide
  have hothers :
      ¬ ∀ entry ∈ (runCallers twoRequests orphaned).shared.ledger.history, entry.1.1 = .first := by
    decide
  rcases h twoRequests twoRequests_distinct orphaned .first _ _ hresult hrecord with hterminal | hall
  · cases hterminal
  · exact hothers hall

end StarkBallot.AwsAdapters
