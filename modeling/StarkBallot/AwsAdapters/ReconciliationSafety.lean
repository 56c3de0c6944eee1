import StarkBallot.AwsAdapters.Reconciliation
import StarkBallot.Schemes.Alone

/-! Safety of the reconciliation under every schedule. What a run asks the store to write is a failure
    or a timeout of its own attempt, and the policy applies either only to an open record of that
    attempt. What the run read before plays no part in this.

        entry of a run  ──▶  its call: fail or time out, own id  ──▶  replaced an open record of that id

    A dispatch timeout is meant for a pending record. It replaces one if no load of its call finds a
    record that became running since the run's own read. -/

namespace StarkBallot.AwsAdapters
open Schemes Domain Application

variable {U ι : Type} {sessionId : JsString}

/-! ### Authors -/

section Authors

/-- A client that can store nothing: its clock is no time. -/
def idleClient (sessionId : JsString) : Client U sessionId where
  command := ⟨sessionId, [], .nan, none, none, .queue⟩
  evaluatedAtMs := .nan
  staleRetryLimit := ⟨2, two_retries⟩
  sameSession := rfl

/-- Who writes a record, as a client of the lifecycle. -/
def authors (sessionId : JsString) (w : Author ι U) : Client U sessionId :=
  match w.2 with
  | none => idleClient sessionId
  | some call => if h : call.command.sessionId = sessionId then ⟨call, h⟩ else idleClient sessionId

theorem authors_call {c : ι} {call : CoordinateFinalizationTransitionInput U}
    (h : call.command.sessionId = sessionId) : authors sessionId (c, some call) = ⟨call, h⟩ := dif_pos h

theorem idle_applies_nothing {current : Option (FinalizationRecord U)} {state : FinalizationState U}
    {reason : FinalizationEventReason} {next : FinalizationRecord U} :
    evaluateFinalizationTransition current (idleClient sessionId).command
      (idleClient (U := U) sessionId).evaluatedAtMs ≠ .applied state reason next := by
  intro h
  cases h

/-- A record that was stored came by a call. -/
theorem author_of_applied {current : Option (Author ι U × FinalizationRecord U)}
    {entry : Author ι U × FinalizationRecord U} (h : AppliedBy (authors sessionId) current entry) :
    ∃ call, entry.1.2 = some call ∧ call.command.sessionId = sessionId ∧ ∃ state reason,
      evaluateFinalizationTransition (current.map Prod.snd) call.command call.evaluatedAtMs =
        .applied state reason entry.2 := by
  obtain ⟨state, reason, happlied⟩ := h
  obtain ⟨⟨c, _ | call⟩, record⟩ := entry
  · exact absurd happlied idle_applies_nothing
  · by_cases hsession : call.command.sessionId = sessionId
    · rw [authors_call hsession] at happlied
      exact ⟨call, rfl, hsession, state, reason, happlied⟩
    · have hidle : authors sessionId (c, some call) = idleClient sessionId := dif_neg hsession
      rw [hidle] at happlied
      exact absurd happlied idle_applies_nothing

end Authors

/-! ### What a run writes -/

section Outcomes

variable {current : Option (FinalizationRecord U)} {command : FinalizationTransitionCommand U}
  {evaluatedAtMs : Num}
  {state : FinalizationState U} {reason : FinalizationEventReason} {next : FinalizationRecord U}

/-- A record that replaces nothing takes its context from the command. -/
theorem context_of_applied
    (h : evaluateFinalizationTransition none command evaluatedAtMs = .applied state reason next) :
    command.scenarioContext ≠ none := by
  intro hnone
  obtain ⟨admitted, -, hadmitted, -, hnext⟩ := applied_of_evaluate h
  obtain ⟨-, -, -, -, requested, -, rfl⟩ := admitCommand_eq_ok.mp hadmitted
  rw [hnone] at hnext
  cases hnext

theorem reasonText_ne_cancelled (state : ActiveFinalizationState)
    (execution : FinalizationExecutionObservation) :
    js (finalizationReasonText (resolveReconciliationFailureReason state execution)) ≠
      js "USER_CANCELLED" := by
  have hreason : resolveReconciliationFailureReason state execution ∈
      [FinalizationEventReason.finalizationDispatchTimeout, .finalizationOutcomeUnrecorded,
        .proverExecutionFailed, .proverExecutionAborted] := by
    unfold resolveReconciliationFailureReason
    split
    · simp
    · split <;> simp
    · split
      · simp
      · split <;> simp
  revert hreason
  generalize resolveReconciliationFailureReason state execution = reason
  intro hreason
  simp only [List.mem_cons, List.not_mem_nil, or_false] at hreason
  rcases hreason with rfl | rfl | rfl | rfl <;> decide

variable (run : ReconcileRun sessionId) (active : ActiveFinalizationState)
  (execution : FinalizationExecutionObservation)

/-- The call by which a run writes its outcome. -/
def ReconcileRun.writes : CoordinateFinalizationTransitionInput U :=
  run.outcomeCall run.input.sessionId (reconciledOutcome run.input active execution)

/-- The command fails the run's attempt, or times it out. -/
structure EndsAttempt (command : FinalizationTransitionCommand U) : Prop where
  sessionId_eq : command.sessionId = run.input.sessionId
  finalizationId_eq : command.finalizationId = run.input.finalizationId
  queuedAtMs_eq : command.queuedAtMs = active.queuedAtMs
  scenarioContext_eq : command.scenarioContext = none
  body_eq : command.body = .timeOut active.startedAtMs (reconciledAtMs run.input.nowMs execution) ∨
    command.body = .fail active.startedAtMs (reconciledAtMs run.input.nowMs execution)
      ⟨js (finalizationReasonText (resolveReconciliationFailureReason active execution)),
        js (reconciliationMessage execution), none, none, []⟩

theorem writes_endsAttempt :
    EndsAttempt (U := U) run active execution (run.writes active execution).command := by
  unfold ReconcileRun.writes reconciledOutcome
  split
  · exact ⟨rfl, rfl, rfl, rfl, Or.inl rfl⟩
  · exact ⟨rfl, rfl, rfl, rfl, Or.inr (if_neg (reasonText_ne_cancelled active execution))⟩

variable {run active execution}

theorem EndsAttempt.ended (h : EndsAttempt run active execution command) :
    (commandState command).status = .failed ∨ (commandState command).status = .timeout := by
  unfold commandState
  rcases h.body_eq with hbody | hbody
  · rw [hbody]
    exact Or.inr rfl
  · rw [hbody]
    exact Or.inl rfl

/-- What a run's write may do to the stored record. -/
structure EndsOpenAttempt (finalizationId : JsString) (current : Option (FinalizationRecord U))
    (next : FinalizationRecord U) : Prop where
  current_open : ∃ record, current = some record ∧ isTerminalState record.state = false ∧
    record.state.finalizationId = finalizationId
  finalizationId_eq : next.finalizationId = finalizationId
  ended : next.state.status = .failed ∨ next.state.status = .timeout

/-- STEP: a run ends an open attempt, its own. -/
theorem EndsAttempt.applied (h : EndsAttempt run active execution command)
    (happlied : evaluateFinalizationTransition current command evaluatedAtMs =
      .applied state reason next) :
    EndsOpenAttempt run.input.finalizationId current next := by
  have hstep := evaluateFinalizationTransition_applied happlied
  refine ⟨?_, hstep.finalizationId_eq.trans h.finalizationId_eq, ?_⟩
  · cases current with
    | none => exact absurd h.scenarioContext_eq (context_of_applied happlied)
    | some record =>
      exact ⟨record, rfl, hstep.current_open record rfl,
        (hstep.current_id record rfl).trans h.finalizationId_eq⟩
  · rw [applied_state happlied]
    exact h.ended

end Outcomes

/-! ### The invariant -/

section Invariant

variable (callers : ι → LifecycleCaller U sessionId)
  (allowed : Author ι U → Option (FinalizationRecord U) → Prop)

/-- The author's call is the caller's: for a run, the write of some outcome. -/
def Authored (w : Author ι U) : Prop :=
  ∀ run call, callers w.1 = .reconcile run → w.2 = some call →
    ∃ active execution, call = run.writes active execution

structure ReconcileOk (ledger : Ledger (Author ι U) U) : Prop extends
    LedgerKept (authors sessionId) allowed ledger where
  authored : ∀ entry ∈ ledger.history, Authored callers entry.1

/-- Between two steps of a caller the others store, in their own names. -/
def OtherRecords (c : ι) (ledger later : Ledger (Author ι U) U) : Prop :=
  Added (fun entry => entry.1.1 ≠ c) ledger.history later.history

theorem relies_otherRecords : Relies (@OtherRecords U ι) where
  refl _ _ := Added.refl _ _
  trans _ _ _ _ h h' := h.trans h'

theorem OtherRecords.others {c : ι} {ledger later : Ledger (Author ι U) U}
    (h : OtherRecords c ledger later) (call : Option (CoordinateFinalizationTransitionInput U)) :
    others (c, call) ledger later := by
  obtain ⟨entries, heq, hentries⟩ := h
  refine ⟨entries, heq, ?_⟩
  rintro entry hentry hauthor
  exact hentries entry hentry (congrArg Prod.fst hauthor)

/-- How a schedule's requests are served: as the store serves them, or the store shows less. -/
abbrev Server (ι U : Type) :=
  ι → Turn → (r : ReconcileRequest U) → Ledger (Author ι U) U → r.Answer × Ledger (Author ι U) U

/-- The store as a server of authors. -/
def ofStore (server : Server ι U) (w : Author ι U) (turn : Turn) (r : StoreRequest U)
    (ledger : Ledger (Author ι U) U) :
    r.Answer × Ledger (Author ι U) U :=
  server w.1 turn (.store w.2 r) ledger

structure ServesRuns (server : Server ι U) : Prop where
  shows : Shows allowed (ofStore server)
  observe : ∀ c turn finalizationId ledger,
    (server c turn (.observeExecution finalizationId) ledger).2 = ledger

variable {callers allowed} {server : Server ι U}

theorem ServesRuns.grows (h : ServesRuns allowed server) (w : Author ι U) (turn : Turn)
    (r : StoreRequest U) (ledger : Ledger (Author ι U) U) :
    Grows ledger (ofStore server w turn r ledger).2 := by
  obtain ⟨fate, hfate, -⟩ := h.shows.serve_eq w turn r ledger
  rw [hfate]
  exact grows_serve w fate r ledger

variable (callers allowed server) in
abbrev KeepsRecords {α : Type} (c : ι) (post : α → Ledger (Author ι U) U → Prop)
    (program : Async (ReconcileRequest U) ReconcileRequest.Answer α) (ledger : Ledger (Author ι U) U) :
    Prop :=
  Safe server (ReconcileOk callers allowed) OtherRecords c post program ledger

variable (sessionId) in
/-- What a caller knows of the ledger while a call is served. -/
structure CallFrame (c : ι) (call : Option (CoordinateFinalizationTransitionInput U))
    (frame : Ledger (Author ι U) U → Prop) : Prop where
  others : ∀ ledger later, OtherRecords c ledger later → frame ledger → frame later
  self : ∀ ledger later, LedgerOk (authors sessionId) later →
    Added (fun entry => entry.1 = (c, call)) ledger.history later.history → frame ledger → frame later

/-- The caller has stored nothing. -/
def Silent (c : ι) (ledger : Ledger (Author ι U) U) : Prop := ∀ entry ∈ ledger.history, entry.1.1 ≠ c

theorem Silent.unwritten {c : ι} {ledger : Ledger (Author ι U) U} (h : Silent c ledger)
    (call : Option (CoordinateFinalizationTransitionInput U)) : Unwritten (c, call) ledger.history := by
  rintro entry hentry hauthor
  exact h entry hentry (congrArg Prod.fst hauthor)

/-- Reads store nothing. -/
theorem frame_silent (c : ι) : CallFrame (U := U) sessionId c none (Silent c) where
  others _ _ hothers h := hothers.forall_mem h
  self ledger later hledger hadded h := by
    obtain ⟨entries, heq, hentries⟩ := hadded
    intro entry hentry
    obtain ⟨_, happlied⟩ := hledger.run.of_step entry hentry
    obtain ⟨call, hcall, -⟩ := author_of_applied happlied
    rw [heq] at hentry
    rcases List.mem_append.mp hentry with hentry | hentry
    · exact h entry hentry
    · rw [hentries entry hentry] at hcall
      cases hcall

theorem frame_unread (c : ι) (call : CoordinateFinalizationTransitionInput U) :
    CallFrame sessionId c (some call) (fun ledger => Unwritten (c, none) ledger.history) where
  others _ _ hothers h := Unwritten.later h (hothers.others none)
  self ledger later _ hadded h := by
    obtain ⟨entries, heq, hentries⟩ := hadded
    rintro entry hentry hauthor
    rw [heq] at hentry
    rcases List.mem_append.mp hentry with hentry | hentry
    · exact h entry hentry hauthor
    · rw [hentries entry hentry] at hauthor
      cases hauthor

/-- A part of a call is a part of the system, if the call is the caller's. -/
theorem embeds_store (h : ServesRuns allowed server) {c : ι}
    {call : Option (CoordinateFinalizationTransitionInput U)} (hauthored : Authored callers (c, call))
    {frame : Ledger (Author ι U) U → Prop} (hframe : CallFrame sessionId c call frame) :
    Embeds (ofStore server) (LedgerKept (authors sessionId) allowed) others server
      (ReconcileOk callers allowed)
      OtherRecords (fun ledger => ledger) (ReconcileRequest.store call) (fun _ answer => answer)
        (c, call) c frame
      (fun _ => True) where
  answer_eq _ _ _ := rfl
  view_eq _ _ _ := rfl
  view_inv _ hledger := hledger.toLedgerKept
  view_others _ _ hothers := hothers.others call
  frame_others := hframe.others
  keeps turn r ledger _ hledger hknown hkept hothers := by
    have hadded := added_by_self (h.grows (c, call) turn r ledger) hothers
    refine ⟨⟨hkept, ?_⟩, ?_, hframe.self ledger _ hkept.toLedgerOk hadded hknown⟩
    · obtain ⟨entries, heq, hentries⟩ := hadded
      intro entry hentry
      change entry ∈ (ofStore server (c, call) turn r ledger).2.history at hentry
      rw [heq] at hentry
      rcases List.mem_append.mp hentry with hentry | hentry
      · exact hledger.authored entry hentry
      · rw [hentries entry hentry]
        exact hauthored
    · intro d hd
      obtain ⟨entries, heq, hentries⟩ := hadded
      refine ⟨entries, heq, ?_⟩
      intro entry hentry
      rw [hentries entry hentry]
      exact hd.symm

/-! ### A run -/

variable {c : ι} {ledger : Ledger (Author ι U) U}

theorem safe_throwing_result {α : Type} {x : JsM α} {post : Ledger (Author ι U) U → Prop}
    (h : post ledger) :
    KeepsRecords callers allowed server c (fun _ => post) (throwing x : Reconciling U α).run ledger := by
  cases x with
  | error e => exact h
  | ok a => exact h

/-- What follows a program of the store whose answer decides nothing. -/
theorem keeps_throwing {α β : Type} {program : Async (ReconcileRequest U) ReconcileRequest.Answer α}
    {f : α → JsM β} {post : Ledger (Author ι U) U → Prop}
    (h : KeepsRecords callers allowed server c (fun _ => post) program ledger) :
    KeepsRecords callers allowed server c (fun _ => post)
      (do throwing (f (← ExceptT.lift program)) : Reconciling U β).run ledger := by
  have hlifted : KeepsRecords callers allowed server c (fun _ => post)
      (ExceptT.lift program : Reconciling U α).run ledger := safe_bind h fun _ _ hpost => hpost
  refine safe_try hlifted (fun _ _ hpost => hpost) ?_
  intro a later hpost
  exact safe_throwing_result hpost

theorem keeps_getCurrentFinalizationRecord (h : ServesRuns allowed server)
    {frame : Ledger (Author ι U) U → Prop} (hframe : CallFrame sessionId c none frame)
    (hunwritten : Unwritten (c, none) ledger.history) (hknown : frame ledger)
    (readSessionId : JsString) :
    KeepsRecords callers allowed server c (fun _ => frame)
      (getCurrentFinalizationRecord readSessionId : Reconciling U _).run ledger := by
  have hauthored : Authored callers (c, none) := by
    rintro run call - ⟨⟩
  have hload := safe_embed (embeds_store h hauthored hframe)
    (keeps_loadFinalizationLifecycle h.shows hunwritten readSessionId) (asks_any _) hknown
  exact keeps_throwing (safe_mono (fun _ _ hpost => hpost.2) hload)

theorem keeps_observeExecution (h : ServesRuns allowed server) (hsilent : Silent c ledger)
    (finalizationId : JsString) :
    KeepsRecords callers allowed server c (fun _ => Silent c)
      (observeExecution finalizationId : Reconciling U _).run ledger := by
  intro later turn hothers hledger
  refine ⟨?_, ?_, ?_⟩
  · rwa [h.observe]
  · intro d _
    rw [h.observe]
    exact Added.refl _ _
  · rw [h.observe]
    exact safe_throwing_result (hothers.forall_mem hsilent)

variable [DecidableEq U]

theorem keeps_markFinalization (h : ServesRuns allowed server)
    {call : CoordinateFinalizationTransitionInput U} (hsession : call.command.sessionId = sessionId)
    (hauthored : Authored callers (c, some call)) (hsilent : Silent c ledger) :
    KeepsRecords callers allowed server c (fun _ later => Unwritten (c, none) later.history)
      (coordinateMarked call) ledger := by
  classical
  have hcoordinate : KeepsShown (authors sessionId) allowed (ofStore server) (c, some call)
      (CoordinationTraced (c, some call)) (coordinateFrom lifecyclePersistence
        (authors sessionId (c, some call)).toCoordinateFinalizationTransitionInput 0
          call.staleRetryLimit) ledger :=
    keeps_shown_coordinateFrom h.shows _ (hsilent.unwritten (some call))
  rw [authors_call hsession] at hcoordinate
  have hembedded := safe_embed (embeds_store h hauthored (frame_unread c call)) hcoordinate (asks_any _)
    (hsilent.unwritten none)
  exact safe_mono (fun _ _ hpost => hpost.2) hembedded

section Run

variable {run : ReconcileRun sessionId} (hcaller : callers c = .reconcile run)
    (h : ServesRuns allowed server)
include hcaller h

theorem keeps_writeReconciledOutcome (hsilent : Silent c ledger) (active : ActiveFinalizationState)
    (execution : FinalizationExecutionObservation) :
    KeepsRecords callers allowed server c (fun _ later => Unwritten (c, none) later.history)
      (writeReconciledOutcome run.input (run.ports (U := U)) active execution).run ledger := by
  have hauthored : Authored (U := U) callers (c, some (run.writes active execution)) := by
    rintro run' call hrun ⟨⟩
    obtain rfl : run = run' := by simpa using hcaller.symm.trans hrun
    exact ⟨active, execution, rfl⟩
  have hsession :
      ((run.writes active execution).command : FinalizationTransitionCommand U).sessionId = sessionId :=
    (writes_endsAttempt run active execution).sessionId_eq.trans run.sameSession
  have hmark :=
    keeps_throwing (f := resolveCoordinatedRecord) (keeps_markFinalization h hsession hauthored hsilent)
  unfold writeReconciledOutcome
  unfold ReconcileRun.writes at hmark
  split
  · rename_i payload houtcome
    rw [houtcome] at hmark
    exact safe_try hmark (fun _ _ hpost => hpost) fun _ _ hpost => hpost
  · rename_i payload houtcome
    rw [houtcome] at hmark
    exact safe_try hmark (fun _ _ hpost => hpost) fun _ _ hpost => hpost

/-- A run keeps the ledger in order, whatever it reads and sees. -/
theorem keeps_reconcileFinalization (hsilent : Silent c ledger) :
    KeepsRecords callers allowed server c (fun _ _ => True)
      (reconcileFinalization run.input (run.ports (U := U))).run ledger := by
  refine safe_try
    (keeps_getCurrentFinalizationRecord h (frame_silent c) (hsilent.unwritten none) hsilent _)
    (fun _ _ _ => trivial) ?_
  intro current later hlater
  split
  · trivial
  split
  · trivial
  refine safe_try (keeps_observeExecution h hlater _) (fun _ _ _ => trivial) ?_
  intro execution latest hlatest
  unfold reconcileExecution
  split
  · trivial
  refine safe_attempt_bind (keeps_writeReconciledOutcome hcaller h hlatest _ execution) ?_
  rintro (e | _) final hfinal
  · have hframe : CallFrame (U := U) sessionId c none fun _ => True :=
      ⟨fun _ _ _ _ => trivial, fun _ _ _ _ _ => trivial⟩
    refine safe_try (keeps_getCurrentFinalizationRecord h hframe hfinal trivial _)
      (fun _ _ _ => trivial) ?_
    intro latest' _ _
    split
    · trivial
    · trivial
  · trivial

end Run

theorem keeps_caller (h : ServesRuns allowed server) (hsilent : Silent c ledger) :
    KeepsRecords callers allowed server c (fun _ _ => True) (callers c).program ledger := by
  cases hcaller : callers c with
  | reconcile run => exact safe_bind (keeps_reconcileFinalization hcaller h hsilent) fun _ _ _ => trivial
  | transition client =>
    have hauthored : Authored callers (c, some client.toCoordinateFinalizationTransitionInput) := by
      rintro run call hrun
      rw [hcaller] at hrun
      cases hrun
    exact safe_bind (keeps_markFinalization h client.sameSession hauthored hsilent) fun _ _ _ => trivial

/-! ### Every schedule -/

variable [DecidableEq ι]

omit [DecidableEq ι] in
theorem initial_reconcileOk : ReconcileOk callers allowed (initialLifecycle callers).shared where
  run := IsRun.nil
  holds := ⟨rfl, fun _ => rfl⟩
  permitted := IsRun.nil
  authored := by rintro _ ⟨⟩

variable (callers) in
/-- RUN: the ledger stays in order, however the requests are served. -/
theorem runLifecycle_ok (h : ServesRuns allowed server) (schedule : List (ι × Turn)) :
    ReconcileOk callers allowed (runSchedule server (initialLifecycle callers) schedule).shared := by
  have hsafe (c) :
      KeepsRecords callers allowed server c (fun _ _ => True) ((initialLifecycle callers).programs c)
      (initialLifecycle callers).shared := by
    refine keeps_caller h ?_
    rintro _ ⟨⟩
  exact (run_safe relies_otherRecords (fun _ _ _ _ _ _ => trivial) initial_reconcileOk hsafe schedule).1

omit [DecidableEq U] [DecidableEq ι] in
theorem servesRuns_store : ServesRuns (fun _ _ => True) (serveReconcile (ι := ι) (U := U)) where
  shows := ⟨fun _ => trivial, fun _ turn _ _ => ⟨turn.fate, rfl, fun _ _ _ => trivial⟩⟩
  observe _ _ _ _ := rfl

omit [DecidableEq U] [DecidableEq ι] in
/-- ENTRY: what a run stored ended an open record of the run's own attempt. -/
theorem reconciled_entry {ledger : Ledger (Author ι U) U} (hledger : ReconcileOk callers allowed ledger)
    {before after : List (Author ι U × FinalizationRecord U)} {entry : Author ι U × FinalizationRecord U}
    (hhistory : ledger.history = before ++ entry :: after) {run : ReconcileRun sessionId}
    (hcaller : callers entry.1.1 = .reconcile run) :
    EndsOpenAttempt run.input.finalizationId (before.getLast?.map Prod.snd) entry.2 := by
  have hrun := hledger.run
  rw [hhistory] at hrun
  obtain ⟨call, hcall, -, state, reason, happlied⟩ := author_of_applied hrun.step_at
  have hmem : entry ∈ ledger.history := by simp [hhistory]
  obtain ⟨active, execution, rfl⟩ := hledger.authored entry hmem run call hcaller hcall
  exact (writes_endsAttempt run active execution).applied happlied

end Invariant

end StarkBallot.AwsAdapters
