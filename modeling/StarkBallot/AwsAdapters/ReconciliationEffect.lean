import Mathlib.Tactic.Linarith
import StarkBallot.AwsAdapters.LifecycleAlone
import StarkBallot.AwsAdapters.ReconciliationSafety

/-! A run of the reconciliation that nobody disturbs
    (`application/src/finalize/reconcile-finalization.ts`). Its requests are all served, and no other
    caller writes while it is under way; then it ends the attempt that it found open.

        load ×3 ── observe ── load ×3 ── transaction ✓            eight requests

    The stored record was admitted when it was stored, so the record that ends it is admitted as well. -/

namespace StarkBallot.AwsAdapters
open Schemes Domain Application

variable {U ι : Type} {sessionId : JsString}

/-! ### Records that can be ended -/

/-- The times of an open attempt were checked when it was stored. -/
def hasActiveTimes (active : ActiveFinalizationState) : Bool :=
  isTime active.queuedAtMs && hasValidOptionalStartedAt active.queuedAtMs active.startedAtMs

theorem activeTimes_of_applied {current : Option (FinalizationRecord U)}
    {command : FinalizationTransitionCommand U} {evaluatedAtMs : Num} {state : FinalizationState U}
    {reason : FinalizationEventReason} {next : FinalizationRecord U} {active : ActiveFinalizationState}
    (h : evaluateFinalizationTransition current command evaluatedAtMs = .applied state reason next)
    (hactive : activeFinalizationState next.state = some active) : hasActiveTimes active := by
  rw [applied_state h] at hactive
  obtain ⟨admitted, -, hadmitted, -, -⟩ := applied_of_evaluate h
  obtain ⟨-, -, htime, -, requested, hrequested, -⟩ := admitCommand_eq_ok.mp hadmitted
  unfold commandState at hactive
  unfold admitCommandState at hrequested
  cases hbody : command.body with
  | queue =>
    rw [hbody] at hactive
    rw [← Option.some.inj hactive]
    exact Bool.and_eq_true_iff.mpr ⟨htime, rfl⟩
  | start startedAtMs =>
    rw [hbody] at hactive hrequested
    rw [← Option.some.inj hactive]
    refine Bool.and_eq_true_iff.mpr ⟨htime, ?_⟩
    by_contra hstarted
    have hrefused : admitStart command startedAtMs = .error .invalidTimestamp := if_pos hstarted
    cases hrefused.symm.trans hrequested
  | _ =>
    rw [hbody] at hactive
    cases hactive

/-- An open record that was admitted, and its times. -/
structure Endable (record : FinalizationRecord U) (active : ActiveFinalizationState) : Prop where
  admitted : (admitFinalizationRecord record).isSome
  active_eq : activeFinalizationState record.state = some active
  times : hasActiveTimes active = true

section Evaluate

variable {record : FinalizationRecord U} {active : ActiveFinalizationState}
  {run : ReconcileRun sessionId}
  {execution : FinalizationExecutionObservation} {command : FinalizationTransitionCommand U}

/-- When the attempt ended is a time, and not before it was queued or started. -/
def EndsInTime (active : ActiveFinalizationState) (endedAtMs : Num) : Prop :=
  isTime endedAtMs ∧ active.queuedAtMs.le endedAtMs ∧ active.startedAtMs.all (·.le endedAtMs)

theorem isOpen_of_active {state : FinalizationState U}
    (h : activeFinalizationState state = some active) :
    isTerminalState state = false := by
  cases state with
  | pending => rfl
  | running => rfl
  | _ => cases h

theorem hasValidEnd_of (h : Endable record active) (hend : EndsInTime active endedAtMs)
    (hqueued : command.queuedAtMs = active.queuedAtMs) :
    hasValidEnd command active.startedAtMs endedAtMs = true := by
  obtain ⟨htime, hafterQueued, hafterStarted⟩ := hend
  have hstarted := (Bool.and_eq_true_iff.mp h.times).2
  unfold hasValidEnd
  rw [hqueued, hstarted, Bool.true_and]
  refine Bool.and_eq_true_iff.mpr ⟨htime, ?_⟩
  cases hactive : active.startedAtMs with
  | none => exact hafterQueued
  | some startedAtMs =>
    rw [hactive] at hafterStarted
    exact hafterStarted

theorem admitCommandState_of_ends (h : Endable record active)
    (hends : EndsAttempt run active execution command)
    (hend : EndsInTime active (reconciledAtMs run.input.nowMs execution)) :
    admitCommandState command = .ok { state := commandState command } := by
  have hvalid := hasValidEnd_of h hend hends.queuedAtMs_eq
  unfold admitCommandState commandState
  rcases hends.body_eq with hbody | hbody
  · rw [hbody]
    exact if_neg (not_not.mpr hvalid)
  · rw [hbody]
    exact if_neg (not_not.mpr hvalid)

/-- The command of a run ends the attempt. -/
theorem endingCommand_of_ends (h : Endable record active)
    (hends : EndsAttempt run active execution command)
    (hend : EndsInTime active (reconciledAtMs run.input.nowMs execution)) : EndingCommand command where
  state_eq := admitCommandState_of_ends h hends hend
  queued := by
    rw [hends.queuedAtMs_eq]
    exact (Bool.and_eq_true_iff.mp h.times).1
  scenarioContext_eq := hends.scenarioContext_eq
  notQueue := by
    intro hqueue
    rcases hends.body_eq with hbody | hbody
    · cases hbody.symm.trans hqueue
    · cases hbody.symm.trans hqueue
  ended := hends.ended
  error := by
    unfold commandState
    rcases hends.body_eq with hbody | hbody
    · rw [hbody]
      rfl
    · rw [hbody]
      rfl

end Evaluate

/-! ### A run, undisturbed -/

section Run

variable {callers : ι → LifecycleCaller U sessionId} {ledger : Ledger (Author ι U) U}
  {record : FinalizationRecord U} {active : ActiveFinalizationState} {run : ReconcileRun sessionId}
  {execution : FinalizationExecutionObservation}

/-- The record that a read finds open was admitted, in this session. -/
theorem endable_of_current {allowed : Author ι U → Option (FinalizationRecord U) → Prop}
    (hledger : ReconcileOk callers allowed ledger) (hcurrent : IsCurrent ledger record)
    (hactive : activeFinalizationState record.state = some active) :
    Endable record active ∧ record.sessionId = sessionId := by
  obtain ⟨last, stored, hlast, rfl, -, -, hstored, -⟩ := hcurrent.items hledger.toLedgerOk
  obtain ⟨_, hby⟩ := hledger.run.of_step last (List.mem_of_getLast? hlast)
  obtain ⟨call, -, hsession, state, reason, happlied⟩ := author_of_applied hby
  refine ⟨⟨admitted_of_decoded hstored (isOpen_of_active hactive), hactive,
    activeTimes_of_applied happlied hactive⟩, ?_⟩
  exact (evaluateFinalizationTransition_applied happlied).sessionId_eq.trans hsession

/-- A stop that was observed is a time, and not before the attempt was queued or started. -/
def StopsInTime (active : ActiveFinalizationState) : FinalizationExecutionObservation → Prop
  | .stopped _ stoppedAtMs => EndsInTime active stoppedAtMs
  | _ => True

theorem le_of_grown {queuedAtMs nowMs : Num} (hqueued : isTime queuedAtMs) (hnow : isTime nowMs)
    (hage : (nowMs.sub queuedAtMs).lt writerGraceMs = false) : queuedAtMs.le nowMs := by
  cases queuedAtMs with
  | nan => cases hqueued
  | infinity _ => cases hqueued
  | finite queued =>
    cases nowMs with
    | nan => cases hnow
    | infinity _ => cases hnow
    | finite now =>
      simp only [Num.sub, Num.neg, Num.add, writerGraceMs, Num.ofNat, Num.lt,
        decide_eq_false_iff_not, not_lt, Nat.cast_ofNat] at hage
      have hle : queued ≤ now := by linarith
      simp only [Num.le, Num.lt, Num.eq, Bool.or_eq_true, decide_eq_true_eq]
      exact lt_or_eq_of_le hle

/-- An execution that was reconciled ended the attempt in time. -/
theorem endsInTime_of_reconciled (htimes : hasActiveTimes active) (hnow : isTime run.input.nowMs)
    (hage : (run.input.nowMs.sub active.queuedAtMs).lt writerGraceMs = false)
    (hshould : shouldReconcileExecution active execution run.input.nowMs run.input.dispatchDeadlineMs)
    (hstops : StopsInTime active execution) :
    EndsInTime active (reconciledAtMs run.input.nowMs execution) := by
  cases execution with
  | running => cases hshould
  | stopped status stoppedAtMs => exact hstops
  | missing =>
    have hqueued := (Bool.and_eq_true_iff.mp htimes).1
    refine ⟨hnow, le_of_grown hqueued hnow hage, ?_⟩
    have hpending := (Bool.and_eq_true_iff.mp hshould).1
    cases active with
    | pending => rfl
    | running => cases hpending

/-- All requests served, and the execution seen like this. -/
def seeing (execution : FinalizationExecutionObservation) : Turn := ⟨.served, .ok execution⟩

theorem writes_clock :
    (run.writes active execution : CoordinateFinalizationTransitionInput U).evaluatedAtMs =
    run.evaluatedAtMs := by
  unfold ReconcileRun.writes
  cases reconciledOutcome run.input active execution <;> rfl

theorem finishes_forCall {α : Type} {c : ι} {call : Option (CoordinateFinalizationTransitionInput U)}
    {program : Store U α} {n : ℕ} {a : α} {later : Ledger (Author ι U) U}
    (h : Finishes (serve (c, call) .served) n program ledger a later) :
    Finishes (serveReconcile c (seeing execution)) n (forCall call program) ledger a later := by
  have hembedded :
      ∃ ledger', Finishes (serveReconcile c (seeing execution)) n (forCall call program) ledger a
      ledger' ∧ id ledger' = later := finishes_embed (fun _ _ => rfl) (fun _ _ => rfl) h
  obtain ⟨_, hfinishes, rfl⟩ := hembedded
  exact hfinishes

theorem finishes_throwing {α β : Type}
    {server : (r : ReconcileRequest U) → Ledger (Author ι U) U → r.Answer × _}
    {program : Async (ReconcileRequest U) ReconcileRequest.Answer α} {f : α → JsM β} {n : ℕ} {a : α}
    {b : β} {later : Ledger (Author ι U) U} (h : Finishes server n program ledger a later)
    (hf : f a = .ok b) :
    Finishes server n (do throwing (f (← ExceptT.lift program)) : Reconciling U β).run ledger
      (.ok b) later := by
  have hthrowing : Finishes server 0 (throwing (f a) : Reconciling U β).run later (.ok b) later := by
    rw [hf]
    exact .done 0 _ _
  exact finishes_seq (f := fun a => throwing (f a)) (finishes_lift h) hthrowing

variable [DecidableEq U]

/-- RUN: a run that nobody disturbs ends the open attempt it reads. -/
theorem finishes_reconcileFinalization {allowed : Author ι U → Option (FinalizationRecord U) → Prop}
    (c : ι) (hledger : ReconcileOk callers allowed ledger) (hcurrent : IsCurrent ledger record)
    (hunfinished : currentUnfinishedFinalization (some record) run.input.finalizationId = some active)
    (hage : (run.input.nowMs.sub active.queuedAtMs).lt writerGraceMs = false)
    (hshould : shouldReconcileExecution active execution run.input.nowMs run.input.dispatchDeadlineMs)
    (hstops : StopsInTime active execution) (hnow : isTime run.input.nowMs)
    (hevaluated : isTime run.evaluatedAtMs) :
    ∃ later, Finishes (serveReconcile c (seeing execution)) 8
        (reconcileFinalization run.input (run.ports (U := U))).run ledger (.ok ()) later ∧
      later.history = ledger.history ++
        [((c, some (run.writes active execution)),
          endedRecord record (run.writes active execution).command)] := by
  simp only [currentUnfinishedFinalization, Option.bind_some] at hunfinished
  split at hunfinished
  · rename_i hid
    obtain ⟨hendable, hsession⟩ := endable_of_current hledger hcurrent hunfinished
    have hends := writes_endsAttempt (U := U) run active execution
    have hend := endsInTime_of_reconciled hendable.times hnow hage hshould hstops
    have hclock : (run.writes active execution : CoordinateFinalizationTransitionInput U).evaluatedAtMs =
        run.evaluatedAtMs := writes_clock
    rw [← hclock] at hevaluated
    have hending := endingCommand_of_ends hendable hends hend
    have hcommandSession := hends.sessionId_eq.trans run.sameSession
    obtain ⟨reason, happlied⟩ := hending.evaluate hendable.admitted (isOpen_of_active hendable.active_eq)
      (hsession.trans hcommandSession.symm) (hid.trans hends.finalizationId_eq.symm) hevaluated
    obtain ⟨later, hcoordinate, hhistory⟩ := finishes_coordinate hledger.toLedgerOk hcurrent
      (c, some (run.writes active execution)) hsession hcommandSession
      (hends.finalizationId_eq.trans hid.symm) happlied (hending.admitted hendable.admitted happlied)
    refine ⟨later, ?_, hhistory⟩
    have hread : Finishes (serveReconcile c (seeing execution)) 3
        (getCurrentFinalizationRecord run.input.sessionId : Reconciling U _).run ledger
          (.ok (some record)) ledger := by
      rw [run.sameSession]
      exact finishes_throwing
        (finishes_forCall (finishes_load hledger.toLedgerOk hcurrent hsession (c, none))) rfl
    have hobserve : Finishes (serveReconcile c (seeing execution)) 1
        (observeExecution run.input.finalizationId : Reconciling U _).run ledger
          (.ok execution) ledger :=
      .await (.done 0 _ _)
    have hmarked : Finishes (serveReconcile c (seeing execution)) 4
        (coordinateMarked (run.writes active execution)) ledger _ later := finishes_forCall hcoordinate
    have hmark := finishes_throwing (f := resolveCoordinatedRecord) hmarked
      (b := endedRecord record (run.writes active execution).command) rfl
    have hwrite : Finishes (serveReconcile c (seeing execution)) 4
        (writeReconciledOutcome run.input (run.ports (U := U)) active execution).run ledger
          (.ok ()) later := by
      unfold writeReconciledOutcome
      unfold ReconcileRun.writes at hmark
      split
      · rename_i payload houtcome
        rw [houtcome] at hmark
        refine finishes_seq (m := 4) (n := 0) hmark ?_
        exact .done 0 _ _
      · rename_i payload houtcome
        rw [houtcome] at hmark
        refine finishes_seq (m := 4) (n := 0) hmark ?_
        exact .done 0 _ _
    have hreconcile : Finishes (serveReconcile c (seeing execution)) 4
        (reconcileExecution run.input (run.ports (U := U)) active execution).run ledger
          (.ok ()) later := by
      unfold reconcileExecution
      rw [if_neg (not_not.mpr hshould)]
      refine finishes_seq (m := 4) (n := 0) (finishes_attempt hwrite) ?_
      exact .done 0 _ _
    unfold reconcileFinalization
    refine finishes_seq (m := 3) (n := 5) hread ?_
    simp only [currentUnfinishedFinalization, Option.bind_some, hid, if_true, hunfinished, hage,
      Bool.false_eq_true, if_false]
    exact finishes_seq hobserve hreconcile
  · cases hunfinished

/-! ### Every schedule -/

/-- The attempt is over, and its times are what they were. -/
def EndedFrom (active : ActiveFinalizationState) (finalizationId : JsString)
    (state : FinalizationState U) : Prop :=
  ∃ endedAtMs, state = .timeout finalizationId active.queuedAtMs active.startedAtMs endedAtMs ∨
    ∃ error, state = .failed finalizationId active.queuedAtMs active.startedAtMs endedAtMs error

omit [DecidableEq U] in
theorem EndsAttempt.endedFrom {command : FinalizationTransitionCommand U}
    (h : EndsAttempt run active execution command) :
    EndedFrom active run.input.finalizationId (commandState command) := by
  refine ⟨reconciledAtMs run.input.nowMs execution, ?_⟩
  unfold commandState
  rcases h.body_eq with hbody | hbody
  · rw [hbody, h.finalizationId_eq, h.queuedAtMs_eq]
    exact Or.inl rfl
  · rw [hbody, h.finalizationId_eq, h.queuedAtMs_eq]
    exact Or.inr ⟨_, rfl⟩

omit [DecidableEq U] in
theorem grows_serveReconcile (c : ι) (turn : Turn) (r : ReconcileRequest U)
    (ledger : Ledger (Author ι U) U) :
    Grows ledger (serveReconcile c turn r ledger).2 := by
  cases r with
  | store call request => exact grows_serve (c, call) turn.fate request ledger
  | observeExecution finalizationId => exact Grows.refl ledger

variable [DecidableEq ι]

theorem runLifecycle_append (callers : ι → LifecycleCaller U sessionId)
    (schedule more : List (ι × Turn)) :
    runLifecycle callers (schedule ++ more) = runSchedule serveReconcile
      (runLifecycle callers schedule) more :=
  List.foldl_append

/-- Nothing is stored after a terminal record. -/
theorem runLifecycle_final {schedule : List (ι × Turn)} {record : FinalizationRecord U}
    (hstored : storedRecord (runLifecycle callers schedule).shared.items = some record)
    (hterminal : isTerminalState record.state) (more : List (ι × Turn)) :
    (runLifecycle callers (schedule ++ more)).shared = (runLifecycle callers schedule).shared := by
  have hok := runLifecycle_ok callers servesRuns_store schedule
  change ReconcileOk callers _ (runLifecycle callers schedule).shared at hok
  rw [storedRecord_of_ledgerOk hok.toLedgerOk] at hstored
  obtain ⟨last, hlast, rfl⟩ := Option.map_eq_some_iff.mp hstored
  have hgrows :
      Grows (runLifecycle callers schedule).shared (runLifecycle callers (schedule ++ more)).shared := by
    rw [runLifecycle_append]
    exact runSchedule_shared Grows.refl (fun _ _ _ => Grows.trans) grows_serveReconcile _ more
  obtain ⟨entries, hgrown, hsame⟩ := hgrows
  have hrun := (runLifecycle_ok callers servesRuns_store (schedule ++ more)).run
  change IsRun _ (runLifecycle callers (schedule ++ more)).shared.history at hrun
  rw [hgrown] at hrun
  exact hsame (no_entries_after_terminal hrun hlast hterminal)

/-- SAFE AND EFFECTIVE: under every schedule a run only ends open attempts, its own; and a run that
    nobody disturbs, a minute after the attempt was queued, ends the open attempt it is
    to reconcile, for good. -/
theorem reconciliation_safe_and_effective (callers : ι → LifecycleCaller U sessionId)
    (schedule : List (ι × Turn)) :
    let reached := runLifecycle callers schedule
    storedRecord reached.shared.items = reached.shared.history.getLast?.map Prod.snd ∧
    (∀ before entry after run, reached.shared.history = before ++ entry :: after →
      callers entry.1.1 = .reconcile run →
        EndsOpenAttempt run.input.finalizationId (before.getLast?.map Prod.snd) entry.2) ∧
    ∀ c run record active execution during, callers c = .reconcile run →
      reached.programs c = (callers c).program →
      IsCurrent reached.shared record →
      currentUnfinishedFinalization (some record) run.input.finalizationId = some active →
      (run.input.nowMs.sub active.queuedAtMs).lt writerGraceMs = false →
      shouldReconcileExecution active execution run.input.nowMs run.input.dispatchDeadlineMs →
      StopsInTime active execution → isTime run.input.nowMs → isTime run.evaluatedAtMs →
      Undisturbed serveReconcile c (seeing execution) reached during →
      8 ≤ (during.filter fun turn => turn.1 = c).length →
        let ended := runLifecycle callers (schedule ++ during)
        ended.programs c = .done (.reconciled (.ok ())) ∧
        (∃ state, EndedFrom active record.finalizationId state ∧ storedRecord ended.shared.items =
          some ⟨record.sessionId, record.finalizationId, record.scenarioContext, state, none⟩) ∧
        ∀ more, (runLifecycle callers (schedule ++ during ++ more)).shared = ended.shared := by
  intro reached
  have hok := runLifecycle_ok callers servesRuns_store schedule
  change ReconcileOk callers _ reached.shared at hok
  refine ⟨storedRecord_of_ledgerOk hok.toLedgerOk, ?_, ?_⟩
  · intro before entry after run hhistory hcaller
    exact reconciled_entry hok hhistory hcaller
  · intro c run record active execution during hcaller hprogram hcurrent hunfinished hage hshould hstops
      hnow hevaluated hundisturbed hturns ended
    obtain ⟨later, hfinishes, hhistory⟩ :=
      finishes_reconcileFinalization c hok hcurrent hunfinished hage hshould hstops
      hnow hevaluated
    have hrun : Finishes (serveReconcile c (seeing execution)) 8 (reached.programs c) reached.shared
        (.reconciled (.ok ())) later := by
      rw [hprogram, hcaller]
      exact finishes_bind (m := 8) (n := 0) hfinishes (.done 0 _ _)
    obtain ⟨hdone, hshared⟩ := finishes_undisturbed hrun hundisturbed hturns
    rw [← runLifecycle_append] at hdone hshared
    have hended := runLifecycle_ok callers servesRuns_store (schedule ++ during)
    change ReconcileOk callers _ ended.shared at hended
    have hstored := storedRecord_of_ledgerOk hended.toLedgerOk
    rw [show ended.shared = later from hshared, hhistory, List.getLast?_concat,
      Option.map_some] at hstored
    have hid : record.finalizationId = run.input.finalizationId := by
      by_contra hne
      simp [currentUnfinishedFinalization, hne] at hunfinished
    have hends := writes_endsAttempt (U := U) run active execution
    refine ⟨hdone, ⟨commandState (run.writes active execution).command, ?_, ?_⟩, ?_⟩
    · rw [hid]
      exact hends.endedFrom
    · rw [show ended.shared = later from hshared]
      exact hstored
    · have hterminal :
        isTerminalState (endedRecord record (run.writes active execution).command).state := by
        unfold isTerminalState endedRecord
        rcases hends.ended with hstatus | hstatus
        · rw [hstatus]
          rfl
        · rw [hstatus]
          rfl
      refine runLifecycle_final ?_ hterminal
      rw [show (runLifecycle callers (schedule ++ during)).shared = later from hshared]
      exact hstored

end Run

/-! ### One run -/

/-- The attempt is queued. -/
def queuedOnly : List (Actor × Turn) := unseen [.queue, .queue, .queue]

/-- The run goes on alone. -/
def runAlone : List (Actor × Turn) := unseen (List.replicate 8 .run)

theorem sample_current (run : ReconcileRun (js "s"))
    (hstored : storedRecord (runLifecycle (actorsWith run) queuedOnly).shared.items = some sampleRecord)
    (hpointer : (runLifecycle (actorsWith run) queuedOnly).shared.items.current = some ⟨js "f", 1⟩) :
    IsCurrent (runLifecycle (actorsWith run) queuedOnly).shared sampleRecord := by
  refine ⟨hstored, ?_⟩
  intro pointer h
  rw [hpointer] at h
  obtain rfl := Option.some.inj h
  decide

theorem runAlone_undisturbed (system : LifecycleSystem Actor Empty) :
    Undisturbed serveReconcile Actor.run (seeing .missing) system runAlone :=
  undisturbed_of_alone (by simp [runAlone, unseen, seeing]) system

theorem reconciliation_on_sample :
    ∃ state, EndedFrom (.pending (Num.ofNat 1)) (js "f") state ∧
      storedRecord (runLifecycle sampleActors (queuedOnly ++ runAlone)).shared.items =
        some ⟨js "s", js "f", sampleContext, state, none⟩ := by
  have hcurrent := sample_current (runAt 901001 900000) (by decide) (by decide)
  obtain ⟨-, -, heffective⟩ := reconciliation_safe_and_effective sampleActors queuedOnly
  obtain ⟨-, hended, -⟩ :=
    heffective .run (runAt 901001 900000) sampleRecord (.pending (Num.ofNat 1)) .missing runAlone
    rfl rfl hcurrent (by decide) (by decide +kernel) (by decide +kernel) trivial (by decide) (by decide)
    (runAlone_undisturbed _) (by decide)
  exact hended

/-- With a deadline of half a minute a run that is to reconcile an attempt does
    nothing in its first minute. -/
theorem recent_attempt_is_left_alone :
    ¬ ∀ (callers : Actor → LifecycleCaller Empty (js "s")) (schedule : List (Actor × Turn)) (c : Actor)
        (run : ReconcileRun (js "s")) (record : FinalizationRecord Empty)
        (active : ActiveFinalizationState) (execution : FinalizationExecutionObservation)
        (during : List (Actor × Turn)),
      callers c = .reconcile run → (runLifecycle callers schedule).programs c = (callers c).program →
      IsCurrent (runLifecycle callers schedule).shared record →
      currentUnfinishedFinalization (some record) run.input.finalizationId = some active →
      shouldReconcileExecution active execution run.input.nowMs run.input.dispatchDeadlineMs →
      StopsInTime active execution → isTime run.input.nowMs → isTime run.evaluatedAtMs →
      Undisturbed serveReconcile c (seeing execution) (runLifecycle callers schedule) during →
      8 ≤ (during.filter fun turn => turn.1 = c).length →
        ∃ state, EndedFrom active record.finalizationId state ∧
          storedRecord (runLifecycle callers (schedule ++ during)).shared.items =
            some ⟨record.sessionId, record.finalizationId, record.scenarioContext, state, none⟩ := by
  intro h
  have hcurrent := sample_current (runAt 40001 30000) (by decide) (by decide)
  obtain ⟨state, ⟨endedAtMs, hended⟩, hstored⟩ := h (actorsWith (runAt 40001 30000)) queuedOnly .run
    (runAt 40001 30000) sampleRecord (.pending (Num.ofNat 1)) .missing runAlone
      rfl rfl hcurrent (by decide)
    (by decide +kernel) trivial (by decide) (by decide) (runAlone_undisturbed _) (by decide)
  have hpending :
      storedRecord
        (runLifecycle (actorsWith (runAt 40001 30000)) (queuedOnly ++ runAlone)).shared.items =
      some sampleRecord := by decide +kernel
  rw [hpending] at hstored
  rcases hended with rfl | ⟨error, rfl⟩
  · cases hstored
  · cases hstored

end StarkBallot.AwsAdapters
