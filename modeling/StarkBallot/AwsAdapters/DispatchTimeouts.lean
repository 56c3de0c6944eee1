import StarkBallot.AwsAdapters.ReconciliationSafety

/-! Dispatch timeouts (`application/src/finalize/reconcile-finalization.ts`). A run that read a pending
    record and saw no execution fails the attempt for not having started. The write loads the record
    anew, and the policy applies a failure to a running record as well as to a pending one:

        run r       read pending ── observe missing ─────────────── load running ── fail ✓ not started!
        worker w                                      start ✓

    Where no load of such a write finds a running record, what it replaces is pending: the store
    compares revisions, so what was loaded is what is replaced. -/

namespace StarkBallot.AwsAdapters
open Schemes Domain Application

variable {U ι : Type} {sessionId : JsString}

def LifecycleCaller.isReconcile : LifecycleCaller U sessionId → Bool
  | .reconcile _ => true
  | .transition _ => false

/-- The state is a failure with this code. -/
def failedWith (code : JsString) : FinalizationState U → Bool
  | .failed _ _ _ _ error => error.code = code
  | _ => false

/-- The call is to fail the attempt with this code. -/
def failsWith (code : JsString) (call : CoordinateFinalizationTransitionInput U) : Bool :=
  match call.command.body with
  | .fail _ _ error => error.code = code
  | _ => false

def dispatchTimeoutCode : JsString := js "FINALIZATION_DISPATCH_TIMEOUT"

section Conditions

variable (callers : ι → LifecycleCaller U sessionId)

/-- A run stored that the attempt never started. -/
def IsDispatchTimeout (entry : Author ι U × FinalizationRecord U) : Prop :=
  (callers entry.1.1).isReconcile ∧ failedWith dispatchTimeoutCode entry.2.state

/-- The call is a run's, to fail the attempt for not having started. -/
def writesDispatchTimeout (w : Author ι U) : Bool :=
  (callers w.1).isReconcile && w.2.any (failsWith dispatchTimeoutCode)

def notRunning (record : Option (FinalizationRecord U)) : Bool :=
  record.all fun record => record.state.status ≠ .running

/-- A load by such a call does not find a running record. -/
def loadsUnstarted (c : ι) (turn : Turn) : (r : ReconcileRequest U) → Ledger (Author ι U) U → Prop
  | .store call (.getFinalization _), ledger =>
    writesDispatchTimeout callers (c, call) → turn.fate = .served →
      notRunning (storedRecord ledger.items)
  | _, _ => True

instance (c : ι) (turn : Turn) : (r : ReconcileRequest U) → (ledger : Ledger (Author ι U) U) →
    Decidable (loadsUnstarted callers c turn r ledger)
  | .store call (.getFinalization _), ledger => inferInstanceAs (Decidable
      (writesDispatchTimeout callers (c, call) → turn.fate = .served →
        notRunning (storedRecord ledger.items)))
  | .store _ .getSessionIdentity, _ => isTrue trivial
  | .store _ .getCurrentFinalization, _ => isTrue trivial
  | .store _ (.transactWrite _), _ => isTrue trivial
  | .observeExecution _, _ => isTrue trivial

/-- What such a call may go on from. -/
def replacesUnstarted (w : Author ι U) (current : Option (FinalizationRecord U)) : Prop :=
  writesDispatchTimeout callers w → notRunning current

def failedTurn : Turn := ⟨.failed, .error (.error "Request failed")⟩

theorem servesRuns_unstarted :
    ServesRuns (replacesUnstarted callers)
      (guarded (loadsUnstarted callers) failedTurn serveReconcile) where
  shows := by
    refine ⟨fun _ _ => rfl, ?_⟩
    intro w turn r ledger
    obtain ⟨turn', hturn, hguard⟩ :=
      guarded_cases (loadsUnstarted callers) failedTurn serveReconcile w.1 turn (.store w.2 r) ledger
    refine ⟨turn'.fate, hturn, ?_⟩
    rintro finalizationId rfl hserved hwrites
    rcases hguard with hguard | rfl
    · exact hguard hwrites hserved
    · cases hserved
  observe c turn finalizationId ledger := by
    obtain ⟨turn', hturn, -⟩ :=
      guarded_cases (loadsUnstarted callers) failedTurn serveReconcile c turn
        (.observeExecution finalizationId) ledger
    rw [hturn]
    rfl

end Conditions

/-! ### What stored a record -/

section Stored

variable {current : Option (FinalizationRecord U)} {call : CoordinateFinalizationTransitionInput U}
  {state : FinalizationState U} {reason : FinalizationEventReason} {next : FinalizationRecord U}

theorem failsWith_of_applied {code : JsString} (hcode : code ≠ js "USER_CANCELLED")
    (h : evaluateFinalizationTransition current call.command call.evaluatedAtMs =
      .applied state reason next)
    (hfailed : failedWith code next.state) : failsWith code call := by
  rw [applied_state h] at hfailed
  unfold commandState at hfailed
  unfold failsWith
  cases hbody : call.command.body with
  | fail startedAtMs failedAtMs error =>
    rw [hbody] at hfailed
    exact hfailed
  | cancel startedAtMs failedAtMs message =>
    rw [hbody] at hfailed
    exact absurd (of_decide_eq_true hfailed).symm hcode
  | _ =>
    rw [hbody] at hfailed
    cases hfailed

theorem queue_of_applied
    (h : evaluateFinalizationTransition current call.command call.evaluatedAtMs =
      .applied state reason next)
    (hpending : next.state.status = .pending) : call.command.body = .queue := by
  rw [applied_state h] at hpending
  unfold commandState at hpending
  cases hbody : call.command.body with
  | queue => rfl
  | _ =>
    rw [hbody] at hpending
    cases hpending

theorem pending_of_open {record : FinalizationRecord U} (hopen : isTerminalState record.state = false)
    (hrunning : notRunning (some record)) : record.state.status = .pending := by
  simp only [notRunning, Option.all_some, ne_eq, decide_not, Bool.not_eq_true',
    decide_eq_false_iff_not] at hrunning
  unfold isTerminalState at hopen
  cases hstatus : record.state.status with
  | pending => rfl
  | running => exact absurd hstatus hrunning
  | succeeded => rw [hstatus] at hopen; cases hopen
  | failed => rw [hstatus] at hopen; cases hopen
  | timeout => rw [hstatus] at hopen; cases hopen

end Stored

/-! ### Every schedule -/

section Runs

variable [DecidableEq U] [DecidableEq ι]

/-- SAFETY: if no load by the write of a dispatch timeout finds a running record, then whatever a
    dispatch timeout replaced was pending, and whoever had started the attempt before, someone queued it
    again since. -/
theorem dispatch_timeouts_replace_pending_records (callers : ι → LifecycleCaller U sessionId)
    (schedule : List (ι × Turn))
    (hmeets : Meets (loadsUnstarted callers) serveReconcile (initialLifecycle callers) schedule)
    (before after : List (Author ι U × FinalizationRecord U)) (entry : Author ι U × FinalizationRecord U)
    (hhistory : (runLifecycle callers schedule).shared.history = before ++ entry :: after)
    (htimeout : IsDispatchTimeout callers entry) :
    (∃ previous, before.getLast? = some previous ∧ previous.2.state.status = .pending) ∧
      ∀ earlier started later, before = earlier ++ started :: later → started.2.state.status = .running →
        ∃ again ∈ later, again.2.state.status = .pending ∧
          ∃ call, again.1.2 = some call ∧ call.command.body = .queue := by
  have hok := runLifecycle_ok callers (servesRuns_unstarted callers) schedule
  rw [runSchedule_guarded hmeets] at hok
  change ReconcileOk callers (replacesUnstarted callers) (runLifecycle callers schedule).shared at hok
  obtain ⟨hreconcile, hfailed⟩ := htimeout
  cases hcaller : callers entry.1.1 with
  | transition client =>
    rw [hcaller] at hreconcile
    cases hreconcile
  | reconcile run =>
    obtain ⟨⟨record, hcurrent, hopen, -⟩, -, -⟩ := reconciled_entry hok hhistory hcaller
    obtain ⟨previous, hprevious, rfl⟩ := Option.map_eq_some_iff.mp hcurrent
    have hrun := hok.run
    have hpermitted := hok.permitted
    rw [hhistory] at hrun hpermitted
    obtain ⟨call, hcall, -, state, reason, happlied⟩ := author_of_applied hrun.step_at
    have hwrites : writesDispatchTimeout callers entry.1 := by
      simp only [writesDispatchTimeout, hcall, Option.any_some, Bool.and_eq_true]
      exact ⟨hreconcile, failsWith_of_applied (by decide) happlied hfailed⟩
    have hunstarted := hpermitted.step_at hwrites
    rw [hprevious, Option.map_some] at hunstarted
    have hpending := pending_of_open hopen hunstarted
    refine ⟨⟨previous, hprevious, hpending⟩, ?_⟩
    rintro earlier started later rfl hstarted
    -- the last record is pending, so it is not the one that was running
    have hlast : previous ∈ later := by
      cases hlater : later.getLast? with
      | none =>
        rw [List.getLast?_eq_none_iff] at hlater
        rw [hlater, List.getLast?_concat] at hprevious
        rw [Option.some.inj hprevious, hpending] at hstarted
        cases hstarted
      | some last =>
        rw [List.getLast?_append_cons, List.getLast?_cons, hlater] at hprevious
        rw [← Option.some.inj hprevious]
        exact List.mem_of_getLast? hlater
    obtain ⟨_, hby⟩ := hok.run.of_step previous (by rw [hhistory]; simp [hlast])
    obtain ⟨call', hcall', -, _, _, happlied'⟩ := author_of_applied hby
    exact ⟨previous, hlast, hpending, call', hcall', queue_of_applied happlied' hpending⟩

end Runs

/-! ### A worker and a run -/

/-- Nobody starts the attempt. -/
def neverStarted : List (Actor × Turn) :=
  unseen [.queue, .queue, .queue, .run, .run, .run, .run, .run, .run, .run, .run]

/-- The worker starts the attempt between what the run sees and what it writes. -/
def startedMeanwhile : List (Actor × Turn) :=
  unseen [.queue, .queue, .queue, .run, .run, .run, .run, .worker, .worker, .worker, .worker, .run,
    .run, .run, .run]

theorem dispatch_timeouts_on_sample :
    ∃ previous entry, (runLifecycle sampleActors neverStarted).shared.history = [previous, entry] ∧
      IsDispatchTimeout sampleActors entry ∧ previous.2.state.status = .pending := by
  have hlength : (runLifecycle sampleActors neverStarted).shared.history.length = 2 := by decide +kernel
  obtain ⟨previous, entry, hhistory⟩ := List.length_eq_two.mp hlength
  have hlast : ((runLifecycle sampleActors neverStarted).shared.history.getLast?.map fun entry =>
      ((sampleActors entry.1.1).isReconcile, failedWith dispatchTimeoutCode entry.2.state)) =
        some (true, true) := by
    decide +kernel
  rw [hhistory] at hlast
  obtain ⟨hreconcile, hfailed⟩ := Prod.mk.inj (Option.some.inj hlast)
  have hmeets :
      Meets (loadsUnstarted sampleActors) serveReconcile (initialLifecycle sampleActors)
        neverStarted := by
    decide +kernel
  obtain ⟨⟨previous', hprevious, hpending⟩, -⟩ :=
    dispatch_timeouts_replace_pending_records sampleActors neverStarted
    hmeets [previous] [] entry hhistory ⟨hreconcile, hfailed⟩
  obtain rfl : previous = previous' := Option.some.inj hprevious
  exact ⟨previous, entry, hhistory, ⟨hreconcile, hfailed⟩, hpending⟩

/-- A run that read a pending record fails the attempt as not started, though it was
    stored as running meanwhile. -/
theorem started_attempt_fails_as_not_started :
    ¬ ∀ (callers : Actor → LifecycleCaller Empty (js "s")) (schedule : List (Actor × Turn))
        (before after : List (Author Actor Empty × FinalizationRecord Empty))
        (entry : Author Actor Empty × FinalizationRecord Empty),
      (runLifecycle callers schedule).shared.history = before ++ entry :: after →
        IsDispatchTimeout callers entry →
        ∃ previous, before.getLast? = some previous ∧ previous.2.state.status = .pending := by
  intro h
  have hlength :
      (runLifecycle sampleActors startedMeanwhile).shared.history.length = 3 := by decide +kernel
  obtain ⟨queued, started, entry, hhistory⟩ := List.length_eq_three.mp hlength
  have hlast : ((runLifecycle sampleActors startedMeanwhile).shared.history.getLast?.map fun entry =>
      ((sampleActors entry.1.1).isReconcile, failedWith dispatchTimeoutCode entry.2.state)) =
        some (true, true) := by
    decide +kernel
  have hstarted : (runLifecycle sampleActors startedMeanwhile).shared.history.dropLast.getLast?.map
      (fun entry => entry.2.state.status) = some .running := by decide +kernel
  rw [hhistory] at hlast hstarted
  obtain ⟨hreconcile, hfailed⟩ := Prod.mk.inj (Option.some.inj hlast)
  obtain ⟨previous, hprevious, hpending⟩ :=
    h sampleActors startedMeanwhile [queued, started] [] entry hhistory ⟨hreconcile, hfailed⟩
  obtain rfl : started = previous := Option.some.inj hprevious
  have hrunning : started.2.state.status = .running := Option.some.inj hstarted
  rw [hrunning] at hpending
  cases hpending

end StarkBallot.AwsAdapters
