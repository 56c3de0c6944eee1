import StarkBallot.AwsAdapters.ProvingJobs

/-! Safety of the proving jobs under every schedule. All records of the lifecycle are of one attempt. A
    request publishes only after it was told that its own attempt is pending, so whatever was published
    is of that attempt; and a call publishes once.

        told pending, own id ──▶ own id is stored ──▶ own id is the id of every record ──▶ one caller -/

namespace StarkBallot.AwsAdapters
open Schemes Domain Application

variable {U ι : Type} {sessionId : JsString}

section Invariant

variable (callers : ι → Caller U sessionId)

/-- Who writes a record, as a client of the lifecycle. -/
def writers (w : ι × Purpose) : Client U sessionId := (callers w.1).client w.2

/-- A record of the attempt was stored. -/
def AttemptStored (finalizationId : JsString) (board : JobBoard ι U) : Prop :=
  ∃ entry ∈ board.ledger.history, entry.2.state.finalizationId = finalizationId

structure BoardOk (board : JobBoard ι U) : Prop where
  ledger : LedgerOk (writers callers) board.ledger
  sender : ∀ sent ∈ board.published, ∃ call, callers sent.1 = .finalizeAsync call ∧
    sent.2.finalizationId = call.input.finalizationId
  stored : ∀ sent ∈ board.published, AttemptStored sent.2.finalizationId board
  once : (board.published.map Prod.fst).Nodup

/-- Between two steps of a caller the others store and publish, in their own names. -/
structure OtherJobs (c : ι) (board later : JobBoard ι U) : Prop where
  records : Added (fun entry => entry.1.1 ≠ c) board.ledger.history later.ledger.history
  messages : Added (fun sent => sent.1 ≠ c) board.published later.published

theorem relies_otherJobs : Relies (@OtherJobs U ι) where
  refl _ _ := ⟨Added.refl _ _, Added.refl _ _⟩
  trans _ _ _ _ h h' := ⟨h.records.trans h'.records, h.messages.trans h'.messages⟩

/-- The caller stored nothing for the purpose. -/
def NotStored (c : ι) (purpose : Purpose) (board : JobBoard ι U) : Prop :=
  Unwritten (c, purpose) board.ledger.history

/-- The caller published nothing. -/
def Unpublished (c : ι) (board : JobBoard ι U) : Prop := ∀ sent ∈ board.published, sent.1 ≠ c

variable {c : ι} {board board' : JobBoard ι U} {finalizationId : JsString}

theorem OtherJobs.others (h : OtherJobs c board board') (purpose : Purpose) :
    others (c, purpose) board.ledger board'.ledger := by
  obtain ⟨entries, heq, hentries⟩ := h.records
  refine ⟨entries, heq, ?_⟩
  rintro entry hentry hwriter
  exact hentries entry hentry (congrArg Prod.fst hwriter)

theorem NotStored.later {purpose : Purpose} (h : NotStored c purpose board)
    (hothers : OtherJobs c board board') :
    NotStored c purpose board' :=
  Unwritten.later h (hothers.others purpose)

theorem Unpublished.later (h : Unpublished c board) (hothers : OtherJobs c board board') :
    Unpublished c board' :=
  hothers.messages.forall_mem h

theorem AttemptStored.later (h : AttemptStored finalizationId board)
    (hothers : OtherJobs c board board') :
    AttemptStored finalizationId board' := by
  obtain ⟨entry, hentry, hid⟩ := h
  exact ⟨entry, hothers.records.mem hentry, hid⟩

/-! ### A transition as a part of the system -/

/-- A caller's program among the others. -/
abbrev KeepsBoard {α : Type} (c : ι) (post : α → JobBoard ι U → Prop)
    (program : Async (JobRequest U) JobRequest.Answer α) (board : JobBoard ι U) : Prop :=
  Safe serveJob (BoardOk callers) OtherJobs c post program board

variable {callers}

/-- What a caller knows of the board while it waits for a transition. -/
structure Frame (c : ι) (purpose : Purpose) (frame : JobBoard ι U → Prop) : Prop where
  others : ∀ board later, OtherJobs c board later → frame board → frame later
  self : ∀ board (ledger : Ledger (ι × Purpose) U),
    Added (fun entry => entry.1 = (c, purpose)) board.ledger.history ledger.history →
    frame board → frame { board with ledger := ledger }

theorem embeds_lifecycle {purpose : Purpose} {frame : JobBoard ι U → Prop}
    (hframe : Frame c purpose frame) :
    Embeds serve (LedgerOk (writers callers)) others serveJob (BoardOk callers) OtherJobs JobBoard.ledger
      (JobRequest.lifecycle purpose) (fun _ answer => answer) (c, purpose) c frame (fun _ => True) where
  answer_eq _ _ _ := rfl
  view_eq _ _ _ := rfl
  view_inv _ h := h.ledger
  view_others _ _ h := h.others purpose
  frame_others := hframe.others
  keeps choice r board _ h hboard hledger hothers := by
    have hadded := added_by_self (grows_serve (c, purpose) choice r board.ledger) hothers
    refine ⟨⟨hledger, h.sender, ?_, h.once⟩, ?_, hframe.self board _ hadded hboard⟩
    · intro sent hsent
      obtain ⟨entry, hentry, hid⟩ := h.stored sent hsent
      exact ⟨entry, hadded.mem hentry, hid⟩
    · intro d hd
      refine ⟨?_, Added.refl _ _⟩
      obtain ⟨entries, heq, hentries⟩ := hadded
      refine ⟨entries, heq, ?_⟩
      intro entry hentry
      rw [hentries entry hentry]
      exact hd.symm

variable [DecidableEq U]

variable (callers) in
/-- A store command gives a record that was stored. -/
theorem keeps_applyFinalizationCommand {purpose : Purpose} {frame : JobBoard ι U → Prop}
    (hframe : Frame c purpose frame) (hunwritten : NotStored c purpose board) (hboard : frame board) :
    KeepsBoard callers c
      (fun result later => (∀ record, result = .ok record → ∃ entry ∈ later.ledger.history,
        entry.2 = record) ∧
        frame later)
      (applyFinalizationCommand purpose
        (writers callers (c, purpose)).toCoordinateFinalizationTransitionInput).run
      board := by
  classical
  have hcoordinate : KeepsBoard callers c
      (fun result later => CoordinationTraced (c, purpose) result later.ledger ∧ frame later)
      (coordinate purpose (writers callers (c, purpose)).toCoordinateFinalizationTransitionInput)
      board :=
    safe_embed (embeds_lifecycle hframe) (keeps_coordinateFrom _ hunwritten) (asks_any _) hboard
  have hlifted :
      KeepsBoard callers c (fun (result : Except JsError _) later => ∃ result', result = .ok result' ∧
      CoordinationTraced (c, purpose) result' later.ledger ∧ frame later)
      (ExceptT.lift (coordinate purpose
        (writers callers (c, purpose)).toCoordinateFinalizationTransitionInput) : Job U _).run board :=
    safe_bind hcoordinate fun result _ h => ⟨result, rfl, h⟩
  refine safe_bind hlifted ?_
  · rintro _ later ⟨result, rfl, ⟨-, htraced⟩, hlater⟩
    change KeepsBoard callers c _ (throwing (resolveCoordinatedRecord result)).run later
    cases hresolved : resolveCoordinatedRecord result with
    | error e => exact ⟨by rintro _ ⟨⟩, hlater⟩
    | ok record =>
      obtain ⟨lifecycle, hlifecycle, hrecord⟩ := resolveCoordinatedRecord_eq_ok hresolved
      refine ⟨?_, hlater⟩
      rintro _ ⟨⟩
      exact htraced lifecycle hlifecycle record hrecord

/-! ### The stages of a request -/

/-- The caller has asked for nothing but a transition so far. -/
structure Unstarted (c : ι) (board : JobBoard ι U) : Prop where
  failures : ∀ code, NotStored c (.failure code) board
  messages : Unpublished c board

omit [DecidableEq U] in
theorem Unstarted.later (h : Unstarted c board) (hothers : OtherJobs c board board') :
    Unstarted c board' :=
  ⟨fun code => (h.failures code).later hothers, h.messages.later hothers⟩

omit [DecidableEq U] in
theorem frame_unstarted : Frame c .transition (Unstarted (U := U) c) where
  others _ _ hothers h := h.later hothers
  self board ledger hadded h := by
    refine ⟨?_, h.messages⟩
    intro code entry hentry hwriter
    obtain ⟨entries, heq, hentries⟩ := hadded
    rw [heq] at hentry
    rcases List.mem_append.mp hentry with hentry | hentry
    · exact h.failures code entry hentry hwriter
    · cases (hentries entry hentry).symm.trans hwriter

omit [DecidableEq U] in
theorem frame_stored {purpose : Purpose} : Frame (U := U) c purpose (AttemptStored finalizationId) where
  others _ _ hothers h := h.later hothers
  self board ledger hadded h := by
    obtain ⟨entry, hentry, hid⟩ := h
    exact ⟨entry, hadded.mem hentry, hid⟩

/-- The caller's attempt is stored, and it has done nothing about it yet. -/
structure Queued (c : ι) (finalizationId : JsString) (board : JobBoard ι U) :
    Prop extends Unstarted c board where
  stored : AttemptStored finalizationId board

omit [DecidableEq U] in
theorem Queued.later (h : Queued c finalizationId board) (hothers : OtherJobs c board board') :
    Queued c finalizationId board' :=
  ⟨h.toUnstarted.later hothers, h.stored.later hothers⟩

/-- A call that returns a state returns one of an attempt that was stored; one that fails on the way
    stored its own. -/
structure Told (finalizationId : JsString) (result : FinalizeAsyncResult U) (board : JobBoard ι U) :
    Prop where
  accepted : ∀ accepted, result = .ok accepted →
    accepted.payload.finalizationId = accepted.state.finalizationId ∧
    AttemptStored accepted.payload.finalizationId board
  failed : ∀ failure : AsyncFailure, result = .error failure.toError → AttemptStored finalizationId board

omit [DecidableEq U] in
theorem told_accepted {accepted : FinalizeAccepted U}
    (hid : accepted.payload.finalizationId = accepted.state.finalizationId)
    (h : AttemptStored accepted.payload.finalizationId board) :
    Told finalizationId (.ok accepted) board where
  accepted := by
    rintro _ ⟨⟩
    exact ⟨hid, h⟩
  failed := by rintro _ ⟨⟩

omit [DecidableEq U] in
theorem told_not_queued {text : JsString} (h : ∀ failure : AsyncFailure, text ≠ failure.details) :
    Told (U := U) finalizationId (.error ⟨js "INTERNAL_ERROR", text⟩) board where
  accepted := by rintro _ ⟨⟩
  failed failure hsame :=
    absurd (congrArg FinalizeSessionError.details (Except.error.inj hsame)) (h failure)

omit [DecidableEq U] in
theorem safe_throwing {α : Type} {x : JsM α} {post : Except JsError α → JobBoard ι U → Prop}
    (h : post x board) :
    KeepsBoard callers c post (throwing x : Job U α).run board := by
  cases x with
  | error e => exact h
  | ok a => exact h

omit [DecidableEq U] in
/-- A request outside the lifecycle: what its service does to the board, and then the answer. -/
theorem keeps_settle {r : JobRequest U} {answer : r.Answer → Except JsError Unit}
    {post : Except JsError Unit → JobBoard ι U → Prop}
    (h : ∀ later fate, OtherJobs c board later → BoardOk callers later →
      BoardOk callers (serveJob c fate r later).2 ∧
        (∀ d, d ≠ c → OtherJobs d later (serveJob c fate r later).2) ∧
        post (answer (serveJob c fate r later).1) (serveJob c fate r later).2) :
    KeepsBoard callers c post (settle r answer).run board := by
  intro later fate hothers hboard
  obtain ⟨hkeeps, hexpected, hpost⟩ := h later fate hothers hboard
  exact ⟨hkeeps, hexpected, safe_throwing hpost⟩

section Stages

variable {call : FinalizeCall sessionId}

theorem keeps_persistAsyncInput (h : Queued c finalizationId board) :
    KeepsBoard callers c (returned fun _ => Queued c finalizationId)
      (persistAsyncInput call.input (call.dependencies (U := U))).run board := by
  unfold persistAsyncInput
  cases hpersist : call.canPersist with
  | false =>
    simp only [FinalizeCall.dependencies, hpersist]
    exact safe_pure h
  | true =>
    simp only [FinalizeCall.dependencies, hpersist, if_true]
    have hpersisted : KeepsBoard callers c (fun _ => Queued c finalizationId)
        (persistAsyncProverInput ⟨call.input.sessionId, call.input.finalizationId, call.input.zkvmInput,
          call.input.electionConfig⟩ : Job U Unit).run board := by
      refine keeps_settle ?_
      intro later fate hothers hboard
      exact ⟨hboard, fun d _ => relies_otherJobs.refl d later, h.later hothers⟩
    refine safe_attempt_bind hpersisted ?_
    rintro (_ | _) later hlater
    · exact safe_pure hlater
    · exact safe_pure hlater

theorem keeps_uploadInput (h : Queued c finalizationId board) :
    KeepsBoard callers c (returned fun _ => Queued c finalizationId)
      (uploadInput call.input (call.dependencies (U := U))).run board := by
  unfold uploadInput
  split
  · exact keeps_persistAsyncInput h
  · exact safe_pure h

variable (hcall : callers c = .finalizeAsync call)
include hcall

theorem keeps_markQueued (h : Unstarted c board) (hunwritten : NotStored c .transition board) :
    KeepsBoard callers c
      (fun result later => (∀ record, result = .ok record → ∃ entry ∈ later.ledger.history,
        entry.2 = record) ∧
        Unstarted c later)
      (call.dependencies.markFinalizationQueued call.input.sessionId (queuedPayload call.input)).run
        board := by
  have hkeeps := keeps_applyFinalizationCommand callers frame_unstarted hunwritten h
  rw [writers, hcall] at hkeeps
  exact hkeeps

/-- The failure is recorded or it is not: nothing is promised. -/
theorem keeps_failAsync {failure : AsyncFailure} (h : NotStored c (.failure failure.codeText) board)
    (hstored : AttemptStored call.input.finalizationId board) :
    KeepsBoard callers c (returned (Told call.input.finalizationId))
      (failAsync call.input call.dependencies failure).run board := by
  have hkeeps := keeps_applyFinalizationCommand callers frame_stored h hstored
  have hclient :
      (writers callers (c, .failure failure.codeText)).toCoordinateFinalizationTransitionInput =
      call.failInput call.input.sessionId (failedPayload call.input call.failedAtMs failure) := by
    simp only [writers, hcall, Caller.client, FinalizeCall.client, FinalizeCall.failureOf_codeText]
  rw [hclient] at hkeeps
  have hrecorded : KeepsBoard callers c (returned fun _ => AttemptStored call.input.finalizationId)
      (writeAsyncFailure call.input call.dependencies failure).run board :=
    safe_attempt_bind hkeeps fun _ _ hpost => safe_pure hpost.2
  refine safe_seq hrecorded ?_
  intro _ later hlater
  refine safe_pure ⟨?_, fun _ _ => hlater⟩
  rintro _ ⟨⟩

omit [DecidableEq U] in
/-- PUBLISH: what is published is of the caller's own attempt, which is stored,
    and it is published once. -/
theorem keeps_publish {message : FinalizationWorkItem} {maxAttempts : Num}
    (h : Queued c call.input.finalizationId board)
    (hmessage : message.finalizationId = call.input.finalizationId) :
    KeepsBoard callers c
      (fun _ later => (∀ code, NotStored c (.failure code) later) ∧
        AttemptStored call.input.finalizationId later)
      (publish message maxAttempts).run board := by
  refine keeps_settle ?_
  intro later fate hothers hboard
  have hlater := h.later hothers
  refine ⟨⟨hboard.ledger, ?_, ?_, ?_⟩, ?_, hlater.failures, hlater.stored⟩
  · intro sent hsent
    rcases List.mem_append.mp hsent with hsent | hsent
    · exact hboard.sender sent hsent
    · rw [List.mem_singleton.mp hsent]
      exact ⟨call, hcall, hmessage⟩
  · intro sent hsent
    rcases List.mem_append.mp hsent with hsent | hsent
    · exact hboard.stored sent hsent
    · rw [List.mem_singleton.mp hsent, hmessage]
      exact hlater.stored
  · simp only [serveJob, List.map_append, List.map_cons, List.map_nil]
    refine List.nodup_append.mpr ⟨hboard.once, List.nodup_singleton c, ?_⟩
    rintro _ hsender _ hself rfl
    obtain ⟨sent, hsent, hwho⟩ := List.mem_map.mp hsender
    exact hlater.messages sent hsent (hwho.trans (List.mem_singleton.mp hself))
  · intro d hd
    refine ⟨Added.refl _ _, [(c, message)], rfl, ?_⟩
    intro sent hsent
    rw [List.mem_singleton.mp hsent]
    exact hd.symm

theorem keeps_publishWorkItem {message : FinalizationWorkItem}
    (h : Queued c call.input.finalizationId board)
    (hmessage : message.finalizationId = call.input.finalizationId) :
    KeepsBoard callers c
      (returned fun _ later =>
        (∀ code, NotStored c (.failure code) later) ∧ AttemptStored call.input.finalizationId later)
      (publishWorkItem call.input (call.dependencies (U := U)) message).run board := by
  refine safe_attempt_bind (keeps_publish hcall h hmessage) ?_
  rintro (_ | _) later hlater
  · exact safe_pure hlater
  · exact safe_pure hlater

theorem keeps_enqueue {state : FinalizationState U} {commitment : JsString}
    (h : Queued c call.input.finalizationId board)
    (hstate : state.finalizationId = call.input.finalizationId) :
    KeepsBoard callers c (returned (Told call.input.finalizationId))
      (enqueue call.input call.dependencies state commitment).run board := by
  have hscenarios : KeepsBoard callers c (returned fun _ => Queued c call.input.finalizationId)
      (throwing (call.input.scenarios.mapM toScenarioCode) : Job U _).run board :=
      safe_throwing fun _ _ => h
  refine safe_seq hscenarios ?_
  intro scenarios later hlater
  refine safe_seq (keeps_publishWorkItem hcall hlater rfl) ?_
  rintro (_ | failure) latest ⟨hfailures, hstored⟩
  · exact safe_pure (told_accepted hstate.symm hstored)
  · exact keeps_failAsync hcall (hfailures _) hstored

theorem keeps_startAsync {state : FinalizationState U} (h : Queued c call.input.finalizationId board)
    (hstate : state.finalizationId = call.input.finalizationId) :
    KeepsBoard callers c (returned (Told call.input.finalizationId))
      (startAsync call.input call.dependencies state).run board := by
  have hcommitment : KeepsBoard callers c (returned fun _ => Queued c call.input.finalizationId)
      (throwing ((call.dependencies (U := U)).computeCommitment call.input.zkvmInput) :
        Job U _).run board :=
    safe_throwing fun _ _ => h
  refine safe_seq hcommitment ?_
  intro commitment later hlater
  refine safe_seq (keeps_uploadInput hlater) ?_
  rintro (_ | failure) latest hlatest
  · exact keeps_enqueue hcall hlatest hstate
  · exact keeps_failAsync hcall (hlatest.failures _) hlatest.stored

/-- CALL: a request to finalize keeps the board in order and returns a state of a stored attempt. -/
theorem keeps_finalizeAsync (h : Unstarted c board) (hunwritten : NotStored c .transition board) :
    KeepsBoard callers c (returned (Told call.input.finalizationId))
      (finalizeAsync call.input call.dependencies).run board := by
  refine safe_attempt_bind (keeps_markQueued hcall h hunwritten) ?_
  rintro (_ | record) later ⟨hrecord, hlater⟩
  · exact safe_pure (told_not_queued (by rintro ⟨⟩ <;> decide))
  · obtain ⟨entry, hentry, hsame⟩ := hrecord record rfl
    have hstored : AttemptStored record.state.finalizationId later := ⟨entry, hentry, by rw [hsame]⟩
    dsimp only
    split
    · exact safe_pure (told_accepted rfl hstored)
    · rename_i hpending
      have hid : record.state.finalizationId = call.input.finalizationId := by
        by_contra hne
        exact hpending (Or.inr hne)
      exact keeps_startAsync hcall ⟨hlater, hid ▸ hstored⟩ hid

end Stages

/-! ### Every schedule -/

variable (callers) in
/-- What is known of a caller that is done. -/
def CallerDone (c : ι) : CallResult U → JobBoard ι U → Prop
  | .finalized result, board => ∃ call, callers c = .finalizeAsync call ∧
      returned (Told call.input.finalizationId) result board
  | .transitioned _, _ => True

omit [DecidableEq U] in
theorem CallerDone.later {result : CallResult U} (h : CallerDone callers c result board)
    (hothers : OtherJobs c board board') : CallerDone callers c result board' := by
  cases result with
  | transitioned => trivial
  | finalized result =>
    obtain ⟨call, hcall, htold⟩ := h
    refine ⟨call, hcall, ?_⟩
    intro told hreturned
    have hwas := htold told hreturned
    refine ⟨?_, ?_⟩
    · intro accepted haccepted
      obtain ⟨hid, hstored⟩ := hwas.accepted accepted haccepted
      exact ⟨hid, hstored.later hothers⟩
    · intro failure hfailure
      exact (hwas.failed failure hfailure).later hothers

variable [DecidableEq ι]

omit [DecidableEq ι] in
theorem initial_boardOk : BoardOk callers (initialJobs callers).shared where
  ledger := ⟨IsRun.nil, rfl, fun _ => rfl⟩
  sender := by rintro _ ⟨⟩
  stored := by rintro _ ⟨⟩
  once := List.nodup_nil

theorem keeps_program (c : ι) :
    KeepsBoard callers c (CallerDone callers c) (callers c).program (initialJobs callers).shared := by
  have hunwritten : ∀ purpose, NotStored c purpose (initialJobs callers).shared := by
    rintro purpose _ ⟨⟩
  cases hcaller : callers c with
  | finalizeAsync call =>
    have hunstarted : Unstarted c (initialJobs callers).shared :=
      ⟨fun code => hunwritten _, by rintro _ ⟨⟩⟩
    refine safe_bind (keeps_finalizeAsync hcaller hunstarted (hunwritten _)) ?_
    intro result later hresult
    exact ⟨call, hcaller, hresult⟩
  | transition client =>
    have hclient : (writers callers (c, .transition)) = client := by rw [writers, hcaller]; rfl
    classical
    subst hclient
    have hframe : Frame c .transition (fun _ : JobBoard ι U => True) := ⟨by simp, by simp⟩
    refine safe_bind
      (safe_embed (embeds_lifecycle hframe) (keeps_coordinateFrom _ (hunwritten .transition))
        (asks_any _) trivial) ?_
    intro _ _ _
    trivial

variable (callers) in
/-- RUN: the board stays in order, and every caller is as far as its answers took it. -/
theorem runCallers_safe (schedule : List (ι × Fate)) :
    BoardOk callers (runCallers callers schedule).shared ∧
      ∀ c, KeepsBoard callers c (CallerDone callers c)
      ((runCallers callers schedule).programs c) (runCallers callers schedule).shared :=
  run_safe relies_otherJobs (fun _ _ _ _ h hothers => h.later hothers) initial_boardOk
    keeps_program schedule

/-! ### One attempt -/

omit [DecidableEq U] [DecidableEq ι] in
/-- ONE ATTEMPT: a stored attempt is that of every record. -/
theorem AttemptStored.all (hboard : BoardOk callers board) (h : AttemptStored finalizationId board) :
    ∀ entry ∈ board.ledger.history, entry.2.finalizationId = finalizationId := by
  obtain ⟨entry, hentry, rfl⟩ := h
  intro entry' hentry'
  obtain ⟨_, happlied⟩ := hboard.ledger.run.of_step entry hentry
  obtain ⟨last, hlast⟩ : ∃ last, board.ledger.history.getLast? = some last :=
    Option.ne_none_iff_exists'.mp fun hnone => by simp [List.getLast?_eq_none_iff.mp hnone] at hentry
  rw [happlied.state_id, run_same_id hboard.ledger.run hentry hlast,
    run_same_id hboard.ledger.run hentry' hlast]

omit [DecidableEq U] [DecidableEq ι] in
theorem AttemptStored.current (hboard : BoardOk callers board) (h : AttemptStored finalizationId board) :
    ∃ record, storedRecord board.ledger.items = some record ∧
    record.finalizationId = finalizationId := by
  obtain ⟨last, hlast⟩ : ∃ last, board.ledger.history.getLast? = some last := by
    obtain ⟨entry, hentry, -⟩ := h
    exact Option.ne_none_iff_exists'.mp fun hnone => by
      simp [List.getLast?_eq_none_iff.mp hnone] at hentry
  refine ⟨last.2, ?_, h.all hboard last (List.mem_of_getLast? hlast)⟩
  rw [storedRecord_of_ledgerOk hboard.ledger, hlast]
  rfl

omit [DecidableEq U] [DecidableEq ι] in
/-- A failure of a call is not a cancellation. -/
theorem failCommand_body (call : FinalizeCall sessionId) (failure : AsyncFailure) :
    (buildFailCommand call.input.sessionId
      (failedPayload (U := U) call.input call.failedAtMs failure)).body =
      .fail none call.failedAtMs ⟨failure.codeText, failure.message, none, none, []⟩ := by
  have hnotCancelled : failure.codeText ≠ js "USER_CANCELLED" := by cases failure <;> decide
  exact if_neg hnotCancelled

omit [DecidableEq U] [DecidableEq ι] in
/-- A call's own records: its attempt pending, or a failure. -/
theorem own_record {call : FinalizeCall sessionId} (hboard : BoardOk callers board)
    (hcall : callers c = .finalizeAsync call) {entry : (ι × Purpose) × FinalizationRecord U}
    (hentry : entry ∈ board.ledger.history) (hwriter : entry.1.1 = c) :
    entry.2.state = .pending call.input.finalizationId call.input.queuedAtMs ∨
    isTerminalState entry.2.state := by
  obtain ⟨⟨c', purpose⟩, record⟩ := entry
  obtain rfl : c' = c := hwriter
  obtain ⟨current, state, reason, happlied⟩ := hboard.ledger.run.of_step _ hentry
  rw [applied_state happlied, writers, hcall]
  cases purpose with
  | transition =>
    left
    rfl
  | failure code =>
    right
    simp only [Caller.client, FinalizeCall.client, FinalizeCall.failInput, commandState,
      failCommand_body]
    rfl

omit [DecidableEq U] [DecidableEq ι] in
/-- What a call leaves behind: a terminal record, or none of its own but the pending one. -/
theorem terminal_or_only_pending {call : FinalizeCall sessionId} (hboard : BoardOk callers board)
    (hcall : callers c = .finalizeAsync call) {record : FinalizationRecord U}
    (hrecord : storedRecord board.ledger.items = some record) :
    isTerminalState record.state ∨ ∀ entry ∈ board.ledger.history, entry.1.1 = c →
      entry.2.state = .pending call.input.finalizationId call.input.queuedAtMs := by
  by_cases hterminal : ∃ entry ∈ board.ledger.history, isTerminalState entry.2.state
  · obtain ⟨entry, hentry, hterminal⟩ := hterminal
    obtain ⟨before, heq, -⟩ := terminal_written_last hboard.ledger.run hentry hterminal
    rw [storedRecord_of_ledgerOk hboard.ledger, heq, List.getLast?_concat] at hrecord
    left
    rw [← Option.some.inj hrecord]
    exact hterminal
  · right
    intro entry hentry hwriter
    rcases own_record hboard hcall hentry hwriter with hpending | hended
    · exact hpending
    · exact absurd ⟨entry, hentry, hended⟩ hterminal

omit [DecidableEq U] [DecidableEq ι] in
theorem told_of_finalizeResult {program : Async (JobRequest U) JobRequest.Answer (CallResult U)}
    {result : FinalizeAsyncResult U} (hsafe : KeepsBoard callers c (CallerDone callers c) program board)
    (h : finalizeResult program = some result) :
    ∃ call, callers c = .finalizeAsync call ∧ Told call.input.finalizationId result board := by
  unfold finalizeResult at h
  split at h
  · obtain ⟨call, hcall, htold⟩ := hsafe
    rw [← Option.some.inj h]
    exact ⟨call, hcall, htold _ rfl⟩
  · cases h

omit [DecidableEq U] [DecidableEq ι] in
/-- All messages are of one attempt, so one caller sent them, once. -/
theorem published_once (hboard : BoardOk callers board)
    (hdistinct : ∀ c d call call', callers c = .finalizeAsync call → callers d = .finalizeAsync call' →
      call.input.finalizationId = call'.input.finalizationId → c = d) : board.published.length ≤ 1 := by
  have hsame : ∀ sent ∈ board.published, ∀ sent' ∈ board.published, sent.1 = sent'.1 := by
    intro sent hsent sent' hsent'
    obtain ⟨call, hcall, hid⟩ := hboard.sender sent hsent
    obtain ⟨call', hcall', hid'⟩ := hboard.sender sent' hsent'
    obtain ⟨entry, hentry, -⟩ := hboard.stored sent hsent
    refine hdistinct _ _ call call' hcall hcall' ?_
    rw [← hid, ← hid', ← (hboard.stored sent hsent).all hboard entry hentry,
      (hboard.stored sent' hsent').all hboard entry hentry]
  have honce := hboard.once
  rcases hpublished : board.published with _ | ⟨first, _ | ⟨second, rest⟩⟩
  · simp
  · simp
  · rw [hpublished] at honce hsame
    have hne : first.1 ≠ second.1 := by
      simp only [List.map_cons, List.nodup_cons, List.mem_cons, not_or] at honce
      exact honce.1.1
    exact absurd (hsame first (by simp) second (by simp)) hne

end Invariant

end StarkBallot.AwsAdapters
