import StarkBallot.Application.VerificationResult
import StarkBallot.Schemes.Result

/-! Verification results of one successful finalization in the mapped store
    (`aws-adapters/src/store/mockSessionStore.ts`, `mapped-session-records.ts`,
    `session-command-store.ts`). A start keeps what it replaces as a snapshot, a completion forgets the
    snapshot, a rollback puts it back. A missing snapshot is not the same as a snapshot of no record,
    and a rollback treats both alike: it removes the record.

        absent ──start──▶ running ──complete──▶ terminal
          ▲                  │
          └────rollback──────┘

    What the calls have asked for so far is watched beside the store, so a rollback can be compared with
    the record from before the earliest start that it takes back. -/

namespace StarkBallot.AwsAdapters
open Schemes Domain Application

/-! ### Calls -/

/-- The identifiers of a finalization that succeeded; its record was admitted with them. -/
structure SucceededFinalization where
  sessionId : JsString
  finalizationId : JsString
  sessionId_safe : isSafeVerifierSegment sessionId = true
  finalizationId_safe : isSafeVerifierSegment finalizationId = true

inductive VerificationWriteMode where
  | start
  | complete
  deriving DecidableEq

inductive VerificationCall where
  | markVerificationRunning
  | completeVerificationResult (verificationResult : VerificationResult)
  | rollbackVerificationResult
  | getVerificationResultRecord
  deriving DecidableEq

def runningResult : VerificationResult := { status := .running }

variable (finalization : SucceededFinalization)

/-- A record that belongs to the finalization and is well formed. -/
def IsOwn (record : VerificationResultRecord) : Prop :=
  parseVerificationResultRecord record = some record ∧ record.sessionId = finalization.sessionId ∧
    record.finalizationId = finalization.finalizationId

/-- The record that a start writes. -/
def runningRecord : VerificationResultRecord :=
  ⟨finalization.sessionId, finalization.finalizationId, runningResult⟩

theorem createVerificationResultRecord_running :
    createVerificationResultRecord finalization.sessionId finalization.finalizationId runningResult =
      .ok (runningRecord finalization) := by
  refine okOr_eq_ok.mpr (accept_eq_some.mpr ⟨?_, rfl⟩)
  simp [finalization.sessionId_safe, finalization.finalizationId_safe]
  rfl

theorem isOwn_of_create {verificationResult : VerificationResult} {record : VerificationResultRecord}
    (h : createVerificationResultRecord finalization.sessionId finalization.finalizationId
      verificationResult = .ok record) : IsOwn finalization record := by
  obtain ⟨hparse, rfl⟩ := createVerificationResultRecord_eq_ok h
  exact ⟨hparse, rfl, rfl⟩

theorem isOwn_running : IsOwn finalization (runningRecord finalization) :=
  isOwn_of_create finalization (createVerificationResultRecord_running finalization)

/-! ### The store -/

namespace Mapped

/-- The entries of the two maps under the key of the finalization. -/
structure VerificationEntries where
  verificationResultRecord : Option VerificationResultRecord
  verificationRollbackSnapshot : Option (Option VerificationResultRecord)

def getVerificationResultRecord (entries : VerificationEntries) : Option VerificationResultRecord :=
  (entries.verificationResultRecord.bind parseVerificationResultRecord).filter fun record =>
    record.sessionId = finalization.sessionId && record.finalizationId = finalization.finalizationId

/-- The answer, and the entries after the call. -/
def writeVerificationResult (verificationResult : VerificationResult) (mode : VerificationWriteMode)
    (entries : VerificationEntries) : JsM VerificationResultRecord × VerificationEntries :=
  let current := getVerificationResultRecord finalization entries
  match current.filter (·.isTerminal) with
  | some current => (.ok current, entries)
  | none =>
    let entries :=
      if mode = .start then { entries with verificationRollbackSnapshot := some current } else entries
    match createVerificationResultRecord finalization.sessionId finalization.finalizationId
        verificationResult with
    | .error e => (.error e, entries)
    | .ok record =>
      (.ok record, {
        verificationResultRecord := some record
        verificationRollbackSnapshot :=
          if mode = .complete then none else entries.verificationRollbackSnapshot })

def restoreMappedVerificationSnapshot (entries : VerificationEntries) : VerificationEntries where
  verificationResultRecord := entries.verificationRollbackSnapshot.join
  verificationRollbackSnapshot := none

/-- One call that runs to completion, with the record that it answers, if any. -/
def call :
    VerificationCall → VerificationEntries → JsM (Option VerificationResultRecord) × VerificationEntries
  | .markVerificationRunning, entries =>
    ((writeVerificationResult finalization runningResult .start entries).1.map some,
      (writeVerificationResult finalization runningResult .start entries).2)
  | .completeVerificationResult verificationResult, entries =>
    ((writeVerificationResult finalization verificationResult .complete entries).1.map some,
      (writeVerificationResult finalization verificationResult .complete entries).2)
  | .rollbackVerificationResult, entries => (.ok none, restoreMappedVerificationSnapshot entries)
  | .getVerificationResultRecord,
      entries => (.ok (getVerificationResultRecord finalization entries), entries)

/-! ### What one call does -/

section Steps

variable {finalization} {entries : VerificationEntries}

/-- Every record in the store is one of the finalization's. -/
def Owned (finalization : SucceededFinalization) (entries : VerificationEntries) : Prop :=
  ∀ record, entries.verificationResultRecord = some record → IsOwn finalization record

theorem get_of_owned (h : Owned finalization entries) :
    getVerificationResultRecord finalization entries = entries.verificationResultRecord := by
  cases hrecord : entries.verificationResultRecord with
  | none => simp [getVerificationResultRecord, hrecord]
  | some record =>
    obtain ⟨hparse, hsession, hid⟩ := h record hrecord
    simp [getVerificationResultRecord, hrecord, hparse, hsession, hid]

/-- The record, if it is an end. -/
abbrev terminal (entries : VerificationEntries) : Option VerificationResultRecord :=
  entries.verificationResultRecord.filter (·.isTerminal)

/-- A terminal record answers every write. -/
theorem write_of_terminal (howned : Owned finalization entries) {record : VerificationResultRecord}
    (h : terminal entries = some record) (verificationResult : VerificationResult)
    (mode : VerificationWriteMode) :
    writeVerificationResult finalization verificationResult mode entries = (.ok record, entries) := by
  simp only [writeVerificationResult, get_of_owned howned, h]

theorem start_of_open (howned : Owned finalization entries) (h : terminal entries = none) :
    writeVerificationResult finalization runningResult .start entries =
      (.ok (runningRecord finalization),
        ⟨some (runningRecord finalization), some entries.verificationResultRecord⟩) := by
  simp only [writeVerificationResult, get_of_owned howned, h, createVerificationResultRecord_running]
  rfl

theorem complete_of_open (howned : Owned finalization entries) (h : terminal entries = none)
    {verificationResult : VerificationResult} {record : VerificationResultRecord}
    (hcreate : createVerificationResultRecord finalization.sessionId finalization.finalizationId
      verificationResult = .ok record) :
    writeVerificationResult finalization verificationResult .complete entries =
      (.ok record, ⟨some record, none⟩) := by
  simp only [writeVerificationResult, get_of_owned howned, h, hcreate]
  rfl

/-- A result that is not well formed changes nothing. -/
theorem complete_of_invalid (howned : Owned finalization entries) (h : terminal entries = none)
    {verificationResult : VerificationResult} {e : JsError}
    (hcreate : createVerificationResultRecord finalization.sessionId finalization.finalizationId
      verificationResult = .error e) :
    writeVerificationResult finalization verificationResult .complete entries = (.error e, entries) := by
  simp only [writeVerificationResult, get_of_owned howned, h, hcreate]
  rfl

end Steps

/-! ### Watching the calls -/

/-- The entries; the record from before the earliest start since the last completion or rollback, if
    there was such a start; and how many such starts there were. -/
structure Watched where
  entries : VerificationEntries
  beforeStart : Option (Option VerificationResultRecord)
  starts : ℕ

def watch (watched : Watched) (c : VerificationCall) : Watched :=
  let (answer, entries) := call finalization c watched.entries
  match c with
  | .markVerificationRunning =>
    ⟨entries, watched.beforeStart <|> some watched.entries.verificationResultRecord, watched.starts + 1⟩
  | .completeVerificationResult _ =>
    if answer.isOk then ⟨entries, none, 0⟩
    else { watched with entries := entries }
  | .rollbackVerificationResult => ⟨entries, none, 0⟩
  | .getVerificationResultRecord => { watched with entries := entries }

def watchAll (initial : VerificationEntries) (calls : List VerificationCall) : Watched :=
  calls.foldl (watch finalization) ⟨initial, none, 0⟩

/-- A call keeps a terminal record, and a rollback restores the record from before the earliest start. -/
structure StepKeeps (watched : Watched) (c : VerificationCall) : Prop where
  sticky : ∀ record, watched.entries.verificationResultRecord = some record → record.isTerminal = true →
    (call finalization c watched.entries).2.verificationResultRecord = some record
  restores :
    c = .rollbackVerificationResult → (call finalization c watched.entries).2.verificationResultRecord =
    watched.beforeStart.getD watched.entries.verificationResultRecord

/-- Nothing started and nothing stored; or a single start on an open record; or further starts on a
    running one. -/
def RollbackSafe (watched : Watched) : Prop :=
  match watched.beforeStart with
  | none => watched.entries.verificationResultRecord = none
  | some saved =>
    saved.filter (·.isTerminal) = none ∧ (watched.starts = 1 ∨ saved = some (runningRecord finalization))

/-- What the watch and the entries have to do with each other. -/
inductive Tracks : Watched → Prop where
  | unstarted {record : Option VerificationResultRecord}
      (howned : ∀ r, record = some r → IsOwn finalization r) :
    Tracks ⟨⟨record, none⟩, none, 0⟩
  | ended {record : VerificationResultRecord} (howned : IsOwn finalization record)
      (hend : record.isTerminal = true)
    (starts : ℕ) : Tracks ⟨⟨some record, none⟩, some (some record), starts⟩
  | started {saved : Option VerificationResultRecord}
      (howned : ∀ r, saved = some r → IsOwn finalization r)
    (hopen : saved.filter (·.isTerminal) = none) :
    Tracks ⟨⟨some (runningRecord finalization), some saved⟩, some saved, 1⟩
  | restarted {saved : Option VerificationResultRecord} (hopen : saved.filter (·.isTerminal) = none)
      (starts : ℕ) :
    Tracks ⟨⟨some (runningRecord finalization), some (some (runningRecord finalization))⟩,
      some saved, starts + 2⟩

section Runs

variable {finalization} {watched : Watched}

theorem Tracks.owned (h : Tracks finalization watched) : Owned finalization watched.entries := by
  intro record hrecord
  cases h with
  | unstarted howned => exact howned record hrecord
  | ended howned => exact Option.some.inj hrecord ▸ howned
  | started => exact Option.some.inj hrecord ▸ isOwn_running finalization
  | restarted => exact Option.some.inj hrecord ▸ isOwn_running finalization

theorem tracks_start (h : Tracks finalization watched) :
    Tracks finalization (watch finalization watched .markVerificationRunning) := by
  have howned := h.owned
  cases h with
  | @unstarted record hown =>
    cases hterminal : record.filter (·.isTerminal) with
    | some ended =>
      obtain ⟨rfl, hend⟩ := Option.filter_eq_some_iff.mp hterminal
      simp only [watch, call, write_of_terminal howned hterminal]
      exact .ended (hown ended rfl) hend 1
    | none =>
      simp only [watch, call, start_of_open howned hterminal]
      exact .started hown hterminal
  | @ended record hown hend starts =>
    have hterminal : terminal ⟨some record, none⟩ = some record :=
      Option.filter_eq_some_iff.mpr ⟨rfl, hend⟩
    simp only [watch, call, write_of_terminal howned hterminal]
    exact .ended hown hend (starts + 1)
  | @started saved hown hopen =>
    simp only [watch, call, start_of_open howned rfl]
    exact .restarted hopen 0
  | @restarted saved hopen starts =>
    simp only [watch, call, start_of_open howned rfl]
    exact .restarted hopen (starts + 1)

theorem tracks_complete (h : Tracks finalization watched) (verificationResult : VerificationResult) :
    Tracks finalization
      (watch finalization watched (.completeVerificationResult verificationResult)) := by
  have howned := h.owned
  cases hterminal : terminal watched.entries with
  | some record =>
    simp only [watch, call, write_of_terminal howned hterminal]
    cases h with
    | unstarted hown => exact .unstarted hown
    | ended hown => exact .unstarted fun _ hr => Option.some.inj hr ▸ hown
    | started => cases hterminal
    | restarted => cases hterminal
  | none =>
    cases hcreate : createVerificationResultRecord finalization.sessionId finalization.finalizationId
        verificationResult with
    | ok record =>
      simp only [watch, call, complete_of_open howned hterminal hcreate]
      exact .unstarted fun _ hr => Option.some.inj hr ▸ isOwn_of_create finalization hcreate
    | error e =>
      simp only [watch, call, complete_of_invalid howned hterminal hcreate]
      exact h

theorem tracks_rollback (h : Tracks finalization watched) :
    Tracks finalization (watch finalization watched .rollbackVerificationResult) := by
  cases h with
  | unstarted => exact .unstarted fun _ hr => by cases hr
  | ended => exact .unstarted fun _ hr => by cases hr
  | started howned => exact .unstarted howned
  | restarted => exact .unstarted fun _ hr => Option.some.inj hr ▸ isOwn_running finalization

/-- STEP: every call keeps the watch on track. -/
theorem tracks_watch (h : Tracks finalization watched) (c : VerificationCall) :
    Tracks finalization (watch finalization watched c) := by
  cases c with
  | markVerificationRunning => exact tracks_start h
  | completeVerificationResult verificationResult => exact tracks_complete h verificationResult
  | rollbackVerificationResult => exact tracks_rollback h
  | getVerificationResultRecord => exact h

/-- RUN: and so does every run. -/
theorem tracks_watchAll {initial : VerificationEntries} (howned : Owned finalization initial)
    (hsnapshot : initial.verificationRollbackSnapshot = none) (calls : List VerificationCall) :
    Tracks finalization (watchAll finalization initial calls) := by
  induction calls using List.reverseRecOn with
  | nil =>
    obtain ⟨record, snapshot⟩ := initial
    obtain rfl : snapshot = none := hsnapshot
    exact .unstarted howned
  | append_singleton calls c ih =>
    rw [watchAll, List.foldl_append]
    exact tracks_watch ih c

/-- Writes and reads keep a terminal record. -/
theorem call_keeps_terminal (howned : Owned finalization watched.entries)
    {record : VerificationResultRecord} (hterminal : terminal watched.entries = some record)
    {c : VerificationCall} (hc : c ≠ .rollbackVerificationResult) :
    (call finalization c watched.entries).2 = watched.entries := by
  cases c with
  | markVerificationRunning => simp only [call, write_of_terminal howned hterminal]
  | completeVerificationResult verificationResult => simp only [call, write_of_terminal howned hterminal]
  | rollbackVerificationResult => exact absurd rfl hc
  | getVerificationResultRecord => rfl

/-- A rollback restores the record from before the earliest start, exactly when it is safe. -/
theorem rollback_restores_iff (h : Tracks finalization watched) :
    (restoreMappedVerificationSnapshot watched.entries).verificationResultRecord =
      watched.beforeStart.getD watched.entries.verificationResultRecord ↔
      RollbackSafe finalization watched := by
  cases h with
  | @unstarted record => exact eq_comm
  | @ended record howned hend starts =>
    simp [restoreMappedVerificationSnapshot, RollbackSafe, hend]
  | started howned hopen => simp [restoreMappedVerificationSnapshot, RollbackSafe, hopen]
  | restarted hopen starts =>
    simp [restoreMappedVerificationSnapshot, RollbackSafe, hopen, eq_comm]

/-- STEP: a call keeps its promise, unless it is a rollback that is not safe. -/
theorem stepKeeps_iff (h : Tracks finalization watched) (c : VerificationCall) :
    StepKeeps finalization watched c ↔
    (c = .rollbackVerificationResult → RollbackSafe finalization watched) := by
  constructor
  · rintro hkeeps rfl
    exact (rollback_restores_iff h).mp (hkeeps.restores rfl)
  · intro hsafe
    refine ⟨?_, ?_⟩
    · intro record hrecord hend
      have hterminal : terminal watched.entries = some record :=
        Option.filter_eq_some_iff.mpr ⟨hrecord, hend⟩
      by_cases hc : c = .rollbackVerificationResult
      · subst hc
        have hsafe := hsafe rfl
        cases h with
        | unstarted => cases hrecord.symm.trans hsafe
        | ended howned hended =>
          obtain rfl := Option.some.inj hrecord
          simp [RollbackSafe, hended] at hsafe
        | started => cases hterminal
        | restarted => cases hterminal
      · rw [call_keeps_terminal h.owned hterminal hc]
        exact hrecord
    · rintro rfl
      exact (rollback_restores_iff h).mpr (hsafe rfl)

variable (finalization) in
/-- At every call of a run, with what happened before it. -/
def EveryCall (P : Watched → VerificationCall → Prop) (initial : VerificationEntries)
    (calls : List VerificationCall) :
    Prop :=
  ∀ before c, before ++ [c] <+: calls → P (watchAll finalization initial before) c

/-- EXACT: in a run, results are sticky and rollbacks restore what was there, as long as
    every rollback is safe. -/
theorem mapped_verification_sticky_iff {initial : VerificationEntries}
    (howned : Owned finalization initial) (hsnapshot : initial.verificationRollbackSnapshot = none)
    (calls : List VerificationCall) :
    EveryCall finalization (StepKeeps finalization) initial calls ↔
      EveryCall finalization (fun watched c => c = .rollbackVerificationResult →
        RollbackSafe finalization watched) initial calls := by
  refine forall₂_congr fun before c => ?_
  exact imp_congr_right fun _ => stepKeeps_iff (tracks_watchAll howned hsnapshot before) c

end Runs

/-! ### A run that loses a result -/

def sampleFinalization : SucceededFinalization := ⟨js "s", js "f", rfl, rfl⟩

/-- A start that is taken back. -/
theorem mapped_verification_sticky_on_sample :
    EveryCall sampleFinalization (StepKeeps sampleFinalization) ⟨none, none⟩
      [.markVerificationRunning, .rollbackVerificationResult] := by
  refine (mapped_verification_sticky_iff (fun _ h => by cases h) rfl _).mpr ?_
  rintro before c ⟨rest, hcalls⟩ rfl
  rcases before with _ | ⟨first, _ | ⟨second, before⟩⟩
  · cases hcalls
  · obtain ⟨rfl, -⟩ := List.cons.inj hcalls
    exact ⟨rfl, .inl rfl⟩
  · simp at hcalls

/-- A verification that succeeded is gone after a rollback. -/
theorem rollback_deletes_a_finished_verification :
    ¬ (∀ (finalization : SucceededFinalization) (initial : VerificationEntries)
      (calls : List VerificationCall),
      Owned finalization initial → initial.verificationRollbackSnapshot = none →
      EveryCall finalization (StepKeeps finalization) initial calls) := by
  intro h
  have hkeeps := h sampleFinalization ⟨none, none⟩
    [.markVerificationRunning, .completeVerificationResult { status := .success },
      .rollbackVerificationResult]
    (fun _ h => by cases h) rfl
    [.markVerificationRunning, .completeVerificationResult { status := .success }]
      .rollbackVerificationResult
    (List.prefix_refl _)
  have hlost := hkeeps.sticky ⟨js "s", js "f", { status := .success }⟩ (by decide) (by decide)
  revert hlost
  decide

end Mapped

end StarkBallot.AwsAdapters
