import StarkBallot.AwsAdapters.MockVerification

/-! The protocol of verification results, call by call: a start on an open result saves what it replaces
    unless something is saved already, a completion forgets it, a rollback restores it if there is
    anything. The mapped store follows it up to its snapshot, which is of the last start instead of the
    first: it agrees with the protocol in a run exactly when every rollback of the run is safe. -/

namespace StarkBallot.AwsAdapters.Protocol
open Schemes Domain Application Mapped

variable (finalization : SucceededFinalization)

def start (entries : VerificationEntries) : JsM VerificationResultRecord × VerificationEntries :=
  match terminal entries with
  | some ended => (.ok ended, entries)
  | none => (.ok (runningRecord finalization),
      ⟨some (runningRecord finalization), entries.verificationRollbackSnapshot <|>
        some entries.verificationResultRecord⟩)

def complete (verificationResult : VerificationResult) (entries : VerificationEntries) :
    JsM VerificationResultRecord × VerificationEntries :=
  match terminal entries with
  | some ended => (.ok ended, entries)
  | none =>
    match createVerificationResultRecord finalization.sessionId finalization.finalizationId
        verificationResult with
    | .error e => (.error e, entries)
    | .ok record => (.ok record, ⟨some record, none⟩)

def rollback (entries : VerificationEntries) : VerificationEntries :=
  match entries.verificationRollbackSnapshot with
  | none => entries
  | some saved => ⟨saved, none⟩

def call :
    VerificationCall → VerificationEntries → JsM (Option VerificationResultRecord) × VerificationEntries
  | .markVerificationRunning,
      entries => ((start finalization entries).1.map some, (start finalization entries).2)
  | .completeVerificationResult verificationResult, entries =>
    ((complete finalization verificationResult entries).1.map some,
      (complete finalization verificationResult entries).2)
  | .rollbackVerificationResult, entries => (.ok none, rollback entries)
  | .getVerificationResultRecord, entries => (.ok entries.verificationResultRecord, entries)

/-! ### The mapped store follows the protocol -/

section Mapped

variable {finalization} {watched : Watched}

/-- What the protocol holds beside a watched mapped store: what was there before the earliest start. -/
def besides (watched : Watched) : VerificationEntries :=
  ⟨watched.entries.verificationResultRecord, watched.entries.verificationRollbackSnapshot.bind fun _ =>
    watched.beforeStart⟩

theorem rollback_besides (h : Tracks finalization watched) :
    rollback (besides watched) =
      ⟨watched.beforeStart.getD watched.entries.verificationResultRecord, none⟩ := by
  cases h with
  | unstarted => rfl
  | ended => rfl
  | started => rfl
  | restarted => rfl

/-- Every call but a rollback has the same answer and keeps the stores beside each other. -/
theorem call_besides (h : Tracks finalization watched) {c : VerificationCall}
    (hc : c ≠ .rollbackVerificationResult) :
    Protocol.call finalization c (besides watched) =
      ((Mapped.call finalization c watched.entries).1, besides (watch finalization watched c)) := by
  have howned := h.owned
  have hterminal : terminal (besides watched) = terminal watched.entries := rfl
  cases c with
  | rollbackVerificationResult => exact absurd rfl hc
  | getVerificationResultRecord =>
      simp only [Protocol.call, Mapped.call, watch, get_of_owned howned, besides]
  | completeVerificationResult verificationResult =>
    cases hended : terminal watched.entries with
    | some ended =>
      simp only [Protocol.call, complete, hterminal, hended, Mapped.call, watch,
        write_of_terminal howned hended]
      cases h with
      | unstarted => rfl
      | ended => rfl
      | started => cases hended
      | restarted => cases hended
    | none =>
      cases hcreate : createVerificationResultRecord finalization.sessionId finalization.finalizationId
          verificationResult with
      | ok record =>
        simp only [Protocol.call, complete, hterminal, hended, hcreate, Mapped.call, watch,
          complete_of_open howned hended hcreate]
        rfl
      | error e =>
        simp only [Protocol.call, complete, hterminal, hended, hcreate, Mapped.call, watch,
          complete_of_invalid howned hended hcreate]
        rfl
  | markVerificationRunning =>
    cases hended : terminal watched.entries with
    | some ended =>
      simp only [Protocol.call, start, hterminal, hended, Mapped.call, watch,
        write_of_terminal howned hended]
      cases h with
      | unstarted => rfl
      | ended => rfl
      | started => cases hended
      | restarted => cases hended
    | none =>
      simp only [Protocol.call, start, hterminal, hended, Mapped.call, watch,
        start_of_open howned hended]
      cases h with
      | unstarted => rfl
      | ended howned' hend => exact absurd hend (by simpa [terminal] using hended)
      | started => rfl
      | restarted => rfl

theorem watch_entries (c : VerificationCall) :
    (watch finalization watched c).entries = (Mapped.call finalization c watched.entries).2 := by
  cases c with
  | completeVerificationResult verificationResult =>
    simp only [watch]
    split <;> rfl
  | markVerificationRunning => rfl
  | rollbackVerificationResult => rfl
  | getVerificationResultRecord => rfl

/-- After a safe call the stores are beside each other again. -/
theorem call_besides_of_safe (h : Tracks finalization watched) {c : VerificationCall}
    (hsafe : c = .rollbackVerificationResult → RollbackSafe finalization watched) :
    Protocol.call finalization c (besides watched) =
      ((Mapped.call finalization c watched.entries).1, besides (watch finalization watched c)) := by
  by_cases hc : c = .rollbackVerificationResult
  · subst hc
    simp only [Protocol.call, Mapped.call,
      rollback_besides h, ← (rollback_restores_iff h).mpr (hsafe rfl)]
    rfl
  · exact call_besides h hc

/-- STEP: a call has the same answer and leaves the same record, exactly if it is no unsafe rollback. -/
theorem step_besides_iff (h : Tracks finalization watched) (c : VerificationCall) :
    ((Protocol.call finalization c (besides watched)).1 =
      (Mapped.call finalization c watched.entries).1 ∧
      (Protocol.call finalization c (besides watched)).2.verificationResultRecord =
        (Mapped.call finalization c watched.entries).2.verificationResultRecord) ↔
      (c = .rollbackVerificationResult → RollbackSafe finalization watched) := by
  by_cases hc : c = .rollbackVerificationResult
  · subst hc
    simp only [Protocol.call, Mapped.call, rollback_besides h, true_and,
      forall_const, ← rollback_restores_iff h, eq_comm]
  · rw [call_besides h hc]
    simp only [hc, false_implies, true_and, besides, watch_entries]

end Mapped

/-! ### Runs -/

section Runs

/-- The answers of a run, each with the record that is stored after it. -/
def trace (step : VerificationCall → VerificationEntries →
    JsM (Option VerificationResultRecord) × VerificationEntries) :
    List VerificationCall → VerificationEntries →
      List (JsM (Option VerificationResultRecord) × Option VerificationResultRecord)
  | [], _ => []
  | c :: calls, entries =>
    ((step c entries).1, (step c entries).2.verificationResultRecord) ::
      trace step calls (step c entries).2

/-- At every call of a run from here on. -/
def EveryCallFrom (P : Watched → VerificationCall → Prop) (watched : Watched)
    (calls : List VerificationCall) : Prop :=
  ∀ before c, before ++ [c] <+: calls → P (before.foldl (watch finalization) watched) c

variable {finalization}

theorem everyCallFrom_cons {P : Watched → VerificationCall → Prop} {watched : Watched}
    {c : VerificationCall} {calls : List VerificationCall} :
    EveryCallFrom finalization P watched (c :: calls) ↔
      P watched c ∧ EveryCallFrom finalization P (watch finalization watched c) calls := by
  constructor
  · intro h
    refine ⟨h [] c (List.cons_prefix_cons.mpr ⟨rfl, List.nil_prefix⟩), ?_⟩
    intro before c' hprefix
    exact h (c :: before) c' (List.cons_prefix_cons.mpr ⟨rfl, hprefix⟩)
  · rintro ⟨hfirst, hrest⟩ (_ | ⟨first, before⟩) c' hprefix
    · obtain ⟨rfl, -⟩ := List.cons_prefix_cons.mp hprefix
      exact hfirst
    · obtain ⟨rfl, hrest'⟩ := List.cons_prefix_cons.mp hprefix
      exact hrest before c' hrest'

/-- RUN: the mapped store answers as the protocol does and holds the same records, exactly if all
    rollbacks are safe; by induction on the calls that are left. -/
theorem trace_besides_iff {watched : Watched} (h : Tracks finalization watched)
    (calls : List VerificationCall) :
    trace (Protocol.call finalization) calls (besides watched) =
        trace (Mapped.call finalization) calls watched.entries ↔
      EveryCallFrom finalization
        (fun watched c => c = .rollbackVerificationResult → RollbackSafe finalization watched)
        watched calls := by
  induction calls generalizing watched with
  | nil => simp [trace, EveryCallFrom]
  | cons c calls ih =>
    rw [everyCallFrom_cons, trace, trace, List.cons.injEq, Prod.mk.injEq, step_besides_iff h c]
    refine and_congr_right fun hsafe => ?_
    rw [call_besides_of_safe h hsafe, ← watch_entries c]
    exact ih (tracks_watch h c)

end Runs

end StarkBallot.AwsAdapters.Protocol
