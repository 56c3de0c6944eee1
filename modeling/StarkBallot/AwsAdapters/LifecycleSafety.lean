import StarkBallot.AwsAdapters.FinalizationLifecycle
import StarkBallot.Schemes.History

/-! Safety of the lifecycle under every schedule. The ledger is in order (`LedgerOk`) when the records
    written form a run of the policy and the items hold the last of them; its length is the revision. A
    transaction on a revision someone saw succeeds only while that revision is current, so it adds a
    record that follows the last one (`ledgerOk_put`). A run keeps its attempt and ends with its first
    terminal record.

        loaded revision k ≤ history.length     currentAt history k = what the client evaluated
        conditions hold                        k = history.length,  history ++ [(client, next)] -/

namespace StarkBallot.AwsAdapters
open Schemes Domain Application

variable {U : Type}

section Invariant

variable {ι : Type} {sessionId : JsString} (clients : ι → Client U sessionId)

/-- The policy applies the writer's command to what was current, and this is the record. -/
def AppliedBy (current : Option (ι × FinalizationRecord U)) (entry : ι × FinalizationRecord U) : Prop :=
  ∃ state reason, evaluateFinalizationTransition (current.map Prod.snd) (clients entry.1).command
    (clients entry.1).evaluatedAtMs = .applied state reason entry.2

/-- The items hold the last of `n` records written, and nothing else. -/
def Holds (items : SessionItems U) (n : ℕ) : Option (ι × FinalizationRecord U) → Prop
  | none => items.current = none ∧ ∀ id, items.finalizations id = none
  | some entry => items.current = some ⟨entry.2.finalizationId, n⟩ ∧
      ∃ stored, decodeFinalizationRecord stored = some entry.2 ∧
        items.finalizations = Function.update (fun _ => none) entry.2.finalizationId (some ⟨stored, n⟩)

structure LedgerOk (ledger : Ledger ι U) : Prop where
  run : IsRun (AppliedBy clients) ledger.history
  holds : Holds ledger.items ledger.history.length ledger.history.getLast?

variable (allowed : ι → Option (FinalizationRecord U) → Prop)

/-- A ledger in order in which every record replaced one that its writer may replace. -/
structure LedgerKept (ledger : Ledger ι U) : Prop extends LedgerOk clients ledger where
  permitted : IsRun (fun current entry => allowed entry.1 (current.map Prod.snd)) ledger.history

/-- A server of the store that shows a client only records that it may replace, and
    fails its read instead. -/
structure Shows {χ : Type}
    (served : ι → χ → (r : StoreRequest U) → Ledger ι U → r.Answer × Ledger ι U) : Prop where
  none_allowed : ∀ c, allowed c none
  serve_eq : ∀ c choice r ledger, ∃ fate, served c choice r ledger = serve c fate r ledger ∧
    ∀ finalizationId, r = .getFinalization finalizationId → fate = .served →
    allowed c (storedRecord ledger.items)

/-- Between two steps of a client the others write, in their own names. -/
def others (c : ι) (ledger later : Ledger ι U) : Prop :=
  ∃ entries, later.history = ledger.history ++ entries ∧ ∀ entry ∈ entries, entry.1 ≠ c

theorem relies_others : Relies (@others U ι) where
  refl := fun c ledger => ⟨[], (List.append_nil _).symm, by simp⟩
  trans := by
    rintro c ledger ledger' ledger'' ⟨entries, h, hothers⟩ ⟨entries', h', hothers'⟩
    refine ⟨entries ++ entries', by rw [h', h, List.append_assoc], ?_⟩
    intro entry hentry
    rcases List.mem_append.mp hentry with hentry | hentry
    · exact hothers entry hentry
    · exact hothers' entry hentry

variable {clients} {allowed}

theorem AppliedBy.step {current : Option (ι × FinalizationRecord U)} {entry : ι × FinalizationRecord U}
    (h : AppliedBy clients current entry) :
    Step (current.map Prod.snd) (clients entry.1).command entry.2 := by
  obtain ⟨state, reason, happlied⟩ := h
  exact evaluateFinalizationTransition_applied happlied

theorem AppliedBy.state_id {current : Option (ι × FinalizationRecord U)}
    {entry : ι × FinalizationRecord U} (h : AppliedBy clients current entry) :
    entry.2.state.finalizationId = entry.2.finalizationId :=
  h.step.state_id.trans h.step.finalizationId_eq.symm

/-- A step keeps the attempt. -/
theorem AppliedBy.same_id {previous entry : ι × FinalizationRecord U}
    (h : AppliedBy clients (some previous) entry) :
    entry.2.state.finalizationId = previous.2.state.finalizationId :=
  h.step.state_id.trans (h.step.current_id previous.2 rfl).symm

/-- A step leaves an open state. -/
theorem AppliedBy.leaves_open {previous entry : ι × FinalizationRecord U}
    (h : AppliedBy clients (some previous) entry) : ¬ isTerminalState previous.2.state := by
  rw [h.step.current_open previous.2 rfl]
  exact Bool.false_ne_true

/-- ONE ATTEMPT: all records of a run are of the attempt of the last one. -/
theorem run_same_id {history : List (ι × FinalizationRecord U)}
    (hrun : IsRun (AppliedBy clients) history) {entry last : ι × FinalizationRecord U}
    (hentry : entry ∈ history) (hlast : history.getLast? = some last) :
    entry.2.finalizationId = last.2.finalizationId := by
  obtain ⟨_, happlied⟩ := hrun.of_step entry hentry
  obtain ⟨_, happlied'⟩ := hrun.of_step last (List.mem_of_getLast? hlast)
  rw [← happlied.state_id, ← happlied'.state_id]
  exact hrun.same (fun _ _ => AppliedBy.same_id) entry hentry last hlast

/-- Nothing is written after a terminal record. -/
theorem no_entries_after_terminal {history entries : List (ι × FinalizationRecord U)}
    {last : ι × FinalizationRecord U} (hrun : IsRun (AppliedBy clients) (history ++ entries))
    (hlast : history.getLast? = some last) (hterminal : isTerminalState last.2.state) :
    entries = [] := by
  by_contra hne
  refine hrun.final (fun _ _ => AppliedBy.leaves_open) last ?_ hterminal
  rw [List.dropLast_append_of_ne_nil hne]
  exact List.mem_append_left _ (List.mem_of_getLast? hlast)

/-- A terminal record that was written is the last one and the only one of its kind. -/
theorem terminal_written_last {history : List (ι × FinalizationRecord U)}
    {entry : ι × FinalizationRecord U} (hrun : IsRun (AppliedBy clients) history)
    (hentry : entry ∈ history) (hterminal : isTerminalState entry.2.state) :
    ∃ before, history = before ++ [entry] ∧ ∀ earlier ∈ before, earlier.2 ≠ entry.2 := by
  have hopen := hrun.final (fun _ _ => AppliedBy.leaves_open)
  rcases List.eq_nil_or_concat' history with rfl | ⟨before, last, rfl⟩
  · cases hentry
  · rw [List.dropLast_concat] at hopen
    rcases List.mem_append.mp hentry with hbefore | hlast
    · exact absurd hterminal (hopen entry hbefore)
    · rw [List.mem_singleton.mp hlast] at hterminal ⊢
      refine ⟨before, rfl, ?_⟩
      intro earlier hearlier hsame
      rw [← hsame] at hterminal
      exact hopen earlier hearlier hterminal

theorem storedRecord_of_ledgerOk {ledger : Ledger ι U} (h : LedgerOk clients ledger) :
    storedRecord ledger.items = ledger.history.getLast?.map Prod.snd := by
  have hholds := h.holds
  cases hlast : ledger.history.getLast? with
  | none =>
    rw [hlast] at hholds
    simp [storedRecord, hholds.1]
  | some last =>
    rw [hlast] at hholds
    obtain ⟨hcurrent, stored, hstored, hitems⟩ := hholds
    simp [storedRecord, hcurrent, hitems, hstored]

/-! ### Time -/

/-- What time does to a ledger: records are added, and the items change with them only. -/
def Grows (ledger later : Ledger ι U) : Prop :=
  ∃ entries, later.history = ledger.history ++ entries ∧ (entries = [] → later = ledger)

theorem Grows.refl (ledger : Ledger ι U) : Grows ledger ledger :=
  ⟨[], (List.append_nil _).symm, fun _ => rfl⟩

theorem Grows.trans {ledger ledger' ledger'' : Ledger ι U} (h : Grows ledger ledger')
    (h' : Grows ledger' ledger'') :
    Grows ledger ledger'' := by
  obtain ⟨entries, heq, hsame⟩ := h
  obtain ⟨entries', heq', hsame'⟩ := h'
  refine ⟨entries ++ entries', by rw [heq', heq, List.append_assoc], ?_⟩
  intro hnil
  obtain ⟨hentries, hentries'⟩ := List.append_eq_nil_iff.mp hnil
  rw [hsame' hentries', hsame hentries]

theorem grows_commit (ledger : Ledger ι U) (c : ι) (write : LifecycleWrite U) :
    Grows ledger (ledger.commit c write) := by
  unfold Ledger.commit
  split
  · exact ⟨[(c, write.nextRecord)], rfl, by simp⟩
  · exact Grows.refl ledger

theorem grows_serve (c : ι) (fate : Fate) (r : StoreRequest U) (ledger : Ledger ι U) :
    Grows ledger (serve c fate r ledger).2 := by
  cases r with
  | getSessionIdentity => exact Grows.refl ledger
  | getCurrentFinalization => exact Grows.refl ledger
  | getFinalization id => exact Grows.refl ledger
  | transactWrite write =>
    cases fate with
    | served => exact grows_commit ledger c write
    | lost => exact grows_commit ledger c write
    | refused => exact Grows.refl ledger
    | failed => exact Grows.refl ledger
    | absent => exact Grows.refl ledger

/-- What no other writer is said to have added, the writer itself added. -/
theorem added_by_self {w : ι} {ledger later : Ledger ι U} (hgrows : Grows ledger later)
    (hothers : ∀ d, d ≠ w → others d ledger later) :
    Added (fun entry => entry.1 = w) ledger.history later.history := by
  obtain ⟨entries, heq, -⟩ := hgrows
  refine ⟨entries, heq, ?_⟩
  intro entry hentry
  by_contra hwriter
  obtain ⟨entries', heq', hentries'⟩ := hothers entry.1 hwriter
  obtain rfl : entries = entries' := List.append_cancel_left (heq.symm.trans heq')
  exact hentries' entry hentry rfl

/-! ### A transaction -/

variable (clients) in
/-- A write whose record follows what its client saw. -/
structure Ready (c : ι) (write : LifecycleWrite U) (history : List (ι × FinalizationRecord U)) :
    Prop where
  decodes : decodeFinalizationRecord write.stored = some write.nextRecord
  id_eq : write.nextRecord.finalizationId = write.finalizationId
  seen : write.expected.revision ≤ history.length
  expected_id : write.expected.currentFinalizationId =
    (currentAt history write.expected.revision).map (·.2.finalizationId)
  applied : AppliedBy clients (currentAt history write.expected.revision) (c, write.nextRecord)

theorem Ready.append {c : ι} {write : LifecycleWrite U} {history : List (ι × FinalizationRecord U)}
    (h : Ready clients c write history) (entries : List (ι × FinalizationRecord U)) :
    Ready clients c write (history ++ entries) where
  decodes := h.decodes
  id_eq := h.id_eq
  seen := h.seen.trans (by simp)
  expected_id := by rw [currentAt_append h.seen]; exact h.expected_id
  applied := by rw [currentAt_append h.seen]; exact h.applied

/-- If the conditions hold, what the client saw is current. -/
theorem expected_current {ledger : Ledger ι U} {c : ι} {write : LifecycleWrite U}
    (hledger : LedgerOk clients ledger) (hready : Ready clients c write ledger.history)
    (h : write.conditionsHold ledger.items = true) :
    write.expected.revision = ledger.history.length := by
  have hholds := hledger.holds
  unfold LifecycleWrite.conditionsHold at h
  cases hexpected : write.expected.currentFinalizationId with
  | none =>
    rw [hexpected] at h
    simp only [Bool.and_eq_true, Option.isNone_iff_eq_none] at h
    cases hlast : ledger.history.getLast? with
    | none =>
      have hnil := List.getLast?_eq_none_iff.mp hlast
      have hseen := hready.seen
      rw [hnil] at hseen ⊢
      exact Nat.le_zero.mp hseen
    | some last =>
      rw [hlast] at hholds
      rw [hholds.1] at h
      cases h.1
  | some id =>
    rw [hexpected] at h
    cases hlast : ledger.history.getLast? with
    | none =>
      rw [hlast] at hholds
      simp [hholds.1] at h
    | some last =>
      rw [hlast] at hholds
      simp only [hholds.1, Option.any_some, Bool.and_eq_true, decide_eq_true_eq] at h
      exact h.1.1.symm

/-- STEP: a transaction on what its client saw keeps the ledger in order. -/
theorem ledgerOk_put {ledger : Ledger ι U} {c : ι} {write : LifecycleWrite U}
    (hledger : LedgerOk clients ledger) (hready : Ready clients c write ledger.history)
    (h : write.conditionsHold ledger.items = true) :
    LedgerOk clients (ledger.put c write) := by
  have hrevision := expected_current hledger hready h
  have happlied := hready.applied
  rw [hrevision, currentAt_length] at happlied
  refine ⟨hledger.run.snoc happlied, ?_⟩
  have hholds := hledger.holds
  simp only [Ledger.put, List.getLast?_append, List.getLast?_singleton, Option.some_or,
    List.length_append, List.length_singleton, Holds, SessionItems.put, hrevision,
    hready.id_eq, true_and]
  refine ⟨write.stored, hready.decodes, ?_⟩
  cases hlast : ledger.history.getLast? with
  | none =>
    rw [hlast] at hholds
    have hempty : ledger.items.finalizations = fun _ => none := funext hholds.2
    rw [hempty]
  | some last =>
    rw [hlast] at hholds happlied
    obtain ⟨-, stored, -, hitems⟩ := hholds
    have hid : last.2.finalizationId = write.finalizationId := by
      obtain ⟨_, hlast'⟩ := hledger.run.of_step last (List.mem_of_getLast? hlast)
      rw [← hready.id_eq, ← hlast'.state_id, ← happlied.same_id, happlied.state_id]
    rw [hitems, hid, Function.update_idem]

/-! ### Loads -/

/-- What a load returned was current when its revision was. -/
structure Seen (history : List (ι × FinalizationRecord U))
    (lifecycle : LoadedFinalizationLifecycle U EncodedLifecycleRevision) : Prop where
  seen : lifecycle.revision.revision ≤ history.length
  record_eq : lifecycle.currentRecord = (currentAt history lifecycle.revision.revision).map Prod.snd
  id_eq : lifecycle.revision.currentFinalizationId =
    (currentAt history lifecycle.revision.revision).map (·.2.finalizationId)

/-- The client has written nothing so far. -/
def Unwritten (c : ι) (history : List (ι × FinalizationRecord U)) : Prop :=
  ∀ entry ∈ history, entry.1 ≠ c

theorem Unwritten.later {c : ι} {ledger later : Ledger ι U} (h : Unwritten c ledger.history)
    (hothers : others c ledger later) : Unwritten c later.history := by
  obtain ⟨entries, heq, hentries⟩ := hothers
  intro entry hentry
  rw [heq] at hentry
  rcases List.mem_append.mp hentry with hentry | hentry
  · exact h entry hentry
  · exact hentries entry hentry

theorem parseFinalizationItem_eq_some {expectedSessionId expectedFinalizationId : JsString}
    {raw : FinalizationItemOf (PersistedFinalizationRecord U)}
    {item : FinalizationItemOf (FinalizationRecord U)}
    (h : parseFinalizationItem expectedSessionId expectedFinalizationId raw = some item) :
    decodeFinalizationRecord raw.record = some item.record ∧ item.revision = raw.revision := by
  unfold parseFinalizationItem at h
  split at h
  · cases h
  · obtain ⟨record, hrecord, h⟩ := Option.bind_eq_some_iff.mp h
    split at h
    · cases h
    · rw [← Option.some.inj h]
      exact ⟨hrecord, rfl⟩

/-- Whatever item is found is that of the last record. -/
theorem item_of_ledgerOk {ledger : Ledger ι U} {finalizationId : JsString}
    {raw : FinalizationItemOf (PersistedFinalizationRecord U)} (hledger : LedgerOk clients ledger)
    (hraw : ledger.items.finalizations finalizationId = some raw) :
    ∃ last, ledger.history.getLast? = some last ∧ finalizationId = last.2.finalizationId ∧
      raw.revision = ledger.history.length ∧ decodeFinalizationRecord raw.record = some last.2 := by
  have hholds := hledger.holds
  cases hlast : ledger.history.getLast? with
  | none =>
    rw [hlast] at hholds
    rw [hholds.2] at hraw
    cases hraw
  | some last =>
    rw [hlast] at hholds
    obtain ⟨-, stored, hstored, hitems⟩ := hholds
    have hid : finalizationId = last.2.finalizationId := by
      by_contra hne
      rw [hitems, Function.update_of_ne hne] at hraw
      cases hraw
    rw [hitems, hid, Function.update_self] at hraw
    obtain rfl := Option.some.inj hraw
    exact ⟨last, rfl, hid, rfl, hstored⟩

/-- The item a pointer led to is that of the last record, whenever the pointer was read. If it has the
    pointer's revision, the two reads were of one moment. -/
theorem seen_of_item {ledger : Ledger ι U} {pointer : CurrentFinalizationItem}
    {expectedSessionId : JsString} {raw : FinalizationItemOf (PersistedFinalizationRecord U)}
    {item : FinalizationItemOf (FinalizationRecord U)} (hledger : LedgerOk clients ledger)
    (hraw : ledger.items.finalizations pointer.currentFinalizationId = some raw)
    (hitem : parseFinalizationItem expectedSessionId pointer.currentFinalizationId raw = some item)
    (hrevision : item.revision = pointer.revision) :
    Seen ledger.history ⟨some item.record, ⟨some pointer.currentFinalizationId, pointer.revision⟩⟩ ∧
      storedRecord ledger.items = some item.record := by
  obtain ⟨hdecodes, hsame⟩ := parseFinalizationItem_eq_some hitem
  obtain ⟨last, hlast, hid, hlength, hstored⟩ := item_of_ledgerOk hledger hraw
  have hcurrent : pointer.revision = ledger.history.length := by rw [← hrevision, hsame, hlength]
  have hrecord : item.record = last.2 := by
    rw [hstored] at hdecodes
    exact (Option.some.inj hdecodes).symm
  refine ⟨⟨hcurrent.le, ?_, ?_⟩, ?_⟩
  · simp only [hcurrent, currentAt_length, hlast, Option.map_some, hrecord]
  · simp only [hcurrent, currentAt_length, hlast, Option.map_some, hid]
  · rw [storedRecord_of_ledgerOk hledger, hlast, hrecord]
    rfl

theorem seen_nothing (history : List (ι × FinalizationRecord U)) : Seen history ⟨none, ⟨none, 0⟩⟩ :=
  ⟨Nat.zero_le _, rfl, rfl⟩

/-- The record that is handed out was written. -/
def Traced (history : List (ι × FinalizationRecord U))
    (lifecycle : LoadedFinalizationLifecycle U EncodedLifecycleRevision) : Prop :=
  ∀ record, lifecycle.currentRecord = some record → ∃ entry ∈ history, entry.2 = record

theorem Seen.traced {history : List (ι × FinalizationRecord U)}
    {lifecycle : LoadedFinalizationLifecycle U EncodedLifecycleRevision} (h : Seen history lifecycle) :
    Traced history lifecycle := by
  intro record hrecord
  rw [h.record_eq] at hrecord
  obtain ⟨entry, hentry, rfl⟩ := Option.map_eq_some_iff.mp hrecord
  exact ⟨entry, List.mem_of_mem_take (List.mem_of_getLast? hentry), rfl⟩

theorem Traced.later {c : ι} {lifecycle : LoadedFinalizationLifecycle U EncodedLifecycleRevision}
    {ledger later : Ledger ι U} (h : Traced ledger.history lifecycle) (hothers : others c ledger later) :
    Traced later.history lifecycle := by
  obtain ⟨entries, heq, -⟩ := hothers
  intro record hrecord
  obtain ⟨entry, hentry, hsame⟩ := h record hrecord
  exact ⟨entry, by rw [heq]; exact List.mem_append_left _ hentry, hsame⟩

/-- The lifecycle an answer hands out. -/
def appliedLifecycle : FinalizationLifecycleApplyResult U EncodedLifecycleRevision →
    Option (LoadedFinalizationLifecycle U EncodedLifecycleRevision)
  | .applied lifecycle => some lifecycle
  | .alreadyApplied lifecycle => some lifecycle
  | .stale lifecycle => some lifecycle
  | _ => none

/-- The lifecycle a coordination hands out. -/
def coordinatedLifecycle : FinalizationTransitionCoordinationResult U EncodedLifecycleRevision →
    Option (LoadedFinalizationLifecycle U EncodedLifecycleRevision)
  | .applied lifecycle _ _ => some lifecycle
  | .alreadyApplied _ lifecycle _ _ => some lifecycle
  | .rejected lifecycle _ _ => some lifecycle
  | .invalid lifecycle _ _ => some lifecycle
  | .stale lifecycle _ _ => some lifecycle
  | _ => none

variable (clients) in
/-- A client's program among the others. -/
abbrev Keeps {α : Type} (c : ι) (post : α → Ledger ι U → Prop) (program : Store U α)
    (ledger : Ledger ι U) : Prop :=
  Safe serve (LedgerOk clients) others c post program ledger

variable {χ : Type} {served : ι → χ → (r : StoreRequest U) → Ledger ι U → r.Answer × Ledger ι U}

variable (clients allowed served) in
/-- The same, where the store shows less. -/
abbrev KeepsShown {α : Type} (c : ι) (post : α → Ledger ι U → Prop) (program : Store U α)
    (ledger : Ledger ι U) :
    Prop :=
  Safe served (LedgerKept clients allowed) others c post program ledger

/-- What is known after a load. -/
def AfterLoad (c : ι) (result : FinalizationLifecycleLoadResult U EncodedLifecycleRevision)
    (ledger : Ledger ι U) : Prop :=
  Unwritten c ledger.history ∧ ∀ lifecycle, result = .loaded lifecycle → Seen ledger.history lifecycle

variable (allowed) in
/-- What is known after a load, where the store shows less. -/
def AfterShownLoad (c : ι) (result : FinalizationLifecycleLoadResult U EncodedLifecycleRevision)
    (ledger : Ledger ι U) : Prop :=
  AfterLoad c result ledger ∧ ∀ lifecycle, result = .loaded lifecycle → allowed c lifecycle.currentRecord

theorem afterLoad_of_not_loaded {c : ι}
    {result : FinalizationLifecycleLoadResult U EncodedLifecycleRevision} {ledger : Ledger ι U}
    (h : Unwritten c ledger.history) (hresult : ∀ lifecycle, result ≠ .loaded lifecycle) :
    AfterShownLoad allowed c result ledger :=
  ⟨⟨h, fun lifecycle heq => absurd heq (hresult lifecycle)⟩,
    fun lifecycle heq => absurd heq (hresult lifecycle)⟩

theorem served_getFinalization {c : ι} {fate : Fate} {id : JsString} {ledger : Ledger ι U}
    {raw : Option (FinalizationItemOf (PersistedFinalizationRecord U))}
    (h : (serve c fate (.getFinalization id) ledger).1 = .ok raw) :
    raw = ledger.items.finalizations id ∧ fate = .served := by
  simp only [serve] at h
  split at h
  · rename_i hserved
    exact ⟨(Except.ok.inj h).symm, hserved⟩
  · cases h

variable (hshows : Shows allowed served)
include hshows

theorem keeps_loadFinalizationItem {c : ι} {ledger : Ledger ι U} (h : Unwritten c ledger.history)
    (expectedSessionId : JsString) (pointer : CurrentFinalizationItem) :
    KeepsShown clients allowed served c (AfterShownLoad allowed c)
      (loadFinalizationItem expectedSessionId pointer) ledger := by
  intro later choice hothers hledger
  obtain ⟨fate, hfate, hallowed⟩ :=
    hshows.serve_eq c choice (.getFinalization pointer.currentFinalizationId) later
  have hlater := h.later hothers
  rw [hfate]
  refine ⟨hledger, fun d _ => relies_others.refl d later, ?_⟩
  cases hanswer : (serve c fate (.getFinalization pointer.currentFinalizationId) later).1 with
  | error _ => exact afterLoad_of_not_loaded hlater (by simp)
  | ok rawRecord =>
    dsimp only [Async.bind]
    split
    · exact afterLoad_of_not_loaded hlater (by simp)
    · rename_i item hitem
      split
      · exact afterLoad_of_not_loaded hlater (by simp)
      · rename_i hrevision
        obtain ⟨raw, rfl, hparse⟩ := Option.bind_eq_some_iff.mp hitem
        obtain ⟨hraw, hserved⟩ := served_getFinalization hanswer
        obtain ⟨hseen, hstored⟩ :=
          seen_of_item hledger.toLedgerOk hraw.symm hparse (not_not.mp hrevision)
        refine ⟨⟨hlater, ?_⟩, ?_⟩
        · rintro lifecycle ⟨⟩
          exact hseen
        · rintro lifecycle ⟨⟩
          exact hstored ▸ hallowed _ rfl hserved

theorem keeps_loadCurrentFinalization {c : ι} {ledger : Ledger ι U} (h : Unwritten c ledger.history)
    (expectedSessionId : JsString) :
    KeepsShown clients allowed served c (AfterShownLoad allowed c)
      (loadCurrentFinalization expectedSessionId) ledger := by
  intro later choice hothers hledger
  obtain ⟨fate, hfate, -⟩ := hshows.serve_eq c choice .getCurrentFinalization later
  have hlater := h.later hothers
  rw [hfate]
  refine ⟨hledger, fun d _ => relies_others.refl d later, ?_⟩
  cases (serve c fate .getCurrentFinalization later).1 with
  | error _ => exact afterLoad_of_not_loaded hlater (by simp)
  | ok rawPointer =>
    cases rawPointer with
    | none =>
      refine ⟨⟨hlater, ?_⟩, ?_⟩
      · rintro lifecycle ⟨⟩
        exact seen_nothing later.history
      · rintro lifecycle ⟨⟩
        exact hshows.none_allowed c
    | some rawPointer =>
      dsimp only [Async.bind]
      split
      · exact afterLoad_of_not_loaded hlater (by simp)
      · exact keeps_loadFinalizationItem hshows hlater expectedSessionId _

/-- LOAD: two reads that agree on the revision are of one moment. -/
theorem keeps_loadFinalizationLifecycle {c : ι} {ledger : Ledger ι U} (h : Unwritten c ledger.history)
    (expectedSessionId : JsString) :
    KeepsShown clients allowed served c (AfterShownLoad allowed c)
      (loadFinalizationLifecycle expectedSessionId) ledger := by
  intro later choice hothers hledger
  obtain ⟨fate, hfate, -⟩ := hshows.serve_eq c choice .getSessionIdentity later
  have hlater := h.later hothers
  rw [hfate]
  refine ⟨hledger, fun d _ => relies_others.refl d later, ?_⟩
  cases (serve c fate .getSessionIdentity later).1 with
  | error _ => exact afterLoad_of_not_loaded hlater (by simp)
  | ok found =>
    cases found with
    | false => exact afterLoad_of_not_loaded hlater (by simp)
    | true => exact keeps_loadCurrentFinalization hshows hlater expectedSessionId

omit hshows

/-! ### Applies -/

/-- A transaction keeps the ledger in order, and the others see the client's record at most. -/
theorem commit_ok {ledger : Ledger ι U} {c : ι} {write : LifecycleWrite U}
    (hledger : LedgerKept clients allowed ledger) (hready : Ready clients c write ledger.history)
    (hallowed : allowed c ((currentAt ledger.history write.expected.revision).map Prod.snd)) :
    LedgerKept clients allowed (ledger.commit c write) ∧ ∀ d, d ≠ c →
    others d ledger (ledger.commit c write) := by
  unfold Ledger.commit
  split
  · rename_i hconditions
    refine ⟨⟨ledgerOk_put hledger.toLedgerOk hready hconditions, ?_⟩, ?_⟩
    · rw [expected_current hledger.toLedgerOk hready hconditions, currentAt_length] at hallowed
      exact hledger.permitted.snoc hallowed
    · intro d hd
      refine ⟨[(c, write.nextRecord)], rfl, ?_⟩
      intro entry hentry
      rw [List.mem_singleton.mp hentry]
      exact hd.symm
  · exact ⟨hledger, fun d _ => relies_others.refl d ledger⟩

theorem Ready.later {c : ι} {write : LifecycleWrite U} {ledger later : Ledger ι U}
    (h : Ready clients c write ledger.history) (hothers : others c ledger later) :
    Ready clients c write later.history := by
  obtain ⟨entries, heq, -⟩ := hothers
  rw [heq]
  exact h.append entries

theorem allowed_later {c : ι} {write : LifecycleWrite U} {ledger later : Ledger ι U}
    (h : Ready clients c write ledger.history)
    (hallowed : allowed c ((currentAt ledger.history write.expected.revision).map Prod.snd))
    (hothers : others c ledger later) :
    allowed c ((currentAt later.history write.expected.revision).map Prod.snd) := by
  obtain ⟨entries, heq, -⟩ := hothers
  rwa [heq, currentAt_append h.seen]

theorem decodeLifecycleRevision_eq_some {value expected : EncodedLifecycleRevision}
    (h : decodeLifecycleRevision value = some expected) : expected = value := by
  unfold decodeLifecycleRevision at h
  split at h
  · cases h
  · obtain ⟨id, hid, h⟩ := Option.bind_eq_some_iff.mp h
    have hsame : id = value.currentFinalizationId := by
      cases hvalue : value.currentFinalizationId with
      | none =>
        rw [hvalue] at hid
        exact (Option.some.inj hid).symm
      | some text =>
        rw [hvalue] at hid
        obtain ⟨text', htext, rfl⟩ := Option.map_eq_some_iff.mp hid
        rw [(accept_eq_some.mp htext).2]
    rw [← Option.some.inj h, hsame]

theorem admitLifecycleMutation_eq_some {input : LifecycleMutation U EncodedLifecycleRevision}
    {expected : EncodedLifecycleRevision} {nextRecord : FinalizationRecord U}
    (h : admitLifecycleMutation input = some (expected, nextRecord)) :
    expected = input.expectedRevision ∧ admitFinalizationRecord input.nextRecord = some nextRecord ∧
      nextRecord.finalizationId = input.finalizationId := by
  obtain ⟨expected', hexpected, h⟩ := Option.bind_eq_some_iff.mp h
  obtain ⟨nextRecord', hnext, h⟩ := Option.bind_eq_some_iff.mp h
  split at h
  · cases h
  · rename_i hsame
    obtain ⟨rfl, rfl⟩ := Prod.mk.inj (Option.some.inj h)
    exact ⟨decodeLifecycleRevision_eq_some hexpected, hnext, not_not.mp fun hne => hsame (Or.inr hne)⟩

/-- A record the policy applies to what the client saw is ready to be written on that revision. -/
theorem ready_of_applied {c : ι} {history : List (ι × FinalizationRecord U)}
    {lifecycle : LoadedFinalizationLifecycle U EncodedLifecycleRevision} {state : FinalizationState U}
    {reason : FinalizationEventReason} {next nextRecord : FinalizationRecord U}
    {expected : EncodedLifecycleRevision} {stored : PersistedFinalizationRecord U}
    {expectedSessionId finalizationId : JsString} (hseen : Seen history lifecycle)
    (happlied : evaluateFinalizationTransition lifecycle.currentRecord (clients c).command
      (clients c).evaluatedAtMs = .applied state reason next)
    (hadmitted : admitLifecycleMutation ⟨expectedSessionId, finalizationId, lifecycle.revision, next⟩ =
      some (expected, nextRecord))
    (hstored : encodeFinalizationRecord nextRecord = some stored) :
    nextRecord = next ∧ Ready clients c ⟨expected, finalizationId, nextRecord, stored⟩ history := by
  obtain ⟨rfl, hnext, hid⟩ := admitLifecycleMutation_eq_some hadmitted
  obtain rfl : nextRecord = next :=
    admitFinalizationRecord_unchanged
      (evaluateFinalizationTransition_applied happlied).result_admitted hnext
  obtain ⟨stored', hstored', hdecodes⟩ := decode_encode hnext
  rw [hstored, Option.some.injEq] at hstored'
  refine ⟨rfl, ?_⟩
  exact {
    decodes := by rw [hstored']; exact hdecodes
    id_eq := hid
    seen := hseen.seen
    expected_id := hseen.id_eq
    applied := ⟨state, reason, by rw [← hseen.record_eq]; exact happlied⟩ }

variable [DecidableEq ι]

/-- The one record the client wrote. -/
def WrittenOnce (c : ι) (record : FinalizationRecord U) (history : List (ι × FinalizationRecord U)) :
    Prop :=
  history.filter (fun entry => entry.1 = c) = [(c, record)]

theorem Unwritten.filter_eq_nil {c : ι} {history : List (ι × FinalizationRecord U)}
    (h : Unwritten c history) :
    history.filter (fun entry => entry.1 = c) = [] := by
  rw [List.filter_eq_nil_iff]
  intro entry hentry
  simpa using h entry hentry

theorem WrittenOnce.later {c : ι} {record : FinalizationRecord U} {ledger later : Ledger ι U}
    (h : WrittenOnce c record ledger.history) (hothers : others c ledger later) :
    WrittenOnce c record later.history := by
  obtain ⟨entries, heq, hentries⟩ := hothers
  have hnone : entries.filter (fun entry => entry.1 = c) = [] := Unwritten.filter_eq_nil hentries
  rw [WrittenOnce, heq, List.filter_append, hnone, List.append_nil]
  exact h

theorem writtenOnce_put {c : ι} {ledger : Ledger ι U} (h : Unwritten c ledger.history)
    (write : LifecycleWrite U) :
    WrittenOnce c write.nextRecord (ledger.put c write).history := by
  simp only [WrittenOnce, Ledger.put, List.filter_append, h.filter_eq_nil]
  simp

/-- What is known after an apply. -/
def AfterApply (c : ι) (nextRecord : FinalizationRecord U) :
    FinalizationLifecycleApplyResult U EncodedLifecycleRevision → Ledger ι U → Prop
  | .applied _, ledger => WrittenOnce c nextRecord ledger.history
  | .persistenceFailure, _ => True
  | _, ledger => Unwritten c ledger.history

/-- What a client that is told `applied` can rely on. -/
def AfterCoordination (c : ι) :
    FinalizationTransitionCoordinationResult U EncodedLifecycleRevision → Ledger ι U → Prop
  | .applied _ outcome _, ledger => ∃ state reason next, outcome = .applied state reason next ∧
      WrittenOnce c next ledger.history
  | _, _ => True

/-- After an apply whatever is handed out was written. -/
def ApplyTraced (c : ι) (nextRecord : FinalizationRecord U)
    (result : FinalizationLifecycleApplyResult U EncodedLifecycleRevision) (ledger : Ledger ι U) :
    Prop :=
  AfterApply c nextRecord result ledger ∧
    ∀ lifecycle, appliedLifecycle result = some lifecycle → Traced ledger.history lifecycle

/-- After a coordination whatever is handed out was written. -/
def CoordinationTraced (c : ι)
    (result : FinalizationTransitionCoordinationResult U EncodedLifecycleRevision)
    (ledger : Ledger ι U) : Prop :=
  AfterCoordination c result ledger ∧
    ∀ lifecycle, coordinatedLifecycle result = some lifecycle → Traced ledger.history lifecycle

theorem coordinationTraced_of_none {c : ι}
    {result : FinalizationTransitionCoordinationResult U EncodedLifecycleRevision} {ledger : Ledger ι U}
    (h : AfterCoordination c result ledger) (hresult : coordinatedLifecycle result = none) :
    CoordinationTraced c result ledger := by
  refine ⟨h, ?_⟩
  rw [hresult]
  simp

theorem coordinationTraced_of_some {c : ι}
    {result : FinalizationTransitionCoordinationResult U EncodedLifecycleRevision} {ledger : Ledger ι U}
    {lifecycle : LoadedFinalizationLifecycle U EncodedLifecycleRevision}
    (h : AfterCoordination c result ledger) (hresult : coordinatedLifecycle result = some lifecycle)
    (htraced : Traced ledger.history lifecycle) :
    CoordinationTraced c result ledger := by
  refine ⟨h, ?_⟩
  intro lifecycle' hlifecycle'
  obtain rfl : lifecycle = lifecycle' := Option.some.inj (hresult.symm.trans hlifecycle')
  exact htraced

theorem keeps_afterApply {c : ι} {ledger : Ledger ι U} {state : FinalizationState U}
    {reason : FinalizationEventReason} {next : FinalizationRecord U} {staleConflicts : ℕ}
    {again : Option (Store U (FinalizationTransitionCoordinationResult U EncodedLifecycleRevision))}
    {result : FinalizationLifecycleApplyResult U EncodedLifecycleRevision}
    (h : ApplyTraced c next result ledger)
    (hagain : ∀ program ∈ again, ∀ ledger, Unwritten c ledger.history →
      KeepsShown clients allowed served c (CoordinationTraced c) program ledger) :
    KeepsShown clients allowed served c (CoordinationTraced c)
      (afterApply (.applied state reason next) staleConflicts again result) ledger := by
  obtain ⟨hafter, htraced⟩ := h
  cases result with
  | applied lifecycle =>
    exact coordinationTraced_of_some ⟨state, reason, next, rfl, hafter⟩ rfl (htraced lifecycle rfl)
  | alreadyApplied lifecycle => exact coordinationTraced_of_some trivial rfl (htraced lifecycle rfl)
  | stale lifecycle =>
    cases again with
    | none => exact coordinationTraced_of_some trivial rfl (htraced lifecycle rfl)
    | some program => exact hagain program rfl ledger hafter
  | missing => exact coordinationTraced_of_none trivial rfl
  | invalidRecord => exact coordinationTraced_of_none trivial rfl
  | persistenceFailure => exact coordinationTraced_of_none trivial rfl

theorem AfterCoordination.later {c : ι}
    {result : FinalizationTransitionCoordinationResult U EncodedLifecycleRevision}
    {ledger later : Ledger ι U} (h : AfterCoordination c result ledger)
    (hothers : others c ledger later) :
    AfterCoordination c result later := by
  cases result with
  | applied lifecycle outcome staleConflicts =>
    obtain ⟨state, reason, next, rfl, hwritten⟩ := h
    exact ⟨state, reason, next, rfl, hwritten.later hothers⟩
  | alreadyApplied => trivial
  | rejected => trivial
  | invalid => trivial
  | stale => trivial
  | missing => trivial
  | persistenceFailure => trivial
  | invalidRecord => trivial

theorem writtenOnce_of_toldApplied {c : ι} {ledger : Ledger ι U}
    {program : Store U (FinalizationTransitionCoordinationResult U EncodedLifecycleRevision)}
    {next : FinalizationRecord U} (hsafe : Keeps clients c (AfterCoordination c) program ledger)
    (h : toldApplied program = some next) : WrittenOnce c next ledger.history := by
  unfold toldApplied at h
  split at h
  · obtain ⟨state, reason, next', houtcome, hwritten⟩ := hsafe
    obtain ⟨-, -, rfl⟩ := FinalizationTransitionOutcome.applied.inj houtcome
    rw [← Option.some.inj h]
    exact hwritten
  · cases h

variable [DecidableEq U] (hshows : Shows allowed served)
include hshows

theorem keeps_resolveConflict {c : ι} {ledger : Ledger ι U} (h : Unwritten c ledger.history)
    (expectedSessionId : JsString) (nextRecord : FinalizationRecord U) :
    KeepsShown clients allowed served c (ApplyTraced c nextRecord)
      (loadFinalizationLifecycle expectedSessionId >>=
        fun reloaded => pure (resolveConflict nextRecord reloaded)) ledger := by
  refine safe_bind (keeps_loadFinalizationLifecycle hshows h expectedSessionId) ?_
  rintro (lifecycle | _ | _ | _) later ⟨⟨hlater, hseen⟩, -⟩
  · change ApplyTraced c nextRecord (resolveConflict nextRecord (.loaded lifecycle)) later
    have htraced := (hseen lifecycle rfl).traced
    simp only [resolveConflict]
    split
    · exact ⟨hlater, by rintro _ ⟨⟩; exact htraced⟩
    · exact ⟨hlater, by rintro _ ⟨⟩; exact htraced⟩
  · exact ⟨hlater, by rintro _ ⟨⟩⟩
  · exact ⟨hlater, by rintro _ ⟨⟩⟩
  · exact ⟨trivial, by rintro _ ⟨⟩⟩

theorem keeps_writeLifecycle {c : ι} {ledger : Ledger ι U} {write : LifecycleWrite U}
    (h : Unwritten c ledger.history) (hready : Ready clients c write ledger.history)
    (hallowed : allowed c ((currentAt ledger.history write.expected.revision).map Prod.snd))
    (expectedSessionId : JsString) :
    KeepsShown clients allowed served c (ApplyTraced c write.nextRecord)
      (writeLifecycle expectedSessionId write) ledger := by
  intro later choice hothers hledger
  obtain ⟨fate, hfate, -⟩ := hshows.serve_eq c choice (.transactWrite write) later
  rw [hfate]
  have hlater := h.later hothers
  have hcommit := commit_ok hledger (hready.later hothers) (allowed_later hready hallowed hothers)
  have hkept : LedgerKept clients allowed later ∧ ∀ d, d ≠ c → others d later later :=
    ⟨hledger, fun d _ => relies_others.refl d later⟩
  cases fate with
  | served =>
    refine ⟨hcommit.1, hcommit.2, ?_⟩
    simp only [serve, Ledger.commit]
    split
    · refine ⟨writtenOnce_put hlater write, ?_⟩
      rintro _ ⟨⟩ record hrecord
      exact ⟨(c, write.nextRecord), by simp [Ledger.put], Option.some.inj hrecord⟩
    · exact keeps_resolveConflict hshows hlater expectedSessionId write.nextRecord
  | lost => exact ⟨hcommit.1, hcommit.2, trivial, by rintro _ ⟨⟩⟩
  | refused =>
      exact ⟨hkept.1, hkept.2, keeps_resolveConflict hshows hlater expectedSessionId write.nextRecord⟩
  | failed => exact ⟨hkept.1, hkept.2, trivial, by rintro _ ⟨⟩⟩
  | absent => exact ⟨hkept.1, hkept.2, trivial, by rintro _ ⟨⟩⟩

theorem keeps_apply {c : ι} {ledger : Ledger ι U}
    {lifecycle : LoadedFinalizationLifecycle U EncodedLifecycleRevision} {state : FinalizationState U}
    {reason : FinalizationEventReason} {next : FinalizationRecord U} (h : Unwritten c ledger.history)
    (hseen : Seen ledger.history lifecycle) (hallowed : allowed c lifecycle.currentRecord)
    (happlied : evaluateFinalizationTransition lifecycle.currentRecord (clients c).command
      (clients c).evaluatedAtMs =
      .applied state reason next) (expectedSessionId finalizationId : JsString) :
    KeepsShown clients allowed served c (ApplyTraced c next)
      (applyFinalizationLifecycleMutation ⟨expectedSessionId, finalizationId, lifecycle.revision, next⟩)
      ledger := by
  unfold applyFinalizationLifecycleMutation
  split
  · exact ⟨h, by rintro _ ⟨⟩⟩
  · rename_i expected nextRecord hadmitted
    split
    · exact ⟨trivial, by rintro _ ⟨⟩⟩
    · rename_i stored hstored
      obtain ⟨rfl, hready⟩ := ready_of_applied hseen happlied hadmitted hstored
      obtain ⟨rfl, -, -⟩ := admitLifecycleMutation_eq_some hadmitted
      refine keeps_writeLifecycle hshows h hready ?_ expectedSessionId
      rw [hseen.record_eq] at hallowed
      exact hallowed

/-! ### The loop -/

theorem keeps_afterLoad {c : ι} {ledger : Ledger ι U} {staleConflicts : ℕ}
    {again : Option (Store U (FinalizationTransitionCoordinationResult U EncodedLifecycleRevision))}
    {result : FinalizationLifecycleLoadResult U EncodedLifecycleRevision}
    (h : AfterShownLoad allowed c result ledger)
    (hagain : ∀ program ∈ again, ∀ ledger, Unwritten c ledger.history →
      KeepsShown clients allowed served c (CoordinationTraced c) program ledger) :
    KeepsShown clients allowed served c (CoordinationTraced c)
      (afterLoad lifecyclePersistence (clients c).toCoordinateFinalizationTransitionInput staleConflicts
        again result)
      ledger := by
  cases result with
  | missing => exact coordinationTraced_of_none trivial rfl
  | invalidRecord => exact coordinationTraced_of_none trivial rfl
  | persistenceFailure => exact coordinationTraced_of_none trivial rfl
  | loaded lifecycle =>
    obtain ⟨⟨hunwritten, hseen⟩, hallowed⟩ := h
    have htraced := (hseen lifecycle rfl).traced
    simp only [afterLoad]
    split
    · exact coordinationTraced_of_some trivial rfl htraced
    · exact coordinationTraced_of_some trivial rfl htraced
    · exact coordinationTraced_of_some trivial rfl htraced
    · rename_i state reason next happlied
      refine safe_bind
        (keeps_apply hshows hunwritten (hseen lifecycle rfl) (hallowed lifecycle rfl) happlied _ _) ?_
      intro result later hresult
      rw [happlied]
      exact keeps_afterApply hresult hagain

/-- LOOP: by induction on the stale conflicts that are left. -/
theorem keeps_shown_coordinateFrom {c : ι} (left : ℕ) {staleConflicts : ℕ} {ledger : Ledger ι U}
    (h : Unwritten c ledger.history) :
    KeepsShown clients allowed served c (CoordinationTraced c) (coordinateFrom lifecyclePersistence
      (clients c).toCoordinateFinalizationTransitionInput staleConflicts left) ledger := by
  induction left generalizing staleConflicts ledger with
  | zero =>
    refine safe_bind (keeps_loadFinalizationLifecycle hshows h _) ?_
    intro result later hresult
    exact keeps_afterLoad hshows hresult (by simp)
  | succ left ih =>
    refine safe_bind (keeps_loadFinalizationLifecycle hshows h _) ?_
    intro result later hresult
    refine keeps_afterLoad hshows hresult ?_
    intro program hprogram ledger' hunwritten
    obtain rfl := Option.some.inj hprogram
    exact ih hunwritten

omit hshows

omit [DecidableEq ι] [DecidableEq U] in
/-- The store itself shows every record to everyone. -/
theorem shows_serve : Shows (fun _ _ => True) (serve (U := U) (ι := ι)) where
  none_allowed _ := trivial
  serve_eq _ fate _ _ := ⟨fate, rfl, fun _ _ _ => trivial⟩

omit [DecidableEq ι] [DecidableEq U] in
theorem ledgerKept_any : LedgerKept clients (fun _ _ => True) = LedgerOk clients := by
  funext ledger
  exact propext ⟨LedgerKept.toLedgerOk, fun h => ⟨h, IsRun.any _⟩⟩

theorem keeps_coordinateFrom {c : ι} (left : ℕ) {staleConflicts : ℕ} {ledger : Ledger ι U}
    (h : Unwritten c ledger.history) :
    Keeps clients c (CoordinationTraced c) (coordinateFrom lifecyclePersistence
      (clients c).toCoordinateFinalizationTransitionInput staleConflicts left) ledger := by
  have hshown :
      KeepsShown clients (fun _ _ => True) serve c (CoordinationTraced c)
        (coordinateFrom lifecyclePersistence
      (clients c).toCoordinateFinalizationTransitionInput staleConflicts left) ledger :=
    keeps_shown_coordinateFrom shows_serve left h
  rwa [KeepsShown, ledgerKept_any] at hshown

/-! ### Every schedule -/

omit [DecidableEq ι] in
theorem initial_ledgerOk : LedgerOk clients (initialSystem clients).shared :=
  ⟨IsRun.nil, rfl, fun _ => rfl⟩

variable (clients) in
/-- RUN: the ledger stays in order and every client is as far as its answers took it. -/
theorem runClients_safe (schedule : List (ι × Fate)) :
    LedgerOk clients (runClients clients schedule).shared ∧ ∀ c, Keeps clients c (AfterCoordination c)
      ((runClients clients schedule).programs c) (runClients clients schedule).shared := by
  refine run_safe relies_others (fun c result ledger later h hothers => h.later hothers)
    initial_ledgerOk ?_ schedule
  intro c
  exact safe_mono (fun _ _ h => h.1) (keeps_coordinateFrom _ (by simp [Unwritten, initialSystem]))

variable (clients) in
theorem runClients_grows (schedule more : List (ι × Fate)) :
    Grows (runClients clients schedule).shared (runClients clients (schedule ++ more)).shared := by
  have hsplit :
      runClients clients (schedule ++ more) = runSchedule serve (runClients clients schedule) more :=
    List.foldl_append
  rw [hsplit]
  exact runSchedule_shared Grows.refl (fun _ _ _ => Grows.trans) grows_serve _ more

/-- SAFETY: under every schedule the records stored are a run of the policy from nothing; they are all
    of one attempt; once the stored record is terminal neither it nor anything else about the lifecycle
    changes; and a client told that its record is applied has written it, once. -/
theorem lifecycle_safe_under_every_schedule (clients : ι → Client U sessionId)
    (schedule : List (ι × Fate)) :
    let final := runClients clients schedule
    IsRun (AppliedBy clients) final.shared.history ∧
      storedRecord final.shared.items = final.shared.history.getLast?.map Prod.snd ∧
      (∀ entry ∈ final.shared.history, ∀ entry' ∈ final.shared.history,
        entry.2.finalizationId = entry'.2.finalizationId) ∧
      (∀ more, Grows final.shared (runClients clients (schedule ++ more)).shared) ∧
      (∀ record, storedRecord final.shared.items = some record → isTerminalState record.state →
        ∀ more, (runClients clients (schedule ++ more)).shared = final.shared) ∧
      ∀ c next, toldApplied (final.programs c) = some next →
        final.shared.history.filter (fun entry => entry.1 = c) = [(c, next)] ∧
          (isTerminalState next.state → ∃ before, final.shared.history = before ++ [(c, next)] ∧
            ∀ earlier ∈ before, earlier.2 ≠ next) := by
  intro final
  obtain ⟨hledger, hsafe⟩ := runClients_safe clients schedule
  have hstored := storedRecord_of_ledgerOk hledger
  refine ⟨hledger.run, hstored, ?_, runClients_grows clients schedule, ?_, ?_⟩
  · intro entry hentry entry' hentry'
    cases hlast : final.shared.history.getLast? with
    | none => exact absurd hentry (List.getLast?_eq_none_iff.mp hlast ▸ List.not_mem_nil)
    | some last => rw [run_same_id hledger.run hentry hlast, run_same_id hledger.run hentry' hlast]
  · intro record hrecord hterminal more
    rw [hstored] at hrecord
    obtain ⟨last, hlast, rfl⟩ := Option.map_eq_some_iff.mp hrecord
    obtain ⟨entries, hgrown, hsame⟩ := runClients_grows clients schedule more
    have hrun := (runClients_safe clients (schedule ++ more)).1.run
    rw [hgrown] at hrun
    exact hsame (no_entries_after_terminal hrun hlast hterminal)
  · intro c next htold
    have hwritten := writtenOnce_of_toldApplied (hsafe c) htold
    refine ⟨hwritten, ?_⟩
    intro hterminal
    refine terminal_written_last hledger.run ?_ hterminal
    have hmem : (c, next) ∈ final.shared.history.filter (fun entry => entry.1 = c) := by
      rw [hwritten]
      exact List.mem_singleton_self _
    exact List.mem_of_mem_filter hmem

end Invariant

/-- No scenario, no claim. -/
def sampleContext : FinalizationScenarioContext where
  scenarios := []
  tamperMode := .none
  claimedCounts := Vector.replicate 5 (Num.ofNat 0)
  claimedTotalVotes := Num.ofNat 0
  ignoredCount := Num.ofNat 0
  recountedCount := Num.ofNat 0
  userRecountChoice := none
  affectedBotIds := none

/-- A call for the attempt `f` of session `s`. -/
def sampleClient (body : CommandBody Empty) : Client Empty (js "s") where
  command := ⟨js "s", js "f", Num.ofNat 1, some sampleContext, none, body⟩
  evaluatedAtMs := Num.ofNat 3
  staleRetryLimit := ⟨1, by decide⟩
  sameSession := rfl

/-- Queue, start, queue again: the third record is the first one. -/
def queueStartQueue : Fin 3 → Client Empty (js "s") :=
  ![sampleClient .queue, sampleClient (.start (Num.ofNat 2)), sampleClient .queue]

/-- One client after the other. -/
def oneByOne : List (Fin 3 × Fate) :=
  [0, 0, 0, 1, 1, 1, 1, 2, 2, 2, 2].map (·, Fate.served)

def sampleRecord : FinalizationRecord Empty :=
  ⟨js "s", js "f", sampleContext, .pending (js "f") (Num.ofNat 1), none⟩

/-- A nonterminal record that was replaced may be stored again, by another client: values are not
    unique, writes are. -/
theorem queue_start_queue_stores_one_record_twice :
    ¬ ∀ (clients : Fin 3 → Client Empty (js "s")) (schedule : List (Fin 3 × Fate)) (c : Fin 3)
        (next : FinalizationRecord Empty),
        toldApplied ((runClients clients schedule).programs c) = some next →
      ((runClients clients schedule).shared.history.map Prod.snd).count next = 1 := by
  intro h
  have htold :
      toldApplied ((runClients queueStartQueue oneByOne).programs 2) = some sampleRecord := by
        decide
  have hcount :
      ((runClients queueStartQueue oneByOne).shared.history.map Prod.snd).count sampleRecord = 2 := by
    decide
  rw [h queueStartQueue oneByOne 2 sampleRecord htold] at hcount
  cases hcount

end StarkBallot.AwsAdapters
