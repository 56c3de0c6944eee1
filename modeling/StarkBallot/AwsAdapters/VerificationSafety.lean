import StarkBallot.Schemes.Revisions
import StarkBallot.AwsAdapters.SessionCalls
import StarkBallot.AwsAdapters.VerificationResults

/-! Whether a finished verification stays when workers write its result side by side. A write is
    conditioned on the revision that was read, and that tells an open result from a finished one as long
    as the item was there throughout. A rollback to nothing removes the item, and the next one starts at
    the same revision again: then a write that had read the old item goes through on the new one.

        result    r1 running ──rollback──▶ gone ──complete──▶ r1 success ──stale start──▶ r2 running
        saved     (none)                   gone                gone

    So the condition is that no write goes through on an item that was removed since it was read. -/

namespace StarkBallot.AwsAdapters.Dynamo
open Schemes Domain Application

variable {U ι : Type} (sessionId finalizationId : JsString)

/-! ### Tables -/

/-- The result under its revision, with what is saved beside it. -/
def resultView (table : AList (Item U)) :
    Option (ℕ × VerificationItem × Option VerificationRollbackItem) :=
  (table.lookup (.verification sessionId finalizationId)).map fun item =>
    (item.revision, item, table.lookup (.verificationRollback sessionId finalizationId))

/-- Something is saved only beside an open result, and it is open itself. -/
structure ResultsWell (table : AList (Item U)) : Prop where
  covered : ∀ rollback, table.lookup (.verificationRollback sessionId finalizationId) = some rollback →
    ∃ item, table.lookup (.verification sessionId finalizationId) = some item
  ended : ∀ item, table.lookup (.verification sessionId finalizationId) = some item →
    item.record.isTerminal = true →
    table.lookup (.verificationRollback sessionId finalizationId) = none
  saved : ∀ rollback, table.lookup (.verificationRollback sessionId finalizationId) = some rollback →
    ∀ record, rollback.record = some record → record.isTerminal = false

/-- A finished result is still there, as it was. -/
def KeepsEnded (table table' : AList (Item U)) : Prop :=
  ∀ item, table.lookup (.verification sessionId finalizationId) = some item →
    item.record.isTerminal = true →
    table'.lookup (.verification sessionId finalizationId) = some item

structure ResultsFollow (table table' : AList (Item U)) : Prop where
  revises : Revises (resultView sessionId finalizationId) table table'
  kept : KeepsEnded sessionId finalizationId table table'

variable {sessionId finalizationId}

section Steps

variable {table table' : AList (Item U)}

theorem ResultsWell.absent (h : ResultsWell sessionId finalizationId table)
    (hnone : table.lookup (.verification sessionId finalizationId) = none) :
    table.lookup (.verificationRollback sessionId finalizationId) = none := by
  cases hrollback : table.lookup (.verificationRollback sessionId finalizationId) with
  | none => rfl
  | some rollback =>
    obtain ⟨item, hitem⟩ := h.covered rollback hrollback
    cases hitem.symm.trans hnone

theorem ResultsWell.isOpen (h : ResultsWell sessionId finalizationId table)
    {rollback : VerificationRollbackItem}
    (hrollback : table.lookup (.verificationRollback sessionId finalizationId) = some rollback)
    {item : VerificationItem}
    (hitem : table.lookup (.verification sessionId finalizationId) = some item) :
    item.record.isTerminal = false := by
  cases hterminal : item.record.isTerminal with
  | false => rfl
  | true => cases (h.ended item hitem hterminal).symm.trans hrollback

/-- Neither item is touched. -/
theorem follow_of_apart (h : ResultsWell sessionId finalizationId table)
    (hresult : table'.lookup (.verification sessionId finalizationId) =
      table.lookup (.verification sessionId finalizationId))
    (hrollback : table'.lookup (.verificationRollback sessionId finalizationId) =
      table.lookup (.verificationRollback sessionId finalizationId)) :
    ResultsWell sessionId finalizationId table' ∧
      ResultsFollow sessionId finalizationId table table' := by
  refine ⟨⟨?_, ?_, ?_⟩, ?_, ?_⟩
  · rw [hresult, hrollback]
    exact h.covered
  · rw [hresult, hrollback]
    exact h.ended
  · rw [hrollback]
    exact h.saved
  · intro before after hbefore hafter
    rw [resultView, hresult, hrollback] at hafter
    exact .inl (Option.some.inj (hbefore.symm.trans hafter))
  · intro item hitem _
    rw [hresult, hitem]

/-- An item that is put on an open one, or on none, under the next revision. -/
theorem follow_of_put (hwell : ResultsWell sessionId finalizationId table') {item : VerificationItem}
    (hput : table'.lookup (.verification sessionId finalizationId) = some item)
    (hopen : ∀ before, table.lookup (.verification sessionId finalizationId) = some before →
      before.record.isTerminal = false ∧ before.revision < item.revision) :
    ResultsWell sessionId finalizationId table' ∧
      ResultsFollow sessionId finalizationId table table' := by
  refine ⟨hwell, ?_, ?_⟩
  · intro before after hbefore hafter
    obtain ⟨result, hresult, rfl⟩ := Option.map_eq_some_iff.mp hbefore
    rw [resultView, hput] at hafter
    cases hafter
    exact .inr (hopen result hresult).2
  · intro before hbefore hterminal
    rw [(hopen before hbefore).1] at hterminal
    cases hterminal

/-- An open item that is deleted, with what was saved. -/
theorem follow_of_delete (hresult : table'.lookup (.verification sessionId finalizationId) = none)
    (hrollback : table'.lookup (.verificationRollback sessionId finalizationId) = none)
    (hopen : ∀ before, table.lookup (.verification sessionId finalizationId) = some before →
      before.record.isTerminal = false) :
    ResultsWell sessionId finalizationId table' ∧
      ResultsFollow sessionId finalizationId table table' := by
  refine ⟨⟨?_, ?_, ?_⟩, ?_, ?_⟩
  · rw [hrollback]
    rintro _ ⟨⟩
  · intro _ _ _
    exact hrollback
  · rw [hrollback]
    rintro _ ⟨⟩
  · intro before after _ hafter
    rw [resultView, hresult] at hafter
    cases hafter
  · intro before hbefore hterminal
    rw [hopen before hbefore] at hterminal
    cases hterminal

end Steps

/-! ### Transactions -/

section Transactions

variable {s s' : SharedTable ι U} {c : ι}

variable (sessionId finalizationId) in
/-- What a write was made for: no result, or an open one. -/
def OpenAsRead (c : ι) (current : Option VerificationItem) (s : SharedTable ι U) : Prop :=
  ∀ item, current = some item →
    ReadAs s c (.verification sessionId finalizationId) (some item) ∧ item.record.isTerminal = false

variable (sessionId finalizationId) in
/-- Nothing was saved when this was read, after the result. -/
def NothingSavedAsRead (c : ι) (s : SharedTable ι U) : Prop :=
  ReadAs s c (.verificationRollback sessionId finalizationId) none ∧
    s.readAt c (.verification sessionId finalizationId) ≤
      s.readAt c (.verificationRollback sessionId finalizationId)

variable (sessionId finalizationId) in
/-- The transactions of the workers. -/
inductive ResultsIssued (c : ι) : Operation → List (TransactItem (Item U)) → SharedTable ι U → Prop
  | apart {operation : Operation} {items : List (TransactItem (Item U))} {s : SharedTable ι U}
    (hresult : Key.verification sessionId finalizationId ∉ keysOf items)
    (hrollback : Key.verificationRollback sessionId finalizationId ∉ keysOf items) :
    ResultsIssued c operation items s
  | start {record : VerificationResultRecord} {current : Option VerificationItem} {expiresAt : ℕ}
    {extraItems : List (TransactItem (Item U))} {s : SharedTable ι U}
    (hread : OpenAsRead sessionId finalizationId c current s) (hopen : record.isTerminal = false)
    (hextra : extraItems = [] ∨
      ∃ expiresAt, extraItems = [putRollback sessionId finalizationId current expiresAt]) :
    ResultsIssued c .writeVerification
      (putVerification sessionId finalizationId record current expiresAt :: extraItems) s
  | complete {record : VerificationResultRecord} {current : Option VerificationItem} {expiresAt : ℕ}
    {extraItems : List (TransactItem (Item U))} {s : SharedTable ι U}
    (hread : OpenAsRead sessionId finalizationId c current s)
    (hextra : extraItems = [] ∧
      (∀ item, current = some item → NothingSavedAsRead sessionId finalizationId c s) ∨
      extraItems = [deleteRollback sessionId finalizationId]) :
    ResultsIssued c .writeVerification
      (putVerification sessionId finalizationId record current expiresAt :: extraItems) s
  | restore {rollback : VerificationRollbackItem} {record : VerificationResultRecord}
    {current : Option VerificationItem} {expiresAt : ℕ} {s : SharedTable ι U}
    (hseen : Seen s (.verificationRollback sessionId finalizationId) rollback)
    (hrecord : rollback.record = some record) :
    ResultsIssued c .rollbackVerification
      [putVerification sessionId finalizationId record current expiresAt,
        takeRollback sessionId finalizationId] s
  | remove {current : Option VerificationItem} {s : SharedTable ι U} :
    ResultsIssued c .rollbackVerification
      [deleteItem (.verification sessionId finalizationId) (matchVerification current),
        takeRollback sessionId finalizationId] s

theorem OpenAsRead.later {current : Option VerificationItem}
    (h : OpenAsRead sessionId finalizationId c current s) (hlater : Later c s s') :
    OpenAsRead sessionId finalizationId c current s' := by
  intro item hitem
  obtain ⟨hread, hopen⟩ := h item hitem
  exact ⟨hread.later hlater.toGrows (congrFun hlater.readAt _), hopen⟩

theorem NothingSavedAsRead.later (h : NothingSavedAsRead sessionId finalizationId c s)
    (hlater : Later c s s') :
    NothingSavedAsRead sessionId finalizationId c s' := by
  refine ⟨h.1.later hlater.toGrows (congrFun hlater.readAt _), ?_⟩
  rw [hlater.readAt]
  exact h.2

theorem ResultsIssued.later {operation : Operation} {items : List (TransactItem (Item U))}
    (h : ResultsIssued sessionId finalizationId c operation items s) (hlater : Later c s s') :
    ResultsIssued sessionId finalizationId c operation items s' := by
  cases h with
  | apart hresult hrollback => exact .apart hresult hrollback
  | start hread hopen hextra => exact .start (hread.later hlater) hopen hextra
  | complete hread hextra =>
    refine .complete (hread.later hlater) (hextra.imp_left ?_)
    rintro ⟨hnone, hsaved⟩
    exact ⟨hnone, fun item hitem => (hsaved item hitem).later hlater⟩
  | restore hseen hrecord => exact .restore (hseen.later hlater.toGrows) hrecord
  | remove => exact .remove

/-! ### What a client read is still there -/

/-- The item has been there since the client read it. -/
def ThereSince (s : SharedTable ι U) (c : ι) (key : Key) : Prop :=
  ∀ table ∈ s.tables.drop (s.readAt c key), (table.lookup key).isSome = true

theorem head_of_readAs {key : Key} {item : Option (Item U key)} (h : ReadAs s c key item) :
    ∃ table, (s.tables.drop (s.readAt c key)).head? = some table ∧ table.lookup key = item := by
  obtain ⟨table, hat, hlookup⟩ := h
  exact ⟨table, by rw [List.head?_drop, hat], hlookup⟩

theorem last_of_readAs {key : Key} {item : Option (Item U key)} (h : ReadAs s c key item) :
    (s.tables.drop (s.readAt c key)).getLast? = some s.table := by
  obtain ⟨table, hat, -⟩ := h
  obtain ⟨hlt, -⟩ := List.getElem?_eq_some_iff.mp hat
  rw [List.getLast?_drop, if_neg (by omega)]
  exact List.getLast?_concat

theorem mem_of_later_read {key key' : Key} {item : Option (Item U key')} (h : ReadAs s c key' item)
    (hle : s.readAt c key ≤ s.readAt c key') :
    ∃ table ∈ s.tables.drop (s.readAt c key), table.lookup key' = item := by
  obtain ⟨table, hat, hlookup⟩ := h
  have hdrop : (s.tables.drop (s.readAt c key))[s.readAt c key' - s.readAt c key]? = some table := by
    rw [List.getElem?_drop, Nat.add_sub_cancel' hle, hat]
  exact ⟨table, List.mem_of_getElem? hdrop, hlookup⟩

/-- Under the revision that was read, everything is as it was. -/
theorem view_since
    (h : Recorded (ResultsWell sessionId finalizationId) (ResultsFollow sessionId finalizationId) s)
    (hthere : ThereSince s c (.verification sessionId finalizationId)) {item now : VerificationItem}
    (hread : ReadAs s c (.verification sessionId finalizationId) (some item))
    (hnow : s.table.lookup (.verification sessionId finalizationId) = some now)
    (hrevision : now.revision = item.revision) :
    ∀ table ∈ s.tables.drop (s.readAt c (.verification sessionId finalizationId)),
      resultView sessionId finalizationId table = resultView sessionId finalizationId s.table := by
  obtain ⟨first, hfirst, hitem⟩ := head_of_readAs hread
  refine same_of_revision ((h.chain.imp fun _ _ hstep => hstep.revises).drop _) ?_ hfirst
    (last_of_readAs hread) ?_
  · intro table htable
    rw [resultView, Option.isSome_map]
    exact hthere table htable
  · simp [resultView, hitem, hnow, hrevision]

/-- What a write is conditioned on. -/
theorem matchVerification_cases {current found : Option VerificationItem}
    (h : matchVerification current found = true) :
    (current = none ∧ found = none) ∨
      ∃ item now, current = some item ∧ found = some now ∧ now.revision = item.revision := by
  cases current with
  | none => exact .inl ⟨rfl, Option.isNone_iff_eq_none.mp h⟩
  | some item =>
    cases found with
    | none => cases h
    | some now => exact .inr ⟨item, now, rfl, rfl, of_decide_eq_true h⟩

/-- The write finds what it was made for. -/
theorem found_as_read
    (h : Recorded (ResultsWell sessionId finalizationId) (ResultsFollow sessionId finalizationId) s)
    {current : Option VerificationItem} (hread : OpenAsRead sessionId finalizationId c current s)
    (hcondition : matchVerification current (s.table.lookup (.verification sessionId finalizationId)) =
      true)
    (hthere : ∀ item, s.table.lookup (.verification sessionId finalizationId) = some item →
      ThereSince s c (.verification sessionId finalizationId)) :
    s.table.lookup (.verification sessionId finalizationId) = current ∧
      (∀ item, current = some item → item.record.isTerminal = false) ∧
      (∀ item, current = some item →
        ∀ table ∈ s.tables.drop (s.readAt c (.verification sessionId finalizationId)),
          resultView sessionId finalizationId table = resultView sessionId finalizationId s.table) := by
  rcases matchVerification_cases hcondition with ⟨rfl, hnone⟩ | ⟨item, now, rfl, hnow, hrevision⟩
  · exact ⟨hnone, by rintro _ ⟨⟩, by rintro _ ⟨⟩⟩
  · obtain ⟨hitem, hopen⟩ := hread item rfl
    have hview := view_since h (hthere now hnow) hitem hnow hrevision
    obtain ⟨first, hfirst, hlookup⟩ := head_of_readAs hitem
    have hsame := hview first (List.mem_of_head? hfirst)
    simp only [resultView, hlookup, hnow, Option.map_some, Option.some.injEq, Prod.mk.injEq] at hsame
    refine ⟨by rw [hnow, hsame.2.1], ?_, ?_⟩
    · rintro _ ⟨⟩
      exact hopen
    · rintro _ ⟨⟩
      exact hview

/-- A write on what was read, of a record that may be saved beside what is saved after it. -/
theorem follow_of_write {record : VerificationResultRecord} {current : Option VerificationItem}
    {expiresAt : ℕ} {table table' : AList (Item U)}
    (hfound : table.lookup (.verification sessionId finalizationId) = current)
    (hcurrent : ∀ item, current = some item → item.record.isTerminal = false)
    (hput : table'.lookup (.verification sessionId finalizationId) =
      some (nextVerificationItem record current expiresAt))
    (hended : record.isTerminal = true →
      table'.lookup (.verificationRollback sessionId finalizationId) = none)
    (hsaved : ∀ rollback, table'.lookup (.verificationRollback sessionId finalizationId) =
      some rollback →
      ∀ record, rollback.record = some record → record.isTerminal = false) :
    ResultsWell sessionId finalizationId table' ∧
      ResultsFollow sessionId finalizationId table table' := by
  refine follow_of_put ⟨fun _ _ => ⟨_, hput⟩, ?_, hsaved⟩ hput ?_
  · intro item hitem hterminal
    obtain rfl := Option.some.inj (hput.symm.trans hitem)
    exact hended hterminal
  · intro before hbefore
    obtain rfl := hfound.symm.trans hbefore
    exact ⟨hcurrent before rfl, Nat.lt_succ_self _⟩

theorem follow_of_start {record : VerificationResultRecord} {current : Option VerificationItem}
    {expiresAt : ℕ} {extraItems : List (TransactItem (Item U))} {table : AList (Item U)}
    (hwell : ResultsWell sessionId finalizationId table) (hopen : record.isTerminal = false)
    (hextra : extraItems = [] ∨
      ∃ expiresAt, extraItems = [putRollback sessionId finalizationId current expiresAt])
    (hkeys : (keysOf (putVerification sessionId finalizationId record current expiresAt ::
      extraItems)).Nodup)
    (hfound : table.lookup (.verification sessionId finalizationId) = current)
    (hcurrent : ∀ item, current = some item → item.record.isTerminal = false) :
    ResultsWell sessionId finalizationId
        (commit (putVerification sessionId finalizationId record current expiresAt :: extraItems)
          table) ∧
      ResultsFollow sessionId finalizationId table
        (commit (putVerification sessionId finalizationId record current expiresAt :: extraItems)
          table) := by
  have hput := lookup_commit_of_mem hkeys List.mem_cons_self table
  refine follow_of_write hfound hcurrent hput ?_ ?_
  · intro hterminal
    cases hopen.symm.trans hterminal
  · rcases hextra with rfl | ⟨savedExpiresAt, rfl⟩
    · rw [lookup_commit_of_not_mem (by simp [putVerification, putItem])]
      exact hwell.saved
    · intro rollback hrollback saved hsaved
      have hrollback' := lookup_commit_of_mem hkeys (List.mem_cons_of_mem _ List.mem_cons_self) table
      obtain rfl := Option.some.inj (hrollback'.symm.trans hrollback)
      obtain ⟨item, hitem, rfl⟩ := Option.map_eq_some_iff.mp hsaved
      exact hcurrent item hitem

/-- After a completion nothing is saved. -/
theorem follow_of_complete {record : VerificationResultRecord} {current : Option VerificationItem}
    {expiresAt : ℕ} {extraItems : List (TransactItem (Item U))} {table : AList (Item U)}
    (hextra : extraItems = [] ∧ table.lookup (.verificationRollback sessionId finalizationId) = none ∨
      extraItems = [deleteRollback sessionId finalizationId])
    (hkeys : (keysOf (putVerification sessionId finalizationId record current expiresAt ::
      extraItems)).Nodup)
    (hfound : table.lookup (.verification sessionId finalizationId) = current)
    (hcurrent : ∀ item, current = some item → item.record.isTerminal = false) :
    ResultsWell sessionId finalizationId
        (commit (putVerification sessionId finalizationId record current expiresAt :: extraItems)
          table) ∧
      ResultsFollow sessionId finalizationId table
        (commit (putVerification sessionId finalizationId record current expiresAt :: extraItems)
          table) := by
  have hput := lookup_commit_of_mem hkeys List.mem_cons_self table
  have hnothing :
      (commit (putVerification sessionId finalizationId record current expiresAt :: extraItems)
        table).lookup
      (.verificationRollback sessionId finalizationId) = none := by
    rcases hextra with ⟨rfl, hnone⟩ | rfl
    · rw [lookup_commit_of_not_mem (by simp [putVerification, putItem]), hnone]
    · exact lookup_commit_of_mem hkeys (List.mem_cons_of_mem _ List.mem_cons_self) table
  refine follow_of_write hfound hcurrent hput (fun _ => hnothing) ?_
  rw [hnothing]
  rintro _ ⟨⟩

/-- Both transactions of a rollback take what is saved, so the result is open. -/
theorem follow_of_rollback {mutation : TransactItem (Item U)} {table : AList (Item U)}
    (hwell : ResultsWell sessionId finalizationId table)
    (hmutation : (∃ record current expiresAt, record.isTerminal = false ∧
        mutation = putVerification sessionId finalizationId record current expiresAt) ∨
      ∃ condition, mutation = deleteItem (.verification sessionId finalizationId) condition)
    (hkeys : (keysOf [mutation, takeRollback sessionId finalizationId]).Nodup)
    (hconditions : conditionsHold [mutation, takeRollback sessionId finalizationId] table = true) :
    ResultsWell sessionId finalizationId
      (commit [mutation, takeRollback sessionId finalizationId] table) ∧
      ResultsFollow sessionId finalizationId table
        (commit [mutation, takeRollback sessionId finalizationId] table) := by
  have htake := condition_of_mem hconditions (List.mem_cons_of_mem _ List.mem_cons_self)
  obtain ⟨rollback, hrollback⟩ := Option.isSome_iff_exists.mp htake
  obtain ⟨now, hnow⟩ := hwell.covered rollback hrollback
  have hnothing := lookup_commit_of_mem hkeys (List.mem_cons_of_mem _ List.mem_cons_self) table
  have hresult := lookup_commit_of_mem hkeys List.mem_cons_self table
  rcases hmutation with ⟨record, current, expiresAt, hopen, rfl⟩ | ⟨condition, rfl⟩
  · refine follow_of_put ⟨fun _ _ => ⟨_, hresult⟩, fun _ _ _ => hnothing, ?_⟩ hresult ?_
    · intro rollback' hrollback'
      cases hrollback'.symm.trans hnothing
    · intro before hbefore
      refine ⟨hwell.isOpen hrollback hbefore, ?_⟩
      rcases matchVerification_cases (condition_of_mem hconditions List.mem_cons_self) with
        ⟨-, hnone⟩ | ⟨item, now', rfl, hnow', hrevision⟩
      · cases hnow.symm.trans hnone
      · obtain rfl := Option.some.inj (hnow'.symm.trans hbefore)
        exact hrevision ▸ Nat.lt_succ_self _
  · refine follow_of_delete hresult hnothing ?_
    intro before hbefore
    exact hwell.isOpen hrollback hbefore

/-- STEP: every transaction keeps the tables in order, if no write goes through on
    an item that was removed. -/
theorem follow_of_issued {operation : Operation} {items : List (TransactItem (Item U))}
    (h : Recorded (ResultsWell sessionId finalizationId) (ResultsFollow sessionId finalizationId) s)
    (hissued : ResultsIssued sessionId finalizationId c operation items s) (hkeys : (keysOf items).Nodup)
    (hconditions : conditionsHold items s.table = true)
    (hthere : operation = .writeVerification →
      ∀ item, s.table.lookup (.verification sessionId finalizationId) = some item →
      ThereSince s c (.verification sessionId finalizationId)) :
    ResultsWell sessionId finalizationId (commit items s.table) ∧
      ResultsFollow sessionId finalizationId s.table (commit items s.table) := by
  have hwell := h.wellFormed s.table (mem_tables s)
  cases hissued with
  | apart hresult hrollback =>
    exact follow_of_apart hwell (lookup_commit_of_not_mem hresult _)
      (lookup_commit_of_not_mem hrollback _)
  | start hread hopen hextra =>
    have hcondition := condition_of_mem hconditions List.mem_cons_self
    obtain ⟨hfound, hcurrent, -⟩ := found_as_read h hread hcondition (hthere rfl)
    exact follow_of_start hwell hopen hextra hkeys hfound hcurrent
  | complete hread hextra =>
    have hcondition := condition_of_mem hconditions List.mem_cons_self
    obtain ⟨hfound, hcurrent, hsince⟩ := found_as_read h hread hcondition (hthere rfl)
    refine follow_of_complete (hextra.imp_left ?_) hkeys hfound hcurrent
    rintro ⟨hnone, hsaved⟩
    refine ⟨hnone, ?_⟩
    cases hnow : s.table.lookup (.verification sessionId finalizationId) with
    | none => exact hwell.absent hnow
    | some now =>
      obtain ⟨hsaved, hle⟩ := hsaved now (hfound.symm.trans hnow)
      obtain ⟨table, hmem, hlookup⟩ := mem_of_later_read hsaved hle
      have hview := hsince now (hfound.symm.trans hnow) table hmem
      obtain ⟨item, hitem⟩ := Option.isSome_iff_exists.mp (hthere rfl now hnow table hmem)
      simp only [resultView, hitem, hnow, hlookup, Option.map_some, Option.some.injEq,
        Prod.mk.injEq] at hview
      exact hview.2.2.symm
  | restore hseen hrecord =>
    obtain ⟨table, hmem, hlookup⟩ := hseen
    refine follow_of_rollback hwell (.inl ⟨_, _, _, ?_, rfl⟩) hkeys hconditions
    exact (h.wellFormed table hmem).saved _ hlookup _ hrecord
  | remove => exact follow_of_rollback hwell (.inr ⟨_, rfl⟩) hkeys hconditions

end Transactions

/-! ### Workers -/

section Workers

variable [DecidableEq ι] {guard : Guard ι U} {inv : SharedTable ι U → Prop} {s : SharedTable ι U} {c : ι}
  (h : Keeps guard (ResultsIssued sessionId finalizationId) inv) (config : StoreConfig)

omit [DecidableEq ι] in
theorem touch_apart (owner : JsString) (authority : SessionTtlAuthority) (lastActivityMs : ℕ)
    (s : SharedTable ι U) :
    ResultsIssued sessionId finalizationId c (.touch authority.liveExpiresAt)
      (touchItems owner authority lastActivityMs) s := by
  refine .apart ?_ ?_
  · simp [touchItems, buildSessionTtlUpdates, updateIdentityTtl, updateVoteTtl, updateItem, putItem]
  · simp [touchItems, buildSessionTtlUpdates, updateIdentityTtl, updateVoteTtl, updateItem, putItem]

include h

theorem safe_touchAfterResult :
    CallSafe guard inv c (fun _ _ => True) (touchSessionAfterCommit config sessionId) s :=
  safe_touchSessionAfterCommit h config sessionId fun authority lastActivityMs s _ =>
    touch_apart sessionId authority lastActivityMs s

theorem safe_requireSucceededFinalization :
    CallSafe guard inv c (fun _ _ => True)
      (requireSucceededFinalization sessionId finalizationId) s := by
  have hrecord :
      CallSafe guard inv c (fun _ _ => True) (getFinalizationRecord sessionId finalizationId) s := by
    refine safe_seq (safe_getSessionIdentity h sessionId) ?_
    rintro (_ | identity) s₁ -
    · exact safe_pure trivial
    · exact safe_seq (safe_readActive h _ _ _) fun _ _ _ => safe_pure trivial
  refine safe_seq hrecord ?_
  intro record s' _
  split
  · exact safe_pure trivial
  · exact safe_throw

theorem safe_loadVerificationItem :
    CallSafe guard inv c (fun current s' => ∀ item, current = some item →
        ReadAs s' c (.verification sessionId finalizationId) (some item))
      (loadVerificationItem sessionId finalizationId) s := by
  refine safe_weaken ?_ (safe_readActive h (.verification sessionId finalizationId) _ _)
  rintro current s' ⟨hfound, -⟩ item hitem
  obtain ⟨raw, hread, hparse⟩ := hfound item hitem
  obtain ⟨-, rfl⟩ := accept_eq_some.mp hparse
  exact hread

/-- The transaction is ready, whenever the item is to expire. -/
theorem safe_buildExtraWrites {mode : VerificationWriteMode} (record : VerificationResultRecord)
    {current : Option VerificationItem} (hread : OpenAsRead sessionId finalizationId c current s)
    (hstart : mode = .start → record.isTerminal = false) :
    CallSafe guard inv c
        (fun extraItems s' => ∀ expiresAt, ResultsIssued sessionId finalizationId c .writeVerification
        (putVerification sessionId finalizationId record current expiresAt :: extraItems) s')
      (buildExtraWrites config sessionId finalizationId mode current) s := by
  have hstays : ∀ {keys : List Key} {s' : SharedTable ι U}, Reads c keys s s' →
      Key.verification sessionId finalizationId ∉ keys →
      OpenAsRead sessionId finalizationId c current s' := by
    intro keys s' hreads hkey item hitem
    exact ⟨(hread item hitem).1.reads hreads hkey, (hread item hitem).2⟩
  cases mode with
  | start =>
    refine safe_seq (safe_readItem h (.verificationRollback sessionId finalizationId)) ?_
    rintro (_ | _ | rollbackRaw) s₁ ⟨-, hreads⟩
    · refine safe_seq (safe_artifactExpiresAt h config) ?_
      intro savedExpiresAt s₂ hreads'
      refine safe_pure fun expiresAt => .start ?_ (hstart rfl) (.inr ⟨savedExpiresAt, rfl⟩)
      exact hstays (hreads.trans hreads') (by simp)
    · exact safe_throw
    · dsimp only
      split
      · exact safe_throw
      · exact safe_pure fun expiresAt => .start (hstays hreads (by simp)) (hstart rfl) (.inl rfl)
  | complete =>
    refine safe_seq (safe_getSessionItem h (.verificationRollback sessionId finalizationId)) ?_
    rintro (_ | rollbackRaw) s₁ ⟨hrollback, hreads⟩
    · refine safe_pure fun expiresAt => .complete (hstays hreads (by simp)) (.inl ⟨rfl, ?_⟩)
      intro item hitem
      obtain ⟨table, hat, -⟩ := (hread item hitem).1
      obtain ⟨hlt, -⟩ := List.getElem?_eq_some_iff.mp hat
      simp only [SharedTable.tables, List.length_append, List.length_singleton] at hlt
      have hsince := hreads.since _ (List.mem_singleton_self _)
      refine ⟨hrollback, ?_⟩
      rw [hreads.readAt _ (by simp)]
      omega
    · exact safe_pure fun expiresAt => .complete (hstays hreads (by simp)) (.inr rfl)

theorem safe_putVerificationRecord {record : VerificationResultRecord}
    {current : Option VerificationItem} {extraItems : List (TransactItem (Item U))}
    (hissued : ∀ expiresAt, ResultsIssued sessionId finalizationId c .writeVerification
      (putVerification sessionId finalizationId record current expiresAt :: extraItems) s) :
    CallSafe guard inv c (fun _ _ => True)
      (putVerificationRecord config sessionId finalizationId record current extraItems) s := by
  refine safe_seq (safe_artifactExpiresAt h config) ?_
  intro expiresAt s' hreads
  exact safe_weaken (fun _ _ _ => trivial)
    (safe_writeTransaction h ((hissued expiresAt).later hreads.later))

/-- One round. Only the running result is written by a start. -/
theorem safe_writeVerificationRound {verificationResult : VerificationResult}
    {mode : VerificationWriteMode} (hstart : mode = .start → verificationResult = runningResult)
    (attemptIndex : ℕ) :
    CallSafe guard inv c (fun _ _ => True)
      (writeVerificationRound config sessionId finalizationId verificationResult mode attemptIndex)
      s := by
  refine safe_seq (safe_loadVerificationItem h) ?_
  intro current s₁ hread
  split
  · exact safe_pure trivial
  · rename_i hfilter
    have hopen : OpenAsRead sessionId finalizationId c current s₁ := by
      rintro item rfl
      refine ⟨hread item rfl, ?_⟩
      simpa using hfilter
    have hcreate : CallSafe guard inv c (fun record s' => s' = s₁ ∧
        createVerificationResultRecord sessionId finalizationId verificationResult = .ok record)
        (liftJs (createVerificationResultRecord sessionId finalizationId verificationResult)) s₁ :=
      safe_liftJs fun record hrecord => ⟨rfl, hrecord⟩
    refine safe_seq hcreate ?_
    rintro record _ ⟨rfl, hrecord⟩
    refine safe_seq (safe_buildExtraWrites h config record hopen ?_) ?_
    · intro hmode
      obtain ⟨-, rfl⟩ := createVerificationResultRecord_eq_ok hrecord
      rw [hstart hmode]
      rfl
    · intro extraItems s₂ hissued
      refine safe_seq (safe_catchConflict (safe_putVerificationRecord h config hissued)) ?_
      rintro (_ | _) s₃ -
      · exact safe_pure trivial
      · exact safe_seq (safe_touchAfterResult h config) fun _ _ _ => safe_pure trivial

theorem safe_writeVerificationResult {verificationResult : VerificationResult}
    {mode : VerificationWriteMode} (hstart : mode = .start → verificationResult = runningResult) :
    CallSafe guard inv c (fun _ _ => True)
      (writeVerificationResult config sessionId finalizationId verificationResult mode) s := by
  refine safe_seq (safe_requireSucceededFinalization h) ?_
  intro _ s₁ _
  refine @safe_retrying _ _ _ _ _ _ _ _ (fun _ _ => True) _ _ (fun _ => True) ?_ _ trivial
  intro index s _
  exact safe_weaken (fun _ _ _ => ⟨trivial, fun _ _ => trivial⟩)
    (safe_writeVerificationRound h config hstart index)

theorem safe_rollbackVerificationResult :
    CallSafe guard inv c (fun _ _ => True)
      (rollbackVerificationResult config sessionId finalizationId) s := by
  refine safe_seq (safe_requireSucceededFinalization h) ?_
  intro _ s₁ _
  refine safe_seq (safe_loadVerificationItem h) ?_
  intro current s₂ _
  refine safe_seq (safe_readItem h (.verificationRollback sessionId finalizationId)) ?_
  rintro (_ | _ | rollbackRaw) s₃ ⟨hrollback, -⟩
  · exact safe_pure trivial
  · exact safe_pure trivial
  · dsimp only
    split
    · exact safe_throw
    · rename_i rollback hparse
      obtain ⟨-, rfl⟩ := accept_eq_some.mp hparse
      have hmutation : CallSafe guard inv c (fun mutation s' => ResultsIssued sessionId finalizationId c
          .rollbackVerification [mutation, takeRollback sessionId finalizationId] s')
          (rollbackMutation config sessionId finalizationId rollbackRaw.record current) s₃ := by
        cases hrecord : rollbackRaw.record with
        | none => exact safe_pure .remove
        | some record =>
          refine safe_seq (safe_artifactExpiresAt h config) ?_
          intro expiresAt s₄ hreads
          exact safe_pure (.restore (hrollback.seen.later hreads.toGrows) hrecord)
      refine safe_seq hmutation ?_
      intro mutation s₄ hissued
      refine safe_seq (safe_writeTransaction h hissued) ?_
      intro _ s₅ _
      exact safe_touchAfterResult h config

theorem safe_verificationCall (call : VerificationCall) :
    CallSafe guard inv c (fun _ _ => True)
      (verificationCall config sessionId finalizationId call) s := by
  cases call with
  | markVerificationRunning =>
    exact safe_seq (safe_writeVerificationResult h config fun _ => rfl) fun _ _ _ => safe_pure trivial
  | completeVerificationResult verificationResult =>
    exact safe_seq (safe_writeVerificationResult h config (by rintro ⟨⟩)) fun _ _ _ => safe_pure trivial
  | rollbackVerificationResult =>
    exact safe_seq (safe_rollbackVerificationResult h config) fun _ _ _ => safe_pure trivial
  | getVerificationResultRecord =>
    refine safe_seq (safe_requireIdentity h sessionId) ?_
    intro _ s₁ _
    exact safe_seq (safe_loadVerificationItem h) fun _ _ _ => safe_pure trivial

theorem safe_verificationCalls (calls : List VerificationCall) :
    Safe (serveGuarded guard) inv Later c (fun _ _ => True)
      (verificationCalls config sessionId finalizationId calls) s := by
  induction calls generalizing s with
  | nil => trivial
  | cons call calls ih =>
    refine safe_bind (safe_program (safe_verificationCall h config call)) ?_
    intro answer s₁ _
    exact safe_bind ih fun _ _ _ => trivial

end Workers

/-! ### Runs -/

section Runs

variable [DecidableEq ι]

/-- The transaction of a write, if the request is one. -/
def verificationWrite : TableRequest U → Option (List (TransactItem (Item U)))
  | .transactWrite .writeVerification items => some items
  | _ => none

variable (sessionId finalizationId) in
/-- Nothing is removed, and no result is written on an item that was removed since it was read. -/
def WithoutRecreation (c : ι) (choice : Choice) (r : TableRequest U) (s : SharedTable ι U) : Prop :=
  choice.removed = [] ∧ ∀ items ∈ verificationWrite r, GoesThrough choice items s →
    (s.table.lookup (.verification sessionId finalizationId)).isSome = true →
    ThereSince s c (.verification sessionId finalizationId)

instance (c : ι) (choice : Choice) (r : TableRequest U) (s : SharedTable ι U) :
    Decidable (WithoutRecreation sessionId finalizationId c choice r s) :=
  inferInstanceAs (Decidable (_ ∧ ∀ items ∈ verificationWrite r, _ → _ → ∀ table ∈ s.tables.drop _, _))

variable (sessionId finalizationId) in
/-- A finished result stays in all later tables, and nothing is saved beside one. -/
structure ResultsSticky (s : SharedTable ι U) : Prop where
  kept : s.tables.Pairwise (KeepsEnded sessionId finalizationId)
  nothingSaved :
    ∀ table ∈ s.tables, ∀ item, table.lookup (.verification sessionId finalizationId) = some item →
    item.record.isTerminal = true → table.lookup (.verificationRollback sessionId finalizationId) = none

variable (sessionId finalizationId) in
/-- The workers at the start. -/
def verificationSystem (config : StoreConfig) (workers : ι → List VerificationCall)
    (table : AList (Item U)) (clockMs : ℕ) :
      Concurrent ι (SharedTable ι U) (TableRequest U) TableRequest.Answer
      (List (Except StoreError (Option VerificationResultRecord))) :=
  ⟨⟨table, clockMs, [], fun _ _ => 0⟩,
    fun c => verificationCalls config sessionId finalizationId (workers c)⟩

instance keepsEnded_trans : Trans (KeepsEnded (U := U) sessionId finalizationId)
    (KeepsEnded sessionId finalizationId) (KeepsEnded sessionId finalizationId) where
  trans h h' item hitem hterminal := h' item (h item hitem hterminal) hterminal

theorem keeps_results :
    Keeps (WithoutRecreation sessionId finalizationId) (ResultsIssued (ι := ι) sessionId finalizationId)
    (Recorded (ResultsWell (U := U) sessionId finalizationId)
      (ResultsFollow sessionId finalizationId)) := by
  refine keeps_recorded ?_ ?_ ?_
  · intro c choice r s hguard
    exact hguard.1
  · intro c choice operation items s hguard hissued hthrough h
    refine follow_of_issued h hissued hthrough.2.1 hthrough.2.2 ?_
    rintro rfl item hitem
    obtain ⟨htable, hpast⟩ := tables_prepare_of_kept hguard.1 s
    rw [htable] at hitem
    have hthere := hguard.2 items rfl hthrough (by rw [hitem]; rfl)
    rw [ThereSince, SharedTable.tables, htable, hpast, readAt_prepare]
    exact hthere
  · intro c operation items s s' hlater hissued
    exact hissued.later hlater

/-- SAFETY: in every run of any workers, results are sticky as long as none is written on an item that
    was removed since it was read. -/
theorem verification_sticky_without_recreation (config : StoreConfig)
    (workers : ι → List VerificationCall) {table : AList (Item U)}
    (hsaved : table.lookup (.verificationRollback sessionId finalizationId) = none) (clockMs : ℕ)
    {schedule : List (ι × Choice)} (hmeets : Meets (WithoutRecreation sessionId finalizationId) serve
      (verificationSystem sessionId finalizationId config workers table clockMs) schedule) :
    ResultsSticky sessionId finalizationId
      (runSchedule serve (verificationSystem sessionId finalizationId config workers table clockMs)
        schedule).shared := by
  have hwell : ResultsWell sessionId finalizationId table := by
    refine ⟨?_, fun _ _ _ => hsaved, ?_⟩
    · rw [hsaved]
      rintro _ ⟨⟩
    · rw [hsaved]
      rintro _ ⟨⟩
  have hrun := inv_of_run (Recorded.initial hwell clockMs _)
    (fun c => safe_verificationCalls keeps_results config (workers c)) hmeets
  exact ⟨(hrun.chain.imp fun _ _ hstep => hstep.kept).pairwise,
    fun table htable => (hrun.wellFormed table htable).ended⟩

end Runs

/-! ### A run that loses a result -/

/-- A session with a success, without a verification result. -/
def sampleTable : AList (Item Unit) :=
  let session := commit (createSessionItems sampleSession 7200) ∅
  match encodeFinalizationRecord (sampleSuccess (.ofNat 3)).toRecord with
  | none => session
  | some stored => (session.insert (.currentFinalization (js "s")) ⟨⟨js "f", 1⟩, 7200⟩).insert
      (.finalization (js "s") (js "f")) ⟨⟨stored, 1⟩, 7200⟩

/-- Two starts, a rollback and a completion. -/
def sampleWorkers : ℕ → List VerificationCall
  | 0 | 1 => [.markVerificationRunning]
  | 2 => [.rollbackVerificationResult]
  | _ => [.completeVerificationResult { status := .success }]

/-- The worker's next requests are served, one after the other. -/
def served {ι : Type} (c : ι) (requests : ℕ) : List (ι × Choice) :=
  List.replicate requests (c, ⟨0, [], .served, 0⟩)

/-- A start, a rollback and a completion in turn. -/
theorem verification_sticky_on_sample :
    ResultsSticky (js "s") (js "f") (runSchedule serve
      (verificationSystem (js "s") (js "f") sampleStore sampleWorkers sampleTable 0)
      (served 0 18 ++ served 2 18 ++ served 3 17)).shared :=
  verification_sticky_without_recreation sampleStore sampleWorkers (by decide +kernel) 0
    (by decide +kernel)

/-- The second start reads the first one's result, and its transaction comes last. -/
def staleRun : SharedTable ℕ Unit :=
  (runSchedule serve (verificationSystem (js "s") (js "f") sampleStore sampleWorkers sampleTable 0)
    (served 0 9 ++ served 1 9 ++ served 2 9 ++ served 3 8 ++ served 1 1)).shared

theorem stale_start_overwrites_a_finished_verification :
    ¬ (∀ (sessionId finalizationId : JsString) (config : StoreConfig)
        (workers : ℕ → List VerificationCall)
        (table : AList (Item Unit)) (clockMs : ℕ) (schedule : List (ℕ × Choice)),
      table.lookup (.verificationRollback sessionId finalizationId) = none →
      (∀ turn ∈ schedule, turn.2.removed = []) →
      ResultsSticky sessionId finalizationId (runSchedule serve
        (verificationSystem sessionId finalizationId config workers table clockMs)
        schedule).shared) := by
  intro h
  have hsticky : ResultsSticky (js "s") (js "f") staleRun :=
    h (js "s") (js "f") sampleStore sampleWorkers sampleTable 0
      (served 0 9 ++ served 1 9 ++ served 2 9 ++ served 3 8 ++ served 1 1) (by decide)
      (by decide)
  have hlost : ∃ table ∈ staleRun.past, ∃ item ∈ table.lookup (.verification (js "s") (js "f")),
      item.record.isTerminal = true ∧
      staleRun.table.lookup (.verification (js "s") (js "f")) ≠ some item := by
    decide +kernel
  obtain ⟨table, htable, item, hitem, hterminal, hchanged⟩ := hlost
  exact hchanged
    ((List.pairwise_append.mp hsticky.kept).2.2 table htable _ List.mem_cons_self item hitem hterminal)

end StarkBallot.AwsAdapters.Dynamo
