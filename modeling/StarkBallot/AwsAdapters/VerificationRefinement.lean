import StarkBallot.AwsAdapters.TableAlone
import StarkBallot.AwsAdapters.VerificationProtocol
import StarkBallot.AwsAdapters.VerificationSafety

/-! The mapped store and the table beside each other, on one successful finalization. The calls of the
    table, one at a time, follow the protocol of verification results; the mapped store follows it
    exactly as long as all its rollbacks are safe.

        table      verificationCall ──▶ answer, items
                        ‖ simulates
        protocol   call             ──▶ answer, entries
                        ‖ while rollbacks are safe
        mapped     call             ──▶ answer, entries

    An activity is recorded after every write; it touches the session only, so it keeps what the table
    holds of the verification (`HoldsVerification`), whether it succeeds or not. -/

namespace StarkBallot.AwsAdapters.Dynamo
open Schemes Domain Application Mapped

variable {U : Type}

section Holds

variable (finalization : SucceededFinalization)

/-- The session and its success are found in the table, and beside them what the protocol holds. -/
structure HoldsVerification (entries : VerificationEntries) (table : AList (Item U)) : Prop where
  identity : (table.lookup (.identity finalization.sessionId)).any (fun item : IdentityItem =>
    (parseSessionIdentityRecord item.identity).isSome &&
      item.identity.sessionId = finalization.sessionId) = true
  succeeded : ((table.lookup (.finalization finalization.sessionId finalization.finalizationId)).bind
    fun item : PersistedFinalizationItem U => AwsAdapters.parseFinalizationItem finalization.sessionId
      finalization.finalizationId item.toFinalizationItemOf).any
    (fun item => isSuccessfulFinalizationRecord item.record) = true
  result : (table.lookup (.verification finalization.sessionId finalization.finalizationId)).map
    (·.record) = entries.verificationResultRecord
  revised : ∀ item,
    table.lookup (.verification finalization.sessionId finalization.finalizationId) = some item →
    0 < item.revision
  saved : (table.lookup (.verificationRollback finalization.sessionId finalization.finalizationId)).map
    (·.record) = entries.verificationRollbackSnapshot
  owned : ∀ record, entries.verificationResultRecord = some record → IsOwn finalization record
  savedOwned : ∀ record, entries.verificationRollbackSnapshot = some (some record) →
    IsOwn finalization record

variable {finalization} {entries : VerificationEntries} {s s' : SharedTable Unit U}

theorem parseOwn_of_isOwn {record : VerificationResultRecord} (h : IsOwn finalization record) :
    (parseOwnVerificationRecord finalization.sessionId finalization.finalizationId record).isSome =
      true := by
  obtain ⟨hparse, hsession, hid⟩ := h
  have hown :
      parseOwnVerificationRecord finalization.sessionId finalization.finalizationId record =
        some record :=
    accept_eq_some.mpr ⟨by simp [hparse, hsession, hid], rfl⟩
  rw [hown]
  rfl

/-! ### Reading -/

/-- The items are read as they are. -/
theorem ends_loadVerificationItem (h : HoldsVerification finalization entries s.table)
    (hhealthy : Healthy s) :
    CallEnds (Returns fun current s' =>
        current = s.table.lookup (.verification finalization.sessionId finalization.finalizationId) ∧
          Read s s')
      (loadVerificationItem finalization.sessionId finalization.finalizationId) s := by
  refine ends_readActive _ ?_
  cases hitem : s.table.lookup (.verification finalization.sessionId finalization.finalizationId) with
  | none => rfl
  | some item =>
    have hsafe := (healthy_item hhealthy hitem).2
    have hrecord : entries.verificationResultRecord = some item.record := by rw [← h.result, hitem]; rfl
    simp only [isSafeItem, Bool.and_eq_true] at hsafe
    have hparse :
        parseVerificationItem finalization.sessionId finalization.finalizationId item = some item := by
      refine accept_eq_some.mpr ⟨?_, rfl⟩
      have hpositive : isPositiveSafeInteger item.revision = true := by
        rw [isPositiveSafeInteger, Bool.and_eq_true]
        exact ⟨hsafe.1, decide_eq_true (h.revised item hitem)⟩
      rw [hpositive, hsafe.2, parseOwn_of_isOwn (h.owned _ hrecord)]
      rfl
    rw [Option.map_some, hparse, Option.map_some]

theorem ends_identity (h : HoldsVerification finalization entries s.table) (hhealthy : Healthy s) :
    CallEnds (Returns fun identity s' => identity.isSome = true ∧ Read s s')
      (getSessionIdentity finalization.sessionId) s := by
  obtain ⟨item, hitem, hadmitted⟩ := (Option.any_eq_true _ _).mp h.identity
  obtain ⟨hidentity, hsession⟩ := Bool.and_eq_true_iff.mp hadmitted
  have hsafe := (healthy_item hhealthy hitem).2
  have hparse : parseIdentityItem finalization.sessionId item = some item := by
    refine accept_eq_some.mpr ⟨?_, rfl⟩
    have hexpires : isSafe item.expiresAt = true := hsafe
    rw [hexpires, hidentity, hsession]
    rfl
  have hread : CallEnds (Returns fun result s' => result = some item ∧ Read s s')
      (getSessionIdentity finalization.sessionId) s :=
    ends_readActive _ (by rw [hitem, Option.map_some, hparse]; rfl)
  refine ends_mono ?_ hread
  rintro _ s' ⟨result, rfl, rfl, hread⟩
  exact ⟨_, rfl, rfl, hread⟩

theorem HoldsVerification.of_read (h : HoldsVerification finalization entries s.table)
    (hread : Read s s') :
    HoldsVerification finalization entries s'.table := by
  rw [hread.table]
  exact h

theorem ends_requireSucceeded (h : HoldsVerification finalization entries s.table)
    (hhealthy : Healthy s) :
    CallEnds (Returns fun _ s' => Read s s')
      (requireSucceededFinalization finalization.sessionId finalization.finalizationId) s := by
  obtain ⟨parsed, hfound, hsucceeded⟩ := (Option.any_eq_true _ _).mp h.succeeded
  obtain ⟨item, hitem, hparse⟩ := Option.bind_eq_some_iff.mp hfound
  obtain ⟨successful, hsuccessful⟩ := Option.isSome_iff_exists.mp hsucceeded
  have hrecord : CallEnds (Returns fun record s' => record = some parsed.record ∧ Read s s')
      (getFinalizationRecord finalization.sessionId finalization.finalizationId) s := by
    refine ends_seq (ends_identity h hhealthy) ?_
    rintro identity s₁ ⟨hidentity, hread₁⟩
    obtain ⟨identity, rfl⟩ := Option.isSome_iff_exists.mp hidentity
    have hitem₁ := hread₁.table ▸ hitem
    have hexpires : isSafe item.expiresAt = true := (healthy_item hread₁.healthy hitem₁).2
    have hread : CallEnds (Returns fun result s' => result = some parsed ∧ Read s₁ s')
        (readActive (.finalization finalization.sessionId finalization.finalizationId)
          (parseFinalizationItem finalization.sessionId finalization.finalizationId)
          "Invalid persisted finalization record") s₁ := by
      refine ends_readActive _ ?_
      rw [hitem₁, Option.map_some, parseFinalizationItem, if_neg (not_not.mpr hexpires), hparse]
      rfl
    refine ends_seq hread ?_
    rintro _ s₂ ⟨rfl, hread₂⟩
    exact ends_return ⟨rfl, hread₁.trans hread₂⟩
  refine ends_seq hrecord ?_
  rintro _ s' ⟨rfl, hread⟩
  simp only [Option.bind_some, hsuccessful]
  exact ends_return hread

theorem ends_artifactExpiresAt (config : StoreConfig) :
    CallEnds (Returns fun _ s' => Read s s') (artifactExpiresAt (U := U) config) s := by
  refine ends_seq ends_now ?_
  rintro t s' ⟨-, hread⟩
  exact ends_return hread

/-! ### Activity -/

/-- A touch changes the expiry of the identity, and neither the finalization nor its verification. -/
theorem HoldsVerification.of_touch {table : AList (Item U)}
    (h : HoldsVerification finalization entries table) {authority : SessionTtlAuthority}
    {lastActivityMs : ℕ}
    (hkeys : (keysOf (touchItems (U := U) finalization.sessionId authority lastActivityMs)).Nodup) :
    HoldsVerification finalization entries
      (commit (touchItems finalization.sessionId authority lastActivityMs) table) := by
  have hother : ∀ key : Key, (∀ owner, key ≠ .identity owner) → (∀ owner, key ≠ .voting owner) →
      (∀ owner index, key ≠ .vote owner index) →
      (commit (touchItems finalization.sessionId authority lastActivityMs) table).lookup key =
        table.lookup key := by
    intro key hidentity hvoting hvote
    refine lookup_commit_of_not_mem ?_ table
    simp only [touchItems, buildSessionTtlUpdates, updateIdentityTtl, updateItem, putItem, keysOf,
      List.map_append, List.map_cons, List.map_map, List.map_nil, List.mem_append, List.mem_cons,
      List.mem_map, List.not_mem_nil, or_false, not_or, not_exists, not_and]
    refine ⟨⟨hidentity _, ?_⟩, hvoting _⟩
    intro vote _ heq
    exact hvote _ _ heq.symm
  refine ⟨?_, ?_, ?_, ?_, ?_, h.owned, h.savedOwned⟩
  · have hlookup := lookup_commit_of_mem hkeys (List.mem_append_left _ List.mem_cons_self) table
    obtain ⟨item, hitem, hadmitted⟩ := (Option.any_eq_true _ _).mp h.identity
    refine (Option.any_eq_true _ _).mpr ⟨{ item with expiresAt := authority.expiresAt }, ?_, hadmitted⟩
    refine hlookup.trans ?_
    simp only [updateIdentityTtl, updateItem, hitem, Option.map_some]
  · rw [hother _ (by rintro _ ⟨⟩) (by rintro _ ⟨⟩) (by rintro _ _ ⟨⟩)]
    exact h.succeeded
  · rw [hother _ (by rintro _ ⟨⟩) (by rintro _ ⟨⟩) (by rintro _ _ ⟨⟩), h.result]
  · rw [hother _ (by rintro _ ⟨⟩) (by rintro _ ⟨⟩) (by rintro _ _ ⟨⟩)]
    exact h.revised
  · rw [hother _ (by rintro _ ⟨⟩) (by rintro _ ⟨⟩) (by rintro _ _ ⟨⟩), h.saved]

/-- The transactions of a touch. -/
def TouchIssued (sessionId : JsString) : Issued Unit U := fun _ _ items _ =>
  ∃ authority lastActivityMs, items = touchItems sessionId authority lastActivityMs

theorem keeps_holdsVerification :
    Keeps (fun _ choice _ _ => choice.removed = []) (TouchIssued finalization.sessionId)
    (fun s : SharedTable Unit U => HoldsVerification finalization entries s.table) := by
  refine keeps_table (fun _ _ _ _ hkept => hkept) ?_ (fun _ _ _ _ _ _ hissued => hissued)
  rintro c operation _ s ⟨authority, lastActivityMs, rfl⟩ hkeys - h
  exact h.of_touch hkeys

theorem ends_touchSession (config : StoreConfig) (h : HoldsVerification finalization entries s.table) :
    CallEnds (fun _ s' => HoldsVerification finalization entries s'.table)
      (touchSession config finalization.sessionId) s := by
  intro result s' hreaches
  have hserve : ∀ pace (r : TableRequest U) (s : SharedTable Unit U), ∃ choice, serveAlone pace r s =
      serveGuarded (fun _ choice _ _ => choice.removed = []) () choice r s := by
    intro pace r s
    refine ⟨⟨pace.elapsedMs, [], .served, pace.pageSize⟩, ?_⟩
    rw [serveGuarded, guarded, if_pos rfl]
    rfl
  have hkeeps : Keeps (fun _ choice _ _ => choice.removed = []) (TouchIssued finalization.sessionId)
      (fun s : SharedTable Unit U => HoldsVerification finalization entries s.table) :=
      keeps_holdsVerification
  have hsafe := safe_touchSession (s := s) (c := ()) hkeeps config finalization.sessionId
    fun authority lastActivityMs _ _ => ⟨authority, lastActivityMs, rfl⟩
  exact (hreaches.safe hserve (relies_later.refl ()) hsafe h).2

/-- Whether the touch succeeds or not. -/
theorem ends_touchAfterCommit (config : StoreConfig)
    (h : HoldsVerification finalization entries s.table) :
    CallEnds (Returns fun _ s' => HoldsVerification finalization entries s'.table)
      (touchSessionAfterCommit config finalization.sessionId) s := by
  refine ends_seq (ends_attempt (ends_touchSession config h)) ?_
  intro _ s' hholds
  exact ends_return hholds

/-! ### Writing -/

section Writing

variable {current : Option VerificationItem} {table : AList (Item U)}
  {saved : Option (Option VerificationResultRecord)}
  {extraItems : List (TransactItem (Item U))} {record : VerificationResultRecord}

variable (finalization) in
/-- What a transaction does to the rollback item, and what is saved after it. -/
inductive SavesAs (current : Option VerificationItem) (table : AList (Item U)) :
    Option (Option VerificationResultRecord) → List (TransactItem (Item U)) → Prop where
  | kept : SavesAs current table
      ((table.lookup (.verificationRollback finalization.sessionId finalization.finalizationId)).map
        (·.record)) []
  | put (expiresAt : ℕ)
    (habsent : table.lookup (.verificationRollback finalization.sessionId finalization.finalizationId) =
      none) :
    SavesAs current table (some (current.map (·.record)))
      [putRollback finalization.sessionId finalization.finalizationId current expiresAt]
  | deleted :
      SavesAs current table none [deleteRollback finalization.sessionId finalization.finalizationId]
  | taken {item : VerificationRollbackItem}
    (hitem : table.lookup (.verificationRollback finalization.sessionId finalization.finalizationId) =
      some item) :
    SavesAs current table none [takeRollback finalization.sessionId finalization.finalizationId]

variable (finalization) in
/-- A transaction on the result and the rollback item. -/
abbrev resultItems (record : VerificationResultRecord) (current : Option VerificationItem)
    (expiresAt : ℕ) (extraItems : List (TransactItem (Item U))) : List (TransactItem (Item U)) :=
  putVerification finalization.sessionId finalization.finalizationId record current expiresAt ::
    extraItems

theorem SavesAs.keys (h : SavesAs finalization current table saved extraItems)
    (record : VerificationResultRecord) (expiresAt : ℕ) :
    (keysOf (resultItems finalization record current expiresAt extraItems)).Nodup := by
  cases h with
  | kept => simp
  | put => simp [putVerification, putRollback, putItem]
  | deleted => simp [putVerification, deleteRollback, putItem, deleteItem]
  | taken => simp [putVerification, takeRollback, putItem, deleteItem]

theorem SavesAs.apart (h : SavesAs finalization current table saved extraItems)
    {record : VerificationResultRecord} {expiresAt : ℕ} {key : Key}
    (hresult : key ≠ .verification finalization.sessionId finalization.finalizationId)
    (hrollback : key ≠ .verificationRollback finalization.sessionId finalization.finalizationId) :
    key ∉ keysOf (resultItems finalization record current expiresAt extraItems) := by
  cases h with
  | kept => simpa [putVerification, putItem] using hresult
  | put => simpa [putVerification, putRollback, putItem] using ⟨hresult, hrollback⟩
  | deleted => simpa [putVerification, deleteRollback, putItem, deleteItem] using ⟨hresult, hrollback⟩
  | taken => simpa [putVerification, takeRollback, putItem, deleteItem] using ⟨hresult, hrollback⟩

theorem matchVerification_self (current : Option VerificationItem) :
    matchVerification current current = true := by
  cases current with
  | none => rfl
  | some item => exact decide_eq_true rfl

theorem SavesAs.conditions (h : SavesAs finalization current table saved extraItems)
    (hcurrent : current = table.lookup
      (.verification finalization.sessionId finalization.finalizationId))
    (record : VerificationResultRecord) (expiresAt : ℕ) :
    conditionsHold (resultItems finalization record current expiresAt extraItems) table = true := by
  have hresult : matchVerification current
      (table.lookup (.verification finalization.sessionId finalization.finalizationId)) = true := by
    rw [← hcurrent]
    exact matchVerification_self current
  refine List.all_eq_true.mpr ?_
  intro action haction
  rcases List.mem_cons.mp haction with rfl | haction
  · exact hresult
  · cases h with
    | kept => cases haction
    | put expiresAt habsent =>
      obtain rfl := List.mem_singleton.mp haction
      exact Option.isNone_iff_eq_none.mpr habsent
    | deleted =>
      obtain rfl := List.mem_singleton.mp haction
      rfl
    | taken hitem =>
      obtain rfl := List.mem_singleton.mp haction
      exact Option.isSome_iff_exists.mpr ⟨_, hitem⟩

theorem SavesAs.lookup (h : SavesAs finalization current table saved extraItems)
    (record : VerificationResultRecord) (expiresAt : ℕ) :
    ((commit (resultItems finalization record current expiresAt extraItems) table).lookup
      (.verificationRollback finalization.sessionId finalization.finalizationId)).map
        (·.record) = saved := by
  have hkeys := h.keys record expiresAt
  cases h with
  | kept => rw [lookup_commit_of_not_mem (by simp [putVerification, putItem])]
  | put expiresAt habsent =>
    have hlookup := lookup_commit_of_mem hkeys (List.mem_cons_of_mem _ List.mem_cons_self) table
    exact congrArg (Option.map (·.record)) hlookup
  | deleted =>
    have hlookup := lookup_commit_of_mem hkeys (List.mem_cons_of_mem _ List.mem_cons_self) table
    exact congrArg (Option.map (·.record)) hlookup
  | taken hitem =>
    have hlookup := lookup_commit_of_mem hkeys (List.mem_cons_of_mem _ List.mem_cons_self) table
    exact congrArg (Option.map (·.record)) hlookup

theorem HoldsVerification.of_put (h : HoldsVerification finalization entries table)
    (hsaves : SavesAs finalization current table saved extraItems) (hown : IsOwn finalization record)
    (hsavedOwned : ∀ record, saved = some (some record) → IsOwn finalization record) (expiresAt : ℕ) :
    HoldsVerification finalization ⟨some record, saved⟩
      (commit (resultItems finalization record current expiresAt extraItems) table) := by
  have hlookup := lookup_commit_of_mem (hsaves.keys record expiresAt) List.mem_cons_self table
  have hresult := congrArg (Option.map fun item : VerificationItem => item.record) hlookup
  refine ⟨?_, ?_, hresult, ?_, hsaves.lookup record expiresAt, ?_, hsavedOwned⟩
  · rw [lookup_commit_of_not_mem (hsaves.apart (by rintro ⟨⟩) (by rintro ⟨⟩))]
    exact h.identity
  · rw [lookup_commit_of_not_mem (hsaves.apart (by rintro ⟨⟩) (by rintro ⟨⟩))]
    exact h.succeeded
  · intro item hitem
    obtain rfl := Option.some.inj (hlookup.symm.trans hitem)
    exact Nat.succ_pos _
  · rintro _ ⟨⟩
    exact hown

theorem ends_putVerificationRecord (config : StoreConfig)
    (h : HoldsVerification finalization entries s.table)
    (hsaves : SavesAs finalization current s.table saved extraItems)
    (hcurrent : current = s.table.lookup
      (.verification finalization.sessionId finalization.finalizationId))
    (hown : IsOwn finalization record)
    (hsavedOwned : ∀ record, saved = some (some record) → IsOwn finalization record) :
    CallEnds (Returns fun _ s' => HoldsVerification finalization ⟨some record, saved⟩ s'.table)
      (putVerificationRecord config finalization.sessionId finalization.finalizationId record
        current extraItems)
      s := by
  refine ends_seq (ends_artifactExpiresAt config) ?_
  intro expiresAt s₁ hread
  have hlength : (resultItems finalization record current expiresAt extraItems).length ≤
      maxDynamodbTransactionItems := by
    cases hsaves <;> simp [maxDynamodbTransactionItems]
  have hwrite := @ends_writeTransaction _ s₁ .writeVerification _ hlength (hsaves.keys record expiresAt)
    (hread.table ▸ hsaves.conditions hcurrent record expiresAt)
  refine ends_mono ?_ hwrite
  rintro _ s₂ ⟨_, rfl, htable, -⟩
  have hput := h.of_put hsaves hown hsavedOwned expiresAt
  rw [← hread.table, ← htable] at hput
  exact ⟨_, rfl, hput⟩

/-- What is saved after a write on an open result. -/
def savedAfter (mode : VerificationWriteMode) (entries : VerificationEntries) :
    Option (Option VerificationResultRecord) :=
  match mode with
  | .start => entries.verificationRollbackSnapshot <|> some entries.verificationResultRecord
  | .complete => none

theorem ends_buildExtraWrites (config : StoreConfig) (mode : VerificationWriteMode)
    (h : HoldsVerification finalization entries s.table) (hhealthy : Healthy s)
    (hcurrent : current = s.table.lookup
      (.verification finalization.sessionId finalization.finalizationId)) :
    CallEnds (Returns fun extraItems s' =>
        SavesAs finalization current s.table (savedAfter mode entries) extraItems ∧ Read s s')
      (buildExtraWrites config finalization.sessionId finalization.finalizationId mode current) s := by
  have hrollback := h.saved
  cases mode with
  | complete =>
    refine ends_seq (ends_getSessionItem _) ?_
    rintro item s₁ ⟨rfl, hread⟩
    cases hitem :
      s.table.lookup (.verificationRollback finalization.sessionId finalization.finalizationId) with
    | none =>
      have hkept : SavesAs finalization current s.table _ [] := .kept
      rw [hitem] at hkept
      exact ends_return ⟨hkept, hread⟩
    | some item => exact ends_return ⟨.deleted, hread⟩
  | start =>
    refine ends_seq (ends_readItem _) ?_
    rintro _ s₁ ⟨rfl, hread⟩
    cases hitem :
      s.table.lookup (.verificationRollback finalization.sessionId finalization.finalizationId) with
    | none =>
      refine ends_seq (ends_artifactExpiresAt config) ?_
      intro expiresAt s₂ hread'
      rw [hitem] at hrollback
      have hsaved : savedAfter .start entries = some (current.map (·.record)) := by
        rw [savedAfter, ← hrollback, hcurrent, h.result]
        rfl
      rw [hsaved]
      exact ends_return ⟨.put expiresAt hitem, hread.trans hread'⟩
    | some item =>
      rw [hitem] at hrollback
      have hexpires : isSafe item.expiresAt = true := (healthy_item hhealthy hitem).2
      have hparse :
          parseRollbackItem finalization.sessionId finalization.finalizationId item = some item := by
        refine accept_eq_some.mpr ⟨?_, rfl⟩
        rw [hexpires, Bool.true_and, Option.all_eq_true]
        intro saved hsaved
        exact parseOwn_of_isOwn (h.savedOwned saved (by rw [← hrollback, Option.map_some, hsaved]))
      simp only [arrived, hparse]
      have hkept : SavesAs finalization current s.table _ [] := .kept
      rw [hitem, hrollback] at hkept
      have hsaved : savedAfter .start entries = entries.verificationRollbackSnapshot := by
        rw [savedAfter, ← hrollback]
        rfl
      rw [hsaved]
      exact ends_return ⟨hkept, hread⟩

end Writing

/-! ### Calls -/

section Calls

variable (config : StoreConfig)

/-- The result of the table is terminal exactly when that of the protocol is. -/
theorem terminal_of_record {current : Option VerificationItem}
    (h : current.map (·.record) = entries.verificationResultRecord) :
    (current.filter (·.record.isTerminal)).map (·.record) = terminal entries := by
  rw [terminal, ← h]
  cases current with
  | none => rfl
  | some item =>
    rw [Option.map_some, Option.filter_some, Option.filter_some]
    split <;> rfl

variable (finalization) in
/-- Both writes of the protocol. -/
def protocolWrite (verificationResult : VerificationResult) (mode : VerificationWriteMode)
    (entries : VerificationEntries) : JsM VerificationResultRecord × VerificationEntries :=
  match terminal entries with
  | some ended => (.ok ended, entries)
  | none =>
    match createVerificationResultRecord finalization.sessionId finalization.finalizationId
        verificationResult with
    | .error e => (.error e, entries)
    | .ok record => (.ok record, ⟨some record, savedAfter mode entries⟩)

theorem start_eq_protocolWrite :
    Protocol.start finalization entries = protocolWrite finalization runningResult .start entries := by
  cases hended : terminal entries <;>
    simp only [Protocol.start, protocolWrite, hended, createVerificationResultRecord_running, savedAfter]

theorem savedAfter_owned (h : HoldsVerification finalization entries s.table)
    (mode : VerificationWriteMode) :
    ∀ record, savedAfter mode entries = some (some record) → IsOwn finalization record := by
  intro record hrecord
  cases mode with
  | complete => cases hrecord
  | start =>
    cases hsaved : entries.verificationRollbackSnapshot with
    | none =>
      rw [savedAfter, hsaved] at hrecord
      exact h.owned record (Option.some.inj hrecord)
    | some saved =>
      rw [savedAfter, hsaved] at hrecord
      exact h.savedOwned record (hsaved.trans hrecord)

/-- A round finds nothing in its way. -/
theorem ends_writeVerificationRound (mode : VerificationWriteMode)
    (verificationResult : VerificationResult) (attemptIndex : ℕ)
    (h : HoldsVerification finalization entries s.table) (hhealthy : Healthy s) :
    CallEnds (fun answer s' =>
        answer = ((protocolWrite finalization verificationResult mode entries).1.mapError .js).map some ∧
          HoldsVerification finalization
            (protocolWrite finalization verificationResult mode entries).2 s'.table)
      (writeVerificationRound config finalization.sessionId finalization.finalizationId
        verificationResult mode attemptIndex) s := by
  refine ends_seq (ends_loadVerificationItem h hhealthy) ?_
  rintro current s₁ ⟨hcurrent, hread₁⟩
  have hrecord := h.result
  rw [← hcurrent] at hrecord
  have hterminal := terminal_of_record hrecord
  cases hended : current.filter (·.record.isTerminal) with
  | some ended =>
    rw [hended] at hterminal
    simp only [protocolWrite, ← hterminal, Option.map_some]
    exact ends_done ⟨rfl, h.of_read hread₁⟩
  | none =>
    rw [hended] at hterminal
    simp only [protocolWrite, ← hterminal, Option.map_none]
    cases hcreate : createVerificationResultRecord finalization.sessionId finalization.finalizationId
        verificationResult with
    | error e => exact ends_done ⟨rfl, h.of_read hread₁⟩
    | ok record =>
      have h₁ := h.of_read hread₁
      have hcurrent₁ := hread₁.table ▸ hcurrent
      have hcreated : CallEnds (Returns fun created s' => record = created ∧ Read s₁ s')
          (liftJs (.ok record)) s₁ := ends_return ⟨rfl, rfl, hread₁.healthy⟩
      refine ends_seq hcreated ?_
      rintro _ s₂ ⟨rfl, hread₂⟩
      have h₂ := h₁.of_read hread₂
      have hcurrent₂ := hread₂.table ▸ hcurrent₁
      refine ends_seq (ends_buildExtraWrites config mode h₂ hread₂.healthy hcurrent₂) ?_
      rintro extraItems s₃ ⟨hsaves, hread₃⟩
      have hput := ends_putVerificationRecord config (h₂.of_read hread₃) (hread₃.table ▸ hsaves)
        (hread₃.table ▸ hcurrent₂) (isOwn_of_create finalization hcreate) (savedAfter_owned h mode)
      have hwritten : CallEnds (Returns fun written s' => written = true ∧
          HoldsVerification finalization ⟨some record, savedAfter mode entries⟩ s'.table)
          (catchConflict attemptIndex
            (putVerificationRecord config finalization.sessionId finalization.finalizationId
            record current extraItems)) s₃ := by
        refine ends_seq (ends_attempt hput) ?_
        rintro _ s₄ ⟨_, rfl, hholds⟩
        exact ends_return ⟨rfl, hholds⟩
      refine ends_seq hwritten ?_
      rintro _ s₄ ⟨rfl, hholds⟩
      refine ends_seq (ends_touchAfterCommit config hholds) ?_
      intro _ s₅ htouched
      exact ends_done ⟨rfl, htouched⟩

/-- WRITE: alone, the table writes as the protocol does. -/
theorem ends_writeVerificationResult (mode : VerificationWriteMode)
    (verificationResult : VerificationResult) (h : HoldsVerification finalization entries s.table)
    (hhealthy : Healthy s) :
    CallEnds (fun answer s' =>
        answer = (protocolWrite finalization verificationResult mode entries).1.mapError .js ∧
          HoldsVerification finalization
            (protocolWrite finalization verificationResult mode entries).2 s'.table)
      (writeVerificationResult config finalization.sessionId finalization.finalizationId
        verificationResult mode) s := by
  refine ends_seq (ends_requireSucceeded h hhealthy) ?_
  intro _ s₁ hread
  refine ends_bind
    (ends_writeVerificationRound config mode verificationResult 0 (h.of_read hread) hread.healthy) ?_
  rintro _ s₂ ⟨rfl, hholds⟩
  cases hanswer : (protocolWrite finalization verificationResult mode entries).1 with
  | error e => exact ends_done ⟨rfl, hholds⟩
  | ok record => exact ends_done ⟨rfl, hholds⟩

variable (finalization) in
/-- A rollback's transaction goes through and leaves what the protocol leaves. -/
structure TakesBack (entries : VerificationEntries) (table : AList (Item U))
    (mutation : TransactItem (Item U)) :
    Prop where
  keys : (keysOf [mutation, takeRollback finalization.sessionId finalization.finalizationId]).Nodup
  conditions :
    conditionsHold [mutation, takeRollback finalization.sessionId finalization.finalizationId]
      table = true
  holds : HoldsVerification finalization (Protocol.rollback entries)
    (commit [mutation, takeRollback finalization.sessionId finalization.finalizationId] table)

theorem takesBack_put {table : AList (Item U)} {current : Option VerificationItem}
    {record : VerificationResultRecord} {item : VerificationRollbackItem}
    (h : HoldsVerification finalization entries table)
    (hcurrent : current = table.lookup
      (.verification finalization.sessionId finalization.finalizationId))
    (hitem : table.lookup (.verificationRollback finalization.sessionId finalization.finalizationId) =
      some item)
    (hrecord : item.record = some record) (expiresAt : ℕ) :
    TakesBack finalization entries table
      (putVerification finalization.sessionId finalization.finalizationId record current expiresAt) := by
  have hsaves : SavesAs finalization current table none _ := .taken hitem
  have hsaved := h.saved
  rw [hitem, Option.map_some, hrecord] at hsaved
  refine ⟨hsaves.keys record expiresAt, hsaves.conditions hcurrent record expiresAt, ?_⟩
  rw [Protocol.rollback, ← hsaved]
  exact h.of_put hsaves (h.savedOwned record hsaved.symm) (by rintro _ ⟨⟩) expiresAt

theorem takesBack_delete {table : AList (Item U)} {current : Option VerificationItem}
    {item : VerificationRollbackItem} (h : HoldsVerification finalization entries table)
    (hcurrent : current = table.lookup
      (.verification finalization.sessionId finalization.finalizationId))
    (hitem : table.lookup (.verificationRollback finalization.sessionId finalization.finalizationId) =
      some item)
    (hrecord : item.record = none) :
    TakesBack finalization entries table
      (deleteItem (.verification finalization.sessionId finalization.finalizationId)
        (matchVerification current)) := by
  have hsaved := h.saved
  rw [hitem, Option.map_some, hrecord] at hsaved
  have hkeys :
      (keysOf [deleteItem (U := U) (.verification finalization.sessionId finalization.finalizationId)
      (matchVerification current),
      takeRollback finalization.sessionId finalization.finalizationId]).Nodup := by
    simp [takeRollback, deleteItem]
  have hother : ∀ key : Key, key ≠ .verification finalization.sessionId finalization.finalizationId →
      key ≠ .verificationRollback finalization.sessionId finalization.finalizationId →
      (commit [deleteItem (.verification finalization.sessionId finalization.finalizationId)
          (matchVerification current),
        takeRollback finalization.sessionId finalization.finalizationId] table).lookup key =
          table.lookup key := by
    intro key hresult hrollback
    refine lookup_commit_of_not_mem ?_ table
    simpa [takeRollback, deleteItem] using ⟨hresult, hrollback⟩
  have hgone := lookup_commit_of_mem hkeys List.mem_cons_self table
  have htaken := lookup_commit_of_mem hkeys (List.mem_cons_of_mem _ List.mem_cons_self) table
  refine ⟨hkeys, ?_, ?_⟩
  · refine List.all_eq_true.mpr ?_
    intro action haction
    rcases List.mem_cons.mp haction with rfl | haction
    · exact (congrArg (matchVerification current) hcurrent.symm).trans (matchVerification_self current)
    · obtain rfl := List.mem_singleton.mp haction
      exact Option.isSome_iff_exists.mpr ⟨item, hitem⟩
  · rw [Protocol.rollback, ← hsaved]
    refine ⟨?_, ?_, ?_, ?_, ?_, by rintro _ ⟨⟩, by rintro _ ⟨⟩⟩
    · rw [hother _ (by rintro ⟨⟩) (by rintro ⟨⟩)]
      exact h.identity
    · rw [hother _ (by rintro ⟨⟩) (by rintro ⟨⟩)]
      exact h.succeeded
    · exact congrArg (Option.map fun item : VerificationItem => item.record) hgone
    · intro item hitem
      cases hgone.symm.trans hitem
    · exact congrArg (Option.map fun item : VerificationRollbackItem => item.record) htaken

theorem ends_rollbackMutation {current : Option VerificationItem} {item : VerificationRollbackItem}
    (h : HoldsVerification finalization entries s.table) (hhealthy : Healthy s)
    (hcurrent : current = s.table.lookup
      (.verification finalization.sessionId finalization.finalizationId))
    (hitem : s.table.lookup (.verificationRollback finalization.sessionId finalization.finalizationId) =
      some item) :
    CallEnds (Returns fun mutation s' => TakesBack finalization entries s.table mutation ∧ Read s s')
      (rollbackMutation config finalization.sessionId finalization.finalizationId item.record current)
      s := by
  cases hrecord : item.record with
  | none => exact ends_return ⟨takesBack_delete h hcurrent hitem hrecord, rfl, hhealthy⟩
  | some record =>
    refine ends_seq (ends_artifactExpiresAt config) ?_
    intro expiresAt s' hread
    exact ends_return ⟨takesBack_put h hcurrent hitem hrecord expiresAt, hread⟩

/-- ROLLBACK: and takes back what the protocol takes back. -/
theorem ends_rollbackVerificationResult (h : HoldsVerification finalization entries s.table)
    (hhealthy : Healthy s) :
    CallEnds (Returns fun _ s' => HoldsVerification finalization (Protocol.rollback entries) s'.table)
      (rollbackVerificationResult config finalization.sessionId finalization.finalizationId) s := by
  refine ends_seq (ends_requireSucceeded h hhealthy) ?_
  intro _ s₁ hread₁
  have h₁ := h.of_read hread₁
  refine ends_seq (ends_loadVerificationItem h₁ hread₁.healthy) ?_
  rintro current s₂ ⟨hcurrent, hread₂⟩
  have h₂ := h₁.of_read hread₂
  refine ends_seq (ends_readItem _) ?_
  rintro _ s₃ ⟨rfl, hread₃⟩
  have h₃ := h₂.of_read hread₃
  have hsaved := h₂.saved
  cases hitem :
    s₂.table.lookup (.verificationRollback finalization.sessionId finalization.finalizationId) with
  | none =>
    rw [hitem] at hsaved
    rw [Protocol.rollback, ← hsaved]
    exact ends_return h₃
  | some item =>
    rw [hitem] at hsaved
    have hexpires : isSafe item.expiresAt = true := (healthy_item hread₂.healthy hitem).2
    have hparse :
        parseRollbackItem finalization.sessionId finalization.finalizationId item = some item := by
      refine accept_eq_some.mpr ⟨?_, rfl⟩
      rw [hexpires, Bool.true_and, Option.all_eq_true]
      intro saved hrecord
      exact parseOwn_of_isOwn (h.savedOwned saved (by rw [← hsaved, Option.map_some, hrecord]))
    simp only [arrived, hparse]
    have hmutation := ends_rollbackMutation config h₃ hread₃.healthy
      (hread₃.table ▸ hread₂.table ▸ hcurrent) (hread₃.table ▸ hitem)
    refine ends_seq hmutation ?_
    rintro mutation s₄ ⟨⟨hkeys, hconditions, hholds⟩, hread₄⟩
    have hlength : [mutation, takeRollback finalization.sessionId finalization.finalizationId].length ≤
        maxDynamodbTransactionItems := by simp [maxDynamodbTransactionItems]
    have hwrite :=
      @ends_writeTransaction _ s₄ .rollbackVerification _ hlength hkeys (hread₄.table ▸ hconditions)
    refine ends_seq hwrite ?_
    rintro _ s₅ ⟨htable, -⟩
    rw [← hread₄.table, ← htable] at hholds
    exact ends_touchAfterCommit config hholds

theorem ends_getVerificationResultRecord (h : HoldsVerification finalization entries s.table)
    (hhealthy : Healthy s) :
    CallEnds (Returns fun record s' => record = entries.verificationResultRecord ∧ Read s s')
      (getVerificationResultRecord finalization.sessionId finalization.finalizationId) s := by
  have hrequired :
      CallEnds (Returns fun _ s' => Read s s') (requireIdentity finalization.sessionId) s := by
    refine ends_seq (ends_identity h hhealthy) ?_
    rintro identity s₁ ⟨hidentity, hread⟩
    obtain ⟨item, rfl⟩ := Option.isSome_iff_exists.mp hidentity
    exact ends_return hread
  refine ends_seq hrequired ?_
  intro _ s₁ hread₁
  refine ends_seq (ends_loadVerificationItem (h.of_read hread₁) hread₁.healthy) ?_
  rintro _ s₂ ⟨rfl, hread₂⟩
  refine ends_return ⟨?_, hread₁.trans hread₂⟩
  rw [hread₁.table]
  exact h.result

/-- SIMULATION: alone, every call on the table answers as the protocol does and leaves
    what the protocol leaves. -/
theorem ends_verificationCall (h : HoldsVerification finalization entries s.table) (hhealthy : Healthy s)
    (c : VerificationCall) :
    CallEnds (fun answer s' => answer = (Protocol.call finalization c entries).1.mapError .js ∧
        HoldsVerification finalization (Protocol.call finalization c entries).2 s'.table)
      (verificationCall config finalization.sessionId finalization.finalizationId c) s := by
  cases c with
  | markVerificationRunning =>
    refine ends_bind (ends_writeVerificationResult config .start runningResult h hhealthy) ?_
    rintro _ s' ⟨rfl, hholds⟩
    simp only [Protocol.call, start_eq_protocolWrite]
    cases hanswer : (protocolWrite finalization runningResult .start entries).1 with
    | error e => exact ends_done ⟨rfl, hholds⟩
    | ok record => exact ends_done ⟨rfl, hholds⟩
  | completeVerificationResult verificationResult =>
    refine ends_bind (ends_writeVerificationResult config .complete verificationResult h hhealthy) ?_
    rintro _ s' ⟨rfl, hholds⟩
    have hsame : Protocol.complete finalization verificationResult entries =
        protocolWrite finalization verificationResult .complete entries := rfl
    simp only [Protocol.call, hsame]
    cases hanswer : (protocolWrite finalization verificationResult .complete entries).1 with
    | error e => exact ends_done ⟨rfl, hholds⟩
    | ok record => exact ends_done ⟨rfl, hholds⟩
  | rollbackVerificationResult =>
    refine ends_seq (ends_rollbackVerificationResult config h hhealthy) ?_
    intro _ s' hholds
    exact ends_done ⟨rfl, hholds⟩
  | getVerificationResultRecord =>
    refine ends_mono ?_ (ends_getVerificationResultRecord h hhealthy)
    rintro _ s' ⟨record, rfl, rfl, hread⟩
    exact ⟨rfl, h.of_read hread⟩

end Calls

/-! ### Runs -/

section Runs

variable (config : StoreConfig) (finalization)

/-- What a call answered, and the record that was stored after it. -/
abbrev Observed : Type :=
  Except StoreError (Option VerificationResultRecord) × Option VerificationResultRecord

def storedRecord (s : SharedTable Unit U) : Option VerificationResultRecord :=
  (s.table.lookup (.verification finalization.sessionId finalization.finalizationId)).map (·.record)

/-- Calls on the table, one after the other, with what is observed of them. -/
inductive TableRuns : List VerificationCall → SharedTable Unit U → List Observed → Prop
  | done (s : SharedTable Unit U) : TableRuns [] s []
  | call {c : VerificationCall} {calls : List VerificationCall} {s s' : SharedTable Unit U}
    {answer : Except StoreError (Option VerificationResultRecord)} {observed : List Observed}
    (hcall : Reaches serveAlone Healthy
      (verificationCall config finalization.sessionId finalization.finalizationId c).run s answer s')
    (hrest : TableRuns calls s' observed) :
    TableRuns (c :: calls) s ((answer, storedRecord finalization s') :: observed)

/-- What is observed of the same calls on a store of entries. -/
def observedOf
    (step : VerificationCall → VerificationEntries →
      JsM (Option VerificationResultRecord) × VerificationEntries)
    (calls : List VerificationCall) (entries : VerificationEntries) : List Observed :=
  (Protocol.trace step calls entries).map fun answered => (answered.1.mapError .js, answered.2)

def runAlone : List VerificationCall → SharedTable Unit U → Option (List Observed)
  | [], _ => some []
  | c :: calls, s => do
    let (answer, s') ← execAlone serveAlone Healthy ⟨0, 0⟩
      (verificationCall config finalization.sessionId finalization.finalizationId c).run s
    let observed ← runAlone calls s'
    return (answer, storedRecord finalization s') :: observed

variable {config finalization}

theorem tableRuns_of_runAlone {calls : List VerificationCall} {s : SharedTable Unit U}
    {observed : List Observed} (h : runAlone finalization config calls s = some observed) :
    TableRuns finalization config calls s observed := by
  induction calls generalizing s observed with
  | nil =>
    cases h
    exact .done s
  | cons c calls ih =>
    obtain ⟨⟨answer, s'⟩, hcall, hrest⟩ := Option.bind_eq_some_iff.mp h
    obtain ⟨rest, hobserved, heq⟩ := Option.bind_eq_some_iff.mp hrest
    cases heq
    exact .call (reaches_of_exec hcall) (ih hobserved)

/-- RUN: what is observed of the table is what is observed of the protocol. -/
theorem tableRuns_follow_protocol {calls : List VerificationCall} {s : SharedTable Unit U}
    {observed : List Observed} (hrun : TableRuns finalization config calls s observed)
    {entries : VerificationEntries} (h : HoldsVerification finalization entries s.table)
    (hhealthy : Healthy s) :
    observed = observedOf (Protocol.call finalization) calls entries := by
  induction hrun generalizing entries with
  | done => rfl
  | call hcall hrest ih =>
    obtain ⟨rfl, hholds⟩ := ends_verificationCall config h hhealthy _ _ _ hcall
    rw [ih hholds (reaches_healthy hcall hhealthy), observedOf, observedOf, Protocol.trace,
      List.map_cons, storedRecord, hholds.result]

theorem observed_injective : Function.Injective
    fun answered : JsM (Option VerificationResultRecord) × Option VerificationResultRecord =>
      ((answered.1.mapError .js, answered.2) : Observed) := by
  rintro ⟨e | answer, stored⟩ ⟨e' | answer', stored'⟩ h
  · obtain ⟨herror, rfl⟩ := Prod.mk.inj h
    obtain rfl := StoreError.js.inj (Except.error.inj herror)
    rfl
  · cases (Prod.mk.inj h).1
  · cases (Prod.mk.inj h).1
  · obtain ⟨hanswer, rfl⟩ := Prod.mk.inj h
    obtain rfl := Except.ok.inj hanswer
    rfl

/-- STORES: on one successful finalization both stores answer every call alike and hold the same record
    after it, exactly if every rollback of the run is safe. -/
theorem verification_stores_agree_iff {entries : VerificationEntries} {s : SharedTable Unit U}
    (hnothing : entries.verificationRollbackSnapshot = none)
    (h : HoldsVerification finalization entries s.table) (hhealthy : Healthy s)
    {calls : List VerificationCall} {observed : List Observed}
    (hrun : TableRuns finalization config calls s observed) :
    observed = observedOf (Mapped.call finalization) calls entries ↔
      EveryCall finalization (fun watched c => c = .rollbackVerificationResult →
        RollbackSafe finalization watched) entries calls := by
  have htracks : Tracks finalization ⟨entries, none, 0⟩ := tracks_watchAll h.owned hnothing []
  have hbeside : Protocol.besides ⟨entries, none, 0⟩ = entries := by
    rw [Protocol.besides, hnothing, Option.bind_none, ← hnothing]
  rw [tableRuns_follow_protocol hrun h hhealthy, observedOf, observedOf,
    (List.map_injective_iff.mpr observed_injective).eq_iff]
  have hiff := Protocol.trace_besides_iff htracks calls
  rwa [hbeside] at hiff

end Runs

/-! ### A run that tells the stores apart -/

def sampleAlone : SharedTable Unit Unit := ⟨sampleTable, 0, [], fun _ _ => 0⟩

theorem sampleAlone_holds : HoldsVerification sampleFinalization ⟨none, none⟩ sampleAlone.table :=
  ⟨by decide +kernel, by decide +kernel, rfl, by rintro _ ⟨⟩, rfl, by rintro _ ⟨⟩, by rintro _ ⟨⟩⟩

/-- A start that is taken back. -/
theorem verification_stores_agree_on_sample :
    runAlone sampleFinalization sampleStore [.markVerificationRunning, .rollbackVerificationResult]
      sampleAlone =
      some (observedOf (Mapped.call sampleFinalization)
        [.markVerificationRunning, .rollbackVerificationResult] ⟨none, none⟩) := by
  have hruns :
      (runAlone sampleFinalization sampleStore [.markVerificationRunning, .rollbackVerificationResult]
      sampleAlone).isSome = true := by decide +kernel
  obtain ⟨observed, hobserved⟩ := Option.isSome_iff_exists.mp hruns
  rw [hobserved]
  refine congrArg some ((verification_stores_agree_iff rfl sampleAlone_holds (by decide)
    (tableRuns_of_runAlone hobserved)).mpr ?_)
  rintro before c ⟨rest, hcalls⟩ rfl
  rcases before with _ | ⟨first, _ | ⟨second, before⟩⟩
  · cases hcalls
  · obtain ⟨rfl, -⟩ := List.cons.inj hcalls
    exact ⟨rfl, .inl rfl⟩
  · simp at hcalls

/-- A verification that succeeded is gone from one store after a rollback, and kept in the other. -/
theorem rollback_tells_the_stores_apart :
    ¬ (∀ (finalization : SucceededFinalization) (config : StoreConfig) (s : SharedTable Unit Unit)
        (calls : List VerificationCall) (observed : List Observed),
      HoldsVerification finalization ⟨none, none⟩ s.table → Healthy s →
      TableRuns finalization config calls s observed →
      observed.map (·.1) = (observedOf (Mapped.call finalization) calls ⟨none, none⟩).map (·.1) ∧
        observed.getLast?.map (·.2) =
          (observedOf (Mapped.call finalization) calls ⟨none, none⟩).getLast?.map (·.2)) := by
  intro h
  have hlast : (runAlone sampleFinalization sampleStore [.markVerificationRunning,
      .completeVerificationResult { status := .success }, .rollbackVerificationResult] sampleAlone).any
      (fun observed => observed.getLast?.map (·.2) =
        some (some ⟨js "s", js "f", { status := .success }⟩)) = true := by
    decide +kernel
  obtain ⟨observed, hobserved, hkept⟩ := (Option.any_eq_true _ _).mp hlast
  obtain ⟨-, hsame⟩ :=
    h sampleFinalization sampleStore sampleAlone _ observed sampleAlone_holds (by decide)
    (tableRuns_of_runAlone hobserved)
  rw [of_decide_eq_true hkept] at hsame
  revert hsame
  decide

end Holds

end StarkBallot.AwsAdapters.Dynamo
