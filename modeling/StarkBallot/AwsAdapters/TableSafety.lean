import Mathlib.Data.List.Chain
import StarkBallot.AwsAdapters.DynamoTable

/-! What a client may conclude from the answers of the tables, and what keeps an invariant of them. To
    prove an invariant of all schedules, say which transactions the clients issue, given what they have
    read (`issued`), and show that each of them keeps the invariant when it goes through (`Keeps`). Then
    it is enough that the programs issue no others. A condition on runs is a condition on the requests
    that are served (`guard`). -/

namespace StarkBallot.AwsAdapters.Dynamo
open Schemes Domain Application

variable {U ι : Type}

/-! ### What is seen is seen for good -/

/-- The tables so far stay the first tables, and time passes. -/
structure Grows (s s' : SharedTable ι U) : Prop where
  tables : s.tables <+: s'.tables
  clock : s.clockMs ≤ s'.clockMs

/-- What others do between two requests of a client. -/
structure Later (c : ι) (s s' : SharedTable ι U) : Prop extends Grows s s' where
  readAt : s'.readAt c = s.readAt c

/-- The item was there at some time. -/
def Seen (s : SharedTable ι U) (key : Key) (item : Item U key) : Prop :=
  ∃ table ∈ s.tables, table.lookup key = some item

/-- The client found this under the key when it read it last. -/
def ReadAs (s : SharedTable ι U) (c : ι) (key : Key) (item : Option (Item U key)) : Prop :=
  ∃ table, s.tables[s.readAt c key]? = some table ∧ table.lookup key = item

variable {s s' s'' : SharedTable ι U} {c : ι}

theorem Grows.refl (s : SharedTable ι U) : Grows s s := ⟨List.prefix_refl _, Nat.le_refl _⟩

theorem Grows.trans (h : Grows s s') (h' : Grows s' s'') : Grows s s'' :=
  ⟨h.tables.trans h'.tables, h.clock.trans h'.clock⟩

theorem relies_later : Relies (Later : ι → SharedTable ι U → SharedTable ι U → Prop) where
  refl _ s := ⟨.refl s, rfl⟩
  trans _ _ _ _ h h' := ⟨h.toGrows.trans h'.toGrows, h'.readAt.trans h.readAt⟩

theorem Seen.later {key : Key} {item : Item U key} (h : Seen s key item) (hgrows : Grows s s') :
    Seen s' key item := by
  obtain ⟨table, hmem, hlookup⟩ := h
  exact ⟨table, hgrows.tables.subset hmem, hlookup⟩

theorem seen_of_lookup {key : Key} {item : Item U key} (h : s.table.lookup key = some item) :
    Seen s key item :=
  ⟨s.table, List.mem_append_right _ List.mem_cons_self, h⟩

theorem ReadAs.seen {key : Key} {item : Item U key} (h : ReadAs s c key (some item)) :
    Seen s key item := by
  obtain ⟨table, hat, hlookup⟩ := h
  exact ⟨table, List.mem_of_getElem? hat, hlookup⟩

theorem ReadAs.later {key : Key} {item : Option (Item U key)} (h : ReadAs s c key item)
    (hgrows : Grows s s') (hread : s'.readAt c key = s.readAt c key) : ReadAs s' c key item := by
  obtain ⟨table, hat, hlookup⟩ := h
  obtain ⟨hlt, -⟩ := List.getElem?_eq_some_iff.mp hat
  refine ⟨table, ?_, hlookup⟩
  obtain ⟨more, hmore⟩ := hgrows.tables
  rw [hread, ← hmore, List.getElem?_append_left hlt]
  exact hat

/-! ### Serving -/

theorem grows_put (s : SharedTable ι U) (table : AList (Item U)) : Grows s (s.put table) :=
  ⟨List.prefix_append _ _, Nat.le_refl _⟩

theorem grows_prepare (s : SharedTable ι U) (choice : Choice) : Grows s (s.prepare choice) := by
  unfold SharedTable.prepare
  split
  · exact ⟨List.prefix_refl _, Nat.le_add_right _ _⟩
  · exact ⟨List.prefix_append _ _, Nat.le_add_right _ _⟩

theorem readAt_prepare (s : SharedTable ι U) (choice : Choice) :
    (s.prepare choice).readAt = s.readAt := by
  unfold SharedTable.prepare
  split <;> rfl

theorem later_prepare (c : ι) (s : SharedTable ι U) (choice : Choice) : Later c s (s.prepare choice) :=
  ⟨grows_prepare s choice, by rw [readAt_prepare]⟩

theorem clockMs_prepare (s : SharedTable ι U) (choice : Choice) :
    (s.prepare choice).clockMs = s.clockMs + choice.elapsedMs := by
  unfold SharedTable.prepare
  split <;> rfl

/-- Only items that have expired are removed. -/
theorem lookup_prepare (s : SharedTable ι U) (choice : Choice) (key : Key) :
    (s.prepare choice).table.lookup key = s.table.lookup key ∨
      (s.prepare choice).table.lookup key = none ∧
      (s.table.lookup key).any (isExpiredItem (s.prepare choice).clockMs key) = true := by
  rw [clockMs_prepare]
  unfold SharedTable.prepare
  split
  · exact .inl rfl
  · simp only [SharedTable.remove, SharedTable.put, lookup_erase_all]
    split
    · rename_i hmem
      exact .inr ⟨rfl, (List.mem_filter.mp hmem).2⟩
    · exact .inl rfl

/-- The tables so far, and the present one. -/
theorem mem_tables_prepare {s : SharedTable ι U} {choice : Choice} {table : AList (Item U)}
    (h : table ∈ (s.prepare choice).tables) : table ∈ s.tables ∨ table = (s.prepare choice).table := by
  rcases List.mem_append.mp h with h | h
  · unfold SharedTable.prepare at h
    split at h
    · exact .inl (List.mem_append_left _ h)
    · exact .inl h
  · exact .inr (List.mem_singleton.mp h)

section Serve

variable [DecidableEq ι]

/-- Serving a request leaves the prepared tables, with a note of what was read, or lets
    the transaction through. -/
theorem serve_cases (c : ι) (choice : Choice) (r : TableRequest U) (s : SharedTable ι U) :
    (serve c choice r s).2 = s.prepare choice ∨
      (∃ key, r = .getItem key ∧ (serve c choice r s).2 = (s.prepare choice).noteRead c key) ∨
      (∃ operation items, r = .transactWrite operation items ∧ choice.fate ≠ .failed ∧
        (keysOf items).Nodup ∧ conditionsHold items (s.prepare choice).table = true ∧
        (serve c choice r s).2 = (s.prepare choice).put (commit items (s.prepare choice).table)) := by
  cases r with
  | now => exact .inl rfl
  | queryVotes sessionId start => exact .inl rfl
  | getItem key =>
    by_cases hfate : choice.fate = .served
    · refine .inr (.inl ⟨key, rfl, ?_⟩)
      rw [serve, serveNow, if_pos hfate]
    · left
      rw [serve, serveNow, if_neg hfate]
  | transactWrite operation items =>
    have htransact : (s.prepare choice).transact items = s.prepare choice ∨ (keysOf items).Nodup ∧
        conditionsHold items (s.prepare choice).table = true ∧ (s.prepare choice).transact items =
          (s.prepare choice).put (commit items (s.prepare choice).table) := by
      unfold SharedTable.transact
      split
      · rename_i h
        exact .inr ⟨h.1, h.2, rfl⟩
      · exact .inl rfl
    cases hfate : choice.fate with
    | failed =>
      left
      rw [serve, hfate]
      rfl
    | served =>
      have hserve :
          (serve c choice (.transactWrite operation items) s).2 = (s.prepare choice).transact items := by
        rw [serve, hfate]
        rfl
      rw [hserve]
      rcases htransact with h | ⟨hkeys, hconditions, h⟩
      · exact .inl h
      · exact .inr (.inr ⟨operation, items, rfl, by simp, hkeys, hconditions, h⟩)
    | lost =>
      have hserve :
          (serve c choice (.transactWrite operation items) s).2 = (s.prepare choice).transact items := by
        rw [serve, hfate]
        rfl
      rw [hserve]
      rcases htransact with h | ⟨hkeys, hconditions, h⟩
      · exact .inl h
      · exact .inr (.inr ⟨operation, items, rfl, by simp, hkeys, hconditions, h⟩)

theorem grows_serve (c : ι) (choice : Choice) (r : TableRequest U) (s : SharedTable ι U) :
    Grows s (serve c choice r s).2 := by
  have hprepare := grows_prepare s choice
  rcases serve_cases c choice r s with h | ⟨key, -, h⟩ | ⟨operation, items, -, -, -, -, h⟩
  · rwa [h]
  · rw [h]
    exact hprepare.trans ⟨List.prefix_refl _, Nat.le_refl _⟩
  · rw [h]
    exact hprepare.trans (grows_put _ _)

/-- Only a client itself notes what it read. -/
theorem later_serve {c d : ι} (hd : d ≠ c) (choice : Choice) (r : TableRequest U) (s : SharedTable ι U) :
    Later d s (serve c choice r s).2 := by
  refine ⟨grows_serve c choice r s, ?_⟩
  rcases serve_cases c choice r s with h | ⟨key, -, h⟩ | ⟨operation, items, -, -, -, -, h⟩
  · rw [h, readAt_prepare]
  · rw [h, SharedTable.noteRead, ← readAt_prepare s choice]
    exact Function.update_of_ne hd _ _
  · rw [h, SharedTable.put, ← readAt_prepare s choice]

end Serve

/-! ### Invariants -/

section Keeps

variable [DecidableEq ι]

/-- A condition on the requests that are served. -/
abbrev Guard (ι U : Type) := ι → Choice → (r : TableRequest U) → SharedTable ι U → Prop

/-- The transaction takes effect. -/
def GoesThrough (choice : Choice) (items : List (TransactItem (Item U))) (s : SharedTable ι U) : Prop :=
  choice.fate ≠ .failed ∧ (keysOf items).Nodup ∧ conditionsHold items (s.prepare choice).table = true

instance (choice : Choice) (items : List (TransactItem (Item U))) (s : SharedTable ι U) :
    Decidable (GoesThrough choice items s) :=
  inferInstanceAs (Decidable (_ ∧ _))

/-- A transaction that goes through is answered as such, or its answer is lost. -/
theorem serve_of_goesThrough {choice : Choice} {items : List (TransactItem (Item U))}
    {s : SharedTable ι U} (h : GoesThrough choice items s) (c : ι) (operation : Operation) :
    (serve c choice (.transactWrite operation items) s).2 =
        (s.prepare choice).put (commit items (s.prepare choice).table) ∧
      (serve c choice (.transactWrite operation items) s).1 ≠ .conditionalConflict := by
  obtain ⟨hfate, hkeys, hconditions⟩ := h
  have htransact : (s.prepare choice).transact items =
      (s.prepare choice).put (commit items (s.prepare choice).table) := if_pos ⟨hkeys, hconditions⟩
  cases hchoice : choice.fate with
  | failed => exact absurd hchoice hfate
  | served => simp [serve, serveNow, hchoice, htransact, hkeys, hconditions]
  | lost => simp [serve, serveNow, hchoice, htransact]

/-- Any other has no effect, and no answer says that it has. -/
theorem serve_of_not_goesThrough {choice : Choice} {items : List (TransactItem (Item U))}
    {s : SharedTable ι U} (h : ¬ GoesThrough choice items s) (c : ι) (operation : Operation) :
    (serve c choice (.transactWrite operation items) s).2 = s.prepare choice ∧
      (serve c choice (.transactWrite operation items) s).1 ≠ .committed := by
  cases hchoice : choice.fate with
  | failed => simp [serve, serveNow, hchoice]
  | served =>
    have hnot : ¬ ((keysOf items).Nodup ∧ conditionsHold items (s.prepare choice).table = true) :=
      fun hboth => h ⟨by simp [hchoice], hboth⟩
    refine ⟨?_, ?_⟩
    · simp only [serve, serveNow, hchoice, SharedTable.transact, if_neg hnot]
    · simp only [serve, serveNow, hchoice]
      split
      · simp
      · split
        · exact absurd ⟨not_not.mp ‹_›, ‹_›⟩ hnot
        · simp
  | lost =>
    have hnot : ¬ ((keysOf items).Nodup ∧ conditionsHold items (s.prepare choice).table = true) :=
      fun hboth => h ⟨by simp [hchoice], hboth⟩
    simp only [serve, serveNow, hchoice, SharedTable.transact, if_neg hnot]
    simp

/-- Which transactions a client may issue, by what it has read. -/
abbrev Issued (ι U : Type) := ι → Operation → List (TransactItem (Item U)) → SharedTable ι U → Prop

variable (guard : Guard ι U) (issued : Issued ι U) (inv : SharedTable ι U → Prop)

/-- The invariant is kept while time passes, and by the transactions that clients issue. -/
structure Keeps : Prop where
  prepared : ∀ c choice r s, guard c choice r s ∨ choice = .refusing → inv s → inv (s.prepare choice)
  noted : ∀ s c key, inv s → inv (s.noteRead c key)
  commits : ∀ c choice operation items s, guard c choice (.transactWrite operation items) s →
    issued c operation items (s.prepare choice) → GoesThrough choice items s → inv (s.prepare choice) →
    inv ((s.prepare choice).put (commit items (s.prepare choice).table))
  later : ∀ c operation items s s', Later c s s' → issued c operation items s →
    issued c operation items s'

variable {guard issued inv}

/-- The tables under the condition. -/
noncomputable abbrev serveGuarded (guard : Guard ι U) :
    ι → Choice → (r : TableRequest U) → SharedTable ι U → r.Answer × SharedTable ι U :=
  guarded guard .refusing Dynamo.serve

/-- A call is safe: it issues what it may, and what it returns satisfies `post`. -/
abbrev CallSafe (guard : Guard ι U) (inv : SharedTable ι U → Prop) (c : ι) {α : Type}
    (post : α → SharedTable ι U → Prop) (call : Call U α) (s : SharedTable ι U) : Prop :=
  Safe (serveGuarded guard) inv Later c (returned post) call.run s

theorem Keeps.serve (h : Keeps guard issued inv) {r : TableRequest U} {s : SharedTable ι U} {c : ι}
    (hissued : ∀ operation items, r = .transactWrite operation items → issued c operation items s)
    (hinv : inv s) (choice : Choice) : inv (serveGuarded guard c choice r s).2 := by
  obtain ⟨choice', hserve, hguard⟩ := guarded_cases guard .refusing Dynamo.serve c choice r s
  rw [serveGuarded, hserve]
  have hprepared := h.prepared c choice' r s hguard hinv
  rcases serve_cases c choice' r s with hcase | ⟨key, -, hcase⟩ | ⟨operation, items, rfl, hfate, hkeys,
    hconditions, hcase⟩
  · rwa [hcase]
  · rw [hcase]
    exact h.noted _ c key hprepared
  · rw [hcase]
    rcases hguard with hguard | rfl
    · exact h.commits c choice' operation items s hguard
        (h.later c operation items _ _ (later_prepare c s choice') (hissued operation items rfl))
        ⟨hfate, hkeys, hconditions⟩ hprepared
    · exact absurd rfl hfate

/-- A request that issues no transaction, or one that it may. -/
theorem safe_ask (h : Keeps guard issued inv) {r : TableRequest U} {s : SharedTable ι U} {c : ι}
    {post : r.Answer → SharedTable ι U → Prop}
    (hissued : ∀ operation items, r = .transactWrite operation items → issued c operation items s)
    (hpost : ∀ s' choice, Later c s s' → post (serve c choice r s').1 (serve c choice r s').2) :
    CallSafe guard inv c post (ask r) s := by
  intro s' choice hlater hinv
  obtain ⟨choice', hserve, -⟩ := guarded_cases guard .refusing Dynamo.serve c choice r s'
  refine ⟨?_, ?_, ?_⟩
  · refine h.serve ?_ hinv choice
    intro operation items hr
    exact h.later c operation items s s' hlater (hissued operation items hr)
  · intro d hd
    rw [serveGuarded, hserve]
    exact later_serve hd choice' r s'
  · rw [serveGuarded, hserve]
    rintro _ ⟨⟩
    exact hpost s' choice' hlater

end Keeps

/-! ### Calls -/

section Weaken

variable [DecidableEq ι] {guard : Guard ι U} {inv : SharedTable ι U → Prop} {α : Type}
  {post post' : α → SharedTable ι U → Prop} {call : Call U α}

theorem safe_weaken (hpost : ∀ a s', post a s' → post' a s') (hcall : CallSafe guard inv c post call s) :
    CallSafe guard inv c post' call s :=
  safe_mono (fun _ _ h a ha => hpost a _ (h a ha)) hcall

/-- The tables have only grown when a call returns. -/
theorem safe_grows (hcall : CallSafe guard inv c post call s) :
    CallSafe guard inv c (fun a s' => post a s' ∧ Grows s s') call s := by
  have hserve : ∀ d choice (r : TableRequest U) s', Grows s' (serveGuarded guard d choice r s').2 := by
    intro d choice r s'
    obtain ⟨choice', hserve, -⟩ := guarded_cases guard .refusing Dynamo.serve d choice r s'
    rw [serveGuarded, hserve]
    exact grows_serve d choice' r s'
  have htrans : ∀ s s' s'' : SharedTable ι U, Grows s s' → Grows s' s'' → Grows s s'' :=
    fun _ _ _ => Grows.trans
  have hgrown := safe_grown htrans hserve (fun _ _ _ h => h.toGrows) (Grows.refl s) hcall
  exact safe_mono (fun _ _ h a ha => ⟨h.1 a ha, h.2⟩) hgrown

/-- A call as a whole program. -/
theorem safe_program (hcall : CallSafe guard inv c post call s) :
    Safe (serveGuarded guard) inv Later c (fun _ _ => True) call.run s :=
  safe_mono (fun _ _ _ => trivial) hcall

end Weaken

/-- The client has read these keys, and nothing else. -/
structure Reads (c : ι) (keys : List Key) (s s' : SharedTable ι U) : Prop extends Grows s s' where
  readAt : ∀ key, key ∉ keys → s'.readAt c key = s.readAt c key
  since : ∀ key ∈ keys, s.past.length ≤ s'.readAt c key

theorem Grows.past {s s' : SharedTable ι U} (h : Grows s s') : s.past.length ≤ s'.past.length := by
  have hlength := h.tables.length_le
  simpa [SharedTable.tables] using hlength

theorem Reads.refl (c : ι) (s : SharedTable ι U) : Reads c [] s s := ⟨.refl s, fun _ _ => rfl, by simp⟩

theorem Reads.trans {c : ι} {keys keys' : List Key} {s s' s'' : SharedTable ι U} (h : Reads c keys s s')
    (h' : Reads c keys' s' s'') : Reads c (keys ++ keys') s s'' := by
  refine ⟨h.toGrows.trans h'.toGrows, ?_, ?_⟩
  · intro key hkey
    rw [List.mem_append, not_or] at hkey
    rw [h'.readAt key hkey.2, h.readAt key hkey.1]
  · intro key hkey
    by_cases hkey' : key ∈ keys'
    · exact h.toGrows.past.trans (h'.since key hkey')
    · rw [h'.readAt key hkey']
      exact h.since key ((List.mem_append.mp hkey).resolve_right hkey')

/-- A client that read nothing, or only the clock. -/
theorem Reads.later {c : ι} {s s' : SharedTable ι U} (h : Reads c [] s s') : Later c s s' :=
  ⟨h.toGrows, funext fun key => h.readAt key List.not_mem_nil⟩

theorem ReadAs.reads {c : ι} {key : Key} {item : Option (Item U key)} {keys : List Key}
    {s s' : SharedTable ι U} (h : ReadAs s c key item) (hreads : Reads c keys s s')
    (hkey : key ∉ keys) : ReadAs s' c key item :=
  h.later hreads.toGrows (hreads.readAt key hkey)

theorem reads_of_later {c : ι} {s s' : SharedTable ι U} (h : Later c s s') (choice : Choice) :
    Reads c [] s (s'.prepare choice) := by
  refine ⟨h.toGrows.trans (grows_prepare s' choice), ?_, by simp⟩
  intro key _
  rw [readAt_prepare, h.readAt]

section Calls

variable [DecidableEq ι] {guard : Guard ι U} {issued : Issued ι U} {inv : SharedTable ι U → Prop}
  {s : SharedTable ι U} {c : ι}

theorem safe_liftJs {α : Type} {post : α → SharedTable ι U → Prop} {result : JsM α}
    (hpost : ∀ a, result = .ok a → post a s) : CallSafe guard inv c post (liftJs result) s := by
  cases result with
  | ok a => exact safe_pure (hpost a rfl)
  | error e => exact safe_throw

/-- What the arrival of an item tells. -/
def Found (c : ι) (key : Key) (s : SharedTable ι U) : Presence (Item U key) → Prop
  | .absent => ReadAs s c key none
  | .expired => ∃ item, ReadAs s c key (some item)
  | .active item => ReadAs s c key (some item)

variable (h : Keeps guard issued inv)
include h

theorem safe_now : CallSafe guard inv c (fun t s' => t = s'.clockMs ∧ Reads c [] s s') now s := by
  refine safe_ask h (by rintro operation items ⟨⟩) ?_
  intro s' choice hlater
  exact ⟨rfl, reads_of_later hlater choice⟩

theorem safe_getSessionItem (key : Key) :
    CallSafe guard inv c (fun item s' => ReadAs s' c key item ∧ Reads c [key] s s')
      (getSessionItem key) s := by
  have hask : CallSafe guard inv c (fun answer s' => ∀ item, answer = .ok item →
      ReadAs s' c key item ∧ Reads c [key] s s') (ask (TableRequest.getItem key)) s := by
    refine safe_ask h (by rintro operation items ⟨⟩) ?_
    intro s' choice hlater item hitem
    by_cases hfate : choice.fate = .served
    · have hreads := reads_of_later hlater choice
      simp only [serve, serveNow, if_pos hfate] at hitem ⊢
      refine ⟨⟨(s'.prepare choice).table, ?_, Except.ok.inj hitem⟩,
        ⟨hreads.tables, hreads.clock⟩, ?_, ?_⟩
      · simp [SharedTable.noteRead, SharedTable.tables]
      · intro key' hkey'
        rw [List.mem_singleton] at hkey'
        rw [← hreads.readAt key' List.not_mem_nil]
        simp [SharedTable.noteRead, Function.update_of_ne hkey']
      · intro key' hkey'
        obtain rfl := List.mem_singleton.mp hkey'
        simpa [SharedTable.noteRead] using hreads.toGrows.past
    · simp only [serve, serveNow, if_neg hfate] at hitem
      cases hitem
  refine safe_seq hask ?_
  rintro (e | item) s' hanswer
  · exact safe_throw
  · exact safe_pure (hanswer item rfl)

theorem safe_readItem (key : Key) :
    CallSafe guard inv c (fun presence s' => Found c key s' presence ∧ Reads c [key] s s')
      (readItem key) s := by
  refine safe_seq (safe_getSessionItem h key) ?_
  rintro (_ | item) s₁ ⟨hread, hreads⟩
  · exact safe_pure ⟨hread, hreads⟩
  · refine safe_seq (safe_now h) ?_
    rintro nowMs s₂ ⟨-, hreads'⟩
    have hread' := hread.reads hreads' List.not_mem_nil
    have hboth := hreads.trans hreads'
    rw [List.append_nil] at hboth
    refine safe_pure ⟨?_, hboth⟩
    split
    · exact ⟨item, hread'⟩
    · exact hread'

omit h in
theorem safe_admitActive {α β : Type} {presence : Presence α} {parse : α → Option β} {message : String} :
    CallSafe guard inv c (fun result s' => s' = s ∧ ∀ parsed, result = some parsed →
        ∃ item, presence = .active item ∧ parse item = some parsed)
      (admitActive presence parse message) s := by
  cases presence with
  | absent => exact safe_pure ⟨rfl, by rintro _ ⟨⟩⟩
  | expired => exact safe_pure ⟨rfl, by rintro _ ⟨⟩⟩
  | active item =>
    simp only [admitActive]
    split
    · rename_i parsed hparsed
      refine safe_pure ⟨rfl, ?_⟩
      rintro _ ⟨⟩
      exact ⟨item, rfl, hparsed⟩
    · exact safe_throw

theorem safe_readActive {α : Type} (key : Key) (parse : Item U key → Option α) (message : String) :
    CallSafe guard inv c (fun result s' => (∀ parsed, result = some parsed →
        ∃ item, ReadAs s' c key (some item) ∧ parse item = some parsed) ∧ Reads c [key] s s')
      (readActive key parse message) s := by
  refine safe_seq (safe_readItem h key) ?_
  rintro presence s₁ ⟨hfound, hreads⟩
  refine Schemes.safe_mono ?_ safe_admitActive
  rintro (e | result) s₂ hpost _ ⟨⟩
  obtain ⟨rfl, hresult⟩ := hpost result rfl
  refine ⟨?_, hreads⟩
  intro parsed hparsed
  obtain ⟨item, rfl, hparse⟩ := hresult parsed hparsed
  exact ⟨item, hfound, hparse⟩

theorem safe_writeTransaction {operation : Operation} {items : List (TransactItem (Item U))}
    (hissued : issued c operation items s) :
    CallSafe guard inv c (fun _ s' => Grows s s') (writeTransaction operation items) s := by
  unfold writeTransaction
  split
  · exact safe_throw
  · have hask :
      CallSafe guard inv c (fun _ s' => Grows s s')
        (ask (TableRequest.transactWrite operation items)) s := by
      refine safe_ask h ?_ ?_
      · rintro _ _ ⟨⟩
        exact hissued
      · intro s' choice hlater
        exact hlater.toGrows.trans (grows_serve c choice _ s')
    refine safe_seq hask ?_
    · rintro (_ | _ | _) s' hgrows
      · exact safe_pure hgrows
      · exact safe_throw
      · exact safe_throw

omit h in
/-- Every round of a loop is safe from wherever the rounds before it have left. -/
theorem safe_retrying {α : Type} {post : α → SharedTable ι U → Prop} {round : ℕ → Call U (Option α)}
    {exhausted : String} {known : SharedTable ι U → Prop}
    (hround : ∀ index s, known s → CallSafe guard inv c (fun result s' => known s' ∧
      ∀ a, result = some a → post a s') (round index) s)
    (left : ℕ) (hknown : known s) : CallSafe guard inv c post (retrying exhausted round left) s := by
  induction left generalizing s with
  | zero => exact safe_throw
  | succ left ih =>
    refine safe_seq (hround _ s hknown) ?_
    rintro (_ | result) s' ⟨hknown', hresult⟩
    · exact ih hknown'
    · exact safe_pure (hresult result rfl)

omit h in
theorem safe_catchConflict {call : Call U Unit} {index : ℕ}
    (hcall : CallSafe guard inv c (fun _ _ => True) call s) :
    CallSafe guard inv c (fun _ _ => True) (catchConflict index call) s := by
  refine safe_seq (safe_attempt hcall) ?_
  rintro (e | result) s' -
  · dsimp only
    split
    · exact safe_throw
    · exact safe_pure trivial
  · exact safe_pure trivial

end Calls

/-! ### Histories and runs -/

/-- Each table is well formed and follows from the one before. -/
structure Recorded (wellFormed : AList (Item U) → Prop)
    (follows : AList (Item U) → AList (Item U) → Prop) (s : SharedTable ι U) : Prop where
  wellFormed : ∀ table ∈ s.tables, wellFormed table
  chain : s.tables.IsChain follows

section Histories

variable {wellFormed : AList (Item U) → Prop} {follows : AList (Item U) → AList (Item U) → Prop}

theorem mem_tables (s : SharedTable ι U) : s.table ∈ s.tables :=
  List.mem_append_right _ List.mem_cons_self

theorem Recorded.initial {table : AList (Item U)} (h : wellFormed table) (clockMs : ℕ)
    (readAt : ι → Key → ℕ) :
    Recorded wellFormed follows ⟨table, clockMs, [], readAt⟩ := by
  refine ⟨?_, ?_⟩
  · simpa [SharedTable.tables] using h
  · simp [SharedTable.tables]

theorem Recorded.put (h : Recorded wellFormed follows s) {table : AList (Item U)}
    (hwell : wellFormed table) (hfollows : follows s.table table) :
    Recorded wellFormed follows (s.put table) := by
  refine ⟨?_, ?_⟩
  · intro table' hmem
    rcases List.mem_append.mp hmem with hmem | hmem
    · exact h.wellFormed table' hmem
    · exact List.mem_singleton.mp hmem ▸ hwell
  · refine List.isChain_append.mpr ⟨h.chain, by simp, ?_⟩
    intro before hbefore after hafter
    obtain rfl : s.table = before := by simpa [SharedTable.put, SharedTable.tables] using hbefore
    obtain rfl : table = after := by simpa [SharedTable.put] using hafter
    exact hfollows

theorem tables_prepare_of_kept {choice : Choice} (h : choice.removed = []) (s : SharedTable ι U) :
    (s.prepare choice).table = s.table ∧ (s.prepare choice).past = s.past := by
  rw [SharedTable.prepare, if_pos h]
  exact ⟨rfl, rfl⟩

variable [DecidableEq ι] {guard : Guard ι U} {issued : Issued ι U}

/-- Nothing is removed, and what goes through keeps the tables well formed and in order. -/
theorem keeps_recorded (hkept : ∀ c choice r s, guard c choice r s → choice.removed = [])
    (hcommit : ∀ c choice operation items s, guard c choice (.transactWrite operation items) s →
      issued c operation items (s.prepare choice) → GoesThrough choice items s →
      Recorded wellFormed follows (s.prepare choice) →
      wellFormed (commit items (s.prepare choice).table) ∧
        follows (s.prepare choice).table (commit items (s.prepare choice).table))
    (hlater : ∀ c operation items s s', Later c s s' → issued c operation items s →
      issued c operation items s') :
    Keeps guard issued (Recorded wellFormed follows) where
  prepared := by
    rintro c choice r s hguard h
    obtain ⟨htable, hpast⟩ : (s.prepare choice).table = s.table ∧ (s.prepare choice).past = s.past := by
      rcases hguard with hguard | rfl
      · exact tables_prepare_of_kept (hkept c choice r s hguard) s
      · exact ⟨rfl, rfl⟩
    have htables :
        (s.prepare choice).tables = s.tables := by
          rw [SharedTable.tables, htable, hpast, SharedTable.tables]
    exact ⟨htables ▸ h.wellFormed, htables ▸ h.chain⟩
  noted _ _ _ h := ⟨h.wellFormed, h.chain⟩
  commits := by
    intro c choice operation items s hguard hissued hthrough h
    obtain ⟨hwell, hfollows⟩ := hcommit c choice operation items s hguard hissued hthrough h
    exact h.put hwell hfollows
  later := hlater

/-- Nothing is removed, and what goes through keeps an invariant of the present table. -/
theorem keeps_table {P : AList (Item U) → Prop}
    (hkept : ∀ c choice r s, guard c choice r s → choice.removed = [])
    (hcommit : ∀ c operation items s, issued c operation items s → (keysOf items).Nodup →
      conditionsHold items s.table = true → P s.table → P (commit items s.table))
    (hlater : ∀ c operation items s s', Later c s s' → issued c operation items s →
      issued c operation items s') :
    Keeps guard issued (fun s => P s.table) where
  prepared := by
    rintro c choice r s hguard h
    have htable : (s.prepare choice).table = s.table := by
      rcases hguard with hguard | rfl
      · exact (tables_prepare_of_kept (hkept c choice r s hguard) s).1
      · rfl
    rw [htable]
    exact h
  noted _ _ _ h := h
  commits := by
    rintro c choice operation items s - hissued hthrough h
    exact hcommit c operation items _ hissued hthrough.2.1 hthrough.2.2 h
  later := hlater

end Histories

/-- RUN: an invariant that safe programs keep under the condition holds after every run that meets it. -/
theorem inv_of_run [DecidableEq ι] {α : Type} {guard : Guard ι U} {inv : SharedTable ι U → Prop}
    {system : Concurrent ι (SharedTable ι U) (TableRequest U) TableRequest.Answer α}
    (hinv : inv system.shared)
    (hsafe : ∀ c, Safe (serveGuarded guard) inv Later c (fun _ _ => True)
      (system.programs c) system.shared) {schedule : List (ι × Choice)}
    (hmeets : Meets guard serve system schedule) :
    inv (runSchedule serve system schedule).shared := by
  have hrun := (run_safe relies_later (fun _ _ _ _ h _ => h) hinv hsafe schedule).1
  rwa [runSchedule_guarded hmeets] at hrun

end StarkBallot.AwsAdapters.Dynamo
