import StarkBallot.AwsAdapters.SessionCalls
import StarkBallot.Schemes.History
import StarkBallot.Schemes.Serial

/-! Vote mutations beside each other, with a journal of what they wrote. The journal counts the
    transactions that each call has sent and lists those that went through, in the order in which they
    did. It is kept beside the tables and changes no answer, so every run of the calls
    is a run with the journal.

        read ─ read ─ ⋯ ─ transaction ─▶ went through? ─▶ (call, number) at the end of the journal

    Until it sends a transaction a call only reads. -/

namespace StarkBallot.AwsAdapters.Dynamo
open Schemes ContractCore CryptoPrimitives Domain Application

variable {U ι : Type}

/-! ### Calls that only read -/

def IsRead : TableRequest U → Prop
  | .transactWrite _ _ => False
  | _ => True

abbrev OnlyReads {α : Type} (call : Call U α) : Prop := call.run.Asks IsRead

section Reads

variable {α : Type} (config : StoreConfig) (sessionId : JsString)

theorem reads_orFailed (answer : Except Unit α) : OnlyReads (orFailed answer : Call U α) := by
  cases answer <;> trivial

theorem reads_liftJs (result : JsM α) : OnlyReads (liftJs result : Call U α) := by
  cases result <;> trivial

theorem reads_now : OnlyReads (now : Call U ℕ) := asks_ask trivial

theorem reads_readItem (key : Key) : OnlyReads (readItem key : Call U (Presence (Item U key))) := by
  refine asks_seq (asks_seq (asks_ask trivial) reads_orFailed) ?_
  rintro (_ | item)
  · trivial
  · exact asks_seq reads_now fun _ => trivial

theorem reads_readActive (key : Key) (parse : Item U key → Option α) (message : String) :
    OnlyReads (readActive key parse message : Call U (Option α)) := by
  refine asks_seq (reads_readItem key) ?_
  rintro (_ | _ | item)
  · trivial
  · trivial
  · simp only [admitActive]
    split <;> trivial

theorem reads_loadVotingItem : OnlyReads (loadVotingItem sessionId : Call U VotingItem) := by
  refine asks_seq (reads_readActive _ _ _) ?_
  rintro (_ | voting) <;> trivial

theorem reads_loadVotePage (start : Option ℕ) :
    OnlyReads (loadVotePage sessionId start : Call U VotePage) := by
  refine asks_seq (asks_seq (asks_ask trivial) reads_orFailed) ?_
  intro page
  refine asks_seq reads_now ?_
  intro nowMs
  split <;> trivial

theorem reads_loadVotePages (pages : ℕ) (start : Option ℕ) :
    OnlyReads (loadVotePages sessionId pages start : Call U (List VoteItem)) := by
  induction pages generalizing start with
  | zero => trivial
  | succ pages ih =>
    refine asks_seq (reads_loadVotePage sessionId start) ?_
    rintro ⟨items, _ | last⟩
    · trivial
    · exact asks_seq (ih (some last)) fun _ => trivial

theorem reads_loadVoteItems : OnlyReads (loadVoteItems config sessionId : Call U (List VoteItem)) := by
  refine asks_seq (reads_loadVotePages sessionId _ _) ?_
  intro items
  split <;> trivial

theorem reads_loadSessionTtlAuthority :
    OnlyReads (loadSessionTtlAuthority config sessionId : Call U SessionTtlAuthority) := by
  refine asks_seq (reads_readItem _) ?_
  rintro (_ | _ | item)
  · trivial
  · trivial
  · dsimp only
    split
    · trivial
    · refine asks_seq (reads_loadVotingItem sessionId) ?_
      intro voting
      refine asks_seq (reads_loadVoteItems config sessionId) ?_
      intro votes
      split
      · trivial
      · exact asks_seq (asks_seq reads_now fun _ => trivial) fun _ => trivial

theorem reads_loadFinalization : OnlyReads
    (loadFinalization sessionId :
      Call U (FinalizationLifecycleLoadResult U EncodedLifecycleRevision)) := by
  refine asks_seq (reads_readActive _ _ _) ?_
  rintro (_ | identity)
  · trivial
  refine asks_seq (reads_readItem _) ?_
  rintro (_ | _ | rawPointer)
  · trivial
  · trivial
  dsimp only
  split
  · trivial
  refine asks_seq (reads_readItem _) ?_
  rintro (_ | _ | rawRecord)
  · trivial
  · trivial
  dsimp only
  split
  · trivial
  · split <;> trivial

theorem reads_getCurrentFinalizationRecord :
    OnlyReads (getCurrentFinalizationRecord sessionId : Call U (Option (FinalizationRecord U))) := by
  have hload : (loadFinalizationLifecycle (U := U) sessionId).Asks IsRead := by
    refine asks_bind (reads_loadFinalization sessionId) ?_
    rintro (e | result) <;> trivial
  refine asks_seq (asks_lift hload) ?_
  rintro (_ | _ | _ | _) <;> trivial

theorem reads_findVoteMutationAuthority (boardClock : ℕ → Num) :
    OnlyReads (findVoteMutationAuthority config sessionId boardClock :
      Call U (Option (VoteMutationAuthority U))) := by
  have hload :
      OnlyReads (loadVoteMutationAuthority config sessionId boardClock :
        Call U (VoteMutationAuthority U)) := by
    refine asks_seq (reads_loadSessionTtlAuthority config sessionId) ?_
    intro ttl
    refine asks_seq (reads_liftJs _) ?_
    intro voting
    exact asks_seq (reads_getCurrentFinalizationRecord sessionId) fun _ => trivial
  refine asks_seq (asks_attempt hload) ?_
  rintro ((_ | _ | _ | e) | authority) <;> trivial

end Reads

/-! ### The journal -/

structure VoteJournal (ι U : Type) where
  shared : SharedTable ι U
  sent : ι → ℕ
  commits : List (ι × ℕ)

section Journal

variable [DecidableEq ι]

/-- A transaction is counted, and listed if it goes through. -/
def VoteJournal.note (journal : VoteJournal ι U) (c : ι) (choice : Choice) :
    TableRequest U → VoteJournal ι U
  | .transactWrite _ items =>
    { journal with
      sent := Function.update journal.sent c (journal.sent c + 1)
      commits :=
        if GoesThrough choice items journal.shared then journal.commits ++ [(c, journal.sent c)]
          else journal.commits }
  | _ => journal

/-- The tables with the journal beside them. -/
def serveVotes (c : ι) (choice : Choice) (r : TableRequest U) (journal : VoteJournal ι U) :
    r.Answer × VoteJournal ι U :=
  ((serve c choice r journal.shared).1,
    { journal.note c choice r with shared := (serve c choice r journal.shared).2 })

/-- Every run is a run with the journal. -/
theorem runSchedule_journal {α : Type} (journal : VoteJournal ι U)
    (programs : ι → Async (TableRequest U) TableRequest.Answer α) (schedule : List (ι × Choice)) :
    runSchedule serve ⟨journal.shared, programs⟩ schedule =
      ⟨(runSchedule serveVotes ⟨journal, programs⟩ schedule).shared.shared,
        (runSchedule serveVotes ⟨journal, programs⟩ schedule).programs⟩ :=
  @runSchedule_view _ _ _ ι _ Choice _ serve _ serveVotes VoteJournal.shared (fun _ _ _ _ => rfl)
    (fun _ _ _ _ => rfl) ⟨journal, programs⟩ schedule

/-- What the other calls do between two requests of a call. -/
structure OtherVotes (c : ι) (journal journal' : VoteJournal ι U) : Prop where
  shared : Later c journal.shared journal'.shared
  sent : journal'.sent c = journal.sent c
  commits : Added (fun commit => commit.1 ≠ c) journal.commits journal'.commits

omit [DecidableEq ι] in
theorem relies_otherVotes : Relies (OtherVotes : ι → VoteJournal ι U → VoteJournal ι U → Prop) where
  refl c _ := ⟨relies_later.refl c _, rfl, .refl _ _⟩
  trans c _ _ _ h h' :=
    ⟨relies_later.trans c _ _ _ h.shared h'.shared, h'.sent.trans h.sent, h.commits.trans h'.commits⟩

/-- Serving a call adds commits of that call only. -/
theorem otherVotes_serve {c d : ι} (hd : d ≠ c) (choice : Choice) (r : TableRequest U)
    (journal : VoteJournal ι U) :
    OtherVotes d journal (serveVotes c choice r journal).2 := by
  refine ⟨later_serve hd choice r journal.shared, ?_, ?_⟩
  · cases r with
    | transactWrite _ items => exact Function.update_of_ne hd _ _
    | _ => rfl
  · cases r with
    | transactWrite _ items =>
      simp only [serveVotes, VoteJournal.note]
      split
      · exact ⟨[(c, journal.sent c)], rfl, by simpa using hd.symm⟩
      · exact .refl _ _
    | _ => exact .refl _ _

/-- The call has written nothing so far, with the transactions that it has sent. -/
structure Waits (c : ι) (sent : ℕ) (journal : VoteJournal ι U) : Prop where
  sent_eq : journal.sent c = sent
  uncommitted : ∀ commit ∈ journal.commits, commit.1 ≠ c

omit [DecidableEq ι] in
theorem Waits.later {c : ι} {sent : ℕ} {journal journal' : VoteJournal ι U} (h : Waits c sent journal)
    (hothers : OtherVotes c journal journal') : Waits c sent journal' :=
  ⟨hothers.sent.trans h.sent_eq, hothers.commits.forall_mem h.uncommitted⟩

/-- No condition on the requests. -/
def always : Guard ι U := fun _ _ _ _ => True

theorem serveGuarded_always : serveGuarded (always : Guard ι U) = serve := by
  funext c choice r s
  exact congrArg (serve c · r s) (if_pos trivial)

/-- Without transactions there is nothing to keep. -/
theorem keeps_reading : Keeps (always : Guard ι U) (fun _ _ _ _ => False) fun _ => True where
  prepared _ _ _ _ _ _ := trivial
  noted _ _ _ _ := trivial
  commits _ _ _ _ _ _ hissued := hissued.elim
  later _ _ _ _ _ _ hissued := hissued

/-- An invariant of the journal that time and reads keep. -/
structure KeepsReading (inv : VoteJournal ι U → Prop) : Prop where
  prepared : ∀ journal choice, inv journal → inv { journal with shared := journal.shared.prepare choice }
  noted : ∀ journal c key, inv journal → inv { journal with shared := journal.shared.noteRead c key }

section Reading

variable {inv : VoteJournal ι U → Prop} {c : ι} {sent : ℕ} {journal : VoteJournal ι U} {α : Type}

theorem embeds_reading (h : KeepsReading inv) :
    Embeds serve (fun _ => True) Later serveVotes inv OtherVotes VoteJournal.shared (fun r => r)
      (fun _ answer => answer) c c (Waits (U := U) c sent) IsRead where
  answer_eq _ _ _ := rfl
  view_eq _ _ _ := rfl
  view_inv _ _ := trivial
  view_others _ _ hothers := hothers.shared
  frame_others _ _ hothers hframe := hframe.later hothers
  keeps choice r journal hread hinv hframe _ _ := by
    have hothers (d : ι) (hd : d ≠ c) := otherVotes_serve hd choice r journal
    have hnote : journal.note c choice r = journal := by
      cases r with
      | transactWrite _ _ => exact hread.elim
      | _ => rfl
    rw [serveVotes, hnote] at hothers ⊢
    refine ⟨?_, hothers, ⟨hframe.sent_eq, hframe.uncommitted⟩⟩
    rcases serve_cases c choice r journal.shared with hcase | ⟨key, -, hcase⟩ | ⟨_, _, rfl, -⟩
    · rw [hcase]
      exact h.prepared journal choice hinv
    · rw [hcase]
      exact h.noted _ c key (h.prepared journal choice hinv)
    · exact hread.elim

/-- READING: what a call learns from the tables it learns beside the journal, and it still waits. -/
theorem safe_reading (h : KeepsReading inv) {call : Call U α} {post : α → SharedTable ι U → Prop}
    (hcall : CallSafe always (fun _ => True) c post call journal.shared) (hreads : OnlyReads call)
    (hwaits : Waits c sent journal) :
    Safe serveVotes inv OtherVotes c (fun result journal' => returned post result journal'.shared ∧
      Waits c sent journal') call.run journal := by
  rw [CallSafe, serveGuarded_always] at hcall
  have hembed := safe_embed (embeds_reading h) hcall hreads hwaits
  rwa [Async.embed_self] at hembed

end Reading

end Journal

end StarkBallot.AwsAdapters.Dynamo
