import StarkBallot.Schemes.Alone
import StarkBallot.AwsAdapters.TableSafety

/-! The tables with one client only, whose requests are all served while nothing expires. A request then
    answers what is there, and a transaction whose conditions hold goes through. -/

namespace StarkBallot.AwsAdapters.Dynamo
open Schemes Domain Application

variable {U : Type}

/-- The time that passes before a request is served, and how many more than one item a page holds. -/
structure Pace where
  elapsedMs : ℕ
  pageSize : ℕ

def serveAlone (pace : Pace) (r : TableRequest U) (s : SharedTable Unit U) :
    r.Answer × SharedTable Unit U :=
  serve () ⟨pace.elapsedMs, [], .served, pace.pageSize⟩ r s

/-- The numbers that the parsers look at are safe integers. -/
def isSafeItem : (key : Key) → Item U key → Bool
  | .verification _ _, item => isSafe item.revision && isSafe item.expiresAt
  | key, item => (expiresAt key item).all isSafe

/-- Nothing in the table has expired, and no number has outgrown the safe integers. -/
def Healthy (s : SharedTable Unit U) : Prop :=
  ∀ entry ∈ s.table.entries, isExpiredItem s.clockMs entry.1 entry.2 = false ∧
    isSafeItem entry.1 entry.2 = true

instance : DecidablePred (Healthy (U := U)) :=
  fun s => inferInstanceAs (Decidable (∀ entry ∈ s.table.entries, _))

/-- However a call ends alone, it ends like this. -/
abbrev CallEnds {α : Type} (post : Except StoreError α → SharedTable Unit U → Prop) (call : Call U α)
    (s : SharedTable Unit U) : Prop :=
  Ends serveAlone Healthy post call.run s

variable {s s' : SharedTable Unit U}

theorem healthy_item (h : Healthy s) {key : Key} {item : Item U key}
    (hitem : s.table.lookup key = some item) :
    isExpiredItem s.clockMs key item = false ∧ isSafeItem key item = true :=
  h ⟨key, item⟩ (List.of_mem_dlookup hitem)

/-- Nothing was written. -/
structure Read (s s' : SharedTable Unit U) : Prop where
  table : s'.table = s.table
  healthy : Healthy s'

theorem Read.trans {s'' : SharedTable Unit U} (h : Read s s') (h' : Read s' s'') : Read s s'' :=
  ⟨h'.table.trans h.table, h'.healthy⟩

theorem table_prepare_alone (pace : Pace) (s : SharedTable Unit U) :
    (s.prepare ⟨pace.elapsedMs, [], .served, pace.pageSize⟩).table = s.table := rfl

theorem ends_getSessionItem (key : Key) :
    CallEnds (Returns fun item s' => item = s.table.lookup key ∧ Read s s') (getSessionItem key) s := by
  have hask : CallEnds (Returns fun answer s' => answer = .ok (s.table.lookup key) ∧ Read s s')
      (ask (TableRequest.getItem key)) s :=
    ends_ask fun pace hhealthy => ⟨rfl, rfl, hhealthy⟩
  refine ends_seq hask ?_
  rintro _ s' ⟨rfl, hread⟩
  exact ends_return ⟨rfl, hread⟩

theorem ends_now : CallEnds (Returns fun t s' => t = s'.clockMs ∧ Read s s') now s := by
  refine @ends_ask _ _ _ _ _ serveAlone Healthy TableRequest.now (fun t s' => t = s'.clockMs ∧
    Read s s') s ?_
  intro pace hhealthy
  exact ⟨rfl, rfl, hhealthy⟩

/-- The item arrives as it is. -/
def arrived {α : Type} : Option α → Presence α
  | none => .absent
  | some item => .active item

theorem ends_readItem (key : Key) :
    CallEnds (Returns fun presence s' => presence = arrived (s.table.lookup key) ∧ Read s s')
      (readItem key) s := by
  refine ends_seq (ends_getSessionItem key) ?_
  rintro item s₁ ⟨rfl, hread⟩
  cases hitem : s.table.lookup key with
  | none => exact ends_return ⟨rfl, hread⟩
  | some item =>
    refine ends_seq ends_now ?_
    rintro _ s₂ ⟨rfl, hread'⟩
    refine ends_return ⟨?_, hread.trans hread'⟩
    rw [(healthy_item hread'.healthy (hread'.table ▸ hread.table ▸ hitem)).1]
    rfl

theorem ends_readActive {α : Type} (key : Key) {parse : Item U key → Option α} {message : String}
    {parsed : Option α} (hparsed : (s.table.lookup key).map parse = parsed.map some) :
    CallEnds (Returns fun result s' => result = parsed ∧ Read s s')
      (readActive key parse message) s := by
  refine ends_seq (ends_readItem key) ?_
  rintro _ s₁ ⟨rfl, hread⟩
  cases hitem : s.table.lookup key with
  | none =>
    rw [hitem] at hparsed
    cases parsed with
    | none => exact ends_return ⟨rfl, hread⟩
    | some parsed => cases hparsed
  | some item =>
    rw [hitem] at hparsed
    cases parsed with
    | none => cases hparsed
    | some parsed =>
      have hparse : parse item = some parsed := Option.some.inj hparsed
      simp only [arrived, admitActive, hparse]
      exact ends_return ⟨rfl, hread⟩

/-- A transaction whose conditions hold. -/
theorem ends_writeTransaction {operation : Operation} {items : List (TransactItem (Item U))}
    (hlength : items.length ≤ maxDynamodbTransactionItems) (hkeys : (keysOf items).Nodup)
    (hconditions : conditionsHold items s.table = true) :
    CallEnds (Returns fun _ s' => s'.table = commit items s.table ∧ Healthy s')
      (writeTransaction operation items) s := by
  have hserved : ∀ pace, serveAlone pace (.transactWrite operation items) s =
      (.committed, (s.prepare ⟨pace.elapsedMs, [], .served, pace.pageSize⟩).put
        (commit items s.table)) := by
    intro pace
    simp only [serveAlone, serve, serveNow, SharedTable.transact, table_prepare_alone, hkeys,
      hconditions, not_true, if_true, if_false, and_self]
  have hask :
      CallEnds (Returns fun answer s' => answer = .committed ∧
        s'.table = commit items s.table ∧ Healthy s')
      (ask (TableRequest.transactWrite operation items)) s := by
    refine ends_ask fun pace hhealthy => ?_
    rw [hserved] at hhealthy ⊢
    exact ⟨rfl, rfl, hhealthy⟩
  unfold writeTransaction
  rw [if_neg (Nat.not_lt.mpr hlength)]
  refine ends_seq hask ?_
  rintro _ s' ⟨rfl, hwritten⟩
  exact ends_return hwritten

end StarkBallot.AwsAdapters.Dynamo
