import StarkBallot.Schemes.Async
import StarkBallot.AwsAdapters.DynamoRecords

/-! The tables as the clients of the store see them. A client reads one item, one page of a session's
    votes or the clock, or writes one transaction; between two of its requests any other client may be
    served, time passes, and items that have expired may be removed. A transaction goes through as a
    whole when all its conditions hold. An answer can get lost after the transaction went through.

    What was in the tables before is kept beside them, with the moment at which each client read each
    key last: the tables only grow in this sense (`Grows`), and what a client has
    seen it has seen for good. -/

namespace StarkBallot.AwsAdapters.Dynamo
open Schemes Domain Application

variable {U : Type}

/-! ### Requests -/

/-- What a transaction is for. -/
inductive Operation where
  | createSession
  | votes
  | touch (liveExpiresAt : ℕ)
  | lifecycle
  | commit
  | writeVerification
  | rollbackVerification
  deriving DecidableEq

structure VotePage where
  items : List VoteItem
  lastEvaluated : Option ℕ

inductive TableRequest (U : Type) where
  | getItem (key : Key)
  | queryVotes (sessionId : JsString) (exclusiveStart : Option ℕ)
  | transactWrite (operation : Operation) (items : List (TransactItem (Item U)))
  | now

@[reducible] def TableRequest.Answer : TableRequest U → Type
  | .getItem key => Except Unit (Option (Item U key))
  | .queryVotes _ _ => Except Unit VotePage
  | .transactWrite _ _ => TransactAnswer
  | .now => ℕ

inductive StoreError where
  | sessionNotFound
  | conditionalConflict
  | failed
  | js (error : JsError)
  deriving DecidableEq

/-- A call of the store: requests, one after the other, and a result or an error. -/
abbrev Call (U : Type) := ExceptT StoreError (Async (TableRequest U) TableRequest.Answer)

/-! ### The tables -/

/-- How a request fares: it is served, it fails without an effect, or its answer is lost. -/
inductive Fate where
  | served
  | failed
  | lost
  deriving DecidableEq

/-- What is not up to the clients: the time that passes before a request is served, the expired items
    that are removed by then, how the request fares, and how many more than one item a page holds. -/
structure Choice where
  elapsedMs : ℕ
  removed : List Key
  fate : Fate
  pageSize : ℕ

/-- A request that fails at once. -/
def Choice.refusing : Choice := ⟨0, [], .failed, 0⟩

structure SharedTable (ι U : Type) where
  table : AList (Item U)
  clockMs : ℕ
  past : List (AList (Item U))
  readAt : ι → Key → ℕ

variable {ι : Type}

namespace SharedTable

/-- The tables so far, the present one last. -/
def tables (s : SharedTable ι U) : List (AList (Item U)) := s.past ++ [s.table]

def put (s : SharedTable ι U) (table : AList (Item U)) : SharedTable ι U :=
  { s with table := table, past := s.past ++ [s.table] }

def isExpiredAt (s : SharedTable ι U) (key : Key) : Bool :=
  (s.table.lookup key).any (isExpiredItem s.clockMs key)

/-- Some expired items are removed. -/
def remove (s : SharedTable ι U) (keys : List Key) : SharedTable ι U :=
  s.put ((keys.filter s.isExpiredAt).foldl (fun table key => table.erase key) s.table)

def prepare (s : SharedTable ι U) (choice : Choice) : SharedTable ι U :=
  let later := { s with clockMs := s.clockMs + choice.elapsedMs }
  if choice.removed = [] then later else later.remove choice.removed

end SharedTable

/-- The vote of the session under a key. -/
def voteOf (sessionId : JsString) : Sigma (Item U) → Option VoteItem
  | ⟨.vote owner _, item⟩ => if owner = sessionId then some item.1 else none
  | _ => none

/-- The votes of a session after some index, in the order of their indices. -/
def votesAfter (table : AList (Item U)) (sessionId : JsString) (start : Option ℕ) : List VoteItem :=
  (((table.entries.filterMap (voteOf sessionId)).filter fun item => start.all
    (· < item.voteIndex)).mergeSort fun left right => left.voteIndex ≤ right.voteIndex)

def pageOf (table : AList (Item U)) (sessionId : JsString) (start : Option ℕ) (pageSize : ℕ) :
    VotePage :=
  let rest := votesAfter table sessionId start
  let items := rest.take (pageSize + 1)
  ⟨items, if items.length < rest.length then items.getLast?.map (·.voteIndex) else none⟩

/-- A transaction goes through as a whole or not at all. -/
def SharedTable.transact (s : SharedTable ι U) (items : List (TransactItem (Item U))) :
    SharedTable ι U :=
  if (keysOf items).Nodup ∧ conditionsHold items s.table = true then s.put (commit items s.table) else s

section Serve

variable [DecidableEq ι]

def SharedTable.noteRead (s : SharedTable ι U) (c : ι) (key : Key) : SharedTable ι U :=
  { s with readAt := Function.update s.readAt c (Function.update (s.readAt c) key s.past.length) }

/-- Serve a request on tables that are prepared. A transaction with a key twice is refused as such. -/
def serveNow (c : ι) (fate : Fate) (pageSize : ℕ) :
    (r : TableRequest U) → SharedTable ι U → r.Answer × SharedTable ι U
  | .getItem key, s =>
    if fate = .served then (.ok (s.table.lookup key), s.noteRead c key)
    else (.error (), s)
  | .queryVotes sessionId start,
      s => (if fate = .served then .ok (pageOf s.table sessionId start pageSize) else .error (), s)
  | .transactWrite _ items, s =>
    match fate with
    | .served =>
      (if ¬ (keysOf items).Nodup then .thrown
        else if conditionsHold items s.table then .committed else .conditionalConflict, s.transact items)
    | .lost => (.thrown, s.transact items)
    | .failed => (.thrown, s)
  | .now, s => (s.clockMs, s)

def serve (c : ι) (choice : Choice) (r : TableRequest U) (s : SharedTable ι U) :
    r.Answer × SharedTable ι U :=
  serveNow c choice.fate choice.pageSize r (s.prepare choice)

end Serve

/-! ### Calls -/

section Calls

def orFailed {α : Type} : Except Unit α → Call U α
  | .ok a => return a
  | .error _ => throw .failed

def liftJs {α : Type} : JsM α → Call U α
  | .ok a => return a
  | .error e => throw (.js e)

def storeError {α : Type} (message : String) : Call U α := throw (.js (.error message))

def getSessionItem (key : Key) : Call U (Option (Item U key)) :=
  ask (TableRequest.getItem key) >>= orFailed

def now : Call U ℕ := ask TableRequest.now

/-- An item as it arrives. -/
inductive Presence (α : Type) where
  | absent
  | expired
  | active (item : α)

/-- Read an item, and the clock to tell whether the item has expired. -/
def readItem (key : Key) : Call U (Presence (Item U key)) := do
  match ← getSessionItem key with
  | none => return .absent
  | some item =>
    let nowMs ← now
    return if isExpiredItem nowMs key item then .expired else .active item

/-- Expired items are unavailable; malformed active items fail closed. -/
def admitActive {α β : Type} (presence : Presence α) (parse : α → Option β) (message : String) :
    Call U (Option β) :=
  match presence with
  | .active item =>
    match parse item with
    | some parsed => return some parsed
    | none => storeError message
  | _ => return none

def readActive {α : Type} (key : Key) (parse : Item U key → Option α) (message : String) :
    Call U (Option α) := do
  let presence ← readItem key
  admitActive presence parse message

def maxDynamodbTransactionItems : ℕ := 100

def maxConditionalRetries : ℕ := 3

def writeTransaction (operation : Operation) (items : List (TransactItem (Item U))) : Call U Unit := do
  if maxDynamodbTransactionItems < items.length then
    storeError "DynamoDB transaction item limit exceeded"
  else
    match ← ask (TableRequest.transactWrite operation items) with
    | TransactAnswer.committed => return
    | .conditionalConflict => throw .conditionalConflict
    | .thrown => throw .failed

/-- The loop of a call that starts again when a condition failed, a bounded number of times; `round`
    returns nothing for such a round. -/
def retrying {α : Type} (exhausted : String) (round : ℕ → Call U (Option α)) : (left : ℕ) → Call U α
  | 0 => storeError exhausted
  | left + 1 => do
    match ← round (maxConditionalRetries - (left + 1)) with
    | some result => return result
    | none => retrying exhausted round left

/-- Catch a failed condition unless it is the last round. -/
def catchConflict (attemptIndex : ℕ) (call : Call U Unit) : Call U Bool := do
  match ← attempt call with
  | .ok _ => return true
  | .error e =>
    if e ≠ .conditionalConflict ∨ attemptIndex + 1 = maxConditionalRetries then throw e
    else return false

end Calls

end StarkBallot.AwsAdapters.Dynamo
