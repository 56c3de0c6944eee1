import StarkBallot.Schemes.Async
import StarkBallot.Schemes.Numerals
import StarkBallot.Schemes.Pages
import StarkBallot.Domain.Hex
import Mathlib.Data.Rat.Floor

/-! The rate limits that several servers share through a table
    (`aws-adapters/src/rate-limit/dynamoRateLimit.ts`, `dynamoRateLimitStore.ts`). A call puts an event
    of its own into the table and counts the events of its scope in the window that ends now; it is
    allowed if these, its own included, are within the limit.

        now ── put the event ── count, page by page ──▶ allowed
                                   │ over the limit
                                   ▼
                              the oldest event ──▶ denied, and when to try again

    A key is the moment in milliseconds, 16 digits wide, and a random part after `#`; the window begins
    after the key of its first moment with `~`, which is greater than `#`. The table removes an event
    when the second has passed up to which it is to be kept. Requests fail, or go through and their
    answer gets lost; between two requests of a call the others run.

    Limits and windows are exact numbers, however they are configured. The counters for all clients
    together, and the calls that only check or only record, are left out. -/

namespace StarkBallot.AwsAdapters.RateLimit
open Schemes Domain

/-! ### The store -/

/-- An item of the table of events. -/
structure EventItem where
  scope : JsString
  eventKey : JsString
  timestamp : ℕ
  expiresAt : ℤ
  deriving DecidableEq

def formatEventTimestampPrefix (timestamp : ℚ) : JsString := padStart (decimal ⌊timestamp⌋.toNat) 16 '0'

def createEventKey (timestamp : ℚ) (uuid : JsString) : JsString :=
  formatEventTimestampPrefix timestamp ++ '#' :: uuid

def createCutoffEventKey (timestamp : ℚ) : JsString := formatEventTimestampPrefix timestamp ++ ['~']

/-- What a call asks for. A count or a lookup is of the events of a scope after some key. -/
inductive EventRequest where
  | now
  | randomUuid
  | put (item : EventItem)
  | queryCount (scope cutoff : JsString) (exclusiveStart : Option JsString)
  | queryOldest (scope cutoff : JsString)

structure CountPage where
  count : ℕ
  lastEvaluated : Option JsString

@[reducible] def EventRequest.Answer : EventRequest → Type
  | .now => ℕ
  | .randomUuid => JsString
  | .put _ => Except Unit Unit
  | .queryCount _ _ _ => Except Unit CountPage
  | .queryOldest _ _ => Except Unit (Option ℕ)

/-- `stillCounting`: nothing is returned, since there was one more page after all that were asked for. -/
inductive RateLimitError where
  | storeError (operation : JsString)
  | invalidDate
  | stillCounting
  deriving DecidableEq

abbrev Call := ExceptT RateLimitError (Async EventRequest EventRequest.Answer)

def orStoreError {α : Type} (operation : JsString) : Except Unit α → Call α
  | .ok a => return a
  | .error _ => throw (.storeError operation)

def recordEvent (scope : JsString) (timestamp : ℕ) (expiresAt : ℚ) : Call Unit := do
  let uuid ← ask EventRequest.randomUuid
  ask (EventRequest.put ⟨scope, createEventKey timestamp uuid, timestamp, ⌊expiresAt / 1000⌋⟩) >>=
    orStoreError (js "recordEvent")

/-- The loop over the pages, a bounded number of them. -/
def countPages (scope cutoff : JsString) :
    (pages : ℕ) → (count : ℕ) → (exclusiveStart : Option JsString) → Call ℕ
  | 0, _, _ => throw .stillCounting
  | pages + 1, count, exclusiveStart => do
    let result ← ask (EventRequest.queryCount scope cutoff exclusiveStart) >>=
        orStoreError (js "countEvents")
    match result.lastEvaluated with
    | none => return count + result.count
    | some last => countPages scope cutoff pages (count + result.count) (some last)

def countEvents (pages : ℕ) (scope : JsString) (sinceTimestamp : ℚ) : Call ℕ :=
  countPages scope (createCutoffEventKey sinceTimestamp) pages 0 none

def getOldestEventTimestamp (scope : JsString) (sinceTimestamp : ℚ) : Call (Option ℕ) :=
  ask (EventRequest.queryOldest scope (createCutoffEventKey sinceTimestamp)) >>=
    orStoreError (js "getOldestEventTimestamp")

/-! ### The limiters -/

/-- How many calls a window of this length allows. -/
structure WindowLimit where
  limit : ℚ
  windowMs : ℚ
  limit_pos : 0 < limit

/-- A `DynamoVoteRateLimiter` or a `DynamoServerRateLimiter`: both count alike. -/
structure DynamoRateLimiter extends WindowLimit where
  scopePrefix : JsString

def buildIpScope (ipAddress scopePrefix : JsString) : JsString := scopePrefix ++ '#' :: ipAddress

structure EventWindow where
  now : ℕ
  cutoff : ℚ
  scope : JsString

def currentEventWindow (ipAddress scopePrefix : JsString) (windowMs : ℚ) : Call EventWindow := do
  let now ← ask EventRequest.now
  return ⟨now, now - windowMs, buildIpScope ipAddress scopePrefix⟩

def consumeEventWindow (pages : ℕ) (ipAddress scopePrefix : JsString) (windowMs : ℚ) :
    Call (EventWindow × ℕ) := do
  let window ← currentEventWindow ipAddress scopePrefix windowMs
  recordEvent window.scope window.now (window.now + windowMs)
  let count ← countEvents pages window.scope window.cutoff
  return (window, count)

structure VoteRateLimitResult where
  allowed : Bool
  remaining : ℚ
  retryAfter : Option ℤ
  deriving DecidableEq

/-- `nextAvailableAt` is the moment whose text the source gives. -/
structure ZkVmRateLimitResult where
  allowed : Bool
  remainingExecutions : ℚ
  nextAvailableAt : Option ℤ
  deriving DecidableEq

def computeRetryAfter (windowStart : ℕ) (durationMs : ℚ) (now : ℕ) : ℤ :=
  max 0 ⌈(windowStart + durationMs - now) / 1000⌉

/-- A `Date` holds whole milliseconds, up to 8.64e15 either way; any other has no text. -/
def buildNextAvailableAt (oldestTimestamp : ℕ) (windowMs : ℚ) : Call ℤ :=
  let next : ℚ := oldestTimestamp + windowMs
  if |next| ≤ 8640000000000000 then return next.num.tdiv next.den else throw .invalidDate

/-- A timestamp that is missing or zero. -/
def isFalsy (timestamp : Option ℕ) : Bool := timestamp.all (· = 0)

def deniedVote (limiter : DynamoRateLimiter) (window : EventWindow) : Call VoteRateLimitResult := do
  let oldest ← getOldestEventTimestamp window.scope window.cutoff
  let retryAfter := if isFalsy oldest then ⌈limiter.windowMs / 1000⌉
    else computeRetryAfter (oldest.getD 0) limiter.windowMs window.now
  return ⟨false, 0, some retryAfter⟩

def consume (pages : ℕ) (limiter : DynamoRateLimiter) (ipAddress : JsString) :
    Call VoteRateLimitResult := do
  let (window, count) ← consumeEventWindow pages ipAddress limiter.scopePrefix limiter.windowMs
  if limiter.limit < count then deniedVote limiter window
  else return ⟨true, max 0 (limiter.limit - count), none⟩

def deniedExecution (limiter : DynamoRateLimiter) (window : EventWindow) : Call ZkVmRateLimitResult := do
  let oldest ← getOldestEventTimestamp window.scope window.cutoff
  let nextAvailableAt ← buildNextAvailableAt (if isFalsy oldest then window.now else oldest.getD 0)
      limiter.windowMs
  return ⟨false, 0, some nextAvailableAt⟩

def consumeZkVmExecution (pages : ℕ) (limiter : DynamoRateLimiter) (ipAddress : JsString) :
    Call ZkVmRateLimitResult := do
  let (window, count) ← consumeEventWindow pages ipAddress limiter.scopePrefix limiter.windowMs
  if limiter.limit < count then deniedExecution limiter window
  else return ⟨true, max 0 (limiter.limit - count), none⟩

/-! ### The table -/

/-- How a request fares: it is served, it fails without an effect, or its answer is lost. -/
inductive Fate where
  | served
  | failed
  | lost
  deriving DecidableEq

/-- What is not up to the calls: the time that passes before a request is served, the expired events
    that are removed by then, how the request fares, how many more than one event a page holds, and
    whether a last page says that there may be more. -/
structure Choice where
  elapsedMs : ℕ
  removed : List JsString
  fate : Fate
  pageSize : ℕ
  lingers : Bool

/-- The events and the clock; beside them which calls have put their event so far, in order, when a call
    read the clock, and when it read its last page. -/
structure EventTable (ι : Type) where
  items : List EventItem
  clockMs : ℕ
  recorded : List (ι × EventItem)
  startedAt : ι → ℕ
  countedAt : ι → ℕ

variable {ι : Type}

/-- The second has passed up to which the event is kept. -/
def isExpired (clockMs : ℕ) (item : EventItem) : Bool := item.expiresAt < (clockMs / 1000 : ℕ)

namespace EventTable

/-- Time passes, and some expired events are removed. -/
def prepare (s : EventTable ι) (choice : Choice) : EventTable ι :=
  let clockMs := s.clockMs + choice.elapsedMs
  { s with
    items := s.items.filter fun item => ¬ (item.eventKey ∈ choice.removed ∧ isExpired clockMs item)
    clockMs := clockMs }

def put (s : EventTable ι) (c : ι) (item : EventItem) : EventTable ι :=
  { s with
    items := s.items.filter
      (fun other => ¬ (other.scope = item.scope ∧ other.eventKey = item.eventKey)) ++ [item]
    recorded := s.recorded ++ [(c, item)] }

/-- The keys of the events of a scope after the cutoff. -/
def keysSince (s : EventTable ι) (scope cutoff : JsString) : List JsString :=
  (s.items.filter fun item => item.scope = scope ∧ cutoff < item.eventKey).map (·.eventKey)

end EventTable

section Serve

variable [DecidableEq ι] (uuid : ι → JsString)

def serveNow (c : ι) (choice : Choice) : (r : EventRequest) → EventTable ι → r.Answer × EventTable ι
  | .now, s => (s.clockMs, { s with startedAt := Function.update s.startedAt c s.clockMs })
  | .randomUuid, s => (uuid c, s)
  | .put item, s =>
    match choice.fate with
    | .served => (.ok (), s.put c item)
    | .lost => (.error (), s.put c item)
    | .failed => (.error (), s)
  | .queryCount scope cutoff start, s =>
    let page := pageAfter (s.keysSince scope cutoff) start choice.pageSize choice.lingers
    (if choice.fate = .served then .ok ⟨page.keys.length, page.last⟩ else .error (),
      { s with countedAt := Function.update s.countedAt c s.clockMs })
  | .queryOldest scope cutoff, s =>
    let first := (pageAfter (s.keysSince scope cutoff) none 0 true).last
    (if choice.fate = .served then
        .ok ((s.items.find? fun item => item.scope = scope ∧ some item.eventKey = first).map
          (·.timestamp))
      else .error (), s)

def serve (c : ι) (choice : Choice) (r : EventRequest) (s : EventTable ι) : r.Answer × EventTable ι :=
  serveNow uuid c choice r (s.prepare choice)

end Serve

/-! ### Calls of any number of servers -/

inductive LimiterKind where
  | vote
  | zkVm
  deriving DecidableEq

/-- A call for a client, of a limiter of either kind, that reads a bounded number of pages. -/
structure ConsumeCall where
  kind : LimiterKind
  limiter : DynamoRateLimiter
  ipAddress : JsString
  pages : ℕ

inductive ConsumeResult where
  | vote (result : VoteRateLimitResult)
  | zkVm (result : ZkVmRateLimitResult)
  deriving DecidableEq

def ConsumeResult.allowed : ConsumeResult → Bool
  | .vote result => result.allowed
  | .zkVm result => result.allowed

namespace ConsumeCall

def scope (call : ConsumeCall) : JsString := buildIpScope call.ipAddress call.limiter.scopePrefix

def run (call : ConsumeCall) : Call ConsumeResult :=
  match call.kind with
  | .vote => .vote <$> consume call.pages call.limiter call.ipAddress
  | .zkVm => .zkVm <$> consumeZkVmExecution call.pages call.limiter call.ipAddress

end ConsumeCall

abbrev Limiting (ι : Type) :=
  Concurrent ι (EventTable ι) EventRequest EventRequest.Answer (Except RateLimitError ConsumeResult)

/-- The calls at their beginning, on any events that are there. -/
def atStart (calls : ι → ConsumeCall) (items : List EventItem) (clockMs : ℕ) : Limiting ι :=
  ⟨⟨items, clockMs, [], fun _ => 0, fun _ => 0⟩, fun c => (calls c).run.run⟩

/-- The call has returned, and was allowed. -/
def isAllowed (system : Limiting ι) (c : ι) : Bool :=
  match system.programs c with
  | .done (.ok result) => result.allowed
  | _ => false

section Runs

variable [DecidableEq ι]

/-- `uuid` is what `randomUUID` gives each call. -/
def runLimits (calls : ι → ConsumeCall) (uuid : ι → JsString) (items : List EventItem) (clockMs : ℕ)
    (schedule : List (ι × Choice)) : Limiting ι :=
  runSchedule (serve uuid) (atStart calls items clockMs) schedule

end Runs

end StarkBallot.AwsAdapters.RateLimit
