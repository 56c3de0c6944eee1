import StarkBallot.AwsAdapters.RateLimits
import Mathlib.Data.Finset.Max
import Mathlib.Data.Nat.Cast.Order.Field
import Mathlib.Tactic.Linarith

/-! What the rate limits keep, however the calls take turns. Every call puts its event before it counts,
    so the call among those allowed that put its event last counts the events of all of them, unless one
    was removed before that: an event is kept at least as long as the window. -/

namespace StarkBallot.AwsAdapters.RateLimit
open Schemes Domain

variable {ι : Type}

/-! ### Keys -/

section Keys

theorem prefix_isDigit {timestamp : ℚ} :
    ∀ c ∈ formatEventTimestampPrefix timestamp, c.isDigit = true := by
  intro c hc
  rcases List.mem_append.mp hc with hzero | hdigit
  · obtain ⟨-, rfl⟩ := List.mem_replicate.mp hzero
    rfl
  · exact isDigit_of_mem_decimal c hdigit

theorem prefix_number (timestamp : ℚ) :
    Nat.ofDigitChars 10 (formatEventTimestampPrefix timestamp) 0 = ⌊timestamp⌋.toNat :=
    ofDigitChars_zeros _ _

/-- Sixteen digits are enough. -/
theorem prefix_length {timestamp : ℚ} (h : ⌊timestamp⌋.toNat < 10 ^ 16) :
    (formatEventTimestampPrefix timestamp).length = 16 := by
  have hlength := (decimal_length_le (by decide)).mpr h
  rw [formatEventTimestampPrefix, padStart, List.length_append, List.length_replicate]
  omega

/-- ORDER: an event after the first moment of the window comes after the cutoff. -/
theorem cutoff_lt_eventKey {since timestamp : ℚ} (hlt : ⌊since⌋.toNat < ⌊timestamp⌋.toNat)
    (hbound : ⌊timestamp⌋.toNat < 10 ^ 16) (uuid : JsString) :
    createCutoffEventKey since < createEventKey timestamp uuid := by
  have hlength := prefix_length hbound
  have hlength' := prefix_length (hlt.trans hbound)
  refine append_lt_append (hlength'.trans hlength.symm) ?_ _ _
  refine lt_of_ofDigitChars_lt (hlength'.trans hlength.symm) prefix_isDigit prefix_isDigit ?_
  rwa [prefix_number, prefix_number]

/-- A key tells its random part: that is what follows the first character that is no digit. -/
theorem uuid_of_eventKey {timestamp timestamp' : ℚ} {uuid uuid' : JsString}
    (h : createEventKey timestamp uuid = createEventKey timestamp' uuid') : uuid = uuid' := by
  have hdrop (t : ℚ) (u : JsString) : (createEventKey t u).dropWhile Char.isDigit = '#' :: u := by
    rw [createEventKey, List.dropWhile_append_of_pos prefix_isDigit]
    rfl
  have hsame := congrArg (List.dropWhile Char.isDigit) h
  rw [hdrop, hdrop] at hsame
  exact List.tail_eq_of_cons_eq hsame

end Keys

/-! ### What holds between two requests -/

/-- An event is there until it has expired; a call puts at most one, under a key of its own. -/
structure EventsKept (uuid : ι → JsString) (s : EventTable ι) : Prop where
  kept : ∀ entry ∈ s.recorded, entry.2 ∈ s.items ∨ isExpired s.clockMs entry.2 = true
  once : (s.recorded.map Prod.fst).Nodup
  keyed : ∀ entry ∈ s.recorded, ∃ timestamp : ℚ,
    entry.2.eventKey = createEventKey timestamp (uuid entry.1)
  started : ∀ c, s.startedAt c ≤ s.clockMs

/-- What the others may do: time passes and they put events. -/
structure Later (c : ι) (s s' : EventTable ι) : Prop where
  clock : s.clockMs ≤ s'.clockMs
  recorded : ∃ more, s'.recorded = s.recorded ++ more ∧ c ∉ more.map Prod.fst
  startedAt : s'.startedAt c = s.startedAt c
  countedAt : s'.countedAt c = s.countedAt c

variable {c d : ι} {s s' s'' : EventTable ι} {uuid : ι → JsString}

theorem Later.refl (c : ι) (s : EventTable ι) : Later c s s :=
  ⟨le_rfl, ⟨[], (List.append_nil _).symm, List.not_mem_nil⟩, rfl, rfl⟩

theorem Later.trans (h : Later c s s') (h' : Later c s' s'') : Later c s s'' := by
  obtain ⟨more, hmore, hown⟩ := h.recorded
  obtain ⟨more', hmore', hown'⟩ := h'.recorded
  refine ⟨h.clock.trans h'.clock, ⟨more ++ more', ?_, ?_⟩, h'.startedAt.trans h.startedAt,
    h'.countedAt.trans h.countedAt⟩
  · rw [hmore', hmore, List.append_assoc]
  · rw [List.map_append, List.mem_append]
    exact not_or.mpr ⟨hown, hown'⟩

theorem relies_later : Relies (Later (ι := ι)) := ⟨Later.refl, fun _ _ _ _ => Later.trans⟩

/-- The call has put no event yet. -/
def Unrecorded (c : ι) (s : EventTable ι) : Prop := c ∉ s.recorded.map Prod.fst

theorem Unrecorded.later (h : Unrecorded c s) (hlater : Later c s s') : Unrecorded c s' := by
  obtain ⟨more, hmore, hown⟩ := hlater.recorded
  rw [Unrecorded, hmore, List.map_append, List.mem_append]
  exact not_or.mpr ⟨h, hown⟩

theorem prefix_later {events : List (ι × EventItem)} (h : events <+: s.recorded)
    (hlater : Later c s s') :
    events <+: s'.recorded := by
  obtain ⟨more, hmore, -⟩ := hlater.recorded
  rw [hmore]
  exact h.trans (List.prefix_append _ _)

theorem isExpired_mono {clock clock' : ℕ} (hclock : clock ≤ clock') {item : EventItem}
    (h : isExpired clock item = true) : isExpired clock' item = true := by
  have hseconds : clock / 1000 ≤ clock' / 1000 := Nat.div_le_div_right hclock
  simp only [isExpired, decide_eq_true_eq] at h ⊢
  omega

theorem later_prepare (d : ι) (choice : Choice) : Later d s (s.prepare choice) :=
  ⟨Nat.le_add_right _ _, (Later.refl d s).recorded, rfl, rfl⟩

/-- Only what has expired is removed. -/
theorem EventsKept.prepare (h : EventsKept uuid s) (choice : Choice) :
    EventsKept uuid (s.prepare choice) := by
  refine ⟨?_, h.once, h.keyed, fun c => (h.started c).trans (Nat.le_add_right _ _)⟩
  intro entry hentry
  by_cases hexpired : isExpired (s.clockMs + choice.elapsedMs) entry.2 = true
  · exact .inr hexpired
  · rcases h.kept entry hentry with hitem | hold
    · refine .inl (List.mem_filter.mpr ⟨hitem, ?_⟩)
      simp [hexpired]
    · exact absurd (isExpired_mono (Nat.le_add_right _ _) hold) hexpired

/-- Two calls have different keys. -/
theorem EventsKept.keys_nodup (h : EventsKept uuid s) (huuid : Function.Injective uuid)
    {events : List (ι × EventItem)} (hevents : events.Sublist s.recorded) :
    (events.map fun entry => entry.2.eventKey).Nodup := by
  have honce : (events.map Prod.fst).Nodup := h.once.sublist (hevents.map _)
  rw [List.nodup_map_iff_inj_on (List.Nodup.of_map _ honce)]
  intro entry hentry entry' hentry' hkey
  obtain ⟨t, ht⟩ := h.keyed entry (hevents.subset hentry)
  obtain ⟨t', ht'⟩ := h.keyed entry' (hevents.subset hentry')
  rw [ht, ht'] at hkey
  exact List.inj_on_of_nodup_map honce hentry hentry' (huuid (uuid_of_eventKey hkey))

/-- The events up to the call's own, which is the last of them. -/
structure Recorded (c : ι) (item : EventItem) (now : ℕ) (before : List (ι × EventItem))
    (s : EventTable ι) : Prop where
  isPrefix : before ++ [(c, item)] <+: s.recorded
  startedAt : s.startedAt c = now

theorem Recorded.later {item : EventItem} {now : ℕ} {before : List (ι × EventItem)}
    (h : Recorded c item now before s) (hlater : Later c s s') : Recorded c item now before s' :=
  ⟨prefix_later h.isPrefix hlater, hlater.startedAt.trans h.startedAt⟩

/-- STEP: an event of a new key replaces none. -/
theorem EventsKept.put (h : EventsKept uuid s) (huuid : Function.Injective uuid) (hown : Unrecorded c s)
    {item : EventItem} {timestamp : ℚ} (hkey : item.eventKey = createEventKey timestamp (uuid c)) :
    EventsKept uuid (s.put c item) := by
  refine ⟨?_, ?_, ?_, h.started⟩
  · intro entry hentry
    rcases List.mem_append.mp hentry with hold | hnew
    · rcases h.kept entry hold with hitem | hexpired
      · refine .inl (List.mem_append_left _ (List.mem_filter.mpr ⟨hitem, ?_⟩))
        have hne : entry.2.eventKey ≠ item.eventKey := by
          obtain ⟨timestamp', hkey'⟩ := h.keyed entry hold
          rw [hkey, hkey']
          intro hsame
          exact hown (List.mem_map.mpr ⟨entry, hold, huuid (uuid_of_eventKey hsame)⟩)
        simp [hne]
      · exact .inr hexpired
    · rw [List.mem_singleton.mp hnew]
      exact .inl (List.mem_append_right _ (List.mem_singleton_self item))
  · change ((s.recorded ++ [(c, item)]).map Prod.fst).Nodup
    rw [List.map_append, List.nodup_append]
    refine ⟨h.once, List.nodup_singleton _, ?_⟩
    rintro d hd _ hc rfl
    obtain rfl : d = c := List.mem_singleton.mp hc
    exact hown hd
  · intro entry hentry
    rcases List.mem_append.mp hentry with hold | hnew
    · exact h.keyed entry hold
    · rw [List.mem_singleton.mp hnew]
      exact ⟨timestamp, hkey⟩

theorem later_put (hd : d ≠ c) (item : EventItem) : Later d s (s.put c item) := by
  refine ⟨le_rfl, ⟨[(c, item)], rfl, ?_⟩, rfl, rfl⟩
  simpa using hd

/-! ### Requests -/

section Requests

variable [DecidableEq ι]

abbrev LimitSafe {α : Type} (uuid : ι → JsString) (c : ι) (post : α → EventTable ι → Prop) (p : Call α)
    (s : EventTable ι) : Prop :=
  Safe (serve uuid) (EventsKept uuid) Later c (returned post) p.run s

/-- It is enough to look at the moment when the request is served. -/
theorem safe_request {r : EventRequest} {post : r.Answer → EventTable ι → Prop}
    (h : ∀ s' choice, Later c s s' → EventsKept uuid s' →
      EventsKept uuid (serveNow uuid c choice r s').2 ∧
      (∀ d, d ≠ c → Later d s' (serveNow uuid c choice r s').2) ∧
        post (serveNow uuid c choice r s').1 (serveNow uuid c choice r s').2) :
    LimitSafe uuid c post (ask r) s := by
  intro s' choice hlater hkept
  obtain ⟨hkeeps, hothers, hpost⟩ :=
    h (s'.prepare choice) choice (hlater.trans (later_prepare c choice)) (hkept.prepare choice)
  refine ⟨hkeeps, fun d hd => (later_prepare d choice).trans (hothers d hd), ?_⟩
  rintro _ ⟨⟩
  exact hpost

theorem safe_orStoreError {α : Type} {operation : JsString} {answer : Except Unit α}
    {post : α → EventTable ι → Prop} (h : ∀ a, answer = .ok a → post a s) :
    LimitSafe uuid c post (orStoreError operation answer) s := by
  cases answer with
  | error _ => exact safe_throw
  | ok a => exact safe_pure (h a rfl)

theorem safe_now (h : Unrecorded c s) :
    LimitSafe uuid c (fun now s' => Unrecorded c s' ∧ s'.startedAt c = now)
      (ask EventRequest.now) s := by
  refine safe_request ?_
  intro s' choice hlater hkept
  have hown : Unrecorded c s' := h.later hlater
  refine ⟨⟨hkept.kept, hkept.once, hkept.keyed, ?_⟩, ?_, hown, Function.update_self ..⟩
  · intro d
    rcases eq_or_ne d c with rfl | hd
    · exact (Function.update_self ..).le
    · exact (Function.update_of_ne hd ..).le.trans (hkept.started d)
  intro d hd
  exact ⟨le_rfl, (Later.refl d s').recorded, Function.update_of_ne hd .., rfl⟩

theorem safe_recordEvent (huuid : Function.Injective uuid) {now : ℕ}
    (h : Unrecorded c s ∧ s.startedAt c = now) (scope : JsString) (expiresAt : ℚ) :
    LimitSafe uuid c (fun _ s' => ∃ before,
        Recorded c ⟨scope, createEventKey now (uuid c), now, ⌊expiresAt / 1000⌋⟩ now before s')
      (recordEvent scope now expiresAt) s := by
  have huuidAsk :
      LimitSafe uuid c (fun answer s' => answer = uuid c ∧ Unrecorded c s' ∧ s'.startedAt c = now)
      (ask EventRequest.randomUuid) s := by
    refine safe_request ?_
    intro s' choice hlater hkept
    exact ⟨hkept, fun d _ => Later.refl d s', rfl, h.1.later hlater, hlater.startedAt.trans h.2⟩
  refine safe_seq huuidAsk ?_
  rintro _ s₁ ⟨rfl, hown, hstarted⟩
  generalize hitem : (⟨scope, createEventKey now (uuid c), now, ⌊expiresAt / 1000⌋⟩ : EventItem) = item
  have hkey : item.eventKey = createEventKey now (uuid c) := by rw [← hitem]
  have hput :
      LimitSafe uuid c (fun answer s' => answer = .ok () → ∃ before, Recorded c item now before s')
      (ask (EventRequest.put item)) s₁ := by
    refine safe_request ?_
    intro s' choice hlater hkept
    have hkept' := hkept.put huuid (hown.later hlater) hkey
    have hrecorded : Recorded c item now s'.recorded (s'.put c item) :=
      ⟨List.prefix_refl _, hlater.startedAt.trans hstarted⟩
    unfold serveNow
    cases choice.fate with
    | served => exact ⟨hkept', fun d hd => later_put hd item, fun _ => ⟨_, hrecorded⟩⟩
    | lost => exact ⟨hkept', fun d hd => later_put hd item, fun _ => ⟨_, hrecorded⟩⟩
    | failed => exact ⟨hkept, fun d _ => Later.refl d s', fun h => by cases h⟩
  refine safe_seq hput ?_
  rintro answer s₂ hanswer
  exact safe_orStoreError fun _ ha => hanswer ha

/-! ### Counting -/

/-- An event of the scope after the cutoff that is kept at the moment. -/
def isCounted (scope cutoff : JsString) (clockMs : ℕ) (entry : ι × EventItem) : Bool :=
  entry.2.scope = scope ∧ cutoff < entry.2.eventKey ∧ ¬ isExpired clockMs entry.2

/-- The keys of such events among some. -/
def countedKeys (scope cutoff : JsString) (clockMs : ℕ) (events : List (ι × EventItem)) :
    List JsString :=
  (events.filter (isCounted scope cutoff clockMs)).map fun entry => entry.2.eventKey

omit [DecidableEq ι] in
/-- Fewer and fewer of some events are left. -/
theorem countedKeys_sublist (scope cutoff : JsString) {clock clock' : ℕ} (hclock : clock ≤ clock')
    (events : List (ι × EventItem)) :
    (countedKeys scope cutoff clock' events).Sublist (countedKeys scope cutoff clock events) := by
  refine (List.monotone_filter_right events ?_).map _
  intro entry h
  simp only [isCounted, decide_eq_true_eq] at h ⊢
  exact ⟨h.1, h.2.1, fun hexpired => h.2.2 (isExpired_mono hclock hexpired)⟩

omit [DecidableEq ι] in
/-- What is kept is found. -/
theorem countedKeys_subset (h : EventsKept uuid s) {events : List (ι × EventItem)}
    (hevents : events <+: s.recorded) (scope cutoff : JsString) :
    countedKeys scope cutoff s.clockMs events ⊆ s.keysSince scope cutoff := by
  intro key hkey
  obtain ⟨entry, hentry, rfl⟩ := List.mem_map.mp hkey
  obtain ⟨hentry, hcounted⟩ := List.mem_filter.mp hentry
  simp only [isCounted, decide_eq_true_eq] at hcounted
  obtain ⟨hscope, hcutoff, hfresh⟩ := hcounted
  rcases h.kept entry (hevents.subset hentry) with hitem | hexpired
  · exact List.mem_map_of_mem (List.mem_filter.mpr ⟨hitem, by simp [hscope, hcutoff]⟩)
  · exact absurd hexpired hfresh

section Pages

variable (huuid : Function.Injective uuid) {item : EventItem} {now : ℕ} {before : List (ι × EventItem)}
  (scope cutoff : JsString)
include huuid

/-- STEP: of the events up to the call's own, those that are still kept are counted up
    to the end of the page. -/
theorem safe_countPage (count : ℕ) (start : Option JsString) (h : Recorded c item now before s)
    (hcount : ((countedKeys scope cutoff s.clockMs (before ++ [(c, item)])).filter
      fun key => !isAfter start key).length ≤ count) :
    LimitSafe uuid c (fun page s' => Recorded c item now before s' ∧ s'.countedAt c ≤ s'.clockMs ∧
        ((countedKeys scope cutoff (s'.countedAt c) (before ++ [(c, item)])).filter
          (isRead page.lastEvaluated)).length ≤ count + page.count)
      (ask (EventRequest.queryCount scope cutoff start) >>= orStoreError (js "countEvents")) s := by
  generalize hevents : before ++ [(c, item)] = events at hcount ⊢
  have hpage :
      LimitSafe uuid c (fun answer s' => Recorded c item now before s' ∧ ∀ page, answer = .ok page →
      s'.countedAt c ≤ s'.clockMs ∧ ((countedKeys scope cutoff (s'.countedAt c) events).filter
        (isRead page.lastEvaluated)).length ≤ count + page.count)
      (ask (EventRequest.queryCount scope cutoff start)) s := by
    refine safe_request ?_
    intro s' choice hlater hkept
    have hrecorded := h.later hlater
    refine ⟨⟨hkept.kept, hkept.once, hkept.keyed, hkept.started⟩, ?_,
      ⟨hrecorded.isPrefix, hrecorded.startedAt⟩, ?_⟩
    · intro d hd
      exact ⟨le_rfl, (Later.refl d s').recorded, rfl, Function.update_of_ne hd ..⟩
    · intro page hanswer
      have hbegins : events <+: s'.recorded := hevents ▸ hrecorded.isPrefix
      have hnodup : (countedKeys scope cutoff s'.clockMs events).Nodup :=
        hkept.keys_nodup huuid (List.filter_sublist.trans hbegins.sublist)
      have hbefore := ((countedKeys_sublist scope cutoff hlater.clock events).filter
        fun key => !isAfter start key).length_le.trans hcount
      have hnow :
          (serveNow uuid c choice (.queryCount scope cutoff start) s').2.countedAt c = s'.clockMs :=
        Function.update_self ..
      rw [hnow]
      by_cases hfate : choice.fate = .served
      · simp only [serveNow, if_pos hfate, Except.ok.injEq] at hanswer
        subst hanswer
        exact ⟨le_rfl, length_le_of_page hnodup (countedKeys_subset hkept hbegins scope cutoff) hbefore⟩
      · simp only [serveNow, if_neg hfate] at hanswer
        cases hanswer
  refine safe_seq hpage ?_
  intro answer s' hanswer
  exact safe_orStoreError fun page hpage => ⟨hanswer.1, hanswer.2 page hpage⟩

/-- LOOP: all of them are counted in the end. -/
theorem safe_countPages (pages count : ℕ) (start : Option JsString) (h : Recorded c item now before s)
    (hcount : ((countedKeys scope cutoff s.clockMs (before ++ [(c, item)])).filter
      fun key => !isAfter start key).length ≤ count) :
    LimitSafe uuid c (fun total s' => Recorded c item now before s' ∧
        (countedKeys scope cutoff (s'.countedAt c) (before ++ [(c, item)])).length ≤ total)
      (countPages scope cutoff pages count start) s := by
  induction pages generalizing s count start with
  | zero => exact safe_throw
  | succ pages ih =>
    refine safe_seq (safe_countPage huuid scope cutoff count start h hcount) ?_
    rintro ⟨number, _ | last⟩ s' ⟨hrecorded, hclock, hread⟩
    · rw [filter_isRead_none] at hread
      exact safe_pure ⟨hrecorded, hread⟩
    · refine ih _ _ hrecorded ?_
      rw [isRead_some] at hread
      exact ((countedKeys_sublist scope cutoff hclock _).filter _).length_le.trans hread

end Pages

/-! ### Calls -/

/-- The event that a call puts. -/
def eventOf (call : ConsumeCall) (uuid : JsString) (now : ℕ) : EventItem :=
  ⟨call.scope, createEventKey now uuid, now, ⌊(now + call.limiter.windowMs) / 1000⌋⟩

/-- The events of the window among some, when the call counted. -/
def windowKeys (call : ConsumeCall) (c : ι) (s : EventTable ι) (events : List (ι × EventItem)) :
    List JsString :=
  countedKeys call.scope (createCutoffEventKey (s.startedAt c - call.limiter.windowMs))
    (s.countedAt c) events

/-- The call put its event after those `before`, and counted at most `count`. -/
def Counted (call : ConsumeCall) (uuid : ι → JsString) (c : ι) (count : ℚ) (s : EventTable ι) : Prop :=
  ∃ before, (before ++ [(c, eventOf call (uuid c) (s.startedAt c))]) <+: s.recorded ∧
    ((windowKeys call c s (before ++ [(c, eventOf call (uuid c) (s.startedAt c))])).length : ℚ) ≤ count

omit [DecidableEq ι] in
theorem Counted.later {call : ConsumeCall} {count : ℚ} (h : Counted call uuid c count s)
    (hlater : Later c s s') :
    Counted call uuid c count s' := by
  obtain ⟨before, hbegins, hcount⟩ := h
  refine ⟨before, ?_, ?_⟩
  · rw [hlater.startedAt]
    exact prefix_later hbegins hlater
  · rw [windowKeys, hlater.startedAt, hlater.countedAt]
    exact hcount

variable (huuid : Function.Injective uuid) (call : ConsumeCall)

include huuid in
/-- What a call does before it decides. -/
theorem safe_consumeEventWindow (h : Unrecorded c s) :
    LimitSafe uuid c (fun result s' => Counted call uuid c result.2 s')
      (consumeEventWindow call.pages call.ipAddress call.limiter.scopePrefix call.limiter.windowMs)
      s := by
  have hwindow :
      LimitSafe uuid c
        (fun window s' => window = ⟨s'.startedAt c, s'.startedAt c - call.limiter.windowMs,
      call.scope⟩ ∧ Unrecorded c s')
        (currentEventWindow call.ipAddress call.limiter.scopePrefix call.limiter.windowMs) s := by
    refine safe_seq (safe_now h) ?_
    rintro now s' ⟨hown, rfl⟩
    exact safe_pure ⟨rfl, hown⟩
  refine safe_seq hwindow ?_
  rintro _ s₁ ⟨rfl, hown⟩
  dsimp only
  generalize hnow : s₁.startedAt c = now
  refine safe_seq (safe_recordEvent huuid ⟨hown, hnow⟩ call.scope (now + call.limiter.windowMs)) ?_
  rintro _ s₂ ⟨before, hrecorded⟩
  refine safe_seq (safe_countPages huuid call.scope _ call.pages 0 none hrecorded ?_) ?_
  · rw [filter_not_isAfter_none]
    exact le_rfl
  rintro count s₃ ⟨hrecorded', hcount⟩
  have hstarted := hrecorded'.startedAt
  refine safe_pure ⟨before, ?_, ?_⟩
  · rw [hstarted]
    exact hrecorded'.isPrefix
  · rw [windowKeys, hstarted]
    exact_mod_cast hcount

/-- Looking for the oldest event changes nothing. -/
theorem safe_getOldestEventTimestamp (scope : JsString) (sinceTimestamp : ℚ) :
    LimitSafe uuid c (fun _ _ => True) (getOldestEventTimestamp scope sinceTimestamp) s := by
  have hask : LimitSafe uuid c (fun _ _ => True)
      (ask (EventRequest.queryOldest scope (createCutoffEventKey sinceTimestamp))) s := by
    refine safe_request ?_
    intro s' choice hlater hkept
    exact ⟨hkept, fun d _ => Later.refl d s', trivial⟩
  refine safe_seq hask ?_
  rintro answer s' -
  exact safe_orStoreError fun _ _ => trivial

theorem safe_deniedVote (limiter : DynamoRateLimiter) (window : EventWindow) :
    LimitSafe uuid c (fun result _ => result.allowed = false) (deniedVote limiter window) s := by
  refine safe_seq (safe_getOldestEventTimestamp window.scope window.cutoff) ?_
  rintro oldest s' -
  exact safe_pure rfl

theorem safe_deniedExecution (limiter : DynamoRateLimiter) (window : EventWindow) :
    LimitSafe uuid c (fun result _ => result.allowed = false) (deniedExecution limiter window) s := by
  refine safe_seq (safe_getOldestEventTimestamp window.scope window.cutoff) ?_
  rintro oldest s' -
  have hnext (oldest : ℕ) :
      LimitSafe uuid c (fun _ _ => True) (buildNextAvailableAt oldest limiter.windowMs) s' := by
    unfold buildNextAvailableAt
    dsimp only
    split
    · exact safe_pure trivial
    · exact safe_throw
  refine safe_seq (hnext _) ?_
  rintro next s'' -
  exact safe_pure rfl

/-- Only a count within the limit is allowed. -/
theorem safe_decide {α : Type} {allowed : α → Bool} {count : ℕ} {denied : Call α} {granted : α}
    (hcounted : Counted call uuid c count s)
    (hdenied : LimitSafe uuid c (fun result _ => allowed result = false) denied s) :
    LimitSafe uuid c (fun result s' => allowed result = true → Counted call uuid c call.limiter.limit s')
      (if call.limiter.limit < count then denied else return granted) s := by
  obtain ⟨before, hbegins, hcount⟩ := hcounted
  split
  · refine safe_mono ?_ hdenied
    rintro _ s' hdenied' result rfl hallowed
    rw [hdenied' result rfl] at hallowed
    cases hallowed
  · rename_i hlimit
    exact safe_pure fun _ => ⟨before, hbegins, hcount.trans (not_lt.mp hlimit)⟩

include huuid in
theorem safe_consume (h : Unrecorded c s) :
    LimitSafe uuid c (fun result s' => result.allowed = true → Counted call uuid c call.limiter.limit s')
      (consume call.pages call.limiter call.ipAddress) s := by
  refine safe_seq (safe_consumeEventWindow huuid call h) ?_
  rintro ⟨window, count⟩ s' hcounted
  exact safe_decide call hcounted (safe_deniedVote call.limiter window)

include huuid in
theorem safe_consumeZkVmExecution (h : Unrecorded c s) :
    LimitSafe uuid c (fun result s' => result.allowed = true → Counted call uuid c call.limiter.limit s')
      (consumeZkVmExecution call.pages call.limiter call.ipAddress) s := by
  refine safe_seq (safe_consumeEventWindow huuid call h) ?_
  rintro ⟨window, count⟩ s' hcounted
  exact safe_decide call hcounted (safe_deniedExecution call.limiter window)

include huuid in
theorem safe_run (h : Unrecorded c s) :
    LimitSafe uuid c (fun result s' => result.allowed = true → Counted call uuid c call.limiter.limit s')
      call.run s := by
  unfold ConsumeCall.run
  cases call.kind with
  | vote =>
    refine safe_seq (safe_consume huuid call h) ?_
    intro result s' hresult
    exact safe_pure hresult
  | zkVm =>
    refine safe_seq (safe_consumeZkVmExecution huuid call h) ?_
    intro result s' hresult
    exact safe_pure hresult

end Requests

/-! ### Runs -/

section Runs

variable [DecidableEq ι] (calls : ι → ConsumeCall) (huuid : Function.Injective uuid)
  (items : List EventItem) (clockMs : ℕ) (schedule : List (ι × Choice))
include huuid

/-- RUN: any schedule keeps the events, and a call that was allowed has counted. -/
theorem runLimits_safe :
    EventsKept uuid (runLimits calls uuid items clockMs schedule).shared ∧ ∀ c,
      isAllowed (runLimits calls uuid items clockMs schedule) c = true →
        Counted (calls c) uuid c (calls c).limiter.limit
          (runLimits calls uuid items clockMs schedule).shared := by
  have hstart : EventsKept uuid (atStart calls items clockMs).shared :=
    ⟨fun _ h => absurd h List.not_mem_nil, List.nodup_nil, fun _ h => absurd h List.not_mem_nil,
      fun _ => Nat.zero_le _⟩
  have hsafe (c : ι) : LimitSafe uuid c (fun result s' => result.allowed = true →
      Counted (calls c) uuid c (calls c).limiter.limit s')
        (calls c).run (atStart calls items clockMs).shared :=
    safe_run huuid (calls c) List.not_mem_nil
  have hstable (c : ι) (result : Except RateLimitError ConsumeResult) (s s' : EventTable ι)
      (h : returned (fun result s' => result.allowed = true →
        Counted (calls c) uuid c (calls c).limiter.limit s') result s)
      (hlater : Later c s s') :
      returned (fun result s' => result.allowed = true →
        Counted (calls c) uuid c (calls c).limiter.limit s') result s' :=
    fun outcome houtcome hallowed => (h outcome houtcome hallowed).later hlater
  obtain ⟨hkept, hposts⟩ := run_safe relies_later hstable hstart hsafe schedule
  refine ⟨hkept, ?_⟩
  intro c hallowed
  have hpost := hposts c
  unfold isAllowed at hallowed
  split at hallowed
  · rename_i result hdone
    change Safe _ _ _ _ _ ((runLimits calls uuid items clockMs schedule).programs c) _ at hpost
    rw [hdone] at hpost
    exact hpost result rfl hallowed
  · cases hallowed

end Runs

/-! ### The limit -/

section Limit

variable (system : Limiting ι) (calls : ι → ConsumeCall) (limiter : DynamoRateLimiter)
  (ipAddress : JsString) (members : Finset ι)

/-- Calls of one limiter for one client that were allowed and read the clock within
    the length of a window. -/
structure AllowedWithinWindow : Prop where
  allowed : ∀ c ∈ members, isAllowed system c = true
  alike : ∀ c ∈ members, (calls c).limiter = limiter ∧ (calls c).ipAddress = ipAddress
  near : ∀ c ∈ members, ∀ d ∈ members,
    (system.shared.startedAt c : ℚ) < system.shared.startedAt d + limiter.windowMs

/-- None did so in the very first millisecond, and none read its last page after the window. -/
structure AllowedTogether : Prop extends AllowedWithinWindow system calls limiter ipAddress members where
  positive : ∀ c ∈ members, 0 < system.shared.startedAt c
  timely : ∀ c ∈ members, ∀ d ∈ members,
    (system.shared.countedAt c : ℚ) ≤ system.shared.startedAt d + limiter.windowMs

end Limit

/-- Of two beginnings of a list, the longer one has the last element of the other. -/
theorem mem_of_prefixes {α : Type} {l events before : List α} {a : α} (hbegins : before ++ [a] <+: l)
    (hevents : events <+: l) (hlength : before.length < events.length) : a ∈ events := by
  have hle : (before ++ [a]).length ≤ events.length := by
    rw [List.length_append, List.length_singleton]
    exact hlength
  exact (List.prefix_of_prefix_length_le hbegins hevents hle).subset (by simp)

/-- An event within the length of a window is counted. -/
theorem key_mem_windowKeys {system : Limiting ι} {calls : ι → ConsumeCall} {limiter : DynamoRateLimiter}
    {ipAddress : JsString} {members : Finset ι}
    (h : AllowedTogether system calls limiter ipAddress members) (hkept : EventsKept uuid system.shared)
    (hclock : system.shared.clockMs < 10 ^ 16) (hc : c ∈ members) (hd : d ∈ members)
    {events : List (ι × EventItem)}
    (hevent : (d, eventOf (calls d) (uuid d) (system.shared.startedAt d)) ∈ events) :
    createEventKey (system.shared.startedAt d)
      (uuid d) ∈ windowKeys (calls c) c system.shared events := by
  obtain ⟨hlimiter, hip⟩ := h.alike c hc
  obtain ⟨hlimiter', hip'⟩ := h.alike d hd
  have hpositive := h.positive d hd
  have hfloor : ⌊(system.shared.startedAt d : ℚ)⌋.toNat = system.shared.startedAt d := by
    rw [Int.floor_natCast, Int.toNat_natCast]
  have hcutoff : createCutoffEventKey (system.shared.startedAt c - (calls c).limiter.windowMs) <
      createEventKey (system.shared.startedAt d) (uuid d) := by
    refine cutoff_lt_eventKey ?_ ?_ (uuid d)
    · have hnear := h.near c hc d hd
      have hbefore :
          ⌊(system.shared.startedAt c : ℚ) - (calls c).limiter.windowMs⌋ <
            (system.shared.startedAt d : ℤ) := by
        rw [Int.floor_lt, hlimiter, Int.cast_natCast]
        linarith
      rw [hfloor]
      omega
    · rw [hfloor]
      exact (hkept.started d).trans_lt hclock
  have hfresh :
      isExpired (system.shared.countedAt c)
        (eventOf (calls d) (uuid d) (system.shared.startedAt d)) = false := by
    have htimely := h.timely c hc d hd
    have hseconds :
        ((system.shared.countedAt c / 1000 : ℕ) : ℚ) ≤ (system.shared.countedAt c : ℚ) / 1000 := by
      exact_mod_cast @Nat.cast_div_le ℚ _ _ _ (system.shared.countedAt c) 1000
    simp only [isExpired, eventOf, decide_eq_false_iff_not, not_lt, Int.le_floor, hlimiter',
      Int.cast_natCast]
    refine hseconds.trans ?_
    linarith
  refine List.mem_map.mpr ⟨_, List.mem_filter.mpr ⟨hevent, ?_⟩, rfl⟩
  have hscope : (calls d).scope = (calls c).scope := by
    rw [ConsumeCall.scope, ConsumeCall.scope, hlimiter, hlimiter', hip, hip']
  simp only [isCounted, decide_eq_true_eq]
  exact ⟨hscope, hcutoff, by rw [hfresh]; exact Bool.false_ne_true⟩

/-- SAFE: the calls that are allowed within the length of a window are within the limit. -/
theorem allowed_together_within_limit [DecidableEq ι] (calls : ι → ConsumeCall) (uuid : ι → JsString)
    (huuid : Function.Injective uuid) (items : List EventItem) (clockMs : ℕ)
    (schedule : List (ι × Choice)) (limiter : DynamoRateLimiter) (ipAddress : JsString)
    (members : Finset ι)
    (hclock : (runLimits calls uuid items clockMs schedule).shared.clockMs < 10 ^ 16)
    (h : AllowedTogether (runLimits calls uuid items clockMs schedule) calls limiter ipAddress members) :
    (members.card : ℚ) ≤ limiter.limit := by
  obtain ⟨hkept, hcounted⟩ := runLimits_safe calls huuid items clockMs schedule
  generalize runLimits calls uuid items clockMs schedule = system at *
  rcases members.eq_empty_or_nonempty with rfl | hnonempty
  · simpa using limiter.limit_pos.le
  have hbefore : ∀ c, ∃ before, c ∈ members →
      before ++ [(c, eventOf (calls c) (uuid c) (system.shared.startedAt c))] <+:
        system.shared.recorded ∧
        ((windowKeys (calls c) c system.shared
          (before ++ [(c, eventOf (calls c) (uuid c) (system.shared.startedAt c))])).length :
          ℚ) ≤ limiter.limit := by
    intro c
    by_cases hc : c ∈ members
    · obtain ⟨before, hbegins, hcount⟩ := hcounted c (h.allowed c hc)
      exact ⟨before, fun _ => ⟨hbegins, (h.alike c hc).1 ▸ hcount⟩⟩
    · exact ⟨[], fun hc' => absurd hc' hc⟩
  choose before hbefore using hbefore
  -- the member that put its event last has all the others before it
  obtain ⟨last, hlast, hmax⟩ := members.exists_max_image (fun c => (before c).length) hnonempty
  obtain ⟨hbegins, hcount⟩ := hbefore last hlast
  refine le_trans ?_ hcount
  have hkeys : Set.MapsTo (fun d => createEventKey (system.shared.startedAt d) (uuid d)) members
      (windowKeys (calls last) last system.shared
        (before last ++ [(last, eventOf (calls last) (uuid last)
          (system.shared.startedAt last))])).toFinset := by
    intro d hd
    rw [Finset.mem_coe, List.mem_toFinset]
    refine key_mem_windowKeys h hkept hclock hlast hd ?_
    refine mem_of_prefixes (hbefore d hd).1 hbegins ?_
    have hle := hmax d hd
    rw [List.length_append, List.length_singleton]
    omega
  have hinj : Set.InjOn (fun d => createEventKey (system.shared.startedAt d) (uuid d)) members :=
    fun d _ d' _ hkey => huuid (uuid_of_eventKey hkey)
  have hcard := (Finset.card_le_card_of_injOn _ hkeys hinj).trans (List.toFinset_card_le _)
  exact_mod_cast hcard

/-- At most two calls in a second. -/
def sampleLimiter : DynamoRateLimiter := ⟨⟨2, 1000, by decide⟩, js "vote"⟩

def sampleCalls (_ : ℕ) : ConsumeCall := ⟨.vote, sampleLimiter, js "192.0.2.1", 1⟩

def sampleUuid (c : ℕ) : JsString := List.replicate c 'a'

theorem sampleUuid_injective : Function.Injective sampleUuid := by
  intro c d h
  simpa [sampleUuid] using congrArg List.length h

/-- The calls take turns at once. -/
def atOnce (turns : List ℕ) : List (ℕ × Choice) := turns.map fun c => (c, ⟨0, [], .served, 9, false⟩)

/-- Two calls are allowed, the third is denied. -/
theorem allowed_together_on_sample :
    isAllowed (runLimits sampleCalls sampleUuid [] 500 (atOnce [0, 1, 0, 1, 0, 1, 0, 1, 2, 2, 2, 2, 2]))
      2 = false ∧
      ((({0, 1} : Finset ℕ).card : ℕ) : ℚ) ≤ sampleLimiter.limit := by
  refine ⟨by decide +kernel, ?_⟩
  refine allowed_together_within_limit sampleCalls sampleUuid sampleUuid_injective [] 500
    (atOnce [0, 1, 0, 1, 0, 1, 0, 1, 2, 2, 2, 2, 2]) sampleLimiter (js "192.0.2.1") {0, 1}
    (by decide +kernel) ?_
  refine ⟨⟨by decide +kernel,
    fun _ _ => ⟨rfl, rfl⟩, by decide +kernel⟩, by decide +kernel, by decide +kernel⟩

/-- Three calls that have put their events wait until these are removed, and count none. -/
def stalled : List (ℕ × Choice) :=
  atOnce [0, 0, 0, 1, 1, 1, 2, 2, 2] ++
    (0, ⟨1500, [0, 1, 2].map fun c => createEventKey 500 (sampleUuid c), .served, 9, false⟩) ::
      atOnce [1, 2]

/-- Three calls in the very first millisecond are not counted either. -/
theorem limit_exceeded_by_three_calls :
    (AllowedWithinWindow (runLimits sampleCalls sampleUuid [] 500 stalled) sampleCalls sampleLimiter
        (js "192.0.2.1") {0, 1, 2} ∧
        (runLimits sampleCalls sampleUuid [] 500 stalled).shared.clockMs = 2000) ∧
      AllowedWithinWindow
        (runLimits sampleCalls sampleUuid [] 0 (atOnce [0, 0, 0, 0, 1, 1, 1, 1, 2, 2, 2, 2]))
        sampleCalls sampleLimiter (js "192.0.2.1") {0, 1, 2} ∧
      sampleLimiter.limit < (({0, 1, 2} : Finset ℕ).card : ℕ) := by
  refine ⟨⟨⟨?_, fun _ _ => ⟨rfl, rfl⟩, ?_⟩, ?_⟩, ⟨?_, fun _ _ => ⟨rfl, rfl⟩, ?_⟩, ?_⟩
  all_goals decide +kernel

end StarkBallot.AwsAdapters.RateLimit
