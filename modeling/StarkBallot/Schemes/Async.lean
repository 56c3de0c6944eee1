import Mathlib.Logic.Function.Basic

/-! Asynchronous programs that run beside each other. A program is done, or it awaits the answer to a
    request and goes on from it; between two of its steps any other program may run. The requests are
    served from state that all programs share, and a scheduler picks whose turn it is
    and how the request fares.

    To reason about one program alone (`Safe`), say what the others may do to the shared state between
    two of its steps and prove that its own steps keep the invariant and do no more than that to the
    others. Then every schedule keeps the invariant, and every program that is done has its
    postcondition (`run_safe`). -/

namespace StarkBallot.Schemes

inductive Async (ρ : Type) (Answer : ρ → Type) (α : Type) where
  | done (result : α)
  | await (request : ρ) (next : Answer request → Async ρ Answer α)

variable {ρ : Type} {Answer : ρ → Type} {α β : Type}

namespace Async

def bind : Async ρ Answer α → (α → Async ρ Answer β) → Async ρ Answer β
  | done a, f => f a
  | await r next, f => await r fun answer => (next answer).bind f

instance : Monad (Async ρ Answer) where
  pure := done
  bind := bind

/-- Await the answer to one request. -/
def request (r : ρ) : Async ρ Answer (Answer r) := await r done

end Async

/-- Programs and the state they share. -/
structure Concurrent (ι σ ρ : Type) (Answer : ρ → Type) (α : Type) where
  shared : σ
  programs : ι → Async ρ Answer α

section Runs

variable {ι σ χ : Type} [DecidableEq ι] (serve : ι → χ → (r : ρ) → σ → Answer r × σ)

/-- One turn of a program: its request is served and it goes on. -/
def advance (system : Concurrent ι σ ρ Answer α) (turn : ι × χ) : Concurrent ι σ ρ Answer α :=
  match system.programs turn.1 with
  | .done _ => system
  | .await r next =>
    let served := serve turn.1 turn.2 r system.shared
    ⟨served.2, Function.update system.programs turn.1 (next served.1)⟩

def runSchedule (system : Concurrent ι σ ρ Answer α) (schedule : List (ι × χ)) :
    Concurrent ι σ ρ Answer α :=
  schedule.foldl (advance serve) system

variable {serve}

/-- More state beside the one that is served changes no run. -/
theorem runSchedule_view {σ' : Type} {serve' : ι → χ → (r : ρ) → σ' → Answer r × σ'} {view : σ' → σ}
    (hanswer : ∀ c choice r s, (serve' c choice r s).1 = (serve c choice r (view s)).1)
    (hview : ∀ c choice r s, view (serve' c choice r s).2 = (serve c choice r (view s)).2)
    (system : Concurrent ι σ' ρ Answer α) (schedule : List (ι × χ)) :
    runSchedule serve ⟨view system.shared, system.programs⟩ schedule =
      ⟨view (runSchedule serve' system schedule).shared,
        (runSchedule serve' system schedule).programs⟩ := by
  induction schedule generalizing system with
  | nil => rfl
  | cons turn schedule ih =>
    have hturn : advance serve ⟨view system.shared, system.programs⟩ turn =
        ⟨view (advance serve' system turn).shared, (advance serve' system turn).programs⟩ := by
      unfold advance
      cases hprogram : system.programs turn.1 with
      | done a => rfl
      | await r next => simp only [hanswer, hview]
    rw [runSchedule, List.foldl_cons, hturn]
    exact ih _

/-- What serving a request may do to the shared state, a schedule does. -/
theorem runSchedule_shared {grows : σ → σ → Prop} (hrefl : ∀ s, grows s s)
    (htrans : ∀ s s' s'', grows s s' → grows s' s'' → grows s s'')
    (hserve : ∀ c choice r s, grows s (serve c choice r s).2) (system : Concurrent ι σ ρ Answer α)
    (schedule : List (ι × χ)) : grows system.shared (runSchedule serve system schedule).shared := by
  induction schedule generalizing system with
  | nil => exact hrefl system.shared
  | cons turn schedule ih =>
    refine htrans _ _ _ ?_ (ih (advance serve system turn))
    unfold advance
    split
    · exact hrefl system.shared
    · exact hserve _ _ _ _

end Runs

/-! ### One program among others -/

section Safe

variable {ι σ χ : Type} (serve : ι → χ → (r : ρ) → σ → Answer r × σ) (inv : σ → Prop)
  (others : ι → σ → σ → Prop)

/-- From `s` on, program `c` keeps the invariant, does to the others what they
    expect, and ends in `post`. -/
def Safe (c : ι) (post : α → σ → Prop) : Async ρ Answer α → σ → Prop
  | .done a, s => post a s
  | .await r next, s => ∀ s' choice, others c s s' → inv s' →
      inv (serve c choice r s').2 ∧ (∀ d, d ≠ c → others d s' (serve c choice r s').2) ∧
        Safe c post (next (serve c choice r s').1) (serve c choice r s').2

variable {serve inv others} {c : ι} {post : α → σ → Prop} {post' : β → σ → Prop}

theorem safe_bind {p : Async ρ Answer α} {f : α → Async ρ Answer β} {s : σ}
    (hp : Safe serve inv others c post p s)
    (hf : ∀ a s', post a s' → Safe serve inv others c post' (f a) s') :
    Safe serve inv others c post' (p >>= f) s := by
  induction p generalizing s with
  | done a => exact hf a s hp
  | await r next ih =>
    intro s' choice hothers hinv
    obtain ⟨hkeeps, hexpected, hnext⟩ := hp s' choice hothers hinv
    exact ⟨hkeeps, hexpected, ih _ hnext⟩

variable (others) in
/-- What the others do adds up, and they do nothing at first. -/
structure Relies : Prop where
  refl : ∀ c s, others c s s
  trans : ∀ c s s' s'', others c s s' → others c s' s'' → others c s s''

/-- A safe program stays safe while the others run. -/
theorem safe_later (hrelies : Relies others) (hstable : ∀ a s s', post a s → others c s s' → post a s')
    {p : Async ρ Answer α} {s s' : σ} (hp : Safe serve inv others c post p s) (hothers : others c s s') :
    Safe serve inv others c post p s' := by
  cases p with
  | done a => exact hstable a s s' hp hothers
  | await r next =>
    intro s'' choice hothers' hinv
    exact hp s'' choice (hrelies.trans c s s' s'' hothers hothers') hinv

variable [DecidableEq ι] {posts : ι → α → σ → Prop}

/-- STEP: one turn keeps the invariant and every program safe. -/
theorem advance_safe (hrelies : Relies others)
    (hstable : ∀ c a s s', posts c a s → others c s s' → posts c a s')
    {system : Concurrent ι σ ρ Answer α} (hinv : inv system.shared)
    (hsafe : ∀ c, Safe serve inv others c (posts c) (system.programs c) system.shared) (turn : ι × χ) :
    inv (advance serve system turn).shared ∧ ∀ c, Safe serve inv others c (posts c)
      ((advance serve system turn).programs c) (advance serve system turn).shared := by
  have hturn := hsafe turn.1
  unfold advance
  cases hprogram : system.programs turn.1 with
  | done a => exact ⟨hinv, hsafe⟩
  | await r next =>
    rw [hprogram] at hturn
    obtain ⟨hkeeps, hexpected, hnext⟩ := hturn system.shared turn.2 (hrelies.refl _ _) hinv
    refine ⟨hkeeps, ?_⟩
    intro c
    by_cases hc : c = turn.1
    · subst hc
      simpa only [Function.update_self] using hnext
    · simpa only [Function.update_of_ne hc] using safe_later hrelies (hstable c) (hsafe c)
        (hexpected c hc)

/-- RUN: so does every schedule. -/
theorem run_safe (hrelies : Relies others)
    (hstable : ∀ c a s s', posts c a s → others c s s' → posts c a s')
    {system : Concurrent ι σ ρ Answer α} (hinv : inv system.shared)
    (hsafe : ∀ c, Safe serve inv others c (posts c) (system.programs c) system.shared)
    (schedule : List (ι × χ)) :
    inv (runSchedule serve system schedule).shared ∧ ∀ c, Safe serve inv others c (posts c)
      ((runSchedule serve system schedule).programs c) (runSchedule serve system schedule).shared := by
  induction schedule generalizing system with
  | nil => exact ⟨hinv, hsafe⟩
  | cons turn schedule ih =>
    obtain ⟨hinv', hsafe'⟩ := advance_safe hrelies hstable hinv hsafe turn
    exact ih hinv' hsafe'

end Safe

/-! ### Programs that may fail -/

section Fallible

variable {ι σ χ ε : Type} {serve : ι → χ → (r : ρ) → σ → Answer r × σ} {inv : σ → Prop}
  {others : ι → σ → σ → Prop} {c : ι} {post : α → σ → Prop} {post' : β → σ → Prop}

theorem safe_mono {post₁ post₂ : α → σ → Prop} (hpost : ∀ a s, post₁ a s → post₂ a s)
    {p : Async ρ Answer α} {s : σ} (hp : Safe serve inv others c post₁ p s) :
    Safe serve inv others c post₂ p s := by
  induction p generalizing s with
  | done a => exact hpost a s hp
  | await r next ih =>
    intro s' choice hothers hinv
    obtain ⟨hkeeps, hexpected, hnext⟩ := hp s' choice hothers hinv
    exact ⟨hkeeps, hexpected, ih _ hnext⟩

/-- The shared state has only grown when a program is done. -/
theorem safe_grown {grows : σ → σ → Prop} (htrans : ∀ s s' s'', grows s s' → grows s' s'' → grows s s'')
    (hserve : ∀ c choice r s, grows s (serve c choice r s).2)
    (hothers : ∀ c s s', others c s s' → grows s s') {p : Async ρ Answer α} {s₀ s : σ}
    (hbase : grows s₀ s) (hp : Safe serve inv others c post p s) :
    Safe serve inv others c (fun a s' => post a s' ∧ grows s₀ s') p s := by
  induction p generalizing s with
  | done a => exact ⟨hp, hbase⟩
  | await r next ih =>
    intro s' choice hs' hinv
    obtain ⟨hkeeps, hexpected, hnext⟩ := hp s' choice hs' hinv
    refine ⟨hkeeps, hexpected, ih _ ?_ hnext⟩
    exact htrans _ _ _ (htrans _ _ _ hbase (hothers c s s' hs')) (hserve c choice r s')

/-- What holds when a program returned; nothing is said of a failure. -/
def returned (post : α → σ → Prop) (result : Except ε α) (s : σ) : Prop := ∀ a, result = .ok a → post a s

/-- One request of a program that may fail. -/
def ask (r : ρ) : ExceptT ε (Async ρ Answer) (Answer r) := ExceptT.lift (Async.request r)

/-- A call whose failure is a value. -/
def attempt (p : ExceptT ε (Async ρ Answer) α) : ExceptT ε (Async ρ Answer) (Except ε α) :=
  ExceptT.lift p.run

theorem safe_pure {a : α} {s : σ} (h : post a s) :
    Safe serve inv others c (returned post) (pure a : ExceptT ε (Async ρ Answer) α).run s := by
  rintro _ ⟨⟩
  exact h

theorem safe_throw {e : ε} {s : σ} :
    Safe serve inv others c (returned post) (throw e : ExceptT ε (Async ρ Answer) α).run s := by
  rintro _ ⟨⟩

/-- A failure on the way is the failure of the whole. -/
theorem safe_try {p : ExceptT ε (Async ρ Answer) α} {f : α → ExceptT ε (Async ρ Answer) β} {s : σ}
    {post : Except ε α → σ → Prop} {post' : Except ε β → σ → Prop}
    (hp : Safe serve inv others c post p.run s)
    (herror : ∀ e s', post (.error e) s' → post' (.error e) s')
    (hf : ∀ a s', post (.ok a) s' → Safe serve inv others c post' (f a).run s') :
    Safe serve inv others c post' (p >>= f).run s := by
  refine safe_bind hp ?_
  rintro (e | a) s' hpost
  · exact herror e s' hpost
  · exact hf a s' hpost

theorem safe_seq {p : ExceptT ε (Async ρ Answer) α} {f : α → ExceptT ε (Async ρ Answer) β} {s : σ}
    (hp : Safe serve inv others c (returned post) p.run s)
    (hf : ∀ a s', post a s' → Safe serve inv others c (returned post') (f a).run s') :
    Safe serve inv others c (returned post') (p >>= f).run s := by
  refine safe_try hp ?_ fun a s' hpost => hf a s' (hpost a rfl)
  rintro e s' - _ ⟨⟩

theorem safe_attempt {p : ExceptT ε (Async ρ Answer) α} {s : σ}
    (hp : Safe serve inv others c (returned post) p.run s) :
    Safe serve inv others c (returned (returned post)) (attempt p).run s := by
  refine safe_bind hp ?_
  rintro result s' hpost _ ⟨⟩
  exact hpost

/-- A call whose failure is a value, and what follows. -/
theorem safe_attempt_bind {p : ExceptT ε (Async ρ Answer) α}
    {f : Except ε α → ExceptT ε (Async ρ Answer) β} {s : σ} {post : Except ε α → σ → Prop}
    {post' : Except ε β → σ → Prop} (hp : Safe serve inv others c post p.run s)
    (hf : ∀ result s', post result s' → Safe serve inv others c post' (f result).run s') :
    Safe serve inv others c post' (attempt p >>= f).run s := by
  have hattempt :
      Safe serve inv others c (fun result s' => ∃ result', result = .ok result' ∧ post result' s')
      (attempt p).run s :=
    safe_bind hp fun result s' hpost => ⟨result, rfl, hpost⟩
  refine safe_bind hattempt ?_
  rintro _ s' ⟨result, rfl, hpost⟩
  exact hf result s' hpost

end Fallible

/-! ### Programs that make requests of one kind -/

section Asks

variable {ε : Type} {kind : ρ → Prop}

/-- All requests of the program are of the kind. -/
def Async.Asks (kind : ρ → Prop) : Async ρ Answer α → Prop
  | .done _ => True
  | .await r next => kind r ∧ ∀ answer, (next answer).Asks kind

theorem asks_bind {p : Async ρ Answer α} {f : α → Async ρ Answer β} (hp : p.Asks kind)
    (hf : ∀ a, (f a).Asks kind) :
    (p >>= f).Asks kind := by
  induction p with
  | done a => exact hf a
  | await r next ih => exact ⟨hp.1, fun answer => ih answer (hp.2 answer)⟩

theorem asks_any (p : Async ρ Answer α) : p.Asks fun _ => True := by
  induction p with
  | done a => trivial
  | await r next ih => exact ⟨trivial, ih⟩

theorem asks_ask {r : ρ} (h : kind r) : (ask r : ExceptT ε (Async ρ Answer) (Answer r)).run.Asks kind :=
  ⟨h, fun _ => trivial⟩

theorem asks_seq {p : ExceptT ε (Async ρ Answer) α} {f : α → ExceptT ε (Async ρ Answer) β}
    (hp : p.run.Asks kind) (hf : ∀ a, (f a).run.Asks kind) : (p >>= f).run.Asks kind := by
  refine asks_bind hp ?_
  rintro (e | a)
  · trivial
  · exact hf a

theorem asks_lift {p : Async ρ Answer α} (hp : p.Asks kind) :
    (ExceptT.lift p : ExceptT ε (Async ρ Answer) α).run.Asks kind :=
  asks_bind hp fun _ => trivial

theorem asks_attempt {p : ExceptT ε (Async ρ Answer) α} (hp : p.run.Asks kind) :
    (attempt p).run.Asks kind :=
  asks_lift hp

end Asks

/-! ### Programs of a part of a system -/

/-- The program with its requests as requests of a larger kind. -/
def Async.embed {ρ' : Type} {Answer' : ρ' → Type} (f : ρ → ρ') (g : ∀ r, Answer' (f r) → Answer r) :
    Async ρ Answer α → Async ρ' Answer' α
  | .done a => .done a
  | .await r next => .await (f r) fun answer => (next (g r answer)).embed f g

theorem Async.embed_self (p : Async ρ Answer α) : p.embed (fun r => r) (fun _ answer => answer) = p := by
  induction p with
  | done a => rfl
  | await r next ih => exact congrArg (Async.await r) (funext ih)

section Embed

variable {ι σ χ ι' σ' ρ' : Type} {Answer' : ρ' → Type} {serve : ι → χ → (r : ρ) → σ → Answer r × σ}
  {inv : σ → Prop}
  {others : ι → σ → σ → Prop} {serve' : ι' → χ → (r : ρ') → σ' → Answer' r × σ'} {inv' : σ' → Prop}
  {others' : ι' → σ' → σ' → Prop} {view : σ' → σ} {f : ρ → ρ'} {g : ∀ r, Answer' (f r) → Answer r}
  {c : ι} {c' : ι'} {frame : σ' → Prop} {asked : ρ → Prop} {post : α → σ → Prop}

variable (serve inv others serve' inv' others' view f g c c' frame asked) in
/-- The part of the system that `view` shows is served as it is on its own, and the rest keeps up with
    what is asked. -/
structure Embeds : Prop where
  answer_eq : ∀ choice r s, g r (serve' c' choice (f r) s).1 = (serve c choice r (view s)).1
  view_eq : ∀ choice r s, view (serve' c' choice (f r) s).2 = (serve c choice r (view s)).2
  view_inv : ∀ s, inv' s → inv (view s)
  view_others : ∀ s s', others' c' s s' → others c (view s) (view s')
  frame_others : ∀ s s', others' c' s s' → frame s → frame s'
  keeps : ∀ choice r s, asked r → inv' s → frame s → inv (serve c choice r (view s)).2 →
    (∀ d, d ≠ c → others d (view s) (serve c choice r (view s)).2) →
    inv' (serve' c' choice (f r) s).2 ∧ (∀ d, d ≠ c' → others' d s (serve' c' choice (f r) s).2) ∧
      frame (serve' c' choice (f r) s).2

/-- What a program keeps in a part of a system, it keeps in the system. -/
theorem safe_embed (h : Embeds serve inv others serve' inv' others' view f g c c' frame asked)
    {p : Async ρ Answer α} {s : σ'} (hp : Safe serve inv others c post p (view s))
    (hasks : p.Asks asked) (hframe : frame s) :
    Safe serve' inv' others' c' (fun a s' => post a (view s') ∧ frame s') (p.embed f g) s := by
  induction p generalizing s with
  | done a => exact ⟨hp, hframe⟩
  | await r next ih =>
    intro s' choice hothers hinv
    obtain ⟨hkeeps, hexpected, hnext⟩ :=
      hp (view s') choice (h.view_others s s' hothers) (h.view_inv s' hinv)
    obtain ⟨hinv', hothers', hframe'⟩ :=
      h.keeps choice r s' hasks.1 hinv (h.frame_others s s' hothers hframe) hkeeps hexpected
    refine ⟨hinv', hothers', ih _ ?_ (hasks.2 _) hframe'⟩
    rw [h.answer_eq, h.view_eq]
    exact hnext

end Embed

/-! ### What follows an answer -/

section Follows

/-- However a request of the program is answered, what follows it is as `R` says. -/
def Async.Follows (R : (r : ρ) → Answer r → Async ρ Answer α → Prop) : Async ρ Answer α → Prop
  | .done _ => True
  | .await r next => ∀ answer, R r answer (next answer) ∧ (next answer).Follows R

/-- However its requests are answered, the program ends like this. -/
def Async.Gives (P : α → Prop) : Async ρ Answer α → Prop
  | .done a => P a
  | .await _ next => ∀ answer, (next answer).Gives P

variable {R : (r : ρ) → Answer r → Async ρ Answer α → Prop}
  {R' : (r : ρ) → Answer r → Async ρ Answer β → Prop} {P : α → Prop} {Q : β → Prop}

theorem follows_bind {p : Async ρ Answer α} {f : α → Async ρ Answer β} (hp : p.Follows R)
    (hR : ∀ r answer q, R r answer q → R' r answer (q >>= f)) (hf : ∀ a, (f a).Follows R') :
    (p >>= f).Follows R' := by
  induction p with
  | done a => exact hf a
  | await r next ih => exact fun answer => ⟨hR r answer _ (hp answer).1, ih answer (hp answer).2⟩

theorem follows_seq {ε : Type} {R : (r : ρ) → Answer r → Async ρ Answer (Except ε α) → Prop}
    {R' : (r : ρ) → Answer r → Async ρ Answer (Except ε β) → Prop} {p : ExceptT ε (Async ρ Answer) α}
    {f : α → ExceptT ε (Async ρ Answer) β} (hp : p.run.Follows R)
    (hR : ∀ r answer q, R r answer q → R' r answer (q >>= ExceptT.bindCont f))
    (hf : ∀ a, (f a).run.Follows R') : (p >>= f).run.Follows R' := by
  refine follows_bind hp hR ?_
  rintro (e | a)
  · trivial
  · exact hf a

/-- A program that asks for nothing that matters. -/
theorem follows_of_asks {kind : ρ → Prop} {p : Async ρ Answer α} (hp : p.Asks kind)
    (hR : ∀ r answer q, kind r → R r answer q) : p.Follows R := by
  induction p with
  | done a => trivial
  | await r next ih => exact fun answer => ⟨hR r answer _ hp.1, ih answer (hp.2 answer)⟩

theorem asks_embed {ρ' : Type} {Answer' : ρ' → Type} {kind : ρ' → Prop} {f : ρ → ρ'}
    {g : ∀ r, Answer' (f r) → Answer r} (h : ∀ r, kind (f r)) (p : Async ρ Answer α) :
    (p.embed f g).Asks kind := by
  induction p with
  | done a => trivial
  | await r next ih => exact ⟨h r, fun answer => ih (g r answer)⟩

theorem gives_any (p : Async ρ Answer α) : p.Gives fun _ => True := by
  induction p with
  | done a => trivial
  | await r next ih => exact ih

theorem gives_bind {p : Async ρ Answer α} {f : α → Async ρ Answer β} (hp : p.Gives P)
    (hf : ∀ a, P a → (f a).Gives Q) : (p >>= f).Gives Q := by
  induction p with
  | done a => exact hf a hp
  | await r next ih => exact fun answer => ih answer (hp answer)

theorem gives_attempt {ε : Type} (p : ExceptT ε (Async ρ Answer) α) :
    (attempt p).run.Gives fun result => ∃ value, result = .ok value :=
  gives_bind (gives_any p.run) fun value _ => ⟨value, rfl⟩

variable {ι σ χ : Type} [DecidableEq ι] {serve : ι → χ → (r : ρ) → σ → Answer r × σ}

/-- RUN: what is true of a program however its requests are answered stays true of what is left of it. -/
theorem runSchedule_programs (kept : ι → Async ρ Answer α → Prop)
    (hkept : ∀ c r next answer, kept c (.await r next) → kept c (next answer))
    {system : Concurrent ι σ ρ Answer α} (h : ∀ c, kept c (system.programs c))
    (schedule : List (ι × χ)) :
    ∀ c, kept c ((runSchedule serve system schedule).programs c) := by
  induction schedule generalizing system with
  | nil => exact h
  | cons turn schedule ih =>
    refine ih ?_
    intro c
    unfold advance
    cases hprogram : system.programs turn.1 with
    | done a => exact h c
    | await r next =>
      by_cases hc : c = turn.1
      · subst hc
        simpa only [Function.update_self] using hkept _ r next _ (hprogram ▸ h turn.1)
      · simpa only [Function.update_of_ne hc] using h c

end Follows

/-! ### Runs that meet a condition -/

section Guards

variable {ι σ χ : Type} (guard : ι → χ → (r : ρ) → σ → Prop) (fallback : χ)
  (serve : ι → χ → (r : ρ) → σ → Answer r × σ)

open Classical in
/-- A request that breaks the condition fares as the fallback has it. -/
noncomputable def guarded (c : ι) (choice : χ) (r : ρ) (s : σ) : Answer r × σ :=
  serve c (if guard c choice r s then choice else fallback) r s

theorem guarded_cases (c : ι) (choice : χ) (r : ρ) (s : σ) :
    ∃ choice', guarded guard fallback serve c choice r s = serve c choice' r s ∧
      (guard c choice' r s ∨ choice' = fallback) := by
  by_cases h : guard c choice r s
  · exact ⟨choice, by rw [guarded, if_pos h], .inl h⟩
  · exact ⟨fallback, by rw [guarded, if_neg h], .inr rfl⟩

variable [DecidableEq ι]

/-- Every request of the schedule meets the condition. -/
def Meets (system : Concurrent ι σ ρ Answer α) : List (ι × χ) → Prop
  | [] => True
  | turn :: schedule =>
    (∀ r next, system.programs turn.1 = .await r next → guard turn.1 turn.2 r system.shared) ∧
      Meets (advance serve system turn) schedule

instance decidableAwaits (p : Async ρ Answer α) (P : ρ → Prop) [DecidablePred P] :
    Decidable (∀ r next, p = .await r next → P r) :=
  match p with
  | .done _ => isTrue (by rintro _ _ ⟨⟩)
  | .await r next => decidable_of_iff (P r) ⟨by rintro h _ _ ⟨⟩; exact h, fun h => h r next rfl⟩

instance Meets.decidable [∀ c choice r s, Decidable (guard c choice r s)]
    (system : Concurrent ι σ ρ Answer α) :
    (schedule : List (ι × χ)) → Decidable (Meets guard serve system schedule)
  | [] => isTrue trivial
  | turn :: schedule =>
      @instDecidableAnd _ _ (decidableAwaits _ fun r => guard turn.1 turn.2 r system.shared)
    (Meets.decidable (advance serve system turn) schedule)

variable {guard fallback serve}

theorem advance_guarded {system : Concurrent ι σ ρ Answer α} {turn : ι × χ}
    (h : ∀ r next, system.programs turn.1 = .await r next → guard turn.1 turn.2 r system.shared) :
    advance (guarded guard fallback serve) system turn = advance serve system turn := by
  unfold advance
  cases hprogram : system.programs turn.1 with
  | done a => rfl
  | await r next => simp only [guarded, if_pos (h r next hprogram)]

/-- Then the condition need not be enforced. -/
theorem runSchedule_guarded {system : Concurrent ι σ ρ Answer α} {schedule : List (ι × χ)}
    (h : Meets guard serve system schedule) :
    runSchedule (guarded guard fallback serve) system schedule = runSchedule serve system schedule := by
  induction schedule generalizing system with
  | nil => rfl
  | cons turn schedule ih =>
    obtain ⟨hturn, hrest⟩ := h
    rw [runSchedule, List.foldl_cons, advance_guarded hturn]
    exact ih hrest

theorem meets_of_forall {schedule : List (ι × χ)} (h : ∀ turn ∈ schedule, ∀ r s, guard turn.1 turn.2 r s)
    (system : Concurrent ι σ ρ Answer α) : Meets guard serve system schedule := by
  induction schedule generalizing system with
  | nil => trivial
  | cons turn schedule ih =>
    exact ⟨fun r _ _ => h turn List.mem_cons_self r system.shared,
      ih (fun turn' hturn' => h turn' (List.mem_cons_of_mem _ hturn')) _⟩

end Guards

end StarkBallot.Schemes
