import Mathlib.Data.Nat.Notation
import StarkBallot.Schemes.Async

/-! One asynchronous program on its own. Its requests are served one after the other, in any of the ways
    that leave a healthy state, until it is done. What holds however it ends (`Ends`) is shown request
    by request; what is known of it among others (`Safe`) holds of it alone. -/

namespace StarkBallot.Schemes

variable {ρ : Type} {Answer : ρ → Type} {α β σ χ ε : Type}

section Alone

variable (serve : χ → (r : ρ) → σ → Answer r × σ) (healthy : σ → Prop)

inductive Reaches : Async ρ Answer α → σ → α → σ → Prop
  | done (a : α) (s : σ) : Reaches (.done a) s a s
  | await {r : ρ} {next : Answer r → Async ρ Answer α} {s : σ} {a : α} {s' : σ} (choice : χ)
    (hhealthy : healthy (serve choice r s).2)
    (hnext : Reaches (next (serve choice r s).1) (serve choice r s).2 a s') :
    Reaches (.await r next) s a s'

/-- However the program ends, it ends like this. -/
def Ends (post : α → σ → Prop) (p : Async ρ Answer α) (s : σ) : Prop :=
  ∀ a s', Reaches serve healthy p s a s' → post a s'

/-- The program with all requests served in one way, if that stays healthy. -/
def execAlone [DecidablePred healthy] (choice : χ) : Async ρ Answer α → σ → Option (α × σ)
  | .done a, s => some (a, s)
  | .await r next, s =>
    let served := serve choice r s
    if healthy served.2 then execAlone choice (next served.1) served.2 else none

variable {serve healthy} {post : α → σ → Prop} {post' : β → σ → Prop}

theorem reaches_of_exec [DecidablePred healthy] {choice : χ} {p : Async ρ Answer α} {s s' : σ} {a : α}
    (h : execAlone serve healthy choice p s = some (a, s')) : Reaches serve healthy p s a s' := by
  induction p generalizing s with
  | done b =>
    cases h
    exact .done _ _
  | await r next ih =>
    simp only [execAlone] at h
    split at h
    · rename_i hhealthy
      exact .await choice hhealthy (ih _ h)
    · cases h

theorem reaches_healthy {p : Async ρ Answer α} {s s' : σ} {a : α} (h : Reaches serve healthy p s a s')
    (hhealthy : healthy s) : healthy s' := by
  induction h with
  | done => exact hhealthy
  | await choice hserved hnext ih => exact ih hserved

/-- What is healthy in a stricter sense is healthy. -/
theorem Reaches.mono {strict : σ → Prop} {p : Async ρ Answer α} {s s' : σ} {a : α}
    (h : Reaches serve strict p s a s') (himp : ∀ s, strict s → healthy s) :
    Reaches serve healthy p s a s' := by
  induction h with
  | done a s => exact .done a s
  | await choice hstrict hnext ih => exact .await choice (himp _ hstrict) ih

theorem ends_bind {p : Async ρ Answer α} {f : α → Async ρ Answer β} {s : σ}
    (hp : Ends serve healthy post p s) (hf : ∀ a s', post a s' → Ends serve healthy post' (f a) s') :
    Ends serve healthy post' (p >>= f) s := by
  induction p generalizing s with
  | done a => exact hf a s (hp a s (.done a s))
  | await r next ih =>
    intro b s'' hreaches
    cases hreaches with
    | await choice hhealthy hnext =>
      refine ih _ ?_ b s'' hnext
      intro a s' h
      exact hp a s' (.await choice hhealthy h)

theorem ends_done {a : α} {s : σ} (h : post a s) : Ends serve healthy post (.done a) s := by
  intro b s' hreaches
  cases hreaches
  exact h

theorem ends_request {r : ρ} {post : Answer r → σ → Prop} {s : σ}
    (h : ∀ choice, healthy (serve choice r s).2 → post (serve choice r s).1 (serve choice r s).2) :
    Ends serve healthy post (Async.request r) s := by
  intro a s' hreaches
  cases hreaches with
  | await choice hhealthy hnext =>
    cases hnext
    exact h choice hhealthy

theorem ends_mono {post₁ post₂ : α → σ → Prop} (hpost : ∀ a s', post₁ a s' → post₂ a s')
    {p : Async ρ Answer α} {s : σ} (h : Ends serve healthy post₁ p s) : Ends serve healthy post₂ p s :=
  fun a s' hreaches => hpost a s' (h a s' hreaches)

/-- What a program keeps among others, it keeps alone. -/
theorem Reaches.safe {ι χ' : Type} {serve' : ι → χ' → (r : ρ) → σ → Answer r × σ} {inv : σ → Prop}
    {others : ι → σ → σ → Prop} {c : ι}
    (hserve : ∀ choice r s, ∃ choice', serve choice r s = serve' c choice' r s)
    (hothers : ∀ s, others c s s) {p : Async ρ Answer α} {s s' : σ} {a : α}
    (h : Reaches serve healthy p s a s') (hsafe : Safe serve' inv others c post p s) (hinv : inv s) :
    post a s' ∧ inv s' := by
  induction h with
  | done a s => exact ⟨hsafe, hinv⟩
  | @await r next s a s' choice hhealthy hnext ih =>
    obtain ⟨choice', hchoice⟩ := hserve choice r s
    obtain ⟨hkeeps, -, hrest⟩ := hsafe s choice' (hothers s) hinv
    rw [← hchoice] at hkeeps hrest
    exact ih hrest hkeeps

/-! ### Programs that may fail -/

/-- The program returned, and this holds. -/
def Returns (post : α → σ → Prop) (result : Except ε α) (s : σ) : Prop := ∃ a, result = .ok a ∧ post a s

theorem ends_return {a : α} {s : σ} (h : post a s) :
    Ends serve healthy (Returns post) (pure a : ExceptT ε (Async ρ Answer) α).run s :=
  ends_done ⟨a, rfl, h⟩

theorem ends_seq {p : ExceptT ε (Async ρ Answer) α} {f : α → ExceptT ε (Async ρ Answer) β}
    {post' : Except ε β → σ → Prop} {s : σ} (hp : Ends serve healthy (Returns post) p.run s)
    (hf : ∀ a s', post a s' → Ends serve healthy post' (f a).run s') :
    Ends serve healthy post' (p >>= f).run s := by
  refine ends_bind hp ?_
  rintro _ s' ⟨a, rfl, hpost⟩
  exact hf a s' hpost

theorem ends_ask {r : ρ} {post : Answer r → σ → Prop} {s : σ}
    (h : ∀ choice, healthy (serve choice r s).2 → post (serve choice r s).1 (serve choice r s).2) :
    Ends serve healthy (Returns post) (ask r : ExceptT ε (Async ρ Answer) (Answer r)).run s :=
  ends_bind (ends_request h) fun a _ hpost => ends_done ⟨a, rfl, hpost⟩

theorem ends_attempt {p : ExceptT ε (Async ρ Answer) α} {post : Except ε α → σ → Prop} {s : σ}
    (hp : Ends serve healthy post p.run s) : Ends serve healthy (Returns post) (attempt p).run s :=
  ends_bind hp fun result _ hpost => ends_done ⟨result, rfl, hpost⟩

end Alone

/-! ### One way to be served -/

section Finishes

/-- With its requests served in this way the program is done after so many of them, or fewer. -/
inductive Finishes (serve : (r : ρ) → σ → Answer r × σ) : ℕ → Async ρ Answer α → σ → α → σ → Prop
  | done (n : ℕ) (a : α) (s : σ) : Finishes serve n (.done a) s a s
  | await {n : ℕ} {r : ρ} {next : Answer r → Async ρ Answer α} {s : σ} {a : α} {s' : σ}
    (hnext : Finishes serve n (next (serve r s).1) (serve r s).2 a s') :
    Finishes serve (n + 1) (.await r next) s a s'

variable {serve : (r : ρ) → σ → Answer r × σ} {m n : ℕ} {s s' s'' : σ}

theorem Finishes.mono {p : Async ρ Answer α} {a : α} (h : Finishes serve m p s a s') (hle : m ≤ n) :
    Finishes serve n p s a s' := by
  induction h generalizing n with
  | done => exact .done _ _ _
  | await hnext ih =>
    obtain ⟨k, rfl⟩ := Nat.exists_eq_add_of_lt hle
    exact .await (ih (by omega))

theorem finishes_bind {p : Async ρ Answer α} {f : α → Async ρ Answer β} {a : α} {b : β}
    (hp : Finishes serve m p s a s') (hf : Finishes serve n (f a) s' b s'') :
    Finishes serve (m + n) (p >>= f) s b s'' := by
  induction hp with
  | done k a s => exact hf.mono (by omega)
  | @await k r next s a s' hnext ih =>
    rw [Nat.add_right_comm]
    exact .await (ih hf)

theorem finishes_request {r : ρ} {f : Answer r → Async ρ Answer β} {b : β}
    (hf : Finishes serve n (f (serve r s).1) (serve r s).2 b s') :
    Finishes serve (n + 1) (Async.request r >>= f) s b s' :=
  .await hf

theorem finishes_seq {p : ExceptT ε (Async ρ Answer) α} {f : α → ExceptT ε (Async ρ Answer) β} {a : α}
    {result : Except ε β} (hp : Finishes serve m p.run s (.ok a) s')
    (hf : Finishes serve n (f a).run s' result s'') :
    Finishes serve (m + n) (p >>= f).run s result s'' :=
  finishes_bind hp hf

theorem finishes_lift {p : Async ρ Answer α} {a : α} (hp : Finishes serve n p s a s') :
    Finishes serve n (ExceptT.lift p : ExceptT ε (Async ρ Answer) α).run s (.ok a) s' := by
  have hok : Finishes serve 0 (.done (Except.ok a : Except ε α)) s' (.ok a) s' := .done 0 _ _
  exact finishes_bind (f := fun b => .done (Except.ok b)) hp hok

theorem finishes_attempt {p : ExceptT ε (Async ρ Answer) α} {result : Except ε α}
    (hp : Finishes serve n p.run s result s') : Finishes serve n (attempt p).run s (.ok result) s' :=
  finishes_lift hp

/-- A program of a part of a system, which `view` shows. -/
theorem finishes_embed {ρ' σ' : Type} {Answer' : ρ' → Type} {serve' : (r : ρ') → σ' → Answer' r × σ'}
    {view : σ' → σ} {f : ρ → ρ'} {g : ∀ r, Answer' (f r) → Answer r}
    (hanswer : ∀ r s, g r (serve' (f r) s).1 = (serve r (view s)).1)
    (hview : ∀ r s, view (serve' (f r) s).2 = (serve r (view s)).2) {p : Async ρ Answer α}
    {a : α} {s : σ'} {t : σ} (hp : Finishes serve n p (view s) a t) :
    ∃ s', Finishes serve' n (p.embed f g) s a s' ∧ view s' = t := by
  induction p generalizing n s with
  | done b =>
    cases hp
    exact ⟨s, .done _ _ _, rfl⟩
  | await r next ih =>
    cases hp with
    | await hnext =>
      rw [← hview] at hnext
      obtain ⟨s', hfinishes, hs'⟩ := ih _ hnext
      refine ⟨s', .await ?_, hs'⟩
      rw [hanswer]
      exact hfinishes

/-- What a program keeps among others, it keeps when it is served in one way. -/
theorem Finishes.safe {ι : Type} {serve : ι → χ → (r : ρ) → σ → Answer r × σ} {inv : σ → Prop}
    {others : ι → σ → σ → Prop} {c : ι} {choice : χ} {post : α → σ → Prop} (hothers : ∀ s, others c s s)
    {p : Async ρ Answer α} {a : α} (h : Finishes (serve c choice) n p s a s')
    (hsafe : Safe serve inv others c post p s) (hinv : inv s) : post a s' := by
  induction h with
  | done => exact hsafe
  | await hnext ih =>
    obtain ⟨hkeeps, -, hrest⟩ := hsafe _ choice (hothers _) hinv
    exact ih hrest hkeeps

variable {ι : Type} [DecidableEq ι]

/-- The program `c` is served in one way, and nobody else changes the shared state. -/
def Undisturbed (serve : ι → χ → (r : ρ) → σ → Answer r × σ) (c : ι) (choice : χ)
    (system : Concurrent ι σ ρ Answer α) :
    List (ι × χ) → Prop
  | [] => True
  | turn :: schedule =>
    (if turn.1 = c then turn.2 = choice else (advance serve system turn).shared = system.shared) ∧
      Undisturbed serve c choice (advance serve system turn) schedule

theorem undisturbed_of_alone {serve : ι → χ → (r : ρ) → σ → Answer r × σ} {c : ι} {choice : χ}
    {schedule : List (ι × χ)} (h : ∀ turn ∈ schedule, turn = (c, choice))
    (system : Concurrent ι σ ρ Answer α) :
    Undisturbed serve c choice system schedule := by
  induction schedule generalizing system with
  | nil => trivial
  | cons turn schedule ih =>
    obtain rfl := h turn List.mem_cons_self
    exact ⟨if_pos rfl ▸ rfl, ih (fun turn hturn => h turn (List.mem_cons_of_mem _ hturn)) _⟩

/-- RUN: undisturbed, a program ends as it does alone. -/
theorem finishes_undisturbed {serve : ι → χ → (r : ρ) → σ → Answer r × σ} {c : ι} {choice : χ}
    {system : Concurrent ι σ ρ Answer α} {schedule : List (ι × χ)} {a : α}
    (hfinishes : Finishes (serve c choice) n (system.programs c) system.shared a s')
    (hundisturbed : Undisturbed serve c choice system schedule)
    (hturns : n ≤ (schedule.filter fun turn => turn.1 = c).length) :
    (runSchedule serve system schedule).programs c = .done a ∧
    (runSchedule serve system schedule).shared = s' := by
  induction schedule generalizing system n with
  | nil =>
    obtain rfl : n = 0 := by simpa using hturns
    revert hfinishes
    cases hprogram : system.programs c with
    | done b =>
      rintro ⟨⟩
      exact ⟨hprogram, rfl⟩
    | await r next => rintro ⟨⟩
  | cons turn schedule ih =>
    obtain ⟨hturn, hrest⟩ := hundisturbed
    by_cases hc : turn.1 = c
    · rw [if_pos hc] at hturn
      rw [List.filter_cons_of_pos (by simpa using hc), List.length_cons] at hturns
      obtain ⟨c', choice'⟩ := turn
      subst hc hturn
      revert hfinishes
      cases hprogram : system.programs c' with
      | done b =>
        rintro ⟨⟩
        have hstays : advance serve system (c', choice') = system := by simp only [advance, hprogram]
        rw [hstays] at hrest
        rw [runSchedule, List.foldl_cons, hstays]
        exact ih (n := 0) (hprogram ▸ .done 0 _ _) hrest (Nat.zero_le _)
      | await r next =>
        rintro (_ | hnext)
        refine ih ?_ hrest (Nat.le_of_succ_le_succ hturns)
        simpa only [advance, hprogram, Function.update_self] using hnext
    · rw [if_neg hc] at hturn
      rw [List.filter_cons_of_neg (by simpa using hc)] at hturns
      refine ih ?_ hrest hturns
      have hprogram : (advance serve system turn).programs c = system.programs c := by
        unfold advance
        split
        · rfl
        · exact Function.update_of_ne (Ne.symm hc) _ _
      rwa [hturn, hprogram]

end Finishes

end StarkBallot.Schemes
