import StarkBallot.Schemes.Stateful

/-! Pre- and postconditions of methods. `Triple x pre post fail` says what holds of the state when `x`
    returned and what holds of it when `x` threw; there is one rule for each way to build a method. An
    invariant of a loop holds after the loop, and where the loop stopped as well.

        pre ── x ──▶ mid a ── f a ──▶ post b
               │              │
               ▼              ▼
              fail e         fail e

    Nothing is assumed of how long a method runs: it is a function of the state. -/

namespace StarkBallot.Schemes

variable {ε σ α β : Type} {pre pre' : σ → Prop} {post post' : α → σ → Prop} {fail fail' : ε → σ → Prop}
  {x : ExceptT ε (StateM σ) α}

/-- From every state with `pre` the method returns with `post` or throws with `fail`. -/
def Triple (x : ExceptT ε (StateM σ) α) (pre : σ → Prop) (post : α → σ → Prop) (fail : ε → σ → Prop) :
    Prop :=
  ∀ s, pre s → (∀ a s', exec x s = (.ok a, s') → post a s') ∧ ∀ e s', exec x s = (.error e, s') →
    fail e s'

theorem triple_pure {a : α} (h : ∀ s, pre s → post a s) :
    Triple (pure a : ExceptT ε (StateM σ) α) pre post fail := by
  refine fun s hs => ⟨fun b s' hb => ?_, fun e s' he => ?_⟩
  · rw [exec_pure] at hb
    cases hb
    exact h s hs
  · rw [exec_pure] at he
    cases he

theorem triple_throw {e : ε} (h : ∀ s, pre s → fail e s) :
    Triple (throw e : ExceptT ε (StateM σ) α) pre post fail := by
  refine fun s hs => ⟨fun b s' hb => ?_, fun e' s' he => ?_⟩
  · rw [exec_throw] at hb
    cases hb
  · rw [exec_throw] at he
    cases he
    exact h s hs

theorem triple_get {post : σ → σ → Prop} (h : ∀ s, pre s → post s s) :
    Triple (get : ExceptT ε (StateM σ) σ) pre post fail := by
  refine fun s hs => ⟨fun b s' hb => ?_, fun e s' he => ?_⟩
  · rw [exec_get] at hb
    cases hb
    exact h s hs
  · rw [exec_get] at he
    cases he

theorem triple_modify {g : σ → σ} {post : Unit → σ → Prop} (h : ∀ s, pre s → post () (g s)) :
    Triple (modify g : ExceptT ε (StateM σ) Unit) pre post fail := by
  refine fun s hs => ⟨fun b s' hb => ?_, fun e s' he => ?_⟩
  · rw [exec_modify] at hb
    cases hb
    exact h s hs
  · rw [exec_modify] at he
    cases he

theorem triple_lifted {r : Except ε α} (hok : ∀ a s, r = .ok a → pre s → post a s)
    (herror : ∀ e s, r = .error e → pre s → fail e s) :
    Triple (lifted r : ExceptT ε (StateM σ) α) pre post fail := by
  refine fun s hs => ⟨fun a s' ha => ?_, fun e s' he => ?_⟩
  · rw [exec_lifted] at ha
    cases ha
    exact hok a s rfl hs
  · rw [exec_lifted] at he
    cases he
    exact herror e s rfl hs

/-- What holds between the two parts is named first. -/
theorem triple_bind (mid : α → σ → Prop) {post : β → σ → Prop} {f : α → ExceptT ε (StateM σ) β}
    (hx : Triple x pre mid fail) (hf : ∀ a, Triple (f a) (mid a) post fail) :
    Triple (x >>= f) pre post fail := by
  intro s hs
  obtain ⟨hok, herror⟩ := hx s hs
  rcases hexec : exec x s with ⟨_ | a, s'⟩
  · rename_i e
    refine ⟨fun b s'' hb => ?_, fun e' s'' he => ?_⟩
    · rw [exec_bind, hexec] at hb
      cases hb
    · rw [exec_bind, hexec] at he
      cases he
      exact herror e s' hexec
  · rw [exec_bind, hexec]
    exact hf a s' (hok a s' hexec)

theorem triple_ite {c : Prop} [Decidable c] {y : ExceptT ε (StateM σ) α}
    (hx : c → Triple x pre post fail) (hy : ¬ c → Triple y pre post fail) :
    Triple (if c then x else y) pre post fail := by
  split
  · exact hx ‹_›
  · exact hy ‹_›

theorem Triple.imp (h : Triple x pre post fail) (hpre : ∀ s, pre' s → pre s)
    (hpost : ∀ a s, post a s → post' a s) (hfail : ∀ e s, fail e s → fail' e s) :
    Triple x pre' post' fail' := by
  intro s hs
  obtain ⟨hok, herror⟩ := h s (hpre s hs)
  exact ⟨fun a s' ha => hpost a s' (hok a s' ha), fun e s' he => hfail e s' (herror e s' he)⟩

/-- A fact that follows from the precondition may be used of the method. -/
theorem triple_of_fact {p : Prop} (hp : ∀ s, pre s → p) (h : p → Triple x pre post fail) :
    Triple x pre post fail :=
  fun s hs => h (hp s hs) s hs

/-- A method whose outcome is known as a function of the state. -/
theorem triple_exec {r : σ → Except ε α} {g : σ → σ} (h : ∀ s, exec x s = (r s, g s))
    (hok : ∀ s a, pre s → r s = .ok a → post a (g s))
    (herror : ∀ s e, pre s → r s = .error e → fail e (g s)) :
    Triple x pre post fail := by
  refine fun s hs => ⟨fun a s' ha => ?_, fun e s' he => ?_⟩
  · rw [h] at ha
    obtain ⟨hresult, rfl⟩ := Prod.mk.inj ha
    exact hok s a hs hresult
  · rw [h] at he
    obtain ⟨hresult, rfl⟩ := Prod.mk.inj he
    exact herror s e hs hresult

/-! ### Loops -/

section Loops

variable {inv : σ → Prop}

/-- LOOP: what every round keeps holds after the loop and where it stopped. -/
theorem triple_forM {f : β → ExceptT ε (StateM σ) Unit} {fail : ε → σ → Prop} {l : List β}
    (h : ∀ b ∈ l, Triple (f b) inv (fun _ => inv) fail) : Triple (l.forM f) inv (fun _ => inv) fail := by
  induction l with
  | nil => exact triple_pure fun s hs => hs
  | cons b l ih =>
    rw [List.forM_eq_forM, List.forM_cons]
    exact triple_bind _ (h b List.mem_cons_self) fun _ => ih fun c hc => h c (List.mem_cons_of_mem b hc)

/-- LOOP: the same with a value that is carried along. -/
theorem triple_foldlM {inv : α → σ → Prop} {f : α → β → ExceptT ε (StateM σ) α} {l : List β} {a : α}
    (h : ∀ b ∈ l, ∀ a, Triple (f a b) (inv a) inv fail) : Triple (l.foldlM f a) (inv a) inv fail := by
  induction l generalizing a with
  | nil => exact triple_pure fun s hs => hs
  | cons b l ih =>
    rw [List.foldlM_cons]
    exact triple_bind _ (h b List.mem_cons_self a) fun _ => ih fun c hc =>
      h c (List.mem_cons_of_mem b hc)

end Loops

/-- Whatever the outcome, the state after the method is one of the two. -/
theorem Triple.state {final : σ → Prop} (h : Triple x pre (fun _ => final) fun _ => final) {s : σ}
    (hs : pre s) :
    final (exec x s).2 := by
  obtain ⟨hok, herror⟩ := h s hs
  rcases hexec : exec x s with ⟨_ | a, s'⟩
  · exact herror _ s' hexec
  · exact hok a s' hexec

end StarkBallot.Schemes
