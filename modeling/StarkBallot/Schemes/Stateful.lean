import Mathlib.Data.List.Forall2
import Mathlib.Data.Nat.Basic

/-! Methods of an object: they read and change its fields and may throw, and a throw keeps the changes
    made so far. A method is a term of `ExceptT ε (StateM σ)`; `exec` runs it. A method that returns and
    keeps an invariant `Yields` its result, and there is one rule for each way to build a method, so that
    a call is replaced by what is known about it. -/

namespace StarkBallot.Schemes

variable {ε σ α β : Type}

/-- Run a method on a state: its result or what it throws, and the state after it. -/
def exec (x : ExceptT ε (StateM σ) α) (s : σ) : Except ε α × σ := x.run.run s

/-- A computation that may throw and touches no field. -/
def lifted (r : Except ε α) : ExceptT ε (StateM σ) α := ExceptT.mk (pure r)

/-- A method of an object that is a field of this one. -/
def onPart {τ : Type} (part : σ → τ) (set : σ → τ → σ) (x : ExceptT ε (StateM τ) α) :
    ExceptT ε (StateM σ) α :=
  ExceptT.mk fun s => ((exec x (part s)).1, set s (exec x (part s)).2)

@[simp] theorem exec_pure (a : α) (s : σ) : exec (pure a : ExceptT ε (StateM σ) α) s = (.ok a, s) := rfl

@[simp] theorem exec_throw (e : ε) (s : σ) :
    exec (throw e : ExceptT ε (StateM σ) α) s = (.error e, s) := rfl

@[simp] theorem exec_lifted (r : Except ε α) (s : σ) :
    exec (lifted r : ExceptT ε (StateM σ) α) s = (r, s) := rfl

@[simp] theorem exec_onPart {τ : Type} (part : σ → τ) (set : σ → τ → σ)
    (x : ExceptT ε (StateM τ) α) (s : σ) :
    exec (onPart part set x) s = ((exec x (part s)).1, set s (exec x (part s)).2) := rfl

theorem exec_onPart_eq_ok {τ : Type} {part : σ → τ} {set : σ → τ → σ} {x : ExceptT ε (StateM τ) α}
    {s s' : σ} {a : α} (h : exec (onPart part set x) s = (.ok a, s')) :
    ∃ t, exec x (part s) = (.ok a, t) ∧ s' = set s t := by
  rw [exec_onPart] at h
  obtain ⟨hresult, rfl⟩ := Prod.mk.inj h
  exact ⟨_, Prod.ext hresult rfl, rfl⟩

@[simp] theorem exec_get (s : σ) : exec (get : ExceptT ε (StateM σ) σ) s = (.ok s, s) := rfl

@[simp] theorem exec_modify (f : σ → σ) (s : σ) :
    exec (modify f : ExceptT ε (StateM σ) Unit) s = (.ok (), f s) := rfl

theorem exec_bind (x : ExceptT ε (StateM σ) α) (f : α → ExceptT ε (StateM σ) β) (s : σ) :
    exec (x >>= f) s = match exec x s with
      | (.ok a, s') => exec (f a) s'
      | (.error e, s') => (.error e, s') := by
  unfold exec
  rw [ExceptT.run_bind]
  change StateT.run (StateT.bind _ _) s = _
  rcases hx : x.run.run s with ⟨_ | _, s'⟩ <;>
    · simp only [StateT.run, StateT.bind] at hx ⊢
      rw [show x.run s = _ from hx]
      rfl

/-- A call that returned. -/
theorem exec_bind_ok {x : ExceptT ε (StateM σ) α} {s s' : σ} {a : α} (h : exec x s = (.ok a, s'))
    (f : α → ExceptT ε (StateM σ) β) : exec (x >>= f) s = exec (f a) s' := by rw [exec_bind, h]

theorem exec_get_bind (f : σ → ExceptT ε (StateM σ) β) (s : σ) : exec (get >>= f) s = exec (f s) s := rfl

/-! ### Calls that return and keep an invariant -/

/-- From `s` the method returns `a`, and `inv` holds after it. -/
def Yields (inv : σ → Prop) (x : ExceptT ε (StateM σ) α) (s : σ) (a : α) : Prop :=
  ∃ s', exec x s = (.ok a, s') ∧ inv s'

variable {inv : σ → Prop} {s : σ} {a : α} {b : β} {x : ExceptT ε (StateM σ) α}
    {f : α → ExceptT ε (StateM σ) β}

theorem yields_pure (h : inv s) : Yields inv (pure a : ExceptT ε (StateM σ) α) s a := ⟨s, rfl, h⟩

theorem yields_lifted (h : inv s) : Yields inv (lifted (.ok a) : ExceptT ε (StateM σ) α) s a :=
  ⟨s, rfl, h⟩

theorem yields_modify {g : σ → σ} (h : inv (g s)) :
    Yields inv (modify g : ExceptT ε (StateM σ) Unit) s () := ⟨g s, rfl, h⟩

/-- The state after the call is known. -/
theorem yields_bind_exec {s' : σ} (hx : exec x s = (.ok a, s')) (hf : Yields inv (f a) s' b) :
    Yields inv (x >>= f) s b := by
  obtain ⟨s'', hrest, hinv⟩ := hf
  exact ⟨s'', by rw [exec_bind_ok hx, hrest], hinv⟩

theorem yields_bind (hx : Yields inv x s a) (hf : ∀ s', inv s' → Yields inv (f a) s' b) :
    Yields inv (x >>= f) s b := by
  obtain ⟨s', hexec, hinv⟩ := hx
  exact yields_bind_exec hexec (hf s' hinv)

/-- The fields read are those of the current state. -/
theorem yields_get_bind {f : σ → ExceptT ε (StateM σ) β} (h : Yields inv (f s) s b) :
    Yields inv (get >>= f) s b := h

theorem Yields.keeps (h : Yields inv x s a) : inv (exec x s).2 := by
  obtain ⟨s', hexec, hinv⟩ := h
  rwa [hexec]

theorem Yields.result (h : Yields inv x s a) : (exec x s).1 = .ok a := by
  obtain ⟨s', hexec, _⟩ := h
  rw [hexec]

/-! ### Calls that return or throw as another computation does -/

section Answers

variable {r r' : Except ε α} {y : ExceptT ε (StateM σ) α}

/-- From `s` the method returns or throws as `r` does, and `inv` holds after it. -/
def Answers (inv : σ → Prop) (x : ExceptT ε (StateM σ) α) (s : σ) (r : Except ε α) : Prop :=
  (exec x s).1 = r ∧ inv (exec x s).2

theorem Yields.answers (h : Yields inv x s a) : Answers inv x s (.ok a) := ⟨h.result, h.keeps⟩

theorem answers_throw {e : ε} (h : inv s) :
    Answers inv (throw e : ExceptT ε (StateM σ) α) s (throw e) := ⟨rfl, h⟩

theorem answers_get_bind {f : σ → ExceptT ε (StateM σ) α} (h : Answers inv (f s) s r) :
    Answers inv (get >>= f) s r := h

theorem answers_ite {c : Prop} [Decidable c] (hx : c → Answers inv x s r)
    (hy : ¬ c → Answers inv y s r') :
    Answers inv (if c then x else y) s (if c then r else r') := by
  split
  · exact hx ‹_›
  · exact hy ‹_›

end Answers

/-! ### Calls that leave a field alone -/

section Frames

variable {τ : Type} {field : σ → τ}

/-- The method leaves `field` as it was, whether it returns or throws. -/
def Frames (field : σ → τ) (x : ExceptT ε (StateM σ) α) : Prop := ∀ s, field (exec x s).2 = field s

theorem frames_pure : Frames field (pure a : ExceptT ε (StateM σ) α) := fun _ => rfl

theorem frames_throw {e : ε} : Frames field (throw e : ExceptT ε (StateM σ) α) := fun _ => rfl

theorem frames_get : Frames field (get : ExceptT ε (StateM σ) σ) := fun _ => rfl

theorem frames_lifted {r : Except ε α} : Frames field (lifted r : ExceptT ε (StateM σ) α) := fun _ => rfl

theorem frames_modify {g : σ → σ} (h : ∀ s, field (g s) = field s) :
    Frames field (modify g : ExceptT ε (StateM σ) Unit) := h

theorem frames_bind (hx : Frames field x) (hf : ∀ a, Frames field (f a)) : Frames field (x >>= f) := by
  intro s
  have hstep := hx s
  rw [exec_bind]
  rcases hexec : exec x s with ⟨_ | a, s'⟩
  · rw [hexec] at hstep
    exact hstep
  · rw [hexec] at hstep
    exact (hf a s').trans hstep

theorem frames_ite {c : Prop} [Decidable c] {y : ExceptT ε (StateM σ) α} (hx : c → Frames field x)
    (hy : ¬ c → Frames field y) : Frames field (if c then x else y) := by
  split
  · exact hx ‹_›
  · exact hy ‹_›

end Frames

/-! ### Loops -/

section Loops

variable {done rest : List α} {l : List α} {state : List α → β → σ → Prop}
    {step : β → α → ExceptT ε (StateM σ) β}

/-- A call that returned did so through its parts. -/
theorem exec_bind_eq_ok {x : ExceptT ε (StateM σ) α} {f : α → ExceptT ε (StateM σ) β} {s s' : σ} {b : β}
    (h : exec (x >>= f) s = (.ok b, s')) :
    ∃ a t, exec x s = (.ok a, t) ∧ exec (f a) t = (.ok b, s') := by
  rw [exec_bind] at h
  rcases hx : exec x s with ⟨_ | a, t⟩
  · rw [hx] at h
    cases h
  · rw [hx] at h
    exact ⟨a, t, rfl, h⟩

theorem eq_of_exec_pure {a b : α} {s s' : σ}
    (h : exec (pure a : ExceptT ε (StateM σ) α) s = (.ok b, s')) : b = a := by
  rw [exec_pure] at h
  exact (Except.ok.inj (congrArg Prod.fst h)).symm

theorem not_exec_throw {e : ε} {b : α} {s s' : σ}
    (h : exec (throw e : ExceptT ε (StateM σ) α) s = (.ok b, s')) :
    False := by
  rw [exec_throw] at h
  cases congrArg Prod.fst h

/-- A loop that returned mapped its elements one by one. -/
theorem forall₂_of_exec_mapM {f : α → ExceptT ε (StateM σ) β} {l' : List β} {s s' : σ}
    (h : exec (l.mapM f) s = (.ok l', s')) :
    List.Forall₂ (fun a b => ∃ t t', exec (f a) t = (.ok b, t')) l l' := by
  induction l generalizing s s' l' with
  | nil =>
    rw [List.mapM_nil] at h
    rw [eq_of_exec_pure h]
    exact .nil
  | cons a l ih =>
    rw [List.mapM_cons] at h
    obtain ⟨b, s₁, hb, h⟩ := exec_bind_eq_ok h
    obtain ⟨bs, s₂, hbs, h⟩ := exec_bind_eq_ok h
    rw [eq_of_exec_pure h]
    exact .cons ⟨s, s₁, hb⟩ (ih hbs)

/-- A loop that returned keeps what each of its steps keeps; `done` is the part it is through with. -/
theorem exec_foldlM_eq_ok {b : β} {s : σ} {b' : β} {s' : σ} (hstart : state [] b s)
    (hstep : ∀ done a rest, l = done ++ a :: rest → ∀ b s b' s', state done b s →
      exec (step b a) s = (.ok b', s') →
      state (done ++ [a]) b' s') (h : exec (l.foldlM step b) s = (.ok b', s')) : state l b' s' := by
  suffices hrest : ∀ rest done b s, l = done ++ rest → state done b s →
      exec (rest.foldlM step b) s = (.ok b', s') → state l b' s' from hrest l [] b s rfl hstart h
  intro rest
  induction rest with
  | nil =>
    intro done b s hl hdone h
    rw [List.append_nil] at hl
    obtain ⟨rfl, rfl⟩ : b = b' ∧ s = s' := by simpa [List.foldlM_nil] using h
    rwa [hl]
  | cons a rest ih =>
    intro done b s hl hdone h
    rw [List.foldlM_cons] at h
    obtain ⟨b₁, s₁, ha, hrest⟩ := exec_bind_eq_ok h
    exact ih (done ++ [a]) b₁ s₁ (by simp [hl]) (hstep done a rest hl b s b₁ s₁ hdone ha) hrest

/-- A loop returns if each of its steps does. -/
theorem exec_foldlM_returns {b : β} {s : σ} (hstart : state [] b s)
    (hstep : ∀ done a rest, l = done ++ a :: rest → ∀ b s, state done b s →
      ∃ b' s', exec (step b a) s = (.ok b', s') ∧ state (done ++ [a]) b' s') :
    ∃ b' s', exec (l.foldlM step b) s = (.ok b', s') ∧ state l b' s' := by
  suffices hrest : ∀ rest done b s, l = done ++ rest → state done b s →
      ∃ b' s', exec (rest.foldlM step b) s = (.ok b', s') ∧ state l b' s' from hrest l [] b s rfl hstart
  intro rest
  induction rest with
  | nil =>
    intro done b s hl hdone
    rw [List.append_nil] at hl
    exact ⟨b, s, rfl, hl ▸ hdone⟩
  | cons a rest ih =>
    intro done b s hl hdone
    obtain ⟨b₁, s₁, ha, hnext⟩ := hstep done a rest hl b s hdone
    obtain ⟨b', s', hrest, hstate⟩ := ih (done ++ [a]) b₁ s₁ (by simp [hl]) hnext
    refine ⟨b', s', ?_, hstate⟩
    rw [List.foldlM_cons, exec_bind_ok ha, hrest]

end Loops

end StarkBallot.Schemes
