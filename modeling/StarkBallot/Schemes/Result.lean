import Mathlib.Data.List.Forall2

/-! Results of fallible code, as `Except`. A check that returns early is `refuseIf bad e`; a sequence
    of checks and computations is taken apart by `bind_eq_ok`, one step at a time. -/

namespace StarkBallot.Schemes

variable {ε α β : Type}

/-- Stop with `e` when `bad` holds. -/
def refuseIf (bad : Prop) [Decidable bad] (e : ε) : Except ε Unit := if bad then .error e else .ok ()

@[simp] theorem refuseIf_eq_ok {bad : Prop} [Decidable bad] {e : ε} {u : Unit} :
    refuseIf bad e = .ok u ↔ ¬ bad := by
  unfold refuseIf
  split <;> simp_all

theorem refuseIf_of_not {bad : Prop} [Decidable bad] {e : ε} (h : ¬ bad) :
    refuseIf bad e = .ok () := if_neg h

theorem not_of_ite_ok {c : Prop} [Decidable c] {e : ε} {a b : α}
    (h : (if c then .error e else .ok a : Except ε α) = .ok b) : ¬ c ∧ a = b := by
  split at h
  · cases h
  · exact ⟨‹_›, Except.ok.inj h⟩

@[simp] theorem ok_bind (a : α) (f : α → Except ε β) : ((.ok a : Except ε α) >>= f) = f a := rfl

@[simp] theorem error_bind (e : ε) (f : α → Except ε β) : ((.error e : Except ε α) >>= f) = .error e :=
  rfl

/-- A sequence that returned: its first part returned and the rest returned from there. -/
theorem bind_eq_ok {x : Except ε α} {f : α → Except ε β} {b : β} :
    (x >>= f) = .ok b ↔ ∃ a, x = .ok a ∧ f a = .ok b := by
  cases x with
  | error e => simp
  | ok a => simp

theorem exists_of_isOk {x : Except ε α} (h : x.isOk = true) : ∃ a, x = .ok a := by
  cases x with
  | error e => cases h
  | ok a => exact ⟨a, rfl⟩

/-- A loop that maps every element succeeds with the values. -/
theorem mapM_of_forall₂ {f : α → Except ε β} : ∀ {l : List α} {l' : List β},
    List.Forall₂ (fun a b => f a = .ok b) l l' → l.mapM f = .ok l'
  | [], [], _ => rfl
  | a :: l, b :: l', .cons h hs => by
      rw [List.mapM_cons, h, ok_bind, mapM_of_forall₂ hs]
      rfl

/-- A loop that mapped every element did so one by one. -/
theorem forall₂_of_mapM {f : α → Except ε β} : ∀ {l : List α} {l' : List β}, l.mapM f = .ok l' →
    List.Forall₂ (fun a b => f a = .ok b) l l'
  | [], l', h => by
      rw [← Except.ok.inj h]
      exact .nil
  | a :: l, l', h => by
      rw [List.mapM_cons] at h
      obtain ⟨b, hb, h⟩ := bind_eq_ok.mp h
      obtain ⟨bs, hbs, h⟩ := bind_eq_ok.mp h
      rw [← Except.ok.inj h]
      exact .cons hb (forall₂_of_mapM hbs)

/-- Each element on the right has one on the left. -/
theorem exists_of_forall₂ {r : α → β → Prop} : ∀ {l : List α} {l' : List β}, List.Forall₂ r l l' →
    ∀ b ∈ l', ∃ a ∈ l, r a b
  | [], [], _, _, h => by cases h
  | a :: _, b :: _, .cons h hs, c, hc => by
      rcases List.mem_cons.mp hc with rfl | hc
      · exact ⟨a, List.mem_cons_self, h⟩
      · obtain ⟨a', ha', hr⟩ := exists_of_forall₂ hs c hc
        exact ⟨a', List.mem_cons_of_mem _ ha', hr⟩

/-- Elements at one position are related. -/
theorem get_of_forall₂ {r : α → β → Prop} : ∀ {l : List α} {l' : List β}, List.Forall₂ r l l' →
    ∀ {k : ℕ} {b : β}, l'[k]? = some b → ∃ a, l[k]? = some a ∧ r a b
  | [], [], _, _, _, h => by cases h
  | a :: _, _ :: _, .cons hr _, 0, _, h => ⟨a, rfl, Option.some.inj h ▸ hr⟩
  | _ :: _, _ :: _, .cons _ hs, _ + 1, _, h => get_of_forall₂ hs h

theorem map_eq_of_forall₂ {γ : Type} {f : α → γ} {g : β → γ} : ∀ {l : List α} {l' : List β},
    List.Forall₂ (fun a b => g b = f a) l l' → l'.map g = l.map f
  | [], [], _ => rfl
  | _ :: _, _ :: _, .cons h hs => by rw [List.map_cons, List.map_cons, h, map_eq_of_forall₂ hs]

theorem forM_of_forall {f : α → Except ε PUnit} :
    ∀ {l : List α}, (∀ a ∈ l, f a = .ok ()) → l.forM f = .ok ()
  | [], _ => rfl
  | a :: l, h => by
      rw [List.forM_eq_forM, List.forM_cons, h a (by simp), ok_bind]
      exact forM_of_forall fun b hb => h b (by simp [hb])

theorem forM_eq_ok {f : α → Except ε PUnit} {l : List α} :
    l.forM f = .ok () ↔ ∀ a ∈ l, f a = .ok () := by
  refine ⟨fun h => ?_, forM_of_forall⟩
  induction l with
  | nil => simp
  | cons a l ih =>
    rw [List.forM_eq_forM, List.forM_cons] at h
    obtain ⟨_, ha, h⟩ := bind_eq_ok.mp h
    exact List.forall_mem_cons.mpr ⟨ha, ih h⟩

/-- The value of an option, or the given failure. -/
def okOr (o : Option α) (e : ε) : Except ε α :=
  match o with
  | some a => .ok a
  | none => .error e

@[simp] theorem okOr_eq_ok {o : Option α} {e : ε} {a : α} : okOr o e = .ok a ↔ o = some a := by
  cases o <;> simp [okOr]

/-- The failure of a result, in other words. -/
def mapErr {ε' : Type} (f : ε → ε') : Except ε α → Except ε' α
  | .ok a => .ok a
  | .error e => .error (f e)

@[simp] theorem mapErr_eq_ok {ε' : Type} {f : ε → ε'} {x : Except ε α} {a : α} :
    mapErr f x = .ok a ↔ x = .ok a := by
  cases x <;> simp [mapErr]

end StarkBallot.Schemes
