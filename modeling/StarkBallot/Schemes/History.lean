import Mathlib.Data.List.Induction

/-! Histories of a value that is replaced step by step, oldest first. In a run each value follows the
    one before by a step, the first follows nothing. What every step keeps is the same all along the
    run, and a value that no step leaves is the last one. -/

namespace StarkBallot.Schemes

variable {α β : Type} {step : Option α → α → Prop}

inductive IsRun (step : Option α → α → Prop) : List α → Prop
  | nil : IsRun step []
  | snoc {history : List α} {a : α} :
      IsRun step history → step history.getLast? a → IsRun step (history ++ [a])

/-- The value that was current after `n` steps. -/
def currentAt (history : List α) (n : ℕ) : Option α := (history.take n).getLast?

theorem currentAt_length (history : List α) : currentAt history history.length = history.getLast? := by
  rw [currentAt, List.take_length]

/-- Later steps do not change what was current earlier. -/
theorem currentAt_append {history : List α} {n : ℕ} (hn : n ≤ history.length) (later : List α) :
    currentAt (history ++ later) n = currentAt history n := by
  rw [currentAt, currentAt, List.take_append_of_le_length hn]

/-- Every value of a run came by a step. -/
theorem IsRun.of_step {history : List α} (hrun : IsRun step history) :
    ∀ a ∈ history, ∃ previous, step previous a := by
  induction hrun with
  | nil => simp
  | @snoc history b hrun hstep ih =>
    intro a ha
    rcases List.mem_append.mp ha with ha | ha
    · exact ih a ha
    · rw [List.mem_singleton.mp ha]
      exact ⟨_, hstep⟩

theorem IsRun.any (history : List α) : IsRun (fun _ _ => True) history := by
  induction history using List.reverseRecOn with
  | nil => exact .nil
  | append_singleton history a ih => exact ih.snoc trivial

/-- Every value of a run followed the one before it. -/
theorem IsRun.step_at {before after : List α} {a : α} (hrun : IsRun step (before ++ a :: after)) :
    step before.getLast? a := by
  induction after using List.reverseRecOn with
  | nil =>
    generalize hwhole : before ++ [a] = history at hrun
    cases hrun with
    | nil => simp at hwhole
    | snoc hrun' hstep =>
      obtain ⟨rfl, hsame⟩ := List.append_inj' hwhole rfl
      obtain rfl := List.singleton_inj.mp hsame
      exact hstep
  | append_singleton after b ih =>
    generalize hwhole : before ++ a :: (after ++ [b]) = history at hrun
    cases hrun with
    | nil => simp at hwhole
    | @snoc history' b' hrun' hstep =>
      rw [← List.cons_append, ← List.append_assoc] at hwhole
      obtain ⟨rfl, -⟩ := List.append_inj' hwhole rfl
      exact ih hrun'

/-- What no step changes is the same all along a run. -/
theorem IsRun.same {f : α → β} (hsame : ∀ a b, step (some a) b → f b = f a) {history : List α}
    (hrun : IsRun step history) : ∀ a ∈ history, ∀ last ∈ history.getLast?, f a = f last := by
  induction hrun with
  | nil => simp
  | @snoc history b hrun hstep ih =>
    intro a ha last hlast
    obtain rfl : b = last := by simpa using hlast
    rcases List.mem_append.mp ha with ha | ha
    · cases hprevious : history.getLast? with
      | none => exact absurd ha (List.getLast?_eq_none_iff.mp hprevious ▸ List.not_mem_nil)
      | some previous =>
        rw [hprevious] at hstep
        exact (ih a ha previous hprevious).trans (hsame previous b hstep).symm
    · rw [List.mem_singleton.mp ha]

/-- A value that no step leaves is the last one. -/
theorem IsRun.final {isFinal : α → Prop} (hfinal : ∀ a b, step (some a) b → ¬ isFinal a)
    {history : List α} (hrun : IsRun step history) : ∀ a ∈ history.dropLast, ¬ isFinal a := by
  induction hrun with
  | nil => simp
  | @snoc history b hrun hstep ih =>
    intro a ha
    rw [List.dropLast_concat] at ha
    cases hprevious : history.getLast? with
    | none => exact absurd ha (List.getLast?_eq_none_iff.mp hprevious ▸ List.not_mem_nil)
    | some previous =>
      obtain ⟨before, rfl⟩ := List.getLast?_eq_some_iff.mp hprevious
      rw [hprevious] at hstep
      rcases List.mem_append.mp ha with ha | ha
      · exact ih a (by rwa [List.dropLast_concat])
      · rw [List.mem_singleton.mp ha]
        exact hfinal previous b hstep

/-- Entries of a kind were added at the end. -/
def Added (kind : α → Prop) (history later : List α) : Prop :=
  ∃ added, later = history ++ added ∧ ∀ a ∈ added, kind a

section Added

variable {kind : α → Prop} {history later latest : List α}

variable (kind history) in
theorem Added.refl : Added kind history history := ⟨[], (List.append_nil history).symm, by simp⟩

theorem Added.trans (h : Added kind history later) (h' : Added kind later latest) :
    Added kind history latest := by
  obtain ⟨added, rfl, hkind⟩ := h
  obtain ⟨added', rfl, hkind'⟩ := h'
  refine ⟨added ++ added', List.append_assoc _ _ _, ?_⟩
  intro a ha
  exact (List.mem_append.mp ha).elim (hkind a) (hkind' a)

theorem Added.mem (h : Added kind history later) {a : α} (ha : a ∈ history) : a ∈ later := by
  obtain ⟨added, rfl, -⟩ := h
  exact List.mem_append_left added ha

/-- What holds of all entries still does if it holds of those added. -/
theorem Added.forall_mem (h : Added kind history later) (hhistory : ∀ a ∈ history, kind a) :
    ∀ a ∈ later, kind a := by
  obtain ⟨added, rfl, hkind⟩ := h
  intro a ha
  exact (List.mem_append.mp ha).elim (hhistory a) (hkind a)

end Added

end StarkBallot.Schemes
