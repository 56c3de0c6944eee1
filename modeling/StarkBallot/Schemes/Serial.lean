import Mathlib.Data.List.Basic

/-! Actions that take effect one after the other. A serial run leads from one state to another by a list
    of actions, each of which steps from the state that those before it have left. Where a step has one
    outcome the list says where the run ends. -/

namespace StarkBallot.Schemes

variable {σ α : Type} {step : σ → α → σ → Prop} {start s s' : σ} {order : List α}

inductive Serial (step : σ → α → σ → Prop) (start : σ) : List α → σ → Prop
  | nil : Serial step start [] start
  | snoc {order : List α} {a : α} {s s' : σ} : Serial step start order s → step s a s' →
      Serial step start (order ++ [a]) s'

/-- What every step keeps holds at the end. -/
theorem Serial.keeps {P : σ → Prop} (h : Serial step start order s) (hstart : P start)
    (hstep : ∀ s a s', P s → step s a s' → P s') : P s := by
  induction h with
  | nil => exact hstart
  | snoc _ hlast ih => exact hstep _ _ _ ih hlast

/-- The list of actions tells where a run ends. -/
theorem Serial.unique (hstep : ∀ s a s₁ s₂, step s a s₁ → step s a s₂ → s₁ = s₂)
    (h : Serial step start order s) (h' : Serial step start order s') : s = s' := by
  induction h generalizing s' with
  | nil =>
    generalize horder : ([] : List α) = order at h'
    cases h' with
    | nil => rfl
    | snoc _ _ => simp at horder
  | @snoc order a s₁ s₂ hrun hlast ih =>
    generalize horder : order ++ [a] = order' at h'
    cases h' with
    | nil => simp at horder
    | snoc hrun' hlast' =>
      obtain ⟨rfl, hsame⟩ := List.append_inj' horder rfl
      obtain rfl := List.singleton_inj.mp hsame
      rw [ih hrun'] at hlast
      exact hstep _ _ _ _ hlast hlast'

end StarkBallot.Schemes
