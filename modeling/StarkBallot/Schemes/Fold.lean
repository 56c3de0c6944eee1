import Mathlib.Data.List.Basic

/-! Fallible loops as monadic left folds. A loop body is `step : σ → α → Except ε σ` and the loop is
    `List.foldlM step`. The *run rule* carries every loop of the development: one step keeps an
    invariant of the processed prefix and returns, hence the whole loop returns and keeps it. The rule
    sees where the current element stands in the list, so that bounds on the whole list are
    available at every step. -/

namespace StarkBallot.Schemes

variable {σ α ε : Type}

/-- RUN RULE: a body that returns and keeps `Inv` on every prefix gives a loop that returns with
    `Inv` of the whole list. -/
theorem foldlM_run {step : σ → α → Except ε σ} (Inv : List α → σ → Prop) {xs : List α} {s₀ : σ}
    (h0 : Inv [] s₀)
    (hstep : ∀ done x rest s, xs = done ++ x :: rest → Inv done s →
      ∃ s', step s x = .ok s' ∧ Inv (done ++ [x]) s') :
    ∃ s', xs.foldlM step s₀ = .ok s' ∧ Inv xs s' := by
  suffices h : ∀ ys done s, xs = done ++ ys → Inv done s →
      ∃ s', ys.foldlM step s = .ok s' ∧ Inv xs s' from h xs [] s₀ rfl h0
  intro ys
  induction ys with
  | nil =>
    intro done s hxs hinv
    exact ⟨s, rfl, by simpa [hxs] using hinv⟩
  | cons y ys ih =>
    intro done s hxs hinv
    obtain ⟨s₁, hs₁, hinv₁⟩ := hstep done y ys s hxs hinv
    obtain ⟨s₂, hs₂, hinv₂⟩ := ih (done ++ [y]) s₁ (by simpa using hxs) hinv₁
    exact ⟨s₂, by rw [List.foldlM_cons, hs₁]; exact hs₂, hinv₂⟩

end StarkBallot.Schemes
