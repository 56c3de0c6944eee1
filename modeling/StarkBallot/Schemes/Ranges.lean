import Mathlib.Data.List.Range
import Mathlib.Logic.Function.Iterate

/-! Transfers in ranges. A range is a first and a last position; ranges cover a stretch when each begins
    where the one before it ended. A machine that is fed one answer after another halts when a measure
    goes down with each answer it accepts, whatever the answers are.

        0 ‥ 3 │ 4 ‥ 7 │ 8 ‥ 9      covers 0 ‥ 10: every position once, in order -/

namespace StarkBallot.Schemes

/-! ### Ranges that cover a stretch -/

/-- From `start` on, one range after another, up to before `stop`. -/
inductive Covers : ℕ → List (ℕ × ℕ) → ℕ → Prop where
  | nil (start : ℕ) : Covers start [] start
  | cons {start last stop : ℕ} {ranges : List (ℕ × ℕ)} (hle : start ≤ last)
      (hrest : Covers (last + 1) ranges stop) :
      Covers start ((start, last) :: ranges) stop

/-- What is at the positions of a range. -/
def slice {α : Type} (l : List α) (range : ℕ × ℕ) : List α := (l.take (range.2 + 1)).drop range.1

section Covers

variable {α : Type} {start middle stop last : ℕ} {ranges : List (ℕ × ℕ)}

theorem Covers.le (h : Covers start ranges stop) : start ≤ stop := by
  induction h with
  | nil start => exact le_rfl
  | cons hle hrest ih => omega

/-- One more range at the end. -/
theorem Covers.snoc (h : Covers start ranges stop) (hle : stop ≤ last) :
    Covers start (ranges ++ [(stop, last)]) (last + 1) := by
  induction h with
  | nil start => exact .cons hle (.nil _)
  | cons hle' hrest ih => exact .cons hle' (ih hle)

theorem drop_take_append (l : List α) (hfirst : start ≤ middle) (hlast : middle ≤ stop) :
    (l.take middle).drop start ++ (l.take stop).drop middle = (l.take stop).drop start := by
  have htake : l.take middle = (l.take stop).take middle := by
    rw [List.take_take, Nat.min_eq_left hlast]
  have hsplit : (l.take stop).drop middle = ((l.take stop).drop start).drop (middle - start) := by
    rw [List.drop_drop, Nat.add_sub_cancel' hfirst]
  rw [htake, hsplit, List.drop_take, List.take_append_drop]

/-- WHOLE: the slices of ranges that cover a stretch make up the stretch. -/
theorem Covers.flatten (h : Covers start ranges stop) (l : List α) :
    (ranges.map (slice l)).flatten = (l.take stop).drop start := by
  induction h with
  | nil start => exact (List.drop_eq_nil_of_le (List.length_take_le _ _)).symm
  | cons hle hrest ih =>
    rw [List.map_cons, List.flatten_cons, ih]
    exact drop_take_append l (Nat.le_succ_of_le hle) hrest.le

end Covers

/-! ### Machines that are fed -/

section Feed

variable {σ ι : Type} (step : σ → ι → σ)

/-- The state after the first answers. -/
def feed (s : σ) (answers : ℕ → ι) : ℕ → σ
  | 0 => s
  | n + 1 => step (feed s answers n) (answers n)

theorem feed_succ (s : σ) (answers : ℕ → ι) (n : ℕ) :
    feed step s answers (n + 1) = feed step (step s (answers 0)) (fun k => answers (k + 1)) n := by
  induction n with
  | zero => rfl
  | succ n ih => rw [feed, ih, feed]

/-- Answers that a peer gives to the state it sees are answers. -/
theorem iterate_eq_feed (peer : σ → ι) (s : σ) (n : ℕ) :
    (fun s => step s (peer s))^[n] s =
      feed step s (fun k => peer ((fun s => step s (peer s))^[k] s)) n := by
  induction n with
  | zero => rfl
  | succ n ih => rw [Function.iterate_succ_apply', feed, ← ih]

variable {step}

/-- RUN: what the first state has and every answer keeps. -/
theorem feed_keeps (P : ℕ → σ → Prop) {s : σ} {answers : ℕ → ι} (hfirst : P 0 s)
    (hstep : ∀ n s, P n s → P (n + 1) (step s (answers n))) (n : ℕ) : P n (feed step s answers n) := by
  induction n with
  | zero => exact hfirst
  | succ n ih => exact hstep n _ ih

/-- HALTS: each answer ends the run or takes the measure down. -/
theorem feed_halts (measure : σ → ℕ) {halted : σ → Prop}
    (hstep : ∀ s a, ¬ halted s → halted (step s a) ∨ measure (step s a) < measure s) (s : σ)
    (answers : ℕ → ι) :
    ∃ n ≤ measure s + 1, halted (feed step s answers n) := by
  induction hm : measure s using Nat.strong_induction_on generalizing s answers with
  | _ m ih =>
    by_cases hs : halted s
    · exact ⟨0, Nat.zero_le _, hs⟩
    rcases hstep s (answers 0) hs with hhalt | hless
    · exact ⟨1, by omega, hhalt⟩
    · obtain ⟨n, hn, hhalted⟩ := ih _ (hm ▸ hless) (step s (answers 0)) (fun k => answers (k + 1)) rfl
      refine ⟨n + 1, by omega, ?_⟩
      rw [feed_succ]
      exact hhalted

end Feed

end StarkBallot.Schemes
