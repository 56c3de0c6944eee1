import StarkBallot.Schemes.Fold
import Mathlib.Data.List.Induction
import Mathlib.Data.List.Nodup

/-! Judging a stream of records one after another. The verdict on a record may depend on the records and
    verdicts before it; the *log* of a stream pairs each record with its verdict.

        xs   = x0            x1            x2            ...
        log  = (x0, v [])    (x1, v log1)  (x2, v log2)  ...

    A loop that keeps some summary of the log (counters, bitmaps, a sorted vector) is proved by saying
    what it keeps of the log (`Rep`) and that one step follows the log by one entry. -/

namespace StarkBallot.Schemes

variable {α β κ σ ε : Type}

/-- The log of a stream under a verdict. -/
def replay (verdict : List (α × β) → α → β) (xs : List α) : List (α × β) :=
  xs.foldl (fun log x => log ++ [(x, verdict log x)]) []

/-- The records of a log whose verdict satisfies `p`. -/
def picked (p : β → Bool) (log : List (α × β)) : List α := (log.filter fun e => p e.2).map Prod.fst

variable {verdict : List (α × β) → α → β} {p : β → Bool}

@[simp] theorem replay_nil : replay verdict [] = [] := rfl

@[simp] theorem replay_concat (xs : List α) (x : α) :
    replay verdict (xs ++ [x]) = replay verdict xs ++ [(x, verdict (replay verdict xs) x)] := by
  simp [replay]

/-- INDUCTION: what one more verdict keeps holds of every log. -/
theorem replay_induction {motive : List (α × β) → Prop} (nil : motive [])
    (concat : ∀ log x, motive log → motive (log ++ [(x, verdict log x)])) (xs : List α) :
    motive (replay verdict xs) := by
  induction xs using List.reverseRecOn with
  | nil => exact nil
  | append_singleton xs x ih => rw [replay_concat]; exact concat _ x ih

/-- The log lists the records in their order. -/
@[simp] theorem replay_records (xs : List α) : (replay verdict xs).map Prod.fst = xs := by
  induction xs using List.reverseRecOn with
  | nil => rfl
  | append_singleton xs x ih => simp [ih]

/-- Records and verdicts put side by side are the log. -/
theorem zip_replay (xs : List α) : xs.zip ((replay verdict xs).map Prod.snd) = replay verdict xs := by
  have hrecords := @replay_records _ _ verdict xs
  exact (List.zip_of_prod hrecords rfl).symm

@[simp] theorem replay_length (xs : List α) : (replay verdict xs).length = xs.length := by
  rw [← List.length_map Prod.fst, replay_records]

/-- Later records do not change earlier verdicts. -/
theorem replay_take (xs : List α) : ∀ k, replay verdict (xs.take k) = (replay verdict xs).take k := by
  induction xs using List.reverseRecOn with
  | nil => simp
  | append_singleton xs x ih =>
    intro k
    rcases Nat.lt_or_ge xs.length k with hk | hk
    · rw [List.take_of_length_le (by simpa using Nat.succ_le_of_lt hk),
        List.take_of_length_le (by simpa using Nat.succ_le_of_lt hk)]
    · rw [List.take_append_of_le_length hk, replay_concat,
        List.take_append_of_le_length (by simpa using hk), ih]

@[simp] theorem picked_nil : picked p ([] : List (α × β)) = [] := rfl

@[simp] theorem picked_concat (log : List (α × β)) (x : α) (v : β) :
    picked p (log ++ [(x, v)]) = if p v then picked p log ++ [x] else picked p log := by
  unfold picked
  rw [List.filter_append, List.map_append]
  split
  · rename_i h
    simp [h]
  · rename_i h
    simp [h]

theorem mem_picked {log : List (α × β)} {x : α} : x ∈ picked p log ↔ ∃ v, (x, v) ∈ log ∧ p v = true := by
  simp [picked]

theorem picked_length_le (log : List (α × β)) : (picked p log).length ≤ log.length := by
  rw [picked, List.length_map]
  exact List.length_filter_le ..

/-- UNIQUENESS: if only a record with a fresh key is picked, then picked keys do not repeat. -/
theorem picked_nodup (key : α → κ)
    (hfresh : ∀ log x, p (verdict log x) = true → key x ∉ (picked p log).map key) (xs : List α) :
    ((picked p (replay verdict xs)).map key).Nodup := by
  refine replay_induction (motive := fun log => ((picked p log).map key).Nodup) List.nodup_nil ?_ xs
  intro log x hlog
  rw [picked_concat]
  split
  · rename_i hpick
    rw [List.map_append, List.nodup_append]
    refine ⟨hlog, List.nodup_singleton _, ?_⟩
    rintro a ha b hb rfl
    rw [List.map_singleton, List.mem_singleton] at hb
    exact hfresh log x hpick (hb ▸ ha)
  · exact hlog

/-- What holds of every record that is picked when it is judged. -/
theorem picked_forall {P : α → Prop} (hP : ∀ log x, p (verdict log x) = true → P x) (xs : List α) :
    ∀ x ∈ picked p (replay verdict xs), P x := by
  refine replay_induction (motive := fun log => ∀ x ∈ picked p log, P x) (by simp) ?_ xs
  intro log x hlog
  rw [picked_concat]
  split
  · rename_i hpick
    rintro y hy
    rcases List.mem_append.mp hy with hy | hy
    · exact hlog y hy
    · rw [List.mem_singleton.mp hy]
      exact hP log x hpick
  · exact hlog

/-- A stronger condition picks a sublist. -/
theorem picked_sublist {q : β → Bool} (h : ∀ v, p v = true → q v = true) (log : List (α × β)) :
    (picked p log).Sublist (picked q log) :=
  (List.monotone_filter_right log fun e => h e.2).map Prod.fst

/-- Conditions that agree on every verdict pick the same records. -/
theorem picked_congr {q : β → Bool} (h : ∀ log x, p (verdict log x) = q (verdict log x)) (xs : List α) :
    picked p (replay verdict xs) = picked q (replay verdict xs) := by
  refine replay_induction (motive := fun log => picked p log = picked q log) rfl ?_ xs
  intro log x hlog
  rw [picked_concat, picked_concat, hlog, h]

/-- A verdict that earlier records do not change judges each record alone. -/
theorem replay_eq_map {judge : α → β} {xs : List α}
    (h : ∀ done x rest, xs = done ++ x :: rest → verdict (done.map fun y => (y, judge y)) x = judge x) :
    replay verdict xs = xs.map fun x => (x, judge x) := by
  induction xs using List.reverseRecOn with
  | nil => rfl
  | append_singleton xs x ih =>
    have hxs : replay verdict xs = xs.map fun y => (y, judge y) := by
      refine ih fun done y rest hdone => h done y (rest ++ [x]) ?_
      rw [hdone, List.append_assoc, List.cons_append]
    rw [replay_concat, hxs, h xs x [] rfl, List.map_append, List.map_singleton]

theorem picked_map (judge : α → β) (xs : List α) :
    picked p (xs.map fun x => (x, judge x)) = xs.filter fun x => p (judge x) := by
  simp [picked, List.filter_map, Function.comp_def]

/-- LOOP RULE: a body that returns and follows the log by one entry gives a loop that returns and
    represents the whole log. -/
theorem foldlM_replay {step : σ → α → Except ε σ} (Rep : List (α × β) → σ → Prop) {xs : List α} {s₀ : σ}
    (h0 : Rep [] s₀)
    (hstep : ∀ done x rest s, xs = done ++ x :: rest → Rep (replay verdict done) s →
      ∃ s', step s x = .ok s' ∧
        Rep (replay verdict done ++ [(x, verdict (replay verdict done) x)]) s') :
    ∃ s', xs.foldlM step s₀ = .ok s' ∧ Rep (replay verdict xs) s' := by
  refine foldlM_run (fun done s => Rep (replay verdict done) s) h0 ?_
  intro done x rest s hxs hrep
  obtain ⟨s', hs', hrep'⟩ := hstep done x rest s hxs hrep
  exact ⟨s', hs', by rwa [replay_concat]⟩

end StarkBallot.Schemes
