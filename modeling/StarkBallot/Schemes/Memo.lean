import Mathlib.Data.List.Basic

/-! Memo tables. A cache is a list of keys with their values, newest first; it is a memo of a function
    when every entry holds the function's value at a key of the domain. A hit then returns what a
    recomputation would, and the function may be replaced by any other that agrees on the domain. -/

namespace StarkBallot.Schemes

variable {κ α : Type} {dom : κ → Prop} {f : κ → α} {cache : List (κ × α)}

/-- Every entry holds the value of `f` at a key in `dom`. -/
def Memo (dom : κ → Prop) (f : κ → α) (cache : List (κ × α)) : Prop := ∀ e ∈ cache, dom e.1 ∧ e.2 = f e.1

theorem memo_nil : Memo dom f [] := fun _ he => absurd he List.not_mem_nil

theorem memo_cons {k : κ} (hk : dom k) (h : Memo dom f cache) : Memo dom f ((k, f k) :: cache) := by
  intro e he
  rcases List.mem_cons.mp he with rfl | he
  · exact ⟨hk, rfl⟩
  · exact h e he

theorem memo_filter (keep : κ × α → Bool) (h : Memo dom f cache) : Memo dom f (cache.filter keep) :=
  fun e he => h e (List.mem_of_mem_filter he)

/-- A hit is the value. -/
theorem memo_lookup [BEq κ] [LawfulBEq κ] {k : κ} {a : α} (h : Memo dom f cache)
    (hhit : cache.lookup k = some a) : a = f k := by
  obtain ⟨l, l', rfl, -⟩ := List.lookup_eq_some_iff.mp hhit
  exact (h (k, a) (by simp)).2

/-- A larger domain, and another function that agrees on the old one. -/
theorem memo_mono {dom' : κ → Prop} {f' : κ → α} (hdom : ∀ k, dom k → dom' k)
    (hf : ∀ k, dom k → f k = f' k) (h : Memo dom f cache) : Memo dom' f' cache := by
  intro e he
  obtain ⟨hk, hv⟩ := h e he
  exact ⟨hdom _ hk, hv.trans (hf _ hk)⟩

end StarkBallot.Schemes
