import Mathlib.Data.List.Basic
import Mathlib.Data.List.Perm.Basic

/-! The worst of several values, by a rank. The fold keeps the first of the values whose rank is
    highest; when different values have different ranks there is only one such value, so neither the
    order of the list nor repetitions matter. -/

namespace StarkBallot.Schemes

variable {α : Type} (rank : α → ℕ)

def worseOf (worst a : α) : α := if rank worst < rank a then a else worst

def worst : List α → Option α
  | [] => none
  | a :: rest => some (rest.foldl (worseOf rank) a)

theorem worseOf_cases (a b : α) :
    (worseOf rank a b = a ∧ rank b ≤ rank a) ∨ (worseOf rank a b = b ∧ rank a ≤ rank b) := by
  unfold worseOf
  split
  · rename_i h
    exact .inr ⟨rfl, Nat.le_of_lt h⟩
  · rename_i h
    exact .inl ⟨rfl, Nat.le_of_not_lt h⟩

/-- The fold returns one of the values, and none is worse. -/
theorem foldl_worseOf (rest : List α) (a : α) :
    rest.foldl (worseOf rank) a ∈ a :: rest ∧ ∀ b ∈ a :: rest,
    rank b ≤ rank (rest.foldl (worseOf rank) a) := by
  induction rest generalizing a with
  | nil => simp
  | cons c rest ih =>
    obtain ⟨hmem, hbound⟩ := ih (worseOf rank a c)
    rw [List.foldl_cons]
    have hworse := hbound _ List.mem_cons_self
    refine ⟨?_, ?_⟩
    · rcases List.mem_cons.mp hmem with h | h
      · rw [h]
        rcases worseOf_cases rank a c with ⟨h, -⟩ | ⟨h, -⟩ <;> simp [h]
      · simp [h]
    · intro b hb
      rcases worseOf_cases rank a c with ⟨h, hle⟩ | ⟨h, hle⟩ <;> rw [h] at hworse hbound <;>
        rcases List.mem_cons.mp hb with rfl | hb <;> rw [h]
      · exact hworse
      · rcases List.mem_cons.mp hb with rfl | hb
        · exact Nat.le_trans hle hworse
        · exact hbound b (List.mem_cons_of_mem _ hb)
      · exact Nat.le_trans hle hworse
      · rcases List.mem_cons.mp hb with rfl | hb
        · exact hworse
        · exact hbound b (List.mem_cons_of_mem _ hb)

variable {rank}

@[simp] theorem worst_eq_none {l : List α} : worst rank l = none ↔ l = [] := by
  cases l <;> simp [worst]

/-- SPEC: the worst value is in the list, and no other ranks higher. -/
theorem worst_eq_some (hrank : Function.Injective rank) {l : List α} {a : α} :
    worst rank l = some a ↔ a ∈ l ∧ ∀ b ∈ l, rank b ≤ rank a := by
  cases l with
  | nil => simp [worst]
  | cons c rest =>
    obtain ⟨hmem, hbound⟩ := foldl_worseOf rank rest c
    rw [worst, Option.some.injEq]
    constructor
    · rintro rfl
      exact ⟨hmem, hbound⟩
    · rintro ⟨ha, hall⟩
      exact hrank (Nat.le_antisymm (hall _ hmem) (hbound a ha))

/-- The order of the values does not matter. -/
theorem worst_perm (hrank : Function.Injective rank) {l l' : List α} (h : l.Perm l') :
    worst rank l = worst rank l' := by
  refine Option.ext fun a => ?_
  rw [worst_eq_some hrank, worst_eq_some hrank, h.mem_iff]
  simp only [h.mem_iff]

/-- A value that ranks highest of all is the worst where it occurs. -/
theorem worst_eq_top (hrank : Function.Injective rank) {l : List α} {top : α}
    (htop : ∀ a, rank a ≤ rank top) :
    worst rank l = some top ↔ top ∈ l := by
  rw [worst_eq_some hrank]
  exact and_iff_left fun b _ => htop b

/-- A value that ranks lowest of all is the worst only of its own copies. -/
theorem worst_eq_bottom (hrank : Function.Injective rank) {l : List α} {bottom : α}
    (hbottom : ∀ a, rank bottom ≤ rank a) :
    worst rank l = some bottom ↔ l ≠ [] ∧ ∀ a ∈ l, a = bottom := by
  rw [worst_eq_some hrank]
  constructor
  · rintro ⟨hmem, hall⟩
    exact ⟨List.ne_nil_of_mem hmem, fun a ha => hrank (Nat.le_antisymm (hall a ha) (hbottom a))⟩
  · rintro ⟨hne, hall⟩
    obtain ⟨a, ha⟩ := List.exists_mem_of_ne_nil l hne
    exact ⟨hall a ha ▸ ha, fun b hb => Nat.le_of_eq (congrArg rank (hall b hb))⟩

end StarkBallot.Schemes
