import Mathlib.Data.Set.Function

/-! Explicit collisions. A digest function on an infinite message space always has *some* collision,
    so "or there is a collision" says nothing; what a binding proof delivers is a collision among a
    given finite list of messages, found by search. `findCollision` is that search. A binding proof
    then runs under `Set.InjOn H` on the listed messages, and `injOn_or_collision` turns the failure of
    injectivity into the pair that the search returns. -/

namespace StarkBallot.Schemes

variable {μ δ : Type} [DecidableEq μ] [DecidableEq δ]

/-- The first pair of different messages of `Q` with one digest under `H`. -/
def findCollision (H : μ → δ) (Q : List μ) : Option (μ × μ) :=
  (Q.flatMap fun x => Q.map fun y => (x, y)).find? fun p => p.1 ≠ p.2 ∧ H p.1 = H p.2

/-- The search of `Q` returns a pair, and the pair is a collision of `H`. -/
def Exhibits (H : μ → δ) (found : Option (μ × μ)) : Prop :=
  ∃ x y, found = some (x, y) ∧ x ≠ y ∧ H x = H y

/-- DICHOTOMY: `H` is injective on the listed messages, or the search exhibits a collision. -/
theorem injOn_or_collision (H : μ → δ) (Q : List μ) :
    Set.InjOn H {m | m ∈ Q} ∨ Exhibits H (findCollision H Q) := by
  cases hf : findCollision H Q with
  | some p =>
    have hp := List.find?_some hf
    simp only [decide_eq_true_eq] at hp
    exact Or.inr ⟨p.1, p.2, rfl, hp.1, hp.2⟩
  | none =>
    refine Or.inl fun x hx y hy hxy => ?_
    by_contra hne
    have hnone := List.find?_eq_none.mp hf (x, y)
      (List.mem_flatMap.mpr ⟨x, hx, List.mem_map.mpr ⟨y, hy, rfl⟩⟩)
    exact hnone (by simpa using ⟨hne, hxy⟩)

/-- Where `H` is injective the search finds nothing. -/
theorem not_exhibits_of_injOn {H : μ → δ} {Q : List μ} (h : Set.InjOn H {m | m ∈ Q}) :
    ¬ Exhibits H (findCollision H Q) := by
  rintro ⟨x, y, hfound, hne, hxy⟩
  obtain ⟨a, ha, hpair⟩ := List.mem_flatMap.mp (List.mem_of_find?_eq_some hfound)
  obtain ⟨b, hb, heq⟩ := List.mem_map.mp hpair
  obtain ⟨rfl, rfl⟩ := Prod.mk.inj heq
  exact hne (h ha hb hxy)

end StarkBallot.Schemes
