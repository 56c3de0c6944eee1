import Mathlib.Data.List.Nodup
import Mathlib.Data.List.Range
import Mathlib.Data.Finset.Range
import Mathlib.Data.Finset.Card

/-! Bit vectors as sets of slots: `marks n slots` has length `n` and a bit
    exactly at the listed slots. -/

namespace StarkBallot.Schemes

/-- The bit vector of length `n` with the listed slots marked. -/
def marks (n : ℕ) (slots : List ℕ) : List Bool := (List.range n).map fun i => decide (i ∈ slots)

@[simp] theorem marks_length (n : ℕ) (slots : List ℕ) : (marks n slots).length = n := by simp [marks]

theorem marks_getElem? {n i : ℕ} (hi : i < n) (slots : List ℕ) :
    (marks n slots)[i]? = some (decide (i ∈ slots)) := by simp [marks, hi]

/-- A bit is set exactly at a listed slot. -/
theorem marks_eq_true {n i : ℕ} {slots : List ℕ} (hlt : ∀ i ∈ slots, i < n) :
    (marks n slots)[i]? = some true ↔ i ∈ slots := by
  rcases Nat.lt_or_ge i n with hi | hi
  · simp [marks_getElem? hi]
  · rw [List.getElem?_eq_none (by simpa using hi)]
    exact ⟨nofun, fun hmem => absurd (hlt i hmem) hi.not_gt⟩

theorem marks_nil (n : ℕ) : marks n [] = List.replicate n false := by
  simp [marks, List.map_const']

/-- Marking one more slot. -/
theorem marks_set {n i : ℕ} (slots : List ℕ) : (marks n slots).set i true = marks n (slots ++ [i]) := by
  refine List.ext_getElem (by simp) fun j hj hj' => ?_
  rw [List.getElem_set]
  split
  · rename_i h
    simp [marks, h]
  · rename_i h
    simp [marks, Ne.symm h]

theorem marks_inj {n : ℕ} {slots slots' : List ℕ} (h : marks n slots = marks n slots') {i : ℕ}
    (hi : i < n) :
    i ∈ slots ↔ i ∈ slots' := by
  have hbit : (marks n slots)[i]? = (marks n slots')[i]? := by rw [h]
  rw [marks_getElem? hi, marks_getElem? hi, Option.some.injEq, decide_eq_decide] at hbit
  exact hbit

/-- The order of the slots, and repetitions, leave no trace. -/
theorem marks_congr {n : ℕ} {slots slots' : List ℕ} (h : ∀ i, i ∈ slots ↔ i ∈ slots') :
    marks n slots = marks n slots' := by
  simp [marks, h]
/-- The number of marked bits is the number of slots listed, each once and in range. -/
theorem count_marks {n : ℕ} {slots : List ℕ} (hnodup : slots.Nodup) (hlt : ∀ i ∈ slots, i < n) :
    (marks n slots).count true = slots.length := by
  have hcount :
      (marks n slots).count true = ((List.range n).filter fun i => decide (i ∈ slots)).length := by
    rw [marks, List.count_eq_countP, List.countP_map, List.countP_eq_length_filter]
    simp [Function.comp_def]
  rw [hcount]
  refine List.Perm.length_eq ((List.perm_ext_iff_of_nodup (List.nodup_range.filter _) hnodup).mpr ?_)
  intro i
  simp only [List.mem_filter, List.mem_range, decide_eq_true_eq, and_iff_right_iff_imp]
  exact hlt i

/-- As many slots as there are: all are listed. -/
theorem mem_of_length_eq {n : ℕ} {slots : List ℕ} (hnodup : slots.Nodup) (hlt : ∀ i ∈ slots, i < n)
    (hlen : slots.length = n) {i : ℕ} (hi : i < n) : i ∈ slots := by
  have hperm : slots.Perm (List.range n) :=
    (hnodup.subperm fun j hj => List.mem_range.mpr (hlt j hj)).perm_of_length_le (by simp [hlen])
  exact hperm.mem_iff.mpr (List.mem_range.mpr hi)

/-- Fewer slots, fewer bits. -/
theorem marks_subset {n : ℕ} {slots slots' : List ℕ} (h : slots ⊆ slots') :
    ∀ bits ∈ (marks n slots).zip (marks n slots'), bits.1 = true → bits.2 = true := by
  rintro ⟨a, b⟩ hbits
  rw [marks, marks, List.zip_map', List.mem_map] at hbits
  obtain ⟨i, -, hi⟩ := hbits
  obtain ⟨rfl, rfl⟩ := Prod.mk.inj hi
  simpa using @h i

end StarkBallot.Schemes
