import Mathlib.Data.List.InsertIdx
import Mathlib.Data.List.Perm.Basic

/-! Sorted lists over a total order given by `compare`. Two uses: a sorted list without repetitions as a
    set (binary search answers membership, an insertion at the returned position keeps the order), and
    sorting as a canonical form (permutations of one list sort to one list, a sorted list is its own
    canonical form). -/

namespace StarkBallot.Schemes

variable {α : Type} [Ord α]

/-- Search the window `[lo, hi)`; `.ok i` is a position of `x`, `.error i` the position to insert it. -/
def searchLoop (l : List α) (x : α) (lo hi : ℕ) : Except ℕ ℕ :=
  if lo < hi then
    match l[lo + (hi - lo) / 2]? with
    | none => .error lo
    | some y =>
      match compare y x with
      | .eq => .ok (lo + (hi - lo) / 2)
      | .lt => searchLoop l x (lo + (hi - lo) / 2 + 1) hi
      | .gt => searchLoop l x lo (lo + (hi - lo) / 2)
  else .error lo
termination_by hi - lo

/-- Binary search of a sorted list. -/
def binarySearch (l : List α) (x : α) : Except ℕ ℕ := searchLoop l x 0 l.length

/-- Strictly increasing: sorted, without repetitions. -/
abbrev Increasing (l : List α) : Prop := l.Pairwise fun a b => compare a b = .lt

/-- `compare` as the order a sort asks for. -/
def isLe (a b : α) : Bool := (compare a b).isLE

/-- A loop over paired elements: the first difference decides. -/
def firstDifference : List (α × α) → Ordering
  | [] => .eq
  | (a, b) :: rest =>
    match compare a b with
    | .eq => firstDifference rest
    | ordering => ordering

/-- The first difference, or else the shorter list first: the lexicographic order. -/
theorem firstDifference_zip : ∀ l l' : List α,
    (firstDifference (l.zip l')).then (compare l.length l'.length) = compare l l'
  | [], [] => rfl
  | [], b :: l' => by simp [firstDifference, Nat.compare_eq_lt]
  | a :: l, [] => by simp [firstDifference, Nat.compare_eq_gt]
  | a :: l, b :: l' => by
      have hlen : compare (l.length + 1) (l'.length + 1) = compare l.length l'.length := by
        simp [compare, compareOfLessAndEq]
      rw [List.zip_cons_cons, firstDifference, List.compare_cons_cons, ← firstDifference_zip l l',
        List.length_cons, List.length_cons, hlen]
      cases compare a b <;> rfl

variable [Std.TransOrd α] [Std.LawfulEqOrd α]

/-- Where the search may stop: all before `lo` is smaller and all from `hi` on is larger. -/
structure Window (l : List α) (x : α) (lo hi : ℕ) : Prop where
  below : ∀ j y, j < lo → l[j]? = some y → compare y x = .lt
  above : ∀ j y, hi ≤ j → l[j]? = some y → compare x y = .lt
  le : lo ≤ hi
  len : hi ≤ l.length

omit [Std.TransOrd α] [Std.LawfulEqOrd α] in
theorem Increasing.get_lt {l : List α} (hl : Increasing l) {i j : ℕ} {a b : α} (hij : i < j)
    (ha : l[i]? = some a) (hb : l[j]? = some b) : compare a b = .lt := by
  obtain ⟨hi, rfl⟩ := List.getElem?_eq_some_iff.mp ha
  obtain ⟨hj, rfl⟩ := List.getElem?_eq_some_iff.mp hb
  exact List.pairwise_iff_getElem.mp hl i j hi hj hij

/-- The loop keeps the window until it finds `x` or closes the window. -/
theorem searchLoop_spec {l : List α} {x : α} (hl : Increasing l) (lo hi : ℕ) (hw : Window l x lo hi) :
    match searchLoop l x lo hi with
    | .ok _ => x ∈ l
    | .error pos => Window l x pos pos := by
  fun_induction searchLoop l x lo hi with
  | case1 lo hi hlt hnone =>
    have := hw.len
    rw [List.getElem?_eq_none_iff] at hnone
    omega
  | case2 lo hi hlt y hy heq =>
    rw [Std.compare_eq_iff_eq] at heq
    exact heq ▸ List.mem_of_getElem? hy
  | case3 lo hi hlt y hy hcmp ih =>
    refine ih ⟨fun j z hj hz => ?_, hw.above, by omega, hw.len⟩
    rcases Nat.lt_or_ge j (lo + (hi - lo) / 2) with hjm | hjm
    · exact Std.TransCmp.lt_trans (hl.get_lt hjm hz hy) hcmp
    · rw [show j = lo + (hi - lo) / 2 by omega, hy, Option.some.injEq] at hz
      rw [← hz]; exact hcmp
  | case4 lo hi hlt y hy hcmp ih =>
    have hcmp' : compare x y = .lt := Std.OrientedCmp.gt_iff_lt.mp hcmp
    have := hw.len
    refine ih ⟨hw.below, fun j z hj hz => ?_, by omega, by omega⟩
    rcases Nat.lt_or_ge (lo + (hi - lo) / 2) j with hjm | hjm
    · exact Std.TransCmp.lt_trans hcmp' (hl.get_lt hjm hy hz)
    · rw [show j = lo + (hi - lo) / 2 by omega, hy, Option.some.injEq] at hz
      rw [← hz]; exact hcmp'
  | case5 lo hi hlt =>
    obtain rfl : lo = hi := by have := hw.le; omega
    exact hw

omit [Std.TransOrd α] in
/-- A closed window does not hold `x`, and `x` may be inserted there. -/
theorem Window.closed {l : List α} {x : α} (hl : Increasing l) {pos : ℕ} (hw : Window l x pos pos) :
    x ∉ l ∧ Increasing (l.insertIdx pos x) := by
  constructor
  · intro hx
    obtain ⟨j, hj⟩ := List.getElem?_of_mem hx
    rcases Nat.lt_or_ge j pos with hlt | hge
    · exact absurd (hw.below j x hlt hj) (by simp)
    · exact absurd (hw.above j x hge hj) (by simp)
  · rw [Increasing, List.pairwise_iff_getElem]
    intro i j hi hj hij
    have hlen := hw.len
    rw [List.length_insertIdx_of_le_length hlen] at hi hj
    have get : ∀ k (hk : k < l.length), l[k]? = some l[k] := fun k hk => List.getElem?_eq_getElem hk
    rcases Nat.lt_trichotomy j pos with hjp | rfl | hjp
    · rw [List.getElem_insertIdx_of_lt (by omega), List.getElem_insertIdx_of_lt hjp]
      exact hl.get_lt hij (get _ _) (get _ _)
    · rw [List.getElem_insertIdx_of_lt hij, List.getElem_insertIdx_self]
      exact hw.below i _ hij (get _ _)
    · rw [List.getElem_insertIdx_of_gt hjp]
      rcases Nat.lt_trichotomy i pos with hip | rfl | hip
      · rw [List.getElem_insertIdx_of_lt hip]
        exact hl.get_lt (by omega) (get _ _) (get _ _)
      · rw [List.getElem_insertIdx_self]
        exact hw.above _ _ (by omega) (get _ _)
      · rw [List.getElem_insertIdx_of_gt hip]
        exact hl.get_lt (by omega) (get _ _) (get _ _)

/-- SEARCH: on an increasing list, success is membership, and the insertion position keeps the order. -/
theorem binarySearch_spec {l : List α} {x : α} (hl : Increasing l) :
    (∃ i, binarySearch l x = .ok i ∧ x ∈ l) ∨
    (∃ pos, binarySearch l x = .error pos ∧ x ∉ l ∧ pos ≤ l.length ∧
      Increasing (l.insertIdx pos x)) := by
  have hopen : Window l x 0 l.length := by
    refine ⟨fun j y hj _ => by omega, fun j y hj hy => ?_, by omega, by omega⟩
    rw [List.getElem?_eq_none hj] at hy
    cases hy
  have hspec := searchLoop_spec hl 0 l.length hopen
  rw [← binarySearch] at hspec
  cases hs : binarySearch l x with
  | ok i => rw [hs] at hspec; exact Or.inl ⟨i, rfl, hspec⟩
  | error pos =>
    rw [hs] at hspec
    exact Or.inr ⟨pos, rfl, (hspec.closed hl).1, hspec.len, (hspec.closed hl).2⟩

/-! ### Sorting as a canonical form -/

omit [Std.LawfulEqOrd α] in
theorem isLe_trans (a b c : α) (hab : isLe a b = true) (hbc : isLe b c = true) : isLe a c = true :=
  Std.TransCmp.isLE_trans hab hbc

omit [Std.LawfulEqOrd α] in
theorem isLe_total (a b : α) : (isLe a b || isLe b a) = true := by
  have hswap : compare b a = (compare a b).swap := Std.OrientedCmp.eq_swap
  unfold isLe
  rw [hswap]
  cases compare a b <;> rfl

theorem isLe_antisymm {a b : α} (hab : isLe a b = true) (hba : isLe b a = true) : a = b :=
  Std.LawfulEqCmp.eq_of_compare (Std.OrientedCmp.isLE_antisymm hab hba)

/-- CANONICAL: permutations of one list sort to one list. -/
theorem mergeSort_eq_of_perm {l l' : List α} (h : l.Perm l') : l.mergeSort isLe = l'.mergeSort isLe := by
  have hsorted : ∀ k : List α, (k.mergeSort isLe).Pairwise fun a b => isLe a b = true :=
    List.pairwise_mergeSort isLe_trans isLe_total
  refine List.Perm.eq_of_pairwise (fun a b _ _ => isLe_antisymm) (hsorted l) (hsorted l') ?_
  exact (List.mergeSort_perm l isLe).trans (h.trans (List.mergeSort_perm l' isLe).symm)

end StarkBallot.Schemes
