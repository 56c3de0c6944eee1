import Mathlib.Data.List.Lex
import Mathlib.Data.List.Sort

/-! Reading keys page by page in ascending order while others add and remove keys. A reader remembers
    the last key it has seen and asks for the next page after it; a page holds at
    least one key, if there is one.

          ≤ last: read ──┐┌── not read yet
        ───────────────── last ─────────────────▶  keys

    No key between two cursors is skipped: a key that is there when a page is read and lies after the
    cursor is on the page, or after the last key of the page (`mem_page`). So of the keys that were
    there all the time, those up to the cursor are no more than the keys on the pages so far
    (`length_le_of_page`). -/

namespace StarkBallot.Schemes

variable {α : Type} [LinearOrder α]

structure Page (α : Type) where
  keys : List α
  last : Option α

/-- The keys after the cursor, if there is one. -/
def isAfter (start : Option α) (key : α) : Bool := start.all (· < key)

/-- The next keys after the cursor, and the last of them if there are more. Keys may be said to be left
    where none are. -/
def pageAfter (keys : List α) (start : Option α) (size : ℕ) (lingers : Bool) : Page α :=
  let rest := (keys.filter (isAfter start)).insertionSort (· ≤ ·)
  let page := rest.take (size + 1)
  ⟨page, if page.length < rest.length ∨ lingers then page.getLast? else none⟩

/-- The key is up to the cursor, or there is no cursor any more. -/
def isRead (last : Option α) (key : α) : Bool := last.all (key ≤ ·)

variable {keys : List α} {start : Option α} {size : ℕ} {lingers : Bool} {key : α}

theorem mem_rest : key ∈ (keys.filter (isAfter start)).insertionSort (· ≤ ·) ↔
    key ∈ keys ∧ isAfter start key = true := by
  rw [List.mem_insertionSort, List.mem_filter]

/-- No key is skipped. -/
theorem mem_page (hkey : key ∈ keys) (hafter : isAfter start key = true)
    (hread : isRead (pageAfter keys start size lingers).last key = true) :
    key ∈ (pageAfter keys start size lingers).keys := by
  have hrest := mem_rest.mpr ⟨hkey, hafter⟩
  have hsorted := List.pairwise_insertionSort (· ≤ ·) (keys.filter (isAfter start))
  unfold pageAfter at hread ⊢
  dsimp only at hread ⊢
  generalize (keys.filter (isAfter start)).insertionSort (· ≤ ·) = rest at *
  rw [← List.take_append_drop (size + 1) rest, List.mem_append] at hrest
  rcases hrest with hpage | hlater
  · exact hpage
  · have hmore : (rest.take (size + 1)).length < rest.length := by
      have hdrop := List.length_pos_of_mem hlater
      rw [List.length_drop] at hdrop
      rw [List.length_take]
      omega
    rw [if_pos (.inl hmore)] at hread
    rw [← List.take_append_drop (size + 1) rest, List.pairwise_append] at hsorted
    cases hlast : (rest.take (size + 1)).getLast? with
    | none =>
      rw [List.getLast?_eq_none_iff, List.take_eq_nil_iff] at hlast
      rcases hlast with hsize | rfl
      · cases hsize
      · simp at hlater
    | some last =>
      have hmem := List.mem_of_getLast? hlast
      rw [hlast, isRead, Option.all_some, decide_eq_true_eq] at hread
      rwa [le_antisymm hread (hsorted.2.2 last hmem key hlater)]

/-- LOOP: wanted keys that are there when the page is read are counted with it. -/
theorem length_le_of_page {wanted : List α} (hnodup : wanted.Nodup) (hwanted : wanted ⊆ keys) {count : ℕ}
    (hcount : (wanted.filter fun key => !isAfter start key).length ≤ count) :
    (wanted.filter (isRead (pageAfter keys start size lingers).last)).length ≤
      count + (pageAfter keys start size lingers).keys.length := by
  generalize hpage : pageAfter keys start size lingers = page
  have hnew : ((wanted.filter (isAfter start)).filter (isRead page.last)).length ≤ page.keys.length := by
    refine (List.subperm_of_subset ((hnodup.filter _).filter _) ?_).length_le
    intro key hkey
    obtain ⟨hkey, hread⟩ := List.mem_filter.mp hkey
    obtain ⟨hkey, hafter⟩ := List.mem_filter.mp hkey
    rw [← hpage] at hread ⊢
    exact mem_page (hwanted hkey) hafter hread
  have hold : ((wanted.filter fun key => !isAfter start key).filter (isRead page.last)).length ≤ count :=
    (List.length_filter_le _ _).trans hcount
  have hsplit := (wanted.filter (isRead page.last)).length_eq_length_filter_add (isAfter start)
  rw [List.filter_comm, List.filter_comm fun key => !isAfter start key] at hsplit
  omega

theorem filter_isRead_none (keys : List α) : keys.filter (isRead none) = keys := List.filter_true _

/-- All keys come after no cursor. -/
theorem filter_not_isAfter_none (keys : List α) : (keys.filter fun key => !isAfter none key) = [] :=
  List.filter_false _

/-- The keys of a page are read when the next one is asked for. -/
theorem isRead_some (last : α) : isRead (some last) = fun key => !isAfter (some last) key := by
  funext key
  simp [isRead, isAfter, ← not_lt]

end StarkBallot.Schemes
