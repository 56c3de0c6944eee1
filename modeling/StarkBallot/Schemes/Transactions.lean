import Mathlib.Data.List.AList

/-! Tables of items under keys, and transactions on them. The type of an item depends on its key. A
    transaction is a list of actions under different keys, each with a condition on the item that is
    there and with an effect on it; it goes through as a whole when all conditions hold, and then each
    action has its effect.

    A property of single items is kept by a transaction if each of its actions keeps it
    (`commit_keeps`), so an invariant is checked action by action, with all conditions at hand. -/

namespace StarkBallot.Schemes

variable {κ : Type} [DecidableEq κ] {Item : κ → Type}

/-- One action, on the item under one key. -/
structure TransactItem (Item : κ → Type) where
  key : κ
  condition : Option (Item key) → Bool
  effect : Option (Item key) → Option (Item key)

/-- Replace the item under a key, or remove it. -/
def setItem (table : AList Item) (key : κ) : Option (Item key) → AList Item
  | some item => table.insert key item
  | none => table.erase key

@[simp] theorem lookup_setItem (table : AList Item) (key : κ) (item : Option (Item key)) :
    (setItem table key item).lookup key = item := by
  cases item with
  | none => exact AList.lookup_erase key table
  | some item => exact AList.lookup_insert table

theorem lookup_setItem_of_ne (table : AList Item) {key key' : κ} (h : key' ≠ key)
    (item : Option (Item key)) :
    (setItem table key item).lookup key' = table.lookup key' := by
  cases item with
  | none => exact AList.lookup_erase_ne h
  | some item => exact AList.lookup_insert_ne h

/-- The items that are left when some are removed. -/
theorem lookup_erase_all (keys : List κ) (table : AList Item) (key : κ) :
    (keys.foldl (fun table key => table.erase key) table).lookup key =
      if key ∈ keys then none else table.lookup key := by
  induction keys generalizing table with
  | nil => simp
  | cons first keys ih =>
    rw [List.foldl_cons, ih]
    by_cases hfirst : key = first
    · subst hfirst
      simp [AList.lookup_erase]
    · simp [hfirst, AList.lookup_erase_ne hfirst]

def TransactItem.apply (table : AList Item) (action : TransactItem Item) : AList Item :=
  setItem table action.key (action.effect (table.lookup action.key))

def conditionsHold (items : List (TransactItem Item)) (table : AList Item) : Bool :=
  items.all fun action => action.condition (table.lookup action.key)

/-- The effects, one after the other. -/
def commit (items : List (TransactItem Item)) (table : AList Item) : AList Item :=
  items.foldl TransactItem.apply table

/-- The keys of a transaction. -/
abbrev keysOf (items : List (TransactItem Item)) : List κ := items.map (·.key)

theorem condition_of_mem {items : List (TransactItem Item)} {table : AList Item}
    (h : conditionsHold items table = true) {action : TransactItem Item} (hmem : action ∈ items) :
    action.condition (table.lookup action.key) = true :=
  List.all_eq_true.mp h action hmem

/-- Items under other keys stay. -/
theorem lookup_commit_of_not_mem {items : List (TransactItem Item)} {key : κ} (h : key ∉ keysOf items)
    (table : AList Item) : (commit items table).lookup key = table.lookup key := by
  induction items generalizing table with
  | nil => rfl
  | cons action items ih =>
    rw [keysOf, List.map_cons, List.mem_cons, not_or] at h
    rw [commit, List.foldl_cons]
    exact (ih h.2 _).trans (lookup_setItem_of_ne table h.1 _)

/-- Each action has its effect. -/
theorem lookup_commit_of_mem {items : List (TransactItem Item)} (hkeys : (keysOf items).Nodup)
    {action : TransactItem Item} (hmem : action ∈ items) (table : AList Item) :
    (commit items table).lookup action.key = action.effect (table.lookup action.key) := by
  induction items generalizing table with
  | nil => cases hmem
  | cons first items ih =>
    rw [keysOf, List.map_cons, List.nodup_cons] at hkeys
    rw [commit, List.foldl_cons]
    rcases List.mem_cons.mp hmem with rfl | hmem
    · refine (lookup_commit_of_not_mem hkeys.1 _).trans ?_
      exact lookup_setItem _ _ _
    · have hne : action.key ≠ first.key := by
        intro heq
        rw [← heq] at hkeys
        exact hkeys.1 (List.mem_map_of_mem hmem)
      refine (ih hkeys.2 hmem _).trans ?_
      rw [TransactItem.apply, lookup_setItem_of_ne table hne]

/-- An item after a transaction is untouched, or an action made it. -/
theorem lookup_commit_cases {items : List (TransactItem Item)} (hkeys : (keysOf items).Nodup)
    (table : AList Item) (key : κ) :
    (key ∉ keysOf items ∧ (commit items table).lookup key = table.lookup key) ∨
    ∃ action ∈ items, ∃ h : action.key = key,
      (commit items table).lookup key = h ▸ action.effect (table.lookup action.key) := by
  by_cases hmem : key ∈ keysOf items
  · obtain ⟨action, haction, rfl⟩ := List.mem_map.mp hmem
    exact .inr ⟨action, haction, rfl, lookup_commit_of_mem hkeys haction table⟩
  · exact .inl ⟨hmem, lookup_commit_of_not_mem hmem table⟩

/-- What each action keeps, the transaction keeps. -/
theorem commit_keeps {P : (key : κ) → Option (Item key) → Prop} {items : List (TransactItem Item)}
    {table : AList Item} (hkeys : (keysOf items).Nodup) (htable : ∀ key, P key (table.lookup key))
    (hitems : ∀ action ∈ items, P action.key (action.effect (table.lookup action.key))) (key : κ) :
    P key ((commit items table).lookup key) := by
  rcases lookup_commit_cases hkeys table key with ⟨-, hsame⟩ | ⟨action, haction, rfl, heffect⟩
  · rw [hsame]
    exact htable key
  · rw [heffect]
    exact hitems action haction

end StarkBallot.Schemes
