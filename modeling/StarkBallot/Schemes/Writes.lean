import Mathlib.Data.List.Nodup

/-! A table filled from a list of entries. Each entry either gives the value that is written under its
    key or gives nothing; the keys of the table then stand in the order of the entries.

        entries     a        b       c
        taken       some 1   none    some 3
        written     (a, 1)           (c, 3) -/

namespace StarkBallot.Schemes

variable {α κ ν : Type} {key : α → κ} {takes takes' : α → Option ν → Prop} {entries others : List α}
  {writes more : List (κ × ν)}

/-- What the entries write, one after the other. -/
inductive Written (key : α → κ) (takes : α → Option ν → Prop) : List α → List (κ × ν) → Prop where
  | nil : Written key takes [] []
  | write {a : α} {v : ν} {entries : List α} {writes : List (κ × ν)} (htakes : takes a (some v))
      (hrest : Written key takes entries writes) :
      Written key takes (a :: entries) ((key a, v) :: writes)
  | skip {a : α} {entries : List α} {writes : List (κ × ν)} (htakes : takes a none)
      (hrest : Written key takes entries writes) : Written key takes (a :: entries) writes

namespace Written

theorem cons_iff {a : α} : Written key takes (a :: entries) writes ↔
    ∃ taken rest, takes a taken ∧ Written key takes entries rest ∧
      writes = (taken.map fun v => (key a, v)).toList ++ rest := by
  constructor
  · intro h
    cases h with
    | @write _ v _ rest htakes hrest => exact ⟨some v, rest, htakes, hrest, rfl⟩
    | skip htakes hrest => exact ⟨none, writes, htakes, hrest, rfl⟩
  · rintro ⟨taken, rest, htakes, hrest, rfl⟩
    cases taken with
    | some v => exact .write htakes hrest
    | none => exact .skip htakes hrest

theorem keys_sublist (h : Written key takes entries writes) :
    (writes.map Prod.fst).Sublist (entries.map key) := by
  induction h with
  | nil => exact List.Sublist.refl []
  | write htakes hrest ih => exact ih.cons_cons _
  | skip htakes hrest ih => exact ih.cons _

theorem append (h : Written key takes entries writes) (hmore : Written key takes others more) :
    Written key takes (entries ++ others) (writes ++ more) := by
  induction h with
  | nil => exact hmore
  | write htakes hrest ih => exact .write htakes ih
  | skip htakes hrest ih => exact .skip htakes ih

/-- Entries that give nothing write nothing. -/
theorem of_none (h : ∀ a ∈ entries, takes a none) : Written key takes entries [] := by
  induction entries with
  | nil => exact .nil
  | cons a entries ih =>
    exact .skip (h a List.mem_cons_self) (ih fun b hb => h b (List.mem_cons_of_mem a hb))

/-- Each entry of a table gives what the table has. -/
theorem of_table {takes : κ → Option ν → Prop} (h : ∀ entry ∈ writes, takes entry.1 (some entry.2)) :
    Written id takes (writes.map Prod.fst) writes := by
  induction writes with
  | nil => exact .nil
  | cons entry writes ih =>
    exact .write (h entry List.mem_cons_self)
      (ih fun other hother => h other (List.mem_cons_of_mem entry hother))

/-- What was written comes from an entry. -/
theorem exists_of_mem (h : Written key takes entries writes) {k : κ} {v : ν} (hmem : (k, v) ∈ writes) :
    ∃ a ∈ entries, key a = k ∧ takes a (some v) := by
  induction h with
  | nil => cases hmem
  | @write a own entries writes htakes hrest ih =>
    rcases List.mem_cons.mp hmem with heq | hmem
    · obtain ⟨rfl, rfl⟩ := Prod.mk.inj heq
      exact ⟨a, List.mem_cons_self, rfl, htakes⟩
    · obtain ⟨b, hb, hkey, htakes⟩ := ih hmem
      exact ⟨b, List.mem_cons_of_mem _ hb, hkey, htakes⟩
  | @skip a entries writes htakes hrest ih =>
    obtain ⟨b, hb, hkey, htakes⟩ := ih hmem
    exact ⟨b, List.mem_cons_of_mem _ hb, hkey, htakes⟩

/-- TAKEN: under different keys, an entry's value is in the table, and a key
    that gives nothing is not. -/
theorem exists_taken (h : Written key takes entries writes) (hkeys : (entries.map key).Nodup) {a : α}
    (ha : a ∈ entries) : (∃ v, takes a (some v) ∧ (key a, v) ∈ writes) ∨
      takes a none ∧ key a ∉ writes.map Prod.fst := by
  induction h with
  | nil => cases ha
  | @write b v entries writes htakes hrest ih =>
    rw [List.map_cons, List.nodup_cons] at hkeys
    rcases List.mem_cons.mp ha with rfl | ha
    · exact Or.inl ⟨v, htakes, List.mem_cons_self⟩
    · rcases ih hkeys.2 ha with ⟨w, htakes, hmem⟩ | ⟨htakes, hmem⟩
      · exact Or.inl ⟨w, htakes, List.mem_cons_of_mem _ hmem⟩
      · refine Or.inr ⟨htakes, ?_⟩
        rw [List.map_cons, List.mem_cons, not_or]
        exact ⟨fun heq => hkeys.1 (List.mem_map.mpr ⟨a, ha, heq⟩), hmem⟩
  | @skip b entries writes htakes hrest ih =>
    rw [List.map_cons, List.nodup_cons] at hkeys
    rcases List.mem_cons.mp ha with rfl | ha
    · exact Or.inr ⟨htakes, fun hmem => hkeys.1 (hrest.keys_sublist.subset hmem)⟩
    · exact ih hkeys.2 ha

/-- SAME: entries that give the same again write the same again. -/
theorem imp (h : Written key takes entries writes) (hkeys : (entries.map key).Nodup)
    (hwrite : ∀ a ∈ entries, ∀ v, takes a (some v) → (key a, v) ∈ writes → takes' a (some v))
    (hskip : ∀ a ∈ entries, takes a none → key a ∉ writes.map Prod.fst → takes' a none) :
    Written key takes' entries writes := by
  induction h with
  | nil => exact .nil
  | @write a v entries writes htakes hrest ih =>
    rw [List.map_cons, List.nodup_cons] at hkeys
    refine .write (hwrite a List.mem_cons_self v htakes List.mem_cons_self) (ih hkeys.2 ?_ ?_)
    · intro b hb w hw hmem
      exact hwrite b (List.mem_cons_of_mem a hb) w hw (List.mem_cons_of_mem _ hmem)
    · intro b hb hnone hmem
      refine hskip b (List.mem_cons_of_mem a hb) hnone ?_
      rw [List.map_cons, List.mem_cons, not_or]
      exact ⟨fun heq => hkeys.1 (List.mem_map.mpr ⟨b, hb, heq⟩), hmem⟩
  | @skip a entries writes htakes hrest ih =>
    rw [List.map_cons, List.nodup_cons] at hkeys
    refine .skip (hskip a List.mem_cons_self htakes fun hmem => hkeys.1 (hrest.keys_sublist.subset hmem))
      (ih hkeys.2 ?_ ?_)
    · intro b hb
      exact hwrite b (List.mem_cons_of_mem a hb)
    · intro b hb
      exact hskip b (List.mem_cons_of_mem a hb)

end Written

end StarkBallot.Schemes
