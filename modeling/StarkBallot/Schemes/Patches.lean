import Mathlib.Data.List.Induction

/-! Patches of one record, applied one after the other. A merge that keeps a field takes it from the
    patch, or leaves it as it is where the patch has none; such a field ends up
    with the value written last.

        patches     ⟨a, –⟩   ⟨–, b⟩   ⟨c, –⟩
        merged      ⟨c, b⟩               replaced    ⟨c, –⟩

    Replacing the record instead of merging gives the same field exactly if the last patch has it
    whenever some patch does. -/

namespace StarkBallot.Schemes

variable {M α : Type} (merge : Option M → M → M)

/-- All patches, merged into what is there. -/
def merged (patches : List M) (start : Option M) : Option M :=
  patches.foldl (fun current patch => some (merge current patch)) start

/-- The merge takes the field from the patch if it is there. -/
def KeepsField (field : M → Option α) : Prop := ∀ current patch, field (merge current patch) =
  (field patch <|> current.bind field)

variable {merge} {field : M → Option α}

theorem merged_append (patches : List M) (last : M) (start : Option M) :
    merged merge (patches ++ [last]) start = some (merge (merged merge patches start) last) := by
  rw [merged, List.foldl_append]
  rfl

/-- LAST: the field has the value that was written last. -/
theorem field_merged (h : KeepsField merge field) (patches : List M) :
    (merged merge patches none).bind field = (patches.filterMap field).getLast? := by
  induction patches using List.reverseRec with
  | nil => rfl
  | append_singleton patches last ih =>
    rw [merged_append, Option.bind_some, h, ih, List.filterMap_append]
    cases hlast : field last with
    | none => simp [hlast]
    | some value => simp [hlast]

/-- REPLACED: the last patch has the field as the merge has it, exactly if it has it whenever some patch
    does. -/
theorem field_eq_last_iff (h : KeepsField merge field) (patches : List M) (last : M) :
    field (merge (merged merge patches none) last) = field last ↔
      ∀ patch ∈ patches, (field patch).isSome = true → (field last).isSome = true := by
  rw [h, field_merged h]
  cases hlast : field last with
  | some value => simp
  | none =>
    have hnone : (none <|> (patches.filterMap field).getLast?) = (patches.filterMap field).getLast? :=
      rfl
    rw [hnone, List.getLast?_eq_none_iff, List.filterMap_eq_nil_iff]
    refine forall₂_congr fun patch _ => ?_
    cases field patch <;> simp

end StarkBallot.Schemes
