import Mathlib.Data.Option.Basic

/-! Admission of values by parsers that return what they admit, possibly cleaned up. A parser is `Stable`
    when it leaves alone what it once returned; then admitting a value again, or reading it back after it
    was stored, changes nothing. A parser that only checks is stable, and stability passes to optional
    fields. -/

namespace StarkBallot.Schemes

variable {α : Type}

/-- What was admitted is admitted as it is. -/
def Stable (clean : α → Option α) : Prop := ∀ ⦃a b⦄, clean a = some b → clean b = some b

/-- A parser that only checks. -/
def accept (ok : α → Bool) (a : α) : Option α := if ok a then some a else none

/-- A parser applied to a field that may be absent. -/
def ifPresent (clean : α → Option α) : Option α → Option (Option α)
  | none => some none
  | some a => (clean a).map some

@[simp] theorem accept_eq_some {ok : α → Bool} {a b : α} :
    accept ok a = some b ↔ ok a = true ∧ a = b := by
  unfold accept
  split <;> simp_all

theorem stable_accept (ok : α → Bool) : Stable (accept ok) := by
  intro a b h
  obtain ⟨hok, rfl⟩ := accept_eq_some.mp h
  exact accept_eq_some.mpr ⟨hok, rfl⟩

/-- A check leaves a field as it is. -/
theorem eq_of_ifPresent_accept {ok : α → Bool} {a b : Option α} (h : ifPresent (accept ok) a = some b) :
    b = a := by
  cases a with
  | none => exact (Option.some.inj h).symm
  | some a =>
    obtain ⟨c, hc, rfl⟩ := Option.map_eq_some_iff.mp h
    obtain ⟨-, rfl⟩ := accept_eq_some.mp hc
    rfl

theorem Stable.ifPresent {clean : α → Option α} (h : Stable clean) : Stable (ifPresent clean) := by
  intro a b hab
  cases a with
  | none =>
    obtain rfl : none = b := Option.some.inj hab
    rfl
  | some a =>
    obtain ⟨c, hc, rfl⟩ := Option.map_eq_some_iff.mp hab
    exact Option.map_eq_some_iff.mpr ⟨c, h hc, rfl⟩

end StarkBallot.Schemes
