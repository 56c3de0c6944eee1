import Mathlib.Data.List.Chain

/-! Values that are replaced under a revision number. A replacement raises the revision; but the value
    can also be removed and start over, and then a revision comes back. So an equal revision means an
    equal value only if the value was there throughout (`same_of_revision`). -/

namespace StarkBallot.Schemes

variable {σ ω : Type} {view : σ → Option (ℕ × ω)}

/-- A value that stays is the same or has a higher revision. -/
def Revises (view : σ → Option (ℕ × ω)) (s s' : σ) : Prop :=
  ∀ before after, view s = some before → view s' = some after → before = after ∨ before.1 < after.1

theorem Revises.trans {s s' s'' : σ} (h : Revises view s s') (h' : Revises view s' s'')
    (hpresent : (view s').isSome = true) : Revises view s s'' := by
  obtain ⟨between, hbetween⟩ := Option.isSome_iff_exists.mp hpresent
  intro before after hbefore hafter
  rcases h before between hbefore hbetween with rfl | hlt
  · exact h' before after hbetween hafter
  · rcases h' between after hbetween hafter with rfl | hlt'
    · exact .inr hlt
    · exact .inr (hlt.trans hlt')

/-- While the value is there, every later one is the same or has a higher revision. -/
theorem revises_throughout {first : σ} {rest : List σ} (hchain : (first :: rest).IsChain (Revises view))
    (hpresent : ∀ s ∈ first :: rest, (view s).isSome = true) : ∀ s ∈ rest, Revises view first s := by
  induction rest generalizing first with
  | nil => simp
  | cons second rest ih =>
    obtain ⟨hstep, hchain⟩ := List.isChain_cons_cons.mp hchain
    intro s hs
    rcases List.mem_cons.mp hs with rfl | hs
    · exact hstep
    · refine hstep.trans (ih hchain ?_ s hs) (hpresent second (by simp))
      intro s' hs'
      exact hpresent s' (List.mem_cons_of_mem _ hs')

theorem revises_pairwise {states : List σ} (hchain : states.IsChain (Revises view))
    (hpresent : ∀ s ∈ states, (view s).isSome = true) : states.Pairwise (Revises view) := by
  induction states with
  | nil => exact .nil
  | cons first rest ih =>
    refine List.pairwise_cons.mpr ⟨revises_throughout hchain hpresent, ih hchain.tail ?_⟩
    intro s hs
    exact hpresent s (List.mem_cons_of_mem _ hs)

/-- The last of a list is that element, or comes after it. -/
theorem rel_of_pairwise {R : σ → σ → Prop} {states : List σ} (h : states.Pairwise R) {s last : σ}
    (hs : s ∈ states) (hlast : states.getLast? = some last) : s = last ∨ R s last := by
  obtain ⟨before, rfl⟩ := List.getLast?_eq_some_iff.mp hlast
  rcases List.mem_append.mp hs with hs | hs
  · exact .inr ((List.pairwise_append.mp h).2.2 s hs last List.mem_cons_self)
  · exact .inl (List.mem_singleton.mp hs)

/-- A value that was there throughout and has the revision that it had first is unchanged since. -/
theorem same_of_revision {states : List σ} {first last : σ} (hchain : states.IsChain (Revises view))
    (hpresent : ∀ s ∈ states, (view s).isSome = true) (hfirst : states.head? = some first)
    (hlast : states.getLast? = some last)
    (hrevision : (view first).map Prod.fst = (view last).map Prod.fst) :
    ∀ s ∈ states, view s = view last := by
  have hpairwise := revises_pairwise hchain hpresent
  have hlater : ∀ s ∈ states, s = last ∨ Revises view s last :=
    fun s hs => rel_of_pairwise hpairwise hs hlast
  have hearlier : ∀ s ∈ states, s = first ∨ Revises view first s := by
    cases states with
    | nil => cases hfirst
    | cons head rest =>
      obtain rfl : head = first := Option.some.inj hfirst
      intro s hs
      rcases List.mem_cons.mp hs with rfl | hs
      · exact .inl rfl
      · exact .inr (revises_throughout hchain hpresent s hs)
  intro s hs
  obtain ⟨value, hvalue⟩ := Option.isSome_iff_exists.mp (hpresent s hs)
  obtain ⟨before, hbefore⟩ := Option.isSome_iff_exists.mp (hpresent first (List.mem_of_head? hfirst))
  obtain ⟨after, hafter⟩ := Option.isSome_iff_exists.mp (hpresent last (List.mem_of_getLast? hlast))
  have hsame : before.1 = after.1 := by simpa [hbefore, hafter] using hrevision
  have hge : before.1 ≤ value.1 := by
    rcases hearlier s hs with rfl | h
    · rw [Option.some.inj (hbefore.symm.trans hvalue)]
    · rcases h before value hbefore hvalue with rfl | hlt
      · exact le_refl _
      · exact hlt.le
  rcases hlater s hs with rfl | h
  · rfl
  · rcases h value after hvalue hafter with rfl | hlt
    · rw [hvalue, hafter]
    · omega

end StarkBallot.Schemes
