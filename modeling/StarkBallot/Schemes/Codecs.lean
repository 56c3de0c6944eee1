import StarkBallot.Schemes.Result

/-! A reader beside its writer. A reader may accept several forms of a value; what it returns is in one
    form, and in that form it reads back as it was.

        form ──read──▶ a ──write──▶ canonical form ──read──▶ a -/

namespace StarkBallot.Schemes

variable {V ε α : Type}

/-- Of the values that are written, the valid ones are read, each in its one form;
    nothing else is ever read. -/
structure Reads (read : V → Except ε α) (write : α → V) (Valid : α → Prop) (canon : α → α) : Prop where
  accepts : ∀ a b, read (write a) = .ok b ↔ Valid a ∧ b = canon a
  canonical : ∀ v a, read v = .ok a → Valid a ∧ canon a = a

section Reads

variable {read : V → Except ε α} {write : α → V} {Valid : α → Prop} {canon : α → α}

/-- IDEMPOTENT: what was read reads back as it was. -/
theorem Reads.again (h : Reads read write Valid canon) {v : V} {a : α} (hread : read v = .ok a) :
    read (write a) = .ok a := by
  obtain ⟨hvalid, hcanon⟩ := h.canonical v a hread
  exact (h.accepts a a).mpr ⟨hvalid, hcanon.symm⟩

theorem Reads.ok (h : Reads read write Valid canon) {a : α} (hvalid : Valid a) :
    read (write a) = .ok (canon a) :=
  (h.accepts a _).mpr ⟨hvalid, rfl⟩

/-- A reader that returns what is there. -/
def Plain (read : V → Except ε α) (write : α → V) (Valid : α → Prop) : Prop :=
  ∀ v a, read v = .ok a ↔ v = write a ∧ Valid a

theorem Plain.reads (h : Plain read write Valid) (hwrite : Function.Injective write) :
    Reads read write Valid id where
  accepts a b := by
    rw [h]
    constructor
    · rintro ⟨heq, hvalid⟩
      obtain rfl := hwrite heq
      exact ⟨hvalid, rfl⟩
    · rintro ⟨hvalid, rfl⟩
      exact ⟨rfl, hvalid⟩
  canonical v a hread := ⟨((h v a).mp hread).2, rfl⟩

/-- One reader for each place of a list. -/
def readEach (read : ℕ → V → Except ε α) (start : ℕ) (values : List V) : Except ε (List α) :=
  (values.zipIdx start).mapM fun entry => read entry.2 entry.1

theorem readEach_cons (read : ℕ → V → Except ε α) (start : ℕ) (v : V) (values : List V)
    {items : List α} :
    readEach read start (v :: values) = .ok items ↔
      ∃ a rest, read start v = .ok a ∧ readEach read (start + 1) values = .ok rest ∧
      items = a :: rest := by
  rw [readEach, List.zipIdx_cons, List.mapM_cons]
  constructor
  · intro h
    obtain ⟨a, ha, h⟩ := bind_eq_ok.mp h
    obtain ⟨rest, hrest, h⟩ := bind_eq_ok.mp h
    exact ⟨a, rest, ha, hrest, (Except.ok.inj h).symm⟩
  · rintro ⟨a, rest, ha, hrest, rfl⟩
    exact bind_eq_ok.mpr ⟨a, ha, bind_eq_ok.mpr ⟨rest, hrest, rfl⟩⟩

/-- LOOP: a list is read element by element. -/
theorem Reads.each {read : ℕ → V → Except ε α} (h : ∀ i, Reads (read i) write Valid canon) (start : ℕ) :
    Reads (readEach read start) (List.map write) (fun items => ∀ a ∈ items, Valid a)
      (List.map canon) where
  accepts items := by
    induction items generalizing start with
    | nil =>
      intro items'
      simp [readEach, Pure.pure, Except.pure, eq_comm]
    | cons a items ih =>
      intro items'
      rw [List.map_cons, readEach_cons]
      constructor
      · rintro ⟨b, rest, hb, hrest, rfl⟩
        obtain ⟨hvalid, rfl⟩ := ((h start).accepts a b).mp hb
        obtain ⟨hall, rfl⟩ := (ih (start + 1) rest).mp hrest
        exact ⟨List.forall_mem_cons.mpr ⟨hvalid, hall⟩, rfl⟩
      · rintro ⟨hall, rfl⟩
        obtain ⟨hvalid, hall⟩ := List.forall_mem_cons.mp hall
        exact ⟨canon a, items.map canon, (h start).ok hvalid, (ih (start + 1) _).mpr ⟨hall, rfl⟩, rfl⟩
  canonical values := by
    induction values generalizing start with
    | nil =>
      intro items hread
      obtain rfl : items = [] := (Except.ok.inj hread).symm
      simp
    | cons v values ih =>
      intro items hread
      obtain ⟨a, rest, ha, hrest, rfl⟩ := (readEach_cons ..).mp hread
      obtain ⟨hvalid, hcanon⟩ := (h start).canonical v a ha
      obtain ⟨hall, hrestCanon⟩ := ih (start + 1) rest hrest
      exact ⟨List.forall_mem_cons.mpr ⟨hvalid, hall⟩, by rw [List.map_cons, hcanon, hrestCanon]⟩

/-- LOOP: a list of values that are read as they are. -/
theorem Plain.each {read : ℕ → V → Except ε α} (h : ∀ i, Plain (read i) write Valid) (start : ℕ) :
    Plain (readEach read start) (List.map write) (fun items => ∀ a ∈ items, Valid a) := by
  intro values
  induction values generalizing start with
  | nil =>
    intro items
    cases items <;> simp [readEach, Pure.pure, Except.pure]
  | cons v values ih =>
    intro items
    rw [readEach_cons]
    constructor
    · rintro ⟨a, rest, ha, hrest, rfl⟩
      obtain ⟨rfl, hvalid⟩ := (h start v a).mp ha
      obtain ⟨rfl, hall⟩ := (ih (start + 1) rest).mp hrest
      exact ⟨rfl, List.forall_mem_cons.mpr ⟨hvalid, hall⟩⟩
    · rintro ⟨heq, hall⟩
      cases items with
      | nil => cases heq
      | cons a rest =>
        obtain ⟨rfl, rfl⟩ := List.cons.inj heq
        obtain ⟨hvalid, hall⟩ := List.forall_mem_cons.mp hall
        exact ⟨a, rest, (h start _ a).mpr ⟨rfl, hvalid⟩, (ih (start + 1) rest).mpr ⟨rfl, hall⟩, rfl⟩

theorem readEach_length {read : ℕ → V → Except ε α} {start : ℕ} {values : List V} {items : List α}
    (h : readEach read start values = .ok items) : items.length = values.length := by
  induction values generalizing start items with
  | nil =>
    obtain rfl : items = [] := (Except.ok.inj h).symm
    rfl
  | cons v values ih =>
    obtain ⟨a, rest, -, hrest, rfl⟩ := (readEach_cons ..).mp h
    rw [List.length_cons, List.length_cons, ih hrest]

end Reads

end StarkBallot.Schemes
