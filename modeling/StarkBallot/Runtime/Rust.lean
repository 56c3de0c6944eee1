import StarkBallot.Schemes.Result

/-! What the Rust half of the model is written in. A function that may fail returns `RustM`: `.err` is
    an `Err` it reports, `.panic` an abort (an `expect`, an index out of range). Fixed byte arrays carry
    their length. Counters are naturals with the `u32` bound checked where the source checks it. -/

namespace StarkBallot

/-- How a Rust function fails to return a value. -/
inductive Fault where
  | err (message : String)
  | panic (message : String)
  deriving DecidableEq, Repr

abbrev RustM := Except Fault

/-- A byte array `[u8; n]`. -/
structure Bytes (n : ℕ) where
  toList : List UInt8
  length_eq : toList.length = n
  deriving DecidableEq

namespace Bytes

attribute [simp] Bytes.length_eq

variable {n : ℕ}

/-- `[byte; n]`. -/
def fill (n : ℕ) (byte : UInt8) : Bytes n := ⟨List.replicate n byte, List.length_replicate⟩

@[ext] theorem ext {a b : Bytes n} (h : a.toList = b.toList) : a = b := by
  cases a; cases b; simpa using h

/-- Arrays compare lexicographically. -/
instance : Ord (Bytes n) := ⟨fun a b => compare a.toList b.toList⟩

theorem compare_eq (a b : Bytes n) : compare a b = compare a.toList b.toList := rfl

instance : Std.TransOrd (Bytes n) where
  eq_swap {a b} := by rw [compare_eq, compare_eq]; exact Std.OrientedCmp.eq_swap
  isLE_trans {a b c} hab hbc := by
    rw [compare_eq] at hab hbc ⊢
    exact Std.TransCmp.isLE_trans hab hbc

instance : Std.LawfulEqOrd (Bytes n) where
  compare_self := by intro a; rw [compare_eq]; exact Std.ReflCmp.compare_self
  eq_of_compare h := ext (Std.LawfulEqCmp.eq_of_compare h)

end Bytes

/-- The bytes of an ASCII literal (`b"..."` in Rust, `utf8ToBytes` in TypeScript). -/
def ascii (s : String) : List UInt8 := s.toList.map fun c => UInt8.ofNat c.toNat

/-- `u32::MAX`; also `usize::MAX` on the 32-bit guest target. -/
def u32Max : ℕ := 4294967295

def u16Max : ℕ := 65535

def u64Max : ℕ := 18446744073709551615

/-- `checked_add` of the unsigned type with maximum `max`. -/
def checkedAddIn (max a b : ℕ) : Option ℕ := if a + b ≤ max then some (a + b) else none

/-- `checked_mul` of the unsigned type with maximum `max`. -/
def checkedMulIn (max a b : ℕ) : Option ℕ := if a * b ≤ max then some (a * b) else none

/-- `u32::checked_add`. -/
def checkedAdd (a b : ℕ) : Option ℕ := checkedAddIn u32Max a b

/-- `u32::checked_sub`. -/
def checkedSub (a b : ℕ) : Option ℕ := if b ≤ a then some (a - b) else none

theorem checkedAdd_of_le {a b : ℕ} (h : a + b ≤ u32Max) : checkedAdd a b = some (a + b) := if_pos h

theorem checkedSub_of_le {a b : ℕ} (h : b ≤ a) : checkedSub a b = some (a - b) := if_pos h

/-! ### Vectors, slices and arrays -/

section Indexing

variable {α : Type} {n : ℕ}

def indexPanic (len index : ℕ) : Fault :=
  .panic s!"index out of bounds: the len is {len} but the index is {index}"

/-- `v[i]` as a value. -/
def vecGet (v : List α) (i : ℕ) : RustM α :=
  match v[i]? with
  | some a => .ok a
  | none => .error (indexPanic v.length i)

/-- `v[i] = a`. -/
def vecSet (v : List α) (i : ℕ) (a : α) : RustM (List α) :=
  if i < v.length then .ok (v.set i a) else .error (indexPanic v.length i)

/-- `v.insert(i, a)`. -/
def vecInsert (v : List α) (i : ℕ) (a : α) : RustM (List α) :=
  if i ≤ v.length then .ok (v.insertIdx i a)
  else .error (.panic s!"insertion index (is {i}) should be <= len (is {v.length})")

/-- `v[i]` of a fixed array. -/
def arrGet (v : Vector α n) (i : ℕ) : RustM α :=
  if h : i < n then .ok v[i] else .error (indexPanic n i)

/-- `v[i] = a` of a fixed array. -/
def arrSet (v : Vector α n) (i : ℕ) (a : α) : RustM (Vector α n) :=
  if h : i < n then .ok (v.set i a) else .error (indexPanic n i)

theorem vecGet_of_getElem? {v : List α} {i : ℕ} {a : α} (h : v[i]? = some a) : vecGet v i = .ok a := by
  unfold vecGet; rw [h]

theorem vecSet_of_lt {v : List α} {i : ℕ} {a : α} (h : i < v.length) :
    vecSet v i a = .ok (v.set i a) := if_pos h

theorem vecInsert_of_le {v : List α} {i : ℕ} {a : α} (h : i ≤ v.length) :
    vecInsert v i a = .ok (v.insertIdx i a) := if_pos h

theorem arrGet_of_lt {v : Vector α n} {i : ℕ} (h : i < n) : arrGet v i = .ok v[i] := dif_pos h

theorem arrSet_of_lt {v : Vector α n} {i : ℕ} {a : α} (h : i < n) :
    arrSet v i a = .ok (v.set i a) := dif_pos h

end Indexing

end StarkBallot
