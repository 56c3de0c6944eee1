import StarkBallot.Runtime.Rust
import StarkBallot.Schemes.Sorted
import Mathlib.Data.List.Sort
import Mathlib.Algebra.Order.Ring.Rat
import Mathlib.Data.Nat.Cast.Order.Ring
import Mathlib.Tactic.Positivity
import Mathlib.Tactic.Ring

/-! What the TypeScript half of the model is written in. A function that may throw returns `JsM`. Strings
    are lists of characters and `toLowerCase` acts on the ASCII letters, which is all a hexadecimal text
    can contain. Numbers are NaN, the infinities or an exact rational: wherever a sum leaves the safe
    integers the source tests for that first, so rounding is never looked at.

    `bytesToHex` and `hexToBytes` come from an external library; `NobleUtils` holds them together with
    what its documentation says about them. -/

namespace StarkBallot

/-- A thrown error, by class. -/
inductive JsError where
  | error (message : String)
  | rangeError (message : String)
  deriving DecidableEq, Repr

abbrev JsM := Except JsError

abbrev JsString := List Char

/-- Strings are equal when they have the same characters. -/
instance : LawfulBEq JsString := inferInstanceAs (LawfulBEq (List Char))

/-- A string literal. -/
def js (s : String) : JsString := s.toList

def toLowerCase (s : JsString) : JsString := s.map Char.toLower

/-! ### Numbers -/

inductive Num where
  | nan
  | infinity (negative : Bool)
  | finite (value : ℚ)
  deriving DecidableEq

namespace Num

def ofNat (n : ℕ) : Num := .finite n

def maxSafeInteger : ℕ := 9007199254740991

def isFinite : Num → Bool
  | .finite _ => true
  | _ => false

def isInteger : Num → Bool
  | .finite value => value.den = 1
  | _ => false

def isSafeInteger : Num → Bool
  | .finite value => value.den = 1 ∧ -(maxSafeInteger : ℚ) ≤ value ∧ value ≤ maxSafeInteger
  | _ => false

/-- `a < b`; any comparison with NaN is false. -/
def lt : Num → Num → Bool
  | .finite a, .finite b => a < b
  | .infinity negative, .finite _ => negative
  | .finite _, .infinity negative => !negative
  | .infinity a, .infinity b => a && !b
  | _, _ => false

/-- `a === b`; NaN equals nothing. -/
def eq : Num → Num → Bool
  | .finite a, .finite b => a = b
  | .infinity a, .infinity b => a = b
  | _, _ => false

/-- `a <= b`. -/
def le (a b : Num) : Bool := lt a b || eq a b

def neg : Num → Num
  | .nan => .nan
  | .infinity negative => .infinity !negative
  | .finite value => .finite (-value)

def add : Num → Num → Num
  | .finite a, .finite b => .finite (a + b)
  | .infinity a, .infinity b => if a = b then .infinity a else .nan
  | .infinity a, .finite _ => .infinity a
  | .finite _, .infinity b => .infinity b
  | _, _ => .nan

def sub (a b : Num) : Num := add a (neg b)

/-- The natural number behind a value that was checked to be one. -/
def toNat : Num → ℕ
  | .finite value => value.num.toNat
  | _ => 0

/-- The text of an integer, as a message shows it. -/
def toText : Num → String
  | .nan => "NaN"
  | .infinity negative => if negative then "-Infinity" else "Infinity"
  | .finite value => toString value.num

/-- How a comparator's result is read: by its sign. -/
def ordering (n : Num) : Ordering := if n.lt (ofNat 0) then .lt else if (ofNat 0).lt n then .gt else .eq

variable {m n : ℕ}

@[simp] theorem ofNat_isFinite : isFinite (ofNat n) = true := rfl

@[simp] theorem ofNat_isInteger : isInteger (ofNat n) = true := by simp [isInteger, ofNat]

theorem ofNat_isSafeInteger : isSafeInteger (ofNat n) = true ↔ n ≤ maxSafeInteger := by
  have hneg : -(maxSafeInteger : ℚ) ≤ (n : ℚ) := (neg_nonpos.mpr (by positivity)).trans (by positivity)
  simp only [isSafeInteger, ofNat, Rat.den_natCast, hneg, decide_eq_true_eq, true_and, Nat.cast_le]

theorem isInteger_of_isSafeInteger {value : Num} (h : isSafeInteger value = true) :
    isInteger value = true := by
  cases value with
  | nan => cases h
  | infinity negative => cases h
  | finite value =>
    simp only [isSafeInteger, decide_eq_true_eq] at h
    simpa [isInteger] using h.1

/-- An integer that is not negative is a natural number. -/
theorem eq_ofNat_toNat {value : Num} (hinteger : value.isInteger = true)
    (hneg : value.lt (.ofNat 0) = false) :
    value = .ofNat value.toNat := by
  cases value with
  | nan => cases hinteger
  | infinity _ => cases hinteger
  | finite value =>
    have hden := of_decide_eq_true hinteger
    simp only [lt, ofNat, Nat.cast_zero, decide_eq_false_iff_not, not_lt] at hneg
    have hcast : ((value.num.toNat : ℕ) : ℚ) = value := by
      conv_rhs =>
        rw [← Rat.coe_int_num_of_den_eq_one hden, ← Int.toNat_of_nonneg (Rat.num_nonneg.mpr hneg)]
      rfl
    rw [toNat, ofNat, hcast]

theorem lt_asymm {a b : Num} (h : a.lt b = true) : b.lt a = false := by
  match a, b with
  | .nan, _ => cases h
  | .finite _, .nan => cases h
  | .infinity _, .nan => cases h
  | .finite a, .finite b => exact decide_eq_false (of_decide_eq_true h).not_gt
  | .infinity negative, .finite b => cases negative <;> first | rfl | cases h
  | .finite a, .infinity negative => cases negative <;> first | rfl | cases h
  | .infinity negative, .infinity negative' =>
    cases negative <;> cases negative' <;> first | rfl | cases h

theorem lt_eq_false_of_le {a b : Num} (h : b.le a = true) : a.lt b = false := by
  rw [le, Bool.or_eq_true] at h
  rcases h with h | h
  · exact lt_asymm h
  · match a, b with
    | .finite a, .finite b => exact decide_eq_false (of_decide_eq_true h).not_gt
    | .infinity negative, .infinity negative' =>
      obtain rfl := of_decide_eq_true h
      cases negative' <;> rfl

theorem le_eq_false_of_lt {a b : Num} (h : b.lt a = true) : a.le b = false := by
  by_contra hle
  rw [Bool.not_eq_false] at hle
  rw [lt_eq_false_of_le hle] at h
  cases h

theorem toNat_le_of_safe {a : Num} (h : isSafeInteger a = true) : a.toNat ≤ maxSafeInteger := by
  cases a with
  | nan => cases h
  | infinity _ => cases h
  | finite value =>
    simp only [isSafeInteger, decide_eq_true_eq] at h
    obtain ⟨hden, -, hle⟩ := h
    have hnum : value.num ≤ (maxSafeInteger : ℤ) := by
      rw [← Rat.coe_int_num_of_den_eq_one hden] at hle
      exact_mod_cast hle
    rw [toNat]
    omega

/-- A positive number that was checked to be one. -/
theorem toNat_pos_of_safe {a : Num} (h : isSafeInteger a = true) (hpos : le a (ofNat 0) = false) :
    0 < a.toNat := by
  cases a with
  | nan => cases h
  | infinity _ => cases h
  | finite value =>
    simp only [isSafeInteger, decide_eq_true_eq] at h
    obtain ⟨hden, -, -⟩ := h
    simp only [le, lt, eq, ofNat, Nat.cast_zero, Bool.or_eq_false_iff, decide_eq_false_iff_not] at hpos
    have hnum : 0 < value.num := Rat.num_pos.mpr (lt_of_le_of_ne (not_lt.mp hpos.1) (Ne.symm hpos.2))
    rw [toNat]
    omega

@[simp] theorem ofNat_lt : lt (ofNat m) (ofNat n) = decide (m < n) := by simp [lt, ofNat]

@[simp] theorem ofNat_eq : eq (ofNat m) (ofNat n) = decide (m = n) := by simp [eq, ofNat]

@[simp] theorem ofNat_le : le (ofNat m) (ofNat n) = decide (m ≤ n) := by
  rw [le, ofNat_lt, ofNat_eq, ← Bool.decide_or]
  exact decide_eq_decide.mpr Nat.le_iff_lt_or_eq.symm

@[simp] theorem ofNat_add : add (ofNat m) (ofNat n) = ofNat (m + n) := by simp [add, ofNat]

theorem ofNat_injective : Function.Injective ofNat := fun m n h => by
  simpa [ofNat] using h

theorem eq_of_eq {a b : Num} (h : a.eq b = true) : a = b := by
  cases a <;> cases b <;> simp_all [eq]

theorem eq_self {a : Num} (h : a.isInteger = true) : a.eq a = true := by
  cases a <;> simp_all [eq, isInteger]

theorem ofNat_sub (h : n ≤ m) : sub (ofNat m) (ofNat n) = ofNat (m - n) := by
  simp [sub, add, neg, ofNat, Nat.cast_sub h, ← sub_eq_add_neg]

@[simp] theorem ofNat_toNat : toNat (ofNat n) = n := by simp [toNat, ofNat]

/-- A comparator's result has the sign of an order, and is a number. -/
def Signs (n : Num) (o : Ordering) : Prop := n.ordering = o ∧ n ≠ .nan

/-- The sign of a difference is the order of its terms. -/
theorem sub_signs (m n : ℕ) : Signs (sub (ofNat m) (ofNat n)) (compare m n) := by
  have hneg : lt (sub (ofNat m) (ofNat n)) (ofNat 0) = decide (m < n) := by
    simp [lt, sub, add, neg, ofNat, ← sub_eq_add_neg]
  have hpos : lt (ofNat 0) (sub (ofNat m) (ofNat n)) = decide (n < m) := by
    simp [lt, sub, add, neg, ofNat, ← sub_eq_add_neg]
  refine ⟨?_, by simp [sub, add, neg, ofNat]⟩
  rw [ordering, hneg, hpos]
  rcases Nat.lt_trichotomy m n with h | h | h
  · simp [h, Nat.compare_eq_lt.mpr h]
  · simp [h]
  · simp [h, Nat.lt_asymm h, Nat.compare_eq_gt.mpr h]

/-- A result is zero exactly on a tie. -/
theorem Signs.eq_zero {a : Num} {o : Ordering} (h : Signs a o) : a.eq (ofNat 0) = (o == .eq) := by
  obtain ⟨rfl, hnan⟩ := h
  match a with
  | .nan => exact absurd rfl hnan
  | .infinity negative => cases negative <;> rfl
  | .finite value =>
    simp only [eq, ordering, lt, ofNat, Nat.cast_zero, decide_eq_true_eq]
    rcases lt_trichotomy value 0 with h | h | h
    · simp [h, h.ne]
    · simp [h]
    · simp [h, h.ne', h.not_gt]

/-- A sort that asks for "not positive" asks for "at most". -/
theorem Signs.not_pos {a : Num} {o : Ordering} (h : Signs a o) : (!(ofNat 0).lt a) = o.isLE := by
  obtain ⟨rfl, -⟩ := h
  match a with
  | .nan => rfl
  | .infinity negative => cases negative <;> rfl
  | .finite value =>
    simp only [ordering, lt, ofNat, Nat.cast_zero, decide_eq_true_eq]
    rcases lt_trichotomy value 0 with h | h | h
    · simp [h, h.le]
    · simp [h]
    · simp [h, h.not_gt]

end Num

/-- `Array.prototype.sort`: stable, by the sign of the comparator. -/
def sortBy {α : Type} (compare : α → α → Num) (l : List α) : List α :=
  l.mergeSort fun a b => !(Num.ofNat 0).lt (compare a b)

/-- Sorting by a comparator that has the sign of an order sorts by that order. -/
theorem sortBy_map {α β : Type} [Ord α] (f : α → β) {cmp : β → β → Num}
    (h : ∀ a b, (cmp (f a) (f b)).Signs (compare a b)) (l : List α) :
    sortBy cmp (l.map f) = (l.mergeSort Schemes.isLe).map f := by
  rw [sortBy, List.map_mergeSort]
  intro a _ b _
  exact (h a b).not_pos.symm

/-- A list in order stays as it is. -/
theorem sortBy_of_sorted {α : Type} {compare : α → α → Num} {l : List α}
    (h : l.Pairwise fun a b => (!(Num.ofNat 0).lt (compare a b)) = true) : sortBy compare l = l :=
  List.mergeSort_of_pairwise h

/-- `a - b`. -/
def byNumber (a b : ℕ) : Num := (Num.ofNat a).sub (Num.ofNat b)

theorem byNumber_not_pos {a b : ℕ} (h : a ≤ b) : (!(Num.ofNat 0).lt (byNumber a b)) = true := by
  rw [byNumber, (Num.sub_signs a b).not_pos, Nat.isLE_compare]
  exact h

/-- Sorting by different numbers puts every permutation in the one order they give. -/
theorem sortBy_of_perm {α : Type} {f : α → ℕ} {l sorted : List α} (hperm : l.Perm sorted)
    (hsorted : sorted.Pairwise fun a b => f a < f b) :
    sortBy (fun a b => byNumber (f a) (f b)) l = sorted := by
  have hle (a b : α) : (!(Num.ofNat 0).lt (byNumber (f a) (f b))) = decide (f a ≤ f b) := by
    rw [byNumber, (Num.sub_signs (f a) (f b)).not_pos, Bool.eq_iff_iff, Nat.isLE_compare,
      decide_eq_true_eq]
  have hkeys : (sorted.map f).Nodup := List.pairwise_map.mpr (hsorted.imp fun h => h.ne)
  rw [sortBy, funext₂ hle]
  refine @List.Perm.eq_of_pairwise _ (fun a b => f a ≤ f b) _ _ ?_ ?_ (hsorted.imp fun h => h.le)
    ((List.mergeSort_perm l _).trans hperm)
  · intro a b ha hb hab hba
    have ha' : a ∈ sorted := ((List.mergeSort_perm l _).trans hperm).subset ha
    exact List.inj_on_of_nodup_map hkeys ha' hb (Nat.le_antisymm hab hba)
  · refine (List.pairwise_mergeSort ?_ ?_ l).imp fun h => of_decide_eq_true h
    · intro a b c hab hbc
      exact decide_eq_true ((of_decide_eq_true hab).trans (of_decide_eq_true hbc))
    · intro a b
      simp only [Bool.or_eq_true, decide_eq_true_eq]
      exact Nat.le_total _ _

/-- The loop of a lexicographic comparator: the first nonzero comparison, or
    the difference of lengths. -/
def compareArrays {α : Type} (cmp : α → α → Num) (left right : List α) : Num :=
  ((left.zip right).findSome? fun pair =>
    if (cmp pair.1 pair.2).eq (.ofNat 0) then none else some (cmp pair.1 pair.2)).getD
      ((Num.ofNat left.length).sub (Num.ofNat right.length))

theorem compareArrays_signs {α β : Type} [Ord α] (f : α → β) {cmp : β → β → Num}
    (h : ∀ a b, (cmp (f a) (f b)).Signs (compare a b)) :
    ∀ l l' : List α, (compareArrays cmp (l.map f) (l'.map f)).Signs (compare l l')
  | [], [] => Num.sub_signs 0 0
  | [], b :: l' => by
      have hlen := Num.sub_signs 0 (l'.length + 1)
      rw [Nat.compare_eq_lt.mpr (Nat.succ_pos _)] at hlen
      simpa [compareArrays] using hlen
  | a :: l, [] => by
      have hlen := Num.sub_signs (l.length + 1) 0
      rw [Nat.compare_eq_gt.mpr (Nat.succ_pos _)] at hlen
      simpa [compareArrays] using hlen
  | a :: l, b :: l' => by
      have hrest := compareArrays_signs f h l l'
      have hlen : (Num.ofNat (l.length + 1)).sub (Num.ofNat (l'.length + 1)) =
          (Num.ofNat l.length).sub (Num.ofNat l'.length) := by
        simp only [Num.sub, Num.add, Num.neg, Num.ofNat, Nat.cast_add, Nat.cast_one, Num.finite.injEq]
        ring
      simp only [compareArrays, List.length_map] at hrest
      rw [compareArrays, List.map_cons, List.map_cons, List.zip_cons_cons, List.findSome?_cons,
        List.length_cons, List.length_cons, List.length_map, List.length_map, hlen,
        List.compare_cons_cons, (h a b).eq_zero]
      have hpair := h a b
      generalize compare a b = o at hpair ⊢
      cases o with
      | eq => exact hrest
      | lt => exact hpair
      | gt => exact hpair

/-- An array: the language keeps its length below 2³². -/
structure JsArray (α : Type) where
  toList : List α
  length_lt : toList.length < 4294967296

theorem JsArray.length_le_safe {α : Type} (a : JsArray α) : a.toList.length ≤ Num.maxSafeInteger := by
  have hlt := a.length_lt
  unfold Num.maxSafeInteger
  omega

/-- `Set.prototype.add`; a set is listed in the order of insertion. -/
def setAdd {α : Type} [DecidableEq α] (s : List α) (a : α) : List α := if a ∈ s then s else s ++ [a]

theorem setAdd_of_not_mem {α : Type} [DecidableEq α] {s : List α} {a : α} (h : a ∉ s) :
    setAdd s a = s ++ [a] :=
  if_neg h

/-- `Map.prototype.set`; a map is listed in the order of insertion, and a key that
    is there keeps its place. -/
def mapSet {κ α : Type} [DecidableEq κ] (m : List (κ × α)) (key : κ) (a : α) : List (κ × α) :=
  if key ∈ m.map Prod.fst then m.map fun entry => if entry.1 = key then (key, a) else entry
    else m ++ [(key, a)]

theorem mapSet_of_not_mem {κ α : Type} [DecidableEq κ] {m : List (κ × α)} {key : κ}
    (h : key ∉ m.map Prod.fst) (a : α) :
    mapSet m key a = m ++ [(key, a)] := if_neg h

/-- `Map.prototype.delete`. -/
def mapDelete {κ α : Type} [DecidableEq κ] (m : List (κ × α)) (key : κ) : List (κ × α) :=
  m.filter fun entry => entry.1 ≠ key

/-- Keys are unique, so an entry is found under its key. -/
theorem lookup_of_mem {κ α : Type} [BEq κ] [LawfulBEq κ] {m : List (κ × α)}
    (hkeys : (m.map Prod.fst).Nodup) {key : κ} {a : α} (h : (key, a) ∈ m) : m.lookup key = some a := by
  obtain ⟨before, after, rfl⟩ := List.append_of_mem h
  refine List.lookup_eq_some_iff.mpr ⟨before, after, rfl, ?_⟩
  intro entry hentry
  rw [List.map_append, List.nodup_append] at hkeys
  simp only [bne_iff_ne]
  exact fun heq => hkeys.2.2 entry.1 (List.mem_map_of_mem hentry) key (by simp) heq.symm

theorem lookup_isSome_iff_mem {κ α : Type} [BEq κ] [LawfulBEq κ] {m : List (κ × α)} {key : κ} :
    (m.lookup key).isSome = true ↔ key ∈ m.map Prod.fst := by
  rw [List.lookup_isSome_iff, List.mem_map]
  constructor
  · rintro ⟨entry, hentry, heq⟩
    exact ⟨entry, hentry, (eq_of_beq heq).symm⟩
  · rintro ⟨entry, hentry, rfl⟩
    exact ⟨entry, hentry, beq_self_eq_true entry.1⟩

theorem lookup_mapSet_self {κ α : Type} [DecidableEq κ] [BEq κ] [LawfulBEq κ] (m : List (κ × α))
    (key : κ) (a : α) :
    (mapSet m key a).lookup key = some a := by
  by_cases hmem : key ∈ m.map Prod.fst
  · rw [mapSet, if_pos hmem]
    induction m with
    | nil => cases hmem
    | cons entry m ih =>
      rw [List.map_cons, List.lookup_cons]
      by_cases hkey : entry.1 = key
      · rw [if_pos hkey, beq_self_eq_true]
      · rw [if_neg hkey, beq_false_of_ne (Ne.symm hkey)]
        exact ih ((List.mem_cons.mp hmem).resolve_left (Ne.symm hkey))
  · rw [mapSet_of_not_mem hmem, List.lookup_append]
    have hnone : m.lookup key = none := by
      rw [← Option.not_isSome_iff_eq_none, lookup_isSome_iff_mem]
      exact hmem
    rw [hnone, Option.none_or]
    exact List.lookup_cons_self

theorem lookup_mapDelete_ne {κ α : Type} [DecidableEq κ] [BEq κ] [LawfulBEq κ] {key key' : κ}
    (hne : key' ≠ key) (m : List (κ × α)) : (mapDelete m key).lookup key' = m.lookup key' := by
  induction m with
  | nil => rfl
  | cons entry m ih =>
    rw [mapDelete] at ih
    rw [mapDelete, List.filter_cons]
    split
    · rw [List.lookup_cons, List.lookup_cons, ih]
    · rename_i hkept
      have hkey : entry.1 = key := by simpa using hkept
      have hbeq : (key' == entry.1) = false := beq_false_of_ne (hkey ▸ hne)
      rw [List.lookup_cons, hbeq, ih]

/-- `a & b`: both operands are taken as 32-bit integers first. -/
def bitAnd (a b : ℤ) : ℤ := (BitVec.ofInt 32 a &&& BitVec.ofInt 32 b).toInt

/-- The bit trick for powers of two looks at the low 32 bits only. -/
theorem bitAnd_pred_eq_zero {n : ℕ} (h : 0 < n) :
    bitAnd n ((n : ℤ) - 1) = 0 ↔ n % 4294967296 = 0 ∨ (n % 4294967296).isPowerOfTwo := by
  have hcast : (n : ℤ) - 1 = ((n - 1 : ℕ) : ℤ) := by omega
  have hzero : (0 : ℤ) = (0#32).toInt := rfl
  rw [bitAnd, hcast, BitVec.ofInt_natCast, BitVec.ofInt_natCast, hzero,
    BitVec.toInt_inj, ← BitVec.toNat_inj, BitVec.toNat_and, BitVec.toNat_ofNat, BitVec.toNat_ofNat]
  change n % 4294967296 &&& (n - 1) % 4294967296 = 0 ↔ _
  by_cases hlow : n % 4294967296 = 0
  · simp [hlow]
  · have hpred : (n - 1) % 4294967296 = n % 4294967296 - 1 := by omega
    rw [hpred, Nat.and_sub_one_eq_zero_iff_isPowerOfTwo hlow]
    exact (or_iff_right hlow).symm

/-! ### Lower case -/

/-- A character is its own lower case, or 32 below it. -/
theorem toLower_cases (c : Char) :
    c.toLower = c ∨ (65 ≤ c.val ∧ c.val ≤ 90 ∧ c.toLower.val = c.val + 32) := by
  unfold Char.toLower
  split
  · rename_i hrange
    exact Or.inr ⟨hrange.1, hrange.2, rfl⟩
  · exact Or.inl rfl

theorem toLower_toLower (c : Char) : c.toLower.toLower = c.toLower := by
  rcases toLower_cases c with hsame | ⟨hlow, hhigh, hval⟩
  · rw [hsame, hsame]
  · rcases toLower_cases c.toLower with hsame | ⟨-, hbound, -⟩
    · exact hsame
    · -- a letter that was lowered is above all capitals
      rw [hval] at hbound
      rw [UInt32.le_iff_toNat_le] at hlow hhigh hbound
      rw [UInt32.toNat_add] at hbound
      have h32 : (32 : UInt32).toNat = 32 := rfl
      have h65 : (65 : UInt32).toNat = 65 := rfl
      have h90 : (90 : UInt32).toNat = 90 := rfl
      omega

/-! ### Hexadecimal text -/

def hexDigit (n : ℕ) : Char := "0123456789abcdef".toList.getD n '0'

/-- Two lower-case digits for each byte. -/
def hexText (bytes : List UInt8) : JsString :=
  bytes.flatMap fun byte => [hexDigit (byte.toNat / 16), hexDigit (byte.toNat % 16)]

/-- `[0-9a-f]`. -/
def isHexDigit (c : Char) : Bool := "0123456789abcdef".toList.contains c

@[simp] theorem hexText_length (bytes : List UInt8) : (hexText bytes).length = 2 * bytes.length := by
  simp [hexText, Nat.mul_comm]

theorem isHexDigit_hexDigit (n : ℕ) : isHexDigit (hexDigit n) = true := by
  rcases Nat.lt_or_ge n 16 with h | h
  · exact (by decide : ∀ n < 16, isHexDigit (hexDigit n) = true) n h
  · have hzero : hexDigit n = '0' := by
      rw [hexDigit, List.getD_eq_getElem?_getD, List.getElem?_eq_none (by simpa using h),
        Option.getD_none]
    rw [hzero]
    decide

theorem hexText_isHexDigit (bytes : List UInt8) : ∀ c ∈ hexText bytes, isHexDigit c = true := by
  intro c hc
  obtain ⟨byte, -, hc⟩ := List.mem_flatMap.mp hc
  rcases List.mem_pair.mp hc with rfl | rfl <;> exact isHexDigit_hexDigit _

theorem exists_hexDigit {c : Char} (h : isHexDigit c = true) : ∃ n < 16, c = hexDigit n := by
  rw [isHexDigit, List.contains_iff_mem] at h
  obtain ⟨n, hn⟩ := List.getElem?_of_mem h
  obtain ⟨hlt, -⟩ := List.getElem?_eq_some_iff.mp hn
  exact ⟨n, hlt, by rw [hexDigit, List.getD_eq_getElem?_getD, hn, Option.getD_some]⟩

theorem toLower_hexDigit (n : ℕ) : (hexDigit n).toLower = hexDigit n := by
  have hdigits : ∀ n < 16, (hexDigit n).toLower = hexDigit n := by decide
  obtain ⟨m, hm, heq⟩ := exists_hexDigit (isHexDigit_hexDigit n)
  rw [heq]
  exact hdigits m hm

@[simp] theorem toLowerCase_hexText (bytes : List UInt8) :
    toLowerCase (hexText bytes) = hexText bytes := by
  simp [toLowerCase, hexText, List.map_flatMap, toLower_hexDigit]

/-- Different bytes have different texts. -/
theorem hexText_injective : Function.Injective hexText := by
  have hdigit : ∀ a < 16, ∀ b < 16, hexDigit a = hexDigit b → a = b := by decide
  intro bytes
  induction bytes with
  | nil => intro bytes' h; cases bytes' with
    | nil => rfl
    | cons b bytes' => simp [hexText] at h
  | cons a bytes ih => intro bytes' h; cases bytes' with
    | nil => simp [hexText] at h
    | cons b bytes' =>
      simp only [hexText, List.flatMap_cons, List.cons_append, List.nil_append, List.cons.injEq] at h
      have ha := a.toNat_lt
      have hb := b.toNat_lt
      have hhigh := hdigit _ (by omega) _ (by omega) h.1
      have hlow := hdigit _ (by omega) _ (by omega) h.2.1
      have hbyte : a.toNat = b.toNat := by omega
      rw [UInt8.toNat_inj.mp hbyte, ih h.2.2]

/-- An even number of digits is the text of some bytes. -/
theorem exists_hexText : ∀ s : JsString, (∀ c ∈ s, isHexDigit c = true) → s.length % 2 = 0 →
    ∃ bytes, s = hexText bytes
  | [], _, _ => ⟨[], rfl⟩
  | [_], _, h => by simp at h
  | high :: low :: rest, hdigits, hlen => by
      obtain ⟨m, hm, rfl⟩ := exists_hexDigit (hdigits high (by simp))
      obtain ⟨n, hn, rfl⟩ := exists_hexDigit (hdigits low (by simp))
      obtain ⟨bytes, rfl⟩ := exists_hexText rest (fun c hc => hdigits c (by simp [hc])) (by
        simp only [List.length_cons] at hlen
        omega)
      refine ⟨UInt8.ofNat (16 * m + n) :: bytes, ?_⟩
      have hbyte : (UInt8.ofNat (16 * m + n)).toNat = 16 * m + n := by
        rw [UInt8.toNat_ofNat']
        omega
      have hhigh : (16 * m + n) / 16 = m := by omega
      have hlow : (16 * m + n) % 16 = n := by omega
      rw [hexText, hexText, List.flatMap_cons, hbyte, hhigh, hlow]
      rfl

/-- The hexadecimal functions of the external library, as documented. -/
structure NobleUtils where
  bytesToHex : List UInt8 → JsString
  hexToBytes : JsString → JsM (List UInt8)
  bytesToHex_eq : ∀ bytes, bytesToHex bytes = hexText bytes
  hexToBytes_eq : ∀ bytes, hexToBytes (hexText bytes) = .ok bytes

/-- The value of a digit, in either case. -/
def hexValue (c : Char) : ℕ := "0123456789abcdef".toList.idxOf c.toLower

/-- Digits read back in pairs. -/
def readHex : JsString → JsM (List UInt8)
  | [] => .ok []
  | [_] => .error (.rangeError "hex string expected, got unpadded hex")
  | high :: low :: rest =>
    if isHexDigit high.toLower ∧ isHexDigit low.toLower then do
      return UInt8.ofNat (16 * hexValue high + hexValue low) :: (← readHex rest)
    else .error (.rangeError "hex string expected, got non-hex character")

theorem hexValue_hexDigit : ∀ n < 16, hexValue (hexDigit n) = n := by decide

theorem readHex_hexText : ∀ bytes : List UInt8, readHex (hexText bytes) = .ok bytes
  | [] => rfl
  | byte :: bytes => by
      have hlt := byte.toNat_lt
      have hvalue : 16 * hexValue (hexDigit (byte.toNat / 16)) + hexValue (hexDigit (byte.toNat % 16)) =
          byte.toNat := by
        rw [hexValue_hexDigit _ (by omega), hexValue_hexDigit _ (by omega)]
        omega
      have htail := readHex_hexText bytes
      rw [hexText] at htail
      rw [hexText, List.flatMap_cons, List.cons_append, List.cons_append, List.nil_append,
        readHex, htail]
      simp [toLower_hexDigit, isHexDigit_hexDigit, hvalue, Schemes.ok_bind, pure, Except.pure]

/-- A library that behaves as documented. -/
def NobleUtils.reference : NobleUtils := ⟨hexText, readHex, fun _ => rfl, readHex_hexText⟩

end StarkBallot
