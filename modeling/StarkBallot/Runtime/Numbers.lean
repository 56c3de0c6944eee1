import StarkBallot.Runtime.Texts
import Mathlib.Data.Rat.Floor
import Mathlib.Data.List.DropRight

/-! `Number(text)`: the number a text is read as. White space around it is left out, the rest is a
    literal in decimal or with a radix in front, and its value is rounded to the nearest double.

        " 42 "  ──▶  42        "0x1F"  ──▶  31        "4e3"  ──▶  4000        "4 KiB"  ──▶  NaN

    A natural number that is a safe integer is read back from its decimal text. -/

namespace StarkBallot
open Schemes

/-! ### Natural numbers -/

/-! ### White space -/

/-- White space and line ends. -/
def isBlank (c : Char) : Bool :=
  c.toNat ∈ [9, 10, 11, 12, 13, 32, 160, 5760, 8232, 8233, 8239, 8287, 12288, 65279] ||
    (8192 ≤ c.toNat && c.toNat ≤ 8202)

def trim (s : JsString) : JsString := (s.dropWhile isBlank).rdropWhile isBlank

theorem isBlank_of_isDigit {c : Char} (h : c.isDigit = true) : isBlank c = false := by
  have hdigit := Char.isDigit_iff_toNat.mp h
  have hzero : '0'.toNat = 48 := rfl
  have hnine : '9'.toNat = 57 := rfl
  simp only [isBlank, List.mem_cons, List.not_mem_nil, or_false, Bool.or_eq_false_iff,
    decide_eq_false_iff_not, Bool.and_eq_false_iff]
  omega

theorem trim_eq_self {s : JsString} (h : ∀ c ∈ s, isBlank c = false) : trim s = s := by
  have hfront : s.dropWhile isBlank = s := by
    cases s with
    | nil => rfl
    | cons c rest =>
        rw [List.dropWhile_cons, if_neg (by rw [h c List.mem_cons_self]; exact Bool.false_ne_true)]
  rw [trim, hfront, List.rdropWhile_eq_self_iff]
  intro hne
  rw [h _ (List.getLast_mem hne)]
  exact Bool.false_ne_true

/-! ### Rounding -/

/-- A power with an exponent of either sign. -/
def powerOf (base : ℕ) : ℤ → ℚ
  | .ofNat k => (base ^ k : ℕ)
  | .negSucc k => 1 / (base ^ (k + 1) : ℕ)

/-- The nearest integer; of two, the even one. -/
def roundEven (q : ℚ) : ℤ :=
  let below := ⌊q⌋
  let rest := q - below
  if rest < 1 / 2 ∨ (rest = 1 / 2 ∧ below % 2 = 0) then below else below + 1

/-- The power of two at or below a number that is not zero. -/
def binaryExponent (q : ℚ) : ℤ :=
  let guess := (q.num.natAbs.log2 : ℤ) - (q.den.log2 : ℤ)
  if |q| < powerOf 2 guess then guess - 1 else guess

/-- Where the doubles end. -/
def tooLarge : ℚ := powerOf 2 (1024 : ℕ)

/-- The nearest double: 53 binary digits, and an exponent of no less than -1074. -/
def nearest (q : ℚ) : Num :=
  if q = 0 then .finite 0
  else
    let exponent := max (binaryExponent q - 52) (-1074)
    let rounded := (roundEven (q / powerOf 2 exponent) : ℚ) * powerOf 2 exponent
    if tooLarge ≤ |rounded| then .infinity (decide (q < 0)) else .finite rounded

theorem roundEven_intCast (m : ℤ) : roundEven (m : ℚ) = m := by
  have hrest : (m : ℚ) - m < 1 / 2 := by
    rw [sub_self]
    norm_num
  simp only [roundEven, Int.floor_intCast]
  rw [if_pos (Or.inl hrest)]

theorem powerOf_natCast (base k : ℕ) : powerOf base (k : ℤ) = (base ^ k : ℕ) := rfl

theorem lt_powerOf {m n k : ℕ} (h : n < 2 ^ m) (hle : m ≤ k) : (n : ℚ) < powerOf 2 (k : ℤ) := by
  rw [powerOf_natCast]
  exact Nat.cast_lt.mpr (lt_of_lt_of_le h (Nat.pow_le_pow_right (by decide) hle))

theorem powerOf_neg (base k : ℕ) : powerOf base (-(k : ℤ)) = 1 / (base ^ k : ℕ) := by
  cases k with
  | zero => simp [powerOf]
  | succ k => rfl

theorem binaryExponent_natCast {n : ℕ} (h : n ≠ 0) : binaryExponent (n : ℚ) = (n.log2 : ℤ) := by
  have hle : ((2 ^ n.log2 : ℕ) : ℚ) ≤ |(n : ℚ)| := by
    rw [Nat.abs_cast]
    exact Nat.cast_le.mpr (Nat.log2_self_le h)
  have hone : Nat.log2 1 = 0 := by decide
  have hguess : ((n : ℤ).natAbs.log2 : ℤ) - ((1 : ℕ).log2 : ℤ) = (n.log2 : ℤ) := by
    rw [hone, Int.natAbs_natCast, Nat.cast_zero, sub_zero]
  simp only [binaryExponent, Rat.num_natCast, Rat.den_natCast, hguess, powerOf_natCast]
  rw [if_neg (not_lt.mpr hle)]

/-- EXACT: a safe integer is a double. -/
theorem nearest_natCast {n : ℕ} (h : n ≤ Num.maxSafeInteger) : nearest (n : ℚ) = .ofNat n := by
  by_cases hzero : n = 0
  · subst hzero
    rfl
  have hlog : n.log2 ≤ 52 := by
    have hlt : n.log2 < 53 := (Nat.log2_lt hzero).mpr (lt_of_le_of_lt h (by decide))
    exact Nat.le_of_lt_succ hlt
  have hexponent : max (binaryExponent (n : ℚ) - 52) (-1074) = -((52 - n.log2 : ℕ) : ℤ) := by
    rw [binaryExponent_natCast hzero]
    omega
  have hpower : powerOf 2 (-((52 - n.log2 : ℕ) : ℤ)) = 1 / (2 ^ (52 - n.log2) : ℕ) := powerOf_neg _ _
  have hpos : ((2 ^ (52 - n.log2) : ℕ) : ℚ) ≠ 0 := Nat.cast_ne_zero.mpr (Nat.pow_pos (by decide)).ne'
  have hscaled : (n : ℚ) / (1 / (2 ^ (52 - n.log2) : ℕ)) = ((n * 2 ^ (52 - n.log2) : ℕ) : ℤ) := by
    rw [div_div_eq_mul_div, div_one]
    push_cast
    rfl
  have hback : (((n * 2 ^ (52 - n.log2) : ℕ) : ℤ) : ℚ) * (1 / (2 ^ (52 - n.log2) : ℕ)) = n := by
    rw [mul_one_div, div_eq_iff hpos]
    push_cast
    rfl
  have hsmall : ¬ tooLarge ≤ |(n : ℚ)| := by
    rw [Nat.abs_cast, not_le]
    exact lt_powerOf (@lt_of_le_of_lt _ _ _ _ (2 ^ 53) h (by decide)) (by decide)
  simp only [nearest]
  rw [if_neg (Nat.cast_ne_zero.mpr hzero), hexponent, hpower, hscaled, roundEven_intCast, hback,
    if_neg hsmall]
  rfl

/-! ### Literals -/

/-- A sign in front, and whether it is a minus. -/
def splitSign : JsString → Bool × JsString
  | '-' :: rest => (true, rest)
  | '+' :: rest => (false, rest)
  | text => (false, text)

def signed (negative : Bool) (q : ℚ) : ℚ := if negative then -q else q

def radixOf (c : Char) : Option ℕ :=
  if c ∈ ['x', 'X'] then some 16 else if c ∈ ['o', 'O'] then some 8 else if c ∈ ['b', 'B'] then
    some 2 else none

/-- A literal with a radix in front. -/
def radixLiteral : JsString → Option ℕ
  | '0' :: c :: digits => do
    let radix ← radixOf c
    if digits ≠ [] ∧ digits.all fun d => isHexDigit d.toLower && hexValue d < radix then
      some (digits.foldl (fun value d => radix * value + hexValue d) 0)
    else none
  | _ => none

def exponentPart : JsString → Option ℤ
  | [] => some 0
  | c :: rest =>
    let (negative, digits) := splitSign rest
    if (c = 'e' ∨ c = 'E') ∧ digits ≠ [] ∧ digits.all Char.isDigit then
      let value : ℤ := Nat.ofDigitChars 10 digits 0
      some (if negative then -value else value)
    else none

/-- The digits after a point, and what follows. -/
def fractionPart : JsString → JsString × JsString
  | '.' :: rest => (rest.takeWhile Char.isDigit, rest.dropWhile Char.isDigit)
  | rest => ([], rest)

def unsignedDecimal (text : JsString) : Option ℚ :=
  let whole := text.takeWhile Char.isDigit
  let (fraction, rest) := fractionPart (text.dropWhile Char.isDigit)
  if whole ++ fraction = [] then none
  else (exponentPart rest).map fun exponent =>
    (Nat.ofDigitChars 10 (whole ++ fraction) 0 : ℚ) * powerOf 10 (exponent - fraction.length)

def decimalLiteral (text : JsString) : Num :=
  let (negative, unsigned) := splitSign text
  if unsigned = js "Infinity" then .infinity negative
  else match unsignedDecimal unsigned with
    | some value => nearest (signed negative value)
    | none => .nan

/-- `Number(text)`. -/
def numberOf (text : JsString) : Num :=
  let literal := trim text
  if literal = [] then .finite 0
  else match radixLiteral literal with
    | some value => nearest value
    | none => decimalLiteral literal

section Decimal

variable {n : ℕ} {digits : JsString}

theorem decimal_ne_nil (n : ℕ) : decimal n ≠ [] := Nat.toDigits_ne_nil

theorem radixOf_of_isDigit {c : Char} (h : c.isDigit = true) : radixOf c = none := by
  have hdigit := Char.isDigit_iff_toNat.mp h
  have hnine : '9'.toNat = 57 := rfl
  have hne : ∀ d : Char, 57 < d.toNat → c ≠ d := by
    rintro d hd rfl
    omega
  unfold radixOf
  rw [if_neg, if_neg, if_neg]
  all_goals
    simp only [List.mem_cons, List.not_mem_nil, or_false, not_or]
    exact ⟨hne _ (by decide), hne _ (by decide)⟩

theorem radixLiteral_of_digits (h : ∀ c ∈ digits, c.isDigit = true) : radixLiteral digits = none := by
  unfold radixLiteral
  split
  · rename_i c rest
    rw [radixOf_of_isDigit (h c (by simp))]
    rfl
  · rfl

theorem splitSign_of_digits (h : ∀ c ∈ digits, c.isDigit = true) :
    splitSign digits = (false, digits) := by
  unfold splitSign
  split
  · exact absurd (h '-' List.mem_cons_self) (by decide)
  · exact absurd (h '+' List.mem_cons_self) (by decide)
  · rfl

theorem takeWhile_of_digits (h : ∀ c ∈ digits, c.isDigit = true) :
    digits.takeWhile Char.isDigit = digits :=
  List.takeWhile_eq_self_iff.mpr h

theorem dropWhile_of_digits (h : ∀ c ∈ digits, c.isDigit = true) : digits.dropWhile Char.isDigit = [] :=
  List.dropWhile_eq_nil_iff.mpr h

theorem unsignedDecimal_of_digits (hne : digits ≠ []) (h : ∀ c ∈ digits, c.isDigit = true) :
    unsignedDecimal digits = some (Nat.ofDigitChars 10 digits 0 : ℚ) := by
  have hpower : powerOf 10 ((0 : ℤ) - ([] : JsString).length) = 1 := by
    norm_num [powerOf]
  simp only [unsignedDecimal, dropWhile_of_digits h, takeWhile_of_digits h, fractionPart,
    List.append_nil, if_neg hne, exponentPart, Option.map_some, hpower, mul_one]

/-- READ BACK: the decimal text of a safe integer is read as that integer. -/
theorem numberOf_decimal (h : n ≤ Num.maxSafeInteger) : numberOf (decimal n) = .ofNat n := by
  have hdigits : ∀ c ∈ decimal n, c.isDigit = true := isDigit_of_mem_decimal
  have htrim : trim (decimal n) = decimal n := trim_eq_self fun c hc => isBlank_of_isDigit (hdigits c hc)
  have hne : decimal n ≠ js "Infinity" := by
    intro heq
    exact absurd (hdigits 'I' (by rw [heq]; decide)) (by decide)
  simp only [numberOf, htrim, if_neg (decimal_ne_nil n), radixLiteral_of_digits hdigits, decimalLiteral,
    splitSign_of_digits hdigits, if_neg hne,
    unsignedDecimal_of_digits (decimal_ne_nil n) hdigits, signed, Bool.false_eq_true, if_false]
  rw [decimal, Nat.ofDigitChars_ten_toDigits]
  exact nearest_natCast h

example : numberOf (js " 0x1F ") = .ofNat 31 := by decide +kernel
example : numberOf (js "-1.50e1") = .finite (-15) := by decide +kernel
example : numberOf (js "9007199254740990.9") = .ofNat 9007199254740991 := by decide +kernel
example : numberOf (js "4 KiB") = .nan := by decide +kernel

end Decimal

end StarkBallot
