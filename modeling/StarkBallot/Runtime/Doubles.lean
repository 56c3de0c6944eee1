import StarkBallot.Runtime.Numbers

/-! Arithmetic that rounds. A sum, a difference and a quotient are the nearest doubles of the exact
    results, so they are exact as long as they are safe integers, and no rounding leads from one side of
    a safe integer to the other (`le_nearest`).

        9007199254740992 + 3  ──▶  9007199254740996        1e23  ──▶  "1e+23"

    The text of a number has the fewest digits that are read as the number. -/

namespace StarkBallot
open Schemes

namespace Num

/-! ### Operations -/

/-- A result is rounded. -/
def rounded : Num → Num
  | .finite value => nearest value
  | other => other

/-- `a + b`. -/
def plus (a b : Num) : Num := (a.add b).rounded

/-- `a - b`. -/
def minus (a b : Num) : Num := (a.sub b).rounded

/-- `a / n`, for a literal `n` that is positive. -/
def dividedBy (a : Num) (n : ℕ) : Num :=
  match a with
  | .finite value => nearest (value / n)
  | other => other

/-- `Math.floor`. -/
def floor : Num → Num
  | .finite value => .finite ⌊value⌋
  | other => other

end Num

/-! ### Where rounding leads -/

section Rounding

variable {k : ℕ} {q : ℚ}

theorem powerOf_two (e : ℤ) : powerOf 2 e = (2 : ℚ) ^ e := by
  cases e with
  | ofNat n => simp [powerOf]
  | negSucc n => simp [powerOf, zpow_negSucc]

/-- The power of two that is taken for the leading digit is not above the number. -/
theorem binaryExponent_le (hq : 0 < q) : (2 : ℚ) ^ binaryExponent q ≤ q := by
  unfold binaryExponent
  simp only [powerOf_two, abs_of_pos hq]
  split_ifs with hguess
  · have hnum : (2 : ℚ) ^ (q.num.natAbs.log2 : ℤ) ≤ q.num.natAbs := by
      rw [zpow_natCast]
      exact_mod_cast Nat.log2_self_le (Int.natAbs_ne_zero.mpr (Rat.num_pos.mpr hq).ne')
    have hden : (q.den : ℚ) ≤ (2 : ℚ) ^ ((q.den.log2 : ℤ) + 1) := by
      rw [← Nat.cast_succ, zpow_natCast]
      exact_mod_cast Nat.lt_log2_self.le
    have habs : (q.num.natAbs : ℚ) = q.num := by
      rw [← Int.cast_natCast, Int.natAbs_of_nonneg (Rat.num_pos.mpr hq).le]
    rw [sub_sub, zpow_sub₀ two_ne_zero, div_le_iff₀ (zpow_pos two_pos _)]
    calc (2 : ℚ) ^ (q.num.natAbs.log2 : ℤ) ≤ q.num := habs ▸ hnum
      _ = q * q.den := (Rat.mul_den_eq_num q).symm
      _ ≤ q * (2 : ℚ) ^ ((q.den.log2 : ℤ) + 1) := mul_le_mul_of_nonneg_left hden hq.le
  · exact not_lt.mp hguess

theorem floor_le_roundEven (q : ℚ) : ⌊q⌋ ≤ roundEven q := by
  simp only [roundEven]
  split_ifs
  · exact le_refl _
  · exact (lt_add_one _).le

/-- An integer at or below a number is at or below what the number is rounded to. -/
theorem le_roundEven {m : ℤ} (h : (m : ℚ) ≤ q) : m ≤ roundEven q :=
  (Int.le_floor.mpr h).trans (floor_le_roundEven q)

/-- ROUNDING: a number that is not below an integer of at most 53 binary digits is not
    rounded to one below it. -/
theorem le_nearest (hk : k ≤ 2 ^ 53) (hpos : 0 < k) (h : (k : ℚ) ≤ q) :
    nearest q = .infinity false ∨ ∃ value, nearest q = .finite value ∧ (k : ℚ) ≤ value := by
  have hq : 0 < q := lt_of_lt_of_le (Nat.cast_pos.mpr hpos) h
  have hround : (k : ℚ) ≤ roundEven (q / powerOf 2 (max (binaryExponent q - 52) (-1074))) *
      powerOf 2 (max (binaryExponent q - 52) (-1074)) := by
    rw [powerOf_two]
    generalize he : max (binaryExponent q - 52) (-1074) = e
    have hpower : (0 : ℚ) < 2 ^ e := zpow_pos two_pos e
    rcases le_or_gt e 0 with hsmall | hlarge
    · -- The integer itself lies on the grid.
      have hgrid : ((k * 2 ^ (-e).toNat : ℕ) : ℚ) = k / 2 ^ e := by
        rw [Nat.cast_mul, Nat.cast_pow, ← zpow_natCast, Int.toNat_of_nonneg (by omega),
          Nat.cast_two, zpow_neg, div_eq_mul_inv]
      have hle : (((k * 2 ^ (-e).toNat : ℕ) : ℤ) : ℚ) ≤ q / 2 ^ e := by
        rw [Int.cast_natCast, hgrid]
        exact div_le_div_of_nonneg_right h hpower.le
      rw [← div_le_iff₀ hpower, ← hgrid]
      exact_mod_cast le_roundEven hle
    · -- More digits than 53: the number is rounded to no less than the power of its leading digit.
      have hleading : ((2 ^ 52 : ℤ) : ℚ) ≤ q / 2 ^ e := by
        have hexponent : binaryExponent q = 52 + e := by omega
        have hle := binaryExponent_le hq
        rw [hexponent, zpow_add₀ two_ne_zero] at hle
        rw [le_div_iff₀ hpower]
        exact_mod_cast hle
      have htwo : (2 : ℚ) ≤ 2 ^ e := by
        conv_lhs => rw [← zpow_one (2 : ℚ)]
        exact zpow_le_zpow_right₀ one_le_two hlarge
      calc (k : ℚ) ≤ 2 ^ 52 * 2 := by
            norm_num
            exact_mod_cast hk
        _ ≤ roundEven (q / 2 ^ e) * 2 ^ e :=
          mul_le_mul (by exact_mod_cast le_roundEven hleading) htwo two_pos.le
            (by exact_mod_cast le_trans (by decide) (le_roundEven hleading))
  simp only [nearest, if_neg hq.ne']
  split_ifs
  · exact .inl (by rw [decide_eq_false hq.not_gt])
  · exact .inr ⟨_, rfl, hround⟩

theorem Num.finite_le {a b : ℚ} : (finite a).le (finite b) = decide (a ≤ b) := by
  rw [le, lt, eq, ← Bool.decide_or]
  exact decide_eq_decide.mpr le_iff_lt_or_eq.symm

theorem Num.le_eq_not_lt {a b : Num} (ha : a ≠ .nan) (hb : b ≠ .nan) : a.le b = !b.lt a := by
  match a, b with
  | .nan, _ => exact absurd rfl ha
  | _, .nan => exact absurd rfl hb
  | .finite a, .finite b => rw [finite_le, lt, ← decide_not, decide_eq_decide, not_lt]
  | .infinity negative, .finite b => cases negative <;> rfl
  | .finite a, .infinity negative => cases negative <;> rfl
  | .infinity negative, .infinity negative' => cases negative <;> cases negative' <;> rfl

theorem Num.ofNat_ne_nan (n : ℕ) : ofNat n ≠ .nan := Num.noConfusion

theorem nearest_ne_nan (q : ℚ) : nearest q ≠ .nan := by
  simp only [nearest]
  split_ifs <;> exact Num.noConfusion

theorem Num.minus_ne_nan {a b : Num} (ha : a.isInteger = true) (hb : b.isInteger = true) :
    a.minus b ≠ .nan := by
  cases a with
  | nan => cases ha
  | infinity _ => cases ha
  | finite a =>
  cases b with
  | nan => cases hb
  | infinity _ => cases hb
  | finite b => exact nearest_ne_nan _

/-- A sum that is a safe integer is exact. -/
theorem Num.plus_ofNat {m n : ℕ} (h : m + n ≤ maxSafeInteger) :
    (ofNat m).plus (ofNat n) = ofNat (m + n) := by
  rw [plus, ofNat_add, ofNat, rounded, nearest_natCast h]
  rfl

theorem Num.minus_ofNat {m n : ℕ} (hle : n ≤ m) (h : m ≤ maxSafeInteger) :
    (ofNat m).minus (ofNat n) = ofNat (m - n) := by
  rw [minus, ofNat_sub hle, ofNat, rounded, nearest_natCast (by omega)]
  rfl

/-- A difference of integers that is rounded to no more than a safe integer is no more than it. -/
theorem Num.sub_le_of_minus {a b : Num} (ha : a.isInteger = true) (hb : b.isInteger = true)
    (hk : k ≤ maxSafeInteger) (h : (ofNat k).lt (a.minus b) = false) :
    (a.sub b).le (ofNat k) = true := by
  cases a with
  | nan => cases ha
  | infinity _ => cases ha
  | finite a =>
  cases b with
  | nan => cases hb
  | infinity _ => cases hb
  | finite b =>
    have hsub : (finite a).sub (finite b) = finite (a - b) := by rw [sub, neg, add, ← sub_eq_add_neg]
    rw [minus, hsub, rounded] at h
    rw [hsub]
    by_contra hnot
    have hlt : (k : ℚ) < a - b := by
      rwa [ofNat, finite_le, decide_eq_true_eq, not_le] at hnot
    have ha' : ((a.num : ℤ) : ℚ) = a := Rat.coe_int_num_of_den_eq_one (of_decide_eq_true ha)
    have hb' : ((b.num : ℤ) : ℚ) = b := Rat.coe_int_num_of_den_eq_one (of_decide_eq_true hb)
    have hsucc : ((k + 1 : ℕ) : ℚ) ≤ a - b := by
      rw [← ha', ← hb'] at hlt ⊢
      exact_mod_cast hlt
    have hbound : k + 1 ≤ 2 ^ 53 := by
      unfold maxSafeInteger at hk
      omega
    rcases le_nearest hbound (Nat.succ_pos k) hsucc with hinfinite | ⟨value, hvalue, hle⟩
    · rw [hinfinite] at h
      cases h
    · rw [hvalue] at h
      simp only [lt, ofNat, decide_eq_false_iff_not, not_lt] at h
      have hcast : ((k : ℕ) : ℚ) < ((k + 1 : ℕ) : ℚ) := Nat.cast_lt.mpr (Nat.lt_succ_self k)
      exact absurd (hle.trans h) (not_le.mpr hcast)

end Rounding

/-! ### Texts -/

/-- Where the decimal point stands: a positive number is below this power of ten and not
    below the one before it. -/
def decimalPoint (q : ℚ) : ℤ :=
  if 1 ≤ q then (decimal ⌊q⌋.toNat).length else 1 - ((decimal (⌈1 / q⌉.toNat - 1)).length : ℤ)

/-- The multiple of a power of ten that is read as the number; of two neighbours, the nearer one. -/
def readAs (q : ℚ) (exponent : ℤ) : Option (ℕ × ℤ) :=
  let below := ⌊q / powerOf 10 exponent⌋.toNat
  let rest := q / powerOf 10 exponent - below
  let belowRead := nearest (below * powerOf 10 exponent) = .finite q
  let aboveRead := nearest ((below + 1 : ℕ) * powerOf 10 exponent) = .finite q
  if belowRead ∧ (¬ aboveRead ∨ rest < 1 / 2 ∨ rest = 1 / 2 ∧ below % 2 = 0) then some (below, exponent)
  else if aboveRead then some (below + 1, exponent)
  else none

/-- The fewest digits, and the power of ten they are followed by; no double needs more than 17. -/
def shortest (q : ℚ) : ℕ × ℤ :=
  ((List.range 17).findSome? fun (k : ℕ) => readAs q (decimalPoint q - 1 - k)).getD (⌊q⌋.toNat, 0)

/-- Digits with the point after the first `point` of them. -/
def placePoint (digits : JsString) (point : ℤ) : JsString :=
  if digits.length ≤ point ∧ point ≤ 21 then digits ++ List.replicate (point.toNat - digits.length) '0'
  else if 0 < point ∧ point ≤ 21 then digits.take point.toNat ++ '.' :: digits.drop point.toNat
  else if -6 < point ∧ point ≤ 0 then js "0." ++ List.replicate (-point).toNat '0' ++ digits
  else
    digits.take 1 ++ (if digits.length = 1 then [] else '.' :: digits.drop 1) ++ 'e' ::
      (if 0 < point then '+' else '-') :: decimal (point - 1).natAbs

/-- A safe integer needs all its digits. -/
def positiveText (q : ℚ) : JsString :=
  if q.den = 1 ∧ q ≤ Num.maxSafeInteger then decimal q.num.toNat
  else
    let (significand, exponent) := shortest q
    placePoint ((decimal significand).rdropWhile (· = '0')) ((decimal significand).length + exponent)

/-- `String(number)`. -/
def numberText : Num → JsString
  | .nan => js "NaN"
  | .infinity negative => if negative then js "-Infinity" else js "Infinity"
  | .finite q => if q = 0 then js "0" else if q < 0 then '-' :: positiveText (-q) else positiveText q

theorem numberText_ofNat {n : ℕ} (h : n ≤ Num.maxSafeInteger) : numberText (.ofNat n) = decimal n := by
  rcases Nat.eq_zero_or_pos n with rfl | hpos
  · rfl
  · have hcast : (0 : ℚ) < n := Nat.cast_pos.mpr hpos
    have hsafe : (n : ℚ) ≤ Num.maxSafeInteger := Nat.cast_le.mpr h
    rw [Num.ofNat, numberText, if_neg hcast.ne', if_neg hcast.not_gt, positiveText,
      if_pos ⟨Rat.den_natCast n, hsafe⟩, Rat.num_natCast, Int.toNat_natCast]

example : numberText (numberOf (js "1e23")) = js "1e+23" := by decide +kernel
example : numberText (numberOf (js "-0.00015")) = js "-0.00015" := by decide +kernel
example : numberText ((Num.ofNat 9007199254740992).plus (.ofNat 3)) = js "9007199254740996" := by
  decide +kernel

end StarkBallot
