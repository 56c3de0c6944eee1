import Mathlib.Data.List.Lex
import Mathlib.Data.Char
import Mathlib.Algebra.Order.Ring.Nat

/-! Decimal numerals as texts. Numerals of one length are ordered as texts as they are as numbers,
    whatever follows them; a shorter numeral is filled up with zeros in front, which
    leaves its number as it is. -/

namespace StarkBallot.Schemes

/-- The decimal numeral of a number. -/
def decimal (n : ℕ) : List Char := Nat.toDigits 10 n

theorem isDigit_of_mem_decimal {n : ℕ} : ∀ c ∈ decimal n, c.isDigit = true := by
  intro c hc
  exact Nat.isDigit_of_mem_toDigits (by decide) (by decide) hc

theorem decimal_length_le {n width : ℕ} (hwidth : 0 < width) :
    (decimal n).length ≤ width ↔ n < 10 ^ width :=
  Nat.length_toDigits_le_iff (by decide) hwidth

/-- Zeros in front do not change the number. -/
theorem ofDigitChars_zeros (zeros n : ℕ) :
    Nat.ofDigitChars 10 (List.replicate zeros '0' ++ decimal n) 0 = n := by
  rw [Nat.ofDigitChars_append, Nat.ofDigitChars_replicate_zero, Nat.mul_zero, decimal,
    Nat.ofDigitChars_ten_toDigits]

/-- The number of a numeral is below the power of its length. -/
theorem ofDigitChars_lt {l : List Char} (hl : ∀ c ∈ l, c.isDigit = true) :
    Nat.ofDigitChars 10 l 0 < 10 ^ l.length := by
  induction l with
  | nil => simp
  | cons c l ih =>
    have hrest := ih fun d hd => hl d (List.mem_cons_of_mem c hd)
    have hdigit := Char.isDigit_iff_toNat.mp (hl c List.mem_cons_self)
    rw [Nat.ofDigitChars_cons, Nat.ofDigitChars_eq_ofDigitChars_zero, List.length_cons, Nat.pow_succ]
    have hzero : '0'.toNat = 48 := rfl
    have hnine : '9'.toNat = 57 := rfl
    have hle : 10 ^ l.length * (10 * 0 + (c.toNat - '0'.toNat)) ≤ 10 ^ l.length * 9 :=
      Nat.mul_le_mul_left _ (by omega)
    omega

/-- ORDER: of two numerals of one length, the one of the smaller number comes first. -/
theorem lt_of_ofDigitChars_lt {l l' : List Char} (hlength : l.length = l'.length)
    (hl : ∀ c ∈ l, c.isDigit = true) (hl' : ∀ c ∈ l', c.isDigit = true)
    (hlt : Nat.ofDigitChars 10 l 0 < Nat.ofDigitChars 10 l' 0) : l < l' := by
  induction l generalizing l' with
  | nil =>
    obtain rfl := List.length_eq_zero_iff.mp hlength.symm
    exact absurd hlt (lt_irrefl _)
  | cons c l ih =>
    cases l' with
    | nil => cases hlength
    | cons d l' =>
      have hrest := ofDigitChars_lt fun e he => hl e (List.mem_cons_of_mem c he)
      have hrest' := ofDigitChars_lt fun e he => hl' e (List.mem_cons_of_mem d he)
      have hc := Char.isDigit_iff_toNat.mp (hl c List.mem_cons_self)
      have hd := Char.isDigit_iff_toNat.mp (hl' d List.mem_cons_self)
      have hlen : l.length = l'.length := Nat.succ.inj hlength
      have hzero : '0'.toNat = 48 := rfl
      rw [Nat.ofDigitChars_cons, Nat.ofDigitChars_cons, Nat.ofDigitChars_eq_ofDigitChars_zero,
        @Nat.ofDigitChars_eq_ofDigitChars_zero l', hlen] at hlt
      rw [hlen] at hrest
      rcases Nat.lt_trichotomy c.toNat d.toNat with h | h | h
      · exact List.cons_lt_cons_iff.mpr (.inl (UInt32.lt_iff_toNat_lt.mpr h))
      · obtain rfl := Char.toNat_inj.mp h
        refine List.cons_lt_cons_iff.mpr (.inr ⟨rfl, ih hlen ?_ ?_ ?_⟩)
        · exact fun e he => hl e (List.mem_cons_of_mem c he)
        · exact fun e he => hl' e (List.mem_cons_of_mem c he)
        · omega
      · exfalso
        have hstep : 10 ^ l'.length * (10 * 0 + (d.toNat - '0'.toNat)) + 10 ^ l'.length ≤
            10 ^ l'.length * (10 * 0 + (c.toNat - '0'.toNat)) := by
          rw [← Nat.mul_succ]
          exact Nat.mul_le_mul_left _ (by omega)
        omega

/-- What follows texts of one length does not change their order. -/
theorem append_lt_append {l l' : List Char} (hlength : l.length = l'.length) (hlt : l < l')
    (r r' : List Char) :
    l ++ r < l' ++ r' := by
  induction l generalizing l' with
  | nil =>
    obtain rfl := List.length_eq_zero_iff.mp hlength.symm
    exact absurd hlt (List.lt_irrefl _)
  | cons c l ih =>
    cases l' with
    | nil => cases hlength
    | cons d l' =>
      rw [List.cons_append, List.cons_append, List.cons_lt_cons_iff]
      rcases List.cons_lt_cons_iff.mp hlt with h | ⟨h, hlt'⟩
      · exact .inl h
      · exact .inr ⟨h, ih (Nat.succ.inj hlength) hlt'⟩

end StarkBallot.Schemes
