import StarkBallot.Schemes.Framing

/-! Base 64. Three bytes are four digits; one or two bytes at the end are two or three digits, the last
    of them filled up with zero bits, and padding brings the text to a multiple
    of four if the variant pads.

        01001101 01100001 01101110  ──▶  010011 010110 000101 101110  ──▶  TWFu
        01001101                    ──▶  010011 01+0000              ──▶  TQ==

    A reader drops the bits that do not fill a byte, so it takes more texts than the writer gives
    (`octets_sextets` is one way only). -/

namespace StarkBallot.Schemes.Base64

/-! ### Digits -/

/-- The digits of bytes. -/
def sextets : List UInt8 → List ℕ
  | [] => []
  | [a] => [a.toNat / 4, a.toNat % 4 * 16]
  | [a, b] => [a.toNat / 4, a.toNat % 4 * 16 + b.toNat / 16, b.toNat % 16 * 4]
  | a :: b :: c :: rest =>
    a.toNat / 4 :: (a.toNat % 4 * 16 + b.toNat / 16) :: (b.toNat % 16 * 4 + c.toNat / 64) ::
      c.toNat % 64 :: sextets rest

/-- The bytes that digits fill. -/
def octets : List ℕ → List UInt8
  | p :: q :: r :: s :: rest =>
    UInt8.ofNat (p * 4 + q / 16) :: UInt8.ofNat (q % 16 * 16 + r / 4) ::
      UInt8.ofNat (r % 4 * 64 + s) :: octets rest
  | [p, q, r] => [UInt8.ofNat (p * 4 + q / 16), UInt8.ofNat (q % 16 * 16 + r / 4)]
  | [p, q] => [UInt8.ofNat (p * 4 + q / 16)]
  | _ => []

theorem ofNat_of_eq {a : UInt8} {n : ℕ} (h : n = a.toNat) : UInt8.ofNat n = a := by
  rw [h, UInt8.ofNat_toNat]

theorem sextets_lt (bytes : List UInt8) : ∀ digit ∈ sextets bytes, digit < 64 := by
  fun_induction sextets bytes with
  | case1 => simp
  | case2 a =>
    have ha := a.toNat_lt
    simp only [List.forall_mem_cons, List.not_mem_nil, false_implies, implies_true, and_true]
    omega
  | case3 a b =>
    have ha := a.toNat_lt
    have hb := b.toNat_lt
    simp only [List.forall_mem_cons, List.not_mem_nil, false_implies, implies_true, and_true]
    omega
  | case4 a b c rest ih =>
    have ha := a.toNat_lt
    have hb := b.toNat_lt
    have hc := c.toNat_lt
    simp only [List.forall_mem_cons]
    refine ⟨?_, ?_, ?_, ?_, ih⟩ <;> omega

/-- LOSSLESS: the digits of bytes fill the bytes again. -/
theorem octets_sextets (bytes : List UInt8) : octets (sextets bytes) = bytes := by
  fun_induction sextets bytes with
  | case1 => rfl
  | case2 a =>
    have ha := a.toNat_lt
    rw [octets, ofNat_of_eq (a := a) (by omega)]
  | case3 a b =>
    have ha := a.toNat_lt
    have hb := b.toNat_lt
    rw [octets, ofNat_of_eq (a := a) (by omega), ofNat_of_eq (a := b) (by omega)]
  | case4 a b c rest ih =>
    have ha := a.toNat_lt
    have hb := b.toNat_lt
    have hc := c.toNat_lt
    rw [octets, ih, ofNat_of_eq (a := a) (by omega), ofNat_of_eq (a := b) (by omega),
      ofNat_of_eq (a := c) (by omega)]

/-! ### Alphabets -/

/-- `+` and `/` or `-` and `_` for the last two digits; a reader takes both. -/
structure Alphabet where
  plus : Char
  slash : Char
  admitted : (plus = '+' ∨ plus = '-') ∧ (slash = '/' ∨ slash = '_')

def Alphabet.standard : Alphabet := ⟨'+', '/', by decide⟩

def Alphabet.url : Alphabet := ⟨'-', '_', by decide⟩

def Alphabet.digit (alphabet : Alphabet) (n : ℕ) : Char :=
  if n < 26 then Char.ofNat (n + 65)
  else if n < 52 then Char.ofNat (n + 71)
  else if n < 62 then Char.ofNat (n - 4)
  else if n = 62 then alphabet.plus
  else alphabet.slash

def digitValue (c : Char) : Option ℕ :=
  if c.isUpper then some (c.toNat - 65)
  else if c.isLower then some (c.toNat - 71)
  else if c.isDigit then some (c.toNat + 4)
  else if c = '+' ∨ c = '-' then some 62
  else if c = '/' ∨ c = '_' then some 63
  else none

theorem digitValue_digit (alphabet : Alphabet) {n : ℕ} (h : n < 64) :
    digitValue (alphabet.digit n) = some n := by
  have hfixed : ∀ n < 62, digitValue (Alphabet.standard.digit n) = some n := by decide
  obtain ⟨hplus, hslash⟩ := alphabet.admitted
  rcases Nat.lt_or_ge n 62 with hlow | hhigh
  · have hsame : alphabet.digit n = Alphabet.standard.digit n := by
      rw [Alphabet.digit, Alphabet.digit, if_pos hlow, if_pos hlow]
    rw [hsame, hfixed n hlow]
  · obtain rfl | rfl : n = 62 ∨ n = 63 := by omega
    · have hdigit : alphabet.digit 62 = alphabet.plus := rfl
      rcases hplus with hplus | hplus <;> rw [hdigit, hplus] <;> rfl
    · have hdigit : alphabet.digit 63 = alphabet.slash := rfl
      rcases hslash with hslash | hslash <;> rw [hdigit, hslash] <;> rfl

/-! ### Texts -/

/-- The text without padding. -/
def unpadded (alphabet : Alphabet) (bytes : List UInt8) : List Char := (sextets bytes).map alphabet.digit

/-- As many as bring a text of the length to a multiple of four. -/
def padding (length : ℕ) : List Char := List.replicate ((4 - length % 4) % 4) '='

def padded (alphabet : Alphabet) (bytes : List UInt8) : List Char :=
  unpadded alphabet bytes ++ padding (unpadded alphabet bytes).length

/-- The bytes of a text: it ends at the padding, and what is not a digit is skipped. -/
def decode (text : List Char) : List UInt8 := octets ((text.takeWhile (· ≠ '=')).filterMap digitValue)

section Texts

variable (alphabet : Alphabet) (bytes : List UInt8)

theorem filterMap_digits {digits : List ℕ} (h : ∀ digit ∈ digits, digit < 64) :
    (digits.map alphabet.digit).filterMap digitValue = digits := by
  induction digits with
  | nil => rfl
  | cons digit digits ih =>
    rw [List.map_cons, List.filterMap_cons_some (digitValue_digit alphabet (h digit List.mem_cons_self)),
      ih fun d hd => h d (List.mem_cons_of_mem digit hd)]

theorem ne_padding_of_digitValue {c : Char} {n : ℕ} (h : digitValue c = some n) : c ≠ '=' := by
  rintro rfl
  cases h

theorem decode_append_padding {text : List Char} (h : ∀ c ∈ text, c ≠ '=') (count : ℕ) :
    decode (text ++ List.replicate count '=') = octets (text.filterMap digitValue) := by
  have htake : (text ++ List.replicate count '=').takeWhile (· ≠ '=') = text := by
    rw [List.takeWhile_append_of_pos fun c hc => by simpa using h c hc]
    cases count with
    | zero => simp
    | succ count => simp [List.replicate_succ]
  rw [decode, htake]

theorem ne_padding_of_mem_unpadded : ∀ c ∈ unpadded alphabet bytes, c ≠ '=' := by
  intro c hc
  obtain ⟨digit, hdigit, rfl⟩ := List.mem_map.mp hc
  exact ne_padding_of_digitValue (digitValue_digit alphabet (sextets_lt bytes digit hdigit))

/-- READ BACK: padded in any way, the text of bytes is read as the bytes. -/
theorem decode_unpadded (count : ℕ) :
    decode (unpadded alphabet bytes ++ List.replicate count '=') = bytes := by
  rw [decode_append_padding (ne_padding_of_mem_unpadded alphabet bytes), unpadded,
    filterMap_digits alphabet (sextets_lt bytes), octets_sextets]

theorem decode_padded : decode (padded alphabet bytes) = bytes := decode_unpadded alphabet bytes _

end Texts

end StarkBallot.Schemes.Base64
