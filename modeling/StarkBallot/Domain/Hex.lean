import StarkBallot.CryptoPrimitives.Hex

/-! Hexadecimal strings of the domain package (`domain/src/lib/utils/hex.ts`). Unlike the strict
    functions of `CryptoPrimitives`, this normalization pads: any digits up to the target length become
    the same text with leading zeros, a longer text keeps its length. Every spelling of a 32-byte value
    normalizes to its prefixed text, and normalizing again changes nothing. -/

namespace StarkBallot.Domain
open Schemes CryptoPrimitives

structure NormalizeHexOptions where
  length : ℕ := 64
  withPrefix : Bool := true
  allowEmpty : Bool := false
  allowOddLength : Bool := true

def zeroHex (length : ℕ) (withPrefix : Bool) : JsString :=
  (if withPrefix then js "0x" else []) ++ List.replicate length '0'

def padStart (s : JsString) (length : ℕ) (fill : Char) : JsString :=
  List.replicate (length - s.length) fill ++ s

/-- `[0-9a-fA-F]`. -/
def isHexLetter (c : Char) : Bool := isHexDigit c.toLower

def invalidHexValue (value : JsString) : JsError := .error ("Invalid hex value: " ++ String.ofList value)

def normalizeHex (value : JsString) (options : NormalizeHexOptions := {}) : JsM JsString :=
  let clean := withoutPrefix value
  if clean.length = 0 then
    if ¬ options.allowEmpty then .error (invalidHexValue value)
    else .ok (zeroHex options.length options.withPrefix)
  else if ¬ clean.all isHexLetter then .error (invalidHexValue value)
  else if ¬ options.allowOddLength ∧ clean.length % 2 ≠ 0 then .error (invalidHexValue value)
  else
    let padded := if clean.length ≥ options.length then clean else padStart clean options.length '0'
    .ok (if options.withPrefix then js "0x" ++ toLowerCase padded else toLowerCase padded)

/-- The value, or zero for an empty one. -/
def normalizeHexOrZero (value : JsString) : JsM JsString :=
  if value = [] then .ok (zeroHex 64 true) else normalizeHex value

/-- `{ allowEmpty: true }`. -/
def orEmpty : NormalizeHexOptions := { allowEmpty := true }

/-! ### Texts of values -/

theorem withoutPrefix_prefixed (digits : JsString) : withoutPrefix (js "0x" ++ digits) = digits := rfl

theorem withoutPrefix_of_spells {hex : JsString} {bytes : List UInt8} (h : Spells hex bytes) :
    ∃ digits, withoutPrefix hex = digits ∧ toLowerCase digits = hexText bytes := by
  obtain ⟨lead, hlead, digits, rfl, hdigits⟩ := h
  refine ⟨digits, ?_, hdigits⟩
  simp only [List.mem_cons, List.not_mem_nil, or_false] at hlead
  rcases hlead with rfl | rfl | rfl
  · exact withoutPrefix_digits hdigits
  · rfl
  · rfl

/-- Every spelling of 32 bytes normalizes to the prefixed text. -/
theorem normalizeHex_of_spelling {hex : JsString} {b : Bytes 32} (h : Spells hex b.toList)
    (allowEmpty allowOddLength : Bool) :
    normalizeHex hex { allowEmpty := allowEmpty, allowOddLength := allowOddLength } =
      .ok (prefixed b) := by
  obtain ⟨digits, hdigits, hlower⟩ := withoutPrefix_of_spells h
  have hlen : digits.length = 64 := by
    have hcount := congrArg List.length hlower
    rwa [toLowerCase, List.length_map, hexText_length, b.length_eq] at hcount
  have hall : digits.all isHexLetter = true := by
    rw [List.all_eq_true]
    intro c hc
    exact hexText_isHexDigit b.toList c.toLower (hlower ▸ List.mem_map_of_mem hc)
  simp only [normalizeHex, hdigits, hlen, hall]
  simp [hlower, prefixed, text]

theorem normalizeHex_of_spells {hex : JsString} {b : Bytes 32} (h : Spells hex b.toList)
    (allowEmpty : Bool) :
    normalizeHex hex { allowEmpty := allowEmpty } = .ok (prefixed b) :=
  normalizeHex_of_spelling h allowEmpty true

theorem normalizeHex_text (b : Bytes 32) (allowEmpty : Bool) :
    normalizeHex (text b) { allowEmpty := allowEmpty } = .ok (prefixed b) :=
  normalizeHex_of_spells (text_spells b) allowEmpty

theorem normalizeHex_prefixed (b : Bytes 32) (allowEmpty : Bool) :
    normalizeHex (prefixed b) { allowEmpty := allowEmpty } = .ok (prefixed b) :=
  normalizeHex_of_spells (prefixed_spells b.toList) allowEmpty

/-! ### Normalizing again -/

/-- A prefix and at least 64 lower-case digits. -/
def Normal (hex : JsString) : Prop :=
  ∃ digits, hex = js "0x" ++ digits ∧ 64 ≤ digits.length ∧ ∀ c ∈ digits, isHexDigit c

theorem isHexDigit_toLower {c : Char} (h : isHexDigit c = true) : c.toLower = c := by
  obtain ⟨n, -, rfl⟩ := exists_hexDigit h
  exact toLower_hexDigit n

theorem normal_zeroHex : Normal (zeroHex 64 true) := by
  refine ⟨List.replicate 64 '0', rfl, by simp, ?_⟩
  intro c hc
  rw [List.eq_of_mem_replicate hc]
  decide

theorem normal_of_normalizeHex {value hex : JsString} {allowEmpty : Bool}
    (h : normalizeHex value { allowEmpty := allowEmpty } = .ok hex) : Normal hex := by
  unfold normalizeHex at h
  simp only at h
  split at h
  · split at h
    · cases h
    · rw [← Except.ok.inj h]
      exact normal_zeroHex
  split at h
  · cases h
  rename_i hletters
  simp only [List.all_eq_true, not_not] at hletters
  split at h
  · cases h
  rw [← Except.ok.inj h]
  refine ⟨_, rfl, ?_, ?_⟩
  · simp only [toLowerCase, List.length_map]
    split
    · assumption
    · simp only [padStart, List.length_append, List.length_replicate]
      omega
  · intro c hc
    obtain ⟨d, hd, rfl⟩ := List.mem_map.mp hc
    split at hd
    · exact hletters d hd
    · rcases List.mem_append.mp hd with hd | hd
      · rw [List.eq_of_mem_replicate hd]
        decide
      · exact hletters d hd

/-- What is normal stays as it is. -/
theorem normalizeHex_of_normal {hex : JsString} (h : Normal hex) (allowEmpty : Bool) :
    normalizeHex hex { allowEmpty := allowEmpty } = .ok hex := by
  obtain ⟨digits, rfl, hlen, hdigits⟩ := h
  have hlower : toLowerCase digits = digits :=
    (List.map_congr_left fun c hc => isHexDigit_toLower (hdigits c hc)).trans (List.map_id digits)
  have hletters : digits.all isHexLetter = true := by
    rw [List.all_eq_true]
    intro c hc
    rw [isHexLetter, isHexDigit_toLower (hdigits c hc)]
    exact hdigits c hc
  have hne : digits.length ≠ 0 := by omega
  simp only [normalizeHex, withoutPrefix_prefixed, if_neg hne, hletters]
  simp [hlen, hlower]

end StarkBallot.Domain
