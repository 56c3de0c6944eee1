import StarkBallot.Runtime.Js
import StarkBallot.Schemes.Result

/-! Hexadecimal strings of the TypeScript packages (`crypto-primitives/src/hex.ts`, `sha256.ts`). A byte
    string may be spelled with or without `0x` or `0X` and in either letter case (`Spells`); every
    spelling normalizes to the lower-case digits, so every spelling decodes to its bytes. -/

namespace StarkBallot.CryptoPrimitives

variable (noble : NobleUtils) (sha256 : List UInt8 → Bytes 32)

def withoutPrefix : JsString → JsString
  | '0' :: 'x' :: rest => rest
  | '0' :: 'X' :: rest => rest
  | hex => hex

def normalizeHexString (hex : JsString) : JsString :=
  if hex = [] then [] else toLowerCase (withoutPrefix hex)

def isValidHexString (hex : JsString) (expectedLength : Option ℕ) : Bool :=
  if hex = [] then false
  else if ¬ (normalizeHexString hex).all isHexDigit then false
  else expectedLength.all fun length => (normalizeHexString hex).length = length * 2

/-- Decodes once; a range error of the library is turned into the message for the malformed input. -/
def hexToBytesStrict (hex : JsString) : JsM (List UInt8) :=
  let normalized := normalizeHexString hex
  if normalized = [] then .error (.error "Invalid hex string: empty")
  else
    match noble.hexToBytes normalized with
    | .error (.rangeError message) =>
      if normalized.length % 2 ≠ 0 then .error (.error "Invalid hex string: odd length")
      else if ¬ isValidHexString normalized none then .error (.error "Invalid hex string")
      else .error (.rangeError message)
    | result => result

/-- Digest of the chunks, as text. -/
def sha256Hex (chunks : List (List UInt8)) : JsString := noble.bytesToHex (sha256 chunks.flatten).toList

/-! ### Spellings -/

theorem toLowerCase_toLowerCase (s : JsString) : toLowerCase (toLowerCase s) = toLowerCase s := by
  simp only [toLowerCase, List.map_map, Function.comp_def, toLower_toLower]

theorem toLowerCase_normalizeHexString (s : JsString) :
    toLowerCase (normalizeHexString s) = normalizeHexString s := by
  unfold normalizeHexString
  split
  · rfl
  · exact toLowerCase_toLowerCase _

/-- The string is a spelling of the bytes: an optional prefix, then the digits in either case. -/
def Spells (hex : JsString) (bytes : List UInt8) : Prop :=
  ∃ lead ∈ [js "", js "0x", js "0X"], ∃ digits, hex = lead ++ digits ∧ toLowerCase digits = hexText bytes

theorem hexText_spells (bytes : List UInt8) : Spells (hexText bytes) bytes :=
  ⟨js "", by simp, hexText bytes, rfl, toLowerCase_hexText bytes⟩

theorem prefixed_spells (bytes : List UInt8) : Spells (js "0x" ++ hexText bytes) bytes :=
  ⟨js "0x", by simp, hexText bytes, rfl, toLowerCase_hexText bytes⟩

theorem withoutPrefix_digits {digits : JsString} {bytes : List UInt8}
    (h : toLowerCase digits = hexText bytes) :
    withoutPrefix digits = digits := by
  have hdigit : ∀ c ∈ digits, isHexDigit c.toLower = true := fun c hc =>
    hexText_isHexDigit bytes _ (h ▸ List.mem_map_of_mem hc)
  unfold withoutPrefix
  split
  · exact absurd (hdigit 'x' (by simp)) (by decide)
  · exact absurd (hdigit 'X' (by simp)) (by decide)
  · rfl

/-- Every spelling normalizes to the lower-case digits. -/
theorem normalizeHexString_of_spells {hex : JsString} {bytes : List UInt8} (h : Spells hex bytes) :
    normalizeHexString hex = hexText bytes := by
  obtain ⟨lead, hlead, digits, rfl, hdigits⟩ := h
  have hnormal : ∀ hex, normalizeHexString hex = toLowerCase (withoutPrefix hex) := by
    intro hex
    unfold normalizeHexString
    split
    · rename_i hnil
      rw [hnil]
      rfl
    · rfl
  rw [hnormal]
  simp only [List.mem_cons, List.not_mem_nil, or_false] at hlead
  rcases hlead with rfl | rfl | rfl
  · exact (congrArg toLowerCase (withoutPrefix_digits hdigits)).trans hdigits
  · exact hdigits
  · exact hdigits

/-- Every spelling decodes to its bytes. -/
theorem hexToBytesStrict_of_spells {hex : JsString} {bytes : List UInt8} (h : Spells hex bytes)
    (hbytes : bytes ≠ []) : hexToBytesStrict noble hex = .ok bytes := by
  have hne : hexText bytes ≠ [] := by
    rw [← List.length_pos_iff, hexText_length]
    have := List.length_pos_iff.mpr hbytes
    omega
  rw [hexToBytesStrict, normalizeHexString_of_spells h, if_neg hne, noble.hexToBytes_eq]

theorem withoutPrefix_cases (hex : JsString) :
    ∃ lead ∈ [js "", js "0x", js "0X"], hex = lead ++ withoutPrefix hex := by
  unfold withoutPrefix
  split
  · exact ⟨js "0x", by simp, rfl⟩
  · exact ⟨js "0X", by simp, rfl⟩
  · exact ⟨js "", by simp, rfl⟩

/-! ### Fixed-length values -/

section Text

variable {n : ℕ}

/-- The canonical text of a byte array: lower-case digits, no prefix. -/
def text (b : Bytes n) : JsString := hexText b.toList

theorem text_spells (b : Bytes n) : Spells (text b) b.toList := hexText_spells b.toList

theorem text_injective : Function.Injective (text : Bytes n → JsString) := fun _ _ h =>
  Bytes.ext (hexText_injective h)

/-- The canonical text with its prefix. -/
def prefixed (b : Bytes n) : JsString := js "0x" ++ text b

theorem prefixed_injective : Function.Injective (prefixed : Bytes n → JsString) := fun _ _ h =>
  text_injective (List.append_cancel_left h)

theorem sha256Hex_eq (chunks : List (List UInt8)) :
    sha256Hex noble sha256 chunks = text (sha256 chunks.flatten) :=
  noble.bytesToHex_eq _

theorem spelling_ne_nil {hex : JsString} {b : Bytes 32} (h : Spells hex b.toList) : hex ≠ [] := by
  rintro rfl
  have hlen := congrArg List.length (normalizeHexString_of_spells h)
  rw [hexText_length, b.length_eq] at hlen
  cases hlen

theorem text_ne_nil (b : Bytes 32) : text b ≠ [] := spelling_ne_nil (text_spells b)

theorem hexToBytesStrict_spelling {hex : JsString} {b : Bytes 32} (h : Spells hex b.toList) :
    hexToBytesStrict noble hex = .ok b.toList := by
  refine hexToBytesStrict_of_spells noble h fun hnil => ?_
  have hlen := b.length_eq
  rw [hnil] at hlen
  cases hlen

theorem spells_unique {hex : JsString} {b b' : Bytes n} (h : Spells hex b.toList)
    (h' : Spells hex b'.toList) :
    b = b' :=
  text_injective ((normalizeHexString_of_spells h).symm.trans (normalizeHexString_of_spells h'))

/-- The strings are spellings of the values, one by one. -/
abbrev SpellEach (hexes : List JsString) (values : List (Bytes n)) : Prop :=
  List.Forall₂ (fun hex value => Spells hex value.toList) hexes values

theorem texts_spell (values : List (Bytes n)) : SpellEach (values.map text) values :=
  List.forall₂_map_left_iff.mpr (List.forall₂_same.mpr fun value _ => text_spells value)

theorem normalizeHexString_text (b : Bytes n) : normalizeHexString (text b) = text b :=
  normalizeHexString_of_spells (text_spells b)

theorem normalizeHexString_prefixed (b : Bytes n) : normalizeHexString (prefixed b) = text b :=
  normalizeHexString_of_spells (prefixed_spells b.toList)

/-- Every spelling passes the check. -/
theorem isValidHexString_spelling {hex : JsString} {b : Bytes 32} (h : Spells hex b.toList) :
    isValidHexString hex (some 32) = true := by
  have hdigits : (hexText b.toList).all isHexDigit = true :=
    List.all_eq_true.mpr (hexText_isHexDigit b.toList)
  have hlen : (hexText b.toList).length = 32 * 2 := by rw [hexText_length, b.length_eq]
  rw [isValidHexString, if_neg (spelling_ne_nil h), normalizeHexString_of_spells h,
    if_neg (by simp [hdigits])]
  simp [hlen]

theorem isValidHexString_text (b : Bytes 32) : isValidHexString (text b) (some 32) = true :=
  isValidHexString_spelling (text_spells b)

/-- What the check accepts is a spelling. -/
theorem isValidHexString_spells {hex : JsString} (h : isValidHexString hex (some n) = true) :
    ∃ b : Bytes n, Spells hex b.toList := by
  unfold isValidHexString at h
  split at h
  · cases h
  rename_i hne
  split at h
  · cases h
  rename_i hdigits
  simp only [Option.all_some, decide_eq_true_eq, Decidable.not_not, List.all_eq_true] at h hdigits
  obtain ⟨bytes, hbytes⟩ := exists_hexText _ hdigits (by omega)
  obtain ⟨lead, hlead, hhex⟩ := withoutPrefix_cases hex
  have hlen : bytes.length = n := by
    rw [hbytes, hexText_length] at h
    omega
  refine ⟨⟨bytes, hlen⟩, lead, hlead, withoutPrefix hex, hhex, ?_⟩
  rw [← hbytes, normalizeHexString, if_neg hne]

end Text

end StarkBallot.CryptoPrimitives
