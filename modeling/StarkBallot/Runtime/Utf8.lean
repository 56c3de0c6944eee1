import StarkBallot.Runtime.Texts

/-! Bytes that are read as a text (`buffer.toString('utf8')`). A reader never fails: where a character
    breaks off, a replacement character stands for its bytes and the byte that broke it is read anew.

        e2 82 ac 41  ──▶  € A        e2 82 41  ──▶  � A        c0 80  ──▶  � �

    The bounds on the byte after the first keep out halves of pairs, longer spellings than needed and
    what is no character. -/

namespace StarkBallot

/-- A character whose first bytes were read. -/
structure PendingChar where
  needed : ℕ
  codePoint : ℕ
  lower : ℕ
  upper : ℕ

/-- A first byte: the text it gives, and the character it begins. -/
def startChar (byte : ℕ) : JsString × Option PendingChar :=
  if byte ≤ 0x7F then ([Char.ofNat byte], none)
  else if 0xC2 ≤ byte ∧ byte ≤ 0xDF then ([], some ⟨1, byte - 0xC0, 0x80, 0xBF⟩)
  else if 0xE0 ≤ byte ∧ byte ≤ 0xEF then
    ([], some ⟨2, byte - 0xE0, if byte = 0xE0 then 0xA0 else 0x80, if byte = 0xED then 0x9F else 0xBF⟩)
  else if 0xF0 ≤ byte ∧ byte ≤ 0xF4 then
    ([], some ⟨3, byte - 0xF0, if byte = 0xF0 then 0x90 else 0x80, if byte = 0xF4 then 0x8F else 0xBF⟩)
  else (['\uFFFD'], none)

/-- The text that the next byte gives, and the character that is open after it. -/
def decodeByte : Option PendingChar → ℕ → JsString × Option PendingChar
  | none, byte => startChar byte
  | some pending, byte =>
    if pending.lower ≤ byte ∧ byte ≤ pending.upper then
      if pending.needed = 1 then ([Char.ofNat (pending.codePoint * 0x40 + (byte - 0x80))], none)
      else ([], some ⟨pending.needed - 1, pending.codePoint * 0x40 + (byte - 0x80), 0x80, 0xBF⟩)
    else ('\uFFFD' :: (startChar byte).1, (startChar byte).2)

def decodeFrom : Option PendingChar → List UInt8 → JsString
  | none, [] => []
  | some _, [] => ['\uFFFD']
  | pending, byte :: bytes =>
    (decodeByte pending byte.toNat).1 ++ decodeFrom (decodeByte pending byte.toNat).2 bytes

/-- `buffer.toString('utf8')`. -/
def utf8Text (bytes : List UInt8) : JsString := decodeFrom none bytes

section ReadBack

variable {n : ℕ} {rest : List UInt8}

theorem decodeFrom_cons (pending : Option PendingChar) (byte : UInt8) (bytes : List UInt8) :
    decodeFrom pending (byte :: bytes) =
      (decodeByte pending byte.toNat).1 ++ decodeFrom (decodeByte pending byte.toNat).2 bytes := by
  cases pending <;> rfl

theorem toNat_byteOfNat (h : n < 256) : (UInt8.ofNat n).toNat = n := by
  rw [UInt8.toNat_ofNat', Nat.mod_eq_of_lt h]

/-- A byte within the bounds that is not the last one. -/
theorem decodeFrom_next {needed codePoint lower upper : ℕ} (hbyte : n < 256) (hlower : lower ≤ n)
    (hupper : n ≤ upper) (hneeded : needed ≠ 1) :
      decodeFrom (some ⟨needed, codePoint, lower, upper⟩) (UInt8.ofNat n :: rest) =
      decodeFrom (some ⟨needed - 1, codePoint * 0x40 + (n - 0x80), 0x80, 0xBF⟩) rest := by
  rw [decodeFrom_cons, toNat_byteOfNat hbyte, decodeByte, if_pos ⟨hlower, hupper⟩, if_neg hneeded]
  rfl

/-- The last byte of a character. -/
theorem decodeFrom_last {codePoint lower upper : ℕ} (hbyte : n < 256) (hlower : lower ≤ n)
    (hupper : n ≤ upper) :
    decodeFrom (some ⟨1, codePoint, lower, upper⟩) (UInt8.ofNat n :: rest) =
      Char.ofNat (codePoint * 0x40 + (n - 0x80)) :: decodeFrom none rest := by
  rw [decodeFrom_cons, toNat_byteOfNat hbyte, decodeByte, if_pos ⟨hlower, hupper⟩, if_pos rfl]
  rfl

theorem decodeFrom_one (h : n ≤ 0x7F) :
    decodeFrom none (UInt8.ofNat n :: rest) = Char.ofNat n :: decodeFrom none rest := by
  rw [decodeFrom_cons, toNat_byteOfNat (by omega), decodeByte, startChar, if_pos h]
  rfl

theorem decodeFrom_two (hlow : 0xC2 ≤ n) (hhigh : n ≤ 0xDF) : decodeFrom none (UInt8.ofNat n :: rest) =
    decodeFrom (some ⟨1, n - 0xC0, 0x80, 0xBF⟩) rest := by
  rw [decodeFrom_cons, toNat_byteOfNat (by omega), decodeByte, startChar, if_neg (by omega),
    if_pos ⟨hlow, hhigh⟩]
  rfl

theorem decodeFrom_three (hlow : 0xE0 ≤ n) (hhigh : n ≤ 0xEF) : decodeFrom none (UInt8.ofNat n :: rest) =
    decodeFrom (some ⟨2, n - 0xE0, if n = 0xE0 then 0xA0 else 0x80, if n = 0xED then 0x9F else 0xBF⟩)
      rest := by
  rw [decodeFrom_cons, toNat_byteOfNat (by omega), decodeByte, startChar, if_neg (by omega),
    if_neg (by omega), if_pos ⟨hlow, hhigh⟩]
  rfl

theorem decodeFrom_four (hlow : 0xF0 ≤ n) (hhigh : n ≤ 0xF4) : decodeFrom none (UInt8.ofNat n :: rest) =
    decodeFrom (some ⟨3, n - 0xF0, if n = 0xF0 then 0x90 else 0x80, if n = 0xF4 then 0x8F else 0xBF⟩)
      rest := by
  rw [decodeFrom_cons, toNat_byteOfNat (by omega), decodeByte, startChar, if_neg (by omega),
    if_neg (by omega), if_neg (by omega), if_pos ⟨hlow, hhigh⟩]
  rfl

/-- A character is no half of a pair and lies below the last code point. -/
theorem toNat_char_bounds (c : Char) : c.toNat < 0xD800 ∨ 0xE000 ≤ c.toNat ∧ c.toNat < 0x110000 := by
  rcases c.valid with h | ⟨hlow, hhigh⟩
  · exact .inl h
  · exact .inr ⟨hlow, hhigh⟩

/-- STEP: the bytes of a character are read as the character, whatever follows them. -/
theorem decodeFrom_utf8EncodeChar (c : Char) :
    decodeFrom none (String.utf8EncodeChar c ++ rest) = c :: decodeFrom none rest := by
  have hbounds : c.val.toNat < 0xD800 ∨ 0xE000 ≤ c.val.toNat ∧ c.val.toNat < 0x110000 :=
    toNat_char_bounds c
  have hchar : ∀ n, n = c.val.toNat → Char.ofNat n = c := by
    rintro n rfl
    exact Char.ofNat_toNat c
  simp only [String.utf8EncodeChar]
  generalize c.val.toNat = n at hbounds hchar ⊢
  split_ifs with hone htwo hthree
  · rw [List.singleton_append, decodeFrom_one hone, hchar n rfl]
  · rw [List.cons_append, List.singleton_append, decodeFrom_two (by omega) (by omega),
      decodeFrom_last (by omega) (by omega) (by omega), hchar _ (by omega)]
  · rw [List.cons_append, List.cons_append, List.singleton_append,
      decodeFrom_three (by omega) (by omega), decodeFrom_next (by omega) (by split_ifs <;> omega)
        (by split_ifs <;> omega) (by decide),
      decodeFrom_last (by omega) (by omega) (by omega), hchar _ (by omega)]
  · rw [List.cons_append, List.cons_append, List.cons_append, List.singleton_append,
      decodeFrom_four (by omega) (by omega),
      decodeFrom_next (by omega) (by split_ifs <;> omega) (by split_ifs <;> omega) (by decide),
      decodeFrom_next (by omega) (by omega) (by omega) (by decide),
      decodeFrom_last (by omega) (by omega) (by omega), hchar _ (by omega)]

/-- READ BACK: the bytes of a text are read as the text. -/
theorem utf8Text_utf8 (s : JsString) : utf8Text (utf8 s) = s := by
  rw [utf8Text]
  induction s with
  | nil => rfl
  | cons c rest ih => rw [utf8, List.flatMap_cons, decodeFrom_utf8EncodeChar, ← utf8, ih]

example : utf8Text [0xE2, 0x82, 0x41, 0xC0, 0x80] = js "\uFFFDA\uFFFD\uFFFD" := by decide

end ReadBack

end StarkBallot
