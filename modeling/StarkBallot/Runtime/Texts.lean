import StarkBallot.Runtime.Js
import StarkBallot.Runtime.Rust
import StarkBallot.Schemes.Numerals

/-! Texts as the host stores them and as it hashes them. A string is a list of 16-bit units; a digest is
    taken of its UTF-8 bytes, and a unit of a pair without its partner is hashed as
    the replacement character.

        units  d83d de00 0031  ──▶  text  😀 1  ──▶  bytes  f0 9f 98 80 31
               d83d 0031       ──▶        � 1   ──▶         ef bf bd 31

    Characters determine bytes and well-formed units determine characters; other units do not. -/

namespace StarkBallot
open Schemes

/-! ### Bytes -/

section Utf8

/-- The UTF-8 bytes of a text. -/
def utf8 (s : JsString) : List UInt8 := s.flatMap String.utf8EncodeChar

@[simp] theorem utf8_nil : utf8 [] = [] := rfl

@[simp] theorem utf8_append (s s' : JsString) : utf8 (s ++ s') = utf8 s ++ utf8 s' := List.flatMap_append

theorem utf8_toByteArray (s : JsString) : (utf8 s).toByteArray = (String.ofList s).toByteArray := by
  rw [String.toByteArray_ofList]
  rfl

theorem utf8_injective : Function.Injective utf8 := by
  intro s s' h
  refine String.ofList_injective (String.toByteArray_inj.mp ?_)
  rw [← utf8_toByteArray, ← utf8_toByteArray, h]

theorem toList_loop_eq (bytes : ByteArray) (i : ℕ) (r : List UInt8) :
    ByteArray.toList.loop bytes i r = r.reverse ++ bytes.data.toList.drop i := by
  fun_induction ByteArray.toList.loop bytes i r with
  | case1 i r hlt ih =>
    have hlength : i < bytes.data.toList.length := hlt
    have hget : bytes.get! i = bytes.data.toList[i] := getElem!_pos bytes.data i hlength
    rw [ih, List.drop_eq_getElem_cons hlength, hget, List.reverse_cons, List.append_assoc,
      List.singleton_append]
  | case2 i r hge =>
    rw [List.drop_eq_nil_of_le (Nat.le_of_not_lt hge), List.append_nil]

theorem toUTF8_toList (s : JsString) : (String.ofList s).toUTF8.toList = utf8 s := by
  have hdata : (utf8 s).toByteArray.data.toList = utf8 s := List.toList_data_toByteArray
  rw [utf8_toByteArray] at hdata
  rw [String.toUTF8_eq_toByteArray, ByteArray.toList, toList_loop_eq]
  exact hdata

theorem utf8EncodeChar_of_lt {c : Char} (h : c.toNat < 128) :
    String.utf8EncodeChar c = [UInt8.ofNat c.toNat] :=
  if_pos (Nat.le_of_lt_succ h)

theorem ascii_eq_utf8 {s : String} (h : ∀ c ∈ s.toList, c.toNat < 128) : ascii s = utf8 s.toList := by
  unfold ascii utf8
  generalize s.toList = l at h
  induction l with
  | nil => rfl
  | cons c rest ih =>
    rw [List.map_cons, List.flatMap_cons, utf8EncodeChar_of_lt (h c List.mem_cons_self),
      ih fun d hd => h d (List.mem_cons_of_mem c hd)]
    rfl

end Utf8

/-! ### Numbers as texts -/

theorem toText_ofNat (n : ℕ) : (Num.ofNat n).toText.toList = decimal n := by
  have hnum : Num.toText (Num.ofNat n) = toString (n : ℤ) := by
    rw [Num.ofNat, Num.toText, Rat.num_natCast]
  rw [hnum]
  change (Nat.repr n).toList = Nat.toDigits 10 n
  rw [Nat.repr, String.toList_ofList]

theorem decimal_injective : Function.Injective decimal := by
  intro n n' h
  have hread := congrArg (fun digits => Nat.ofDigitChars 10 digits 0) h
  simpa only [decimal, Nat.ofDigitChars_ten_toDigits] using hread

theorem ascii_toText (n : ℕ) : ascii (Num.ofNat n).toText = utf8 (decimal n) := by
  rw [ascii_eq_utf8, toText_ofNat]
  intro c hc
  rw [toText_ofNat] at hc
  have hdigit := Char.isDigit_iff_toNat.mp (isDigit_of_mem_decimal c hc)
  have hnine : '9'.toNat = 57 := rfl
  omega

/-! ### Units -/

def isHighSurrogate (unit : UInt16) : Bool := 0xD800 ≤ unit && unit < 0xDC00

def isLowSurrogate (unit : UInt16) : Bool := 0xDC00 ≤ unit && unit < 0xE000

def isPair (high low : UInt16) : Bool := isHighSurrogate high && isLowSurrogate low

def pairChar (high low : UInt16) : Char :=
  Char.ofNat (0x10000 + (high.toNat - 0xD800) * 0x400 + (low.toNat - 0xDC00))

/-- A unit alone; half of a pair is replaced. -/
def unitChar (unit : UInt16) : Char :=
  if isHighSurrogate unit || isLowSurrogate unit then '\uFFFD' else Char.ofNat unit.toNat

/-- The characters that a string of units is encoded as. -/
def textOfUnits : List UInt16 → JsString
  | [] => []
  | [unit] => [unitChar unit]
  | unit :: next :: rest =>
    if isPair unit next then pairChar unit next :: textOfUnits rest
      else unitChar unit :: textOfUnits (next :: rest)

/-- `isWellFormed`: no half of a pair is alone. -/
def isWellFormed : List UInt16 → Bool
  | [] => true
  | [unit] => !(isHighSurrogate unit || isLowSurrogate unit)
  | unit :: next :: rest =>
    if isPair unit next then isWellFormed rest
    else !(isHighSurrogate unit || isLowSurrogate unit) && isWellFormed (next :: rest)

section Units

variable {high low unit : UInt16}

theorem toNat_charOfNat {n : ℕ} (h : n.isValidChar) : (Char.ofNat n).toNat = n := by
  rw [Char.ofNat, dif_pos h]
  rfl

theorem unitChar_of_single (h : (isHighSurrogate unit || isLowSurrogate unit) = false) :
    (unitChar unit).toNat = unit.toNat := by
  rw [unitChar, if_neg (by rw [h]; exact Bool.false_ne_true)]
  refine toNat_charOfNat ?_
  simp only [isHighSurrogate, isLowSurrogate, Bool.or_eq_false_iff, Bool.and_eq_false_iff,
    decide_eq_false_iff_not, UInt16.le_iff_toNat_le, UInt16.lt_iff_toNat_lt] at h
  have hlt := unit.toNat_lt
  have hlow : (0xD800 : UInt16).toNat = 0xD800 := rfl
  have hmid : (0xDC00 : UInt16).toNat = 0xDC00 := rfl
  have hhigh : (0xE000 : UInt16).toNat = 0xE000 := rfl
  unfold Nat.isValidChar
  omega

theorem bounds_of_isPair (h : isPair high low = true) :
    0xD800 ≤ high.toNat ∧ high.toNat < 0xDC00 ∧ 0xDC00 ≤ low.toNat ∧ low.toNat < 0xE000 := by
  simpa [isPair, isHighSurrogate, isLowSurrogate, UInt16.le_iff_toNat_le, UInt16.lt_iff_toNat_lt,
    and_assoc] using h

theorem pairChar_toNat (h : isPair high low = true) :
    (pairChar high low).toNat = 0x10000 + (high.toNat - 0xD800) * 0x400 + (low.toNat - 0xDC00) := by
  have hbounds := bounds_of_isPair h
  refine toNat_charOfNat ?_
  unfold Nat.isValidChar
  omega

/-- The units of one character. -/
def unitsOfChar (c : Char) : List UInt16 :=
  if c.toNat < 0x10000 then [UInt16.ofNat c.toNat]
  else
    [UInt16.ofNat (0xD800 + (c.toNat - 0x10000) / 0x400),
      UInt16.ofNat (0xDC00 + (c.toNat - 0x10000) % 0x400)]

theorem unitsOfChar_unitChar (h : (isHighSurrogate unit || isLowSurrogate unit) = false) :
    unitsOfChar (unitChar unit) = [unit] := by
  rw [unitsOfChar, unitChar_of_single h, if_pos unit.toNat_lt, UInt16.ofNat_toNat]

theorem unitsOfChar_pairChar (h : isPair high low = true) :
    unitsOfChar (pairChar high low) = [high, low] := by
  have hbounds := bounds_of_isPair h
  have hquotient : 0xD800 + ((pairChar high low).toNat - 0x10000) / 0x400 = high.toNat := by
    rw [pairChar_toNat h]
    omega
  have hrest : 0xDC00 + ((pairChar high low).toNat - 0x10000) % 0x400 = low.toNat := by
    rw [pairChar_toNat h]
    omega
  rw [unitsOfChar, hquotient, hrest, if_neg (by rw [pairChar_toNat h]; omega), UInt16.ofNat_toNat,
    UInt16.ofNat_toNat]

/-- READ BACK: without half pairs the units can be read off the text. -/
theorem flatMap_unitsOfChar {units : List UInt16} (h : isWellFormed units = true) :
    (textOfUnits units).flatMap unitsOfChar = units := by
  fun_induction textOfUnits units with
  | case1 => rfl
  | case2 unit =>
    rw [List.flatMap_singleton, unitsOfChar_unitChar ((Bool.not_eq_true' _).mp h)]
  | case3 unit next rest hpair ih =>
    rw [isWellFormed, if_pos hpair] at h
    rw [List.flatMap_cons, unitsOfChar_pairChar hpair, ih h, List.cons_append, List.singleton_append]
  | case4 unit next rest hpair ih =>
    rw [isWellFormed, if_neg hpair, Bool.and_eq_true, Bool.not_eq_true'] at h
    rw [List.flatMap_cons, unitsOfChar_unitChar h.1, ih h.2, List.singleton_append]

/-- WELL-FORMED: well-formed strings of one text are the same. -/
theorem textOfUnits_injOn : Set.InjOn textOfUnits {units | isWellFormed units = true} := by
  intro units h units' h' heq
  rw [← flatMap_unitsOfChar h, heq, flatMap_unitsOfChar h']

end Units

end StarkBallot
