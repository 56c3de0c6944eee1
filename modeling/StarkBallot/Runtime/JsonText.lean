import StarkBallot.Runtime.Doubles

/-! JSON as text (`JSON.stringify`), and how a string in it is read. The text consists of characters, a
    string in it of 16-bit units: the writer spells out control characters and halves of pairs, the
    reader takes any spelling.

        é, half a pair, a line end  ──▶  "é\\ud800\\n"  ──▶  é, half a pair, a line end

    Which spelling is used does not matter to the reader (`parseChars_quoteUnits`). -/

namespace StarkBallot
open Schemes

/-- A value that JSON has. A key may be listed more than once; the last entry counts. -/
inductive Json where
  | null
  | boolean (value : Bool)
  | number (value : Num)
  | string (units : List UInt16)
  | array (elements : List Json)
  | object (members : List (List UInt16 × Json))

/-! ### Writer -/

/-- The letter of a short escape. -/
def escapeLetter (unit : UInt16) : Option Char :=
  if unit = 8 then some 'b'
  else if unit = 9 then some 't'
  else if unit = 10 then some 'n'
  else if unit = 12 then some 'f'
  else if unit = 13 then some 'r'
  else if unit = 34 then some '"'
  else if unit = 92 then some '\\'
  else none

/-- Four lower-case digits. -/
def unicodeEscape (unit : UInt16) : JsString :=
  '\\' :: 'u' :: hexText [UInt8.ofNat (unit.toNat / 256), UInt8.ofNat (unit.toNat % 256)]

def quoteUnit (unit : UInt16) : JsString :=
  match escapeLetter unit with
  | some letter => ['\\', letter]
  | none =>
    if unit < 32 || isHighSurrogate unit || isLowSurrogate unit then unicodeEscape unit
      else [unitChar unit]

/-- The inside of a string. -/
def quoteUnits : List UInt16 → JsString
  | [] => []
  | [unit] => quoteUnit unit
  | unit :: next :: rest =>
    if isPair unit next then pairChar unit next :: quoteUnits rest
      else quoteUnit unit ++ quoteUnits (next :: rest)

def quote (units : List UInt16) : JsString := '"' :: (quoteUnits units ++ ['"'])

namespace Json

mutual

/-- `JSON.stringify(value)`. -/
def stringify : Json → JsString
  | null => js "null"
  | boolean value => if value then js "true" else js "false"
  | number value => if value.isFinite then numberText value else js "null"
  | string units => quote units
  | array elements => '[' :: (stringifyElements elements ++ [']'])
  | object members => '{' :: (stringifyMembers members ++ ['}'])

def stringifyElements : List Json → JsString
  | [] => []
  | [value] => stringify value
  | value :: next :: values => stringify value ++ ',' :: stringifyElements (next :: values)

def stringifyMembers : List (List UInt16 × Json) → JsString
  | [] => []
  | [(key, value)] => quote key ++ ':' :: stringify value
  | (key, value) :: next :: members =>
    quote key ++ ':' :: (stringify value ++ ',' :: stringifyMembers (next :: members))

end

end Json

/-! ### Reader of strings -/

/-- What an escape of one letter stands for. -/
def escapedUnit (letter : Char) : Option UInt16 :=
  if letter = 'b' then some 8
  else if letter = 't' then some 9
  else if letter = 'n' then some 10
  else if letter = 'f' then some 12
  else if letter = 'r' then some 13
  else if letter = '"' then some 34
  else if letter = '\\' then some 92
  else if letter = '/' then some 47
  else none

/-- Four digits, in either case. -/
def unicodeUnit (a b c d : Char) : Option UInt16 :=
  if [a, b, c, d].all fun digit => isHexDigit digit.toLower then
    some (UInt16.ofNat (((hexValue a * 16 + hexValue b) * 16 + hexValue c) * 16 + hexValue d))
  else none

/-- The rest of a string after its first quote. -/
def parseChars : JsString → Option (List UInt16 × JsString)
  | [] => none
  | '"' :: text => some ([], text)
  | '\\' :: 'u' :: a :: b :: c :: d :: text => do
    let unit ← unicodeUnit a b c d
    let (units, text) ← parseChars text
    some (unit :: units, text)
  | '\\' :: letter :: text => do
    let unit ← escapedUnit letter
    let (units, text) ← parseChars text
    some (unit :: units, text)
  | c :: text => do
    if c = '\\' ∨ c.toNat < 32 then none
    else
      let (units, text) ← parseChars text
      some (unitsOfChar c ++ units, text)

section Chars

variable {unit : UInt16} {c letter : Char} {text : JsString}

-- its equations are made here, once for all the lemmas that rewrite with them
attribute [local simp] parseChars

theorem parseChars_unicode (a b d : Char) : parseChars ('\\' :: 'u' :: a :: b :: c :: d :: text) =
    (do
      let unit ← unicodeUnit a b c d
      let (units, text) ← parseChars text
      some (unit :: units, text)) := by
  rw [parseChars]

theorem parseChars_escape (h : escapedUnit letter = some unit) : parseChars ('\\' :: letter :: text) =
    (do let (units, text) ← parseChars text; some (unit :: units, text)) := by
  have hletter : letter ≠ 'u' := by
    rintro rfl
    cases h
  rw [parseChars]
  · rw [h]
    rfl
  · intro a b c d text hu
    exact absurd hu hletter

theorem parseChars_char (hquote : c ≠ '"') (hescape : c ≠ '\\') (hcontrol : 32 ≤ c.toNat) :
    parseChars (c :: text) =
      (do let (units, text) ← parseChars text; some (unitsOfChar c ++ units, text)) := by
  rw [parseChars]
  · rw [if_neg]
    rintro (h | h)
    · exact hescape h
    · omega
  · exact hquote
  · intro a b c d text h
    exact absurd h hescape
  · intro letter text h
    exact absurd h hescape

theorem escapedUnit_of_escapeLetter (h : escapeLetter unit = some letter) :
    escapedUnit letter = some unit := by
  unfold escapeLetter at h
  split_ifs at h <;> (obtain rfl := Option.some.inj h; subst unit; rfl)

theorem unicodeUnit_hexDigits (unit : UInt16) :
    unicodeUnit (hexDigit (unit.toNat / 256 / 16)) (hexDigit (unit.toNat / 256 % 16))
      (hexDigit (unit.toNat % 256 / 16)) (hexDigit (unit.toNat % 256 % 16)) = some unit := by
  have hlt := unit.toNat_lt
  have hall (a b c d : ℕ) : ([hexDigit a, hexDigit b, hexDigit c, hexDigit d].all fun digit =>
      isHexDigit digit.toLower) = true := by
    simp [toLower_hexDigit, isHexDigit_hexDigit]
  rw [unicodeUnit, if_pos (hall _ _ _ _), hexValue_hexDigit _ (by omega), hexValue_hexDigit _ (by omega),
    hexValue_hexDigit _ (by omega), hexValue_hexDigit _ (by omega)]
  have hvalue :
      ((unit.toNat / 256 / 16 * 16 + unit.toNat / 256 % 16) * 16 + unit.toNat % 256 / 16) * 16 +
      unit.toNat % 256 % 16 = unit.toNat := by omega
  rw [hvalue, UInt16.ofNat_toNat]

theorem parseChars_unicodeEscape (unit : UInt16) (text : JsString) :
    parseChars (unicodeEscape unit ++ text) =
    (do let (units, text) ← parseChars text; some (unit :: units, text)) := by
  have hlt := unit.toNat_lt
  have hhigh : (UInt8.ofNat (unit.toNat / 256)).toNat = unit.toNat / 256 := by
    rw [UInt8.toNat_ofNat', Nat.mod_eq_of_lt (by omega)]
  have hlow : (UInt8.ofNat (unit.toNat % 256)).toNat = unit.toNat % 256 := by
    rw [UInt8.toNat_ofNat', Nat.mod_eq_of_lt (by omega)]
  simp only [unicodeEscape, hexText, List.flatMap_cons, List.flatMap_nil, hhigh, hlow, List.cons_append,
    List.nil_append, List.append_nil]
  rw [parseChars_unicode, unicodeUnit_hexDigits]
  rfl

/-- STEP: a unit that is written alone is read as the unit. -/
theorem parseChars_quoteUnit (unit : UInt16) (text : JsString) : parseChars (quoteUnit unit ++ text) =
    (do let (units, text) ← parseChars text; some (unit :: units, text)) := by
  unfold quoteUnit
  cases hletter : escapeLetter unit with
  | some letter => exact parseChars_escape (escapedUnit_of_escapeLetter hletter)
  | none =>
    simp only
    split_ifs with hspell
    · exact parseChars_unicodeEscape unit text
    · simp only [Bool.or_eq_true, not_or, Bool.not_eq_true, decide_eq_true_eq] at hspell
      obtain ⟨⟨hcontrol, hhigh⟩, hlow⟩ := hspell
      have hsingle : (isHighSurrogate unit || isLowSurrogate unit) = false := by rw [hhigh, hlow]; rfl
      have hcontrol : 32 ≤ unit.toNat := by
        rw [UInt16.lt_iff_toNat_lt] at hcontrol
        exact Nat.le_of_not_lt hcontrol
      have hchar : UInt16.ofNat (unitChar unit).toNat = unit := by
        rw [unitChar_of_single hsingle, UInt16.ofNat_toNat]
      have hquote : unitChar unit ≠ '"' := by
        intro h
        rw [← hchar, h] at hletter
        exact absurd hletter (by decide)
      have hescape : unitChar unit ≠ '\\' := by
        intro h
        rw [← hchar, h] at hletter
        exact absurd hletter (by decide)
      rw [List.singleton_append,
        parseChars_char hquote hescape (by rw [unitChar_of_single hsingle]; exact hcontrol),
        unitsOfChar_unitChar hsingle]
      rfl

/-- READ BACK: a string in quotes is read as the string. -/
theorem parseChars_quoteUnits (units : List UInt16) (text : JsString) :
    parseChars (quoteUnits units ++ '"' :: text) = some (units, text) := by
  fun_induction quoteUnits units with
  | case1 => rw [List.nil_append, parseChars]
  | case2 unit =>
    rw [parseChars_quoteUnit, parseChars]
    rfl
  | case3 unit next rest hpair ih =>
    have hlarge := pairChar_toNat hpair
    have hne : ∀ c : Char, c.toNat < 65536 → pairChar unit next ≠ c := by
      rintro c hc rfl
      omega
    rw [List.cons_append, parseChars_char (hne _ (by decide)) (hne _ (by decide)) (by omega), ih,
      unitsOfChar_pairChar hpair]
    rfl
  | case4 unit next rest hpair ih =>
    rw [List.append_assoc, parseChars_quoteUnit, ih]
    rfl

/-- What is left of a string is shorter. -/
theorem parseChars_shorter {text rest : JsString} {units : List UInt16}
    (h : parseChars text = some (units, rest)) :
    rest.length < text.length := by
  fun_induction parseChars text generalizing units with
  | case1 => cases h
  | case2 text =>
    obtain ⟨-, rfl⟩ := Prod.mk.inj (Option.some.inj h)
    exact Nat.lt_succ_self _
  | case3 a b c d text ih =>
    obtain ⟨unit, -, h⟩ := Option.bind_eq_some_iff.mp h
    obtain ⟨⟨inner, tail⟩, htail, h⟩ := Option.bind_eq_some_iff.mp h
    obtain ⟨-, rfl⟩ := Prod.mk.inj (Option.some.inj h)
    have hshorter := ih htail
    simp only [List.length_cons]
    omega
  | case4 letter text hunicode ih =>
    obtain ⟨unit, -, h⟩ := Option.bind_eq_some_iff.mp h
    obtain ⟨⟨inner, tail⟩, htail, h⟩ := Option.bind_eq_some_iff.mp h
    obtain ⟨-, rfl⟩ := Prod.mk.inj (Option.some.inj h)
    have hshorter := ih htail
    simp only [List.length_cons]
    omega
  | case5 => cases h
  | case6 c text _ _ _ _ ih =>
    obtain ⟨⟨inner, tail⟩, htail, h⟩ := Option.bind_eq_some_iff.mp h
    obtain ⟨-, rfl⟩ := Prod.mk.inj (Option.some.inj h)
    exact (ih htail).trans (Nat.lt_succ_self _)

end Chars

end StarkBallot
