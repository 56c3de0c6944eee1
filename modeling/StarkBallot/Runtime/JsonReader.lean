import StarkBallot.Runtime.JsonText
import StarkBallot.Schemes.Result

/-! JSON that is read (`JSON.parse`): scalars, arrays and objects, with blanks between them and nothing
    but blanks after the value.

        {"a":[1,2.50e1]}  ──▶  object [a ↦ array [1, 25]]        {"a":01}  ──▶  no value        1 2  ──▶  no value

    A value is read with fuel for the arrays and objects it is nested in. Fuel beyond the length of the
    text changes nothing (`parseValue_enough`), so a text is read with one more than its length. -/

namespace StarkBallot
open Schemes

/-! ### Numbers -/

/-- Some digits, and what follows them. -/
def parseDigits (text : JsString) : Option (JsString × JsString) :=
  if text.takeWhile Char.isDigit = [] then none
    else some (text.takeWhile Char.isDigit, text.dropWhile Char.isDigit)

/-- No zero stands in front of other digits. -/
def parseWhole (text : JsString) : Option (JsString × JsString) := do
  let (digits, rest) ← parseDigits text
  if digits.head? = some '0' ∧ digits ≠ ['0'] then none else some (digits, rest)

def parseFraction : JsString → Option (JsString × JsString)
  | '.' :: text => parseDigits text
  | text => some ([], text)

def parseExponent : JsString → Option (ℤ × JsString)
  | [] => some (0, [])
  | c :: text =>
    if c = 'e' ∨ c = 'E' then do
      let (digits, rest) ← parseDigits (splitSign text).2
      let value : ℤ := Nat.ofDigitChars 10 digits 0
      some (if (splitSign text).1 then -value else value, rest)
    else some (0, c :: text)

/-- A minus in front. -/
def splitMinus : JsString → Bool × JsString
  | '-' :: text => (true, text)
  | text => (false, text)

def parseNumber (text : JsString) : Option (Num × JsString) := do
  let (whole, rest) ← parseWhole (splitMinus text).2
  let (fraction, rest) ← parseFraction rest
  let (exponent, rest) ← parseExponent rest
  let value := (Nat.ofDigitChars 10 (whole ++ fraction) 0 : ℚ) * powerOf 10 (exponent - fraction.length)
  some (nearest (signed (splitMinus text).1 value), rest)

/-! ### Values -/

def isJsonBlank (c : Char) : Bool := c = ' ' || c = '\t' || c = '\n' || c = '\r'

def skipBlank (text : JsString) : JsString := text.dropWhile isJsonBlank

/-- A reader takes something off the front of a text. -/
abbrev Reader (α : Type) := JsString → Option (α × JsString)

def parseScalar : Reader Json := fun text =>
  if text.take 4 = js "null" then some (.null, text.drop 4)
  else if text.take 4 = js "true" then some (.boolean true, text.drop 4)
  else if text.take 5 = js "false" then some (.boolean false, text.drop 5)
  else do
    let (value, rest) ← parseNumber text
    some (.number value, rest)

section Items

variable {α : Type}

/-- One item or more, with commas between them. -/
def parseEntries (item : Reader α) (close : Char) : ℕ → Reader (List α)
  | 0, _ => none
  | fuel + 1, text => do
    let (value, rest) ← item text
    match skipBlank rest with
    | [] => none
    | c :: rest =>
      if c = close then some ([value], rest)
      else if c = ',' then do
        let (values, rest) ← parseEntries item close fuel rest
        some (value :: values, rest)
      else none

def parseList (item : Reader α) (close : Char) : Reader (List α) := fun text =>
  match skipBlank text with
  | [] => none
  | c :: rest =>
    if c = close then some ([], rest)
    else parseEntries item close (text.length + 1) (c :: rest)

end Items

def parseMember (value : Reader Json) : Reader (List UInt16 × Json) := fun text =>
  match skipBlank text with
  | '"' :: rest => do
    let (key, rest) ← parseChars rest
    match skipBlank rest with
    | ':' :: rest => do
      let (value, rest) ← value rest
      some ((key, value), rest)
    | _ => none
  | _ => none

def parseValue : ℕ → Reader Json
  | 0, _ => none
  | fuel + 1, text =>
    match skipBlank text with
    | '"' :: rest => do
      let (units, rest) ← parseChars rest
      some (.string units, rest)
    | '[' :: rest => do
      let (elements, rest) ← parseList (parseValue fuel) ']' rest
      some (.array elements, rest)
    | '{' :: rest => do
      let (members, rest) ← parseList (parseMember (parseValue fuel)) '}' rest
      some (.object members, rest)
    | rest => parseScalar rest

/-- `JSON.parse(text)`. -/
def Json.parse (text : JsString) : Option Json := do
  let (value, rest) ← parseValue (text.length + 1) text
  if skipBlank rest = [] then some value else none

/-- `value[key]`, of a value that is an object. -/
def Json.property (key : List UInt16) : Json → Option Json
  | .object members => (members.reverse.find? fun member => member.1 = key).map Prod.snd
  | _ => none

/-! ### Fuel -/

section Fuel

variable {α : Type}

/-- What a reader leaves is shorter. -/
def Shortens (item : Reader α) : Prop :=
  ∀ ⦃text value rest⦄, item text = some (value, rest) → rest.length < text.length

theorem skipBlank_length_le (text : JsString) : (skipBlank text).length ≤ text.length :=
  (List.dropWhile_suffix _).length_le

theorem shortens_parseDigits : Shortens parseDigits := by
  intro text digits rest h
  unfold parseDigits at h
  split_ifs at h with hnone
  obtain ⟨-, rfl⟩ := Prod.mk.inj (Option.some.inj h)
  have hsplit := congrArg List.length (@List.takeWhile_append_dropWhile _ Char.isDigit text)
  have hpos := List.length_pos_iff.mpr hnone
  rw [List.length_append] at hsplit
  omega

theorem shortens_parseWhole : Shortens parseWhole := by
  intro text digits rest h
  obtain ⟨⟨digits', rest'⟩, hdigits, h⟩ := Option.bind_eq_some_iff.mp h
  simp only at h
  split_ifs at h
  obtain ⟨-, rfl⟩ := Prod.mk.inj (Option.some.inj h)
  exact shortens_parseDigits hdigits

theorem parseFraction_length_le {text digits rest : JsString}
    (h : parseFraction text = some (digits, rest)) :
    rest.length ≤ text.length := by
  unfold parseFraction at h
  split at h
  · exact (shortens_parseDigits h).le.trans (Nat.le_succ _)
  · obtain ⟨-, rfl⟩ := Prod.mk.inj (Option.some.inj h)
    exact le_refl _

theorem splitSign_length_le (text : JsString) : (splitSign text).2.length ≤ text.length := by
  unfold splitSign
  split <;> simp

theorem splitMinus_length_le (text : JsString) : (splitMinus text).2.length ≤ text.length := by
  unfold splitMinus
  split <;> simp

theorem parseExponent_length_le {text rest : JsString} {exponent : ℤ}
    (h : parseExponent text = some (exponent, rest)) :
    rest.length ≤ text.length := by
  cases text with
  | nil =>
    obtain ⟨-, rfl⟩ := Prod.mk.inj (Option.some.inj h)
    exact le_refl _
  | cons c text =>
    rw [parseExponent] at h
    by_cases hletter : c = 'e' ∨ c = 'E'
    · rw [if_pos hletter] at h
      obtain ⟨⟨digits, rest'⟩, hdigits, h⟩ := Option.bind_eq_some_iff.mp h
      obtain ⟨-, rfl⟩ := Prod.mk.inj (Option.some.inj h)
      exact (shortens_parseDigits hdigits).le.trans ((splitSign_length_le _).trans (Nat.le_succ _))
    · rw [if_neg hletter] at h
      obtain ⟨-, rfl⟩ := Prod.mk.inj (Option.some.inj h)
      exact le_refl _

theorem shortens_parseNumber : Shortens parseNumber := by
  intro text value rest h
  obtain ⟨⟨whole, rest₁⟩, hwhole, h⟩ := Option.bind_eq_some_iff.mp h
  obtain ⟨⟨fraction, rest₂⟩, hfraction, h⟩ := Option.bind_eq_some_iff.mp h
  obtain ⟨⟨exponent, rest₃⟩, hexponent, h⟩ := Option.bind_eq_some_iff.mp h
  obtain ⟨-, rfl⟩ := Prod.mk.inj (Option.some.inj h)
  have hminus := splitMinus_length_le text
  have hless := shortens_parseWhole hwhole
  have hless₁ := parseFraction_length_le hfraction
  have hless₂ := parseExponent_length_le hexponent
  omega

theorem drop_shorter {text word : JsString} {n : ℕ} (hword : text.take n = word)
    (hpos : 0 < word.length) :
    (text.drop n).length < text.length := by
  have hlength := congrArg List.length hword
  rw [List.length_take] at hlength
  rw [List.length_drop]
  omega

theorem shortens_parseScalar : Shortens parseScalar := by
  intro text value rest h
  unfold parseScalar at h
  split_ifs at h with hnull htrue hfalse
  · obtain ⟨-, rfl⟩ := Prod.mk.inj (Option.some.inj h)
    exact drop_shorter hnull (by decide)
  · obtain ⟨-, rfl⟩ := Prod.mk.inj (Option.some.inj h)
    exact drop_shorter htrue (by decide)
  · obtain ⟨-, rfl⟩ := Prod.mk.inj (Option.some.inj h)
    exact drop_shorter hfalse (by decide)
  · obtain ⟨⟨number, rest'⟩, hnumber, h⟩ := Option.bind_eq_some_iff.mp h
    obtain ⟨-, rfl⟩ := Prod.mk.inj (Option.some.inj h)
    exact shortens_parseNumber hnumber

/-- A blank text has no first character; another one is longer than what follows that character. -/
theorem lt_of_skipBlank {text rest : JsString} {c : Char} (h : skipBlank text = c :: rest) :
    rest.length < text.length := by
  have hle := skipBlank_length_le text
  rw [h, List.length_cons] at hle
  omega

theorem Shortens.items {item : Reader α} (h : Shortens item) (close : Char) (fuel : ℕ) :
    Shortens (parseEntries item close fuel) := by
  induction fuel with
  | zero =>
    intro text values rest hitems
    cases hitems
  | succ fuel ih =>
    intro text values rest hitems
    obtain ⟨⟨value, rest₁⟩, hitem, hitems⟩ := Option.bind_eq_some_iff.mp hitems
    have hless := h hitem
    simp only at hitems
    split at hitems
    · cases hitems
    · rename_i c rest₂ hskip
      have hless₂ := lt_of_skipBlank hskip
      split_ifs at hitems
      · obtain ⟨-, rfl⟩ := Prod.mk.inj (Option.some.inj hitems)
        exact hless₂.trans hless
      · obtain ⟨⟨others, rest₃⟩, hothers, hitems⟩ := Option.bind_eq_some_iff.mp hitems
        obtain ⟨-, rfl⟩ := Prod.mk.inj (Option.some.inj hitems)
        exact (ih hothers).trans (hless₂.trans hless)

theorem Shortens.list {item : Reader α} (h : Shortens item) (close : Char) :
    Shortens (parseList item close) := by
  intro text values rest hlist
  unfold parseList at hlist
  split at hlist
  · cases hlist
  · rename_i c rest₁ hskip
    split_ifs at hlist
    · obtain ⟨-, rfl⟩ := Prod.mk.inj (Option.some.inj hlist)
      exact lt_of_skipBlank hskip
    · have hless := h.items close _ hlist
      rw [← hskip] at hless
      exact hless.trans_le (skipBlank_length_le text)

theorem Shortens.member {value : Reader Json} (h : Shortens value) : Shortens (parseMember value) := by
  intro text member rest hmember
  unfold parseMember at hmember
  split at hmember
  · rename_i rest₁ hskip
    have hless₁ := lt_of_skipBlank hskip
    obtain ⟨⟨key, rest₂⟩, hkey, hmember⟩ := Option.bind_eq_some_iff.mp hmember
    have hless₂ := parseChars_shorter hkey
    simp only at hmember
    split at hmember
    · rename_i rest₃ hcolon
      have hless₃ := lt_of_skipBlank hcolon
      obtain ⟨⟨read, rest₄⟩, hread, hmember⟩ := Option.bind_eq_some_iff.mp hmember
      obtain ⟨-, rfl⟩ := Prod.mk.inj (Option.some.inj hmember)
      exact (h hread).trans (hless₃.trans (hless₂.trans hless₁))
    · cases hmember
  · cases hmember

theorem shortens_parseValue (fuel : ℕ) : Shortens (parseValue fuel) := by
  induction fuel with
  | zero =>
    intro text value rest h
    cases h
  | succ fuel ih =>
    intro text value rest h
    unfold parseValue at h
    split at h
    · rename_i rest₁ hskip
      obtain ⟨⟨units, rest₂⟩, hunits, h⟩ := Option.bind_eq_some_iff.mp h
      obtain ⟨-, rfl⟩ := Prod.mk.inj (Option.some.inj h)
      exact (parseChars_shorter hunits).trans (lt_of_skipBlank hskip)
    · rename_i rest₁ hskip
      obtain ⟨⟨elements, rest₂⟩, helements, h⟩ := Option.bind_eq_some_iff.mp h
      obtain ⟨-, rfl⟩ := Prod.mk.inj (Option.some.inj h)
      exact (ih.list _ helements).trans (lt_of_skipBlank hskip)
    · rename_i rest₁ hskip
      obtain ⟨⟨members, rest₂⟩, hmembers, h⟩ := Option.bind_eq_some_iff.mp h
      obtain ⟨-, rfl⟩ := Prod.mk.inj (Option.some.inj h)
      exact (ih.member.list _ hmembers).trans (lt_of_skipBlank hskip)
    · exact (shortens_parseScalar h).trans_le (skipBlank_length_le text)

/-- Readers that agree on the texts up to a length. -/
def AgreeUpTo (n : ℕ) (item item' : Reader α) : Prop :=
  ∀ text : JsString, text.length ≤ n → item text = item' text

theorem parseEntries_enough {item item' : Reader α} (hshortens : Shortens item') (close : Char)
    {fuel : ℕ} :
    ∀ {fuel' : ℕ} {text : JsString}, text.length < fuel → text.length < fuel' →
      AgreeUpTo text.length item item' →
      parseEntries item close fuel text = parseEntries item' close fuel' text := by
  induction fuel with
  | zero =>
    intro fuel' text h
    exact absurd h (Nat.not_lt_zero _)
  | succ fuel ih =>
    intro fuel' text h h' hagree
    obtain ⟨fuel', rfl⟩ :=
      Nat.exists_eq_succ_of_ne_zero (Nat.ne_of_gt (Nat.lt_of_le_of_lt (Nat.zero_le _) h'))
    rw [parseEntries, parseEntries, hagree text (le_refl _)]
    cases hitem : item' text with
    | none => rfl
    | some read =>
      obtain ⟨value, rest⟩ := read
      have hless := hshortens hitem
      simp only [Option.bind_eq_bind, Option.bind_some]
      split
      · rfl
      · rename_i c rest' hskip
        have hless' := lt_of_skipBlank hskip
        rw [@ih fuel' rest' (by omega) (by omega) fun t ht => hagree t (by omega)]

theorem parseList_congr {item item' : Reader α} (hshortens : Shortens item') (close : Char)
    {text : JsString} (hagree : AgreeUpTo text.length item item') :
    parseList item close text = parseList item' close text := by
  unfold parseList
  split
  · rfl
  · rename_i c rest hskip
    have hlength := skipBlank_length_le text
    rw [hskip] at hlength
    rw [@parseEntries_enough _ item item' hshortens close (text.length + 1) (text.length + 1) (c ::
      rest) (by omega) (by omega) fun t ht => hagree t (by omega)]

theorem parseMember_congr {value value' : Reader Json} {n : ℕ} (hagree : AgreeUpTo n value value') :
    AgreeUpTo n (parseMember value) (parseMember value') := by
  intro text hlength
  unfold parseMember
  split
  · rename_i rest hskip
    have hless := lt_of_skipBlank hskip
    cases hkey : parseChars rest with
    | none => rfl
    | some read =>
      obtain ⟨key, rest₂⟩ := read
      have hless₂ := parseChars_shorter hkey
      simp only [Option.bind_eq_bind, Option.bind_some]
      split
      · rename_i rest₃ hcolon
        have hless₃ := lt_of_skipBlank hcolon
        rw [hagree rest₃ (by omega)]
      · rfl
  · rfl

/-- ENOUGH: fuel beyond the length of the text changes nothing. -/
theorem parseValue_enough {fuel : ℕ} : ∀ {fuel' : ℕ} {text : JsString}, text.length < fuel →
    text.length < fuel' →
    parseValue fuel text = parseValue fuel' text := by
  induction fuel with
  | zero =>
    intro fuel' text h
    exact absurd h (Nat.not_lt_zero _)
  | succ fuel ih =>
    intro fuel' text h h'
    obtain ⟨fuel', rfl⟩ :=
      Nat.exists_eq_succ_of_ne_zero (Nat.ne_of_gt (Nat.lt_of_le_of_lt (Nat.zero_le _) h'))
    have hagree {rest : JsString} (hless : rest.length < text.length) :
        AgreeUpTo rest.length (parseValue fuel) (parseValue fuel') :=
      fun t ht => ih (by omega) (by omega)
    unfold parseValue
    split
    · rfl
    · rename_i rest hskip
      rw [parseList_congr (shortens_parseValue fuel') ']' (hagree (lt_of_skipBlank hskip))]
    · rename_i rest hskip
      rw [parseList_congr (shortens_parseValue fuel').member '}'
        (parseMember_congr (hagree (lt_of_skipBlank hskip)))]
    · rfl

end Fuel

/-! ### What was written -/

namespace Json

mutual

/-- The numbers are natural numbers that are safe integers. -/
def IsPlain : Json → Prop
  | number value => ∃ n ≤ Num.maxSafeInteger, value = .ofNat n
  | array elements => ArePlain elements
  | object members => MembersPlain members
  | _ => True

def ArePlain : List Json → Prop
  | [] => True
  | value :: values => IsPlain value ∧ ArePlain values

def MembersPlain : List (List UInt16 × Json) → Prop
  | [] => True
  | (_, value) :: members => IsPlain value ∧ MembersPlain members

end

end Json

/-- What may stand after a number. -/
def EndsNumber (rest : JsString) : Prop :=
  ∀ c ∈ rest.head?, c.isDigit = false ∧ c ≠ '.' ∧ c ≠ 'e' ∧ c ≠ 'E'

section ReadBack

variable {n : ℕ} {rest : JsString}

theorem endsNumber_cons {c : Char} (h : c = ',' ∨ c = ']' ∨ c = '}') (rest : JsString) :
    EndsNumber (c :: rest) := by
  intro d hd
  obtain rfl := Option.some.inj hd
  rcases h with rfl | rfl | rfl <;> decide

theorem exists_digit_cons (n : ℕ) : ∃ c digits, decimal n = c :: digits ∧ c.isDigit = true := by
  obtain ⟨c, digits, h⟩ := List.exists_cons_of_ne_nil (decimal_ne_nil n)
  exact ⟨c, digits, h, isDigit_of_mem_decimal c (by rw [h]; exact List.mem_cons_self)⟩

/-- Only zero has a zero in front. -/
theorem eq_zero_of_head_decimal (h : (decimal n).head? = some '0') : decimal n = ['0'] := by
  obtain ⟨c, digits, hcons, -⟩ := exists_digit_cons n
  rw [hcons, List.head?_cons, Option.some.injEq] at h
  subst h
  rcases List.eq_nil_or_concat digits with rfl | ⟨front, last, hdigits⟩
  · exact hcons
  · have hpos : 0 < digits.length := by rw [hdigits]; simp
    have hread : Nat.ofDigitChars 10 digits 0 = n := by
      have hvalue := @Nat.ofDigitChars_ten_toDigits n
      rw [← decimal, hcons, Nat.ofDigitChars_cons] at hvalue
      exact hvalue
    have hlt : n < 10 ^ digits.length := by
      rw [← hread]
      exact ofDigitChars_lt fun c hc =>
        isDigit_of_mem_decimal c (by rw [hcons]; exact List.mem_cons_of_mem _ hc)
    have hlength := (decimal_length_le hpos).mpr hlt
    rw [hcons, List.length_cons] at hlength
    omega

theorem parseDigits_append {digits : JsString} (hne : digits ≠ [])
    (hdigits : ∀ c ∈ digits, c.isDigit = true) (hrest : EndsNumber rest) :
    parseDigits (digits ++ rest) = some (digits, rest) := by
  have htake : rest.takeWhile Char.isDigit = [] := by
    cases rest with
    | nil => rfl
    | cons c rest => rw [List.takeWhile_cons, if_neg (by rw [(hrest c rfl).1]; exact Bool.false_ne_true)]
  have hdrop : rest.dropWhile Char.isDigit = rest := by
    cases rest with
    | nil => rfl
    | cons c rest => rw [List.dropWhile_cons, if_neg (by rw [(hrest c rfl).1]; exact Bool.false_ne_true)]
  rw [parseDigits, List.takeWhile_append_of_pos hdigits, List.dropWhile_append_of_pos hdigits,
    htake, hdrop, List.append_nil, if_neg hne]

theorem parseFraction_none (h : EndsNumber rest) : parseFraction rest = some ([], rest) := by
  unfold parseFraction
  split
  · exact absurd rfl (h '.' rfl).2.1
  · rfl

theorem parseExponent_none (h : EndsNumber rest) : parseExponent rest = some (0, rest) := by
  cases rest with
  | nil => rfl
  | cons c rest =>
    obtain ⟨-, -, he, hE⟩ := h c rfl
    rw [parseExponent, if_neg]
    rintro (rfl | rfl)
    · exact he rfl
    · exact hE rfl

theorem parseNumber_decimal (h : n ≤ Num.maxSafeInteger) (hrest : EndsNumber rest) :
    parseNumber (decimal n ++ rest) = some (.ofNat n, rest) := by
  have hminus : splitMinus (decimal n ++ rest) = (false, decimal n ++ rest) := by
    obtain ⟨c, digits, hcons, hdigit⟩ := exists_digit_cons n
    rw [hcons]
    unfold splitMinus
    split
    · rename_i heq
      obtain ⟨rfl, -⟩ := List.cons.inj heq
      exact absurd hdigit (by decide)
    · rfl
  have hwhole : parseWhole (decimal n ++ rest) = some (decimal n, rest) := by
    rw [parseWhole, parseDigits_append (decimal_ne_nil n) isDigit_of_mem_decimal hrest]
    exact if_neg fun hzero => hzero.2 (eq_zero_of_head_decimal hzero.1)
  have hpower : powerOf 10 ((0 : ℤ) - ([] : JsString).length) = 1 := by norm_num [powerOf]
  rw [parseNumber, hminus, hwhole]
  simp only [Option.bind_eq_bind, Option.bind_some, parseFraction_none hrest, parseExponent_none hrest,
    hpower, mul_one, signed, Bool.false_eq_true, if_false, List.append_nil]
  rw [decimal, Nat.ofDigitChars_ten_toDigits, nearest_natCast h]

theorem skipBlank_cons {c : Char} (h : isJsonBlank c = false) (text : JsString) :
    skipBlank (c :: text) = c :: text := by
  rw [skipBlank, List.dropWhile_cons, if_neg (by rw [h]; exact Bool.false_ne_true)]

theorem parseScalar_digit {c : Char} {text : JsString} (h : c.isDigit = true) : parseScalar (c :: text) =
    (do let (value, rest) ← parseNumber (c :: text); some (.number value, rest)) := by
  have hword {k : ℕ} {word : JsString} (hletter : word.head?.any Char.isDigit = false) (hpos : 0 < k) :
      (c :: text).take k ≠ word := by
    rintro rfl
    obtain ⟨k, rfl⟩ := Nat.exists_eq_succ_of_ne_zero hpos.ne'
    rw [List.take_succ_cons, List.head?_cons, Option.any_some, h] at hletter
    cases hletter
  rw [parseScalar, if_neg (hword (by decide) (by decide)), if_neg (hword (by decide) (by decide)),
    if_neg (hword (by decide) (by decide))]

theorem isJsonBlank_of_isDigit {c : Char} (h : c.isDigit = true) : isJsonBlank c = false := by
  simp only [isJsonBlank, Bool.or_eq_false_iff, decide_eq_false_iff_not]
  refine ⟨⟨⟨?_, ?_⟩, ?_⟩, ?_⟩ <;> (rintro rfl; exact absurd h (by decide))

theorem parseValue_number (h : n ≤ Num.maxSafeInteger) (hrest : EndsNumber rest) (fuel : ℕ) :
    parseValue (fuel + 1) (numberText (.ofNat n) ++ rest) = some (.number (.ofNat n), rest) := by
  have hread := parseNumber_decimal h hrest
  obtain ⟨c, digits, hcons, hdigit⟩ := exists_digit_cons n
  rw [numberText_ofNat h]
  rw [hcons, List.cons_append] at hread ⊢
  have hne : c ≠ '"' ∧ c ≠ '[' ∧ c ≠ '{' := by
    refine ⟨?_, ?_, ?_⟩ <;> (rintro rfl; exact absurd hdigit (by decide))
  rw [parseValue, skipBlank_cons (isJsonBlank_of_isDigit hdigit)]
  split
  · rename_i heq
    exact absurd (List.cons.inj heq).1 hne.1
  · rename_i heq
    exact absurd (List.cons.inj heq).1 hne.2.1
  · rename_i heq
    exact absurd (List.cons.inj heq).1 hne.2.2
  · rw [parseScalar_digit hdigit, hread]
    rfl

theorem parseValue_string (units : List UInt16) (fuel : ℕ) (rest : JsString) :
    parseValue (fuel + 1) (quote units ++ rest) = some (.string units, rest) := by
  rw [quote, List.cons_append, parseValue, skipBlank_cons (by decide)]
  simp only [List.append_assoc, List.singleton_append, parseChars_quoteUnits, Option.bind_eq_bind,
    Option.bind_some]

/-- A plain value begins with a character of its own. -/
theorem exists_cons_stringify {value : Json} (h : value.IsPlain) :
    ∃ c text, value.stringify = c :: text ∧ isJsonBlank c = false ∧ c ≠ ']' := by
  cases value with
  | null => exact ⟨'n', js "ull", rfl, by decide, by decide⟩
  | boolean value =>
    cases value
    · exact ⟨'f', js "alse", rfl, by decide, by decide⟩
    · exact ⟨'t', js "rue", rfl, by decide, by decide⟩
  | number value =>
    obtain ⟨n, hn, rfl⟩ := h
    obtain ⟨c, digits, hcons, hdigit⟩ := exists_digit_cons n
    refine ⟨c, digits, ?_, isJsonBlank_of_isDigit hdigit, ?_⟩
    · rw [Json.stringify, Num.ofNat_isFinite, if_pos rfl, numberText_ofNat hn, hcons]
    · rintro rfl
      exact absurd hdigit (by decide)
  | string units => exact ⟨'"', _, rfl, by decide, by decide⟩
  | array elements => exact ⟨'[', _, by rw [Json.stringify], by decide, by decide⟩
  | object members => exact ⟨'{', _, by rw [Json.stringify], by decide, by decide⟩

theorem exists_cons_elements {elements : List Json} (hne : elements ≠ []) (h : Json.ArePlain elements) :
    ∃ c text, Json.stringifyElements elements = c :: text ∧ isJsonBlank c = false ∧ c ≠ ']' := by
  match elements with
  | [value] =>
    obtain ⟨c, text, hcons, hc⟩ := exists_cons_stringify h.1
    exact ⟨c, text, hcons, hc⟩
  | value :: next :: values =>
    obtain ⟨c, text, hcons, hc⟩ := exists_cons_stringify h.1
    exact ⟨c, _, by rw [Json.stringifyElements, hcons, List.cons_append], hc⟩

theorem exists_cons_members {members : List (List UInt16 × Json)} (hne : members ≠ []) :
    ∃ text, Json.stringifyMembers members = '"' :: text := by
  match members with
  | [(key, value)] => exact ⟨_, by rw [Json.stringifyMembers, quote, List.cons_append]⟩
  | (key, value) :: next :: members => exact ⟨_, by rw [Json.stringifyMembers, quote, List.cons_append]⟩

/-- A list with a first item is read as its items. -/
theorem parseList_items {α : Type} {item : Reader α} {close c : Char} {text : JsString}
    (hblank : isJsonBlank c = false) (hclose : c ≠ close) :
    parseList item close (c :: text) = parseEntries item close ((c :: text).length + 1) (c :: text) := by
  rw [parseList, skipBlank_cons hblank]
  exact if_neg hclose

theorem parseMember_quote {value : Reader Json} (key : List UInt16) (text : JsString) :
    parseMember value (quote key ++ ':' :: text) =
      (do let (read, rest) ← value text; some ((key, read), rest)) := by
  rw [quote, List.cons_append, parseMember, skipBlank_cons (by decide)]
  simp only [List.append_assoc, List.singleton_append, parseChars_quoteUnits, Option.bind_eq_bind,
    Option.bind_some]
  rw [skipBlank_cons (by decide)]
  rfl

mutual

/-- READ BACK: a plain value is read from its text, whatever follows. -/
theorem parseValue_stringify : ∀ (value : Json) {fuel : ℕ} {rest : JsString}, value.IsPlain →
    (value.stringify ++ rest).length ≤ fuel → EndsNumber rest →
      parseValue (fuel + 1) (value.stringify ++ rest) = some (value, rest)
  | .null, fuel, rest, _, _, _ => rfl
  | .boolean true, fuel, rest, _, _, _ => rfl
  | .boolean false, fuel, rest, _, _, _ => rfl
  | .number value, fuel, rest, h, _, hrest => by
      obtain ⟨n, hn, rfl⟩ := h
      rw [Json.stringify, Num.ofNat_isFinite, if_pos rfl]
      exact parseValue_number hn hrest fuel
  | .string units, fuel, rest, _, _, _ => parseValue_string units fuel rest
  | .array [], fuel, rest, _, _, _ => rfl
  | .array (value :: values), fuel, rest, h, hfuel, _ => by
      obtain ⟨c, text, hcons, hblank, hclose⟩ := exists_cons_elements (List.cons_ne_nil value values) h
      have hitems :=
        @parseEntries_elements (value :: values) ((text ++ ']' :: rest).length + 1) fuel rest (by simp) h
      rw [Json.stringify, hcons] at hfuel ⊢
      rw [hcons] at hitems
      simp only [List.cons_append, List.append_assoc, List.nil_append,
        List.length_cons] at hfuel hitems ⊢
      rw [parseValue, skipBlank_cons (by decide)]
      simp only
      rw [parseList_items hblank hclose, List.length_cons, hitems (by omega) (by omega)]
      rfl
  | .object [], fuel, rest, _, _, _ => rfl
  | .object ((key, value) :: members), fuel, rest, h, hfuel, _ => by
      obtain ⟨text, hcons⟩ := exists_cons_members (List.cons_ne_nil (key, value) members)
      have hitems :=
        @parseEntries_members ((key, value) :: members)
          ((text ++ '}' :: rest).length + 1) fuel rest (by simp) h
      rw [Json.stringify, hcons] at hfuel ⊢
      rw [hcons] at hitems
      simp only [List.cons_append, List.append_assoc, List.nil_append,
        List.length_cons] at hfuel hitems ⊢
      rw [parseValue, skipBlank_cons (by decide)]
      simp only
      rw [parseList_items (by decide) (by decide), List.length_cons, hitems (by omega) (by omega)]
      rfl

theorem parseEntries_elements :
    ∀ (elements : List Json) {fuel depth : ℕ} {rest : JsString}, elements ≠ [] →
    Json.ArePlain elements → (Json.stringifyElements elements ++ ']' :: rest).length ≤ fuel →
      (Json.stringifyElements elements ++ ']' :: rest).length < depth →
        parseEntries (parseValue depth) ']' (fuel + 1) (Json.stringifyElements elements ++ ']' :: rest) =
          some (elements, rest)
  | [], fuel, depth, rest, hne, _, _, _ => absurd rfl hne
  | [value], fuel, depth, rest, _, h, hfuel, hdepth => by
      obtain ⟨depth, rfl⟩ :=
        Nat.exists_eq_succ_of_ne_zero (Nat.ne_of_gt (Nat.lt_of_le_of_lt (Nat.zero_le _) hdepth))
      rw [Json.stringifyElements] at hdepth ⊢
      rw [parseEntries, parseValue_stringify value h.1 (Nat.le_of_lt_succ hdepth)
        (endsNumber_cons (by decide) rest)]
      simp only [Option.bind_eq_bind, Option.bind_some]
      rw [skipBlank_cons (by decide)]
      exact if_pos rfl
  | value :: next :: values, fuel, depth, rest, _, h, hfuel, hdepth => by
      obtain ⟨depth, rfl⟩ :=
        Nat.exists_eq_succ_of_ne_zero (Nat.ne_of_gt (Nat.lt_of_le_of_lt (Nat.zero_le _) hdepth))
      rw [Json.stringifyElements] at hfuel hdepth ⊢
      rw [List.append_assoc, List.cons_append] at hfuel hdepth ⊢
      have hrest : (Json.stringifyElements (next :: values) ++ ']' :: rest).length < fuel := by
        rw [List.length_append, List.length_cons] at hfuel
        omega
      have hless : (Json.stringifyElements (next :: values) ++ ']' :: rest).length < depth := by
        rw [List.length_append, List.length_cons] at hdepth
        omega
      obtain ⟨fuel, rfl⟩ :=
        Nat.exists_eq_succ_of_ne_zero (Nat.ne_of_gt (Nat.lt_of_le_of_lt (Nat.zero_le _) hrest))
      rw [parseEntries, parseValue_stringify value h.1 (Nat.le_of_lt_succ hdepth)
        (endsNumber_cons (by decide) _)]
      simp only [Option.bind_eq_bind, Option.bind_some]
      rw [skipBlank_cons (by decide)]
      simp only
      rw [if_neg (by decide), if_pos trivial,
        parseEntries_elements (next :: values) (by simp) h.2 (Nat.le_of_lt_succ hrest)
          (hless.trans (Nat.lt_succ_self _))]
      rfl

theorem parseEntries_members :
    ∀ (members : List (List UInt16 × Json)) {fuel depth : ℕ} {rest : JsString}, members ≠ [] →
    Json.MembersPlain members → (Json.stringifyMembers members ++ '}' :: rest).length ≤ fuel →
      (Json.stringifyMembers members ++ '}' :: rest).length < depth →
        parseEntries (parseMember (parseValue depth)) '}' (fuel + 1)
          (Json.stringifyMembers members ++ '}' :: rest) = some (members, rest)
  | [], fuel, depth, rest, hne, _, _, _ => absurd rfl hne
  | [(key, value)], fuel, depth, rest, _, h, hfuel, hdepth => by
      obtain ⟨depth, rfl⟩ :=
        Nat.exists_eq_succ_of_ne_zero (Nat.ne_of_gt (Nat.lt_of_le_of_lt (Nat.zero_le _) hdepth))
      rw [Json.stringifyMembers] at hdepth ⊢
      rw [List.append_assoc, List.cons_append] at hdepth ⊢
      have hvalue : (value.stringify ++ '}' :: rest).length ≤ depth := by
        rw [List.length_append, List.length_cons] at hdepth
        omega
      rw [parseEntries, parseMember_quote,
        parseValue_stringify value h.1 hvalue (endsNumber_cons (by decide) rest)]
      simp only [Option.bind_eq_bind, Option.bind_some]
      rw [skipBlank_cons (by decide)]
      exact if_pos rfl
  | (key, value) :: (key', value') :: members, fuel, depth, rest, _, h, hfuel, hdepth => by
      obtain ⟨depth, rfl⟩ :=
        Nat.exists_eq_succ_of_ne_zero (Nat.ne_of_gt (Nat.lt_of_le_of_lt (Nat.zero_le _) hdepth))
      rw [Json.stringifyMembers] at hfuel hdepth ⊢
      rw [List.append_assoc, List.cons_append, List.append_assoc, List.cons_append] at hfuel hdepth ⊢
      have hvalue :
          (value.stringify ++ ',' ::
            (Json.stringifyMembers ((key', value') :: members) ++ '}' :: rest)).length ≤ depth := by
        rw [List.length_append, List.length_cons] at hdepth
        omega
      have hrest : (Json.stringifyMembers ((key', value') :: members) ++ '}' :: rest).length < fuel := by
        rw [List.length_append, List.length_cons, List.length_append, List.length_cons] at hfuel
        omega
      have hless :
          (Json.stringifyMembers ((key', value') :: members) ++ '}' :: rest).length < depth := by
        rw [List.length_append, List.length_cons] at hvalue
        omega
      obtain ⟨fuel, rfl⟩ :=
        Nat.exists_eq_succ_of_ne_zero (Nat.ne_of_gt (Nat.lt_of_le_of_lt (Nat.zero_le _) hrest))
      rw [parseEntries, parseMember_quote,
        parseValue_stringify value h.1 hvalue (endsNumber_cons (by decide) _)]
      simp only [Option.bind_eq_bind, Option.bind_some]
      rw [skipBlank_cons (by decide)]
      simp only
      rw [if_neg (by decide), if_pos trivial,
        parseEntries_members ((key', value') :: members) (by simp) h.2 (Nat.le_of_lt_succ hrest)
          (hless.trans (Nat.lt_succ_self _))]
      rfl

end

/-- READ BACK: `JSON.parse(JSON.stringify(value))` is the value. -/
theorem parse_stringify {value : Json} (h : value.IsPlain) :
    Json.parse value.stringify = some value := by
  have hread :=
    @parseValue_stringify value value.stringify.length [] h (by rw [List.append_nil])
      (by simp [EndsNumber])
  rw [List.append_nil] at hread
  rw [Json.parse, hread]
  rfl

end ReadBack

end StarkBallot
