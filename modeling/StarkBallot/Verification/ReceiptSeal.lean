import StarkBallot.Runtime.Json
import StarkBallot.Runtime.Numbers
import StarkBallot.Schemes.Base64
import StarkBallot.Schemes.Result

/-! The seal of a composite receipt as text (`verification/src/verification/receipt-normalizer.ts`). The
    words may lie in arrays of arrays. They are collected with a stack: the last value is taken off, an
    array puts its elements back, a number goes to the result, which is turned around in the end.

        stack  [1, [2, 3], 4]  ──▶  4   [1, [2, 3]]  ──▶  [1, 2, 3]  ──▶  3  2  1        result  4 3 2 1, reversed

    An array grows the stack, so what falls in every round is the number of values and arrays on it
    (`stackWeight`). -/

namespace StarkBallot.Verification
open Schemes

/-! ### The stack -/

mutual

/-- The arrays and other values that a value consists of. -/
def weight : JsValue → ℕ
  | .array elements => stackWeight elements + 1
  | _ => 1

def stackWeight : List JsValue → ℕ
  | [] => 0
  | value :: values => weight value + stackWeight values

end

theorem stackWeight_append (values values' : List JsValue) :
    stackWeight (values ++ values') = stackWeight values + stackWeight values' := by
  induction values with
  | nil => simp [stackWeight]
  | cons value values ih => simp [stackWeight, ih, Nat.add_assoc]

theorem one_le_weight (value : JsValue) : 1 ≤ weight value := by
  cases value <;> simp [weight]

theorem eq_dropLast_append {stack : List JsValue} {value : JsValue} (h : stack.getLast? = some value) :
    stack.dropLast ++ [value] = stack := by
  obtain ⟨hne, rfl⟩ := List.mem_getLast?_eq_getLast h
  exact List.dropLast_append_getLast hne

/-- What is under the top weighs less by the weight of the top. -/
theorem stackWeight_dropLast {stack : List JsValue} {value : JsValue} (h : stack.getLast? = some value) :
    stackWeight stack.dropLast + weight value = stackWeight stack := by
  conv => rhs; rw [← eq_dropLast_append h]
  simp [stackWeight_append, stackWeight]

def unsupportedSealValue : JsError := .error "Receipt seal contains unsupported value"

-- `h` is what the measure falls by.
set_option linter.unusedVariables false in
/-- The loop of `flattenNumericArray`; the top of the stack is the end of the list. -/
def flattenStack (stack : List JsValue) (result : List Num) : JsM (List Num) :=
  match h : stack.getLast? with
  | none => .ok result.reverse
  | some (.array elements) => flattenStack (stack.dropLast ++ elements) result
  | some (.number value) => flattenStack stack.dropLast (result ++ [value])
  | some _ => .error unsupportedSealValue
termination_by stackWeight stack
decreasing_by
  · have hdrop := stackWeight_dropLast h
    rw [weight] at hdrop
    rw [stackWeight_append]
    omega
  · have hdrop := stackWeight_dropLast h
    have hone := one_le_weight (.number value)
    omega

def flattenNumericArray (source : List JsValue) : JsM (List Num) := flattenStack source []

/-! ### Texts -/

/-- A word, as it is put into the buffer. -/
def sealWordBytes (value : Num) : JsM (List UInt8) := do
  refuseIf (¬ value.isFinite) (.error "Receipt seal contains non-numeric value")
  refuseIf (¬ value.isInteger ∨ value.lt (.ofNat 0) ∨ (Num.ofNat 4294967295).lt value)
    (.error "Receipt seal words must be integers between 0 and 4294967295")
  return leBytes 4 value.toNat

def encodeSealWordsToBase64 (values : List JsValue) : JsM JsString := do
  let flattened ← flattenNumericArray values
  let buffer ← flattened.mapM sealWordBytes
  return Base64.padded .standard buffer.flatten

/-! ### The order of the leaves -/

mutual

/-- The leaves of a value from left to right. -/
def leaves : JsValue → List JsValue
  | .array elements => leavesOf elements
  | value => [value]

def leavesOf : List JsValue → List JsValue
  | [] => []
  | value :: values => leaves value ++ leavesOf values

end

def leafNumber : JsValue → JsM Num
  | .number value => .ok value
  | _ => .error unsupportedSealValue

theorem leavesOf_append (values values' : List JsValue) :
    leavesOf (values ++ values') = leavesOf values ++ leavesOf values' := by
  induction values with
  | nil => rfl
  | cons value values ih => rw [List.cons_append, leavesOf, ih, leavesOf, List.append_assoc]

/-- The leaves of a stack: those under the top, then those of the top. -/
theorem leavesOf_stack {stack : List JsValue} {value : JsValue} (h : stack.getLast? = some value) :
    leavesOf stack = leavesOf stack.dropLast ++ leaves value := by
  conv => lhs; rw [← eq_dropLast_append h]
  rw [leavesOf_append, leavesOf, leavesOf, List.append_nil]

theorem leaves_of_not_array {value : JsValue} (h : ∀ elements, value ≠ .array elements) :
    leaves value = [value] := by
  cases value with
  | array elements => exact absurd rfl (h elements)
  | _ => rfl

/-- Whichever leaf is met first, the error is the same. -/
theorem mapM_leafNumber_cases (values : List JsValue) :
    (∃ numbers, values.mapM leafNumber = .ok numbers) ∨
    values.mapM leafNumber = .error unsupportedSealValue := by
  induction values with
  | nil => exact .inl ⟨[], rfl⟩
  | cons value values ih =>
    rw [List.mapM_cons]
    rcases ih with ⟨numbers, hnumbers⟩ | herror
    · cases value with
      | number value => exact .inl ⟨value :: numbers, by rw [hnumbers]; rfl⟩
      | _ => exact .inr rfl
    · cases value with
      | number value =>
        right
        rw [herror]
        rfl
      | _ => exact .inr rfl

/-- LOOP: the numbers of the leaves on the stack come before those that were taken
    already, whose order is turned. -/
theorem flattenStack_spec (stack : List JsValue) (result : List Num) :
    flattenStack stack result = (do return (← (leavesOf stack).mapM leafNumber) ++ result.reverse) := by
  fun_induction flattenStack stack result with
  | case1 stack result h =>
    obtain rfl := List.getLast?_eq_none_iff.mp h
    rfl
  | case2 stack result elements h ih =>
    rw [ih, leavesOf_append, leavesOf_stack h, leaves]
  | case3 stack result value h ih =>
    rw [ih, leavesOf_stack h, leaves_of_not_array (by simp), List.mapM_append, List.reverse_append]
    rcases mapM_leafNumber_cases (leavesOf stack.dropLast) with ⟨numbers, hnumbers⟩ | herror
    · rw [hnumbers]
      simp [leafNumber, pure, Except.pure]
    · rw [herror]
      rfl
  | case4 stack result value harray hnumber h =>
    rw [leavesOf_stack h, leaves_of_not_array harray, List.mapM_append]
    have hleaf : leafNumber value = .error unsupportedSealValue := by
      cases value with
      | number value => exact absurd rfl (hnumber value)
      | _ => rfl
    rcases mapM_leafNumber_cases (leavesOf stack.dropLast) with ⟨numbers, hnumbers⟩ | herror
    · rw [hnumbers, List.mapM_cons, hleaf]
      rfl
    · rw [herror]
      rfl

/-- ORDER: with the stack, the numbers come in the order of the leaves. -/
theorem flattenNumericArray_eq (source : List JsValue) :
    flattenNumericArray source = (leavesOf source).mapM leafNumber := by
  rw [flattenNumericArray, flattenStack_spec]
  simp

/-! ### The text of the words -/

/-- A leaf that is a word. -/
def wordLeaf (word : UInt32) : JsValue := .number (.ofNat word.toNat)

theorem sealWordBytes_ofNat (word : UInt32) :
    sealWordBytes (.ofNat word.toNat) = .ok (leBytes 4 word.toNat) := by
  have hlt := word.toNat_lt
  rw [sealWordBytes, refuseIf_of_not (by simp), ok_bind, refuseIf_of_not, ok_bind, Num.ofNat_toNat]
  · rfl
  · simp only [Num.ofNat_isInteger, Num.ofNat_lt, decide_eq_true_eq, not_true_eq_false, false_or]
    omega

/-- A number that is put into the buffer is a word. -/
theorem word_of_sealWordBytes {value : Num} {bytes : List UInt8} (h : sealWordBytes value = .ok bytes) :
    ∃ word : UInt32, value = .ofNat word.toNat := by
  obtain ⟨_, -, h⟩ := bind_eq_ok.mp h
  obtain ⟨_, hword, -⟩ := bind_eq_ok.mp h
  simp only [refuseIf_eq_ok, not_or, Bool.not_eq_true, Bool.not_eq_false] at hword
  obtain ⟨hinteger, hneg, hmax⟩ := hword
  have hvalue := Num.eq_ofNat_toNat hinteger hneg
  rw [hvalue, Num.ofNat_lt, decide_eq_false_iff_not, not_lt] at hmax
  refine ⟨UInt32.ofNat value.toNat, ?_⟩
  rw [UInt32.toNat_ofNat', Nat.mod_eq_of_lt (Nat.lt_succ_of_le hmax)]
  exact hvalue

theorem mapM_wordLeaf (words : List UInt32) :
    (words.map wordLeaf).mapM leafNumber = .ok (words.map fun word => .ofNat word.toNat) := by
  induction words with
  | nil => rfl
  | cons word words ih =>
    rw [List.map_cons, List.mapM_cons, ih]
    rfl

theorem mapM_sealWordBytes (words : List UInt32) :
    (words.map fun word => Num.ofNat word.toNat).mapM sealWordBytes =
    .ok (words.map fun word => leBytes 4 word.toNat) := by
  induction words with
  | nil => rfl
  | cons word words ih =>
    rw [List.map_cons, List.mapM_cons, sealWordBytes_ofNat, ok_bind, ih]
    rfl

/-- A seal that gets a text consists of words. -/
theorem wordLeaf_of_encode {values : List JsValue} {text : JsString}
    (h : encodeSealWordsToBase64 values = .ok text) :
    ∀ leaf ∈ leavesOf values, ∃ word, leaf = wordLeaf word := by
  obtain ⟨numbers, hnumbers, h⟩ := bind_eq_ok.mp h
  obtain ⟨buffer, hbuffer, -⟩ := bind_eq_ok.mp h
  rw [flattenNumericArray_eq] at hnumbers
  have hnumbers := forall₂_of_mapM hnumbers
  have hwords := forall₂_of_mapM hbuffer
  intro leaf hleaf
  obtain ⟨number, hnumber, hread⟩ := exists_of_forall₂ hnumbers.flip leaf hleaf
  obtain ⟨bytes, -, hbytes⟩ := exists_of_forall₂ hwords.flip number hnumber
  obtain ⟨word, rfl⟩ := word_of_sealWordBytes hbytes
  refine ⟨word, ?_⟩
  cases leaf with
  | number value =>
    obtain rfl := Except.ok.inj hread
    rfl
  | _ => cases hread

/-- SEAL: words, however nested, are encoded in their order, and a seal with any other leaf throws. -/
theorem sealWords_encoded (values : List JsValue) :
    (∀ words : List UInt32, leavesOf values = words.map wordLeaf → ∃ text,
      encodeSealWordsToBase64 values = .ok text ∧ Base64.decode text = words.flatMap fun word =>
        leBytes 4 word.toNat) ∧
    ((∃ leaf ∈ leavesOf values, ∀ word, leaf ≠ wordLeaf word) →
      ∃ e, encodeSealWordsToBase64 values = .error e) := by
  constructor
  · intro words hwords
    refine ⟨_, ?_, Base64.decode_padded .standard _⟩
    rw [encodeSealWordsToBase64, flattenNumericArray_eq, hwords, mapM_wordLeaf, ok_bind,
      mapM_sealWordBytes, ok_bind, List.flatMap_def]
    rfl
  · rintro ⟨leaf, hleaf, hother⟩
    cases hencode : encodeSealWordsToBase64 values with
    | error e => exact ⟨e, rfl⟩
    | ok text =>
      obtain ⟨word, hword⟩ := wordLeaf_of_encode hencode leaf hleaf
      exact absurd hword (hother word)

def nestedSeal : List JsValue :=
  [.array [wordLeaf 1, .array [wordLeaf 258], .array []], wordLeaf 4294967295]

/-- Three words in arrays of arrays, and a leaf that is no number. -/
theorem sealWords_on_sample : (∃ text, encodeSealWordsToBase64 nestedSeal = .ok text ∧
      Base64.decode text = [1, 0, 0, 0, 2, 1, 0, 0, 255, 255, 255, 255]) ∧
    ∃ e, encodeSealWordsToBase64 [.array [wordLeaf 1], .array [.null]] = .error e :=
  ⟨(sealWords_encoded nestedSeal).1 [1, 258, 4294967295] rfl,
    (sealWords_encoded _).2 ⟨.null, by simp [leavesOf, leaves], by simp [wordLeaf]⟩⟩

end StarkBallot.Verification
