import StarkBallot.Runtime.Js
import StarkBallot.Schemes.Result

/-! Values of type `unknown`, and what is left of one that is written as JSON and parsed again. A number
    that is not finite becomes `null`; `undefined` is left out of an object and becomes `null` in an
    array; a BigInt throws. The values that come back as they were are the ones that JSON has
    (`viaJson_eq_self`). -/

namespace StarkBallot
open Schemes

inductive JsValue where
  | undefined
  | null
  | boolean (value : Bool)
  | number (value : Num)
  | bigint (value : ℤ)
  | string (value : JsString)
  | array (elements : List JsValue)
  | object (fields : List (JsString × JsValue))

namespace JsValue

def isUndefined : JsValue → Bool
  | undefined => true
  | _ => false

/-- How an array shows a missing element. -/
def orNull (value : JsValue) : JsValue := if value.isUndefined then null else value

mutual

/-- `JSON.parse(JSON.stringify(value))`, with `undefined` where `stringify` gives no text. -/
def viaJson : JsValue → JsM JsValue
  | undefined => .ok undefined
  | null => .ok null
  | boolean value => .ok (boolean value)
  | number value => .ok (if value.isFinite then number value else null)
  | bigint _ => .error (.error "Do not know how to serialize a BigInt")
  | string value => .ok (string value)
  | array elements => do return array (← viaJsonElements elements)
  | object fields => do return object (← viaJsonFields fields)

def viaJsonElements : List JsValue → JsM (List JsValue)
  | [] => .ok []
  | value :: values => do
    let read ← viaJson value
    return read.orNull :: (← viaJsonElements values)

def viaJsonFields : List (JsString × JsValue) → JsM (List (JsString × JsValue))
  | [] => .ok []
  | (key, value) :: fields => do
    let read ← viaJson value
    let others ← viaJsonFields fields
    return if read.isUndefined then others else (key, read) :: others

end

mutual

/-- The values that JSON has. -/
def isJson : JsValue → Bool
  | undefined => false
  | null => true
  | boolean _ => true
  | number value => value.isFinite
  | bigint _ => false
  | string _ => true
  | array elements => areJson elements
  | object fields => areJsonFields fields

def areJson : List JsValue → Bool
  | [] => true
  | value :: values => isJson value && areJson values

def areJsonFields : List (JsString × JsValue) → Bool
  | [] => true
  | (_, value) :: fields => isJson value && areJsonFields fields

end

theorem ne_undefined_of_isJson {value : JsValue} (h : value.isJson = true) :
    value.isUndefined = false := by
  cases value <;> first | rfl | cases h

theorem orNull_of_isJson {value : JsValue} (h : value.isJson = true) : value.orNull = value := by
  rw [orNull, ne_undefined_of_isJson h]
  rfl

/-- An object never gains fields. -/
theorem viaJsonFields_length :
    ∀ {fields read : List (JsString × JsValue)}, viaJsonFields fields = .ok read →
    read.length ≤ fields.length
  | [], read, h => by
      rw [viaJsonFields] at h
      rw [← Except.ok.inj h]
  | (key, value) :: fields, read, h => by
      rw [viaJsonFields] at h
      obtain ⟨value', -, h⟩ := bind_eq_ok.mp h
      obtain ⟨others, hothers, h⟩ := bind_eq_ok.mp h
      rw [← Except.ok.inj h]
      have hlength := viaJsonFields_length hothers
      split <;> simp only [List.length_cons] <;> omega

mutual

theorem viaJson_of_isJson : ∀ {value : JsValue}, value.isJson = true → viaJson value = .ok value
  | undefined, h => by cases h
  | null, _ => rfl
  | boolean _, _ => rfl
  | number value, h => by
      rw [isJson] at h
      rw [viaJson, if_pos h]
  | bigint _, h => by cases h
  | string _, _ => rfl
  | array elements, h => by
      rw [isJson] at h
      rw [viaJson, viaJsonElements_of_areJson h]
      rfl
  | object fields, h => by
      rw [isJson] at h
      rw [viaJson, viaJsonFields_of_areJson h]
      rfl

theorem viaJsonElements_of_areJson : ∀ {values : List JsValue}, areJson values = true →
    viaJsonElements values = .ok values
  | [], _ => rfl
  | value :: values, h => by
      rw [areJson, Bool.and_eq_true] at h
      rw [viaJsonElements, viaJson_of_isJson h.1, ok_bind, viaJsonElements_of_areJson h.2,
        orNull_of_isJson h.1]
      rfl

theorem viaJsonFields_of_areJson : ∀ {fields : List (JsString × JsValue)}, areJsonFields fields = true →
    viaJsonFields fields = .ok fields
  | [], _ => rfl
  | (key, value) :: fields, h => by
      rw [areJsonFields, Bool.and_eq_true] at h
      rw [viaJsonFields, viaJson_of_isJson h.1, ok_bind, viaJsonFields_of_areJson h.2, ok_bind,
        ne_undefined_of_isJson h.1]
      rfl

end

mutual

theorem isJson_of_viaJson : ∀ {value : JsValue}, viaJson value = .ok value → value.isUndefined = false →
    value.isJson = true
  | undefined, _, h => by cases h
  | null, _, _ => rfl
  | boolean _, _, _ => rfl
  | number value, h, _ => by
      rw [viaJson] at h
      split at h
      · assumption
      · cases h
  | bigint _, h, _ => by cases h
  | string _, _, _ => rfl
  | array elements, h, _ => by
      rw [viaJson] at h
      obtain ⟨read, hread, h⟩ := bind_eq_ok.mp h
      rw [array.inj (Except.ok.inj h)] at hread
      exact areJson_of_viaJsonElements hread
  | object fields, h, _ => by
      rw [viaJson] at h
      obtain ⟨read, hread, h⟩ := bind_eq_ok.mp h
      rw [object.inj (Except.ok.inj h)] at hread
      exact areJson_of_viaJsonFields hread

theorem areJson_of_viaJsonElements : ∀ {values : List JsValue}, viaJsonElements values = .ok values →
    areJson values = true
  | [], _ => rfl
  | value :: values, h => by
      rw [viaJsonElements] at h
      obtain ⟨read, hread, h⟩ := bind_eq_ok.mp h
      obtain ⟨others, hothers, h⟩ := bind_eq_ok.mp h
      obtain ⟨hsame, hrest⟩ := List.cons.inj (Except.ok.inj h)
      rw [hrest] at hothers
      rw [areJson, areJson_of_viaJsonElements hothers, Bool.and_true]
      cases hmissing : read.isUndefined with
      | true =>
        rw [orNull, hmissing, if_pos rfl] at hsame
        rw [← hsame]
        rfl
      | false =>
        rw [orNull, hmissing, if_neg Bool.false_ne_true] at hsame
        rw [hsame] at hread hmissing
        exact isJson_of_viaJson hread hmissing

theorem areJson_of_viaJsonFields :
    ∀ {fields : List (JsString × JsValue)}, viaJsonFields fields = .ok fields →
    areJsonFields fields = true
  | [], _ => rfl
  | (key, value) :: fields, h => by
      rw [viaJsonFields] at h
      obtain ⟨read, hread, h⟩ := bind_eq_ok.mp h
      obtain ⟨others, hothers, h⟩ := bind_eq_ok.mp h
      have hsame := Except.ok.inj h
      split at hsame
      · -- a field was left out, and an object never gains one
        have hlength := viaJsonFields_length hothers
        rw [hsame, List.length_cons] at hlength
        omega
      · rename_i hkept
        obtain ⟨hfield, hrest⟩ := List.cons.inj hsame
        rw [hrest] at hothers
        rw [(Prod.mk.inj hfield).2] at hread hkept
        rw [areJsonFields, areJson_of_viaJsonFields hothers, Bool.and_true]
        exact isJson_of_viaJson hread (Bool.not_eq_true _ ▸ hkept)

end

/-- ROUND TRIP: the values that come back as they were, if anything comes back at all. -/
theorem viaJson_eq_self {value : JsValue} (h : value.isUndefined = false) :
    viaJson value = .ok value ↔ value.isJson = true :=
  ⟨fun hread => isJson_of_viaJson hread h, viaJson_of_isJson⟩

/-- A property that holds a value of type `unknown`; one that holds `undefined` is left out. -/
def fieldViaJson : Option JsValue → JsM (Option JsValue)
  | none => .ok none
  | some value => do
    let read ← viaJson value
    return if read.isUndefined then none else some read

/-- ROUND TRIP: a property comes back as it was when it is absent or holds a value that JSON has. -/
theorem fieldViaJson_eq_self {field : Option JsValue} :
    fieldViaJson field = .ok field ↔ field.all isJson = true := by
  cases field with
  | none => simp [fieldViaJson]
  | some value =>
    rw [Option.all_some]
    constructor
    · intro h
      rw [fieldViaJson] at h
      obtain ⟨read, hread, h⟩ := bind_eq_ok.mp h
      split at h
      · cases h
      · rename_i hkept
        obtain rfl := Option.some.inj (Except.ok.inj h)
        exact isJson_of_viaJson hread (Bool.not_eq_true _ ▸ hkept)
    · intro h
      rw [fieldViaJson, viaJson_of_isJson h, ok_bind, ne_undefined_of_isJson h]
      rfl

end JsValue

end StarkBallot
