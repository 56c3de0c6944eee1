import StarkBallot.Runtime.Js
import Mathlib.Data.List.Nodup

/-! Values with their prototypes, as `value[key]`, `value[key] = v`, `Object.hasOwn` and `Object.keys`
    see them. A key that is not an object's own is looked for along its prototypes; `__proto__` is an
    accessor there, so that writing to it sets the prototype and leaves no property behind. `JSON.parse`
    alone writes own properties of that name.

        JSON.parse('{"__proto__": {"a": 5}}')       own __proto__, prototype Object.prototype
        o["__proto__"] = {"a": 5}                   no own property, prototype {"a": 5}, o["a"] is 5

    Own properties stand in the order in which they were written. -/

namespace StarkBallot

inductive Value where
  | undefined
  | null
  | boolean (value : Bool)
  | number (value : Num)
  | string (value : JsString)
  | builtin (name : JsString)
  | objectPrototype
  | array (elements : List Value)
  | object (own : List (JsString × Value)) (proto : Value)

namespace Value

def isUndefined : Value → Bool
  | undefined => true
  | _ => false

def isNull : Value → Bool
  | null => true
  | _ => false

/-- What the setter of `__proto__` takes; it ignores everything else. -/
def isPrototype : Value → Bool
  | null | builtin _ | objectPrototype | array _ | object _ _ => true
  | _ => false

/-- `Boolean(value) && typeof value === 'object' && !Array.isArray(value)`. -/
def isPlainRecord : Value → Bool
  | objectPrototype | object _ _ => true
  | _ => false

/-! ### Properties -/

def protoKey : JsString := js "__proto__"

/-- The functions of `Object.prototype`. -/
def objectPrototypeNames : List JsString :=
  [js "constructor", js "__defineGetter__", js "__defineSetter__", js "hasOwnProperty",
    js "__lookupGetter__", js "__lookupSetter__", js "isPrototypeOf", js "propertyIsEnumerable",
    js "toString", js "valueOf", js "toLocaleString"]

/-- The functions of `Array.prototype`. -/
def arrayPrototypeNames : List JsString :=
  [js "at", js "concat", js "copyWithin", js "fill", js "find", js "findIndex", js "findLast",
    js "findLastIndex", js "lastIndexOf", js "pop", js "push", js "reverse", js "shift", js "unshift",
    js "slice", js "sort", js "splice", js "includes", js "indexOf", js "join", js "keys", js "entries",
    js "values", js "forEach", js "filter", js "flat", js "flatMap", js "map", js "every", js "some",
    js "reduce", js "reduceRight", js "toReversed", js "toSorted", js "toSpliced", js "with"]

/-- An own property of an array. -/
def elementAt (elements : List Value) (key : JsString) : Option Value :=
  if key = js "length" then some (number (.ofNat elements.length))
  else (elements.zipIdx.find? fun element => (Nat.repr element.2).toList = key).map Prod.fst

/-- A property of `Object.prototype`, read off something with the prototype `proto`. -/
def inherited (proto : Value) (key : JsString) : Value :=
  if key = protoKey then proto else if key ∈ objectPrototypeNames then builtin key else undefined

/-- The first property of the name along the prototypes. -/
def getFrom (proto : Value) (key : JsString) : Value → Value
  | object own next =>
    match own.lookup key with
    | some value => value
    | none => getFrom proto key next
  | array elements =>
    match elementAt elements key with
    | some value => value
    | none => if key ∈ arrayPrototypeNames then builtin key else inherited proto key
  | builtin _ | objectPrototype => inherited proto key
  | _ => undefined

/-- The prototype of a plain record. -/
def protoOf : Value → Value
  | object _ proto => proto
  | _ => null

/-- `record[key]`. -/
def get (record : Value) (key : JsString) : Value := getFrom record.protoOf key record

/-- `Object.hasOwn(record, key)`. -/
def hasOwn (record : Value) (key : JsString) : Bool :=
  match record with
  | object own _ => (own.lookup key).isSome
  | objectPrototype => key = protoKey ∨ key ∈ objectPrototypeNames
  | _ => false

/-- `Object.keys(record)`. -/
def keys : Value → List JsString
  | object own _ => own.map Prod.fst
  | _ => []

/-- The first `__proto__` along the prototypes is the accessor. -/
def hasProtoSetter : Value → Bool
  | object own proto => protoKey ∉ own.map Prod.fst ∧ hasProtoSetter proto
  | builtin _ | objectPrototype | array _ => true
  | _ => false

/-- `record[key] = value`. -/
def set (record : Value) (key : JsString) (value : Value) : Value :=
  match record with
  | object own proto =>
    if key = protoKey ∧ hasProtoSetter (object own proto) = true then
      object own (if value.isPrototype then value else proto)
    else object (mapSet own key value) proto
  | other => other

/-- `{}`. -/
def empty : Value := object [] objectPrototype

/-- `record[key] = value` for each entry. -/
def writeAll (record : Value) (writes : List (JsString × Value)) : Value :=
  writes.foldl (fun record entry => record.set entry.1 entry.2) record

/-! ### What `JSON.parse` returns -/

def isObjectPrototype : Value → Bool
  | objectPrototype => true
  | _ => false

mutual

def isJson : Value → Bool
  | null | boolean _ | string _ => true
  | number value => value ≠ .nan
  | array elements => areJson elements
  | object own proto => decide (own.map Prod.fst).Nodup && proto.isObjectPrototype && areJsonFields own
  | undefined | builtin _ | objectPrototype => false

def areJson : List Value → Bool
  | [] => true
  | value :: values => isJson value && areJson values

def areJsonFields : List (JsString × Value) → Bool
  | [] => true
  | (_, value) :: fields => isJson value && areJsonFields fields

end

/-- What is read off a value of JSON: such a value, nothing, or a function that every object has. -/
def isReadable : Value → Bool
  | undefined | builtin _ => true
  | value => value.isJson

/-! ### Deep equality -/

mutual

/-- The same value, however the properties are ordered. -/
def DeepEqual : Value → Value → Prop
  | array elements, other => ∃ others, other = array others ∧ DeepEqualElements elements others
  | object own proto, other =>
    ∃ others, other = object others proto ∧ others.length = own.length ∧ DeepEqualFields own others
  | value, other => other = value

def DeepEqualElements : List Value → List Value → Prop
  | [], others => others = []
  | value :: values, others =>
    ∃ first rest, others = first :: rest ∧ DeepEqual value first ∧ DeepEqualElements values rest

def DeepEqualFields : List (JsString × Value) → List (JsString × Value) → Prop
  | [], _ => True
  | (key, value) :: fields, others =>
    (∃ found, others.lookup key = some found ∧ DeepEqual value found) ∧ DeepEqualFields fields others

end

/-! ### Reading and writing -/

variable {own writes : List (JsString × Value)} {proto value : Value} {key : JsString}

theorem get_own (h : own.lookup key = some value) : (object own proto).get key = value := by
  rw [get, getFrom, h]

theorem get_inherited (h : key ∉ own.map Prod.fst) :
    (object own objectPrototype).get key = inherited objectPrototype key := by
  have hnone : own.lookup key = none := by
    rw [← Option.not_isSome_iff_eq_none, lookup_isSome_iff_mem]
    exact h
  rw [get, getFrom, hnone]
  rfl

theorem hasOwn_eq_true : (object own proto).hasOwn key = true ↔ key ∈ own.map Prod.fst :=
  lookup_isSome_iff_mem

theorem writeAll_append (record : Value) (writes more : List (JsString × Value)) :
    writeAll record (writes ++ more) = writeAll (writeAll record writes) more := List.foldl_append

/-- New keys other than `__proto__` become own properties. -/
theorem writeAll_plain (hkeys : ((own ++ writes).map Prod.fst).Nodup)
    (hproto : protoKey ∉ writes.map Prod.fst) :
    writeAll (object own proto) writes = object (own ++ writes) proto := by
  induction writes generalizing own with
  | nil => rw [List.append_nil, writeAll, List.foldl_nil]
  | cons entry writes ih =>
    rw [List.map_cons, List.mem_cons, not_or] at hproto
    have hnew : entry.1 ∉ own.map Prod.fst := by
      rw [List.map_append, List.nodup_append] at hkeys
      exact fun hmem => hkeys.2.2 entry.1 hmem entry.1 (List.mem_map_of_mem List.mem_cons_self) rfl
    have hset : (object own proto).set entry.1 entry.2 = object (own ++ [entry]) proto := by
      rw [set, if_neg (fun h => hproto.1 h.1.symm), mapSet_of_not_mem hnew]
    rw [List.append_cons] at hkeys ⊢
    rw [writeAll, List.foldl_cons, hset]
    exact ih hkeys hproto.2

/-- The prototype of a new object after the writes. -/
def protoAfter (writes : List (JsString × Value)) : Value :=
  match writes.lookup protoKey with
  | some value => if value.isPrototype then value else objectPrototype
  | none => objectPrototype

/-- WRITTEN: a new object has the keys that were written, but for `__proto__`, whose value is its
    prototype if it can be one. -/
theorem writeAll_empty (hkeys : (writes.map Prod.fst).Nodup) :
    writeAll empty writes = object (writes.filter fun entry => entry.1 ≠ protoKey)
      (protoAfter writes) := by
  by_cases hmem : protoKey ∈ writes.map Prod.fst
  · obtain ⟨⟨_, value⟩, hvalue, rfl⟩ := List.mem_map.mp hmem
    have hlookup : writes.lookup protoKey = some value := lookup_of_mem hkeys hvalue
    rw [protoAfter, hlookup]
    obtain ⟨before, after, rfl⟩ := List.append_of_mem hvalue
    rw [List.map_append, List.map_cons, List.nodup_append, List.nodup_cons] at hkeys
    obtain ⟨hbefore, ⟨hafter, hnodup⟩, hdisjoint⟩ := hkeys
    have hfirst : protoKey ∉ before.map Prod.fst := fun h => hdisjoint _ h _ List.mem_cons_self rfl
    have hkept {l : List (JsString × Value)} (h : protoKey ∉ l.map Prod.fst) :
        (l.filter fun entry => entry.1 ≠ protoKey) = l := by
      refine List.filter_eq_self.mpr fun entry hentry => decide_eq_true fun heq => h ?_
      exact List.mem_map.mpr ⟨entry, hentry, heq⟩
    have hset : (object before objectPrototype).set protoKey value =
        object before (if value.isPrototype then value else objectPrototype) := by
      have hsetter : hasProtoSetter (object before objectPrototype) = true :=
        decide_eq_true ⟨hfirst, rfl⟩
      rw [set, if_pos ⟨rfl, hsetter⟩]
    have hbefore' : writeAll empty before = object before objectPrototype :=
      writeAll_plain hbefore hfirst
    rw [writeAll_append, hbefore', writeAll, List.foldl_cons, hset, List.filter_append,
      List.filter_cons_of_neg (by simp), hkept hfirst, hkept hafter]
    refine writeAll_plain ?_ hafter
    rw [List.map_append, List.nodup_append]
    exact ⟨hbefore, hnodup, fun a ha b hb => hdisjoint a ha b (List.mem_cons_of_mem _ hb)⟩
  · have hnone : writes.lookup protoKey = none := by
      rw [← Option.not_isSome_iff_eq_none, lookup_isSome_iff_mem]
      exact hmem
    have hkept : (writes.filter fun entry => entry.1 ≠ protoKey) = writes := by
      refine List.filter_eq_self.mpr fun entry hentry => decide_eq_true fun heq => hmem ?_
      exact List.mem_map.mpr ⟨entry, hentry, heq⟩
    rw [protoAfter, hnone, hkept]
    exact writeAll_plain hkeys hmem

theorem protoAfter_eq (h : ∀ value, (protoKey, value) ∈ writes → value.isPrototype = false) :
    protoAfter writes = objectPrototype := by
  rw [protoAfter]
  cases hlookup : writes.lookup protoKey with
  | none => rfl
  | some value =>
    obtain ⟨before, after, rfl, -⟩ := List.lookup_eq_some_iff.mp hlookup
    have hvalue := h value (by simp)
    simp only [hvalue]
    rfl

/-! ### Values of JSON -/

theorem isReadable_of_isJson (h : value.isJson = true) : value.isReadable = true := by
  cases value <;> first | exact h | rfl

theorem isJson_of_field {fields : List (JsString × Value)} (h : areJsonFields fields = true)
    (hmem : (key, value) ∈ fields) : value.isJson = true := by
  induction fields with
  | nil => cases hmem
  | cons first fields ih =>
    obtain ⟨name, own⟩ := first
    rw [areJsonFields, Bool.and_eq_true] at h
    rcases List.mem_cons.mp hmem with heq | hmem
    · obtain ⟨rfl, rfl⟩ := Prod.mk.inj heq
      exact h.1
    · exact ih h.2 hmem

/-- A plain record that is read off JSON is an object with the usual prototype. -/
theorem exists_own_of_isReadable {record : Value} (h : record.isReadable = true)
    (hplain : record.isPlainRecord = true) :
    ∃ own, record = object own objectPrototype ∧ (own.map Prod.fst).Nodup ∧
    areJsonFields own = true := by
  cases record with
  | object own proto =>
    have hjson : (object own proto).isJson = true := h
    simp only [isJson, Bool.and_eq_true, decide_eq_true_eq] at hjson
    obtain ⟨⟨hkeys, hproto⟩, hfields⟩ := hjson
    refine ⟨own, ?_, hkeys, hfields⟩
    cases proto with
    | objectPrototype => rfl
    | _ => cases hproto
  | objectPrototype => cases h
  | _ => cases hplain

theorem isReadable_inherited {name : JsString} (h : name ≠ protoKey) :
    (inherited objectPrototype name).isReadable = true := by
  rw [inherited, if_neg h]
  split <;> rfl

theorem isReadable_get (hfields : areJsonFields own = true)
    (h : key ≠ protoKey ∨ key ∈ own.map Prod.fst) :
    ((object own objectPrototype).get key).isReadable = true := by
  by_cases hmem : key ∈ own.map Prod.fst
  · obtain ⟨value, hlookup⟩ := Option.isSome_iff_exists.mp (lookup_isSome_iff_mem.mpr hmem)
    obtain ⟨before, after, rfl, -⟩ := List.lookup_eq_some_iff.mp hlookup
    rw [get_own hlookup]
    exact isReadable_of_isJson
      (isJson_of_field hfields (List.mem_append_right before List.mem_cons_self))
  · rw [get_inherited hmem]
    exact isReadable_inherited (h.resolve_right hmem)

end Value

end StarkBallot
