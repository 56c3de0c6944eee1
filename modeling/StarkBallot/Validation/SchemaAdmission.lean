import StarkBallot.Schemes.Writes
import StarkBallot.Validation.Schema

/-! What the schemas of `schema.ts` let through. `Admits` says it without paths and issues: which value
    a schema makes of which, an object being the table of what its keys write.

    An object is rebuilt by plain assignment, so a key `__proto__` of the input (`JSON.parse` makes one)
    that passes through, or that a catchall takes, sets the prototype of the output. A declared key that
    is then read off the output may come from there, and nobody has checked it.

        schema      { a?: string }, passthrough
        x           { "__proto__": { "a": 5 } }
        y           { }  with y.a = 5                 y is not what the schema says, and is not admitted again -/

namespace StarkBallot.Validation
open Schemes Value

/-- A schema is built from smaller ones. -/
@[elab_as_elim]
theorem Schema.build {motive : Schema → Prop} (never : motive .never) (unknown : motive .unknown)
    (string : ∀ rules requiredError, motive (.string rules requiredError))
    (number : ∀ rules, motive (.number rules)) (boolean : motive .boolean)
    (literal : ∀ value, motive (.literal value)) (enum : ∀ values, motive (.enum values))
    (optional : ∀ inner, motive inner → motive (.optional inner))
    (nullable : ∀ inner, motive inner → motive (.nullable inner))
    (refinement : ∀ inner refine, motive inner → motive (.refinement inner refine))
    (array : ∀ item rules, motive item → motive (.array item rules))
    (tuple : ∀ items, (∀ item ∈ items, motive item) → motive (.tuple items))
    (object : ∀ shape unknownKeys catchall, (∀ entry ∈ shape, motive entry.2) → motive catchall →
      motive (.object shape unknownKeys catchall)) (schema : Schema) : motive schema :=
  @Schema.rec motive (fun items => ∀ item ∈ items, motive item)
    (fun shape => ∀ entry ∈ shape, motive entry.2)
    (fun entry => motive entry.2) never unknown string number boolean literal enum
      (fun inner h => optional inner h) (fun inner h => nullable inner h)
    (fun inner refine h => refinement inner refine h) (fun item rules h => array item rules h)
    (fun items h => tuple items h)
    (fun shape unknownKeys catchall hshape hcatchall => object shape unknownKeys catchall
      hshape hcatchall)
    (fun _ h => absurd h List.not_mem_nil)
      (fun _ _ hfirst hrest => List.forall_mem_cons.mpr ⟨hfirst, hrest⟩)
    (fun _ h => absurd h List.not_mem_nil)
      (fun _ _ hfirst hrest => List.forall_mem_cons.mpr ⟨hfirst, hrest⟩)
    (fun _ _ h => h) schema

/-! ### What is admitted -/

/-- What a declared key writes. -/
def knownTakes (x : Value) (key : JsString) (data : Value) : Option Value :=
  if !data.isUndefined || x.hasOwn key then some data else none

/-- What another key writes; `catchall` is there if the schema has one. -/
def UnknownTakes (declared : List JsString) (unknownKeys : UnknownKeyPolicy)
    (catchall : Option (Value → Value → Prop)) (x : Value) (key : JsString) (taken : Option Value) :
    Prop :=
  if key ∈ declared then taken = none
  else
    match catchall with
    | some admits => ∃ data, admits (x.get key) data ∧ taken = some data
    | none =>
      match unknownKeys with
      | .strict => False
      | .passthrough => taken = some (x.get key)
      | .strip => taken = none

section Admits

variable (language : Language)

mutual

/-- The schema makes `y` of `x`. -/
def Admits (schema : Schema) (x y : Value) : Prop :=
  match schema with
  | .never => False
  | .unknown => y = x
  | .string rules _ =>
    ∃ text, x = .string text ∧ (∀ rule ∈ rules, matchesStringRule language text rule = true) ∧ y = x
  | .number rules =>
    ∃ value, x = .number value ∧ value.isFinite = true ∧
      (∀ rule ∈ rules, matchesNumberRule value rule = true) ∧ y = x
  | .boolean => ∃ value, x = .boolean value ∧ y = x
  | .literal value => value.isSame x = true ∧ y = value.value
  | .enum values => ∃ text, x = .string text ∧ text ∈ values ∧ y = x
  | .optional inner => x.isUndefined = true ∧ y = .undefined ∨ x.isUndefined = false ∧ Admits inner x y
  | .nullable inner => x.isNull = true ∧ y = .null ∨ x.isNull = false ∧ Admits inner x y
  | .refinement inner refine => Admits inner x y ∧ refine y = []
  | .array item rules =>
    ∃ elements data, x = .array elements ∧ (∀ rule ∈ rules, matchesArrayRule elements rule = true) ∧
      List.Forall₂ (Admits item) elements data ∧ y = .array data
  | .tuple items =>
    ∃ elements data, x = .array elements ∧ AdmitsItems items elements data ∧ y = .array data
  | .object shape unknownKeys catchall =>
    x.isPlainRecord = true ∧ ∃ known others, AdmitsKnown shape x known ∧
      Written id (UnknownTakes (shape.map Prod.fst) unknownKeys
        (if catchall.isNever then none else some (Admits catchall)) x) x.keys others ∧
      y = writeAll Value.empty (known ++ others)

/-- The items of a tuple make the data of the elements, one by one. -/
def AdmitsItems (items : List Schema) (elements data : List Value) : Prop :=
  match items with
  | [] => elements = [] ∧ data = []
  | item :: items =>
    ∃ element elements' value data', elements = element :: elements' ∧ data = value :: data' ∧
    Admits item element value ∧ AdmitsItems items elements' data'

/-- What the declared keys write. -/
def AdmitsKnown (shape : List (JsString × Schema)) (x : Value) (writes : List (JsString × Value)) :
    Prop :=
  match shape with
  | [] => writes = []
  | (key, schema) :: shape => ∃ data rest, Admits schema (x.get key) data ∧ AdmitsKnown shape x rest ∧
    writes = ((knownTakes x key data).map fun data => (key, data)).toList ++ rest

end

end Admits

/-! ### The parser admits just that -/

section Parses

variable {language : Language} {schema : Schema} {x y : Value} {path : List PathPart}
  {issues : List SchemaIssue}

attribute [local simp] parseInternal Admits

theorem okUnless_eq_ok {α : Type} {data result : α} :
    okUnless issues data = .ok result ↔ issues = [] ∧ result = data := by
  rw [okUnless]
  split
  · next h => simp [h, eq_comm]
  · next h => simp [h]

theorem okUnless_eq_error {α : Type} {data : α} {found : List SchemaIssue}
    (h : okUnless issues data = .error found) :
    found ≠ [] := by
  rw [okUnless] at h
  split at h
  · cases h
  · next hne => exact Except.error.inj h ▸ hne

theorem collectRuleIssues_eq_nil {α Constraint : Type} {value : α} {rules : List (Rule Constraint)}
    {isMatch : α → Rule Constraint → Bool} :
    collectRuleIssues value rules isMatch path = [] ↔ ∀ rule ∈ rules, isMatch value rule = true := by
  simp [collectRuleIssues]

theorem fail_eq_error {message : JsString}
    (h : (fail message path : ParseResult Value) = .error issues) :
    issues ≠ [] := by
  rw [← Except.error.inj h]
  exact List.cons_ne_nil _ _

/-- FAILED: a failure has an issue. -/
theorem parseInternal_error (h : parseInternal language schema x path = .error issues) :
    issues ≠ [] := by
  induction schema using Schema.build generalizing x path issues with
  | never => exact fail_eq_error h
  | unknown => cases h
  | string rules requiredError =>
    simp only [parseInternal] at h
    split at h
    · exact fail_eq_error h
    · exact okUnless_eq_error h
    · exact fail_eq_error h
  | number rules =>
    simp only [parseInternal] at h
    split at h
    · split at h
      · exact okUnless_eq_error h
      · exact fail_eq_error h
    · exact fail_eq_error h
  | boolean =>
    simp only [parseInternal] at h
    split at h
    · cases h
    · exact fail_eq_error h
  | literal value =>
    simp only [parseInternal] at h
    split at h
    · cases h
    · exact fail_eq_error h
  | enum values =>
    simp only [parseInternal] at h
    split at h
    · split at h
      · cases h
      · exact fail_eq_error h
    · exact fail_eq_error h
  | optional inner ih =>
    simp only [parseInternal] at h
    split at h
    · cases h
    · exact ih h
  | nullable inner ih =>
    simp only [parseInternal] at h
    split at h
    · cases h
    · exact ih h
  | refinement inner refine ih =>
    simp only [parseInternal] at h
    cases hinner : parseInternal language inner x path with
    | error found =>
      rw [hinner] at h
      exact Except.error.inj h ▸ ih hinner
    | ok data =>
      rw [hinner] at h
      exact okUnless_eq_error h
  | array item rules ih =>
    simp only [parseInternal] at h
    split at h
    · exact okUnless_eq_error h
    · exact fail_eq_error h
  | tuple items ih =>
    simp only [parseInternal] at h
    split at h
    · split at h
      · exact fail_eq_error h
      · exact okUnless_eq_error h
    · exact fail_eq_error h
  | object shape unknownKeys catchall ihshape ihcatchall =>
    simp only [parseInternal] at h
    split at h
    · exact okUnless_eq_error h
    · exact fail_eq_error h

/-- What a loop has gathered, if there are no issues. -/
theorem okUnless_pair {α : Type} {parsed : α × List SchemaIssue} {f : α → Value} :
    okUnless parsed.2 (f parsed.1) = .ok y ↔ ∃ data, parsed = (data, []) ∧ y = f data := by
  obtain ⟨data, issues⟩ := parsed
  rw [okUnless_eq_ok]
  constructor
  · rintro ⟨rfl, rfl⟩
    exact ⟨data, rfl, rfl⟩
  · rintro ⟨_, heq, rfl⟩
    obtain ⟨rfl, rfl⟩ := Prod.mk.inj heq
    exact ⟨rfl, rfl⟩

theorem okUnless_output {parsed : Value × List SchemaIssue} :
    okUnless parsed.2 parsed.1 = .ok y ↔ parsed = (y, []) := by
  obtain ⟨output, issues⟩ := parsed
  rw [okUnless_eq_ok, Prod.mk.injEq]
  exact ⟨fun h => ⟨h.2.symm, h.1⟩, fun h => ⟨h.2, h.1.symm⟩⟩

/-- STEP: an element that fails leaves issues behind. -/
theorem appendParsedItem_eq {result : ParseResult Value} {before after : List Value}
    (herror : ∀ found, result = .error found → found ≠ []) :
    appendParsedItem result (before, issues) = (after, []) ↔
      issues = [] ∧ ∃ data, result = .ok data ∧ after = before ++ [data] := by
  cases result with
  | ok data =>
    simp only [appendParsedItem, Prod.mk.injEq, Except.ok.injEq, exists_eq_left']
    exact ⟨fun h => ⟨h.2, h.1.symm⟩, fun h => ⟨h.2.symm, h.1⟩⟩
  | error found => simp [appendParsedItem, herror found rfl]

/-- LOOP: no issue is left exactly if every element was read. -/
theorem foldl_appendParsedItem {α : Type} {parse : α → ParseResult Value}
    (herror : ∀ a found, parse a = .error found → found ≠ []) {l : List α} {before after : List Value} :
    l.foldl (fun state a => appendParsedItem (parse a) state) (before, issues) = (after, []) ↔
      issues = [] ∧ ∃ data, List.Forall₂ (fun a d => parse a = .ok d) l data ∧
      after = before ++ data := by
  induction l generalizing before issues with
  | nil =>
    simp only [List.foldl_nil, Prod.mk.injEq, List.forall₂_nil_left_iff, exists_eq_left, List.append_nil]
    exact ⟨fun h => ⟨h.2, h.1.symm⟩, fun h => ⟨h.2.symm, h.1⟩⟩
  | cons a l ih =>
    rw [List.foldl_cons]
    obtain ⟨middle, left, hstep⟩ :
        ∃ middle left, appendParsedItem (parse a) (before, issues) = (middle, left) :=
      ⟨_, _, rfl⟩
    rw [hstep, ih]
    constructor
    · rintro ⟨rfl, data, hdata, rfl⟩
      obtain ⟨rfl, first, hfirst, rfl⟩ := (appendParsedItem_eq (herror a)).mp hstep
      exact ⟨rfl, first :: data, .cons hfirst hdata, by rw [List.append_assoc]; rfl⟩
    · rintro ⟨rfl, data, hdata, rfl⟩
      cases hdata with
      | @cons _ first _ data hfirst hdata =>
        have hread : appendParsedItem (parse a) (before, []) = (before ++ [first], []) :=
          (appendParsedItem_eq (herror a)).mpr ⟨rfl, first, hfirst, rfl⟩
        obtain ⟨rfl, rfl⟩ := Prod.mk.inj (hstep.symm.trans hread)
        exact ⟨rfl, data, hdata, by rw [List.append_assoc]; rfl⟩

theorem parseItems_eq {items : List Schema} {elements before after : List Value} {index : ℕ}
    (ih : ∀ item ∈ items, ∀ x y path, parseInternal language item x path = .ok y ↔
      Admits language item x y)
    (hlength : elements.length = items.length) :
    parseItems language items elements path index (before, issues) = (after, []) ↔
      issues = [] ∧ ∃ data, AdmitsItems language items elements data ∧ after = before ++ data := by
  induction items generalizing elements before issues index with
  | nil =>
    obtain rfl := List.length_eq_zero_iff.mp hlength
    simp only [parseItems, Prod.mk.injEq, AdmitsItems, true_and, exists_eq_left, List.append_nil]
    exact ⟨fun h => ⟨h.2, h.1.symm⟩, fun h => ⟨h.2.symm, h.1⟩⟩
  | cons item items ihitems =>
    obtain ⟨element, elements, rfl⟩ := List.exists_cons_of_length_eq_add_one hlength
    rw [parseItems, List.headD_cons, List.tail_cons]
    obtain ⟨middle, left, hstep⟩ : ∃ middle left, appendParsedItem
        (parseInternal language item element (path ++ [.index index]))
        (before, issues) = (middle, left) := ⟨_, _, rfl⟩
    rw [hstep, ihitems (fun item hitem => ih item (List.mem_cons_of_mem _ hitem)) (Nat.succ.inj hlength)]
    constructor
    · rintro ⟨rfl, data, hdata, rfl⟩
      obtain ⟨rfl, first, hfirst, rfl⟩ := (appendParsedItem_eq fun _ => parseInternal_error).mp hstep
      have hadmits := (ih item List.mem_cons_self _ _ _).mp hfirst
      exact ⟨rfl, first :: data, ⟨element, elements, first, data, rfl, rfl, hadmits, hdata⟩,
        by rw [List.append_assoc]; rfl⟩
    · rintro ⟨rfl, _, ⟨_, _, first, data, heq, rfl, hfirst, hdata⟩, rfl⟩
      obtain ⟨rfl, rfl⟩ := List.cons.inj heq
      have hread :
          appendParsedItem (parseInternal language item element (path ++ [.index index])) (before, []) =
          (before ++ [first], []) :=
        (appendParsedItem_eq fun _ => parseInternal_error).mpr
          ⟨rfl, first, (ih item List.mem_cons_self _ _ _).mpr hfirst, rfl⟩
      obtain ⟨rfl, rfl⟩ := Prod.mk.inj (hstep.symm.trans hread)
      exact ⟨rfl, data, hdata, by rw [List.append_assoc]; rfl⟩

/-- A key that gives nothing is not written. -/
theorem writeAll_toList (output : Value) (key : JsString) (taken : Option Value)
    (rest : List (JsString × Value)) :
    writeAll output ((taken.map fun data => (key, data)).toList ++ rest) =
      writeAll (match taken with | some data => output.set key data | none => output) rest := by
  cases taken <;> rfl

theorem assignKnown_eq {key : JsString} {result : ParseResult Value} {output after : Value}
    (herror : ∀ found, result = .error found → found ≠ []) :
    assignKnown x key result (output, issues) = (after, []) ↔ issues = [] ∧ ∃ data, result = .ok data ∧
      after = match knownTakes x key data with | some data => output.set key data | none => output := by
  cases result with
  | ok data =>
    simp only [assignKnown, knownTakes, Prod.mk.injEq, Except.ok.injEq, exists_eq_left']
    split <;> exact ⟨fun h => ⟨h.2, h.1.symm⟩, fun h => ⟨h.2.symm, h.1⟩⟩
  | error found => simp [assignKnown, herror found rfl]

theorem parseKnownProperties_eq {shape : List (JsString × Schema)} {output after : Value}
    (ih : ∀ entry ∈ shape, ∀ x y path, parseInternal language entry.2 x path = .ok y ↔
      Admits language entry.2 x y) :
    parseKnownProperties language shape x path (output, issues) = (after, []) ↔
      issues = [] ∧ ∃ known, AdmitsKnown language shape x known ∧ after = writeAll output known := by
  induction shape generalizing output issues with
  | nil =>
    simp only [parseKnownProperties, Prod.mk.injEq, AdmitsKnown, exists_eq_left, writeAll,
      List.foldl_nil]
    exact ⟨fun h => ⟨h.2, h.1.symm⟩, fun h => ⟨h.2.symm, h.1⟩⟩
  | cons entry shape ihshape =>
    obtain ⟨key, schema⟩ := entry
    have ihschema := ih (key, schema) List.mem_cons_self (x.get key)
    rw [parseKnownProperties]
    obtain ⟨middle, left, hstep⟩ : ∃ middle left, assignKnown x key
        (parseInternal language schema (x.get key) (path ++ [.key key]))
        (output, issues) = (middle, left) :=
      ⟨_, _, rfl⟩
    rw [hstep, ihshape fun entry hentry => ih entry (List.mem_cons_of_mem _ hentry)]
    constructor
    · rintro ⟨rfl, known, hknown, rfl⟩
      obtain ⟨rfl, data, hdata, rfl⟩ := (assignKnown_eq fun _ => parseInternal_error).mp hstep
      exact ⟨rfl, _, ⟨data, known, (ihschema data _).mp hdata, hknown, rfl⟩, (writeAll_toList ..).symm⟩
    · rintro ⟨rfl, _, ⟨data, known, hdata, hknown, rfl⟩, rfl⟩
      have hread := (@assignKnown_eq x [] key _ output _ fun _ => parseInternal_error).mpr
        ⟨rfl, data, (ihschema data (path ++ [.key key])).mpr hdata, rfl⟩
      obtain ⟨rfl, rfl⟩ := Prod.mk.inj (hstep.symm.trans hread)
      exact ⟨rfl, known, hknown, writeAll_toList ..⟩

/-- One key of the input that is not declared. -/
theorem unknownStep_eq {declared : List JsString} {unknownKeys : UnknownKeyPolicy} {catchall : Schema}
    {key : JsString} {output after : Value}
    (ih : ∀ x y path, parseInternal language catchall x path = .ok y ↔ Admits language catchall x y) :
    (if key ∈ declared then (output, issues)
      else parseUnknownProperty unknownKeys (if catchall.isNever then none
        else
          some (parseInternal language catchall (x.get key) (path ++ [.key key]))) x path key
            (output, issues)) =
      (after, []) ↔
    issues = [] ∧ ∃ taken, UnknownTakes declared unknownKeys (if catchall.isNever then none
      else some (Admits language catchall)) x key taken ∧
      after = match taken with | some data => output.set key data | none => output := by
  simp only [UnknownTakes]
  split
  · simp only [Prod.mk.injEq, exists_eq_left]
    exact ⟨fun h => ⟨h.2, h.1.symm⟩, fun h => ⟨h.2.symm, h.1⟩⟩
  · split
    · cases unknownKeys with
      | strict => simp [parseUnknownProperty]
      | strip =>
        simp only [parseUnknownProperty, Prod.mk.injEq, exists_eq_left]
        exact ⟨fun h => ⟨h.2, h.1.symm⟩, fun h => ⟨h.2.symm, h.1⟩⟩
      | passthrough =>
        simp only [parseUnknownProperty, Prod.mk.injEq, exists_eq_left]
        exact ⟨fun h => ⟨h.2, h.1.symm⟩, fun h => ⟨h.2.symm, h.1⟩⟩
    · cases hread : parseInternal language catchall (x.get key) (path ++ [.key key]) with
      | ok data =>
        simp only [parseUnknownProperty, Prod.mk.injEq]
        constructor
        · rintro ⟨rfl, rfl⟩
          exact ⟨rfl, some data, ⟨data, (ih _ _ _).mp hread, rfl⟩, rfl⟩
        · rintro ⟨rfl, _, ⟨found, hfound, rfl⟩, rfl⟩
          obtain rfl := Except.ok.inj (hread.symm.trans ((ih _ _ (path ++ [.key key])).mpr hfound))
          exact ⟨rfl, rfl⟩
      | error found =>
        simp only [parseUnknownProperty, Prod.mk.injEq, List.append_eq_nil_iff,
          parseInternal_error hread, and_false, false_iff, not_and]
        rintro - ⟨_, ⟨data, hdata, rfl⟩, -⟩
        cases hread.symm.trans ((ih _ _ _).mpr hdata)

/-- LOOP: over the keys of the input. -/
theorem foldl_unknown_eq {declared : List JsString} {unknownKeys : UnknownKeyPolicy} {catchall : Schema}
    {keys : List JsString} {output after : Value}
    (ih : ∀ x y path, parseInternal language catchall x path = .ok y ↔ Admits language catchall x y) :
    keys.foldl (fun state key => if key ∈ declared then state
      else parseUnknownProperty unknownKeys (if catchall.isNever then none
        else some (parseInternal language catchall (x.get key) (path ++ [.key key]))) x path key state)
      (output, issues) = (after, []) ↔
    issues = [] ∧ ∃ others, Written id (UnknownTakes declared unknownKeys (if catchall.isNever then none
      else some (Admits language catchall)) x) keys others ∧ after = writeAll output others := by
  induction keys generalizing output issues with
  | nil =>
    rw [List.foldl_nil, Prod.mk.injEq]
    constructor
    · rintro ⟨rfl, rfl⟩
      exact ⟨rfl, [], .nil, rfl⟩
    · rintro ⟨rfl, _, ⟨⟩, rfl⟩
      exact ⟨rfl, rfl⟩
  | cons key keys ihkeys =>
    rw [List.foldl_cons]
    obtain ⟨middle, left, hstep⟩ : ∃ middle left, (if key ∈ declared then (output, issues)
      else parseUnknownProperty unknownKeys (if catchall.isNever then none
        else
          some (parseInternal language catchall (x.get key) (path ++ [.key key]))) x path key
            (output, issues)) =
      (middle, left) := ⟨_, _, rfl⟩
    rw [hstep, ihkeys]
    constructor
    · rintro ⟨rfl, others, hothers, rfl⟩
      obtain ⟨rfl, taken, htaken, rfl⟩ := (unknownStep_eq ih).mp hstep
      exact ⟨rfl, _, Written.cons_iff.mpr ⟨taken, others, htaken, hothers, rfl⟩,
        (writeAll_toList ..).symm⟩
    · rintro ⟨rfl, others, hothers, rfl⟩
      obtain ⟨taken, rest, htaken, hrest, rfl⟩ := Written.cons_iff.mp hothers
      have hread :=
        (@unknownStep_eq language x path [] declared unknownKeys catchall key output _ ih).mpr
        ⟨rfl, taken, htaken, rfl⟩
      obtain ⟨rfl, rfl⟩ := Prod.mk.inj (hstep.symm.trans hread)
      exact ⟨rfl, rest, hrest, writeAll_toList ..⟩

theorem length_of_admitsItems {items : List Schema} {elements data : List Value}
    (h : AdmitsItems language items elements data) :
    elements.length = items.length ∧ data.length = items.length := by
  induction items generalizing elements data with
  | nil =>
    obtain ⟨rfl, rfl⟩ := h
    exact ⟨rfl, rfl⟩
  | cons item items ih =>
    obtain ⟨element, elements', value, data', rfl, rfl, -, hrest⟩ := h
    exact ⟨congrArg (· + 1) (ih hrest).1, congrArg (· + 1) (ih hrest).2⟩

/-! ### The schemas with parts -/

variable (language) in
/-- The schema returns what it admits, wherever it stands. -/
abbrev ReturnsAdmitted (schema : Schema) : Prop :=
  ∀ x y path, parseInternal language schema x path = .ok y ↔ Admits language schema x y

theorem returnsAdmitted_number (rules : List (Rule NumberConstraint)) :
    ReturnsAdmitted language (.number rules) := by
  intro x y path
  cases x with
  | number value =>
    simp only [parseInternal, Admits, Value.number.injEq, exists_eq_left']
    split
    · next h => simp [okUnless_eq_ok, collectRuleIssues_eq_nil, h]
    · next h => simp [fail, h]
  | _ => simp [fail]

theorem returnsAdmitted_enum (values : List JsString) : ReturnsAdmitted language (.enum values) := by
  intro x y path
  cases x with
  | string value =>
    simp only [parseInternal, Admits, Value.string.injEq, exists_eq_left']
    split
    · next h => simp [h, eq_comm]
    · next h => simp [fail, h]
  | _ => simp [fail]

theorem returnsAdmitted_refinement {inner : Schema} {refine : Value → List IssueInput}
    (ih : ReturnsAdmitted language inner) : ReturnsAdmitted language (.refinement inner refine) := by
  intro x y path
  simp only [parseInternal, Admits, ← ih x y path]
  cases parseInternal language inner x path with
  | error found => simp [bind, Except.bind]
  | ok data =>
    change okUnless _ data = .ok y ↔ _
    rw [okUnless_eq_ok, List.map_eq_nil_iff, Except.ok.injEq]
    constructor
    · rintro ⟨hnone, rfl⟩
      exact ⟨rfl, hnone⟩
    · rintro ⟨rfl, hnone⟩
      exact ⟨hnone, rfl⟩

theorem returnsAdmitted_array {item : Schema} {rules : List (Rule ArrayConstraint)}
    (ih : ReturnsAdmitted language item) : ReturnsAdmitted language (.array item rules) := by
  intro x y path
  cases x with
  | array elements =>
    simp only [parseInternal, Admits, Value.array.injEq, exists_and_left, exists_eq_left']
    rw [okUnless_pair]
    simp only [foldl_appendParsedItem fun _ _ => parseInternal_error, collectRuleIssues_eq_nil, ih,
      List.nil_append]
    constructor
    · rintro ⟨_, ⟨hrules, data, hdata, rfl⟩, rfl⟩
      refine ⟨hrules, _, ?_, rfl⟩
      rw [← @List.forall₂_map_left_iff _ _ _ (Admits language item) Prod.fst] at hdata
      simpa using hdata
    · rintro ⟨hrules, data, hdata, rfl⟩
      refine ⟨data, ⟨hrules, data, ?_, rfl⟩, rfl⟩
      rw [← @List.forall₂_map_left_iff _ _ _ (Admits language item) Prod.fst]
      simpa using hdata
  | _ => simp [fail]

theorem returnsAdmitted_tuple {items : List Schema}
    (ih : ∀ item ∈ items, ReturnsAdmitted language item) :
    ReturnsAdmitted language (.tuple items) := by
  intro x y path
  cases x with
  | array elements =>
    simp only [parseInternal, Admits, Value.array.injEq, exists_and_left, exists_eq_left']
    split
    · next hlength =>
      constructor
      · intro h
        cases h
      · rintro ⟨data, hdata, rfl⟩
        exact absurd (length_of_admitsItems hdata).1 hlength
    · next hlength =>
      rw [okUnless_pair]
      simp only [parseItems_eq ih (not_not.mp hlength), List.nil_append, true_and]
      constructor
      · rintro ⟨_, ⟨data, hdata, rfl⟩, rfl⟩
        exact ⟨_, hdata, rfl⟩
      · rintro ⟨data, hdata, rfl⟩
        exact ⟨data, ⟨data, hdata, rfl⟩, rfl⟩
  | _ => simp [fail]

/-- The declared keys, then the others. -/
theorem returnsAdmitted_object {shape : List (JsString × Schema)} {unknownKeys : UnknownKeyPolicy}
    {catchall : Schema} (ihshape : ∀ entry ∈ shape, ReturnsAdmitted language entry.2)
    (ihcatchall : ReturnsAdmitted language catchall) :
    ReturnsAdmitted language (.object shape unknownKeys catchall) := by
  intro x y path
  simp only [parseInternal, Admits]
  split
  · next hplain =>
    rw [okUnless_output]
    obtain ⟨output, issues, hknown⟩ : ∃ output issues,
      parseKnownProperties language shape x path (Value.empty, []) = (output, issues) := ⟨_, _, rfl⟩
    rw [hknown]
    simp only [foldl_unknown_eq ihcatchall, hplain, true_and]
    constructor
    · rintro ⟨rfl, others, hothers, rfl⟩
      obtain ⟨-, known, hadmits, rfl⟩ := (parseKnownProperties_eq ihshape).mp hknown
      exact ⟨known, others, hadmits, hothers, (writeAll_append ..).symm⟩
    · rintro ⟨known, others, hadmits, hothers, rfl⟩
      have hread := (@parseKnownProperties_eq language x path [] shape Value.empty _ ihshape).mpr
        ⟨rfl, known, hadmits, rfl⟩
      obtain ⟨rfl, rfl⟩ := Prod.mk.inj (hknown.symm.trans hread)
      exact ⟨rfl, others, hothers, writeAll_append ..⟩
  · next hplain => simp [fail, hplain]

/-- REFINES: a schema returns what it admits, wherever it stands. -/
theorem parseInternal_eq_ok (schema : Schema) (x y : Value) (path : List PathPart) :
    parseInternal language schema x path = .ok y ↔ Admits language schema x y := by
  induction schema using Schema.build generalizing x y path with
  | never => simp [fail]
  | unknown => simp [eq_comm]
  | string rules requiredError =>
    cases x <;> simp [fail, okUnless_eq_ok, collectRuleIssues_eq_nil]
  | number rules => exact returnsAdmitted_number rules x y path
  | boolean => cases x <;> simp [fail, eq_comm]
  | literal value =>
    simp only [parseInternal, Admits]
    split
    · next h => simp [h, eq_comm]
    · next h => simp [fail, h]
  | enum values => exact returnsAdmitted_enum values x y path
  | optional inner ih =>
    simp only [parseInternal, Admits]
    split
    · next h => simp [h, eq_comm]
    · next h => simp [h, ih]
  | nullable inner ih =>
    simp only [parseInternal, Admits]
    split
    · next h => simp [h, eq_comm]
    · next h => simp [h, ih]
  | refinement inner refine ih => exact returnsAdmitted_refinement ih x y path
  | array item rules ih => exact returnsAdmitted_array ih x y path
  | tuple items ih => exact returnsAdmitted_tuple ih x y path
  | object shape unknownKeys catchall ihshape ihcatchall =>
    exact returnsAdmitted_object ihshape ihcatchall x y path

end Parses

end StarkBallot.Validation
