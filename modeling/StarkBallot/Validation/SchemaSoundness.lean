import StarkBallot.Validation.SchemaAdmission

/-! What is true of a value that a schema of `schema.ts` has returned: every declared key reads as its
    schema wants it, the value is admitted again as it is, and a strict schema returns what it was
    given. All of it rests on the output having the usual prototype. It has, unless an object passes a
    key `__proto__` on to it.

        shape a      x { a: 1, x: 2 }      y { a: 1, x: 2 }      y again         known, then others, in the same order
                     own __proto__         y has its value as prototype          y again: the usual prototype -/

namespace StarkBallot.Validation
open Schemes Value

/-! ### Kinds of schemas -/

namespace Schema

def isUnknown : Schema → Bool
  | unknown => true
  | _ => false

section All

variable (p : Schema → Bool)

mutual

/-- Every schema inside is like this; `never` and `unknown` in the place of a catchall only say whether
    there is one. -/
def all (schema : Schema) : Bool :=
  match schema with
  | optional inner => p schema && all inner
  | nullable inner => p schema && all inner
  | refinement inner _ => p schema && all inner
  | array item _ => p schema && all item
  | tuple items => p schema && allItems items
  | object shape _ catchall =>
    p schema && allShape shape && (catchall.isNever || catchall.isUnknown || all catchall)
  | _ => p schema

def allItems (items : List Schema) : Bool :=
  match items with
  | [] => true
  | item :: items => all item && allItems items

def allShape (shape : List (JsString × Schema)) : Bool :=
  match shape with
  | [] => true
  | (_, schema) :: shape => all schema && allShape shape

end

end All

/-- The keys of a shape are those of an object. -/
def hasUniqueKeys : Schema → Bool
  | object shape _ _ => (shape.map Prod.fst).Nodup
  | _ => true

/-- A constructor that is meant to take values; `never` and `unknown` are catchalls. -/
def isListed : Schema → Bool
  | never | unknown => false
  | _ => true

def isStrictWithoutCatchall : Schema → Bool
  | object _ unknownKeys catchall => decide (unknownKeys = .strict) && catchall.isNever
  | _ => true

def declaresNoProto : Schema → Bool
  | object shape _ _ => protoKey ∉ shape.map Prod.fst
  | _ => true

variable {p : Schema → Bool}

theorem all_item {items : List Schema} (h : allItems p items = true) {item : Schema}
    (hitem : item ∈ items) :
    item.all p = true := by
  induction items with
  | nil => cases hitem
  | cons first items ih =>
    rw [allItems, Bool.and_eq_true] at h
    rcases List.mem_cons.mp hitem with rfl | hitem
    · exact h.1
    · exact ih h.2 hitem

theorem all_entry {shape : List (JsString × Schema)} (h : allShape p shape = true)
    {entry : JsString × Schema} (hentry : entry ∈ shape) : entry.2.all p = true := by
  induction shape with
  | nil => cases hentry
  | cons first shape ih =>
    rw [allShape, Bool.and_eq_true] at h
    rcases List.mem_cons.mp hentry with rfl | hentry
    · exact h.1
    · exact ih h.2 hentry

theorem all_object {shape : List (JsString × Schema)} {unknownKeys : UnknownKeyPolicy}
    {catchall : Schema} (h : (object shape unknownKeys catchall).all p = true) :
      p (object shape unknownKeys catchall) = true ∧
      (∀ entry ∈ shape, entry.2.all p = true) ∧
      (catchall.isNever = false → catchall.isUnknown = false → catchall.all p = true) := by
  simp only [all, Bool.and_eq_true, Bool.or_eq_true] at h
  obtain ⟨⟨hown, hshape⟩, hcatchall⟩ := h
  refine ⟨hown, fun entry => all_entry hshape, fun hnever hunknown => ?_⟩
  rw [hnever, hunknown] at hcatchall
  simpa using hcatchall

theorem all_of_isUnknown {schema : Schema} (h : schema.isUnknown = true) (hp : p unknown = true) :
    schema.all p = true := by
  cases schema with
  | unknown => exact hp
  | _ => cases h

end Schema

/-! ### What reads well, and what sets a prototype -/

section Reads

variable (language : Language)

mutual

/-- In every object inside, each declared key reads as something that its schema accepts: `undefined` if
    it is optional. -/
def Reads (schema : Schema) (y : Value) : Prop :=
  match schema with
  | .optional inner => y.isUndefined = true ∨ Reads inner y
  | .nullable inner => y.isNull = true ∨ Reads inner y
  | .refinement inner _ => Reads inner y
  | .array item _ => ∀ elements, y = .array elements → ∀ element ∈ elements, Reads item element
  | .tuple items => ∀ elements, y = .array elements → ReadsItems items elements
  | .object shape _ catchall => ReadsShape shape y ∧ (catchall.isNever = false →
      ∀ key ∈ y.keys, key ∉ shape.map Prod.fst → Reads catchall (y.get key))
  | _ => True

def ReadsItems (items : List Schema) (elements : List Value) : Prop :=
  match items with
  | [] => True
  | item :: items => (∀ element ∈ elements.head?, Reads item element) ∧ ReadsItems items elements.tail

def ReadsShape (shape : List (JsString × Schema)) (y : Value) : Prop :=
  match shape with
  | [] => True
  | (key, schema) :: shape =>
    ((∃ data, safeParse language schema (y.get key) = .ok data) ∧ Reads schema (y.get key)) ∧
      ReadsShape shape y

end

end Reads

/-- Keys that are not declared are kept. -/
def takesUnknown (unknownKeys : UnknownKeyPolicy) (catchall : Schema) : Bool :=
  !catchall.isNever || unknownKeys = .passthrough

mutual

/-- No object that is read declares `__proto__`, and none keeps an own `__proto__`
    that can be a prototype. -/
def setsNoPrototype (schema : Schema) (x : Value) : Bool :=
  match schema with
  | .optional inner => x.isUndefined || setsNoPrototype inner x
  | .nullable inner => x.isNull || setsNoPrototype inner x
  | .refinement inner _ => setsNoPrototype inner x
  | .array item _ =>
    match x with
    | .array elements => elements.all (setsNoPrototype item)
    | _ => true
  | .tuple items =>
    match x with
    | .array elements => itemsSetNoPrototype items elements
    | _ => true
  | .object shape unknownKeys catchall =>
    shapeSetsNoPrototype shape x && x.keys.all fun key => key ∈ shape.map Prod.fst ||
      (if key = protoKey then !(takesUnknown unknownKeys catchall && (x.get key).isPrototype)
        else setsNoPrototype catchall (x.get key))
  | _ => true

def itemsSetNoPrototype (items : List Schema) (elements : List Value) : Bool :=
  match items with
  | [] => true
  | item :: items => elements.head?.all (setsNoPrototype item) && itemsSetNoPrototype items elements.tail

def shapeSetsNoPrototype (shape : List (JsString × Schema)) (x : Value) : Bool :=
  match shape with
  | [] => true
  | (key, schema) :: shape =>
    (decide (key ≠ protoKey) && setsNoPrototype schema (x.get key)) && shapeSetsNoPrototype shape x

end

/-! ### The lists, entry by entry -/

section Entries

variable {language : Language} {x y : Value} {shape : List (JsString × Schema)}

theorem readsShape_iff : ReadsShape language shape y ↔ ∀ entry ∈ shape,
    (∃ data, safeParse language entry.2 (y.get entry.1) = .ok data) ∧
    Reads language entry.2 (y.get entry.1) := by
  induction shape with
  | nil => simp [ReadsShape]
  | cons entry shape ih => rw [ReadsShape, ih, List.forall_mem_cons]

theorem shapeSetsNoPrototype_iff : shapeSetsNoPrototype shape x = true ↔ ∀ entry ∈ shape,
    entry.1 ≠ protoKey ∧ setsNoPrototype entry.2 (x.get entry.1) = true := by
  induction shape with
  | nil => simp [shapeSetsNoPrototype]
  | cons entry shape ih =>
    rw [shapeSetsNoPrototype, Bool.and_eq_true, ih, List.forall_mem_cons, Bool.and_eq_true,
      decide_eq_true_eq]

/-- What a declared key writes. -/
def KnownTakes (language : Language) (x : Value) (entry : JsString × Schema) (taken : Option Value) :
    Prop :=
  ∃ data, Admits language entry.2 (x.get entry.1) data ∧ taken = knownTakes x entry.1 data

theorem admitsKnown_iff {writes : List (JsString × Value)} :
    AdmitsKnown language shape x writes ↔ Written Prod.fst (KnownTakes language x) shape writes := by
  induction shape generalizing writes with
  | nil =>
    rw [AdmitsKnown]
    constructor
    · rintro rfl
      exact .nil
    · rintro ⟨⟩
      rfl
  | cons entry shape ih =>
    rw [AdmitsKnown, Written.cons_iff]
    constructor
    · rintro ⟨data, rest, hdata, hrest, rfl⟩
      exact ⟨_, rest, ⟨data, hdata, rfl⟩, ih.mp hrest, rfl⟩
    · rintro ⟨_, rest, ⟨data, hdata, rfl⟩, hrest, rfl⟩
      exact ⟨data, rest, hdata, ih.mpr hrest, rfl⟩

end Entries

/-! ### The kind of a value -/

section Kinds

variable {language : Language} {schema : Schema} {x y : Value}

theorem exists_set (own : List (JsString × Value)) (proto : Value) (key : JsString) (value : Value) :
    ∃ own' proto', (Value.object own proto).set key value = .object own' proto' := by
  rw [Value.set]
  split <;> exact ⟨_, _, rfl⟩

theorem exists_writeAll (own writes : List (JsString × Value)) (proto : Value) :
    ∃ own' proto', writeAll (.object own proto) writes = .object own' proto' := by
  induction writes generalizing own proto with
  | nil => exact ⟨own, proto, rfl⟩
  | cons entry writes ih =>
    obtain ⟨own', proto', hset⟩ := exists_set own proto entry.1 entry.2
    rw [writeAll, List.foldl_cons, hset]
    exact ih own' proto'

/-- What equals a literal is its value. -/
theorem value_of_isSame {literal : Literal} (h : literal.isSame x = true) : literal.value = x := by
  cases literal with
  | string value =>
    cases x with
    | string input => rw [Literal.value, of_decide_eq_true h]
    | _ => cases h
  | number value =>
    cases x with
    | number input => rw [Literal.value, Num.eq_of_eq h]
    | _ => cases h
  | boolean value =>
    cases x with
    | boolean input => rw [Literal.value, of_decide_eq_true h]
    | _ => cases h
  | null =>
    cases x with
    | null => rfl
    | _ => cases h
  | undefined =>
    cases x with
    | undefined => rfl
    | _ => cases h

/-- Both are `undefined` or neither is, and both can be a prototype or neither can. -/
structure SameKind (x y : Value) : Prop where
  undefined : y.isUndefined = x.isUndefined
  null : y.isNull = x.isNull
  prototype : y.isPrototype = x.isPrototype
  ordinary : x.isObjectPrototype = false → y.isObjectPrototype = false

theorem SameKind.refl (x : Value) : SameKind x x := ⟨rfl, rfl, rfl, id⟩

/-- KIND: a schema keeps the kind of what it admits. -/
theorem sameKind_of_admits (h : Admits language schema x y) : SameKind x y := by
  induction schema using Schema.build generalizing x y with
  | never => exact h.elim
  | unknown =>
    obtain rfl : y = x := h
    exact .refl y
  | string rules requiredError =>
    obtain ⟨text, -, -, rfl⟩ := h
    exact .refl _
  | number rules =>
    obtain ⟨value, -, -, -, rfl⟩ := h
    exact .refl _
  | boolean =>
    obtain ⟨value, -, rfl⟩ := h
    exact .refl _
  | literal value =>
    obtain ⟨hsame, rfl⟩ := h
    rw [value_of_isSame hsame]
    exact .refl x
  | enum values =>
    obtain ⟨text, -, -, rfl⟩ := h
    exact .refl _
  | optional inner ih =>
    rcases h with ⟨hundefined, rfl⟩ | ⟨-, hinner⟩
    · cases x with
      | undefined => exact .refl _
      | _ => cases hundefined
    · exact ih hinner
  | nullable inner ih =>
    rcases h with ⟨hnull, rfl⟩ | ⟨-, hinner⟩
    · cases x with
      | null => exact .refl _
      | _ => cases hnull
    · exact ih hinner
  | refinement inner refine ih => exact ih h.1
  | array item rules ih =>
    obtain ⟨elements, data, rfl, -, -, rfl⟩ := h
    exact ⟨rfl, rfl, rfl, fun _ => rfl⟩
  | tuple items ih =>
    obtain ⟨elements, data, rfl, -, rfl⟩ := h
    exact ⟨rfl, rfl, rfl, fun _ => rfl⟩
  | object shape unknownKeys catchall ihshape ihcatchall =>
    obtain ⟨hplain, known, others, -, -, rfl⟩ := h
    obtain ⟨own, proto, hobject⟩ := exists_writeAll [] (known ++ others) objectPrototype
    rw [Value.empty, hobject]
    cases x with
    | object _ _ => exact ⟨rfl, rfl, rfl, fun _ => rfl⟩
    | objectPrototype => exact ⟨rfl, rfl, rfl, fun _ => rfl⟩
    | _ => cases hplain

theorem eq_undefined (h : x.isUndefined = true) : x = .undefined := by
  cases x with
  | undefined => rfl
  | _ => cases h

/-- A function is nothing that the listed constructors take. -/
theorem not_admits_builtin {name : JsString} (hlisted : schema.all Schema.isListed = true) :
    ¬ Admits language schema (.builtin name) y := by
  intro h
  induction schema using Schema.build generalizing y with
  | never => exact h
  | unknown => cases hlisted
  | string rules requiredError =>
    obtain ⟨text, ⟨⟩, -⟩ := h
  | number rules =>
    obtain ⟨value, ⟨⟩, -⟩ := h
  | boolean =>
    obtain ⟨value, ⟨⟩, -⟩ := h
  | literal value => cases value <;> exact absurd h.1 Bool.false_ne_true
  | enum values =>
    obtain ⟨text, ⟨⟩, -⟩ := h
  | optional inner ih =>
    rcases h with ⟨⟨⟩, -⟩ | ⟨-, hinner⟩
    exact ih hlisted hinner
  | nullable inner ih =>
    rcases h with ⟨⟨⟩, -⟩ | ⟨-, hinner⟩
    exact ih hlisted hinner
  | refinement inner refine ih => exact ih hlisted h.1
  | array item rules ih =>
    obtain ⟨elements, data, ⟨⟩, -⟩ := h
  | tuple items ih =>
    obtain ⟨elements, data, ⟨⟩, -⟩ := h
  | object shape unknownKeys catchall ihshape ihcatchall => cases h.1

end Kinds

/-! ### An object and what it is made of -/

section Objects

variable {language : Language} {x y : Value} {shape : List (JsString × Schema)}
  {unknownKeys : UnknownKeyPolicy} {catchall : Schema} {own known others : List (JsString × Value)}
  {takes : JsString → Option Value → Prop}

/-- A key that is not declared, as the schema takes it. -/
abbrev OtherTakes (language : Language) (shape : List (JsString × Schema))
    (unknownKeys : UnknownKeyPolicy) (catchall : Schema) (x : Value) : JsString → Option Value → Prop :=
  UnknownTakes (shape.map Prod.fst) unknownKeys (if catchall.isNever then none
    else some (Admits language catchall)) x

theorem not_declared {key : JsString} {value : Value}
    (h : OtherTakes language shape unknownKeys catchall x key (some value)) :
    key ∉ shape.map Prod.fst := by
  intro hmem
  simp only [OtherTakes, UnknownTakes, if_pos hmem] at h
  cases h

/-- What is kept of a key that is not declared: what the catchall makes of its
    value, or the value itself. -/
theorem otherTakes_some {key : JsString} {value : Value}
    (h : OtherTakes language shape unknownKeys catchall x key (some value)) :
    takesUnknown unknownKeys catchall = true ∧ (catchall.isNever = true ∧ value = x.get key ∨
      catchall.isNever = false ∧ Admits language catchall (x.get key) value) := by
  have hmem := not_declared h
  simp only [OtherTakes, UnknownTakes, if_neg hmem] at h
  cases hnever : catchall.isNever with
  | true =>
    rw [hnever] at h
    cases unknownKeys with
    | strict => exact h.elim
    | strip => cases h
    | passthrough => exact ⟨Bool.or_true _, Or.inl ⟨rfl, Option.some.inj h⟩⟩
  | false =>
    rw [hnever] at h
    obtain ⟨data, hdata, heq⟩ := h
    obtain rfl := Option.some.inj heq
    exact ⟨by rw [takesUnknown, hnever]; rfl, Or.inr ⟨rfl, hdata⟩⟩

theorem admits_of_otherTakes {key : JsString} {value : Value} (hnever : catchall.isNever = false)
    (h : OtherTakes language shape unknownKeys catchall x key (some value)) :
    Admits language catchall (x.get key) value := by
  obtain ⟨-, ⟨hnever', -⟩ | ⟨-, hadmits⟩⟩ := otherTakes_some h
  · exact absurd (hnever.symm.trans hnever') Bool.false_ne_true
  · exact hadmits

theorem sameKind_of_otherTakes {key : JsString} {value : Value}
    (h : OtherTakes language shape unknownKeys catchall x key (some value)) :
    SameKind (x.get key) value := by
  obtain ⟨-, ⟨-, rfl⟩ | ⟨-, hadmits⟩⟩ := otherTakes_some h
  · exact .refl _
  · exact sameKind_of_admits hadmits

/-- Nothing is kept of a declared key, or where no key is kept. -/
theorem otherTakes_none {key : JsString} (h : OtherTakes language shape unknownKeys catchall x key none)
    (hnew : key ∉ shape.map Prod.fst) : takesUnknown unknownKeys catchall = false := by
  simp only [OtherTakes, UnknownTakes, if_neg hnew] at h
  cases hnever : catchall.isNever with
  | true =>
    rw [hnever] at h
    cases unknownKeys with
    | strict => exact h.elim
    | strip => rw [takesUnknown, hnever]; rfl
    | passthrough => cases h
  | false =>
    rw [hnever] at h
    obtain ⟨data, -, heq⟩ := h
    cases heq

/-- The keys of both tables are different. -/
theorem nodup_writes (hshape : (shape.map Prod.fst).Nodup) (hkeys : x.keys.Nodup)
    (hknown : Written Prod.fst (KnownTakes language x) shape known)
    (hothers : Written id (OtherTakes language shape unknownKeys catchall x) x.keys others) :
    ((known ++ others).map Prod.fst).Nodup := by
  rw [List.map_append, List.nodup_append]
  have hsub := hothers.keys_sublist
  rw [List.map_id] at hsub
  refine ⟨hknown.keys_sublist.nodup hshape, hsub.nodup hkeys, ?_⟩
  rintro key hfirst _ hsecond rfl
  obtain ⟨⟨_, value⟩, hmem, rfl⟩ := List.mem_map.mp hsecond
  obtain ⟨_, -, rfl, htakes⟩ := hothers.exists_of_mem hmem
  exact not_declared htakes (hknown.keys_sublist.subset hfirst)

/-- What is left of the other keys. -/
def keptOf (others : List (JsString × Value)) : List (JsString × Value) :=
  others.filter fun entry => entry.1 ≠ protoKey

theorem mem_keptOf {entry : JsString × Value} :
    entry ∈ keptOf others ↔ entry ∈ others ∧ entry.1 ≠ protoKey := by
  rw [keptOf, List.mem_filter, decide_eq_true_eq]

/-- BUILT: an object that sets no prototype has what its keys wrote. -/
theorem writeAll_kept (hkeys : ((known ++ others).map Prod.fst).Nodup)
    (hknown : protoKey ∉ known.map Prod.fst)
    (hothers : ∀ value, (protoKey, value) ∈ others → value.isPrototype = false) :
    writeAll Value.empty (known ++ others) = .object (known ++ keptOf others) objectPrototype := by
  have hproto : protoAfter (known ++ others) = objectPrototype := by
    refine protoAfter_eq fun value hmem => ?_
    rcases List.mem_append.mp hmem with hmem | hmem
    · exact absurd (List.mem_map_of_mem hmem) hknown
    · exact hothers value hmem
  have hfilter : (known.filter fun entry => entry.1 ≠ protoKey) = known := by
    refine List.filter_eq_self.mpr fun entry hentry => decide_eq_true fun heq => hknown ?_
    exact List.mem_map.mpr ⟨entry, hentry, heq⟩
  rw [writeAll_empty hkeys, hproto, List.filter_append, hfilter]
  rfl

theorem nodup_kept (hkeys : ((known ++ others).map Prod.fst).Nodup) :
    ((known ++ keptOf others).map Prod.fst).Nodup :=
  hkeys.sublist ((List.Sublist.append (List.Sublist.refl known) List.filter_sublist).map Prod.fst)

theorem get_written {key : JsString} {value : Value} (hkeys : (own.map Prod.fst).Nodup)
    (hmem : (key, value) ∈ own) (proto : Value) : (Value.object own proto).get key = value :=
    get_own (lookup_of_mem hkeys hmem)

theorem eq_of_knownTakes {key : JsString} {value data : Value} (h : some value = knownTakes x key data) :
    value = data := by
  rw [knownTakes] at h
  split at h
  · exact Option.some.inj h
  · cases h

/-- A key that gave nothing reads as `undefined`, before and after. -/
theorem get_skipped {entry : JsString × Schema} (hentry : entry ∈ shape)
    (hothers : Written id (OtherTakes language shape unknownKeys catchall (.object own objectPrototype))
      (own.map Prod.fst) others)
    (hskip : KnownTakes language (.object own objectPrototype) entry none)
    (hmem : entry.1 ∉ known.map Prod.fst) :
    (Value.object own objectPrototype).get entry.1 = .undefined ∧
      Admits language entry.2 .undefined .undefined ∧
      (Value.object (known ++ keptOf others) objectPrototype).get entry.1 = .undefined ∧
      (Value.object (known ++ keptOf others) objectPrototype).hasOwn entry.1 = false := by
  obtain ⟨data, hadmits, htaken⟩ := hskip
  have hnothing :
      data.isUndefined = true ∧ (Value.object own objectPrototype).hasOwn entry.1 = false := by
    rw [knownTakes] at htaken
    split at htaken
    · cases htaken
    · next h => simpa using h
  obtain ⟨hundefined, habsent⟩ := hnothing
  obtain rfl := eq_undefined hundefined
  have hread := eq_undefined ((sameKind_of_admits hadmits).undefined.symm.trans hundefined)
  rw [hread] at hadmits
  have hown : entry.1 ∉ own.map Prod.fst := by
    rw [← hasOwn_eq_true, habsent]
    exact Bool.false_ne_true
  have hafter : entry.1 ∉ (known ++ keptOf others).map Prod.fst := by
    rw [List.map_append, List.mem_append, not_or]
    refine ⟨hmem, fun hkept => ?_⟩
    obtain ⟨⟨key, value⟩, hkept, heq⟩ := List.mem_map.mp hkept
    obtain ⟨name, -, hname, htakes⟩ := hothers.exists_of_mem (mem_keptOf.mp hkept).1
    obtain rfl : name = entry.1 := hname.trans heq
    exact not_declared htakes (List.mem_map_of_mem hentry)
  refine ⟨hread, hadmits, ?_, ?_⟩
  · rw [get_inherited hafter, ← get_inherited hown]
    exact hread
  · rw [← Bool.not_eq_true, hasOwn_eq_true]
    exact hafter

/-- AGAIN: what an object was rebuilt to is rebuilt to itself, if that is true of its parts. -/
theorem admits_rebuilt (hshape : (shape.map Prod.fst).Nodup)
    (hkeys : ((known ++ others).map Prod.fst).Nodup) (hproto : protoKey ∉ shape.map Prod.fst)
    (hknown : Written Prod.fst (KnownTakes language (.object own objectPrototype)) shape known)
    (hothers : Written id (OtherTakes language shape unknownKeys catchall (.object own objectPrototype))
      (own.map Prod.fst) others)
    (hself : ∀ entry ∈ shape, ∀ value,
      Admits language entry.2 ((Value.object own objectPrototype).get entry.1) value →
      Admits language entry.2 value value)
    (hother : catchall.isNever = false → ∀ key ∈ own.map Prod.fst, key ∉ shape.map Prod.fst →
      key ≠ protoKey → ∀ value,
      Admits language catchall ((Value.object own objectPrototype).get key) value →
      Admits language catchall value value) :
    Admits language (.object shape unknownKeys catchall)
      (.object (known ++ keptOf others) objectPrototype)
      (.object (known ++ keptOf others) objectPrototype) := by
  have hnodup := nodup_kept hkeys
  refine ⟨rfl, known, keptOf others, admitsKnown_iff.mpr ?_, ?_, ?_⟩
  · refine hknown.imp hshape ?_ ?_
    · rintro entry hentry value ⟨data, hadmits, htaken⟩ hmem
      have hread := get_written hnodup (List.mem_append_left _ hmem) objectPrototype
      obtain rfl := eq_of_knownTakes htaken
      refine ⟨value, hread.symm ▸ hself entry hentry value hadmits, ?_⟩
      have hpresent : (Value.object (known ++ keptOf others) objectPrototype).hasOwn entry.1 = true :=
        hasOwn_eq_true.mpr (List.mem_map_of_mem (List.mem_append_left _ hmem))
      rw [knownTakes, hpresent, Bool.or_true, if_pos rfl]
    · intro entry hentry hskip hmem
      obtain ⟨-, hadmits, hread, habsent⟩ := get_skipped hentry hothers hskip hmem
      refine ⟨.undefined, hread.symm ▸ hadmits, ?_⟩
      rw [knownTakes, habsent]
      rfl
  · change Written id _ ((known ++ keptOf others).map Prod.fst) (keptOf others)
    rw [List.map_append]
    refine Written.append (Written.of_none fun key hkey => ?_) (Written.of_table fun entry hentry => ?_)
    · simp only [UnknownTakes, if_pos (hknown.keys_sublist.subset hkey)]
    · obtain ⟨hmem, hkey⟩ := mem_keptOf.mp hentry
      obtain ⟨key, hown, heq, htakes⟩ := hothers.exists_of_mem hmem
      obtain rfl : key = entry.1 := heq
      have hread := get_written hnodup (List.mem_append_right known hentry) objectPrototype
      have hnew := not_declared htakes
      obtain ⟨hkept, ⟨hnever, -⟩ | ⟨hnever, hadmits⟩⟩ := otherTakes_some htakes
      · rw [takesUnknown, hnever, Bool.not_true, Bool.false_or, decide_eq_true_eq] at hkept
        subst hkept
        simp only [UnknownTakes, if_neg hnew, hnever, if_true, hread]
      · simp only [UnknownTakes, if_neg hnew, hnever, hread]
        exact ⟨entry.2, hother hnever entry.1 hown hnew hkey entry.2 hadmits, rfl⟩
  · have hplain : protoKey ∉ (known ++ keptOf others).map Prod.fst := by
      rw [List.map_append, List.mem_append, not_or]
      refine ⟨fun h => hproto (hknown.keys_sublist.subset h), fun hmem => ?_⟩
      obtain ⟨entry, hentry, heq⟩ := List.mem_map.mp hmem
      exact (mem_keptOf.mp hentry).2 heq
    exact (@writeAll_plain [] (known ++ keptOf others) objectPrototype hnodup hplain).symm

/-- An object that sets no prototype, taken apart. -/
structure Rebuilt (language : Language) (shape : List (JsString × Schema))
    (unknownKeys : UnknownKeyPolicy) (catchall : Schema) (own known others : List (JsString × Value)) :
    Prop where
  json : areJsonFields own = true
  nodup : ((known ++ others).map Prod.fst).Nodup
  known : Written Prod.fst (KnownTakes language (.object own objectPrototype)) shape known
  others : Written id (OtherTakes language shape unknownKeys catchall (.object own objectPrototype))
    (own.map Prod.fst) others

theorem exists_rebuilt (hshape : (shape.map Prod.fst).Nodup) (hx : x.isReadable = true)
    (h : Admits language (.object shape unknownKeys catchall) x y) : ∃ own known others,
      x = .object own objectPrototype ∧ (own.map Prod.fst).Nodup ∧
        Rebuilt language shape unknownKeys catchall own known others ∧
        y = writeAll Value.empty (known ++ others) := by
  obtain ⟨hplain, known, others, hknown, hothers, rfl⟩ := h
  obtain ⟨own, rfl, hnodup, hfields⟩ := exists_own_of_isReadable hx hplain
  have hwritten := admitsKnown_iff.mp hknown
  have hwrites :=
    @nodup_writes language (.object own objectPrototype) _ _ _ _ _ hshape hnodup hwritten hothers
  exact ⟨own, known, others, rfl, hnodup, ⟨hfields, hwrites, hwritten, hothers⟩, rfl⟩

namespace Rebuilt

/-- What is kept under a key other than `__proto__` comes from the object itself. -/
theorem exists_of_kept (h : Rebuilt language shape unknownKeys catchall own known others)
    {entry : JsString × Value} (hentry : entry ∈ keptOf others) :
      entry.1 ∈ own.map Prod.fst ∧ entry.1 ≠ protoKey ∧
      OtherTakes language shape unknownKeys catchall (.object own objectPrototype) entry.1
        (some entry.2) := by
  obtain ⟨hmem, hkey⟩ := mem_keptOf.mp hentry
  obtain ⟨key, hown, heq, htakes⟩ := h.others.exists_of_mem hmem
  obtain rfl : key = entry.1 := heq
  exact ⟨hown, hkey, htakes⟩

/-- Nothing else writes to `__proto__`, and what is kept of it there is no prototype. -/
theorem no_prototype (h : Rebuilt language shape unknownKeys catchall own known others)
    (hown : protoKey ∈ own.map Prod.fst → takesUnknown unknownKeys catchall = true →
      ((Value.object own objectPrototype).get protoKey).isPrototype = false) :
    ∀ value, (protoKey, value) ∈ others → value.isPrototype = false := by
  intro value hmem
  obtain ⟨key, hkey, heq, htakes⟩ := h.others.exists_of_mem hmem
  obtain rfl : key = protoKey := heq
  rw [(sameKind_of_otherTakes htakes).prototype]
  exact hown hkey (otherTakes_some htakes).1

end Rebuilt

end Objects

/-! ### What was admitted is sound, and is admitted again -/

section Sound

variable {language : Language} {schema : Schema} {x y : Value}

theorem matchesArrayRule_length {elements data : List Value} (h : data.length = elements.length)
    (rule : Rule ArrayConstraint) : matchesArrayRule data rule = matchesArrayRule elements rule := by
  rw [matchesArrayRule, matchesArrayRule, h]

/-- Only objects have something to say about `__proto__`. -/
theorem setsNoPrototype_object {shape : List (JsString × Schema)} {unknownKeys : UnknownKeyPolicy}
    {catchall : Schema} {own : List (JsString × Value)} {proto : Value}
    (h : setsNoPrototype (.object shape unknownKeys catchall) (.object own proto) = true) :
    (∀ entry ∈ shape, entry.1 ≠ protoKey ∧
      setsNoPrototype entry.2 ((Value.object own proto).get entry.1) = true) ∧
      ∀ key ∈ own.map Prod.fst, key ∉ shape.map Prod.fst →
        (key = protoKey → takesUnknown unknownKeys catchall = true →
          ((Value.object own proto).get key).isPrototype = false) ∧
        (key ≠ protoKey → setsNoPrototype catchall ((Value.object own proto).get key) = true) := by
  rw [setsNoPrototype, Bool.and_eq_true, shapeSetsNoPrototype_iff, List.all_eq_true] at h
  refine ⟨h.1, fun key hkey hnew => ?_⟩
  have hrest := h.2 key hkey
  rw [decide_eq_false hnew, Bool.false_or] at hrest
  constructor
  · intro heq htakes
    rw [if_pos heq, htakes, Bool.true_and, Bool.not_eq_true'] at hrest
    exact hrest
  · intro hne
    rw [if_neg hne] at hrest
    exact hrest

/-- What an array was rebuilt to, from what is known of the item's schema. -/
theorem elements_again {item : Schema} {elements data : List Value}
    (ih : ∀ {x y}, x.isReadable = true → setsNoPrototype item x = true → Admits language item x y →
      Admits language item y y ∧ Reads language item y)
    (hjson : areJson elements = true) (hclean : elements.all (setsNoPrototype item) = true)
    (h : List.Forall₂ (Admits language item) elements data) :
    ∀ value ∈ data, Admits language item value value ∧ Reads language item value := by
  induction h with
  | nil =>
    intro value hmem
    cases hmem
  | @cons element value elements data hfirst hrest ihdata =>
    rw [List.all_cons, Bool.and_eq_true] at hclean
    rw [areJson, Bool.and_eq_true] at hjson
    refine List.forall_mem_cons.mpr ⟨?_, ihdata hjson.2 hclean.2⟩
    exact ih (isReadable_of_isJson hjson.1) hclean.1 hfirst

theorem items_again {items : List Schema} {elements data : List Value}
    (ih : ∀ item ∈ items, ∀ x y, x.isReadable = true → setsNoPrototype item x = true →
      Admits language item x y →
      Admits language item y y ∧ Reads language item y)
    (hjson : areJson elements = true) (hclean : itemsSetNoPrototype items elements = true)
    (h : AdmitsItems language items elements data) :
    AdmitsItems language items data data ∧ ReadsItems language items data := by
  induction items generalizing elements data with
  | nil =>
    obtain ⟨rfl, rfl⟩ := h
    exact ⟨⟨rfl, rfl⟩, trivial⟩
  | cons item items ihitems =>
    obtain ⟨element, elements, value, data, rfl, rfl, hfirst, hrest⟩ := h
    rw [itemsSetNoPrototype, Bool.and_eq_true] at hclean
    rw [areJson, Bool.and_eq_true] at hjson
    obtain ⟨hagain, hreads⟩ :=
      ih item List.mem_cons_self _ _ (isReadable_of_isJson hjson.1) hclean.1 hfirst
    obtain ⟨hagains, hreadss⟩ :=
      ihitems (fun item hitem => ih item (List.mem_cons_of_mem _ hitem)) hjson.2 hclean.2 hrest
    refine ⟨⟨value, data, value, data, rfl, rfl, hagain, hagains⟩, ?_, hreadss⟩
    rintro _ ⟨⟩
    exact hreads

/-- OBJECT: rebuilt to what reads well and is admitted again, if that is true of its parts. -/
theorem object_again {shape : List (JsString × Schema)} {unknownKeys : UnknownKeyPolicy}
    {catchall : Schema}
    (ihshape : ∀ entry ∈ shape, ∀ x y, x.isReadable = true → setsNoPrototype entry.2 x = true →
      Admits language entry.2 x y → Admits language entry.2 y y ∧ Reads language entry.2 y)
    (ihcatchall : catchall.isNever = false → ∀ x y, x.isReadable = true →
      setsNoPrototype catchall x = true →
      Admits language catchall x y → Admits language catchall y y ∧ Reads language catchall y)
    (hkeys : (shape.map Prod.fst).Nodup) (hx : x.isReadable = true)
    (hclean : setsNoPrototype (.object shape unknownKeys catchall) x = true)
    (h : Admits language (.object shape unknownKeys catchall) x y) :
    Admits language (.object shape unknownKeys catchall) y y ∧
      Reads language (.object shape unknownKeys catchall) y := by
  obtain ⟨own, known, others, rfl, hown, hbuilt, rfl⟩ := exists_rebuilt hkeys hx h
  obtain ⟨hdeclared, hrest⟩ := setsNoPrototype_object hclean
  have hproto : protoKey ∉ shape.map Prod.fst := by
    intro hmem
    obtain ⟨entry, hentry, heq⟩ := List.mem_map.mp hmem
    exact (hdeclared entry hentry).1 heq
  have hothers := hbuilt.no_prototype fun hmem htakes => (hrest protoKey hmem hproto).1 rfl htakes
  rw [writeAll_kept hbuilt.nodup (fun h => hproto (hbuilt.known.keys_sublist.subset h)) hothers]
  have hnodup := nodup_kept hbuilt.nodup
  have hpart : ∀ entry ∈ shape, ∀ value,
      Admits language entry.2 ((Value.object own objectPrototype).get entry.1) value →
        Admits language entry.2 value value ∧ Reads language entry.2 value := by
    intro entry hentry value
    obtain ⟨hne, hclean⟩ := hdeclared entry hentry
    exact ihshape entry hentry _ value (isReadable_get hbuilt.json (Or.inl hne)) hclean
  have hother : catchall.isNever = false → ∀ key ∈ own.map Prod.fst, key ∉ shape.map Prod.fst →
      key ≠ protoKey →
      ∀ value, Admits language catchall ((Value.object own objectPrototype).get key) value →
        Admits language catchall value value ∧ Reads language catchall value := by
    intro hnever key hkey hnew hne value
    exact ihcatchall hnever _ value (isReadable_get hbuilt.json (Or.inl hne))
      ((hrest key hkey hnew).2 hne)
  refine ⟨?_, readsShape_iff.mpr ?_, ?_⟩
  · refine admits_rebuilt hkeys hbuilt.nodup hproto hbuilt.known hbuilt.others ?_ ?_
    · intro entry hentry value hadmits
      exact (hpart entry hentry value hadmits).1
    · intro hnever key hkey hnew hne value hadmits
      exact (hother hnever key hkey hnew hne value hadmits).1
  · intro entry hentry
    rcases hbuilt.known.exists_taken hkeys hentry with ⟨value, ⟨data, hadmits, htaken⟩,
      hmem⟩ | ⟨hskip, hmem⟩
    · obtain rfl := eq_of_knownTakes htaken
      obtain ⟨hagain, hreads⟩ := hpart entry hentry value hadmits
      rw [get_written hnodup (List.mem_append_left _ hmem)]
      exact ⟨⟨value, (parseInternal_eq_ok ..).mpr hagain⟩, hreads⟩
    · obtain ⟨hread, hadmits, hafter, -⟩ := get_skipped hentry hbuilt.others hskip hmem
      rw [hafter]
      exact ⟨⟨.undefined, (parseInternal_eq_ok ..).mpr hadmits⟩,
        (hpart entry hentry .undefined (hread ▸ hadmits)).2⟩
  · intro hnever key hkey hnew
    obtain ⟨entry, hentry, rfl⟩ := List.mem_map.mp hkey
    rcases List.mem_append.mp hentry with hmem | hmem
    · exact absurd (hbuilt.known.keys_sublist.subset (List.mem_map_of_mem hmem)) hnew
    · obtain ⟨hkey, hne, htakes⟩ := hbuilt.exists_of_kept hmem
      rw [get_written hnodup hentry]
      exact (hother hnever entry.1 hkey hnew hne entry.2 (admits_of_otherTakes hnever htakes)).2

/-- SOUND: what was admitted without setting a prototype reads as its schema says and is
    admitted again as it is. -/
theorem reads_and_again (hunique : schema.all Schema.hasUniqueKeys = true) (hx : x.isReadable = true)
    (hclean : setsNoPrototype schema x = true) (h : Admits language schema x y) :
    Admits language schema y y ∧ Reads language schema y := by
  induction schema using Schema.build generalizing x y with
  | never => exact h.elim
  | unknown => exact ⟨rfl, trivial⟩
  | string rules requiredError =>
    obtain ⟨text, rfl, hrules, rfl⟩ := h
    exact ⟨⟨text, rfl, hrules, rfl⟩, trivial⟩
  | number rules =>
    obtain ⟨value, rfl, hfinite, hrules, rfl⟩ := h
    exact ⟨⟨value, rfl, hfinite, hrules, rfl⟩, trivial⟩
  | boolean =>
    obtain ⟨value, rfl, rfl⟩ := h
    exact ⟨⟨value, rfl, rfl⟩, trivial⟩
  | literal value =>
    obtain ⟨hsame, rfl⟩ := h
    refine ⟨⟨?_, rfl⟩, trivial⟩
    rw [value_of_isSame hsame]
    exact hsame
  | enum values =>
    obtain ⟨text, rfl, hmem, rfl⟩ := h
    exact ⟨⟨text, rfl, hmem, rfl⟩, trivial⟩
  | optional inner ih =>
    rw [setsNoPrototype, Bool.or_eq_true] at hclean
    rcases h with ⟨hundefined, rfl⟩ | ⟨hdefined, hinner⟩
    · exact ⟨Or.inl ⟨rfl, rfl⟩, Or.inl rfl⟩
    · obtain ⟨hagain, hreads⟩ :=
        ih hunique hx (hclean.resolve_left (by rw [hdefined]; exact Bool.false_ne_true)) hinner
      exact ⟨Or.inr ⟨(sameKind_of_admits hinner).undefined.trans hdefined, hagain⟩, Or.inr hreads⟩
  | nullable inner ih =>
    rw [setsNoPrototype, Bool.or_eq_true] at hclean
    rcases h with ⟨hnull, rfl⟩ | ⟨hother, hinner⟩
    · exact ⟨Or.inl ⟨rfl, rfl⟩, Or.inl rfl⟩
    · obtain ⟨hagain, hreads⟩ :=
        ih hunique hx (hclean.resolve_left (by rw [hother]; exact Bool.false_ne_true)) hinner
      exact ⟨Or.inr ⟨(sameKind_of_admits hinner).null.trans hother, hagain⟩, Or.inr hreads⟩
  | refinement inner refine ih =>
    obtain ⟨hagain, hreads⟩ := ih hunique hx hclean h.1
    exact ⟨⟨hagain, h.2⟩, hreads⟩
  | array item rules ih =>
    obtain ⟨elements, data, rfl, hrules, hdata, rfl⟩ := h
    rw [setsNoPrototype] at hclean
    have hall := elements_again (fun hx hclean h => ih hunique hx hclean h) hx hclean hdata
    refine ⟨⟨data, data, rfl, ?_, ?_, rfl⟩, ?_⟩
    · intro rule hrule
      rw [← hrules rule hrule]
      exact matchesArrayRule_length hdata.length_eq.symm rule
    · exact List.forall₂_same.mpr fun value hvalue => (hall value hvalue).1
    · rintro _ ⟨⟩ value hvalue
      exact (hall value hvalue).2
  | tuple items ih =>
    obtain ⟨elements, data, rfl, hdata, rfl⟩ := h
    rw [setsNoPrototype] at hclean
    have hall := items_again
      (fun item hitem _ _ hx hclean h => ih item hitem (Schema.all_item hunique hitem) hx hclean h) hx
        hclean hdata
    refine ⟨⟨data, data, rfl, hall.1, rfl⟩, ?_⟩
    rintro _ ⟨⟩
    exact hall.2
  | object shape unknownKeys catchall ihshape ihcatchall =>
    obtain ⟨hkeys, hshape, hcatchall⟩ := Schema.all_object hunique
    refine object_again ?_ ?_ (of_decide_eq_true hkeys) hx hclean h
    · intro entry hentry x y hx hclean h
      exact ihshape entry hentry (hshape entry hentry) hx hclean h
    · intro hnever x y hx hclean h
      refine ihcatchall ?_ hx hclean h
      cases hunknown : catchall.isUnknown with
      | true => exact Schema.all_of_isUnknown hunknown rfl
      | false => exact hcatchall hnever hunknown

end Sound

/-! ### A strict schema returns what it was given -/

section Exact

variable {language : Language} {schema : Schema} {x y : Value}

theorem deepEqualFields_iff {fields others : List (JsString × Value)} : DeepEqualFields fields others ↔
    ∀ entry ∈ fields, ∃ found, others.lookup entry.1 = some found ∧ DeepEqual entry.2 found := by
  induction fields with
  | nil => simp [DeepEqualFields]
  | cons entry fields ih => rw [DeepEqualFields, ih, List.forall_mem_cons]

theorem deepEqual_elements {item : Schema} {elements data : List Value}
    (ih : ∀ {x y}, x.isJson = true → setsNoPrototype item x = true → Admits language item x y →
      DeepEqual x y)
    (hjson : areJson elements = true) (hclean : elements.all (setsNoPrototype item) = true)
    (h : List.Forall₂ (Admits language item) elements data) : DeepEqualElements elements data := by
  induction h with
  | nil => rfl
  | @cons element value elements data hfirst hrest ihdata =>
    rw [List.all_cons, Bool.and_eq_true] at hclean
    rw [areJson, Bool.and_eq_true] at hjson
    exact ⟨value, data, rfl, ih hjson.1 hclean.1 hfirst, ihdata hjson.2 hclean.2⟩

theorem deepEqual_items {items : List Schema} {elements data : List Value}
    (ih : ∀ item ∈ items, ∀ x y, x.isJson = true → setsNoPrototype item x = true →
      Admits language item x y →
      DeepEqual x y)
    (hjson : areJson elements = true) (hclean : itemsSetNoPrototype items elements = true)
    (h : AdmitsItems language items elements data) : DeepEqualElements elements data := by
  induction items generalizing elements data with
  | nil =>
    obtain ⟨rfl, rfl⟩ := h
    rfl
  | cons item items ihitems =>
    obtain ⟨element, elements, value, data, rfl, rfl, hfirst, hrest⟩ := h
    rw [itemsSetNoPrototype, Bool.and_eq_true] at hclean
    rw [areJson, Bool.and_eq_true] at hjson
    exact ⟨value, data, rfl, ih item List.mem_cons_self _ _ hjson.1 hclean.1 hfirst,
      ihitems (fun item hitem => ih item (List.mem_cons_of_mem _ hitem)) hjson.2 hclean.2 hrest⟩

/-- A strict object has declared keys only. -/
theorem strict_keys {shape : List (JsString × Schema)} {catchall : Schema}
    {own known others : List (JsString × Value)} (hnever : catchall.isNever = true)
    (hown : (own.map Prod.fst).Nodup) (h : Rebuilt language shape .strict catchall own known others) :
    others = [] ∧ ∀ key ∈ own.map Prod.fst, key ∈ shape.map Prod.fst := by
  have hnothing {key : JsString} {value : Value}
      (htakes : OtherTakes language shape .strict catchall (.object own objectPrototype) key
        (some value)) : False := by
    have hkept := (otherTakes_some htakes).1
    rw [takesUnknown, hnever] at hkept
    cases hkept
  constructor
  · refine List.eq_nil_iff_forall_not_mem.mpr fun entry hentry => ?_
    obtain ⟨key, -, -, htakes⟩ := h.others.exists_of_mem hentry
    exact hnothing htakes
  · intro key hkey
    by_contra hnew
    rcases h.others.exists_taken (by rw [List.map_id]; exact hown) hkey with ⟨value, htakes,
      -⟩ | ⟨htakes, -⟩
    · exact hnothing htakes
    · simp only [OtherTakes, UnknownTakes, if_neg hnew, hnever, if_true] at htakes

theorem deepEqual_object {shape : List (JsString × Schema)} {catchall : Schema}
    (ih : ∀ entry ∈ shape, ∀ x y, x.isJson = true → setsNoPrototype entry.2 x = true →
      Admits language entry.2 x y →
      DeepEqual x y)
    (hlisted : ∀ entry ∈ shape, entry.2.all Schema.isListed = true) (hkeys : (shape.map Prod.fst).Nodup)
    (hnever : catchall.isNever = true) (hx : x.isJson = true)
    (hclean : setsNoPrototype (.object shape .strict catchall) x = true)
    (h : Admits language (.object shape .strict catchall) x y) : DeepEqual x y := by
  obtain ⟨own, known, others, rfl, hown, hbuilt, rfl⟩ := exists_rebuilt hkeys (isReadable_of_isJson hx) h
  obtain ⟨hdeclared, -⟩ := setsNoPrototype_object hclean
  obtain ⟨rfl, hall⟩ := strict_keys hnever hown hbuilt
  have hproto : protoKey ∉ known.map Prod.fst := by
    intro hmem
    obtain ⟨entry, hentry, heq⟩ := List.mem_map.mp (hbuilt.known.keys_sublist.subset hmem)
    exact (hdeclared entry hentry).1 heq
  have hnodup : (known.map Prod.fst).Nodup := hbuilt.known.keys_sublist.nodup hkeys
  rw [writeAll_kept hbuilt.nodup hproto fun value hmem => absurd hmem List.not_mem_nil, keptOf,
    List.filter_nil, List.append_nil]
  have hwritten : ∀ entry ∈ own, ∃ found, (entry.1, found) ∈ known ∧ DeepEqual entry.2 found := by
    intro entry hentry
    obtain ⟨declared, hmem, hkey⟩ := List.mem_map.mp (hall entry.1 (List.mem_map_of_mem hentry))
    have hread : (Value.object own objectPrototype).get declared.1 = entry.2 := by
      rw [hkey]
      exact get_written hown hentry objectPrototype
    rcases hbuilt.known.exists_taken hkeys hmem with ⟨value, ⟨data, hadmits, htaken⟩,
      hvalue⟩ | ⟨⟨data, -, htaken⟩, -⟩
    · obtain rfl := eq_of_knownTakes htaken
      obtain ⟨-, hclean⟩ := hdeclared declared hmem
      rw [hread] at hadmits hclean
      exact ⟨value, hkey ▸ hvalue,
        ih declared hmem _ value (isJson_of_field hbuilt.json hentry) hclean hadmits⟩
    · have hpresent : (Value.object own objectPrototype).hasOwn declared.1 = true :=
        hasOwn_eq_true.mpr (hkey ▸ List.mem_map_of_mem hentry)
      rw [knownTakes, hpresent, Bool.or_true, if_pos rfl] at htaken
      cases htaken
  have hpresent : ∀ key ∈ known.map Prod.fst, key ∈ own.map Prod.fst := by
    intro key hkey
    by_contra habsent
    obtain ⟨⟨_, value⟩, hmem, rfl⟩ := List.mem_map.mp hkey
    obtain ⟨entry, hentry, rfl, data, hadmits, htaken⟩ := hbuilt.known.exists_of_mem hmem
    rw [get_inherited habsent, inherited, if_neg (hdeclared entry hentry).1] at hadmits
    split at hadmits
    · exact not_admits_builtin (hlisted entry hentry) hadmits
    · have hundefined : data.isUndefined = true := (sameKind_of_admits hadmits).undefined
      have hown : (Value.object own objectPrototype).hasOwn entry.1 = false := by
        rw [← Bool.not_eq_true, hasOwn_eq_true]
        exact habsent
      rw [knownTakes, hundefined, hown] at htaken
      cases htaken
  have hperm : (known.map Prod.fst).Perm (own.map Prod.fst) := by
    refine (List.perm_ext_iff_of_nodup hnodup hown).mpr fun key => ⟨hpresent key, fun hkey => ?_⟩
    obtain ⟨entry, hentry, rfl⟩ := List.mem_map.mp hkey
    obtain ⟨found, hfound, -⟩ := hwritten entry hentry
    exact List.mem_map.mpr ⟨_, hfound, rfl⟩
  refine ⟨known, rfl, by simpa using hperm.length_eq, deepEqualFields_iff.mpr fun entry hentry => ?_⟩
  obtain ⟨found, hfound, hequal⟩ := hwritten entry hentry
  exact ⟨found, lookup_of_mem hnodup hfound, hequal⟩

/-- EXACT: where every object is strict, what was admitted is what was given. -/
theorem deepEqual_of_admits (hunique : schema.all Schema.hasUniqueKeys = true)
    (hlisted : schema.all Schema.isListed = true)
    (hstrict : schema.all Schema.isStrictWithoutCatchall = true) (hx : x.isJson = true)
    (hclean : setsNoPrototype schema x = true) (h : Admits language schema x y) :
    DeepEqual x y := by
  induction schema using Schema.build generalizing x y with
  | never => exact h.elim
  | unknown => cases hlisted
  | string rules requiredError =>
    obtain ⟨text, rfl, -, rfl⟩ := h
    exact rfl
  | number rules =>
    obtain ⟨value, rfl, -, -, rfl⟩ := h
    exact rfl
  | boolean =>
    obtain ⟨value, rfl, rfl⟩ := h
    exact rfl
  | literal value =>
    obtain ⟨hsame, rfl⟩ := h
    rw [← value_of_isSame hsame]
    cases value <;> exact rfl
  | enum values =>
    obtain ⟨text, rfl, -, rfl⟩ := h
    exact rfl
  | optional inner ih =>
    rw [setsNoPrototype, Bool.or_eq_true] at hclean
    rcases h with ⟨hundefined, -⟩ | ⟨hdefined, hinner⟩
    · rw [eq_undefined hundefined] at hx
      cases hx
    · exact ih hunique hlisted hstrict hx
        (hclean.resolve_left (by rw [hdefined]; exact Bool.false_ne_true)) hinner
  | nullable inner ih =>
    rw [setsNoPrototype, Bool.or_eq_true] at hclean
    rcases h with ⟨hnull, rfl⟩ | ⟨hother, hinner⟩
    · cases x with
      | null => exact rfl
      | _ => cases hnull
    · exact ih hunique hlisted hstrict hx
        (hclean.resolve_left (by rw [hother]; exact Bool.false_ne_true)) hinner
  | refinement inner refine ih => exact ih hunique hlisted hstrict hx hclean h.1
  | array item rules ih =>
    obtain ⟨elements, data, rfl, -, hdata, rfl⟩ := h
    rw [setsNoPrototype] at hclean
    exact ⟨data, rfl, deepEqual_elements (fun hx hclean h => ih hunique hlisted hstrict hx hclean h) hx
      hclean hdata⟩
  | tuple items ih =>
    obtain ⟨elements, data, rfl, hdata, rfl⟩ := h
    rw [setsNoPrototype] at hclean
    refine ⟨data, rfl, deepEqual_items (fun item hitem x y hx hclean h => ?_) hx hclean hdata⟩
    exact ih item hitem (Schema.all_item hunique hitem) (Schema.all_item hlisted hitem)
      (Schema.all_item hstrict hitem) hx hclean h
  | object shape unknownKeys catchall ihshape ihcatchall =>
    obtain ⟨hkeys, hshape, -⟩ := Schema.all_object hunique
    obtain ⟨-, hparts, -⟩ := Schema.all_object hlisted
    obtain ⟨hpolicy, hstricts, -⟩ := Schema.all_object hstrict
    rw [Schema.isStrictWithoutCatchall, Bool.and_eq_true, decide_eq_true_eq] at hpolicy
    obtain ⟨rfl, hnever⟩ := hpolicy
    refine deepEqual_object (fun entry hentry x y hx hclean h => ?_) hparts (of_decide_eq_true hkeys)
      hnever hx hclean h
    exact ihshape entry hentry (hshape entry hentry) (hparts entry hentry)
      (hstricts entry hentry) hx hclean h

end Exact

end StarkBallot.Validation
