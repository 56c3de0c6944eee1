import StarkBallot.Validation.SchemaSoundness

/-! When the schemas of `schema.ts` keep their word. They do whenever no object passes an own key
    `__proto__` on to its output; the other way round, an output that is returned again as it is has the
    usual prototype everywhere, for the second reading finds no own key `__proto__` to set another one.

        x           { "__proto__": { "a": 5 } }       prototype Object.prototype
        y           { }                               prototype { "a": 5 }
        y again     { "a": 5 }, or an issue           prototype Object.prototype -/

namespace StarkBallot.Validation
open Schemes Value

/-! ### What is admitted again has set no prototype -/

section Again

variable {language : Language} {schema : Schema} {x y : Value}

theorem elements_clean {item : Schema} {elements data : List Value}
    (ih : ∀ {x y}, x.isReadable = true → Admits language item x y → Admits language item y y →
      setsNoPrototype item x = true)
    (hjson : areJson elements = true) (h : List.Forall₂ (Admits language item) elements data)
    (hagain : ∀ value ∈ data, Admits language item value value) :
      elements.all (setsNoPrototype item) = true := by
  induction h with
  | nil => rfl
  | @cons element value elements data hfirst hrest ihdata =>
    rw [areJson, Bool.and_eq_true] at hjson
    obtain ⟨hvalue, hvalues⟩ := List.forall_mem_cons.mp hagain
    rw [List.all_cons, ih (isReadable_of_isJson hjson.1) hfirst hvalue, ihdata hjson.2 hvalues]
    rfl

theorem items_clean {items : List Schema} {elements data : List Value}
    (ih : ∀ item ∈ items, ∀ x y, x.isReadable = true → Admits language item x y →
      Admits language item y y →
      setsNoPrototype item x = true)
    (hjson : areJson elements = true) (h : AdmitsItems language items elements data)
    (hagain : AdmitsItems language items data data) : itemsSetNoPrototype items elements = true := by
  induction items generalizing elements data with
  | nil => rfl
  | cons item items ihitems =>
    obtain ⟨element, elements, value, data, rfl, rfl, hfirst, hrest⟩ := h
    obtain ⟨_, _, _, _, heq, heq', hvalue, hvalues⟩ := hagain
    obtain ⟨rfl, rfl⟩ := List.cons.inj heq
    obtain ⟨rfl, rfl⟩ := List.cons.inj heq'
    rw [areJson, Bool.and_eq_true] at hjson
    have hhead := ih item List.mem_cons_self _ _ (isReadable_of_isJson hjson.1) hfirst hvalue
    have htail :=
      ihitems (fun item hitem => ih item (List.mem_cons_of_mem _ hitem)) hjson.2 hrest hvalues
    rw [itemsSetNoPrototype, List.head?_cons, Option.all_some, List.tail_cons, hhead, htail]
    rfl

theorem isObjectPrototype_of_isReadable (h : x.isReadable = true) : x.isObjectPrototype = false := by
  cases x with
  | objectPrototype => cases h
  | _ => rfl

theorem prototype_of_protoAfter {writes : List (JsString × Value)}
    (hordinary : x.isObjectPrototype = false) (hwritten : writes.lookup protoKey = some x)
    (husual : protoAfter writes = objectPrototype) :
    x.isPrototype = false := by
  rw [protoAfter, hwritten] at husual
  by_contra hprototype
  simp only [Bool.not_eq_false] at hprototype
  simp only [hprototype, if_true] at husual
  rw [husual] at hordinary
  cases hordinary

theorem setsNoPrototype_never (h : schema.isNever = true) (x : Value) :
    setsNoPrototype schema x = true := by
  cases schema with
  | never => rfl
  | _ => cases h

/-- An object that is admitted again, taken apart both times: its second prototype is the usual one, so
    its first one was. -/
theorem exists_rebuilt_again {shape : List (JsString × Schema)} {unknownKeys : UnknownKeyPolicy}
    {catchall : Schema} {own known others : List (JsString × Value)} (hkeys : (shape.map Prod.fst).Nodup)
    (hproto : protoKey ∉ shape.map Prod.fst) (hnodup : ((known ++ others).map Prod.fst).Nodup)
    (hown : own = (known ++ others).filter fun entry => entry.1 ≠ protoKey)
    (h : Admits language (.object shape unknownKeys catchall)
      (.object own (protoAfter (known ++ others))) (.object own (protoAfter (known ++ others)))) :
    protoAfter (known ++ others) = objectPrototype ∧ ∃ again more, own = again ++ more ∧
      Written Prod.fst (KnownTakes language (.object own objectPrototype)) shape again ∧
      Written id (OtherTakes language shape unknownKeys catchall (.object own objectPrototype))
        (own.map Prod.fst) more := by
  have hunique : (own.map Prod.fst).Nodup := hown ▸ hnodup.sublist (List.filter_sublist.map Prod.fst)
  have hplain : protoKey ∉ own.map Prod.fst := by
    intro hmem
    obtain ⟨entry, hentry, heq⟩ := List.mem_map.mp (hown ▸ hmem)
    exact of_decide_eq_true (List.mem_filter.mp hentry).2 heq
  obtain ⟨-, again, more, hagain, hmore, heq⟩ := h
  have hagain' := admitsKnown_iff.mp hagain
  have hwrites :=
    @nodup_writes language (.object own (protoAfter (known ++ others))) _ _ _ _ _ hkeys hunique
      hagain' hmore
  have hfree : protoKey ∉ (again ++ more).map Prod.fst := by
    rw [List.map_append, List.mem_append, not_or]
    refine ⟨fun h => hproto (hagain'.keys_sublist.subset h), fun h => hplain ?_⟩
    have hsub := hmore.keys_sublist.subset h
    rwa [List.map_id] at hsub
  rw [Value.empty, @writeAll_plain [] (again ++ more) objectPrototype hwrites hfree,
    Value.object.injEq] at heq
  obtain ⟨hsame, husual⟩ := heq
  rw [husual] at hagain' hmore
  exact ⟨husual, again, more, hsame, hagain', hmore⟩

theorem object_clean {shape : List (JsString × Schema)} {unknownKeys : UnknownKeyPolicy}
    {catchall : Schema}
    (ihshape : ∀ entry ∈ shape, ∀ x y, x.isReadable = true → Admits language entry.2 x y →
      Admits language entry.2 y y →
      setsNoPrototype entry.2 x = true)
    (ihcatchall : catchall.isNever = false → ∀ x y, x.isReadable = true → Admits language catchall x y →
      Admits language catchall y y → setsNoPrototype catchall x = true)
    (hkeys : (shape.map Prod.fst).Nodup) (hproto : protoKey ∉ shape.map Prod.fst)
    (hx : x.isReadable = true)
    (h : Admits language (.object shape unknownKeys catchall) x y)
    (hagain : Admits language (.object shape unknownKeys catchall) y y) :
    setsNoPrototype (.object shape unknownKeys catchall) x = true := by
  obtain ⟨own, known, others, rfl, hown, hbuilt, rfl⟩ := exists_rebuilt hkeys hx h
  rw [writeAll_empty hbuilt.nodup] at hagain
  obtain ⟨husual, again, more, hsame, hknown, hmore⟩ :=
    exists_rebuilt_again hkeys hproto hbuilt.nodup rfl hagain
  generalize hkept : ((known ++ others).filter fun entry => entry.1 ≠ protoKey) = kept at *
  have hunique : (kept.map Prod.fst).Nodup :=
    hkept ▸ hbuilt.nodup.sublist (List.filter_sublist.map Prod.fst)
  have hmem {key : JsString} {value : Value} (h : (key, value) ∈ known ++ others)
      (hne : key ≠ protoKey) :
      (key, value) ∈ kept := hkept ▸ List.mem_filter.mpr ⟨h, decide_eq_true hne⟩
  have hvalue {key : JsString} {value value' : Value} (h : (key, value) ∈ kept)
      (h' : (key, value') ∈ kept) :
      value' = value :=
    Option.some.inj ((lookup_of_mem hunique h').symm.trans (lookup_of_mem hunique h))
  rw [setsNoPrototype, Bool.and_eq_true, shapeSetsNoPrototype_iff, List.all_eq_true]
  constructor
  · intro entry hentry
    have hne : entry.1 ≠ protoKey := fun heq => hproto (heq ▸ List.mem_map_of_mem hentry)
    refine ⟨hne, ?_⟩
    rcases hbuilt.known.exists_taken hkeys hentry with ⟨value, ⟨data, hadmits, htaken⟩,
      hfound⟩ | ⟨hskip, hfound⟩
    · obtain rfl := eq_of_knownTakes htaken
      have hin := hmem (List.mem_append_left _ hfound) hne
      have hread := get_written hunique hin objectPrototype
      rcases hknown.exists_taken hkeys hentry with
        ⟨value', ⟨data', hadmits', htaken'⟩, hfound'⟩ | ⟨⟨data', -, htaken'⟩, -⟩
      · obtain rfl := eq_of_knownTakes htaken'
        obtain rfl := hvalue hin (hsame ▸ List.mem_append_left _ hfound')
        rw [hread] at hadmits'
        exact ihshape entry hentry _ _ (isReadable_get hbuilt.json (Or.inl hne)) hadmits hadmits'
      · have hpresent : (Value.object kept objectPrototype).hasOwn entry.1 = true :=
          hasOwn_eq_true.mpr (List.mem_map.mpr ⟨_, hin, rfl⟩)
        rw [knownTakes, hpresent, Bool.or_true, if_pos rfl] at htaken'
        cases htaken'
    · obtain ⟨hread, hadmits, -, -⟩ := get_skipped hentry hbuilt.others hskip hfound
      rw [hread]
      exact ihshape entry hentry _ _ rfl hadmits hadmits
  · intro key hkey
    by_cases hnew : key ∈ shape.map Prod.fst
    · rw [decide_eq_true hnew, Bool.true_or]
    · rw [decide_eq_false hnew, Bool.false_or]
      have htaken := hbuilt.others.exists_taken (by rw [List.map_id]; exact hown) hkey
      by_cases hne : key = protoKey
      · subst hne
        rw [if_pos rfl, Bool.not_eq_true', Bool.and_eq_false_iff]
        rcases htaken with ⟨value, htakes, hfound⟩ | ⟨hskip, -⟩
        · right
          have hkind := sameKind_of_otherTakes htakes
          have hordinary :=
            hkind.ordinary (isObjectPrototype_of_isReadable (isReadable_get hbuilt.json (Or.inr hkey)))
          rw [← hkind.prototype]
          refine prototype_of_protoAfter hordinary ?_ husual
          exact lookup_of_mem hbuilt.nodup (List.mem_append_right _ hfound)
        · exact Or.inl (otherTakes_none hskip hnew)
      · rw [if_neg hne]
        cases hnever : catchall.isNever with
        | true => exact setsNoPrototype_never hnever _
        | false =>
          have hkeeps : takesUnknown unknownKeys catchall = true := by
            rw [takesUnknown, hnever]
            rfl
          rcases htaken with ⟨value, htakes, hfound⟩ | ⟨hskip, -⟩
          · have hin : (key, value) ∈ kept := hmem (List.mem_append_right _ hfound) hne
            have hread := get_written hunique hin objectPrototype
            have hadmits := admits_of_otherTakes hnever htakes
            have hpresent : key ∈ kept.map Prod.fst := List.mem_map.mpr ⟨_, hin, rfl⟩
            rcases hmore.exists_taken (by rw [List.map_id]; exact hunique) hpresent with
              ⟨value', htakes', hfound'⟩ | ⟨hskip', -⟩
            · have hadmits' := admits_of_otherTakes hnever htakes'
              obtain rfl := hvalue hin (hsame ▸ List.mem_append_right _ hfound')
              rw [hread] at hadmits'
              exact ihcatchall hnever _ _ (isReadable_get hbuilt.json (Or.inl hne)) hadmits hadmits'
            · exact absurd (hkeeps.symm.trans (otherTakes_none hskip' hnew)) Bool.false_ne_true.symm
          · exact absurd (hkeeps.symm.trans (otherTakes_none hskip hnew)) Bool.false_ne_true.symm

/-- CLEAN: a schema that does not declare `__proto__`, and whose output it returns
    again, has set no prototype. -/
theorem setsNoPrototype_of_again (hunique : schema.all Schema.hasUniqueKeys = true)
    (hproto : schema.all Schema.declaresNoProto = true) (hx : x.isReadable = true)
    (h : Admits language schema x y) (hagain : Admits language schema y y) :
    setsNoPrototype schema x = true := by
  induction schema using Schema.build generalizing x y with
  | never => exact h.elim
  | optional inner ih =>
    rw [setsNoPrototype]
    rcases h with ⟨hundefined, -⟩ | ⟨hdefined, hinner⟩
    · rw [hundefined, Bool.true_or]
    · rcases hagain with ⟨hundefined, -⟩ | ⟨-, hagain⟩
      · exact absurd ((hdefined.symm.trans (sameKind_of_admits hinner).undefined.symm).trans hundefined)
          Bool.false_ne_true
      · rw [ih hunique hproto hx hinner hagain, Bool.or_true]
  | nullable inner ih =>
    rw [setsNoPrototype]
    rcases h with ⟨hnull, -⟩ | ⟨hother, hinner⟩
    · rw [hnull, Bool.true_or]
    · rcases hagain with ⟨hnull, -⟩ | ⟨-, hagain⟩
      · exact absurd ((hother.symm.trans (sameKind_of_admits hinner).null.symm).trans hnull)
          Bool.false_ne_true
      · rw [ih hunique hproto hx hinner hagain, Bool.or_true]
  | refinement inner refine ih => exact ih hunique hproto hx h.1 hagain.1
  | array item rules ih =>
    obtain ⟨elements, data, rfl, -, hdata, rfl⟩ := h
    obtain ⟨_, _, heq, -, hdata', heq'⟩ := hagain
    obtain rfl := Value.array.inj heq
    obtain rfl := Value.array.inj heq'
    exact elements_clean (fun hx h hagain => ih hunique hproto hx h hagain) hx hdata
      (List.forall₂_same.mp hdata')
  | tuple items ih =>
    obtain ⟨elements, data, rfl, hdata, rfl⟩ := h
    obtain ⟨_, _, heq, hdata', heq'⟩ := hagain
    obtain rfl := Value.array.inj heq
    obtain rfl := Value.array.inj heq'
    refine items_clean (fun item hitem x y hx h hagain => ?_) hx hdata hdata'
    exact ih item hitem (Schema.all_item hunique hitem) (Schema.all_item hproto hitem) hx h hagain
  | object shape unknownKeys catchall ihshape ihcatchall =>
    obtain ⟨hkeys, hshape, hcatchall⟩ := Schema.all_object hunique
    obtain ⟨hfree, hparts, hother⟩ := Schema.all_object hproto
    refine object_clean ?_ ?_ (of_decide_eq_true hkeys) (of_decide_eq_true hfree) hx h hagain
    · intro entry hentry x y hx h hagain
      exact ihshape entry hentry (hshape entry hentry) (hparts entry hentry) hx h hagain
    · intro hnever x y hx h hagain
      cases hunknown : catchall.isUnknown with
      | true =>
        exact ihcatchall (Schema.all_of_isUnknown hunknown rfl)
          (Schema.all_of_isUnknown hunknown rfl) hx h hagain
      | false => exact ihcatchall (hcatchall hnever hunknown) (hother hnever hunknown) hx h hagain
  | _ => rfl

end Again

/-! ### What a schema's answer is worth -/

section Worth

variable (language : Language)

/-- The value `y` that a schema made of `x`: it reads as the schema says, the schema returns it again as
    it is, and it is `x` where every object is strict. -/
structure WellAdmitted (schema : Schema) (x y : Value) : Prop where
  reads : Reads language schema y
  again : safeParse language schema y = .ok y
  exact : schema.all Schema.isStrictWithoutCatchall = true → DeepEqual x y

/-- ADMITTED: every value that a schema returns for a value of JSON is worth its name if no prototype
    was set; and, where no schema inside declares `__proto__`, only then. -/
theorem wellAdmitted_iff (schema : Schema) (hunique : schema.all Schema.hasUniqueKeys = true)
    (hlisted : schema.all Schema.isListed = true) (x y : Value) (hx : x.isJson = true)
    (h : safeParse language schema x = .ok y) :
    (setsNoPrototype schema x = true → WellAdmitted language schema x y) ∧
      (schema.all Schema.declaresNoProto = true → WellAdmitted language schema x y →
        setsNoPrototype schema x = true) := by
  have hadmits := (parseInternal_eq_ok schema x y []).mp h
  constructor
  · intro hclean
    obtain ⟨hagain, hreads⟩ := reads_and_again hunique (isReadable_of_isJson hx) hclean hadmits
    exact ⟨hreads, (parseInternal_eq_ok schema y y []).mpr hagain,
      fun hstrict => deepEqual_of_admits hunique hlisted hstrict hx hclean hadmits⟩
  · intro hproto hwell
    exact setsNoPrototype_of_again hunique hproto (isReadable_of_isJson hx) hadmits
      ((parseInternal_eq_ok schema y y []).mp hwell.again)

end Worth

/-! ### Samples -/

def sampleLanguage : Language := ⟨fun _ _ _ => true, fun _ => []⟩

/-- `s.object({ a: s.string().optional() }).passthrough()`. -/
def sampleSchema : Schema :=
  .object [(js "a", .optional (.string [⟨.minLength (.ofNat 1), js "short"⟩] none))] .passthrough .never

/-- `{ "x": [null, 1], "a": "t" }`, and what it is rebuilt to. -/
def sampleInput : Value :=
  .object [(js "x", .array [.null, .number (.ofNat 1)]), (js "a", .string (js "t"))] .objectPrototype

def sampleOutput : Value :=
  .object [(js "a", .string (js "t")), (js "x", .array [.null, .number (.ofNat 1)])] .objectPrototype

theorem wellAdmitted_on_sample : WellAdmitted sampleLanguage sampleSchema sampleInput sampleOutput :=
  (wellAdmitted_iff sampleLanguage sampleSchema (by decide) (by decide) sampleInput
    sampleOutput (by decide) rfl).1 (by decide)

/-- `{ "__proto__": { "a": 5 } }`, as `JSON.parse` returns it. -/
def pollutingInput : Value :=
  .object [(js "__proto__", .object [(js "a", .number (.ofNat 5))] .objectPrototype)] .objectPrototype

/-- POLLUTED: the declared key reads as a number, though its schema is that of a string. -/
theorem proto_key_passes_through : ¬ ∀ (language : Language) (schema : Schema),
    schema.all Schema.hasUniqueKeys = true → schema.all Schema.isListed = true →
      ∀ x y : Value, x.isJson = true →
      safeParse language schema x = .ok y → WellAdmitted language schema x y := by
  intro h
  have hwell := h sampleLanguage sampleSchema (by decide) (by decide) pollutingInput
    (.object [] (.object [(js "a", .number (.ofNat 5))] .objectPrototype)) (by decide) rfl
  obtain ⟨⟨⟨data, hdata⟩, -⟩, -⟩ := hwell.reads.1
  cases hdata

end StarkBallot.Validation
