import StarkBallot.AwsAdapters.ProverWorkCodecs

/-! Messages for the prover, read back (`aws-adapters/src/sqs/proverWorkMessage.ts`). Which messages are
    accepted, what is left of them, and that what was accepted survives JSON and
    is accepted again as it is.

        message ──write──▶ value ──parse──▶ canonical message
                             ▲                    │
                             └───JSON◀──write─────┘ -/

namespace StarkBallot.AwsAdapters
open Schemes Validation CryptoPrimitives ZkvmContract Domain Application

/-! ### The scenario -/

section Scenario

theorem scenarioText_injective : Function.Injective scenarioText := by
  rintro (_ | _) (_ | _) h <;> first | rfl | exact absurd h (by decide)

theorem choiceText_injective : Function.Injective choiceText := by
  rintro (_ | _) (_ | _) h <;> first | rfl | exact absurd h (by decide)

theorem tamperModeText_injective : Function.Injective tamperModeText := by
  rintro (_ | _) (_ | _) h <;> first | rfl | exact absurd h (by decide)

theorem inputSourceText_injective : Function.Injective inputSourceText := by
  rintro (_ | _) (_ | _) h <;> first | rfl | exact absurd h (by decide)

theorem parseTamperMode_plain :
    Plain parseTamperMode (fun mode => .string (tamperModeText mode)) fun _ => True :=
  parseOption_all tamperModeText_injective (by rintro (_ | _) <;> decide)

theorem parseInputSource_plain :
    Plain parseInputSource (fun source => .string (inputSourceText source)) fun _ => True :=
  parseOption_all inputSourceText_injective (by rintro (_ | _) <;> decide)

theorem parseScenarioCode_plain (label : String) :
    Plain (parseScenarioCode · label) (fun code => .string (scenarioText code)) fun _ => True :=
  parseOption_all scenarioText_injective (by rintro (_ | _) <;> decide)

theorem parseScenarioCodes_eq_ok {v : JsValue} {codes : List FinalizationScenarioCode} :
    parseScenarioCodes v = .ok codes ↔
    v = .array (codes.map fun code => .string (scenarioText code)) := by
  have heach := Plain.each (fun index => parseScenarioCode_plain s!"scenarios.{index}") 0
  cases v <;> simp only [parseScenarioCodes, reduceCtorEq]
  rw [heach, JsValue.array.injEq]
  exact and_iff_left fun _ _ => trivial

/-- How an absent choice is shown. -/
def recountValue (choice : Option VoteChoice) : JsValue :=
  (choice.map fun choice => .string (choiceText choice)).getD .null

theorem some_map_eq_ok {ε α : Type} {x : Except ε α} {o : Option α} :
    some <$> x = .ok o ↔ ∃ a, x = .ok a ∧ o = some a := by
  cases x <;> simp [Functor.map, Except.map, eq_comm]

theorem parseUserRecountChoice_eq_ok {v : JsValue} {choice : Option VoteChoice} :
    parseUserRecountChoice v = .ok choice ↔ v = recountValue choice := by
  have hplain :
      Plain (parseOption Domain.voteChoices choiceText
        · "userRecountChoice must be a vote choice or null")
      (fun choice => .string (choiceText choice)) fun _ => True :=
    parseOption_all choiceText_injective (by rintro (_ | _) <;> decide)
  by_cases hnull : v = .null
  · subst hnull
    cases choice <;> simp [parseUserRecountChoice, recountValue]
  · have hread : parseUserRecountChoice v =
        some <$> parseOption Domain.voteChoices choiceText v
          "userRecountChoice must be a vote choice or null" := by
      cases v <;> first | rfl | exact absurd rfl hnull
    rw [hread, some_map_eq_ok]
    constructor
    · rintro ⟨given, hgiven, rfl⟩
      exact ((hplain v given).mp hgiven).1
    · rintro rfl
      cases choice with
      | none => exact absurd rfl hnull
      | some given => exact ⟨given, (hplain _ given).mpr ⟨rfl, trivial⟩, rfl⟩

/-- How a list that may be missing is shown. -/
def idsValue (ids : Option (List Num)) : JsValue :=
  (ids.map fun ids => .array (ids.map .number)).getD .undefined

theorem parseAffectedBotIds_eq_ok {v : JsValue} {ids : Option (List Num)}
    (hv : ¬ (¬ v.isUndefined = true ∧ ¬ isArray v = true)) :
    parseAffectedBotIds v = .ok ids ↔
      v = idsValue ids ∧ ∀ given, ids = some given → ∀ id ∈ given, ValidInteger (.atLeast 0) id := by
  have heach := Plain.each (fun index => @parseInteger_plain s!"affectedBotIds.{index}" (.atLeast 0)) 0
  cases v with
  | undefined => cases ids <;> simp [parseAffectedBotIds, idsValue]
  | array elements =>
    rw [parseAffectedBotIds, some_map_eq_ok]
    constructor
    · rintro ⟨given, hgiven, rfl⟩
      obtain ⟨rfl, hall⟩ := (heach _ _).mp hgiven
      exact ⟨rfl, fun _ hsame => Option.some.inj hsame ▸ hall⟩
    · rintro ⟨hvalue, hall⟩
      cases ids with
      | none => cases hvalue
      | some given =>
        obtain rfl := JsValue.array.inj hvalue
        exact ⟨given, (heach _ _).mpr ⟨rfl, hall given rfl⟩, rfl⟩
  | _ => exact absurd ⟨Bool.false_ne_true, Bool.false_ne_true⟩ hv

theorem place_cases {place : ℕ} (h : place < 5) :
    place = 0 ∨ place = 1 ∨ place = 2 ∨ place = 3 ∨ place = 4 := by omega

/-- SPEC: counts are read one by one. -/
theorem parseClaimedCounts_eq_ok {v : JsValue} {counts : Counts} :
    parseClaimedCounts v = .ok counts ↔ IsRecord v claimedCountsKeys ∧
      ∃ a b c d e, counts = #v[a, b, c, d, e] ∧
      parseInteger (property v "A") "claimedCounts.A" (.atLeast 0) = .ok a ∧
      parseInteger (property v "B") "claimedCounts.B" (.atLeast 0) = .ok b ∧
      parseInteger (property v "C") "claimedCounts.C" (.atLeast 0) = .ok c ∧
      parseInteger (property v "D") "claimedCounts.D" (.atLeast 0) = .ok d ∧
      parseInteger (property v "E") "claimedCounts.E" (.atLeast 0) = .ok e := by
  rw [parseClaimedCounts, asRecord_bind_eq_ok]
  refine and_congr_right fun _ => ?_
  constructor
  · intro h
    obtain ⟨a, ha, h⟩ := bind_eq_ok.mp h
    obtain ⟨b, hb, h⟩ := bind_eq_ok.mp h
    obtain ⟨c, hc, h⟩ := bind_eq_ok.mp h
    obtain ⟨d, hd, h⟩ := bind_eq_ok.mp h
    obtain ⟨e, he, h⟩ := bind_eq_ok.mp h
    exact ⟨a, b, c, d, e, (Except.ok.inj h).symm, ha, hb, hc, hd, he⟩
  · rintro ⟨a, b, c, d, e, rfl, ha, hb, hc, hd, he⟩
    rw [ha, ok_bind, hb, ok_bind, hc, ok_bind, hd, ok_bind, he, ok_bind]
    rfl

/-- Every count is one that `parseClaimedCounts` lets through. -/
def ValidCounts (counts : Counts) : Prop :=
  ∀ (place : ℕ) (h : place < 5), ValidInteger (.atLeast 0) counts[place]

theorem parseClaimedCounts_reads : Reads parseClaimedCounts claimedCountsValue ValidCounts id where
  accepts counts read := by
    rw [parseClaimedCounts_eq_ok]
    constructor
    · rintro ⟨-, a, b, c, d, e, rfl, ha, hb, hc, hd, he⟩
      obtain ⟨ha, hvalidA⟩ := (parseInteger_plain _ _).mp ha
      obtain ⟨hb, hvalidB⟩ := (parseInteger_plain _ _).mp hb
      obtain ⟨hc, hvalidC⟩ := (parseInteger_plain _ _).mp hc
      obtain ⟨hd, hvalidD⟩ := (parseInteger_plain _ _).mp hd
      obtain ⟨he, hvalidE⟩ := (parseInteger_plain _ _).mp he
      obtain rfl : #v[a, b, c, d, e] = counts := by
        refine Vector.ext fun place hplace => ?_
        obtain rfl | rfl | rfl | rfl | rfl := place_cases hplace
        exacts [(JsValue.number.inj ha).symm, (JsValue.number.inj hb).symm, (JsValue.number.inj hc).symm,
          (JsValue.number.inj hd).symm, (JsValue.number.inj he).symm]
      refine ⟨fun place hplace => ?_, rfl⟩
      obtain rfl | rfl | rfl | rfl | rfl := place_cases hplace
      exacts [hvalidA, hvalidB, hvalidC, hvalidD, hvalidE]
    · rintro ⟨hvalid, rfl⟩
      refine ⟨⟨rfl, rfl, rfl⟩, _, _, _, _, _, ?_, parseInteger_reads.ok (hvalid 0 (by decide)),
        parseInteger_reads.ok (hvalid 1 (by decide)), parseInteger_reads.ok (hvalid 2 (by decide)),
        parseInteger_reads.ok (hvalid 3 (by decide)), parseInteger_reads.ok (hvalid 4 (by decide))⟩
      refine Vector.ext fun place hplace => ?_
      obtain rfl | rfl | rfl | rfl | rfl := place_cases hplace
      all_goals rfl
  canonical v counts hread := by
    obtain ⟨-, a, b, c, d, e, rfl, ha, hb, hc, hd, he⟩ := parseClaimedCounts_eq_ok.mp hread
    refine ⟨fun place hplace => ?_, rfl⟩
    obtain rfl | rfl | rfl | rfl | rfl := place_cases hplace
    exacts [((parseInteger_plain _ _).mp ha).2, ((parseInteger_plain _ _).mp hb).2,
      ((parseInteger_plain _ _).mp hc).2, ((parseInteger_plain _ _).mp hd).2,
      ((parseInteger_plain _ _).mp he).2]

/-- What `parseScenarioContext` lets through. -/
structure ValidContext (context : FinalizationScenarioContext) : Prop where
  scenarios : ∃ codes : List FinalizationScenarioCode, context.scenarios = codes.map scenarioText
  claimedCounts : ValidCounts context.claimedCounts
  claimedTotalVotes : ValidInteger (.atLeast 0) context.claimedTotalVotes
  ignoredCount : ValidInteger (.atLeast 0) context.ignoredCount
  recountedCount : ValidInteger (.atLeast 0) context.recountedCount
  affectedBotIds : ∀ ids, context.affectedBotIds = some ids → ∀ id ∈ ids, ValidInteger (.atLeast 0) id

/-- SPEC: a scenario is read field by field. -/
theorem parseScenarioContextRecord_eq_ok {v : JsValue} {context : FinalizationScenarioContext} :
    parseScenarioContextRecord v = .ok context ↔ IsRecord v scenarioContextKeys ∧
      IsRecord (property v "summary") scenarioSummaryKeys ∧
      (∃ codes : List FinalizationScenarioCode,
        property v "scenarios" = .array (codes.map fun code => .string (scenarioText code)) ∧
        context.scenarios = codes.map scenarioText) ∧
      property v "tamperMode" = .string (tamperModeText context.tamperMode) ∧
      parseClaimedCounts (property v "claimedCounts") = .ok context.claimedCounts ∧
      parseInteger (property v "claimedTotalVotes") "claimedTotalVotes"
        (.atLeast 0) = .ok context.claimedTotalVotes ∧
      parseInteger (property (property v "summary") "ignoredCount") "ignoredCount" (.atLeast 0) =
        .ok context.ignoredCount ∧
      parseInteger (property (property v "summary") "recountedCount") "recountedCount" (.atLeast 0) =
        .ok context.recountedCount ∧
      property (property v "summary") "userRecountChoice" = recountValue context.userRecountChoice ∧
      property (property v "summary") "affectedBotIds" = idsValue context.affectedBotIds ∧
      ∀ ids, context.affectedBotIds = some ids → ∀ id ∈ ids, ValidInteger (.atLeast 0) id := by
  rw [parseScenarioContextRecord, asRecord_bind_eq_ok]
  refine and_congr_right fun _ => ?_
  rw [asRecord_bind_eq_ok]
  refine and_congr_right fun _ => ?_
  constructor
  · intro h
    obtain ⟨_, hguard, h⟩ := bind_eq_ok.mp h
    obtain ⟨codes, hcodes, h⟩ := bind_eq_ok.mp h
    obtain ⟨tamperMode, hmode, h⟩ := bind_eq_ok.mp h
    obtain ⟨claimedCounts, hcounts, h⟩ := bind_eq_ok.mp h
    obtain ⟨claimedTotalVotes, htotal, h⟩ := bind_eq_ok.mp h
    obtain ⟨ignoredCount, hignored, h⟩ := bind_eq_ok.mp h
    obtain ⟨recountedCount, hrecounted, h⟩ := bind_eq_ok.mp h
    obtain ⟨userRecountChoice, hchoice, h⟩ := bind_eq_ok.mp h
    obtain ⟨affectedBotIds, hids, h⟩ := bind_eq_ok.mp h
    obtain rfl := Except.ok.inj h
    obtain ⟨hvalue, hvalid⟩ := (parseAffectedBotIds_eq_ok (refuseIf_eq_ok.mp hguard)).mp hids
    exact ⟨⟨codes, parseScenarioCodes_eq_ok.mp hcodes, rfl⟩, ((parseTamperMode_plain _ _).mp hmode).1,
      hcounts, htotal, hignored, hrecounted, parseUserRecountChoice_eq_ok.mp hchoice, hvalue, hvalid⟩
  · rintro ⟨⟨codes, hcodes, hscenarios⟩, hmode, hcounts, htotal, hignored, hrecounted, hchoice,
      hids, hvalid⟩
    have hguard : ¬ (¬ (idsValue context.affectedBotIds).isUndefined = true ∧
        ¬ isArray (idsValue context.affectedBotIds) = true) := by
      cases context.affectedBotIds <;> simp [idsValue, JsValue.isUndefined, isArray]
    rw [hids]
    dsimp only
    rw [refuseIf_of_not hguard, ok_bind, parseScenarioCodes_eq_ok.mpr hcodes, ok_bind,
      (parseTamperMode_plain _ _).mpr ⟨hmode, trivial⟩, ok_bind, hcounts, ok_bind, htotal, ok_bind,
      hignored, ok_bind, hrecounted, ok_bind, parseUserRecountChoice_eq_ok.mpr hchoice, ok_bind,
      (parseAffectedBotIds_eq_ok hguard).mpr ⟨rfl, hvalid⟩, ok_bind, ← hscenarios]
    rfl

theorem affectedBotIds_eq (context : FinalizationScenarioContext) :
    property (scenarioSummaryValue context) "affectedBotIds" = idsValue context.affectedBotIds := by
  rw [scenarioSummaryValue]
  cases context.affectedBotIds <;> rfl

theorem isRecord_scenarioSummaryValue (context : FinalizationScenarioContext) :
    IsRecord (scenarioSummaryValue context) scenarioSummaryKeys := by
  rw [scenarioSummaryValue]
  cases context.affectedBotIds <;> exact ⟨rfl, rfl, rfl⟩

theorem scenarioTexts_injective : Function.Injective (fun code => JsValue.string (scenarioText code)) :=
  fun _ _ h => scenarioText_injective (JsValue.string.inj h)

theorem recountValue_injective : Function.Injective recountValue := by
  rintro (_ | choice) (_ | choice') h
  · rfl
  · cases h
  · cases h
  · rw [choiceText_injective (JsValue.string.inj h)]

theorem idsValue_injective : Function.Injective idsValue := by
  rintro (_ | ids) (_ | ids') h
  · rfl
  · cases h
  · cases h
  · rw [List.map_injective_iff.mpr number_injective (JsValue.array.inj h)]

theorem parseScenarioContextRecord_reads :
    Reads parseScenarioContextRecord scenarioContextValue ValidContext id where
  accepts context read := by
    have hsummary : property (scenarioContextValue context) "summary" = scenarioSummaryValue context :=
      rfl
    rw [parseScenarioContextRecord_eq_ok, hsummary, affectedBotIds_eq]
    constructor
    · rintro ⟨-, -, ⟨codes, hcodes, hscenarios⟩, hmode, hcounts, htotal, hignored, hrecounted, hchoice,
        hids, hvalidIds⟩
      obtain ⟨hvalidCounts, hcounts⟩ :=
        (parseClaimedCounts_reads.accepts context.claimedCounts _).mp hcounts
      obtain ⟨hvalidTotal, htotal⟩ := (parseInteger_reads.accepts context.claimedTotalVotes _).mp htotal
      obtain ⟨hvalidIgnored, hignored⟩ := (parseInteger_reads.accepts context.ignoredCount _).mp hignored
      obtain ⟨hvalidRecounted, hrecounted⟩ :=
        (parseInteger_reads.accepts context.recountedCount _).mp hrecounted
      have hmode := tamperModeText_injective (JsValue.string.inj hmode)
      have hchoice := recountValue_injective hchoice
      have hids := idsValue_injective hids
      -- the texts are those of the codes that were read
      have hsame : context.scenarios = codes.map scenarioText := by
        refine List.map_injective_iff.mpr string_injective ((JsValue.array.inj hcodes).trans ?_)
        rw [List.map_map]
        rfl
      refine ⟨⟨⟨codes, hsame⟩, hvalidCounts, hvalidTotal, hvalidIgnored, hvalidRecounted, hids ▸
        hvalidIds⟩, ?_⟩
      have hread := hscenarios.trans hsame.symm
      cases read
      cases context
      congr
      exacts [hmode.symm, hchoice.symm, hids.symm]
    · rintro ⟨hvalid, rfl⟩
      obtain ⟨codes, hcodes⟩ := hvalid.scenarios
      refine ⟨⟨rfl, rfl, rfl⟩, isRecord_scenarioSummaryValue _, ⟨codes, ?_, hcodes⟩, rfl,
        parseClaimedCounts_reads.ok hvalid.claimedCounts, parseInteger_reads.ok hvalid.claimedTotalVotes,
        parseInteger_reads.ok hvalid.ignoredCount, parseInteger_reads.ok hvalid.recountedCount, rfl, rfl,
        hvalid.affectedBotIds⟩
      have hvalue :
          property (scenarioContextValue read) "scenarios" = .array (read.scenarios.map .string) := rfl
      rw [hvalue, hcodes, List.map_map]
      rfl
  canonical v context hread := by
    obtain ⟨-, -, ⟨codes, -, hscenarios⟩, -, hcounts, htotal, hignored, hrecounted, -, -, hvalidIds⟩ :=
      parseScenarioContextRecord_eq_ok.mp hread
    exact ⟨⟨⟨codes, hscenarios⟩, (parseClaimedCounts_reads.canonical _ _ hcounts).1,
      (parseInteger_reads.canonical _ _ htotal).1, (parseInteger_reads.canonical _ _ hignored).1,
      (parseInteger_reads.canonical _ _ hrecounted).1, hvalidIds⟩, rfl⟩

end Scenario

/-! ### The message -/

section Message

variable {v : JsValue}

theorem ifDefined_eq_some {α : Type} {read : JsValue → JsM α} {a : α}
    (hmissing : read .undefined ≠ .ok a) :
    ifDefined read v = .ok (some a) ↔ read v = .ok a := by
  cases v with
  | undefined => simp [ifDefined, hmissing]
  | _ =>
    simp only [ifDefined, some_map_eq_ok, Option.some.injEq]
    exact ⟨fun ⟨_, hread, hsame⟩ => hsame ▸ hread, fun hread => ⟨a, hread, rfl⟩⟩

theorem not_isRecord_undefined {keys : List String} : ¬ IsRecord .undefined keys :=
  fun h => Bool.false_ne_true h.1

theorem parseZkvmInput_eq_some {input : ZkVMInput} :
    parseZkvmInput v = .ok (some input) ↔ parseZkvmInputRecord v = .ok input :=
  ifDefined_eq_some fun h => not_isRecord_undefined (parseZkvmInputRecord_eq_ok.mp h).1

theorem parseElectionConfig_eq_some {config : ElectionConfig} :
    parseElectionConfig v = .ok (some config) ↔ parseElectionConfigRecord v = .ok config :=
  ifDefined_eq_some fun h => not_isRecord_undefined (parseElectionConfigRecord_eq_ok.mp h).1

theorem parseScenarioContext_eq_some {context : FinalizationScenarioContext} :
    parseScenarioContext v = .ok (some context) ↔ parseScenarioContextRecord v = .ok context :=
  ifDefined_eq_some fun h => not_isRecord_undefined (parseScenarioContextRecord_eq_ok.mp h).1

/-- How a byte string that may be missing is shown. -/
def optionalValue (s : Option JsString) : JsValue := (s.map .string).getD .undefined

theorem parseOptionalHexString_eq_ok {n : ℕ} {label : String} {read : Option JsString} :
    parseOptionalHexString v n label = .ok read ↔
      ∃ s, v = optionalValue s ∧ (∀ given, s = some given → ValidHex n given) ∧
      read = s.map canonHex := by
  rw [parseOptionalHexString]
  by_cases hmissing : v = .undefined
  · subst hmissing
    constructor
    · intro h
      exact ⟨none, rfl, fun _ h => (Option.some_ne_none _ h.symm).elim, (Except.ok.inj h).symm⟩
    · rintro ⟨s, hvalue, -, rfl⟩
      cases s with
      | none => rfl
      | some given => cases hvalue
  · have hread :
      ifDefined (fun value => parseHexString value n label) v = some <$> parseHexString v n label := by
      cases v <;> first | rfl | exact absurd rfl hmissing
    rw [hread, some_map_eq_ok]
    constructor
    · rintro ⟨t, ht, rfl⟩
      obtain ⟨s, rfl, hvalid, rfl⟩ := parseHexString_eq_ok.mp ht
      exact ⟨some s, rfl, fun _ hsame => Option.some.inj hsame ▸ hvalid, rfl⟩
    · rintro ⟨s, hvalue, hvalid, rfl⟩
      cases s with
      | none => exact absurd hvalue hmissing
      | some given =>
          exact ⟨canonHex given, parseHexString_eq_ok.mpr ⟨given, hvalue, hvalid given rfl, rfl⟩, rfl⟩

theorem optionalValue_injective : Function.Injective optionalValue := by
  rintro (_ | s) (_ | s') h
  · rfl
  · cases h
  · cases h
  · rw [JsValue.string.inj h]

/-- What is accepted as the place of an input. -/
def ValidWorkInput : ProverWorkInput → Prop
  | .inline zkvmInput zkvmInputCommitment electionConfig =>
    ValidInput zkvmInput ∧ (∀ given, zkvmInputCommitment = some given → ValidHex 32 given) ∧
      ValidConfig electionConfig
  | .s3 inputS3Key outputS3Prefix bundleS3Key => inputS3Key ≠ [] ∧ outputS3Prefix ≠ [] ∧ bundleS3Key ≠ []

def canonWorkInput : ProverWorkInput → ProverWorkInput
  | .inline zkvmInput zkvmInputCommitment electionConfig =>
    .inline (canonInput zkvmInput) (zkvmInputCommitment.map canonHex) electionConfig
  | .s3 inputS3Key outputS3Prefix bundleS3Key => .s3 inputS3Key outputS3Prefix bundleS3Key

theorem canonWorkInput_source (input : ProverWorkInput) :
    (canonWorkInput input).source = input.source := by
  cases input <;> rfl

theorem canonHex_ne_nil (s : JsString) : canonHex s ≠ [] := List.cons_ne_nil _ _

theorem nonEmpty_canonHex (s : Option JsString) : nonEmpty (s.map canonHex) = s.map canonHex := by
  cases s with
  | none => rfl
  | some s => simp [nonEmpty, canonHex_ne_nil]

/-- SPEC: an inline input is read field by field. -/
theorem parseInlineInput_eq_ok {input : ProverWorkInput} : parseInlineInput v = .ok input ↔
    ∃ zkvmInput zkvmInputCommitment electionConfig,
      input = .inline zkvmInput zkvmInputCommitment electionConfig ∧
      parseZkvmInputRecord (property v "zkvmInput") = .ok zkvmInput ∧
      parseElectionConfigRecord (property v "electionConfig") = .ok electionConfig ∧
      parseOptionalHexString (property v "zkvmInputCommitment") 32 "zkvmInputCommitment" =
        .ok zkvmInputCommitment := by
  rw [parseInlineInput, bind_eq_ok]
  constructor
  · rintro ⟨zkvmInput, hinput, h⟩
    obtain ⟨electionConfig, hconfig, h⟩ := bind_eq_ok.mp h
    cases zkvmInput with
    | none => cases h
    | some zkvmInput =>
      cases electionConfig with
      | none => cases h
      | some electionConfig =>
        obtain ⟨zkvmInputCommitment, hcommitment, h⟩ := bind_eq_ok.mp h
        obtain ⟨s, -, -, rfl⟩ := parseOptionalHexString_eq_ok.mp hcommitment
        obtain rfl := Except.ok.inj h
        rw [nonEmpty_canonHex]
        exact ⟨_, _, _, rfl, parseZkvmInput_eq_some.mp hinput, parseElectionConfig_eq_some.mp hconfig,
          hcommitment⟩
  · rintro ⟨zkvmInput, zkvmInputCommitment, electionConfig, rfl, hinput, hconfig, hcommitment⟩
    refine ⟨some zkvmInput, parseZkvmInput_eq_some.mpr hinput, ?_⟩
    obtain ⟨s, -, -, rfl⟩ := parseOptionalHexString_eq_ok.mp hcommitment
    rw [parseElectionConfig_eq_some.mpr hconfig, ok_bind]
    dsimp only
    rw [hcommitment, ok_bind, nonEmpty_canonHex]
    rfl

theorem parseS3Input_eq_ok {input : ProverWorkInput} : parseS3Input v = .ok input ↔
    ∃ inputS3Key outputS3Prefix bundleS3Key, input = .s3 inputS3Key outputS3Prefix bundleS3Key ∧
      parseNonEmptyString (property v "inputS3Key") "inputS3Key" = .ok inputS3Key ∧
      parseNonEmptyString (property v "outputS3Prefix") "outputS3Prefix" = .ok outputS3Prefix ∧
      parseNonEmptyString (property v "bundleS3Key") "bundleS3Key" = .ok bundleS3Key := by
  rw [parseS3Input]
  constructor
  · intro h
    obtain ⟨inputS3Key, hinput, h⟩ := bind_eq_ok.mp h
    obtain ⟨outputS3Prefix, houtput, h⟩ := bind_eq_ok.mp h
    obtain ⟨bundleS3Key, hbundle, h⟩ := bind_eq_ok.mp h
    exact ⟨_, _, _, (Except.ok.inj h).symm, hinput, houtput, hbundle⟩
  · rintro ⟨inputS3Key, outputS3Prefix, bundleS3Key, rfl, hinput, houtput, hbundle⟩
    rw [hinput, ok_bind, houtput, ok_bind, hbundle, ok_bind]
    rfl

theorem source_of_parseInput {source : InputSource} {input : ProverWorkInput}
    (h : parseInput v source = .ok input) :
    input.source = source := by
  cases source with
  | inline =>
    obtain ⟨_, _, _, rfl, -⟩ := parseInlineInput_eq_ok.mp h
    rfl
  | s3 =>
    obtain ⟨_, _, _, rfl, -⟩ := parseS3Input_eq_ok.mp h
    rfl

theorem asSessionId_eq_ok {s read : JsString} :
    asSessionId s = .ok read ↔ isSafeVerifierSegment s = true ∧ read = s := by
  rw [asSessionId, bind_eq_ok]
  constructor
  · rintro ⟨_, hsafe, h⟩
    exact ⟨not_not.mp (refuseIf_eq_ok.mp hsafe), (Except.ok.inj h).symm⟩
  · rintro ⟨hsafe, rfl⟩
    exact ⟨(), refuseIf_of_not (not_not.mpr hsafe), rfl⟩

theorem asFinalizationId_eq_ok {s read : JsString} :
    asFinalizationId s = .ok read ↔ isSafeVerifierSegment s = true ∧ read = s := by
  rw [asFinalizationId, bind_eq_ok]
  constructor
  · rintro ⟨_, hsafe, h⟩
    exact ⟨not_not.mp (refuseIf_eq_ok.mp hsafe), (Except.ok.inj h).symm⟩
  · rintro ⟨hsafe, rfl⟩
    exact ⟨(), refuseIf_of_not (not_not.mpr hsafe), rfl⟩

/-- SPEC: a message is read field by field; its source says which fields it may have. -/
theorem parseProverWorkMessage_eq_ok {message : ProverWorkMessage} :
    parseProverWorkMessage v = .ok message ↔ IsRecord v (messageKeys message.input.source) ∧
      getStringProperty v "recordType" = some proverWorkRecordType ∧
      property v "inputSource" = .string (inputSourceText message.input.source) ∧
      parseScenarioContextRecord (property v "scenarioContext") = .ok message.scenarioContext ∧
      parseSafeSegment (property v "sessionId") "sessionId" { uuid := true } = .ok message.sessionId ∧
      parseSafeSegment (property v "finalizationId") "finalizationId" { minLength := some 10 } =
        .ok message.finalizationId ∧
      parseInteger (property v "queuedAtMs") "queuedAtMs" (.atLeast 0) = .ok message.queuedAtMs ∧
      parseHexString (property v "expectedImageId") 32 "expectedImageId" = .ok message.expectedImageId ∧
      property v "scenarios" = .array (message.scenarios.map fun code => .string (scenarioText code)) ∧
      property v "simulateTampering" = .boolean message.simulateTampering ∧
      parseInput v message.input.source = .ok message.input := by
  rw [parseProverWorkMessage]
  constructor
  · intro h
    obtain ⟨record, hrecord, h⟩ := bind_eq_ok.mp h
    obtain ⟨_, htype, h⟩ := bind_eq_ok.mp h
    obtain ⟨source, hsource, h⟩ := bind_eq_ok.mp h
    obtain ⟨_, hkeys, h⟩ := bind_eq_ok.mp h
    obtain ⟨context, hcontext, h⟩ := bind_eq_ok.mp h
    cases context with
    | none => cases h
    | some context =>
      obtain ⟨sessionId, hsession, h⟩ := bind_eq_ok.mp h
      obtain ⟨sessionId', hsession', h⟩ := bind_eq_ok.mp h
      obtain ⟨finalizationId, hattempt, h⟩ := bind_eq_ok.mp h
      obtain ⟨finalizationId', hattempt', h⟩ := bind_eq_ok.mp h
      obtain ⟨queuedAtMs, hqueued, h⟩ := bind_eq_ok.mp h
      obtain ⟨expectedImageId, himage, h⟩ := bind_eq_ok.mp h
      obtain ⟨scenarios, hscenarios, h⟩ := bind_eq_ok.mp h
      obtain ⟨simulateTampering, hsimulate, h⟩ := bind_eq_ok.mp h
      obtain ⟨input, hinput, h⟩ := bind_eq_ok.mp h
      obtain rfl := Except.ok.inj h
      obtain rfl := source_of_parseInput hinput
      obtain ⟨-, rfl⟩ := asSessionId_eq_ok.mp hsession'
      obtain ⟨-, rfl⟩ := asFinalizationId_eq_ok.mp hattempt'
      obtain ⟨rfl, hobject, harray⟩ := assertRecord_eq_ok.mp hrecord
      rw [refuseIf_eq_ok, not_not] at htype
      exact ⟨⟨hobject, harray, assertOnlyKeys_eq_ok.mp hkeys⟩, htype,
        ((parseInputSource_plain _ _).mp hsource).1, parseScenarioContext_eq_some.mp hcontext, hsession,
        hattempt, hqueued, himage, parseScenarioCodes_eq_ok.mp hscenarios,
        ((parseBoolean_plain _ _).mp hsimulate).1, hinput⟩
  · rintro ⟨⟨hobject, harray, hkeys⟩, htype, hsource, hcontext, hsession, hattempt, hqueued,
      himage, hscenarios, hsimulate,
      hinput⟩
    have hsafe := ((parseSafeSegment_plain _ _ _).mp hsession).2.safe
    have hsafe' := ((parseSafeSegment_plain _ _ _).mp hattempt).2.safe
    have hboolean :
        parseBoolean (property v "simulateTampering") "simulateTampering" =
          .ok message.simulateTampering :=
      (parseBoolean_plain _ _).mpr ⟨hsimulate, trivial⟩
    rw [assertRecord_eq_ok.mpr ⟨rfl, hobject, harray⟩, ok_bind,
      refuseIf_of_not (not_not.mpr htype), ok_bind, (parseInputSource_plain _ _).mpr ⟨hsource, trivial⟩,
      ok_bind, assertOnlyKeys_eq_ok.mpr hkeys, ok_bind,
      parseScenarioContext_eq_some.mpr hcontext, ok_bind]
    dsimp only
    rw [hsession, ok_bind, asSessionId_eq_ok.mpr ⟨hsafe, rfl⟩, ok_bind, hattempt, ok_bind,
      asFinalizationId_eq_ok.mpr ⟨hsafe', rfl⟩, ok_bind, hqueued, ok_bind, himage, ok_bind,
      parseScenarioCodes_eq_ok.mpr hscenarios, ok_bind, hboolean, ok_bind, hinput, ok_bind]
    rfl

/-- What `parseProverWorkMessage` lets through. -/
structure ValidMessage (message : ProverWorkMessage) : Prop where
  sessionId : ValidSegment { uuid := true } message.sessionId
  finalizationId : ValidSegment { minLength := some 10 } message.finalizationId
  queuedAtMs : ValidInteger (.atLeast 0) message.queuedAtMs
  expectedImageId : ValidHex 32 message.expectedImageId
  scenarioContext : ValidContext message.scenarioContext
  input : ValidWorkInput message.input

def canonMessage (message : ProverWorkMessage) : ProverWorkMessage :=
  { message with
    expectedImageId := canonHex message.expectedImageId
    input := canonWorkInput message.input }

/-- An inline input is read out of its message. -/
theorem parseInlineInput_accepts {message : ProverWorkMessage} {zkvmInput : ZkVMInput}
    {zkvmInputCommitment : Option JsString} {electionConfig : ElectionConfig} {read : ProverWorkInput}
    (h : message.input = .inline zkvmInput zkvmInputCommitment electionConfig) :
    parseInlineInput (messageValue message) = .ok read ↔
      ValidWorkInput message.input ∧ read = canonWorkInput message.input := by
  have hinput : property (messageValue message) "zkvmInput" = zkvmInputValue zkvmInput := by
    rw [messageValue, h]
    rfl
  have hconfig :
      property (messageValue message) "electionConfig" = electionConfigValue electionConfig := by
    rw [messageValue, h]
    cases zkvmInputCommitment <;> rfl
  have hcommitment :
      property (messageValue message) "zkvmInputCommitment" = optionalValue zkvmInputCommitment := by
    rw [messageValue, h]
    cases zkvmInputCommitment <;> rfl
  rw [parseInlineInput_eq_ok, hinput, hconfig, hcommitment, h]
  constructor
  · rintro ⟨readInput, readCommitment, readConfig, rfl, hreadInput, hreadConfig, hreadCommitment⟩
    obtain ⟨hvalidInput, rfl⟩ := (parseZkvmInputRecord_reads.accepts zkvmInput _).mp hreadInput
    obtain ⟨hvalidConfig, rfl⟩ :=
      (parseElectionConfigRecord_reads.accepts electionConfig _).mp hreadConfig
    obtain ⟨given, hgiven, hvalidCommitment, rfl⟩ := parseOptionalHexString_eq_ok.mp hreadCommitment
    obtain rfl := optionalValue_injective hgiven
    exact ⟨⟨hvalidInput, hvalidCommitment, hvalidConfig⟩, rfl⟩
  · rintro ⟨⟨hvalidInput, hvalidCommitment, hvalidConfig⟩, rfl⟩
    exact ⟨_, _, _, rfl, parseZkvmInputRecord_reads.ok hvalidInput,
      parseElectionConfigRecord_reads.ok hvalidConfig,
      parseOptionalHexString_eq_ok.mpr ⟨_, rfl, hvalidCommitment, rfl⟩⟩

/-- The keys of the input are read out of their message. -/
theorem parseS3Input_accepts {message : ProverWorkMessage}
    {inputS3Key outputS3Prefix bundleS3Key : JsString} {read : ProverWorkInput}
    (h : message.input = .s3 inputS3Key outputS3Prefix bundleS3Key) :
    parseS3Input (messageValue message) = .ok read ↔
      ValidWorkInput message.input ∧ read = canonWorkInput message.input := by
  have hinput : property (messageValue message) "inputS3Key" = .string inputS3Key := by
    rw [messageValue, h]
    rfl
  have houtput : property (messageValue message) "outputS3Prefix" = .string outputS3Prefix := by
    rw [messageValue, h]
    rfl
  have hbundle : property (messageValue message) "bundleS3Key" = .string bundleS3Key := by
    rw [messageValue, h]
    rfl
  rw [parseS3Input_eq_ok, hinput, houtput, hbundle, h]
  constructor
  · rintro ⟨_, _, _, rfl, hreadInput, hreadOutput, hreadBundle⟩
    obtain ⟨hvalidInput, rfl⟩ := (parseNonEmptyString_reads.accepts inputS3Key _).mp hreadInput
    obtain ⟨hvalidOutput, rfl⟩ := (parseNonEmptyString_reads.accepts outputS3Prefix _).mp hreadOutput
    obtain ⟨hvalidBundle, rfl⟩ := (parseNonEmptyString_reads.accepts bundleS3Key _).mp hreadBundle
    exact ⟨⟨hvalidInput, hvalidOutput, hvalidBundle⟩, rfl⟩
  · rintro ⟨⟨hvalidInput, hvalidOutput, hvalidBundle⟩, rfl⟩
    exact ⟨_, _, _, rfl, parseNonEmptyString_reads.ok hvalidInput,
      parseNonEmptyString_reads.ok hvalidOutput, parseNonEmptyString_reads.ok hvalidBundle⟩

theorem parseInput_accepts {message : ProverWorkMessage} {read : ProverWorkInput} :
    parseInput (messageValue message) message.input.source = .ok read ↔
      ValidWorkInput message.input ∧ read = canonWorkInput message.input := by
  cases h : message.input with
  | inline zkvmInput zkvmInputCommitment electionConfig =>
    rw [← h, ← parseInlineInput_accepts h, h]
    rfl
  | s3 inputS3Key outputS3Prefix bundleS3Key =>
    rw [← h, ← parseS3Input_accepts h, h]
    rfl

/-- What was read as an input is one in its one form. -/
theorem parseInput_canonical {source : InputSource} {input : ProverWorkInput}
    (h : parseInput v source = .ok input) :
    ValidWorkInput input ∧ canonWorkInput input = input := by
  cases source with
  | inline =>
    obtain ⟨zkvmInput, zkvmInputCommitment, electionConfig, rfl, hinput, hconfig, hcommitment⟩ :=
      parseInlineInput_eq_ok.mp h
    obtain ⟨hvalidInput, hcanonInput⟩ := parseZkvmInputRecord_reads.canonical _ _ hinput
    obtain ⟨hvalidConfig, -⟩ := parseElectionConfigRecord_reads.canonical _ _ hconfig
    obtain ⟨given, -, hvalidCommitment, rfl⟩ := parseOptionalHexString_eq_ok.mp hcommitment
    cases given with
    | none => exact ⟨⟨hvalidInput, fun _ h => (Option.some_ne_none _ h.symm).elim, hvalidConfig⟩, by
        rw [canonWorkInput, hcanonInput]
        rfl⟩
    | some given =>
      obtain ⟨hvalid, hcanon⟩ := (hvalidCommitment given rfl).canonical
      refine ⟨⟨hvalidInput, fun _ hsame => Option.some.inj hsame ▸ hvalid, hvalidConfig⟩, ?_⟩
      rw [canonWorkInput, hcanonInput, Option.map_some, Option.map_some, hcanon]
  | s3 =>
    obtain ⟨inputS3Key, outputS3Prefix, bundleS3Key, rfl, hinput, houtput, hbundle⟩ :=
      parseS3Input_eq_ok.mp h
    exact ⟨⟨(parseNonEmptyString_eq_ok.mp hinput).2, (parseNonEmptyString_eq_ok.mp houtput).2,
      (parseNonEmptyString_eq_ok.mp hbundle).2⟩, rfl⟩

theorem isRecord_messageValue (message : ProverWorkMessage) :
    IsRecord (messageValue message) (messageKeys message.input.source) := by
  rcases message with ⟨sessionId, finalizationId, queuedAtMs, expectedImageId, scenarios,
    simulateTampering, scenarioContext,
    ⟨zkvmInput, _ | zkvmInputCommitment, electionConfig⟩ | ⟨inputS3Key, outputS3Prefix, bundleS3Key⟩⟩
  all_goals exact ⟨rfl, rfl, rfl⟩

/-- ROUND TRIP: which messages are read, and as what. -/
theorem parseProverWorkMessage_reads :
    Reads parseProverWorkMessage messageValue ValidMessage canonMessage where
  accepts message read := by
    constructor
    · intro h
      obtain ⟨-, -, hsource, hcontext, hsession, hattempt, hqueued, himage, hscenarios,
          hsimulate, hinput⟩ :=
        parseProverWorkMessage_eq_ok.mp h
      have hsource : message.input.source = read.input.source :=
        inputSourceText_injective (JsValue.string.inj hsource)
      rw [← hsource] at hinput
      obtain ⟨hvalidInput, hinput⟩ := parseInput_accepts.mp hinput
      obtain ⟨hvalidContext, hcontext⟩ :=
        (parseScenarioContextRecord_reads.accepts message.scenarioContext _).mp hcontext
      obtain ⟨hvalidSession, hsession⟩ :=
        ((parseSafeSegment_reads _).accepts message.sessionId _).mp hsession
      obtain ⟨hvalidAttempt, hattempt⟩ :=
        ((parseSafeSegment_reads _).accepts message.finalizationId _).mp hattempt
      obtain ⟨hvalidQueued, hqueued⟩ := (parseInteger_reads.accepts message.queuedAtMs _).mp hqueued
      obtain ⟨hvalidImage, himage⟩ := (parseHexString_reads.accepts message.expectedImageId _).mp himage
      have hscenarios :=
        List.map_injective_iff.mpr scenarioTexts_injective (JsValue.array.inj hscenarios)
      have hsimulate := JsValue.boolean.inj hsimulate
      refine ⟨⟨hvalidSession, hvalidAttempt, hvalidQueued, hvalidImage, hvalidContext, hvalidInput⟩, ?_⟩
      cases read
      cases message
      rw [canonMessage]
      congr
      exacts [hscenarios.symm, hsimulate.symm]
    · rintro ⟨hvalid, rfl⟩
      have hsource : (canonMessage message).input.source = message.input.source :=
        canonWorkInput_source message.input
      rw [parseProverWorkMessage_eq_ok, hsource]
      exact ⟨isRecord_messageValue message, rfl, rfl,
        parseScenarioContextRecord_reads.ok hvalid.scenarioContext,
        (parseSafeSegment_reads _).ok hvalid.sessionId,
        (parseSafeSegment_reads _).ok hvalid.finalizationId, parseInteger_reads.ok hvalid.queuedAtMs,
        parseHexString_reads.ok hvalid.expectedImageId, rfl, rfl,
        parseInput_accepts.mpr ⟨hvalid.input, rfl⟩⟩
  canonical v message hread := by
    obtain ⟨-, -, -, hcontext, hsession, hattempt, hqueued, himage, -, -, hinput⟩ :=
      parseProverWorkMessage_eq_ok.mp hread
    obtain ⟨hvalidInput, hcanonInput⟩ := parseInput_canonical hinput
    obtain ⟨hvalidImage, hcanonImage⟩ := parseHexString_reads.canonical _ _ himage
    refine ⟨⟨((parseSafeSegment_reads _).canonical _ _ hsession).1,
      ((parseSafeSegment_reads _).canonical _ _ hattempt).1,
      (parseInteger_reads.canonical _ _ hqueued).1, hvalidImage,
      (parseScenarioContextRecord_reads.canonical _ _ hcontext).1, hvalidInput⟩, ?_⟩
    rw [canonMessage, hcanonImage, hcanonInput]

end Message

/-! ### JSON -/

section Json

theorem ValidInteger.isFinite {bound : IntegerBound} {n : Num} (h : ValidInteger bound n) :
    n.isFinite = true := by
  cases n with
  | finite value => rfl
  | nan => cases h.isInteger
  | infinity negative => cases h.isInteger

theorem areJson_map {α : Type} {write : α → JsValue} {items : List α}
    (h : ∀ a ∈ items, (write a).isJson = true) :
    JsValue.areJson (items.map write) = true := by
  induction items with
  | nil => rfl
  | cons a items ih =>
    obtain ⟨ha, hitems⟩ := List.forall_mem_cons.mp h
    rw [List.map_cons, JsValue.areJson, ha, ih hitems]
    rfl

theorem isJson_voteValue {vote : ZkVMInput.VoteWithProof} (h : ValidVote vote) :
    (voteValue vote).isJson = true := by
  have hpath : JsValue.areJson (vote.merklePath.map .string) = true := areJson_map fun _ _ => rfl
  simp [voteValue, JsValue.isJson, JsValue.areJsonFields, h.choice.isFinite, h.index.isFinite, hpath]

theorem isJson_zkvmInputValue {input : ZkVMInput} (h : ValidInput input) :
    (zkvmInputValue input).isJson = true := by
  have hvotes : JsValue.areJson (input.votes.map voteValue) = true :=
    areJson_map fun vote hvote => isJson_voteValue (h.votes vote hvote)
  simp [zkvmInputValue, JsValue.isJson, JsValue.areJsonFields, h.treeSize.isFinite, h.timestamp.isFinite,
    h.totalExpected.isFinite, hvotes]

theorem isJson_electionConfigValue {config : ElectionConfig} (h : ValidConfig config) :
    (electionConfigValue config).isJson = true := by
  have hchoices : JsValue.areJson (config.choices.map .string) = true := areJson_map fun _ _ => rfl
  simp [electionConfigValue, JsValue.isJson, JsValue.areJsonFields, h.totalExpected.isFinite,
    h.botCount.isFinite, h.merkleTreeDepth.isFinite, hchoices]

theorem areJsonFields_append {fields others : List (JsString × JsValue)} :
    JsValue.areJsonFields (fields ++ others) = (JsValue.areJsonFields fields &&
      JsValue.areJsonFields others) := by
  induction fields with
  | nil => rfl
  | cons field fields ih =>
    rw [List.cons_append, JsValue.areJsonFields, JsValue.areJsonFields, ih, Bool.and_assoc]

theorem areJsonFields_optionalField {key : String} {value : Option JsValue}
    (h : ∀ given, value = some given →
    given.isJson = true) : JsValue.areJsonFields (optionalField key value) = true := by
  cases value with
  | none => rfl
  | some given =>
    rw [optionalField, Option.toList_some, List.map_singleton, JsValue.areJsonFields, h given rfl]
    rfl

theorem isJson_scenarioContextValue {context : FinalizationScenarioContext} (h : ValidContext context) :
    (scenarioContextValue context).isJson = true := by
  have hscenarios : JsValue.areJson (context.scenarios.map .string) = true := areJson_map fun _ _ => rfl
  have hcounts : (claimedCountsValue context.claimedCounts).isJson = true := by
    simp [claimedCountsValue, JsValue.isJson, JsValue.areJsonFields,
      (h.claimedCounts 0 (by decide)).isFinite, (h.claimedCounts 1 (by decide)).isFinite,
      (h.claimedCounts 2 (by decide)).isFinite, (h.claimedCounts 3 (by decide)).isFinite,
      (h.claimedCounts 4 (by decide)).isFinite]
  have hchoice : (recountValue context.userRecountChoice).isJson = true := by
    cases context.userRecountChoice <;> rfl
  have hids : JsValue.areJsonFields (optionalField "affectedBotIds"
      (context.affectedBotIds.map fun ids => .array (ids.map .number))) = true := by
    refine areJsonFields_optionalField fun given hgiven => ?_
    obtain ⟨ids, hids, rfl⟩ := Option.map_eq_some_iff.mp hgiven
    exact areJson_map fun id hid => (h.affectedBotIds ids hids id hid).isFinite
  have hsummary : (scenarioSummaryValue context).isJson = true := by
    rw [scenarioSummaryValue, JsValue.isJson, areJsonFields_append, hids, Bool.and_true]
    rw [recountValue] at hchoice
    simp [JsValue.areJsonFields, JsValue.isJson, h.ignoredCount.isFinite,
      h.recountedCount.isFinite, hchoice]
  simp [scenarioContextValue, JsValue.isJson, JsValue.areJsonFields, h.claimedTotalVotes.isFinite,
    hscenarios, hcounts, hsummary]

theorem areJsonFields_inputFields {input : ProverWorkInput} (h : ValidWorkInput input) :
    JsValue.areJsonFields (inputFields input) = true := by
  cases input with
  | inline zkvmInput zkvmInputCommitment electionConfig =>
    obtain ⟨hinput, -, hconfig⟩ := h
    have hcommitment :
        JsValue.areJsonFields (optionalField "zkvmInputCommitment" (zkvmInputCommitment.map .string)) =
        true := by
      refine areJsonFields_optionalField fun given hgiven => ?_
      obtain ⟨s, -, rfl⟩ := Option.map_eq_some_iff.mp hgiven
      rfl
    rw [inputFields, JsValue.areJsonFields, isJson_zkvmInputValue hinput, areJsonFields_append,
      hcommitment, JsValue.areJsonFields, isJson_electionConfigValue hconfig]
    rfl
  | s3 inputS3Key outputS3Prefix bundleS3Key => rfl

/-- Everything in an accepted message is what JSON has. -/
theorem isJson_messageValue {message : ProverWorkMessage} (h : ValidMessage message) :
    (messageValue message).isJson = true := by
  have hscenarios :
      JsValue.areJson (message.scenarios.map fun code => .string (scenarioText code)) = true :=
    areJson_map fun _ _ => rfl
  rw [messageValue, JsValue.isJson, areJsonFields_append, areJsonFields_inputFields h.input,
    Bool.and_true]
  simp [JsValue.areJsonFields, JsValue.isJson, h.queuedAtMs.isFinite,
    isJson_scenarioContextValue h.scenarioContext, hscenarios]

/-- IDEMPOTENT: an accepted message survives JSON, and is accepted as it is. -/
theorem accepted_again {v : JsValue} {message : ProverWorkMessage}
    (h : parseProverWorkMessage v = .ok message) :
    (messageValue message).viaJson = .ok (messageValue message) ∧
      parseProverWorkMessage (messageValue message) = .ok message :=
  ⟨JsValue.viaJson_of_isJson
    (isJson_messageValue (parseProverWorkMessage_reads.canonical v message h).1),
    parseProverWorkMessage_reads.again h⟩

end Json

end StarkBallot.AwsAdapters
