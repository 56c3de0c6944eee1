import StarkBallot.Domain.SessionState
import Mathlib.Data.Rat.Floor

/-! Tamper scenarios (`domain/src/lib/finalize/scenario-application.ts`,
    `domain/src/lib/scenarios/processor.ts`). A scenario leaves out one vote or counts one vote
    elsewhere, on a copy of the votes. Maps are shared by reference, so they live in a heap, next to the
    readings of `random` that are left.

        votes ──copy──▶ modified votes ──S1 S3 S5──▶ one vote fewer
                                       ──S2 S4─────▶ one vote with another choice -/

namespace StarkBallot.Domain
open Schemes

/-! ### The heap -/

structure ScenarioHeap where
  readings : ℕ → ℚ
  maps : List Votes

abbrev ScenarioM := ExceptT JsError (StateM ScenarioHeap)

/-- A map by its place in the heap. -/
abbrev MapRef := ℕ

def random : ScenarioM ℚ := do
  let heap ← get
  modify fun heap => { heap with readings := fun n => heap.readings (n + 1) }
  return heap.readings 0

/-- `new Map(votes)`. -/
def newMap (votes : Votes) : ScenarioM MapRef := do
  let heap ← get
  modify fun heap => { heap with maps := heap.maps ++ [votes] }
  return heap.maps.length

def readMap (map : MapRef) : ScenarioM Votes := do
  let heap ← get
  match heap.maps[map]? with
  | none => throw (.error "Votes map is required for scenario application")
  | some votes => return votes

def updateMap (map : MapRef) (update : Votes → Votes) : ScenarioM Unit :=
  modify fun heap => { heap with maps := heap.maps.modify map update }

/-- `options[Math.floor(random() * options.length)]`. -/
def pick {α : Type} (options : List α) : ScenarioM (Option α) := do
  let reading ← random
  match ⌊reading * options.length⌋ with
  | .ofNat index => return options[index]?
  | .negSucc _ => return none

/-! ### The processor -/

structure ScenarioOptions where
  targetChoice : Option VoteChoice
  targetBotId : Option ℕ

inductive ScenarioAction where
  | ignored | recounted | duplicated
  deriving DecidableEq

structure ScenarioChange where
  scenario : JsString
  voteIndex : ℕ
  action : ScenarioAction
  originalVote : Option VoteChoice
  newVote : Option VoteChoice

structure ScenarioResult where
  modifiedVotes : MapRef
  changes : List ScenarioChange

/-- `counts[vote.vote]++`. -/
def countVote (counts : Vector ℕ 5) (choice : VoteChoice) : Vector ℕ 5 :=
  Vector.ofFn fun place => if place.val = choice.toNumber then counts[place] + 1 else counts[place]

def getTallyCounts (votes : Votes) : Vector ℕ 5 :=
  votes.foldl (fun counts entry => countVote counts entry.2.vote) (Vector.replicate 5 0)

def ignoreScenarioVote (result : ScenarioResult) (scenario : JsString) (voteIndex : ℕ) :
    ScenarioM ScenarioResult := do
  match (← readMap result.modifiedVotes).lookup voteIndex with
  | none => return result
  | some vote =>
    updateMap result.modifiedVotes (mapDelete · voteIndex)
    return { result with
      changes := result.changes ++ [⟨scenario, voteIndex, .ignored, some vote.vote, none⟩] }

def recountScenarioVote (result : ScenarioResult) (scenario : JsString) (voteIndex : ℕ)
    (targetChoice : Option VoteChoice) : ScenarioM ScenarioResult := do
  match targetChoice with
  | none => return result
  | some targetChoice =>
    match (← readMap result.modifiedVotes).lookup voteIndex with
    | none => return result
    | some vote =>
      updateMap result.modifiedVotes (mapSet · voteIndex { vote with vote := targetChoice })
      return { result with
        changes :=
          result.changes ++ [⟨scenario, voteIndex, .recounted, some vote.vote, some targetChoice⟩] }

def ignoreRandomScenarioVote (result : ScenarioResult) : ScenarioM ScenarioResult := do
  let voteIndices := (← readMap result.modifiedVotes).map Prod.fst
  if voteIndices.length = 0 then return result
  else
    match ← pick voteIndices with
    | none => return result
    | some randomIndex => ignoreScenarioVote result (js "S5") randomIndex

def applyScenarioChange (result : ScenarioResult) (scenario : JsString) (userVoteIndex : ℕ)
    (options : ScenarioOptions) : ScenarioM ScenarioResult :=
  if scenario = js "S1" then ignoreScenarioVote result scenario userVoteIndex
  else if scenario = js "S2" then recountScenarioVote result scenario userVoteIndex options.targetChoice
  else if scenario = js "S3" then
    match options.targetBotId with
    | some targetBotId => ignoreScenarioVote result scenario targetBotId
    | none => pure result
  else if scenario = js "S4" then
    match options.targetBotId with
    | some targetBotId => recountScenarioVote result scenario targetBotId options.targetChoice
    | none => pure result
  else if scenario = js "S5" then ignoreRandomScenarioVote result
  else pure result

def applyScenarios (originalVotes : MapRef) (scenarios : List JsString) (userVoteIndex : ℕ)
    (options : ScenarioOptions) :
    ScenarioM ScenarioResult := do
  let modifiedVotes ← newMap (← readMap originalVotes)
  scenarios.foldlM (fun result scenario => applyScenarioChange result scenario userVoteIndex options)
    ⟨modifiedVotes, []⟩

/-! ### Targets -/

def selectRecountChoice (original fallback : VoteChoice) : ScenarioM VoteChoice := do
  let availableChoices := voteChoices.filter (· ≠ original)
  if availableChoices.length = 0 then return fallback
  else return (← pick availableChoices).getD fallback

def selectBotRecountTarget (votes : Votes) (userVoteIndex : ℕ) (targetChoice : VoteChoice) :
    ScenarioM ScenarioOptions := do
  let botIndices := (votes.map Prod.fst).filter (· ≠ userVoteIndex)
  if botIndices.length = 0 then return ⟨targetChoice, some 1⟩
  else
    match ← pick botIndices with
    | none => throw (.error "No bot vote index selected")
    | some targetBotId =>
      match votes.lookup targetBotId with
      | some botVote => return ⟨← selectRecountChoice botVote.vote targetChoice, targetBotId⟩
      | none => return ⟨targetChoice, targetBotId⟩

/-- The choice that a recount of the user's vote would take. -/
def selectUserTargetChoice (votes : Votes) (userVoteIndex : ℕ) (scenariosApplied : List JsString) :
    ScenarioM VoteChoice :=
  match votes.lookup userVoteIndex with
  | some userVoteData =>
    if js "S2" ∈ scenariosApplied then selectRecountChoice userVoteData.vote .b
    else pure .b
  | none => pure .b

def selectScenarioTargets (votes : Votes) (userVoteIndex : ℕ) (scenariosApplied : List JsString) :
    ScenarioM ScenarioOptions := do
  let targetChoice ← selectUserTargetChoice votes userVoteIndex scenariosApplied
  if js "S4" ∈ scenariosApplied then selectBotRecountTarget votes userVoteIndex targetChoice
  else return ⟨targetChoice, some 1⟩

/-! ### Application -/

structure ScenarioSummary where
  ignoredCount : ℕ
  recountedCount : ℕ
  userRecountChoice : Option VoteChoice
  deriving DecidableEq

structure ScenarioApplicationResult where
  modifiedVotes : MapRef
  scenarioResult : Option ScenarioResult
  scenariosApplied : List JsString
  summary : ScenarioSummary
  claimedCounts : Vector ℕ 5
  claimedTotalVotes : ℕ
  tamperMode : ScenarioTamperMode

def summarizeChange (userVoteIndex : ℕ) (summary : ScenarioSummary) (change : ScenarioChange) :
    ScenarioSummary :=
  match change.action with
  | .ignored => { summary with ignoredCount := summary.ignoredCount + 1 }
  | .recounted =>
    { summary with
      recountedCount := summary.recountedCount + 1
      userRecountChoice :=
        if change.voteIndex = userVoteIndex ∧ change.newVote.isSome then change.newVote
          else summary.userRecountChoice }
  | .duplicated => summary

def summarizeScenarioChanges (changes : List ScenarioChange) (userVoteIndex : ℕ) : ScenarioSummary :=
  changes.foldl (summarizeChange userVoteIndex) ⟨0, 0, none⟩

def resolveScenarioTamperMode (scenariosApplied : List JsString) : ScenarioTamperMode :=
  if scenariosApplied.any (· ∈ [js "S1", js "S3", js "S5"]) then .input
  else if scenariosApplied.any (· ∈ [js "S2", js "S4"]) then .claim
  else .none

def applyFinalizeScenarios (votes : MapRef) (userVoteIndex : ℕ) (scenarios : List JsString)
    (simulateTampering : Bool) : ScenarioM ScenarioApplicationResult := do
  let originalVotes ← readMap votes
  let scenariosApplied :=
    if scenarios.length > 0 then scenarios else if simulateTampering then [js "S1"] else []
  if scenariosApplied.length = 0 then
    let claimedCounts := getTallyCounts originalVotes
    return {
      modifiedVotes := votes
      scenarioResult := none
      scenariosApplied := scenariosApplied
      summary := ⟨0, 0, none⟩
      claimedCounts := claimedCounts
      claimedTotalVotes := claimedCounts.toList.foldl (· + ·) 0
      tamperMode := .none }
  else
    let options ← selectScenarioTargets originalVotes userVoteIndex scenariosApplied
    let scenarioResult ← applyScenarios votes scenariosApplied userVoteIndex options
    let claimedCounts := getTallyCounts (← readMap scenarioResult.modifiedVotes)
    return {
      modifiedVotes := scenarioResult.modifiedVotes
      scenarioResult := scenarioResult
      scenariosApplied := scenariosApplied
      summary := summarizeScenarioChanges scenarioResult.changes userVoteIndex
      claimedCounts := claimedCounts
      claimedTotalVotes := claimedCounts.toList.foldl (· + ·) 0
      tamperMode := resolveScenarioTamperMode scenariosApplied }

/-! ### Drawing -/

/-- The readings of `Math.random`. -/
def InUnitInterval (readings : ℕ → ℚ) : Prop := ∀ n, 0 ≤ readings n ∧ readings n < 1

/-- A call that draws leaves every map as it is. -/
def Draws {α : Type} (call : ScenarioM α) (result : α → Prop) : Prop :=
  ∀ heap, InUnitInterval heap.readings →
    ∃ a heap', exec call heap = (.ok a, heap') ∧ result a ∧ heap'.maps = heap.maps ∧
    InUnitInterval heap'.readings

theorem Draws.pure {α : Type} {a : α} {result : α → Prop} (h : result a) :
    Draws (Pure.pure a : ScenarioM α) result :=
  fun heap hreadings => ⟨a, heap, rfl, h, rfl, hreadings⟩

theorem Draws.bind {α β : Type} {call : ScenarioM α} {next : α → ScenarioM β} {drawn : α → Prop}
    {result : β → Prop} (hcall : Draws call drawn) (hnext : ∀ a, drawn a → Draws (next a) result) :
    Draws (call >>= next) result := by
  intro heap hreadings
  obtain ⟨a, heap₁, hexec, hdrawn, hmaps, hreadings₁⟩ := hcall heap hreadings
  obtain ⟨b, heap₂, hexec₂, hresult, hmaps₂, hreadings₂⟩ := hnext a hdrawn heap₁ hreadings₁
  exact ⟨b, heap₂, by rw [exec_bind_ok hexec, hexec₂], hresult, hmaps₂.trans hmaps, hreadings₂⟩

theorem random_draws : Draws random fun reading => 0 ≤ reading ∧ reading < 1 :=
  fun heap hreadings => ⟨heap.readings 0, { heap with readings := fun n => heap.readings (n + 1) }, rfl,
    hreadings 0, rfl, fun n => hreadings (n + 1)⟩

/-- SPEC: a draw from options gives one of them. -/
theorem pick_draws {α : Type} {options : List α} (hne : options ≠ []) :
    Draws (pick options) fun drawn => ∃ option ∈ options, drawn = some option := by
  refine random_draws.bind fun reading hreading => ?_
  have hpos : (0 : ℚ) < options.length := by exact_mod_cast List.length_pos_iff.mpr hne
  have hlow : 0 ≤ reading * options.length := mul_nonneg hreading.1 hpos.le
  have hfloor : 0 ≤ ⌊reading * options.length⌋ := Int.floor_nonneg.mpr hlow
  have hhigh : ⌊reading * options.length⌋ < options.length := by
    rw [Int.floor_lt]
    calc reading * options.length < 1 * options.length := mul_lt_mul_of_pos_right hreading.2 hpos
      _ = ((options.length : ℤ) : ℚ) := by simp
  cases hplace : ⌊reading * options.length⌋ with
  | ofNat index =>
    rw [hplace] at hhigh
    have hindex : index < options.length := Int.ofNat_lt.mp hhigh
    exact Draws.pure ⟨options[index], List.getElem_mem hindex, List.getElem?_eq_getElem hindex⟩
  | negSucc index =>
    rw [hplace] at hfloor
    exact absurd hfloor (by simp)

theorem selectRecountChoice_draws (original fallback : VoteChoice) :
    Draws (selectRecountChoice original fallback) (· ≠ original) := by
  have hne : voteChoices.filter (· ≠ original) ≠ [] := by cases original <;> decide
  unfold selectRecountChoice
  rw [if_neg (by simpa using hne)]
  refine (pick_draws hne).bind ?_
  rintro _ ⟨choice, hchoice, rfl⟩
  exact Draws.pure (by simpa using (List.mem_filter.mp hchoice).2)

/-- The bot to recount is in the votes, and its choice changes. -/
theorem selectBotRecountTarget_draws {votes : Votes} {userVoteIndex : ℕ} (targetChoice : VoteChoice)
    (hbots : ∃ index ∈ votes.map Prod.fst, index ≠ userVoteIndex) :
    Draws (selectBotRecountTarget votes userVoteIndex targetChoice) fun options =>
      ∃ index vote choice, options = ⟨some choice, some index⟩ ∧ index ≠ userVoteIndex ∧
        votes.lookup index = some vote ∧
        choice ≠ vote.vote := by
  obtain ⟨bot, hbot, hother⟩ := hbots
  have hne : (votes.map Prod.fst).filter (· ≠ userVoteIndex) ≠ [] :=
    List.ne_nil_of_mem (List.mem_filter.mpr ⟨hbot, by simpa using hother⟩)
  unfold selectBotRecountTarget
  dsimp only
  rw [if_neg (by simpa only [List.length_eq_zero_iff] using hne)]
  refine (pick_draws hne).bind ?_
  rintro _ ⟨index, hindex, rfl⟩
  obtain ⟨hmem, hindexOther⟩ := List.mem_filter.mp hindex
  obtain ⟨vote, hvote⟩ := Option.isSome_iff_exists.mp (lookup_isSome_iff_mem.mpr hmem)
  simp only [hvote]
  refine (selectRecountChoice_draws vote.vote targetChoice).bind fun choice hchoice => ?_
  exact Draws.pure ⟨index, vote, choice, rfl, by simpa using hindexOther, hvote, hchoice⟩

/-! ### The effect of one scenario -/

/-- What a scenario leaves of the votes, and the changes it notes. -/
inductive Tampered (votes : Votes) (userVoteIndex : ℕ) (scenario : JsString) :
    Votes → List ScenarioChange → Prop
  | excluded (index : ℕ) (vote : StoredVoteRecord) (hvote : votes.lookup index = some vote)
      (hscenario : (scenario = js "S1" ∧ index = userVoteIndex) ∨ (scenario = js "S3" ∧ index = 1) ∨
        scenario = js "S5") :
      Tampered votes userVoteIndex scenario (mapDelete votes index)
        [⟨scenario, index, .ignored, some vote.vote, none⟩]
  | recounted (index : ℕ) (vote : StoredVoteRecord) (choice : VoteChoice)
      (hvote : votes.lookup index = some vote) (hchoice : choice ≠ vote.vote)
      (hscenario : (scenario = js "S2" ∧ index = userVoteIndex) ∨
        (scenario = js "S4" ∧ index ≠ userVoteIndex)) :
      Tampered votes userVoteIndex scenario (mapSet votes index { vote with vote := choice })
        [⟨scenario, index, .recounted, some vote.vote, some choice⟩]

section Effects

variable {votes : Votes} {userVoteIndex index : ℕ} {vote : StoredVoteRecord} {heap : ScenarioHeap}
    {map : MapRef}

theorem exec_readMap (h : heap.maps[map]? = some votes) :
    exec (readMap map) heap = (.ok votes, heap) := by
  unfold readMap
  rw [exec_get_bind, h]
  rfl

/-- The map that was made last. -/
theorem get_last (maps : List Votes) (votes : Votes) :
    (maps ++ [votes])[maps.length]? = some votes := by simp

theorem exec_newMap (heap : ScenarioHeap) (votes : Votes) :
    exec (newMap votes) heap = (.ok heap.maps.length, { heap with maps := heap.maps ++ [votes] }) := rfl

theorem modify_last (maps : List Votes) (votes : Votes) (update : Votes → Votes) :
    (maps ++ [votes]).modify maps.length update = maps ++ [update votes] := by
  induction maps with
  | nil => rfl
  | cons head rest ih => simpa using ih

theorem update_last (heap : ScenarioHeap) (votes : Votes) (update : Votes → Votes) :
    exec (updateMap heap.maps.length update) { heap with maps := heap.maps ++ [votes] } =
      (.ok (), { heap with maps := heap.maps ++ [update votes] }) := by
  rw [updateMap, exec_modify, modify_last]

theorem ignore_last (hvote : votes.lookup index = some vote) (heap : ScenarioHeap)
    (scenario : JsString) :
    exec (ignoreScenarioVote ⟨heap.maps.length, []⟩ scenario index)
      { heap with maps := heap.maps ++ [votes] } =
        (.ok ⟨heap.maps.length, [⟨scenario, index, .ignored, some vote.vote, none⟩]⟩,
        { heap with maps := heap.maps ++ [mapDelete votes index] }) := by
  unfold ignoreScenarioVote
  rw [exec_bind_ok (exec_readMap (get_last heap.maps votes)), hvote]
  dsimp only
  rw [exec_bind_ok (update_last heap votes _)]
  rfl

theorem recount_last (hvote : votes.lookup index = some vote) (heap : ScenarioHeap) (scenario : JsString)
    (choice : VoteChoice) :
    exec (recountScenarioVote ⟨heap.maps.length, []⟩ scenario index (some choice))
        { heap with maps := heap.maps ++ [votes] } =
      (.ok ⟨heap.maps.length, [⟨scenario, index, .recounted, some vote.vote, some choice⟩]⟩,
        { heap with maps := heap.maps ++ [mapSet votes index { vote with vote := choice }] }) := by
  unfold recountScenarioVote
  dsimp only
  rw [exec_bind_ok (exec_readMap (get_last heap.maps votes)), hvote]
  dsimp only
  rw [exec_bind_ok (update_last heap votes _)]
  rfl

theorem exec_applyScenarios_one (hmap : heap.maps[map]? = some votes) (scenario : JsString)
    (options : ScenarioOptions) :
    exec (applyScenarios map [scenario] userVoteIndex options) heap =
      exec (applyScenarioChange ⟨heap.maps.length, []⟩ scenario userVoteIndex options)
        { heap with maps := heap.maps ++ [votes] } := by
  unfold applyScenarios
  rw [exec_bind_ok (exec_readMap hmap), exec_bind_ok (exec_newMap heap votes)]
  simp only [List.foldlM_cons, List.foldlM_nil, bind_pure]

/-- The result of one scenario, and the heap after it. -/
structure Applied (votes : Votes) (userVoteIndex : ℕ) (scenario : JsString) (heap : ScenarioHeap)
    (modified : Votes) (changes : List ScenarioChange) (result : ScenarioApplicationResult)
    (heap' : ScenarioHeap) : Prop where
  tampered : Tampered votes userVoteIndex scenario modified changes
  maps_eq : heap'.maps = heap.maps ++ [modified]
  modifiedVotes_eq : result.modifiedVotes = heap.maps.length
  scenarioResult_eq : result.scenarioResult = some ⟨heap.maps.length, changes⟩
  scenariosApplied_eq : result.scenariosApplied = [scenario]
  summary_eq : result.summary = summarizeScenarioChanges changes userVoteIndex
  claimedCounts_eq : result.claimedCounts = getTallyCounts modified
  claimedTotalVotes_eq : result.claimedTotalVotes = (getTallyCounts modified).toList.foldl (· + ·) 0
  tamperMode_eq : result.tamperMode = resolveScenarioTamperMode [scenario]

/-- The targets fit the scenario. -/
def TargetsFit (votes : Votes) (userVoteIndex : ℕ) (scenario : JsString) (options : ScenarioOptions) :
    Prop :=
  ∃ targetChoice targetBotId, options = ⟨some targetChoice, some targetBotId⟩ ∧
    (scenario = js "S2" → ∀ vote, votes.lookup userVoteIndex = some vote → targetChoice ≠ vote.vote) ∧
    (scenario = js "S4" → targetBotId ≠ userVoteIndex ∧
      ∃ vote, votes.lookup targetBotId = some vote ∧ targetChoice ≠ vote.vote) ∧
    (scenario ≠ js "S4" → targetBotId = 1)

theorem selectScenarioTargets_draws (hbots : ∃ index ∈ votes.map Prod.fst, index ≠ userVoteIndex)
    (huser : votes.lookup userVoteIndex = some vote) (scenario : JsString) :
    Draws (selectScenarioTargets votes userVoteIndex [scenario])
      (TargetsFit votes userVoteIndex scenario) := by
  have hchoice : Draws (selectUserTargetChoice votes userVoteIndex [scenario])
      fun choice => scenario = js "S2" → choice ≠ vote.vote := by
    unfold selectUserTargetChoice
    rw [huser]
    dsimp only
    split
    · intro heap hreadings
      obtain ⟨choice, heap', hexec, hne, hrest⟩ := selectRecountChoice_draws vote.vote .b heap hreadings
      exact ⟨choice, heap', hexec, fun _ => hne, hrest⟩
    · rename_i hother
      exact Draws.pure fun h => absurd (List.mem_singleton.mpr h.symm) hother
  refine hchoice.bind fun targetChoice htarget => ?_
  split
  · rename_i hfour
    obtain rfl := List.mem_singleton.mp hfour
    intro heap hreadings
    obtain ⟨options, heap', hexec, ⟨index, bot, choice, rfl, hother, hbot, hne⟩, hrest⟩ :=
      selectBotRecountTarget_draws targetChoice hbots heap hreadings
    exact ⟨_, heap', hexec, ⟨choice, index, rfl, fun h => absurd h (by decide),
      fun _ => ⟨hother, bot, hbot, hne⟩, fun h => absurd rfl h⟩, hrest⟩
  · rename_i hfour
    refine Draws.pure ⟨targetChoice, 1, rfl, ?_, fun h => absurd (List.mem_singleton.mpr h.symm) hfour,
      fun _ => rfl⟩
    intro htwo found hfound
    obtain rfl := Option.some.inj (huser.symm.trans hfound)
    exact htarget htwo

theorem ignoreRandom_last (hne : votes ≠ []) (heap : ScenarioHeap)
    (hreadings : InUnitInterval heap.readings) :
    ∃ index vote heap', votes.lookup index = some vote ∧
      exec (ignoreRandomScenarioVote ⟨heap.maps.length, []⟩) { heap with maps := heap.maps ++ [votes] } =
        (.ok ⟨heap.maps.length, [⟨js "S5", index, .ignored, some vote.vote, none⟩]⟩, heap') ∧
      heap'.maps = heap.maps ++ [mapDelete votes index] := by
  have hindices : votes.map Prod.fst ≠ [] := by simpa using hne
  obtain ⟨_, heap₁, hexec, ⟨index, hindex, rfl⟩, hmaps, -⟩ :=
    pick_draws hindices { heap with maps := heap.maps ++ [votes] } hreadings
  obtain ⟨vote, hvote⟩ := Option.isSome_iff_exists.mp (lookup_isSome_iff_mem.mpr hindex)
  have hheap : heap₁ = ⟨heap₁.readings, heap.maps ++ [votes]⟩ :=
    congrArg (ScenarioHeap.mk heap₁.readings) hmaps
  refine ⟨index, vote, ⟨heap₁.readings, heap.maps ++ [mapDelete votes index]⟩, hvote, ?_, rfl⟩
  unfold ignoreRandomScenarioVote
  rw [exec_bind_ok (exec_readMap (get_last heap.maps votes))]
  dsimp only
  rw [if_neg (by simpa using hne), exec_bind_ok hexec, hheap]
  exact ignore_last hvote ⟨heap₁.readings, heap.maps⟩ _

/-- The change of one scenario on the copy of the votes. -/
theorem applyScenarioChange_last {scenario : JsString} {options : ScenarioOptions}
    (huser : votes.lookup userVoteIndex = some vote) (hbot : (votes.lookup 1).isSome = true)
    (hscenario : scenario ∈ [js "S1", js "S2", js "S3", js "S4", js "S5"])
    (hfit : TargetsFit votes userVoteIndex scenario options) (heap : ScenarioHeap)
    (hreadings : InUnitInterval heap.readings) :
    ∃ modified changes heap',
      exec (applyScenarioChange ⟨heap.maps.length, []⟩ scenario userVoteIndex options)
        { heap with maps := heap.maps ++ [votes] } = (.ok ⟨heap.maps.length, changes⟩, heap') ∧
      heap'.maps = heap.maps ++ [modified] ∧ Tampered votes userVoteIndex scenario modified changes := by
  obtain ⟨targetChoice, targetBotId, rfl, htwo, hfour, hone⟩ := hfit
  simp only [List.mem_cons, List.not_mem_nil, or_false] at hscenario
  unfold applyScenarioChange
  rcases hscenario with rfl | rfl | rfl | rfl | rfl
  · rw [if_pos rfl]
    exact ⟨_, _, _, ignore_last huser heap _, rfl, .excluded _ _ huser (.inl ⟨rfl, rfl⟩)⟩
  · rw [if_neg (by decide), if_pos rfl]
    exact ⟨_, _, _, recount_last huser heap _ _, rfl,
      .recounted _ _ _ huser (htwo rfl _ huser) (.inl ⟨rfl, rfl⟩)⟩
  · obtain rfl := hone (by decide)
    obtain ⟨bot, hbot⟩ := Option.isSome_iff_exists.mp hbot
    rw [if_neg (by decide), if_neg (by decide), if_pos rfl]
    exact ⟨_, _, _, ignore_last hbot heap _, rfl, .excluded _ _ hbot (.inr (.inl ⟨rfl, rfl⟩))⟩
  · obtain ⟨hother, bot, hbot, hne⟩ := hfour rfl
    rw [if_neg (by decide), if_neg (by decide), if_neg (by decide), if_pos rfl]
    exact ⟨_, _, _, recount_last hbot heap _ _, rfl, .recounted _ _ _ hbot hne (.inr ⟨rfl, hother⟩)⟩
  · have hne : votes ≠ [] := by
      rintro rfl
      cases huser
    obtain ⟨index, found, heap', hfound, hexec, hmaps⟩ := ignoreRandom_last hne heap hreadings
    rw [if_neg (by decide), if_neg (by decide), if_neg (by decide), if_neg (by decide), if_pos rfl]
    exact ⟨_, _, heap', hexec, hmaps, .excluded _ _ hfound (.inr (.inr rfl))⟩

/-- SPEC: one scenario tampers with a copy of the votes. -/
theorem applyFinalizeScenarios_one {scenario : JsString} (hmap : heap.maps[map]? = some votes)
    (huser : votes.lookup userVoteIndex = some vote) (hbot : (votes.lookup 1).isSome = true)
    (hother : userVoteIndex ≠ 1) (hscenario : scenario ∈ [js "S1", js "S2", js "S3", js "S4", js "S5"])
    (hreadings : InUnitInterval heap.readings) :
    ∃ modified changes result heap',
        exec (applyFinalizeScenarios map userVoteIndex [scenario] false) heap = (.ok result, heap') ∧
        Applied votes userVoteIndex scenario heap modified changes result heap' := by
  obtain ⟨options, heap₁, htargets, hfit, hmaps, hreadings₁⟩ :=
    selectScenarioTargets_draws ⟨1, lookup_isSome_iff_mem.mp hbot, hother.symm⟩ huser scenario
      heap hreadings
  obtain ⟨modified, changes, heap₂, hchange, hmaps₂, htampered⟩ :=
    applyScenarioChange_last huser hbot hscenario hfit heap₁ hreadings₁
  have happly : exec (applyScenarios map [scenario] userVoteIndex options) heap₁ =
      (.ok ⟨heap₁.maps.length, changes⟩, heap₂) := by
    rw [exec_applyScenarios_one (hmaps ▸ hmap), hchange]
  have hread : heap₂.maps[heap₁.maps.length]? = some modified := hmaps₂ ▸ get_last heap₁.maps modified
  let result : ScenarioApplicationResult :=
    ⟨heap₁.maps.length, some ⟨heap₁.maps.length, changes⟩, [scenario],
      summarizeScenarioChanges changes userVoteIndex, getTallyCounts modified,
      (getTallyCounts modified).toList.foldl (· + ·) 0, resolveScenarioTamperMode [scenario]⟩
  refine ⟨modified, changes, result, heap₂, ?_, htampered, hmaps ▸ hmaps₂, ?_, ?_, rfl, rfl,
    rfl, rfl, rfl⟩
  · unfold applyFinalizeScenarios
    rw [exec_bind_ok (exec_readMap hmap)]
    simp only [List.length_singleton, gt_iff_lt, Nat.zero_lt_one, if_true, Nat.one_ne_zero, if_false]
    rw [exec_bind_ok htargets, exec_bind_ok happly, exec_bind_ok (exec_readMap hread)]
    rfl
  · exact congrArg List.length hmaps
  · rw [← hmaps]

/-- Without a scenario nothing is copied. -/
theorem applyFinalizeScenarios_none (hmap : heap.maps[map]? = some votes) :
    exec (applyFinalizeScenarios map userVoteIndex [] false) heap =
      (.ok ⟨map, none, [], ⟨0, 0, none⟩, getTallyCounts votes,
        (getTallyCounts votes).toList.foldl (· + ·) 0, .none⟩, heap) := by
  unfold applyFinalizeScenarios
  rw [exec_bind_ok (exec_readMap hmap)]
  rfl

end Effects

end StarkBallot.Domain
