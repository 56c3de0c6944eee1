import StarkBallot.Application.FinalizationStorage
import StarkBallot.Domain.ScenarioApplication

/-! The scenario of a finalization (`application/src/finalize/usecases/finalize-session.ts`, `types.ts`,
    `finalize-scenario-context.ts`). It is applied once, when the inputs are prepared; the context it
    gives is used in memory by one path and stored for the other.

        scenario id ──apply──▶ FinalizeScenarioContext ──▶ synchronous result
                                        └──▶ FinalizationScenarioContext ──▶ hydrated result -/

namespace StarkBallot.Application
open Schemes Domain

structure FinalizeScenarioContext where
  scenarios : List JsString
  scenariosApplied : List JsString
  tamperMode : ScenarioTamperMode
  claimedCounts : Vector ℕ 5
  claimedTotalVotes : ℕ
  summary : ScenarioSummary
  scenarioResult : Option ScenarioResult
  affectedBotIds : Option (List ℕ)

/-- `scenarioId === 'S0' ? [] : [scenarioId]`. -/
def scenariosOf (scenarioId : JsString) : List JsString :=
  if scenarioId = js "S0" then [] else [scenarioId]

/-- The indices of the changes other than the user's, each once. -/
def affectedBotIdsOf (changes : List ScenarioChange) (userVoteIndex : ℕ) : List ℕ :=
  ((changes.filter (·.voteIndex ≠ userVoteIndex)).map (·.voteIndex)).foldl setAdd []

def toFinalizeScenarioContext (scenarioId : JsString) (userVoteIndex : ℕ)
    (application : ScenarioApplicationResult) :
    FinalizeScenarioContext where
  scenarios := scenariosOf scenarioId
  scenariosApplied := application.scenariosApplied
  tamperMode := application.tamperMode
  claimedCounts := application.claimedCounts
  claimedTotalVotes := application.claimedTotalVotes
  summary := application.summary
  scenarioResult := application.scenarioResult
  affectedBotIds :=
    if scenarioId = js "S3" ∨ scenarioId = js "S4" then
      application.scenarioResult.map fun result => affectedBotIdsOf result.changes userVoteIndex
    else none

/-- The scenario part of `prepareFinalizationInputs`. -/
def applyScenario (votes : MapRef) (userVoteIndex : ℕ) (scenarioId : JsString) :
    ScenarioM (ScenarioApplicationResult × FinalizeScenarioContext) := do
  let application ← applyFinalizeScenarios votes userVoteIndex (scenariosOf scenarioId) false
  return (application, toFinalizeScenarioContext scenarioId userVoteIndex application)

def toFinalizationScenarioContext (scenario : FinalizeScenarioContext) :
    FinalizationScenarioContext where
  scenarios := scenario.scenariosApplied
  tamperMode := scenario.tamperMode
  claimedCounts := scenario.claimedCounts.map .ofNat
  claimedTotalVotes := .ofNat scenario.claimedTotalVotes
  ignoredCount := .ofNat scenario.summary.ignoredCount
  recountedCount := .ofNat scenario.summary.recountedCount
  userRecountChoice := scenario.summary.userRecountChoice
  affectedBotIds := scenario.affectedBotIds.map fun ids => ids.map .ofNat

/-! ### What every context satisfies -/

/-- A context that came from applying a scenario to some votes. -/
def Produced (scenario : FinalizeScenarioContext) : Prop :=
  ∃ votes userVoteIndex scenarioId heap heap' application,
    exec (applyScenario votes userVoteIndex scenarioId) heap = (.ok (application, scenario), heap')

/-- The applied scenarios are the requested ones, and without any nothing is noted. -/
structure Coherent (scenario : FinalizeScenarioContext) : Prop where
  applied : scenario.scenariosApplied = scenario.scenarios
  untampered : scenario.scenarioResult = none → scenario.summary = ⟨0, 0, none⟩

theorem applyFinalizeScenarios_coherent {votes : MapRef} {userVoteIndex : ℕ} {scenarios : List JsString}
    {heap heap' : ScenarioHeap} {application : ScenarioApplicationResult}
    (h : exec (applyFinalizeScenarios votes userVoteIndex scenarios false) heap =
      (.ok application, heap')) :
    application.scenariosApplied = scenarios ∧
      (application.scenarioResult = none → application.summary = ⟨0, 0, none⟩) := by
  have happlied :
      (if scenarios.length > 0 then scenarios else if false = true then [js "S1"] else []) =
        scenarios := by
    cases scenarios <;> simp
  unfold applyFinalizeScenarios at h
  obtain ⟨originalVotes, heap₁, -, h⟩ := exec_bind_eq_ok h
  dsimp only at h
  rw [happlied] at h
  split at h
  · rw [exec_pure, Prod.mk.injEq] at h
    rw [← Except.ok.inj h.1]
    exact ⟨rfl, fun _ => rfl⟩
  · obtain ⟨options, heap₂, -, h⟩ := exec_bind_eq_ok h
    obtain ⟨scenarioResult, heap₃, -, h⟩ := exec_bind_eq_ok h
    obtain ⟨modified, heap₄, -, h⟩ := exec_bind_eq_ok h
    rw [exec_pure, Prod.mk.injEq] at h
    rw [← Except.ok.inj h.1]
    exact ⟨rfl, by simp⟩

theorem Produced.coherent {scenario : FinalizeScenarioContext} (h : Produced scenario) :
    Coherent scenario := by
  obtain ⟨votes, userVoteIndex, scenarioId, heap, heap', application, h⟩ := h
  unfold applyScenario at h
  obtain ⟨application', heap₁, happly, h⟩ := exec_bind_eq_ok h
  rw [exec_pure, Prod.mk.injEq, Except.ok.injEq, Prod.mk.injEq] at h
  obtain ⟨⟨rfl, rfl⟩, -⟩ := h
  obtain ⟨happlied, huntampered⟩ := applyFinalizeScenarios_coherent happly
  exact ⟨happlied, huntampered⟩

end StarkBallot.Application
