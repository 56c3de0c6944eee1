import StarkBallot.Application.VerificationResult
import StarkBallot.Verification.EvaluateChecks

/-! What the public facts of a scenario have to look like
    (`verification/src/verification/scenario-projection.ts`, `finalization-tamper.ts`). Each scenario
    has its own summary and its own distance between the published counts and the verified tally:

        S0          nothing                       no distance
        S1 S3 S5    some votes left out           no distance
        S2 S4       one vote counted elsewhere    one choice loses a vote, one gains it -/

namespace StarkBallot.Verification
open Application Domain

/-! ### Counts -/

/-- Anything but a positive finite number counts as zero. -/
def normalizeNonNegativeCount (value : Option Num) : Num :=
  match value with
  | some value => if value.isFinite && (Num.ofNat 0).lt value then value else .ofNat 0
  | none => .ofNat 0

def resolveScenarioTamperCount (summary : Option FinalizationTamperSummary) : Num :=
  (normalizeNonNegativeCount (summary.map (·.ignoredVotes))).add
    (normalizeNonNegativeCount (summary.map (·.recountedVotes)))

def resolveFinalizationTamperDetected (excludedSlots rejectedRecords scenarioTamperCount : Option Num) :
    Bool :=
  (Num.ofNat 0).lt (normalizeNonNegativeCount excludedSlots) ||
  (Num.ofNat 0).lt (normalizeNonNegativeCount rejectedRecords) ||
  (Num.ofNat 0).lt (normalizeNonNegativeCount scenarioTamperCount)

/-- `Math.max(a, b)`. -/
def maxNum (a b : Num) : Num :=
  if a = .nan ∨ b = .nan then .nan else if a.lt b then b else a

@[simp] theorem normalizeNonNegativeCount_ofNat (n : ℕ) :
    normalizeNonNegativeCount (some (.ofNat n)) = .ofNat n := by
  rcases Nat.eq_zero_or_pos n with rfl | hpos
  · rfl
  · simp [normalizeNonNegativeCount, hpos]

theorem resolveScenarioTamperCount_ofNat {summary : FinalizationTamperSummary} {ignored recounted : ℕ}
    (hignored : summary.ignoredVotes = .ofNat ignored)
    (hrecounted : summary.recountedVotes = .ofNat recounted) :
    resolveScenarioTamperCount (some summary) = .ofNat (ignored + recounted) := by
  simp [resolveScenarioTamperCount, hignored, hrecounted]

@[simp] theorem maxNum_ofNat (m n : ℕ) : maxNum (.ofNat m) (.ofNat n) = .ofNat (max m n) := by
  unfold maxNum
  rw [if_neg (by simp [Num.ofNat]), Num.ofNat_lt]
  rcases Nat.lt_or_ge m n with h | h
  · simp [h, Nat.max_eq_right h.le]
  · simp [Nat.not_lt.mpr h, Nat.max_eq_left h]

/-! ### Summaries -/

def hasCanonicalAffectedBotIds (ids : List Num) : Bool :=
  ids.all (fun id => id.isSafeInteger && (Num.ofNat 1).le id && id.le (.ofNat botCount)) &&
    ids.dedup.length = ids.length

def hasUntamperedSummary (summary : FinalizationTamperSummary) (affectedBotIds : List Num) : Bool :=
  summary.ignoredVotes.eq (.ofNat 0) && summary.recountedVotes.eq (.ofNat 0) &&
    summary.userRecountedTo.isNone &&
  affectedBotIds.length = 0

def hasExcludedSummary (summary : FinalizationTamperSummary) (excludedSlots : Num)
    (affectedBotIds : List Num) (expectedBotCount : ℕ) : Bool :=
  (Num.ofNat 0).lt summary.ignoredVotes && summary.ignoredVotes.eq excludedSlots &&
  summary.recountedVotes.eq (.ofNat 0) && summary.userRecountedTo.isNone &&
    affectedBotIds.length = expectedBotCount

def hasSingleExcludedSummary (summary : FinalizationTamperSummary) (excludedSlots : Num)
    (affectedBotIds : List Num) (expectedBotCount : ℕ) : Bool :=
  summary.ignoredVotes.eq (.ofNat 1) &&
    hasExcludedSummary summary excludedSlots affectedBotIds expectedBotCount

def hasRecountedSummary (summary : FinalizationTamperSummary) (affectedBotIds : List Num)
    (expectedBotCount : ℕ) : Bool :=
  summary.ignoredVotes.eq (.ofNat 0) && summary.recountedVotes.eq (.ofNat 1) &&
    affectedBotIds.length = expectedBotCount

def matchesScenarioTamperSummary (scenarioId : JsString) (excludedSlots : Num)
    (summary : FinalizationTamperSummary) (affectedBotIds : List Num) : Bool :=
  if scenarioId = js "S0" then hasUntamperedSummary summary affectedBotIds
  else if scenarioId = js "S1" then hasSingleExcludedSummary summary excludedSlots affectedBotIds 0
  else if scenarioId = js "S3" then hasSingleExcludedSummary summary excludedSlots affectedBotIds 1
  else if scenarioId = js "S2" then
    hasRecountedSummary summary affectedBotIds 0 && summary.userRecountedTo.isSome
  else if scenarioId = js "S4" then
    hasRecountedSummary summary affectedBotIds 1 && summary.userRecountedTo.isNone
  else if scenarioId = js "S5" then hasExcludedSummary summary excludedSlots affectedBotIds 0
  else false

def hasCanonicalScenarioTamperSummary (scenarioId : JsString) (excludedSlots : Num)
    (tamperSummary : Option FinalizationTamperSummary) : Bool :=
  match tamperSummary with
  | none => scenarioId = js "S0"
  | some summary =>
    let affectedBotIds := summary.affectedBotIds.getD []
    hasCanonicalAffectedBotIds affectedBotIds &&
      matchesScenarioTamperSummary scenarioId excludedSlots summary affectedBotIds

/-! ### Tallies -/

/-- `counts[choice] - verifiedCounts[choice]`, for each choice. -/
def tallyDeltas (counts verifiedTally : Counts) : List Num :=
  (counts.toList.zip verifiedTally.toList).map fun entry => entry.1.sub entry.2

/-- The choices whose difference is the given one. -/
def choicesWithDelta (deltas : List Num) (delta : Num) : List VoteChoice :=
  ((voteChoices.zip deltas).filter fun entry => entry.2.eq delta).map (·.1)

def minusOne : Num := .neg (.ofNat 1)

def hasSingleRecountedVote (scenarioId : JsString) (tamperSummary : Option FinalizationTamperSummary)
    (deltas : List Num) : Bool :=
  let removedChoices := choicesWithDelta deltas minusOne
  let addedChoices := choicesWithDelta deltas (.ofNat 1)
  if removedChoices.length ≠ 1 ∨ addedChoices.length ≠ 1 ∨
      deltas.any (fun delta => !delta.eq minusOne && !delta.eq (.ofNat 0) && !delta.eq (.ofNat 1)) then
        false
  else scenarioId = js "S4" || (tamperSummary.bind (·.userRecountedTo)) = addedChoices[0]?

def hasCoherentScenarioTallyProjection (scenarioId : JsString) (verifiedTally counts : Counts)
    (tamperSummary : Option FinalizationTamperSummary) : Bool :=
  let deltas := tallyDeltas counts verifiedTally
  if scenarioId = js "S0" ∨ scenarioId = js "S1" ∨ scenarioId = js "S3" ∨ scenarioId = js "S5" then
    deltas.all (·.eq (.ofNat 0))
  else if scenarioId = js "S2" ∨ scenarioId = js "S4" then
    hasSingleRecountedVote scenarioId tamperSummary deltas
  else false

/-! ### Projections -/

structure PublicScenarioTamperProjection where
  scenarioId : JsString
  tamperDetected : Bool
  tamperedCount : Num
  excludedSlots : Num
  rejectedRecords : Num
  verifiedTally : Counts
  counts : Counts
  tamperSummary : Option FinalizationTamperSummary

def hasCoherentPublicScenarioTamperCoreProjection (input : PublicScenarioTamperProjection) : Bool :=
  let scenarioTamperCount := resolveScenarioTamperCount input.tamperSummary
  hasCanonicalScenarioTamperSummary input.scenarioId input.excludedSlots input.tamperSummary &&
  hasCoherentScenarioTallyProjection input.scenarioId input.verifiedTally input.counts
    input.tamperSummary &&
  input.tamperedCount.eq (maxNum input.excludedSlots scenarioTamperCount) &&
  input.tamperDetected = resolveFinalizationTamperDetected (some input.excludedSlots)
    (some input.rejectedRecords) (some scenarioTamperCount)

structure PublicBotVotesSummary where
  total : Option Num
  affectedBotIds : Option (List Num)
  source : JsString

def hasExactNumberSequence (left right : List Num) : Bool :=
  left.length = right.length && (left.zip right).all fun entry => entry.1.eq entry.2

def hasCoherentPublicTamperScenarioProjection (input : PublicScenarioTamperProjection)
    (botVotesSummary : Option PublicBotVotesSummary) : Bool :=
  if !hasCoherentPublicScenarioTamperCoreProjection input then false
  else
    let affectedBotIds := (input.tamperSummary.bind (·.affectedBotIds)).getD []
    if input.scenarioId = js "S3" ∨ input.scenarioId = js "S4" then
      botVotesSummary.any fun summary => summary.total.any (·.eq (.ofNat botCount)) &&
        summary.source = js "scenario_simulation" &&
        hasExactNumberSequence (summary.affectedBotIds.getD []) affectedBotIds
    else botVotesSummary.isNone

end StarkBallot.Verification
