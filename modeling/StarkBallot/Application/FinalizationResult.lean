import StarkBallot.Application.FinalizeScenario
import StarkBallot.Application.SupportedJournal
import StarkBallot.Verification.JournalAuthority
import StarkBallot.Verification.PublicAuditConsistency
import StarkBallot.Verification.ScenarioProjection

/-! The facts of a finalization by either path (`application/src/finalize/finalization-result.ts`,
    `application/src/finalize/usecases/finalize-sync.ts`). The synchronous path has the scenario and the
    journal in memory; the other builds a bare result from the journal and hydrates it when it is read,
    with the stored context.

        scenario, journal ───────────────────────────────▶ result
        journal ──build──▶ bare result ──hydrate──▶ result ──hydrate──▶ the same -/

namespace StarkBallot.Application
open Schemes ContractCore CryptoPrimitives ZkvmContract Domain Verification

variable (noble : NobleUtils) (sha256 : List UInt8 → Bytes 32) {U : Type}

/-! ### Results from a journal -/

/-- The fields that are published; a journal of another version is refused. -/
def toPublicZkvmJournal (journal : CurrentZkVMJournal) : JsM CurrentZkVMJournal := do
  refuseIf (¬ journal.methodVersion.eq (.ofNat currentMethodVersion))
    (.error "Current zkVM journal is missing seenBitmapRoot")
  return { journal with methodVersion := .ofNat currentMethodVersion }

def buildCountsRecord (verifiedTally : Vector Num 5) : Counts :=
  verifiedTally.map fun value => if value.isFinite then value else .ofNat 0

def buildTamperSummary (scenarioContext : FinalizationScenarioContext) :
    Option FinalizationTamperSummary :=
  if scenarioContext.ignoredCount.le (.ofNat 0) ∧ scenarioContext.recountedCount.le (.ofNat 0) then none
  else some {
    ignoredVotes := scenarioContext.ignoredCount
    recountedVotes := scenarioContext.recountedCount
    userRecountedTo := scenarioContext.userRecountChoice
    affectedBotIds := scenarioContext.affectedBotIds }

/-- `resolveScenarioTamperCount({ ignoredVotes, recountedVotes })`. -/
def scenarioTamperCountOf (ignoredVotes recountedVotes : Num) : Num :=
  resolveScenarioTamperCount (some ⟨ignoredVotes, recountedVotes, none, none⟩)

def applyScenarioContext (result : FinalizationResultAuthority U)
    (scenarioContext : Option FinalizationScenarioContext) :
    FinalizationResultAuthority U :=
  match scenarioContext with
  | none => result
  | some scenarioContext =>
    let scenarioTamperCount :=
      scenarioTamperCountOf scenarioContext.ignoredCount scenarioContext.recountedCount
    let excludedSlots := result.journal.excludedSlots
    { result with
      tally :=
        { counts := scenarioContext.claimedCounts
          totalVotes := scenarioContext.claimedTotalVotes
          tamperedCount := maxNum excludedSlots scenarioTamperCount }
      tamperDetected := some (resolveFinalizationTamperDetected (some excludedSlots)
        (some result.journal.rejectedRecords) (some scenarioTamperCount))
      scenarios := some scenarioContext.scenarios
      tamperSummary := (buildTamperSummary scenarioContext).or result.tamperSummary }

/-- `baseResult`: what a journal says on its own. -/
def baseResult (journal : CurrentZkVMJournal) (imageId : JsString)
    (publicAuditArtifacts : Option PublicAudit) :
    FinalizationResultAuthority U where
  tally := ⟨buildCountsRecord journal.verifiedTally, journal.totalExpected, journal.excludedSlots⟩
  imageId := imageId
  tamperDetected := some (resolveFinalizationTamperDetected (some journal.excludedSlots)
    (some journal.rejectedRecords) none)
  scenarios := some []
  journal := journal
  tamperSummary := none
  artifacts := ⟨publicAuditArtifacts, none, none, none⟩

def buildFinalizationResultFromJournal (journal : CurrentZkVMJournal) (imageId : Option JsString)
    (scenarioContext : Option FinalizationScenarioContext) (publicAuditArtifacts : Option PublicAudit) :
    JsM (FinalizationResultAuthority U) := do
  let journal ← toPublicZkvmJournal journal
  return applyScenarioContext (baseResult journal (imageId.getD []) publicAuditArtifacts) scenarioContext

/-! ### Hydration -/

/-- Nothing is known of where stored artifacts come from, and none has to be. -/
def localPublicInputAuthority : PublicInputContext := ⟨none, none, true⟩

def resolveStoredPublicAuditArtifacts (journal : CurrentZkVMJournal) (stored : Option PublicAudit) :
    PublicAuditArtifactResolution :=
  resolveConsistentPublicAuditArtifacts noble sha256 journal (stored.map (·.publicInputArtifact))
    (stored.map (·.electionManifest)) (stored.map (·.closeStatement)) localPublicInputAuthority

def availablePublicAudit (resolution : PublicAuditArtifactResolution) : Option PublicAudit :=
  match resolution.publicInputArtifact, resolution.electionManifest, resolution.closeStatement with
  | some publicInputArtifact, some electionManifest, some closeStatement =>
    some ⟨publicInputArtifact, electionManifest, closeStatement⟩
  | _, _, _ => none

def canonicalizeFinalizationResult (result : FinalizationResultAuthority U)
    (scenarioContext : Option FinalizationScenarioContext) :
    JsM (Option (FinalizationResultAuthority U)) := do
  match admitFinalizationResultAuthority result with
  | none => return none
  | some candidate =>
    if ¬ isSupportedZkVMJournal candidate.journal then return none
    else
      let journal ← toPublicZkvmJournal candidate.journal
      let artifactResolution :=
        resolveStoredPublicAuditArtifacts noble sha256 journal candidate.artifacts.publicAudit
      if artifactResolution.issues.length > 0 then return none
      else
        let derived : FinalizationResultAuthority U ← buildFinalizationResultFromJournal journal
            (some candidate.imageId) scenarioContext (availablePublicAudit artifactResolution)
        let storedScenarioTamperCount := resolveScenarioTamperCount candidate.tamperSummary
        let canonical : FinalizationResultAuthority U :=
          { candidate with
            tamperDetected :=
              some (candidate.tamperDetected.getD false || resolveFinalizationTamperDetected
              (some derived.journal.excludedSlots) (some derived.journal.rejectedRecords)
              (some storedScenarioTamperCount))
            journal := journal
            artifacts := { candidate.artifacts with publicAudit := derived.artifacts.publicAudit } }
        return some (applyScenarioContext canonical scenarioContext)

def hydrateFinalizationResultFromJournal (result : FinalizationResultAuthority U)
    (scenarioContext : Option FinalizationScenarioContext) :
    JsM (Option (FinalizationResultAuthority U)) :=
  canonicalizeFinalizationResult noble sha256 result scenarioContext

def hasConsistentPublicAuditArtifacts (result : FinalizationResultAuthority U) : JsM Bool := do
  if ¬ isSupportedZkVMJournal result.journal then return false
  else
    let journal ← toPublicZkvmJournal result.journal
    match result.artifacts.publicAudit with
    | none => return false
    | some publicAudit =>
      let artifactResolution := resolveStoredPublicAuditArtifacts noble sha256 journal (some publicAudit)
      return artifactResolution.issues.length = 0 && (availablePublicAudit artifactResolution).isSome

/-! ### The synchronous path -/

def admitCurrentExecutionJournal (result : CurrentZkVMJournal) : Option CurrentZkVMJournal :=
  match toPublicZkvmJournal result with
  | .ok journal => if isSupportedZkVMJournal journal then some journal else none
  | .error _ => none

structure SyncEvidence (U : Type) where
  zkVMResult : CurrentZkVMJournal
  publicJournal : CurrentZkVMJournal
  actualImageId : JsString
  normalizedReceipt : ReceiptWithImageId U
  effectiveTamperedCount : Num
  scenarioTamperCount : Num

def prepareSyncEvidence (zkVMResult publicJournal : CurrentZkVMJournal) (actualImageId : JsString)
    (scenarioTamperCount : Num) (normalizedReceipt : ReceiptWithImageId U) : SyncEvidence U where
  zkVMResult := zkVMResult
  publicJournal := publicJournal
  actualImageId := actualImageId
  normalizedReceipt := normalizedReceipt
  effectiveTamperedCount := maxNum zkVMResult.excludedSlots scenarioTamperCount
  scenarioTamperCount := scenarioTamperCount

def buildSyncFinalizationAuthority (scenario : FinalizeScenarioContext) (evidence : SyncEvidence U)
    (publicAudit : PublicAudit) (bitmap : Option BitmapEvidence) : FinalizationResultAuthority U where
  tally :=
    { counts := scenario.claimedCounts.map .ofNat
      totalVotes := .ofNat scenario.claimedTotalVotes
      tamperedCount := evidence.effectiveTamperedCount }
  imageId := evidence.actualImageId
  tamperDetected := some (resolveFinalizationTamperDetected (some evidence.zkVMResult.excludedSlots)
    (some evidence.zkVMResult.rejectedRecords) (some evidence.scenarioTamperCount))
  journal := evidence.publicJournal
  artifacts := ⟨publicAudit, evidence.normalizedReceipt, none, bitmap⟩
  scenarios := some scenario.scenarios
  tamperSummary :=
    if scenario.scenarioResult.isSome ∧
        (scenario.summary.ignoredCount > 0 ∨ scenario.summary.recountedCount > 0) then
      some {
        ignoredVotes := .ofNat scenario.summary.ignoredCount
        recountedVotes := .ofNat scenario.summary.recountedCount
        userRecountedTo := scenario.summary.userRecountChoice
        affectedBotIds := scenario.affectedBotIds.map fun ids => ids.map .ofNat }
    else none

/-- The synchronous result for a journal: the evidence is prepared, and the result built from it. -/
def syncFinalizationAuthority (scenario : FinalizeScenarioContext)
    (zkVMResult publicJournal : CurrentZkVMJournal) (actualImageId : JsString)
    (normalizedReceipt : ReceiptWithImageId U) (publicAudit : PublicAudit)
    (bitmap : Option BitmapEvidence) : FinalizationResultAuthority U :=
  buildSyncFinalizationAuthority scenario
    (prepareSyncEvidence zkVMResult publicJournal actualImageId
      (scenarioTamperCountOf (.ofNat scenario.summary.ignoredCount)
        (.ofNat scenario.summary.recountedCount))
      normalizedReceipt) publicAudit bitmap

/-! ### Journals that are published -/

variable {noble sha256}

theorem supported_methodVersion {journal : CurrentZkVMJournal}
    (h : isSupportedZkVMJournal journal = true) :
    journal.methodVersion = .ofNat currentMethodVersion := by
  simp only [isSupportedZkVMJournal, Bool.and_eq_true] at h
  exact Num.eq_of_eq h.2

/-- A supported journal is published as it is. -/
theorem toPublicZkvmJournal_supported {journal : CurrentZkVMJournal}
    (h : isSupportedZkVMJournal journal = true) :
    toPublicZkvmJournal journal = .ok journal := by
  have hversion := supported_methodVersion h
  unfold toPublicZkvmJournal
  rw [refuseIf_of_not (by rw [hversion]; simp), ok_bind, ← hversion]
  rfl

theorem admitCurrentExecutionJournal_supported {journal : CurrentZkVMJournal}
    (h : isSupportedZkVMJournal journal = true) :
    admitCurrentExecutionJournal journal = some journal := by
  simp only [admitCurrentExecutionJournal, toPublicZkvmJournal_supported h, h, if_true]

/-! ### Admission -/

/-- Facts that admission leaves alone. -/
def FactsAdmitted (facts : ResultFacts) : Prop := parseFacts facts = some facts

def ArtifactsAdmitted (artifacts artifacts' : FinalizationArtifactAvailability U) : Prop :=
  ifPresent parseReceiptWithImageId artifacts.receipt = some artifacts'.receipt ∧
  ifPresent parseReceiptPublication artifacts.receiptPublication = some artifacts'.receiptPublication ∧
  ifPresent admitPublicAudit artifacts.publicAudit = some artifacts'.publicAudit ∧
  ifPresent admitBitmap artifacts.bitmap = some artifacts'.bitmap

/-- SPEC: admission checks the facts, and cleans up the artifacts one by one. -/
theorem admitFinalizationResultAuthority_iff {value candidate : FinalizationResultAuthority U} :
    admitFinalizationResultAuthority value = some candidate ↔
      FactsAdmitted value.toResultFacts ∧ candidate.toResultFacts = value.toResultFacts ∧
        ArtifactsAdmitted value.artifacts candidate.artifacts := by
  unfold admitFinalizationResultAuthority parseFinalizationResultAuthority
  rw [parseStoredPublicAuditArtifacts_encode, parseStoredBitmapArtifact_encode]
  simp only [encodeFinalizationResultAuthority, FactsAdmitted, ArtifactsAdmitted]
  constructor
  · intro h
    obtain ⟨facts, hfacts, h⟩ := Option.bind_eq_some_iff.mp h
    obtain ⟨receipt, hreceipt, h⟩ := Option.bind_eq_some_iff.mp h
    obtain ⟨publication, hpublication, h⟩ := Option.bind_eq_some_iff.mp h
    obtain ⟨audit, haudit, h⟩ := Option.bind_eq_some_iff.mp h
    obtain ⟨bitmap, hbitmap, h⟩ := Option.bind_eq_some_iff.mp h
    obtain ⟨hok, rfl⟩ := accept_eq_some.mp hfacts
    rw [← Option.some.inj h]
    exact ⟨hfacts, rfl, hreceipt, hpublication, haudit, hbitmap⟩
  · rintro ⟨hfacts, heq, hreceipt, hpublication, haudit, hbitmap⟩
    rw [hfacts, hreceipt, hpublication, haudit, hbitmap, ← heq]
    rfl

theorem factsAdmitted_iff {facts : ResultFacts} :
    FactsAdmitted facts ↔ (parseFinalizationTally facts.tally).isSome = true ∧
      isSupportedZkVMJournal facts.journal = true ∧
      (facts.tamperSummary.all fun summary => (parseTamperSummary summary).isSome) = true := by
  rw [FactsAdmitted, parseFacts, accept_eq_some, Bool.and_eq_true, Bool.and_eq_true]
  simp [and_assoc]

theorem stable_artifacts {artifacts artifacts' : FinalizationArtifactAvailability U}
    (h : ArtifactsAdmitted artifacts artifacts') : ArtifactsAdmitted artifacts' artifacts' :=
  ⟨stable_receipt.ifPresent h.1, (stable_accept _).ifPresent h.2.1, stable_publicAudit.ifPresent h.2.2.1,
    stable_bitmap.ifPresent h.2.2.2⟩

/-! ### Hydration, step by step -/

/-- The stored artifacts agree with the journal. -/
def Stores (noble : NobleUtils) (sha256 : List UInt8 → Bytes 32) (journal : CurrentZkVMJournal)
    (publicAudit : Option PublicAudit) : Prop :=
  (resolveStoredPublicAuditArtifacts noble sha256 journal publicAudit).issues = []

theorem not_stores_none {journal : CurrentZkVMJournal} : ¬ Stores noble sha256 journal none :=
  resolveConsistentPublicAuditArtifacts_missing none none

/-- Artifacts without issues are kept. -/
theorem Stores.available {journal : CurrentZkVMJournal} {publicAudit : Option PublicAudit}
    (h : Stores noble sha256 journal publicAudit) :
    availablePublicAudit (resolveStoredPublicAuditArtifacts noble sha256 journal publicAudit) =
      publicAudit := by
  cases publicAudit with
  | none => exact absurd h not_stores_none
  | some artifacts =>
    have hvalue := resolveConsistentPublicAuditArtifacts_value h
    rw [resolveStoredPublicAuditArtifacts]
    simp only [Option.map_some]
    rw [hvalue]
    rfl

theorem buildFinalizationResultFromJournal_supported {journal : CurrentZkVMJournal}
    (h : isSupportedZkVMJournal journal = true) (imageId : Option JsString)
    (scenarioContext : Option FinalizationScenarioContext) (publicAuditArtifacts : Option PublicAudit) :
    (buildFinalizationResultFromJournal journal imageId scenarioContext publicAuditArtifacts :
        JsM (FinalizationResultAuthority U)) =
      .ok (applyScenarioContext (baseResult journal (imageId.getD []) publicAuditArtifacts)
        scenarioContext) := by
  unfold buildFinalizationResultFromJournal
  rw [toPublicZkvmJournal_supported h, ok_bind]
  rfl

theorem applyScenarioContext_artifacts (result : FinalizationResultAuthority U)
    (scenarioContext : Option FinalizationScenarioContext) :
    (applyScenarioContext result scenarioContext).artifacts = result.artifacts := by
  cases scenarioContext <;> rfl

/-- SPEC: hydration admits the value, checks its artifacts and applies the context. -/
theorem hydrateFinalizationResultFromJournal_eq (value : FinalizationResultAuthority U)
    (context : FinalizationScenarioContext) :
    (∀ candidate, admitFinalizationResultAuthority value = some candidate →
      Stores noble sha256 candidate.journal candidate.artifacts.publicAudit →
      hydrateFinalizationResultFromJournal noble sha256 value (some context) =
        .ok (some (applyScenarioContext candidate (some context)))) ∧
    ((∀ candidate, admitFinalizationResultAuthority value = some candidate →
      ¬ Stores noble sha256 candidate.journal candidate.artifacts.publicAudit) →
      hydrateFinalizationResultFromJournal noble sha256 value (some context) = .ok none) := by
  unfold hydrateFinalizationResultFromJournal canonicalizeFinalizationResult
  cases hadmit : admitFinalizationResultAuthority value with
  | none => exact ⟨by rintro _ ⟨⟩, fun _ => rfl⟩
  | some candidate =>
    obtain ⟨hfacts, heq, -⟩ := admitFinalizationResultAuthority_iff.mp hadmit
    have hsupported : isSupportedZkVMJournal candidate.journal = true :=
      (congrArg ResultFacts.journal heq) ▸ (factsAdmitted_iff.mp hfacts).2.1
    dsimp only
    rw [if_neg (not_not.mpr hsupported), toPublicZkvmJournal_supported hsupported, ok_bind]
    refine ⟨?_, ?_⟩
    · rintro _ ⟨⟩ hstores
      have hlength : ¬ (resolveStoredPublicAuditArtifacts noble sha256 candidate.journal
          candidate.artifacts.publicAudit).issues.length > 0 := by
        rw [show _ = [] from hstores]
        exact Nat.lt_irrefl 0
      rw [if_neg hlength, buildFinalizationResultFromJournal_supported hsupported, ok_bind,
        applyScenarioContext_artifacts, hstores.available]
      rfl
    · intro hnot
      have hlength : (resolveStoredPublicAuditArtifacts noble sha256 candidate.journal
          candidate.artifacts.publicAudit).issues.length > 0 :=
          List.length_pos_iff.mpr (hnot candidate rfl)
      rw [if_pos hlength]
      rfl

/-- What was hydrated was admitted, with artifacts that agree with its journal. -/
theorem hydrated_eq_some {value hydrated : FinalizationResultAuthority U}
    {context : FinalizationScenarioContext}
    (h : hydrateFinalizationResultFromJournal noble sha256 value (some context) = .ok (some hydrated)) :
    ∃ candidate, admitFinalizationResultAuthority value = some candidate ∧
      Stores noble sha256 candidate.journal candidate.artifacts.publicAudit ∧
      hydrated = applyScenarioContext candidate (some context) := by
  obtain ⟨hsome, hnone⟩ := @hydrateFinalizationResultFromJournal_eq noble sha256 U value context
  by_cases hexists : ∃ candidate, admitFinalizationResultAuthority value = some candidate ∧
      Stores noble sha256 candidate.journal candidate.artifacts.publicAudit
  · obtain ⟨candidate, hadmit, hstores⟩ := hexists
    rw [hsome candidate hadmit hstores] at h
    exact ⟨candidate, hadmit, hstores, (Option.some.inj (Except.ok.inj h)).symm⟩
  · rw [hnone fun candidate hadmit hstores => hexists ⟨candidate, hadmit, hstores⟩] at h
    cases Except.ok.inj h

/-! ### The same facts -/

section Contexts

variable {scenario : FinalizeScenarioContext} {result : FinalizationResultAuthority U}

theorem scenarioTamperCountOf_ofNat (ignored recounted : ℕ) :
    scenarioTamperCountOf (.ofNat ignored) (.ofNat recounted) = .ofNat (ignored + recounted) :=
  resolveScenarioTamperCount_ofNat rfl rfl

theorem isNonNegativeInteger_ofNat (n : ℕ) : isNonNegativeInteger (.ofNat n) = true := by
  simp [isNonNegativeInteger]

theorem areCounts_ofNat (counts : Vector ℕ 5) : areCounts (counts.map .ofNat) = true := by
  rw [areCounts, List.all_eq_true]
  intro count hcount
  rw [Vector.toList_map, List.mem_map] at hcount
  obtain ⟨n, -, rfl⟩ := hcount
  exact isNonNegativeInteger_ofNat n

theorem buildTamperSummary_parsed (scenario : FinalizeScenarioContext) :
    ((buildTamperSummary (toFinalizationScenarioContext scenario)).all fun summary =>
      (parseTamperSummary summary).isSome) = true := by
  unfold buildTamperSummary
  split
  · rfl
  · have hids :
      ((scenario.affectedBotIds.map fun ids => ids.map Num.ofNat).all fun ids =>
        ids.all Num.isInteger) = true := by
      cases scenario.affectedBotIds <;> simp
    simp only [Option.all_some, parseTamperSummary, accept, toFinalizationScenarioContext,
      isNonNegativeInteger_ofNat, hids, Bool.and_self, if_true, Option.isSome_some]

/-- The facts of a context pass admission, on a journal that does. -/
theorem applyScenarioContext_admitted (h : FactsAdmitted result.toResultFacts) :
    FactsAdmitted
      (applyScenarioContext result (some (toFinalizationScenarioContext scenario))).toResultFacts := by
  obtain ⟨-, hjournal, hsummary⟩ := factsAdmitted_iff.mp h
  obtain ⟨numbers⟩ := journalNumbers_of_supported hjournal
  refine factsAdmitted_iff.mpr ⟨?_, hjournal, ?_⟩
  · simp only [applyScenarioContext, toFinalizationScenarioContext, parseFinalizationTally, accept,
      numbers.excludedSlots_eq, scenarioTamperCountOf_ofNat, maxNum_ofNat, areCounts_ofNat,
      isNonNegativeInteger_ofNat, Bool.and_self, if_true, Option.isSome_some]
  · have hbuilt := buildTamperSummary_parsed scenario
    simp only [applyScenarioContext]
    cases hbuild : buildTamperSummary (toFinalizationScenarioContext scenario) with
    | none => exact hsummary
    | some summary =>
      rw [hbuild] at hbuilt
      exact hbuilt

/-- A context applied twice is applied once. -/
theorem applyScenarioContext_twice (result : FinalizationResultAuthority U)
    (context : FinalizationScenarioContext) :
    applyScenarioContext (applyScenarioContext result (some context)) (some context) =
      applyScenarioContext result (some context) := by
  simp only [applyScenarioContext]
  cases buildTamperSummary context <;> rfl

/-- STABLE: what was hydrated is hydrated again unchanged. -/
theorem hydrate_again {value hydrated : FinalizationResultAuthority U}
    (h : hydrateFinalizationResultFromJournal noble sha256 value
      (some (toFinalizationScenarioContext scenario)) = .ok (some hydrated)) :
    hydrateFinalizationResultFromJournal noble sha256 hydrated
      (some (toFinalizationScenarioContext scenario)) = .ok (some hydrated) := by
  obtain ⟨candidate, hadmit, hstores, rfl⟩ := hydrated_eq_some h
  obtain ⟨hfacts, heq, hartifacts⟩ := admitFinalizationResultAuthority_iff.mp hadmit
  have hadmitted : admitFinalizationResultAuthority
      (applyScenarioContext candidate (some (toFinalizationScenarioContext scenario))) =
      some (applyScenarioContext candidate (some (toFinalizationScenarioContext scenario))) :=
    admitFinalizationResultAuthority_iff.mpr
      ⟨applyScenarioContext_admitted (heq ▸ hfacts), rfl, stable_artifacts hartifacts⟩
  have hagain := (@hydrateFinalizationResultFromJournal_eq noble sha256 U _
    (toFinalizationScenarioContext scenario)).1 _ hadmitted hstores
  rw [hagain, applyScenarioContext_twice]

/-- The stored context gives the summary that the scenario in memory gives. -/
theorem buildTamperSummary_scenario (h : Coherent scenario) :
    buildTamperSummary (toFinalizationScenarioContext scenario) =
      if scenario.scenarioResult.isSome ∧
      (scenario.summary.ignoredCount > 0 ∨ scenario.summary.recountedCount > 0) then
        some {
          ignoredVotes := .ofNat scenario.summary.ignoredCount
          recountedVotes := .ofNat scenario.summary.recountedCount
          userRecountedTo := scenario.summary.userRecountChoice
          affectedBotIds := scenario.affectedBotIds.map fun ids => ids.map .ofNat }
      else none := by
  unfold buildTamperSummary
  simp only [toFinalizationScenarioContext, Num.ofNat_le, decide_eq_true_eq, Nat.le_zero_eq]
  by_cases hnone : scenario.scenarioResult = none
  · simp [h.untampered hnone]
  · have hsome : scenario.scenarioResult.isSome = true := Option.isSome_iff_ne_none.mpr hnone
    by_cases hzero : scenario.summary.ignoredCount = 0 ∧ scenario.summary.recountedCount = 0
    · simp [hzero]
    · rw [if_neg hzero, if_pos ⟨hsome, by omega⟩]

/-- The context applied to a bare result gives the facts of the synchronous result. -/
theorem applyScenarioContext_facts (h : Coherent scenario) (hsummary : result.tamperSummary = none)
    (receipt : ReceiptWithImageId U) (publicAudit : PublicAudit) (bitmap : Option BitmapEvidence) :
    (applyScenarioContext result (some (toFinalizationScenarioContext scenario))).toResultFacts =
      (syncFinalizationAuthority scenario result.journal result.journal result.imageId
        receipt publicAudit bitmap).toResultFacts := by
  have hscenarios : (toFinalizationScenarioContext scenario).scenarios = scenario.scenarios := h.applied
  simp only [applyScenarioContext, syncFinalizationAuthority, buildSyncFinalizationAuthority,
    prepareSyncEvidence, buildTamperSummary_scenario h, hsummary, hscenarios, Option.or_none]
  rfl

end Contexts

/-! ### Artifacts of a bare result -/

/-- An admitted public input agrees with the same values. -/
structure SameAuthority (authority authority' : PublicInputAuthority) : Prop where
  electionId : authority'.electionId = authority.electionId
  electionConfigHash :
    normalizeHexString authority'.electionConfigHash = normalizeHexString authority.electionConfigHash
  methodVersion : authority'.methodVersion = authority.methodVersion
  bulletinRoot : normalizeHexString authority'.bulletinRoot = normalizeHexString authority.bulletinRoot
  treeSize : authority'.treeSize = authority.treeSize
  totalExpected : authority'.totalExpected = authority.totalExpected
  logId : normalizeHexString authority'.logId = normalizeHexString authority.logId
  timestamp : authority'.timestamp = authority.timestamp
  recomputedInputCommitment :
    normalizeHexString authority'.recomputedInputCommitment =
      normalizeHexString authority.recomputedInputCommitment

theorem admitPublicAudit_eq_some {publicAudit admitted : PublicAudit}
    (h : admitPublicAudit publicAudit = some admitted) :
    admitted.electionManifest = publicAudit.electionManifest ∧
      admitted.closeStatement = publicAudit.closeStatement ∧
      SameAuthority publicAudit.publicInputArtifact.typedAuthority
        admitted.publicInputArtifact.typedAuthority := by
  obtain ⟨artifact, hartifact, h⟩ := Option.bind_eq_some_iff.mp h
  split at h
  · rw [← Option.some.inj h]
    obtain ⟨authority, hauthority, hb⟩ := Option.bind_eq_some_iff.mp hartifact
    rw [← Option.some.inj hb]
    unfold admitStoredPublicInputAuthority at hauthority
    obtain ⟨configHash, hconfig, hauthority⟩ := Option.bind_eq_some_iff.mp hauthority
    obtain ⟨root, hroot, hauthority⟩ := Option.bind_eq_some_iff.mp hauthority
    obtain ⟨logId, hlogId, hauthority⟩ := Option.bind_eq_some_iff.mp hauthority
    obtain ⟨commitment, hcommitment, hauthority⟩ := Option.bind_eq_some_iff.mp hauthority
    split at hauthority
    · rw [← Option.some.inj hauthority]
      exact ⟨rfl, rfl, rfl, normalizeHexString_admitHash hconfig, rfl,
        normalizeHexString_admitHash hroot, rfl, rfl, normalizeHexString_admitHash hlogId, rfl,
        normalizeHexString_admitHash hcommitment⟩
    · cases hauthority
  · cases h

theorem resolveConsistentPublicInputArtifact_local (artifact : SupportedPublicInputArtifact)
    (journal : CurrentZkVMJournal) :
    resolveConsistentPublicInputArtifact (some artifact) journal localPublicInputAuthority =
      admitConsistentArtifact artifact
        (comparePublicInputAuthority artifact.typedAuthority journal) := by
  unfold resolveConsistentPublicInputArtifact
  exact if_neg
    (by simp [hasAuthoritativePublicInputContext, matchesLocalPublicInputContext,
      localPublicInputAuthority, nonEmpty])

/-- Admitted artifacts agree with a journal if and only if the ones that were given do. -/
theorem stores_admitted {publicAudit admitted : PublicAudit}
    (h : admitPublicAudit publicAudit = some admitted) (journal : CurrentZkVMJournal) :
    Stores noble sha256 journal (some admitted) ↔ Stores noble sha256 journal (some publicAudit) := by
  obtain ⟨hmanifest, hclose, hauthority⟩ := admitPublicAudit_eq_some h
  have hcompare : comparePublicInputAuthority admitted.publicInputArtifact.typedAuthority journal =
      comparePublicInputAuthority publicAudit.publicInputArtifact.typedAuthority journal := by
    simp only [comparePublicInputAuthority, matchesHex, hauthority.electionId,
      hauthority.electionConfigHash, hauthority.methodVersion, hauthority.bulletinRoot,
      hauthority.treeSize, hauthority.totalExpected, hauthority.recomputedInputCommitment]
  simp only [Stores, resolveStoredPublicAuditArtifacts, Option.map_some,
    resolveConsistentPublicAuditArtifacts, resolveConsistentPublicInputArtifact_local, hcompare,
    hmanifest, hclose]
  cases comparePublicInputAuthority publicAudit.publicInputArtifact.typedAuthority journal with
  | cons issue issues => simp [admitConsistentArtifact]
  | nil =>
    simp only [admitConsistentArtifact_nil, resolveConsistentElectionManifest,
      resolveConsistentCloseStatement, admitConsistentArtifact_issues, collectManifestIdentityIssues,
      collectManifestHashIssues, matchesHex, Option.all_some, hauthority.electionId,
      hauthority.totalExpected, hauthority.electionConfigHash, hauthority.logId, hauthority.timestamp]

/-! ### Both paths -/

/-- The artifacts of a result pass their schemas, and they are consistent with its journal. -/
def Publishable (noble : NobleUtils) (sha256 : List UInt8 → Bytes 32)
    (result : FinalizationResultAuthority U) : Prop :=
  (result.artifacts.publicAudit.all fun artifacts => (admitPublicAudit artifacts).isSome) = true ∧
  hasConsistentPublicAuditArtifacts noble sha256 result = .ok true

theorem hasConsistentPublicAuditArtifacts_iff {result : FinalizationResultAuthority U}
    (h : isSupportedZkVMJournal result.journal = true) :
    hasConsistentPublicAuditArtifacts noble sha256 result = .ok true ↔
      Stores noble sha256 result.journal result.artifacts.publicAudit := by
  unfold hasConsistentPublicAuditArtifacts
  rw [if_neg (not_not.mpr h), toPublicZkvmJournal_supported h, ok_bind]
  cases haudit : result.artifacts.publicAudit with
  | none =>
    refine ⟨fun hfalse => ?_, fun hstores => absurd hstores not_stores_none⟩
    cases Except.ok.inj hfalse
  | some publicAudit =>
    constructor
    · intro htrue
      have hboth := Except.ok.inj htrue
      rw [Bool.and_eq_true, decide_eq_true_eq] at hboth
      exact List.length_eq_zero_iff.mp hboth.1
    · intro hstores
      dsimp only
      rw [hstores.available, show _ = [] from hstores]
      rfl

section Paths

variable {scenario : FinalizeScenarioContext} {journal : CurrentZkVMJournal}

/-- The facts of a supported journal pass admission. -/
theorem baseResult_admitted (h : isSupportedZkVMJournal journal = true) (imageId : JsString)
    (publicAudit : Option PublicAudit) :
    FactsAdmitted
      (baseResult journal imageId publicAudit : FinalizationResultAuthority U).toResultFacts := by
  obtain ⟨numbers⟩ := journalNumbers_of_supported h
  have hcounts : buildCountsRecord journal.verifiedTally = numbers.verifiedTally.map .ofNat := by
    rw [numbers.verifiedTally_eq, buildCountsRecord, Vector.map_map]
    rfl
  refine factsAdmitted_iff.mpr ⟨?_, h, rfl⟩
  simp only [baseResult, parseFinalizationTally, accept, hcounts, numbers.totalExpected_eq,
    numbers.excludedSlots_eq, areCounts_ofNat, isNonNegativeInteger_ofNat, Bool.and_self, if_true,
    Option.isSome_some]

/-- A bare result is admitted with its artifacts cleaned up. -/
theorem admit_baseResult (h : isSupportedZkVMJournal journal = true) (imageId : JsString)
    (publicAudit : Option PublicAudit) {candidate : FinalizationResultAuthority U} :
    admitFinalizationResultAuthority (baseResult journal imageId publicAudit) = some candidate ↔
      ∃ admitted, ifPresent admitPublicAudit publicAudit = some admitted ∧
        candidate = baseResult journal imageId admitted := by
  rw [admitFinalizationResultAuthority_iff]
  constructor
  · rintro ⟨-, heq, hreceipt, hpublication, haudit, hbitmap⟩
    obtain ⟨facts, ⟨admitted, receipt, publication, bitmap⟩⟩ := candidate
    obtain rfl : none = receipt := Option.some.inj hreceipt
    obtain rfl : none = publication := Option.some.inj hpublication
    obtain rfl : none = bitmap := Option.some.inj hbitmap
    exact ⟨admitted, haudit, congrArg
      (FinalizationResultAuthority.mk · ⟨admitted, none, none, none⟩) heq⟩
  · rintro ⟨admitted, hadmitted, rfl⟩
    exact ⟨baseResult_admitted h imageId publicAudit, rfl, rfl, rfl, hadmitted, rfl⟩

/-- A bare result is published if and only if its artifacts are there, pass their schemas and agree with
    the journal. -/
theorem publishable_baseResult (h : isSupportedZkVMJournal journal = true) (imageId : JsString)
    (publicAudit : Option PublicAudit) :
    Publishable noble sha256 (baseResult journal imageId publicAudit : FinalizationResultAuthority U) ↔
      ∃ admitted, ifPresent admitPublicAudit publicAudit = some admitted ∧
      Stores noble sha256 journal admitted := by
  have hconsistent : hasConsistentPublicAuditArtifacts noble sha256
      (baseResult journal imageId publicAudit : FinalizationResultAuthority U) = .ok true ↔
        Stores noble sha256 journal publicAudit := hasConsistentPublicAuditArtifacts_iff h
  rw [Publishable, hconsistent]
  simp only [baseResult]
  cases publicAudit with
  | none =>
    constructor
    · rintro ⟨-, hstores⟩
      exact ⟨none, rfl, hstores⟩
    · rintro ⟨admitted, hadmitted, hstores⟩
      obtain rfl : none = admitted := Option.some.inj hadmitted
      exact ⟨rfl, hstores⟩
  | some artifacts =>
    constructor
    · rintro ⟨hschema, hstores⟩
      obtain ⟨admitted, hadmitted⟩ := Option.isSome_iff_exists.mp hschema
      exact ⟨some admitted, congrArg (Option.map some) hadmitted,
        (stores_admitted hadmitted journal).mpr hstores⟩
    · rintro ⟨_, hsome, hstores⟩
      obtain ⟨admitted, hadmitted, rfl⟩ := Option.map_eq_some_iff.mp hsome
      exact ⟨Option.isSome_iff_exists.mpr ⟨admitted, hadmitted⟩,
        (stores_admitted hadmitted journal).mp hstores⟩

theorem publishable_of_stores (h : isSupportedZkVMJournal journal = true) (imageId : JsString)
    {artifacts : PublicAudit} (hschema : (admitPublicAudit artifacts).isSome = true)
    (hstores : Stores noble sha256 journal (some artifacts)) :
    Publishable noble sha256
      (baseResult journal imageId (some artifacts) : FinalizationResultAuthority U) := by
  obtain ⟨admitted, hadmitted⟩ := Option.isSome_iff_exists.mp hschema
  exact (publishable_baseResult h imageId _).mpr
    ⟨some admitted, congrArg (Option.map some) hadmitted,
      (stores_admitted hadmitted journal).mpr hstores⟩

/-- REFINEMENT: a bare result with consistent artifacts is hydrated to the facts of the synchronous
    result, any other is not hydrated at all, and hydration is stable. -/
theorem sync_and_hydrated_facts_agree (hproduced : Produced scenario)
    (hsupported : isSupportedZkVMJournal journal = true) (imageId : JsString)
    (publicAuditArtifacts : Option PublicAudit) (receipt : ReceiptWithImageId U)
    (publicAudit : PublicAudit) (bitmap : Option BitmapEvidence) :
    ∃ built : FinalizationResultAuthority U,
      buildFinalizationResultFromJournal journal (some imageId) none publicAuditArtifacts = .ok built ∧
      (Publishable noble sha256 built → ∃ publicJournal hydrated,
        admitCurrentExecutionJournal journal = some publicJournal ∧
        hydrateFinalizationResultFromJournal noble sha256 built
          (some (toFinalizationScenarioContext scenario)) = .ok (some hydrated) ∧
        hydrated.toResultFacts =
          (syncFinalizationAuthority scenario journal publicJournal imageId receipt publicAudit
            bitmap).toResultFacts) ∧
      (¬ Publishable noble sha256 built →
        hydrateFinalizationResultFromJournal noble sha256 built
          (some (toFinalizationScenarioContext scenario)) = .ok none) ∧
      ∀ value hydrated : FinalizationResultAuthority U,
        hydrateFinalizationResultFromJournal noble sha256 value
          (some (toFinalizationScenarioContext scenario)) = .ok (some hydrated) →
        hydrateFinalizationResultFromJournal noble sha256 hydrated
          (some (toFinalizationScenarioContext scenario)) = .ok (some hydrated) := by
  refine ⟨baseResult journal imageId publicAuditArtifacts,
    buildFinalizationResultFromJournal_supported hsupported _ _ _, ?_, ?_, fun _ _ => hydrate_again⟩
  · rw [publishable_baseResult hsupported]
    rintro ⟨admitted, hadmitted, hstores⟩
    have hadmit :=
      (admit_baseResult (U := U) hsupported imageId publicAuditArtifacts).mpr ⟨admitted, hadmitted, rfl⟩
    exact ⟨journal, _, admitCurrentExecutionJournal_supported hsupported,
      (hydrateFinalizationResultFromJournal_eq _ _).1 _ hadmit hstores,
      applyScenarioContext_facts hproduced.coherent rfl receipt publicAudit bitmap⟩
  · rw [publishable_baseResult hsupported]
    intro hnot
    refine (hydrateFinalizationResultFromJournal_eq _ _).2 fun candidate hadmit hstores => hnot ?_
    obtain ⟨admitted, hadmitted, rfl⟩ := (admit_baseResult hsupported _ _).mp hadmit
    exact ⟨admitted, hadmitted, hstores⟩

end Paths

/-! ### A journal with and without its artifacts -/

def sampleStoredVote (vote : VoteChoice) : StoredVoteRecord where
  voteId := js "id"
  timestamp := .ofNat 1
  vote := vote
  rand := js "0x"
  commit := js "0x"
  rootAtCast := js "0x"

/-- The user's vote was left out. -/
def sampleScenario : FinalizeScenarioContext where
  scenarios := [js "S1"]
  scenariosApplied := [js "S1"]
  tamperMode := .input
  claimedCounts := getTallyCounts [(1, sampleStoredVote .d)]
  claimedTotalVotes := 1
  summary := ⟨1, 0, none⟩
  scenarioResult := some ⟨1, [⟨js "S1", 0, .ignored, some .a, none⟩]⟩
  affectedBotIds := none

theorem sampleScenario_produced : Produced sampleScenario :=
  ⟨0, 0, js "S1", ⟨fun _ => 0, [[(0, sampleStoredVote .a), (1, sampleStoredVote .d)]]⟩,
    ⟨fun _ => 0, [[(0, sampleStoredVote .a), (1, sampleStoredVote .d)], [(1, sampleStoredVote .d)]]⟩,
    ⟨1, sampleScenario.scenarioResult, [js "S1"], ⟨1, 0, none⟩, sampleScenario.claimedCounts, 1,
      .input⟩, rfl⟩

def samplePublicAudit : PublicAudit where
  publicInputArtifact := ⟨⟨.generated, none, none⟩, snapshotPublicInput.toPublicInputAuthority⟩
  electionManifest := snapshotManifest
  closeStatement := snapshotCloseStatement

def sampleReceipt : ReceiptWithImageId Unit := ⟨js "seal", .text (js "journal"), none, none⟩

theorem snapshotJournal_supported :
    isSupportedZkVMJournal (snapshotJournal 1) = true := by decide +kernel

theorem samplePublicAudit_publishable : Publishable .reference Sha256.digest
    (baseResult (snapshotJournal 1) (js "image") (some samplePublicAudit) :
      FinalizationResultAuthority Unit) := by
  have hschema : (admitPublicAudit samplePublicAudit).isSome = true := by decide +kernel
  have hstores : Stores .reference Sha256.digest (snapshotJournal 1) (some samplePublicAudit) := by
    unfold Stores
    decide +kernel
  exact publishable_of_stores snapshotJournal_supported (js "image") hschema hstores

theorem sync_and_hydrated_facts_agree_on_sample : ∃ built hydrated : FinalizationResultAuthority Unit,
    buildFinalizationResultFromJournal (snapshotJournal 1)
      (some (js "image")) none (some samplePublicAudit) = .ok built ∧
    hydrateFinalizationResultFromJournal .reference Sha256.digest built
      (some (toFinalizationScenarioContext sampleScenario)) = .ok (some hydrated) ∧
    hydrated.toResultFacts =
      (syncFinalizationAuthority sampleScenario (snapshotJournal 1) (snapshotJournal 1)
      (js "image") sampleReceipt samplePublicAudit none).toResultFacts := by
  obtain ⟨built, hbuilt, hpublished, -⟩ :=
    @sync_and_hydrated_facts_agree .reference Sha256.digest Unit sampleScenario
    (snapshotJournal 1) sampleScenario_produced snapshotJournal_supported (js "image")
      (some samplePublicAudit) sampleReceipt samplePublicAudit none
  have hbase :=
    buildFinalizationResultFromJournal_supported (U := Unit) snapshotJournal_supported
      (some (js "image")) none
    (some samplePublicAudit)
  obtain rfl := Except.ok.inj (hbuilt.symm.trans hbase)
  obtain ⟨publicJournal, hydrated, hadmit, hhydrated, hfacts⟩ := hpublished samplePublicAudit_publishable
  rw [admitCurrentExecutionJournal_supported snapshotJournal_supported] at hadmit
  obtain rfl := Option.some.inj hadmit
  exact ⟨_, hydrated, hbuilt, hhydrated, hfacts⟩

/-- Built from the journal alone, the result is not hydrated: the public input
    has to be stored with it. -/
theorem bare_result_is_not_hydrated :
    Produced sampleScenario ∧ isSupportedZkVMJournal (snapshotJournal 1) = true ∧
    ∃ built : FinalizationResultAuthority Unit,
      buildFinalizationResultFromJournal (snapshotJournal 1) (some (js "image")) none none = .ok built ∧
      hydrateFinalizationResultFromJournal .reference Sha256.digest built
        (some (toFinalizationScenarioContext sampleScenario)) = .ok none := by
  refine ⟨sampleScenario_produced, snapshotJournal_supported, _,
    buildFinalizationResultFromJournal_supported snapshotJournal_supported _ _ _, ?_⟩
  refine (hydrateFinalizationResultFromJournal_eq _ _).2 fun candidate hadmit hstores => ?_
  obtain ⟨admitted, hadmitted, rfl⟩ := (admit_baseResult snapshotJournal_supported _ _).mp hadmit
  obtain rfl : none = admitted := Option.some.inj hadmitted
  exact not_stores_none hstores

end StarkBallot.Application
