import StarkBallot.Application.FinalizationResult
import StarkBallot.Application.FinalizeAsync

/-! Updates that report a success (`application/src/finalize/finalization-state-update.ts`). The payload
    brings a whole result with it, and what is stored is hydrated from its journal and from the context
    that was stored when the finalization was queued. Of the payload's own copies the context replaces
    all that it has a value for.

        payload   journal ───────────────┐
                  tally, scenarios ──✗   ├─▶ stored result
                  tamper summary ────?   │
        record    context ───────────────┘

    A context without tampering has no summary to put in the place of the payload's. -/

namespace StarkBallot.Application
open Schemes ContractCore CryptoPrimitives ZkvmContract Domain Verification

variable {noble : NobleUtils} {sha256 : List UInt8 → Bytes 32} {U : Type}

/-! ### The update -/

structure SucceededUpdatePayload (U : Type) where
  sessionId : JsString
  finalizationId : JsString
  queuedAtMs : Num
  startedAtMs : Num
  completedAtMs : Num
  finalizationResult : FinalizationResultAuthority U

structure FinalizationSucceededPayload (U : Type) where
  finalizationId : JsString
  queuedAtMs : Num
  startedAtMs : Num
  completedAtMs : Num
  finalizationResult : FinalizationResultAuthority U
  reason : Option FinalizationEventReason

/-- What the store is asked for: to record a failure or a success. -/
inductive SucceededUpdate (U : Type) where
  | markFinalizationFailed (payload : FinalizationFailedPayload U)
  | markFinalizationSucceeded (payload : FinalizationSucceededPayload U)

def invalidResultError : FinalizationError U where
  code := js "FINALIZATION_RESULT_INVALID"
  message := js "Canonical finalization result is missing proof-bound journal data"
  category := some (some .artifact)
  details := none

variable (noble sha256) in
def applySucceededFinalizationUpdate (payload : SucceededUpdatePayload U)
    (currentRecord : Option (FinalizationRecord U)) : JsM (SucceededUpdate U) := do
  match currentRecord.filter fun record => record.finalizationId = payload.finalizationId with
  | none => .error (.error "Finalization record unavailable")
  | some currentRecord =>
    match ← hydrateFinalizationResultFromJournal noble sha256 payload.finalizationResult
        (some currentRecord.scenarioContext) with
    | none => return .markFinalizationFailed {
        finalizationId := payload.finalizationId
        queuedAtMs := payload.queuedAtMs
        startedAtMs := some payload.startedAtMs
        failedAtMs := payload.completedAtMs
        scenarioContext := none
        error := invalidResultError
        reason := some .finalizationResultInvalid }
    | some hydratedResult => return .markFinalizationSucceeded {
        finalizationId := payload.finalizationId
        queuedAtMs := payload.queuedAtMs
        startedAtMs := payload.startedAtMs
        completedAtMs := payload.completedAtMs
        finalizationResult := hydratedResult
        reason := some .runtimeUpdateReceived }

/-! ### What the payload decides -/

/-- Two payload results with one journal, one image id and the same artifacts. -/
structure SameEvidence (result result' : FinalizationResultAuthority U) : Prop where
  journal_eq : result'.journal = result.journal
  imageId_eq : result'.imageId = result.imageId
  artifacts_eq : result'.artifacts = result.artifacts

/-- The facts that the context has a value for in any case. -/
structure SameFacts (hydrated hydrated' : FinalizationResultAuthority U) : Prop where
  tally_eq : hydrated'.tally = hydrated.tally
  tamperDetected_eq : hydrated'.tamperDetected = hydrated.tamperDetected
  scenarios_eq : hydrated'.scenarios = hydrated.scenarios

/-- The context has a summary of its own. -/
def ShowsTampering (context : FinalizationScenarioContext) : Prop :=
  ¬ (context.ignoredCount.le (.ofNat 0) = true ∧ context.recountedCount.le (.ofNat 0) = true)

section Hydrated

variable {result result' hydrated hydrated' : FinalizationResultAuthority U}
    {context : FinalizationScenarioContext}

theorem ext_authority (hfacts : hydrated.toResultFacts = hydrated'.toResultFacts)
    (hartifacts : hydrated.artifacts = hydrated'.artifacts) : hydrated = hydrated' := by
  cases hydrated
  cases hydrated'
  obtain rfl := hfacts
  obtain rfl := hartifacts
  rfl

theorem buildTamperSummary_of_shows (h : ShowsTampering context) :
    ∃ summary, buildTamperSummary context = some summary :=
  ⟨_, if_neg h⟩

theorem buildTamperSummary_of_not_shows (h : ¬ ShowsTampering context) :
    buildTamperSummary context = none :=
  if_pos (not_not.mp h)

/-- Admission is a function of each part, so the same artifacts are admitted as the same. -/
theorem ArtifactsAdmitted.unique {artifacts admitted admitted' : FinalizationArtifactAvailability U}
    (h : ArtifactsAdmitted artifacts admitted) (h' : ArtifactsAdmitted artifacts admitted') :
    admitted = admitted' := by
  obtain ⟨hreceipt, hpublication, haudit, hbitmap⟩ := h
  obtain ⟨hreceipt', hpublication', haudit', hbitmap'⟩ := h'
  cases admitted
  cases admitted'
  obtain rfl := Option.some.inj (hreceipt.symm.trans hreceipt')
  obtain rfl := Option.some.inj (hpublication.symm.trans hpublication')
  obtain rfl := Option.some.inj (haudit.symm.trans haudit')
  obtain rfl := Option.some.inj (hbitmap.symm.trans hbitmap')
  rfl

/-- A hydrated result, part by part. -/
structure HydratedFrom (noble : NobleUtils) (sha256 : List UInt8 → Bytes 32)
    (context : FinalizationScenarioContext) (result hydrated : FinalizationResultAuthority U) :
    Prop where
  facts_eq : hydrated.toResultFacts = (applyScenarioContext result (some context)).toResultFacts
  artifacts : ArtifactsAdmitted result.artifacts hydrated.artifacts

theorem hydratedFrom (h : hydrateFinalizationResultFromJournal noble sha256 result (some context) =
    .ok (some hydrated)) : HydratedFrom noble sha256 context result hydrated := by
  obtain ⟨candidate, hadmit, -, rfl⟩ := hydrated_eq_some h
  obtain ⟨-, heq, hartifacts⟩ := admitFinalizationResultAuthority_iff.mp hadmit
  refine ⟨?_, hartifacts⟩
  obtain ⟨facts, artifacts⟩ := candidate
  obtain ⟨facts', artifacts'⟩ := result
  obtain rfl : facts = facts' := heq
  rfl

theorem SameEvidence.facts (hsame : SameEvidence result result')
    (h : HydratedFrom noble sha256 context result hydrated)
    (h' : HydratedFrom noble sha256 context result' hydrated') : SameFacts hydrated hydrated' := by
  refine ⟨?_, ?_, ?_⟩
  · calc hydrated'.tally = (applyScenarioContext result' (some context)).tally :=
      congrArg ResultFacts.tally h'.facts_eq
      _ = (applyScenarioContext result (some context)).tally := by
        simp only [applyScenarioContext, hsame.journal_eq]
      _ = hydrated.tally := (congrArg ResultFacts.tally h.facts_eq).symm
  · calc hydrated'.tamperDetected = (applyScenarioContext result' (some context)).tamperDetected :=
          congrArg ResultFacts.tamperDetected h'.facts_eq
      _ = (applyScenarioContext result (some context)).tamperDetected := by
          simp only [applyScenarioContext, hsame.journal_eq]
      _ = hydrated.tamperDetected := (congrArg ResultFacts.tamperDetected h.facts_eq).symm
  · exact (congrArg ResultFacts.scenarios h'.facts_eq).trans
      (congrArg ResultFacts.scenarios h.facts_eq).symm

/-- The summary is the context's, or else the payload's. -/
theorem HydratedFrom.tamperSummary_eq (h : HydratedFrom noble sha256 context result hydrated) :
    hydrated.tamperSummary = (buildTamperSummary context).or result.tamperSummary :=
  congrArg ResultFacts.tamperSummary h.facts_eq

/-- Everything but the summary is the same. -/
theorem SameEvidence.hydrated_eq (hsame : SameEvidence result result')
    (h : HydratedFrom noble sha256 context result hydrated)
    (h' : HydratedFrom noble sha256 context result' hydrated')
    (hsummary : hydrated'.tamperSummary = hydrated.tamperSummary) : hydrated = hydrated' := by
  obtain ⟨htally, hdetected, hscenarios⟩ := hsame.facts h h'
  have himage : hydrated'.imageId = hydrated.imageId :=
    (congrArg ResultFacts.imageId h'.facts_eq).trans
      (hsame.imageId_eq.trans (congrArg ResultFacts.imageId h.facts_eq).symm)
  have hjournal : hydrated'.journal = hydrated.journal :=
    (congrArg ResultFacts.journal h'.facts_eq).trans
      (hsame.journal_eq.trans (congrArg ResultFacts.journal h.facts_eq).symm)
  refine ext_authority ?_ (h.artifacts.unique (hsame.artifacts_eq ▸ h'.artifacts))
  obtain ⟨⟨tally, imageId, journal, tamperDetected, scenarios, tamperSummary⟩, artifacts⟩ := hydrated
  obtain ⟨facts', artifacts'⟩ := hydrated'
  cases facts'
  cases htally
  cases hdetected
  cases hscenarios
  cases himage
  cases hjournal
  cases hsummary
  rfl

/-- PAYLOAD: two success updates with the same evidence are stored with the same tally, verdict and
    scenarios; they are stored as the same result exactly if the context shows tampering or their
    summaries are the same. -/
theorem success_updates_agree_iff (hsame : SameEvidence result result')
    (h : hydrateFinalizationResultFromJournal noble sha256 result (some context) = .ok (some hydrated))
    (h' : hydrateFinalizationResultFromJournal noble sha256 result' (some context) =
      .ok (some hydrated')) :
    SameFacts hydrated hydrated' ∧
      (hydrated = hydrated' ↔ ShowsTampering context ∨
        result.tamperSummary = result'.tamperSummary) := by
  have hfrom := hydratedFrom h
  have hfrom' := hydratedFrom h'
  refine ⟨hsame.facts hfrom hfrom', ?_, ?_⟩
  · rintro rfl
    by_cases hshows : ShowsTampering context
    · exact .inl hshows
    · right
      have hsummary := hfrom.tamperSummary_eq.symm.trans hfrom'.tamperSummary_eq
      rwa [buildTamperSummary_of_not_shows hshows, Option.none_or, Option.none_or] at hsummary
  · rintro (hshows | hsummary)
    · obtain ⟨summary, hsummary⟩ := buildTamperSummary_of_shows hshows
      refine hsame.hydrated_eq hfrom hfrom' ?_
      rw [hfrom.tamperSummary_eq, hfrom'.tamperSummary_eq, hsummary, Option.some_or, Option.some_or]
    · refine hsame.hydrated_eq hfrom hfrom' ?_
      rw [hfrom.tamperSummary_eq, hfrom'.tamperSummary_eq, hsummary]

/-- STORED: a success is stored as it is hydrated from the context of the finalization. -/
theorem succeeded_update_stores {payload : SucceededUpdatePayload U}
    {currentRecord : Option (FinalizationRecord U)} {stored : FinalizationSucceededPayload U}
    (h : applySucceededFinalizationUpdate noble sha256 payload currentRecord =
      .ok (.markFinalizationSucceeded stored)) :
    ∃ record, currentRecord = some record ∧ record.finalizationId = payload.finalizationId ∧
      stored.finalizationId = payload.finalizationId ∧
      hydrateFinalizationResultFromJournal noble sha256 payload.finalizationResult
        (some record.scenarioContext) = .ok (some stored.finalizationResult) := by
  unfold applySucceededFinalizationUpdate at h
  split at h
  · cases h
  · rename_i record hrecord
    obtain ⟨hcurrent, hid⟩ := Option.filter_eq_some_iff.mp hrecord
    obtain ⟨hydrated, hhydrated, h⟩ := bind_eq_ok.mp h
    cases hydrated with
    | none => cases Except.ok.inj h
    | some hydrated =>
      cases Except.ok.inj h
      exact ⟨record, hcurrent, of_decide_eq_true hid, rfl, hhydrated⟩

end Hydrated

/-! ### A summary of the payload's own -/

/-- A context in which nothing was left out or recounted. -/
def untamperedContext : FinalizationScenarioContext where
  scenarios := [js "S0"]
  tamperMode := .none
  claimedCounts := getTallyCounts [(1, sampleStoredVote .d)] |>.map .ofNat
  claimedTotalVotes := .ofNat 1
  ignoredCount := .ofNat 0
  recountedCount := .ofNat 0
  userRecountChoice := none
  affectedBotIds := none

def forgedSummary : FinalizationTamperSummary where
  ignoredVotes := .ofNat 7
  recountedVotes := .ofNat 0
  userRecountedTo := none
  affectedBotIds := none

/-- A payload result with a summary of its own. -/
def withSummary (tamperSummary : Option FinalizationTamperSummary) : FinalizationResultAuthority Unit :=
  { baseResult (snapshotJournal 1) (js "image") (some samplePublicAudit) with
    tamperSummary := tamperSummary }

theorem withSummary_hydrated {tamperSummary : Option FinalizationTamperSummary}
    (hsummary : (tamperSummary.all fun summary => (parseTamperSummary summary).isSome) = true)
    (context : FinalizationScenarioContext) :
    ∃ hydrated, hydrateFinalizationResultFromJournal .reference Sha256.digest (withSummary tamperSummary)
      (some context) = .ok (some hydrated) := by
  obtain ⟨admitted, hadmitted, hstores⟩ := (publishable_baseResult snapshotJournal_supported _ _).mp
    samplePublicAudit_publishable
  have hadmit :=
    (@admit_baseResult Unit _ snapshotJournal_supported (js "image") (some samplePublicAudit)).mpr
    ⟨admitted, hadmitted, rfl⟩
  obtain ⟨hfacts, -, hartifacts⟩ := admitFinalizationResultAuthority_iff.mp hadmit
  obtain ⟨htally, hjournal, -⟩ := factsAdmitted_iff.mp hfacts
  have hwith : FactsAdmitted (withSummary tamperSummary).toResultFacts :=
    factsAdmitted_iff.mpr ⟨htally, hjournal, hsummary⟩
  have hcandidate : admitFinalizationResultAuthority (withSummary tamperSummary) = some
      { baseResult (snapshotJournal 1) (js "image") admitted with tamperSummary := tamperSummary } :=
    admitFinalizationResultAuthority_iff.mpr ⟨hwith, rfl, hartifacts⟩
  exact ⟨_, (hydrateFinalizationResultFromJournal_eq _ _).1 _ hcandidate hstores⟩

theorem withSummary_sameEvidence (tamperSummary tamperSummary' : Option FinalizationTamperSummary) :
    SameEvidence (withSummary tamperSummary) (withSummary tamperSummary') := ⟨rfl, rfl, rfl⟩

theorem success_updates_agree_on_sample : ∃ hydrated hydrated',
    hydrateFinalizationResultFromJournal .reference Sha256.digest (withSummary none)
      (some (toFinalizationScenarioContext sampleScenario)) = .ok (some hydrated) ∧
    hydrateFinalizationResultFromJournal .reference Sha256.digest (withSummary (some forgedSummary))
      (some (toFinalizationScenarioContext sampleScenario)) = .ok (some hydrated') ∧
      hydrated = hydrated' := by
  obtain ⟨hydrated, h⟩ := @withSummary_hydrated none rfl (toFinalizationScenarioContext sampleScenario)
  obtain ⟨hydrated', h'⟩ := @withSummary_hydrated (some forgedSummary) (by decide)
    (toFinalizationScenarioContext sampleScenario)
  have hshows : ShowsTampering (toFinalizationScenarioContext sampleScenario) := by
    unfold ShowsTampering
    decide
  exact ⟨hydrated, hydrated', h, h',
    (success_updates_agree_iff (withSummary_sameEvidence _ _) h h').2.mpr (.inl hshows)⟩

/-- Where nothing was tampered with, the payload's summary is stored. -/
theorem payload_summary_is_stored :
    ¬ ∀ (result result' : FinalizationResultAuthority Unit) (context : FinalizationScenarioContext)
        (hydrated hydrated' : FinalizationResultAuthority Unit), SameEvidence result result' →
      hydrateFinalizationResultFromJournal .reference Sha256.digest result (some context) = .ok
        (some hydrated) →
      hydrateFinalizationResultFromJournal .reference Sha256.digest result' (some context) = .ok
        (some hydrated') →
      hydrated = hydrated' := by
  intro hall
  obtain ⟨hydrated, h⟩ := @withSummary_hydrated none rfl untamperedContext
  obtain ⟨hydrated', h'⟩ := @withSummary_hydrated (some forgedSummary) (by decide) untamperedContext
  have hsummary := (hydratedFrom h).tamperSummary_eq
  have hsummary' := (hydratedFrom h').tamperSummary_eq
  rw [hall _ _ _ _ _ (withSummary_sameEvidence _ _) h h', hsummary'] at hsummary
  cases hsummary

end StarkBallot.Application
