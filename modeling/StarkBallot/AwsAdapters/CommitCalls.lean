import StarkBallot.AwsAdapters.SessionCalls
import StarkBallot.AwsAdapters.SuccessfulCommits

/-! What a successful commit knows when it writes. Whatever invariant the tables keep, it issues no
    transaction but its own, once in every round; that one was built from what the round has read
    (`CommitBuilt`): no success was found, no receipt, and the session's expiry is no shorter than what
    was read of it. -/

namespace StarkBallot.AwsAdapters.Dynamo
open Schemes ContractCore Domain Application

variable {U ι : Type} (config : StoreConfig)

/-- How the transaction of a round comes about. -/
structure CommitBuilt (admitted : AdmittedCommit U) (readings : CommitReadings U)
    (outcome : SuccessfulFinalizationCommitResult U) (plan : ArtifactTtlPlan)
    (items : List (TransactItem (Item U))) :
    Prop where
  outcome_eq : outcomeOf config admitted readings = .ok outcome
  unfinished : isSucceeded readings.authority.current = none
  unreceipted : readings.receipt.existingReceipt = none
  planned : plan.authority.expiresAt ≤ plan.expiresAt
  built : buildSuccessfulFinalizationTransaction (commitWrite admitted readings outcome)
    (storageOf admitted.requested.sessionId plan) = .ok items

section Safe

variable [DecidableEq ι] {guard : Guard ι U} {issued : Issued ι U} {inv : SharedTable ι U → Prop}
  {s : SharedTable ι U} {c : ι} (h : Keeps guard issued inv)

/-! ### Reading -/

section Reading

include h

theorem safe_loadSuccessfulCommitAuthority (requested : SuccessfulFinalizationRecord U) :
    CallSafe guard inv c (fun _ _ => True) (loadSuccessfulCommitAuthority requested) s := by
  refine safe_seq (safe_lift (safe_loadFinalizationLifecycle h requested.sessionId)) ?_
  intro result s₁ _
  cases result with
  | loaded lifecycle =>
    dsimp only
    split
    · exact safe_throw
    · have hadmission : CallSafe guard inv c (fun _ _ => True)
          (liftJs (assertSuccessfulFinalizationLifecycleAdmission requested lifecycle.currentRecord))
          s₁ :=
        safe_liftJs fun _ _ => trivial
      exact safe_seq hadmission fun _ _ _ => safe_pure trivial
  | missing => exact safe_throw
  | invalidRecord => exact safe_throw
  | persistenceFailure => exact safe_throw

theorem safe_loadReceiptCounter : CallSafe guard inv c (fun _ _ => True) loadReceiptCounter s := by
  refine safe_seq (safe_getSessionItem h .receiptCounter) ?_
  rintro (_ | raw) s₁ -
  · exact safe_pure trivial
  · dsimp only
    split
    · exact safe_pure trivial
    · exact safe_throw

/-- A receipt that was found was present. -/
theorem safe_loadSuccessfulCommitReceipt (requested : SuccessfulFinalizationRecord U)
    (receipt : Option SuccessfulFinalizationReceipt) :
    CallSafe guard inv c (fun found _ => found.receiptPresent = false → found.existingReceipt = none)
      (loadSuccessfulCommitReceipt config requested receipt) s := by
  refine safe_seq (safe_readItem h (.receipt requested.sessionId requested.finalizationId)) ?_
  rintro presence s₁ -
  refine safe_seq safe_admitActive ?_
  rintro existing s₂ ⟨-, hexisting⟩
  have habsent : isPresent presence = false → existing = none := by
    intro hpresent
    cases existing with
    | none => rfl
    | some parsed =>
      obtain ⟨item, rfl, -⟩ := hexisting parsed rfl
      cases hpresent
  cases receipt with
  | none => exact safe_pure habsent
  | some receipt =>
    refine safe_seq (safe_loadReceiptCounter h) ?_
    intro counter s₃ _
    split
    · exact safe_throw
    · exact safe_pure habsent

theorem safe_loadSuccessfulCommitMetadata (requested : SuccessfulFinalizationRecord U)
    (runtimePatch : Option AwsFinalizationRuntimeMetadata) :
    CallSafe guard inv c (fun _ _ => True) (loadSuccessfulCommitMetadata requested runtimePatch) s := by
  cases runtimePatch with
  | none => exact safe_pure trivial
  | some runtimePatch =>
    refine safe_seq (safe_readActive h _ _ _) ?_
    rintro existingRuntime s₁ -
    unfold loadSuccessfulCommitDelivery
    split
    · exact safe_pure trivial
    · exact safe_seq (safe_readActive h _ _ _) fun _ _ _ => safe_pure trivial

theorem safe_readArtifacts (sessionId finalizationId : JsString) (verificationFirst : Bool) :
    CallSafe guard inv c (fun _ _ => True)
      (readArtifacts sessionId finalizationId verificationFirst) s := by
  unfold readArtifacts
  split
  · refine safe_seq (safe_readItem h (.verification sessionId finalizationId)) ?_
    intro verification s₁ _
    exact safe_seq (safe_readItem h (.bitmap sessionId finalizationId)) fun _ _ _ => safe_pure trivial
  · refine safe_seq (safe_readItem h (.bitmap sessionId finalizationId)) ?_
    intro bitmap s₁ _
    exact safe_seq (safe_readItem h (.verification sessionId finalizationId)) fun _ _ _ =>
      safe_pure trivial

theorem safe_loadSuccessfulCommitArtifacts (requested : SuccessfulFinalizationRecord U)
    (verificationFirst : Bool) :
    CallSafe guard inv c (fun _ _ => True)
      (loadSuccessfulCommitArtifacts requested verificationFirst) s := by
  refine safe_seq (safe_readArtifacts h _ _ verificationFirst) ?_
  rintro ⟨bitmap, verification⟩ s₁ -
  refine safe_seq (safe_weaken (fun _ _ _ => trivial) safe_admitActive) ?_
  intro existingBitmap s₂ _
  refine safe_seq (safe_weaken (fun _ _ _ => trivial) safe_admitActive) ?_
  intro existingVerification s₃ _
  exact safe_pure trivial

theorem safe_loadCommitReadings (admitted : AdmittedCommit U) (verificationFirst : Bool) :
    CallSafe guard inv c
      (fun readings _ => readings.receipt.receiptPresent = false →
        readings.receipt.existingReceipt = none)
      (loadCommitReadings config admitted verificationFirst) s := by
  refine safe_seq (safe_loadSuccessfulCommitAuthority h admitted.requested) ?_
  intro authority s₁ _
  refine safe_seq
    (safe_loadSuccessfulCommitReceipt config h admitted.requested admitted.evidence.receipt) ?_
  intro receipt s₂ hreceipt
  refine safe_seq (safe_loadSuccessfulCommitMetadata h admitted.requested admitted.runtimePatch) ?_
  intro metadata s₃ _
  refine safe_seq (safe_loadSuccessfulCommitArtifacts h admitted.requested verificationFirst) ?_
  intro artifacts s₄ _
  exact safe_pure hreceipt

end Reading

/-! ### Writing -/

section Writing

variable {config} {input : SuccessfulFinalizationCommitInput U}
  (hissued : ∀ admitted readings outcome plan items s, admitCommit config input = .ok admitted →
    CommitBuilt config admitted readings outcome plan items →
    AuthorityRead admitted.requested.sessionId plan.authority s → issued c .commit items s)
include h hissued

/-- A round that found no success. -/
theorem safe_writeSuccessfulCommit {admitted : AdmittedCommit U} {readings : CommitReadings U}
    {outcome : SuccessfulFinalizationCommitResult U}
    (hadmitted : admitCommit config input = .ok admitted)
    (houtcome : outcomeOf config admitted readings = .ok outcome)
    (hunfinished : isSucceeded readings.authority.current = none)
    (hreceipt : readings.receipt.receiptPresent = false → readings.receipt.existingReceipt = none)
    (attemptIndex : ℕ) :
    CallSafe guard inv c (fun _ _ => True)
      (writeSuccessfulCommit config admitted readings outcome attemptIndex) s := by
  have hpremature : CallSafe guard inv c (fun _ _ => readings.receipt.existingReceipt = none)
      (liftJs (assertNoPrematureCommitArtifacts readings)) s := by
    refine safe_liftJs fun _ hassert => ?_
    obtain ⟨-, -, hassert⟩ := bind_eq_ok.mp hassert
    exact hreceipt (Bool.not_eq_true _ ▸ refuseIf_eq_ok.mp hassert)
  refine safe_seq hpremature ?_
  intro _ s₁ hunreceipted
  have hbuilt :
      CallSafe guard inv c
        (fun items s' => ∃ plan, CommitBuilt config admitted readings outcome plan items ∧
      AuthorityRead admitted.requested.sessionId plan.authority s')
      (buildSuccessfulCommitTransaction config (commitWrite admitted readings outcome)) s₁ := by
    refine safe_seq (safe_artifactExpiresAt h config) ?_
    intro requestedExpiresAt s₂ _
    refine safe_seq
      (safe_buildArtifactTtlUpdatePlan h config admitted.requested.sessionId requestedExpiresAt) ?_
    rintro plan s₃ ⟨hauthority, hplanned⟩
    exact safe_liftJs fun items hitems =>
      ⟨plan, ⟨houtcome, hunfinished, hunreceipted, hplanned, hitems⟩, hauthority⟩
  refine safe_seq hbuilt ?_
  rintro items s₂ ⟨plan, hitems, hauthority⟩
  refine safe_seq (safe_catchConflict (safe_weaken (fun _ _ _ => trivial) (safe_writeTransaction h
    (hissued admitted readings outcome plan items s₂ hadmitted hitems hauthority)))) ?_
  intro written s₃ _
  exact safe_pure trivial

variable [DecidableEq U]

theorem safe_attemptSuccessfulFinalizationCommit {admitted : AdmittedCommit U}
    (hadmitted : admitCommit config input = .ok admitted) (verificationFirst : Bool) (attemptIndex : ℕ) :
    CallSafe guard inv c (fun _ _ => True)
      (attemptSuccessfulFinalizationCommit config admitted verificationFirst attemptIndex) s := by
  refine safe_seq (safe_loadCommitReadings config h admitted verificationFirst) ?_
  intro readings s₁ hreceipt
  have houtcome :
      CallSafe guard inv c (fun outcome _ => outcomeOf config admitted readings = .ok outcome)
      (liftJs (outcomeOf config admitted readings)) s₁ := safe_liftJs fun _ houtcome => houtcome
  refine safe_seq houtcome ?_
  intro outcome s₂ houtcome
  split
  · rename_i current _
    have hreplay : CallSafe guard inv c (fun _ _ => True)
        (liftJs (assertSuccessfulFinalizationReplay admitted readings outcome current)) s₂ :=
      safe_liftJs fun _ _ => trivial
    exact safe_seq hreplay fun _ _ _ => safe_pure trivial
  · rename_i hunfinished
    exact safe_writeSuccessfulCommit h hissued hadmitted houtcome hunfinished hreceipt attemptIndex

theorem safe_commitSuccessfulFinalization :
    CallSafe guard inv c (fun _ _ => True) (commitSuccessfulFinalization config input) s := by
  have hadmit : CallSafe guard inv c (fun admitted _ => admitCommit config input = .ok admitted)
      (liftJs (admitCommit config input)) s := safe_liftJs fun _ hadmitted => hadmitted
  refine safe_seq hadmit ?_
  intro admitted s₁ hadmitted
  refine safe_seq (safe_requireIdentity h admitted.requested.sessionId) ?_
  intro _ s₂ _
  refine @safe_retrying _ _ _ _ _ _ _ _ (fun _ _ => True) _ _ (fun _ => True) ?_ _ trivial
  intro index s _
  exact safe_weaken (fun _ _ _ => ⟨trivial, fun _ _ => trivial⟩)
    (safe_attemptSuccessfulFinalizationCommit h hissued hadmitted _ index)

end Writing

end Safe

end StarkBallot.AwsAdapters.Dynamo
