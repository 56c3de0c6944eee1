import StarkBallot.Verification.EvaluateChecks

/-! Public audit artifacts against a journal
    (`verification/src/verification/public-audit-artifact-consistency.ts`). The public input is compared
    with the journal first; the manifest and the close statement are compared with the journal and with
    the public input, if that was admitted.

        public input ──▶ journal ◀── manifest, close statement
             ▲______________________________│ -/

namespace StarkBallot.Verification
open ContractCore CryptoPrimitives Merkle ZkvmContract Application

variable (noble : NobleUtils) (sha256 : List UInt8 → Bytes 32)

inductive PublicAuditArtifact where
  | publicInputArtifact | electionManifest | closeStatement
  deriving DecidableEq

structure PublicAuditArtifactConsistencyIssue where
  artifact : PublicAuditArtifact
  reason : String
  deriving DecidableEq

/-- The value, unless there are issues. -/
structure ConsistentArtifact (α : Type) where
  value : Option α
  issues : List PublicAuditArtifactConsistencyIssue

def admitConsistentArtifact {α : Type} (value : α) (issues : List PublicAuditArtifactConsistencyIssue) :
    ConsistentArtifact α :=
  if issues.length > 0 then ⟨none, issues⟩ else ⟨some value, []⟩

def matchesHex (left right : JsString) : Bool := normalizeHexString left = normalizeHexString right

/-- The reasons whose test fails. -/
def issuesOf (artifact : PublicAuditArtifact) (tests : List (Bool × String)) :
    List PublicAuditArtifactConsistencyIssue :=
  (tests.filter fun test => !test.1).map fun test => ⟨artifact, test.2⟩

/-! ### The public input -/

/-- What is known of where a public input comes from. -/
structure PublicInputContext where
  finalizationId : Option JsString
  bundleKey : Option JsString
  hasLocalPublicInputAuthority : Bool

def matchesLocalPublicInputContext (provenance : PublicInputArtifactProvenance)
    (authority : PublicInputContext) : Bool :=
  if (nonEmpty authority.finalizationId).isSome ∧
      provenance.finalizationId ≠ authority.finalizationId then false
  else if (nonEmpty authority.bundleKey).isSome ∧ provenance.bundleKey ≠ authority.bundleKey then false
  else true

def matchesGeneratedProvenance (actual expected : Option JsString) : Bool :=
  if (nonEmpty expected).isSome then actual = expected else actual.isNone

def hasAuthoritativePublicInputContext (provenance : PublicInputArtifactProvenance)
    (authority : PublicInputContext) : Bool :=
  if authority.hasLocalPublicInputAuthority then matchesLocalPublicInputContext provenance authority
  else if provenance.source = .generated then
    matchesGeneratedProvenance provenance.finalizationId authority.finalizationId &&
      matchesGeneratedProvenance provenance.bundleKey authority.bundleKey
  else if nonEmpty authority.bundleKey = none ∨ nonEmpty provenance.bundleKey = none ∨
      provenance.bundleKey ≠ authority.bundleKey then false
  else if nonEmpty authority.finalizationId = none then true
  else provenance.finalizationId = authority.finalizationId

def comparePublicInputAuthority (typedAuthority : PublicInputAuthority) (journal : CurrentZkVMJournal) :
    List PublicAuditArtifactConsistencyIssue :=
  issuesOf .publicInputArtifact [
    (typedAuthority.electionId = journal.electionId, "election_id_mismatch"),
    (matchesHex typedAuthority.electionConfigHash journal.electionConfigHash,
      "election_config_hash_mismatch"),
    (matchesHex typedAuthority.bulletinRoot journal.bulletinRoot, "bulletin_root_mismatch"),
    (typedAuthority.treeSize.eq journal.treeSize, "tree_size_mismatch"),
    (typedAuthority.totalExpected.eq journal.totalExpected, "total_expected_mismatch"),
    (matchesHex typedAuthority.recomputedInputCommitment journal.inputCommitment,
      "input_commitment_mismatch"),
    (typedAuthority.methodVersion.eq (.ofNat currentMethodVersion) &&
      typedAuthority.methodVersion.eq journal.methodVersion, "method_version_mismatch")]

def resolveConsistentPublicInputArtifact (artifact : Option SupportedPublicInputArtifact)
    (journal : CurrentZkVMJournal) (authority : PublicInputContext) :
    ConsistentArtifact SupportedPublicInputArtifact :=
  match artifact with
  | none => ⟨none, [⟨.publicInputArtifact, "missing_authoritative_public_input_artifact"⟩]⟩
  | some artifact =>
    if ¬ hasAuthoritativePublicInputContext artifact.provenance authority then
      ⟨none, [⟨.publicInputArtifact, "non_authoritative_provenance"⟩]⟩
    else admitConsistentArtifact artifact (comparePublicInputAuthority artifact.typedAuthority journal)

/-! ### The manifest -/

def collectManifestIdentityIssues (manifest : ElectionManifest) (journal : CurrentZkVMJournal)
    (publicInputArtifact : Option SupportedPublicInputArtifact) :
    List PublicAuditArtifactConsistencyIssue :=
  issuesOf .electionManifest [
    (manifest.electionId = journal.electionId, "election_id_mismatch"),
    (publicInputArtifact.all fun artifact => manifest.electionId = artifact.typedAuthority.electionId,
      "public_input_election_id_mismatch"),
    (manifest.totalExpected.eq journal.totalExpected, "total_expected_mismatch"),
    (publicInputArtifact.all fun artifact => manifest.totalExpected.eq
      artifact.typedAuthority.totalExpected, "public_input_total_expected_mismatch")]

def collectManifestHashIssues (manifest : ElectionManifest) (journal : CurrentZkVMJournal)
    (publicInputArtifact : Option SupportedPublicInputArtifact) (recomputedHash : JsString) :
    List PublicAuditArtifactConsistencyIssue :=
  issuesOf .electionManifest [
    (matchesHex manifest.electionConfigHash recomputedHash, "self_hash_mismatch"),
    (matchesHex manifest.electionConfigHash journal.electionConfigHash, "journal_hash_mismatch"),
    (publicInputArtifact.all fun artifact =>
      matchesHex manifest.electionConfigHash artifact.typedAuthority.electionConfigHash,
        "public_input_hash_mismatch")]

def resolveConsistentElectionManifest (manifest : Option ElectionManifest) (journal : CurrentZkVMJournal)
    (publicInputArtifact : Option SupportedPublicInputArtifact) : ConsistentArtifact ElectionManifest :=
  match manifest with
  | none => ⟨none, []⟩
  | some manifest => admitConsistentArtifact manifest
      (collectManifestIdentityIssues manifest journal publicInputArtifact ++
        collectManifestHashIssues manifest journal publicInputArtifact
          (recomputeElectionManifestHash noble sha256 manifest))

/-! ### The close statement -/

def closeStatementDigestIssues (closeStatement : CloseStatement) (journal : CurrentZkVMJournal) :
    List PublicAuditArtifactConsistencyIssue :=
  match buildCloseStatement noble sha256 closeStatement.logId journal.treeSize closeStatement.timestamp
    journal.bulletinRoot with
  | .error _ => [⟨.closeStatement, "invalid_digest_inputs"⟩]
  | .ok recomputed =>
    issuesOf .closeStatement
      [(matchesHex closeStatement.sthDigest recomputed.sthDigest, "sth_digest_mismatch")]

def resolveConsistentCloseStatement (closeStatement : Option CloseStatement)
    (journal : CurrentZkVMJournal) (publicInputArtifact : Option SupportedPublicInputArtifact) :
    ConsistentArtifact CloseStatement :=
  match closeStatement with
  | none => ⟨none, []⟩
  | some closeStatement => admitConsistentArtifact closeStatement
      (issuesOf .closeStatement [
        (closeStatement.treeSize.eq journal.treeSize, "tree_size_mismatch"),
        (matchesHex closeStatement.bulletinRoot journal.bulletinRoot, "bulletin_root_mismatch")] ++
      closeStatementDigestIssues noble sha256 closeStatement journal ++
      issuesOf .closeStatement [
        (matchesHex closeStatement.sthDigest journal.sthDigest, "journal_sth_digest_mismatch"),
        (publicInputArtifact.all fun artifact => matchesHex closeStatement.logId
          artifact.typedAuthority.logId, "log_id_mismatch"),
        (publicInputArtifact.all fun artifact => closeStatement.timestamp.eq
          artifact.typedAuthority.timestamp, "timestamp_mismatch")])

/-! ### All three -/

structure PublicAuditArtifactResolution where
  publicInputArtifact : Option SupportedPublicInputArtifact
  electionManifest : Option ElectionManifest
  closeStatement : Option CloseStatement
  issues : List PublicAuditArtifactConsistencyIssue

def resolveConsistentPublicAuditArtifacts (journal : CurrentZkVMJournal)
    (publicInputArtifact : Option SupportedPublicInputArtifact)
    (electionManifest : Option ElectionManifest) (closeStatement : Option CloseStatement)
    (authority : PublicInputContext) : PublicAuditArtifactResolution :=
  let publicInputArtifact := resolveConsistentPublicInputArtifact publicInputArtifact journal authority
  let electionManifest :=
    resolveConsistentElectionManifest noble sha256 electionManifest journal publicInputArtifact.value
  let closeStatement :=
    resolveConsistentCloseStatement noble sha256 closeStatement journal publicInputArtifact.value
  ⟨publicInputArtifact.value, electionManifest.value, closeStatement.value,
    publicInputArtifact.issues ++ electionManifest.issues ++ closeStatement.issues⟩

section Consistent

variable {α : Type} {value : α} {issues : List PublicAuditArtifactConsistencyIssue}

@[simp] theorem admitConsistentArtifact_issues :
    (admitConsistentArtifact value issues).issues = issues := by
  cases issues <;> rfl

@[simp] theorem admitConsistentArtifact_nil : admitConsistentArtifact value [] = ⟨some value, []⟩ := rfl

variable {noble sha256} {journal : CurrentZkVMJournal} {artifacts : PublicAudit}
    {authority : PublicInputContext}

/-- Without issues every artifact is returned as it was given. -/
theorem resolveConsistentPublicAuditArtifacts_value
    (h : (resolveConsistentPublicAuditArtifacts noble sha256 journal artifacts.publicInputArtifact
      artifacts.electionManifest artifacts.closeStatement authority).issues = []) :
    resolveConsistentPublicAuditArtifacts noble sha256 journal artifacts.publicInputArtifact
      artifacts.electionManifest artifacts.closeStatement authority =
      ⟨artifacts.publicInputArtifact, artifacts.electionManifest, artifacts.closeStatement, []⟩ := by
  unfold resolveConsistentPublicAuditArtifacts at h ⊢
  dsimp only at h ⊢
  rw [List.append_eq_nil_iff, List.append_eq_nil_iff] at h
  obtain ⟨⟨hinput, hmanifest⟩, hclose⟩ := h
  have hinputValue :
      resolveConsistentPublicInputArtifact (some artifacts.publicInputArtifact) journal authority =
      ⟨some artifacts.publicInputArtifact, []⟩ := by
    unfold resolveConsistentPublicInputArtifact at hinput ⊢
    dsimp only at hinput ⊢
    split
    · rename_i hcontext
      simp [hcontext] at hinput
    · rename_i hcontext
      rw [if_neg hcontext, admitConsistentArtifact_issues] at hinput
      rw [hinput, admitConsistentArtifact_nil]
  rw [hinputValue] at hmanifest hclose ⊢
  simp only [resolveConsistentElectionManifest, resolveConsistentCloseStatement,
    admitConsistentArtifact_issues] at hmanifest hclose ⊢
  rw [hmanifest, hclose]
  rfl

/-- The public input has to be there. -/
theorem resolveConsistentPublicAuditArtifacts_missing (manifest : Option ElectionManifest)
    (closeStatement : Option CloseStatement) :
    (resolveConsistentPublicAuditArtifacts noble sha256 journal none manifest closeStatement
      authority).issues ≠ [] := by
  simp [resolveConsistentPublicAuditArtifacts, resolveConsistentPublicInputArtifact]

end Consistent

end StarkBallot.Verification
