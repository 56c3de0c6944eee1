import StarkBallot.Api.VerifyHandler
import StarkBallot.Verification.JournalAuthority
import StarkBallot.Verification.PublicAuditConsistency
import StarkBallot.Verification.PublicInputParser
import StarkBallot.Verification.SuccessfulChecks

/-! The two checkers of the public audit (`apps/api/src/server/api/handlers/verify.ts`,
    `verification/src/verification/public-audit-artifact-consistency.ts`, `engine/evaluate-checks.ts`).
    A finalization lists the issues of the artifacts it is given; a verification evaluates two checks on
    the artifacts that were kept.

    manifest, close statement ──┬─ finalization ──▶ issues   (ids, hashes, totals, sizes, roots, digests)
    journal, public input ──────┴─ verification ──▶ checks   (ids, hashes, sizes, roots, digests)

    What each of them compares is stated once, as a predicate of the artifact; only the
    first compares the totals. -/

namespace StarkBallot.Api
open Schemes Application Domain CryptoPrimitives ZkvmContract Verification

variable (noble : NobleUtils) (sha256 : List UInt8 → Bytes 32)

/-! ### The authority that is read -/

/-- A name that is expected has to be there. -/
def matchesPublicInputProvenance (provenance : PublicInputArtifactProvenance)
    (finalizationId bundleKey : Option JsString) : Bool :=
  if (nonEmpty finalizationId).isSome ∧
      (nonEmpty provenance.finalizationId = none ∨ provenance.finalizationId ≠ finalizationId) then false
  else if (nonEmpty bundleKey).isSome ∧
      (nonEmpty provenance.bundleKey = none ∨ provenance.bundleKey ≠ bundleKey) then false
  else true

/-- The typed authority, with where it comes from. -/
def readAuthority (artifact : SupportedPublicInputArtifact) : VerificationPublicInputAuthority :=
  { artifact.typedAuthority with
    source := artifact.provenance.source
    finalizationId := nonEmpty artifact.provenance.finalizationId
    bundleKey := nonEmpty artifact.provenance.bundleKey }

def resolvePublicInputAuthority (artifact : Option SupportedPublicInputArtifact)
    (finalizationId bundleKey bulletinRoot : Option JsString) (treeSize : Option Num) :
    Option VerificationPublicInputAuthority :=
  match artifact with
  | none => none
  | some artifact =>
    if ¬ matchesPublicInputProvenance artifact.provenance finalizationId bundleKey then none
    else if (nonEmpty bulletinRoot).any fun bulletinRoot =>
        normalizeHexString artifact.typedAuthority.bulletinRoot ≠ normalizeHexString bulletinRoot then
      none
    else if treeSize.any fun treeSize => !artifact.typedAuthority.treeSize.eq treeSize then none
    else some (readAuthority artifact)

/-- What the handler evaluates when it has these artifacts. -/
def VerificationRead.withPublicAudit (read : VerificationRead) (audit : PublicAudit) :
    VerificationRead :=
  { read with
    publicInputAuthority := some (readAuthority audit.publicInputArtifact)
    electionManifest := some audit.electionManifest
    closeStatement := some audit.closeStatement }

/-- The gate is open. -/
def manifestCheck (read : VerificationRead) (audit : PublicAudit) : CheckResult :=
  resolveCountedElectionManifestConsistent noble sha256 (read.withPublicAudit audit).checksInput none

def closeStatementCheck (read : VerificationRead) (audit : PublicAudit) : CheckResult :=
  resolveCountedCloseStatementConsistent noble sha256 (read.withPublicAudit audit).checksInput none

def auditResolution (journal : CurrentZkVMJournal) (audit : PublicAudit) (context : PublicInputContext) :
    PublicAuditArtifactResolution :=
  resolveConsistentPublicAuditArtifacts noble sha256 journal (some audit.publicInputArtifact)
    (some audit.electionManifest) (some audit.closeStatement) context

/-- The two checkers say the same, and a manifest with another total is consistent for neither. -/
structure CheckersAgree (read : VerificationRead) (audit : PublicAudit) (context : PublicInputContext) :
    Prop where
  verdict : (manifestCheck noble sha256 read audit).status = .success ∧
      (closeStatementCheck noble sha256 read audit).status = .success ↔
    ∀ issue ∈ (auditResolution noble sha256 read.journal audit context).issues,
      issue.artifact ≠ .electionManifest ∧ issue.artifact ≠ .closeStatement
  total : audit.electionManifest.totalExpected ≠ read.journal.totalExpected →
    (manifestCheck noble sha256 read audit).status ≠ .success ∧
      ∃ issue ∈ (auditResolution noble sha256 read.journal audit context).issues,
      issue.artifact = .electionManifest

/-! ### What is compared -/

/-- The manifest is the one of the journal's election, as far as ids and hashes tell. -/
structure DescribesElection (journal : CurrentZkVMJournal) (manifest : ElectionManifest) : Prop where
  electionId : manifest.electionId = journal.electionId
  ownHash : matchesHex manifest.electionConfigHash
    (recomputeElectionManifestHash noble sha256 manifest) = true
  journalHash : matchesHex manifest.electionConfigHash journal.electionConfigHash = true

/-- The statement closes the journal's board at the time of the public input. -/
structure ClosesBoard (journal : CurrentZkVMJournal) (authority : PublicInputAuthority)
    (closeStatement : CloseStatement) : Prop where
  treeSize : closeStatement.treeSize = journal.treeSize
  bulletinRoot : matchesHex closeStatement.bulletinRoot journal.bulletinRoot = true
  ownDigest : ∃ recomputed, buildCloseStatement noble sha256 closeStatement.logId closeStatement.treeSize
    closeStatement.timestamp closeStatement.bulletinRoot = .ok recomputed ∧
      matchesHex closeStatement.sthDigest recomputed.sthDigest = true
  journalDigest : matchesHex closeStatement.sthDigest journal.sthDigest = true
  timestamp : closeStatement.timestamp = authority.timestamp

/-! ### Lists of tests -/

theorem issuesOf_eq_nil {artifact : PublicAuditArtifact} {tests : List (Bool × String)} :
    issuesOf artifact tests = [] ↔ ∀ test ∈ tests, test.1 = true := by
  simp [issuesOf, List.filter_eq_nil_iff]

theorem artifact_of_mem_issuesOf {artifact : PublicAuditArtifact} {tests : List (Bool × String)}
    {issue : PublicAuditArtifactConsistencyIssue} (h : issue ∈ issuesOf artifact tests) :
    issue.artifact = artifact := by
  obtain ⟨test, -, rfl⟩ := List.mem_map.mp h
  rfl

/-- Values that are all the same do not disagree. -/
theorem not_disagree_of_same {α : Type} [DecidableEq α] {values : List α} (same : α)
    (h : ∀ value ∈ values, value = same) : disagree values = false := by
  simp only [disagree, decide_eq_false_iff_not, not_lt]
  have hnodup := values.nodup_dedup
  have hsame : ∀ value ∈ values.dedup, value = same := fun value hmem => h value (List.mem_dedup.mp hmem)
  rcases hdedup : values.dedup with _ | ⟨a, _ | ⟨b, rest⟩⟩
  · simp
  · simp
  · rw [hdedup] at hnodup hsame
    simp [hsame a (by simp), hsame b (by simp)] at hnodup

theorem normalize_publicHash {hash : JsString} (h : isValidHexString hash (some 32) = true) :
    normalizeHexString (VerificationRead.publicHash hash) = normalizeHexString hash := by
  have hpublic : isPublicInputHash hash = true := by
    simp [isPublicInputHash, h, List.length_pos_iff, ne_nil_of_isValidHexString h]
  exact normalizeHexString_admitHash (if_pos hpublic)

theorem failure_status (error : String) : (CheckResult.failure error).status ≠ .success := by
  intro h
  cases h

theorem matchesHex_iff {left right : JsString} :
    matchesHex left right = true ↔ normalizeHexString left = normalizeHexString right := by
  simp [matchesHex]

theorem normalizeHexString_ne_nil {hex : JsString} (h : isValidHexString hex (some 32) = true) :
    normalizeHexString hex ≠ [] := by
  intro hnil
  unfold isValidHexString at h
  split at h
  · cases h
  split at h
  · cases h
  · rw [hnil] at h
    cases h

/-! ### The artifact that is kept -/

section Kept

variable {noble sha256} {journal : CurrentZkVMJournal} {audit : PublicAudit}
    {context : PublicInputContext}

/-- What the public input and the journal have in common. -/
structure SharesFacts (journal : CurrentZkVMJournal) (authority : PublicInputAuthority) : Prop where
  electionId : authority.electionId = journal.electionId
  electionConfigHash : matchesHex authority.electionConfigHash journal.electionConfigHash = true
  bulletinRoot : matchesHex authority.bulletinRoot journal.bulletinRoot = true
  treeSize : authority.treeSize.eq journal.treeSize = true
  totalExpected : authority.totalExpected.eq journal.totalExpected = true

theorem sharesFacts_of_compare {authority : PublicInputAuthority}
    (h : comparePublicInputAuthority authority journal = []) : SharesFacts journal authority := by
  have htests := issuesOf_eq_nil.mp h
  simp only [List.forall_mem_cons, decide_eq_true_eq] at htests
  obtain ⟨hid, hhash, hroot, hsize, htotal, -⟩ := htests
  exact ⟨hid, hhash, hroot, hsize, htotal⟩

/-- An artifact is kept where its provenance is authoritative and its facts are the journal's; then it
    has no issue. -/
theorem kept_inv (h : (auditResolution noble sha256 journal audit context).publicInputArtifact =
    some audit.publicInputArtifact) :
    hasAuthoritativePublicInputContext audit.publicInputArtifact.provenance context = true ∧
      SharesFacts journal audit.publicInputArtifact.typedAuthority ∧
      resolveConsistentPublicInputArtifact (some audit.publicInputArtifact) journal context =
        ⟨some audit.publicInputArtifact, []⟩ := by
  simp only [auditResolution, resolveConsistentPublicAuditArtifacts,
    resolveConsistentPublicInputArtifact] at h ⊢
  split at h
  · cases h
  rename_i hcontext
  rw [if_neg hcontext]
  unfold admitConsistentArtifact at h ⊢
  split at h
  · cases h
  rename_i hnone
  have hissues : comparePublicInputAuthority audit.publicInputArtifact.typedAuthority journal = [] := by
    simpa using hnone
  exact ⟨by simpa using hcontext, sharesFacts_of_compare hissues, if_neg hnone⟩

/-- A provenance that was authoritative at finalization passes where it is read. -/
theorem matchesPublicInputProvenance_of_context {provenance : PublicInputArtifactProvenance}
    (h : hasAuthoritativePublicInputContext provenance context = true) :
    matchesPublicInputProvenance provenance context.finalizationId context.bundleKey = true := by
  have hnames :
      ((nonEmpty context.finalizationId).isSome → provenance.finalizationId = context.finalizationId) ∧
      ((nonEmpty context.bundleKey).isSome → provenance.bundleKey = context.bundleKey) := by
    unfold hasAuthoritativePublicInputContext at h
    split at h
    · unfold matchesLocalPublicInputContext at h
      split at h
      · cases h
      rename_i hfinalization
      split at h
      · cases h
      rename_i hbundle
      exact ⟨fun hsome => by_contra fun hne => hfinalization ⟨hsome, hne⟩,
        fun hsome => by_contra fun hne => hbundle ⟨hsome, hne⟩⟩
    split at h
    · obtain ⟨hfinalization, hbundle⟩ := Bool.and_eq_true_iff.mp h
      unfold matchesGeneratedProvenance at hfinalization hbundle
      refine ⟨fun hsome => ?_, fun hsome => ?_⟩
      · simpa [hsome] using hfinalization
      · simpa [hsome] using hbundle
    split at h
    · cases h
    rename_i hbundle
    have hbundle := not_not.mp (not_or.mp (not_or.mp hbundle).2).2
    split at h
    · rename_i hnone
      exact ⟨fun hsome => by simp [hnone] at hsome, fun _ => hbundle⟩
    · exact ⟨fun _ => of_decide_eq_true h, fun _ => hbundle⟩
  obtain ⟨hfinalization, hbundle⟩ := hnames
  unfold matchesPublicInputProvenance
  rw [if_neg, if_neg]
  · rintro ⟨hsome, hbad⟩
    rw [hbundle hsome] at hbad
    rcases hbad with hnone | hne
    · simp [hnone] at hsome
    · exact hne rfl
  · rintro ⟨hsome, hbad⟩
    rw [hfinalization hsome] at hbad
    rcases hbad with hnone | hne
    · simp [hnone] at hsome
    · exact hne rfl

/-- The handler reads the authority of an artifact that was kept in its own context. -/
theorem resolvePublicInputAuthority_of_kept
    (h : (auditResolution noble sha256 journal audit context).publicInputArtifact =
      some audit.publicInputArtifact) :
    resolvePublicInputAuthority (some audit.publicInputArtifact) context.finalizationId context.bundleKey
      (some journal.bulletinRoot)
      (some journal.treeSize) = some (readAuthority audit.publicInputArtifact) := by
  obtain ⟨hcontext, hshares, -⟩ := kept_inv h
  have hroot : ¬ (nonEmpty (some journal.bulletinRoot)).any fun bulletinRoot =>
      normalizeHexString audit.publicInputArtifact.typedAuthority.bulletinRoot ≠
        normalizeHexString bulletinRoot := by
    intro hany
    obtain ⟨root, hroot, hne⟩ := (Option.any_eq_true _ _).mp hany
    obtain rfl : journal.bulletinRoot = root := Option.some.inj (Option.filter_eq_some_iff.mp hroot).1
    exact absurd (matchesHex_iff.mp hshares.bulletinRoot) (of_decide_eq_true hne)
  unfold resolvePublicInputAuthority
  dsimp only
  rw [if_neg (not_not.mpr (matchesPublicInputProvenance_of_context hcontext)), if_neg hroot, if_neg (by
    simp [hshares.treeSize])]

end Kept

/-! ### The manifest -/

section Texts

theorem isUuid_ne_nil {text : JsString} (h : isUuid text = true) : text ≠ [] := by
  rintro rfl
  cases h

theorem manifest_texts {manifest : ElectionManifest} (h : isElectionManifest manifest = true) :
    manifest.electionId ≠ [] ∧ manifest.electionConfigHash ≠ [] := by
  simp only [isElectionManifest, Bool.and_eq_true] at h
  exact ⟨isUuid_ne_nil h.1.1.1.1.1.1.1.1, ne_nil_of_isValidHexString h.2⟩

theorem journal_texts {journal : CurrentZkVMJournal} (h : isSupportedZkVMJournal journal = true) :
    journal.electionId ≠ [] ∧ journal.electionConfigHash ≠ [] := by
  have hhash := supported_hashes h journal.electionConfigHash (by simp)
  simp only [isSupportedZkVMJournal, Bool.and_eq_true] at h
  exact ⟨isUuid_ne_nil h.1.1.1.1, ne_nil_of_isValidHexString hhash⟩

end Texts

section Manifest

variable {noble sha256} {read : VerificationRead} {audit : PublicAudit} {context : PublicInputContext}

theorem compareElectionManifestInputs_success_iff {input : VerificationEvaluationInput}
    {manifest : ElectionManifest} {recomputedHash : JsString} :
    (compareElectionManifestInputs input manifest recomputedHash).status = .success ↔
      disagree (candidates [some manifest.electionId, input.electionId,
        input.publicInputAuthority.map (·.electionId), input.journal.map (·.electionId)]) = false ∧
      ∀ hash ∈ candidates [some manifest.electionConfigHash, input.electionConfigHash,
        input.publicInputAuthority.map (·.electionConfigHash), input.journal.map (·.electionConfigHash)],
        normalizeHexString hash = normalizeHexString recomputedHash := by
  unfold compareElectionManifestInputs
  split
  · rename_i hids
    exact ⟨fun hsuccess => absurd hsuccess (failure_status _), fun hall => by simp [hall.1] at hids⟩
  rename_i hids
  split
  · rename_i hhashes
    obtain ⟨hash, hmem, hne⟩ := List.any_eq_true.mp hhashes
    refine ⟨fun hsuccess => absurd hsuccess (failure_status _), fun hall => ?_⟩
    exact absurd (hall.2 hash hmem) (of_decide_eq_true hne)
  · rename_i hhashes
    refine ⟨fun _ => ⟨by simpa using hids, fun hash hmem => ?_⟩, fun _ => rfl⟩
    by_contra hne
    exact hhashes (List.any_eq_true.mpr ⟨hash, hmem, decide_eq_true hne⟩)

/-- SPEC: the check succeeds on a manifest that describes the election. -/
theorem manifestCheck_success_iff (hjournal : isSupportedZkVMJournal read.journal = true)
    (hshares : SharesFacts read.journal audit.publicInputArtifact.typedAuthority)
    (hmanifest : isElectionManifest audit.electionManifest = true) :
    (manifestCheck noble sha256 read audit).status = .success ↔
      DescribesElection noble sha256 read.journal audit.electionManifest := by
  obtain ⟨hid, hhash⟩ := manifest_texts hmanifest
  obtain ⟨hjournalId, hjournalHash⟩ := journal_texts hjournal
  have hshared := matchesHex_iff.mp hshares.electionConfigHash
  unfold manifestCheck resolveCountedElectionManifestConsistent gated
  simp only [VerificationRead.withPublicAudit, VerificationRead.checksInput]
  split
  · rename_i hown
    refine ⟨fun hsuccess => absurd hsuccess (failure_status _), fun hdescribes => ?_⟩
    exact absurd (matchesHex_iff.mp hdescribes.ownHash).symm hown
  rename_i hown
  rw [compareElectionManifestInputs_success_iff]
  constructor
  · rintro ⟨hids, hhashes⟩
    refine ⟨eq_of_not_disagree hids (mem_candidates.mpr ⟨by simp, hid⟩)
      (mem_candidates.mpr ⟨by simp, hjournalId⟩),
      matchesHex_iff.mpr (not_not.mp hown).symm, matchesHex_iff.mpr ?_⟩
    exact (hhashes _ (mem_candidates.mpr ⟨by simp, hhash⟩)).trans
      (hhashes _ (mem_candidates.mpr ⟨by simp, hjournalHash⟩)).symm
  · rintro ⟨heq, hownHash, hjournalMatch⟩
    have hown := matchesHex_iff.mp hownHash
    have hmatch := matchesHex_iff.mp hjournalMatch
    constructor
    · refine not_disagree_of_same read.journal.electionId fun text hmem => ?_
      obtain ⟨hlisted, -⟩ := mem_candidates.mp hmem
      simp only [List.mem_cons, Option.some.injEq, List.not_mem_nil, or_false,
        Option.map_some] at hlisted
      rcases hlisted with rfl | rfl | rfl | rfl
      · exact heq
      · rfl
      · exact hshares.electionId
      · rfl
    · intro hash hmem
      obtain ⟨hlisted, -⟩ := mem_candidates.mp hmem
      simp only [List.mem_cons, Option.some.injEq, List.not_mem_nil, or_false, Option.map_some,
        Option.getD_some] at hlisted
      rcases hlisted with rfl | rfl | rfl | rfl
      · exact hown
      · exact (hshared.trans hmatch.symm).trans hown
      · exact (hshared.trans hmatch.symm).trans hown
      · exact hmatch.symm.trans hown

/-- SPEC: a manifest without issues describes the election and has its total. -/
theorem manifestIssues_eq_nil_iff
    (hshares : SharesFacts read.journal audit.publicInputArtifact.typedAuthority)
    (hmanifest : isElectionManifest audit.electionManifest = true) :
    (resolveConsistentElectionManifest noble sha256 (some audit.electionManifest) read.journal
        (some audit.publicInputArtifact)).issues = [] ↔
      DescribesElection noble sha256 read.journal audit.electionManifest ∧
        audit.electionManifest.totalExpected = read.journal.totalExpected := by
  have hshared := matchesHex_iff.mp hshares.electionConfigHash
  have hinteger : audit.electionManifest.totalExpected.isInteger = true := by
    simp only [isElectionManifest, isIntegerUpTo, isNonNegativeInteger, Bool.and_eq_true] at hmanifest
    exact hmanifest.1.1.1.1.1.1.1.2.1.1
  simp only [resolveConsistentElectionManifest, admitConsistentArtifact_issues, List.append_eq_nil_iff,
    collectManifestIdentityIssues, collectManifestHashIssues, issuesOf_eq_nil, List.forall_mem_cons,
    Option.all_some, decide_eq_true_eq]
  constructor
  · rintro ⟨⟨hid, -, htotal, -⟩, hown, hjournal, -⟩
    exact ⟨⟨hid, hown, hjournal⟩, Num.eq_of_eq htotal⟩
  · rintro ⟨⟨hid, hown, hjournal⟩, htotal⟩
    have hshareTotal := Num.eq_of_eq hshares.totalExpected
    refine ⟨⟨hid, hid.trans hshares.electionId.symm, ?_, ?_, by simp⟩, hown, hjournal, ?_, by simp⟩
    · exact htotal ▸ Num.eq_self hinteger
    · rw [hshareTotal, ← htotal]
      exact Num.eq_self hinteger
    · exact matchesHex_iff.mpr ((matchesHex_iff.mp hjournal).trans hshared.symm)

end Manifest

/-! ### The close statement -/

section Statement

variable {noble sha256} {read : VerificationRead} {audit : PublicAudit} {context : PublicInputContext}

/-- A statement is built from the bytes of a root, not from its spelling. -/
theorem buildCloseStatement_congr {logId root root' : JsString} {treeSize timestamp : Num}
    (hroot : isValidHexString root (some 32) = true) (hroot' : isValidHexString root' (some 32) = true)
    (h : matchesHex root root' = true) :
    buildCloseStatement noble sha256 logId treeSize timestamp root =
      buildCloseStatement noble sha256 logId treeSize timestamp root' := by
  have hnormal (label : String) :
      Verification.normalizeHex32 root label = Verification.normalizeHex32 root' label := by
    rw [Verification.normalizeHex32, Verification.normalizeHex32, refuseIf_of_not (not_not.mpr hroot),
      refuseIf_of_not (not_not.mpr hroot'), matchesHex_iff.mp h]
  rw [buildCloseStatement, buildCloseStatement, hnormal]

theorem closeStatementDigestIssues_eq_nil {closeStatement : CloseStatement}
    {journal : CurrentZkVMJournal} :
    closeStatementDigestIssues noble sha256 closeStatement journal = [] ↔
      ∃ recomputed, buildCloseStatement noble sha256 closeStatement.logId journal.treeSize
        closeStatement.timestamp journal.bulletinRoot = .ok recomputed ∧
        matchesHex closeStatement.sthDigest recomputed.sthDigest = true := by
  unfold closeStatementDigestIssues
  rcases buildCloseStatement noble sha256 closeStatement.logId journal.treeSize closeStatement.timestamp
    journal.bulletinRoot with error | recomputed
  · simp
  · simp [issuesOf_eq_nil]

theorem statement_logId {closeStatement : CloseStatement} (h : isCloseStatement closeStatement = true) :
    isValidHexString closeStatement.logId (some 32) = true := by
  simp only [isCloseStatement, Bool.and_eq_true] at h
  exact h.1.1.1.1.1

theorem statement_texts {closeStatement : CloseStatement} (h : isCloseStatement closeStatement = true) :
    closeStatement.logId ≠ [] ∧ closeStatement.bulletinRoot ≠ [] ∧ closeStatement.sthDigest ≠ [] := by
  have hlogId := ne_nil_of_isValidHexString (statement_logId h)
  simp only [isCloseStatement, Bool.and_eq_true] at h
  exact ⟨hlogId, ne_nil_of_isValidHexString h.1.2, ne_nil_of_isValidHexString h.2⟩

theorem statement_integers {closeStatement : CloseStatement}
    (h : isCloseStatement closeStatement = true) :
    closeStatement.treeSize.isInteger = true ∧ closeStatement.timestamp.isInteger = true := by
  simp only [isCloseStatement, isIntegerUpTo, isNonNegativeInteger, Bool.and_eq_true] at h
  exact ⟨h.1.1.1.1.2.1.1, h.1.1.2.1.1⟩

theorem validateCloseStatementArtifact_eq_none {closeStatement : CloseStatement} :
    validateCloseStatementArtifact noble sha256 closeStatement = none ↔
      ∃ recomputed, buildCloseStatement noble sha256 closeStatement.logId closeStatement.treeSize
        closeStatement.timestamp closeStatement.bulletinRoot = .ok recomputed ∧
          matchesHex closeStatement.sthDigest recomputed.sthDigest = true := by
  unfold validateCloseStatementArtifact
  rcases buildCloseStatement noble sha256 closeStatement.logId closeStatement.treeSize
    closeStatement.timestamp closeStatement.bulletinRoot with error | recomputed
  · simp
  dsimp only
  split
  · rename_i hne
    refine ⟨fun h => by simp at h, ?_⟩
    rintro ⟨built, hbuilt, hmatch⟩
    cases hbuilt
    exact absurd (matchesHex_iff.mp hmatch).symm hne
  · rename_i hown
    exact ⟨fun _ => ⟨recomputed, rfl, matchesHex_iff.mpr (not_not.mp hown).symm⟩, fun _ => rfl⟩

theorem artifactError_status {closeStatement : CloseStatement} {artifactError : CheckResult}
    (h : validateCloseStatementArtifact noble sha256 closeStatement = some artifactError) :
    artifactError.status ≠ .success := by
  unfold validateCloseStatementArtifact at h
  split at h
  · cases h
    exact failure_status _
  · split at h
    · cases h
      exact failure_status _
    · cases h

theorem compareCloseStatementInputs_success_iff {input : VerificationEvaluationInput}
    {closeStatement : CloseStatement} {admittedDigest : JsString} :
    (compareCloseStatementInputs input closeStatement admittedDigest).status = .success ↔
      disagree ((candidates [some closeStatement.logId, input.logId]).map normalizeHexString) = false ∧
      disagree (([some closeStatement.treeSize, input.treeSize,
        input.journal.map (·.treeSize)].filterMap id).filter (·.isInteger)) = false ∧
      disagree ((candidates [some closeStatement.bulletinRoot, input.bulletinRoot,
        input.journal.map (·.bulletinRoot)]).map normalizeHexString) = false ∧
      ∀ digest ∈ candidates [some closeStatement.sthDigest, input.sthDigest,
        input.journal.map (·.sthDigest)], normalizeHexString digest =
          normalizeHexString admittedDigest := by
  unfold compareCloseStatementInputs
  split
  · rename_i hlogIds
    exact ⟨fun hsuccess => absurd hsuccess (failure_status _),
      fun hall => absurd hlogIds (by rw [hall.1]; decide)⟩
  rename_i hlogIds
  split
  · rename_i hsizes
    exact ⟨fun hsuccess => absurd hsuccess (failure_status _),
      fun hall => absurd hsizes (by rw [hall.2.1]; decide)⟩
  rename_i hsizes
  split
  · rename_i hroots
    exact ⟨fun hsuccess => absurd hsuccess (failure_status _),
      fun hall => absurd hroots (by rw [hall.2.2.1]; decide)⟩
  rename_i hroots
  split
  · rename_i hdigests
    obtain ⟨digest, hmem, hne⟩ := List.any_eq_true.mp hdigests
    refine ⟨fun hsuccess => absurd hsuccess (failure_status _), fun hall => ?_⟩
    exact absurd (hall.2.2.2 digest hmem) (of_decide_eq_true hne)
  · rename_i hdigests
    refine ⟨fun _ => ⟨Bool.eq_false_of_not_eq_true hlogIds, Bool.eq_false_of_not_eq_true hsizes,
      Bool.eq_false_of_not_eq_true hroots, fun digest hmem => ?_⟩, fun _ => rfl⟩
    by_contra hne
    exact hdigests (List.any_eq_true.mpr ⟨digest, hmem, decide_eq_true hne⟩)

theorem closeStatementConsistent_success_iff {input : VerificationEvaluationInput}
    {closeStatement : CloseStatement} {publicInput : VerificationPublicInputAuthority}
    (hclose : input.closeStatement = some closeStatement)
    (hpublic : input.publicInputAuthority = some publicInput) :
    (resolveCountedCloseStatementConsistent noble sha256 input none).status = .success ↔
      publicInput.timestamp.isInteger = true ∧
      validateCloseStatementArtifact noble sha256 closeStatement = none ∧
      closeStatement.timestamp.eq publicInput.timestamp = true ∧
      (compareCloseStatementInputs input closeStatement closeStatement.sthDigest).status = .success := by
  unfold resolveCountedCloseStatementConsistent gated
  rw [hclose, hpublic]
  rcases hstamp : publicInput.timestamp.isInteger with _ | _
  · have hnone :
        Option.filter (fun authority : VerificationPublicInputAuthority => authority.timestamp.isInteger)
        (some publicInput) = none := Option.filter_some_neg hstamp
    rw [hnone]
    refine ⟨fun hsuccess => ?_, fun h => absurd h.1 (by decide)⟩
    cases hsuccess
  have hsome :
      Option.filter (fun authority : VerificationPublicInputAuthority => authority.timestamp.isInteger)
      (some publicInput) = some publicInput := Option.filter_some_pos hstamp
  rw [hsome]
  dsimp only
  rcases hown : validateCloseStatementArtifact noble sha256 closeStatement with _ | artifactError
  · rcases htime : closeStatement.timestamp.eq publicInput.timestamp with _ | _
    · simp
    · simp
  · simp [artifactError_status hown]

theorem closeStatementCheck_success_iff (hjournal : isSupportedZkVMJournal read.journal = true)
    (hclose : isCloseStatement audit.closeStatement = true) :
    (closeStatementCheck noble sha256 read audit).status = .success ↔
      ClosesBoard noble sha256 read.journal audit.publicInputArtifact.typedAuthority
        audit.closeStatement ∧
        (audit.publicInputArtifact.typedAuthority.logId ≠ [] →
          matchesHex audit.closeStatement.logId audit.publicInputArtifact.typedAuthority.logId =
            true) := by
  obtain ⟨hlogId, hroot, hdigest⟩ := statement_texts hclose
  have hjournalRoot :=
    ne_nil_of_isValidHexString (supported_hashes hjournal read.journal.bulletinRoot (by simp))
  have hjournalDigest :=
    ne_nil_of_isValidHexString (supported_hashes hjournal read.journal.sthDigest (by simp))
  obtain ⟨hsize, htime⟩ := statement_integers hclose
  obtain ⟨numbers⟩ := journalNumbers_of_supported hjournal
  have hsameDigest := normalize_publicHash (supported_hashes hjournal read.journal.sthDigest (by simp))
  rw [closeStatementCheck, closeStatementConsistent_success_iff rfl rfl,
    validateCloseStatementArtifact_eq_none, compareCloseStatementInputs_success_iff]
  simp only [VerificationRead.withPublicAudit, VerificationRead.checksInput, Option.map_some,
    Option.getD_some]
  constructor
  · rintro ⟨-, hown, htimestamp, hlogIds, hsizes, hroots, hdigests⟩
    refine ⟨⟨?_, ?_, hown, ?_, Num.eq_of_eq htimestamp⟩, fun hne => ?_⟩
    · exact eq_of_not_disagree hsizes (by simp [hsize]) (by simp [numbers.treeSize_eq])
    · exact matchesHex_iff.mpr
        (eq_of_not_disagree hroots (List.mem_map_of_mem (mem_candidates.mpr ⟨by simp, hroot⟩))
        (List.mem_map_of_mem (mem_candidates.mpr ⟨by simp, hjournalRoot⟩)))
    · exact matchesHex_iff.mpr (hdigests _ (mem_candidates.mpr ⟨by simp, hjournalDigest⟩)).symm
    · exact matchesHex_iff.mpr
        (eq_of_not_disagree hlogIds (List.mem_map_of_mem (mem_candidates.mpr ⟨by simp, hlogId⟩))
        (List.mem_map_of_mem (mem_candidates.mpr ⟨by simp [readAuthority], hne⟩)))
  · rintro ⟨⟨htreeSize, hmatch, hown, hjournalMatch, htimestamp⟩, hlog⟩
    refine ⟨htimestamp ▸ htime, hown, htimestamp ▸ Num.eq_self htime, ?_, ?_, ?_, ?_⟩
    · refine not_disagree_of_same (normalizeHexString audit.closeStatement.logId) fun text hmem => ?_
      obtain ⟨logId, hcandidate, rfl⟩ := List.mem_map.mp hmem
      obtain ⟨hlisted, hne⟩ := mem_candidates.mp hcandidate
      simp only [List.mem_cons, Option.some.injEq, List.not_mem_nil, or_false] at hlisted
      rcases hlisted with rfl | rfl
      · rfl
      · exact (matchesHex_iff.mp (hlog hne)).symm
    · refine not_disagree_of_same read.journal.treeSize fun size hmem => ?_
      simp only [List.mem_filter, List.mem_filterMap, List.mem_cons, List.not_mem_nil, or_false,
        id_eq] at hmem
      obtain ⟨⟨given, hgiven, rfl⟩, -⟩ := hmem
      simp only [Option.some.injEq] at hgiven
      rcases hgiven with rfl | rfl | rfl
      · exact htreeSize
      · rfl
      · rfl
    · refine not_disagree_of_same (normalizeHexString read.journal.bulletinRoot) fun text hmem => ?_
      obtain ⟨root, hcandidate, rfl⟩ := List.mem_map.mp hmem
      obtain ⟨hlisted, -⟩ := mem_candidates.mp hcandidate
      simp only [List.mem_cons, Option.some.injEq, List.not_mem_nil, or_false] at hlisted
      rcases hlisted with rfl | rfl | rfl
      · exact matchesHex_iff.mp hmatch
      · rfl
      · rfl
    · intro digest hmem
      obtain ⟨hlisted, -⟩ := mem_candidates.mp hmem
      simp only [List.mem_cons, Option.some.injEq, List.not_mem_nil, or_false] at hlisted
      rcases hlisted with rfl | rfl | rfl
      · rfl
      · exact hsameDigest.trans (matchesHex_iff.mp hjournalMatch).symm
      · exact (matchesHex_iff.mp hjournalMatch).symm

theorem closeStatementIssues_eq_nil_iff (hjournal : isSupportedZkVMJournal read.journal = true)
    (hclose : isCloseStatement audit.closeStatement = true) :
    (resolveConsistentCloseStatement noble sha256 (some audit.closeStatement) read.journal
        (some audit.publicInputArtifact)).issues = [] ↔
      ClosesBoard noble sha256 read.journal audit.publicInputArtifact.typedAuthority
        audit.closeStatement ∧
        matchesHex audit.closeStatement.logId audit.publicInputArtifact.typedAuthority.logId = true := by
  obtain ⟨hsize, htime⟩ := statement_integers hclose
  have hjournalRoot := supported_hashes hjournal read.journal.bulletinRoot (by simp)
  have hroot : isValidHexString audit.closeStatement.bulletinRoot (some 32) = true := by
    simp only [isCloseStatement, Bool.and_eq_true] at hclose
    exact hclose.1.2
  simp only [resolveConsistentCloseStatement, admitConsistentArtifact_issues, List.append_eq_nil_iff,
    issuesOf_eq_nil, List.forall_mem_cons, Option.all_some, closeStatementDigestIssues_eq_nil]
  constructor
  · rintro ⟨⟨⟨htreeSize, hmatch, -⟩, recomputed, hbuilt, hown⟩, hdigest, hlogId, htimestamp, -⟩
    have htreeSize := Num.eq_of_eq htreeSize
    rw [← htreeSize, ← buildCloseStatement_congr hroot hjournalRoot hmatch] at hbuilt
    exact ⟨⟨htreeSize, hmatch, ⟨recomputed, hbuilt, hown⟩, hdigest, Num.eq_of_eq htimestamp⟩, hlogId⟩
  · rintro ⟨⟨htreeSize, hmatch, ⟨recomputed, hbuilt, hown⟩, hdigest, htimestamp⟩, hlogId⟩
    refine ⟨⟨⟨htreeSize ▸ Num.eq_self hsize, hmatch, by simp⟩, recomputed, ?_, hown⟩, hdigest, hlogId,
      htimestamp ▸ Num.eq_self htime, by simp⟩
    rw [← htreeSize, ← buildCloseStatement_congr hroot hjournalRoot hmatch]
    exact hbuilt

end Statement

/-! ### Both -/

section Agreement

variable {noble sha256} {read : VerificationRead} {audit : PublicAudit} {context : PublicInputContext}

theorem manifestIssue_artifact {manifest : ElectionManifest} {journal : CurrentZkVMJournal}
    {artifact : Option SupportedPublicInputArtifact} {issue : PublicAuditArtifactConsistencyIssue}
    (h : issue ∈ (resolveConsistentElectionManifest noble sha256 (some manifest) journal
      artifact).issues) :
    issue.artifact = .electionManifest := by
  simp only [resolveConsistentElectionManifest, admitConsistentArtifact_issues, List.mem_append] at h
  rcases h with h | h
  · exact artifact_of_mem_issuesOf h
  · exact artifact_of_mem_issuesOf h

theorem statementIssue_artifact {closeStatement : CloseStatement} {journal : CurrentZkVMJournal}
    {artifact : Option SupportedPublicInputArtifact} {issue : PublicAuditArtifactConsistencyIssue}
    (h : issue ∈ (resolveConsistentCloseStatement noble sha256 (some closeStatement) journal
      artifact).issues) :
    issue.artifact = .closeStatement := by
  simp only [resolveConsistentCloseStatement, admitConsistentArtifact_issues, List.mem_append] at h
  rcases h with (h | h) | h
  · exact artifact_of_mem_issuesOf h
  · unfold closeStatementDigestIssues at h
    split at h
    · rw [List.mem_singleton.mp h]
    · exact artifact_of_mem_issuesOf h
  · exact artifact_of_mem_issuesOf h

/-- The finalization has nothing against the two artifacts. -/
theorem auditIssues_clear_iff (hjournal : isSupportedZkVMJournal read.journal = true)
    (hkept : (auditResolution noble sha256 read.journal audit context).publicInputArtifact =
      some audit.publicInputArtifact)
    (hmanifest : isElectionManifest audit.electionManifest = true)
    (hclose : isCloseStatement audit.closeStatement = true) :
    (∀ issue ∈ (auditResolution noble sha256 read.journal audit context).issues,
      issue.artifact ≠ .electionManifest ∧ issue.artifact ≠ .closeStatement) ↔
    (DescribesElection noble sha256 read.journal audit.electionManifest ∧
      audit.electionManifest.totalExpected = read.journal.totalExpected) ∧
    ClosesBoard noble sha256 read.journal audit.publicInputArtifact.typedAuthority audit.closeStatement ∧
      matchesHex audit.closeStatement.logId audit.publicInputArtifact.typedAuthority.logId = true := by
  obtain ⟨-, hshares, hinput⟩ := kept_inv hkept
  rw [← manifestIssues_eq_nil_iff hshares hmanifest, ← closeStatementIssues_eq_nil_iff hjournal hclose]
  simp only [auditResolution, resolveConsistentPublicAuditArtifacts, hinput, List.nil_append]
  constructor
  · intro hclear
    refine ⟨List.eq_nil_iff_forall_not_mem.mpr fun issue hmem => ?_,
      List.eq_nil_iff_forall_not_mem.mpr fun issue hmem => ?_⟩
    · exact (hclear issue (List.mem_append_left _ hmem)).1 (manifestIssue_artifact hmem)
    · exact (hclear issue (List.mem_append_right _ hmem)).2 (statementIssue_artifact hmem)
  · rintro ⟨hmanifestIssues, hcloseIssues⟩ issue hmem
    rw [hmanifestIssues, hcloseIssues] at hmem
    cases hmem

end Agreement

/-- AGREE: the two checkers agree on the artifacts of a supported journal unless a manifest that
    describes the election has another total, or a public input that names no log is closed by a
    statement that names one. -/
theorem checkersAgree_iff (read : VerificationRead) (audit : PublicAudit) (context : PublicInputContext)
    (hjournal : isSupportedZkVMJournal read.journal = true)
    (hkept : (auditResolution noble sha256 read.journal audit context).publicInputArtifact =
      some audit.publicInputArtifact)
    (hmanifest : isElectionManifest audit.electionManifest = true)
    (hclose : isCloseStatement audit.closeStatement = true) :
    CheckersAgree noble sha256 read audit context ↔
      (DescribesElection noble sha256 read.journal audit.electionManifest →
        audit.electionManifest.totalExpected = read.journal.totalExpected ∧
        (ClosesBoard noble sha256 read.journal audit.publicInputArtifact.typedAuthority
          audit.closeStatement →
          audit.publicInputArtifact.typedAuthority.logId ≠ [])) := by
  obtain ⟨-, hshares, hinput⟩ := kept_inv hkept
  constructor
  · rintro ⟨hverdict, htotal⟩ hdescribes
    have hmanifestCheck := (manifestCheck_success_iff hjournal hshares hmanifest).mpr hdescribes
    refine ⟨by_contra fun hne => (htotal hne).1 hmanifestCheck, fun hcloses hnone => ?_⟩
    -- the check passes over a log that is not named, the list of issues does not
    have hclear := hverdict.mp
      ⟨hmanifestCheck, (closeStatementCheck_success_iff hjournal hclose).mpr ⟨hcloses,
        fun hne => absurd hnone hne⟩⟩
    obtain ⟨-, -, hlogId⟩ := (auditIssues_clear_iff hjournal hkept hmanifest hclose).mp hclear
    rw [hnone, matchesHex_iff] at hlogId
    exact normalizeHexString_ne_nil (statement_logId hclose) hlogId
  · intro hwhen
    refine ⟨?_, fun hne => ⟨fun hsuccess => ?_, ?_⟩⟩
    · rw [manifestCheck_success_iff hjournal hshares hmanifest,
        closeStatementCheck_success_iff hjournal hclose,
        auditIssues_clear_iff hjournal hkept hmanifest hclose]
      constructor
      · rintro ⟨hdescribes, hcloses, hlogId⟩
        obtain ⟨htotal, hnamed⟩ := hwhen hdescribes
        exact ⟨⟨hdescribes, htotal⟩, hcloses, hlogId (hnamed hcloses)⟩
      · rintro ⟨⟨hdescribes, -⟩, hcloses, hlogId⟩
        exact ⟨hdescribes, hcloses, fun _ => hlogId⟩
    · exact hne (hwhen ((manifestCheck_success_iff hjournal hshares hmanifest).mp hsuccess)).1
    · have hissues :
          (resolveConsistentElectionManifest noble sha256 (some audit.electionManifest) read.journal
          (some audit.publicInputArtifact)).issues ≠ [] := fun hnil =>
        hne ((manifestIssues_eq_nil_iff hshares hmanifest).mp hnil).2
      obtain ⟨issue, hmem⟩ := List.exists_mem_of_ne_nil _ hissues
      refine ⟨issue, ?_, manifestIssue_artifact hmem⟩
      simp only [auditResolution, resolveConsistentPublicAuditArtifacts, hinput, List.nil_append]
      exact List.mem_append_left _ hmem

/-! ### Another total -/

/-- The artifacts of a snapshot, with a public input that expects so many. -/
def snapshotAudit (totalExpected : ℕ) : PublicAudit where
  publicInputArtifact :=
    ⟨⟨.bundle, none, none⟩,
      { snapshotPublicInput.toPublicInputAuthority with totalExpected := .ofNat totalExpected }⟩
  electionManifest := snapshotManifest
  closeStatement := snapshotCloseStatement

def snapshotRead (totalExpected : ℕ) : VerificationRead :=
  { emptyRead (.success none) with journal := snapshotJournal totalExpected }

/-- The public input is at hand where the result is finalized. -/
def localContext : PublicInputContext := ⟨none, none, true⟩

theorem checkersAgree_on_sample :
    CheckersAgree .reference Sha256.digest (snapshotRead 1) (snapshotAudit 1) localContext := by
  have hkept : (auditResolution .reference Sha256.digest (snapshotRead 1).journal (snapshotAudit 1)
      localContext).publicInputArtifact = some (snapshotAudit 1).publicInputArtifact := by decide +kernel
  refine (checkersAgree_iff .reference Sha256.digest (snapshotRead 1) (snapshotAudit 1) localContext
    (by decide +kernel) hkept (by decide +kernel) (by decide +kernel)).mpr fun _ => ⟨rfl, fun _ => ?_⟩
  decide +kernel

/-- Journal and public input expect two, the manifest expects one: the checks succeed, and finalization
    lists issues. -/
theorem total_not_compared : isSupportedZkVMJournal (snapshotRead 2).journal = true ∧
    (auditResolution .reference Sha256.digest (snapshotRead 2).journal (snapshotAudit 2)
      localContext).publicInputArtifact = some (snapshotAudit 2).publicInputArtifact ∧
    isElectionManifest (snapshotAudit 2).electionManifest = true ∧
    isCloseStatement (snapshotAudit 2).closeStatement = true ∧
    (auditResolution .reference Sha256.digest (snapshotRead 2).journal
      (snapshotAudit 2) localContext).issues =
      [⟨.electionManifest, "total_expected_mismatch"⟩,
        ⟨.electionManifest, "public_input_total_expected_mismatch"⟩] ∧
    ¬ CheckersAgree .reference Sha256.digest (snapshotRead 2) (snapshotAudit 2) localContext := by
  refine ⟨by decide +kernel, by decide +kernel, by decide +kernel, by decide +kernel, by decide +kernel,
    fun hagree => ?_⟩
  have hsuccess :
      (manifestCheck .reference Sha256.digest (snapshotRead 2) (snapshotAudit 2)).status = .success := by
    decide +kernel
  exact (hagree.total (by decide +kernel)).1 hsuccess

end StarkBallot.Api
