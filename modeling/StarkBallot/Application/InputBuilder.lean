import StarkBallot.Application.FinalizeAsync
import StarkBallot.Application.FinalizeScenario
import StarkBallot.Domain.PersistedHistory
import StarkBallot.ZkvmContract.ElectionConfig

/-! The input of the prover, out of a session (`application/src/zkvm-input/input-builder.ts`), and the
    preparation of a finalization around it (`finalize-session.ts`,
    `verification/public-audit-artifacts.ts`).

        stored history ── agrees with the board, or the board is empty ──▶ its last snapshot ─┐
        the board itself, for sparse indices ─────────────────────────────────────────────────┼─▶ size, root, time
        the history that is recomputed from the votes ─────────────────────────────────────────┘
        vote ──▶ commitment, random, path of the vote id in the tree of that size

    The board of a session answers queries from caches that the queries fill, so the builder runs on it.
    The clock is read once at most; `now` is the reading. -/

namespace StarkBallot.Application
open Schemes ContractCore CryptoPrimitives Merkle Domain ZkvmContract

variable (noble : NobleUtils) (sha256 : List UInt8 → Bytes 32)

/-! ### Errors -/

/-- A `CtProofUnavailableError`, or any other. -/
inductive InputBuilderError where
  | ctProofUnavailable (index : ℕ) (reason : Option JsString) (expectedTreeSize : Option ℕ)
      (actualTreeSize : Option ℤ)
  | other (error : JsError)

abbrev BuilderM := ExceptT InputBuilderError (StateM SimpleBulletinBoard)

/-- A call on the board of the session. -/
def onBoard {α : Type} (call : BoardM α) : BuilderM α :=
  ExceptT.mk fun board => (mapErr .other (exec call board).1, (exec call board).2)

/-- A computation that touches nothing. -/
def computed {α : Type} (result : JsM α) : BuilderM α := lifted (mapErr .other result)

/-- The outcome of a call; a throw keeps what was changed before it. -/
def outcome {α : Type} (call : BuilderM α) : BuilderM (Except InputBuilderError α) :=
  ExceptT.mk fun board => (.ok (exec call board).1, (exec call board).2)

/-! ### The snapshot -/

def latestOf (latest : Option Num) (timestamp : Num) : Num :=
  match latest with
  | none => timestamp
  | some latest => if latest.lt timestamp then timestamp else latest

def getLatestVoteTimestamp (votes : Votes) : Option Num :=
  votes.foldl (fun latest vote =>
    if isPositiveInteger vote.2.timestamp then some (latestOf latest vote.2.timestamp) else latest) none

def getLiveBulletinSnapshot (votes : Votes) (now : Num) : BuilderM (Option RootSnapshot) := do
  let treeSize ← onBoard getSize
  if treeSize = 0 then return none
  else
    match ← outcome (do computed (normalizeHexOrZero (← onBoard (getCurrentRoot noble sha256)))) with
    | .ok root => return some ⟨(getLatestVoteTimestamp votes).getD now, treeSize, root, none⟩
    | .error _ => return none

/-- A stored snapshot, unless the board has another size or root. -/
def resolvePersistedBulletinSnapshot (latestSnapshot : RootSnapshot) :
    BuilderM (Option RootSnapshot) := do
  let bulletinSize ← onBoard getSize
  if bulletinSize = 0 then return some latestSnapshot
  else
    match ← outcome (do
        let bulletinRoot ← computed (normalizeHexOrZero (← onBoard (getCurrentRoot noble sha256)))
        if bulletinSize = latestSnapshot.treeSize then
          return decide (bulletinRoot = (← computed (normalizeHexOrZero latestSnapshot.root)))
        else return false) with
    | .ok true => return some latestSnapshot
    | _ => return none

def getLatestPersistedSTHSnapshot (bulletinRootHistory : List RootSnapshot) :
    BuilderM (Option RootSnapshot) :=
  match (parsePersistedRootHistory bulletinRootHistory).bind List.getLast? with
  | none => return none
  | some latestSnapshot => resolvePersistedBulletinSnapshot noble sha256 latestSnapshot

def getLatestCanonicalBulletinSnapshot (votes : Votes) (bulletinRootHistory : List RootSnapshot)
    (now : Num) :
    JsM (Option RootSnapshot) := do
  let rootHistory ← getCanonicalBulletinRootHistory noble sha256 votes bulletinRootHistory now
  return rootHistory.getLast?

def getLatestSTHSnapshot (votes : Votes) (bulletinRootHistory : List RootSnapshot)
    (allowSparseVoteIndices : Bool) (now : Num) : BuilderM RootSnapshot := do
  match ← getLatestPersistedSTHSnapshot noble sha256 bulletinRootHistory with
  | some persistedSnapshot => return persistedSnapshot
  | none =>
    match ← (if allowSparseVoteIndices then getLiveBulletinSnapshot noble sha256 votes now
        else return none) with
    | some liveBulletinSnapshot => return liveBulletinSnapshot
    | none =>
      match ← computed
          (getLatestCanonicalBulletinSnapshot noble sha256 votes bulletinRootHistory now) with
      | some latestSnapshot => return latestSnapshot
      | none => throw (.other (.error "Missing STH snapshot data"))

/-! ### The votes -/

def resolveInputVoteIndices (votes : Votes) (allowSparseVoteIndices : Bool) : JsM (List ℕ) := do
  let sortedIndices := sortBy byNumber (votes.map Prod.fst)
  if ¬ allowSparseVoteIndices then
    let _ ← assertCanonicalCtVoteIndices sortedIndices
    sortedIndices.mapM fun index => asVoteIndex index
  else mapErr (fun _ => nonCanonicalCtVoteIndices) (sortedIndices.mapM fun index => asVoteIndex index)

/-- What the board proves for a vote; a throw other than a missing proof counts as no proof. -/
def proofPath (index : ℕ) (voteId : JsString) (treeSize : ℕ) : BuilderM (Option (List JsString)) := do
  match ← onBoard (getInclusionProof noble sha256 voteId (some treeSize)) with
  | none => return none
  | some proof =>
    let proofLeafIndex ← computed (asLeafIndex proof.leafIndex)
    if proofLeafIndex ≠ index then throw (.ctProofUnavailable index (js "leaf_index_mismatch") none none)
    else if proof.treeSize ≠ treeSize then
      throw (.ctProofUnavailable index (js "tree_size_mismatch") treeSize proof.treeSize)
    else return some (← computed (proof.proofNodes.mapM fun node => normalizeHexOrZero node))

def resolvePathFromBulletin (index : ℕ) (voteId : JsString) (treeSize : ℕ) :
    BuilderM (Option (List JsString)) := do
  match ← outcome (proofPath noble sha256 index voteId treeSize) with
  | .ok path => return path
  | .error (.ctProofUnavailable index reason expected actual) =>
    throw (.ctProofUnavailable index reason expected actual)
  | .error (.other _) => return none

/-- The proof is of the size that was asked for. -/
def resolveMerklePath (index : ℕ) (voteId : JsString) (treeSize : ℕ) : BuilderM (List JsString) := do
  match ← resolvePathFromBulletin noble sha256 index voteId treeSize with
  | some path =>
    if path.length > 0 ∨ treeSize ≤ 1 then return path
      else throw (.ctProofUnavailable index none none none)
  | none => throw (.ctProofUnavailable index none none none)

def buildVoteWithProof (votes : Votes) (electionId : JsString) (treeSize index : ℕ) :
    BuilderM ZkVMInput.VoteWithProof := do
  match votes.lookup index with
  | none => throw (.other (.error s!"Vote data not found for index {index}"))
  | some voteData =>
    let choice := Num.ofNat voteData.vote.toNumber
    let random ← computed (normalizeHexOrZero voteData.rand)
    let commitment ← computed (ZkvmContract.computeCommitment noble sha256 electionId choice random)
    let merklePath ← resolveMerklePath noble sha256 index voteData.voteId treeSize
    return ⟨commitment, choice, random, .ofNat index, merklePath⟩

def buildVotesWithProofs (votes : Votes) (electionId : JsString) (treeSize : ℕ)
    (allowSparseVoteIndices : Bool) :
    BuilderM (List ZkVMInput.VoteWithProof) := do
  let sortedIndices ← computed (resolveInputVoteIndices votes allowSparseVoteIndices)
  sortedIndices.mapM (buildVoteWithProof noble sha256 votes electionId treeSize)

/-! ### The input -/

def hasMatchingElectionConfigHash (config : ElectionConfig) (electionConfigHash : JsString) : Bool :=
  normalizeHexString (hashElectionConfig noble sha256 config) = normalizeHexString electionConfigHash

/-- A session without a configuration, which its type excludes, is left out. -/
def buildZkVMInputFromSession (identity : SessionIdentityRecord) (voting : SessionVotingRecord)
    (allowSparseVoteIndices : Bool) (now : Num) : BuilderM ZkVMInput := do
  if identity.sessionId ≠ voting.sessionId then
    throw (.other (.error "Session identity and voting records do not match"))
  else if ¬ hasMatchingElectionConfigHash noble sha256 identity.electionConfig
      identity.electionConfigHash then
    throw (.other (.error "Session electionConfig does not match electionConfigHash"))
  else if identity.logId = [] then throw (.other (.error "Missing logId for session"))
  else
    let sthSnapshot ←
      getLatestSTHSnapshot noble sha256 voting.votes voting.bulletinRootHistory
        allowSparseVoteIndices now
    let bulletinRoot ← computed (normalizeHexOrZero sthSnapshot.root)
    let logId ← computed (normalizeHexOrZero identity.logId)
    let votes ←
      buildVotesWithProofs noble sha256 voting.votes identity.electionId sthSnapshot.treeSize
        allowSparseVoteIndices
    return {
      electionId := identity.electionId
      electionConfigHash := identity.electionConfigHash
      bulletinRoot := bulletinRoot
      treeSize := .ofNat sthSnapshot.treeSize
      totalExpected := identity.electionConfig.totalExpected
      logId := logId
      timestamp := sthSnapshot.timestamp
      votes := votes }

/-! ### The preparation -/

def resolveElectionConfigForManifest (electionConfig : ElectionConfig) (electionConfigHash : JsString)
    (totalExpected : Num) : JsM ElectionConfig := do
  refuseIf (¬ electionConfig.totalExpected.eq totalExpected)
    (.error "Authoritative election config totalExpected does not match zkVM input")
  refuseIf (¬ hasMatchingElectionConfigHash noble sha256 electionConfig electionConfigHash)
    (.error "Authoritative election config hash does not match zkVM input")
  return electionConfig

structure PreparedFinalizationInputs where
  scenarioContext : FinalizeScenarioContext
  zkvmInput : ZkVMInput
  authoritativeElectionConfig : ElectionConfig

/-- The scenario, and the votes that the input is built from. -/
def scenarioForInput (votes : MapRef) (userVoteIndex : ℕ) (scenarioId : JsString) :
    ScenarioM (FinalizeScenarioContext × Bool × Votes) := do
  let (application, scenarioContext) ← applyScenario votes userVoteIndex scenarioId
  let excludes := decide (application.tamperMode = .input)
  let votesForInput ← readMap (if excludes then application.modifiedVotes else votes)
  return (scenarioContext, excludes, votesForInput)

/-- The votes of the session are the one map there is at first; `readings` are those of `Math.random`. -/
def prepareFinalizationInputs (identity : SessionIdentityRecord) (voting : SessionVotingRecord)
    (scenarioId : JsString) (userVoteIndex : ℕ) (readings : ℕ → ℚ) (now : Num) :
    Except InputBuilderError PreparedFinalizationInputs := do
  let (scenarioContext, excludes, votesForInput) ←
    mapErr .other (exec (scenarioForInput 0 userVoteIndex scenarioId) ⟨readings, [voting.votes]⟩).1
  let zkvmInput ← (exec (buildZkVMInputFromSession noble sha256 identity
      { voting with votes := votesForInput } excludes now) voting.bulletin).1
  let authoritativeElectionConfig ← mapErr .other
      (resolveElectionConfigForManifest noble sha256 identity.electionConfig
      zkvmInput.electionConfigHash zkvmInput.totalExpected)
  return ⟨scenarioContext, zkvmInput, authoritativeElectionConfig⟩

/-! ### Calls of the builder -/

section Calls

variable {α β : Type} {board board' : SimpleBulletinBoard}

theorem exec_onBoard (call : BoardM α) : exec (onBoard call) board =
    (mapErr .other (exec call board).1, (exec call board).2) := rfl

theorem exec_computed (result : JsM α) : exec (computed result) board = (mapErr .other result, board) :=
  rfl

theorem computed_eq_ok {result : JsM α} {a : α} (h : exec (computed result) board = (.ok a, board')) :
    result = .ok a := by
  rw [exec_computed] at h
  exact mapErr_eq_ok.mp (congrArg Prod.fst h)

end Calls

/-! ### What every built input satisfies -/

section Built

variable {noble sha256} {votes : Votes} {history : List RootSnapshot}
    {board board' : SimpleBulletinBoard} {now : Num}

theorem normal_of_normalizeHexOrZero {value hex : JsString} (h : normalizeHexOrZero value = .ok hex) :
    Normal hex := by
  unfold normalizeHexOrZero at h
  split at h
  · rw [← Except.ok.inj h]
    exact normal_zeroHex
  · exact normal_of_normalizeHex h

/-- A stored snapshot is taken as it is, or not at all. -/
theorem resolvePersisted_eq_some {latest snapshot : RootSnapshot}
    (h : exec (resolvePersistedBulletinSnapshot noble sha256 latest) board =
      (.ok (some snapshot), board')) :
    snapshot = latest := by
  obtain ⟨size, board₁, -, h⟩ := exec_bind_eq_ok h
  split at h
  · exact Option.some.inj (eq_of_exec_pure h)
  · obtain ⟨compared, board₂, -, h⟩ := exec_bind_eq_ok h
    split at h
    · exact Option.some.inj (eq_of_exec_pure h)
    · cases eq_of_exec_pure h

theorem treeSize_pos_of_live {live : RootSnapshot}
    (h : exec (getLiveBulletinSnapshot noble sha256 votes now) board = (.ok (some live), board')) :
    1 ≤ live.treeSize := by
  obtain ⟨size, board₁, -, h⟩ := exec_bind_eq_ok h
  split at h
  · cases eq_of_exec_pure h
  · rename_i hsize
    obtain ⟨root, board₂, -, h⟩ := exec_bind_eq_ok h
    cases root with
    | ok root =>
      obtain rfl := Option.some.inj (eq_of_exec_pure h)
      exact Nat.one_le_iff_ne_zero.mpr hsize
    | error e => cases eq_of_exec_pure h

theorem treeSize_pos_of_normalized {value snapshot : RootSnapshot}
    (h : Domain.normalizePersistedRootSnapshot value = some snapshot) : 1 ≤ snapshot.treeSize := by
  unfold Domain.normalizePersistedRootSnapshot at h
  split at h
  · cases h
  · rename_i hvalid
    obtain ⟨root, -, rfl⟩ := Option.map_eq_some_iff.mp h
    exact Nat.one_le_iff_ne_zero.mpr fun hzero => hvalid (.inr (.inl hzero))

theorem forall_of_parsed {parsed : List RootSnapshot}
    (h : Domain.parsePersistedRootHistory history = some parsed) :
    ∀ snapshot ∈ parsed, 1 ≤ snapshot.treeSize := by
  induction history generalizing parsed with
  | nil =>
    rw [← Option.some.inj h]
    simp
  | cons value history ih =>
    rw [Domain.parsePersistedRootHistory, List.mapM_cons, Option.bind_eq_bind,
      Option.bind_eq_some_iff] at h
    obtain ⟨first, hfirst, h⟩ := h
    rw [Option.bind_eq_bind, Option.bind_eq_some_iff] at h
    obtain ⟨rest, hrest, h⟩ := h
    rw [← Option.some.inj h]
    exact List.forall_mem_cons.mpr ⟨treeSize_pos_of_normalized hfirst, ih hrest⟩

/-- Every snapshot of a history that the votes spell has a size. -/
theorem forall_of_canonical {rebuilt : List RootSnapshot}
    (h : getCanonicalBulletinRootHistory noble sha256 votes history now = .ok rebuilt) :
    ∀ snapshot ∈ rebuilt, 1 ≤ snapshot.treeSize := by
  obtain ⟨plain, hplain, h⟩ := bind_eq_ok.mp h
  obtain ⟨commits, hcommits⟩ := UnknownHistory.commits_of_rebuild hplain
  obtain ⟨n, hcanonical, -⟩ := bind_eq_ok.mp hplain
  rw [UnknownHistory.rebuild_spelled hcanonical hcommits] at hplain
  obtain rfl := Except.ok.inj hplain
  obtain rfl := Except.ok.inj h
  have hsize : ∀ snapshot ∈ UnknownHistory.recomputed sha256 now (sortedVotes votes) commits,
      1 ≤ snapshot.treeSize := by
    intro snapshot hsnapshot
    obtain ⟨vote, -, rfl⟩ := List.mem_map.mp hsnapshot
    exact Nat.le_add_left 1 vote.2
  rcases UnknownHistory.merge_cases UnknownHistory.recomputed_unsigned
    (Domain.parsePersistedRootHistory history) with
    hmerged | ⟨persisted, -, -, hmerged⟩
  · rwa [hmerged]
  · rw [hmerged]
    intro snapshot hsnapshot
    obtain ⟨k, hk⟩ := List.mem_iff_getElem?.mp hsnapshot
    obtain ⟨first, stored, hfirst, -, rfl⟩ := List.getElem?_zipWith_eq_some.mp hk
    exact hsize first (List.mem_of_getElem? hfirst)

theorem latest_of_parsed {latest : RootSnapshot}
    (h : (Domain.parsePersistedRootHistory history).bind List.getLast? = some latest) :
    1 ≤ latest.treeSize := by
  obtain ⟨parsed, hparsed, hlast⟩ := Option.bind_eq_some_iff.mp h
  exact forall_of_parsed hparsed latest (List.mem_of_getLast? hlast)

/-- SPEC: whichever snapshot is taken, it is of a tree with a leaf. -/
theorem treeSize_pos_of_latest {allowSparseVoteIndices : Bool} {snapshot : RootSnapshot}
    (h : exec (getLatestSTHSnapshot noble sha256 votes history allowSparseVoteIndices now) board =
      (.ok snapshot, board')) : 1 ≤ snapshot.treeSize := by
  obtain ⟨persisted, board₁, hpersisted, h⟩ := exec_bind_eq_ok h
  cases persisted with
  | some persisted =>
    obtain rfl := eq_of_exec_pure h
    unfold getLatestPersistedSTHSnapshot at hpersisted
    split at hpersisted
    · cases eq_of_exec_pure hpersisted
    · rename_i latest hlatest
      rw [resolvePersisted_eq_some hpersisted]
      exact latest_of_parsed hlatest
  | none =>
    obtain ⟨live, board₂, hlive, h⟩ := exec_bind_eq_ok h
    cases live with
    | some live =>
      obtain rfl := eq_of_exec_pure h
      split at hlive
      · exact treeSize_pos_of_live hlive
      · cases eq_of_exec_pure hlive
    | none =>
      obtain ⟨canonical, board₃, hcanonical, h⟩ := exec_bind_eq_ok h
      cases canonical with
      | none => exact (not_exec_throw h).elim
      | some canonical =>
        obtain rfl := eq_of_exec_pure h
        obtain ⟨rebuilt, hrebuilt, hlast⟩ := bind_eq_ok.mp (computed_eq_ok hcanonical)
        exact forall_of_canonical hrebuilt _ (List.mem_of_getLast? (Except.ok.inj hlast))

/-- What a vote of the input is made of. -/
structure BuiltVote (vote : ZkVMInput.VoteWithProof) : Prop where
  choice : ∃ choice : VoteChoice, vote.choice = .ofNat choice.toNumber
  random : Normal vote.random
  index : ∃ index : ℕ, vote.index = .ofNat index

theorem builtVote_of_build {electionId : JsString} {treeSize index : ℕ} {vote : ZkVMInput.VoteWithProof}
    (h : exec (buildVoteWithProof noble sha256 votes electionId treeSize index) board =
      (.ok vote, board')) :
    BuiltVote vote := by
  unfold buildVoteWithProof at h
  split at h
  · exact (not_exec_throw h).elim
  · rename_i voteData hvote
    obtain ⟨random, board₁, hrandom, h⟩ := exec_bind_eq_ok h
    obtain ⟨commitment, board₂, -, h⟩ := exec_bind_eq_ok h
    obtain ⟨path, board₃, -, h⟩ := exec_bind_eq_ok h
    obtain rfl := eq_of_exec_pure h
    exact ⟨⟨voteData.vote, rfl⟩, normal_of_normalizeHexOrZero (computed_eq_ok hrandom), ⟨index, rfl⟩⟩

/-- What an input has of the session it is built from. -/
structure Built (identity : SessionIdentityRecord) (input : ZkVMInput) : Prop where
  electionId : input.electionId = identity.electionId
  electionConfigHash : ∃ digest : Bytes 32, normalizeHexString input.electionConfigHash = text digest
  totalExpected : input.totalExpected = identity.electionConfig.totalExpected
  treeSize : ∃ size, 1 ≤ size ∧ input.treeSize = .ofNat size
  logId : normalizeHexOrZero identity.logId = .ok input.logId
  votes : ∀ vote ∈ input.votes, BuiltVote vote

/-- BUILT: what holds of every input, whatever the session. -/
theorem built_of_build {identity : SessionIdentityRecord} {voting : SessionVotingRecord}
    {allowSparseVoteIndices : Bool} {input : ZkVMInput}
    (h : exec (buildZkVMInputFromSession noble sha256 identity voting allowSparseVoteIndices now)
      board = (.ok input, board')) : Built identity input := by
  unfold buildZkVMInputFromSession at h
  split at h
  · exact (not_exec_throw h).elim
  split at h
  · exact (not_exec_throw h).elim
  rename_i hhash
  split at h
  · exact (not_exec_throw h).elim
  obtain ⟨snapshot, board₁, hsnapshot, h⟩ := exec_bind_eq_ok h
  obtain ⟨bulletinRoot, board₂, -, h⟩ := exec_bind_eq_ok h
  obtain ⟨logId, board₃, hlogId, h⟩ := exec_bind_eq_ok h
  obtain ⟨inputVotes, board₄, hvotes, h⟩ := exec_bind_eq_ok h
  obtain rfl := eq_of_exec_pure h
  obtain ⟨indices, board₅, -, hvotes⟩ := exec_bind_eq_ok hvotes
  refine ⟨rfl, ⟨sha256 (utf8ToBytes (canonicalConfig identity.electionConfig)), ?_⟩, rfl,
    ⟨snapshot.treeSize, treeSize_pos_of_latest hsnapshot, rfl⟩, computed_eq_ok hlogId, ?_⟩
  · simp only [hasMatchingElectionConfigHash, decide_eq_true_eq, not_not] at hhash
    rw [← hhash, hashElectionConfig_eq]
    exact normalizeHexString_of_spells (prefixed_spells _)
  · intro vote hvote
    obtain ⟨index, -, board₆, board₇, hbuild⟩ :=
      exists_of_forall₂ (forall₂_of_exec_mapM hvotes) vote hvote
    exact builtVote_of_build hbuild

/-- What a finalization is prepared with. -/
theorem prepared_of_prepare {identity : SessionIdentityRecord} {voting : SessionVotingRecord}
    {scenarioId : JsString} {userVoteIndex : ℕ} {readings : ℕ → ℚ}
    {prepared : PreparedFinalizationInputs}
    (h : prepareFinalizationInputs noble sha256 identity voting scenarioId userVoteIndex readings now =
      .ok prepared) :
    Built identity prepared.zkvmInput ∧ prepared.authoritativeElectionConfig = identity.electionConfig ∧
      Produced prepared.scenarioContext := by
  obtain ⟨⟨scenarioContext, excludes, votesForInput⟩, hscenario, h⟩ := bind_eq_ok.mp h
  obtain ⟨zkvmInput, hinput, h⟩ := bind_eq_ok.mp h
  obtain ⟨config, hconfig, h⟩ := bind_eq_ok.mp h
  obtain rfl := Except.ok.inj h
  obtain ⟨_, -, hconfig⟩ := bind_eq_ok.mp (mapErr_eq_ok.mp hconfig)
  obtain ⟨_, -, hconfig⟩ := bind_eq_ok.mp hconfig
  refine ⟨built_of_build (Prod.ext hinput rfl), (Except.ok.inj hconfig).symm, ?_⟩
  obtain ⟨⟨application, context⟩, heap, happly, hscenario⟩ :=
    exec_bind_eq_ok (Prod.ext (mapErr_eq_ok.mp hscenario) rfl)
  obtain ⟨votes, heap', -, hscenario⟩ := exec_bind_eq_ok hscenario
  obtain rfl : scenarioContext = context := congrArg Prod.fst (eq_of_exec_pure hscenario)
  exact ⟨0, userVoteIndex, scenarioId, _, heap, application, happly⟩

end Built

end StarkBallot.Application
