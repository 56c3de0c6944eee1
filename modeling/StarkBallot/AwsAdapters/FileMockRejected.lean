import StarkBallot.AwsAdapters.FileMockOperations

/-! What the operations do to a snapshot file that is not admitted. Such a file reads as an empty state,
    like one that is not found or cannot be read, and every operation but one asks for a session or for
    a finalization before it changes anything; so it fails or has nothing to write. A new session asks
    for nothing, and its mutation is written over the file. -/

namespace StarkBallot.AwsAdapters.FileMock
open Schemes ContractCore CryptoPrimitives Domain Application
open Dynamo (AdmittedCommit AwsFinalizationRuntimeMetadata AwsVerificationDeliveryMetadata)

variable {noble : NobleUtils} {sha256 : List UInt8 → Bytes 32} {U : Type}

/-! ### On an empty state -/

/-- Nothing is there. -/
def NothingLoaded (fields : Fields U) : Prop := fields.state = createEmptyFileStoreState

/-- The body throws, or it answers with nothing to write. -/
def WritesNothing (body : StoreM U (Mutated U)) (fields : Fields U) : Prop :=
  ∀ result, (exec body fields).1 = .ok result → result.dirty = false

section Empty

variable {fields : Fields U} {sessionId : JsString}

theorem writesNothing_of_throws {α : Type} {x : StoreM U α} {f : α → StoreM U (Mutated U)}
    (h : ∃ e, (exec x fields).1 = .error e) : WritesNothing (x >>= f) fields := by
  obtain ⟨e, he⟩ := h
  intro result hresult
  rw [exec_bind] at hresult
  rcases hx : exec x fields with ⟨_ | a, fields'⟩
  · rw [hx] at hresult
    cases hresult
  · rw [hx] at he
    cases he

theorem throws_bind {α β : Type} {x : StoreM U α} {f : α → StoreM U β}
    (h : ∃ e, (exec x fields).1 = .error e) :
    ∃ e, (exec (x >>= f) fields).1 = .error e := by
  obtain ⟨e, he⟩ := h
  refine ⟨e, ?_⟩
  rw [exec_bind]
  rcases hx : exec x fields with ⟨e' | a, fields'⟩
  · rw [hx] at he
    cases he
    rfl
  · rw [hx] at he
    cases he

theorem requireIdentity_throws (h : NothingLoaded fields) :
    ∃ e, (exec (requireIdentity sessionId) fields).1 = .error e := by
  refine ⟨.error "Session identity is missing or invalid", ?_⟩
  unfold requireIdentity
  rw [exec_get_bind, h]
  rfl

theorem touchVotingRecord_throws (h : NothingLoaded fields) (atMs : Num) :
    ∃ e, (exec (touchVotingRecord sessionId atMs) fields).1 = .error e :=
  throws_bind (throws_bind (requireIdentity_throws h))

theorem requireSucceededFinalization_throws (h : NothingLoaded fields) (finalizationId : JsString) :
    ∃ e, (exec (requireSucceededFinalization sessionId finalizationId) fields).1 = .error e := by
  refine ⟨.error "Finalization is unavailable for verification", ?_⟩
  have hcurrent : exec (currentFinalization sessionId) fields = (.ok none, fields) := by
    unfold currentFinalization
    rw [exec_get_bind, exec_lifted, h]
    rfl
  rw [requireSucceededFinalization, exec_bind_ok hcurrent, exec_lifted]
  rfl

/-- Nothing is idle where there is nothing. -/
theorem getActiveSessionCount_writesNothing (h : NothingLoaded fields) (now : Num) :
    WritesNothing (getActiveSessionCount now) fields := by
  intro result hresult
  unfold getActiveSessionCount at hresult
  rw [exec_get_bind, h] at hresult
  exact congrArg MutationResult.dirty (Except.ok.inj hresult).symm

theorem mutateVotes_writesNothing (h : NothingLoaded fields) (command : SessionVoteCommand)
    (dependencies : SessionMutationDependencies) :
    WritesNothing (mutateVotes noble sha256 sessionId command dependencies) fields := by
  intro result hresult
  unfold mutateVotes at hresult
  rw [exec_get_bind, h] at hresult
  cases hflag : fields.snapshotAdmissionFailed with
  | true =>
    rw [hflag] at hresult
    cases hresult
  | false =>
    rw [hflag] at hresult
    rw [← Except.ok.inj hresult]

end Empty

/-! ### The operations -/

def Operation.createsSession : Operation U → Bool
  | .createSession .. => true
  | _ => false

/-- REJECTED: every operation but a new session writes nothing where nothing is loaded. -/
theorem writesNothing_of_empty [DecidableEq U] {operation : Operation U}
    (hoperation : operation.createsSession = false) {fields : Fields U} (h : NothingLoaded fields) :
    WritesNothing (operation.body noble sha256) fields := by
  cases operation with
  | createSession sessionId electionId createdAtMs => cases hoperation
  | touchSession sessionId atMs => exact writesNothing_of_throws (touchVotingRecord_throws h atMs)
  | mutateVotes sessionId command dependencies => exact mutateVotes_writesNothing h command dependencies
  | getActiveSessionCount now => exact getActiveSessionCount_writesNothing h now
  | applyFinalizationCommand command runtimeMetadata evaluatedAtMs touchedAtMs =>
    exact writesNothing_of_throws (requireIdentity_throws h)
  | recordAwsProofBundlePublication sessionId finalizationId metadata =>
    exact writesNothing_of_throws (requireIdentity_throws h)
  | writeVerificationResult sessionId finalizationId verificationResult mode touchedAtMs =>
    exact writesNothing_of_throws (requireSucceededFinalization_throws h finalizationId)
  | rollbackVerificationResult sessionId finalizationId touchedAtMs =>
    exact writesNothing_of_throws (requireSucceededFinalization_throws h finalizationId)
  | recordVerificationObservation sessionId finalizationId input =>
    exact writesNothing_of_throws (requireIdentity_throws h)
  | commitSuccessfulFinalization admitted evaluatedAtMs touchedAtMs =>
    exact writesNothing_of_throws (requireIdentity_throws h)

/-! ### Runs -/

/-- The codec of the store, for the texts that it parses and writes. -/
def fileStoreCodec (parseFileStoreSnapshot : JsString → Option (FileStoreState U))
    (serializeFileStoreState : FileStoreState U → JsM JsString) :
    SnapshotCodec (FileStoreState U) JsString :=
  ⟨createEmptyFileStoreState, parseFileStoreSnapshot, serializeFileStoreState⟩

/-- The calls of operations, each on a store. -/
def callsOf [DecidableEq U] (noble : NobleUtils) (sha256 : List UInt8 → Bytes 32) {ι κ : Type}
    (operations : ι → Operation U) (stores : ι → κ) (c : ι) :
    Call (FileStoreState U) RollbackSnapshots (Answer U) κ :=
  (operations c).on noble sha256 (stores c)

section Runs

variable [DecidableEq U] {ι κ : Type} {parse : JsString → Option (FileStoreState U)}
  {serialize : FileStoreState U → JsM JsString} {content : JsString} {operations : ι → Operation U}
  {stores : ι → κ}

omit [DecidableEq U] in
/-- However a rejected file is looked at, nothing is loaded. -/
theorem state_of_rejected {disk : Disk ι JsString} {sight : Sight}
    {memory memory' : Memory (FileStoreState U) RollbackSnapshots} (hrejected : parse content = none)
    (hcontent : disk.content = some content)
    (hok : loadFromDisk (fileStoreCodec parse serialize) disk sight true memory = .ok memory') :
    memory'.loaded.state = createEmptyFileStoreState := by
  obtain ⟨signature, -, hok⟩ := bind_eq_ok.mp hok
  rw [if_neg (by simp)] at hok
  cases signature with
  | none =>
    rw [← Except.ok.inj hok]
    rfl
  | some signature =>
    rw [← Except.ok.inj hok]
    cases sight with
    | unreadable => rfl
    | _ => simp only [readFileSync, hcontent, SnapshotCodec.admit, fileStoreCodec, hrejected]

/-- The call is about to write. -/
def Phase.writes : Phase JsString (Answer U) → Bool
  | .mutated result => result.dirty
  | .writing .. => true
  | .written _ => true
  | _ => false

/-- The file is as it was, and no call is about to write. -/
structure LeftAlone (content : JsString)
    (system : System (FileStoreState U) JsString RollbackSnapshots (Answer U) ι κ) :
    Prop where
  content : system.disk.content = some content
  idle : ∀ c, (system.phase c).writes = false

variable [DecidableEq ι] [DecidableEq κ]
  {system : System (FileStoreState U) JsString RollbackSnapshots (Answer U) ι κ}
  {turn : Turn ι κ JsString} {turns : List (Turn ι κ JsString)} {c : ι} {fate : Fate JsString}

omit [DecidableEq U] [DecidableEq κ] in
/-- A turn that sets the phase of one call to one that does not write. -/
theorem LeftAlone.of_phase
    {system' : System (FileStoreState U) JsString RollbackSnapshots (Answer U) ι κ}
    {phase : Phase JsString (Answer U)} (h : LeftAlone content system)
    (hphase : system'.phase = Function.update system.phase c phase) (hidle : phase.writes = false)
    (hfile : system'.disk.snapshotFile = system.disk.snapshotFile) : LeftAlone content system' := by
  refine ⟨?_, fun d => ?_⟩
  · rw [Disk.content, hfile]
    exact h.content
  · rw [hphase]
    by_cases hd : d = c
    · rw [hd, Function.update_self]
      exact hidle
    · rw [Function.update_of_ne hd]
      exact h.idle d

/-- The mutation of any operation but a new session has nothing to write. -/
theorem mutateLoaded_leaves (hrejected : parse content = none)
    (hoperation : (operations c).createsSession = false) (h : LeftAlone content system) :
    LeftAlone content
      (system.mutateLoaded (fileStoreCodec parse serialize) (callsOf noble sha256 operations stores) c
      fate) := by
  unfold System.mutateLoaded
  split
  · exact h.of_phase rfl rfl rfl
  · rename_i memory hmemory
    have hempty := state_of_rejected hrejected h.content hmemory
    dsimp only [Mutation.run]
    split
    · rename_i result hresult
      have hnothing : NothingLoaded (⟨memory.loaded.state, memory.loaded.snapshotAdmissionFailed,
        memory.verificationRollbackSnapshots⟩ : Fields U) := hempty
      exact h.of_phase rfl (writesNothing_of_empty hoperation hnothing result hresult) rfl
    · exact h.of_phase rfl rfl rfl

/-- STEP: a turn of any other call leaves a rejected snapshot. -/
theorem advance_leaves (hrejected : parse content = none) (h : LeftAlone content system)
    (hturn : ∀ c fate, turn = .step c fate → (operations c).createsSession = false) :
    LeftAlone content
      (system.advance (fileStoreCodec parse serialize)
        (callsOf noble sha256 operations stores) turn) := by
  cases turn with
  | ensureFresh store sight =>
    dsimp only [System.advance, System.refresh]
    split
    · exact ⟨h.content, h.idle⟩
    · exact h
  | step c fate =>
    have hidle := h.idle c
    dsimp only [System.advance, System.step]
    split <;> rename_i hphase <;> rw [hphase] at hidle
    · unfold System.acquireLock
      split
      · exact h.of_phase rfl rfl rfl
      · exact h
      · exact h.of_phase rfl rfl rfl
    · exact mutateLoaded_leaves hrejected (hturn c fate rfl) h
    · rename_i result
      have hclean : result.dirty = false := hidle
      unfold System.persistState
      rw [hclean]
      exact h.of_phase rfl rfl rfl
    · cases hidle
    · cases hidle
    · unfold System.rememberSignature
      split <;> exact h.of_phase rfl rfl rfl
    · unfold System.catchError
      split <;> exact h.of_phase rfl rfl rfl
    · unfold System.release
      split <;> exact h.of_phase rfl rfl rfl
    · exact h

/-- RUN: it is left as long as no new session takes a step. -/
theorem run_leaves (hrejected : parse content = none) (h : LeftAlone content system)
    (hturns : ∀ c fate, .step c fate ∈ turns → (operations c).createsSession = false) :
    LeftAlone content
      (system.run (fileStoreCodec parse serialize) (callsOf noble sha256 operations stores) turns) := by
  induction turns generalizing system with
  | nil => exact h
  | cons turn turns ih =>
    refine ih (advance_leaves hrejected h fun c fate heq => hturns c fate ?_) fun c fate hmem =>
      hturns c fate (List.mem_cons_of_mem _ hmem)
    rw [heq]
    exact List.mem_cons_self

end Runs

/-- CLOSED: a snapshot that is not admitted stays as it is in every run of operations, on any number of
    stores, in which no call of `createSession` takes a step. -/
theorem rejected_snapshot_kept [DecidableEq U] {ι κ : Type} [DecidableEq ι] [DecidableEq κ]
    (parse : JsString → Option (FileStoreState U)) (serialize : FileStoreState U → JsM JsString)
    (content : JsString) (hrejected : parse content = none) (operations : ι → Operation U)
    (stores : ι → κ) (signature : JsString) (temporarySnapshotFile : Option JsString)
    (memory : κ → Memory (FileStoreState U) RollbackSnapshots) (turns : List (Turn ι κ JsString))
    (hturns : ∀ c fate, .step c fate ∈ turns → (operations c).createsSession = false) :
    ((start (some ⟨content, signature⟩) temporarySnapshotFile memory).run
      (fileStoreCodec parse serialize)
      (callsOf noble sha256 operations stores) turns).disk.content = some content :=
  (run_leaves hrejected ⟨rfl, fun _ => rfl⟩ hturns).content

/-! ### A file that is not JSON -/

/-- A text of the session ids alone. -/
def sampleSerialize (state : FileStoreState Unit) : JsM JsString :=
  .ok (js "[" ++ (state.identityRecords.map Prod.fst).flatten ++ js "]")

def sampleParse (text : JsString) : Option (FileStoreState Unit) :=
  if text = js "[]" then some createEmptyFileStoreState else none

def notJson : JsString := js "x"

def sampleSessionId : JsString := js "00000000-0000-4000-8000-000000000001"

def quietOperation : Operation Unit := .touchSession sampleSessionId (.ofNat 1)

def creatingOperation : Operation Unit :=
  .createSession sampleSessionId (js "00000000-0000-4000-8000-000000000002") (.ofNat 1)

def ok : Fate JsString := ⟨none, none, js "2", .clear⟩

/-- The file after one call of the operation on one store. -/
def contentAfter (operation : Operation Unit) : Option JsString :=
  ((start (some ⟨notJson, js "1"⟩) none fun _ => ⟨⟨createEmptyFileStoreState, true⟩, [],
    some (js "1")⟩).run (fileStoreCodec sampleParse sampleSerialize)
    (callsOf NobleUtils.reference Sha256.digest (fun _ : Unit => operation) fun _ => ())
    (List.replicate 8 (.step () ok))).disk.content

theorem rejected_snapshot_on_sample : contentAfter quietOperation = some notJson :=
  rejected_snapshot_kept sampleParse sampleSerialize notJson rfl (fun _ : Unit => quietOperation)
    (fun _ => ()) (js "1") none (fun _ => ⟨⟨createEmptyFileStoreState, true⟩, [], some (js "1")⟩)
    (List.replicate 8 (.step () ok)) fun _ _ _ => rfl

/-- OVERWRITTEN: a new session replaces the file that was not admitted. -/
theorem createSession_overwrites_rejected :
    sampleParse notJson = none ∧ contentAfter creatingOperation ≠ some notJson := by
  refine ⟨rfl, ?_⟩
  decide +kernel

end StarkBallot.AwsAdapters.FileMock
