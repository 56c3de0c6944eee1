import StarkBallot.Runtime.Js
import Mathlib.Logic.Function.Basic

/-! Mutations of the file store (`aws-adapters/src/store/fileMockSessionStore.ts`). Any number of stores
    share one storage directory; each keeps the state it has loaded, and any number of calls run on
    each. A mutation holds the lock directory, loads the snapshot, changes the state in memory, and
    writes the snapshot to a temporary file that it renames.

        waiting ─▶ acquired ─▶ mutated ─▶ writing ─▶ written ─▶ renamed ─▶ releasing ─▶ done
                       │          │          │          │          │           ▲
                       └──────────┴──────────┴──────────┴──────────┴▶ failed ──┘  (the snapshot is loaded again)

    Between two steps of a call any other call may run, and any reader may look whether its snapshot is
    still fresh. The file system may refuse each thing it is asked for. A run lists the turns that were
    taken, and the mutations that succeeded are noted in their order, with what they have left of the
    rollback snapshots, which are not part of the file. -/

namespace StarkBallot.AwsAdapters.FileMock
open Schemes

variable {State Content Private Value ι κ : Type}

/-! ### The snapshot -/

/-- The snapshot file, with the stat values that it is recognised by. -/
structure SnapshotFile (Content : Type) where
  content : Content
  signature : JsString
  deriving DecidableEq

/-- The text of a state and the state of a text; `none` is a text that is not JSON or not admitted. -/
structure SnapshotCodec (State Content : Type) where
  createEmptyFileStoreState : State
  parseFileStoreSnapshot : Content → Option State
  serializeFileStoreState : State → JsM Content

/-- What a store has loaded. -/
structure Loaded (State : Type) where
  state : State
  snapshotAdmissionFailed : Bool
  deriving DecidableEq

/-- The state of what was read of a file; what could not be read, like what is not admitted, is an empty
    state that is marked as failed. -/
def SnapshotCodec.admit (codec : SnapshotCodec State Content) : Option Content → Loaded State
  | none => ⟨codec.createEmptyFileStoreState, true⟩
  | some content =>
    match codec.parseFileStoreSnapshot content with
    | some admitted => ⟨admitted, false⟩
    | none => ⟨codec.createEmptyFileStoreState, true⟩

/-- The state of the snapshot file, if there is one. -/
def SnapshotCodec.read (codec : SnapshotCodec State Content) : Option Content → Loaded State
  | none => ⟨codec.createEmptyFileStoreState, false⟩
  | some content => codec.admit (some content)

/-- The storage directory. Nothing asks who has made the lock directory. -/
structure Disk (ι Content : Type) where
  snapshotFile : Option (SnapshotFile Content)
  temporarySnapshotFile : Option Content
  lockDirectory : Option ι

def Disk.content (disk : Disk ι Content) : Option Content := disk.snapshotFile.map SnapshotFile.content

def Disk.signature (disk : Disk ι Content) : Option JsString :=
  disk.snapshotFile.map SnapshotFile.signature

/-- How the file system serves a look at the snapshot file: as it is, or `existsSync` does not find it,
    `statSync` throws, or `readFileSync` throws. -/
inductive Sight where
  | clear
  | hidden
  | unstatted (error : JsError)
  | unreadable

def computeSignature (disk : Disk ι Content) (sight : Sight) : JsM (Option JsString) :=
  match disk.snapshotFile, sight with
  | none, _ => .ok none
  | some _, .hidden => .ok none
  | some _, .unstatted error => .error error
  | some file, _ => .ok (some file.signature)

def readFileSync (disk : Disk ι Content) : Sight → Option Content
  | .unreadable => none
  | _ => disk.content

/-! ### Stores -/

/-- The fields of a store; the rollback snapshots are not part of its file. -/
structure Memory (State Private : Type) where
  loaded : Loaded State
  verificationRollbackSnapshots : Private
  loadedSignature : Option JsString

variable (codec : SnapshotCodec State Content)

def loadFromDisk (disk : Disk ι Content) (sight : Sight) (force : Bool) (memory : Memory State Private) :
    JsM (Memory State Private) := do
  let signature ← computeSignature disk sight
  if ¬ force ∧ signature = memory.loadedSignature then return memory
  else match signature with
    | none => return { memory with
        loaded := ⟨codec.createEmptyFileStoreState, false⟩, loadedSignature := none }
    | some _ => return { memory with
        loaded := codec.admit (readFileSync disk sight), loadedSignature := signature }

def ensureFresh (disk : Disk ι Content) (sight : Sight) (memory : Memory State Private) :
    JsM (Memory State Private) :=
  loadFromDisk codec disk sight false memory

structure MutationResult (Value : Type) where
  value : Value
  dirty : Bool
  deriving DecidableEq

/-- What a mutation returns or throws, and what it has left in memory. -/
structure MutationOutcome (State Private Value : Type) where
  result : JsM (MutationResult Value)
  state : State
  verificationRollbackSnapshots : Private

abbrev Mutation (State Private Value : Type) : Type :=
  Loaded State → Private → MutationOutcome State Private Value

def Mutation.run (mutation : Mutation State Private Value) (memory : Memory State Private) :
    JsM (MutationResult Value) × Memory State Private :=
  let outcome := mutation memory.loaded memory.verificationRollbackSnapshots
  (outcome.result, { memory with
    loaded := { memory.loaded with state := outcome.state }
    verificationRollbackSnapshots := outcome.verificationRollbackSnapshots })

/-! ### Calls of `mutate` -/

/-- A call on one of the stores. -/
structure Call (State Private Value κ : Type) where
  store : κ
  mutation : Mutation State Private Value

/-- Where a call of `mutate` is: what it awaits, or how it has ended. -/
inductive Phase (Content Value : Type) where
  | waiting
  | acquired
  | mutated (result : MutationResult Value)
  | writing (serialized : Content) (value : Value)
  | written (value : Value)
  | renamed (value : Value)
  | failed (error : JsError)
  | releasing (result : JsM Value)
  | done (result : JsM Value)

/-- A mutation that succeeded. -/
structure Entry (ι Value : Type) where
  call : ι
  value : Value
  deriving DecidableEq

/-- `settled` are the rollback snapshots of each store as the mutations that succeeded have left them. -/
structure System (State Content Private Value ι κ : Type) where
  disk : Disk ι Content
  memory : κ → Memory State Private
  phase : ι → Phase Content Value
  succeeded : List (Entry ι Value)
  settled : κ → Private

/-- How the file system serves a call: whether it refuses, with what error and what it leaves of a file
    that it does not write; the stat values of the renamed file; and what it
    shows of the snapshot file. -/
structure Fate (Content : Type) where
  error : Option JsError
  partly : Option Content
  signature : JsString
  sight : Sight

inductive Turn (ι κ Content : Type) where
  | step (call : ι) (fate : Fate Content)
  | ensureFresh (store : κ) (sight : Sight)

variable [DecidableEq ι] [DecidableEq κ] (calls : ι → Call State Private Value κ)

namespace System

variable (system : System State Content Private Value ι κ)

def setPhase (c : ι) (phase : Phase Content Value) : System State Content Private Value ι κ :=
  { system with phase := Function.update system.phase c phase }

def setMemory (store : κ) (memory : Memory State Private) : System State Content Private Value ι κ :=
  { system with memory := Function.update system.memory store memory }

def succeed (c : ι) (value : Value) : System State Content Private Value ι κ :=
  { system with
    succeeded := system.succeeded ++ [⟨c, value⟩]
    settled := Function.update system.settled (calls c).store
      (system.memory (calls c).store).verificationRollbackSnapshots }

/-- An attempt at the lock directory; the deadline and all errors but `EEXIST` end the
    call outside of its `try`. -/
def acquireLock (c : ι) (fate : Fate Content) : System State Content Private Value ι κ :=
  match fate.error, system.disk.lockDirectory with
  | some error, _ => system.setPhase c (.done (.error error))
  | none, some _ => system
  | none, none =>
      { system.setPhase c .acquired with disk := { system.disk with lockDirectory := some c } }

/-- The snapshot is loaded and the mutation runs, without an `await` between them. -/
def mutateLoaded (c : ι) (fate : Fate Content) : System State Content Private Value ι κ :=
  match loadFromDisk codec system.disk fate.sight true (system.memory (calls c).store) with
  | .error error => system.setPhase c (.failed error)
  | .ok memory =>
    let (result, memory) := (calls c).mutation.run memory
    let system := system.setMemory (calls c).store memory
    match result with
    | .ok result => system.setPhase c (.mutated result)
    | .error error => system.setPhase c (.failed error)

/-- A result that is dirty is persisted: the state of the store is serialized as it is now. -/
def persistState (c : ι) (result : MutationResult Value) : System State Content Private Value ι κ :=
  if result.dirty then
    match codec.serializeFileStoreState (system.memory (calls c).store).loaded.state with
    | .ok serialized => system.setPhase c (.writing serialized result.value)
    | .error error => system.setPhase c (.failed error)
  else (system.succeed calls c result.value).setPhase c (.releasing (.ok result.value))

def writeFile (c : ι) (serialized : Content) (value : Value) (fate : Fate Content) :
    System State Content Private Value ι κ :=
  match fate.error with
  | some error =>
    { system.setPhase c (.failed error) with
      disk := { system.disk with temporarySnapshotFile := fate.partly } }
  | none =>
    { system.setPhase c (.written value) with
      disk := { system.disk with temporarySnapshotFile := some serialized } }

def rename (c : ι) (value : Value) (fate : Fate Content) : System State Content Private Value ι κ :=
  match fate.error, system.disk.temporarySnapshotFile with
  | some error, _ => system.setPhase c (.failed error)
  | none, none => system.setPhase c (.failed (.error "ENOENT"))
  | none, some content =>
    { (system.succeed calls c value).setPhase c (.renamed value) with
      disk := { system.disk with
        snapshotFile := some ⟨content, fate.signature⟩, temporarySnapshotFile := none } }

/-- The signature of the file that was just renamed. -/
def rememberSignature (c : ι) (value : Value) (fate : Fate Content) :
    System State Content Private Value ι κ :=
  match computeSignature system.disk fate.sight with
  | .ok signature =>
    (system.setMemory (calls c).store { system.memory (calls c).store with
      loadedSignature := signature }).setPhase c (.releasing (.ok value))
  | .error error => system.setPhase c (.failed error)

/-- The `catch` block, a turn of its own; it follows at once where nothing was awaited. -/
def catchError (c : ι) (error : JsError) (fate : Fate Content) :
    System State Content Private Value ι κ :=
  match loadFromDisk codec system.disk fate.sight true (system.memory (calls c).store) with
  | .ok memory => (system.setMemory (calls c).store memory).setPhase c (.releasing (.error error))
  | .error failure => system.setPhase c (.releasing (.error failure))

/-- The `finally` block: an error of `rm` replaces the result, and the lock directory stays. -/
def release (c : ι) (result : JsM Value) (fate : Fate Content) :
    System State Content Private Value ι κ :=
  match fate.error with
  | some error => system.setPhase c (.done (.error error))
  | none => { system.setPhase c (.done result) with disk := { system.disk with lockDirectory := none } }

/-- The next step of a call. -/
def step (c : ι) (fate : Fate Content) : System State Content Private Value ι κ :=
  match system.phase c with
  | .waiting => system.acquireLock c fate
  | .acquired => system.mutateLoaded codec calls c fate
  | .mutated result => system.persistState codec calls c result
  | .writing serialized value => system.writeFile c serialized value fate
  | .written value => system.rename calls c value fate
  | .renamed value => system.rememberSignature calls c value fate
  | .failed error => system.catchError codec calls c error fate
  | .releasing result => system.release c result fate
  | .done _ => system

/-- A reader that cannot look throws and has changed nothing. -/
def refresh (store : κ) (sight : Sight) : System State Content Private Value ι κ :=
  match ensureFresh codec system.disk sight (system.memory store) with
  | .ok memory => system.setMemory store memory
  | .error _ => system

def advance : Turn ι κ Content → System State Content Private Value ι κ
  | .step c fate => system.step codec calls c fate
  | .ensureFresh store sight => system.refresh codec store sight

def run (turns : List (Turn ι κ Content)) : System State Content Private Value ι κ :=
  turns.foldl (fun system turn => system.advance codec calls turn) system

end System

/-- No call has begun. What a store has in memory before it is constructed is of no account. -/
def start (snapshotFile : Option (SnapshotFile Content)) (temporarySnapshotFile : Option Content)
    (memory : κ → Memory State Private) : System State Content Private Value ι κ where
  disk := ⟨snapshotFile, temporarySnapshotFile, none⟩
  memory := memory
  phase := fun _ => .waiting
  succeeded := []
  settled := fun store => (memory store).verificationRollbackSnapshots

end StarkBallot.AwsAdapters.FileMock
