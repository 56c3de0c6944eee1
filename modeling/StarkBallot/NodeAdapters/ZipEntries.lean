import StarkBallot.Runtime.Paths
import StarkBallot.Runtime.Texts
import StarkBallot.Schemes.Result
import StarkBallot.Schemes.Stateful

/-! Reading and extracting ZIP archives (`node-adapters/src/zip.ts`). An archive delivers its entries
    one by one, the next one when the last visit is over, and then an end or an error; a visit that
    throws ends it. The names, the declared sizes and the chunks of an entry are
    whatever the archive says.

        entry ──▶ count ──▶ declared bytes ──▶ target ──┬─▶ directory: mkdir
                                                        └─▶ size ──▶ mkdir ──▶ stream ─ meter ─▶ file

    Every call on the host may fail; `faults` tells which does, and how much of a chunk had been
    written. There are no links in the file system, and nobody else changes it. An error of the archive
    in the middle of a visit does not stop the visit, so it counts as one after it. -/

namespace StarkBallot.NodeAdapters.Zip
open Schemes Paths

/-! ### Archives -/

/-- A chunk as a stream delivers it: bytes in one of three classes, a text, or anything else. -/
inductive Chunk where
  | bytes (bytes : List UInt8)
  | text (text : JsString)
  | other

/-- The entry, the chunks of its stream, and the error that may follow them. -/
structure Entry where
  fileName : JsString
  uncompressedSize : ℕ
  chunks : List Chunk
  failure : Option String

structure Archive where
  entries : List Entry
  failure : Option String

/-! ### Errors -/

inductive ZipError where
  | destinationRequired
  | invalidLimit (label : String)
  | invalidEntryName (entryName : JsString)
  | unsafeEntryName (entryName : JsString)
  | entryTooLarge (fileName : JsString)
  | tooManyEntries (maxEntries : Num)
  | aggregateTooLarge (maxTotalBytes : Num)
  | duplicateEntry (fileName : JsString)
  | unsupportedChunk
  | actualBytesExceeded
  | host (message : String)
  deriving DecidableEq

def ZipError.message : ZipError → JsString
  | destinationRequired => js "Zip extraction destination is required"
  | invalidLimit label => js s!"Zip {label} must be a positive integer"
  | invalidEntryName entryName => js "Invalid zip entry name: " ++ entryName
  | unsafeEntryName entryName => js "Unsafe zip entry name: " ++ entryName
  | entryTooLarge fileName => js "Zip entry too large: " ++ fileName
  | tooManyEntries maxEntries => js s!"Zip contains more than {maxEntries.toText} entries"
  | aggregateTooLarge maxTotalBytes =>
      js s!"Zip aggregate uncompressed size exceeds {maxTotalBytes.toText} bytes"
  | duplicateEntry fileName => js "Duplicate zip entry: " ++ fileName
  | unsupportedChunk => js "Unsupported zip stream chunk"
  | actualBytesExceeded => js "Zip actual extracted bytes exceed the configured entry or aggregate bound"
  | host message => js message

/-- An error of the checks of names, counts, duplicates and declared sizes. -/
def ZipError.isOfEntry : ZipError → Bool
  | invalidEntryName _ | unsafeEntryName _ | entryTooLarge _ | tooManyEntries _ | aggregateTooLarge _
  | duplicateEntry _ => true
  | _ => false

/-! ### Limits -/

structure ZipLimits where
  maxEntryBytes : Num
  maxEntries : Num
  maxTotalBytes : Num

structure ZipOptions where
  maxEntryBytes : Option Num
  maxEntries : Option Num
  maxTotalBytes : Option Num

def ZipOptions.limits (options : ZipOptions) : ZipLimits where
  maxEntryBytes := options.maxEntryBytes.getD (.ofNat (64 * 1024 * 1024))
  maxEntries := options.maxEntries.getD (.ofNat 10000)
  maxTotalBytes := options.maxTotalBytes.getD (.ofNat (512 * 1024 * 1024))

def assertZipLimit (value : Num) (label : String) : Except ZipError Unit :=
  refuseIf (¬ value.isSafeInteger ∨ value.le (.ofNat 0)) (.invalidLimit label)

def assertZipLimits (limits : ZipLimits) : Except ZipError Unit := do
  assertZipLimit limits.maxEntryBytes "maxEntryBytes"
  assertZipLimit limits.maxEntries "maxEntries"
  assertZipLimit limits.maxTotalBytes "maxTotalBytes"

/-! ### Targets -/

def maxEntryPathBytes : ℕ := 4096

structure ZipTarget where
  targetPath : JsString
  isDirectory : Bool
  key : JsString

def sanitize (entryName : JsString) : JsString := entryName.map fun c => if c = '\\' then '/' else c

section Targets

variable (cwd : WorkingDirectory) (destination : JsString)

def resolveEntryTarget (entryName : JsString) : Except ZipError ZipTarget := do
  let sanitized := sanitize entryName
  refuseIf (sanitized.length = 0 ∨ '\x00' ∈ sanitized ∨ maxEntryPathBytes < (utf8 sanitized).length)
    (.invalidEntryName entryName)
  let isDirectory := decide (sanitized.getLast? = some '/')
  let trimmed := if isDirectory then sanitized.dropLast else sanitized
  refuseIf (trimmed = []) (.invalidEntryName entryName)
  refuseIf (∃ segment ∈ trimmed.splitOn '/', segment = [] ∨ segment = js "." ∨ segment = js "..")
    (.unsafeEntryName entryName)
  let destinationRoot := resolve cwd [destination]
  let resolved := resolve cwd [destinationRoot, trimmed]
  refuseIf (¬ (resolved = destinationRoot ∨ (destinationRoot ++ js "/") <+: resolved))
    (.unsafeEntryName entryName)
  return ⟨resolved, isDirectory, trimmed⟩

end Targets

def assertEntrySize (entry : Entry) (maxEntryBytes : Num) : Except ZipError Unit :=
  refuseIf (maxEntryBytes.lt (.ofNat entry.uncompressedSize)) (.entryTooLarge entry.fileName)

/-! ### The inventory of an archive -/

/-- The targets admitted so far, the entries met, and the bytes that they declare. -/
structure ZipInventory where
  seen : List JsString
  entryCount : ℕ
  totalBytes : ℕ

def ZipInventory.new : ZipInventory := ⟨[], 0, 0⟩

abbrev InventoryM := ExceptT ZipError (StateM ZipInventory)

def countEntry (maxEntries : Num) : InventoryM Unit := do
  modify fun inventory => { inventory with entryCount := inventory.entryCount + 1 }
  if maxEntries.lt (.ofNat (← get).entryCount) then throw (.tooManyEntries maxEntries)

def countDeclaredBytes (maxTotalBytes : Num) (entry : Entry) : InventoryM Unit := do
  modify fun inventory => { inventory with totalBytes := inventory.totalBytes + entry.uncompressedSize }
  if maxTotalBytes.lt (.ofNat (← get).totalBytes) then throw (.aggregateTooLarge maxTotalBytes)

def admitTarget (cwd : WorkingDirectory) (destination : JsString) (entry : Entry) :
    InventoryM ZipTarget := do
  let target ← lifted (resolveEntryTarget cwd destination entry.fileName)
  if target.key ∈ (← get).seen then throw (.duplicateEntry entry.fileName)
  modify fun inventory => { inventory with seen := setAdd inventory.seen target.key }
  return target

/-! ### Extraction -/

/-- What is created, and the entry that it is created for; the destination is created for none. -/
structure Creation where
  entry : Option JsString
  path : JsString

/-- The file that is written comes first. -/
structure Extraction where
  inventory : ZipInventory
  actualTotalBytes : ℕ
  directories : List (List JsString)
  created : List Creation
  files : List (JsString × List UInt8)
  calls : ℕ

def Extraction.start (directories : List (List JsString)) : Extraction :=
  ⟨.new, 0, directories, [], [], 0⟩

abbrev ExtractionM := ExceptT ZipError (StateM Extraction)

/-- A call that failed, and the bytes of its chunk that had been written. -/
structure Fault where
  message : String
  written : ℕ

def onInventory {α : Type} (call : InventoryM α) : ExtractionM α :=
  onPart (·.inventory) (fun extraction inventory => { extraction with inventory := inventory }) call

section Host

variable (faults : ℕ → Option Fault)

/-- The fault of the next call. -/
def nextFault : ExtractionM (Option Fault) := do
  let calls := (← get).calls
  modify fun extraction => { extraction with calls := calls + 1 }
  return faults calls

def hostCall : ExtractionM Unit := do
  match ← nextFault faults with
  | some fault => throw (.host fault.message)
  | none => return

/-- A directory that is there is left alone. -/
def makeDirectory (entry : Option JsString) (segments : List JsString) : ExtractionM Unit := do
  if segments ∈ (← get).directories then return
  else
    hostCall faults
    modify fun extraction => { extraction with
      directories := extraction.directories ++ [segments]
      created := extraction.created ++ [⟨entry, fromSegments segments⟩] }

/-- `fs.mkdir` with `recursive`: the directories of the path from the root on. -/
def mkdir (entry : Option JsString) (path : JsString) : ExtractionM Unit :=
  (normalSegments path).inits.tail.forM (makeDirectory faults entry)

def openEntryStream : ExtractionM Unit := hostCall faults

/-- The file is created or emptied. -/
def createWriteStream (entry : Entry) (path : JsString) : ExtractionM Unit := do
  hostCall faults
  modify fun extraction => { extraction with
    created := extraction.created ++ [⟨some entry.fileName, path⟩]
    files := (path, []) :: extraction.files }

def appendToFile (bytes : List UInt8) : List (JsString × List UInt8) → List (JsString × List UInt8)
  | [] => []
  | (path, content) :: files => (path, content ++ bytes) :: files

def write (buffer : List UInt8) : ExtractionM Unit := do
  match ← nextFault faults with
  | some fault =>
    modify fun extraction =>
      { extraction with files := appendToFile (buffer.take fault.written) extraction.files }
    throw (.host fault.message)
  | none => modify fun extraction => { extraction with files := appendToFile buffer extraction.files }

def toBuffer : Chunk → Except ZipError (List UInt8)
  | .bytes bytes => .ok bytes
  | .text text => .ok (utf8 text)
  | .other => .error .unsupportedChunk

/-- The transform of the meter of one entry: the bytes of the entry so far, with the chunk. -/
def meter (limits : ZipLimits) (actualEntryBytes : ℕ) (buffer : List UInt8) : ExtractionM ℕ := do
  modify fun extraction =>
    { extraction with actualTotalBytes := extraction.actualTotalBytes + buffer.length }
  if limits.maxEntryBytes.lt (.ofNat (actualEntryBytes + buffer.length)) ∨
      limits.maxTotalBytes.lt (.ofNat (← get).actualTotalBytes) then
    throw .actualBytesExceeded
  return actualEntryBytes + buffer.length

def transform (limits : ZipLimits) (actualEntryBytes : ℕ) (chunk : Chunk) : ExtractionM ℕ := do
  let buffer ← lifted (toBuffer chunk)
  let actualEntryBytes ← meter limits actualEntryBytes buffer
  write faults buffer
  return actualEntryBytes

def pipeline (limits : ZipLimits) (entry : Entry) (path : JsString) : ExtractionM Unit := do
  createWriteStream faults entry path
  let _ ← entry.chunks.foldlM (transform faults limits) 0
  match entry.failure with
  | some message => throw (.host message)
  | none => return

variable (cwd : WorkingDirectory) (destination : JsString) (limits : ZipLimits)

def extractEntry (entry : Entry) : ExtractionM Unit := do
  onInventory (countEntry limits.maxEntries)
  onInventory (countDeclaredBytes limits.maxTotalBytes entry)
  let target ← onInventory (admitTarget cwd destination entry)
  if target.isDirectory then mkdir faults (some entry.fileName) target.targetPath
  else
    lifted (assertEntrySize entry limits.maxEntryBytes)
    mkdir faults (some entry.fileName) (dirname target.targetPath)
    openEntryStream faults
    pipeline faults limits entry target.targetPath

end Host

/-- The entries one by one, then the end or the error of the archive. -/
def visitZipEntries {σ : Type} (archive : Archive) (visit : Entry → ExceptT ZipError (StateM σ) Unit) :
    ExceptT ZipError (StateM σ) Unit := do
  archive.entries.forM visit
  match archive.failure with
  | some message => throw (.host message)
  | none => return

def extractZip (faults : ℕ → Option Fault) (cwd : WorkingDirectory) (archive : Archive)
    (destination : JsString) (options : ZipOptions) : ExtractionM Unit := do
  if destination = [] then throw .destinationRequired
  else
    lifted (assertZipLimits options.limits)
    mkdir faults none (resolve cwd [destination])
    visitZipEntries archive (extractEntry faults cwd destination options.limits)

/-! ### Inspection -/

abbrev InspectionM := ExceptT ZipError (StateM (ZipInventory × List JsString))

def onInspected {α : Type} (call : InventoryM α) : InspectionM α :=
  onPart Prod.fst (fun inspection inventory => (inventory, inspection.2)) call

def inspectEntry (cwd : WorkingDirectory) (destination : JsString) (limits : ZipLimits) (entry : Entry) :
    InspectionM Unit := do
  onInspected (countEntry limits.maxEntries)
  lifted (assertEntrySize entry limits.maxEntryBytes)
  onInspected (countDeclaredBytes limits.maxTotalBytes entry)
  let target ← onInspected (admitTarget cwd destination entry)
  if ¬ target.isDirectory then modify fun inspection => (inspection.1, inspection.2 ++ [target.key])

def listZipEntryNames (cwd : WorkingDirectory) (archive : Archive) (options : ZipOptions) :
    Except ZipError (List JsString) := do
  assertZipLimits options.limits
  let inspection :=
    exec (visitZipEntries archive (inspectEntry cwd (resolve cwd [js "zip-inspection-root"])
    options.limits)) (.new, [])
  let _ ← inspection.1
  return inspection.2.2

end StarkBallot.NodeAdapters.Zip
