import StarkBallot.Validation.UnknownValues
import StarkBallot.Application.FinalizationStorage
import StarkBallot.ZkvmContract.WireInput

/-! The public input artifact (`verification/src/verification/public-input-contract.ts`): the input of
    the prover without its witnesses. It is built from the input, parsed from any value, and admitted in
    the form in which it is stored; the parser recomputes the input commitment from what it has read.

        ZkVMInput ──build──▶ record ──parse──▶ observed, errors ──no errors──▶ typed authority ──▶ supported artifact
                                                                                                      │  ▲
                                                                                                    stored form

    A parse collects its errors; each function gives what it adds to them beside what it has read. -/

namespace StarkBallot.Verification.PublicInput
open Schemes Validation CryptoPrimitives ZkvmContract
open Application (PublicInputArtifactProvenance PublicInputArtifactSource PublicInputAuthority
  SupportedPublicInputArtifact addHexPrefix isPublicInputHash nonEmpty)

variable (noble : NobleUtils) (sha256 : List UInt8 → Bytes 32)

def publicInputSchema : JsString := js "stark-ballot.public_input"

def publicInputVersion : JsString := js "1.1"

/-! ### The artifact -/

structure PublicInputArtifactVote where
  index : Num
  commitment : JsString
  merklePath : List JsString
  deriving DecidableEq

structure PublicInputArtifactRecord where
  schema : JsString
  version : JsString
  electionId : JsString
  electionConfigHash : JsString
  bulletinRoot : JsString
  treeSize : Num
  totalExpected : Num
  logId : JsString
  timestamp : Num
  methodVersion : Num
  votes : List PublicInputArtifactVote

def buildPublicInputArtifactFromZkvmInput (input : ZkVMInput) (methodVersion : Num) :
    PublicInputArtifactRecord where
  schema := publicInputSchema
  version := publicInputVersion
  electionId := input.electionId
  electionConfigHash := input.electionConfigHash
  bulletinRoot := input.bulletinRoot
  treeSize := input.treeSize
  totalExpected := input.totalExpected
  logId := input.logId
  timestamp := input.timestamp
  methodVersion := methodVersion
  votes := input.votes.map fun vote => ⟨vote.index, vote.commitment, vote.merklePath⟩

def PublicInputArtifactVote.toValue (vote : PublicInputArtifactVote) : JsValue :=
  .object [(js "index", .number vote.index), (js "commitment", .string vote.commitment),
    (js "merklePath", .array (vote.merklePath.map .string))]

/-- The artifact as the value that is parsed. -/
def PublicInputArtifactRecord.toValue (record : PublicInputArtifactRecord) : JsValue :=
  .object [(js "schema", .string record.schema), (js "version", .string record.version),
    (js "electionId", .string record.electionId),
    (js "electionConfigHash", .string record.electionConfigHash),
    (js "bulletinRoot", .string record.bulletinRoot), (js "treeSize", .number record.treeSize),
    (js "totalExpected", .number record.totalExpected), (js "logId", .string record.logId),
    (js "timestamp", .number record.timestamp), (js "methodVersion", .number record.methodVersion),
    (js "votes", .array (record.votes.map PublicInputArtifactVote.toValue))]

/-! ### What a parse observes -/

structure PublicInputArtifactFormat where
  schema : Option JsString
  version : Option JsString

/-- `Partial<PublicInputArtifactProvenance>`. -/
structure ProvenanceOptions where
  source : Option PublicInputArtifactSource
  finalizationId : Option JsString
  bundleKey : Option JsString

structure PublicInputObservedFields where
  electionId : Option JsString
  electionConfigHash : Option JsString
  votesCount : ℕ
  treeSize : Num
  totalExpected : Option Num
  bulletinRoot : JsString
  logId : Option JsString
  timestamp : Option Num
  methodVersion : Option Num
  uniqueIndices : Bool
  uniqueCommitments : Bool
  recomputedInputCommitment : Option JsString

structure ParsedPublicInputArtifact where
  format : PublicInputArtifactFormat
  provenance : ProvenanceOptions
  observed : PublicInputObservedFields
  typedAuthority : Option PublicInputAuthority
  valid : Bool
  errors : List JsString

def emptyHex32 : JsString := js "0x" ++ List.replicate 64 '0'

def initialObserved : PublicInputObservedFields where
  electionId := none
  electionConfigHash := none
  votesCount := 0
  treeSize := .ofNat 0
  totalExpected := none
  bulletinRoot := emptyHex32
  logId := none
  timestamp := none
  methodVersion := none
  uniqueIndices := true
  uniqueCommitments := true
  recomputedInputCommitment := none

def publicInputKeys : List JsString :=
  ["schema", "version", "electionId", "electionConfigHash", "bulletinRoot", "treeSize",
    "totalExpected", "logId", "timestamp", "methodVersion", "votes"].map js

def publicInputVoteKeys : List JsString := ["index", "commitment", "merklePath"].map js

def unexpectedKeys (value : JsValue) (allowed : List JsString) : List JsString :=
  ((objectKeys value).filter fun key => key ∉ allowed).map fun key => js "unexpected_key:" ++ key

/-- A field that is read, or the error that it is not as expected. -/
def observe {α : Type} (field : String) (read : Option α) : Option α × List JsString :=
  (read, if read.isSome then [] else [js field])

/-- The format as it was found, and the errors of a field that is not the current one. -/
def observePublicInputFormat (raw : JsValue) : PublicInputArtifactFormat × List JsString :=
  let schema := getStringProperty raw "schema"
  let version := getStringProperty raw "version"
  (⟨nonEmpty schema, nonEmpty version⟩,
    (if schema = some publicInputSchema then [] else [js "schema"]) ++
      if version = some publicInputVersion then [] else [js "version"])

def observeElectionId (raw : JsValue) : Option JsString × List JsString :=
  observe "electionId" (nonEmpty (getStringProperty raw "electionId"))

/-- A hash in its one spelling. -/
def readHash (raw : JsValue) (field : String) : Option JsString :=
  ((getStringProperty raw field).filter isPublicInputHash).map fun value =>
    addHexPrefix (normalizeHexString value)

def readInteger (raw : JsValue) (field : String) : Option Num :=
  (getNumberProperty raw field).filter Num.isInteger

def observePublicInputHash (raw : JsValue) (field : String) : Option JsString × List JsString :=
  observe field (readHash raw field)

def observePublicInputInteger (raw : JsValue) (field : String) : Option Num × List JsString :=
  observe field (readInteger raw field)

/-! ### Votes -/

def stringOf : JsValue → Option JsString
  | .string text => some text
  | _ => none

def admitPublicInputVotePath (voteEntry : JsValue) : Except JsString (List JsString) :=
  match (getArrayProperty voteEntry "merklePath").bind fun merklePath => merklePath.mapM stringOf with
  | none => .error (js "vote_merkle_path")
  | some merklePath =>
    if merklePath.all fun node => isValidHexString node (some 32) then .ok merklePath
    else .error (js "vote_merkle_path_hex")

/-- The vote of an entry that is an object, or the first thing that is wrong with it. -/
def admitVoteFields (voteEntry : JsValue) : Except JsString PublicInputArtifactVote :=
  match (getNumberProperty voteEntry "index").filter fun index => index.isInteger &&
      !index.lt (.ofNat 0) with
  | none => .error (js "vote_index")
  | some index =>
    match (getStringProperty voteEntry "commitment").filter fun commitment =>
        isValidHexString commitment (some 32) with
    | none => .error (js "vote_commitment")
    | some commitment => do
      let merklePath ← admitPublicInputVotePath voteEntry
      return ⟨index, commitment, merklePath⟩

/-- Keys that are not expected do not stop the vote from being read. -/
def admitPublicInputVote (voteEntry : JsValue) : Option PublicInputArtifactVote × List JsString :=
  if ¬ isNonNullObject voteEntry then (none, [js "vote_record"])
  else
    match admitVoteFields voteEntry with
    | .ok vote => (some vote, unexpectedKeys voteEntry publicInputVoteKeys)
    | .error e => (none, unexpectedKeys voteEntry publicInputVoteKeys ++ [e])

/-- The loop over the votes. -/
structure VotesObserved where
  parsedVotes : List PublicInputArtifactVote
  seenIndices : List Num
  seenCommitments : List JsString
  uniqueIndices : Bool
  uniqueCommitments : Bool
  errors : List JsString

def observeVote (o : VotesObserved) (voteEntry : JsValue) : VotesObserved :=
  let (vote, errors) := admitPublicInputVote voteEntry
  match vote with
  | none => { o with errors := o.errors ++ errors }
  | some vote =>
    { parsedVotes := o.parsedVotes ++ [vote]
      seenIndices := setAdd o.seenIndices vote.index
      seenCommitments := setAdd o.seenCommitments (normalizeHexString vote.commitment)
      uniqueIndices := o.uniqueIndices && vote.index ∉ o.seenIndices
      uniqueCommitments := o.uniqueCommitments && normalizeHexString vote.commitment ∉ o.seenCommitments
      errors := o.errors ++ errors }

def observePublicInputVotes (votes : List JsValue) : VotesObserved :=
  votes.foldl observeVote ⟨[], [], [], true, true, []⟩

/-! ### The parser -/

def commitmentVote (vote : PublicInputArtifactVote) : InputCommitmentVote :=
  ⟨vote.index, vote.commitment, vote.merklePath⟩

/-- The commitment is recomputed if there is no error so far; an exception is an error. -/
def observePublicInputCommitment (observed : PublicInputObservedFields) (errors : List JsString)
    (parsedVotes : List PublicInputArtifactVote) : Option JsString × List JsString :=
  match observed.electionId, observed.totalExpected with
  | some electionId, some totalExpected =>
    if errors = [] ∧ parsedVotes.length = observed.votesCount then
      match computeInputCommitmentFromPublicInput noble sha256 {
          electionId := electionId
          bulletinRoot := observed.bulletinRoot
          treeSize := observed.treeSize
          totalExpected := totalExpected
          votes := parsedVotes.map commitmentVote } with
      | .ok commitment => (some commitment, errors)
      | .error _ => (none, errors ++ [js "input_commitment"])
    else (none, errors)
  | _, _ => (none, errors)

def derivePublicInputAuthority (observed : PublicInputObservedFields) (errors : List JsString) :
    Option PublicInputAuthority := do
  if errors ≠ [] then none
  let electionId ← nonEmpty observed.electionId
  let electionConfigHash ← nonEmpty observed.electionConfigHash
  let totalExpected ← observed.totalExpected
  let logId ← nonEmpty observed.logId
  let timestamp ← observed.timestamp
  let methodVersion ← observed.methodVersion
  let recomputedInputCommitment ← nonEmpty observed.recomputedInputCommitment
  return {
    electionId := electionId
    electionConfigHash := electionConfigHash
    methodVersion := methodVersion
    bulletinRoot := observed.bulletinRoot
    treeSize := observed.treeSize
    totalExpected := totalExpected
    votesCount := .ofNat observed.votesCount
    uniqueIndices := observed.uniqueIndices
    uniqueCommitments := observed.uniqueCommitments
    logId := logId
    timestamp := timestamp
    recomputedInputCommitment := recomputedInputCommitment }

def finalizeParsedPublicInput (format : PublicInputArtifactFormat) (provenance : ProvenanceOptions)
    (observed : PublicInputObservedFields) (typedAuthority : Option PublicInputAuthority)
    (errors : List JsString) :
    ParsedPublicInputArtifact :=
  ⟨format, provenance, observed, typedAuthority, errors = [], errors⟩

/-- The fields outside of the votes, and their errors in the order of the source. -/
def observeHeader (raw : JsValue) : PublicInputObservedFields × List JsString :=
  let electionId := observeElectionId raw
  let electionConfigHash := observePublicInputHash raw "electionConfigHash"
  let bulletinRoot := observePublicInputHash raw "bulletinRoot"
  let treeSize := observePublicInputInteger raw "treeSize"
  let totalExpected := observePublicInputInteger raw "totalExpected"
  let logId := observePublicInputHash raw "logId"
  let timestamp := observePublicInputInteger raw "timestamp"
  let methodVersion := observePublicInputInteger raw "methodVersion"
  ({ initialObserved with
      electionId := electionId.1
      electionConfigHash := electionConfigHash.1
      bulletinRoot := bulletinRoot.1.getD emptyHex32
      treeSize := treeSize.1.getD (.ofNat 0)
      totalExpected := totalExpected.1
      logId := logId.1
      timestamp := timestamp.1
      methodVersion := methodVersion.1 },
    electionId.2 ++ electionConfigHash.2 ++ bulletinRoot.2 ++ treeSize.2 ++ totalExpected.2 ++ logId.2 ++
      timestamp.2 ++ methodVersion.2)

def parsePublicInputArtifact (raw : JsValue) (options : ProvenanceOptions) : ParsedPublicInputArtifact :=
  if ¬ isNonNullObject raw then
    finalizeParsedPublicInput ⟨none, none⟩ options initialObserved none [js "public_input_not_record"]
  else
    let format := observePublicInputFormat raw
    let header := observeHeader raw
    let headerErrors := unexpectedKeys raw publicInputKeys ++ format.2 ++ header.2
    match getArrayProperty raw "votes" with
    | none => finalizeParsedPublicInput format.1 options header.1 none (headerErrors ++ [js "votes"])
    | some votes =>
      let read := observePublicInputVotes votes
      let observed := { header.1 with
        votesCount := votes.length
        uniqueIndices := read.uniqueIndices
        uniqueCommitments := read.uniqueCommitments }
      let commitment :=
        observePublicInputCommitment noble sha256 observed (headerErrors ++ read.errors) read.parsedVotes
      let observed := { observed with recomputedInputCommitment := commitment.1 }
      finalizeParsedPublicInput format.1 options observed
        (derivePublicInputAuthority observed commitment.2) commitment.2

/-! ### Supported artifacts -/

def toSupportedPublicInputArtifact (parsed : ParsedPublicInputArtifact) :
    Option SupportedPublicInputArtifact :=
  match parsed.typedAuthority, parsed.provenance.source with
  | some typedAuthority, some source =>
    if parsed.valid ∧ parsed.format.schema = some publicInputSchema ∧
        parsed.format.version = some publicInputVersion then
      some ⟨⟨source, parsed.provenance.finalizationId, parsed.provenance.bundleKey⟩, typedAuthority⟩
    else none
  | _, _ => none

/-- `options` has no source. -/
def buildSupportedPublicInputArtifactFromZkvmInput (input : ZkVMInput) (methodVersion : Num)
    (finalizationId bundleKey : Option JsString) : JsM SupportedPublicInputArtifact :=
  let parsed :=
    parsePublicInputArtifact noble sha256
      (buildPublicInputArtifactFromZkvmInput input methodVersion).toValue
    ⟨some .generated, finalizationId, bundleKey⟩
  match toSupportedPublicInputArtifact parsed with
  | some supported => .ok supported
  | none => .error (.error ("Generated public-input contract was invalid: " ++
      if parsed.errors = [] then "unknown error"
        else String.ofList ((js ", ").intercalate parsed.errors)))

def parseSupportedPublicInputArtifact (raw : JsValue) (options : PublicInputArtifactProvenance) :
    Option SupportedPublicInputArtifact :=
  toSupportedPublicInputArtifact (parsePublicInputArtifact noble sha256 raw
    ⟨some options.source, options.finalizationId, options.bundleKey⟩)

/-! ### The stored form -/

def storedPublicInputKeys : List JsString := ["format", "provenance", "typedAuthority"].map js

def publicInputFormatKeys : List JsString := ["schema", "version"].map js

def publicInputProvenanceKeys : List JsString := ["source", "finalizationId", "bundleKey"].map js

def publicInputAuthorityKeys : List JsString :=
  ["electionId", "electionConfigHash", "methodVersion", "bulletinRoot", "treeSize", "totalExpected",
    "votesCount", "uniqueIndices", "uniqueCommitments", "logId", "timestamp",
    "recomputedInputCommitment"].map js

def sourceText : PublicInputArtifactSource → JsString
  | .bundle => js "bundle"
  | .generated => js "generated"

def storedProvenance (provenance : PublicInputArtifactProvenance) : JsValue :=
  .object ((js "source", .string (sourceText provenance.source)) ::
    (provenance.finalizationId.toList.map (fun value => (js "finalizationId", .string value)) ++
      provenance.bundleKey.toList.map fun value => (js "bundleKey", .string value)))

def storedAuthority (authority : PublicInputAuthority) : JsValue :=
  .object [(js "electionId", .string authority.electionId),
    (js "electionConfigHash", .string authority.electionConfigHash),
    (js "methodVersion", .number authority.methodVersion),
    (js "bulletinRoot", .string authority.bulletinRoot), (js "treeSize", .number authority.treeSize),
    (js "totalExpected", .number authority.totalExpected),
    (js "votesCount", .number authority.votesCount),
    (js "uniqueIndices", .boolean authority.uniqueIndices),
    (js "uniqueCommitments", .boolean authority.uniqueCommitments),
    (js "logId", .string authority.logId), (js "timestamp", .number authority.timestamp),
    (js "recomputedInputCommitment", .string authority.recomputedInputCommitment)]

/-- A supported artifact as the value that is stored. -/
def storedPublicInput (artifact : SupportedPublicInputArtifact) : JsValue :=
  .object [(js "format", .object [(js "schema", .string publicInputSchema),
    (js "version", .string publicInputVersion)]),
    (js "provenance", storedProvenance artifact.provenance),
    (js "typedAuthority", storedAuthority artifact.typedAuthority)]

def admitStoredInputRecord (allowedKeys : List JsString) (value : JsValue) : Option JsValue :=
  if isNonNullObject value ∧ ¬ isArray value ∧ unexpectedKeys value allowedKeys = [] then
    some value else none

def hasCurrentPublicInputFormat (format : JsValue) : Bool :=
  getStringProperty format "schema" = some publicInputSchema ∧
    getStringProperty format "version" = some publicInputVersion

def sourceOf (text : JsString) : Option PublicInputArtifactSource :=
  if text = js "bundle" then some .bundle else if text = js "generated" then some .generated else none

def admitStoredPublicInputAuthority (record : JsValue) : Option PublicInputAuthority := do
  let electionId ← nonEmpty (getStringProperty record "electionId")
  let electionConfigHash ← readHash record "electionConfigHash"
  let methodVersion ← readInteger record "methodVersion"
  let bulletinRoot ← readHash record "bulletinRoot"
  let treeSize ← readInteger record "treeSize"
  let totalExpected ← readInteger record "totalExpected"
  let logId ← readHash record "logId"
  let timestamp ← readInteger record "timestamp"
  let votesCount ← readInteger record "votesCount"
  let uniqueIndices ← getBooleanProperty record "uniqueIndices"
  let uniqueCommitments ← getBooleanProperty record "uniqueCommitments"
  let recomputedInputCommitment ← readHash record "recomputedInputCommitment"
  return {
    electionId := electionId
    electionConfigHash := electionConfigHash
    methodVersion := methodVersion
    bulletinRoot := bulletinRoot
    treeSize := treeSize
    totalExpected := totalExpected
    votesCount := votesCount
    uniqueIndices := uniqueIndices
    uniqueCommitments := uniqueCommitments
    logId := logId
    timestamp := timestamp
    recomputedInputCommitment := recomputedInputCommitment }

def parseStoredPublicInputArtifact (value : JsValue) : Option SupportedPublicInputArtifact := do
  let record ← admitStoredInputRecord storedPublicInputKeys value
  let format ← (getObjectProperty record "format").bind (admitStoredInputRecord publicInputFormatKeys)
  let provenance ← (getObjectProperty record "provenance").bind
      (admitStoredInputRecord publicInputProvenanceKeys)
  let authorityRecord ← (getObjectProperty record "typedAuthority").bind
      (admitStoredInputRecord publicInputAuthorityKeys)
  if ¬ hasCurrentPublicInputFormat format then none
  let source ← (getStringProperty provenance "source").bind sourceOf
  let typedAuthority ← admitStoredPublicInputAuthority authorityRecord
  return ⟨⟨source, nonEmpty (getStringProperty provenance "finalizationId"),
    nonEmpty (getStringProperty provenance "bundleKey")⟩, typedAuthority⟩

end StarkBallot.Verification.PublicInput
