import StarkBallot.Application.FinalizeAsync
import StarkBallot.Domain.PersistedHistory
import StarkBallot.Schemes.Codecs
import StarkBallot.Validation.UnknownValues

/-! Messages for the prover (`aws-adapters/src/sqs/proverWorkMessage.ts`, `publishProverWorkMessage.ts`,
    `finalize/artifact-key-layout.ts`). The publisher puts a work item into a payload, parses the
    payload itself and sends what the parser returned; the worker parses the text of the message again.

        work item ──payload──▶ value ──parse──▶ message ──JSON──▶ value ──parse──▶ message

    Fields that a record may not have are refused by name, byte strings are rewritten to one spelling. -/

namespace StarkBallot.AwsAdapters
open Schemes Validation CryptoPrimitives ZkvmContract Domain Application

/-! ### The message -/

/-- Where the worker finds the input, and where it puts the result. -/
inductive ProverWorkInput where
  | inline (zkvmInput : ZkVMInput) (zkvmInputCommitment : Option JsString)
      (electionConfig : ElectionConfig)
  | s3 (inputS3Key outputS3Prefix bundleS3Key : JsString)

structure ProverWorkMessage where
  sessionId : JsString
  finalizationId : JsString
  queuedAtMs : Num
  expectedImageId : JsString
  scenarios : List FinalizationScenarioCode
  simulateTampering : Bool
  scenarioContext : FinalizationScenarioContext
  input : ProverWorkInput

def proverWorkRecordType : JsString := js "prover-work"

def scenarioCodes : List FinalizationScenarioCode := [.s0, .s1, .s2, .s3, .s4, .s5]

def scenarioText : FinalizationScenarioCode → JsString
  | .s0 => js "S0"
  | .s1 => js "S1"
  | .s2 => js "S2"
  | .s3 => js "S3"
  | .s4 => js "S4"
  | .s5 => js "S5"

def choiceText : VoteChoice → JsString
  | .a => js "A"
  | .b => js "B"
  | .c => js "C"
  | .d => js "D"
  | .e => js "E"

def tamperModes : List ScenarioTamperMode := [.none, .input, .claim]

def tamperModeText : ScenarioTamperMode → JsString
  | .none => js "none"
  | .input => js "input"
  | .claim => js "claim"

def inputSources : List InputSource := [.inline, .s3]

def inputSourceText : InputSource → JsString
  | .inline => js "inline"
  | .s3 => js "s3"

/-! ### Keys -/

def commonMessageKeys : List String :=
  ["recordType", "inputSource", "sessionId", "finalizationId", "queuedAtMs", "expectedImageId",
    "scenarios", "simulateTampering", "scenarioContext"]

def inlineMessageKeys : List String :=
  commonMessageKeys ++ ["zkvmInput", "zkvmInputCommitment", "electionConfig"]

def s3MessageKeys : List String := commonMessageKeys ++ ["inputS3Key", "outputS3Prefix", "bundleS3Key"]

def zkvmInputKeys : List String :=
  ["electionId", "bulletinRoot", "treeSize", "logId", "timestamp", "totalExpected",
    "electionConfigHash", "votes"]

def voteKeys : List String := ["commitment", "choice", "random", "index", "merklePath"]

def electionConfigKeys : List String :=
  ["totalExpected", "choices", "version", "botCount", "merkleTreeDepth"]

def scenarioContextKeys : List String :=
  ["scenarios", "tamperMode", "claimedCounts", "claimedTotalVotes", "summary"]

def claimedCountsKeys : List String := ["A", "B", "C", "D", "E"]

def scenarioSummaryKeys : List String :=
  ["ignoredCount", "recountedCount", "userRecountChoice", "affectedBotIds"]

/-! ### Values -/

def assertRecord (value : JsValue) (label : String) : JsM JsValue := do
  refuseIf (¬ isNonNullObject value ∨ isArray value) (.error s!"{label} must be an object")
  return value

def assertOnlyKeys (value : JsValue) (allowed : List String) (label : String) : JsM Unit :=
  (objectKeys value).forM fun key =>
    refuseIf (key ∉ allowed.map js) (.error s!"{label} contains unsupported field {String.ofList key}")

def parseNonEmptyString (value : JsValue) (label : String) : JsM JsString :=
  match value with
  | .string text => if text = [] then .error (.error s!"{label} is required") else .ok text
  | _ => .error (.error s!"{label} is required")

/-- `{ positive: true }` or `{ min }`. -/
inductive IntegerBound where
  | positive
  | atLeast (min : ℕ)

def IntegerBound.min : IntegerBound → ℕ
  | positive => 1
  | atLeast min => min

def IntegerBound.text : IntegerBound → String
  | positive => "positive"
  | atLeast min => s!"at least {min}"

def parseInteger (value : JsValue) (label : String) (bound : IntegerBound) : JsM Num :=
  match value with
  | .number n =>
    if ¬ n.isInteger then .error (.error s!"{label} must be an integer")
    else if n.lt (.ofNat bound.min) then .error (.error s!"{label} must be {bound.text}")
    else .ok n
  | _ => .error (.error s!"{label} must be an integer")

def parseBoolean (value : JsValue) (label : String) : JsM Bool :=
  match value with
  | .boolean b => .ok b
  | _ => .error (.error s!"{label} must be a boolean")

def parseHexString (value : JsValue) (bytes : ℕ) (label : String) : JsM JsString := do
  let raw ← parseNonEmptyString value label
  let normalized := addHexPrefix (normalizeHexString raw)
  refuseIf (¬ isValidHexString normalized (some bytes))
    (.error s!"{label} must be a {bytes * 2}-character hex string")
  return normalized

structure SegmentOptions where
  uuid : Bool := false
  minLength : Option ℕ := none

def parseSafeSegment (value : JsValue) (label : String) (options : SegmentOptions) : JsM JsString := do
  let parsed ← parseNonEmptyString value label
  refuseIf (options.uuid ∧ ¬ isUuid parsed) (.error s!"{label} must be a UUID")
  refuseIf (options.minLength.any (parsed.length < ·))
    (.error s!"{label} must be at least {options.minLength.getD 0} characters")
  refuseIf (¬ isSafeVerifierSegment parsed) (.error s!"{label} must be a safe single path segment")
  return parsed

/-- One of the options, by its text. -/
def parseOption {α : Type} (options : List α) (text : α → JsString) (value : JsValue) (error : String) :
    JsM α :=
  match value with
  | .string given =>
    match options.find? fun option => text option = given with
    | some option => .ok option
    | none => .error (.error error)
  | _ => .error (.error error)

/-- A value that may be missing. -/
def ifDefined {α : Type} (read : JsValue → JsM α) : JsValue → JsM (Option α)
  | .undefined => .ok none
  | value => some <$> read value

def parseScenarioCode (value : JsValue) (label : String) : JsM FinalizationScenarioCode :=
  parseOption scenarioCodes scenarioText value s!"{label} must be S0-S5"

def parseScenarioCodes (value : JsValue) : JsM (List FinalizationScenarioCode) :=
  match value with
  | .array elements =>
      readEach (fun index entry => parseScenarioCode entry s!"scenarios.{index}") 0 elements
  | _ => .error (.error "scenarios must be an array")

/-! ### The input -/

def parseMerklePath (value : JsValue) : JsM (List JsString) :=
  match value with
  | .array elements =>
      readEach (fun index entry => parseHexString entry 32 s!"merklePath.{index}") 0 elements
  | _ => .error (.error "merklePath must be an array")

/-- The path has to be an array before anything else of the vote is read. -/
def parseVoteWithProof (value : JsValue) : JsM ZkVMInput.VoteWithProof := do
  let record ← assertRecord value "vote"
  assertOnlyKeys record voteKeys "vote"
  refuseIf (¬ isArray (property record "merklePath")) (.error "merklePath must be an array")
  let commitment ← parseHexString (property record "commitment") 32 "commitment"
  let choice ← parseInteger (property record "choice") "choice" (.atLeast 0)
  let random ← parseHexString (property record "random") 32 "random"
  let index ← parseInteger (property record "index") "index" (.atLeast 0)
  let merklePath ← parseMerklePath (property record "merklePath")
  return ⟨commitment, choice, random, index, merklePath⟩

def parseVotes (votes : List JsValue) : JsM (List ZkVMInput.VoteWithProof) :=
  readEach (fun _ vote => parseVoteWithProof vote) 0 votes

/-- The array, if it is one and has an entry. -/
def nonEmptyArray (value : JsValue) (error : String) : JsM (List JsValue) :=
  match value with
  | .array elements => if elements.length = 0 then .error (.error error) else .ok elements
  | _ => .error (.error error)

def parseZkvmInputRecord (value : JsValue) : JsM ZkVMInput := do
  let record ← assertRecord value "zkvmInput"
  assertOnlyKeys record zkvmInputKeys "zkvmInput"
  let votes ← nonEmptyArray (property record "votes") "votes must contain at least one entry"
  let electionId ← parseSafeSegment (property record "electionId") "electionId" { uuid := true }
  let bulletinRoot ← parseHexString (property record "bulletinRoot") 32 "bulletinRoot"
  let treeSize ← parseInteger (property record "treeSize") "treeSize" .positive
  let logId ← parseHexString (property record "logId") 32 "logId"
  let timestamp ← parseInteger (property record "timestamp") "timestamp" (.atLeast 0)
  let totalExpected ← parseInteger (property record "totalExpected") "totalExpected" .positive
  let electionConfigHash ← parseHexString (property record "electionConfigHash") 32 "electionConfigHash"
  let parsedVotes ← parseVotes votes
  let parsedInput : ZkVMInput :=
    ⟨electionId, bulletinRoot, treeSize, logId, timestamp, totalExpected, electionConfigHash,
      parsedVotes⟩
  assertZkvmWireNumericPreflight parsedInput
  return parsedInput

def parseZkvmInput : JsValue → JsM (Option ZkVMInput) := ifDefined parseZkvmInputRecord

/-! ### The configuration -/

def stringOf : JsValue → JsM JsString
  | .string text => .ok text
  | _ => .error (.error "choices must not be empty")

def parseElectionConfigRecord (value : JsValue) : JsM ElectionConfig := do
  let record ← assertRecord value "electionConfig"
  assertOnlyKeys record electionConfigKeys "electionConfig"
  let choices ← nonEmptyArray (property record "choices") "choices must not be empty"
  let choices ← readEach (fun _ choice => stringOf choice) 0 choices
  let totalExpected ← parseInteger (property record "totalExpected") "totalExpected" .positive
  let version ← parseNonEmptyString (property record "version") "version"
  let botCount ← parseInteger (property record "botCount") "botCount" (.atLeast 0)
  let merkleTreeDepth ← parseInteger (property record "merkleTreeDepth") "merkleTreeDepth" .positive
  return ⟨totalExpected, choices, version, botCount, merkleTreeDepth⟩

def parseElectionConfig : JsValue → JsM (Option ElectionConfig) := ifDefined parseElectionConfigRecord

/-! ### The scenario -/

def parseClaimedCounts (value : JsValue) : JsM Counts := do
  let record ← assertRecord value "claimedCounts"
  assertOnlyKeys record claimedCountsKeys "claimedCounts"
  let a ← parseInteger (property record "A") "claimedCounts.A" (.atLeast 0)
  let b ← parseInteger (property record "B") "claimedCounts.B" (.atLeast 0)
  let c ← parseInteger (property record "C") "claimedCounts.C" (.atLeast 0)
  let d ← parseInteger (property record "D") "claimedCounts.D" (.atLeast 0)
  let e ← parseInteger (property record "E") "claimedCounts.E" (.atLeast 0)
  return #v[a, b, c, d, e]

def parseTamperMode (value : JsValue) : JsM ScenarioTamperMode :=
  parseOption tamperModes tamperModeText value "tamperMode must be none, input, or claim"

def parseUserRecountChoice : JsValue → JsM (Option VoteChoice)
  | .null => .ok none
  | value =>
    some <$>
      parseOption Domain.voteChoices choiceText value "userRecountChoice must be a vote choice or null"

def parseAffectedBotIds (value : JsValue) : JsM (Option (List Num)) :=
  match value with
  | .array elements =>
    some <$> readEach (fun index entry => parseInteger entry s!"affectedBotIds.{index}" (.atLeast 0)) 0
      elements
  | _ => .ok none

def parseScenarioContextRecord (value : JsValue) : JsM FinalizationScenarioContext := do
  let record ← assertRecord value "scenarioContext"
  assertOnlyKeys record scenarioContextKeys "scenarioContext"
  let summary ← assertRecord (property record "summary") "summary"
  assertOnlyKeys summary scenarioSummaryKeys "summary"
  let affectedBotIds := property summary "affectedBotIds"
  refuseIf (¬ affectedBotIds.isUndefined ∧ ¬ isArray affectedBotIds)
    (.error "affectedBotIds must be an array")
  let scenarios ← parseScenarioCodes (property record "scenarios")
  let tamperMode ← parseTamperMode (property record "tamperMode")
  let claimedCounts ← parseClaimedCounts (property record "claimedCounts")
  let claimedTotalVotes ← parseInteger (property record "claimedTotalVotes") "claimedTotalVotes"
      (.atLeast 0)
  let ignoredCount ← parseInteger (property summary "ignoredCount") "ignoredCount" (.atLeast 0)
  let recountedCount ← parseInteger (property summary "recountedCount") "recountedCount" (.atLeast 0)
  let userRecountChoice ← parseUserRecountChoice (property summary "userRecountChoice")
  let affectedBotIds ← parseAffectedBotIds affectedBotIds
  return {
    scenarios := scenarios.map scenarioText
    tamperMode, claimedCounts, claimedTotalVotes, ignoredCount, recountedCount, userRecountChoice,
      affectedBotIds }

def parseScenarioContext : JsValue → JsM (Option FinalizationScenarioContext) :=
  ifDefined parseScenarioContextRecord

/-! ### The parser -/

def parseOptionalHexString (value : JsValue) (bytes : ℕ) (label : String) : JsM (Option JsString) :=
  ifDefined (fun value => parseHexString value bytes label) value

def asSessionId (value : JsString) : JsM JsString := do
  refuseIf (¬ isSafeVerifierSegment value)
    (.error "sessionId must contain only letters, numbers, or hyphens")
  return value

def asFinalizationId (value : JsString) : JsM JsString := do
  refuseIf (¬ isSafeVerifierSegment value) (.error "Invalid finalizationId")
  return value

def parseInlineInput (record : JsValue) : JsM ProverWorkInput := do
  let zkvmInput ← parseZkvmInput (property record "zkvmInput")
  let electionConfig ← parseElectionConfig (property record "electionConfig")
  match zkvmInput, electionConfig with
  | some zkvmInput, some electionConfig =>
    let zkvmInputCommitment ← parseOptionalHexString (property record "zkvmInputCommitment") 32
        "zkvmInputCommitment"
    return .inline zkvmInput (nonEmpty zkvmInputCommitment) electionConfig
  | _, _ => .error (.error "Inline prover input requires zkvmInput and electionConfig")

def parseS3Input (record : JsValue) : JsM ProverWorkInput := do
  let inputS3Key ← parseNonEmptyString (property record "inputS3Key") "inputS3Key"
  let outputS3Prefix ← parseNonEmptyString (property record "outputS3Prefix") "outputS3Prefix"
  let bundleS3Key ← parseNonEmptyString (property record "bundleS3Key") "bundleS3Key"
  return .s3 inputS3Key outputS3Prefix bundleS3Key

def parseInputSource (value : JsValue) : JsM InputSource :=
  parseOption inputSources inputSourceText value "inputSource must be inline or s3"

def messageKeys : InputSource → List String
  | .inline => inlineMessageKeys
  | .s3 => s3MessageKeys

def parseInput (record : JsValue) : InputSource → JsM ProverWorkInput
  | .inline => parseInlineInput record
  | .s3 => parseS3Input record

def parseProverWorkMessage (input : JsValue) : JsM ProverWorkMessage := do
  let record ← assertRecord input "Prover work message"
  refuseIf (getStringProperty record "recordType" ≠ some proverWorkRecordType)
    (.error "recordType must be prover-work")
  let inputSource ← parseInputSource (property record "inputSource")
  assertOnlyKeys record (messageKeys inputSource) "Prover work message"
  match ← parseScenarioContext (property record "scenarioContext") with
  | none => .error (.error "scenarioContext is required")
  | some scenarioContext =>
    let sessionId ← asSessionId
        (← parseSafeSegment (property record "sessionId") "sessionId" { uuid := true })
    let finalizationId ← asFinalizationId
      (← parseSafeSegment (property record "finalizationId") "finalizationId" { minLength := some 10 })
    let queuedAtMs ← parseInteger (property record "queuedAtMs") "queuedAtMs" (.atLeast 0)
    let expectedImageId ← parseHexString (property record "expectedImageId") 32 "expectedImageId"
    let scenarios ← parseScenarioCodes (property record "scenarios")
    let simulateTampering ← parseBoolean (property record "simulateTampering") "simulateTampering"
    let input ← parseInput record inputSource
    return {
      sessionId, finalizationId, queuedAtMs, expectedImageId, scenarios, simulateTampering,
        scenarioContext, input }

/-! ### Messages as values -/

def voteValue (vote : ZkVMInput.VoteWithProof) : JsValue :=
  .object [(js "commitment", .string vote.commitment), (js "choice", .number vote.choice),
    (js "random", .string vote.random), (js "index", .number vote.index),
    (js "merklePath", .array (vote.merklePath.map .string))]

def zkvmInputValue (input : ZkVMInput) : JsValue :=
  .object [(js "electionId", .string input.electionId), (js "bulletinRoot", .string input.bulletinRoot),
    (js "treeSize", .number input.treeSize), (js "logId", .string input.logId),
    (js "timestamp", .number input.timestamp), (js "totalExpected", .number input.totalExpected),
    (js "electionConfigHash", .string input.electionConfigHash),
    (js "votes", .array (input.votes.map voteValue))]

def electionConfigValue (config : ElectionConfig) : JsValue :=
  .object [(js "totalExpected", .number config.totalExpected),
    (js "choices", .array (config.choices.map .string)), (js "version", .string config.version),
    (js "botCount", .number config.botCount), (js "merkleTreeDepth", .number config.merkleTreeDepth)]

def claimedCountsValue (counts : Counts) : JsValue :=
  .object [(js "A", .number counts[0]), (js "B", .number counts[1]), (js "C", .number counts[2]),
    (js "D", .number counts[3]), (js "E", .number counts[4])]

/-- A property that is left out where there is nothing. -/
def optionalField (key : String) (value : Option JsValue) : List (JsString × JsValue) :=
  value.toList.map fun value => (js key, value)

def scenarioSummaryValue (context : FinalizationScenarioContext) : JsValue :=
  .object ([(js "ignoredCount", .number context.ignoredCount),
    (js "recountedCount", .number context.recountedCount),
      (js "userRecountChoice", (context.userRecountChoice.map fun choice => .string
        (choiceText choice)).getD .null)] ++
          optionalField "affectedBotIds"
            (context.affectedBotIds.map fun ids => .array (ids.map .number)))

def scenarioContextValue (context : FinalizationScenarioContext) : JsValue :=
  .object [(js "scenarios", .array (context.scenarios.map .string)),
    (js "tamperMode", .string (tamperModeText context.tamperMode)),
    (js "claimedCounts", claimedCountsValue context.claimedCounts),
    (js "claimedTotalVotes", .number context.claimedTotalVotes),
    (js "summary", scenarioSummaryValue context)]

def ProverWorkInput.source : ProverWorkInput → InputSource
  | .inline _ _ _ => .inline
  | .s3 _ _ _ => .s3

def inputFields : ProverWorkInput → List (JsString × JsValue)
  | .inline zkvmInput zkvmInputCommitment electionConfig =>
    (js "zkvmInput", zkvmInputValue zkvmInput) ::
      (optionalField "zkvmInputCommitment" (zkvmInputCommitment.map .string) ++
        [(js "electionConfig", electionConfigValue electionConfig)])
  | .s3 inputS3Key outputS3Prefix bundleS3Key =>
    [(js "inputS3Key", .string inputS3Key), (js "outputS3Prefix", .string outputS3Prefix),
      (js "bundleS3Key", .string bundleS3Key)]

def messageValue (message : ProverWorkMessage) : JsValue :=
  .object ([(js "recordType", .string proverWorkRecordType),
    (js "inputSource", .string (inputSourceText message.input.source)),
    (js "sessionId", .string message.sessionId), (js "finalizationId", .string message.finalizationId),
    (js "queuedAtMs", .number message.queuedAtMs),
    (js "expectedImageId", .string message.expectedImageId),
    (js "scenarios", .array (message.scenarios.map fun code => .string (scenarioText code))),
    (js "simulateTampering", .boolean message.simulateTampering),
    (js "scenarioContext", scenarioContextValue message.scenarioContext)] ++ inputFields message.input)

/-! ### The publisher -/

/-- `trim`. -/
def trimmed (value : JsString) : JsString :=
  ((value.dropWhile UnknownHistory.isWhitespace).reverse.dropWhile UnknownHistory.isWhitespace).reverse

def normalizePrefix (keyPrefix : JsString) : JsString :=
  let trimmed := (((trimmed keyPrefix).dropWhile (· = '/')).reverse.dropWhile (· = '/')).reverse
  if trimmed = [] then [] else trimmed ++ js "/"

def asS3Key (value : JsString) : JsM JsString := do
  refuseIf (value.length = 0) (.error "s3Key must not be empty")
  refuseIf (value.take 1 = js "/" ∨ js "//" <:+: value) (.error "s3Key must be a relative object key")
  return value

structure FinalizationArtifactS3Keys where
  inputS3Key : JsString
  outputS3Prefix : JsString
  bundleS3Key : JsString
  reportS3Key : JsString

def assertSafeVerifierSegment (value : JsString) (label : String) : JsM Unit :=
  refuseIf (¬ isSafeVerifierSegment value) (.error s!"{label} must be a safe single path segment")

def buildFinalizationArtifactS3Keys (sessionId finalizationId keyPrefix : JsString) :
    JsM FinalizationArtifactS3Keys := do
  assertSafeVerifierSegment sessionId "sessionId"
  assertSafeVerifierSegment finalizationId "finalizationId"
  let baseKey := normalizePrefix keyPrefix ++ sessionId ++ js "/" ++ finalizationId
  return {
    inputS3Key := ← asS3Key (baseKey ++ js "/input.json")
    outputS3Prefix := ← asS3Key baseKey
    bundleS3Key := ← asS3Key (baseKey ++ js "/bundle.zip")
    reportS3Key := ← asS3Key (baseKey ++ js "/verification.json") }

def payloadInput (keyPrefix : JsString) (message : FinalizationWorkItem) : JsM ProverWorkInput :=
  match message.source with
  | .inline zkvmInput zkvmInputCommitment electionConfig =>
    .ok (.inline zkvmInput (some zkvmInputCommitment) electionConfig)
  | .s3 => do
    let keys ← buildFinalizationArtifactS3Keys message.sessionId message.finalizationId keyPrefix
    return .s3 keys.inputS3Key keys.outputS3Prefix keys.bundleS3Key

/-- The payload is a message that nobody has parsed yet. -/
def proverWorkPayload (keyPrefix : JsString) (message : FinalizationWorkItem) :
    JsM ProverWorkMessage := do
  let input ← payloadInput keyPrefix message
  return {
    sessionId := message.sessionId
    finalizationId := message.finalizationId
    queuedAtMs := message.queuedAtMs
    expectedImageId := message.expectedImageId
    scenarios := message.scenarios
    simulateTampering := message.simulateTampering
    scenarioContext := message.scenarioContext
    input := input }

/-- What the worker gets when it reads the text that was sent. -/
def publishProverWorkMessage (keyPrefix : JsString) (message : FinalizationWorkItem) : JsM JsValue := do
  let payload ← proverWorkPayload keyPrefix message
  let parsedMessage ← parseProverWorkMessage (messageValue payload)
  (messageValue parsedMessage).viaJson

end StarkBallot.AwsAdapters
