import StarkBallot.Application.FinalizationStorage

/-! Verification results and their records (`verification/src/shared/types.ts`,
    `verifier-service-report.ts`, `application/src/finalize/finalization-storage.ts`,
    `finalization-result-store.ts`). A result is a status with the report of the verifier, if it has
    run. The report is terminal and of the same status. Parsing a result checks it and leaves it as it
    is, so what was admitted once is admitted again. -/

namespace StarkBallot.Application
open Schemes Domain

/-! ### Reports -/

inductive VerifierReportStatus where
  | success | devMode | failed
  deriving DecidableEq

structure VerifierServiceReport where
  status : VerifierReportStatus
  verifierVersion : JsString
  verifiedAt : JsString
  durationMs : Num
  expectedImageId : JsString
  receiptImageId : Option JsString
  devModeReceipt : Bool
  errors : Option (List JsString)
  deriving DecidableEq

/-- `/^0x[0-9a-f]{64}$/`. -/
def matchesImageIdPattern (value : JsString) : Bool :=
  value.take 2 = js "0x" && (value.drop 2).length = 64 && (value.drop 2).all isHexDigit

/-- `\d{count}` at a place of the text. -/
def hasDigitsAt (value : JsString) (start count : ℕ) : Bool :=
  let digits := (value.drop start).take count
  digits.length = count && digits.all Char.isDigit

def numberAt (value : JsString) (start count : ℕ) : ℕ :=
  ((value.drop start).take count).foldl (fun number digit => 10 * number + (digit.toNat - '0'.toNat)) 0

def isLeapYear (year : ℕ) : Bool := year % 4 = 0 && (year % 100 ≠ 0 || year % 400 = 0)

def isValidCalendarDate (year month day : ℕ) : Bool :=
  let daysByMonth := [31, if isLeapYear year then 29 else 28, 31, 30, 31, 30, 31, 31, 30, 31, 30, 31]
  1 ≤ month && (daysByMonth[month - 1]?).any fun maximumDay => 1 ≤ day && day ≤ maximumDay

/-- `(?:\.\d{1,9})?`, and what comes after it. -/
def afterFraction : JsString → Option JsString
  | '.' :: rest =>
    let digits := rest.takeWhile Char.isDigit
    if 1 ≤ digits.length ∧ digits.length ≤ 9 then some (rest.drop digits.length) else none
  | rest => some rest

/-- `(Z|[+-](\d{2}):(\d{2}))$` within the bounds of an offset. -/
def isTimestampOffset (value : JsString) : Bool :=
  value = js "Z" ||
    ((value.head? = some '+' || value.head? = some '-') && value.length = 6 && hasDigitsAt value 1 2 &&
    value[3]? = some ':' && hasDigitsAt value 4 2 && numberAt value 1 2 ≤ 23 && numberAt value 4 2 ≤ 59)

def isRfc3339Timestamp (value : JsString) : Bool :=
  hasDigitsAt value 0 4 && value[4]? = some '-' && hasDigitsAt value 5 2 && value[7]? = some '-' &&
  hasDigitsAt value 8 2 && value[10]? = some 'T' && hasDigitsAt value 11 2 && value[13]? = some ':' &&
  hasDigitsAt value 14 2 && value[16]? = some ':' && hasDigitsAt value 17 2 &&
  isValidCalendarDate (numberAt value 0 4) (numberAt value 5 2) (numberAt value 8 2) &&
  numberAt value 11 2 ≤ 23 && numberAt value 14 2 ≤ 59 && numberAt value 17 2 ≤ 59 &&
  (afterFraction (value.drop 19)).any isTimestampOffset

/-- A nonempty list of nonempty texts. -/
def areVerifierErrors (errors : List JsString) : Bool := errors ≠ [] && errors.all (· ≠ [])

/-- What the schema of each status asks for. -/
def hasReceiptShape (report : VerifierServiceReport) : Bool :=
  match report.status with
  | .success =>
    report.receiptImageId = some report.expectedImageId && !report.devModeReceipt && report.errors.isNone
  | .devMode =>
    report.receiptImageId.all (· = report.expectedImageId) && report.devModeReceipt &&
      report.errors.all areVerifierErrors
  | .failed => report.receiptImageId.all matchesImageIdPattern && report.errors.any areVerifierErrors

def parseVerifierServiceReport : VerifierServiceReport → Option VerifierServiceReport :=
  accept fun report =>
  report.verifierVersion ≠ [] && isRfc3339Timestamp report.verifiedAt &&
  isIntegerUpTo Num.maxSafeInteger report.durationMs && matchesImageIdPattern report.expectedImageId &&
  hasReceiptShape report

/-! ### Results -/

inductive VerificationStatus where
  | notRun | running | success | failed | devMode
  deriving DecidableEq

inductive VerificationFailureCategory where
  | none | verifierCrash | corruptBundle | s3Denied | s3Missing | timeout | unknown
  deriving DecidableEq

structure VerificationResult where
  status : VerificationStatus
  report : Option VerifierServiceReport := none
  failureCategory : Option VerificationFailureCategory := none
  deriving DecidableEq

def VerifierReportStatus.toVerificationStatus : VerifierReportStatus → VerificationStatus
  | .success => .success
  | .devMode => .devMode
  | .failed => .failed

/-- Which parts a status may have. -/
def buildVerificationOutcome (result : VerificationResult) : Bool :=
  match result.status with
  | .failed =>
    result.report.all (fun report => report.status = .failed) && result.failureCategory ≠ some .none
  | status => result.failureCategory.all (· = .none) &&
    result.report.all fun report => report.status.toVerificationStatus = status

def parseVerificationResult : VerificationResult → Option VerificationResult := accept fun result =>
  result.report.all (fun report => (parseVerifierServiceReport report).isSome) &&
    buildVerificationOutcome result

structure VerificationResultRecord where
  sessionId : JsString
  finalizationId : JsString
  verificationResult : VerificationResult
  deriving DecidableEq

def parseVerificationResultRecord : VerificationResultRecord → Option VerificationResultRecord :=
  accept fun record =>
  isSafeVerifierSegment record.sessionId && isSafeVerifierSegment record.finalizationId &&
  (parseVerificationResult record.verificationResult).isSome

def isTerminalVerificationStatus (status : VerificationStatus) : Bool :=
  status = .success || status = .failed || status = .devMode

def createVerificationResultRecord (sessionId finalizationId : JsString)
    (verificationResult : VerificationResult) :
    JsM VerificationResultRecord :=
  okOr (parseVerificationResultRecord ⟨sessionId, finalizationId, verificationResult⟩)
    (.error "Invalid verification result record")

/-- A record whose verification has come to an end. -/
def VerificationResultRecord.isTerminal (record : VerificationResultRecord) : Bool :=
  isTerminalVerificationStatus record.verificationResult.status

theorem createVerificationResultRecord_eq_ok {sessionId finalizationId : JsString}
    {verificationResult : VerificationResult} {record : VerificationResultRecord}
    (h : createVerificationResultRecord sessionId finalizationId verificationResult = .ok record) :
    parseVerificationResultRecord record = some record ∧
    record = ⟨sessionId, finalizationId, verificationResult⟩ := by
  have hparse := okOr_eq_ok.mp h
  exact ⟨stable_accept _ hparse, (accept_eq_some.mp hparse).2.symm⟩

end StarkBallot.Application
