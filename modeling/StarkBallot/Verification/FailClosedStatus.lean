import StarkBallot.ZkvmContract.JournalValues
import StarkBallot.Application.VerificationResult

/-! The statuses of a stored payload, made fail-closed
    (`verification/src/verification/fail-closed-status.ts`). The status at the top goes before the
    nested one; a success is kept only where no signal speaks against it, and the status that is left is
    written into both places that had one.

        top      nested    signal        top      nested
        success  failed    yes      ──▶  failed   failed
        running  success   -        ──▶  running  running
        success  failed    no       ──▶  success  success

    The last line is the one that raises a verdict. -/

namespace StarkBallot.Verification.FailClosed
open Schemes Validation CryptoPrimitives ZkvmContract
open Application (VerificationStatus)
open JournalValue (isSupportedZkVMJournal hasLegacyJournalCountAliases)

/-! ### Statuses -/

def statusText : VerificationStatus → JsString
  | .success => js "success"
  | .failed => js "failed"
  | .devMode => js "dev_mode"
  | .notRun => js "not_run"
  | .running => js "running"

def verificationStatusValues : List VerificationStatus :=
  [.success, .failed, .devMode, .notRun, .running]

def toVerificationStatus (value : Option JsString) : Option VerificationStatus :=
  value.bind fun value => verificationStatusValues.find? fun status => statusText status = value

/-- The two identifiers of a report; the receipt's may be `null`. -/
structure ReportImageIds where
  expectedImageId : Option JsString
  receiptImageId : Option (Option JsString)

/-- What the decision is made from, beside the current status; the tallies are
    handed over and not read. -/
structure FailClosedVerificationStatusInput where
  journal : Option JsValue
  missingSlots : Option Num
  invalidPresentedSlots : Option Num
  excludedSlots : Option Num
  totalExpected : Option Num
  treeSize : Option Num
  journalHasLegacyCountAliases : Bool
  journalAdmissionFailed : Bool
  claimedImageId : Option JsString
  comparisonImageId : Option JsString
  verificationReport : Option ReportImageIds

/-- The journal decides; then the count, then the sum of its parts. -/
def resolveExcludedCount (input : FailClosedVerificationStatusInput) : Option Num :=
  match input.journal with
  | some journal => getNumberProperty journal "excludedSlots"
  | none =>
    match input.excludedSlots, input.missingSlots, input.invalidPresentedSlots with
    | some excludedSlots, _, _ => some excludedSlots
    | none, some missingSlots, some invalidPresentedSlots =>
        some (missingSlots.add invalidPresentedSlots)
    | none, _, _ => none

section Fields

variable {value field field' : JsValue} {key key' : String}

end Fields

/-! ### Writing a status -/

section Writes

variable {record : JsValue} {status : VerificationStatus}

end Writes

/-! ### Verdicts -/

section Verdicts

variable {payload : JsValue} {currentStatus : VerificationStatus}
    {input : FailClosedVerificationStatusInput}

end Verdicts

end StarkBallot.Verification.FailClosed
