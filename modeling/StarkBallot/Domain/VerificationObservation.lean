import StarkBallot.Schemes.Admission
import StarkBallot.Domain.Constants

/-! Observations of a verification (`domain/src/types/verificationObservation.ts`). The first
    observation of the current finalization is recorded; the same one again is no news, and another one
    is a conflict. -/

namespace StarkBallot.Domain
open Schemes

structure VerificationObservationWrite where
  fingerprint : JsString
  observedAt : Num
  deriving DecidableEq

structure VerificationObservation where
  finalizationId : JsString
  fingerprint : JsString
  observedAt : Num
  deriving DecidableEq

inductive ObservationConflict where
  | finalizationMismatch
  | fingerprintMismatch
  deriving DecidableEq

inductive RecordVerificationObservationResult where
  | recorded
  | idempotent
  | conflict (reason : ObservationConflict)
  deriving DecidableEq

/-- `/^[0-9a-f]{64}$/`. -/
def matchesSha256HexPattern (value : JsString) : Bool :=
  value.length = 64 && value.all isHexDigit

def parseVerificationObservationWrite :
    VerificationObservationWrite → Option VerificationObservationWrite :=
  accept fun value => matchesSha256HexPattern value.fingerprint &&
    isNonNegativeSafeInteger value.observedAt

def parseVerificationObservation : VerificationObservation → Option VerificationObservation :=
  accept fun value =>
  value.finalizationId.length ≤ 256 && isSafeVerifierSegment value.finalizationId &&
  matchesSha256HexPattern value.fingerprint && isNonNegativeSafeInteger value.observedAt

def resolveVerificationObservationRecord (currentFinalizationId : Option JsString)
    (existing : Option VerificationObservation) (requested : VerificationObservation) :
    RecordVerificationObservationResult :=
  if currentFinalizationId ≠ some requested.finalizationId then .conflict .finalizationMismatch
  else
    match existing.filter fun existing => existing.finalizationId = requested.finalizationId with
    | none => .recorded
    | some existing =>
      if existing.fingerprint = requested.fingerprint then .idempotent
        else .conflict .fingerprintMismatch

end StarkBallot.Domain
