import StarkBallot.Runtime.Js

/-! Constants and identifiers shared by the domain and application packages
    (`domain/src/shared/constants.ts`, `domain/src/types/identifiers.ts`,
    `validation/src/unknown-value-guards.ts`, `vote-id.ts`). -/

namespace StarkBallot.Domain

inductive VoteChoice where
  | a | b | c | d | e
  deriving DecidableEq, Repr

def voteChoices : List VoteChoice := [.a, .b, .c, .d, .e]

/-- The place of a choice in the alphabet: `charCodeAt(0) - 'A'.charCodeAt(0)`, also `choiceToNumber`. -/
def VoteChoice.toNumber : VoteChoice → ℕ
  | .a => 0
  | .b => 1
  | .c => 2
  | .d => 3
  | .e => 4

def botCount : ℕ := 63

inductive ScenarioTamperMode where
  | none | input | claim
  deriving DecidableEq

/-- `/^[A-Za-z0-9-]+$/`. -/
def isSafeVerifierSegment (value : JsString) : Bool :=
  value ≠ [] && value.all fun c => c.isAlphanum || c = '-'

/-- Non-negative, with no bound. -/
def isNonNegativeInteger (value : Num) : Bool := value.isInteger && (Num.ofNat 0).le value

def isNonNegativeSafeInteger (value : Num) : Bool := value.isSafeInteger && (Num.ofNat 0).le value

/-- `/^[0-9a-f]{8}-[0-9a-f]{4}-[versions][0-9a-f]{3}-[89ab][0-9a-f]{3}-[0-9a-f]{12}$/i`. -/
def matchesUuid (versions : String) (value : JsString) : Bool :=
  let lower := toLowerCase value
  let digitsAt (start count : ℕ) : Bool := ((lower.drop start).take count).all isHexDigit
  lower.length = 36 && digitsAt 0 8 && lower[8]? = some '-' && digitsAt 9 4 && lower[13]? = some '-' &&
  lower[14]?.any (fun c => (js versions).contains c) && digitsAt 15 3 && lower[18]? = some '-' &&
  lower[19]?.any (fun c => (js "89ab").contains c) && digitsAt 20 3 && lower[23]? = some '-' &&
    digitsAt 24 12

def isUuid (value : JsString) : Bool := matchesUuid "12345" value

/-- No path may hide in a vote id. -/
def isValidVoteId (voteId : JsString) : Bool :=
  if (js "..") <:+: voteId ∨ '/' ∈ voteId ∨ '\\' ∈ voteId then false else matchesUuid "4" voteId

/-- A branded number: a non-negative safe integer. -/
def asIndex (label : String) (value : ℤ) : JsM ℕ :=
  if value < 0 ∨ (Num.maxSafeInteger : ℤ) < value then
    .error (.error s!"{label} must be a non-negative safe integer")
  else .ok value.toNat

def asVoteIndex (value : ℤ) : JsM ℕ := asIndex "voteIndex" value

def asBulletinIndex (value : ℤ) : JsM ℕ := asIndex "bulletinIndex" value

def asLeafIndex (value : ℤ) : JsM ℕ := asIndex "leafIndex" value

theorem asIndex_of_le (label : String) {n : ℕ} (h : n ≤ Num.maxSafeInteger) :
    asIndex label n = .ok n := by
  rw [asIndex, if_neg (by omega), Int.toNat_natCast]

end StarkBallot.Domain
