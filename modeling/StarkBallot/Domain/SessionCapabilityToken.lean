import StarkBallot.Runtime.JsonReader
import StarkBallot.Runtime.Utf8
import StarkBallot.Schemes.Base64
import StarkBallot.Schemes.Result
import StarkBallot.ZkvmContract.HostIo

/-! Tokens that let their bearer act for a session
    (`domain/src/lib/security/sessionCapabilityToken.ts`). The claims are written as JSON, the JSON in
    base 64, and the text is signed:

    claims ──JSON──▶ ──UTF-8──▶ ──base 64──▶ payload        token = "v1." payload "." HMAC("v1." payload)

    A token is authenticated before anything of it is decoded. Strings are lists of 16-bit units here,
    since an identifier may hold halves of pairs; `hmac` is HMAC-SHA256, with the key first. -/

namespace StarkBallot.Domain
open Schemes ZkvmContract.HostIo

variable (hmac : List UInt8 → List UInt8 → Bytes 32)

/-! ### Strings -/

/-- A string as the language holds it. -/
abbrev Units := List UInt16

def units (s : JsString) : Units := s.flatMap unitsOfChar

def isBlankUnit (unit : UInt16) : Bool := isBlank (unitChar unit)

/-- `text.trim()`. -/
def trimUnits (s : Units) : Units := (s.dropWhile isBlankUnit).rdropWhile isBlankUnit

/-- `Buffer.from(text, 'utf8')`. -/
def utf8Units (s : Units) : List UInt8 := utf8 (textOfUnits s)

/-! ### Claims -/

def TOKEN_VERSION : Units := units (js "v1")
def DEFAULT_SESSION_CAPABILITY_TTL_SECONDS : Num := .ofNat (24 * 60 * 60)
def MAX_SESSION_CAPABILITY_TTL_SECONDS : Num := .ofNat (7 * 24 * 60 * 60)

structure SessionCapabilityClaims where
  sid : Units
  iat : Num
  exp : Num
  nonce : Units
  deriving DecidableEq

structure SessionCapabilityPayload where
  sessionId : Units
  issuedAt : Num
  expiresAt : Num
  nonce : Units
  deriving DecidableEq

inductive SessionCapabilityVerifyFailureReason where
  | invalid
  | expired
  | sessionMismatch
  deriving DecidableEq

abbrev SessionCapabilityVerifyResult :=
  Except SessionCapabilityVerifyFailureReason SessionCapabilityPayload

def SessionCapabilityClaims.toJson (claims : SessionCapabilityClaims) : Json :=
  .object [(units (js "sid"), .string claims.sid), (units (js "iat"), .number claims.iat),
    (units (js "exp"), .number claims.exp), (units (js "nonce"), .string claims.nonce)]

def isPositiveClaimTimestamp (value : Num) : Bool := value.isInteger && (Num.ofNat 0).lt value

/-- `isSessionCapabilityClaims`, with the claims that it finds. -/
def claimsOfJson (value : Json) : Option SessionCapabilityClaims :=
  match value.property (units (js "sid")), value.property (units (js "iat")),
    value.property (units (js "exp")), value.property (units (js "nonce")) with
  | some (.string sid), some (.number iat), some (.number exp), some (.string nonce) =>
    if sid ≠ [] ∧ nonce ≠ [] ∧ isPositiveClaimTimestamp iat ∧ isPositiveClaimTimestamp exp then
      some ⟨sid, iat, exp, nonce⟩
    else none
  | _, _, _, _ => none

/-! ### Encodings -/

def encodeBase64Url (value : JsString) : JsString :=
  ((Base64.padded .standard (utf8 value)).map fun c => if c = '+' then '-' else if c = '/' then '_'
    else c).rdropWhile (· = '=')

/-- `[A-Za-z0-9\-_]`. -/
def isUrlDigit (c : Char) : Bool :=
  (65 ≤ c.toNat && c.toNat ≤ 90) || (97 ≤ c.toNat && c.toNat ≤ 122) || c.isDigit || c = '-' || c = '_'

def decodeBase64Url (value : Units) : Option JsString :=
  let text := value.map unitChar
  if text = [] ∨ ¬ text.all isUrlDigit then none
  else
    let normalized := text.map fun c => if c = '-' then '+' else if c = '_' then '/' else c
    let padding :=
      if normalized.length % 4 = 0 then [] else List.replicate (4 - normalized.length % 4) '='
    some (utf8Text (Base64.decode (normalized ++ padding)))

def sign (message secret : Units) : JsString :=
  hexText (hmac (utf8Units secret) (utf8Units message)).toList

def safeTimingEqualHex (expectedHex : JsString) (providedHex : Units) : Bool :=
  let provided := providedHex.map unitChar
  if provided.length ≠ 64 ∨ ¬ provided.all (fun c => isHexDigit c.toLower) then false
  else
    let expectedBytes := bufferFromHex expectedHex
    let providedBytes := bufferFromHex (toLowerCase provided)
    expectedBytes.length = providedBytes.length && expectedBytes = providedBytes

/-! ### Create -/

/-- `Math.floor(nowMs / 1000)`. -/
def secondsOf (nowMs : Num) : Num := (nowMs.dividedBy 1000).floor

structure CreateOptions where
  sessionId : Units
  nowMs : Option Num
  ttlSeconds : Option Num
  nonce : Option Units

/-- A lifetime that was asked for, if it is a positive integer. -/
def positiveOr (default : Num) (value : Option Num) : Num :=
  match value with
  | some ttl => if ttl.isInteger && (Num.ofNat 0).lt ttl then ttl else default
  | none => default

def asCapabilityToken (value : Units) : JsM Units := do
  refuseIf (value = []) (.error "capabilityToken must not be empty")
  return value

def createSessionCapabilityToken (options : CreateOptions) (secret : Units) (clock : Num)
    (random : Bytes 16) :
    JsM Units := do
  let sessionId := trimUnits options.sessionId
  refuseIf (sessionId = []) (.error "sessionId is required to create capability token")
  let nowSeconds := secondsOf (options.nowMs.getD clock)
  let ttlSeconds := positiveOr DEFAULT_SESSION_CAPABILITY_TTL_SECONDS options.ttlSeconds
  let claims : SessionCapabilityClaims :=
    { sid := sessionId
      iat := nowSeconds
      exp := nowSeconds.plus ttlSeconds
      nonce := options.nonce.getD (units (hexText random.toList)) }
  let payload := units (encodeBase64Url claims.toJson.stringify)
  let message := TOKEN_VERSION ++ units (js ".") ++ payload
  asCapabilityToken (message ++ units (js ".") ++ units (sign hmac message secret))

/-! ### Verify -/

structure VerifyOptions where
  sessionId : Units
  nowMs : Option Num
  maxTtlSeconds : Option Num

def authenticateCapabilityPayload (token secret : Units) : Option Units :=
  match (trimUnits token).splitOn 46 with
  | [version, payload, signature] =>
    if version = [] ∨ payload = [] ∨ signature = [] then none
    else if version ≠ TOKEN_VERSION then none
    else if safeTimingEqualHex (sign hmac (version ++ units (js ".") ++ payload) secret) signature then
      some payload
    else none
  | _ => none

def parseCapabilityClaims (payload : Units) : Option SessionCapabilityClaims := do
  let decoded ← decodeBase64Url payload
  if decoded = [] then none
  else
    let claims ← Json.parse decoded
    claimsOfJson claims

def resolveCapabilityMaxTtl (value : Option Num) : Num :=
  positiveOr MAX_SESSION_CAPABILITY_TTL_SECONDS value

def verifySessionCapabilityToken (token secret : Units) (options : VerifyOptions) (clock : Num) :
    SessionCapabilityVerifyResult :=
  let sessionId := trimUnits options.sessionId
  if sessionId = [] then .error .invalid
  else match authenticateCapabilityPayload hmac token secret with
  | none => .error .invalid
  | some payload =>
    match parseCapabilityClaims payload with
    | none => .error .invalid
    | some claims =>
      if claims.sid ≠ sessionId then .error .sessionMismatch
      else
        let maxTtlSeconds := resolveCapabilityMaxTtl options.maxTtlSeconds
        if maxTtlSeconds.lt (claims.exp.minus claims.iat) ∨ claims.exp.le claims.iat then .error .invalid
        else
          let nowSeconds := secondsOf (options.nowMs.getD clock)
          if claims.exp.le nowSeconds then .error .expired
          else .ok ⟨options.sessionId, claims.iat, claims.exp, claims.nonce⟩

end StarkBallot.Domain
