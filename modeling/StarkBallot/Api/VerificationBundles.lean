import StarkBallot.ApiContract.ContentRange
import StarkBallot.Domain.Constants
import StarkBallot.Schemes.Ranges

/-! The bundle endpoint (`verificationBundles.ts`) and its reader (`local-artifact-reader.ts`). A
    `Range` header is parsed, clamped to the bundle and to the server's own limit, and answered with the
    bytes of the range.

        bytes=4-9  ──▶  closed 4 9  ──▶  4 ‥ min 9 (total - 1) (4 + limit - 1)  ──▶  206, bytes 4-7/10

    Sums are of safe integers. One above 2⁵³ may be rounded in the source, but is then more than any
    size that the minimum takes it against. -/

namespace StarkBallot.Api.VerificationBundles
open Schemes ApiContract Domain

/-! ### The reader -/

inductive ArtifactRangeRequest where
  | closed (start last : ℕ)
  | openEnded (start : ℕ)
  | suffix (length : ℕ)
  | invalid
  deriving DecidableEq

structure ArtifactRepresentationIdentity where
  etag : Option JsString
  versionId : Option JsString

inductive ArtifactReadFailureKind where
  | accessDenied | timeout | throttled | unknown

inductive ArtifactReadResult where
  | full (bytes : List UInt8) (totalBytes : ℕ) (representation : ArtifactRepresentationIdentity)
  | range (bytes : List UInt8) (totalBytes start last : ℕ)
      (representation : ArtifactRepresentationIdentity)
  | notFound
  | invalidRange (totalBytes : ℕ)
  | tooLarge (totalBytes : ℕ)
  | unavailable (failureKind : ArtifactReadFailureKind)

/-- The range from `start` to `requestedEnd`, as far as there are bytes and the limit allows. -/
def clampRange (start requestedEnd totalBytes maxRangeBytes : ℕ) : Option (ℕ × ℕ) :=
  if start ≤ Num.maxSafeInteger ∧ requestedEnd ≤ Num.maxSafeInteger ∧ start ≤ requestedEnd ∧
      start < totalBytes then
    some (start, min (min requestedEnd (totalBytes - 1)) (start + maxRangeBytes - 1))
  else none

def resolveArtifactRange (requested : ArtifactRangeRequest) (totalBytes maxRangeBytes : ℕ) :
    Option (ℕ × ℕ) :=
  if totalBytes = 0 then none
  else match requested with
    | .invalid => none
    | .suffix length =>
      if length ≤ Num.maxSafeInteger ∧ 0 < length then
        some (totalBytes - min (min length totalBytes) maxRangeBytes, totalBytes - 1)
      else none
    | .openEnded start => clampRange start (totalBytes - 1) totalBytes maxRangeBytes
    | .closed start last => clampRange start last totalBytes maxRangeBytes

/-- The local reader's identity of a bundle: its digest. -/
def representationFor (sha256 : List UInt8 → Bytes 32) (bytes : List UInt8) :
    ArtifactRepresentationIdentity :=
  ⟨some (js "\"" ++ hexText (sha256 bytes).toList ++ js "\""), none⟩

/-- What a reader answers with, given the identity it has for the bytes. -/
def projectArtifactRead (requested : Option ArtifactRangeRequest) (bytes : List UInt8)
    (totalBytes maxRangeBytes : ℕ) (representation : ArtifactRepresentationIdentity) :
    ArtifactReadResult :=
  match requested with
  | none => .full bytes totalBytes representation
  | some requested =>
    match resolveArtifactRange requested totalBytes maxRangeBytes with
    | none => .invalidRange totalBytes
    | some (start, last) => .range (slice bytes (start, last)) totalBytes start last representation

/-! ### The request -/

def parseSuffixRange (rawEnd : JsString) : ArtifactRangeRequest :=
  match parseSafeInteger rawEnd with
  | some length => if 0 < length then .suffix length else .invalid
  | none => .invalid

def parseForwardRange (rawStart rawEnd : JsString) : ArtifactRangeRequest :=
  match parseSafeInteger rawStart with
  | none => .invalid
  | some start =>
    if rawEnd = [] then .openEnded start
    else match parseSafeInteger rawEnd with
      | some last => if start ≤ last then .closed start last else .invalid
      | none => .invalid

/-- `(\d*)-(\d*)$`. -/
def rangeBounds (text : JsString) : Option (JsString × JsString) := do
  let rest ← after "-" (text.dropWhile Char.isDigit)
  if rest.all Char.isDigit then some (text.takeWhile Char.isDigit, rest) else none

def parseRangeHeader (rangeHeader : Option JsString) : Option ArtifactRangeRequest :=
  rangeHeader.map fun rangeHeader =>
    match (after "bytes=" (trim rangeHeader)).bind rangeBounds with
    | none => .invalid
    | some (rawStart, rawEnd) =>
      if rawStart = [] ∧ rawEnd = [] then .invalid
      else if rawStart ≠ [] then parseForwardRange rawStart rawEnd else parseSuffixRange rawEnd

/-- `bytes=${start}-${end}`. -/
def rangeHeaderText (start last : ℕ) : JsString := js "bytes=" ++ decimal start ++ js "-" ++ decimal last

/-! ### The response -/

inductive BundleDownloadS3ErrorCode where
  | not_applicable | no_such_key | access_denied | timeout | throttled | unknown
  deriving DecidableEq

/-- What the endpoint is composed with and has checked, and what is not decided here: a body reaches its
    reader in some chunks, and an error's body carries a request id. -/
structure Delivery where
  bundleRangeMaxBytes : ℕ
  finalizationId : JsString
  chunked : List UInt8 → List (List UInt8)
  errorBody : String → String → List UInt8
  rangeMax_pos : 0 < bundleRangeMaxBytes
  rangeMax_safe : bundleRangeMaxBytes ≤ Num.maxSafeInteger
  finalizationId_safe : isSafeVerifierSegment finalizationId = true
  chunked_flatten : ∀ bytes, (chunked bytes).flatten = bytes

section Responses

variable (delivery : Delivery)

def bodyOf (bytes : List UInt8) : Option (List (JsM (List UInt8))) :=
  some ((delivery.chunked bytes).map .ok)

def artifactErrorResponse (error : String) (status : ℕ) (message : String)
    (additionalHeaders : Headers) :
    JsM Response := do
  let headers ← additionalHeaders.set "cache-control" (js "no-store")
  let headers ← headers.set "content-type" (js "application/json")
  return ⟨status, headers, bodyOf delivery (delivery.errorBody error message)⟩

def endpointNotFound : JsM Response :=
  artifactErrorResponse delivery "BUNDLE_NOT_FOUND" 404 "Bundle not found" []

def downloadFailed : JsM Response :=
  artifactErrorResponse delivery "BUNDLE_DOWNLOAD_FAILED" 500 "Failed to load bundle" []

/-- A header that is only set to something. -/
def setPresent (headers : Headers) (name : String) (value : Option JsString) : JsM Headers :=
  match value with
  | none => .ok headers
  | some value => if value = [] then .ok headers else headers.set name value

def applyRepresentationHeaders (headers : Headers) (representation : ArtifactRepresentationIdentity) :
    JsM Headers := do
  let headers ← setPresent headers "etag" representation.etag
  setPresent headers "x-amz-version-id" representation.versionId

def buildBundleHeaders (representation : ArtifactRepresentationIdentity) (additionalHeaders : Headers) :
    JsM Headers := do
  let headers ← additionalHeaders.set "content-type" (js "application/zip")
  let headers ← headers.set "content-disposition"
    (js "attachment; filename=\"" ++ delivery.finalizationId ++ js ".zip\"")
  let headers ← headers.set "cache-control" (js "no-store")
  let headers ← headers.set "accept-ranges" (js "bytes")
  let headers ← headers.set "x-stark-bundle-range-chunk-size" (decimal delivery.bundleRangeMaxBytes)
  applyRepresentationHeaders headers representation

def buildBundleErrorHeaders (totalBytes : ℕ) : JsM Headers := do
  let headers ← Headers.set [] "accept-ranges" (js "bytes")
  let headers ← headers.set "x-stark-bundle-range-chunk-size" (decimal delivery.bundleRangeMaxBytes)
  headers.set "content-range" (js "bytes */" ++ decimal totalBytes)

def diagnosticCodeForFailure : ArtifactReadFailureKind → BundleDownloadS3ErrorCode
  | .accessDenied => .access_denied
  | .timeout => .timeout
  | .throttled => .throttled
  | .unknown => .unknown

def hasRepresentationIdentity (representation : ArtifactRepresentationIdentity) : Bool :=
  representation.etag.any (trim · ≠ []) || representation.versionId.any (trim · ≠ [])

def validFullResult (bytes : List UInt8) (totalBytes : ℕ) : Bool :=
  totalBytes ≤ Num.maxSafeInteger && bytes.length = totalBytes

def validRangeResult (bytes : List UInt8) (totalBytes start last : ℕ)
    (representation : ArtifactRepresentationIdentity) : Bool :=
  totalBytes ≤ Num.maxSafeInteger && 0 < totalBytes && start ≤ Num.maxSafeInteger &&
    last ≤ Num.maxSafeInteger && start ≤ last && last < totalBytes && bytes.length = last - start + 1 &&
    hasRepresentationIdentity representation

/-- `bundleBytesResponse` for all bytes. -/
def fullResponse (bytes : List UInt8) (totalBytes : ℕ)
    (representation : ArtifactRepresentationIdentity) :
    JsM Response := do
  let contentLength ← Headers.set [] "content-length" (decimal totalBytes)
  let headers ← buildBundleHeaders delivery representation contentLength
  return ⟨200, headers, bodyOf delivery bytes⟩

/-- `bundleBytesResponse` for a range. -/
def rangeResponse (bytes : List UInt8) (totalBytes start last : ℕ)
    (representation : ArtifactRepresentationIdentity) :
    JsM Response := do
  let contentRange ← Headers.set [] "content-range" (contentRangeText start last totalBytes)
  let contentLength ← contentRange.set "content-length" (decimal bytes.length)
  let headers ← buildBundleHeaders delivery representation contentLength
  return ⟨206, headers, bodyOf delivery bytes⟩

/-- The response, and what is logged of it. -/
def bundleReaderResponse (result : ArtifactReadResult) (requestedRange : Option ArtifactRangeRequest) :
    JsM (Response × BundleDownloadS3ErrorCode) :=
  match result with
  | .full bytes totalBytes representation => do
    if requestedRange.isNone ∧ validFullResult bytes totalBytes then
      return (← fullResponse delivery bytes totalBytes representation, .not_applicable)
    else return (← downloadFailed delivery, .unknown)
  | .range bytes totalBytes start last representation => do
    if requestedRange.isSome ∧ validRangeResult bytes totalBytes start last representation then
      return (← rangeResponse delivery bytes totalBytes start last representation, .not_applicable)
    else return (← downloadFailed delivery, .unknown)
  | .notFound => do return (← endpointNotFound delivery, .no_such_key)
  | .invalidRange totalBytes => do
    let headers ← buildBundleErrorHeaders delivery totalBytes
    return (← artifactErrorResponse delivery "INVALID_RANGE" 416 "Invalid range" headers,
      .not_applicable)
  | .tooLarge totalBytes => do
    let headers ← buildBundleErrorHeaders delivery totalBytes
    let response ← artifactErrorResponse delivery "BUNDLE_REQUIRES_RANGE_DOWNLOAD" 413
        "Bundle requires ranged download" headers
    return (response, .not_applicable)
  | .unavailable failureKind =>
    do return (← downloadFailed delivery, diagnosticCodeForFailure failureKind)

/-- The endpoint over one stable bundle. -/
def getVerificationBundle (bytes : List UInt8) (representation : ArtifactRepresentationIdentity)
    (rangeHeader : Option JsString) : JsM Response := do
  let range := parseRangeHeader rangeHeader
  let result := projectArtifactRead range bytes bytes.length delivery.bundleRangeMaxBytes representation
  return (← bundleReaderResponse delivery result range).1

end Responses

/-! ### Headers that are set -/

section Set

variable {headers : Headers} {name : String} {value : JsString}

/-- A valid value is set, and nothing else changes. -/
theorem exists_set (h : Headers.isValue (Headers.normalizeValue value) = true) :
    ∃ headers', headers.set name value = .ok headers' ∧
      headers'.get name = some (Headers.normalizeValue value) ∧
      ∀ other, js other ≠ js name → headers'.get other = headers.get other := by
  refine ⟨_, if_pos h, List.lookup_cons_self, ?_⟩
  intro other hne
  have hbeq : (js other == js name) = false := beq_false_of_ne hne
  rw [Headers.get, List.lookup_cons, hbeq]
  exact lookup_mapDelete_ne hne headers

theorem isHttpBlank_iff {c : Char} : Headers.isHttpBlank c = true ↔ c.toNat ∈ [9, 10, 13, 32] :=
  decide_eq_true_iff

theorem isBlank_of_isHttpBlank {c : Char} (h : Headers.isHttpBlank c = true) : isBlank c = true := by
  rw [isHttpBlank_iff] at h
  simp only [isBlank, Bool.or_eq_true, decide_eq_true_eq]
  simp only [List.mem_cons, List.not_mem_nil, or_false] at h ⊢
  omega

/-- Nothing is cut off a value that does not begin or end with white space. -/
theorem normalizeValue_eq_self (hhead : value.head?.all fun c => 32 < c.toNat)
    (hlast : value.getLast?.all fun c => 32 < c.toNat) : Headers.normalizeValue value = value := by
  have hblank : ∀ c : Char, 32 < c.toNat → ¬ Headers.isHttpBlank c = true := by
    intro c hc
    simp only [isHttpBlank_iff, List.mem_cons, List.not_mem_nil, or_false]
    omega
  have hfront : value.dropWhile Headers.isHttpBlank = value := by
    cases value with
    | nil => rfl
    | cons c rest => rw [List.dropWhile_cons, if_neg (hblank c (by simpa using hhead))]
  rw [Headers.normalizeValue, hfront, List.rdropWhile_eq_self_iff]
  intro hne
  rw [List.getLast?_eq_getLast_of_ne_nil hne] at hlast
  exact hblank _ (by simpa using hlast)

/-- PLAIN: printable ASCII without white space at its ends is set as it is. -/
theorem exists_set_plain (hchars : ∀ c ∈ value, 32 ≤ c.toNat ∧ c.toNat < 127)
    (hhead : value.head?.all fun c => 32 < c.toNat) (hlast : value.getLast?.all fun c => 32 < c.toNat) :
    ∃ headers', headers.set name value = .ok headers' ∧ headers'.get name = some value ∧
      ∀ other, js other ≠ js name → headers'.get other = headers.get other := by
  have hvalue : Headers.isValue value = true := by
    refine List.all_eq_true.mpr fun c hc => ?_
    have hbounds := hchars c hc
    simp only [Bool.and_eq_true, decide_eq_true_eq, List.mem_cons, List.not_mem_nil, or_false, not_or]
    omega
  have hsame := normalizeValue_eq_self hhead hlast
  obtain ⟨headers', hset, hget, hother⟩ := @exists_set headers name value (by rw [hsame]; exact hvalue)
  rw [hsame] at hget
  exact ⟨headers', hset, hget, hother⟩

/-! ### Texts of headers -/

theorem decimal_printable {n : ℕ} : ∀ c ∈ decimal n, 32 < c.toNat ∧ c.toNat < 127 := by
  intro c hc
  have hdigit := Char.isDigit_iff_toNat.mp (isDigit_of_mem_decimal c hc)
  have hzero : '0'.toNat = 48 := rfl
  have hnine : '9'.toNat = 57 := rfl
  omega

/-- A text that ends in a number ends in a digit. -/
theorem getLast_append_decimal {front : JsString} {n : ℕ} :
    ((front ++ decimal n).getLast?.all fun c => 32 < c.toNat) = true := by
  rw [List.getLast?_append_of_ne_nil _ (decimal_ne_nil n),
    List.getLast?_eq_getLast_of_ne_nil (decimal_ne_nil n)]
  exact decide_eq_true (decimal_printable _ (List.getLast_mem _)).1

theorem head_decimal {n : ℕ} : ((decimal n).head?.all fun c => 32 < c.toNat) = true := by
  rw [List.head?_eq_some_head (decimal_ne_nil n)]
  exact decide_eq_true (decimal_printable _ (List.head_mem _)).1

theorem exists_set_decimal (n : ℕ) : ∃ headers', headers.set name (decimal n) = .ok headers' ∧
    headers'.get name = some (decimal n) ∧ ∀ other, js other ≠ js name →
    headers'.get other = headers.get other :=
  exists_set_plain (fun c hc => ⟨(decimal_printable c hc).1.le, (decimal_printable c hc).2⟩) head_decimal
    (@getLast_append_decimal [] n)

theorem printable_of_all {text : JsString}
    (h : (text.all fun c => 32 ≤ c.toNat && c.toNat < 127) = true) :
    ∀ c ∈ text, 32 ≤ c.toNat ∧ c.toNat < 127 := by
  intro c hc
  simpa using List.all_eq_true.mp h c hc

theorem exists_set_contentRange (start last total : ℕ) : ∃ headers',
    headers.set name (contentRangeText start last total) = .ok headers' ∧
      headers'.get name = some (contentRangeText start last total) ∧
      ∀ other, js other ≠ js name → headers'.get other = headers.get other := by
  refine exists_set_plain ?_ rfl getLast_append_decimal
  intro c hc
  simp only [contentRangeText, List.mem_append] at hc
  rcases hc with ((((hc | hc) | hc) | hc) | hc) | hc
  · exact @printable_of_all (js "bytes ") (by decide) c hc
  · exact ⟨(decimal_printable c hc).1.le, (decimal_printable c hc).2⟩
  · exact @printable_of_all (js "-") (by decide) c hc
  · exact ⟨(decimal_printable c hc).1.le, (decimal_printable c hc).2⟩
  · exact @printable_of_all (js "/") (by decide) c hc
  · exact ⟨(decimal_printable c hc).1.le, (decimal_printable c hc).2⟩

theorem segment_printable {segment : JsString} (h : isSafeVerifierSegment segment = true) :
    ∀ c ∈ segment, 32 ≤ c.toNat ∧ c.toNat < 127 := by
  intro c hc
  rw [isSafeVerifierSegment, Bool.and_eq_true, List.all_eq_true] at h
  have hchar := h.2 c hc
  have hclasses : c.isAlphanum = ((decide ('A'.val ≤ c.val ∧ c.val ≤ 'Z'.val) ||
      decide ('a'.val ≤ c.val) && decide (c.val ≤ 'z'.val)) ||
      decide ('0'.val ≤ c.val) && decide (c.val ≤ '9'.val)) := rfl
  simp only [hclasses, Bool.or_eq_true, decide_eq_true_eq, Bool.and_eq_true,
    UInt32.le_iff_toNat_le] at hchar
  have hupper : 'A'.val.toNat = 65 ∧ 'Z'.val.toNat = 90 := ⟨rfl, rfl⟩
  have hlower : 'a'.val.toNat = 97 ∧ 'z'.val.toNat = 122 := ⟨rfl, rfl⟩
  have hdigit : '0'.val.toNat = 48 ∧ '9'.val.toNat = 57 := ⟨rfl, rfl⟩
  have hcode : c.val.toNat = c.toNat := rfl
  rcases hchar with hletter | rfl
  · omega
  · decide

end Set

/-! ### What is served -/

/-- A header value of a representation, as it arrives. -/
def sentValue (value : Option JsString) : Option JsString :=
  (value.filter (· ≠ [])).map Headers.normalizeValue

/-- Values that a header can carry. -/
def isSendable (representation : ArtifactRepresentationIdentity) : Bool :=
  (sentValue representation.etag).all Headers.isValue &&
    (sentValue representation.versionId).all Headers.isValue

def sentIdentity (representation : ArtifactRepresentationIdentity) : Option JsString :=
  identityOf (sentValue representation.etag) (sentValue representation.versionId)

section Served

variable {delivery : Delivery} {representation : ArtifactRepresentationIdentity} {headers : Headers}
  {bytes : List UInt8} {start last : ℕ}

theorem mem_dropWhile_of_not {p : Char → Bool} {c : Char} (hc : ¬ p c = true) : ∀ {s : JsString}, c ∈ s →
    c ∈ s.dropWhile p
  | d :: s, hmem => by
      rw [List.dropWhile_cons]
      split
      · rename_i hd
        rcases List.mem_cons.mp hmem with rfl | hrest
        · exact absurd hd hc
        · exact mem_dropWhile_of_not hc hrest
      · exact hmem

theorem mem_rdropWhile_of_not {p : Char → Bool} {c : Char} {s : JsString} (hc : ¬ p c = true)
    (hmem : c ∈ s) :
    c ∈ s.rdropWhile p := by
  rw [List.rdropWhile, List.mem_reverse]
  exact mem_dropWhile_of_not hc (List.mem_reverse.mpr hmem)

/-- A text is trimmed to nothing exactly when it is blank. -/
theorem trim_ne_nil_iff {s : JsString} : trim s ≠ [] ↔ ∃ c ∈ s, isBlank c = false := by
  constructor
  · intro h
    by_contra hall
    have hblank : ∀ c ∈ s, isBlank c = true := by
      intro c hc
      by_contra hno
      exact hall ⟨c, hc, Bool.eq_false_iff.mpr hno⟩
    refine h ?_
    rw [trim, List.dropWhile_eq_nil_iff.mpr hblank]
    rfl
  · rintro ⟨c, hc, hblank⟩
    have hno : ¬ isBlank c = true := by
      rw [hblank]
      exact Bool.false_ne_true
    exact List.ne_nil_of_mem (mem_rdropWhile_of_not hno (mem_dropWhile_of_not hno hc))

theorem trim_normalizeValue_ne_nil {s : JsString} (h : trim s ≠ []) :
    trim (Headers.normalizeValue s) ≠ [] := by
  obtain ⟨c, hc, hblank⟩ := trim_ne_nil_iff.mp h
  have hno : ¬ Headers.isHttpBlank c = true := by
    intro hhttp
    rw [isBlank_of_isHttpBlank hhttp] at hblank
    cases hblank
  exact trim_ne_nil_iff.mpr ⟨c, mem_rdropWhile_of_not hno (mem_dropWhile_of_not hno hc), hblank⟩

/-- A value that is not blank arrives as one that is not. -/
theorem trim_sentValue_ne_nil {value : Option JsString} (h : value.any (trim · ≠ []) = true) :
    ((sentValue value).map trim).getD [] ≠ [] := by
  cases value with
  | none => cases h
  | some value =>
    have htrim : trim value ≠ [] := by simpa using h
    have hne : value ≠ [] := by
      rintro rfl
      exact htrim rfl
    have hfilter : (some value).filter (· ≠ []) = some value := by
      rw [Option.filter_some, if_pos (decide_eq_true hne)]
    rw [sentValue, hfilter]
    exact trim_normalizeValue_ne_nil htrim

/-- IDENTITY: what has an identity arrives with one. -/
theorem exists_sentIdentity (h : hasRepresentationIdentity representation = true) :
    ∃ identity, sentIdentity representation = some identity := by
  refine ⟨_, if_pos ?_⟩
  rw [hasRepresentationIdentity, Bool.or_eq_true] at h
  exact h.imp trim_sentValue_ne_nil trim_sentValue_ne_nil

theorem exists_setPresent {name : String} {value : Option JsString}
    (h : (sentValue value).all Headers.isValue = true) (hno : headers.get name = none) :
    ∃ headers', setPresent headers name value = .ok headers' ∧ headers'.get name = sentValue value ∧
      ∀ other, js other ≠ js name → headers'.get other = headers.get other := by
  cases value with
  | none => exact ⟨headers, rfl, hno, fun _ _ => rfl⟩
  | some value =>
    by_cases hempty : value = []
    · subst hempty
      exact ⟨headers, rfl, hno, fun _ _ => rfl⟩
    · have hfilter : (some value).filter (· ≠ []) = some value := by
        rw [Option.filter_some, if_pos (decide_eq_true hempty)]
      rw [sentValue, hfilter] at h ⊢
      obtain ⟨headers', hset, hget, hother⟩ := @exists_set headers name value (by simpa using h)
      refine ⟨headers', ?_, hget, hother⟩
      rw [setPresent, if_neg hempty, hset]

/-- HEADERS: the identity and the server's limit are added; the range and the length stay. -/
theorem buildBundleHeaders_spec (hsend : isSendable representation = true)
    (hetag : headers.get "etag" = none) (hversion : headers.get "x-amz-version-id" = none) : ∃ headers',
    buildBundleHeaders delivery representation headers = .ok headers' ∧
      readRepresentationIdentity headers' = sentIdentity representation ∧
      headers'.get "x-stark-bundle-range-chunk-size" = some (decimal delivery.bundleRangeMaxBytes) ∧
      headers'.get "content-range" = headers.get "content-range" ∧
      headers'.get "content-length" = headers.get "content-length" := by
  rw [isSendable, Bool.and_eq_true] at hsend
  obtain ⟨h₁, hset₁, -, hother₁⟩ :=
    @exists_set headers "content-type" (js "application/zip") (by decide)
  obtain ⟨h₂, hset₂, -, hother₂⟩ := @exists_set_plain h₁ "content-disposition"
    (js "attachment; filename=\"" ++ delivery.finalizationId ++ js ".zip\"") (by
      intro c hc
      simp only [List.mem_append] at hc
      rcases hc with (hc | hc) | hc
      · exact @printable_of_all (js "attachment; filename=\"") (by decide) c hc
      · exact segment_printable delivery.finalizationId_safe c hc
      · exact @printable_of_all (js ".zip\"") (by decide) c hc) rfl (by
      rw [List.getLast?_append_of_ne_nil _ (by decide)]
      decide)
  obtain ⟨h₃, hset₃, -, hother₃⟩ := @exists_set h₂ "cache-control" (js "no-store") (by decide)
  obtain ⟨h₄, hset₄, -, hother₄⟩ := @exists_set h₃ "accept-ranges" (js "bytes") (by decide)
  obtain ⟨h₅, hset₅, hchunk, hother₅⟩ :=
    @exists_set_decimal h₄ "x-stark-bundle-range-chunk-size" delivery.bundleRangeMaxBytes
  -- none of the five is a header of the identity or of the range
  have hkept : ∀ other ∈ ["etag", "x-amz-version-id", "content-range", "content-length"],
      h₅.get other = headers.get other := by
    intro other hmem
    have hne : ∀ name ∈ ["content-type", "content-disposition", "cache-control", "accept-ranges",
        "x-stark-bundle-range-chunk-size"], js other ≠ js name := by
      revert hmem
      revert other
      decide
    rw [hother₅ other (hne _ (by decide)), hother₄ other (hne _ (by decide)),
      hother₃ other (hne _ (by decide)), hother₂ other (hne _ (by decide)),
      hother₁ other (hne _ (by decide))]
  obtain ⟨h₆, hset₆, hetag₆, hother₆⟩ :=
    @exists_setPresent h₅ "etag" _ hsend.1 ((hkept _ (by decide)).trans hetag)
  obtain ⟨h₇, hset₇, hversion₇, hother₇⟩ := @exists_setPresent h₆ "x-amz-version-id" _ hsend.2
    ((hother₆ _ (by decide)).trans ((hkept _ (by decide)).trans hversion))
  refine ⟨h₇, ?_, ?_, ?_, ?_, ?_⟩
  · simp only [buildBundleHeaders, applyRepresentationHeaders, hset₁, hset₂, hset₃, hset₄, hset₅, hset₆,
      hset₇, ok_bind]
  · rw [readRepresentationIdentity, hversion₇, hother₇ _ (by decide), hetag₆, sentIdentity]
  · rw [hother₇ _ (by decide), hother₆ _ (by decide), hchunk]
  · rw [hother₇ _ (by decide), hother₆ _ (by decide), hkept _ (by decide)]
  · rw [hother₇ _ (by decide), hother₆ _ (by decide), hkept _ (by decide)]

/-! ### What a range request is answered with -/

theorem parseRangeHeader_text (hle : start ≤ last) (hsafe : last ≤ Num.maxSafeInteger) :
    parseRangeHeader (some (rangeHeaderText start last)) = some (.closed start last) := by
  have hstart : parseSafeInteger (decimal start) = some start :=
    parseSafeInteger_decimal (hle.trans hsafe)
  have hlast : parseSafeInteger (decimal last) = some last := parseSafeInteger_decimal hsafe
  have hdigits : ∀ c ∈ decimal start, c.isDigit = true := isDigit_of_mem_decimal
  have htrim : trim (rangeHeaderText start last) = rangeHeaderText start last := by
    have hunit : (js "bytes=").all (fun c => !isBlank c) = true := by decide
    have hminus : (js "-").all (fun c => !isBlank c) = true := by decide
    refine trim_eq_self fun c hc => ?_
    simp only [rangeHeaderText, List.mem_append] at hc
    rcases hc with ((hc | hc) | hc) | hc
    · simpa using List.all_eq_true.mp hunit c hc
    · exact isBlank_of_isDigit (isDigit_of_mem_decimal c hc)
    · simpa using List.all_eq_true.mp hminus c hc
    · exact isBlank_of_isDigit (isDigit_of_mem_decimal c hc)
  have hbounds :
      rangeBounds (decimal start ++ (js "-" ++ decimal last)) = some (decimal start, decimal last) := by
    have hminus : (js "-" ++ decimal last).dropWhile Char.isDigit = js "-" ++ decimal last ∧
        (js "-" ++ decimal last).takeWhile Char.isDigit = [] := ⟨rfl, rfl⟩
    have hall : (decimal last).all Char.isDigit = true := List.all_eq_true.mpr isDigit_of_mem_decimal
    rw [rangeBounds, List.dropWhile_append_of_pos hdigits, List.takeWhile_append_of_pos hdigits,
      hminus.1, hminus.2, after_append, List.append_nil]
    simp only [Option.bind_eq_bind, Option.bind_some, hall, if_true]
  have hafter :
      after "bytes=" (rangeHeaderText start last) =
        some (decimal start ++ (js "-" ++ decimal last)) := by
    rw [rangeHeaderText, List.append_assoc, List.append_assoc, after_append]
  rw [parseRangeHeader, Option.map_some, htrim, hafter, Option.bind_some, hbounds]
  simp only [decimal_ne_nil, ne_eq, not_false_eq_true, if_true, false_and, if_false, parseForwardRange,
    hstart, hlast, if_pos hle]

/-- What the client can see of an answer with a range. -/
structure ServedRange (delivery : Delivery) (representation : ArtifactRepresentationIdentity)
    (bytes : List UInt8) (start last : ℕ) (response : Response) : Prop where
  status : response.status = 206
  range : ∃ range, satisfiedRangeOf response.headers = some range ∧ range.start = start ∧
    range.last = last ∧
    range.total = bytes.length
  identity : readRepresentationIdentity response.headers = sentIdentity representation
  chunkSize :
    response.headers.get "x-stark-bundle-range-chunk-size" = some (decimal delivery.bundleRangeMaxBytes)
  contentLength : response.headers.get "content-length" = some (decimal (last - start + 1))
  body : response.body = bodyOf delivery (slice bytes (start, last))

theorem rangeResponse_spec (delivery : Delivery) (hsend : isSendable representation = true)
    (hle : start ≤ last) (hlt : last < bytes.length) (hsafe : bytes.length ≤ Num.maxSafeInteger) :
    ∃ response,
    rangeResponse delivery (slice bytes (start, last)) bytes.length start last representation =
      .ok response ∧
      ServedRange delivery representation bytes start last response := by
  have hlength : (slice bytes (start, last)).length = last - start + 1 := by
    rw [slice, List.length_drop, List.length_take]
    omega
  obtain ⟨h₁, hset₁, hrange, hother₁⟩ :=
    @exists_set_contentRange [] "content-range" start last bytes.length
  obtain ⟨h₂, hset₂, hcontentLength, hother₂⟩ :=
    @exists_set_decimal h₁ "content-length" (slice bytes (start, last)).length
  have hempty (name : String) : Headers.get [] name = none := rfl
  obtain ⟨headers, hbuild, hidentity, hchunk, hrange', hlength'⟩ :=
    @buildBundleHeaders_spec delivery representation h₂
    hsend (by rw [hother₂ _ (by decide), hother₁ _ (by decide), hempty])
    (by rw [hother₂ _ (by decide), hother₁ _ (by decide), hempty])
  refine ⟨⟨206, headers, bodyOf delivery (slice bytes (start, last))⟩, ?_, rfl, ?_, hidentity,
    hchunk, ?_, rfl⟩
  · simp only [rangeResponse, hset₁, hset₂, hbuild, ok_bind]
    rfl
  · refine ⟨⟨start, last, bytes.length, hle, hlt⟩, ?_, rfl, rfl, rfl⟩
    rw [satisfiedRangeOf, hrange', hother₂ _ (by decide), hrange, parseContentRange_text hle hlt hsafe]
  · rw [hlength', hcontentLength, hlength]

/-- SERVED: a range that begins inside the bundle is answered from there, as far as the
    bundle and the limit go. -/
theorem getVerificationBundle_range (delivery : Delivery)
    (hidentity : hasRepresentationIdentity representation = true)
    (hsend : isSendable representation = true) (hle : start ≤ last) (hlast : last ≤ Num.maxSafeInteger)
    (hin : start < bytes.length) (hsafe : bytes.length ≤ Num.maxSafeInteger) :
      ∃ response, getVerificationBundle delivery bytes representation
        (some (rangeHeaderText start last)) = .ok response ∧
      ServedRange delivery representation bytes start
        (min (min last (bytes.length - 1)) (start + delivery.bundleRangeMaxBytes - 1)) response := by
  have hmax := delivery.rangeMax_pos
  have hresolve : resolveArtifactRange (.closed start last) bytes.length delivery.bundleRangeMaxBytes =
      some (start, min (min last (bytes.length - 1)) (start + delivery.bundleRangeMaxBytes - 1)) := by
    rw [resolveArtifactRange, if_neg (by omega)]
    exact if_pos ⟨by omega, hlast, hle, hin⟩
  generalize hend :
    min (min last (bytes.length - 1)) (start + delivery.bundleRangeMaxBytes - 1) = stop at hresolve ⊢
  have hstart : start ≤ stop := by omega
  have hstop : stop < bytes.length := by omega
  obtain ⟨response, hresponse, hserved⟩ := rangeResponse_spec delivery hsend hstart hstop hsafe
  refine ⟨response, ?_, hserved⟩
  have hvalid :
      validRangeResult (slice bytes (start, stop)) bytes.length start stop representation = true := by
    have hlength : (slice bytes (start, stop)).length = stop - start + 1 := by
      rw [slice, List.length_drop, List.length_take]
      omega
    simp only [validRangeResult, hlength, hidentity, Bool.and_eq_true, decide_eq_true_eq, and_true]
    omega
  rw [getVerificationBundle, parseRangeHeader_text hle hlast]
  simp only [projectArtifactRead, hresolve, bundleReaderResponse, Option.isSome_some, hvalid,
    and_self, if_true, hresponse, ok_bind]
  rfl

end Served

end StarkBallot.Api.VerificationBundles
