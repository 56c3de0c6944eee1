import StarkBallot.Runtime.Numbers
import StarkBallot.Schemes.Result

/-! Partial responses: the `Content-Range` header (`content-range.ts`), and which answers the download
    admits (`artifact-response.ts`).

        bytes 0-3/10    start 0, last 3, of 10 bytes in all
        bytes */10      nothing was served

    The first answer may end wherever it likes inside the first chunk; every later one must be the bytes
    that were asked for, of the same representation. -/

namespace StarkBallot.ApiContract
open Schemes

/-! ### Headers -/

/-- Headers by lower-case name. -/
abbrev Headers := List (JsString × JsString)

namespace Headers

def get (headers : Headers) (name : String) : Option JsString := headers.lookup (js name)

/-- The white space that is cut off a header value. -/
def isHttpBlank (c : Char) : Bool := c.toNat ∈ [9, 10, 13, 32]

def normalizeValue (value : JsString) : JsString := (value.dropWhile isHttpBlank).rdropWhile isHttpBlank

/-- A value is a string of bytes without NUL and line ends. -/
def isValue (value : JsString) : Bool := value.all fun c => c.toNat ≤ 255 && c.toNat ∉ [0, 10, 13]

/-- `headers.set(name, value)`. -/
def set (headers : Headers) (name : String) (value : JsString) : JsM Headers :=
  if isValue (normalizeValue value) then
    .ok ((js name, normalizeValue value) :: mapDelete headers (js name))
  else .error (.error "Invalid header value")

end Headers

/-- A response as the reader of its body meets it: the body is null or comes in
    chunks, and reading may fail. -/
structure Response where
  status : ℕ
  headers : Headers
  body : Option (List (JsM (List UInt8)))

/-! ### Content ranges -/

/-- `end` is the last byte of the range, not the one after it. -/
structure SatisfiedContentRange where
  start : ℕ
  last : ℕ
  total : ℕ
  start_le : start ≤ last
  last_lt : last < total
  deriving DecidableEq

def SatisfiedContentRange.advertisedLength (range : SatisfiedContentRange) : ℕ :=
  range.last - range.start + 1

inductive ParsedContentRange where
  | satisfied (range : SatisfiedContentRange)
  | unsatisfied (total : ℕ)
  deriving DecidableEq

/-- What follows a literal part of a pattern. -/
def after (literal : String) (text : JsString) : Option JsString :=
  if (js literal).isPrefixOf text then some (text.drop (js literal).length) else none

/-- `(\d+)`, and what follows. -/
def digitsOf (text : JsString) : Option (JsString × JsString) :=
  let digits := text.takeWhile Char.isDigit
  if digits = [] then none else some (digits, text.dropWhile Char.isDigit)

/-- The last group of a pattern. -/
def lastDigits (text : JsString) : Option JsString := do
  let (digits, rest) ← digitsOf text
  if rest = [] then some digits else none

/-- The number of a text of digits, which has no sign. -/
def parseSafeInteger (value : JsString) : Option ℕ :=
  let parsed := numberOf value
  if parsed.isSafeInteger then some parsed.toNat else none

def satisfiedMatch (value : JsString) : Option (JsString × JsString × JsString) := do
  let value ← after "bytes " value
  let (start, value) ← digitsOf value
  let value ← after "-" value
  let (last, value) ← digitsOf value
  let value ← after "/" value
  let total ← lastDigits value
  return (start, last, total)

def satisfiedRange (start last total : JsString) : Option ParsedContentRange := do
  let start ← parseSafeInteger start
  let last ← parseSafeInteger last
  let total ← parseSafeInteger total
  if h : start ≤ last ∧ last < total then some (.satisfied ⟨start, last, total, h.1, h.2⟩) else none

def unsatisfiedRange (value : JsString) : Option ParsedContentRange := do
  let value ← after "bytes */" value
  let total ← lastDigits value
  return .unsatisfied (← parseSafeInteger total)

def parseContentRange (value : Option JsString) : Option ParsedContentRange :=
  match value with
  | none => none
  | some value =>
    match satisfiedMatch value with
    | some (start, last, total) => satisfiedRange start last total
    | none => unsatisfiedRange value

/-- `bytes ${start}-${end}/${total}`. -/
def contentRangeText (start last total : ℕ) : JsString :=
  js "bytes " ++ decimal start ++ js "-" ++ decimal last ++ js "/" ++ decimal total

/-! ### Admission -/

def identitySeparator : Char := Char.ofNat 0

def identityOf (etag versionId : Option JsString) : Option JsString :=
  let etag := (etag.map trim).getD []
  let versionId := (versionId.map trim).getD []
  if etag ≠ [] ∨ versionId ≠ [] then some (etag ++ identitySeparator :: versionId) else none

def readRepresentationIdentity (headers : Headers) : Option JsString :=
  identityOf (headers.get "etag") (headers.get "x-amz-version-id")

def invalidRangedResponse : JsError := .error "Invalid ranged bundle response"

/-- The range a response is of. -/
def satisfiedRangeOf (headers : Headers) : Option SatisfiedContentRange :=
  match parseContentRange (headers.get "content-range") with
  | some (.satisfied range) => some range
  | _ => none

def admitInitialArtifactRange (headers : Headers) (chunkBytes maxBytes : ℕ) :
    JsM (SatisfiedContentRange × JsString) :=
  match satisfiedRangeOf headers with
  | none => .error invalidRangedResponse
  | some range =>
    if range.start ≠ 0 ∨ chunkBytes ≤ range.last ∨ maxBytes < range.total then
      .error invalidRangedResponse
    else match readRepresentationIdentity headers with
      | none => .error invalidRangedResponse
      | some identity => .ok (range, identity)

structure ExpectedRange where
  start : ℕ
  last : ℕ
  total : ℕ
  representationIdentity : JsString

def admitNextArtifactRange (headers : Headers) (expected : ExpectedRange) : JsM SatisfiedContentRange :=
  match satisfiedRangeOf headers with
  | none => .error invalidRangedResponse
  | some range =>
    if range.start ≠ expected.start ∨ range.last ≠ expected.last ∨ range.total ≠ expected.total then
      .error invalidRangedResponse
    else if readRepresentationIdentity headers ≠ some expected.representationIdentity then
      .error (.error "Bundle representation changed during download")
    else .ok range

def resolveArtifactChunkSize (value : Option JsString) (defaultBytes : ℕ) : ℕ :=
  match value with
  | none => defaultBytes
  | some value =>
    let parsed := numberOf value
    if value ≠ [] ∧ parsed.isSafeInteger ∧ (Num.ofNat 0).lt parsed then min parsed.toNat defaultBytes
      else defaultBytes

def readArtifactContentLength (headers : Headers) (maxBytes : ℕ) (limitMessage : String) :
    JsM (Option ℕ) :=
  match headers.get "content-length" with
  | none => .ok none
  | some contentLength =>
    let declaredBytes := numberOf contentLength
    if contentLength ≠ [] ∧ contentLength.all Char.isDigit ∧ declaredBytes.isSafeInteger ∧
        declaredBytes.toNat ≤ maxBytes then .ok (some declaredBytes.toNat)
    else .error (.error limitMessage)

/-! ### What is admitted -/

section Admission

variable {headers : Headers} {chunkBytes maxBytes : ℕ} {range : SatisfiedContentRange}
  {identity : JsString} {expected : ExpectedRange} {n start last total : ℕ} {rest : JsString}

/-- ADMITTED: a first range starts at zero, ends in the first chunk and is within the size limit. -/
theorem admitInitial_eq_ok :
    admitInitialArtifactRange headers chunkBytes maxBytes = .ok (range, identity) ↔
    satisfiedRangeOf headers = some range ∧
      (range.start = 0 ∧ range.last < chunkBytes ∧ range.total ≤ maxBytes) ∧
      readRepresentationIdentity headers = some identity := by
  unfold admitInitialArtifactRange
  cases satisfiedRangeOf headers with
  | none => simp
  | some found =>
    rcases Classical.em (found.start ≠ 0 ∨ chunkBytes ≤ found.last ∨
      maxBytes < found.total) with hbad | hgood
    · simp only [if_pos hbad, reduceCtorEq, false_iff]
      rintro ⟨hsame, hin, -⟩
      obtain rfl := Option.some.inj hsame
      omega
    · simp only [if_neg hgood]
      have hin : found.start = 0 ∧ found.last < chunkBytes ∧ found.total ≤ maxBytes := by omega
      cases readRepresentationIdentity headers with
      | none => simp
      | some own =>
        constructor
        · intro h
          obtain ⟨rfl, rfl⟩ := Prod.mk.inj (Except.ok.inj h)
          exact ⟨rfl, hin, rfl⟩
        · rintro ⟨hsame, -, hown⟩
          rw [Option.some.inj hsame, Option.some.inj hown]

/-- ADMITTED: a later range is the one that was asked for. -/
theorem admitNext_eq_ok : admitNextArtifactRange headers expected = .ok range ↔
    satisfiedRangeOf headers = some range ∧
      (range.start = expected.start ∧ range.last = expected.last ∧ range.total = expected.total) ∧
      readRepresentationIdentity headers = some expected.representationIdentity := by
  unfold admitNextArtifactRange
  cases satisfiedRangeOf headers with
  | none => simp
  | some found =>
    rcases Classical.em (found.start ≠ expected.start ∨ found.last ≠ expected.last ∨
      found.total ≠ expected.total) with
      hbad | hgood
    · simp only [if_pos hbad, reduceCtorEq, false_iff]
      rintro ⟨hsame, hin, -⟩
      obtain rfl := Option.some.inj hsame
      omega
    · simp only [if_neg hgood]
      have hin :
          found.start = expected.start ∧ found.last = expected.last ∧
          found.total = expected.total := by omega
      rcases Classical.em
        (readRepresentationIdentity headers = some expected.representationIdentity) with
        hsame | hother
      · simp only [hsame, ne_eq, not_true_eq_false, if_false, Except.ok.injEq,
          Option.some.injEq, and_true]
        constructor
        · rintro rfl
          exact ⟨rfl, hin⟩
        · exact fun h => h.1
      · simp [hother]

/-- A chunk is never empty, and never larger than the client's own. -/
theorem resolveArtifactChunkSize_bounds {value : Option JsString} (h : 0 < n) :
    0 < resolveArtifactChunkSize value n ∧ resolveArtifactChunkSize value n ≤ n := by
  unfold resolveArtifactChunkSize
  cases value with
  | none => exact ⟨h, le_rfl⟩
  | some value =>
    dsimp only
    split
    · rename_i hnumber
      obtain ⟨-, hsafe, hpos⟩ := hnumber
      have hparsed := Num.toNat_pos_of_safe hsafe (Num.le_eq_false_of_lt hpos)
      exact ⟨lt_min hparsed h, min_le_right _ _⟩
    · exact ⟨h, le_rfl⟩

theorem resolveArtifactChunkSize_decimal (hpos : 0 < n) (hsafe : n ≤ Num.maxSafeInteger) :
    resolveArtifactChunkSize (some (decimal n)) chunkBytes = min n chunkBytes := by
  have hnumber : (Num.ofNat n).isSafeInteger = true ∧ (Num.ofNat 0).lt (Num.ofNat n) = true :=
    ⟨Num.ofNat_isSafeInteger.mpr hsafe, by rw [Num.ofNat_lt]; exact decide_eq_true hpos⟩
  simp only [resolveArtifactChunkSize, numberOf_decimal hsafe]
  rw [if_pos ⟨decimal_ne_nil n, hnumber⟩, Num.ofNat_toNat]

theorem readArtifactContentLength_decimal (hsafe : n ≤ Num.maxSafeInteger) (hle : n ≤ maxBytes)
    (hheader : headers.get "content-length" = some (decimal n)) (limitMessage : String) :
    readArtifactContentLength headers maxBytes limitMessage = .ok (some n) := by
  have hdigits : (decimal n).all Char.isDigit = true := List.all_eq_true.mpr isDigit_of_mem_decimal
  simp only [readArtifactContentLength, hheader, numberOf_decimal hsafe, Num.ofNat_toNat]
  rw [if_pos ⟨decimal_ne_nil n, hdigits, Num.ofNat_isSafeInteger.mpr hsafe, hle⟩]

/-! ### Texts of ranges -/

theorem after_append (literal : String) (text : JsString) :
    after literal (js literal ++ text) = some text := by
  rw [after, if_pos (List.isPrefixOf_iff_prefix.mpr (List.prefix_append _ _)), List.drop_left]

/-- A number ends where something else begins. -/
theorem digitsOf_append (h : rest.head?.all fun c => !c.isDigit) :
    digitsOf (decimal n ++ rest) = some (decimal n, rest) := by
  have hdigits : ∀ c ∈ decimal n, c.isDigit = true := isDigit_of_mem_decimal
  have htake : rest.takeWhile Char.isDigit = [] ∧ rest.dropWhile Char.isDigit = rest := by
    cases rest with
    | nil => exact ⟨rfl, rfl⟩
    | cons c rest =>
      have hc : c.isDigit = false := by simpa using h
      rw [List.takeWhile_cons, List.dropWhile_cons, hc]
      exact ⟨rfl, rfl⟩
  rw [digitsOf, List.takeWhile_append_of_pos hdigits, List.dropWhile_append_of_pos hdigits,
    htake.1, htake.2, List.append_nil, if_neg (decimal_ne_nil n)]

theorem lastDigits_decimal : lastDigits (decimal n) = some (decimal n) := by
  have hdigits := @digitsOf_append n [] rfl
  rw [List.append_nil] at hdigits
  rw [lastDigits, hdigits]
  rfl

theorem parseSafeInteger_decimal (h : n ≤ Num.maxSafeInteger) :
    parseSafeInteger (decimal n) = some n := by
  simp only [parseSafeInteger, numberOf_decimal h]
  rw [if_pos (Num.ofNat_isSafeInteger.mpr h), Num.ofNat_toNat]

/-- READ BACK: the range a server writes is the range a client reads. -/
theorem parseContentRange_text (hle : start ≤ last) (hlt : last < total)
    (hsafe : total ≤ Num.maxSafeInteger) :
    parseContentRange (some (contentRangeText start last total)) =
      some (.satisfied ⟨start, last, total, hle, hlt⟩) := by
  have hstart : parseSafeInteger (decimal start) = some start := parseSafeInteger_decimal (by omega)
  have hlast : parseSafeInteger (decimal last) = some last := parseSafeInteger_decimal (by omega)
  have htotal : parseSafeInteger (decimal total) = some total := parseSafeInteger_decimal hsafe
  have hmatch : satisfiedMatch (contentRangeText start last total) =
      some (decimal start, decimal last, decimal total) := by
    simp only [contentRangeText, List.append_assoc, satisfiedMatch, after_append, Option.bind_eq_bind,
      Option.bind_some]
    rw [digitsOf_append rfl]
    simp only [after_append, Option.bind_some]
    rw [digitsOf_append rfl]
    simp only [after_append, Option.bind_some, lastDigits_decimal]
    rfl
  simp only [parseContentRange, hmatch, satisfiedRange, hstart, hlast, htotal, Option.bind_eq_bind,
    Option.bind_some]
  rw [dif_pos ⟨hle, hlt⟩]

end Admission

end StarkBallot.ApiContract
