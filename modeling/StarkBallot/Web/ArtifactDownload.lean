import StarkBallot.Api.VerificationBundles
import StarkBallot.Runtime.Sha256

/-! The bundle download of the browser (`artifacts.ts`): a first range, then one range after another
    until the bundle is whole.

        first ──▶ 206 ──▶ next ──▶ next ──▶ ⋯ ──▶ returned
          │                 └───────┴──▶ failed
          └──▶ 200 ──▶ returned

    Each await of the source is a state, and a reply takes the download to the next one. Whatever the
    replies are, every range that is accepted begins where the one before it ended. -/

namespace StarkBallot.Web
open Schemes ApiContract Api.VerificationBundles

/-! ### Bodies -/

section Bodies

/-- One turn of the reader's loop. -/
def readChunk (maxBytes : ℕ) (limitMessage : String) (bytes : List UInt8) (read : JsM (List UInt8)) :
    JsM (List UInt8) := do
  let chunk ← read
  refuseIf (maxBytes < bytes.length + chunk.length) (JsError.error limitMessage)
  return bytes ++ chunk

def readResponseBytesWithLimit (response : Response) (maxBytes : ℕ) (limitMessage : String) :
    JsM (List UInt8) := do
  let declaredBytes ← readArtifactContentLength response.headers maxBytes limitMessage
  match response.body with
  | none => return []
  | some reads =>
    let bytes ← reads.foldlM (readChunk maxBytes limitMessage) []
    refuseIf (declaredBytes.any (· ≠ bytes.length)) (JsError.error limitMessage)
    return bytes

def readRangeBody (response : Response) (expectedLength : ℕ) : JsM (List UInt8) := do
  let bytes ← readResponseBytesWithLimit response expectedLength "Invalid ranged bundle response"
  refuseIf (bytes.length ≠ expectedLength) invalidRangedResponse
  return bytes

def readBundleBodyWithLimit (maxBytes : ℕ) (response : Response) : JsM (List UInt8) :=
  readResponseBytesWithLimit response maxBytes "Bundle download exceeds size limit"

end Bodies

/-! ### The download -/

/-- The variables of the loop. -/
structure RangeLoop where
  total : ℕ
  chunkSize : ℕ
  nextStart : ℕ
  representationIdentity : JsString
  chunks : List (List UInt8)

/-- What a download awaits, or how it ended. -/
inductive BundleDownload where
  | first
  | next (loop : RangeLoop)
  | returned (ranged : Bool) (blob : List UInt8)
  | failed (error : JsError)

namespace BundleDownload

def isSettled : BundleDownload → Bool
  | first => false
  | next _ => false
  | returned _ _ => true
  | failed _ => true

end BundleDownload

/-- The client's constants, and the error it reports for a response that is not ok. -/
structure DownloadOptions where
  chunkBytes : ℕ
  maxBytes : ℕ
  reported : Response → JsError
  chunkBytes_pos : 0 < chunkBytes
  chunkBytes_safe : chunkBytes ≤ Num.maxSafeInteger

/-- A byte array: the language keeps its length a safe integer. -/
structure Uint8Array where
  toList : List UInt8
  length_safe : toList.length ≤ Num.maxSafeInteger

section Client

variable (options : DownloadOptions)

def throwIfDownloadFailed (response : Response) : JsM Unit :=
  refuseIf (¬ (200 ≤ response.status ∧ response.status ≤ 299)) (options.reported response)

/-- The head of the loop: await the next range, or return the chunks. -/
def RangeLoop.proceed (loop : RangeLoop) : BundleDownload :=
  if loop.nextStart < loop.total then .next loop else .returned true loop.chunks.flatten

def RangeLoop.nextEnd (loop : RangeLoop) : ℕ :=
  min (loop.nextStart + loop.chunkSize - 1) (loop.total - 1)

def receiveFirst (response : Response) : JsM BundleDownload := do
  if response.status ≠ 206 then
    throwIfDownloadFailed options response
    refuseIf (response.status ≠ 200) (JsError.error "Invalid bundle download response")
    return .returned false (← readBundleBodyWithLimit options.maxBytes response)
  else
    let (contentRange, representationIdentity) ←
      admitInitialArtifactRange response.headers options.chunkBytes options.maxBytes
    let chunk ← readRangeBody response contentRange.advertisedLength
    let chunkSize :=
      resolveArtifactChunkSize (response.headers.get "x-stark-bundle-range-chunk-size")
        options.chunkBytes
    return RangeLoop.proceed ⟨contentRange.total, chunkSize, contentRange.last + 1,
      representationIdentity, [chunk]⟩

def receiveNext (loop : RangeLoop) (response : Response) : JsM BundleDownload := do
  throwIfDownloadFailed options response
  refuseIf (response.status ≠ 206) invalidRangedResponse
  let range ← admitNextArtifactRange response.headers
    ⟨loop.nextStart, loop.nextEnd, loop.total, loop.representationIdentity⟩
  let chunk ← readRangeBody response range.advertisedLength
  return RangeLoop.proceed { loop with nextStart := range.last + 1, chunks := loop.chunks ++ [chunk] }

def settle : JsM BundleDownload → BundleDownload
  | .ok download => download
  | .error error => .failed error

/-- `fetchBundleBlob`, from one await to the next. A fetch that fails is a reply too. -/
def receive (download : BundleDownload) (reply : JsM Response) : BundleDownload :=
  match download with
  | .first => settle (reply >>= receiveFirst options)
  | .next loop => settle (reply >>= receiveNext options loop)
  | .returned ranged blob => .returned ranged blob
  | .failed error => .failed error

/-- The `Range` header of the request whose reply is awaited. -/
def rangeHeader : BundleDownload → Option JsString
  | .first => some (rangeHeaderText 0 (options.chunkBytes - 1))
  | .next loop => some (rangeHeaderText loop.nextStart loop.nextEnd)
  | .returned _ _ => none
  | .failed _ => none

/-- A server answers the request that is awaited. -/
def answer (server : JsString → JsM Response) (download : BundleDownload) : JsM Response :=
  match rangeHeader options download with
  | some header => server header
  | none => .error (JsError.error "Nothing is awaited")

/-- One request and its reply. -/
def exchange (server : JsString → JsM Response) (download : BundleDownload) : BundleDownload :=
  receive options download (answer options server download)

end Client

/-! ### Bodies that are read -/

section Read

variable {response : Response} {maxBytes : ℕ} {limitMessage : String} {bytes : List UInt8}

/-- LOOP: what was read before, and the rest in order. -/
theorem foldlM_readChunk {chunks : List (List UInt8)} : ∀ {before : List UInt8},
    before.length + chunks.flatten.length ≤ maxBytes →
    (chunks.map .ok).foldlM (readChunk maxBytes limitMessage) before =
      .ok (before ++ chunks.flatten) := by
  induction chunks with
  | nil =>
    intro before _
    rw [List.flatten_nil, List.append_nil]
    rfl
  | cons chunk chunks ih =>
    intro before hle
    rw [List.flatten_cons, List.length_append] at hle
    have hstep : readChunk maxBytes limitMessage before (.ok chunk) = .ok (before ++ chunk) := by
      rw [readChunk, ok_bind, refuseIf_of_not (by omega)]
      rfl
    have hrest := @ih (before ++ chunk) (by rw [List.length_append]; omega)
    rw [List.map_cons, List.foldlM_cons, hstep, ok_bind, hrest, List.flatten_cons, List.append_assoc]

/-- A range is read whole. -/
theorem readRangeBody_ok {delivery : Delivery} (hsafe : bytes.length ≤ Num.maxSafeInteger)
    (hlength : response.headers.get "content-length" = some (decimal bytes.length))
    (hbody : response.body = bodyOf delivery bytes) :
    readRangeBody response bytes.length = .ok bytes := by
  have hflatten := delivery.chunked_flatten bytes
  have hdeclared :=
    readArtifactContentLength_decimal hsafe le_rfl hlength "Invalid ranged bundle response"
  have hread :
      ((delivery.chunked bytes).map .ok).foldlM
        (readChunk bytes.length "Invalid ranged bundle response") [] =
      .ok bytes := by
    rw [foldlM_readChunk (by rw [hflatten, List.length_nil, Nat.zero_add]), hflatten, List.nil_append]
  rw [readRangeBody, readResponseBytesWithLimit, hdeclared, hbody]
  simp only [bodyOf, ok_bind, hread]
  rw [refuseIf_of_not (by simp), ok_bind, pure_bind, refuseIf_of_not (by simp), ok_bind]
  rfl

theorem length_of_readRangeBody {expectedLength : ℕ}
    (h : readRangeBody response expectedLength = .ok bytes) :
    bytes.length = expectedLength := by
  rw [readRangeBody] at h
  obtain ⟨read, -, h⟩ := bind_eq_ok.mp h
  obtain ⟨_, hlength, h⟩ := bind_eq_ok.mp h
  rw [refuseIf_eq_ok, not_not] at hlength
  rw [← Except.ok.inj h]
  exact hlength

end Read

/-! ### Any replies -/

section Replies

variable {options : DownloadOptions} {loop : RangeLoop} {response : Response} {download : BundleDownload}

/-- What a download has left to do. -/
def remaining (options : DownloadOptions) : BundleDownload → ℕ
  | .first => options.maxBytes
  | .next loop => loop.total - loop.nextStart
  | .returned _ _ => 0
  | .failed _ => 0

/-- A first reply that was taken is a whole response or a first range. -/
theorem receiveFirst_eq_ok (h : receiveFirst options response = .ok download) :
    (∃ blob, download = .returned false blob) ∨ ∃ range identity chunk chunkSize,
      response.status = 206 ∧
      (satisfiedRangeOf response.headers = some range ∧
        (range.start = 0 ∧ range.last < options.chunkBytes ∧ range.total ≤ options.maxBytes) ∧
        readRepresentationIdentity response.headers = some identity) ∧
      readRangeBody response range.advertisedLength = .ok chunk ∧
      download = RangeLoop.proceed ⟨range.total, chunkSize, range.last + 1, identity, [chunk]⟩ := by
  rw [receiveFirst] at h
  split at h
  · obtain ⟨_, -, h⟩ := bind_eq_ok.mp h
    obtain ⟨_, -, h⟩ := bind_eq_ok.mp h
    obtain ⟨blob, -, h⟩ := bind_eq_ok.mp h
    exact .inl ⟨blob, (Except.ok.inj h).symm⟩
  · rename_i hstatus
    obtain ⟨⟨range, identity⟩, hadmit, h⟩ := bind_eq_ok.mp h
    obtain ⟨chunk, hchunk, h⟩ := bind_eq_ok.mp h
    exact .inr ⟨range, identity, chunk, _, not_not.mp hstatus, admitInitial_eq_ok.mp hadmit, hchunk,
      (Except.ok.inj h).symm⟩

/-- A later reply that was taken is the range that was asked for. -/
theorem receiveNext_eq_ok (h : receiveNext options loop response = .ok download) : ∃ range chunk,
    response.status = 206 ∧
    (satisfiedRangeOf response.headers = some range ∧
      (range.start = loop.nextStart ∧ range.last = loop.nextEnd ∧ range.total = loop.total) ∧
      readRepresentationIdentity response.headers = some loop.representationIdentity) ∧
    readRangeBody response range.advertisedLength = .ok chunk ∧
    download = RangeLoop.proceed { loop with
      nextStart := range.last + 1, chunks := loop.chunks ++ [chunk] } := by
  rw [receiveNext] at h
  obtain ⟨_, -, h⟩ := bind_eq_ok.mp h
  obtain ⟨_, hstatus, h⟩ := bind_eq_ok.mp h
  obtain ⟨range, hadmit, h⟩ := bind_eq_ok.mp h
  obtain ⟨chunk, hchunk, h⟩ := bind_eq_ok.mp h
  rw [refuseIf_eq_ok, not_not] at hstatus
  exact ⟨range, chunk, hstatus, admitNext_eq_ok.mp hadmit, hchunk, (Except.ok.inj h).symm⟩

theorem remaining_proceed_lt {bound : ℕ} (h : loop.total - loop.nextStart < bound) :
    loop.proceed.isSettled = true ∨ remaining options loop.proceed < bound := by
  rw [RangeLoop.proceed]
  split
  · exact .inr h
  · exact .inl rfl

theorem settle_cases (result : JsM BundleDownload) :
    (∃ download, result = .ok download) ∨ (settle result).isSettled = true := by
  cases result with
  | ok download => exact .inl ⟨download, rfl⟩
  | error error => exact .inr rfl

/-- STEP: a reply ends the download or leaves it less to do. -/
theorem receive_remaining (download : BundleDownload) (reply : JsM Response)
    (hwaits : ¬ download.isSettled = true) :
    (receive options download reply).isSettled = true ∨
      remaining options (receive options download reply) < remaining options download := by
  cases download with
  | first =>
    rcases settle_cases (reply >>= receiveFirst options) with ⟨download, hok⟩ | hsettled
    · rw [receive, hok]
      obtain ⟨response, -, hreceive⟩ := bind_eq_ok.mp hok
      rcases receiveFirst_eq_ok hreceive with ⟨blob, rfl⟩ |
        ⟨range, identity, chunk, chunkSize, -, ⟨-, ⟨-, -, htotal⟩, -⟩, -, rfl⟩
      · exact .inl rfl
      · have hlast := range.last_lt
        exact remaining_proceed_lt (show range.total - (range.last + 1) < options.maxBytes by omega)
    · exact .inl hsettled
  | next loop =>
    rcases settle_cases (reply >>= receiveNext options loop) with ⟨download, hok⟩ | hsettled
    · rw [receive, hok]
      obtain ⟨response, -, hreceive⟩ := bind_eq_ok.mp hok
      obtain ⟨range, chunk, -, ⟨-, ⟨hstart, -, htotal⟩, -⟩, -, rfl⟩ := receiveNext_eq_ok hreceive
      have hle := range.start_le
      have hlast := range.last_lt
      exact remaining_proceed_lt
        (show loop.total - (range.last + 1) < loop.total - loop.nextStart by omega)
    · exact .inl hsettled
  | returned ranged blob => exact absurd rfl hwaits
  | failed error => exact absurd rfl hwaits

/-! ### What was accepted -/

/-- A response, the range it is of and the bytes it came with. -/
structure Chunk where
  response : Response
  range : SatisfiedContentRange
  bytes : List UInt8

def Chunk.span (chunk : Chunk) : ℕ × ℕ := (chunk.range.start, chunk.range.last)

structure Chunk.Accepted (total : ℕ) (identity : JsString) (chunk : Chunk) : Prop where
  status : chunk.response.status = 206
  range : parseContentRange (chunk.response.headers.get "content-range") = some (.satisfied chunk.range)
  total : chunk.range.total = total
  identity : readRepresentationIdentity chunk.response.headers = some identity
  body : ∃ reads : List (List UInt8), chunk.response.body = some (reads.map .ok) ∧
    chunk.bytes = reads.flatten
  length : chunk.bytes.length = chunk.range.advertisedLength

/-- The first `n` replies are accepted chunks that cover the bundle up to `nextStart`. -/
def Received (replies : ℕ → JsM Response) (n total : ℕ) (identity : JsString) (nextStart : ℕ)
    (blobs : List (List UInt8)) : Prop :=
  ∃ chunks : List Chunk, ((List.range n).map replies = chunks.map fun chunk => .ok chunk.response) ∧
    (∀ chunk ∈ chunks, chunk.Accepted total identity) ∧ Covers 0 (chunks.map Chunk.span) nextStart ∧
    blobs = chunks.map Chunk.bytes

variable {replies : ℕ → JsM Response} {n total nextStart maxBytes : ℕ} {identity : JsString}
  {blobs : List (List UInt8)} {bytes : List UInt8} {limitMessage : String}

theorem received_nothing : Received replies 0 total identity 0 [] := by
  refine ⟨[], rfl, ?_, .nil 0, rfl⟩
  intro chunk hmem
  cases hmem

theorem Received.snoc (h : Received replies n total identity nextStart blobs) {chunk : Chunk}
    (hreply : replies n = .ok chunk.response) (haccepted : chunk.Accepted total identity)
    (hstart : chunk.range.start = nextStart) :
    Received replies (n + 1) total identity (chunk.range.last + 1) (blobs ++ [chunk.bytes]) := by
  obtain ⟨chunks, hreplies, hall, hcovers, rfl⟩ := h
  refine ⟨chunks ++ [chunk], ?_, ?_, ?_, ?_⟩
  · rw [List.range_succ, List.map_append, List.map_append, hreplies, List.map_singleton,
      List.map_singleton, hreply]
  · intro other hmem
    rcases List.mem_append.mp hmem with hold | hnew
    · exact hall other hold
    · rw [List.mem_singleton.mp hnew]
      exact haccepted
  · rw [List.map_append, List.map_singleton, Chunk.span, hstart]
    exact hcovers.snoc (hstart ▸ chunk.range.start_le)
  · rw [List.map_append, List.map_singleton]

/-- A stream that was read through did not fail. -/
theorem exists_of_foldlM_readChunk {reads : List (JsM (List UInt8))} : ∀ {before : List UInt8},
    reads.foldlM (readChunk maxBytes limitMessage) before = .ok bytes →
    ∃ chunks : List (List UInt8), reads = chunks.map .ok ∧ bytes = before ++ chunks.flatten := by
  induction reads with
  | nil =>
    intro before h
    obtain rfl : before = bytes := Except.ok.inj h
    exact ⟨[], rfl, (List.append_nil _).symm⟩
  | cons read reads ih =>
    intro before h
    rw [List.foldlM_cons] at h
    obtain ⟨next, hnext, h⟩ := bind_eq_ok.mp h
    obtain ⟨chunk, hchunk, hroom⟩ := bind_eq_ok.mp hnext
    obtain ⟨_, -, hsame⟩ := bind_eq_ok.mp hroom
    obtain rfl : before ++ chunk = next := Except.ok.inj hsame
    obtain ⟨chunks, hrest, hbytes⟩ := ih h
    refine ⟨chunk :: chunks, ?_, ?_⟩
    · rw [hchunk, hrest, List.map_cons]
    · rw [hbytes, List.flatten_cons, List.append_assoc]

/-- A range that was read came as a stream. -/
theorem body_of_readRangeBody {expectedLength : ℕ} (hpos : 0 < expectedLength)
    (h : readRangeBody response expectedLength = .ok bytes) :
    ∃ reads : List (List UInt8), response.body = some (reads.map .ok) ∧ bytes = reads.flatten := by
  have hlength := length_of_readRangeBody h
  rw [readRangeBody, readResponseBytesWithLimit] at h
  obtain ⟨read, hread, h⟩ := bind_eq_ok.mp h
  obtain ⟨_, -, h⟩ := bind_eq_ok.mp h
  obtain rfl := Except.ok.inj h
  obtain ⟨declared, -, hread⟩ := bind_eq_ok.mp hread
  cases hbody : response.body with
  | none =>
    rw [hbody] at hread
    obtain rfl : [] = read := Except.ok.inj hread
    rw [List.length_nil] at hlength
    omega
  | some reads =>
    rw [hbody] at hread
    obtain ⟨whole, hwhole, hread⟩ := bind_eq_ok.mp hread
    obtain ⟨_, -, hread⟩ := bind_eq_ok.mp hread
    obtain rfl := Except.ok.inj hread
    obtain ⟨chunks, rfl, hflatten⟩ := exists_of_foldlM_readChunk hwhole
    exact ⟨chunks, rfl, hflatten⟩

/-- A range that was admitted and read is an accepted chunk. -/
theorem accepted_of_read {range : SatisfiedContentRange} (hstatus : response.status = 206)
    (hrange : satisfiedRangeOf response.headers = some range) (htotal : range.total = total)
    (hidentity : readRepresentationIdentity response.headers = some identity)
    (hread : readRangeBody response range.advertisedLength = .ok bytes) :
    Chunk.Accepted total identity ⟨response, range, bytes⟩ := by
  refine ⟨hstatus, ?_, htotal, hidentity, body_of_readRangeBody (Nat.succ_pos _) hread,
    length_of_readRangeBody hread⟩
  rw [satisfiedRangeOf] at hrange
  split at hrange
  · rename_i heq
    rw [heq, Option.some.inj hrange]
  · cases hrange

/-- What a download has accepted of the first `n` replies. -/
def Tracks (replies : ℕ → JsM Response) (n : ℕ) : BundleDownload → Prop
  | .first => n = 0
  | .next loop => loop.nextStart < loop.total ∧
      Received replies n loop.total loop.representationIdentity loop.nextStart loop.chunks
  | .returned ranged blob => ranged = true → ∃ k ≤ n, ∃ total identity blobs,
      Received replies k total identity total blobs ∧ blob = blobs.flatten
  | .failed _ => True

theorem tracks_proceed (hend : loop.nextStart ≤ loop.total)
    (h : Received replies n loop.total loop.representationIdentity loop.nextStart loop.chunks) :
    Tracks replies n loop.proceed := by
  rw [RangeLoop.proceed]
  split
  · exact ⟨‹_›, h⟩
  · intro _
    obtain hsame : loop.nextStart = loop.total := by omega
    rw [hsame] at h
    exact ⟨n, le_rfl, loop.total, loop.representationIdentity, loop.chunks, h, rfl⟩

/-- STEP: an accepted reply is one more chunk. -/
theorem receive_tracks (n : ℕ) (download : BundleDownload) (h : Tracks replies n download) :
    Tracks replies (n + 1) (receive options download (replies n)) := by
  cases download with
  | first =>
    obtain rfl : n = 0 := h
    rcases hresult : replies 0 >>= receiveFirst options with error | download
    · rw [receive, hresult]
      exact trivial
    · rw [receive, hresult]
      obtain ⟨response, hreply, hreceive⟩ := bind_eq_ok.mp hresult
      rcases receiveFirst_eq_ok hreceive with ⟨blob, rfl⟩ |
        ⟨range, identity, chunk, chunkSize, hstatus, ⟨hrange, ⟨hstart, -⟩, hidentity⟩, hread, rfl⟩
      · intro hranged
        cases hranged
      · exact tracks_proceed (Nat.succ_le_of_lt range.last_lt)
          (received_nothing.snoc hreply (accepted_of_read hstatus hrange rfl hidentity hread) hstart)
  | next loop =>
    rcases hresult : replies n >>= receiveNext options loop with error | download
    · rw [receive, hresult]
      exact trivial
    · rw [receive, hresult]
      obtain ⟨response, hreply, hreceive⟩ := bind_eq_ok.mp hresult
      obtain ⟨range, chunk, hstatus, ⟨hrange, ⟨hstart, -, htotal⟩, hidentity⟩, hread, rfl⟩ :=
        receiveNext_eq_ok hreceive
      have hend : range.last + 1 ≤ loop.total := htotal ▸ Nat.succ_le_of_lt range.last_lt
      exact tracks_proceed hend
        (h.2.snoc hreply (accepted_of_read hstatus hrange htotal hidentity hread) hstart)
  | returned ranged blob =>
    intro hranged
    obtain ⟨k, hk, hreceived⟩ := h hranged
    exact ⟨k, Nat.le_succ_of_le hk, hreceived⟩
  | failed error => exact trivial

end Replies

/-! ### A server of one bundle -/

section Served

variable {options : DownloadOptions} {delivery : Delivery}
  {representation : ArtifactRepresentationIdentity}
  {bytes : Uint8Array} {loop : RangeLoop} {response : Response} {start last : ℕ}

/-- What a download of the bundle looks like on its way. -/
def OnTheWay (options : DownloadOptions) (delivery : Delivery)
    (representation : ArtifactRepresentationIdentity) (bytes : Uint8Array) : BundleDownload → Prop
  | .first => True
  | .next loop => loop.nextStart < loop.total ∧ loop.total = bytes.toList.length ∧
      loop.chunkSize = min delivery.bundleRangeMaxBytes options.chunkBytes ∧
      sentIdentity representation = some loop.representationIdentity ∧
      loop.chunks.flatten = bytes.toList.take loop.nextStart
  | .returned ranged blob => ranged = true ∧ blob = bytes.toList
  | .failed _ => False

/-- A served range is read whole. -/
theorem readRangeBody_served (h : ServedRange delivery representation bytes.toList start last response)
    (hlast : last < bytes.toList.length) (hle : start ≤ last) :
    readRangeBody response (last - start + 1) = .ok (slice bytes.toList (start, last)) := by
  have hlength : (slice bytes.toList (start, last)).length = last - start + 1 := by
    rw [slice, List.length_drop, List.length_take]
    omega
  have hsafe := bytes.length_safe
  rw [← hlength]
  refine readRangeBody_ok (by omega) ?_ h.body
  rw [hlength]
  exact h.contentLength

theorem onTheWay_proceed (htotal : loop.total = bytes.toList.length) (hend : loop.nextStart ≤ loop.total)
    (hchunk : loop.chunkSize = min delivery.bundleRangeMaxBytes options.chunkBytes)
    (hidentity : sentIdentity representation = some loop.representationIdentity)
    (hchunks : loop.chunks.flatten = bytes.toList.take loop.nextStart) :
    OnTheWay options delivery representation bytes loop.proceed := by
  rw [RangeLoop.proceed]
  split
  · exact ⟨‹_›, htotal, hchunk, hidentity, hchunks⟩
  · refine ⟨rfl, ?_⟩
    rw [hchunks, List.take_of_length_le (by omega)]

/-- STEP: a served reply brings the next bytes. -/
theorem exchange_onTheWay (hidentity : hasRepresentationIdentity representation = true)
    (hsend : isSendable representation = true) (hne : bytes.toList ≠ [])
    (hlimit : bytes.toList.length ≤ options.maxBytes)
    {download : BundleDownload} (h : OnTheWay options delivery representation bytes download) :
    OnTheWay options delivery representation bytes
      (exchange options (fun header => getVerificationBundle delivery bytes.toList representation
        (some header)) download) := by
  have hsize : 0 < bytes.toList.length := List.length_pos_iff.mpr hne
  have hsafe := bytes.length_safe
  have hmax := delivery.rangeMax_pos
  have hchunkBytes := options.chunkBytes_pos
  cases download with
  | first =>
    obtain ⟨response, hresponse, hserved⟩ := getVerificationBundle_range delivery hidentity hsend
      (Nat.zero_le (options.chunkBytes - 1)) ((Nat.sub_le _ _).trans options.chunkBytes_safe) hsize hsafe
    generalize hend : min (min (options.chunkBytes - 1) (bytes.toList.length - 1))
      (0 + delivery.bundleRangeMaxBytes - 1) = stop at hserved
    have hstop : stop < bytes.toList.length := by omega
    obtain ⟨range, hrange, hstart, hlast, htotal⟩ := hserved.range
    obtain ⟨identity, hsent⟩ := exists_sentIdentity hidentity
    have hadmit : admitInitialArtifactRange response.headers options.chunkBytes options.maxBytes =
        .ok (range, identity) :=
      admitInitial_eq_ok.mpr ⟨hrange, ⟨hstart, by omega, by omega⟩, hserved.identity.trans hsent⟩
    have hread := readRangeBody_served hserved hstop (Nat.zero_le _)
    have hlength : range.advertisedLength = stop - 0 + 1 := by
      rw [SatisfiedContentRange.advertisedLength, hstart, hlast]
    have hchunk := @resolveArtifactChunkSize_decimal options.chunkBytes _ hmax delivery.rangeMax_safe
    simp only [exchange, answer, rangeHeader, receive, hresponse, ok_bind, receiveFirst,
      hserved.status, ne_eq, not_true_eq_false, if_false, hadmit, hlength, hread,
      hserved.chunkSize, hchunk]
    refine onTheWay_proceed htotal (Nat.succ_le_of_lt range.last_lt) rfl hsent ?_
    rw [List.flatten_singleton, slice, List.drop_zero, hlast]
  | next loop =>
    obtain ⟨hlt, htotal, hchunk, hsent, hchunks⟩ := h
    have hnextEnd : loop.nextStart ≤ loop.nextEnd ∧ loop.nextEnd < bytes.toList.length ∧
        loop.nextEnd ≤ loop.nextStart + delivery.bundleRangeMaxBytes - 1 := by
      rw [RangeLoop.nextEnd]
      omega
    obtain ⟨response, hresponse, hserved⟩ := getVerificationBundle_range delivery hidentity hsend
      hnextEnd.1 (by omega) (by omega) hsafe
    have hend : min (min loop.nextEnd (bytes.toList.length - 1))
        (loop.nextStart + delivery.bundleRangeMaxBytes - 1) = loop.nextEnd := by omega
    rw [hend] at hserved
    obtain ⟨range, hrange, hstart, hlast, hrangeTotal⟩ := hserved.range
    have hadmit : admitNextArtifactRange response.headers
        ⟨loop.nextStart, loop.nextEnd, loop.total, loop.representationIdentity⟩ = .ok range :=
      admitNext_eq_ok.mpr ⟨hrange, ⟨hstart, hlast, hrangeTotal.trans htotal.symm⟩,
        hserved.identity.trans hsent⟩
    have hread := readRangeBody_served hserved hnextEnd.2.1 hnextEnd.1
    have hlength : range.advertisedLength = loop.nextEnd - loop.nextStart + 1 := by
      rw [SatisfiedContentRange.advertisedLength, hstart, hlast]
    have hstatus : throwIfDownloadFailed options response = .ok () := by
      rw [throwIfDownloadFailed, hserved.status]
      rfl
    simp only [exchange, answer, rangeHeader, receive, hresponse, ok_bind, receiveNext, hstatus,
      hserved.status, ne_eq, not_true_eq_false, refuseIf_of_not, not_false_eq_true, hadmit,
      hlength, hread]
    have hwithin : range.last + 1 ≤ loop.total := by omega
    refine onTheWay_proceed htotal hwithin hchunk hsent ?_
    · rw [List.flatten_append, List.flatten_singleton, hchunks, hlast]
      exact drop_take_append bytes.toList (Nat.zero_le _) (Nat.le_succ_of_le hnextEnd.1)
  | returned ranged blob => exact h
  | failed error => exact h

end Served

/-! ### The whole download -/

section Download

/-- TRANSFER: a bundle that is served comes back byte for byte; against any replies the download ends,
    and what it made of ranges is a chunk for every part of the whole. -/
theorem bundle_download_returns_bytes (options : DownloadOptions) :
    (∀ (delivery : Delivery) (representation : ArtifactRepresentationIdentity) (bytes : Uint8Array),
      hasRepresentationIdentity representation = true → isSendable representation = true →
      bytes.toList ≠ [] →
      bytes.toList.length ≤ options.maxBytes →
      ∃ n, (exchange options fun header =>
        getVerificationBundle delivery bytes.toList representation (some header))^[n] .first =
          .returned true bytes.toList) ∧
    ∀ replies : ℕ → JsM Response, ∃ n ≤ options.maxBytes + 1,
      (feed (receive options) .first replies n).isSettled = true ∧
      ∀ blob, feed (receive options) .first replies n = .returned true blob →
        ∃ (total : ℕ) (identity : JsString) (chunks : List Chunk),
          ((List.range chunks.length).map replies = chunks.map fun chunk => .ok chunk.response) ∧
          (∀ chunk ∈ chunks, chunk.Accepted total identity) ∧ Covers 0 (chunks.map Chunk.span) total ∧
          blob = (chunks.map Chunk.bytes).flatten := by
  have hhalts (replies : ℕ → JsM Response) :
      ∃ n ≤ options.maxBytes + 1, (feed (receive options) .first replies n).isSettled = true :=
    feed_halts (remaining options) receive_remaining .first replies
  constructor
  · intro delivery representation bytes hidentity hsend hne hlimit
    let server (header : JsString) :=
      getVerificationBundle delivery bytes.toList representation (some header)
    have hway (n : ℕ) :
        OnTheWay options delivery representation bytes ((exchange options server)^[n] .first) := by
      induction n with
      | zero => exact trivial
      | succ n ih =>
        rw [Function.iterate_succ_apply']
        exact exchange_onTheWay hidentity hsend hne hlimit ih
    obtain ⟨n, -, hsettled⟩ :=
      hhalts fun k => answer options server ((exchange options server)^[k] .first)
    have hfed : (exchange options server)^[n] .first = feed (receive options) .first
        (fun k => answer options server ((exchange options server)^[k] .first)) n :=
      iterate_eq_feed (receive options) (answer options server) .first n
    rw [← hfed] at hsettled
    refine ⟨n, ?_⟩
    have hn := hway n
    cases hstate : (exchange options server)^[n] .first with
    | first => rw [hstate] at hsettled; cases hsettled
    | next loop => rw [hstate] at hsettled; cases hsettled
    | failed error => rw [hstate] at hn; exact absurd hn id
    | returned ranged blob =>
      rw [hstate] at hn
      rw [hn.1, hn.2]
  · intro replies
    obtain ⟨n, hn, hsettled⟩ := hhalts replies
    refine ⟨n, hn, hsettled, ?_⟩
    intro blob hblob
    have htracks := feed_keeps (Tracks replies) (show Tracks replies 0 .first from rfl)
      (@receive_tracks options replies) n
    rw [hblob] at htracks
    obtain ⟨k, -, total, identity, blobs, ⟨chunks, hreplies, hall, hcovers, rfl⟩, rfl⟩ := htracks rfl
    have hlength : k = chunks.length := by simpa using congrArg List.length hreplies
    exact ⟨total, identity, chunks, hlength ▸ hreplies, hall, hcovers, rfl⟩

/-! ### A sample -/

def sampleOptions : DownloadOptions := ⟨4, 100, fun _ => .error "HTTP", by decide, by decide⟩

def sampleDelivery : Delivery :=
  ⟨3, js "fin-1", fun bytes => [bytes], fun _ _ => [], by decide, by decide, by decide,
    fun _ => List.flatten_singleton⟩

def sampleBundle : Uint8Array := ⟨[80, 75, 3, 4, 5, 6, 7, 8], by decide⟩

/-- Eight bytes in ranges of three, which is less than the client asks for. -/
theorem bundle_download_on_sample : ∃ n, (exchange sampleOptions fun header =>
    getVerificationBundle sampleDelivery sampleBundle.toList
      (representationFor Sha256.digest sampleBundle.toList)
      (some header))^[n] .first = .returned true [80, 75, 3, 4, 5, 6, 7, 8] :=
  (bundle_download_returns_bytes sampleOptions).1 sampleDelivery
    (representationFor Sha256.digest sampleBundle.toList)
    sampleBundle (by decide) (by decide) (by decide) (by decide)

end Download

end StarkBallot.Web
