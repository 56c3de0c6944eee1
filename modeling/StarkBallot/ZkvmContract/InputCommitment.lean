import StarkBallot.ContractCore.Encoding
import StarkBallot.ContractCore.InclusionProof
import StarkBallot.CryptoPrimitives.Hex

/-! Commitments and digests of the TypeScript contract (`types.ts`, `hex.ts`, `identifiers.ts`). A vote
    arrives as text; it is decoded, the decoded votes are sorted by a comparator that returns numbers,
    and the chunks of the preimage are pushed one by one:

        text votes ──decode──▶ byte votes ──sort──▶ sorted ──push──▶ chunks ──concat──▶ preimage

    Every text that decodes at all is a spelling of its bytes (`Spells`), the comparators have the signs
    of the Rust orders, and so the preimage is the canonical preimage of the Rust encoder. -/

namespace StarkBallot.ZkvmContract
open Schemes ContractCore CryptoPrimitives

variable (noble : NobleUtils) (sha256 : List UInt8 → Bytes 32)

def uint16Max : ℕ := 65535

def uint32Max : ℕ := 4294967295

structure InputCommitmentVote where
  index : Num
  commitment : JsString
  merklePath : List JsString

structure NormalizedInputCommitmentVote where
  index : Num
  commitmentBytes : List UInt8
  merklePathBytes : List (List UInt8)

/-- The witness-free input. -/
structure PublicInput where
  electionId : JsString
  bulletinRoot : JsString
  treeSize : Num
  totalExpected : Num
  votes : List InputCommitmentVote

/-- Checks the text before it decodes it, unlike its namesake in `CryptoPrimitives`. -/
def hexToBytesStrict (hex : JsString) : JsM (List UInt8) := do
  let normalized := normalizeHexString hex
  refuseIf (normalized = []) (.error "Invalid hex string: empty")
  refuseIf (normalized.length % 2 ≠ 0) (.error "Invalid hex string: odd length")
  refuseIf (¬ normalized.all isHexDigit) (.error "Invalid hex string")
  noble.hexToBytes normalized

def toUuidBytes (uuid : JsString) : JsM (List UInt8) := hexToBytesStrict noble (uuid.filter (· ≠ '-'))

def assertUnsignedIntegerInRange (value : Num) (max : ℕ) (fieldName : String) : JsM Unit :=
  refuseIf (¬ value.isSafeInteger ∨ value.lt (.ofNat 0) ∨ (Num.ofNat max).lt value)
    (.error s!"{fieldName} must be an unsigned integer <= {max}")

def asUnixTimestampMillis (value : Num) : JsM Num := do
  assertUnsignedIntegerInRange value Num.maxSafeInteger "timestamp"
  refuseIf (value.le (.ofNat 0)) (.error "timestamp must be positive")
  return value

def uint16LE (value : Num) : JsM (List UInt8) := do
  assertUnsignedIntegerInRange value uint16Max "uint16 value"
  return leBytes 2 value.toNat

def uint32LE (value : Num) : JsM (List UInt8) := do
  assertUnsignedIntegerInRange value uint32Max "uint32 value"
  return leBytes 4 value.toNat

def uint64LE (value : ℕ) : List UInt8 := leBytes 8 value

/-! ### Canonical order -/

def compareUint8Arrays (left right : List UInt8) : Num :=
  compareArrays (fun leftByte rightByte => (Num.ofNat leftByte.toNat).sub (Num.ofNat rightByte.toNat))
    left right

def compareMerklePaths (left right : List (List UInt8)) : Num :=
  compareArrays compareUint8Arrays left right

def compareInputCommitmentVotes (left right : NormalizedInputCommitmentVote) : Num :=
  if ¬ left.index.eq right.index then left.index.sub right.index
  else if ¬ (compareUint8Arrays left.commitmentBytes right.commitmentBytes).eq (.ofNat 0) then
    compareUint8Arrays left.commitmentBytes right.commitmentBytes
  else compareMerklePaths left.merklePathBytes right.merklePathBytes

def normalizeInputCommitmentVote (vote : InputCommitmentVote) : JsM NormalizedInputCommitmentVote := do
  let commitmentBytes ← hexToBytesStrict noble vote.commitment
  let merklePathBytes ← vote.merklePath.mapM (hexToBytesStrict noble)
  return ⟨vote.index, commitmentBytes, merklePathBytes⟩

def toCanonicalInputCommitmentVote (vote : NormalizedInputCommitmentVote) : InputCommitmentVote where
  index := vote.index
  commitment := js "0x" ++ noble.bytesToHex vote.commitmentBytes
  merklePath := vote.merklePathBytes.map fun node => js "0x" ++ noble.bytesToHex node

def canonicalizeInputCommitmentVotesForEncoding (votes : List InputCommitmentVote) :
    JsM (List InputCommitmentVote) := do
  let normalized ← votes.mapM (normalizeInputCommitmentVote noble)
  return (sortBy compareInputCommitmentVotes normalized).map (toCanonicalInputCommitmentVote noble)

/-! ### The preimage -/

def validateInputCommitmentPublicFields (input : PublicInput) : JsM Unit := do
  let electionIdBytes ← toUuidBytes noble input.electionId
  refuseIf (electionIdBytes.length ≠ 16) (.error "electionId must encode exactly 16 bytes")
  let bulletinRootBytes ← hexToBytesStrict noble input.bulletinRoot
  refuseIf (bulletinRootBytes.length ≠ 32) (.error "bulletinRoot must encode exactly 32 bytes")
  assertUnsignedIntegerInRange input.treeSize uint32Max "treeSize"
  assertUnsignedIntegerInRange input.totalExpected uint32Max "totalExpected"
  assertUnsignedIntegerInRange (.ofNat input.votes.length) uint32Max "vote count"

def pushNode (chunks : List (List UInt8)) (node : List UInt8) : JsM (List (List UInt8)) := do
  refuseIf (node.length ≠ 32) (.error "vote merklePath node must encode exactly 32 bytes")
  return chunks ++ [node]

def pushVote (chunks : List (List UInt8)) (vote : NormalizedInputCommitmentVote) :
    JsM (List (List UInt8)) := do
  assertUnsignedIntegerInRange vote.index uint32Max "vote index"
  refuseIf (vote.commitmentBytes.length ≠ 32) (.error "vote commitment must encode exactly 32 bytes")
  assertUnsignedIntegerInRange (.ofNat vote.merklePathBytes.length) uint16Max "vote merklePath length"
  let index ← uint32LE vote.index
  let commitmentLength ← uint16LE (.ofNat 32)
  let pathLength ← uint16LE (.ofNat vote.merklePathBytes.length)
  vote.merklePathBytes.foldlM pushNode
    (chunks ++ [index, commitmentLength, vote.commitmentBytes, pathLength])

def encodeInputCommitmentPreimage (input : PublicInput) : JsM (List UInt8) := do
  validateInputCommitmentPublicFields noble input
  let normalized ← input.votes.mapM (normalizeInputCommitmentVote noble)
  let sortedVotes := sortBy compareInputCommitmentVotes normalized
  let version ← uint32LE (.ofNat inputCommitmentFormatVersion)
  let electionId ← toUuidBytes noble input.electionId
  let bulletinRoot ← hexToBytesStrict noble input.bulletinRoot
  let treeSize ← uint32LE input.treeSize
  let totalExpected ← uint32LE input.totalExpected
  let count ← uint32LE (.ofNat sortedVotes.length)
  let chunks ← sortedVotes.foldlM pushVote
    [ascii "stark-ballot:input|v1.0", version, electionId, bulletinRoot, treeSize, totalExpected, count]
  return chunks.flatten

/-- `/^0x[0-9a-f]{64}$/i`. -/
def isHex32 : JsString → Bool
  | '0' :: x :: digits =>
    x.toLower = 'x' && digits.length = 64 && digits.all fun c => isHexDigit c.toLower
  | _ => false

def asHex32Identifier (value : JsString) (fieldName : String) : JsM JsString := do
  refuseIf (¬ isHex32 value) (.error s!"{fieldName} must be a 32-byte hex string")
  return value

def asInputCommitment (value : JsString) : JsM JsString := asHex32Identifier value "inputCommitment"

def computeInputCommitmentFromPublicInput (input : PublicInput) : JsM JsString := do
  let preimage ← encodeInputCommitmentPreimage noble input
  asInputCommitment (js "0x" ++ noble.bytesToHex (sha256 preimage).toList)

/-! ### Other digests -/

/-- `Uint8Array.of(choice)` of a choice that fits a byte. -/
def computeCommitment (electionId : JsString) (choice : Num) (random : JsString) : JsM JsString := do
  let electionId ← toUuidBytes noble electionId
  let random ← hexToBytesStrict noble random
  return js "0x" ++ noble.bytesToHex
    (sha256 (ascii "stark-ballot:commit|v1.0" ++ electionId ++ [UInt8.ofNat choice.toNat] ++
      random)).toList

def computeSTHDigest (logId : JsString) (treeSize timestamp : Num) (bulletinRoot : JsString) :
    JsM JsString := do
  let logId ← hexToBytesStrict noble logId
  let treeSize ← uint32LE treeSize
  let bulletinRoot ← hexToBytesStrict noble bulletinRoot
  return js "0x" ++ noble.bytesToHex
    (sha256 (logId ++ treeSize ++ uint64LE timestamp.toNat ++ bulletinRoot)).toList

/-! ### On spelled values -/

theorem assertUnsignedIntegerInRange_of_le {n max : ℕ} {fieldName : String} (h : n ≤ max)
    (hmax : max ≤ Num.maxSafeInteger) :
    assertUnsignedIntegerInRange (.ofNat n) max fieldName = .ok () := by
  refine refuseIf_of_not ?_
  simp [Num.ofNat_isSafeInteger, h, h.trans hmax]

theorem asUnixTimestampMillis_of_le {n : ℕ} (hpos : 0 < n) (h : n ≤ Num.maxSafeInteger) :
    asUnixTimestampMillis (.ofNat n) = .ok (.ofNat n) := by
  have hpositive : ¬ (Num.ofNat n).le (.ofNat 0) = true := by
    rw [Num.ofNat_le, decide_eq_true_eq]
    omega
  rw [asUnixTimestampMillis, assertUnsignedIntegerInRange_of_le h le_rfl, ok_bind,
    refuseIf_of_not hpositive]
  rfl

theorem uint16LE_of_le {n : ℕ} (h : n ≤ uint16Max) : uint16LE (.ofNat n) = .ok (leBytes 2 n) := by
  rw [uint16LE, assertUnsignedIntegerInRange_of_le h (by decide), ok_bind, Num.ofNat_toNat]
  rfl

theorem uint32LE_of_le {n : ℕ} (h : n ≤ uint32Max) : uint32LE (.ofNat n) = .ok (leBytes 4 n) := by
  rw [uint32LE, assertUnsignedIntegerInRange_of_le h (by decide), ok_bind, Num.ofNat_toNat]
  rfl

theorem toNat_le_uint32Max (n : UInt32) : n.toNat ≤ uint32Max := Nat.le_of_lt_succ n.toNat_lt

/-- Every spelling of some bytes passes the checks and decodes to them. -/
theorem hexToBytesStrict_eq {hex : JsString} {bytes : List UInt8} (h : Spells hex bytes)
    (hne : bytes ≠ []) :
    hexToBytesStrict noble hex = .ok bytes := by
  have hpos := List.length_pos_iff.mpr hne
  have htext : hexText bytes ≠ [] := by
    rw [← List.length_pos_iff, hexText_length]
    omega
  have hdigits : (hexText bytes).all isHexDigit = true := List.all_eq_true.mpr (hexText_isHexDigit bytes)
  have heven : ¬ (hexText bytes).length % 2 ≠ 0 := by
    rw [hexText_length]
    omega
  rw [hexToBytesStrict, normalizeHexString_of_spells h, refuseIf_of_not htext, ok_bind,
    refuseIf_of_not heven, ok_bind, refuseIf_of_not (by simp [hdigits]), ok_bind, noble.hexToBytes_eq]

theorem hexToBytesStrict_bytes {n : ℕ} {hex : JsString} {b : Bytes n} (h : Spells hex b.toList)
    (hn : n ≠ 0) :
    hexToBytesStrict noble hex = .ok b.toList := by
  refine hexToBytesStrict_eq noble h fun hnil => hn ?_
  rw [← b.length_eq, hnil, List.length_nil]

/-- A spelling of an election id: dashes anywhere, as in a UUID. -/
def SpellsUuid (uuid : JsString) (id : Bytes 16) : Prop := Spells (uuid.filter (· ≠ '-')) id.toList

theorem toUuidBytes_eq {uuid : JsString} {id : Bytes 16} (h : SpellsUuid uuid id) :
    toUuidBytes noble uuid = .ok id.toList := hexToBytesStrict_bytes noble h (by decide)

/-- The decoded form of a record. -/
def normalizedOf (a : CommittedVote) : NormalizedInputCommitmentVote :=
  ⟨.ofNat a.index.toNat, a.commitment.toList, a.merklePath.map Bytes.toList⟩

/-- The text of a vote spells a record. -/
structure SpellsVote (vote : InputCommitmentVote) (a : CommittedVote) : Prop where
  index : vote.index = .ofNat a.index.toNat
  commitment : Spells vote.commitment a.commitment.toList
  merklePath : List.Forall₂ (fun hex node => Spells hex node.toList) vote.merklePath a.merklePath

theorem normalizeInputCommitmentVote_eq {vote : InputCommitmentVote} {a : CommittedVote}
    (h : SpellsVote vote a) :
    normalizeInputCommitmentVote noble vote = .ok (normalizedOf a) := by
  have hpath : vote.merklePath.mapM (hexToBytesStrict noble) = .ok (a.merklePath.map Bytes.toList) := by
    refine mapM_of_forall₂ (List.forall₂_map_right_iff.mpr (h.merklePath.imp fun hex node hspells => ?_))
    exact hexToBytesStrict_bytes noble hspells (by decide)
  rw [normalizeInputCommitmentVote, hexToBytesStrict_bytes noble h.commitment (by decide), ok_bind,
    hpath, ok_bind, h.index]
  rfl

theorem normalize_votes {votes : List InputCommitmentVote} {records : List CommittedVote}
    (h : List.Forall₂ SpellsVote votes records) :
    votes.mapM (normalizeInputCommitmentVote noble) = .ok (records.map normalizedOf) :=
  mapM_of_forall₂
    (List.forall₂_map_right_iff.mpr (h.imp fun _ _ => normalizeInputCommitmentVote_eq noble))

/-! ### Comparators -/

theorem compare_toNat_uint8 (a b : UInt8) : compare a.toNat b.toNat = compare a b := by
  simp [compare, compareOfLessAndEq, UInt8.lt_iff_toNat_lt, UInt8.toNat_inj]

theorem compare_toNat_uint32 (a b : UInt32) : compare a.toNat b.toNat = compare a b := by
  simp [compare, compareOfLessAndEq, UInt32.lt_iff_toNat_lt, UInt32.toNat_inj]

theorem compareUint8Arrays_signs (l l' : List UInt8) :
    (compareUint8Arrays l l').Signs (compare l l') := by
  have hbytes : (compareUint8Arrays (l.map id) (l'.map id)).Signs (compare l l') :=
    compareArrays_signs id (fun a b => compare_toNat_uint8 a b ▸ Num.sub_signs a.toNat b.toNat) l l'
  rwa [List.map_id, List.map_id] at hbytes

theorem compareMerklePaths_signs (p q : List (Bytes 32)) :
    (compareMerklePaths (p.map Bytes.toList) (q.map Bytes.toList)).Signs (compare p q) :=
  compareArrays_signs Bytes.toList (fun a b => compareUint8Arrays_signs a.toList b.toList) p q

/-- The comparator has the sign of the canonical order. -/
theorem compareInputCommitmentVotes_signs (a b : CommittedVote) :
    (compareInputCommitmentVotes (normalizedOf a) (normalizedOf b)).Signs (compare a b) := by
  have hindex := Num.sub_signs a.index.toNat b.index.toNat
  rw [compare_toNat_uint32] at hindex
  have hcommitment := compareUint8Arrays_signs a.commitment.toList b.commitment.toList
  rw [← Bytes.compare_eq] at hcommitment
  have hpath := compareMerklePaths_signs a.merklePath b.merklePath
  have hsame :
      (Num.ofNat a.index.toNat).eq (Num.ofNat b.index.toNat) = (compare a.index b.index == .eq) := by
    rw [Num.ofNat_eq, Bool.eq_iff_iff]
    simp [UInt32.toNat_inj]
  rw [compareInputCommitmentVotes, CommittedVote.compare_eq]
  simp only [normalizedOf, hsame, hcommitment.eq_zero]
  generalize compare a.index b.index = oi at hindex ⊢
  generalize compare a.commitment b.commitment = oc at hcommitment ⊢
  cases oi with
  | lt => exact hindex
  | gt => exact hindex
  | eq =>
    cases oc with
    | lt => exact hcommitment
    | gt => exact hcommitment
    | eq => exact hpath

theorem sortBy_normalized (records : List CommittedVote) :
    sortBy compareInputCommitmentVotes (records.map normalizedOf) =
      (records.mergeSort isLe).map normalizedOf :=
  sortBy_map normalizedOf compareInputCommitmentVotes_signs records

/-! ### The two preimages -/

theorem pushNode_foldlM : ∀ (nodes : List (Bytes 32)) (chunks : List (List UInt8)),
    (nodes.map Bytes.toList).foldlM pushNode chunks = .ok (chunks ++ nodes.map Bytes.toList)
  | [], chunks => by rw [List.map_nil, List.append_nil]; rfl
  | node :: nodes, chunks => by
      rw [List.map_cons, List.foldlM_cons, pushNode, refuseIf_of_not (by simp), ok_bind]
      exact (pushNode_foldlM nodes _).trans (by rw [List.append_assoc, List.singleton_append])

theorem pushVote_eq {a : CommittedVote} (ha : a.Encodable) (chunks : List (List UInt8)) :
    ∃ chunks', pushVote chunks (normalizedOf a) = .ok chunks' ∧
    chunks'.flatten = chunks.flatten ++ a.encode := by
  have hindex : (normalizedOf a).index = .ofNat a.index.toNat := rfl
  have hpath : (normalizedOf a).merklePathBytes = a.merklePath.map Bytes.toList := rfl
  have hlen :
      (normalizedOf a).merklePathBytes.length = a.merklePath.length := by rw [hpath, List.length_map]
  have hfits : a.merklePath.length ≤ uint16Max := ha
  refine ⟨chunks ++ [leBytes 4 a.index.toNat, leBytes 2 32, a.commitment.toList,
    leBytes 2 a.merklePath.length] ++ a.merklePath.map Bytes.toList, ?_, ?_⟩
  · rw [pushVote, hindex, hlen, assertUnsignedIntegerInRange_of_le (toNat_le_uint32Max _) (by decide),
      ok_bind, refuseIf_of_not (by simp [normalizedOf]), ok_bind,
      assertUnsignedIntegerInRange_of_le hfits (by decide), ok_bind,
      uint32LE_of_le (toNat_le_uint32Max _), ok_bind, uint16LE_of_le (by decide), ok_bind,
      uint16LE_of_le hfits, ok_bind, hpath, pushNode_foldlM]
    rfl
  · simp [CommittedVote.encode, List.flatMap]

theorem pushVote_foldlM : ∀ (records : List CommittedVote) (chunks : List (List UInt8)),
    (∀ a ∈ records, a.Encodable) →
      ∃ chunks', (records.map normalizedOf).foldlM pushVote chunks = .ok chunks' ∧
      chunks'.flatten = chunks.flatten ++ records.flatMap CommittedVote.encode
  | [], chunks, _ => ⟨chunks, rfl, by simp⟩
  | a :: records, chunks, h => by
      obtain ⟨chunks', hstep, hflat⟩ := pushVote_eq (h a (by simp)) chunks
      obtain ⟨chunks'', hrest, hflat'⟩ := pushVote_foldlM records chunks' fun b hb => h b (by simp [hb])
      refine ⟨chunks'', ?_, ?_⟩
      · rw [List.map_cons, List.foldlM_cons, hstep, ok_bind, hrest]
      · rw [hflat', hflat, List.flatMap_cons, List.append_assoc]

/-- The text of an input spells the arguments of the Rust encoder. -/
structure SpellsInput (input : PublicInput) (args : CommitmentArgs) : Prop where
  electionId : SpellsUuid input.electionId args.electionId
  bulletinRoot : Spells input.bulletinRoot args.bulletinRoot.toList
  treeSize : input.treeSize = .ofNat args.treeSize.toNat
  totalExpected : input.totalExpected = .ofNat args.totalExpected.toNat
  votes : List.Forall₂ SpellsVote input.votes (args.votes.map VoteWithProof.committed)

theorem validateInputCommitmentPublicFields_ok {input : PublicInput} {args : CommitmentArgs}
    (h : SpellsInput input args) (hcount : args.votes.length ≤ u32Max) :
    validateInputCommitmentPublicFields noble input = .ok () := by
  have hlen : input.votes.length = args.votes.length := by rw [h.votes.length_eq, List.length_map]
  have hcount' : args.votes.length ≤ uint32Max := hcount
  rw [validateInputCommitmentPublicFields, toUuidBytes_eq noble h.electionId, ok_bind,
    refuseIf_of_not (by simp), ok_bind, hexToBytesStrict_bytes noble h.bulletinRoot (by decide),
    ok_bind, refuseIf_of_not (by simp), ok_bind, h.treeSize,
    assertUnsignedIntegerInRange_of_le (toNat_le_uint32Max _) (by decide), ok_bind, h.totalExpected,
    assertUnsignedIntegerInRange_of_le (toNat_le_uint32Max _) (by decide), ok_bind, hlen,
    assertUnsignedIntegerInRange_of_le hcount' (by decide)]

/-- Where the Rust preimage exists, the TypeScript one is the same bytes. -/
theorem encodeInputCommitmentPreimage_of_spells {input : PublicInput} {args : CommitmentArgs}
    (h : SpellsInput input args) {data : List UInt8} (hdata : args.preimage = .ok data) :
    encodeInputCommitmentPreimage noble input = .ok data := by
  rw [CommitmentArgs.preimage, encodeInputCommitmentPreimage_eq, canonicalPreimage] at hdata
  simp only [ite_eq_iff, reduceCtorEq, and_false, or_false, Except.ok.injEq] at hdata
  obtain ⟨hcount, hpaths, rfl⟩ := hdata
  rw [List.length_map] at hcount
  set records := args.votes.map VoteWithProof.committed with hrecords
  obtain ⟨chunks, hchunks, hflat⟩ := pushVote_foldlM (records.mergeSort isLe)
    [ascii "stark-ballot:input|v1.0", leBytes 4 inputCommitmentFormatVersion, args.electionId.toList,
      args.bulletinRoot.toList, leBytes 4 args.treeSize.toNat, leBytes 4 args.totalExpected.toNat,
      leBytes 4 records.length] (by simpa using hpaths)
  rw [encodeInputCommitmentPreimage, validateInputCommitmentPublicFields_ok noble h hcount, ok_bind,
    normalize_votes noble h.votes, ok_bind, sortBy_normalized, uint32LE_of_le (by decide), ok_bind,
    toUuidBytes_eq noble h.electionId, ok_bind,
    hexToBytesStrict_bytes noble h.bulletinRoot (by decide), ok_bind, h.treeSize,
    uint32LE_of_le (toNat_le_uint32Max _), ok_bind, h.totalExpected,
    uint32LE_of_le (toNat_le_uint32Max _), ok_bind, List.length_map, List.length_mergeSort,
    uint32LE_of_le (by rw [List.length_map]; exact hcount), ok_bind, hchunks, ok_bind, hflat]
  simp [encodedPrefix, inputCommitmentDomainTag, pure, Except.pure]

/-- Canonical texts spell the sorted records. -/
theorem canonicalizeInputCommitmentVotesForEncoding_spells {votes : List InputCommitmentVote}
    {records : List CommittedVote} (h : List.Forall₂ SpellsVote votes records) :
    ∃ canonical, canonicalizeInputCommitmentVotesForEncoding noble votes = .ok canonical ∧
      List.Forall₂ SpellsVote canonical (records.mergeSort isLe) := by
  have hspells : ∀ bytes, Spells (js "0x" ++ noble.bytesToHex bytes) bytes := by
    intro bytes
    rw [noble.bytesToHex_eq]
    exact prefixed_spells bytes
  refine ⟨((records.mergeSort isLe).map normalizedOf).map (toCanonicalInputCommitmentVote noble), ?_, ?_⟩
  · rw [canonicalizeInputCommitmentVotesForEncoding, normalize_votes noble h, ok_bind, sortBy_normalized]
    rfl
  · rw [List.map_map, List.forall₂_map_left_iff, List.forall₂_same]
    intro a _
    refine ⟨rfl, hspells _, ?_⟩
    simp only [Function.comp_apply, toCanonicalInputCommitmentVote, normalizedOf, List.map_map,
      List.forall₂_map_left_iff, List.forall₂_same]
    exact fun node _ => hspells node.toList

/-- AGREEMENT: on every spelling of well-formed values, from the votes as given or canonicalised first,
    the TypeScript preimage is the Rust preimage; and the TypeScript comparators order decoded votes and
    paths as the Rust comparators order the values. -/
theorem inputCommitment_preimages_agree (input : PublicInput) (args : CommitmentArgs)
    (h : SpellsInput input args) (hcount : args.votes.length ≤ u32Max)
    (hpaths : ∀ vote ∈ args.votes, vote.merklePath.length ≤ u16Max) :
    (∃ data canonical, args.preimage = .ok data ∧
      canonicalizeInputCommitmentVotesForEncoding noble input.votes = .ok canonical ∧
      encodeInputCommitmentPreimage noble { input with votes := canonical } = .ok data ∧
      encodeInputCommitmentPreimage noble input = .ok data) ∧
    ∀ (vote vote' : VoteWithProof) (spelled spelled' : InputCommitmentVote),
      SpellsVote spelled vote.committed →
      SpellsVote spelled' vote'.committed →
        ∃ left right, normalizeInputCommitmentVote noble spelled = .ok left ∧
        normalizeInputCommitmentVote noble spelled' = .ok right ∧
        (compareInputCommitmentVotes left right).ordering = compareVotes vote vote' ∧
        (compareMerklePaths left.merklePathBytes right.merklePathBytes).ordering =
          ContractCore.compareMerklePaths vote.merklePath vote'.merklePath := by
  constructor
  · have hrecords : ∀ a ∈ args.votes.map VoteWithProof.committed, a.Encodable := by
      simpa [VoteWithProof.committed] using hpaths
    have hrust : ∃ data, args.preimage = .ok data := by
      rw [CommitmentArgs.preimage, encodeInputCommitmentPreimage_eq, canonicalPreimage,
        if_pos (by rw [List.length_map]; exact hcount), if_pos hrecords]
      exact ⟨_, rfl⟩
    obtain ⟨data, hdata⟩ := hrust
    obtain ⟨canonical, hcanonical, hspells⟩ :=
      canonicalizeInputCommitmentVotesForEncoding_spells noble h.votes
    -- the canonical texts spell the same votes, sorted
    let sorted := args.votes.mergeSort fun a b => (compareVotes a b).isLE
    have hsorted :
        sorted.map VoteWithProof.committed = (args.votes.map VoteWithProof.committed).mergeSort isLe :=
      List.map_mergeSort fun a _ b _ => by rw [compareVotes_eq]; rfl
    have hsame : ({ args with votes := sorted } : CommitmentArgs).preimage = .ok data := by
      rw [← hdata, CommitmentArgs.preimage, CommitmentArgs.preimage, encodeInputCommitmentPreimage_eq,
        encodeInputCommitmentPreimage_eq, hsorted]
      exact canonicalPreimage_perm (List.mergeSort_perm _ _)
    have hinput : SpellsInput { input with votes := canonical } { args with votes := sorted } :=
      ⟨h.electionId, h.bulletinRoot, h.treeSize, h.totalExpected, hsorted ▸ hspells⟩
    exact ⟨data, canonical, hdata, hcanonical,
      encodeInputCommitmentPreimage_of_spells noble hinput hsame,
      encodeInputCommitmentPreimage_of_spells noble h hdata⟩
  · intro vote vote' spelled spelled' hspells hspells'
    refine ⟨_, _, normalizeInputCommitmentVote_eq noble hspells,
      normalizeInputCommitmentVote_eq noble hspells', ?_, ?_⟩
    · rw [compareVotes_eq]
      exact (compareInputCommitmentVotes_signs _ _).1
    · rw [ContractCore.compareMerklePaths, firstDifference_zip]
      exact (compareMerklePaths_signs _ _).1

/-- Two votes for one index, so that the commitment decides; mixed spellings. -/
def sampleArgs : CommitmentArgs where
  electionId := Bytes.fill 16 0xab
  bulletinRoot := Bytes.fill 32 7
  treeSize := 1
  totalExpected := 1
  votes := [⟨Bytes.fill 32 2, 0, Bytes.fill 32 0, 0, []⟩, ⟨Bytes.fill 32 1, 0, Bytes.fill 32 0, 0, []⟩]

def samplePublicInput : PublicInput where
  electionId := js "ABABABAB-abab-abab-abab-abababababab"
  bulletinRoot := js "0X" ++ text (Bytes.fill 32 7)
  treeSize := .ofNat 1
  totalExpected := .ofNat 1
  votes := [⟨.ofNat 0, js "0x" ++ text (Bytes.fill 32 2), []⟩, ⟨.ofNat 0, text (Bytes.fill 32 1), []⟩]

theorem samplePublicInput_spells : SpellsInput samplePublicInput sampleArgs where
  electionId := ⟨js "", by simp, js "ABABABABabababababababababababab", rfl, by decide⟩
  bulletinRoot := ⟨js "0X", by simp, text (Bytes.fill 32 7), rfl, toLowerCase_hexText _⟩
  treeSize := rfl
  totalExpected := rfl
  votes := .cons ⟨rfl, prefixed_spells _, .nil⟩ (.cons ⟨rfl, text_spells _, .nil⟩ .nil)

theorem inputCommitment_preimages_on_sample : ∃ data, sampleArgs.preimage = .ok data ∧
    encodeInputCommitmentPreimage NobleUtils.reference samplePublicInput = .ok data := by
  obtain ⟨⟨data, _, hrust, _, _, hts⟩, _⟩ :=
    inputCommitment_preimages_agree NobleUtils.reference samplePublicInput
    sampleArgs samplePublicInput_spells (by decide) (by decide)
  exact ⟨data, hrust, hts⟩

end StarkBallot.ZkvmContract
