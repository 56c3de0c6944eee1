import StarkBallot.AwsAdapters.ProverWorkMessage
import StarkBallot.ZkvmContract.HostIo

/-! The parts of a message read back (`aws-adapters/src/sqs/proverWorkMessage.ts`). For each part, which
    values of it are accepted and what is left of them: byte strings in one spelling, everything else as
    it was. A part that was read is of that form already, so it reads back unchanged.

        part ──write──▶ value ──read──▶ part with canonical byte strings ──write──▶ value ──read──▶ the same part -/

namespace StarkBallot.AwsAdapters
open Schemes Validation CryptoPrimitives ZkvmContract Domain Application

/-! ### Plain values -/

section Plain

variable {label : String} {bound : IntegerBound} {n : ℕ}

theorem string_injective : Function.Injective JsValue.string := fun _ _ h => JsValue.string.inj h

theorem number_injective : Function.Injective JsValue.number := fun _ _ h => JsValue.number.inj h

theorem parseNonEmptyString_eq_ok {v : JsValue} {s : JsString} :
    parseNonEmptyString v label = .ok s ↔ v = .string s ∧ s ≠ [] := by
  cases v <;> simp only [parseNonEmptyString, reduceCtorEq, false_and]
  rename_i text
  by_cases hnil : text = []
  · simp only [hnil, if_true, reduceCtorEq, JsValue.string.injEq, false_iff, not_and, not_not]
    exact fun h => h.symm
  · simp only [hnil, if_false, Except.ok.injEq, JsValue.string.injEq, ne_eq]
    constructor
    · rintro rfl
      exact ⟨rfl, hnil⟩
    · exact fun h => h.1

theorem parseNonEmptyString_plain : Plain (parseNonEmptyString · label) .string (· ≠ []) :=
  fun _ _ => parseNonEmptyString_eq_ok

theorem parseNonEmptyString_reads : Reads (parseNonEmptyString · label) .string (· ≠ []) id :=
  parseNonEmptyString_plain.reads string_injective

/-- What `parseInteger` lets through. -/
structure ValidInteger (bound : IntegerBound) (n : Num) : Prop where
  isInteger : n.isInteger = true
  above : ¬ n.lt (.ofNat bound.min) = true

theorem parseInteger_plain : Plain (parseInteger · label bound) .number (ValidInteger bound) := by
  intro v a
  cases v <;> simp only [parseInteger, reduceCtorEq, false_and]
  rename_i n
  rw [JsValue.number.injEq]
  constructor
  · intro h
    split at h
    · cases h
    rename_i hinteger
    split at h
    · cases h
    rename_i habove
    obtain rfl := Except.ok.inj h
    exact ⟨rfl, not_not.mp hinteger, habove⟩
  · rintro ⟨rfl, hinteger, habove⟩
    rw [if_neg (not_not.mpr hinteger), if_neg habove]

theorem parseInteger_reads : Reads (parseInteger · label bound) .number (ValidInteger bound) id :=
  parseInteger_plain.reads number_injective

theorem parseBoolean_plain : Plain (parseBoolean · label) .boolean (fun _ => True) := by
  intro v a
  cases v <;> simp [parseBoolean]

/-- What `parseSafeSegment` lets through. -/
structure ValidSegment (options : SegmentOptions) (s : JsString) : Prop where
  uuid : options.uuid = true → isUuid s = true
  long : ¬ options.minLength.any (s.length < ·) = true
  safe : isSafeVerifierSegment s = true

theorem ValidSegment.ne_nil {options : SegmentOptions} {s : JsString} (h : ValidSegment options s) :
    s ≠ [] := by
  rintro rfl
  cases h.safe

theorem parseSafeSegment_plain (options : SegmentOptions) :
    Plain (parseSafeSegment · label options) .string (ValidSegment options) := by
  intro v a
  dsimp only
  rw [parseSafeSegment, bind_eq_ok]
  constructor
  · rintro ⟨parsed, hparsed, h⟩
    obtain ⟨_, huuid, h⟩ := bind_eq_ok.mp h
    obtain ⟨_, hlong, h⟩ := bind_eq_ok.mp h
    obtain ⟨_, hsafe, h⟩ := bind_eq_ok.mp h
    obtain rfl := Except.ok.inj h
    rw [refuseIf_eq_ok] at huuid hlong hsafe
    exact ⟨(parseNonEmptyString_eq_ok.mp hparsed).1, by simpa using huuid, hlong, not_not.mp hsafe⟩
  · rintro ⟨rfl, hvalid⟩
    refine ⟨a, parseNonEmptyString_eq_ok.mpr ⟨rfl, hvalid.ne_nil⟩, ?_⟩
    rw [refuseIf_of_not (by simpa using hvalid.uuid), ok_bind, refuseIf_of_not hvalid.long, ok_bind,
      refuseIf_of_not (not_not.mpr hvalid.safe), ok_bind]
    rfl

theorem parseSafeSegment_reads (options : SegmentOptions) :
    Reads (parseSafeSegment · label options) .string (ValidSegment options) id :=
  (parseSafeSegment_plain options).reads string_injective

/-- One of some options, by a text of its own. -/
theorem parseOption_plain {α : Type} {options : List α} {text : α → JsString} {error : String}
    (htext : Function.Injective text) :
    Plain (parseOption options text · error) (fun option => .string (text option)) (· ∈ options) := by
  intro v a
  cases v <;> simp only [parseOption, reduceCtorEq, false_and]
  rename_i given
  rw [JsValue.string.injEq]
  constructor
  · intro h
    split at h
    · rename_i option hfind
      obtain rfl := Except.ok.inj h
      have hgiven : text option = given := by simpa using List.find?_some hfind
      exact ⟨hgiven.symm, List.mem_of_find?_eq_some hfind⟩
    · cases h
  · rintro ⟨rfl, hmem⟩
    split
    · rename_i option hfind
      have hgiven : text option = text a := by simpa using List.find?_some hfind
      rw [htext hgiven]
    · rename_i hfind
      exact absurd (List.find?_eq_none.mp hfind a hmem) (by simp)

/-- One of all there are. -/
theorem parseOption_all {α : Type} {options : List α} {text : α → JsString} {error : String}
    (htext : Function.Injective text) (hall : ∀ option, option ∈ options) :
    Plain (parseOption options text · error) (fun option => .string (text option)) (fun _ => True) := by
  intro v option
  rw [parseOption_plain htext v option]
  exact and_congr_right fun _ => iff_true_intro (hall option)

end Plain

/-! ### Byte strings -/

section Hex

variable {label : String} {n : ℕ} {s : JsString}

/-- The one spelling that a reader leaves of a byte string. -/
def canonHex (s : JsString) : JsString := addHexPrefix (normalizeHexString s)

def ValidHex (bytes : ℕ) (s : JsString) : Prop :=
  s ≠ [] ∧ isValidHexString (canonHex s) (some bytes) = true

theorem canonHex_of_spells {b : Bytes n} (h : Spells s b.toList) : canonHex s = prefixed b := by
  rw [canonHex, addHexPrefix, normalizeHexString_of_spells h,
    normalizeHexString_of_spells (hexText_spells _)]
  rfl

/-- The spelling that is left is the canonical text of some bytes. -/
theorem ValidHex.bytes (h : ValidHex n s) : ∃ b : Bytes n, canonHex s = prefixed b := by
  obtain ⟨b, hspells⟩ := isValidHexString_spells h.2
  have hlower := normalizeHexString_of_spells hspells
  -- after the prefix there are lower-case letters only
  have hdigits :
      normalizeHexString (canonHex s) = toLowerCase (normalizeHexString (normalizeHexString s)) := by
    have hne : js "0x" ++ normalizeHexString (normalizeHexString s) ≠ [] := List.cons_ne_nil _ _
    rw [canonHex, addHexPrefix, normalizeHexString, if_neg hne]
    rfl
  rw [hdigits, toLowerCase_normalizeHexString] at hlower
  refine ⟨b, ?_⟩
  rw [canonHex, addHexPrefix, hlower]
  rfl

theorem ValidHex.canonical (h : ValidHex n s) :
    ValidHex n (canonHex s) ∧ canonHex (canonHex s) = canonHex s := by
  obtain ⟨b, hb⟩ := h.bytes
  have hagain : canonHex (canonHex s) = canonHex s := by
    rw [hb]
    exact canonHex_of_spells (prefixed_spells b.toList)
  refine ⟨⟨?_, hagain.symm ▸ h.2⟩, hagain⟩
  rw [hb]
  exact List.cons_ne_nil _ _

theorem parseHexString_eq_ok {v : JsValue} {t : JsString} :
    parseHexString v n label = .ok t ↔ ∃ s, v = .string s ∧ ValidHex n s ∧ t = canonHex s := by
  rw [parseHexString, bind_eq_ok]
  constructor
  · rintro ⟨raw, hraw, h⟩
    obtain ⟨_, hvalid, h⟩ := bind_eq_ok.mp h
    obtain ⟨rfl, hne⟩ := parseNonEmptyString_eq_ok.mp hraw
    rw [refuseIf_eq_ok, not_not] at hvalid
    exact ⟨raw, rfl, ⟨hne, hvalid⟩, (Except.ok.inj h).symm⟩
  · rintro ⟨raw, rfl, hvalid, rfl⟩
    refine ⟨raw, parseNonEmptyString_eq_ok.mpr ⟨rfl, hvalid.1⟩, ?_⟩
    have hpass := hvalid.2
    dsimp only
    rw [canonHex] at hpass
    rw [refuseIf_of_not (not_not.mpr hpass), ok_bind]
    rfl

theorem parseHexString_reads : Reads (parseHexString · n label) .string (ValidHex n) canonHex where
  accepts s t := by
    rw [parseHexString_eq_ok]
    constructor
    · rintro ⟨s', hs, hvalid, rfl⟩
      obtain rfl := JsValue.string.inj hs
      exact ⟨hvalid, rfl⟩
    · rintro ⟨hvalid, rfl⟩
      exact ⟨s, rfl, hvalid, rfl⟩
  canonical v t hread := by
    obtain ⟨s, -, hvalid, rfl⟩ := parseHexString_eq_ok.mp hread
    exact hvalid.canonical

end Hex

/-! ### Records -/

section Records

variable {α : Type} {label error : String} {keys : List String} {v : JsValue}

/-- An object that has no other fields than these. -/
def IsRecord (v : JsValue) (keys : List String) : Prop :=
  isNonNullObject v = true ∧ isArray v = false ∧
    (objectKeys v).all (fun key => decide (key ∈ keys.map js)) = true

theorem assertOnlyKeys_eq_ok : assertOnlyKeys v keys label = .ok () ↔
    (objectKeys v).all (fun key => decide (key ∈ keys.map js)) = true := by
  rw [assertOnlyKeys, forM_eq_ok, List.all_eq_true]
  simp only [refuseIf_eq_ok, not_not, decide_eq_true_eq]

theorem assertRecord_eq_ok {record : JsValue} :
    assertRecord v label = .ok record ↔ record = v ∧ isNonNullObject v = true ∧ isArray v = false := by
  rw [assertRecord, bind_eq_ok]
  constructor
  · rintro ⟨_, hobject, hrecord⟩
    rw [refuseIf_eq_ok, not_or, not_not, Bool.not_eq_true] at hobject
    exact ⟨(Except.ok.inj hrecord).symm, hobject⟩
  · rintro ⟨rfl, hobject, harray⟩
    exact ⟨(), refuseIf_of_not (by simp [hobject, harray]), rfl⟩

/-- The two checks that a record starts with. -/
theorem asRecord_bind_eq_ok {next : JsValue → JsM α} {a : α} :
    (do let record ← assertRecord v label; assertOnlyKeys record keys label; next record) = .ok a ↔
      IsRecord v keys ∧ next v = .ok a := by
  rw [bind_eq_ok]
  constructor
  · rintro ⟨record, hrecord, h⟩
    obtain ⟨rfl, hobject, harray⟩ := assertRecord_eq_ok.mp hrecord
    obtain ⟨_, hkeys, h⟩ := bind_eq_ok.mp h
    exact ⟨⟨hobject, harray, assertOnlyKeys_eq_ok.mp hkeys⟩, h⟩
  · rintro ⟨⟨hobject, harray, hkeys⟩, h⟩
    exact ⟨v, assertRecord_eq_ok.mpr ⟨rfl, hobject, harray⟩,
      bind_eq_ok.mpr ⟨(), assertOnlyKeys_eq_ok.mpr hkeys, h⟩⟩

theorem nonEmptyArray_eq_ok {elements : List JsValue} :
    nonEmptyArray v error = .ok elements ↔ v = .array elements ∧ elements ≠ [] := by
  cases v <;> simp only [nonEmptyArray, reduceCtorEq, false_and]
  rename_i given
  rw [JsValue.array.injEq]
  constructor
  · intro h
    split at h
    · cases h
    · rename_i hlength
      obtain rfl := Except.ok.inj h
      exact ⟨rfl, fun hnil => hlength (by rw [hnil, List.length_nil])⟩
  · rintro ⟨rfl, hne⟩
    rw [if_neg (by simpa using hne)]

theorem isArray_eq_true : isArray v = true ↔ ∃ elements, v = .array elements := by
  cases v <;> simp [isArray]

end Records

/-! ### A vote -/

section Vote

/-- What `parseVoteWithProof` lets through. -/
structure ValidVote (vote : ZkVMInput.VoteWithProof) : Prop where
  commitment : ValidHex 32 vote.commitment
  choice : ValidInteger (.atLeast 0) vote.choice
  random : ValidHex 32 vote.random
  index : ValidInteger (.atLeast 0) vote.index
  merklePath : ∀ node ∈ vote.merklePath, ValidHex 32 node

def canonVote (vote : ZkVMInput.VoteWithProof) : ZkVMInput.VoteWithProof :=
  { vote with
    commitment := canonHex vote.commitment
    random := canonHex vote.random
    merklePath := vote.merklePath.map canonHex }

theorem parseMerklePath_eq_ok {v : JsValue} {path : List JsString} : parseMerklePath v = .ok path ↔
    ∃ elements, v = .array elements ∧
      readEach (fun index entry => parseHexString entry 32 s!"merklePath.{index}") 0 elements =
        .ok path := by
  cases v <;> simp [parseMerklePath]

theorem merklePath_reads :
    Reads (readEach (fun index entry => parseHexString entry 32 s!"merklePath.{index}") 0)
    (List.map JsValue.string) (fun path => ∀ node ∈ path, ValidHex 32 node) (List.map canonHex) :=
  Reads.each (fun _ => parseHexString_reads) 0

/-- SPEC: a vote is read field by field. -/
theorem parseVoteWithProof_eq_ok {v : JsValue} {vote : ZkVMInput.VoteWithProof} :
    parseVoteWithProof v = .ok vote ↔ IsRecord v voteKeys ∧
      parseHexString (property v "commitment") 32 "commitment" = .ok vote.commitment ∧
      parseInteger (property v "choice") "choice" (.atLeast 0) = .ok vote.choice ∧
      parseHexString (property v "random") 32 "random" = .ok vote.random ∧
      parseInteger (property v "index") "index" (.atLeast 0) = .ok vote.index ∧
      parseMerklePath (property v "merklePath") = .ok vote.merklePath := by
  rw [parseVoteWithProof, asRecord_bind_eq_ok]
  refine and_congr_right fun _ => ?_
  constructor
  · intro h
    obtain ⟨_, -, h⟩ := bind_eq_ok.mp h
    obtain ⟨commitment, hcommitment, h⟩ := bind_eq_ok.mp h
    obtain ⟨choice, hchoice, h⟩ := bind_eq_ok.mp h
    obtain ⟨random, hrandom, h⟩ := bind_eq_ok.mp h
    obtain ⟨index, hindex, h⟩ := bind_eq_ok.mp h
    obtain ⟨merklePath, hpath, h⟩ := bind_eq_ok.mp h
    obtain rfl := Except.ok.inj h
    exact ⟨hcommitment, hchoice, hrandom, hindex, hpath⟩
  · rintro ⟨hcommitment, hchoice, hrandom, hindex, hpath⟩
    obtain ⟨elements, harray, -⟩ := parseMerklePath_eq_ok.mp hpath
    rw [refuseIf_of_not (not_not.mpr (isArray_eq_true.mpr ⟨elements, harray⟩)), ok_bind, hcommitment,
      ok_bind, hchoice, ok_bind, hrandom, ok_bind, hindex, ok_bind, hpath, ok_bind]
    rfl

theorem isRecord_voteValue (vote : ZkVMInput.VoteWithProof) : IsRecord (voteValue vote) voteKeys :=
  ⟨rfl, rfl, rfl⟩

theorem parseVoteWithProof_reads : Reads parseVoteWithProof voteValue ValidVote canonVote where
  accepts vote read := by
    rw [parseVoteWithProof_eq_ok]
    constructor
    · rintro ⟨-, hcommitment, hchoice, hrandom, hindex, hpath⟩
      obtain ⟨hvalidCommitment, hcommitment⟩ :=
        (parseHexString_reads.accepts vote.commitment _).mp hcommitment
      obtain ⟨hvalidChoice, hchoice⟩ := (parseInteger_reads.accepts vote.choice _).mp hchoice
      obtain ⟨hvalidRandom, hrandom⟩ := (parseHexString_reads.accepts vote.random _).mp hrandom
      obtain ⟨hvalidIndex, hindex⟩ := (parseInteger_reads.accepts vote.index _).mp hindex
      obtain ⟨elements, harray, hpath⟩ := parseMerklePath_eq_ok.mp hpath
      obtain rfl := JsValue.array.inj harray
      obtain ⟨hvalidPath, hpath⟩ := (merklePath_reads.accepts vote.merklePath _).mp hpath
      refine ⟨⟨hvalidCommitment, hvalidChoice, hvalidRandom, hvalidIndex, hvalidPath⟩, ?_⟩
      cases read
      rw [canonVote]
      congr
    · rintro ⟨hvalid, rfl⟩
      exact ⟨isRecord_voteValue vote, parseHexString_reads.ok hvalid.commitment,
        parseInteger_reads.ok hvalid.choice, parseHexString_reads.ok hvalid.random,
        parseInteger_reads.ok hvalid.index,
        parseMerklePath_eq_ok.mpr ⟨_, rfl, merklePath_reads.ok hvalid.merklePath⟩⟩
  canonical v vote hread := by
    obtain ⟨-, hcommitment, hchoice, hrandom, hindex, hpath⟩ := parseVoteWithProof_eq_ok.mp hread
    obtain ⟨hvalidCommitment, hcommitment⟩ := parseHexString_reads.canonical _ _ hcommitment
    obtain ⟨hvalidChoice, -⟩ := parseInteger_reads.canonical _ _ hchoice
    obtain ⟨hvalidRandom, hrandom⟩ := parseHexString_reads.canonical _ _ hrandom
    obtain ⟨hvalidIndex, -⟩ := parseInteger_reads.canonical _ _ hindex
    obtain ⟨elements, -, hpath⟩ := parseMerklePath_eq_ok.mp hpath
    obtain ⟨hvalidPath, hpath⟩ := merklePath_reads.canonical _ _ hpath
    refine ⟨⟨hvalidCommitment, hvalidChoice, hvalidRandom, hvalidIndex, hvalidPath⟩, ?_⟩
    rw [canonVote, hcommitment, hrandom, hpath]

end Vote

/-! ### The input -/

section Input

theorem votes_reads : Reads parseVotes (List.map voteValue) (fun votes => ∀ vote ∈ votes, ValidVote vote)
    (List.map canonVote) :=
  Reads.each (fun _ => parseVoteWithProof_reads) 0

def canonInput (input : ZkVMInput) : ZkVMInput :=
  { input with
    bulletinRoot := canonHex input.bulletinRoot
    logId := canonHex input.logId
    electionConfigHash := canonHex input.electionConfigHash
    votes := input.votes.map canonVote }

/-- What `parseZkvmInput` lets through. -/
structure ValidInput (input : ZkVMInput) : Prop where
  some_vote : input.votes ≠ []
  electionId : ValidSegment { uuid := true } input.electionId
  bulletinRoot : ValidHex 32 input.bulletinRoot
  treeSize : ValidInteger .positive input.treeSize
  logId : ValidHex 32 input.logId
  timestamp : ValidInteger (.atLeast 0) input.timestamp
  totalExpected : ValidInteger .positive input.totalExpected
  electionConfigHash : ValidHex 32 input.electionConfigHash
  votes : ∀ vote ∈ input.votes, ValidVote vote
  preflight : assertZkvmWireNumericPreflight (canonInput input) = .ok ()

/-- SPEC: an input is read field by field, and its numbers fit the wire. -/
theorem parseZkvmInputRecord_eq_ok {v : JsValue} {input : ZkVMInput} :
    parseZkvmInputRecord v = .ok input ↔ IsRecord v zkvmInputKeys ∧
      (∃ elements, property v "votes" = .array elements ∧ elements ≠ [] ∧
        parseVotes elements = .ok input.votes) ∧
      parseSafeSegment (property v "electionId") "electionId" { uuid := true } = .ok input.electionId ∧
      parseHexString (property v "bulletinRoot") 32 "bulletinRoot" = .ok input.bulletinRoot ∧
      parseInteger (property v "treeSize") "treeSize" .positive = .ok input.treeSize ∧
      parseHexString (property v "logId") 32 "logId" = .ok input.logId ∧
      parseInteger (property v "timestamp") "timestamp" (.atLeast 0) = .ok input.timestamp ∧
      parseInteger (property v "totalExpected") "totalExpected" .positive = .ok input.totalExpected ∧
      parseHexString (property v "electionConfigHash") 32 "electionConfigHash" = .ok
        input.electionConfigHash ∧
      assertZkvmWireNumericPreflight input = .ok () := by
  rw [parseZkvmInputRecord, asRecord_bind_eq_ok]
  refine and_congr_right fun _ => ?_
  constructor
  · intro h
    obtain ⟨elements, helements, h⟩ := bind_eq_ok.mp h
    obtain ⟨electionId, helectionId, h⟩ := bind_eq_ok.mp h
    obtain ⟨bulletinRoot, hroot, h⟩ := bind_eq_ok.mp h
    obtain ⟨treeSize, htreeSize, h⟩ := bind_eq_ok.mp h
    obtain ⟨logId, hlogId, h⟩ := bind_eq_ok.mp h
    obtain ⟨timestamp, htimestamp, h⟩ := bind_eq_ok.mp h
    obtain ⟨totalExpected, htotal, h⟩ := bind_eq_ok.mp h
    obtain ⟨electionConfigHash, hhash, h⟩ := bind_eq_ok.mp h
    obtain ⟨votes, hvotes, h⟩ := bind_eq_ok.mp h
    obtain ⟨_, hpreflight, h⟩ := bind_eq_ok.mp h
    obtain rfl := Except.ok.inj h
    obtain ⟨harray, hne⟩ := nonEmptyArray_eq_ok.mp helements
    exact ⟨⟨elements, harray, hne, hvotes⟩, helectionId, hroot, htreeSize, hlogId, htimestamp,
      htotal, hhash, hpreflight⟩
  · rintro ⟨⟨elements, harray, hne, hvotes⟩, helectionId, hroot, htreeSize, hlogId, htimestamp,
      htotal, hhash, hpreflight⟩
    rw [nonEmptyArray_eq_ok.mpr ⟨harray, hne⟩, ok_bind, helectionId, ok_bind, hroot, ok_bind,
      htreeSize, ok_bind, hlogId,
      ok_bind, htimestamp, ok_bind, htotal, ok_bind, hhash, ok_bind, hvotes, ok_bind]
    exact bind_eq_ok.mpr ⟨(), hpreflight, rfl⟩

theorem parseZkvmInputRecord_reads :
    Reads parseZkvmInputRecord zkvmInputValue ValidInput canonInput where
  accepts input read := by
    rw [parseZkvmInputRecord_eq_ok]
    constructor
    · rintro ⟨-, ⟨elements, harray, hne, hvotes⟩, helectionId, hroot, htreeSize, hlogId, htimestamp,
        htotal, hhash, hpreflight⟩
      obtain rfl := JsValue.array.inj harray
      obtain ⟨hvalidVotes, hvotes⟩ := (votes_reads.accepts input.votes _).mp hvotes
      obtain ⟨hvalidId, helectionId⟩ :=
        ((parseSafeSegment_reads _).accepts input.electionId _).mp helectionId
      obtain ⟨hvalidRoot, hroot⟩ := (parseHexString_reads.accepts input.bulletinRoot _).mp hroot
      obtain ⟨hvalidSize, htreeSize⟩ := (parseInteger_reads.accepts input.treeSize _).mp htreeSize
      obtain ⟨hvalidLog, hlogId⟩ := (parseHexString_reads.accepts input.logId _).mp hlogId
      obtain ⟨hvalidTime, htimestamp⟩ := (parseInteger_reads.accepts input.timestamp _).mp htimestamp
      obtain ⟨hvalidTotal, htotal⟩ := (parseInteger_reads.accepts input.totalExpected _).mp htotal
      obtain ⟨hvalidHash, hhash⟩ := (parseHexString_reads.accepts input.electionConfigHash _).mp hhash
      have hcanon : read = canonInput input := by
        cases read
        rw [canonInput]
        congr
      refine ⟨⟨?_, hvalidId, hvalidRoot, hvalidSize, hvalidLog, hvalidTime, hvalidTotal, hvalidHash,
        hvalidVotes, ?_⟩, hcanon⟩
      · exact fun hnil => hne (by rw [hnil, List.map_nil])
      · rwa [← hcanon]
    · rintro ⟨hvalid, rfl⟩
      refine ⟨⟨rfl, rfl, rfl⟩, ⟨_, rfl, ?_, votes_reads.ok hvalid.votes⟩,
        (parseSafeSegment_reads _).ok hvalid.electionId,
        parseHexString_reads.ok hvalid.bulletinRoot, parseInteger_reads.ok hvalid.treeSize,
        parseHexString_reads.ok hvalid.logId, parseInteger_reads.ok hvalid.timestamp,
        parseInteger_reads.ok hvalid.totalExpected, parseHexString_reads.ok hvalid.electionConfigHash,
        hvalid.preflight⟩
      exact fun hnil => hvalid.some_vote (List.map_eq_nil_iff.mp hnil)
  canonical v input hread := by
    obtain ⟨-, ⟨elements, -, hne, hvotes⟩, helectionId, hroot, htreeSize, hlogId, htimestamp,
      htotal, hhash, hpreflight⟩ := parseZkvmInputRecord_eq_ok.mp hread
    have hlength := readEach_length hvotes
    obtain ⟨hvalidVotes, hvotes⟩ := votes_reads.canonical _ _ hvotes
    obtain ⟨hvalidId, -⟩ := (parseSafeSegment_reads _).canonical _ _ helectionId
    obtain ⟨hvalidRoot, hroot⟩ := parseHexString_reads.canonical _ _ hroot
    obtain ⟨hvalidSize, -⟩ := parseInteger_reads.canonical _ _ htreeSize
    obtain ⟨hvalidLog, hlogId⟩ := parseHexString_reads.canonical _ _ hlogId
    obtain ⟨hvalidTime, -⟩ := parseInteger_reads.canonical _ _ htimestamp
    obtain ⟨hvalidTotal, -⟩ := parseInteger_reads.canonical _ _ htotal
    obtain ⟨hvalidHash, hhash⟩ := parseHexString_reads.canonical _ _ hhash
    have hcanon : canonInput input = input := by
      rw [canonInput, hvotes, hroot, hlogId, hhash]
    refine ⟨⟨?_, hvalidId, hvalidRoot, hvalidSize, hvalidLog, hvalidTime, hvalidTotal, hvalidHash,
      hvalidVotes, ?_⟩, hcanon⟩
    · rintro hnil
      rw [hnil, List.length_nil] at hlength
      exact hne (List.length_eq_zero_iff.mp hlength.symm)
    · rwa [hcanon]

end Input

/-! ### The configuration -/

section Config

/-- What `parseElectionConfig` lets through. -/
structure ValidConfig (config : ElectionConfig) : Prop where
  choices : config.choices ≠ []
  totalExpected : ValidInteger .positive config.totalExpected
  version : config.version ≠ []
  botCount : ValidInteger (.atLeast 0) config.botCount
  merkleTreeDepth : ValidInteger .positive config.merkleTreeDepth

theorem stringOf_plain : Plain stringOf .string (fun _ => True) := by
  intro v a
  cases v <;> simp [stringOf]

theorem choices_plain : Plain (readEach (fun _ choice => stringOf choice) 0) (List.map JsValue.string)
    (fun choices => ∀ choice ∈ choices, True) :=
  Plain.each (fun _ => stringOf_plain) 0

/-- SPEC: a configuration is read field by field. -/
theorem parseElectionConfigRecord_eq_ok {v : JsValue} {config : ElectionConfig} :
    parseElectionConfigRecord v = .ok config ↔ IsRecord v electionConfigKeys ∧
      (∃ elements, property v "choices" = .array elements ∧ elements ≠ [] ∧
        readEach (fun _ choice => stringOf choice) 0 elements = .ok config.choices) ∧
      parseInteger (property v "totalExpected") "totalExpected" .positive = .ok config.totalExpected ∧
      parseNonEmptyString (property v "version") "version" = .ok config.version ∧
      parseInteger (property v "botCount") "botCount" (.atLeast 0) = .ok config.botCount ∧
      parseInteger (property v "merkleTreeDepth") "merkleTreeDepth" .positive =
        .ok config.merkleTreeDepth := by
  rw [parseElectionConfigRecord, asRecord_bind_eq_ok]
  refine and_congr_right fun _ => ?_
  constructor
  · intro h
    obtain ⟨elements, helements, h⟩ := bind_eq_ok.mp h
    obtain ⟨choices, hchoices, h⟩ := bind_eq_ok.mp h
    obtain ⟨totalExpected, htotal, h⟩ := bind_eq_ok.mp h
    obtain ⟨version, hversion, h⟩ := bind_eq_ok.mp h
    obtain ⟨botCount, hbots, h⟩ := bind_eq_ok.mp h
    obtain ⟨merkleTreeDepth, hdepth, h⟩ := bind_eq_ok.mp h
    obtain rfl := Except.ok.inj h
    obtain ⟨harray, hne⟩ := nonEmptyArray_eq_ok.mp helements
    exact ⟨⟨elements, harray, hne, hchoices⟩, htotal, hversion, hbots, hdepth⟩
  · rintro ⟨⟨elements, harray, hne, hchoices⟩, htotal, hversion, hbots, hdepth⟩
    rw [nonEmptyArray_eq_ok.mpr ⟨harray, hne⟩, ok_bind, hchoices, ok_bind, htotal, ok_bind, hversion,
      ok_bind, hbots, ok_bind, hdepth, ok_bind]
    rfl

theorem parseElectionConfigRecord_reads :
    Reads parseElectionConfigRecord electionConfigValue ValidConfig id where
  accepts config read := by
    rw [parseElectionConfigRecord_eq_ok]
    constructor
    · rintro ⟨-, ⟨elements, harray, hne, hchoices⟩, htotal, hversion, hbots, hdepth⟩
      obtain rfl := JsValue.array.inj harray
      obtain ⟨hchoices, -⟩ := (choices_plain _ _).mp hchoices
      obtain ⟨hvalidTotal, htotal⟩ := (parseInteger_reads.accepts config.totalExpected _).mp htotal
      obtain ⟨hvalidVersion, hversion⟩ :=
        (parseNonEmptyString_reads.accepts config.version _).mp hversion
      obtain ⟨hvalidBots, hbots⟩ := (parseInteger_reads.accepts config.botCount _).mp hbots
      obtain ⟨hvalidDepth, hdepth⟩ := (parseInteger_reads.accepts config.merkleTreeDepth _).mp hdepth
      have hsame : read.choices = config.choices :=
        (List.map_injective_iff.mpr string_injective hchoices).symm
      refine ⟨⟨fun hnil => hne (by rw [hnil, List.map_nil]), hvalidTotal, hvalidVersion, hvalidBots,
        hvalidDepth⟩, ?_⟩
      cases read
      cases config
      congr
    · rintro ⟨hvalid, rfl⟩
      refine ⟨⟨rfl, rfl, rfl⟩, ⟨_, rfl, ?_, ?_⟩, parseInteger_reads.ok hvalid.totalExpected,
        parseNonEmptyString_reads.ok hvalid.version, parseInteger_reads.ok hvalid.botCount,
        parseInteger_reads.ok hvalid.merkleTreeDepth⟩
      · exact fun hnil => hvalid.choices (List.map_eq_nil_iff.mp hnil)
      · exact (choices_plain _ _).mpr ⟨rfl, fun _ _ => trivial⟩
  canonical v config hread := by
    obtain ⟨-, ⟨elements, -, hne, hchoices⟩, htotal, hversion, hbots, hdepth⟩ :=
      parseElectionConfigRecord_eq_ok.mp hread
    have hlength := readEach_length hchoices
    refine ⟨⟨?_, (parseInteger_reads.canonical _ _ htotal).1,
      (parseNonEmptyString_reads.canonical _ _ hversion).1, (parseInteger_reads.canonical _ _ hbots).1,
      (parseInteger_reads.canonical _ _ hdepth).1⟩, rfl⟩
    intro hnil
    rw [hnil, List.length_nil] at hlength
    exact hne (List.length_eq_zero_iff.mp hlength.symm)

end Config

end StarkBallot.AwsAdapters
