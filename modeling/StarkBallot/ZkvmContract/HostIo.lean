import StarkBallot.Domain.Constants
import StarkBallot.Domain.Hex
import StarkBallot.ZkvmContract.WireInput

/-! The JSON that the Rust host reads (`host-io.ts`, `validated-domain.ts`, `identifiers.ts`, and
    `JsonInput` of `host/src/main.rs`). The input is validated, its texts become arrays of numbers, and
    the host takes them as fixed arrays and machine integers:

        ZkVMInput ──validate──▶ ──serialize──▶ AggregatorInputJson ──stringify──▶ text
                                                        └──────────decode──────▶ AggregatorInput

    Every input that is validated arrives; its counts and the lengths of its lists arrive unchanged. -/

namespace StarkBallot.ZkvmContract.HostIo
open Schemes ContractCore CryptoPrimitives Domain

/-! ### Validation -/

def asElectionId (value : JsString) : JsM JsString := do
  refuseIf (¬ isUuid value) (.error "electionId must be a UUID")
  return value

def asBulletinRoot (value : JsString) : JsM JsString := do
  let root ← asHex32Identifier value "bulletinRoot"
  refuseIf (toLowerCase root = zeroHex 64 true) (.error "bulletinRoot must be non-zero")
  return root

/-- `assertUnsignedIntegerInRange`, and the value. -/
def asUnsignedInteger (value : Num) (max : ℕ) (fieldName : String) : JsM Num := do
  assertUnsignedIntegerInRange value max fieldName
  return value

def asTreeSize (value : Num) : JsM Num := asUnsignedInteger value uint32Max "treeSize"

def asTotalExpected (value : Num) : JsM Num := asUnsignedInteger value uint32Max "totalExpected"

def asVoteChoiceByte (value : Num) : JsM Num := asUnsignedInteger value uint8Max "choice"

def asBulletinIndex (value : Num) : JsM Num := asUnsignedInteger value uint32Max "bulletin index"

def validateVoteWithProof (vote : ZkVMInput.VoteWithProof) : JsM ZkVMInput.VoteWithProof := do
  let commitment ← asHex32Identifier vote.commitment "commitment"
  let choice ← asVoteChoiceByte vote.choice
  let random ← asHex32Identifier vote.random "random"
  let index ← asBulletinIndex vote.index
  let merklePath ← vote.merklePath.mapM fun node => asHex32Identifier node "merklePath node"
  return { commitment, choice, random, index, merklePath }

def toValidatedZkVMInput (input : ZkVMInput) : JsM ZkVMInput := do
  assertZkvmWireNumericPreflight input
  let electionId ← asElectionId input.electionId
  let bulletinRoot ← asBulletinRoot input.bulletinRoot
  let treeSize ← asTreeSize input.treeSize
  let logId ← asHex32Identifier input.logId "logId"
  let timestamp ← asUnixTimestampMillis input.timestamp
  let totalExpected ← asTotalExpected input.totalExpected
  let electionConfigHash ← asHex32Identifier input.electionConfigHash "electionConfigHash"
  let votes ← input.votes.mapM validateVoteWithProof
  return { electionId, bulletinRoot, treeSize, logId, timestamp, totalExpected, electionConfigHash,
           votes }

/-! ### Serialization -/

structure AggregatorVoteJson where
  commitment : List UInt8
  choice : Num
  random : List UInt8
  index : Num
  merklePath : List (List UInt8)

structure AggregatorInputJson where
  electionId : List UInt8
  bulletinRoot : List UInt8
  treeSize : Num
  logId : List UInt8
  timestamp : Num
  totalExpected : Num
  electionConfigHash : List UInt8
  votes : List AggregatorVoteJson

/-- `Buffer.from(text, 'hex')`: whole digit pairs, up to the first that is none. -/
def bufferFromHex : JsString → List UInt8
  | high :: low :: rest =>
    if isHexLetter high && isHexLetter low then
      UInt8.ofNat (16 * hexValue high + hexValue low) :: bufferFromHex rest
    else []
  | _ => []

def hexToBytes (value : JsString) (expectedBytes : ℕ) : JsM (List UInt8) := do
  let clean := normalizeHexString value
  refuseIf (clean.length > expectedBytes * 2)
    (.error ("Hex value " ++ String.ofList value ++ s!" exceeds {expectedBytes} bytes"))
  return bufferFromHex (padStart clean (expectedBytes * 2) '0')

def uuidToBytes (uuid : JsString) : JsM (List UInt8) := do
  let clean := uuid.filter (· ≠ '-')
  refuseIf (clean.length ≠ 32)
    (.error ("ElectionId must be a UUID v4 string, received " ++ String.ofList uuid))
  return bufferFromHex clean

def serializeVote (vote : ZkVMInput.VoteWithProof) : JsM AggregatorVoteJson := do
  let commitment ← hexToBytes vote.commitment 32
  let random ← hexToBytes vote.random 32
  let merklePath ← vote.merklePath.mapM fun node => hexToBytes node 32
  return { commitment, choice := vote.choice, random, index := vote.index, merklePath }

def serializeZkvmAggregatorInput (input : ZkVMInput) : JsM AggregatorInputJson := do
  let validated ← toValidatedZkVMInput input
  let electionId ← uuidToBytes validated.electionId
  let bulletinRoot ← hexToBytes validated.bulletinRoot 32
  let logId ← hexToBytes validated.logId 32
  let electionConfigHash ← hexToBytes validated.electionConfigHash 32
  let votes ← validated.votes.mapM serializeVote
  return { electionId, bulletinRoot, treeSize := validated.treeSize, logId,
           timestamp := validated.timestamp, totalExpected := validated.totalExpected,
           electionConfigHash, votes }

/-! ### The host's side -/

def hostBytes (n : ℕ) (bytes : List UInt8) : RustM (Bytes n) :=
  if h : bytes.length = n then .ok ⟨bytes, h⟩ else .error (.err s!"invalid length {bytes.length}")

/-- A number of a machine type with the given maximum. -/
def hostInteger (max : ℕ) (value : Num) : RustM ℕ :=
  if value.isInteger ∧ ¬ value.lt (.ofNat 0) ∧ value.toNat ≤ max then .ok value.toNat
  else .error (.err ("invalid value " ++ value.toText))

def hostVote (vote : AggregatorVoteJson) : RustM VoteWithProof := do
  let commitment ← hostBytes 32 vote.commitment
  let choice ← hostInteger uint8Max vote.choice
  let random ← hostBytes 32 vote.random
  let index ← hostInteger u32Max vote.index
  let merklePath ← vote.merklePath.mapM (hostBytes 32)
  return { commitment, choice := .ofNat choice, random, index := .ofNat index, merklePath }

/-- `JsonInput` and `json_to_aggregator_input`. -/
def jsonToAggregatorInput (json : AggregatorInputJson) : RustM AggregatorInput := do
  let electionId ← hostBytes 16 json.electionId
  let bulletinRoot ← hostBytes 32 json.bulletinRoot
  let treeSize ← hostInteger u32Max json.treeSize
  let logId ← hostBytes 32 json.logId
  let timestampMs ← hostInteger u64Max json.timestamp
  let totalExpected ← hostInteger u32Max json.totalExpected
  let electionConfigHash ← hostBytes 32 json.electionConfigHash
  let votes ← json.votes.mapM hostVote
  let timestamp ← mapErr (fun _ => .err "timestamp must be positive Unix timestamp milliseconds")
    (UnixTimestampMillis.new (.ofNat timestampMs))
  return { electionId, bulletinRoot, treeSize := .ofNat treeSize, logId, timestamp := timestamp.get,
           totalExpected := .ofNat totalExpected, electionConfigHash, votes }

/-! ### Texts and their bytes -/

/-- Only two characters have this lower case. -/
theorem eq_of_toLower_eq_x {c : Char} (h : c.toLower = 'x') : c = 'x' ∨ c = 'X' := by
  rcases toLower_cases c with hsame | ⟨-, -, hval⟩
  · exact Or.inl (hsame.symm.trans h)
  · refine Or.inr (Char.ext ?_)
    have hx : 'x'.val = 'X'.val + 32 := by decide
    rw [h, hx] at hval
    exact (UInt32.add_left_inj 32).mp hval.symm

theorem toLower_eq_dash {c : Char} : c.toLower = '-' ↔ c = '-' := by
  constructor
  · intro h
    rcases toLower_cases c with hsame | ⟨hlow, hhigh, hval⟩
    · exact hsame.symm.trans h
    · rw [h] at hval
      rw [UInt32.le_iff_toNat_le] at hlow hhigh
      have hcode := congrArg UInt32.toNat hval
      rw [UInt32.toNat_add] at hcode
      have hdash : '-'.val.toNat = 45 := by decide
      have h32 : (32 : UInt32).toNat = 32 := rfl
      have h65 : (65 : UInt32).toNat = 65 := rfl
      have h90 : (90 : UInt32).toNat = 90 := rfl
      omega
  · rintro rfl
    rfl

theorem spells_of_isHex32 {value : JsString} (h : isHex32 value = true) :
    ∃ b : Bytes 32, Spells value b.toList := by
  unfold isHex32 at h
  split at h
  · rename_i x digits
    simp only [Bool.and_eq_true, decide_eq_true_eq, List.all_eq_true] at h
    obtain ⟨⟨hx, hlength⟩, hdigits⟩ := h
    have hlower : ∀ c ∈ toLowerCase digits, isHexDigit c = true := by
      intro c hc
      obtain ⟨d, hd, rfl⟩ := List.mem_map.mp hc
      exact hdigits d hd
    have hlowerLength : (toLowerCase digits).length = 64 := by rw [toLowerCase, List.length_map, hlength]
    obtain ⟨bytes, hbytes⟩ := exists_hexText _ hlower (by rw [hlowerLength])
    have hcount : bytes.length = 32 := by
      rw [hbytes, hexText_length] at hlowerLength
      omega
    refine ⟨⟨bytes, hcount⟩, ?_⟩
    rcases eq_of_toLower_eq_x hx with rfl | rfl
    · exact ⟨js "0x", by simp, digits, rfl, hbytes⟩
    · exact ⟨js "0X", by simp, digits, rfl, hbytes⟩
  · cases h

theorem bufferFromHex_of_lower :
    ∀ {digits : JsString} {bytes : List UInt8}, toLowerCase digits = hexText bytes →
    bufferFromHex digits = bytes
  | digits, [], h => by
      rw [toLowerCase, hexText, List.flatMap_nil, List.map_eq_nil_iff] at h
      rw [h]
      rfl
  | digits, byte :: bytes, h => by
      have hlt := byte.toNat_lt
      rw [hexText, List.flatMap_cons, List.cons_append, List.cons_append, List.nil_append,
        toLowerCase] at h
      obtain ⟨high, rest, rfl, hhigh, hrest⟩ := List.map_eq_cons_iff.mp h
      obtain ⟨low, rest, rfl, hlow, hrest⟩ := List.map_eq_cons_iff.mp hrest
      have hdigitHigh : isHexLetter high = true := by rw [isHexLetter, hhigh, isHexDigit_hexDigit]
      have hdigitLow : isHexLetter low = true := by rw [isHexLetter, hlow, isHexDigit_hexDigit]
      have hvalue (c : Char) (n : ℕ) (hn : n < 16) (hc : c.toLower = hexDigit n) : hexValue c = n := by
        rw [← hexValue_hexDigit n hn, hexValue, hexValue, hc, toLower_hexDigit]
      rw [bufferFromHex, hdigitHigh, hdigitLow, Bool.and_self, if_pos rfl,
        hvalue high _ (by omega) hhigh, hvalue low _ (by omega) hlow, bufferFromHex_of_lower hrest,
        Nat.div_add_mod, UInt8.ofNat_toNat]

theorem hexToBytes_of_spells {hex : JsString} {b : Bytes 32} (h : Spells hex b.toList) :
    hexToBytes hex 32 = .ok b.toList := by
  have hlength : (hexText b.toList).length = 64 := by rw [hexText_length, b.length_eq]
  simp only [hexToBytes, normalizeHexString_of_spells h]
  rw [refuseIf_of_not (by omega), ok_bind, padStart, hlength, Nat.sub_self, List.replicate_zero,
    List.nil_append, bufferFromHex_of_lower (toLowerCase_hexText _)]
  rfl

theorem drop_eq_cons {s : JsString} {i : ℕ} {c : Char} (h : s[i]? = some c) :
    s.drop i = c :: s.drop (i + 1) := by
  obtain ⟨hlt, rfl⟩ := List.getElem?_eq_some_iff.mp h
  exact List.drop_eq_getElem_cons hlt

theorem filter_digits {s : JsString} (h : s.all isHexDigit = true) : s.filter (· ≠ '-') = s := by
  refine List.filter_eq_self.mpr ?_
  intro c hc
  have hdigit := List.all_eq_true.mp h c hc
  rw [decide_eq_true_eq]
  rintro rfl
  cases hdigit

/-- The digits between the dashes. -/
def uuidDigits (lower : JsString) : JsString :=
  lower.take 8 ++
    ((lower.drop 9).take 4 ++
      ((lower.drop 14).take 4 ++ ((lower.drop 19).take 4 ++ (lower.drop 24).take 12)))

/-- A digit of its own set, with the digits after it. -/
theorem digits_after {s : JsString} {i : ℕ} {digits : String}
    (hhead : s[i]?.any (fun c => (js digits).contains c) = true)
    (hdigits : (js digits).all isHexDigit = true)
    (htail : ((s.drop (i + 1)).take 3).all isHexDigit = true) :
    ((s.drop i).take 4).all isHexDigit = true := by
  obtain ⟨c, hc, hset⟩ := (Option.any_eq_true _ _).mp hhead
  have hdigit := List.all_eq_true.mp hdigits c (List.contains_iff_mem.mp hset)
  rw [drop_eq_cons hc, List.take_succ_cons, List.all_cons, hdigit, htail, Bool.and_self]

theorem filter_uuid {lower : JsString} (h : matchesUuid "12345" lower = true)
    (hlower : toLowerCase lower = lower) :
    lower.filter (· ≠ '-') = uuidDigits lower ∧ (uuidDigits lower).all isHexDigit = true ∧
      (uuidDigits lower).length = 32 := by
  simp only [matchesUuid, hlower, Bool.and_eq_true, decide_eq_true_eq, List.drop_zero] at h
  obtain ⟨⟨⟨⟨⟨⟨⟨⟨⟨⟨⟨hlength, h0⟩, h8⟩, h9⟩, h13⟩, h14⟩, h15⟩, h18⟩, h19⟩, h20⟩, h23⟩, h24⟩ := h
  have hversion := digits_after h14 (by decide) h15
  have hvariant := digits_after h19 (by decide) h20
  have hsplit :
      lower = lower.take 8 ++ '-' :: ((lower.drop 9).take 4 ++ '-' :: ((lower.drop 14).take 4 ++
      '-' :: ((lower.drop 19).take 4 ++ '-' :: (lower.drop 24).take 12))) := by
    have hcut (i n : ℕ) : lower.drop i = (lower.drop i).take n ++ lower.drop (i + n) := by
      rw [← List.drop_drop, List.take_append_drop]
    have hend : lower.drop 24 = (lower.drop 24).take 12 :=
      (List.take_of_length_le (by simp [hlength])).symm
    rw [← hend, ← drop_eq_cons h23, ← hcut 19 4, ← drop_eq_cons h18, ← hcut 14 4, ← drop_eq_cons
      h13, ← hcut 9 4, ← drop_eq_cons h8, List.take_append_drop]
  refine ⟨?_, ?_, ?_⟩
  · conv_lhs => rw [hsplit]
    simp only [List.filter_append, List.filter_cons, ne_eq, not_true_eq_false, decide_false,
      Bool.false_eq_true, if_false]
    rw [filter_digits h0, filter_digits h9, filter_digits hversion, filter_digits hvariant,
      filter_digits h24, uuidDigits]
  · simp only [uuidDigits, List.all_append, h0, h9, hversion, hvariant, h24, Bool.and_self]
  · simp [uuidDigits, hlength]

theorem spells_of_isUuid {value : JsString} (h : isUuid value = true) :
    ∃ id : Bytes 16, SpellsUuid value id ∧
    (value.filter (· ≠ '-')).length = 32 := by
  have htwice : toLowerCase (toLowerCase value) = toLowerCase value := by
    simp only [toLowerCase, List.map_map, Function.comp_def, toLower_toLower]
  have hlower : matchesUuid "12345" (toLowerCase value) = true := by
    rw [isUuid, matchesUuid] at h
    rw [matchesUuid, htwice]
    exact h
  obtain ⟨hfilter, hdigits, hlength⟩ := filter_uuid hlower htwice
  have hclean : toLowerCase (value.filter (· ≠ '-')) = uuidDigits (toLowerCase value) := by
    rw [← hfilter, toLowerCase, toLowerCase, List.filter_map]
    congr 1
    refine List.filter_congr ?_
    intro c _
    simp [toLower_eq_dash]
  obtain ⟨bytes, hbytes⟩ := exists_hexText _ (List.all_eq_true.mp hdigits) (by rw [hlength])
  have hcount : bytes.length = 16 := by
    rw [hbytes, hexText_length] at hlength
    omega
  refine ⟨⟨bytes, hcount⟩, ⟨js "", by simp, _, rfl, hclean.trans hbytes⟩, ?_⟩
  rw [← hlength, ← hclean, toLowerCase, List.length_map]

theorem uuidToBytes_of_spells {value : JsString} {id : Bytes 16} (h : SpellsUuid value id)
    (hlength : (value.filter (· ≠ '-')).length = 32) : uuidToBytes value = .ok id.toList := by
  obtain ⟨lead, hlead, digits, hclean, hdigits⟩ := h
  have hcount : digits.length = 32 := by
    have htext := congrArg List.length hdigits
    rw [toLowerCase, List.length_map, hexText_length, id.length_eq] at htext
    exact htext
  obtain rfl : lead = [] := by
    rw [hclean, List.length_append, hcount] at hlength
    exact List.length_eq_zero_iff.mp (by omega)
  simp only [uuidToBytes]
  rw [refuseIf_of_not (not_not.mpr hlength), ok_bind, hclean, List.nil_append,
    bufferFromHex_of_lower hdigits]
  rfl

/-! ### What is validated arrives -/

/-- The texts and numbers of a vote are those of a record. -/
structure DecodesVote (vote : ZkVMInput.VoteWithProof) (decoded : VoteWithProof) : Prop where
  commitment : Spells vote.commitment decoded.commitment.toList
  choice : vote.choice = .ofNat decoded.choice.toNat
  random : Spells vote.random decoded.random.toList
  index : vote.index = .ofNat decoded.index.toNat
  merklePath : SpellEach vote.merklePath decoded.merklePath

/-- The texts and numbers of an input are those of a Rust input. -/
structure Decodes (input : ZkVMInput) (decoded : AggregatorInput) : Prop where
  electionId : SpellsUuid input.electionId decoded.electionId
  electionId_digits : (input.electionId.filter (· ≠ '-')).length = 32
  bulletinRoot : Spells input.bulletinRoot decoded.bulletinRoot.toList
  treeSize : input.treeSize = .ofNat decoded.treeSize.toNat
  logId : Spells input.logId decoded.logId.toList
  timestamp : input.timestamp = .ofNat decoded.timestamp.toNat
  timestamp_pos : decoded.timestamp ≠ 0
  totalExpected : input.totalExpected = .ofNat decoded.totalExpected.toNat
  electionConfigHash : Spells input.electionConfigHash decoded.electionConfigHash.toList
  votes : List.Forall₂ DecodesVote input.votes decoded.votes

theorem asElectionId_of_valid {electionId : JsString} (h : isUuid electionId = true) :
    asElectionId electionId = .ok electionId := by
  rw [asElectionId, refuseIf_of_not (not_not.mpr h)]
  rfl

theorem asHex32Identifier_of_valid {value : JsString} (fieldName : String) (h : isHex32 value = true) :
    asHex32Identifier value fieldName = .ok value := by
  rw [asHex32Identifier, refuseIf_of_not (not_not.mpr h)]
  rfl

theorem asUnsignedInteger_of_le {n max : ℕ} {fieldName : String} (h : n ≤ max)
    (hmax : max ≤ Num.maxSafeInteger) :
    asUnsignedInteger (.ofNat n) max fieldName = .ok (.ofNat n) := by
  rw [asUnsignedInteger, assertUnsignedIntegerInRange_of_le h hmax]
  rfl

theorem toLowerCase_prefixed (b : Bytes 32) : toLowerCase (prefixed b) = prefixed b := by
  rw [prefixed, toLowerCase, List.map_append, ← toLowerCase, ← toLowerCase, text, toLowerCase_hexText]
  rfl

theorem asBulletinRoot_prefixed {root : Bytes 32} (h : root ≠ Bytes.fill 32 0) :
    asBulletinRoot (prefixed root) = .ok (prefixed root) := by
  have hzero : zeroHex 64 true = prefixed (Bytes.fill 32 0) := by decide
  rw [asBulletinRoot, asHex32Identifier_of_valid _ (isHex32_prefixed root), ok_bind,
    toLowerCase_prefixed, hzero, refuseIf_of_not fun heq => h (prefixed_injective heq)]
  rfl

theorem asHex32Identifier_eq_ok {value read : JsString} {fieldName : String}
    (h : asHex32Identifier value fieldName = .ok read) :
    read = value ∧ ∃ b : Bytes 32, Spells value b.toList := by
  obtain ⟨_, hvalid, h⟩ := bind_eq_ok.mp h
  rw [refuseIf_eq_ok, not_not] at hvalid
  exact ⟨(Except.ok.inj h).symm, spells_of_isHex32 hvalid⟩

theorem assertUnsignedIntegerInRange_eq_ok {value : Num} {max : ℕ} {fieldName : String}
    (h : assertUnsignedIntegerInRange value max fieldName = .ok ()) : ∃ n ≤ max, value = .ofNat n := by
  rw [assertUnsignedIntegerInRange, refuseIf_eq_ok] at h
  simp only [not_or, not_not] at h
  obtain ⟨hsafe, hneg, hmax⟩ := h
  have hvalue :=
    Num.eq_ofNat_toNat (Num.isInteger_of_isSafeInteger hsafe) (Bool.eq_false_of_not_eq_true hneg)
  refine ⟨value.toNat, ?_, hvalue⟩
  rw [hvalue, Num.ofNat_lt, decide_eq_true_eq] at hmax
  exact not_lt.mp hmax

theorem asUnsignedInteger_eq_ok {value read : Num} {max : ℕ} {fieldName : String}
    (h : asUnsignedInteger value max fieldName = .ok read) :
    read = value ∧ ∃ n ≤ max, value = .ofNat n := by
  obtain ⟨_, hrange, h⟩ := bind_eq_ok.mp h
  exact ⟨(Except.ok.inj h).symm, assertUnsignedIntegerInRange_eq_ok hrange⟩

theorem ofNat_toNat_uint32 {n : ℕ} (h : n ≤ uint32Max) : (UInt32.ofNat n).toNat = n := by
  rw [UInt32.toNat_ofNat']
  exact Nat.mod_eq_of_lt (Nat.lt_succ_of_le h)

theorem ofNat_toNat_uint8 {n : ℕ} (h : n ≤ uint8Max) : (UInt8.ofNat n).toNat = n := by
  rw [UInt8.toNat_ofNat']
  exact Nat.mod_eq_of_lt (Nat.lt_succ_of_le h)

theorem spellEach_of_mapM {hexes read : List JsString} {fieldName : String}
    (h : (hexes.mapM fun node => asHex32Identifier node fieldName) = .ok read) :
    read = hexes ∧ ∃ values : List (Bytes 32), SpellEach hexes values := by
  induction hexes generalizing read with
  | nil =>
    rw [← Except.ok.inj h]
    exact ⟨rfl, [], .nil⟩
  | cons hex hexes ih =>
    rw [List.mapM_cons] at h
    obtain ⟨first, hfirst, htail⟩ := bind_eq_ok.mp h
    obtain ⟨rest, hrest, hread⟩ := bind_eq_ok.mp htail
    obtain ⟨rfl, value, hvalue⟩ := asHex32Identifier_eq_ok hfirst
    obtain ⟨rfl, values, hvalues⟩ := ih hrest
    rw [← Except.ok.inj hread]
    exact ⟨rfl, value :: values, .cons hvalue hvalues⟩

theorem validateVoteWithProof_decodes {vote validated : ZkVMInput.VoteWithProof}
    (h : validateVoteWithProof vote = .ok validated) :
    validated = vote ∧ ∃ decoded, DecodesVote vote decoded := by
  unfold validateVoteWithProof at h
  obtain ⟨_, hcommitment, h⟩ := bind_eq_ok.mp h
  obtain ⟨_, hchoice, h⟩ := bind_eq_ok.mp h
  obtain ⟨_, hrandom, h⟩ := bind_eq_ok.mp h
  obtain ⟨_, hindex, h⟩ := bind_eq_ok.mp h
  obtain ⟨_, hpath, h⟩ := bind_eq_ok.mp h
  obtain ⟨rfl, commitment, hspellsCommitment⟩ := asHex32Identifier_eq_ok hcommitment
  obtain ⟨rfl, choice, hchoiceLe, hchoiceEq⟩ := asUnsignedInteger_eq_ok hchoice
  obtain ⟨rfl, random, hspellsRandom⟩ := asHex32Identifier_eq_ok hrandom
  obtain ⟨rfl, index, hindexLe, hindexEq⟩ := asUnsignedInteger_eq_ok hindex
  obtain ⟨rfl, path, hspellsPath⟩ := spellEach_of_mapM hpath
  refine ⟨(Except.ok.inj h).symm, ⟨commitment, .ofNat choice, random, .ofNat index, path⟩, ?_⟩
  exact {
    commitment := hspellsCommitment
    choice := by rw [ofNat_toNat_uint8 hchoiceLe, hchoiceEq]
    random := hspellsRandom
    index := by rw [ofNat_toNat_uint32 hindexLe, hindexEq]
    merklePath := hspellsPath }

theorem decodesVotes_of_mapM {votes validated : List ZkVMInput.VoteWithProof}
    (h : votes.mapM validateVoteWithProof = .ok validated) :
    validated = votes ∧ ∃ decoded, List.Forall₂ DecodesVote votes decoded := by
  induction votes generalizing validated with
  | nil =>
    rw [← Except.ok.inj h]
    exact ⟨rfl, [], .nil⟩
  | cons vote votes ih =>
    rw [List.mapM_cons] at h
    obtain ⟨first, hfirst, htail⟩ := bind_eq_ok.mp h
    obtain ⟨rest, hrest, hread⟩ := bind_eq_ok.mp htail
    obtain ⟨rfl, decodedFirst, hdecodedFirst⟩ := validateVoteWithProof_decodes hfirst
    obtain ⟨rfl, decodedRest, hdecodedRest⟩ := ih hrest
    rw [← Except.ok.inj hread]
    exact ⟨rfl, decodedFirst :: decodedRest, .cons hdecodedFirst hdecodedRest⟩

/-- SPEC: validation returns its input, whose texts and numbers are those of a Rust input. -/
theorem toValidatedZkVMInput_decodes {input validated : ZkVMInput}
    (h : toValidatedZkVMInput input = .ok validated) :
    validated = input ∧ ∃ decoded, Decodes input decoded := by
  unfold toValidatedZkVMInput at h
  obtain ⟨_, -, h⟩ := bind_eq_ok.mp h
  obtain ⟨_, helection, h⟩ := bind_eq_ok.mp h
  obtain ⟨_, hroot, h⟩ := bind_eq_ok.mp h
  obtain ⟨_, htree, h⟩ := bind_eq_ok.mp h
  obtain ⟨_, hlog, h⟩ := bind_eq_ok.mp h
  obtain ⟨_, htime, h⟩ := bind_eq_ok.mp h
  obtain ⟨_, hexpected, h⟩ := bind_eq_ok.mp h
  obtain ⟨_, hconfig, h⟩ := bind_eq_ok.mp h
  obtain ⟨_, hvotes, h⟩ := bind_eq_ok.mp h
  obtain ⟨_, huuid, helection⟩ := bind_eq_ok.mp helection
  rw [refuseIf_eq_ok, not_not] at huuid
  obtain rfl := Except.ok.inj helection
  obtain ⟨id, hspellsId, hdigits⟩ := spells_of_isUuid huuid
  obtain ⟨_, hhex, hroot⟩ := bind_eq_ok.mp hroot
  obtain ⟨_, -, hroot⟩ := bind_eq_ok.mp hroot
  obtain rfl := Except.ok.inj hroot
  obtain ⟨rfl, root, hspellsRoot⟩ := asHex32Identifier_eq_ok hhex
  obtain ⟨rfl, treeSize, htreeLe, htreeEq⟩ := asUnsignedInteger_eq_ok htree
  obtain ⟨rfl, logId, hspellsLog⟩ := asHex32Identifier_eq_ok hlog
  obtain ⟨_, hrange, htime⟩ := bind_eq_ok.mp htime
  obtain ⟨_, hpositive, htime⟩ := bind_eq_ok.mp htime
  obtain rfl := Except.ok.inj htime
  obtain ⟨timestamp, htimeLe, htimeEq⟩ := assertUnsignedIntegerInRange_eq_ok hrange
  rw [refuseIf_eq_ok, htimeEq, Num.ofNat_le, decide_eq_true_eq] at hpositive
  obtain ⟨rfl, totalExpected, hexpectedLe, hexpectedEq⟩ := asUnsignedInteger_eq_ok hexpected
  obtain ⟨rfl, config, hspellsConfig⟩ := asHex32Identifier_eq_ok hconfig
  obtain ⟨rfl, votes, hspellsVotes⟩ := decodesVotes_of_mapM hvotes
  have hsafe : Num.maxSafeInteger < 2 ^ 64 := by decide
  have htimestamp : (UInt64.ofNat timestamp).toNat = timestamp := by
    rw [UInt64.toNat_ofNat']
    exact Nat.mod_eq_of_lt (by omega)
  refine ⟨(Except.ok.inj h).symm,
    ⟨id, root, .ofNat treeSize, logId, .ofNat timestamp, .ofNat totalExpected, config, votes⟩, ?_⟩
  exact {
    electionId := hspellsId
    electionId_digits := hdigits
    bulletinRoot := hspellsRoot
    treeSize := by rw [ofNat_toNat_uint32 htreeLe, htreeEq]
    logId := hspellsLog
    timestamp := by rw [htimestamp, htimeEq]
    timestamp_pos := by
      intro hzero
      have hcode := congrArg UInt64.toNat hzero
      rw [htimestamp] at hcode
      exact hpositive hcode.le
    totalExpected := by rw [ofNat_toNat_uint32 hexpectedLe, hexpectedEq]
    electionConfigHash := hspellsConfig
    votes := hspellsVotes }

/-- The JSON of a Rust vote. -/
def voteJsonOf (vote : VoteWithProof) : AggregatorVoteJson where
  commitment := vote.commitment.toList
  choice := .ofNat vote.choice.toNat
  random := vote.random.toList
  index := .ofNat vote.index.toNat
  merklePath := vote.merklePath.map Bytes.toList

/-- The JSON of a Rust input. -/
def jsonOf (input : AggregatorInput) : AggregatorInputJson where
  electionId := input.electionId.toList
  bulletinRoot := input.bulletinRoot.toList
  treeSize := .ofNat input.treeSize.toNat
  logId := input.logId.toList
  timestamp := .ofNat input.timestamp.toNat
  totalExpected := .ofNat input.totalExpected.toNat
  electionConfigHash := input.electionConfigHash.toList
  votes := input.votes.map voteJsonOf

theorem mapM_eq_map_of_forall₂ {ε α β γ : Type} {f : α → Except ε γ} {g : β → γ} {l : List α}
    {l' : List β} (h : List.Forall₂ (fun a b => f a = .ok (g b)) l l') : l.mapM f = .ok (l'.map g) :=
  mapM_of_forall₂ (List.forall₂_map_right_iff.mpr h)

theorem serializeVote_of_decodes {vote : ZkVMInput.VoteWithProof} {decoded : VoteWithProof}
    (h : DecodesVote vote decoded) : serializeVote vote = .ok (voteJsonOf decoded) := by
  have hpath :
      (vote.merklePath.mapM fun node => hexToBytes node 32) =
        .ok (decoded.merklePath.map Bytes.toList) :=
    mapM_eq_map_of_forall₂ (h.merklePath.imp fun _ _ => hexToBytes_of_spells)
  rw [serializeVote, hexToBytes_of_spells h.commitment, ok_bind, hexToBytes_of_spells h.random, ok_bind,
    hpath, ok_bind, h.choice, h.index]
  rfl

/-- SPEC: the JSON of a validated input is the JSON of the Rust input that its texts spell. -/
theorem serializeZkvmAggregatorInput_eq {input validated : ZkVMInput} {decoded : AggregatorInput}
    (hvalid : toValidatedZkVMInput input = .ok validated) (h : Decodes input decoded) :
    serializeZkvmAggregatorInput input = .ok (jsonOf decoded) := by
  obtain ⟨rfl, -⟩ := toValidatedZkVMInput_decodes hvalid
  have hvotes : validated.votes.mapM serializeVote = .ok (decoded.votes.map voteJsonOf) :=
    mapM_eq_map_of_forall₂ (h.votes.imp fun _ _ => serializeVote_of_decodes)
  rw [serializeZkvmAggregatorInput, hvalid, ok_bind,
    uuidToBytes_of_spells h.electionId h.electionId_digits, ok_bind,
    hexToBytes_of_spells h.bulletinRoot, ok_bind, hexToBytes_of_spells h.logId, ok_bind,
    hexToBytes_of_spells h.electionConfigHash, ok_bind, hvotes, ok_bind, h.treeSize, h.timestamp,
    h.totalExpected]
  rfl

theorem hostBytes_toList {n : ℕ} (b : Bytes n) : hostBytes n b.toList = .ok b := dif_pos b.length_eq

theorem hostInteger_ofNat {n max : ℕ} (h : n ≤ max) : hostInteger max (.ofNat n) = .ok n := by
  have hnonneg : ¬ (Num.ofNat n).lt (.ofNat 0) = true := by simp
  rw [hostInteger, Num.ofNat_toNat, if_pos ⟨Num.ofNat_isInteger, hnonneg, h⟩]

theorem hostVote_voteJsonOf (vote : VoteWithProof) : hostVote (voteJsonOf vote) = .ok vote := by
  have hpath : (voteJsonOf vote).merklePath.mapM (hostBytes 32) = .ok vote.merklePath := by
    refine mapM_of_forall₂ (List.forall₂_map_left_iff.mpr (List.forall₂_same.mpr ?_))
    exact fun node _ => hostBytes_toList node
  have hchoice : vote.choice.toNat ≤ uint8Max := Nat.le_of_lt_succ vote.choice.toNat_lt
  have hindex : vote.index.toNat ≤ u32Max := Nat.le_of_lt_succ vote.index.toNat_lt
  rw [hostVote, hpath]
  simp only [voteJsonOf, hostBytes_toList, hostInteger_ofNat hchoice, hostInteger_ofNat hindex, ok_bind,
    UInt8.ofNat_toNat, UInt32.ofNat_toNat]
  rfl

/-- SPEC: the host reads back the Rust input. -/
theorem jsonToAggregatorInput_jsonOf {input : AggregatorInput} (h : input.timestamp ≠ 0) :
    jsonToAggregatorInput (jsonOf input) = .ok input := by
  have hvotes : (jsonOf input).votes.mapM hostVote = .ok input.votes := by
    refine mapM_of_forall₂ (List.forall₂_map_left_iff.mpr (List.forall₂_same.mpr ?_))
    exact fun vote _ => hostVote_voteJsonOf vote
  have htree : input.treeSize.toNat ≤ u32Max := Nat.le_of_lt_succ input.treeSize.toNat_lt
  have hexpected : input.totalExpected.toNat ≤ u32Max := Nat.le_of_lt_succ input.totalExpected.toNat_lt
  have htime : input.timestamp.toNat ≤ u64Max := Nat.le_of_lt_succ input.timestamp.toNat_lt
  rw [jsonToAggregatorInput, hvotes]
  simp only [jsonOf, hostBytes_toList, hostInteger_ofNat htree, hostInteger_ofNat hexpected,
    hostInteger_ofNat htime, ok_bind, UInt64.ofNat_toNat, UInt32.ofNat_toNat, UnixTimestampMillis.new,
    dif_neg h, mapErr]
  rfl

end StarkBallot.ZkvmContract.HostIo
