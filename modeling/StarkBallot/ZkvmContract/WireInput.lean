import StarkBallot.ContractCore.Types
import StarkBallot.ZkvmContract.InputCommitment

/-! The input a TypeScript prover receives (`types.ts`), the numeric preflight it must pass
    (`wire-numeric-preflight.ts`) and the work budget it must fit (`work-budget.ts`). Numbers arrive as
    JavaScript numbers and byte strings as text; `render` is the canonical text of a Rust input. Whatever
    the guest admits fits here too, provided its timestamp is a safe integer. -/

namespace StarkBallot.ZkvmContract
open Schemes ContractCore CryptoPrimitives

variable (noble : NobleUtils) (sha256 : List UInt8 → Bytes 32)

def uint8Max : ℕ := 255

structure ZkVMInput.VoteWithProof where
  commitment : JsString
  choice : Num
  random : JsString
  index : Num
  merklePath : List JsString

structure ZkVMInput where
  electionId : JsString
  bulletinRoot : JsString
  treeSize : Num
  logId : JsString
  timestamp : Num
  totalExpected : Num
  electionConfigHash : JsString
  votes : List ZkVMInput.VoteWithProof

/-- What the input commitment covers. -/
def ZkVMInput.publicInput (input : ZkVMInput) : PublicInput where
  electionId := input.electionId
  bulletinRoot := input.bulletinRoot
  treeSize := input.treeSize
  totalExpected := input.totalExpected
  votes := input.votes.map fun vote => ⟨vote.index, vote.commitment, vote.merklePath⟩

def computeInputCommitment (input : ZkVMInput) : JsM JsString :=
  computeInputCommitmentFromPublicInput noble sha256 input.publicInput

/-! ### Numeric preflight -/

def assertRustWireNumber (value : Num) (fieldName : String) (max : ℕ) : JsM Unit := do
  refuseIf (¬ value.isFinite) (.error s!"{fieldName} must be finite")
  refuseIf (¬ value.isInteger) (.error s!"{fieldName} must be an integer")
  refuseIf (¬ value.isSafeInteger) (.error s!"{fieldName} must be a JavaScript safe integer")
  refuseIf (value.lt (.ofNat 0)) (.error s!"{fieldName} must be non-negative")
  refuseIf ((Num.ofNat max).lt value) (.error s!"{fieldName} exceeds Rust wire maximum {max}")

def assertVoteWireNumbers (vote : ZkVMInput.VoteWithProof × ℕ) : JsM Unit := do
  let votePosition := vote.2
  assertRustWireNumber vote.1.choice s!"votes[{votePosition}].choice" uint8Max
  assertRustWireNumber vote.1.index s!"votes[{votePosition}].index" uint32Max

def assertZkvmWireNumericPreflight (input : ZkVMInput) : JsM Unit := do
  assertRustWireNumber input.treeSize "treeSize" uint32Max
  assertRustWireNumber input.totalExpected "totalExpected" uint32Max
  assertRustWireNumber input.timestamp "timestamp" Num.maxSafeInteger
  refuseIf (input.timestamp.eq (.ofNat 0))
    (.error "timestamp must be positive Unix timestamp milliseconds")
  input.votes.zipIdx.forM assertVoteWireNumbers

/-! ### Work budget -/

structure WorkBudget where
  totalPathNodes : ℕ
  structuralInputBytes : ℕ
  serializedInputBytes : Option Num

def asSerializedInputBytes (value : Num) : JsM Num := do
  refuseIf (¬ value.isSafeInteger ∨ value.lt (.ofNat 0))
    (.error "serialized input bytes must be a non-negative safe integer")
  return value

def asStructuralInputBytes (value : ℕ) : JsM ℕ := do
  refuseIf (¬ value ≤ Num.maxSafeInteger)
    (.error "structural input bytes must be a non-negative safe integer")
  return value

def addPathNodes (total : ℕ) (vote : ZkVMInput.VoteWithProof × ℕ) : JsM ℕ := do
  let pathLength := vote.1.merklePath.length
  let votePosition := vote.2
  refuseIf (pathLength > maxGuestMerklePathNodesPerRecord) (.error (
    s!"zkVM input votes[{votePosition}] Merkle path length exceeds per-record budget: " ++
    s!"{pathLength} > {maxGuestMerklePathNodesPerRecord}"))
  refuseIf (¬ total + pathLength ≤ Num.maxSafeInteger)
    (.error "total Merkle path nodes exceed JavaScript safe integer range")
  return total + pathLength

def calculateTotalPathNodes (input : ZkVMInput) : JsM ℕ := input.votes.zipIdx.foldlM addPathNodes 0

def calculateStructuralInputBytes (input : ZkVMInput) : JsM ℕ := do
  let totalPathNodes ← calculateTotalPathNodes input
  asStructuralInputBytes (fixedInputBytes + vecLenBytes + input.votes.length *
    (voteFixedBytes + vecLenBytes) + totalPathNodes * merklePathNodeBytes)

/-- The checks on a serialized size, when the caller gives one. -/
def validateSerialized (structuralInputBytes : ℕ) : Option Num → JsM (Option Num)
  | none => .ok none
  | some value => do
    let bytes ← asSerializedInputBytes value
    refuseIf ((Num.ofNat maxGuestSerializedInputBytes).lt bytes) (.error (
      "zkVM input exceeds serialized byte budget: " ++ bytes.toText ++
        s!" > {maxGuestSerializedInputBytes}"))
    refuseIf (bytes.lt (.ofNat structuralInputBytes)) (.error (
      "zkVM serialized JSON byte count must dominate structural byte estimate: " ++ bytes.toText ++
        s!" < {structuralInputBytes}"))
    return some bytes

def validateGuestWorkBudget (input : ZkVMInput) (serializedInputBytes : Option Num) :
    JsM WorkBudget := do
  let voteCount := input.votes.length
  refuseIf (input.treeSize.lt (.ofNat 1) ∨ (Num.ofNat maxGuestTreeSize).lt input.treeSize) (.error (
    "zkVM input treeSize exceeds guest contract bounds: " ++ input.treeSize.toText ++
      s!" not in 1..{maxGuestTreeSize}"))
  refuseIf ((Num.ofNat maxGuestTotalExpected).lt input.totalExpected) (.error (
    "zkVM input totalExpected exceeds guest contract bound: " ++ input.totalExpected.toText ++
      s!" > {maxGuestTotalExpected}"))
  refuseIf (voteCount > maxGuestVoteCount)
    (.error s!"zkVM input vote count exceeds guest contract bound: {voteCount} > {maxGuestVoteCount}")
  let totalPathNodes ← calculateTotalPathNodes input
  refuseIf (totalPathNodes > maxGuestTotalPathNodes) (.error
    s!"zkVM input exceeds total Merkle path node budget: {totalPathNodes} > {maxGuestTotalPathNodes}")
  let structuralInputBytes ← calculateStructuralInputBytes input
  refuseIf (structuralInputBytes > maxGuestSerializedInputBytes) (.error
    s!"zkVM input exceeds structural byte budget: {structuralInputBytes} > {maxGuestSerializedInputBytes}")
  let serializedInputBytes ← validateSerialized structuralInputBytes serializedInputBytes
  return { totalPathNodes, structuralInputBytes, serializedInputBytes }

/-! ### The canonical text of a Rust input -/

/-- `8-4-4-4-12`. -/
def uuidText (id : Bytes 16) : JsString :=
  (text id).take 8 ++ ['-'] ++ ((text id).drop 8).take 4 ++ ['-'] ++
    ((text id).drop 12).take 4 ++ ['-'] ++ ((text id).drop 16).take 4 ++ ['-'] ++ (text id).drop 20

def renderVote (vote : VoteWithProof) : ZkVMInput.VoteWithProof where
  commitment := prefixed vote.commitment
  choice := .ofNat vote.choice.toNat
  random := prefixed vote.random
  index := .ofNat vote.index.toNat
  merklePath := vote.merklePath.map prefixed

def render (input : AggregatorInput) : ZkVMInput where
  electionId := uuidText input.electionId
  bulletinRoot := prefixed input.bulletinRoot
  treeSize := .ofNat input.treeSize.toNat
  logId := prefixed input.logId
  timestamp := .ofNat input.timestamp.toNat
  totalExpected := .ofNat input.totalExpected.toNat
  electionConfigHash := prefixed input.electionConfigHash
  votes := input.votes.map renderVote

/-- Without its dashes a UUID is the text of its bytes. -/
theorem uuidText_spells (id : Bytes 16) : SpellsUuid (uuidText id) id := by
  have hdash : ∀ s : JsString, (∀ c ∈ s, c ∈ text id) → s.filter (· ≠ '-') = s := by
    intro s hs
    refine List.filter_eq_self.mpr fun c hc => ?_
    have hdigit := hexText_isHexDigit id.toList c (hs c hc)
    simp only [decide_eq_true_eq]
    rintro rfl
    cases hdigit
  have htake : ∀ (s : JsString) (n : ℕ), (∀ c ∈ s, c ∈ text id) → ∀ c ∈ s.take n, c ∈ text id :=
    fun s n hs c hc => hs c (List.mem_of_mem_take hc)
  have hdrop : ∀ n : ℕ, ∀ c ∈ (text id).drop n, c ∈ text id := fun n c hc => List.mem_of_mem_drop hc
  have hstep : ∀ m n : ℕ, ((text id).drop m).take n ++ (text id).drop (m + n) = (text id).drop m :=
    fun m n => by
    rw [← List.drop_drop, List.take_append_drop]
  have hall : (uuidText id).filter (· ≠ '-') = text id := by
    simp only [uuidText, List.filter_append]
    rw [hdash _ (htake _ 8 fun c hc => hc), hdash _ (htake _ 4 (hdrop 8)),
      hdash _ (htake _ 4 (hdrop 12)), hdash _ (htake _ 4 (hdrop 16)), hdash _ (hdrop 20)]
    simp only [ne_eq, not_true_eq_false, decide_false, Bool.false_eq_true, not_false_eq_true,
      List.filter_cons_of_neg, List.filter_nil, List.append_nil, List.append_assoc]
    rw [hstep 16 4, hstep 12 4, hstep 8 4, List.take_append_drop]
  rw [SpellsUuid, hall]
  exact text_spells id

theorem assertRustWireNumber_of_le {n max : ℕ} {fieldName : String} (h : n ≤ max)
    (hmax : max ≤ Num.maxSafeInteger) :
    assertRustWireNumber (.ofNat n) fieldName max = .ok () := by
  have hsafe : (Num.ofNat n).isSafeInteger = true := Num.ofNat_isSafeInteger.mpr (h.trans hmax)
  simp [assertRustWireNumber, refuseIf, hsafe, h.not_gt]

/-- PREFLIGHT: a Rust input passes when its timestamp is positive and safe. -/
theorem assertZkvmWireNumericPreflight_ok {input : AggregatorInput} (hpos : 0 < input.timestamp.toNat)
    (hsafe : input.timestamp.toNat ≤ Num.maxSafeInteger) :
    assertZkvmWireNumericPreflight (render input) = .ok () := by
  have hvotes : (render input).votes.zipIdx.forM assertVoteWireNumbers = .ok () := by
    refine forM_of_forall fun vote hvote => ?_
    obtain ⟨raw, -, hraw⟩ := List.mem_map.mp (List.fst_mem_of_mem_zipIdx hvote)
    have hchoice : raw.choice.toNat ≤ uint8Max := Nat.le_of_lt_succ raw.choice.toNat_lt
    have hchoiceText : vote.1.choice = .ofNat raw.choice.toNat := by rw [← hraw]; rfl
    have hindexText : vote.1.index = .ofNat raw.index.toNat := by rw [← hraw]; rfl
    rw [assertVoteWireNumbers, hchoiceText, hindexText,
      assertRustWireNumber_of_le hchoice (by decide), ok_bind,
      assertRustWireNumber_of_le (toNat_le_uint32Max _) (by decide)]
  have hpositive : ¬ (Num.ofNat input.timestamp.toNat).eq (.ofNat 0) = true := by
    rw [Num.ofNat_eq, decide_eq_true_eq]
    omega
  have htimestamp : (render input).timestamp = .ofNat input.timestamp.toNat := rfl
  have htreeSize : (render input).treeSize = .ofNat input.treeSize.toNat := rfl
  have htotalExpected : (render input).totalExpected = .ofNat input.totalExpected.toNat := rfl
  rw [assertZkvmWireNumericPreflight, hvotes, htimestamp, htreeSize, htotalExpected,
    assertRustWireNumber_of_le (toNat_le_uint32Max _) (by decide), ok_bind,
    assertRustWireNumber_of_le (toNat_le_uint32Max _) (by decide), ok_bind,
    assertRustWireNumber_of_le hsafe le_rfl, ok_bind, refuseIf_of_not hpositive, ok_bind]

/-! ### The budget of both languages -/

/-- The counts that the budget reads are those of a Rust input. -/
structure SameCounts (input : ZkVMInput) (decoded : AggregatorInput) : Prop where
  treeSize : input.treeSize = .ofNat decoded.treeSize.toNat
  totalExpected : input.totalExpected = .ofNat decoded.totalExpected.toNat
  paths : List.Forall₂ (fun vote record => vote.merklePath.length = record.merklePath.length)
    input.votes decoded.votes

/-- LOOP: the path lengths are added up, each within the bound of one record. -/
theorem addPathNodes_foldlM {votes : List ZkVMInput.VoteWithProof} {records : List VoteWithProof}
    (h : List.Forall₂ (fun vote record => vote.merklePath.length = record.merklePath.length)
      votes records)
    {start total n : ℕ} (htotal : total ≤ Num.maxSafeInteger) :
    (votes.zipIdx start).foldlM addPathNodes total = .ok n ↔
      (∀ record ∈ records, record.merklePath.length ≤ maxGuestMerklePathNodesPerRecord) ∧
        total + pathNodeSum records ≤ Num.maxSafeInteger ∧ n = total + pathNodeSum records := by
  induction h generalizing start total with
  | nil =>
    simp only [List.zipIdx_nil, List.foldlM_nil, pathNodeSum, List.map_nil, List.sum_nil, Nat.add_zero]
    exact ⟨fun h => ⟨by simp, htotal, (Except.ok.inj h).symm⟩, fun h => by rw [h.2.2]; rfl⟩
  | @cons vote record votes records hlength _ ih =>
    rw [List.zipIdx_cons, List.foldlM_cons, bind_eq_ok]
    simp only [pathNodeSum, List.map_cons, List.sum_cons, List.forall_mem_cons] at ih ⊢
    constructor
    · rintro ⟨total', hstep, hrest⟩
      simp only [addPathNodes, bind_eq_ok, refuseIf_eq_ok, hlength] at hstep
      obtain ⟨_, hpath, _, hsafe, hstep⟩ := hstep
      obtain rfl := Except.ok.inj hstep
      obtain ⟨hpaths, hsum, rfl⟩ := (ih (not_not.mp hsafe)).mp hrest
      exact ⟨⟨by omega, hpaths⟩, by omega, by omega⟩
    · rintro ⟨⟨hpath, hpaths⟩, hsum, rfl⟩
      refine ⟨total + record.merklePath.length, ?_, (ih (by omega)).mpr ⟨hpaths, by omega, by omega⟩⟩
      simp only [addPathNodes, hlength]
      rw [refuseIf_of_not (by omega), ok_bind, refuseIf_of_not (by omega), ok_bind]
      rfl

theorem calculateTotalPathNodes_eq_ok {input : ZkVMInput} {decoded : AggregatorInput}
    (h : SameCounts input decoded) {n : ℕ} : calculateTotalPathNodes input = .ok n ↔
      (∀ record ∈ decoded.votes, record.merklePath.length ≤ maxGuestMerklePathNodesPerRecord) ∧
        pathNodeSum decoded.votes ≤ Num.maxSafeInteger ∧ n = pathNodeSum decoded.votes := by
  have hfold := @addPathNodes_foldlM _ _ h.paths 0 0 n (Nat.zero_le _)
  rwa [Nat.zero_add] at hfold

theorem calculateStructuralInputBytes_eq_ok {input : ZkVMInput} {decoded : AggregatorInput}
    (h : SameCounts input decoded) {n : ℕ} (hn : calculateStructuralInputBytes input = .ok n) :
    n = structuralSum decoded.votes := by
  obtain ⟨total, htotal, hn⟩ := bind_eq_ok.mp hn
  obtain ⟨-, -, rfl⟩ := (calculateTotalPathNodes_eq_ok h).mp htotal
  obtain ⟨_, -, hn⟩ := bind_eq_ok.mp hn
  rw [← Except.ok.inj hn, h.paths.length_eq]
  rfl

/-- SPEC: the TypeScript budget accepts exactly what is within the Rust bounds, if the
    serialized size passes. -/
theorem validateGuestWorkBudget_isOk_iff {input : ZkVMInput} {decoded : AggregatorInput}
    (h : SameCounts input decoded) (serialized : Option Num) :
      (validateGuestWorkBudget input serialized).isOk = true ↔
      WithinBudget decoded ∧
      (validateSerialized (structuralSum decoded.votes) serialized).isOk = true := by
  have hbig :
      maxGuestTotalPathNodes ≤ Num.maxSafeInteger ∧
      maxGuestSerializedInputBytes ≤ Num.maxSafeInteger := by
    decide
  have hcount := h.paths.length_eq
  constructor
  · intro hok
    obtain ⟨budget, hok⟩ := exists_of_isOk hok
    simp only [validateGuestWorkBudget, bind_eq_ok, refuseIf_eq_ok, h.treeSize, h.totalExpected, hcount,
      Num.ofNat_lt, decide_eq_true_eq] at hok
    obtain ⟨_, htree, _, hexpected, _, hvotes, total, htotal, _, hnodes, structural, hstructural, _,
      hbytes, size, hsize, -⟩ := hok
    obtain ⟨hpaths, -, rfl⟩ := (calculateTotalPathNodes_eq_ok h).mp htotal
    obtain rfl := calculateStructuralInputBytes_eq_ok h hstructural
    refine ⟨⟨by omega, by omega, by omega, by omega, hpaths, by omega, not_lt.mp hbytes⟩, ?_⟩
    rw [hsize]
    rfl
  · rintro ⟨hwithin, hsize⟩
    obtain ⟨size, hsize⟩ := exists_of_isOk hsize
    have hpos := hwithin.treeSize_pos
    have htree := hwithin.treeSize_le
    have hexpected := hwithin.totalExpected_le
    have hvotes := hwithin.votes_le
    have hnodes := hwithin.nodes_le
    have hbytes : structuralSum decoded.votes ≤ maxGuestSerializedInputBytes := hwithin.bytes_le
    have htotal := (calculateTotalPathNodes_eq_ok h).mpr ⟨hwithin.path_le, by omega, rfl⟩
    have hstructural : calculateStructuralInputBytes input = .ok (structuralSum decoded.votes) := by
      rw [calculateStructuralInputBytes, htotal, ok_bind, hcount, asStructuralInputBytes]
      exact bind_eq_ok.mpr ⟨(), refuseIf_of_not (not_not.mpr (hbytes.trans hbig.2)), rfl⟩
    rw [validateGuestWorkBudget, h.treeSize, h.totalExpected, refuseIf_of_not (by simp; omega), ok_bind,
      refuseIf_of_not (by simp; omega), ok_bind, hcount, refuseIf_of_not (by omega), ok_bind,
      htotal, ok_bind, refuseIf_of_not (by omega), ok_bind, hstructural, ok_bind,
      refuseIf_of_not (by omega), ok_bind, hsize]
    rfl

theorem sameCounts_render (input : AggregatorInput) : SameCounts (render input) input where
  treeSize := rfl
  totalExpected := rfl
  paths := by
    refine List.forall₂_map_left_iff.mpr (List.forall₂_same.mpr ?_)
    exact fun vote _ => List.length_map ..

/-- BUDGET: the Rust bounds are the TypeScript bounds. -/
theorem validateGuestWorkBudget_of_within {input : AggregatorInput} (h : WithinBudget input) :
    ∃ budget, validateGuestWorkBudget (render input) none = .ok budget :=
  exists_of_isOk ((validateGuestWorkBudget_isOk_iff (sameCounts_render input) none).mpr ⟨h, rfl⟩)

/-! ### Digests of the canonical text -/

theorem isHex32_prefixed (b : Bytes 32) : isHex32 (prefixed b) = true := by
  have hdigits : ∀ c ∈ text b, isHexDigit c.toLower = true := by
    intro c hc
    have hlower : c.toLower ∈ toLowerCase (text b) := List.mem_map_of_mem hc
    rw [text, toLowerCase_hexText] at hlower
    exact hexText_isHexDigit b.toList _ hlower
  have hlen : (text b).length = 64 := by rw [text, hexText_length, b.length_eq]
  have hlead : prefixed b = '0' :: 'x' :: text b := rfl
  rw [hlead]
  simpa [isHex32, hlen] using hdigits

theorem computeCommitment_render (electionId : Bytes 16) (vote : VoteWithProof) :
    computeCommitment noble sha256 (uuidText electionId)
      (renderVote vote).choice (renderVote vote).random =
        .ok (prefixed (ContractCore.computeCommitment sha256 electionId vote.choice vote.random)) := by
  have hrandom : hexToBytesStrict noble (renderVote vote).random = .ok vote.random.toList :=
    hexToBytesStrict_bytes noble (prefixed_spells _) (by decide)
  rw [computeCommitment, toUuidBytes_eq noble (uuidText_spells electionId), ok_bind, hrandom, ok_bind,
    noble.bytesToHex_eq, renderVote, Num.ofNat_toNat, UInt8.ofNat_toNat]
  rfl

theorem renderVote_spells (vote : VoteWithProof) :
    SpellsVote ⟨(renderVote vote).index, (renderVote vote).commitment, (renderVote vote).merklePath⟩
      vote.committed where
  index := rfl
  commitment := prefixed_spells _
  merklePath :=
    List.forall₂_map_left_iff.mpr (List.forall₂_same.mpr fun node _ => prefixed_spells node.toList)

/-- Where Rust has an input commitment, TypeScript computes its text. -/
theorem computeInputCommitment_render {input : AggregatorInput} {digest : Bytes 32}
    (h : computeInputCommitmentV4 sha256 input.electionId input.bulletinRoot input.treeSize
      input.totalExpected
      input.votes = .ok digest) :
      computeInputCommitment noble sha256 (render input) = .ok (prefixed digest) := by
  let args : CommitmentArgs :=
    ⟨input.electionId, input.bulletinRoot, input.treeSize, input.totalExpected, input.votes⟩
  have hargs : args.commitment sha256 = .ok digest := h
  obtain ⟨data, hdata, rfl⟩ := (CommitmentArgs.commitment_eq_ok sha256).mp hargs
  have hvotes : List.Forall₂ SpellsVote (render input).publicInput.votes
      (input.votes.map VoteWithProof.committed) := by
    simp only [ZkVMInput.publicInput, render, List.map_map, List.forall₂_map_left_iff,
      List.forall₂_map_right_iff, List.forall₂_same]
    exact fun vote _ => renderVote_spells vote
  have hspells : SpellsInput (render input).publicInput args :=
    ⟨uuidText_spells _, prefixed_spells _, rfl, rfl, hvotes⟩
  rw [computeInputCommitment, computeInputCommitmentFromPublicInput,
    encodeInputCommitmentPreimage_of_spells noble hspells hdata, ok_bind, noble.bytesToHex_eq]
  change asInputCommitment (prefixed (sha256 data)) = _
  rw [asInputCommitment, asHex32Identifier, refuseIf_of_not (by rw [isHex32_prefixed]; simp), ok_bind]
  rfl

end StarkBallot.ZkvmContract
