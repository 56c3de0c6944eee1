import StarkBallot.Application.InputBuilder
import StarkBallot.AwsAdapters.DynamoRecords
import StarkBallot.AwsAdapters.ProverWorkRoundTrip
import StarkBallot.ZkvmContract.PublicInputs

/-! Whether the worker gets what a request to finalize put into the queue (`finalize-session.ts`,
    `finalize-async.ts`, `publishProverWorkMessage.ts`, `proverWorkMessage.ts`). A message that refers
    to an upload always arrives. An inline input arrives if it passes the checks of the parser, which
    are stricter than those of the builder; what arrives then has the commitment that was computed
    before it was sent.

        session ──build──▶ input ──finalizeAsync──▶ work item ──publish──▶ text ──▶ worker
                             └───────────────── commitment ──────────────────────────┘ -/

namespace StarkBallot.AwsAdapters
open Schemes ContractCore Validation CryptoPrimitives ZkvmContract Domain Application

/-! ### The item -/

/-- The request that `finalizeSession` makes of prepared inputs. -/
def toFinalizeAsyncInput (sessionId finalizationId : JsString) (queuedAtMs : Num)
    (expectedImageId : JsString) (publishMaxAttempts : Num) (inputSource : InputSource)
    (prepared : PreparedFinalizationInputs) :
    FinalizeAsyncInput where
  sessionId := sessionId
  finalizationId := finalizationId
  queuedAtMs := queuedAtMs
  zkvmInput := prepared.zkvmInput
  electionConfig := prepared.authoritativeElectionConfig
  expectedImageId := expectedImageId
  scenarios := prepared.scenarioContext.scenariosApplied
  scenarioContext := toFinalizationScenarioContext prepared.scenarioContext
  publishMaxAttempts := publishMaxAttempts
  inputSource := inputSource

/-- The item that a request creates, if it gets that far. -/
def createdWorkItem (computeCommitment : ZkVMInput → JsM JsString) (input : FinalizeAsyncInput) :
    JsM FinalizationWorkItem := do
  let zkvmInputCommitment ← computeCommitment input.zkvmInput
  let scenarios ← input.scenarios.mapM toScenarioCode
  return toWorkItem input zkvmInputCommitment scenarios

section Request

variable {U : Type} {ρ : Type} {Answer : ρ → Type} {input : FinalizeAsyncInput}
  {deps : FinalizeAsyncDependencies ρ Answer U}
  {publish : FinalizationWorkItem → Num → Throwing ρ Answer Unit}

theorem throwing_ok_bind {α β : Type} (a : α) (next : α → Throwing ρ Answer β) :
    (throwing (.ok a) >>= next : Throwing ρ Answer β) = next a := rfl

theorem enqueue_publishes (finalizationState : FinalizationState U) {commitment : JsString}
    (hcommitment : deps.computeCommitment input.zkvmInput = .ok commitment)
    (hsame : ∀ item, createdWorkItem deps.computeCommitment input = .ok item →
      publish item input.publishMaxAttempts = deps.publish item input.publishMaxAttempts) :
    enqueue input { deps with publish := publish } finalizationState commitment =
      enqueue input deps finalizationState commitment := by
  unfold enqueue
  cases hscenarios : input.scenarios.mapM toScenarioCode with
  | error e => rfl
  | ok scenarios =>
    have hitem :
        createdWorkItem deps.computeCommitment input = .ok (toWorkItem input commitment scenarios) := by
      rw [createdWorkItem, hcommitment, ok_bind, hscenarios]
      rfl
    have hpublish :
        publishWorkItem input { deps with publish := publish } (toWorkItem input commitment scenarios) =
        publishWorkItem input deps (toWorkItem input commitment scenarios) := by
      unfold publishWorkItem
      dsimp only
      rw [hsame _ hitem]
    rw [throwing_ok_bind, throwing_ok_bind, hpublish]
    rfl

/-- ONLY: nothing but the created item is ever published. -/
theorem finalizeAsync_publishes
    (hsame : ∀ item, createdWorkItem deps.computeCommitment input = .ok item →
      publish item input.publishMaxAttempts = deps.publish item input.publishMaxAttempts) :
    finalizeAsync input { deps with publish := publish } = finalizeAsync input deps := by
  have hstart :
      ∀ finalizationState, startAsync input { deps with publish := publish } finalizationState =
      startAsync input deps finalizationState := by
    intro finalizationState
    unfold startAsync
    cases hcommitment : deps.computeCommitment input.zkvmInput with
    | error e => rfl
    | ok commitment =>
      have henqueue := enqueue_publishes finalizationState hcommitment hsame
      rw [throwing_ok_bind, throwing_ok_bind, henqueue]
      rfl
  unfold finalizeAsync
  simp only [hstart]

end Request

/-! ### Texts that the parser takes -/

section Texts

variable {s : JsString}

theorem isAlphanum_of_lower {c : Char} (h : isHexDigit c.toLower = true) : c.isAlphanum = true := by
  rcases toLower_cases c with hsame | ⟨hlow, hhigh, -⟩
  · rw [hsame] at h
    obtain ⟨n, hn, rfl⟩ := exists_hexDigit h
    have hall : ∀ n < 16, (hexDigit n).isAlphanum = true := by decide
    exact hall n hn
  · have hupper : c.isUpper = true := decide_eq_true ⟨hlow, hhigh⟩
    have halphanum : c.isAlphanum = (c.isUpper || c.isLower || c.isDigit) := rfl
    rw [halphanum, hupper]
    rfl

/-- A UUID is a safe segment. -/
theorem isSafeVerifierSegment_of_isUuid (h : isUuid s = true) : isSafeVerifierSegment s = true := by
  obtain ⟨id, ⟨lead, -, digits, hclean, hlower⟩, hlength⟩ := HostIo.spells_of_isUuid h
  have hcount : digits.length = 32 := by
    have htext := congrArg List.length hlower
    rwa [toLowerCase, List.length_map, hexText_length, id.length_eq] at htext
  obtain rfl : lead = [] := by
    rw [hclean, List.length_append, hcount] at hlength
    exact List.length_eq_zero_iff.mp (by omega)
  have hne : s ≠ [] := by
    rintro rfl
    cases hlength
  rw [isSafeVerifierSegment, Bool.and_eq_true, decide_eq_true_eq, List.all_eq_true]
  refine ⟨hne, fun c hc => ?_⟩
  by_cases hdash : c = '-'
  · simp [hdash]
  · have hmem : c ∈ s.filter (· ≠ '-') := List.mem_filter.mpr ⟨hc, by simpa using hdash⟩
    rw [hclean, List.nil_append] at hmem
    have hdigit := hexText_isHexDigit id.toList c.toLower (hlower ▸ List.mem_map_of_mem hmem)
    rw [isAlphanum_of_lower hdigit, Bool.true_or]

theorem withoutPrefix_of_digits {digits : JsString} (h : ∀ c ∈ digits, isHexDigit c = true) :
    withoutPrefix digits = digits := by
  unfold withoutPrefix
  split
  · exact absurd (h 'x' (by simp)) (by decide)
  · exact absurd (h 'X' (by simp)) (by decide)
  · rfl

theorem validHex_of_spells {b : Bytes 32} (h : Spells s b.toList) : ValidHex 32 s := by
  refine ⟨spelling_ne_nil h, ?_⟩
  rw [canonHex_of_spells h]
  exact isValidHexString_spelling (prefixed_spells b.toList)

theorem validHex_of_normalized {b : Bytes 32} (h : normalizeHexString s = text b) : ValidHex 32 s := by
  have hne : s ≠ [] := by
    rintro rfl
    exact text_ne_nil b h.symm
  refine ⟨hne, ?_⟩
  rw [canonHex, h, addHexPrefix, normalizeHexString_text]
  exact isValidHexString_spelling (prefixed_spells b.toList)

theorem canonHex_of_normal (h : Normal s) : canonHex s = s := by
  obtain ⟨digits, rfl, hlength, hdigits⟩ := h
  have hlower : toLowerCase digits = digits :=
    (List.map_congr_left fun c hc => isHexDigit_toLower (hdigits c hc)).trans (List.map_id digits)
  have hne : digits ≠ [] := List.ne_nil_of_length_pos (by omega)
  have hprefixed : js "0x" ++ digits ≠ [] := List.cons_ne_nil _ _
  have hnormal : normalizeHexString (js "0x" ++ digits) = digits := by
    rw [normalizeHexString, if_neg hprefixed, withoutPrefix_prefixed, hlower]
  rw [canonHex, hnormal, addHexPrefix, normalizeHexString, if_neg hne,
    withoutPrefix_of_digits hdigits, hlower]

/-- A normal text has 32 bytes, or the parser refuses it. -/
theorem validHex_iff_of_normal (h : Normal s) : ValidHex 32 s ↔ isValidHexString s (some 32) = true := by
  constructor
  · intro hvalid
    rw [← canonHex_of_normal h]
    exact hvalid.2
  · intro hvalid
    obtain ⟨b, hspells⟩ := isValidHexString_spells hvalid
    exact validHex_of_spells hspells

theorem validInteger_ofNat {bound : IntegerBound} {n : ℕ} (h : bound.min ≤ n) :
    ValidInteger bound (.ofNat n) :=
  ⟨Num.ofNat_isInteger, by rw [Num.ofNat_lt, decide_eq_true_eq]; omega⟩

end Texts

/-! ### Commitments -/

section Commitments

variable {noble : NobleUtils} {sha256 : List UInt8 → Bytes 32} {input : ZkVMInput}
  {commitment : JsString} {args : CommitmentArgs}

/-- An input that has a commitment spells well-formed values. -/
theorem spelled_of_commitment (h : computeInputCommitment noble sha256 input = .ok commitment) :
    ∃ args data, SpellsInput input.publicInput args ∧ args.preimage = .ok data ∧
      commitment = prefixed (sha256 data) := by
  obtain ⟨data, hdata, h⟩ := bind_eq_ok.mp h
  obtain ⟨args, hspells, hargs⟩ := spellsInput_of_encode hdata
  obtain ⟨_, -, h⟩ := bind_eq_ok.mp h
  refine ⟨args, data, hspells, hargs, ?_⟩
  rw [← Except.ok.inj h, noble.bytesToHex_eq]
  rfl

theorem commitment_of_spelled {data : List UInt8} (h : SpellsInput input.publicInput args)
    (hdata : args.preimage = .ok data) :
    computeInputCommitment noble sha256 input = .ok (prefixed (sha256 data)) := by
  rw [computeInputCommitment, computeInputCommitmentFromPublicInput,
    encodeInputCommitmentPreimage_of_spells noble h hdata,
    ok_bind, noble.bytesToHex_eq]
  change asInputCommitment (prefixed (sha256 data)) = _
  rw [asInputCommitment, asHex32Identifier, refuseIf_of_not (by rw [isHex32_prefixed]; simp), ok_bind]
  rfl

theorem canonHex_spells {n : ℕ} {s : JsString} {b : Bytes n} (h : Spells s b.toList) :
    Spells (canonHex s) b.toList := by
  rw [canonHex_of_spells h]
  exact prefixed_spells b.toList

/-- The canonical input spells the same values. -/
theorem spells_canonInput (h : SpellsInput input.publicInput args) :
    SpellsInput (canonInput input).publicInput args where
  electionId := h.electionId
  bulletinRoot := canonHex_spells h.bulletinRoot
  treeSize := h.treeSize
  totalExpected := h.totalExpected
  votes := by
    have hvotes := h.votes
    simp only [ZkVMInput.publicInput, canonInput, List.map_map, List.forall₂_map_left_iff] at hvotes ⊢
    refine hvotes.imp fun vote a hvote => ⟨hvote.index, canonHex_spells hvote.commitment, ?_⟩
    exact List.forall₂_map_left_iff.mpr (hvote.merklePath.imp fun _ _ hnode => canonHex_spells hnode)

/-- KEPT: what is left of an input has its commitment. -/
theorem commitment_canonInput (h : computeInputCommitment noble sha256 input = .ok commitment) :
    computeInputCommitment noble sha256 (canonInput input) = .ok commitment := by
  obtain ⟨args, data, hspells, hdata, rfl⟩ := spelled_of_commitment h
  exact commitment_of_spelled (spells_canonInput hspells) hdata

theorem spellsVote_of_mem (h : SpellsInput input.publicInput args) {vote : ZkVMInput.VoteWithProof}
    (hvote : vote ∈ input.votes) :
    ∃ a : CommittedVote, SpellsVote ⟨vote.index, vote.commitment, vote.merklePath⟩ a := by
  have hvotes := h.votes
  rw [ZkVMInput.publicInput, List.forall₂_map_left_iff] at hvotes
  obtain ⟨a, -, ha⟩ := exists_of_forall₂ (List.Forall₂.flip hvotes) vote hvote
  exact ⟨a, ha⟩

end Commitments

/-! ### What the parser takes of a built input -/

/-- An input that arrives, and the configuration next to it. -/
structure Deliverable (input : ZkVMInput) (config : ElectionConfig) : Prop where
  some_vote : input.votes ≠ []
  electionId : isUuid input.electionId = true
  logId : isValidHexString input.logId (some 32) = true
  timestamp : ∃ n, 1 ≤ n ∧ n ≤ Num.maxSafeInteger ∧ input.timestamp = .ofNat n
  randoms : ∀ vote ∈ input.votes, isValidHexString vote.random (some 32) = true
  config : ValidConfig config

section Inputs

variable {noble : NobleUtils} {sha256 : List UInt8 → Bytes 32} {identity : SessionIdentityRecord}
  {input : ZkVMInput} {commitment : JsString} {args : CommitmentArgs}

theorem assertRustWireNumber_eq_ok {value : Num} {max : ℕ} {fieldName : String}
    (h : assertRustWireNumber value fieldName max = .ok ()) : ∃ n ≤ max, value = .ofNat n := by
  obtain ⟨_, -, h⟩ := bind_eq_ok.mp h
  obtain ⟨_, -, h⟩ := bind_eq_ok.mp h
  obtain ⟨_, hsafe, h⟩ := bind_eq_ok.mp h
  obtain ⟨_, hneg, hmax⟩ := bind_eq_ok.mp h
  rw [refuseIf_eq_ok] at hsafe hneg hmax
  have hvalue :=
    Num.eq_ofNat_toNat (Num.isInteger_of_isSafeInteger (not_not.mp hsafe))
      (Bool.eq_false_of_not_eq_true hneg)
  refine ⟨value.toNat, ?_, hvalue⟩
  rw [hvalue, Num.ofNat_lt, decide_eq_true_eq] at hmax
  exact not_lt.mp hmax

theorem timestamp_of_preflight (h : assertZkvmWireNumericPreflight input = .ok ()) :
    ∃ n, 1 ≤ n ∧ n ≤ Num.maxSafeInteger ∧ input.timestamp = .ofNat n := by
  obtain ⟨_, -, h⟩ := bind_eq_ok.mp h
  obtain ⟨_, -, h⟩ := bind_eq_ok.mp h
  obtain ⟨_, htime, h⟩ := bind_eq_ok.mp h
  obtain ⟨_, hzero, -⟩ := bind_eq_ok.mp h
  obtain ⟨n, hn, hvalue⟩ := assertRustWireNumber_eq_ok htime
  rw [refuseIf_eq_ok, hvalue, Num.ofNat_eq, decide_eq_true_eq] at hzero
  exact ⟨n, Nat.one_le_iff_ne_zero.mpr hzero, hn, hvalue⟩

theorem toNumber_le (choice : VoteChoice) : choice.toNumber ≤ uint8Max := by
  cases choice <;> decide

/-- The numbers of a built input fit the wire, if its time does. -/
theorem preflight_of_built (hbuilt : Built identity input)
    (hspells : SpellsInput input.publicInput args) {n : ℕ} (hpos : 1 ≤ n)
    (hsafe : n ≤ Num.maxSafeInteger) (htime : input.timestamp = .ofNat n) :
    assertZkvmWireNumericPreflight (canonInput input) = .ok () := by
  have htree : (canonInput input).treeSize = .ofNat args.treeSize.toNat := hspells.treeSize
  have htotal : (canonInput input).totalExpected = .ofNat args.totalExpected.toNat :=
    hspells.totalExpected
  have htime' : (canonInput input).timestamp = .ofNat n := htime
  have hzero : ¬ (Num.ofNat n).eq (.ofNat 0) = true := by
    rw [Num.ofNat_eq, decide_eq_true_eq]
    omega
  have hvotes : (canonInput input).votes.zipIdx.forM assertVoteWireNumbers = .ok () := by
    refine forM_of_forall fun vote hvote => ?_
    obtain ⟨raw, hraw, hsame⟩ := List.mem_map.mp (List.fst_mem_of_mem_zipIdx hvote)
    obtain ⟨choice, hchoice⟩ := (hbuilt.votes raw hraw).choice
    obtain ⟨a, ha⟩ := spellsVote_of_mem hspells hraw
    have hchoice' : vote.1.choice = .ofNat choice.toNumber := by
      rw [← hsame]
      exact hchoice
    have hindex : vote.1.index = .ofNat a.index.toNat := by
      rw [← hsame]
      exact ha.index
    rw [assertVoteWireNumbers, hchoice', hindex,
      assertRustWireNumber_of_le (toNumber_le choice) (by decide), ok_bind,
      assertRustWireNumber_of_le (toNat_le_uint32Max _) (by decide)]
  rw [assertZkvmWireNumericPreflight, htree, htotal, htime', hvotes,
    assertRustWireNumber_of_le (toNat_le_uint32Max _) (by decide), ok_bind,
    assertRustWireNumber_of_le (toNat_le_uint32Max _) (by decide), ok_bind,
    assertRustWireNumber_of_le hsafe le_rfl, ok_bind, refuseIf_of_not hzero, ok_bind]

theorem validVote_of_built {vote : ZkVMInput.VoteWithProof} (hbuilt : BuiltVote vote) {a : CommittedVote}
    (hspells : SpellsVote ⟨vote.index, vote.commitment, vote.merklePath⟩ a)
    (hrandom : isValidHexString vote.random (some 32) = true) : ValidVote vote where
  commitment := validHex_of_spells hspells.commitment
  choice := by
    obtain ⟨choice, hchoice⟩ := hbuilt.choice
    rw [hchoice]
    exact validInteger_ofNat (Nat.zero_le _)
  random := (validHex_iff_of_normal hbuilt.random).mpr hrandom
  index := by
    obtain ⟨index, hindex⟩ := hbuilt.index
    rw [hindex]
    exact validInteger_ofNat (Nat.zero_le _)
  merklePath := by
    intro node hnode
    obtain ⟨b, -, hb⟩ := exists_of_forall₂ (List.Forall₂.flip hspells.merklePath) node hnode
    exact validHex_of_spells hb

/-- ACCEPTED: the parser takes a built input that has a commitment exactly if it is deliverable. -/
theorem validInput_iff (hbuilt : Built identity input)
    (hcommitment : computeInputCommitment noble sha256 input = .ok commitment) :
    (ValidInput input ∧ ValidConfig identity.electionConfig) ↔
    Deliverable input identity.electionConfig := by
  obtain ⟨args, data, hspells, -, -⟩ := spelled_of_commitment hcommitment
  have hlog := validHex_iff_of_normal (normal_of_normalizeHexOrZero hbuilt.logId)
  constructor
  · rintro ⟨hvalid, hconfig⟩
    have htime := timestamp_of_preflight hvalid.preflight
    have hrandoms : ∀ vote ∈ input.votes, isValidHexString vote.random (some 32) = true :=
      fun vote hvote =>
      (validHex_iff_of_normal (hbuilt.votes vote hvote).random).mp (hvalid.votes vote hvote).random
    exact ⟨hvalid.some_vote, hvalid.electionId.uuid rfl, hlog.mp hvalid.logId, htime, hrandoms, hconfig⟩
  · intro h
    obtain ⟨n, hpos, hsafe, htime⟩ := h.timestamp
    obtain ⟨digest, hdigest⟩ := hbuilt.electionConfigHash
    obtain ⟨size, hsize, htree⟩ := hbuilt.treeSize
    refine ⟨⟨h.some_vote, ⟨fun _ => h.electionId, by simp, isSafeVerifierSegment_of_isUuid h.electionId⟩,
      validHex_of_spells hspells.bulletinRoot, htree ▸ validInteger_ofNat hsize, hlog.mpr h.logId,
      htime ▸ validInteger_ofNat (Nat.zero_le _), hbuilt.totalExpected ▸ h.config.totalExpected,
      validHex_of_normalized hdigest, ?_, preflight_of_built hbuilt hspells hpos hsafe htime⟩, h.config⟩
    · intro vote hvote
      obtain ⟨a, ha⟩ := spellsVote_of_mem hspells hvote
      exact validVote_of_built (hbuilt.votes vote hvote) ha (h.randoms vote hvote)

end Inputs

/-! ### Keys -/

section Keys

/-- The prefix of every resolved profile. -/
def targetProofArtifactPrefix : JsString := js "sessions/"

theorem double_of_segment {segment rest : JsString} (h : '/' ∉ segment)
    (hdouble : js "//" <:+: segment ++ rest) :
    js "//" <:+: rest := by
  induction segment with
  | nil => exact hdouble
  | cons c segment ih =>
    rw [List.cons_append, List.infix_cons_iff] at hdouble
    rcases hdouble with htarget | hdouble
    · obtain ⟨tail, htail⟩ := htarget
      exact absurd (List.mem_cons.mpr (.inl (List.cons.inj htail).1)) h
    · exact ih (fun hmem => h (List.mem_cons_of_mem c hmem)) hdouble

/-- A slash, a segment, and what follows. -/
theorem double_of_slash {segment rest : JsString} (hne : segment ≠ []) (h : '/' ∉ segment)
    (hdouble : js "//" <:+: '/' :: (segment ++ rest)) : js "//" <:+: rest := by
  rw [List.infix_cons_iff] at hdouble
  rcases hdouble with htarget | hdouble
  · obtain ⟨tail, htail⟩ := htarget
    cases segment with
    | nil => exact absurd rfl hne
    | cons c segment =>
      have hc : '/' = c := (List.cons.inj (List.cons.inj htail).2).1
      exact absurd (List.mem_cons.mpr (.inl hc)) h
  · exact double_of_segment h hdouble

theorem slash_not_mem_of_safe {segment : JsString} (h : isSafeVerifierSegment segment = true) :
    segment ≠ [] ∧ '/' ∉ segment := by
  rw [isSafeVerifierSegment, Bool.and_eq_true, decide_eq_true_eq, List.all_eq_true] at h
  exact ⟨h.1, fun hmem => absurd (h.2 '/' hmem) (by decide)⟩

theorem asS3Key_eq_ok {value key : JsString} (h : asS3Key value = .ok key) : key ≠ [] := by
  obtain ⟨_, hlength, h⟩ := bind_eq_ok.mp h
  obtain ⟨_, -, h⟩ := bind_eq_ok.mp h
  rw [refuseIf_eq_ok] at hlength
  rw [← Except.ok.inj h]
  exact fun hnil => hlength (by rw [hnil, List.length_nil])

theorem asS3Key_ok {value : JsString} (hfirst : value.take 1 ≠ js "/") (hdouble : ¬ js "//" <:+: value)
    (hne : value ≠ []) : asS3Key value = .ok value := by
  rw [asS3Key, refuseIf_of_not (by simpa using hne), ok_bind,
    refuseIf_of_not (by simp [hfirst, hdouble]), ok_bind]
  rfl

/-- The keys of an attempt lie in its directory. -/
theorem target_key {sessionId finalizationId tail : JsString}
    (hsession : isSafeVerifierSegment sessionId = true)
    (hattempt : isSafeVerifierSegment finalizationId = true) (htail : ¬ js "//" <:+: tail) :
    asS3Key (normalizePrefix targetProofArtifactPrefix ++ sessionId ++ js "/" ++
      finalizationId ++ tail) =
      .ok (normalizePrefix targetProofArtifactPrefix ++ sessionId ++ js "/" ++
        finalizationId ++ tail) := by
  have htarget : normalizePrefix targetProofArtifactPrefix = js "sessions/" := by decide
  obtain ⟨hsessionNe, hsessionSlash⟩ := slash_not_mem_of_safe hsession
  obtain ⟨hattemptNe, hattemptSlash⟩ := slash_not_mem_of_safe hattempt
  have hshape :
      normalizePrefix targetProofArtifactPrefix ++ sessionId ++ js "/" ++ finalizationId ++ tail =
      js "sessions" ++ '/' :: (sessionId ++ '/' :: (finalizationId ++ tail)) := by
    rw [htarget]
    simp [js]
  rw [hshape]
  refine asS3Key_ok (by simp [js]) (fun hdouble => ?_) (List.cons_ne_nil _ _)
  have hdouble := double_of_segment (by decide) hdouble
  have hdouble := double_of_slash hsessionNe hsessionSlash hdouble
  exact htail (double_of_slash hattemptNe hattemptSlash hdouble)

/-- The target prefix gives keys to every attempt. -/
theorem buildFinalizationArtifactS3Keys_target {sessionId finalizationId : JsString}
    (hsession : isSafeVerifierSegment sessionId = true)
    (hattempt : isSafeVerifierSegment finalizationId = true) :
    ∃ keys, buildFinalizationArtifactS3Keys sessionId finalizationId targetProofArtifactPrefix =
      .ok keys := by
  have hkey {tail : JsString} := @target_key sessionId finalizationId tail hsession hattempt
  have hbase := hkey (show ¬ js "//" <:+: [] by decide)
  rw [List.append_nil] at hbase
  refine exists_of_isOk ?_
  rw [buildFinalizationArtifactS3Keys, assertSafeVerifierSegment, assertSafeVerifierSegment,
    refuseIf_of_not (not_not.mpr hsession), ok_bind, refuseIf_of_not (not_not.mpr hattempt), ok_bind]
  dsimp only
  rw [hkey (by decide), ok_bind, hbase, ok_bind, hkey (by decide), ok_bind, hkey (by decide), ok_bind]
  rfl

end Keys

/-! ### The message of a request -/

section Delivery

variable {noble : NobleUtils} {sha256 : List UInt8 → Bytes 32} {identity : SessionIdentityRecord}
  {prepared : PreparedFinalizationInputs} {sessionId finalizationId expectedImageId keyPrefix : JsString}
  {queuedAt : ℕ} {publishMaxAttempts : Num} {inputSource : InputSource} {item : FinalizationWorkItem}
  {payload : ProverWorkMessage}

theorem toScenarioCode_eq_ok {text : JsString} {code : FinalizationScenarioCode}
    (h : toScenarioCode text = .ok code) :
    scenarioText code = text := by
  unfold toScenarioCode at h
  repeat' split at h
  all_goals first | (rename_i htext; obtain rfl := Except.ok.inj h; exact htext.symm) | cases h

theorem scenarioTexts_of_codes {texts : List JsString} {codes : List FinalizationScenarioCode}
    (h : texts.mapM toScenarioCode = .ok codes) : texts = codes.map scenarioText := by
  have hcodes := forall₂_of_mapM h
  rw [← List.map_id texts]
  exact (map_eq_of_forall₂ (hcodes.imp fun _ _ => toScenarioCode_eq_ok)).symm

/-- A scenario that is counted in naturals is always taken. -/
theorem validContext_of_codes {scenario : FinalizeScenarioContext}
    {codes : List FinalizationScenarioCode}
    (h : scenario.scenariosApplied.mapM toScenarioCode = .ok codes) :
    ValidContext (toFinalizationScenarioContext scenario) where
  scenarios := ⟨codes, scenarioTexts_of_codes h⟩
  claimedCounts := by
    intro place hplace
    rw [toFinalizationScenarioContext, Vector.getElem_map]
    exact validInteger_ofNat (Nat.zero_le _)
  claimedTotalVotes := validInteger_ofNat (Nat.zero_le _)
  ignoredCount := validInteger_ofNat (Nat.zero_le _)
  recountedCount := validInteger_ofNat (Nat.zero_le _)
  affectedBotIds := by
    intro ids hids id hid
    obtain ⟨bots, -, rfl⟩ := Option.map_eq_some_iff.mp hids
    obtain ⟨bot, -, rfl⟩ := List.mem_map.mp hid
    exact validInteger_ofNat (Nat.zero_le _)

/-- What the payload of a created item looks like. -/
structure Payload (prepared : PreparedFinalizationInputs)
    (sessionId finalizationId expectedImageId : JsString) (queuedAt : ℕ) (inputSource : InputSource)
    (commitment : JsString) (payload : ProverWorkMessage) : Prop where
  sessionId : payload.sessionId = sessionId
  finalizationId : payload.finalizationId = finalizationId
  queuedAtMs : payload.queuedAtMs = .ofNat queuedAt
  expectedImageId : payload.expectedImageId = expectedImageId
  scenarioContext : ValidContext payload.scenarioContext
  inline : inputSource = .inline →
    payload.input = .inline prepared.zkvmInput (some commitment) prepared.authoritativeElectionConfig
  s3 : inputSource = .s3 → ValidWorkInput payload.input ∧ payload.input.source = .s3

theorem payload_of_created
    (hitem : createdWorkItem (computeInputCommitment noble sha256) (toFinalizeAsyncInput
      sessionId finalizationId (.ofNat queuedAt) expectedImageId publishMaxAttempts inputSource
      prepared) = .ok item)
    (hpayload : proverWorkPayload keyPrefix item = .ok payload) :
    ∃ commitment, computeInputCommitment noble sha256 prepared.zkvmInput = .ok commitment ∧
      Payload prepared sessionId finalizationId expectedImageId queuedAt inputSource commitment
        payload := by
  obtain ⟨commitment, hcommitment, hitem⟩ := bind_eq_ok.mp hitem
  obtain ⟨codes, hcodes, hitem⟩ := bind_eq_ok.mp hitem
  obtain rfl := Except.ok.inj hitem
  obtain ⟨input, hinput, hpayload⟩ := bind_eq_ok.mp hpayload
  obtain rfl := Except.ok.inj hpayload
  refine ⟨commitment, hcommitment, rfl, rfl, rfl, rfl, validContext_of_codes hcodes, ?_, ?_⟩
  · rintro rfl
    exact (Except.ok.inj hinput).symm
  · rintro rfl
    obtain ⟨keys, hkeys, hinput⟩ := bind_eq_ok.mp hinput
    obtain rfl := Except.ok.inj hinput
    obtain ⟨_, -, hkeys⟩ := bind_eq_ok.mp hkeys
    obtain ⟨_, -, hkeys⟩ := bind_eq_ok.mp hkeys
    obtain ⟨inputS3Key, hinputKey, hkeys⟩ := bind_eq_ok.mp hkeys
    obtain ⟨outputS3Prefix, houtputKey, hkeys⟩ := bind_eq_ok.mp hkeys
    obtain ⟨bundleS3Key, hbundleKey, hkeys⟩ := bind_eq_ok.mp hkeys
    obtain ⟨reportS3Key, -, hkeys⟩ := bind_eq_ok.mp hkeys
    obtain rfl := Except.ok.inj hkeys
    exact ⟨⟨asS3Key_eq_ok hinputKey, asS3Key_eq_ok houtputKey, asS3Key_eq_ok hbundleKey⟩, rfl⟩

/-- ACCEPTED: the parser takes the message exactly if it refers to an upload or its input is
    deliverable. -/
theorem validMessage_iff {commitment : JsString} (hbuilt : Built identity prepared.zkvmInput)
    (hconfig : prepared.authoritativeElectionConfig = identity.electionConfig)
    (hcommitment : computeInputCommitment noble sha256 prepared.zkvmInput = .ok commitment)
    (hpayload : Payload prepared sessionId finalizationId expectedImageId queuedAt inputSource
      commitment payload)
    (hsession : isUuid sessionId = true) (hattempt : isSafeVerifierSegment finalizationId = true)
    (hlong : 10 ≤ finalizationId.length) (himage : isValidHexString expectedImageId (some 32) = true) :
    ValidMessage payload ↔
      inputSource = .s3 ∨ Deliverable prepared.zkvmInput identity.electionConfig := by
  have hinput : ValidMessage payload ↔ ValidWorkInput payload.input := by
    refine ⟨fun h => h.input, fun h => ⟨?_, ?_, ?_, ?_, hpayload.scenarioContext, h⟩⟩
    · rw [hpayload.sessionId]
      exact ⟨fun _ => hsession, by simp, isSafeVerifierSegment_of_isUuid hsession⟩
    · rw [hpayload.finalizationId]
      exact ⟨by simp, by simpa using hlong, hattempt⟩
    · rw [hpayload.queuedAtMs]
      exact validInteger_ofNat (Nat.zero_le _)
    · rw [hpayload.expectedImageId]
      obtain ⟨b, hspells⟩ := isValidHexString_spells himage
      exact validHex_of_spells hspells
  rw [hinput]
  cases hsource : inputSource with
  | s3 => exact iff_of_true (hpayload.s3 hsource).1 (.inl rfl)
  | inline =>
    obtain ⟨args, data, -, -, hdigest⟩ := spelled_of_commitment hcommitment
    have hvalid : ValidHex 32 commitment := hdigest ▸ validHex_of_spells (prefixed_spells _)
    rw [hpayload.inline hsource, ← validInput_iff hbuilt hcommitment, hconfig]
    constructor
    · rintro ⟨hinput, -, hvalidConfig⟩
      exact .inr ⟨hinput, hvalidConfig⟩
    · rintro (h | ⟨hinput, hvalidConfig⟩)
      · cases h
      · exact ⟨hinput, fun _ hsame => Option.some.inj hsame ▸ hvalid, hvalidConfig⟩

/-- The target prefix gives every item a payload. -/
theorem payload_of_target (item : FinalizationWorkItem) (hsession : isUuid item.sessionId = true)
    (hattempt : isSafeVerifierSegment item.finalizationId = true) :
    ∃ payload, proverWorkPayload targetProofArtifactPrefix item = .ok payload := by
  have hinput : ∃ input, payloadInput targetProofArtifactPrefix item = .ok input := by
    unfold payloadInput
    cases item.source with
    | inline zkvmInput zkvmInputCommitment electionConfig => exact ⟨_, rfl⟩
    | s3 =>
      obtain ⟨keys, hkeys⟩ :=
        buildFinalizationArtifactS3Keys_target (isSafeVerifierSegment_of_isUuid hsession) hattempt
      exact ⟨_, bind_eq_ok.mpr ⟨keys, hkeys, rfl⟩⟩
  obtain ⟨input, hinput⟩ := hinput
  exact ⟨_, bind_eq_ok.mpr ⟨input, hinput, rfl⟩⟩

/-- DELIVERED: a request for prepared inputs creates an item with a payload; the worker takes the
    message exactly if it refers to an upload or its input is deliverable. A message that is taken is
    what was sent: it survives JSON, it is taken again as it is, and an inline input has the commitment
    that it carries, which is that of the input built. -/
theorem prover_message_delivered (noble : NobleUtils) (sha256 : List UInt8 → Bytes 32)
    (identity : SessionIdentityRecord) (voting : SessionVotingRecord) (scenarioId : JsString)
    (userVoteIndex : ℕ) (readings : ℕ → ℚ) (now : Num)
    (prepared : PreparedFinalizationInputs)
    (hprepared : prepareFinalizationInputs noble sha256 identity voting scenarioId userVoteIndex
      readings now = .ok prepared)
    (sessionId finalizationId expectedImageId : JsString) (queuedAt : ℕ) (publishMaxAttempts : Num)
    (inputSource : InputSource) (hsession : isUuid sessionId = true)
    (hattempt : isSafeVerifierSegment finalizationId = true) (hlong : 10 ≤ finalizationId.length)
    (himage : isValidHexString expectedImageId (some 32) = true) (item : FinalizationWorkItem)
    (hitem : createdWorkItem (computeInputCommitment noble sha256)
      (toFinalizeAsyncInput sessionId finalizationId
      (.ofNat queuedAt) expectedImageId publishMaxAttempts inputSource prepared) = .ok item) :
    (∃ payload, proverWorkPayload targetProofArtifactPrefix item = .ok payload) ∧
    (∀ keyPrefix payload, proverWorkPayload keyPrefix item = .ok payload →
      ((∃ message, parseProverWorkMessage (messageValue payload) = .ok message) ↔
        inputSource = .s3 ∨ Deliverable prepared.zkvmInput identity.electionConfig) ∧
      ∀ message, parseProverWorkMessage (messageValue payload) = .ok message →
        publishProverWorkMessage keyPrefix item = .ok (messageValue message) ∧
        (inputSource = .inline → ∃ received commitment, message.input =
            .inline received (some commitment) prepared.authoritativeElectionConfig ∧
          computeInputCommitment noble sha256 received = .ok commitment ∧
          computeInputCommitment noble sha256 prepared.zkvmInput = .ok commitment)) ∧
    ∀ raw message, parseProverWorkMessage raw = .ok message →
      (messageValue message).viaJson = .ok (messageValue message) ∧
      parseProverWorkMessage (messageValue message) = .ok message := by
  obtain ⟨hbuilt, hconfig, -⟩ := prepared_of_prepare hprepared
  refine ⟨?_, ?_, fun raw message => accepted_again⟩
  · obtain ⟨commitment, -, hrest⟩ := bind_eq_ok.mp hitem
    obtain ⟨codes, -, hrest⟩ := bind_eq_ok.mp hrest
    obtain rfl := Except.ok.inj hrest
    exact payload_of_target _ hsession hattempt
  intro keyPrefix payload hpayload
  obtain ⟨commitment, hcommitment, hshape⟩ := payload_of_created hitem hpayload
  have hiff := validMessage_iff hbuilt hconfig hcommitment hshape hsession hattempt hlong himage
  constructor
  · rw [← hiff]
    constructor
    · rintro ⟨message, hmessage⟩
      exact ((parseProverWorkMessage_reads.accepts payload message).mp hmessage).1
    · intro hvalid
      exact ⟨_, parseProverWorkMessage_reads.ok hvalid⟩
  · intro message hmessage
    obtain ⟨hvalid, hcanon⟩ := (parseProverWorkMessage_reads.accepts payload message).mp hmessage
    refine ⟨?_, fun hsource => ?_⟩
    · rw [publishProverWorkMessage, hpayload, ok_bind, hmessage, ok_bind]
      exact (accepted_again hmessage).1
    · obtain ⟨args, data, -, -, hdigest⟩ := spelled_of_commitment hcommitment
      have hkept : canonHex commitment = commitment := by
        rw [hdigest]
        exact canonHex_of_spells (prefixed_spells _)
      refine ⟨canonInput prepared.zkvmInput, commitment, ?_, commitment_canonInput hcommitment,
        hcommitment⟩
      rw [hcanon, canonMessage, hshape.inline hsource, canonWorkInput, Option.map_some, hkept]

end Delivery

/-! ### Two sessions -/

def sampleVotingSession : SessionIdentityRecord where
  sessionId := js "00000000-0000-4000-8000-000000000001"
  electionId := js "00000000-0000-4000-8000-000000000002"
  electionConfigHash := hashElectionConfig .reference Sha256.digest buildDefaultElectionConfig
  electionConfig := buildDefaultElectionConfig
  logId := prefixed (Bytes.fill 32 7)
  createdAtMs := .ofNat 1

def sampleUserVote : StoredVoteRecord where
  voteId := js "00000000-0000-4000-8000-000000000003"
  timestamp := .ofNat 1
  vote := .a
  rand := prefixed (Bytes.fill 32 1)
  commit := prefixed (Bytes.fill 32 2)
  rootAtCast := prefixed (Bytes.fill 32 3)

/-- The user has voted, and the vote is on the board. -/
def sampleVoting : SessionVotingRecord where
  sessionId := sampleVotingSession.sessionId
  votes := [(0, sampleUserVote)]
  bulletin :=
    (exec (appendVote .reference Sha256.digest sampleUserVote.voteId sampleUserVote.commit (.ofNat 1))
    (.new sampleVotingSession.logId)).2
  bulletinRootHistory := []
  botCount := 63
  userParticipation := .cast 0
  lastActivityMs := .ofNat 1

/-- A stored root of a session that has no votes. -/
def sampleVotingWithoutVotes : SessionVotingRecord :=
  { sampleVoting with
    votes := []
    bulletin := .new sampleVotingSession.logId
    bulletinRootHistory := [⟨.ofNat 1, 1, prefixed (Bytes.fill 32 1), none⟩] }

def samplePrepared (voting : SessionVotingRecord) :
    Except InputBuilderError PreparedFinalizationInputs :=
  prepareFinalizationInputs .reference Sha256.digest sampleVotingSession voting (js "S0") 0 (fun _ => 0)
    (.ofNat 5)

def sampleItem (prepared : PreparedFinalizationInputs) : JsM FinalizationWorkItem :=
  createdWorkItem (computeInputCommitment .reference Sha256.digest)
    (toFinalizeAsyncInput sampleVotingSession.sessionId (js "0123456789") (.ofNat 5)
      (prefixed (Bytes.fill 32 9)) (.ofNat 3) .inline prepared)

def sampleMessage (voting : SessionVotingRecord) : Except InputBuilderError JsValue := do
  let prepared ← samplePrepared voting
  let item ← mapErr .other (sampleItem prepared)
  mapErr .other (publishProverWorkMessage targetProofArtifactPrefix item)

/-- The error of a call that is none of a missing proof. -/
def otherError {α : Type} : Except InputBuilderError α → Option JsError
  | .error (.other error) => some error
  | _ => none

/-- The message of the session with a vote arrives. -/
theorem prover_message_on_sample : ∃ prepared item message, samplePrepared sampleVoting = .ok prepared ∧
    sampleItem prepared = .ok item ∧
    publishProverWorkMessage targetProofArtifactPrefix item = .ok (messageValue message) ∧
    parseProverWorkMessage (messageValue message) = .ok message := by
  obtain ⟨value, hvalue⟩ :=
    exists_of_isOk (show (sampleMessage sampleVoting).isOk = true by decide +kernel)
  obtain ⟨prepared, hprepared, hvalue⟩ := bind_eq_ok.mp hvalue
  obtain ⟨item, hitem, hvalue⟩ := bind_eq_ok.mp hvalue
  have hitem := mapErr_eq_ok.mp hitem
  obtain ⟨payload, hpayload, hvalue⟩ := bind_eq_ok.mp (mapErr_eq_ok.mp hvalue)
  obtain ⟨message, hmessage, hvalue⟩ := bind_eq_ok.mp hvalue
  obtain ⟨-, hpayloads, hagain⟩ :=
    prover_message_delivered .reference Sha256.digest sampleVotingSession sampleVoting
    (js "S0") 0 (fun _ => 0) (.ofNat 5) prepared hprepared sampleVotingSession.sessionId
      (js "0123456789")
    (prefixed (Bytes.fill 32 9)) 5 (.ofNat 3) .inline (by decide) (by decide)
      (by decide)
    (by decide) item hitem
  exact ⟨prepared, item, message, hprepared, hitem,
    ((hpayloads _ payload hpayload).2 message hmessage).1, (hagain _ message hmessage).2⟩

/-- Nothing arrives of the session without votes, which can be prepared. -/
theorem prover_message_without_votes :
    ∃ prepared item, samplePrepared sampleVotingWithoutVotes = .ok prepared ∧
    sampleItem prepared = .ok item ∧ publishProverWorkMessage targetProofArtifactPrefix item =
      .error (.error "votes must contain at least one entry") := by
  have hitem : ((samplePrepared sampleVotingWithoutVotes).bind fun prepared =>
      mapErr .other (sampleItem prepared)).isOk = true := by decide +kernel
  obtain ⟨item, hitem⟩ := exists_of_isOk hitem
  obtain ⟨prepared, hprepared, hitem⟩ := bind_eq_ok.mp hitem
  have hitem := mapErr_eq_ok.mp hitem
  have hmessage : sampleMessage sampleVotingWithoutVotes =
      mapErr .other (publishProverWorkMessage targetProofArtifactPrefix item) := by
    rw [sampleMessage, hprepared, ok_bind, hitem]
    rfl
  have herror : otherError (sampleMessage sampleVotingWithoutVotes) =
      some (.error "votes must contain at least one entry") := by decide +kernel
  rw [hmessage] at herror
  refine ⟨prepared, item, hprepared, hitem, ?_⟩
  cases hpublish : publishProverWorkMessage targetProofArtifactPrefix item with
  | ok message =>
    rw [hpublish] at herror
    cases herror
  | error error =>
    rw [hpublish] at herror
    exact congrArg Except.error (Option.some.inj herror)

end StarkBallot.AwsAdapters
