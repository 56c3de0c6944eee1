import StarkBallot.ZkvmContract.HostIo

/-! The work budget on both sides of the wire (`work-budget.ts`, `work_budget.rs`, `executor.ts`). A
    prover checks an input before it is serialized, and again with the size of the JSON text; the host
    and the guest check what they have read. The estimate of the structure counts bytes of a binary
    encoding, and the text of the same data has at least two characters for each of them:

        node   32 bytes       [_,_, … ,_]           at least 65 characters
        vote   77 bytes       { … }                 more than two arrays of 32 numbers
        input  136 bytes      { … }                 more than three of them

    so the size of the text never falls below the estimate, and the two sides accept the same inputs. -/

namespace StarkBallot.ZkvmContract.HostIo
open Schemes ContractCore

/-! ### The text of the JSON -/

section Text

-- the third argument of `JSON.stringify`; 0 for a text on one line
variable (space : ℕ)

def lineBreak (depth : ℕ) : JsString :=
  if space = 0 then [] else '\n' :: List.replicate (space * depth) ' '

/-- Items between brackets; an empty list has no line breaks. -/
def bracketed (opening closing : Char) (depth : ℕ) : List JsString → JsString
  | [] => [opening, closing]
  | item :: items =>
    opening :: (lineBreak space (depth + 1) ++ item ++
      items.flatMap (fun item => ',' :: (lineBreak space (depth + 1) ++ item)) ++
        lineBreak space depth ++ [closing])

def arrayText (depth : ℕ) (items : List JsString) : JsString := bracketed space '[' ']' depth items

/-- A key needs no escapes here. -/
def fieldText (field : String × JsString) : JsString :=
  let quote := Char.ofNat 34
  quote :: (js field.1 ++ [quote, ':'] ++ (if space = 0 then [] else [' ']) ++ field.2)

def objectText (depth : ℕ) (fields : List (String × JsString)) : JsString :=
  bracketed space '\x7b' '\x7d' depth (fields.map (fieldText space))

def bytesText (depth : ℕ) (bytes : List UInt8) : JsString :=
  arrayText space depth (bytes.map fun byte => js (toString byte.toNat))

def voteText (depth : ℕ) (vote : AggregatorVoteJson) : JsString :=
  objectText space depth [
    ("commitment", bytesText space (depth + 1) vote.commitment),
    ("choice", js vote.choice.toText),
    ("random", bytesText space (depth + 1) vote.random),
    ("index", js vote.index.toText),
    ("merkle_path", arrayText space (depth + 1) (vote.merklePath.map (bytesText space (depth + 2))))]

/-- `JSON.stringify(json, null, space)`. -/
def AggregatorInputJson.stringify (json : AggregatorInputJson) : JsString :=
  objectText space 0 [
    ("election_id", bytesText space 1 json.electionId),
    ("bulletin_root", bytesText space 1 json.bulletinRoot),
    ("tree_size", js json.treeSize.toText),
    ("log_id", bytesText space 1 json.logId),
    ("timestamp", js json.timestamp.toText),
    ("total_expected", js json.totalExpected.toText),
    ("election_config_hash", bytesText space 1 json.electionConfigHash),
    ("votes", arrayText space 1 (json.votes.map (voteText space 2)))]

/-- `Buffer.byteLength(text, 'utf8')`. -/
def byteLength (text : JsString) : ℕ := (text.map Char.utf8Size).sum

theorem length_le_byteLength (text : JsString) : text.length ≤ byteLength text := by
  induction text with
  | nil => exact le_rfl
  | cons c text ih =>
    have hc := c.utf8Size_pos
    simp only [byteLength, List.map_cons, List.sum_cons, List.length_cons] at ih ⊢
    omega

/-! ### A lower bound on its length -/

/-- What the items take, each with a separator or the last bracket. -/
def itemsLength (items : List JsString) : ℕ := (items.map fun item => item.length + 1).sum

variable {space}

theorem itemsLength_le_bracketed (opening closing : Char) (depth : ℕ) (items : List JsString) :
    1 + itemsLength items ≤ (bracketed space opening closing depth items).length := by
  cases items with
  | nil => simp [itemsLength, bracketed]
  | cons item items =>
    have hitems : itemsLength items ≤
        (items.flatMap fun item => ',' :: (lineBreak space (depth + 1) ++ item)).length := by
      rw [itemsLength, List.length_flatMap]
      refine List.sum_le_sum ?_
      intro item _
      simp only [List.length_cons, List.length_append]
      omega
    simp only [itemsLength, List.map_cons, List.sum_cons, bracketed, List.length_cons,
      List.length_append, List.length_nil] at hitems ⊢
    omega

theorem length_fieldText (key : String) (value : JsString) :
    value.length + 3 ≤ (fieldText space (key, value)).length := by
  simp only [fieldText, List.length_cons, List.length_append, List.length_nil]
  omega

theorem itemsLength_fields (fields : List (String × JsString)) :
    (fields.map fun field => field.2.length + 4).sum ≤ itemsLength (fields.map (fieldText space)) := by
  induction fields with
  | nil => exact le_rfl
  | cons field fields ih =>
    obtain ⟨key, value⟩ := field
    have hfield := @length_fieldText space key value
    simp only [itemsLength, List.map_cons, List.sum_cons] at ih ⊢
    omega

/-- An object takes its values, and four characters for each. -/
theorem length_objectText (depth : ℕ) (fields : List (String × JsString)) :
    1 + (fields.map fun field => field.2.length + 4).sum ≤ (objectText space depth fields).length :=
  (Nat.add_le_add_left (itemsLength_fields fields) 1).trans (itemsLength_le_bracketed _ _ depth _)

/-- Every element takes at least `n` characters and its separator. -/
theorem mul_le_itemsLength {items : List JsString} {n : ℕ} (h : ∀ item ∈ items, n ≤ item.length) :
    items.length * (n + 1) ≤ itemsLength items := by
  induction items with
  | nil => simp [itemsLength]
  | cons item items ih =>
    rw [List.forall_mem_cons] at h
    have hrest := ih h.2
    simp only [itemsLength, List.map_cons, List.sum_cons, List.length_cons, Nat.succ_mul] at hrest ⊢
    omega

theorem length_bytesText (depth : ℕ) (bytes : List UInt8) :
    1 + bytes.length ≤ (bytesText space depth bytes).length := by
  have hitems : (bytes.map fun byte => js (toString byte.toNat)).length * (0 + 1) ≤
      itemsLength (bytes.map fun byte => js (toString byte.toNat)) :=
      mul_le_itemsLength fun _ _ => Nat.zero_le _
  rw [List.length_map, Nat.mul_one] at hitems
  exact (Nat.add_le_add_left hitems 1).trans (itemsLength_le_bracketed _ _ depth _)

/-- A path takes more characters than its nodes have bytes. -/
theorem length_pathText (depth : ℕ) (path : List (Bytes 32)) :
    1 + path.length * merklePathNodeBytes ≤
      (arrayText space depth ((path.map Bytes.toList).map (bytesText space (depth + 1)))).length := by
  have hitems : ((path.map Bytes.toList).map (bytesText space (depth + 1))).length * (31 + 1) ≤
      itemsLength ((path.map Bytes.toList).map (bytesText space (depth + 1))) := by
    refine mul_le_itemsLength ?_
    intro item hitem
    obtain ⟨bytes, hbytes, rfl⟩ := List.mem_map.mp hitem
    obtain ⟨node, -, rfl⟩ := List.mem_map.mp hbytes
    have hnode := @length_bytesText space (depth + 1) node.toList
    rw [node.length_eq] at hnode
    omega
  rw [List.length_map, List.length_map] at hitems
  exact (Nat.add_le_add_left hitems 1).trans (itemsLength_le_bracketed _ _ depth _)

theorem length_voteText (depth : ℕ) (vote : VoteWithProof) :
    voteFixedBytes + vecLenBytes + vote.merklePath.length * merklePathNodeBytes ≤
      (voteText space depth (voteJsonOf vote)).length := by
  have hcommitment := @length_bytesText space (depth + 1) vote.commitment.toList
  have hrandom := @length_bytesText space (depth + 1) vote.random.toList
  have hpath : 1 + vote.merklePath.length * merklePathNodeBytes ≤ (arrayText space (depth + 1)
      ((vote.merklePath.map Bytes.toList).map (bytesText space (depth + 2)))).length :=
    length_pathText (depth + 1) vote.merklePath
  have hfixed : voteFixedBytes + vecLenBytes = 77 := rfl
  rw [vote.commitment.length_eq] at hcommitment
  rw [vote.random.length_eq] at hrandom
  rw [voteText]
  refine le_trans ?_ (length_objectText depth _)
  simp only [voteJsonOf, List.map_cons, List.map_nil, List.sum_cons, List.sum_nil]
  omega

/-- The estimate of a vote list is what its votes take, one by one. -/
theorem votes_le_itemsLength (votes : List VoteWithProof) :
    votes.length * (voteFixedBytes + vecLenBytes) + pathNodeSum votes * merklePathNodeBytes ≤
      itemsLength ((votes.map voteJsonOf).map (voteText space 2)) := by
  induction votes with
  | nil => simp [itemsLength, pathNodeSum]
  | cons vote votes ih =>
    have hvote := @length_voteText space 2 vote
    simp only [itemsLength, pathNodeSum, List.map_cons, List.sum_cons, List.length_cons, Nat.succ_mul,
      Nat.add_mul] at ih ⊢
    omega

/-- SIZE: the text has at least as many characters as the estimate has bytes. -/
theorem structuralSum_le_stringify (input : AggregatorInput) :
    structuralSum input.votes ≤ ((jsonOf input).stringify space).length := by
  have hid := @length_bytesText space 1 input.electionId.toList
  have hroot := @length_bytesText space 1 input.bulletinRoot.toList
  have hlog := @length_bytesText space 1 input.logId.toList
  have hconfig := @length_bytesText space 1 input.electionConfigHash.toList
  have hvotes := @votes_le_itemsLength space input.votes
  have harray :=
    @itemsLength_le_bracketed space '[' ']' 1 ((input.votes.map voteJsonOf).map (voteText space 2))
  have hfixed : fixedInputBytes + vecLenBytes = 136 := rfl
  rw [input.electionId.length_eq] at hid
  rw [input.bulletinRoot.length_eq] at hroot
  rw [input.logId.length_eq] at hlog
  rw [input.electionConfigHash.length_eq] at hconfig
  rw [AggregatorInputJson.stringify]
  refine le_trans ?_ (length_objectText 0 _)
  simp only [structuralSum, jsonOf, arrayText, List.map_cons, List.map_nil, List.sum_cons, List.sum_nil]
  omega

end Text

/-! ### Agreement -/

theorem Decodes.sameCounts {input : ZkVMInput} {decoded : AggregatorInput} (h : Decodes input decoded) :
    SameCounts input decoded where
  treeSize := h.treeSize
  totalExpected := h.totalExpected
  paths := h.votes.imp fun _ _ hvote => hvote.merklePath.length_eq

/-- The sums and products of the budget: the path nodes vote by vote, and the
    parts of the byte estimate. -/
def workValues (votes : List VoteWithProof) : List ℕ :=
  (List.range (votes.length + 1)).map (fun k => pathNodeSum (votes.take k)) ++ [
    fixedInputBytes + vecLenBytes,
    votes.length * (voteFixedBytes + vecLenBytes),
    fixedInputBytes + vecLenBytes + votes.length * (voteFixedBytes + vecLenBytes),
    pathNodeSum votes * merklePathNodeBytes,
    structuralSum votes]

theorem pathNodeSum_take_le (votes : List VoteWithProof) (k : ℕ) :
    pathNodeSum (votes.take k) ≤ pathNodeSum votes := by
  have hsplit : votes.map (fun vote => vote.merklePath.length) =
      (votes.take k).map (fun vote => vote.merklePath.length) ++
        (votes.drop k).map (fun vote => vote.merklePath.length) := by
    rw [← List.map_append, List.take_append_drop]
  rw [pathNodeSum, pathNodeSum, hsplit, List.sum_append]
  exact Nat.le_add_right _ _

/-- Nothing that is computed for an admitted input comes near the limits of its type. -/
theorem workValues_le {input : AggregatorInput} (h : WithinBudget input) :
    ∀ value ∈ workValues input.votes, value ≤ maxGuestSerializedInputBytes := by
  have hbytes := h.bytes_le
  have hnodes := h.nodes_le
  have hmax : maxGuestTotalPathNodes ≤ maxGuestSerializedInputBytes := by decide
  intro value hvalue
  rcases List.mem_append.mp hvalue with hsum | hpart
  · obtain ⟨k, -, rfl⟩ := List.mem_map.mp hsum
    exact (pathNodeSum_take_le input.votes k).trans (hnodes.trans hmax)
  · simp only [List.mem_cons, List.not_mem_nil, or_false] at hpart
    rcases hpart with rfl | rfl | rfl | rfl | rfl
    · omega
    · omega
    · omega
    · omega
    · exact hbytes

/-- A size that is at least the estimate passes in TypeScript exactly when it passes in Rust. -/
theorem validateSerialized_isOk_iff {estimate size : ℕ} (h : estimate ≤ size) :
    (validateSerialized estimate (some (.ofNat size))).isOk = true ↔
      (validateSerializedInputBytes (some size)).isOk = true := by
  have hmax : maxGuestSerializedInputBytes ≤ Num.maxSafeInteger := by decide
  by_cases hsize : size ≤ maxGuestSerializedInputBytes
  · have hsafe : (Num.ofNat size).isSafeInteger = true := Num.ofNat_isSafeInteger.mpr (hsize.trans hmax)
    have hbytes : asSerializedInputBytes (.ofNat size) = .ok (.ofNat size) := by
      rw [asSerializedInputBytes, refuseIf_of_not (by simp [hsafe])]
      rfl
    simp [validateSerialized, validateSerializedInputBytes, hbytes, refuseIf, hsize.not_gt, h.not_gt,
      Except.isOk, Except.toBool, pure, Except.pure]
  · have hlt : maxGuestSerializedInputBytes < size := not_le.mp hsize
    have hrefused : ¬ (validateSerialized estimate (some (.ofNat size))).isOk = true := by
      intro hok
      obtain ⟨_, hok⟩ := exists_of_isOk hok
      obtain ⟨bytes, hbytes, hok⟩ := bind_eq_ok.mp hok
      obtain ⟨_, -, hbytes⟩ := bind_eq_ok.mp hbytes
      obtain rfl := Except.ok.inj hbytes
      obtain ⟨_, hbound, -⟩ := bind_eq_ok.mp hok
      rw [refuseIf_eq_ok, Num.ofNat_lt, decide_eq_true_eq] at hbound
      exact hbound hlt
    have hrefused' : ¬ (validateSerializedInputBytes (some size)).isOk = true := by
      intro hok
      obtain ⟨_, hok⟩ := exists_of_isOk hok
      rw [validateSerializedInputBytes, refuseIf_eq_ok] at hok
      exact hok hlt
    exact iff_of_false hrefused hrefused'

/-- AGREEMENT: for every input whose fields are valid, the budgets of both languages accept the same,
    with and without the size of its JSON text, whatever its spacing; no sum and no product of an
    accepted input leaves its type, and neither estimate exceeds the size of the text. -/
theorem work_budget_agrees {input validated : ZkVMInput}
    (hvalid : toValidatedZkVMInput input = .ok validated) :
    ∃ json decoded, serializeZkvmAggregatorInput input = .ok json ∧
      jsonToAggregatorInput json = .ok decoded ∧
      ((validateGuestWorkBudget input none).isOk =
        (ContractCore.validateGuestWorkBudget decoded none).isOk) ∧
      ((validateGuestWorkBudget input none).isOk = true → ∀ value ∈ workValues decoded.votes,
        value ≤ u32Max ∧ value ≤ u64Max ∧ value ≤ Num.maxSafeInteger) ∧
      ∀ space, let size := byteLength (json.stringify space)
        (validateGuestWorkBudget input (some (.ofNat size))).isOk =
          (ContractCore.validateGuestWorkBudget decoded (some size)).isOk ∧
        (∀ estimate, calculateStructuralInputBytes input = .ok estimate →
          estimate ≤ (json.stringify space).length) ∧
        (∀ estimate, estimateStructuralInputBytes decoded = .ok estimate →
          estimate ≤ (json.stringify space).length) ∧
        (json.stringify space).length ≤ size := by
  obtain ⟨rfl, decoded, hdecodes⟩ := toValidatedZkVMInput_decodes hvalid
  have hcounts := hdecodes.sameCounts
  refine ⟨jsonOf decoded, decoded, serializeZkvmAggregatorInput_eq hvalid hdecodes,
    jsonToAggregatorInput_jsonOf hdecodes.timestamp_pos, ?_, ?_, ?_⟩
  · rw [Bool.eq_iff_iff, validateGuestWorkBudget_isOk_iff hcounts, validateGuestWorkBudget_isOk]
    exact and_congr_right fun _ => Iff.rfl
  · intro hok value hvalue
    have hwithin := ((validateGuestWorkBudget_isOk_iff hcounts none).mp hok).1
    have hle := workValues_le hwithin value hvalue
    have hmax : maxGuestSerializedInputBytes ≤ u32Max ∧ maxGuestSerializedInputBytes ≤ u64Max ∧
        maxGuestSerializedInputBytes ≤ Num.maxSafeInteger := by decide
    exact ⟨hle.trans hmax.1, hle.trans hmax.2.1, hle.trans hmax.2.2⟩
  · intro space
    have htext := @structuralSum_le_stringify space decoded
    have hsize := length_le_byteLength ((jsonOf decoded).stringify space)
    refine ⟨?_, ?_, ?_, hsize⟩
    · rw [Bool.eq_iff_iff, validateGuestWorkBudget_isOk_iff hcounts, validateGuestWorkBudget_isOk,
        validateSerialized_isOk_iff (htext.trans hsize)]
    · intro estimate hestimate
      rw [calculateStructuralInputBytes_eq_ok hcounts hestimate]
      exact htext
    · intro estimate hestimate
      rw [estimateStructuralInputBytes_eq_ok hestimate]
      exact htext

/-- One vote of a bulletin of two. -/
def sampleWireInput : ZkVMInput where
  electionId := js "5a5a5a5a-5a5a-4a5a-9a5a-5a5a5a5a5a5a"
  bulletinRoot := CryptoPrimitives.prefixed (Bytes.fill 32 0x11)
  treeSize := .ofNat 2
  logId := CryptoPrimitives.prefixed (Bytes.fill 32 0x22)
  timestamp := .ofNat 1700000000000
  totalExpected := .ofNat 2
  electionConfigHash := CryptoPrimitives.prefixed (Bytes.fill 32 0x33)
  votes := [{
    commitment := CryptoPrimitives.prefixed (Bytes.fill 32 0x44)
    choice := .ofNat 3
    random := CryptoPrimitives.prefixed (Bytes.fill 32 0x55)
    index := .ofNat 1
    merklePath := [CryptoPrimitives.prefixed (Bytes.fill 32 0x66)] }]

theorem work_budget_on_sample : ∃ json decoded,
    serializeZkvmAggregatorInput sampleWireInput = .ok json ∧ jsonToAggregatorInput json = .ok decoded ∧
      (validateGuestWorkBudget sampleWireInput none).isOk =
        (ContractCore.validateGuestWorkBudget decoded none).isOk := by
  have hvalid : (toValidatedZkVMInput sampleWireInput).isOk = true := by decide
  obtain ⟨validated, hvalidated⟩ := exists_of_isOk hvalid
  obtain ⟨json, decoded, hjson, hdecoded, hagree, -, -⟩ := work_budget_agrees hvalidated
  exact ⟨json, decoded, hjson, hdecoded, hagree⟩

end StarkBallot.ZkvmContract.HostIo
