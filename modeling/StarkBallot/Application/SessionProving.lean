import StarkBallot.Application.SessionInput
import StarkBallot.Guest.AllCounted
import StarkBallot.ZkvmContract.HostIo

/-! A session on its way through the prover. The input that is built from a session is handed to the
    host as JSON (`serializeZkvmAggregatorInput` of `zkvm-contract/src/zkvm/host-io.ts`,
    `json_to_aggregator_input` of `host/src/main.rs`), and the guest runs on what the host decodes
    (`verify_and_tally_core` of `tally.rs`):

        kept votes ──build──▶ input ──JSON──▶ records ──guest──▶ tally of the kept votes

    None of the guest's checks fails: index and path are those of the board, the
    opening is the stored one. -/

namespace StarkBallot.Application
open Schemes ContractCore CryptoPrimitives Merkle Domain ZkvmContract ZkvmContract.HostIo

variable {noble : NobleUtils} {sha256 : List UInt8 → Bytes 32} {entries : List Entry}

/-! ### Openings and paths -/

theorem toNumber_lt (choice : VoteChoice) : choice.toNumber < 5 := by
  cases choice <;> decide

/-- Both languages compute one commitment. -/
theorem computeCommitment_of_spells {electionId random : JsString} {id : Bytes 16} {value : Bytes 32}
    (hid : SpellsUuid electionId id) (hrandom : Spells random value.toList) (choice : UInt8) :
    ZkvmContract.computeCommitment noble sha256 electionId (.ofNat choice.toNat) random =
      .ok (prefixed (ContractCore.computeCommitment sha256 id choice value)) := by
  rw [ZkvmContract.computeCommitment, toUuidBytes_eq noble hid, ok_bind,
    hexToBytesStrict_bytes noble hrandom (by decide), ok_bind, noble.bytesToHex_eq, Num.ofNat_toNat,
    UInt8.ofNat_toNat]
  rfl

/-- A path is shorter than the list of leaves. -/
theorem auditPath_length_le {α : Type} (node : α → α → α) (d : α) (index : ℕ) (l : List α) :
    (auditPath node d index l).length ≤ l.length - 1 := by
  fun_induction auditPath node d index l with
  | case1 index l hlen hleft ih =>
    have hsplit := splitPoint_lt (n := l.length) (by omega)
    rw [List.length_take] at ih
    rw [List.length_append, List.length_singleton]
    omega
  | case2 index l hlen hright ih =>
    have hsplit := splitPoint_lt (n := l.length) (by omega)
    have hpos := splitPoint_pos l.length
    rw [List.length_drop] at ih
    rw [List.length_append, List.length_singleton]
    omega
  | case3 => exact Nat.zero_le _

theorem proofNodesOf_length_le (i : ℕ) :
    (proofNodesOf sha256 entries i entries.length).length ≤ entries.length := by
  refine (auditPath_length_le _ _ _ _).trans ?_
  rw [hashedRange_length sha256 (by simp)]
  omega

/-- The path of a listed vote proves it to the guest. -/
theorem included_of_listed {i : ℕ} {entry : Entry} (hentry : entries[i]? = some entry)
    {index treeSize : UInt32} (hindex : index.toNat = i) (hsize : treeSize.toNat = entries.length) :
    Included sha256 entry.2 index (proofNodesOf sha256 entries i entries.length)
      (rootOf sha256 entries) treeSize := by
  obtain ⟨hi, -⟩ := List.getElem?_eq_some_iff.mp hentry
  have hleaf :
      (commitsOf entries)[i]? = some entry.2 := by
        rw [commitsOf, List.getElem?_map, hentry, Option.map_some]
  have hroot : subtree sha256 (commitsOf entries) 0 entries.length = rootOf sha256 entries := by
    rw [← commitsOf_length entries, subtree_all, rootOf]
  have hwalk := @descend_range sha256 _ entry.2 i entries.length hi (by simp) hleaf
  refine ⟨by omega, ?_⟩
  rw [hindex, hsize, climb_eq_descend _ _ _ _ _ hi, proofNodesOf, hwalk, hroot]

/-! ### What the host decodes -/

/-- A decoded record is that of the stored vote. -/
structure Arrived (sha256 : List UInt8 → Bytes 32) (entries : List Entry) (id : Bytes 16)
    (entry : ℕ × StoredVoteRecord) (record : VoteWithProof) : Prop where
  slot_eq : Guest.slot record = entry.1
  choice_eq : record.choice.toNat = entry.2.vote.toNumber
  listed : ∃ voteId, entries[entry.1]? = some (voteId, record.commitment)
  path_eq : record.merklePath = proofNodesOf sha256 entries entry.1 entries.length
  opens : ContractCore.computeCommitment sha256 id record.choice record.random = record.commitment

theorem eq_of_spellEach_prefixed {values decoded : List (Bytes 32)}
    (h : SpellEach (values.map prefixed) decoded) :
    decoded = values := by
  rw [SpellEach, List.forall₂_map_left_iff] at h
  induction h with
  | nil => rfl
  | cons hhead _ ih => rw [ih, spells_unique hhead (prefixed_spells _)]

/-- SPEC: what is decoded of a built record is the stored vote, its opening and its path. -/
theorem arrived_of_decodes {electionId : JsString} {id : Bytes 16} {votes : Votes}
    {entry : ℕ × StoredVoteRecord} {record : VoteWithProof} (hholds : Holds sha256 entries votes)
    (hmem : entry ∈ votes)
    (hopened : Opened noble sha256 electionId entry.2.toBotVoteCommand entry.2.commit)
    (hid : SpellsUuid electionId id) (h : DecodesVote (inputVote sha256 entries entry) record) :
    Arrived sha256 entries id entry record := by
  obtain ⟨k, hk⟩ := List.mem_iff_getElem?.mp hmem
  obtain ⟨listed, hlisted, hindex, -, hcommit, -⟩ :=
    @Domain.Holds.get sha256 entries votes hholds k entry.1 entry.2 hk
  have hcommitment : record.commitment = listed.2 := by
    have hspells : Spells entry.2.commit record.commitment.toList := h.commitment
    rw [hcommit] at hspells
    exact spells_unique hspells (prefixed_spells _)
  have hchoice : record.choice.toNat = entry.2.vote.toNumber := Num.ofNat_injective h.choice.symm
  have hrandom : Spells entry.2.rand record.random.toList := h.random
  have hopen := hopened.commit_eq
  change ZkvmContract.computeCommitment noble sha256 electionId (.ofNat entry.2.vote.toNumber)
    entry.2.rand = _ at hopen
  rw [← hchoice, computeCommitment_of_spells hid hrandom, hcommit] at hopen
  exact {
    slot_eq := Num.ofNat_injective h.index.symm
    choice_eq := hchoice
    listed := ⟨listed.1, by rw [hcommitment, hindex, hlisted]⟩
    path_eq := eq_of_spellEach_prefixed h.merklePath
    opens := by rw [hcommitment, prefixed_injective (Except.ok.inj hopen)] }

/-- What is decoded of the input of a session. -/
structure Delivered (sha256 : List UInt8 → Bytes 32) (entries : List Entry) (kept : Votes)
    (decoded : AggregatorInput) :
    Prop where
  bulletinRoot : decoded.bulletinRoot = rootOf sha256 entries
  treeSize : decoded.treeSize.toNat = entries.length
  records : List.Forall₂ (Arrived sha256 entries decoded.electionId) kept decoded.votes

theorem delivered_of_decodes {identity : SessionIdentityRecord} {voting : SessionVotingRecord}
    {kept : Votes} {logId : JsString} {timestamp : Num} {decoded : AggregatorInput}
    (hsound : Sound noble sha256 identity.electionId entries voting) (hkept : kept.Sublist voting.votes)
    (h : Decodes (sessionInput sha256 identity entries kept logId timestamp) decoded) :
    Delivered sha256 entries kept decoded where
  bulletinRoot := spells_unique h.bulletinRoot (prefixed_spells _)
  treeSize := Num.ofNat_injective h.treeSize.symm
  records := by
    have hvotes := List.forall₂_map_left_iff.mp h.votes
    refine ((List.forall₂_and_left _ _).mpr ⟨fun entry hentry => hkept.subset hentry, hvotes⟩).imp ?_
    intro entry record hboth
    exact arrived_of_decodes hsound.holds hboth.1 (hsound.opened entry hboth.1) h.electionId hboth.2

/-! ### What the guest makes of it -/

theorem countVote_get (counts : Vector ℕ 5) (choice : VoteChoice) {c : ℕ} (hc : c < 5) :
    (countVote counts choice)[c] = counts[c] + if choice.toNumber = c then 1 else 0 := by
  simp only [countVote, Vector.getElem_ofFn]
  by_cases h : c = choice.toNumber
  · simp [h]
  · rw [if_neg h, if_neg fun heq => h heq.symm]
    rfl

/-- The tally counts, for each candidate, the votes for it. -/
theorem getTallyCounts_get (votes : Votes) {c : ℕ} (hc : c < 5) :
    (getTallyCounts votes)[c] = votes.countP fun entry => entry.2.vote.toNumber = c := by
  induction votes using List.reverseRecOn with
  | nil => simp [getTallyCounts]
  | append_singleton votes entry ih =>
    rw [getTallyCounts, List.foldl_append, List.foldl_cons, List.foldl_nil, ← getTallyCounts,
      countVote_get _ _ hc, ih, List.countP_append, List.countP_singleton]
    simp

namespace Delivered

variable {kept : Votes} {decoded : AggregatorInput}

theorem slots_eq (h : Delivered sha256 entries kept decoded) :
    decoded.votes.map Guest.slot = kept.map Prod.fst :=
  map_eq_of_forall₂ (h.records.imp fun _ _ harrived => harrived.slot_eq)

theorem tally_eq (h : Delivered sha256 entries kept decoded) :
    Guest.tallyOf decoded.votes = getTallyCounts kept := by
  have hchoices :
      (decoded.votes.map fun vote => vote.choice.toNat) = kept.map fun entry => entry.2.vote.toNumber :=
    map_eq_of_forall₂ (h.records.imp fun _ _ harrived => harrived.choice_eq)
  refine Vector.ext ?_
  intro c hc
  rw [getTallyCounts_get kept hc, Guest.tallyOf, Vector.getElem_ofFn]
  have hcount := congrArg (List.countP fun choice => decide (choice = c)) hchoices
  rwa [List.countP_map, List.countP_map] at hcount

/-- SPEC: every record counts. -/
theorem allCount (h : Delivered sha256 entries kept decoded) (hkeys : (kept.map Prod.fst).Nodup)
    (hcommits : (commitsOf entries).Nodup) : Guest.AllCount sha256 decoded where
  counts := by
    intro vote hvote
    obtain ⟨entry, -, harrived⟩ := exists_of_forall₂ h.records vote hvote
    obtain ⟨voteId, hlisted⟩ := harrived.listed
    obtain ⟨hlt, -⟩ := List.getElem?_eq_some_iff.mp hlisted
    refine ⟨?_, ?_, harrived.opens, ?_⟩
    · rw [harrived.slot_eq, h.treeSize]
      exact hlt
    · rw [harrived.choice_eq]
      exact toNumber_lt _
    · rw [Guest.Proves, harrived.path_eq, h.bulletinRoot]
      exact included_of_listed hlisted harrived.slot_eq h.treeSize
  slots := h.slots_eq ▸ hkeys
  commitments := by
    have hlisted : decoded.votes.map (fun vote => some vote.commitment) =
        kept.map fun entry => (commitsOf entries)[entry.1]? := by
      refine map_eq_of_forall₂ (h.records.imp ?_)
      intro entry vote harrived
      obtain ⟨voteId, hlisted⟩ := harrived.listed
      rw [commitsOf, List.getElem?_map, hlisted, Option.map_some]
    refine List.Nodup.of_map some ?_
    rw [List.map_map]
    change (decoded.votes.map fun vote => some vote.commitment).Nodup
    rw [hlisted]
    refine (List.nodup_map_iff_inj_on (List.Nodup.of_map Prod.fst hkeys)).mpr ?_
    intro entry hentry other hother hsame
    have hlt : ∀ other ∈ kept, other.1 < (commitsOf entries).length := by
      intro other hother
      obtain ⟨record, -, harrived⟩ := exists_of_forall₂ h.records.flip other hother
      obtain ⟨voteId, hlisted⟩ := harrived.listed
      obtain ⟨hlt, -⟩ := List.getElem?_eq_some_iff.mp hlisted
      rwa [commitsOf_length]
    have hindex : entry.1 = other.1 := (List.getElem?_inj (hlt entry hentry) hcommits).mp hsame
    exact List.inj_on_of_nodup_map hkeys hentry hother hindex

theorem withinBudget (h : Delivered sha256 entries kept decoded) (hpos : 0 < entries.length)
    (hsize : entries.length ≤ Domain.botCount + 1) (hkept : kept.length ≤ entries.length)
    (hexpected : decoded.totalExpected.toNat ≤ maxGuestTotalExpected) : WithinBudget decoded := by
  have hsize : entries.length ≤ 64 := hsize
  have hvotes : decoded.votes.length = kept.length := h.records.length_eq.symm
  have hpath : ∀ vote ∈ decoded.votes, vote.merklePath.length ≤ 64 := by
    intro vote hvote
    obtain ⟨entry, -, harrived⟩ := exists_of_forall₂ h.records vote hvote
    rw [harrived.path_eq]
    exact (proofNodesOf_length_le _).trans hsize
  have hnodes : pathNodeSum decoded.votes ≤ 64 * 64 := by
    refine (List.sum_le_card_nsmul _ 64 (by simpa using hpath)).trans ?_
    rw [List.length_map, smul_eq_mul]
    omega
  have htree := h.treeSize
  refine ⟨by omega, ?_, hexpected, ?_, ?_, ?_, ?_⟩
  · simp only [maxGuestTreeSize]
    omega
  · simp only [maxGuestVoteCount, maxGuestTreeSize]
    omega
  · exact fun vote hvote => (hpath vote hvote).trans (by decide)
  · exact hnodes.trans (by decide)
  · simp only [fixedInputBytes, vecLenBytes, voteFixedBytes, merklePathNodeBytes,
      maxGuestSerializedInputBytes]
    omega

end Delivered

/-! ### The transport -/

/-- What the transport asks of an input beyond what the session's store keeps. -/
structure Transportable (identity : SessionIdentityRecord) (kept : Votes) (logId : JsString)
    (timestamp : Num) :
    Prop where
  electionId : isUuid identity.electionId = true
  logId : isHex32 logId = true
  configHash : isHex32 identity.electionConfigHash = true
  totalExpected : ∃ n ≤ maxGuestTotalExpected, identity.electionConfig.totalExpected = .ofNat n
  timestamp : ∃ n, 1 ≤ n ∧ n ≤ Num.maxSafeInteger ∧ timestamp = .ofNat n
  randoms : ∀ entry ∈ kept, isHex32 entry.2.rand = true

section Transport

variable {identity : SessionIdentityRecord} {votes kept : Votes} {logId : JsString} {timestamp : Num}

theorem validateVoteWithProof_session (hholds : Holds sha256 entries votes)
    (hsize : entries.length ≤ uint32Max) {entry : ℕ × StoredVoteRecord} (hmem : entry ∈ votes)
    (hrand : isHex32 entry.2.rand = true) :
    validateVoteWithProof (inputVote sha256 entries entry) = .ok (inputVote sha256 entries entry) := by
  obtain ⟨k, hk⟩ := List.mem_iff_getElem?.mp hmem
  obtain ⟨listed, hlisted, hindex, -, hcommit, -⟩ :=
    @Domain.Holds.get sha256 entries votes hholds k entry.1 entry.2 hk
  obtain ⟨hlt, -⟩ := List.getElem?_eq_some_iff.mp hlisted
  have hcommitment : isHex32 (inputVote sha256 entries entry).commitment = true := by
    rw [inputVote, hcommit]
    exact isHex32_prefixed listed.2
  have hrandom : isHex32 (inputVote sha256 entries entry).random = true := hrand
  have hchoice : asVoteChoiceByte (inputVote sha256 entries entry).choice =
      .ok (inputVote sha256 entries entry).choice :=
    asUnsignedInteger_of_le (le_trans (toNumber_lt _).le (by decide)) (by decide)
  have hplace : HostIo.asBulletinIndex (inputVote sha256 entries entry).index =
      .ok (inputVote sha256 entries entry).index :=
    asUnsignedInteger_of_le (by omega) (by decide)
  have hpath :
      (inputVote sha256 entries entry).merklePath.mapM
        (fun node => asHex32Identifier node "merklePath node") =
      .ok (inputVote sha256 entries entry).merklePath := by
    refine mapM_of_forall₂ (List.forall₂_same.mpr ?_)
    intro node hnode
    obtain ⟨value, -, rfl⟩ := List.mem_map.mp hnode
    exact asHex32Identifier_of_valid _ (isHex32_prefixed value)
  rw [validateVoteWithProof, asHex32Identifier_of_valid _ hcommitment, ok_bind, hchoice, ok_bind,
    asHex32Identifier_of_valid _ hrandom, ok_bind, hplace, ok_bind, hpath]
  rfl

theorem preflight_session (h : Transportable identity kept logId timestamp)
    (hholds : Holds sha256 entries votes) (hkept : kept.Sublist votes)
    (hsize : entries.length ≤ uint32Max) :
    assertZkvmWireNumericPreflight (sessionInput sha256 identity entries kept logId timestamp) =
      .ok () := by
  obtain ⟨expected, hexpected, hexpectedEq⟩ := h.totalExpected
  obtain ⟨time, hpositive, hsafe, htime⟩ := h.timestamp
  have hwire : (kept.map (inputVote sha256 entries)).zipIdx.forM assertVoteWireNumbers = .ok () := by
    refine forM_of_forall ?_
    intro vote hvote
    obtain ⟨entry, hentry, heq⟩ := List.mem_map.mp (List.fst_mem_of_mem_zipIdx hvote)
    have hlt : entry.1 < entries.length := by
      have hkey : entry.1 ∈ votes.map Prod.fst := List.mem_map_of_mem (hkept.subset hentry)
      rwa [hholds.keys_eq, List.mem_range] at hkey
    have hchoice : entry.2.vote.toNumber ≤ uint8Max := (toNumber_lt _).le.trans (by decide)
    rw [assertVoteWireNumbers, ← heq, inputVote, assertRustWireNumber_of_le hchoice (by decide), ok_bind,
      assertRustWireNumber_of_le (by omega) (by decide)]
  have hzero : ¬ (Num.ofNat time).eq (.ofNat 0) = true := by
    rw [Num.ofNat_eq, decide_eq_true_eq]
    omega
  rw [assertZkvmWireNumericPreflight, sessionInput, hexpectedEq, htime,
    assertRustWireNumber_of_le hsize (by decide), ok_bind,
    assertRustWireNumber_of_le (hexpected.trans (by decide)) (by decide), ok_bind,
    assertRustWireNumber_of_le hsafe le_rfl, ok_bind, refuseIf_of_not hzero, ok_bind, hwire]

/-- SPEC: the input of a session is valid if its root is not zero. -/
theorem toValidatedZkVMInput_session (h : Transportable identity kept logId timestamp)
    (hholds : Holds sha256 entries votes) (hkept : kept.Sublist votes)
    (hsize : entries.length ≤ uint32Max) (hroot : rootOf sha256 entries ≠ Bytes.fill 32 0) :
    toValidatedZkVMInput (sessionInput sha256 identity entries kept logId timestamp) =
      .ok (sessionInput sha256 identity entries kept logId timestamp) := by
  obtain ⟨expected, hexpected, hexpectedEq⟩ := h.totalExpected
  obtain ⟨time, hpositive, hsafe, htime⟩ := h.timestamp
  have hvotes : (kept.map (inputVote sha256 entries)).mapM validateVoteWithProof =
      .ok (kept.map (inputVote sha256 entries)) := by
    refine mapM_of_forall₂ (List.forall₂_same.mpr ?_)
    intro vote hvote
    obtain ⟨entry, hentry, rfl⟩ := List.mem_map.mp hvote
    exact validateVoteWithProof_session hholds hsize (hkept.subset hentry) (h.randoms entry hentry)
  have hunix : asUnixTimestampMillis timestamp = .ok timestamp := by
    rw [htime]
    exact asUnixTimestampMillis_of_le hpositive hsafe
  have htree : asTreeSize (.ofNat entries.length) = .ok (.ofNat entries.length) :=
    asUnsignedInteger_of_le hsize (by decide)
  have htotal :
      asTotalExpected identity.electionConfig.totalExpected =
        .ok identity.electionConfig.totalExpected := by
    rw [hexpectedEq]
    exact asUnsignedInteger_of_le (hexpected.trans (by decide)) (by decide)
  unfold toValidatedZkVMInput
  rw [preflight_session h hholds hkept hsize, ok_bind]
  simp only [sessionInput, asElectionId_of_valid h.electionId, asBulletinRoot_prefixed hroot, htree,
    asHex32Identifier_of_valid _ h.logId, hunix, htotal, asHex32Identifier_of_valid _ h.configHash,
    hvotes, ok_bind]
  rfl

/-- A zero root is refused. -/
theorem toValidatedZkVMInput_zeroRoot (h : Transportable identity kept logId timestamp)
    (hholds : Holds sha256 entries votes) (hkept : kept.Sublist votes)
    (hsize : entries.length ≤ uint32Max) (hroot : rootOf sha256 entries = Bytes.fill 32 0) :
    toValidatedZkVMInput (sessionInput sha256 identity entries kept logId timestamp) =
      .error (.error "bulletinRoot must be non-zero") := by
  have hzero :
      asBulletinRoot (prefixed (rootOf sha256 entries)) =
        .error (.error "bulletinRoot must be non-zero") := by
    rw [asBulletinRoot, asHex32Identifier_of_valid _ (isHex32_prefixed _), ok_bind,
      toLowerCase_prefixed, hroot]
    rfl
  unfold toValidatedZkVMInput
  rw [preflight_session h hholds hkept hsize, ok_bind]
  simp only [sessionInput, asElectionId_of_valid h.electionId, hzero, ok_bind]
  rfl

/-- The host decodes what is serialized of an input that is decoded somehow. -/
theorem transport_of_decodes {input : ZkVMInput} {decoded : AggregatorInput}
    (hvalid : toValidatedZkVMInput input = .ok input) (h : Decodes input decoded) :
    ∃ json, serializeZkvmAggregatorInput input = .ok json ∧ jsonToAggregatorInput json = .ok decoded :=
  ⟨jsonOf decoded, serializeZkvmAggregatorInput_eq hvalid h,
    jsonToAggregatorInput_jsonOf h.timestamp_pos⟩

/-! ### The proof -/

/-- What the guest makes of the votes that are kept. -/
structure Proved (sha256 : List UInt8 → Bytes 32) (entries : List Entry) (kept : Votes)
    (inspection : Guest.GuestTallyInspection) : Prop where
  outcomes : inspection.voteOutcomes = List.replicate kept.length .accepted
  bulletinRoot : inspection.output.bulletinRoot = rootOf sha256 entries
  treeSize : inspection.output.treeSize = entries.length
  verifiedTally : inspection.output.verifiedTally = getTallyCounts kept
  validVotes : inspection.output.validVotes = kept.length
  invalidVotes : inspection.output.invalidVotes = 0
  excludedSlots : inspection.output.excludedSlots = entries.length - kept.length

/-- SPEC: the guest accepts what a session hands over, and tallies the votes that are kept. -/
theorem proved_of_session {voting : SessionVotingRecord}
    (h : Transportable identity kept logId timestamp)
    (hsound : Sound noble sha256 identity.electionId entries voting) (hne : entries ≠ [])
    (hkept : kept.Sublist voting.votes) (hroot : rootOf sha256 entries ≠ Bytes.fill 32 0) :
    ∃ json decoded inspection,
      serializeZkvmAggregatorInput
        (sessionInput sha256 identity entries kept logId timestamp) = .ok json ∧
      jsonToAggregatorInput json = .ok decoded ∧
        Guest.verifyAndTallyChecked sha256 decoded = .ok inspection ∧
      Proved sha256 entries kept inspection := by
  have hsize : entries.length ≤ Domain.botCount + 1 := hsound.length_le
  have hpos : 0 < entries.length := List.length_pos_iff.mpr hne
  have hvalid := toValidatedZkVMInput_session h hsound.holds hkept (hsize.trans (by decide)) hroot
  obtain ⟨-, decoded, hdecodes⟩ := toValidatedZkVMInput_decodes hvalid
  obtain ⟨json, hjson, hhost⟩ := transport_of_decodes hvalid hdecodes
  have hdelivered : Delivered sha256 entries kept decoded := delivered_of_decodes hsound hkept hdecodes
  have hkeys : (kept.map Prod.fst).Nodup := by
    have hall : (voting.votes.map Prod.fst).Nodup := hsound.holds.keys_eq ▸ List.nodup_range
    exact hall.sublist (hkept.map Prod.fst)
  have hlength : kept.length ≤ entries.length := hsound.holds.length_eq ▸ hkept.length_le
  have hexpected : decoded.totalExpected.toNat ≤ maxGuestTotalExpected := by
    obtain ⟨n, hn, heq⟩ := h.totalExpected
    have htotal : identity.electionConfig.totalExpected = .ofNat decoded.totalExpected.toNat :=
      hdecodes.totalExpected
    rwa [← Num.ofNat_injective (heq.symm.trans htotal)]
  obtain ⟨inspection, hguest, htallied⟩ := Guest.verifyAndTallyChecked_of_allCount
    (hdelivered.bulletinRoot ▸ hroot) hdecodes.timestamp_pos
    (hdelivered.withinBudget hpos hsize hlength hexpected)
    (hdelivered.allCount hkeys hsound.lists.commits_nodup)
  have hcount : decoded.votes.length = kept.length := hdelivered.records.length_eq.symm
  refine ⟨json, decoded, inspection, hjson, hhost, hguest, ?_⟩
  exact {
    outcomes := hcount ▸ htallied.outcomes
    bulletinRoot := htallied.bulletinRoot.trans hdelivered.bulletinRoot
    treeSize := htallied.treeSize.trans hdelivered.treeSize
    verifiedTally := htallied.verifiedTally.trans hdelivered.tally_eq
    validVotes := htallied.validVotes.trans hcount
    invalidVotes := htallied.invalidVotes
    excludedSlots := by rw [htallied.excludedSlots, hdelivered.treeSize, hcount] }

end Transport

end StarkBallot.Application
