import StarkBallot.ZkvmContract.HostIo

/-! What the input commitment of a public input tells. Whatever can be encoded at all spells well-formed
    values (`spellsInput_of_encode`); so the preimage is the canonical one of these values, and it
    depends on the header and on which votes there are, up to the spelling of their texts, and not on
    their order (`encode_of_same`). -/

namespace StarkBallot.ZkvmContract
open Schemes ContractCore CryptoPrimitives
open HostIo (assertUnsignedIntegerInRange_eq_ok ofNat_toNat_uint32)

variable {noble : NobleUtils}

/-! ### What was decoded -/

/-- A text that decodes is a spelling of its bytes. -/
theorem spells_of_hexToBytesStrict {hex : JsString} {bytes : List UInt8}
    (h : hexToBytesStrict noble hex = .ok bytes) :
    Spells hex bytes := by
  obtain ⟨_, hne, h⟩ := bind_eq_ok.mp h
  obtain ⟨_, heven, h⟩ := bind_eq_ok.mp h
  obtain ⟨_, hdigits, h⟩ := bind_eq_ok.mp h
  simp only [refuseIf_eq_ok, not_not] at hne heven hdigits
  obtain ⟨bytes', hbytes⟩ := exists_hexText _ (List.all_eq_true.mp hdigits) heven
  rw [hbytes, noble.hexToBytes_eq] at h
  rw [Except.ok.inj h] at hbytes
  obtain ⟨lead, hlead, hhex⟩ := withoutPrefix_cases hex
  refine ⟨lead, hlead, withoutPrefix hex, hhex, ?_⟩
  rw [← hbytes, normalizeHexString]
  split
  · rename_i hnil
    exact absurd (by rw [normalizeHexString, if_pos hnil]) hne
  · rfl

theorem bytes_of_hexToBytesStrict {n : ℕ} {hex : JsString} {bytes : List UInt8}
    (h : hexToBytesStrict noble hex = .ok bytes) (hlength : bytes.length = n) :
      ∃ b : Bytes n, bytes = b.toList ∧
      Spells hex b.toList :=
  ⟨⟨bytes, hlength⟩, rfl, spells_of_hexToBytesStrict h⟩

/-! ### What was encoded -/

theorem nodes_of_pushNodes {nodes : List (List UInt8)} {chunks chunks' : List (List UInt8)}
    (h : nodes.foldlM pushNode chunks = .ok chunks') :
    ∃ path : List (Bytes 32), nodes = path.map Bytes.toList := by
  induction nodes generalizing chunks with
  | nil => exact ⟨[], rfl⟩
  | cons node nodes ih =>
    rw [List.foldlM_cons] at h
    obtain ⟨next, hpush, h⟩ := bind_eq_ok.mp h
    obtain ⟨_, hlength, -⟩ := bind_eq_ok.mp hpush
    rw [refuseIf_eq_ok, not_not] at hlength
    obtain ⟨path, rfl⟩ := ih h
    exact ⟨⟨node, hlength⟩ :: path, rfl⟩

theorem record_of_pushVote {vote : NormalizedInputCommitmentVote} {chunks chunks' : List (List UInt8)}
    (h : pushVote chunks vote = .ok chunks') :
    ∃ a : CommittedVote, vote = normalizedOf a ∧ a.Encodable := by
  obtain ⟨_, hindex, h⟩ := bind_eq_ok.mp h
  obtain ⟨_, hcommitment, h⟩ := bind_eq_ok.mp h
  obtain ⟨_, hpath, h⟩ := bind_eq_ok.mp h
  obtain ⟨_, -, h⟩ := bind_eq_ok.mp h
  obtain ⟨_, -, h⟩ := bind_eq_ok.mp h
  obtain ⟨_, -, h⟩ := bind_eq_ok.mp h
  obtain ⟨index, hle, hindex⟩ := assertUnsignedIntegerInRange_eq_ok hindex
  obtain ⟨length, hlength, hpath⟩ := assertUnsignedIntegerInRange_eq_ok hpath
  rw [refuseIf_eq_ok, not_not] at hcommitment
  obtain ⟨path, hnodes⟩ := nodes_of_pushNodes h
  refine ⟨⟨UInt32.ofNat index, ⟨vote.commitmentBytes, hcommitment⟩, path⟩, ?_, ?_⟩
  · obtain ⟨voteIndex, commitmentBytes, merklePathBytes⟩ := vote
    simp only [normalizedOf, ofNat_toNat_uint32 hle] at hindex hnodes ⊢
    rw [hindex, hnodes]
  · have hsame := Num.ofNat_injective hpath
    rw [hnodes, List.length_map] at hsame
    rw [CommittedVote.Encodable, hsame]
    exact hlength

theorem records_of_pushVotes {votes : List NormalizedInputCommitmentVote}
    {chunks chunks' : List (List UInt8)} (h : votes.foldlM pushVote chunks = .ok chunks') :
    ∀ vote ∈ votes, ∃ a : CommittedVote, vote = normalizedOf a ∧ a.Encodable := by
  induction votes generalizing chunks with
  | nil => simp
  | cons vote votes ih =>
    rw [List.foldlM_cons] at h
    obtain ⟨next, hpush, h⟩ := bind_eq_ok.mp h
    intro vote' hvote
    rcases List.mem_cons.mp hvote with rfl | hvote
    · exact record_of_pushVote hpush
    · exact ih h vote' hvote

/-- A vote that was decoded to a record spells it. -/
theorem spellsVote_of_normalized {vote : InputCommitmentVote} {a : CommittedVote}
    (h : normalizeInputCommitmentVote noble vote = .ok (normalizedOf a)) : SpellsVote vote a := by
  obtain ⟨commitmentBytes, hcommitment, h⟩ := bind_eq_ok.mp h
  obtain ⟨merklePathBytes, hpath, h⟩ := bind_eq_ok.mp h
  have hsame := Except.ok.inj h
  have hindex : vote.index = .ofNat a.index.toNat := congrArg NormalizedInputCommitmentVote.index hsame
  obtain rfl : commitmentBytes = a.commitment.toList :=
    congrArg NormalizedInputCommitmentVote.commitmentBytes hsame
  obtain rfl : merklePathBytes = a.merklePath.map Bytes.toList :=
    congrArg NormalizedInputCommitmentVote.merklePathBytes hsame
  refine ⟨hindex, spells_of_hexToBytesStrict hcommitment, ?_⟩
  exact (List.forall₂_map_right_iff.mp (forall₂_of_mapM hpath)).imp fun hex node =>
    spells_of_hexToBytesStrict

/-- Votes that were decoded to records spell them one by one. -/
theorem spellsVotes_of_normalized {votes : List InputCommitmentVote}
    {normalized : List NormalizedInputCommitmentVote}
    (h : List.Forall₂ (fun vote read => normalizeInputCommitmentVote noble vote = .ok read) votes
      normalized) (hrecords : ∀ read ∈ normalized, ∃ a : CommittedVote, read = normalizedOf a ∧
        a.Encodable) :
    ∃ records : List CommittedVote, List.Forall₂ SpellsVote votes records ∧
      ∀ a ∈ records, a.Encodable := by
  induction h with
  | nil => exact ⟨[], .nil, by simp⟩
  | cons hread hrest ih =>
    obtain ⟨a, rfl, hencodable⟩ := hrecords _ List.mem_cons_self
    obtain ⟨records, hspells, hall⟩ := ih fun read hread => hrecords read (List.mem_cons_of_mem _ hread)
    refine ⟨a :: records, .cons (spellsVote_of_normalized hread) hspells, ?_⟩
    intro b hb
    rcases List.mem_cons.mp hb with rfl | hb
    · exact hencodable
    · exact hall b hb

/-- A record as a vote without witnesses. -/
def withoutWitness (a : CommittedVote) : VoteWithProof :=
  ⟨a.commitment, 0, Bytes.fill 32 0, a.index, a.merklePath⟩

theorem committed_withoutWitness (records : List CommittedVote) :
    (records.map withoutWitness).map VoteWithProof.committed = records := by
  rw [List.map_map]
  exact List.map_id records

/-- ENCODED: whatever was encoded spells well-formed values. -/
theorem spellsInput_of_encode {input : PublicInput} {data : List UInt8}
    (h : encodeInputCommitmentPreimage noble input = .ok data) :
    ∃ args : CommitmentArgs, SpellsInput input args ∧ args.preimage = .ok data := by
  have hencode := h
  obtain ⟨_, hfields, h⟩ := bind_eq_ok.mp h
  obtain ⟨normalized, hnormalized, h⟩ := bind_eq_ok.mp h
  obtain ⟨_, -, h⟩ := bind_eq_ok.mp h
  obtain ⟨_, -, h⟩ := bind_eq_ok.mp h
  obtain ⟨_, -, h⟩ := bind_eq_ok.mp h
  obtain ⟨_, -, h⟩ := bind_eq_ok.mp h
  obtain ⟨_, -, h⟩ := bind_eq_ok.mp h
  obtain ⟨_, -, h⟩ := bind_eq_ok.mp h
  obtain ⟨chunks, hchunks, -⟩ := bind_eq_ok.mp h
  obtain ⟨electionIdBytes, helection, hfields⟩ := bind_eq_ok.mp hfields
  obtain ⟨_, hlength, hfields⟩ := bind_eq_ok.mp hfields
  obtain ⟨rootBytes, hroot, hfields⟩ := bind_eq_ok.mp hfields
  obtain ⟨_, hrootLength, hfields⟩ := bind_eq_ok.mp hfields
  obtain ⟨_, htreeSize, hfields⟩ := bind_eq_ok.mp hfields
  obtain ⟨_, htotal, hcount⟩ := bind_eq_ok.mp hfields
  rw [refuseIf_eq_ok, not_not] at hlength hrootLength
  obtain ⟨electionId, -, helectionSpells⟩ := bytes_of_hexToBytesStrict helection hlength
  obtain ⟨bulletinRoot, -, hrootSpells⟩ := bytes_of_hexToBytesStrict hroot hrootLength
  obtain ⟨treeSize, htreeSizeLe, htreeSize⟩ := assertUnsignedIntegerInRange_eq_ok htreeSize
  obtain ⟨totalExpected, htotalLe, htotal⟩ := assertUnsignedIntegerInRange_eq_ok htotal
  obtain ⟨count, hcountLe, hcount⟩ := assertUnsignedIntegerInRange_eq_ok hcount
  have hsorted := records_of_pushVotes hchunks
  have hrecords : ∀ read ∈ normalized, ∃ a : CommittedVote, read = normalizedOf a ∧ a.Encodable := by
    intro read hread
    exact hsorted read (List.mem_mergeSort.mpr hread)
  obtain ⟨records, hspells, hencodable⟩ :=
    spellsVotes_of_normalized (forall₂_of_mapM hnormalized) hrecords
  let args : CommitmentArgs :=
    ⟨electionId, bulletinRoot, UInt32.ofNat treeSize, UInt32.ofNat totalExpected,
      records.map withoutWitness⟩
  have hinput : SpellsInput input args := by
    refine ⟨helectionSpells, hrootSpells, ?_, ?_, ?_⟩
    · rw [htreeSize, ofNat_toNat_uint32 htreeSizeLe]
    · rw [htotal, ofNat_toNat_uint32 htotalLe]
    · rw [committed_withoutWitness]
      exact hspells
  have hvotes : args.votes.length ≤ u32Max := by
    have hsame : count = records.length := by
      rw [← hspells.length_eq]
      exact (Num.ofNat_injective hcount).symm
    rw [List.length_map, ← hsame]
    exact hcountLe
  have hpaths : ∀ vote ∈ args.votes, vote.merklePath.length ≤ u16Max := by
    intro vote hvote
    obtain ⟨a, ha, rfl⟩ := List.mem_map.mp hvote
    exact hencodable a ha
  obtain ⟨⟨data', -, hrust, -, -, hts⟩, -⟩ :=
    inputCommitment_preimages_agree noble input args hinput hvotes hpaths
  rw [hts] at hencode
  exact ⟨args, hinput, by rw [hrust, Except.ok.inj hencode]⟩

/-! ### Up to spelling and order -/

/-- A vote with its texts in one spelling. -/
def InputCommitmentVote.canonical (vote : InputCommitmentVote) : Num × JsString × List JsString :=
  (vote.index, normalizeHexString vote.commitment, vote.merklePath.map normalizeHexString)

/-- The canonical form of a vote that spells a record. -/
def canonicalOf (a : CommittedVote) : Num × JsString × List JsString :=
  (.ofNat a.index.toNat, text a.commitment, a.merklePath.map text)

theorem canonical_of_spells {vote : InputCommitmentVote} {a : CommittedVote} (h : SpellsVote vote a) :
    vote.canonical = canonicalOf a := by
  have hpath : a.merklePath.map text = vote.merklePath.map normalizeHexString :=
    map_eq_of_forall₂
      (h.merklePath.imp fun hex node hspells => (normalizeHexString_of_spells hspells).symm)
  rw [InputCommitmentVote.canonical, canonicalOf, h.index,
    normalizeHexString_of_spells h.commitment, hpath]
  rfl

theorem canonicalOf_injective : Function.Injective canonicalOf := by
  intro a b h
  obtain ⟨hindex, hcommitment, hpath⟩ : Num.ofNat a.index.toNat = .ofNat b.index.toNat ∧
      text a.commitment = text b.commitment ∧ a.merklePath.map text = b.merklePath.map text := by
    simpa [canonicalOf] using h
  have hindex' := UInt32.toNat_inj.mp (Num.ofNat_injective hindex)
  obtain ⟨index, commitment, merklePath⟩ := a
  obtain ⟨index', commitment', merklePath'⟩ := b
  obtain rfl : index = index' := hindex'
  obtain rfl := text_injective hcommitment
  obtain rfl := List.map_injective_iff.mpr text_injective hpath
  rfl

/-- The header fields under the commitment are the same, up to the spelling of the root. -/
structure SameHeader (input input' : PublicInput) : Prop where
  electionId : input.electionId = input'.electionId
  bulletinRoot : normalizeHexString input.bulletinRoot = normalizeHexString input'.bulletinRoot
  treeSize : input.treeSize = input'.treeSize
  totalExpected : input.totalExpected = input'.totalExpected

/-- ORDER: the preimage depends on the header and on which votes there are, up to spelling. -/
theorem encode_of_same {input input' : PublicInput} {data data' : List UInt8}
    (h : encodeInputCommitmentPreimage noble input = .ok data)
    (h' : encodeInputCommitmentPreimage noble input' = .ok data') (hheader : SameHeader input input')
    (hvotes : (input.votes.map InputCommitmentVote.canonical).Perm
      (input'.votes.map InputCommitmentVote.canonical)) :
    data = data' := by
  obtain ⟨args, hspells, hargs⟩ := spellsInput_of_encode h
  obtain ⟨args', hspells', hargs'⟩ := spellsInput_of_encode h'
  have helection : args.electionId = args'.electionId :=
    spells_unique hspells.electionId (hheader.electionId ▸ hspells'.electionId)
  have hroot : args.bulletinRoot = args'.bulletinRoot := by
    have hsame := hheader.bulletinRoot
    rw [normalizeHexString_of_spells hspells.bulletinRoot,
      normalizeHexString_of_spells hspells'.bulletinRoot] at hsame
    exact text_injective hsame
  have htreeSize : args.treeSize = args'.treeSize := by
    have hsame := hheader.treeSize
    rw [hspells.treeSize, hspells'.treeSize] at hsame
    exact UInt32.toNat_inj.mp (Num.ofNat_injective hsame)
  have htotal : args.totalExpected = args'.totalExpected := by
    have hsame := hheader.totalExpected
    rw [hspells.totalExpected, hspells'.totalExpected] at hsame
    exact UInt32.toNat_inj.mp (Num.ofNat_injective hsame)
  have hcanonical {input : PublicInput} {args : CommitmentArgs} (h : SpellsInput input args) :
      (args.votes.map VoteWithProof.committed).map canonicalOf =
        input.votes.map InputCommitmentVote.canonical :=
    map_eq_of_forall₂ (h.votes.imp fun vote a hvote => (canonical_of_spells hvote).symm)
  rw [← hcanonical hspells, ← hcanonical hspells'] at hvotes
  have hrecords := (List.map_perm_map_iff canonicalOf_injective).mp hvotes
  rw [CommitmentArgs.preimage, encodeInputCommitmentPreimage_eq] at hargs hargs'
  rw [helection, hroot, htreeSize, htotal, canonicalPreimage_perm hrecords, hargs'] at hargs
  exact (Except.ok.inj hargs).symm

/-- The commitment as well. -/
theorem commitment_of_same {sha256 : List UInt8 → Bytes 32} {input input' : PublicInput}
    {commitment commitment' : JsString}
    (h : computeInputCommitmentFromPublicInput noble sha256 input = .ok commitment)
    (h' : computeInputCommitmentFromPublicInput noble sha256 input' = .ok commitment')
    (hheader : SameHeader input input')
    (hvotes : (input.votes.map InputCommitmentVote.canonical).Perm
      (input'.votes.map InputCommitmentVote.canonical)) :
    commitment = commitment' := by
  obtain ⟨data, hdata, hcommitment⟩ := bind_eq_ok.mp h
  obtain ⟨data', hdata', hcommitment'⟩ := bind_eq_ok.mp h'
  rw [encode_of_same hdata hdata' hheader hvotes, hcommitment'] at hcommitment
  exact (Except.ok.inj hcommitment).symm

end StarkBallot.ZkvmContract
