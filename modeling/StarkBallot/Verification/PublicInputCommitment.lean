import StarkBallot.Verification.PublicInputParser
import StarkBallot.Guest.Journal

/-! The public input artifact and the input it was built from. What is built is read as it was written,
    from JSON and from its stored form as well, so the recomputed commitment is
    the commitment of the input.

        input ──build──▶ artifact ──JSON──▶ artifact ──parse──▶ supported ──store──▶ stored form ──parse──▶ supported
          └─────────────────── one commitment ───────────────────────┴─────────────────────────────────────────┘ -/

namespace StarkBallot.Verification.PublicInput
open Schemes Validation ContractCore CryptoPrimitives ZkvmContract
open Application
  (PublicInputAuthority SupportedPublicInputArtifact addHexPrefix isPublicInputHash nonEmpty admitHash
  admitHash_eq_some admitHash_spells admitHash_prefixed stable_admitHash stable_nonEmpty
  normalizeHexString_admitHash)

variable {noble : NobleUtils} {sha256 : List UInt8 → Bytes 32}

/-! ### Artifacts that were built -/

section Build
variable {record : PublicInputArtifactRecord}

theorem mapM_stringOf (texts : List JsString) :
    (texts.map JsValue.string).mapM stringOf = some texts := by
  induction texts with
  | nil => rfl
  | cons text texts ih =>
    rw [List.map_cons, List.mapM_cons, ih]
    rfl

theorem getNumberProperty_index (vote : PublicInputArtifactVote) :
    getNumberProperty vote.toValue "index" = if vote.index.isFinite then some vote.index else none := rfl

theorem getStringProperty_commitment (vote : PublicInputArtifactVote) :
    getStringProperty vote.toValue "commitment" = some vote.commitment := rfl

theorem getArrayProperty_merklePath (vote : PublicInputArtifactVote) :
    getArrayProperty vote.toValue "merklePath" = some (vote.merklePath.map .string) := rfl

theorem getArrayProperty_votes :
    getArrayProperty record.toValue "votes" = some (record.votes.map PublicInputArtifactVote.toValue) :=
    rfl

/-- The entry of a vote is read as that vote. -/
theorem eq_of_readsVote {vote vote' : PublicInputArtifactVote} (h : ReadsVote vote.toValue vote') :
    vote' = vote ∧ vote.index.isInteger = true := by
  obtain ⟨hindex, hinteger, hcommitment, elements, helements, htexts⟩ := h
  rw [getNumberProperty_index] at hindex
  rw [getStringProperty_commitment] at hcommitment
  rw [getArrayProperty_merklePath] at helements
  split at hindex
  · obtain rfl := Option.some.inj helements
    rw [mapM_stringOf] at htexts
    obtain ⟨index, commitment, merklePath⟩ := vote
    obtain ⟨index', commitment', merklePath'⟩ := vote'
    obtain rfl : index = index' := Option.some.inj hindex
    obtain rfl : commitment = commitment' := Option.some.inj hcommitment
    obtain rfl : merklePath = merklePath' := Option.some.inj htexts
    exact ⟨rfl, hinteger⟩
  · cases hindex

theorem eq_of_admitsVotes {votes votes' : List PublicInputArtifactVote}
    (h : List.Forall₂ AdmitsVote (votes.map PublicInputArtifactVote.toValue) votes') :
    votes' = votes ∧ ∀ vote ∈ votes, vote.index.isInteger = true := by
  rw [List.forall₂_map_left_iff] at h
  induction h with
  | nil => simp
  | cons hadmits hrest ih =>
    obtain ⟨rfl, hinteger⟩ := eq_of_readsVote (readsVote_of_admitsVote hadmits)
    obtain ⟨rfl, hall⟩ := ih
    exact ⟨rfl, List.forall_mem_cons.mpr ⟨hinteger, hall⟩⟩

theorem getNumberProperty_record (field : String) (value : Num)
    (hfield : property record.toValue field = .number value) :
    getNumberProperty record.toValue field = if value.isFinite then some value else none := by
  rw [getNumberProperty, hfield]

/-- A number that was read of the record is the one that was written, and it is an integer. -/
theorem readInteger_built {field : String} {value read : Num}
    (hfield : property record.toValue field = .number value)
    (h : readInteger record.toValue field = some read) : value = read ∧ value.isInteger = true := by
  obtain ⟨hread, hinteger⟩ := readInteger_eq_some h
  rw [getNumberProperty_record field value hfield] at hread
  split at hread
  · obtain rfl := Option.some.inj hread
    exact ⟨rfl, hinteger⟩
  · cases hread

theorem finite_of_isInteger {value : Num} (h : value.isInteger = true) : value.isFinite = true := by
  cases value <;> simp_all [Num.isInteger, Num.isFinite]

/-- A record that is read back has integers only. -/
structure Integers (record : PublicInputArtifactRecord) : Prop where
  treeSize : record.treeSize.isInteger = true
  totalExpected : record.totalExpected.isInteger = true
  timestamp : record.timestamp.isInteger = true
  methodVersion : record.methodVersion.isInteger = true
  votes : ∀ vote ∈ record.votes, vote.index.isInteger = true

theorem areJson_strings (texts : List JsString) : JsValue.areJson (texts.map .string) = true := by
  induction texts with
  | nil => rfl
  | cons text texts ih =>
    rw [List.map_cons, JsValue.areJson, ih]
    rfl

theorem isJson_vote {vote : PublicInputArtifactVote} (h : vote.index.isInteger = true) :
    vote.toValue.isJson = true := by
  simp only [PublicInputArtifactVote.toValue, JsValue.isJson, JsValue.areJsonFields,
    finite_of_isInteger h, areJson_strings, Bool.and_self]

theorem areJson_votes {votes : List PublicInputArtifactVote}
    (h : ∀ vote ∈ votes, vote.index.isInteger = true) :
    JsValue.areJson (votes.map PublicInputArtifactVote.toValue) = true := by
  induction votes with
  | nil => rfl
  | cons vote votes ih =>
    obtain ⟨hvote, hvotes⟩ := List.forall_mem_cons.mp h
    rw [List.map_cons, JsValue.areJson, isJson_vote hvote, ih hvotes]
    rfl

/-- JSON: such a record comes back as it was. -/
theorem viaJson_record (h : Integers record) : record.toValue.viaJson = .ok record.toValue := by
  refine JsValue.viaJson_of_isJson ?_
  simp only [PublicInputArtifactRecord.toValue, JsValue.isJson, JsValue.areJsonFields,
    finite_of_isInteger h.treeSize, finite_of_isInteger h.totalExpected, finite_of_isInteger h.timestamp,
    finite_of_isInteger h.methodVersion, areJson_votes h.votes, Bool.and_self]

/-- What was read of a record is what was written, with the hashes in one spelling. -/
structure ReadsRecord (record : PublicInputArtifactRecord) (header : PublicInputHeader) : Prop where
  electionId : header.electionId = record.electionId
  bulletinRoot : admitHash record.bulletinRoot = some header.bulletinRoot
  treeSize : header.treeSize = record.treeSize
  totalExpected : header.totalExpected = record.totalExpected

theorem read_of_accepted {header : PublicInputHeader} {entries : List JsValue}
    {parsed : List PublicInputArtifactVote} (h : Accepted record.toValue header entries parsed) :
    ReadsRecord record header ∧ parsed = record.votes ∧ Integers record := by
  have hentries := h.hasEntries
  rw [getArrayProperty_votes] at hentries
  obtain ⟨hparsed, hindices⟩ := eq_of_admitsVotes (Option.some.inj hentries ▸ h.admitsVotes)
  obtain ⟨htreeSize, htreeSizeInt⟩ := readInteger_built rfl h.readsHeader.treeSize
  obtain ⟨htotal, htotalInt⟩ := readInteger_built rfl h.readsHeader.totalExpected
  obtain ⟨-, htimestamp⟩ := readInteger_built rfl h.readsHeader.timestamp
  obtain ⟨-, hmethod⟩ := readInteger_built rfl h.readsHeader.methodVersion
  have hroot := h.readsHeader.bulletinRoot
  rw [readHash_eq] at hroot
  have helection : getStringProperty record.toValue "electionId" = some record.electionId := rfl
  have hread := nonEmpty_eq_some h.readsHeader.electionId
  rw [helection] at hread
  exact ⟨⟨(Option.some.inj hread).symm, hroot, htreeSize.symm, htotal.symm⟩, hparsed,
    ⟨htreeSizeInt, htotalInt, htimestamp, hmethod, hindices⟩⟩

end Build

/-- The commitment of what was read of a record is the commitment of the input. -/
theorem computeInputCommitment_of_read {input : ZkVMInput} {methodVersion : Num}
    {header : PublicInputHeader} {commitment : JsString}
    (hread : ReadsRecord (buildPublicInputArtifactFromZkvmInput input methodVersion) header)
    (h : computeInputCommitmentFromPublicInput noble sha256
      (commitmentInput header (buildPublicInputArtifactFromZkvmInput input methodVersion).votes) =
        .ok commitment) :
    computeInputCommitment noble sha256 input = .ok commitment := by
  obtain ⟨data, hdata, hcommitment⟩ := bind_eq_ok.mp h
  obtain ⟨args, hspells, hargs⟩ := spellsInput_of_encode hdata
  obtain ⟨bytes, hroot, hhash⟩ := admitHash_spells hread.bulletinRoot
  have hsame : args.bulletinRoot = bytes := by
    have hargsRoot : Spells header.bulletinRoot args.bulletinRoot.toList := hspells.bulletinRoot
    rw [hhash] at hargsRoot
    exact spells_unique hargsRoot (prefixed_spells bytes.toList)
  have helection : header.electionId = input.electionId := hread.electionId
  have htreeSize : header.treeSize = input.treeSize := hread.treeSize
  have htotal : header.totalExpected = input.totalExpected := hread.totalExpected
  have hinput : SpellsInput input.publicInput args := by
    refine ⟨?_, hsame ▸ hroot, htreeSize.symm.trans hspells.treeSize,
      htotal.symm.trans hspells.totalExpected, ?_⟩
    · have hargsElection : SpellsUuid header.electionId args.electionId := hspells.electionId
      rw [helection] at hargsElection
      exact hargsElection
    · have hvotes := hspells.votes
      rw [commitmentInput, buildPublicInputArtifactFromZkvmInput, List.map_map] at hvotes
      exact hvotes
  rw [computeInputCommitment, computeInputCommitmentFromPublicInput,
    encodeInputCommitmentPreimage_of_spells noble hinput hargs, ok_bind]
  exact hcommitment

/-! ### The stored form -/

theorem filter_isInteger (value : Num) :
    (if value.isFinite then some value else none).filter Num.isInteger =
      if value.isInteger then some value else none := by
  by_cases hinteger : value.isInteger = true
  · rw [if_pos (finite_of_isInteger hinteger), Option.filter_some, hinteger]
  · rw [if_neg hinteger]
    split
    · rw [Option.filter_some, if_neg hinteger]
    · rfl

theorem readInteger_stored {record : JsValue} {field : String} {value : Num}
    (hfield : property record field = .number value) :
    readInteger record field = if value.isInteger then some value else none := by
  rw [readInteger, getNumberProperty, hfield]
  exact filter_isInteger value

theorem readHash_stored {record : JsValue} {field : String} {value : JsString}
    (hfield : property record field = .string value) : readHash record field = admitHash value := by
  rw [readHash_eq, getStringProperty, hfield]
  rfl

/-- An authority that reading does not change. -/
structure StoredAuthority (authority : PublicInputAuthority) : Prop where
  electionId : nonEmpty (some authority.electionId) = some authority.electionId
  electionConfigHash : admitHash authority.electionConfigHash = some authority.electionConfigHash
  methodVersion : authority.methodVersion.isInteger = true
  bulletinRoot : admitHash authority.bulletinRoot = some authority.bulletinRoot
  treeSize : authority.treeSize.isInteger = true
  totalExpected : authority.totalExpected.isInteger = true
  votesCount : authority.votesCount.isInteger = true
  logId : admitHash authority.logId = some authority.logId
  timestamp : authority.timestamp.isInteger = true
  recomputedInputCommitment :
    admitHash authority.recomputedInputCommitment = some authority.recomputedInputCommitment

theorem admitStoredAuthority {authority : PublicInputAuthority} (h : StoredAuthority authority) :
    admitStoredPublicInputAuthority (storedAuthority authority) = some authority := by
  set record := storedAuthority authority with hrecord
  have helection : getStringProperty record "electionId" = some authority.electionId := rfl
  have hconfig : readHash record "electionConfigHash" = some authority.electionConfigHash :=
    (readHash_stored rfl).trans h.electionConfigHash
  have hmethod : readInteger record "methodVersion" = some authority.methodVersion :=
    (readInteger_stored rfl).trans (if_pos h.methodVersion)
  have hroot : readHash record "bulletinRoot" = some authority.bulletinRoot :=
    (readHash_stored rfl).trans h.bulletinRoot
  have htreeSize : readInteger record "treeSize" = some authority.treeSize :=
    (readInteger_stored rfl).trans (if_pos h.treeSize)
  have htotal : readInteger record "totalExpected" = some authority.totalExpected :=
    (readInteger_stored rfl).trans (if_pos h.totalExpected)
  have hlogId : readHash record "logId" = some authority.logId := (readHash_stored rfl).trans h.logId
  have htimestamp : readInteger record "timestamp" = some authority.timestamp :=
    (readInteger_stored rfl).trans (if_pos h.timestamp)
  have hcount : readInteger record "votesCount" = some authority.votesCount :=
    (readInteger_stored rfl).trans (if_pos h.votesCount)
  have hindices : getBooleanProperty record "uniqueIndices" = some authority.uniqueIndices := rfl
  have hcommitments :
      getBooleanProperty record "uniqueCommitments" = some authority.uniqueCommitments := rfl
  have hcommitment :
      readHash record "recomputedInputCommitment" = some authority.recomputedInputCommitment :=
    (readHash_stored rfl).trans h.recomputedInputCommitment
  simp only [admitStoredPublicInputAuthority, helection, h.electionId, hconfig, hmethod, hroot,
    htreeSize, htotal, hlogId, htimestamp, hcount, hindices, hcommitments, hcommitment]
  rfl

theorem storedAuthority_of_valid {raw : JsValue} {header : PublicInputHeader}
    (hheader : ReadsHeader raw header) (read : VotesObserved) (votesCount : ℕ) {input : PublicInput}
    {commitment : JsString}
    (h : computeInputCommitmentFromPublicInput noble sha256 input = .ok commitment) :
    StoredAuthority (authorityOf header read votesCount commitment) := by
  refine ⟨?_, (readHash_eq_some hheader.electionConfigHash).2,
    (readInteger_eq_some hheader.methodVersion).2, (readHash_eq_some hheader.bulletinRoot).2,
    (readInteger_eq_some hheader.treeSize).2, (readInteger_eq_some hheader.totalExpected).2,
    Num.ofNat_isInteger, (readHash_eq_some hheader.logId).2,
    (readInteger_eq_some hheader.timestamp).2, ?_⟩
  · change nonEmpty (some header.electionId) = some header.electionId
    rw [← hheader.electionId, stable_nonEmpty]
  · obtain ⟨data, -, rfl⟩ := commitment_eq_prefixed h
    exact admitHash_prefixed (sha256 data)

theorem unexpectedKeys_storedProvenance (provenance : Application.PublicInputArtifactProvenance) :
    unexpectedKeys (storedProvenance provenance) publicInputProvenanceKeys = [] := by
  obtain ⟨source, _ | finalizationId, _ | bundleKey⟩ := provenance <;> rfl

theorem sourceOf_sourceText (source : Application.PublicInputArtifactSource) :
    sourceOf (sourceText source) = some source := by
  cases source <;> rfl

theorem getObjectProperty_of {value inner : JsValue} {key : String}
    (hproperty : property value key = inner) (hobject : isNonNullObject inner = true) :
    getObjectProperty value key = some inner := by
  rw [getObjectProperty, hproperty, if_pos hobject]

theorem admitStoredInputRecord_object {fields : List (JsString × JsValue)} {allowedKeys : List JsString}
    (h : unexpectedKeys (.object fields) allowedKeys = []) :
    admitStoredInputRecord allowedKeys (.object fields) = some (.object fields) :=
  if_pos ⟨rfl, by simp [isArray], h⟩

/-- STORED: an artifact that reading does not change is read from its stored form. -/
theorem parseStored_storedPublicInput {artifact : SupportedPublicInputArtifact}
    (h : StoredAuthority artifact.typedAuthority) :
    ∃ provenance : Application.PublicInputArtifactProvenance,
      provenance.source = artifact.provenance.source ∧
      parseStoredPublicInputArtifact (storedPublicInput artifact) =
        some ⟨provenance, artifact.typedAuthority⟩ := by
  have hrecord : admitStoredInputRecord storedPublicInputKeys (storedPublicInput artifact) =
      some (storedPublicInput artifact) := admitStoredInputRecord_object rfl
  have hformat : (getObjectProperty (storedPublicInput artifact) "format").bind
      (admitStoredInputRecord publicInputFormatKeys) =
        some (.object [(js "schema", .string publicInputSchema),
          (js "version", .string publicInputVersion)]) := by
    rw [getObjectProperty_of rfl rfl, Option.bind_some]
    exact admitStoredInputRecord_object rfl
  have hprovenance : (getObjectProperty (storedPublicInput artifact) "provenance").bind
      (admitStoredInputRecord publicInputProvenanceKeys) =
        some (storedProvenance artifact.provenance) := by
    rw [getObjectProperty_of rfl rfl, Option.bind_some]
    exact admitStoredInputRecord_object (unexpectedKeys_storedProvenance artifact.provenance)
  have hauthority : (getObjectProperty (storedPublicInput artifact) "typedAuthority").bind
      (admitStoredInputRecord publicInputAuthorityKeys) =
        some (storedAuthority artifact.typedAuthority) := by
    rw [getObjectProperty_of rfl rfl, Option.bind_some]
    exact admitStoredInputRecord_object rfl
  have hsource : (getStringProperty (storedProvenance artifact.provenance) "source").bind sourceOf =
      some artifact.provenance.source := sourceOf_sourceText artifact.provenance.source
  have hcurrent : hasCurrentPublicInputFormat
      (.object [(js "schema", .string publicInputSchema), (js "version", .string publicInputVersion)]) =
        true := rfl
  refine ⟨⟨artifact.provenance.source,
    nonEmpty (getStringProperty (storedProvenance artifact.provenance) "finalizationId"),
    nonEmpty (getStringProperty (storedProvenance artifact.provenance) "bundleKey")⟩, rfl, ?_⟩
  rw [parseStoredPublicInputArtifact, hrecord]
  simp only [Option.bind_eq_bind, Option.bind_some, hformat, hprovenance, hauthority]
  rw [if_neg (not_not.mpr hcurrent), hsource, admitStoredAuthority h]
  rfl

theorem isJson_storedProvenance (provenance : Application.PublicInputArtifactProvenance) :
    (storedProvenance provenance).isJson = true := by
  obtain ⟨source, _ | finalizationId, _ | bundleKey⟩ := provenance <;> rfl

/-- JSON: the stored form comes back as it was. -/
theorem viaJson_storedPublicInput {artifact : SupportedPublicInputArtifact}
    (h : StoredAuthority artifact.typedAuthority) :
    (storedPublicInput artifact).viaJson = .ok (storedPublicInput artifact) := by
  refine JsValue.viaJson_of_isJson ?_
  simp only [storedPublicInput, storedAuthority, JsValue.isJson, JsValue.areJsonFields,
    isJson_storedProvenance, finite_of_isInteger h.methodVersion, finite_of_isInteger h.treeSize,
    finite_of_isInteger h.totalExpected, finite_of_isInteger h.votesCount,
    finite_of_isInteger h.timestamp, Bool.and_self]

/-! ### Built artifacts and their inputs -/

theorem valid_of_build {input : ZkVMInput} {methodVersion : Num}
    {finalizationId bundleKey : Option JsString} {supported : SupportedPublicInputArtifact}
    (h : buildSupportedPublicInputArtifactFromZkvmInput noble sha256 input methodVersion
      finalizationId bundleKey = .ok supported) (options : ProvenanceOptions) :
    (parsePublicInputArtifact noble sha256
      (buildPublicInputArtifactFromZkvmInput input methodVersion).toValue options).valid = true := by
  unfold buildSupportedPublicInputArtifactFromZkvmInput at h
  dsimp only at h
  split at h
  · rename_i hsupported
    rw [parse_withProvenance noble sha256 _ ⟨some .generated, finalizationId, bundleKey⟩]
    exact (toSupported_eq_some hsupported).1
  · cases h

/-- BUILT: an artifact that was built is read back from JSON as it is, and has the
    commitment of its input. -/
theorem built_reproduces {input : ZkVMInput} {methodVersion : Num}
    {finalizationId bundleKey : Option JsString} {supported : SupportedPublicInputArtifact}
    (h : buildSupportedPublicInputArtifactFromZkvmInput noble sha256 input methodVersion
      finalizationId bundleKey = .ok supported) :
    computeInputCommitment noble sha256 input = .ok supported.typedAuthority.recomputedInputCommitment ∧
      Integers (buildPublicInputArtifactFromZkvmInput input methodVersion) ∧
      StoredAuthority supported.typedAuthority ∧
      ∀ provenance, parseSupportedPublicInputArtifact noble sha256
        (buildPublicInputArtifactFromZkvmInput input methodVersion).toValue provenance =
          some ⟨provenance, supported.typedAuthority⟩ := by
  unfold buildSupportedPublicInputArtifactFromZkvmInput at h
  dsimp only at h
  split at h
  · rename_i hsupported
    obtain rfl := Except.ok.inj h
    obtain ⟨hvalid, -, -, hauthority, -⟩ := toSupported_eq_some hsupported
    obtain ⟨header, entries, parsed, commitment, haccepted, hcommitment, -, htyped⟩ :=
      parse_valid noble sha256 hvalid
    obtain ⟨hread, rfl, hintegers⟩ := read_of_accepted haccepted
    rw [hauthority, Option.some.injEq] at htyped
    rw [htyped]
    refine ⟨computeInputCommitment_of_read hread hcommitment, hintegers,
      storedAuthority_of_valid haccepted.readsHeader _ _ hcommitment, fun provenance => ?_⟩
    rw [← htyped]
    exact parseSupported_of_supported hsupported provenance
  · cases h

/-! ### Witnesses -/

/-- The inputs differ in the choices and the random values of their votes only. -/
structure SamePublicPart (input input' : ZkVMInput) : Prop where
  publicInput : input.publicInput = input'.publicInput
  electionConfigHash : input.electionConfigHash = input'.electionConfigHash
  logId : input.logId = input'.logId
  timestamp : input.timestamp = input'.timestamp

theorem SamePublicPart.build_eq {input input' : ZkVMInput} (h : SamePublicPart input input')
    (methodVersion : Num) :
    buildPublicInputArtifactFromZkvmInput input' methodVersion =
      buildPublicInputArtifactFromZkvmInput input methodVersion := by
  have helection : input.electionId = input'.electionId := congrArg PublicInput.electionId h.publicInput
  have hroot : input.bulletinRoot = input'.bulletinRoot :=
    congrArg PublicInput.bulletinRoot h.publicInput
  have htreeSize : input.treeSize = input'.treeSize := congrArg PublicInput.treeSize h.publicInput
  have htotal : input.totalExpected = input'.totalExpected :=
    congrArg PublicInput.totalExpected h.publicInput
  have hvotes (input : ZkVMInput) : (buildPublicInputArtifactFromZkvmInput input methodVersion).votes =
      input.publicInput.votes.map fun vote => ⟨vote.index, vote.commitment, vote.merklePath⟩ := by
    rw [ZkVMInput.publicInput, List.map_map]
    rfl
  have hsame := hvotes input
  rw [h.publicInput, ← hvotes input'] at hsame
  unfold buildPublicInputArtifactFromZkvmInput at hsame ⊢
  rw [helection, hroot, htreeSize, htotal, h.electionConfigHash, h.logId, h.timestamp]
  exact congrArg (PublicInputArtifactRecord.mk publicInputSchema publicInputVersion input'.electionId
    input'.electionConfigHash input'.bulletinRoot input'.treeSize input'.totalExpected input'.logId
    input'.timestamp methodVersion) hsame.symm

/-- The entries of a record have the fields of a public vote, and no others. -/
theorem objectKeys_entries (record : PublicInputArtifactRecord) {entries : List JsValue}
    (h : getArrayProperty record.toValue "votes" = some entries) :
    ∀ entry ∈ entries, objectKeys entry = publicInputVoteKeys := by
  rw [getArrayProperty_votes] at h
  obtain rfl := Option.some.inj h
  intro entry hentry
  obtain ⟨vote, -, rfl⟩ := List.mem_map.mp hentry
  rfl

/-! ### Inputs of the guest -/

/-- The public part of a vote of the guest. -/
def artifactVote (vote : VoteWithProof) : PublicInputArtifactVote where
  index := .ofNat vote.index.toNat
  commitment := prefixed vote.commitment
  merklePath := vote.merklePath.map prefixed

theorem admitsVote_artifactVote (vote : VoteWithProof) :
    AdmitsVote (artifactVote vote).toValue (artifactVote vote) := by
  have hindex : (getNumberProperty (artifactVote vote).toValue "index").filter
      (fun index => index.isInteger && !index.lt (.ofNat 0)) = some (artifactVote vote).index := by
    rw [getNumberProperty_index]
    simp [artifactVote, Option.filter_some]
  have hcommitment : (getStringProperty (artifactVote vote).toValue "commitment").filter
      (fun commitment => isValidHexString commitment (some 32)) =
        some (artifactVote vote).commitment := by
    rw [getStringProperty_commitment, Option.filter_some]
    exact if_pos (isValidHexString_spelling (prefixed_spells vote.commitment.toList))
  have hvalid :
      (artifactVote vote).merklePath.all (fun node => isValidHexString node (some 32)) = true := by
    rw [artifactVote, List.all_map, List.all_eq_true]
    intro node _
    exact isValidHexString_spelling (prefixed_spells node.toList)
  have hpath :
      admitPublicInputVotePath (artifactVote vote).toValue = .ok (artifactVote vote).merklePath := by
    rw [admitPublicInputVotePath, getArrayProperty_merklePath, Option.bind_some, mapM_stringOf]
    exact if_pos hvalid
  have hfields : admitVoteFields (artifactVote vote).toValue = .ok (artifactVote vote) := by
    simp only [admitVoteFields, hindex, hcommitment, hpath]
    rfl
  have hobject : isNonNullObject (artifactVote vote).toValue = true := rfl
  rw [AdmitsVote, admitPublicInputVote, if_neg (not_not.mpr hobject), hfields]
  rfl

/-- What is read of the header of a rendered input. -/
def renderHeader (input : AggregatorInput) (methodVersion : Num) : PublicInputHeader :=
  ⟨uuidText input.electionId, prefixed input.electionConfigHash, prefixed input.bulletinRoot,
    .ofNat input.treeSize.toNat, .ofNat input.totalExpected.toNat, prefixed input.logId,
    .ofNat input.timestamp.toNat, methodVersion⟩

variable (noble sha256) in
/-- EXACT: what is built of an input of the guest. -/
theorem build_render_eq {input : AggregatorInput} {digest : Bytes 32}
    (hdigest : computeInputCommitmentV4 sha256 input.electionId input.bulletinRoot input.treeSize
      input.totalExpected
      input.votes = .ok digest) {methodVersion : Num} (hmethod : methodVersion.isInteger = true)
    (finalizationId bundleKey : Option JsString) :
    buildSupportedPublicInputArtifactFromZkvmInput noble sha256 (render input) methodVersion
      finalizationId bundleKey =
      .ok ⟨⟨.generated, finalizationId, bundleKey⟩, authorityOf (renderHeader input methodVersion)
        (observePublicInputVotes ((input.votes.map artifactVote).map PublicInputArtifactVote.toValue))
        input.votes.length (prefixed digest)⟩ := by
  set record := buildPublicInputArtifactFromZkvmInput (render input) methodVersion with hrecord
  have hvotes : record.votes = input.votes.map artifactVote := by
    rw [hrecord, buildPublicInputArtifactFromZkvmInput, render, List.map_map]
    rfl
  have helection : uuidText input.electionId ≠ [] := by simp [uuidText]
  have hheader : ReadsHeader record.toValue (renderHeader input methodVersion) := by
    refine ⟨nonEmpty_some helection, (readHash_stored rfl).trans (admitHash_prefixed _),
      (readHash_stored rfl).trans (admitHash_prefixed _),
      (readInteger_stored rfl).trans (if_pos Num.ofNat_isInteger),
      (readInteger_stored rfl).trans (if_pos Num.ofNat_isInteger),
      (readHash_stored rfl).trans (admitHash_prefixed _),
      (readInteger_stored rfl).trans (if_pos Num.ofNat_isInteger),
      (readInteger_stored rfl).trans (if_pos hmethod)⟩
  have hadmits :
      List.Forall₂ AdmitsVote (record.votes.map PublicInputArtifactVote.toValue) record.votes := by
    rw [hvotes, List.forall₂_map_left_iff, List.forall₂_map_left_iff, List.forall₂_map_right_iff,
      List.forall₂_same]
    exact fun vote _ => admitsVote_artifactVote vote
  have haccepted : Accepted record.toValue (renderHeader input methodVersion)
      (record.votes.map PublicInputArtifactVote.toValue) record.votes :=
    ⟨rfl, rfl, rfl, hheader, getArrayProperty_votes, hadmits⟩
  have hcommitment : computeInputCommitmentFromPublicInput noble sha256
      (commitmentInput (renderHeader input methodVersion) record.votes) = .ok (prefixed digest) := by
    have hrender := computeInputCommitment_render noble sha256 hdigest
    rw [computeInputCommitment, ZkVMInput.publicInput, render, List.map_map] at hrender
    rw [commitmentInput, hvotes, List.map_map]
    exact hrender
  have hsupported :=
    toSupported_of_accepted noble sha256 haccepted hcommitment .generated finalizationId bundleKey
  unfold buildSupportedPublicInputArtifactFromZkvmInput
  dsimp only
  rw [← hrecord, hsupported, hvotes, List.length_map, List.length_map]

variable (noble sha256) in
/-- ACCEPTED: every input of the guest whose counts can be encoded is accepted. -/
theorem build_render (input : AggregatorInput) (hcount : input.votes.length ≤ u32Max)
    (hpaths : ∀ vote ∈ input.votes, vote.merklePath.length ≤ u16Max) (methodVersion : Num)
    (hmethod : methodVersion.isInteger = true) (finalizationId bundleKey : Option JsString) :
    ∃ supported, buildSupportedPublicInputArtifactFromZkvmInput noble sha256
      (render input) methodVersion finalizationId bundleKey = .ok supported := by
  obtain ⟨digest, hdigest⟩ :
      ∃ digest, computeInputCommitmentV4 sha256 input.electionId input.bulletinRoot
      input.treeSize input.totalExpected input.votes = .ok digest :=
      computeInputCommitmentV4_ok sha256 hcount hpaths
  exact ⟨_, build_render_eq noble sha256 hdigest hmethod finalizationId bundleKey⟩

/-! ### The public input and the commitment -/

variable (noble sha256) in
/-- An artifact value that is read, under any provenance, with the given commitment. -/
def Reproduces (artifact : JsValue) (commitment : JsString) : Prop :=
  ∀ provenance, ∃ supported, parseSupportedPublicInputArtifact noble sha256 artifact provenance =
    some supported ∧
    supported.typedAuthority.recomputedInputCommitment = commitment

/-- A stored value that is read with the given commitment. -/
def ReproducesStored (stored : JsValue) (commitment : JsString) : Prop :=
  ∃ supported, parseStoredPublicInputArtifact stored = some supported ∧
    supported.typedAuthority.recomputedInputCommitment = commitment

/-- COMMITMENT: a built artifact is read with the commitment of its input, before and after JSON and
    from its stored form, and its input may have any choices and random values; two artifacts with the
    same header and the same entries, up to spelling and order, have the same commitment. -/
theorem public_input_reproduces_commitment :
    (∀ (input : ZkVMInput) (methodVersion : Num) (finalizationId bundleKey : Option JsString)
        (supported : SupportedPublicInputArtifact),
      buildSupportedPublicInputArtifactFromZkvmInput noble sha256 input methodVersion
        finalizationId bundleKey = .ok supported →
      ∃ commitment artifact, computeInputCommitment noble sha256 input = .ok commitment ∧
        artifact = (buildPublicInputArtifactFromZkvmInput input methodVersion).toValue ∧
        Reproduces noble sha256 artifact commitment ∧
        (∃ read, artifact.viaJson = .ok read ∧ Reproduces noble sha256 read commitment) ∧
        ReproducesStored (storedPublicInput supported) commitment ∧
        (∃ read, (storedPublicInput supported).viaJson = .ok read ∧ ReproducesStored read commitment) ∧
        objectKeys artifact = publicInputKeys ∧
        (∀ entries, getArrayProperty artifact "votes" = some entries →
          ∀ entry ∈ entries, objectKeys entry = publicInputVoteKeys) ∧
        ∀ input', SamePublicPart input input' →
          (buildPublicInputArtifactFromZkvmInput input' methodVersion).toValue = artifact ∧
          buildSupportedPublicInputArtifactFromZkvmInput noble sha256 input' methodVersion
            finalizationId bundleKey = .ok supported) ∧
      ∀ (raw raw' : JsValue) (options options' : ProvenanceOptions),
        (parsePublicInputArtifact noble sha256 raw options).valid = true →
        (parsePublicInputArtifact noble sha256 raw' options').valid = true →
        SameArtifactHeader raw raw' → (entriesOf raw).Perm (entriesOf raw') →
        ∃ commitment,
          (parsePublicInputArtifact noble sha256 raw options).observed.recomputedInputCommitment = some
            commitment ∧
          (parsePublicInputArtifact noble sha256 raw' options').observed.recomputedInputCommitment =
            some commitment := by
  constructor
  · intro input methodVersion finalizationId bundleKey supported h
    obtain ⟨hcommitment, hintegers, hauthority, hparse⟩ := built_reproduces h
    have hreproduces :
        Reproduces noble sha256 (buildPublicInputArtifactFromZkvmInput input methodVersion).toValue
        supported.typedAuthority.recomputedInputCommitment := by
      intro provenance
      exact ⟨_, hparse provenance, rfl⟩
    have hstored : ReproducesStored (storedPublicInput supported)
        supported.typedAuthority.recomputedInputCommitment := by
      obtain ⟨provenance, -, hread⟩ := parseStored_storedPublicInput hauthority
      exact ⟨_, hread, rfl⟩
    refine ⟨_, _, hcommitment, rfl, hreproduces, ⟨_, viaJson_record hintegers, hreproduces⟩, hstored,
      ⟨_, viaJson_storedPublicInput hauthority, hstored⟩, rfl, fun entries => objectKeys_entries _, ?_⟩
    intro input' hsame
    have hbuild := hsame.build_eq methodVersion
    refine ⟨congrArg PublicInputArtifactRecord.toValue hbuild, ?_⟩
    rw [← h]
    simp only [buildSupportedPublicInputArtifactFromZkvmInput, hbuild]
  · intro raw raw' options options' h h' hheader hentries
    exact commitment_of_same_artifact h h' hheader hentries

def otherVote : VoteWithProof := { Guest.sampleVote with index := 1 }

def sampleArtifact (votes : List VoteWithProof) : JsValue :=
  (buildPublicInputArtifactFromZkvmInput (render (Guest.sampleInput votes)) (.ofNat 1)).toValue

/-- Two votes in both orders. -/
theorem public_input_commitment_on_sample : ∃ supported commitment,
    buildSupportedPublicInputArtifactFromZkvmInput NobleUtils.reference Sha256.digest
      (render (Guest.sampleInput [Guest.sampleVote, otherVote])) (.ofNat 1) none none = .ok supported ∧
    computeInputCommitment NobleUtils.reference Sha256.digest
      (render (Guest.sampleInput [Guest.sampleVote, otherVote])) = .ok commitment ∧
    Reproduces NobleUtils.reference Sha256.digest (sampleArtifact [Guest.sampleVote, otherVote])
      commitment ∧
    ReproducesStored (storedPublicInput supported) commitment ∧
    ∃ commitment',
      (parsePublicInputArtifact NobleUtils.reference Sha256.digest
        (sampleArtifact [Guest.sampleVote, otherVote])
        ⟨none, none, none⟩).observed.recomputedInputCommitment = some commitment' ∧
      (parsePublicInputArtifact NobleUtils.reference Sha256.digest
        (sampleArtifact [otherVote, Guest.sampleVote])
        ⟨none, none, none⟩).observed.recomputedInputCommitment = some commitment' := by
  obtain ⟨supported, h⟩ := build_render NobleUtils.reference Sha256.digest
    (Guest.sampleInput [Guest.sampleVote, otherVote]) (by decide) (by decide) (.ofNat 1)
    Num.ofNat_isInteger none none
  obtain ⟨supported', h'⟩ := build_render NobleUtils.reference Sha256.digest
    (Guest.sampleInput [otherVote, Guest.sampleVote]) (by decide) (by decide) (.ofNat 1)
    Num.ofNat_isInteger none none
  obtain ⟨hbuilt, hsame⟩ := @public_input_reproduces_commitment NobleUtils.reference Sha256.digest
  obtain ⟨commitment, _, hcommitment, rfl, hreproduces, -, hstored, -⟩ := hbuilt _ _ _ _ _ h
  refine ⟨supported, commitment, h, hcommitment, hreproduces, hstored, ?_⟩
  exact hsame _ _ _ _ (valid_of_build h _) (valid_of_build h' _) ⟨rfl, rfl, rfl, rfl⟩
    (List.Perm.swap _ _ _)

end StarkBallot.Verification.PublicInput
