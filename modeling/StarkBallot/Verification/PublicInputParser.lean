import StarkBallot.Verification.PublicInputContract
import StarkBallot.ZkvmContract.PublicInputs

/-! What the parser of the public input artifact accepts, and the commitment it recomputes. A parse
    without errors has read every field (`parse_valid`), and a value whose fields are all read is
    accepted (`toSupported_of_accepted`); the commitment is that of the header and the votes that were
    read, in any order and spelling. -/

namespace StarkBallot.Verification.PublicInput
open Schemes Validation ContractCore CryptoPrimitives ZkvmContract
open Application
  (PublicInputAuthority SupportedPublicInputArtifact addHexPrefix isPublicInputHash nonEmpty admitHash
  admitHash_eq_some admitHash_spells admitHash_prefixed stable_admitHash stable_nonEmpty
  normalizeHexString_admitHash)

variable {noble : NobleUtils} {sha256 : List UInt8 → Bytes 32}

/-! ### A parse without errors -/

theorem observe_ok {α : Type} {field : String} {read : Option α} (h : (observe field read).2 = []) :
    ∃ a, read = some a := by
  cases read with
  | some a => exact ⟨a, rfl⟩
  | none => cases h

/-- The fields outside of the votes, as they were read. -/
structure PublicInputHeader where
  electionId : JsString
  electionConfigHash : JsString
  bulletinRoot : JsString
  treeSize : Num
  totalExpected : Num
  logId : JsString
  timestamp : Num
  methodVersion : Num

structure ReadsHeader (raw : JsValue) (header : PublicInputHeader) : Prop where
  electionId : nonEmpty (getStringProperty raw "electionId") = some header.electionId
  electionConfigHash : readHash raw "electionConfigHash" = some header.electionConfigHash
  bulletinRoot : readHash raw "bulletinRoot" = some header.bulletinRoot
  treeSize : readInteger raw "treeSize" = some header.treeSize
  totalExpected : readInteger raw "totalExpected" = some header.totalExpected
  logId : readHash raw "logId" = some header.logId
  timestamp : readInteger raw "timestamp" = some header.timestamp
  methodVersion : readInteger raw "methodVersion" = some header.methodVersion

def observedOf (header : PublicInputHeader) : PublicInputObservedFields where
  electionId := some header.electionId
  electionConfigHash := some header.electionConfigHash
  votesCount := 0
  treeSize := header.treeSize
  totalExpected := some header.totalExpected
  bulletinRoot := header.bulletinRoot
  logId := some header.logId
  timestamp := some header.timestamp
  methodVersion := some header.methodVersion
  uniqueIndices := true
  uniqueCommitments := true
  recomputedInputCommitment := none

theorem readsHeader_of_noErrors {raw : JsValue} (h : (observeHeader raw).2 = []) :
    ∃ header, ReadsHeader raw header ∧ (observeHeader raw).1 = observedOf header := by
  simp only [observeHeader, List.append_eq_nil_iff] at h
  obtain ⟨⟨⟨⟨⟨⟨⟨h₁, h₂⟩, h₃⟩, h₄⟩, h₅⟩, h₆⟩, h₇⟩, h₈⟩ := h
  obtain ⟨electionId, helection⟩ := observe_ok h₁
  obtain ⟨electionConfigHash, hconfig⟩ := observe_ok h₂
  obtain ⟨bulletinRoot, hroot⟩ := observe_ok h₃
  obtain ⟨treeSize, htreeSize⟩ := observe_ok h₄
  obtain ⟨totalExpected, htotal⟩ := observe_ok h₅
  obtain ⟨logId, hlogId⟩ := observe_ok h₆
  obtain ⟨timestamp, htimestamp⟩ := observe_ok h₇
  obtain ⟨methodVersion, hmethod⟩ := observe_ok h₈
  refine ⟨⟨electionId, electionConfigHash, bulletinRoot, treeSize, totalExpected, logId, timestamp,
    methodVersion⟩, ⟨helection, hconfig, hroot, htreeSize, htotal, hlogId, htimestamp, hmethod⟩, ?_⟩
  simp only [observeHeader, observeElectionId, observePublicInputHash, observePublicInputInteger,
    observe, helection, hconfig, hroot, htreeSize, htotal, hlogId, htimestamp, hmethod]
  rfl

/-- The entry is a vote, with no key that is not expected. -/
def AdmitsVote (entry : JsValue) (vote : PublicInputArtifactVote) : Prop :=
  admitPublicInputVote entry = (some vote, [])

theorem observeVote_errors {o : VotesObserved} {entry : JsValue}
    (h : (observeVote o entry).errors = []) :
    o.errors = [] ∧ ∃ vote, AdmitsVote entry vote ∧
    (observeVote o entry).parsedVotes = o.parsedVotes ++ [vote] := by
  unfold observeVote at h ⊢
  unfold AdmitsVote
  rcases hvote : admitPublicInputVote entry with ⟨_ | vote, errors⟩
  · simp only [hvote, List.append_eq_nil_iff] at h
    obtain ⟨-, rfl⟩ := h
    unfold admitPublicInputVote at hvote
    split at hvote
    · cases hvote
    · split at hvote
      · cases hvote
      · simp at hvote
  · simp only [hvote, List.append_eq_nil_iff] at h
    obtain ⟨hbefore, rfl⟩ := h
    exact ⟨hbefore, vote, rfl, rfl⟩

/-- LOOP: without errors, every entry is read as a vote. -/
theorem foldl_observeVote {entries : List JsValue} {o : VotesObserved}
    (h : (entries.foldl observeVote o).errors = []) :
    o.errors = [] ∧ ∃ votes, List.Forall₂ AdmitsVote entries votes ∧
      (entries.foldl observeVote o).parsedVotes = o.parsedVotes ++ votes := by
  induction entries generalizing o with
  | nil => exact ⟨h, [], .nil, (List.append_nil _).symm⟩
  | cons entry entries ih =>
    obtain ⟨hstep, votes, hvotes, hparsed⟩ := ih h
    obtain ⟨hbefore, vote, hvote, hparsed'⟩ := observeVote_errors hstep
    refine ⟨hbefore, vote :: votes, .cons hvote hvotes, ?_⟩
    rw [List.foldl_cons, hparsed, hparsed', List.append_assoc, List.singleton_append]

/-- What the commitment is recomputed from. -/
def commitmentInput (header : PublicInputHeader) (votes : List PublicInputArtifactVote) :
    PublicInput where
  electionId := header.electionId
  bulletinRoot := header.bulletinRoot
  treeSize := header.treeSize
  totalExpected := header.totalExpected
  votes := votes.map commitmentVote

def authorityOf (header : PublicInputHeader) (read : VotesObserved) (votesCount : ℕ)
    (commitment : JsString) :
    PublicInputAuthority where
  electionId := header.electionId
  electionConfigHash := header.electionConfigHash
  methodVersion := header.methodVersion
  bulletinRoot := header.bulletinRoot
  treeSize := header.treeSize
  totalExpected := header.totalExpected
  votesCount := .ofNat votesCount
  uniqueIndices := read.uniqueIndices
  uniqueCommitments := read.uniqueCommitments
  logId := header.logId
  timestamp := header.timestamp
  recomputedInputCommitment := commitment

theorem commitment_eq_prefixed {input : PublicInput} {commitment : JsString}
    (h : computeInputCommitmentFromPublicInput noble sha256 input = .ok commitment) :
    ∃ data, encodeInputCommitmentPreimage noble input = .ok data ∧
    commitment = prefixed (sha256 data) := by
  obtain ⟨data, hdata, h⟩ := bind_eq_ok.mp h
  obtain ⟨_, -, h⟩ := bind_eq_ok.mp h
  refine ⟨data, hdata, ?_⟩
  rw [← Except.ok.inj h, noble.bytesToHex_eq]
  rfl

theorem readHash_eq (raw : JsValue) (field : String) :
    readHash raw field = (getStringProperty raw field).bind admitHash := by
  unfold readHash admitHash
  cases getStringProperty raw field with
  | none => rfl
  | some value =>
    rw [Option.bind_some, Option.filter_some]
    split <;> rfl

theorem readHash_eq_some {raw : JsValue} {field : String} {hash : JsString}
    (h : readHash raw field = some hash) :
    hash ≠ [] ∧ admitHash hash = some hash := by
  rw [readHash_eq] at h
  obtain ⟨value, -, hvalue⟩ := Option.bind_eq_some_iff.mp h
  refine ⟨?_, stable_admitHash hvalue⟩
  obtain ⟨bytes, rfl⟩ := admitHash_eq_some hvalue
  exact spelling_ne_nil (prefixed_spells bytes.toList)

theorem nonEmpty_some {value : JsString} (h : value ≠ []) : nonEmpty (some value) = some value := by
  simp [nonEmpty, h]

/-- What a parse without errors has read. -/
structure Accepted (raw : JsValue) (header : PublicInputHeader) (entries : List JsValue)
    (parsed : List PublicInputArtifactVote) : Prop where
  isObject : isNonNullObject raw = true
  keys : unexpectedKeys raw publicInputKeys = []
  format : (observePublicInputFormat raw).2 = []
  readsHeader : ReadsHeader raw header
  hasEntries : getArrayProperty raw "votes" = some entries
  admitsVotes : List.Forall₂ AdmitsVote entries parsed

theorem noErrors_of_commitment {observed : PublicInputObservedFields} {errors : List JsString}
    {parsedVotes : List PublicInputArtifactVote}
    (h : (observePublicInputCommitment noble sha256 observed errors parsedVotes).2 = []) :
    errors = [] := by
  unfold observePublicInputCommitment at h
  split at h
  · split at h
    · split at h
      · exact h
      · exact (List.append_eq_nil_iff.mp h).1
    · exact h
  · exact h

theorem commitment_of_noErrors {header : PublicInputHeader} {observed : PublicInputObservedFields}
    {parsedVotes : List PublicInputArtifactVote}
    (h : (observePublicInputCommitment noble sha256 observed [] parsedVotes).2 = [])
    (helection : observed.electionId = some header.electionId)
    (hroot : observed.bulletinRoot = header.bulletinRoot)
    (htreeSize : observed.treeSize = header.treeSize)
    (htotal : observed.totalExpected = some header.totalExpected)
    (hlength : parsedVotes.length = observed.votesCount) :
    ∃ commitment,
      computeInputCommitmentFromPublicInput noble sha256 (commitmentInput header parsedVotes) = .ok
        commitment ∧
      observePublicInputCommitment noble sha256 observed [] parsedVotes = (some commitment, []) := by
  unfold observePublicInputCommitment at h ⊢
  unfold commitmentInput
  simp only [helection, htotal, hlength, hroot, htreeSize, and_self, if_true, List.nil_append] at h ⊢
  generalize computeInputCommitmentFromPublicInput noble sha256 _ = result at h ⊢
  cases result with
  | ok commitment => exact ⟨commitment, rfl, rfl⟩
  | error e => cases h

theorem derive_eq_authorityOf {raw : JsValue} {header : PublicInputHeader}
    (hheader : ReadsHeader raw header) (read : VotesObserved) (votesCount : ℕ) {input : PublicInput}
    {commitment : JsString}
    (h : computeInputCommitmentFromPublicInput noble sha256 input = .ok commitment) :
    derivePublicInputAuthority { observedOf header with
      votesCount := votesCount
      uniqueIndices := read.uniqueIndices
      uniqueCommitments := read.uniqueCommitments
      recomputedInputCommitment :=
        some commitment } [] = some (authorityOf header read votesCount commitment) := by
  have helection : nonEmpty (some header.electionId) = some header.electionId := by
    rw [← hheader.electionId, stable_nonEmpty]
  have hcommitment : nonEmpty (some commitment) = some commitment := by
    obtain ⟨data, -, rfl⟩ := commitment_eq_prefixed h
    exact nonEmpty_some (spelling_ne_nil (prefixed_spells (sha256 data).toList))
  have hconfig := nonEmpty_some (readHash_eq_some hheader.electionConfigHash).1
  have hlogId := nonEmpty_some (readHash_eq_some hheader.logId).1
  simp only [derivePublicInputAuthority, observedOf, ne_eq, not_true_eq_false, if_false, helection,
    hconfig, hlogId, hcommitment]
  rfl

variable (noble sha256) in
/-- ACCEPTED: a valid parse has read every field, and recomputed the commitment of what it read. -/
theorem parse_valid {raw : JsValue} {options : ProvenanceOptions}
    (h : (parsePublicInputArtifact noble sha256 raw options).valid = true) :
    ∃ header entries votes commitment, Accepted raw header entries votes ∧
      computeInputCommitmentFromPublicInput noble sha256 (commitmentInput header votes) = .ok
        commitment ∧
      (parsePublicInputArtifact noble sha256 raw options).observed.recomputedInputCommitment = some
        commitment ∧
      (parsePublicInputArtifact noble sha256 raw options).typedAuthority =
        some (authorityOf header (observePublicInputVotes entries) entries.length commitment) := by
  unfold parsePublicInputArtifact at h ⊢
  split at h
  · cases h
  rename_i hobject
  rw [not_not] at hobject
  rw [if_neg (by simp [hobject])]
  dsimp only at h ⊢
  cases hentries : getArrayProperty raw "votes" with
  | none =>
    simp only [hentries, finalizeParsedPublicInput, decide_eq_true_eq, List.append_eq_nil_iff,
      List.cons_ne_nil, and_false] at h
  | some entries =>
    simp only [hentries, finalizeParsedPublicInput, decide_eq_true_eq] at h ⊢
    have herrors := noErrors_of_commitment h
    rw [herrors] at h
    rw [herrors]
    obtain ⟨⟨⟨hkeys, hformat⟩, hheader⟩, hvotes⟩ : ((unexpectedKeys raw publicInputKeys = [] ∧
        (observePublicInputFormat raw).2 = []) ∧ (observeHeader raw).2 = []) ∧
        (observePublicInputVotes entries).errors = [] := by
      simpa only [List.append_eq_nil_iff] using herrors
    obtain ⟨header, hreads, hobserved⟩ := readsHeader_of_noErrors hheader
    obtain ⟨-, votes, hadmits, hparsed⟩ := foldl_observeVote hvotes
    have hread : (observePublicInputVotes entries).parsedVotes = votes := hparsed
    rw [hobserved, hread] at h ⊢
    obtain ⟨commitment, hcommitment, hresult⟩ :=
      @commitment_of_noErrors noble sha256 header _ _ h rfl rfl rfl rfl
      hadmits.length_eq.symm
    rw [hresult]
    exact ⟨header, entries, votes, commitment, ⟨hobject, hkeys, hformat, hreads, hentries, hadmits⟩,
      hcommitment, rfl, derive_eq_authorityOf hreads _ _ hcommitment⟩

/-! ### The entries, up to spelling and order -/

/-- What an entry has under the three names of a vote, with the texts in one spelling. -/
def entryOf (entry : JsValue) : Option Num × Option JsString × Option (List JsString) :=
  (getNumberProperty entry "index", (getStringProperty entry "commitment").map normalizeHexString,
    (getArrayProperty entry "merklePath").map fun merklePath =>
      (merklePath.filterMap stringOf).map normalizeHexString)

def entriesOf (raw : JsValue) : List (Option Num × Option JsString × Option (List JsString)) :=
  ((getArrayProperty raw "votes").getD []).map entryOf

/-- The header of an artifact under the commitment, up to the spelling of the root. -/
structure SameArtifactHeader (raw raw' : JsValue) : Prop where
  electionId : getStringProperty raw "electionId" = getStringProperty raw' "electionId"
  bulletinRoot : (getStringProperty raw "bulletinRoot").map normalizeHexString =
    (getStringProperty raw' "bulletinRoot").map normalizeHexString
  treeSize : getNumberProperty raw "treeSize" = getNumberProperty raw' "treeSize"
  totalExpected : getNumberProperty raw "totalExpected" = getNumberProperty raw' "totalExpected"

theorem filterMap_of_mapM_stringOf {elements : List JsValue} {texts : List JsString}
    (h : elements.mapM stringOf = some texts) : elements.filterMap stringOf = texts := by
  induction elements generalizing texts with
  | nil => exact Option.some.inj h
  | cons element elements ih =>
    rw [List.mapM_cons] at h
    obtain ⟨text, htext, h⟩ := Option.bind_eq_some_iff.mp h
    obtain ⟨texts', htexts, h⟩ := Option.bind_eq_some_iff.mp h
    rw [List.filterMap_cons, htext, ih htexts]
    exact Option.some.inj h

/-- A vote is what the entry has under its names. -/
structure ReadsVote (entry : JsValue) (vote : PublicInputArtifactVote) : Prop where
  index : getNumberProperty entry "index" = some vote.index
  integer : vote.index.isInteger = true
  commitment : getStringProperty entry "commitment" = some vote.commitment
  merklePath : ∃ elements, getArrayProperty entry "merklePath" = some elements ∧
    elements.mapM stringOf = some vote.merklePath

theorem readsPath_of_admit {entry : JsValue} {merklePath : List JsString}
    (h : admitPublicInputVotePath entry = .ok merklePath) :
    ∃ elements, getArrayProperty entry "merklePath" = some elements ∧
    elements.mapM stringOf = some merklePath := by
  unfold admitPublicInputVotePath at h
  split at h
  · cases h
  rename_i path hpath
  split at h
  · obtain rfl := Except.ok.inj h
    exact Option.bind_eq_some_iff.mp hpath
  · cases h

theorem readsVote_of_fields {entry : JsValue} {vote : PublicInputArtifactVote}
    (h : admitVoteFields entry = .ok vote) :
    ReadsVote entry vote := by
  unfold admitVoteFields at h
  split at h
  · cases h
  rename_i index hindex
  split at h
  · cases h
  rename_i commitment hcommitment
  obtain ⟨merklePath, hpath, h⟩ := bind_eq_ok.mp h
  obtain rfl := Except.ok.inj h
  rw [Option.filter_eq_some_iff, Bool.and_eq_true] at hindex
  rw [Option.filter_eq_some_iff] at hcommitment
  exact ⟨hindex.1, hindex.2.1, hcommitment.1, readsPath_of_admit hpath⟩

theorem readsVote_of_admitsVote {entry : JsValue} {vote : PublicInputArtifactVote}
    (h : AdmitsVote entry vote) :
    ReadsVote entry vote := by
  unfold AdmitsVote admitPublicInputVote at h
  split at h
  · cases h
  split at h
  · rename_i hfields
    rw [← Option.some.inj (Prod.mk.inj h).1]
    exact readsVote_of_fields hfields
  · cases h

/-- A canonical vote as an entry has it. -/
def asEntry (vote : Num × JsString × List JsString) :
    Option Num × Option JsString × Option (List JsString) :=
  (some vote.1, some vote.2.1, some vote.2.2)

theorem asEntry_injective : Function.Injective asEntry := by
  intro a b h
  obtain ⟨hindex, hcommitment, hpath⟩ :
      a.1 = b.1 ∧ a.2.1 = b.2.1 ∧ a.2.2 = b.2.2 := by simpa [asEntry] using h
  exact Prod.ext hindex (Prod.ext hcommitment hpath)

theorem entryOf_of_admitsVote {entry : JsValue} {vote : PublicInputArtifactVote}
    (h : AdmitsVote entry vote) :
    entryOf entry = asEntry (commitmentVote vote).canonical := by
  obtain ⟨hindex, -, hcommitment, elements, helements, htexts⟩ := readsVote_of_admitsVote h
  simp only [entryOf, hindex, hcommitment, helements, Option.map_some, filterMap_of_mapM_stringOf htexts]
  rfl

theorem entriesOf_of_accepted {raw : JsValue} {header : PublicInputHeader} {entries : List JsValue}
    {parsed : List PublicInputArtifactVote} (h : Accepted raw header entries parsed) :
    entriesOf raw = ((commitmentInput header parsed).votes.map InputCommitmentVote.canonical).map
      asEntry := by
  rw [entriesOf, h.hasEntries, Option.getD_some, commitmentInput, List.map_map, List.map_map]
  symm
  exact map_eq_of_forall₂
    (h.admitsVotes.imp fun entry vote hadmits => (entryOf_of_admitsVote hadmits).symm)

/-- The root of an accepted header is the prefixed spelling of the one that the artifact has. -/
theorem normalizeHexString_of_readHash {raw : JsValue} {field : String} {hash : JsString}
    (h : readHash raw field = some hash) :
    (getStringProperty raw field).map normalizeHexString = some (normalizeHexString hash) := by
  rw [readHash_eq] at h
  obtain ⟨value, hvalue, hhash⟩ := Option.bind_eq_some_iff.mp h
  rw [hvalue, Option.map_some, normalizeHexString_admitHash hhash]

theorem nonEmpty_eq_some {value : Option JsString} {text : JsString} (h : nonEmpty value = some text) :
    value = some text := (Option.filter_eq_some_iff.mp h).1

theorem readInteger_eq_some {raw : JsValue} {field : String} {value : Num}
    (h : readInteger raw field = some value) :
    getNumberProperty raw field = some value ∧ value.isInteger = true := Option.filter_eq_some_iff.mp h

theorem sameHeader_of_accepted {raw raw' : JsValue} {header header' : PublicInputHeader}
    {parsed parsed' : List PublicInputArtifactVote} (h : ReadsHeader raw header)
    (h' : ReadsHeader raw' header') (hsame : SameArtifactHeader raw raw') :
    SameHeader (commitmentInput header parsed) (commitmentInput header' parsed') := by
  refine ⟨?_, ?_, ?_, ?_⟩
  · have helection := hsame.electionId
    rw [nonEmpty_eq_some h.electionId, nonEmpty_eq_some h'.electionId] at helection
    exact Option.some.inj helection
  · have hroot := hsame.bulletinRoot
    rw [normalizeHexString_of_readHash h.bulletinRoot,
      normalizeHexString_of_readHash h'.bulletinRoot] at hroot
    exact Option.some.inj hroot
  · have htreeSize := hsame.treeSize
    rw [(readInteger_eq_some h.treeSize).1, (readInteger_eq_some h'.treeSize).1] at htreeSize
    exact Option.some.inj htreeSize
  · have htotal := hsame.totalExpected
    rw [(readInteger_eq_some h.totalExpected).1, (readInteger_eq_some h'.totalExpected).1] at htotal
    exact Option.some.inj htotal

/-- ORDER: two artifacts with the same header and the same entries have the same commitment. -/
theorem commitment_of_same_artifact {raw raw' : JsValue} {options options' : ProvenanceOptions}
    (h : (parsePublicInputArtifact noble sha256 raw options).valid = true)
    (h' : (parsePublicInputArtifact noble sha256 raw' options').valid = true)
    (hheader : SameArtifactHeader raw raw') (hentries : (entriesOf raw).Perm (entriesOf raw')) :
    ∃ commitment,
      (parsePublicInputArtifact noble sha256 raw options).observed.recomputedInputCommitment = some
        commitment ∧
      (parsePublicInputArtifact noble sha256 raw' options').observed.recomputedInputCommitment =
        some commitment := by
  obtain ⟨header, entries, parsed, commitment, haccepted, hcommitment, hobserved, -⟩ :=
    parse_valid noble sha256 h
  obtain ⟨header', entries', parsed', commitment', haccepted', hcommitment', hobserved', -⟩ :=
    parse_valid noble sha256 h'
  rw [entriesOf_of_accepted haccepted, entriesOf_of_accepted haccepted',
    List.map_perm_map_iff asEntry_injective] at hentries
  obtain rfl := commitment_of_same hcommitment hcommitment'
    (sameHeader_of_accepted haccepted.readsHeader haccepted'.readsHeader hheader) hentries
  exact ⟨commitment, hobserved, hobserved'⟩

/-! ### Supported artifacts -/

variable (noble sha256) in
/-- The provenance is carried along. -/
theorem parse_withProvenance (raw : JsValue) (options options' : ProvenanceOptions) :
    parsePublicInputArtifact noble sha256 raw options' =
      { parsePublicInputArtifact noble sha256 raw options with provenance := options' } := by
  unfold parsePublicInputArtifact
  split
  · rfl
  · dsimp only
    split <;> rfl

theorem toSupported_eq_some {parsed : ParsedPublicInputArtifact}
    {supported : SupportedPublicInputArtifact}
    (h : toSupportedPublicInputArtifact parsed = some supported) :
    parsed.valid = true ∧ parsed.format.schema = some publicInputSchema ∧
      parsed.format.version = some publicInputVersion ∧
      parsed.typedAuthority = some supported.typedAuthority ∧
      parsed.provenance.source = some supported.provenance.source := by
  unfold toSupportedPublicInputArtifact at h
  split at h
  · rename_i hauthority hsource
    split at h
    · rename_i hchecks
      rw [← Option.some.inj h]
      exact ⟨hchecks.1, hchecks.2.1, hchecks.2.2, hauthority, hsource⟩
    · cases h
  · cases h

/-- A parse that is supported is supported under any provenance. -/
theorem parseSupported_of_supported {raw : JsValue} {options : ProvenanceOptions}
    {supported : SupportedPublicInputArtifact}
    (h : toSupportedPublicInputArtifact (parsePublicInputArtifact noble sha256 raw options) =
      some supported)
    (provenance : Application.PublicInputArtifactProvenance) :
    parseSupportedPublicInputArtifact noble sha256 raw provenance =
      some ⟨provenance, supported.typedAuthority⟩ := by
  obtain ⟨hvalid, hschema, hversion, hauthority, -⟩ := toSupported_eq_some h
  rw [parseSupportedPublicInputArtifact, parse_withProvenance noble sha256 raw options]
  simp only [toSupportedPublicInputArtifact, hauthority, hvalid, hschema, hversion, and_self, if_true]

/-! ### What is accepted -/

theorem observeHeader_of_reads {raw : JsValue} {header : PublicInputHeader}
    (h : ReadsHeader raw header) :
    observeHeader raw = (observedOf header, []) := by
  simp only [observeHeader, observeElectionId, observePublicInputHash, observePublicInputInteger,
    observe, h.electionId, h.electionConfigHash, h.bulletinRoot, h.treeSize, h.totalExpected, h.logId,
    h.timestamp, h.methodVersion]
  rfl

theorem foldl_of_admits {entries : List JsValue} {votes : List PublicInputArtifactVote}
    (h : List.Forall₂ AdmitsVote entries votes) (o : VotesObserved) :
    (entries.foldl observeVote o).errors = o.errors ∧
      (entries.foldl observeVote o).parsedVotes = o.parsedVotes ++ votes := by
  induction h generalizing o with
  | nil => exact ⟨rfl, (List.append_nil _).symm⟩
  | cons hadmits hrest ih =>
    rename_i entry vote entries votes
    have hstep : (observeVote o entry).errors = o.errors ∧
        (observeVote o entry).parsedVotes = o.parsedVotes ++ [vote] := by
      unfold AdmitsVote at hadmits
      simp only [observeVote, hadmits, List.append_nil, and_self]
    obtain ⟨herrors, hparsed⟩ := ih (observeVote o entry)
    rw [List.foldl_cons, herrors, hparsed, hstep.1, hstep.2, List.append_assoc, List.singleton_append]
    exact ⟨rfl, rfl⟩

theorem format_of_noErrors {raw : JsValue} (h : (observePublicInputFormat raw).2 = []) :
    (observePublicInputFormat raw).1 = ⟨some publicInputSchema, some publicInputVersion⟩ := by
  simp only [observePublicInputFormat, List.append_eq_nil_iff, ite_eq_left_iff,
    List.cons_ne_nil, imp_false, not_not] at h
  simp only [observePublicInputFormat, h.1, h.2]
  rfl

variable (noble sha256) in
/-- A parse that reads everything is supported. -/
theorem toSupported_of_accepted {raw : JsValue} {header : PublicInputHeader} {entries : List JsValue}
    {parsed : List PublicInputArtifactVote} {commitment : JsString}
    (h : Accepted raw header entries parsed)
    (hcommitment : computeInputCommitmentFromPublicInput noble sha256 (commitmentInput header parsed) =
      .ok commitment) (source : Application.PublicInputArtifactSource)
    (finalizationId bundleKey : Option JsString) :
    toSupportedPublicInputArtifact
      (parsePublicInputArtifact noble sha256 raw ⟨some source, finalizationId, bundleKey⟩) =
        some ⟨⟨source, finalizationId, bundleKey⟩,
          authorityOf header (observePublicInputVotes entries) entries.length commitment⟩ := by
  obtain ⟨herrors, hparsed⟩ := foldl_of_admits h.admitsVotes ⟨[], [], [], true, true, []⟩
  change (observePublicInputVotes entries).errors = [] at herrors
  change (observePublicInputVotes entries).parsedVotes = parsed at hparsed
  have hauthority :=
    derive_eq_authorityOf h.readsHeader (observePublicInputVotes entries) entries.length hcommitment
  have hobserve : observePublicInputCommitment noble sha256
      { observedOf header with
        votesCount := entries.length
        uniqueIndices := (observePublicInputVotes entries).uniqueIndices
        uniqueCommitments := (observePublicInputVotes entries).uniqueCommitments } [] parsed =
          (some commitment, []) := by
    unfold commitmentInput at hcommitment
    simp only [observePublicInputCommitment, observedOf, h.admitsVotes.length_eq, and_self, if_true,
      hcommitment]
  rw [parsePublicInputArtifact, if_neg (by simp [h.isObject]), h.hasEntries]
  simp only [observeHeader_of_reads h.readsHeader, h.keys, h.format, format_of_noErrors h.format,
    herrors, hparsed, List.append_nil, hobserve, hauthority, finalizeParsedPublicInput,
    toSupportedPublicInputArtifact, decide_true, and_self, if_true]

end StarkBallot.Verification.PublicInput
