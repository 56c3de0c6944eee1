import StarkBallot.Application.PersistedBitmaps
import StarkBallot.Application.TransitionStorage
import StarkBallot.Guest.Journal
import StarkBallot.Schemes.Collision

/-! The bitmaps that admission lets back in are those of the guest. A journal names the guest's two
    bitmaps by their roots and its tree size (`StatesBitmaps`), and admission recomputes the roots:

        guest       index_seen, included_bitmap ──root──▶ journal
                                                             ║ one root, one length
        candidate   seenBitmap, includedBitmap  ──root──▶ admitted root

    The zero padding of the last chunk and the promotion of odd nodes hide nothing once the lengths are
    equal, so two bitmaps under one root are equal bit for bit, or two different messages of their trees
    have one digest. -/

namespace StarkBallot.Application.BitmapValue
open Schemes ContractCore CryptoPrimitives ZkvmContract Domain Validation Guest

variable (noble : NobleUtils) (sha256 : List UInt8 → Bytes 32) {U : Type}

/-- The journal states the tree size and the bitmap roots of the output, the roots in any spelling. -/
structure StatesBitmaps (journal : CurrentZkVMJournal) (output : VerificationOutput) : Prop where
  treeSize : journal.treeSize = .ofNat output.treeSize
  seenBitmapRoot : Spells journal.seenBitmapRoot output.seenBitmapRoot.toList
  includedBitmapRoot : Spells journal.includedBitmapRoot output.includedBitmapRoot.toList

/-- The guest accepts the input: its output, and the variables of its loop at the end. -/
structure GuestRuns (input : AggregatorInput) (output : VerificationOutput) (s : TallyState) : Prop where
  returns : verifyAndTallyCheckedOutput sha256 input = .ok output
  ends : ∃ validated, ValidatedAggregatorInput.validate input = .ok validated ∧
    tallyLoop sha256 validated none = .ok s

/-- The messages hashed for the bitmaps of the guest and of the data. -/
def bindingMessages (s : TallyState) (data : FinalizationBitmapData) : List (List UInt8) :=
  bitmapMessages sha256 s.includedBitmap ++ bitmapMessages sha256 s.indexSeen ++
  bitmapMessages sha256 data.includedBitmap ++
    (data.seen.map fun seen => bitmapMessages sha256 seen.1).getD []

section Binding

variable {noble sha256} {record : SuccessfulFinalizationRecord U} {input : AggregatorInput}
  {output : VerificationOutput} {s : TallyState}

/-- What the journal names: both bitmaps of the guest have a bit for every vote, and
    their roots are its roots. -/
theorem GuestRuns.roots (h : GuestRuns sha256 input output s) :
    s.indexSeen.length = output.treeSize ∧ s.includedBitmap.length = output.treeSize ∧
      computeBitmapMerkleRoot sha256 s.indexSeen = output.seenBitmapRoot ∧
      computeBitmapMerkleRoot sha256 s.includedBitmap = output.includedBitmapRoot := by
  obtain ⟨validated, hvalidate, hloop⟩ := h.ends
  obtain ⟨_, digest, -, -, rfl⟩ := verifyAndTallyCheckedOutput_ok sha256 h.returns
  obtain ⟨s', hs', hrep⟩ := tallyLoop_represents sha256 (validate_admits hvalidate) none
  obtain rfl : s = s' := Except.ok.inj (hloop.symm.trans hs')
  rw [hrep.indexSeen, hrep.includedBitmap, marks_length, marks_length]
  exact ⟨rfl, rfl, rfl, rfl⟩

theorem GuestRuns.treeSize_lt (h : GuestRuns sha256 input output s) : output.treeSize < UInt32.size := by
  obtain ⟨_, digest, -, -, rfl⟩ := verifyAndTallyCheckedOutput_ok sha256 h.returns
  exact input.treeSize.toNat_lt

/-- SPEC: the root of a rooted bitmap is the root that the journal spells. -/
theorem Rooted.root_eq {journalRoot root : JsString} {treeSize : Num} {bitmap : List Bool} {b : Bytes 32}
    (h : Rooted sha256 journalRoot treeSize bitmap root) (hspells : Spells journalRoot b.toList) :
    computeBitmapMerkleRoot sha256 bitmap = b := by
  have hstated := h.stated
  rw [normalizeHex32_of_spells hspells, h.computed] at hstated
  exact (prefixed_injective (Option.some.inj hstated)).symm

/-- BINDING: where the digest is injective on the messages of both, a rooted bitmap is
    the bitmap of its root. -/
theorem Rooted.bitmap_eq {journalRoot root : JsString} {treeSize : Num} {bitmap guest : List Bool}
    {Q : Set (List UInt8)} (h : Rooted sha256 journalRoot treeSize bitmap root) (hQ : Set.InjOn sha256 Q)
    (hmem : ∀ m ∈ bitmapMessages sha256 bitmap, m ∈ Q) (hmem' : ∀ m ∈ bitmapMessages sha256 guest, m ∈ Q)
    (hspells : Spells journalRoot (computeBitmapMerkleRoot sha256 guest).toList)
    (hsize : treeSize = .ofNat guest.length) : bitmap = guest := by
  have hlength : bitmap.length = guest.length := by
    have heq := h.length_eq
    rw [hsize] at heq
    exact Nat.cast_injective (of_decide_eq_true heq)
  exact computeBitmapMerkleRoot_inj hQ hlength hmem hmem' (h.root_eq hspells)

/-- BINDING: admitted data has the guest's bitmaps, or the messages of the two contain a collision. -/
theorem Admitted.bitmaps_of_guest {data : FinalizationBitmapData} (h : Admitted sha256 record data)
    (hguest : GuestRuns sha256 input output s)
    (hstates : StatesBitmaps record.authority.journal output) :
    (data.includedBitmap = s.includedBitmap ∧ ∀ bitmap root, data.seen = some (bitmap, root) →
      bitmap = s.indexSeen) ∨
      Exhibits sha256 (findCollision sha256 (bindingMessages sha256 s data)) := by
  obtain ⟨hseenLength, hincludedLength, hseenRoot, hincludedRoot⟩ := hguest.roots
  refine (injOn_or_collision sha256 (bindingMessages sha256 s data)).imp_left fun hQ => ⟨?_, ?_⟩
  · refine h.included.bitmap_eq hQ (fun m hm => ?_) (fun m hm => ?_) ?_ ?_
    · exact List.mem_append_left _ (List.mem_append_right _ hm)
    · exact List.mem_append_left _ (List.mem_append_left _ (List.mem_append_left _ hm))
    · rw [hincludedRoot]
      exact hstates.includedBitmapRoot
    · rw [hincludedLength]
      exact hstates.treeSize
  · intro bitmap root hseen
    refine (h.seen bitmap root hseen).bitmap_eq hQ (fun m hm => ?_) (fun m hm => ?_) ?_ ?_
    · refine List.mem_append_right _ ?_
      rw [hseen]
      exact hm
    · exact List.mem_append_left _ (List.mem_append_left _ (List.mem_append_right _ hm))
    · rw [hseenRoot]
      exact hstates.seenBitmapRoot
    · rw [hseenLength]
      exact hstates.treeSize

/-- COMPLETE: the guest's own bitmaps are admitted to a record that carries no evidence yet. -/
theorem admitted_of_guest {finalizedAtMs : Num} (hguest : GuestRuns sha256 input output s)
    (hstates : StatesBitmaps record.authority.journal output)
    (hembedded : record.authority.artifacts.bitmap = none)
    (hfinalizedAtMs : isNonNegativeSafeInteger finalizedAtMs = true) :
    Admitted sha256 record ⟨s.includedBitmap, prefixed output.includedBitmapRoot,
      some (s.indexSeen, prefixed output.seenBitmapRoot), .ofNat output.treeSize, finalizedAtMs⟩ := by
  obtain ⟨hseenLength, hincludedLength, hseenRoot, hincludedRoot⟩ := hguest.roots
  have hlength :
      ∀ n, n = output.treeSize → (Num.ofNat n).eq record.authority.journal.treeSize = true := by
    rintro n rfl
    rw [hstates.treeSize, Num.ofNat_eq]
    exact decide_eq_true rfl
  have htreeSize : isNonNegativeSafeInteger (.ofNat output.treeSize) = true := by
    have hlt := hguest.treeSize_lt
    rw [isNonNegativeSafeInteger, Bool.and_eq_true, Num.ofNat_isSafeInteger, Num.ofNat_le]
    refine ⟨?_, decide_eq_true (Nat.zero_le _)⟩
    simp only [UInt32.size, Num.maxSafeInteger] at hlt ⊢
    omega
  refine ⟨accept_eq_some.mpr ⟨?_, rfl⟩, hlength _ rfl, ⟨?_, hlength _ hincludedLength, ?_⟩, ?_, ?_⟩
  · simp only [matchesBitmapRootPattern_prefixed, htreeSize, hfinalizedAtMs, Option.all_some,
      Bool.and_self]
  · exact normalizeHex32_of_spells hstates.includedBitmapRoot
  · rw [hincludedRoot]
  · intro bitmap root hseen
    obtain ⟨rfl, rfl⟩ := Prod.mk.inj (Option.some.inj hseen)
    exact ⟨normalizeHex32_of_spells hstates.seenBitmapRoot, hlength _ hseenLength, by rw [hseenRoot]⟩
  · rw [hembedded]
    rfl

end Binding

/-- EXACT: what admission lets back in are the guest's bitmaps, bit for bit, or a collision of the
    digest is exhibited; and whatever was admitted comes back as it is, however
    often it is stored and read. -/
theorem persisted_bitmaps_exact (record : SuccessfulFinalizationRecord U) :
    (∀ input output s, GuestRuns sha256 input output s → StatesBitmaps record.authority.journal output →
      ∀ candidate stored, admitPersistedFinalizationBitmapData noble sha256 record candidate =
        some stored →
        (stored.data.includedBitmap = s.includedBitmap ∧
          ∀ bitmap root, stored.data.seen = some (bitmap, root) → bitmap = s.indexSeen) ∨
        Exhibits sha256 (findCollision sha256 (bindingMessages sha256 s stored.data))) ∧
    (∀ value disposition, admitFinalizationBitmapDisposition noble sha256 record value = .ok
      disposition →
      (∀ throughJson, (fetched throughJson (dispositionValue disposition)).map
        (admitFinalizationBitmapDisposition noble sha256 record) = some (.ok disposition)) ∧
      ∀ data, disposition = some data → ∀ trips : List Bool,
        trips.foldlM (readAgain noble sha256 record) ⟨record.sessionId, record.finalizationId, data⟩ =
          some ⟨record.sessionId, record.finalizationId, data⟩) := by
  constructor
  · intro input output s hguest hstates candidate stored hstored
    obtain ⟨-, -, hadmitted⟩ := admitted_of_persisted hstored
    exact hadmitted.bitmaps_of_guest hguest hstates
  · intro value disposition h
    refine ⟨disposition_again h, ?_⟩
    rintro data rfl trips
    exact (admitted_of_disposition h).readings_eq trips

/-- A success whose journal is this output, with no evidence yet. -/
def sampleRecord (output : VerificationOutput) : SuccessfulFinalizationRecord Unit where
  sessionId := js "s"
  finalizationId := js "f"
  scenarioContext := quietContext
  queuedAtMs := .ofNat 1
  startedAtMs := .ofNat 2
  completedAtMs := .ofNat 3
  authority := {
    tally := ⟨output.verifiedTally.map .ofNat, .ofNat output.totalVotes, .ofNat 0⟩
    imageId := []
    journal := {
      electionId := js "5a5a5a5a-5a5a-5a5a-5a5a-5a5a5a5a5a5a"
      electionConfigHash := prefixed output.electionConfigHash
      bulletinRoot := prefixed output.bulletinRoot
      treeSize := .ofNat output.treeSize
      totalExpected := .ofNat output.totalExpected
      sthDigest := prefixed output.sthDigest
      verifiedTally := output.verifiedTally.map .ofNat
      totalVotes := .ofNat output.totalVotes
      validVotes := .ofNat output.validVotes
      invalidVotes := .ofNat output.invalidVotes
      seenIndicesCount := .ofNat output.seenIndicesCount
      missingSlots := .ofNat output.missingSlots
      invalidPresentedSlots := .ofNat output.invalidPresentedSlots
      rejectedRecords := .ofNat output.rejectedRecords
      seenBitmapRoot := prefixed output.seenBitmapRoot
      includedBitmapRoot := prefixed output.includedBitmapRoot
      excludedSlots := .ofNat output.excludedSlots
      inputCommitment := prefixed output.inputCommitment
      methodVersion := .ofNat output.methodVersion
      imageId := none }
    tamperDetected := none
    scenarios := none
    tamperSummary := none
    artifacts := ⟨none, none, none, none⟩ }

theorem sampleRecord_states (output : VerificationOutput) :
    StatesBitmaps (sampleRecord output).authority.journal output :=
  ⟨rfl, prefixed_spells output.seenBitmapRoot.toList, prefixed_spells output.includedBitmapRoot.toList⟩

/-- The guest runs on an input that it admits. -/
theorem guestRuns_of_admitted {input : AggregatorInput}
    (h : (ValidatedAggregatorInput.validate input).isOk = true) :
    ∃ output s, GuestRuns sha256 input output s := by
  obtain ⟨inspection, -, hreturns⟩ := verifyAndTallyChecked_of_admitted sha256 h
  obtain ⟨validated, hvalidate⟩ := exists_of_isOk h
  obtain ⟨s, hloop, -⟩ := tallyLoop_represents sha256 (validate_admits hvalidate) none
  exact ⟨inspection.output, s, hreturns, validated, hvalidate, hloop⟩

/-- The bitmaps of a run on one vote, stored and read back twice. -/
theorem persisted_bitmaps_on_sample : ∃ output s candidate stored,
    GuestRuns Sha256.digest (Guest.sampleInput [Guest.sampleVote]) output s ∧
    admitPersistedFinalizationBitmapData .reference Sha256.digest (sampleRecord output) candidate =
      some stored ∧
    ((stored.data.includedBitmap = s.includedBitmap ∧
        ∀ bitmap root, stored.data.seen = some (bitmap, root) → bitmap = s.indexSeen) ∨
      Exhibits Sha256.digest
        (findCollision Sha256.digest (bindingMessages Sha256.digest s stored.data))) ∧
    [true, false].foldlM (readAgain .reference Sha256.digest (sampleRecord output)) stored =
      some stored := by
  obtain ⟨output, s, hguest⟩ := guestRuns_of_admitted Sha256.digest Guest.sampleInput_admitted
  have hadmitted := admitted_of_guest hguest (sampleRecord_states output) rfl
    (show isNonNegativeSafeInteger (.ofNat 5) = true by decide)
  obtain ⟨hbinding, hreadBack⟩ := persisted_bitmaps_exact .reference Sha256.digest (sampleRecord output)
  have hstored :
      admitPersistedFinalizationBitmapData .reference Sha256.digest (sampleRecord output) _ = some _ :=
    hadmitted.persisted_again
  obtain ⟨-, htrips⟩ := hreadBack _ _ hadmitted.disposition_again
  exact ⟨output, s, _, _, hguest, hstored,
    hbinding _ output s hguest (sampleRecord_states output) _ _ hstored, htrips _ rfl [true, false]⟩

end StarkBallot.Application.BitmapValue
