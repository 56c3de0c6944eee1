import StarkBallot.Verification.CountedAsCast
import StarkBallot.ZkvmContract.BitmapArtifacts

/-! The evidence of the voter's slot (`apps/api/src/server/api/handlers/bitmapProof.ts`,
    `adapters/verificationEvidence.ts`), from the host's files to what the voter is told:

        files ──▶ bitmap data ──root is the journal's──▶ proof of one bit ──▶ check of the slot
                                                                                │
        guest:  accepted, presented only, or not presented  ◀───────────────────┘ says so

    The server's own proofs make the check say what the guest did with the slot; and no proofs of anyone
    make it say anything else, or two hashed messages collide. -/

namespace StarkBallot.Api
open Schemes Application Domain CryptoPrimitives ZkvmContract Verification Guest
open ContractCore (AggregatorInput VoteWithProof bitmapMessages computeBitmapMerkleRoot)
open BitmapArtifacts (bitmapFiles seenBitmapOf runBitmapData)

variable (noble : NobleUtils) (sha256 : List UInt8 → Bytes 32)

/-! ### The handler -/

inductive BitmapKind where
  | included | seen
  deriving DecidableEq

def BitmapKind.text : BitmapKind → String
  | .included => "included"
  | .seen => "seen"

def hasMatchingBitmapRoot (bitmap : List Bool) (storedRoot journalRoot : JsString)
    (treeSize journalTreeSize : Num) :
    JsM Bool :=
  if storedRoot = [] ∨ journalRoot = [] then .ok false
  else if !treeSize.eq journalTreeSize || !(Num.ofNat bitmap.length).eq treeSize then .ok false
  else do
    let normalizedComputed := normalizeHexString (← computeIncludedBitmapRoot noble sha256 bitmap)
    return normalizedComputed = normalizeHexString storedRoot &&
      normalizedComputed = normalizeHexString journalRoot

inductive BitmapProofResolution where
  | ok (response : BitmapProofResponse)
  | refused (message : String)

def storedBitmap (bitmapData : FinalizationBitmapData) : BitmapKind → Option (List Bool × JsString)
  | .included => some (bitmapData.includedBitmap, bitmapData.includedBitmapRoot)
  | .seen => bitmapData.seen

def journalRoot (journal : CurrentZkVMJournal) : BitmapKind → JsString
  | .included => journal.includedBitmapRoot
  | .seen => journal.seenBitmapRoot

def resolveBitmapProofResponse (bitmapData : FinalizationBitmapData)
    (journal : CurrentZkVMJournal) (index : ℕ) (kind : BitmapKind) : JsM BitmapProofResolution :=
  if bitmapData.treeSize.le (.ofNat index) then
    let last := bitmapData.treeSize.sub (.ofNat 1)
    .ok (.refused s!"Index {index} is out of range (0-{last.toText})")
  else
    match storedBitmap bitmapData kind with
    | none => .ok (.refused ("Bitmap data not found for kind '" ++ kind.text ++ "'."))
    | some (bitmap, storedRoot) => do
      if !(← hasMatchingBitmapRoot noble sha256 bitmap storedRoot (journalRoot journal kind)
          bitmapData.treeSize journal.treeSize) then
        return .refused ("Bitmap root mismatch for kind '" ++ kind.text ++ "'.")
      else
        let proof ← generateBitmapMerkleProof noble sha256 bitmap index
        return .ok ⟨proof.leafChunk, proof.auditPath⟩

/-! ### Acquisition -/

/-- The journal always names a seen root, so the seen proof is always asked for. -/
structure BitmapProofEvidence where
  included : EvidenceAcquisition BitmapProofResponse
  seen : EvidenceAcquisition BitmapProofResponse

/-- One answer for both kinds. -/
def BitmapProofEvidence.both (evidence : EvidenceAcquisition BitmapProofResponse) :
    BitmapProofEvidence :=
  ⟨evidence, evidence⟩

def acquireKind (bitmapData : FinalizationBitmapData) (journal : CurrentZkVMJournal) (bitIndex : ℕ)
    (kind : BitmapKind) : JsM (EvidenceAcquisition BitmapProofResponse) := do
  match ← resolveBitmapProofResponse noble sha256 bitmapData journal bitIndex kind with
  | .ok response => return .admitted response
  | .refused message => return .malformed (some message)

def acquireAdmitted (bitmapData : FinalizationBitmapData) (journal : CurrentZkVMJournal) (bitIndex : ℕ) :
    JsM BitmapProofEvidence := do
  return ⟨← acquireKind noble sha256 bitmapData journal bitIndex .included,
    ← acquireKind noble sha256 bitmapData journal bitIndex .seen⟩

/-- `getBitmapData` is what the store answers: a record, `null`, or what it throws. -/
def acquireBitmapProofEvidence (getBitmapData : JsM (Option FinalizationBitmapData))
    (journal : CurrentZkVMJournal) (voteIndex : Option Num) : JsM BitmapProofEvidence :=
  match voteIndex with
  | none =>
    .ok (.both (.unavailable (some "Bitmap proof evidence is unavailable without a user vote index.")))
  | some voteIndex =>
    match asBitmapBitIndex voteIndex with
    | .error _ => .ok (.both (.malformed (some "Bitmap proof vote index is invalid.")))
    | .ok bitIndex =>
      match getBitmapData with
      | .error error =>
        .ok (.both (.transportFailed (some ("Bitmap proof acquisition failed: " ++ errorMessage error))))
      | .ok none => .ok (.both (.unavailable (some "Bitmap proof data is unavailable.")))
      | .ok (some bitmapData) => acquireAdmitted noble sha256 bitmapData journal bitIndex.1

/-! ### What the guest did with a slot -/

/-- Accepted, presented without being accepted, or not presented. -/
def slotStatus (run : AggregatorInput) (inspection : GuestTallyInspection) (index : ℕ) :
    VoteInclusionStatus :=
  if ∃ vote ∈ acceptedRecords run inspection, vote.index.toNat = index then .counted
  else if ∃ vote ∈ run.votes, vote.index.toNat = index then .presentedButInvalid
  else .notPresented

/-- What the check of the slot says of a status that the proofs establish. -/
def slotCheck : VoteInclusionStatus → CheckResult
  | .counted => .success
  | .presentedButInvalid => .failed none (some .presentedButInvalid)
  | .notPresented => .failed none (some .notPresented)
  | .unknownExcluded => .failed none (some .excluded)

section Slots

variable {noble sha256} {run : AggregatorInput} {inspection : GuestTallyInspection} {index : ℕ}

/-- A slot of the tree is seen as soon as a record names it. -/
theorem mem_seenSlots_replay (hindex : index < run.treeSize.toNat) (votes : List VoteWithProof) :
    index ∈ seenSlots (replay (verdict sha256 run) votes) ↔ ∃ vote ∈ votes, slot vote = index := by
  induction votes using List.reverseRecOn with
  | nil => simp [seenSlots]
  | append_singleton votes vote ih =>
    rw [replay_concat, seenSlots_concat]
    by_cases hmark :
      GuestVoteInspection.marksSlot (verdict sha256 run (replay (verdict sha256 run) votes) vote) = true
    · rw [if_pos hmark, List.mem_append, ih, List.mem_singleton, @eq_comm _ index]
      simp only [List.mem_append, List.mem_singleton, or_and_right, exists_or, exists_eq_left]
    · rw [if_neg hmark, ih]
      constructor
      · rintro ⟨named, hnamed, hslot⟩
        exact ⟨named, List.mem_append_left _ hnamed, hslot⟩
      · rintro ⟨named, hnamed, hslot⟩
        rcases List.mem_append.mp hnamed with hnamed | hnamed
        · exact ⟨named, hnamed, hslot⟩
        · -- the last record did not mark its slot, so another one had named it
          obtain rfl := List.mem_singleton.mp hnamed
          rw [marksSlot_verdict, not_and, not_not, hslot] at hmark
          exact ih.mp (hmark hindex)

theorem seenBit_iff (hindex : index < run.treeSize.toNat) :
    (seenBitmapOf sha256 run)[index]? = some true ↔ ∃ vote ∈ run.votes, vote.index.toNat = index := by
  exact (marks_eq_true (seenSlots_lt sha256 run.votes)).trans (mem_seenSlots_replay hindex run.votes)

theorem includedBit_iff (hrun : verifyAndTallyChecked sha256 run = .ok inspection) :
    (includedBitmapOf sha256 run)[index]? = some true ↔
      ∃ vote ∈ acceptedRecords run inspection, vote.index.toNat = index := by
  obtain ⟨_, digest, -, -, -, hinspection⟩ := verifyAndTallyChecked_ok sha256 hrun
  rw [acceptedRecords_eq (by rw [hinspection])]
  exact (marks_eq_true (includedSlots_lt sha256 run.votes)).trans List.mem_map

/-- SPEC: the two bits of a slot tell what the guest did with it. -/
theorem slotStatus_eq (hrun : verifyAndTallyChecked sha256 run = .ok inspection)
    (hindex : index < run.treeSize.toNat) {included seen : Bool}
    (hincluded : (includedBitmapOf sha256 run)[index]? = some included)
    (hseen : (seenBitmapOf sha256 run)[index]? = some seen) :
    slotStatus run inspection index =
      if included then .counted else if seen then .presentedButInvalid else .notPresented := by
  have haccepted := @includedBit_iff sha256 run inspection index hrun
  have hnamed := @seenBit_iff sha256 run index hindex
  rw [hincluded, Option.some.injEq] at haccepted
  rw [hseen, Option.some.injEq] at hnamed
  rw [slotStatus]
  simp only [← haccepted, ← hnamed]

end Slots

/-! ### One bit -/

section Bits

variable {noble sha256} {bitmap : List Bool} {index : ℕ}

theorem journal_treeSize_positive {n : ℕ} (hpos : 0 < n) (hlt : n < 4294967296) :
    admitBitmapTreeSize (some (.ofNat n)) = some (.ofNat n) := by
  have hsafe : n ≤ Num.maxSafeInteger := hlt.le.trans (by decide)
  have hbranded : (asAuthenticatedBitmapTreeSize (.ofNat n)).isOk = true := by
    rw [asAuthenticatedBitmapTreeSize, dif_pos]
    · rfl
    · refine ⟨Num.ofNat_isSafeInteger.mpr hsafe, ?_⟩
      rw [Num.ofNat_le]
      exact decide_eq_false (by omega)
  rw [admitBitmapTreeSize, Option.filter_some, if_pos hbranded]

/-- COMPLETE: what the server resolves for a bit verifies and shows the bit. -/
theorem resolved_bit_shown (hlt : bitmap.length < 4294967296) (hindex : index < bitmap.length) :
    ∃ response, (do
        let proof ← generateBitmapMerkleProof noble sha256 bitmap index
        return BitmapProofResolution.ok ⟨proof.leafChunk, proof.auditPath⟩) = .ok (.ok response) ∧
      ∃ leafIndex bitOffset, verifyAdmittedBitmapProof noble sha256 (.ofNat index)
        (prefixed (computeBitmapMerkleRoot sha256 bitmap)) response (.ofNat bitmap.length) =
          .ok ⟨true, bitmap[index], leafIndex, bitOffset⟩ := by
  rw [generateBitmapMerkleProof_trail noble sha256 hindex, ok_bind]
  refine ⟨_, rfl, index / 256, index % 256, ?_⟩
  rw [verifyAdmittedBitmapProof_eq hlt hindex]
  exact verifyBitmapMerkleProof_trail noble sha256 ⟨bitmap, hlt⟩ hindex

/-- A proof that verifies is one of a bit that is there. -/
theorem index_lt_of_verified {root : JsString} {treeSize : ℕ} {proof : BitmapProofResponse}
    {result : BitmapVerificationResult}
    (h : verifyAdmittedBitmapProof noble sha256 (.ofNat index) root proof (.ofNat treeSize) = .ok result)
    (hvalid : result.valid = true) : index < treeSize := by
  obtain ⟨_, -, h⟩ := bind_eq_ok.mp h
  obtain ⟨_, -, h⟩ := bind_eq_ok.mp h
  unfold verifyBitmapProof at h
  split at h
  · obtain rfl := Except.ok.inj h
    cases hvalid
  · rename_i context hcontext
    obtain ⟨hshape, -⟩ := verifyBitmapMerkleProof_valid noble sha256 h hvalid
    obtain ⟨bit, hbit, hcontext⟩ := bind_eq_ok.mp hcontext
    obtain ⟨size, hsize, hcontext⟩ := bind_eq_ok.mp hcontext
    obtain ⟨_, -, hcontext⟩ := bind_eq_ok.mp hcontext
    have hbitValue : bit.1 = index := by
      unfold asBitmapBitIndex at hbit
      split at hbit
      · have hvalue := congrArg Subtype.val (Except.ok.inj hbit)
        exact hvalue.symm.trans Num.ofNat_toNat
      · cases hbit
    have hsizeValue : size.1 = treeSize := by
      unfold asAuthenticatedBitmapTreeSize at hsize
      split at hsize
      · have hvalue := congrArg Subtype.val (Except.ok.inj hsize)
        exact hvalue.symm.trans Num.ofNat_toNat
      · cases hsize
    rw [← Except.ok.inj hcontext] at hshape
    unfold isValidAuthenticatedTreeShape at hshape
    split at hshape
    · cases hshape
    split at hshape
    · cases hshape
    · rename_i hrange
      dsimp only at hrange
      omega

end Bits

/-! ### The check of the slot -/

section Checks

variable {noble sha256} {run : AggregatorInput} {inspection : GuestTallyInspection}
  {imageId : Option (Bytes 32)} {index : ℕ} {input : VerificationEvaluationInput}

/-- The check is asked for the slot at an index, with the journal of a run. -/
structure AsksForSlot (input : VerificationEvaluationInput) (journal : CurrentZkVMJournal) (index : ℕ) :
    Prop where
  journal : input.journal = some journal
  index : input.voteReceipt.map (·.bulletinIndex) = some (.ofNat index)
  source : input.bitmapProofSource.isSome = true

def bitmapOf (sha256 : List UInt8 → Bytes 32) (run : AggregatorInput) : BitmapKind → List Bool
  | .included => includedBitmapOf sha256 run
  | .seen => seenBitmapOf sha256 run

theorem bitmapOf_length (kind : BitmapKind) :
    (bitmapOf sha256 run kind).length = run.treeSize.toNat := by
  cases kind
  · exact marks_length ..
  · exact marks_length ..

theorem journalRoot_of_run (hrun : verifyAndTallyChecked sha256 run = .ok inspection)
    (kind : BitmapKind) :
    journalRoot (HostOutput.hostJournal inspection.output imageId) kind =
      prefixed (computeBitmapMerkleRoot sha256 (bitmapOf sha256 run kind)) := by
  obtain ⟨-, hseen, hincluded⟩ := BitmapArtifacts.roots_of_run hrun
  cases kind
  · exact congrArg prefixed hincluded
  · exact congrArg prefixed hseen

theorem treeSize_pos_of_run (hrun : verifyAndTallyChecked sha256 run = .ok inspection) :
    0 < run.treeSize.toNat := by
  obtain ⟨_, digest, hadmits, -⟩ := verifyAndTallyChecked_ok sha256 hrun
  exact hadmits.budget.treeSize_pos

theorem treeSize_of_run (hrun : verifyAndTallyChecked sha256 run = .ok inspection) :
    (HostOutput.hostJournal inspection.output imageId).treeSize = .ofNat run.treeSize.toNat :=
  congrArg Num.ofNat (BitmapArtifacts.roots_of_run hrun).1

/-- COMPLETE: for a slot of the tree the evidence of both kinds is acquired, and each shows its bit. -/
theorem acquireKind_of_run (hrun : verifyAndTallyChecked sha256 run = .ok inspection) (now : Num)
    (hindex : index < run.treeSize.toNat) (kind : BitmapKind) :
    ∃ response, acquireKind noble sha256 (runBitmapData sha256 run now)
        (HostOutput.hostJournal inspection.output imageId) index kind = .ok (.admitted response) ∧
      ∃ bit leafIndex bitOffset, (bitmapOf sha256 run kind)[index]? = some bit ∧
        verifyAdmittedBitmapProof noble sha256 (.ofNat index)
          (journalRoot (HostOutput.hostJournal inspection.output imageId) kind) response
            (.ofNat run.treeSize.toNat) = .ok ⟨true, bit, leafIndex, bitOffset⟩ := by
  have hlength := @bitmapOf_length sha256 run kind
  have hlt : (bitmapOf sha256 run kind).length < 4294967296 := hlength ▸ run.treeSize.toNat_lt
  have hbit : index < (bitmapOf sha256 run kind).length := hlength ▸ hindex
  obtain ⟨response, hresolved, leafIndex, bitOffset, hshown⟩ :=
    @resolved_bit_shown noble sha256 _ _ hlt hbit
  have hroot := @journalRoot_of_run sha256 run inspection imageId hrun kind
  have hsize := @treeSize_of_run sha256 run inspection imageId hrun
  have hstored : storedBitmap (runBitmapData sha256 run now) kind = some (bitmapOf sha256 run kind,
      prefixed (computeBitmapMerkleRoot sha256 (bitmapOf sha256 run kind))) := by
    cases kind
    · rfl
    · rfl
  have hdata : (runBitmapData sha256 run now).treeSize = .ofNat run.treeSize.toNat := rfl
  have hne :
      prefixed (computeBitmapMerkleRoot sha256 (bitmapOf sha256 run kind)) ≠ [] := by simp [prefixed, js]
  have hmatching : hasMatchingBitmapRoot noble sha256 (bitmapOf sha256 run kind)
      (prefixed (computeBitmapMerkleRoot sha256 (bitmapOf sha256 run kind)))
      (prefixed (computeBitmapMerkleRoot sha256 (bitmapOf sha256 run kind))) (.ofNat run.treeSize.toNat)
      (.ofNat run.treeSize.toNat) = .ok true := by
    rw [hasMatchingBitmapRoot, if_neg (by simp [hne]), if_neg (by simp [hlength]),
      computeIncludedBitmapRoot_eq, ok_bind]
    simp [pure, Except.pure]
  refine ⟨response, ?_, (bitmapOf sha256 run kind)[index], leafIndex, bitOffset,
    List.getElem?_eq_getElem hbit, ?_⟩
  · have hrange : ¬ (Num.ofNat run.treeSize.toNat).le (.ofNat index) = true := by
      rw [Num.ofNat_le, decide_eq_true_eq]
      omega
    rw [acquireKind, resolveBitmapProofResponse, hdata, if_neg hrange, hstored]
    simp only [hroot, hsize, hmatching, ok_bind, Bool.not_true, Bool.false_eq_true, if_false]
    rw [hresolved]
    rfl
  · rw [hroot, ← hlength]
    exact hshown

/-- What the check makes of the verifier's answer. -/
def explained (input : VerificationEvaluationInput) : JsM VoteInclusionResult → CheckResult
  | .ok result => projectMyVoteProofResult result
  | .error _ => unresolvedMyVoteCheck input

/-- The check with the journal of a run is the explanation of the two proofs. -/
theorem resolveCountedMyVoteIncluded_of_run (hrun : verifyAndTallyChecked sha256 run = .ok inspection)
    (h : AsksForSlot input (HostOutput.hostJournal inspection.output imageId) index) :
    resolveCountedMyVoteIncluded noble sha256 input none =
      (input.includedBitmapProof.getD (.unavailable none)).admitted?.elim (unresolvedMyVoteCheck input)
        fun includedProof => explained input (explainVoteInclusionStatus noble sha256 (.ofNat index)
          (prefixed (computeBitmapMerkleRoot sha256 (includedBitmapOf sha256 run)))
          (prefixed (computeBitmapMerkleRoot sha256 (seenBitmapOf sha256 run))) includedProof
          (input.seenBitmapProof.getD (.unavailable none)).admitted? (.ofNat run.treeSize.toNat)) := by
  have hne (b : Bytes 32) : prefixed b ≠ [] := by simp [prefixed, js]
  have hincluded : resolvedIncludedBitmapRoot input =
      some (prefixed (computeBitmapMerkleRoot sha256 (includedBitmapOf sha256 run))) := by
    rw [resolvedIncludedBitmapRoot, h.journal]
    exact nonEmptyText_eq_some.mpr ⟨congrArg some (journalRoot_of_run hrun .included), hne _⟩
  have hseen : resolvedSeenBitmapRoot input =
      some (prefixed (computeBitmapMerkleRoot sha256 (seenBitmapOf sha256 run))) := by
    rw [resolvedSeenBitmapRoot, h.journal]
    exact nonEmptyText_eq_some.mpr ⟨congrArg some (journalRoot_of_run hrun .seen), hne _⟩
  have hposition : bitmapReceiptPosition input.voteReceipt = some (.ofNat index) := by
    rw [bitmapReceiptPosition, h.index, Option.filter_some, if_pos Num.ofNat_isInteger]
  have hsize : admitBitmapTreeSize ((input.journal.map (·.treeSize)).or input.treeSize) =
      some (.ofNat run.treeSize.toNat) := by
    rw [h.journal, Option.map_some, Option.some_or, treeSize_of_run hrun]
    exact journal_treeSize_positive (treeSize_pos_of_run hrun) run.treeSize.toNat_lt
  obtain ⟨source, hsource⟩ := Option.isSome_iff_exists.mp h.source
  rw [resolveCountedMyVoteIncluded, gated, hincluded, hposition, hsize, hsource]
  cases (input.includedBitmapProof.getD (.unavailable none)).admitted? with
  | none => rfl
  | some includedProof =>
    simp only [evaluateMyVoteBitmapProof, hseen]
    rfl

theorem slotCheck_injective : Function.Injective slotCheck := by
  intro status status' h
  cases status <;> cases status' <;> first | rfl | cases h

/-- A verified answer is projected to what its status says. -/
theorem projectMyVoteProofResult_status (included : Bool) {status : VoteInclusionStatus}
    (h : included = true ↔ status = .counted) :
    projectMyVoteProofResult ⟨true, included, some status⟩ = slotCheck status := by
  cases included <;> cases status <;> first | rfl | simp at h

/-- COMPLETE: two proofs that show their bits make the check say what the bits say. -/
theorem explained_of_shown {includedRoot seenRoot : JsString}
    {includedProof seenProof : BitmapProofResponse} {treeSize : Num} {included seen : Bool}
    {leafIndex bitOffset leafIndex' bitOffset' : ℕ} (hroot : seenRoot ≠ [])
    (hincluded : verifyAdmittedBitmapProof noble sha256 (.ofNat index) includedRoot includedProof
      treeSize = .ok ⟨true, included, leafIndex, bitOffset⟩)
    (hseen : verifyAdmittedBitmapProof noble sha256 (.ofNat index) seenRoot seenProof treeSize =
      .ok ⟨true, seen, leafIndex', bitOffset'⟩) :
    explained input
      (explainVoteInclusionStatus noble sha256 (.ofNat index) includedRoot seenRoot includedProof
      (some seenProof) treeSize) =
        slotCheck (if included then .counted else if seen then .presentedButInvalid
          else .notPresented) := by
  rw [explainVoteInclusionStatus, verifyMyVoteWasCounted, hincluded]
  cases included
  · simp only [ok_bind, pure, Except.pure, if_neg hroot, hseen]
    refine projectMyVoteProofResult_status false ?_
    cases seen <;> simp
  · exact projectMyVoteProofResult_status true (by simp)

/-- What a check that says one of the three things rests on. -/
theorem shown_of_explained {includedRoot seenRoot : JsString} {includedProof : BitmapProofResponse}
    {seenProof : Option BitmapProofResponse} {treeSize : Num} {status : VoteInclusionStatus}
    (hstatus : status ≠ .unknownExcluded)
    (h : explained input (explainVoteInclusionStatus noble sha256 (.ofNat index) includedRoot seenRoot
      includedProof seenProof treeSize) = slotCheck status) :
    ∃ includedResult, verifyAdmittedBitmapProof noble sha256 (.ofNat index) includedRoot
        includedProof treeSize = .ok includedResult ∧ includedResult.valid = true ∧
      ((includedResult.included = true ∧ status = .counted) ∨ (includedResult.included = false ∧
        ∃ proof seenResult, seenProof = some proof ∧
          verifyAdmittedBitmapProof noble sha256 (.ofNat index) seenRoot proof treeSize = .ok
            seenResult ∧
          seenResult.valid = true ∧
          status = if seenResult.included then .presentedButInvalid else .notPresented)) := by
  cases hresult :
      explainVoteInclusionStatus noble sha256 (.ofNat index) includedRoot seenRoot
        includedProof seenProof treeSize with
  | error error =>
    rw [hresult] at h
    cases status <;> cases h
  | ok result =>
    rw [hresult] at h
    obtain ⟨plain, hplain, hresult⟩ := bind_eq_ok.mp hresult
    obtain ⟨includedResult, hincluded, hplain⟩ := bind_eq_ok.mp hplain
    obtain rfl := Except.ok.inj hplain
    refine ⟨includedResult, hincluded, ?_⟩
    have hproject : projectMyVoteProofResult result = slotCheck status := h
    split at hresult
    · rename_i hinvalid
      obtain rfl := Except.ok.inj hresult
      rw [projectMyVoteProofResult, if_pos hinvalid] at hproject
      cases status <;> cases hproject
    rename_i hvalid
    have hshown : includedResult.valid = true := by simpa using hvalid
    refine ⟨hshown, ?_⟩
    rw [hshown] at hresult
    -- the status that the answer carries is the one that the check shows
    have hcarried (included : Bool) (carried : VoteInclusionStatus)
        (hbit : included = true ↔ carried = .counted)
        (hanswer : result = ⟨true, included, some carried⟩) : carried = status := by
      rw [hanswer, projectMyVoteProofResult_status included hbit] at hproject
      exact slotCheck_injective hproject
    split at hresult
    · rename_i hbit
      have hbit' : includedResult.included = true := hbit
      refine .inl ⟨hbit', (hcarried true .counted (by simp) ?_).symm⟩
      rw [← Except.ok.inj hresult, hbit']
    rename_i hbit
    have hbit' : includedResult.included = false := Bool.eq_false_of_not_eq_true hbit
    rw [hbit'] at hresult
    refine .inr ⟨hbit', ?_⟩
    split at hresult
    · exact absurd (hcarried false .unknownExcluded (by simp) (Except.ok.inj hresult).symm).symm hstatus
    cases seenProof with
    | none =>
      exact absurd (hcarried false .unknownExcluded (by simp) (Except.ok.inj hresult).symm).symm hstatus
    | some proof =>
      obtain ⟨seenResult, hseen, hresult⟩ := bind_eq_ok.mp hresult
      refine ⟨proof, seenResult, rfl, hseen, ?_⟩
      cases hseenValid : seenResult.valid with
      | false =>
        rw [hseenValid] at hresult
        exact absurd
          (hcarried false .unknownExcluded (by simp) (Except.ok.inj hresult).symm).symm hstatus
      | true =>
        rw [hseenValid] at hresult
        refine ⟨rfl, (hcarried false _ ?_ (Except.ok.inj hresult).symm).symm⟩
        cases seenResult.included <;> simp

end Checks

/-! ### The voter's slot -/

/-- The proof of the seen bit of the voter's slot. -/
def seenSlotMessages (input : VerificationEvaluationInput) : List (List UInt8) :=
  match (input.seenBitmapProof.getD (.unavailable none)).admitted? with
  | some proof => proofMessages noble sha256 proof.leafChunk proof.auditPath
  | none => []

/-- What is hashed for the two proofs and for the two bitmaps. -/
def slotEvidenceMessages (input : VerificationEvaluationInput) (run : AggregatorInput) :
    List (List UInt8) :=
  [slotMessages noble sha256 input, seenSlotMessages noble sha256 input,
    bitmapMessages sha256 (includedBitmapOf sha256 run),
    bitmapMessages sha256 (seenBitmapOf sha256 run)].flatten

section Exact

variable {noble sha256} {run : AggregatorInput} {inspection : GuestTallyInspection}
  {imageId : Option (Bytes 32)} {index : ℕ} {input : VerificationEvaluationInput}

/-- A closed gate says none of the things that the proofs say. -/
theorem gate_open_of_slotCheck {zkGateStatus : Option VerificationStepStatus}
    (hgate : zkGateStatus ≠ some .success) {status : VoteInclusionStatus}
    (h : resolveCountedMyVoteIncluded noble sha256 input zkGateStatus = slotCheck status) :
    resolveCountedMyVoteIncluded noble sha256 input none = slotCheck status := by
  cases zkGateStatus with
  | none => exact h
  | some gate =>
    rw [resolveCountedMyVoteIncluded, gated] at h
    cases gate <;> cases status <;> first | exact absurd rfl hgate | cases h

/-- The evidence of a slot that the server acquires. -/
theorem acquired_of_run (hrun : verifyAndTallyChecked sha256 run = .ok inspection) (now : Num)
    (hindex : index < run.treeSize.toNat) :
    ∃ evidence, acquireBitmapProofEvidence noble sha256 (.ok (some (runBitmapData sha256 run now)))
        (HostOutput.hostJournal inspection.output imageId) (some (.ofNat index)) = .ok evidence ∧
      ∀ input, AsksForSlot input (HostOutput.hostJournal inspection.output imageId) index →
        input.includedBitmapProof = some evidence.included → input.seenBitmapProof = some evidence.seen →
        resolveCountedMyVoteIncluded noble sha256 input none =
          slotCheck (slotStatus run inspection index) := by
  obtain ⟨included, hincluded, bit, leafIndex, bitOffset, hbit, hshown⟩ :=
    @acquireKind_of_run noble sha256 run inspection imageId index hrun now hindex .included
  obtain ⟨seen, hseen, bit', leafIndex', bitOffset', hbit', hshown'⟩ :=
    @acquireKind_of_run noble sha256 run inspection imageId index hrun now hindex .seen
  have hbranded : ∃ branded, asBitmapBitIndex (.ofNat index) = .ok branded ∧ branded.1 = index := by
    have hsafe : index ≤ Num.maxSafeInteger := (hindex.trans run.treeSize.toNat_lt).le.trans (by decide)
    refine ⟨⟨(Num.ofNat index).toNat, by simpa using hsafe⟩, ?_, Num.ofNat_toNat⟩
    rw [asBitmapBitIndex, dif_pos ⟨Num.ofNat_isSafeInteger.mpr hsafe, by simp⟩]
  obtain ⟨branded, hbranded, hvalue⟩ := hbranded
  refine ⟨⟨.admitted included, .admitted seen⟩, ?_, ?_⟩
  · simp only [acquireBitmapProofEvidence, hbranded, acquireAdmitted, hvalue, hincluded, hseen, ok_bind]
    rfl
  · intro input hasks hincludedProof hseenProof
    rw [resolveCountedMyVoteIncluded_of_run hrun hasks, hincludedProof, hseenProof,
      slotStatus_eq hrun hindex hbit hbit']
    rw [journalRoot_of_run hrun] at hshown hshown'
    have hne :
        prefixed (computeBitmapMerkleRoot sha256 (seenBitmapOf sha256 run)) ≠ [] := by
          simp [prefixed, js]
    exact explained_of_shown hne hshown hshown'

theorem status_of_slotCheck (hrun : verifyAndTallyChecked sha256 run = .ok inspection)
    (hasks : AsksForSlot input (HostOutput.hostJournal inspection.output imageId) index)
    {status : VoteInclusionStatus} (hstatus : status ≠ .unknownExcluded) {Q : Set (List UInt8)}
    (hQ : Set.InjOn sha256 Q) (hmem : ∀ m ∈ slotEvidenceMessages noble sha256 input run, m ∈ Q)
    (h : resolveCountedMyVoteIncluded noble sha256 input none = slotCheck status) :
    status = slotStatus run inspection index := by
  rw [resolveCountedMyVoteIncluded_of_run hrun hasks] at h
  have hpart (part : List (List UInt8)) (hlisted : part ∈ [slotMessages noble sha256 input,
      seenSlotMessages noble sha256 input, bitmapMessages sha256 (includedBitmapOf sha256 run),
      bitmapMessages sha256 (seenBitmapOf sha256 run)]) : ∀ m ∈ part, m ∈ Q :=
    fun m hm => hmem m (List.mem_flatten.mpr ⟨part, hlisted, hm⟩)
  have hincludedMem := hpart (slotMessages noble sha256 input) (by simp)
  have hseenMem := hpart (seenSlotMessages noble sha256 input) (by simp)
  rw [slotMessages] at hincludedMem
  rw [seenSlotMessages] at hseenMem
  cases hproof : (input.includedBitmapProof.getD (.unavailable none)).admitted? with
  | none =>
    rw [hproof] at h
    cases status <;> cases h
  | some includedProof =>
    rw [hproof] at h hincludedMem
    obtain ⟨includedResult, hincluded, hvalid, hcases⟩ := shown_of_explained hstatus h
    have hindex := index_lt_of_verified hincluded hvalid
    have hlength (kind : BitmapKind) := @bitmapOf_length sha256 run kind
    have hlt (kind : BitmapKind) : (bitmapOf sha256 run kind).length < 4294967296 :=
      (hlength kind) ▸ run.treeSize.toNat_lt
    have hbits (kind : BitmapKind) : index < (bitmapOf sha256 run kind).length := (hlength kind) ▸ hindex
    have hincludedLength : (includedBitmapOf sha256 run).length = run.treeSize.toNat := hlength .included
    have hseenLength : (seenBitmapOf sha256 run).length = run.treeSize.toNat := hlength .seen
    rw [← hincludedLength] at hincluded
    have hbit := verified_bit_shown hQ (hlt .included) (hbits .included)
      (hpart (bitmapMessages sha256 (includedBitmapOf sha256 run)) (by simp)) hincludedMem
        hincluded hvalid
    rcases hcases with ⟨hset, rfl⟩ | ⟨hunset, proof, seenResult, hseenProof, hseen, hseenValid, rfl⟩
    · rw [slotStatus, if_pos]
      rw [hset] at hbit
      exact (includedBit_iff hrun).mp hbit
    · rw [hseenProof] at hseenMem
      rw [← hseenLength] at hseen
      have hbit' := verified_bit_shown hQ (hlt .seen) (hbits .seen)
        (hpart (bitmapMessages sha256 (seenBitmapOf sha256 run)) (by simp)) hseenMem hseen hseenValid
      rw [slotStatus_eq hrun hindex hbit hbit', hunset]
      rfl

end Exact

/-- EXACT: with the journal that is read of an accepted run, the check of the voter's slot says what the
    guest did with the slot. The files of the run make the same bitmap data on both ways of finalizing,
    and the evidence acquired from it makes the check say so; and whatever evidence it is given, the
    check says nothing else, or two of the messages hashed for the evidence and the bitmaps collide. -/
theorem voter_slot_exact {noble : NobleUtils} {sha256 : List UInt8 → Bytes 32} {run : AggregatorInput}
    {inspection : GuestTallyInspection} {imageId : Bytes 32} {journal : CurrentZkVMJournal} {index : ℕ}
    {input : VerificationEvaluationInput} (hrun : verifyAndTallyChecked sha256 run = .ok inspection)
    (hread : HostOutput.parseHostZkVMOutput (HostOutput.hostJson inspection.output imageId) =
      .ok journal)
    (hasks : AsksForSlot input journal index) :
    (index < run.treeSize.toNat → ∀ now, ∃ files data evidence,
      bitmapFiles sha256 run inspection.output = .ok files ∧
      BitmapArtifacts.FinalizeSync.buildBitmapData noble sha256 journal
        (BitmapArtifacts.readOptionalBitmap noble sha256 BitmapArtifacts.includedKind files.included)
        (BitmapArtifacts.readOptionalBitmap noble sha256 BitmapArtifacts.seenKind files.seen) now = .ok
          (some data) ∧
      BitmapArtifacts.AsyncProver.buildBitmapData
        (files.included.bind (BitmapArtifacts.parseIncludedBitmapArtifact noble sha256))
        (files.seen.bind (BitmapArtifacts.parseSeenBitmapArtifact noble sha256)) now = some data ∧
      acquireBitmapProofEvidence noble sha256 (.ok (some data)) journal (some (.ofNat index)) =
        .ok evidence ∧
      (input.includedBitmapProof = some evidence.included → input.seenBitmapProof = some evidence.seen →
        resolveCountedMyVoteIncluded noble sha256 input none = slotCheck
          (slotStatus run inspection index))) ∧
    ∀ zkGateStatus status, zkGateStatus ≠ some .success → status ≠ .unknownExcluded →
      resolveCountedMyVoteIncluded noble sha256 input zkGateStatus = slotCheck status →
        status = slotStatus run inspection index ∨
          Exhibits sha256 (findCollision sha256 (slotEvidenceMessages noble sha256 input run)) := by
  obtain rfl := journal_of_run hrun hread
  constructor
  · intro hindex now
    obtain ⟨files, hfiles, hsync, hasync⟩ :=
      BitmapArtifacts.buildBitmapData_of_run noble (some imageId) now hrun
    obtain ⟨evidence, hevidence, hcheck⟩ := @acquired_of_run noble sha256 _ _ _ _ hrun now hindex
    exact ⟨files, _, evidence, hfiles, hsync, hasync, hevidence, hcheck input hasks⟩
  · intro zkGateStatus status hgate hstatus h
    refine (injOn_or_collision sha256 _).imp_left fun hQ => ?_
    exact status_of_slotCheck hrun hasks hstatus hQ (fun m hm => hm) (gate_open_of_slotCheck hgate h)

/-! ### A record that lost its path -/

/-- The second vote is presented without its path. -/
def spoiltRun : AggregatorInput :=
  { pairRun with votes := pairRun.votes.map fun vote =>
      if vote.index = 1 then { vote with merklePath := [] } else vote }

def spoiltDigest : Bytes 32 :=
  (ContractCore.computeInputCommitmentV4 Sha256.digest spoiltRun.electionId spoiltRun.bulletinRoot
    spoiltRun.treeSize spoiltRun.totalExpected spoiltRun.votes).toOption.getD (Bytes.fill 32 0)

def spoiltJournal : CurrentZkVMJournal :=
  HostOutput.hostJournal (journalOf Sha256.digest spoiltRun spoiltDigest) (some pairImage)

/-- The second voter asks. -/
def spoiltInput : VerificationEvaluationInput :=
  { pairInput with
    voteReceipt := some { pairReceipt with bulletinIndex := .ofNat 1 }
    journal := some spoiltJournal
    includedBitmapProof := some (.admitted ⟨hexText (1 :: List.replicate 31 0), []⟩)
    seenBitmapProof := some (.admitted ⟨hexText (3 :: List.replicate 31 0), []⟩) }

/-- The second voter is told that the vote was presented only, which is what the guest did with it. -/
theorem voter_slot_exact_on_sample :
    ∃ inspection, verifyAndTallyChecked Sha256.digest spoiltRun = .ok inspection ∧
    (∃ files, bitmapFiles Sha256.digest spoiltRun inspection.output = .ok files) ∧
    (.presentedButInvalid = slotStatus spoiltRun inspection 1 ∨ Exhibits Sha256.digest
      (findCollision Sha256.digest
        (slotEvidenceMessages .reference Sha256.digest spoiltInput spoiltRun))) := by
  have hadmitted : (ValidatedAggregatorInput.validate spoiltRun).isOk = true := by decide +kernel
  have hid : isUuid (uuidText spoiltRun.electionId) = true := by decide +kernel
  have hshown : resolveCountedMyVoteIncluded .reference Sha256.digest spoiltInput none =
      slotCheck .presentedButInvalid := by decide +kernel
  obtain ⟨inspection, hrun, houtput⟩ := verifyAndTallyChecked_of_admitted Sha256.digest hadmitted
  obtain ⟨_, digest, -, -, hdigest, hinspection⟩ := verifyAndTallyChecked_ok Sha256.digest hrun
  have hspoilt : spoiltDigest = digest := by
    rw [spoiltDigest, hdigest]
    rfl
  have hsame :
      inspection.output = journalOf Sha256.digest spoiltRun spoiltDigest := by rw [hinspection, hspoilt]
  have hread :
      HostOutput.parseHostZkVMOutput (HostOutput.hostJson inspection.output pairImage) =
        .ok spoiltJournal := by
    have hspoiltId : inspection.output.electionId = spoiltRun.electionId := by rw [hsame, journalOf]
    rw [HostOutput.parseHostZkVMOutput_hostJson (HostOutput.emitted_of_accepted houtput), hspoiltId,
      if_pos hid, hsame]
    rfl
  have hasks : AsksForSlot spoiltInput spoiltJournal 1 := ⟨rfl, rfl, rfl⟩
  obtain ⟨hcomplete, hsound⟩ := voter_slot_exact hrun hread hasks
  obtain ⟨files, _, _, hfiles, -⟩ := hcomplete (by decide) (.ofNat 1)
  exact ⟨inspection, hrun, ⟨files, hfiles⟩, hsound none .presentedButInvalid (by simp) (by simp) hshown⟩

end StarkBallot.Api
