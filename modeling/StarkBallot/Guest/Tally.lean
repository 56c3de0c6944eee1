import StarkBallot.ContractCore.Bitmap
import StarkBallot.ContractCore.Encoding

/-! The guest program (`tally.rs`, `sth.rs`): admission of an input, the tally loop over its vote records
    and the construction of the journal.

       record ──▶ index in range ──▶ slot free ──▶ choice ──▶ opening ──▶ commitment free ──▶ path
                  │                  │             └───────────┴───────────┴──────────────────┤
                  ▼                  ▼                         ▼                              ▼
               rejected           rejected         rejected, slot used up             rejected or counted

    A record marks its slot before its choice is looked at and reserves its commitment before its path
    is verified, so a rejected record may still shut out a later one. Every increment, every subtraction
    and every vector access is checked, as in the source; what an `Err` says is kept. -/

namespace StarkBallot.Guest
open Schemes ContractCore

variable (sha256 : List UInt8 → Bytes 32)

/-- Most votes one candidate may collect. -/
def maxFormalGuestTallyBucket : ℕ := maxGuestTreeSize

structure ValidatedVoteRecord where
  raw : VoteWithProof
  commitment : Bytes 32
  random : Bytes 32

structure ValidatedAggregatorInput where
  raw : AggregatorInput
  electionId : Bytes 16
  bulletinRoot : BulletinRoot
  treeSize : TreeSize
  logId : Bytes 32
  timestamp : UnixTimestampMillis
  totalExpected : UInt32
  electionConfigHash : Bytes 32
  votes : List ValidatedVoteRecord

def ValidatedVoteRecord.new (raw : VoteWithProof) : ValidatedVoteRecord :=
  ⟨raw, raw.commitment, raw.random⟩

def validateTreeSize (value : UInt32) : RustM TreeSize := do
  let treeSize ← mapErr (fun _ => .err "Tree size cannot be zero") (TreeSize.new value)
  refuseIf (treeSize.get.toNat > maxGuestTreeSize)
    (.err s!"Tree size exceeds guest bound of {maxGuestTreeSize}")
  return treeSize

def validateTotalExpected (value : UInt32) : RustM UInt32 := do
  refuseIf (value.toNat > maxGuestTreeSize)
    (.err s!"Total expected exceeds guest bound of {maxGuestTreeSize}")
  return value

/-- `ValidatedAggregatorInput::validate`. -/
def ValidatedAggregatorInput.validate (input : AggregatorInput) : RustM ValidatedAggregatorInput := do
  let bulletinRoot ← mapErr (fun _ => .err "Invalid bulletin root") (BulletinRoot.new input.bulletinRoot)
  let treeSize ← validateTreeSize input.treeSize
  let timestamp ← mapErr (fun _ => .err "Timestamp must be positive Unix timestamp milliseconds")
    (UnixTimestampMillis.new input.timestamp)
  let totalExpected ← validateTotalExpected input.totalExpected
  refuseIf (input.votes.length > maxGuestVoteCount)
    (.err s!"Vote count exceeds guest bound of {maxGuestVoteCount}")
  let _ ← mapErr (fun _ => .err "Vote count exceeds u32 journal encoding")
      (VoteCount.new input.votes.length)
  refuseIf (input.votes.any fun vote => vote.merklePath.length > maxGuestMerklePathNodesPerRecord)
    (.err "Merkle path length exceeds u16 input commitment encoding")
  let _ ← mapErr (fun error => .err ("Guest work budget exceeded: " ++ error.debug))
    (validateGuestWorkBudget input none)
  return { raw := input, electionId := input.electionId, bulletinRoot, treeSize, logId := input.logId,
           timestamp, totalExpected, electionConfigHash := input.electionConfigHash,
           votes := input.votes.map ValidatedVoteRecord.new }

/-! ### The tally loop -/

inductive RejectionReason where
  | outOfRangeIndex
  | duplicateIndex
  | invalidChoice
  | invalidCommitment
  | duplicateCommitment
  | invalidInclusionProof
  deriving DecidableEq

inductive GuestVoteInspection where
  | accepted
  | rejected (reason : RejectionReason) (slotSeen commitmentReserved : Bool)
  deriving DecidableEq

/-- The variables of the loop; `voteOutcomes` is `none` when the caller does not ask for them. -/
structure TallyState where
  verifiedTally : Vector ℕ 5
  includedBitmap : List Bool
  indexSeen : List Bool
  seenCommitments : List (Bytes 32)
  validCount : ℕ
  invalidCount : ℕ
  seenIndicesCount : ℕ
  voteOutcomes : Option (List GuestVoteInspection)

def checkedIncrement (value : ℕ) (label : String) : RustM ℕ :=
  okOr (checkedAdd value 1) (.err s!"{label} exceeds u32 journal encoding")

def recordVoteOutcome (voteOutcomes : Option (List GuestVoteInspection))
    (outcome : GuestVoteInspection) :
    Option (List GuestVoteInspection) := voteOutcomes.map (· ++ [outcome])

namespace TallyState

def init (treeSize : ℕ) (voteOutcomes : Option (List GuestVoteInspection)) : TallyState where
  verifiedTally := Vector.replicate 5 0
  includedBitmap := List.replicate treeSize false
  indexSeen := List.replicate treeSize false
  seenCommitments := []
  validCount := 0
  invalidCount := 0
  seenIndicesCount := 0
  voteOutcomes

/-- The end of every rejecting branch. -/
def reject (s : TallyState) (reason : RejectionReason) (slotSeen commitmentReserved : Bool) :
    RustM TallyState := do
  let invalidCount ← checkedIncrement s.invalidCount "invalid vote count"
  return { s with
    invalidCount
    voteOutcomes := recordVoteOutcome s.voteOutcomes (.rejected reason slotSeen commitmentReserved) }

/-- The end of the accepting branch. -/
def accept (s : TallyState) (index choice : ℕ) : RustM TallyState := do
  let bucket ← checkedIncrement (← arrGet s.verifiedTally choice) "candidate tally"
  let verifiedTally ← arrSet s.verifiedTally choice bucket
  refuseIf (bucket > maxFormalGuestTallyBucket)
    (.err s!"Candidate tally bucket exceeds guest bound of {maxFormalGuestTallyBucket}")
  let includedBitmap ← vecSet s.includedBitmap index true
  let validCount ← checkedIncrement s.validCount "valid vote count"
  return { s with
    verifiedTally, includedBitmap, validCount, voteOutcomes :=
      recordVoteOutcome s.voteOutcomes .accepted }

end TallyState

/-- One pass of the loop over the votes. -/
def tallyStep (input : ValidatedAggregatorInput) (s : TallyState) (vote : ValidatedVoteRecord) :
    RustM TallyState := do
  if vote.raw.index ≥ input.treeSize.get then s.reject .outOfRangeIndex false false
  else
    let index := vote.raw.index.toNat
    if ← vecGet s.indexSeen index then s.reject .duplicateIndex false false
    else
      let indexSeen ← vecSet s.indexSeen index true
      let seenIndicesCount ← checkedIncrement s.seenIndicesCount "seen index count"
      let s := { s with indexSeen, seenIndicesCount }
      if vote.raw.choice ≥ 5 then s.reject .invalidChoice true false
      else
        let computedCommitment := computeCommitment sha256 input.electionId vote.raw.choice vote.random
        if computedCommitment ≠ vote.commitment then s.reject .invalidCommitment true false
        else
          match binarySearch s.seenCommitments computedCommitment with
          | .ok _ => s.reject .duplicateCommitment true false
          | .error pos =>
            -- reserved here, whatever the inclusion proof will say
            let seenCommitments ← vecInsert s.seenCommitments pos computedCommitment
            let s := { s with seenCommitments }
            if ← verifyInclusionProofRfc6962 sha256 vote.commitment vote.raw.index vote.raw.merklePath
                input.bulletinRoot.get input.treeSize.get then s.accept index vote.raw.choice.toNat
            else s.reject .invalidInclusionProof true true

def tallyLoop (input : ValidatedAggregatorInput) (voteOutcomes : Option (List GuestVoteInspection)) :
    RustM TallyState :=
  input.votes.foldlM (tallyStep sha256 input) (TallyState.init input.treeSize.get.toNat voteOutcomes)

/-! ### The journal -/

structure AccountingSummary where
  missingSlots : ℕ
  invalidPresentedSlots : ℕ
  rejectedRecords : ℕ
  excludedSlots : ℕ

def AccountingSummary.derive (treeSize seenIndicesCount validCount invalidCount : ℕ) :
    RustM AccountingSummary := do
  let missingSlots ← okOr (checkedSub treeSize seenIndicesCount)
      (.err "seen index count exceeds tree size")
  let invalidPresentedSlots ← okOr (checkedSub seenIndicesCount validCount)
    (.err "valid vote count exceeds seen index count")
  let excludedSlots ← okOr (checkedAdd missingSlots invalidPresentedSlots)
      (.err "excluded slot count overflow")
  return { missingSlots, invalidPresentedSlots, rejectedRecords := invalidCount, excludedSlots }

def checkedBitmapPopcount (bitmap : List Bool) (label : String) : RustM ℕ :=
  if bitmap.count true ≤ u32Max then .ok (bitmap.count true)
  else .error (.err s!"{label} popcount exceeds u32 journal encoding")

def checkedTallySum (verifiedTally : Vector ℕ 5) : RustM ℕ :=
  verifiedTally.toList.foldlM
    (fun sum count => okOr (checkedAdd sum count)
      (.err "verified tally sum exceeds u32 journal encoding")) 0

/-- What the journal is built from. -/
structure VerificationOutputConstruction where
  electionId : Bytes 16
  electionConfigHash : Bytes 32
  bulletinRoot : BulletinRoot
  treeSize : TreeSize
  totalExpected : UInt32
  verifiedTally : Vector ℕ 5
  totalVotes : ℕ
  validVotes : ℕ
  invalidVotes : ℕ
  seenIndicesCount : ℕ
  seenBitmap : List Bool
  includedBitmap : List Bool
  seenBitmapRoot : Bytes 32
  includedBitmapRoot : Bytes 32
  inputCommitment : Bytes 32
  sthDigest : Bytes 32

/-- Consistency checks, then the journal. A `u32` always fits the bitmap length, so that conversion has
    no error branch here. -/
def buildVerificationOutput (state : VerificationOutputConstruction) : RustM VerificationOutput := do
  let treeSize := state.treeSize.get.toNat
  refuseIf (state.seenBitmap.length ≠ treeSize) (.err "seen bitmap length must equal treeSize")
  refuseIf (state.includedBitmap.length ≠ treeSize) (.err "included bitmap length must equal treeSize")
  let expectedTotalVotes ← okOr (checkedAdd state.validVotes state.invalidVotes)
    (.err "validVotes + invalidVotes exceeds u32 journal encoding")
  refuseIf (state.totalVotes ≠ expectedTotalVotes)
    (.err "totalVotes must equal validVotes + invalidVotes")
  let tallySum ← checkedTallySum state.verifiedTally
  refuseIf (tallySum ≠ state.validVotes) (.err "verified tally sum must equal validVotes")
  let seenPopcount ← checkedBitmapPopcount state.seenBitmap "seen bitmap"
  refuseIf (seenPopcount ≠ state.seenIndicesCount)
    (.err "seen bitmap popcount must equal seenIndicesCount")
  let includedPopcount ← checkedBitmapPopcount state.includedBitmap "included bitmap"
  refuseIf (includedPopcount ≠ state.validVotes) (.err "included bitmap popcount must equal validVotes")
  refuseIf ((state.includedBitmap.zip state.seenBitmap).any fun bits => bits.1 && !bits.2)
    (.err "included bitmap must be a subset of seen bitmap")
  let accounting ← AccountingSummary.derive treeSize state.seenIndicesCount state.validVotes
      state.invalidVotes
  let presentedAndMissing ← okOr (checkedAdd state.seenIndicesCount accounting.missingSlots)
    (.err "seenIndicesCount + missingSlots exceeds u32 journal encoding")
  refuseIf (presentedAndMissing ≠ treeSize) (.err "treeSize must equal seenIndicesCount + missingSlots")
  let missingAndInvalid ← okOr (checkedAdd accounting.missingSlots accounting.invalidPresentedSlots)
    (.err "missingSlots + invalidPresentedSlots exceeds u32 journal encoding")
  refuseIf (missingAndInvalid ≠ accounting.excludedSlots)
    (.err "excludedSlots must equal missingSlots + invalidPresentedSlots")
  return {
    electionId := state.electionId
    electionConfigHash := state.electionConfigHash
    bulletinRoot := state.bulletinRoot.get
    treeSize
    totalExpected := state.totalExpected.toNat
    sthDigest := state.sthDigest
    verifiedTally := state.verifiedTally
    totalVotes := state.totalVotes
    validVotes := state.validVotes
    invalidVotes := state.invalidVotes
    seenIndicesCount := state.seenIndicesCount
    missingSlots := accounting.missingSlots
    invalidPresentedSlots := accounting.invalidPresentedSlots
    rejectedRecords := accounting.rejectedRecords
    seenBitmapRoot := state.seenBitmapRoot
    includedBitmapRoot := state.includedBitmapRoot
    excludedSlots := accounting.excludedSlots
    inputCommitment := state.inputCommitment
    methodVersion := currentMethodVersion }

def sthMessage (logId : Bytes 32) (treeSize : UInt32) (timestamp : UInt64) (bulletinRoot : Bytes 32) :
    List UInt8 :=
  logId.toList ++ leBytes 4 treeSize.toNat ++ leBytes 8 timestamp.toNat ++ bulletinRoot.toList

/-- Digest of the signed tree head. -/
def computeSthDigest (logId : Bytes 32) (treeSize : UInt32) (timestamp : UInt64)
    (bulletinRoot : Bytes 32) :
    Bytes 32 := sha256 (sthMessage logId treeSize timestamp bulletinRoot)

structure GuestTallyArtifacts where
  output : VerificationOutput
  includedBitmap : List Bool

structure GuestTallyInspection where
  output : VerificationOutput
  voteOutcomes : List GuestVoteInspection
  includedBitmap : List Bool

/-- Everything after the loop. -/
def finishTally (input : ValidatedAggregatorInput) (s : TallyState) : RustM GuestTallyArtifacts := do
  let inputCommitment ← mapErr .err
      (computeInputCommitmentV4 sha256 input.electionId input.bulletinRoot.get
      input.treeSize.get input.totalExpected input.raw.votes)
  let totalVotes ← mapErr (fun _ => .err "Vote count exceeds u32 journal encoding")
    (VoteCount.new input.votes.length)
  let output ← buildVerificationOutput {
    electionId := input.electionId
    electionConfigHash := input.electionConfigHash
    bulletinRoot := input.bulletinRoot
    treeSize := input.treeSize
    totalExpected := input.totalExpected
    verifiedTally := s.verifiedTally
    totalVotes
    validVotes := s.validCount
    invalidVotes := s.invalidCount
    seenIndicesCount := s.seenIndicesCount
    seenBitmap := s.indexSeen
    includedBitmap := s.includedBitmap
    seenBitmapRoot := computeBitmapMerkleRoot sha256 s.indexSeen
    includedBitmapRoot := computeBitmapMerkleRoot sha256 s.includedBitmap
    inputCommitment
    sthDigest :=
      computeSthDigest sha256 input.logId input.treeSize.get input.timestamp.get input.bulletinRoot.get }
  return { output, includedBitmap := s.includedBitmap }

/-- The loop and the journal; the outcomes pushed to the caller's vector come back beside them. -/
def verifyAndTallyCore (input : ValidatedAggregatorInput)
    (voteOutcomes : Option (List GuestVoteInspection)) :
    RustM (GuestTallyArtifacts × Option (List GuestVoteInspection)) := do
  let s ← tallyLoop sha256 input voteOutcomes
  let artifacts ← finishTally sha256 input s
  return (artifacts, s.voteOutcomes)

def verifyAndTallyChecked (input : AggregatorInput) : RustM GuestTallyInspection := do
  let input ← ValidatedAggregatorInput.validate input
  let (artifacts, voteOutcomes) ← verifyAndTallyCore sha256 input (some [])
  return { output := artifacts.output, voteOutcomes := voteOutcomes.getD [],
           includedBitmap := artifacts.includedBitmap }

def verifyAndTallyCheckedOutput (input : AggregatorInput) : RustM VerificationOutput := do
  let input ← ValidatedAggregatorInput.validate input
  let (artifacts, _) ← verifyAndTallyCore sha256 input none
  return artifacts.output

end StarkBallot.Guest
