import StarkBallot.Merkle.Consistency
import StarkBallot.Verification.EngineTypes

/-! The verifiers that the checks call (`merkle/src/rfc6962-proof.ts`,
    `verification/src/verification/merkle.ts`, `index-identifiers.ts`, `consistency-verifier.ts`,
    `bitmap-verifier.ts`). Hashes are normalized first; a verifier that throws is a proof that does not
    verify, or, for a bitmap proof, one that decides nothing. -/

namespace StarkBallot.Verification
open Schemes CryptoPrimitives Merkle ZkvmContract

variable (noble : NobleUtils) (sha256 : List UInt8 → Bytes 32)

/-! ### Shapes -/

structure CanonicalRfc6962Proof where
  leafIndex : Num
  treeSize : Num
  merklePath : List JsString
  bulletinRootAtCast : JsString

/-- `undefined` unless all four parts are there. -/
def toCanonicalRfc6962Proof (proof : Option UserVoteProof) : Option CanonicalRfc6962Proof := do
  let proof ← proof
  return ⟨← proof.leafIndex, ← proof.treeSize, ← proof.merklePath, ← proof.bulletinRootAtCast⟩

def asVerificationIndex (label : String) (value : Num) : JsM ℕ :=
  if !value.isSafeInteger || value.lt (.ofNat 0) then
    .error (.error s!"{label} must be a non-negative safe integer")
  else .ok value.toNat

def asBulletinIndex (value : Num) : JsM ℕ := asVerificationIndex "bulletinIndex" value

def asLeafIndex (value : Num) : JsM ℕ := asVerificationIndex "leafIndex" value

/-! ### Trees -/

def verifyCTMerkleInclusion (commitment : JsString) (path : List JsString) (leafIndex : ℕ)
    (root : JsString) (treeSize : ℕ) : JsM Bool :=
  if treeSize = 0 then .error (.error "Invalid tree size for CT inclusion proof")
  else
    verifyInclusionProof noble sha256 (normalizeHexString commitment) leafIndex
      (path.map normalizeHexString) (normalizeHexString root) treeSize

structure ConsistencyProofExpectation where
  fromTreeSize : ℕ
  toTreeSize : ℕ
  rootAtFromTreeSize : JsString
  rootAtToTreeSize : JsString

/-- What the verifier found wrong; `none` for a valid proof. -/
def verifyConsistencyProof (proof : AdmittedConsistencyProof)
    (expectation : ConsistencyProofExpectation) :
    Option String :=
  if !proof.fromTreeSize.eq (.ofNat expectation.fromTreeSize) ||
      !proof.toTreeSize.eq (.ofNat expectation.toTreeSize) then
    some (s!"Consistency proof tree-size range mismatch. Expected {expectation.fromTreeSize} → " ++
      s!"{expectation.toTreeSize}, got {proof.fromTreeSize.toText} → {proof.toTreeSize.toText}.")
  else
    let proofOldRoot := normalizeHexString proof.rootAtFromTreeSize
    let proofNewRoot := normalizeHexString proof.rootAtToTreeSize
    let expectedOldRoot := normalizeHexString expectation.rootAtFromTreeSize
    let expectedNewRoot := normalizeHexString expectation.rootAtToTreeSize
    if proofOldRoot ≠ expectedOldRoot ∨ proofNewRoot ≠ expectedNewRoot then
      some (s!"Root mismatch detected - potential split-view attack. Old root: expected " ++
        s!"{String.ofList expectedOldRoot}, got {String.ofList proofOldRoot}. New root: expected " ++
        s!"{String.ofList expectedNewRoot}, got {String.ofList proofNewRoot}.")
    else
      match Merkle.verifyConsistencyProof noble sha256 proofOldRoot proofNewRoot
          ⟨expectation.fromTreeSize, expectation.toTreeSize,
            proof.proofNodes.map normalizeHexString⟩ with
      | .error (.error message) => some ("Consistency proof verification failed: " ++ message)
      | .error (.rangeError message) => some ("Consistency proof verification failed: " ++ message)
      | .ok false => some "Consistency proof failed cryptographic verification."
      | .ok true => none

/-! ### Bitmaps -/

inductive VoteInclusionStatus where
  | counted | presentedButInvalid | notPresented | unknownExcluded
  deriving DecidableEq

/-- A verified bit, and for an explained one what it means. -/
structure VoteInclusionResult where
  valid : Bool
  included : Bool
  statusDetail : Option VoteInclusionStatus

/-- A context that cannot be built makes the proof invalid. -/
def verifyBitmapProof (proof : BitmapProofResponse) (bitIndex : Num) (expectedRoot : JsString)
    (treeSize : Num) :
    JsM BitmapVerificationResult :=
  match buildAuthenticatedBitmapProofContext bitIndex treeSize expectedRoot with
  | .error _ =>
    .ok (invalidBitmapResult (calculateBitmapLeafIndex bitIndex.toNat)
      (calculateBitmapBitOffset bitIndex.toNat))
  | .ok context => verifyBitmapMerkleProof noble sha256 proof.leafChunk proof.auditPath context

def verifyAdmittedBitmapProof (myIndex : Num) (expectedRoot : JsString) (proof : BitmapProofResponse)
    (treeSize : Num) :
    JsM BitmapVerificationResult := do
  let _ ← asBitmapBitIndex myIndex
  let _ ← asAuthenticatedBitmapTreeSize treeSize
  verifyBitmapProof noble sha256 proof myIndex expectedRoot treeSize

def verifyMyVoteWasCounted (myIndex : Num) (includedBitmapRoot : JsString) (proof : BitmapProofResponse)
    (treeSize : Num) : JsM VoteInclusionResult := do
  let result ← verifyAdmittedBitmapProof noble sha256 myIndex includedBitmapRoot proof treeSize
  return ⟨result.valid, result.included, none⟩

def explainVoteInclusionStatus (myIndex : Num) (includedBitmapRoot seenBitmapRoot : JsString)
    (includedProof : BitmapProofResponse) (seenProof : Option BitmapProofResponse) (treeSize : Num) :
    JsM VoteInclusionResult := do
  let includedResult ← verifyMyVoteWasCounted noble sha256 myIndex includedBitmapRoot
      includedProof treeSize
  if !includedResult.valid then return { includedResult with statusDetail := some .unknownExcluded }
  else if includedResult.included then return { includedResult with statusDetail := some .counted }
  else if seenBitmapRoot = [] then return { includedResult with statusDetail := some .unknownExcluded }
  else
    match seenProof with
    | none => return { includedResult with statusDetail := some .unknownExcluded }
    | some seenProof =>
      let seenResult ← verifyAdmittedBitmapProof noble sha256 myIndex seenBitmapRoot seenProof treeSize
      return { includedResult with
        statusDetail := some
          (if !seenResult.valid then .unknownExcluded
            else if seenResult.included then .presentedButInvalid
            else .notPresented) }

end StarkBallot.Verification
