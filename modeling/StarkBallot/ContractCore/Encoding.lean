import StarkBallot.ContractCore.Types
import StarkBallot.Schemes.Framing
import StarkBallot.Schemes.Sorted

/-! The input commitment of `encoding.rs`: header, record count, then every record in canonical order.

        tag | version | election id | root | tree size | total expected | count | record | record | ...
        record = index (4) | 32 (2) | commitment (32) | path length (2) | path nodes (32 each)

    The source encodes the votes as they stand when they are already sorted and through sorted indices
    otherwise. Both are `canonicalPreimage`, which only sees what the commitment keeps of a vote. There
    ties of the comparator are equal records, so sorting is a canonical form, and the records are
    self-delimiting, so nothing about the multiset is lost. -/

namespace StarkBallot.ContractCore
open Schemes

variable (sha256 : List UInt8 → Bytes 32)

def inputCommitmentDomainTag : List UInt8 := ascii "stark-ballot:input|v1.0"

def inputCommitmentFormatVersion : ℕ := 10

def checkedVoteCount (len : ℕ) : Except String ℕ :=
  if len ≤ u32Max then .ok len else .error "input commitment vote count exceeds u32 encoding"

def checkedMerklePathLen (len : ℕ) : Except String ℕ :=
  if len ≤ u16Max then .ok len else .error "input commitment merkle path length exceeds u16 encoding"

/-- Nodes pairwise, then the lengths. -/
def compareMerklePaths (left right : List (Bytes 32)) : Ordering :=
  (firstDifference (left.zip right)).then (compare left.length right.length)

def compareVotes (left right : VoteWithProof) : Ordering :=
  match compare left.index right.index with
  | .eq =>
    match compare left.commitment right.commitment with
    | .eq => compareMerklePaths left.merklePath right.merklePath
    | ordering => ordering
  | ordering => ordering

/-- Every two neighbours are in order. -/
def isSortedByCanonicalOrdering (votes : List VoteWithProof) : Bool :=
  (votes.zip votes.tail).all fun pair => compareVotes pair.1 pair.2 != .gt

def encodeVote (data : List UInt8) (vote : VoteWithProof) : Except String (List UInt8) := do
  let pathLen ← checkedMerklePathLen vote.merklePath.length
  return data ++ leBytes 4 vote.index.toNat ++ leBytes 2 32 ++ vote.commitment.toList ++
    leBytes 2 pathLen ++ vote.merklePath.flatMap Bytes.toList

/-- The already-sorted path: the votes as they stand. -/
def encodeVotesInOrder (data : List UInt8) (votes : List VoteWithProof) : Except String (List UInt8) :=
  votes.foldlM encodeVote data

def sortedIndices (votes : List VoteWithProof) : List (Fin votes.length) :=
  (List.finRange votes.length).mergeSort fun a b => (compareVotes (votes.get a) (votes.get b)).isLE

/-- The sorting path: the votes through their sorted indices. -/
def encodeVotesSorted (data : List UInt8) (votes : List VoteWithProof) : Except String (List UInt8) :=
  (sortedIndices votes).foldlM (fun data index => encodeVote data (votes.get index)) data

def encodeVotes (data : List UInt8) (votes : List VoteWithProof) : Except String (List UInt8) :=
  if isSortedByCanonicalOrdering votes then encodeVotesInOrder data votes
    else encodeVotesSorted data votes

/-- Everything before the records. -/
def encodedPrefix (electionId : Bytes 16) (bulletinRoot : Bytes 32) (treeSize totalExpected : UInt32)
    (count : ℕ) : List UInt8 :=
  inputCommitmentDomainTag ++ leBytes 4 inputCommitmentFormatVersion ++ electionId.toList ++
    bulletinRoot.toList ++ leBytes 4 treeSize.toNat ++ leBytes 4 totalExpected.toNat ++ leBytes 4 count

def encodeInputCommitmentPreimage (electionId : Bytes 16) (bulletinRoot : Bytes 32)
    (treeSize totalExpected : UInt32) (votes : List VoteWithProof) : Except String (List UInt8) := do
  let count ← checkedVoteCount votes.length
  encodeVotes (encodedPrefix electionId bulletinRoot treeSize totalExpected count) votes

def computeInputCommitmentV4 (electionId : Bytes 16) (bulletinRoot : Bytes 32)
    (treeSize totalExpected : UInt32) (votes : List VoteWithProof) : Except String (Bytes 32) := do
  let data ← encodeInputCommitmentPreimage electionId bulletinRoot treeSize totalExpected votes
  return sha256 data

/-! ### What the commitment keeps of a vote -/

/-- A vote without its witness data. -/
structure CommittedVote where
  index : UInt32
  commitment : Bytes 32
  merklePath : List (Bytes 32)
  deriving DecidableEq

def VoteWithProof.committed (vote : VoteWithProof) : CommittedVote :=
  ⟨vote.index, vote.commitment, vote.merklePath⟩

namespace CommittedVote

/-- Index, then commitment, then path, each in its own order. -/
instance : Ord CommittedVote :=
  ⟨compareLex (compareOn index) (compareLex (compareOn commitment) (compareOn merklePath))⟩

instance : Std.TransOrd CommittedVote := inferInstanceAs (Std.TransCmp (compareLex _ _))

theorem compare_eq (a b : CommittedVote) : compare a b = (compare a.index b.index).then
    ((compare a.commitment b.commitment).then (compare a.merklePath b.merklePath)) := rfl

/-- Ties are equal records. -/
instance : Std.LawfulEqOrd CommittedVote where
  eq_of_compare {a b} h := by
    simp only [compare_eq, Ordering.then_eq_eq, Std.compare_eq_iff_eq] at h
    obtain ⟨hindex, hcommitment, hpath⟩ := h
    cases a; cases b
    simp_all

/-- One encoded record. -/
def encode (a : CommittedVote) : List UInt8 :=
  leBytes 4 a.index.toNat ++ leBytes 2 32 ++ a.commitment.toList ++ leBytes 2 a.merklePath.length ++
    a.merklePath.flatMap Bytes.toList

/-- The path length fits its two bytes. -/
abbrev Encodable (a : CommittedVote) : Prop := a.merklePath.length ≤ u16Max

end CommittedVote

theorem compareVotes_eq (left right : VoteWithProof) :
    compareVotes left right = compare left.committed right.committed := by
  rw [CommittedVote.compare_eq, compareVotes, compareMerklePaths, firstDifference_zip]
  simp only [VoteWithProof.committed]
  cases compare left.index right.index <;> cases compare left.commitment right.commitment <;> rfl

/-- The canonical preimage, from the records alone. -/
def canonicalPreimage (electionId : Bytes 16) (bulletinRoot : Bytes 32) (treeSize totalExpected : UInt32)
    (records : List CommittedVote) : Except String (List UInt8) :=
  if records.length ≤ u32Max then
    if ∀ a ∈ records, a.Encodable then
      .ok (encodedPrefix electionId bulletinRoot treeSize totalExpected records.length ++
        (records.mergeSort isLe).flatMap CommittedVote.encode)
    else .error "input commitment merkle path length exceeds u16 encoding"
  else .error "input commitment vote count exceeds u32 encoding"

theorem encodeVote_eq (data : List UInt8) (vote : VoteWithProof) : encodeVote data vote =
    if vote.committed.Encodable then .ok (data ++ vote.committed.encode)
    else .error "input commitment merkle path length exceeds u16 encoding" := by
  unfold encodeVote checkedMerklePathLen
  split <;> simp [VoteWithProof.committed, CommittedVote.Encodable, CommittedVote.encode, *]

/-- A run over votes appends their records, unless a path is too long. -/
theorem encodeVote_foldlM : ∀ (votes : List VoteWithProof) (data : List UInt8),
    votes.foldlM encodeVote data =
      if ∀ a ∈ votes.map VoteWithProof.committed, a.Encodable then
        .ok (data ++ (votes.map VoteWithProof.committed).flatMap CommittedVote.encode)
      else .error "input commitment merkle path length exceeds u16 encoding"
  | [], data => by simp; rfl
  | vote :: votes, data => by
      rw [List.foldlM_cons, encodeVote_eq]
      by_cases hvote : vote.committed.Encodable
      · rw [if_pos hvote, ok_bind, encodeVote_foldlM votes]
        simp [hvote]
      · rw [if_neg hvote, error_bind, if_neg]
        exact fun h => hvote (h _ (by simp))

/-! ### Both paths give the canonical preimage -/

/-- The sorted indices read the votes in the order of their sorted records. -/
theorem sortedIndices_committed (votes : List VoteWithProof) :
    ((sortedIndices votes).map votes.get).map VoteWithProof.committed =
      (votes.map VoteWithProof.committed).mergeSort isLe := by
  have hvotes : (List.finRange votes.length).map votes.get = votes := by simp
  rw [sortedIndices, List.map_map, List.map_mergeSort (s := isLe) (fun a _ b _ => by
    rw [compareVotes_eq]; rfl), ← List.map_map, hvotes]

theorem isSortedByCanonicalOrdering_pairwise : ∀ {votes : List VoteWithProof},
    isSortedByCanonicalOrdering votes = true →
      (votes.map VoteWithProof.committed).Pairwise fun a b => isLe a b = true
  | [], _ => List.Pairwise.nil
  | [_], _ => List.pairwise_singleton ..
  | v :: w :: votes, h => by
      simp only [isSortedByCanonicalOrdering, List.tail_cons, List.zip_cons_cons, List.all_cons,
        Bool.and_eq_true, bne_iff_ne, compareVotes_eq] at h
      have hvw : isLe v.committed w.committed = true := Ordering.isLE_iff_ne_gt.mpr h.1
      have hrest : ((w :: votes).map VoteWithProof.committed).Pairwise fun a b => isLe a b = true :=
        isSortedByCanonicalOrdering_pairwise (by
          simpa [isSortedByCanonicalOrdering, compareVotes_eq] using h.2)
      rw [List.map_cons, List.pairwise_cons]
      refine ⟨fun a ha => ?_, hrest⟩
      rw [List.map_cons, List.mem_cons] at ha
      rcases ha with rfl | ha
      · exact hvw
      · exact isLe_trans _ _ _ hvw ((List.pairwise_cons.mp hrest).1 a ha)

theorem encodeVotesSorted_eq (data : List UInt8) (votes : List VoteWithProof) :
    encodeVotesSorted data votes =
      if ∀ a ∈ votes.map VoteWithProof.committed, a.Encodable then
        .ok (data ++ ((votes.map VoteWithProof.committed).mergeSort isLe).flatMap CommittedVote.encode)
      else .error "input commitment merkle path length exceeds u16 encoding" := by
  rw [encodeVotesSorted, ← List.foldlM_map (f := votes.get) (g := encodeVote), encodeVote_foldlM,
    sortedIndices_committed]
  simp only [List.mem_mergeSort]

/-- FAST PATH: votes that are already sorted encode as the sorting path would encode them. -/
theorem encodeVotesInOrder_eq_sorted {votes : List VoteWithProof}
    (h : isSortedByCanonicalOrdering votes = true) (data : List UInt8) :
    encodeVotesInOrder data votes = encodeVotesSorted data votes := by
  rw [encodeVotesInOrder, encodeVote_foldlM, encodeVotesSorted_eq,
    List.mergeSort_of_pairwise (isSortedByCanonicalOrdering_pairwise h)]

theorem encodeVotes_eq (data : List UInt8) (votes : List VoteWithProof) : encodeVotes data votes =
    if ∀ a ∈ votes.map VoteWithProof.committed, a.Encodable then
      .ok (data ++ ((votes.map VoteWithProof.committed).mergeSort isLe).flatMap CommittedVote.encode)
    else .error "input commitment merkle path length exceeds u16 encoding" := by
  rw [encodeVotes, ← encodeVotesSorted_eq]
  split
  · exact encodeVotesInOrder_eq_sorted ‹_› data
  · rfl

/-- SPEC: the preimage is the canonical preimage of the records. -/
theorem encodeInputCommitmentPreimage_eq (electionId : Bytes 16) (bulletinRoot : Bytes 32)
    (treeSize totalExpected : UInt32) (votes : List VoteWithProof) :
    encodeInputCommitmentPreimage electionId bulletinRoot treeSize totalExpected votes =
      canonicalPreimage electionId bulletinRoot treeSize totalExpected
        (votes.map VoteWithProof.committed) := by
  rw [encodeInputCommitmentPreimage, checkedVoteCount, canonicalPreimage, List.length_map]
  split
  · rw [ok_bind, encodeVotes_eq]
  · rfl

/-- Few votes with short paths always have a commitment. -/
theorem computeInputCommitmentV4_ok {electionId : Bytes 16} {bulletinRoot : Bytes 32}
    {treeSize totalExpected : UInt32} {votes : List VoteWithProof} (hcount : votes.length ≤ u32Max)
    (hpath : ∀ vote ∈ votes, vote.merklePath.length ≤ u16Max) :
    ∃ digest, computeInputCommitmentV4 sha256 electionId bulletinRoot treeSize totalExpected votes =
      .ok digest := by
  have hrecords : ∀ a ∈ votes.map VoteWithProof.committed, a.Encodable := by
    simpa [VoteWithProof.committed] using hpath
  rw [computeInputCommitmentV4, encodeInputCommitmentPreimage_eq, canonicalPreimage,
    if_pos (by simpa using hcount), if_pos hrecords]
  exact ⟨_, rfl⟩

/-! ### Binding -/

/-- Records are self-delimiting: the path length says where a record ends. -/
theorem CommittedVote.encode_selfDelimiting :
    SelfDelimiting CommittedVote.Encodable CommittedVote.encode := by
  intro a b r r' ha hb h
  have hlt : ∀ i : UInt32, i.toNat < 256 ^ 4 := fun i => i.toNat_lt
  simp only [CommittedVote.encode, List.append_assoc] at h
  obtain ⟨hindex, h⟩ := selfDelimiting_leBytes 4 (hlt a.index) (hlt b.index) h
  obtain ⟨-, h⟩ := List.append_inj h rfl
  obtain ⟨hcommitment, h⟩ := List.append_inj h (by simp)
  obtain ⟨hlen, h⟩ := selfDelimiting_leBytes 2 (Nat.lt_succ_of_le ha) (Nat.lt_succ_of_le hb) h
  obtain ⟨hpath, hrest⟩ := (selfDelimiting_of_length (P := fun _ => True) Bytes.length_eq fun _ _ _ _ =>
    Bytes.ext).flatMap hlen (by simp) (by simp) h
  refine ⟨?_, hrest⟩
  cases a; cases b
  simp_all [Bytes.ext_iff, UInt32.toNat_inj]

/-- A canonical preimage that exists determines the header and the multiset of records. -/
theorem canonicalPreimage_inj {electionId electionId' : Bytes 16} {bulletinRoot bulletinRoot' : Bytes 32}
    {treeSize treeSize' totalExpected totalExpected' : UInt32} {records records' : List CommittedVote}
    {data : List UInt8}
    (h : canonicalPreimage electionId bulletinRoot treeSize totalExpected records = .ok data)
    (h' : canonicalPreimage electionId' bulletinRoot' treeSize' totalExpected' records' = .ok data) :
    (electionId = electionId' ∧ bulletinRoot = bulletinRoot' ∧ treeSize = treeSize' ∧
      totalExpected = totalExpected') ∧ records.Perm records' := by
  have hlt : ∀ i : UInt32, i.toNat < 256 ^ 4 := fun i => i.toNat_lt
  simp only [canonicalPreimage, ite_eq_iff, reduceCtorEq, and_false, or_false, Except.ok.injEq] at h h'
  obtain ⟨hcount, henc, rfl⟩ := h
  obtain ⟨hcount', henc', hdata⟩ := h'
  simp only [encodedPrefix, List.append_assoc] at hdata
  obtain ⟨-, hdata⟩ := List.append_inj hdata rfl
  obtain ⟨-, hdata⟩ := List.append_inj hdata rfl
  obtain ⟨hid, hdata⟩ := List.append_inj hdata (by simp)
  obtain ⟨hroot, hdata⟩ := List.append_inj hdata (by simp)
  obtain ⟨hsize, hdata⟩ := selfDelimiting_leBytes 4 (hlt _) (hlt _) hdata
  obtain ⟨hexp, hdata⟩ := selfDelimiting_leBytes 4 (hlt _) (hlt _) hdata
  obtain ⟨hlen, hdata⟩ :=
    selfDelimiting_leBytes 4 (Nat.lt_succ_of_le hcount') (Nat.lt_succ_of_le hcount) hdata
  have hrecords : (records'.mergeSort isLe).flatMap CommittedVote.encode ++ [] =
      (records.mergeSort isLe).flatMap CommittedVote.encode ++ [] := by simpa using hdata
  have hsorted : records'.mergeSort isLe = records.mergeSort isLe :=
    (CommittedVote.encode_selfDelimiting.flatMap (by simpa using hlen) (by simpa using henc')
      (by simpa using henc) hrecords).1
  refine ⟨⟨(Bytes.ext hid).symm, (Bytes.ext hroot).symm, (UInt32.toNat_inj.mp hsize).symm,
    (UInt32.toNat_inj.mp hexp).symm⟩, ?_⟩
  exact ((List.mergeSort_perm records isLe).symm.trans (hsorted ▸ List.Perm.refl _)).trans
    (List.mergeSort_perm records' isLe)

/-- Permutations of the records have one canonical preimage, or fail alike. -/
theorem canonicalPreimage_perm {electionId : Bytes 16} {bulletinRoot : Bytes 32}
    {treeSize totalExpected : UInt32} {records records' : List CommittedVote}
    (h : records.Perm records') :
    canonicalPreimage electionId bulletinRoot treeSize totalExpected records =
      canonicalPreimage electionId bulletinRoot treeSize totalExpected records' := by
  have hmem : (∀ a ∈ records, a.Encodable) ↔ ∀ a ∈ records', a.Encodable := by simp only [h.mem_iff]
  simp only [canonicalPreimage, h.length_eq, hmem, mergeSort_eq_of_perm h]

/-- The arguments of the commitment functions. -/
structure CommitmentArgs where
  electionId : Bytes 16
  bulletinRoot : Bytes 32
  treeSize : UInt32
  totalExpected : UInt32
  votes : List VoteWithProof

namespace CommitmentArgs

def preimage (args : CommitmentArgs) : Except String (List UInt8) :=
  encodeInputCommitmentPreimage args.electionId args.bulletinRoot args.treeSize
    args.totalExpected args.votes

def commitment (args : CommitmentArgs) : Except String (Bytes 32) :=
  computeInputCommitmentV4 sha256 args.electionId args.bulletinRoot args.treeSize
    args.totalExpected args.votes

/-- One header, and one multiset of votes up to witness data. -/
def Agree (a b : CommitmentArgs) : Prop :=
  (a.electionId = b.electionId ∧ a.bulletinRoot = b.bulletinRoot ∧ a.treeSize = b.treeSize ∧
    a.totalExpected = b.totalExpected) ∧
    (a.votes.map VoteWithProof.committed).Perm (b.votes.map VoteWithProof.committed)

theorem preimage_eq_iff {a b : CommitmentArgs} {data data' : List UInt8} (ha : a.preimage = .ok data)
    (hb : b.preimage = .ok data') : data = data' ↔ a.Agree b := by
  rw [preimage, encodeInputCommitmentPreimage_eq] at ha hb
  constructor
  · rintro rfl
    exact canonicalPreimage_inj ha hb
  · rintro ⟨⟨hid, hroot, hsize, hexp⟩, hperm⟩
    rw [hid, hroot, hsize, hexp, canonicalPreimage_perm hperm, hb, Except.ok.injEq] at ha
    exact ha.symm

theorem commitment_eq_ok {args : CommitmentArgs} {digest : Bytes 32} :
    args.commitment sha256 = .ok digest ↔ ∃ data, args.preimage = .ok data ∧ sha256 data = digest := by
  rw [commitment, computeInputCommitmentV4, bind_eq_ok]
  simp [preimage, pure, Except.pure]

end CommitmentArgs

/-- BINDING: the preimage determines, and is determined by, the header and the multiset of votes up to
    witness data. The order of the votes never matters, the sorted fast path changes nothing, and one
    commitment for two different inputs is a collision between their two preimages. -/
theorem inputCommitment_binds_header_and_votes :
    (∀ (a b : CommitmentArgs) (data data' : List UInt8), a.preimage = .ok data → b.preimage = .ok data' →
      (data = data' ↔ a.Agree b)) ∧
    (∀ (a : CommitmentArgs) (votes : List VoteWithProof), a.votes.Perm votes →
      ({ a with votes := votes } : CommitmentArgs).commitment sha256 = a.commitment sha256) ∧
    (∀ (votes : List VoteWithProof) (data : List UInt8), isSortedByCanonicalOrdering votes = true →
      encodeVotesInOrder data votes = encodeVotesSorted data votes) ∧
    (∀ (a b : CommitmentArgs) (digest : Bytes 32), a.commitment sha256 = .ok digest →
      b.commitment sha256 = .ok digest → ¬ a.Agree b →
      ∃ data data', a.preimage = .ok data ∧ b.preimage = .ok data' ∧ data ≠ data' ∧
        sha256 data = sha256 data') := by
  refine ⟨fun a b data data' ha hb => CommitmentArgs.preimage_eq_iff ha hb, ?_, ?_, ?_⟩
  · intro a votes hperm
    simp only [CommitmentArgs.commitment, computeInputCommitmentV4, encodeInputCommitmentPreimage_eq]
    rw [canonicalPreimage_perm (hperm.map VoteWithProof.committed)]
  · intro votes data hsorted
    exact encodeVotesInOrder_eq_sorted hsorted data
  · intro a b digest ha hb hne
    obtain ⟨data, hdata, rfl⟩ := (CommitmentArgs.commitment_eq_ok sha256).mp ha
    obtain ⟨data', hdata', hdigest⟩ := (CommitmentArgs.commitment_eq_ok sha256).mp hb
    exact ⟨data, data', hdata, hdata', mt (CommitmentArgs.preimage_eq_iff hdata hdata').mp hne,
      hdigest.symm⟩

end StarkBallot.ContractCore
