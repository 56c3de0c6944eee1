import StarkBallot.Application.FinalizationResult
import StarkBallot.AwsAdapters.CommitCalls
import StarkBallot.AwsAdapters.VerificationSafety

/-! The board of receipts, while any number of successful commits race for its places. The counter item
    is one past the last place that is taken, and there is none while the board is empty. A commit reads
    the counter, and its transaction takes that place for its receipt and moves the counter on,
    conditioned on the counter that was read.

        receipts   100  101  …  99 + k        counter   100 + k     (none while k = 0)

    A published record names the place and the hash of its own receipt, which nobody overwrites. -/

namespace StarkBallot.AwsAdapters.Dynamo
open Schemes ContractCore Domain Application

variable {U ι : Type}

/-! ### The board -/

/-- The receipt under a key. -/
def receiptOf : Sigma (Item U) → Option ReceiptItem
  | ⟨.receipt _ _, item⟩ => some item
  | _ => none

def storedReceipts (table : AList (Item U)) : List ReceiptItem := table.entries.filterMap receiptOf

/-- Every published success has its own receipt on the board. -/
def PublishesOwn (table : AList (Item U)) : Prop :=
  ∀ sessionId finalizationId item record successful publication,
    table.lookup (.finalization sessionId finalizationId) = some item →
    decodeFinalizationRecord item.record = some record →
    successfulFinalizationRecord record = some successful →
    successful.authority.artifacts.receiptPublication = some publication →
    ∃ receipt, table.lookup (.receipt sessionId finalizationId) = some receipt ∧
      publication.receiptHash = receipt.receiptHash ∧ publication.boardIndex = .ofNat receipt.boardIndex

/-- The places of the receipts are the first ones, each taken once, and the counter is the next. -/
structure BoardExact (table : AList (Item U)) : Prop where
  indices : ((storedReceipts table).map (·.boardIndex)).Perm
    (List.range' firstReceiptBoardIndex (storedReceipts table).length)
  counter : (table.lookup .receiptCounter).map (·.nextBoardIndex) =
    if storedReceipts table = [] then none
      else some (firstReceiptBoardIndex + (storedReceipts table).length)
  published : PublishesOwn table

/-! ### Places by key -/

section Places

variable {table : AList (Item U)}

/-- The receipt of the finalization has this place. -/
def TakesPlace (table : AList (Item U)) (boardIndex : ℕ) (sessionId finalizationId : JsString) : Prop :=
  ∃ item, table.lookup (.receipt sessionId finalizationId) = some item ∧ item.boardIndex = boardIndex

/-- There are `taken` places, from the first one on. -/
structure BoardAt (taken : ℕ) (table : AList (Item U)) : Prop where
  counter : (table.lookup .receiptCounter).map (·.nextBoardIndex) =
    if taken = 0 then none else some (firstReceiptBoardIndex + taken)
  placed : ∀ i, (∃ sessionId finalizationId, TakesPlace table i sessionId finalizationId) ↔
    firstReceiptBoardIndex ≤ i ∧ i < firstReceiptBoardIndex + taken
  unique : ∀ i sessionId finalizationId sessionId' finalizationId',
    TakesPlace table i sessionId finalizationId →
    TakesPlace table i sessionId' finalizationId' → sessionId = sessionId' ∧
    finalizationId = finalizationId'

theorem receiptOf_eq_some {entry : Sigma (Item U)} {item : ReceiptItem}
    (h : receiptOf entry = some item) :
    ∃ sessionId finalizationId, entry = ⟨.receipt sessionId finalizationId, item⟩ := by
  obtain ⟨key, value⟩ := entry
  cases key with
  | receipt sessionId finalizationId =>
    cases h
    exact ⟨sessionId, finalizationId, rfl⟩
  | _ => cases h

theorem mem_boardIndices (i : ℕ) : i ∈ (storedReceipts table).map (·.boardIndex) ↔
    ∃ sessionId finalizationId, TakesPlace table i sessionId finalizationId := by
  constructor
  · intro h
    obtain ⟨item, hitem, rfl⟩ := List.mem_map.mp h
    obtain ⟨entry, hentry, hreceipt⟩ := List.mem_filterMap.mp hitem
    obtain ⟨sessionId, finalizationId, rfl⟩ := receiptOf_eq_some hreceipt
    exact ⟨sessionId, finalizationId, item, AList.mem_lookup_iff.mpr hentry, rfl⟩
  · rintro ⟨sessionId, finalizationId, item, hitem, rfl⟩
    exact List.mem_map.mpr ⟨item, List.mem_filterMap.mpr ⟨_, AList.mem_lookup_iff.mp hitem, rfl⟩, rfl⟩

/-- No place is taken twice exactly if the places are without repetition. -/
theorem nodup_boardIndices_iff : ((storedReceipts table).map (·.boardIndex)).Nodup ↔
    ∀ i sessionId finalizationId sessionId' finalizationId',
      TakesPlace table i sessionId finalizationId →
      TakesPlace table i sessionId' finalizationId' → sessionId = sessionId' ∧
      finalizationId = finalizationId' := by
  have hpairwise : ((storedReceipts table).map (·.boardIndex)).Nodup ↔
      table.entries.Pairwise fun entry entry' =>
      ∀ item, receiptOf entry = some item → ∀ item', receiptOf entry' = some item' →
        item.boardIndex ≠ item'.boardIndex := by
    rw [storedReceipts, List.Nodup, List.pairwise_map, List.pairwise_filterMap]
  rw [hpairwise]
  constructor
  · rintro h i sessionId finalizationId sessionId' finalizationId' ⟨item, hitem, rfl⟩
      ⟨item', hitem', hsame⟩
    by_contra hdiffer
    have hsymmetric : Std.Symm fun entry entry' : Sigma (Item U) => ∀ item, receiptOf entry = some item →
        ∀ item', receiptOf entry' = some item' → item.boardIndex ≠ item'.boardIndex :=
      ⟨fun _ _ h item hitem item' hitem' heq => h item' hitem' item hitem heq.symm⟩
    have hne : (⟨.receipt sessionId finalizationId, item⟩ : Sigma (Item U)) ≠
        ⟨.receipt sessionId' finalizationId', item'⟩ := by
      intro heq
      obtain ⟨hsession, hid⟩ := Key.receipt.inj (congrArg Sigma.fst heq)
      exact hdiffer ⟨hsession, hid⟩
    exact h.forall (AList.mem_lookup_iff.mp hitem)
      (AList.mem_lookup_iff.mp hitem') hne item rfl item' rfl hsame.symm
  · intro h
    refine (List.nodupKeys_iff_pairwise.mp table.nodupKeys).imp_of_mem ?_
    intro entry entry' hentry hentry' hkeys item hitem item' hitem' hsame
    obtain ⟨sessionId, finalizationId, rfl⟩ := receiptOf_eq_some hitem
    obtain ⟨sessionId', finalizationId', rfl⟩ := receiptOf_eq_some hitem'
    obtain ⟨rfl, rfl⟩ := h item.boardIndex sessionId finalizationId sessionId' finalizationId'
      ⟨item, AList.mem_lookup_iff.mpr hentry, rfl⟩ ⟨item', AList.mem_lookup_iff.mpr hentry', hsame.symm⟩
    exact hkeys rfl

theorem boardAt_of_exact (h : BoardExact table) : BoardAt (storedReceipts table).length table := by
  refine ⟨?_, ?_, ?_⟩
  · rw [h.counter]
    simp only [List.length_eq_zero_iff]
  · intro i
    rw [← mem_boardIndices, h.indices.mem_iff, List.mem_range'_1]
  · exact nodup_boardIndices_iff.mp (h.indices.nodup_iff.mpr List.nodup_range')

theorem exact_of_boardAt {taken : ℕ} (h : BoardAt taken table) (hpublished : PublishesOwn table) :
    BoardExact table := by
  have hperm :
      ((storedReceipts table).map (·.boardIndex)).Perm (List.range' firstReceiptBoardIndex taken) := by
    refine (List.perm_ext_iff_of_nodup (nodup_boardIndices_iff.mpr h.unique) List.nodup_range').mpr ?_
    intro i
    rw [mem_boardIndices, h.placed, List.mem_range'_1]
  have hlength : (storedReceipts table).length = taken := by
    simpa using hperm.length_eq
  refine ⟨hlength ▸ hperm, ?_, hpublished⟩
  rw [h.counter, ← hlength]
  simp only [List.length_eq_zero_iff]

end Places

/-! ### What a commit writes -/

section Commits

variable {write : SuccessfulFinalizationWrite U} {storage : TransactionStorage U}
  {items : List (TransactItem (Item U))}
  {table : AList (Item U)}

/-- The keys of receipts and records, and the counter's: what the board is made of. -/
def isBoardKey : Key → Bool
  | .receipt _ _ | .receiptCounter | .finalization _ _ => true
  | _ => false

/-- The parts of a transaction that concern the board: the record, and the receipt with the counter. -/
theorem board_parts (hitems : buildSuccessfulFinalizationTransaction write storage = .ok items)
    (httl : ∀ key ∈ keysOf storage.ttlItems, isBoardKey key = false) :
    ∃ stored, encodeFinalizationRecord write.committed.toRecord = some stored ∧
      putItem (.finalization write.requested.sessionId write.requested.finalizationId)
        ⟨⟨stored, write.revision.revision + 1⟩, storage.expiresAt⟩ (matchRecord write.revision) ∈ items ∧
      (∀ action ∈ receiptPublicationWrites write storage, action ∈ items) ∧
      ∀ key, isBoardKey key = true →
        key ≠ .finalization write.requested.sessionId write.requested.finalizationId →
        key ∉ keysOf (receiptPublicationWrites write storage) → key ∉ keysOf items := by
  obtain ⟨stored, hstored, h⟩ := bind_eq_ok.mp hitems
  obtain rfl := Except.ok.inj h
  refine ⟨stored, okOr_eq_ok.mp hstored, ?_, ?_, ?_⟩
  · simp
  · intro action haction
    simp [haction]
  · intro key hboard hrecord hreceipt hmem
    have hverification : key ∉ keysOf (verificationWrites write storage) := by
      unfold verificationWrites
      intro hkey
      split at hkey
      · obtain rfl := List.mem_singleton.mp hkey
        cases hboard
      · obtain rfl := List.mem_singleton.mp hkey
        cases hboard
    have hbitmap : key ∉ keysOf (bitmapWrites write storage) := by
      unfold bitmapWrites
      intro hkey
      split at hkey
      · obtain rfl := List.mem_singleton.mp hkey
        cases hboard
      · obtain rfl := List.mem_singleton.mp hkey
        cases hboard
    have hmetadata : key ∉ keysOf (metadataWrites write storage) := by
      unfold metadataWrites
      intro hkey
      rw [keysOf, List.map_append, List.mem_append] at hkey
      rcases hkey with hkey | hkey
      · split at hkey
        · obtain rfl := List.mem_singleton.mp hkey
          cases hboard
        · cases hkey
      · split at hkey
        · obtain rfl := List.mem_singleton.mp hkey
          cases hboard
        · cases hkey
    simp only [keysOf, List.map_append, List.mem_append] at hmem
    rcases hmem with ((((hmem | hmem) | hmem) | hmem) | hmem) | hmem
    · rcases List.mem_cons.mp hmem with rfl | hmem
      · cases hboard
      · exact hrecord (List.mem_singleton.mp hmem)
    · exact hreceipt hmem
    · exact hverification hmem
    · exact hbitmap hmem
    · exact hmetadata hmem
    · exact absurd hboard (by rw [httl key hmem]; decide)

/-- A write takes the next place for its receipt, and its record says so. -/
structure TakesNext (write : SuccessfulFinalizationWrite U) : Prop where
  admitted : write.committed.IsAdmitted
  published :
    write.committed.authority.artifacts.receiptPublication = write.receiptPublication.map
      (·.toPublication)
  receipted : write.receiptPublication.isSome = write.receipt.isSome
  next : ∀ publication, write.receiptPublication = some publication →
    publication.boardIndex = (write.counter.map (·.nextBoardIndex)).getD firstReceiptBoardIndex

/-- The transaction and its conditions. -/
structure GoesThroughAs (write : SuccessfulFinalizationWrite U) (storage : TransactionStorage U)
    (items : List (TransactItem (Item U))) (table : AList (Item U)) : Prop where
  built : buildSuccessfulFinalizationTransaction write storage = .ok items
  apart : ∀ key ∈ keysOf storage.ttlItems, isBoardKey key = false
  keys : (keysOf items).Nodup
  conditions : conditionsHold items table = true

variable {taken : ℕ}

theorem place_of_counter {counter found : Option ReceiptCounterItem}
    (h : matchCounter counter found = true) :
    (counter.map (·.nextBoardIndex)).getD firstReceiptBoardIndex =
      (found.map (·.nextBoardIndex)).getD firstReceiptBoardIndex := by
  cases counter with
  | none =>
    rw [Option.isNone_iff_eq_none.mp h]
  | some counter =>
    obtain ⟨item, rfl, hitem⟩ := (Option.any_eq_true _ _).mp h
    rw [Option.map_some, Option.map_some, of_decide_eq_true hitem]

/-- What the writes of the receipt are, with their effect. -/
theorem receipt_parts (h : GoesThroughAs write storage items table) {publication : ReceiptPublication}
    {receipt : SuccessfulFinalizationReceipt} (hreceipt : write.receipt = some receipt)
    (hpublication : write.receiptPublication = some publication) :
    table.lookup (.receipt write.requested.sessionId write.requested.finalizationId) = none ∧
      matchCounter write.counter (table.lookup .receiptCounter) = true ∧
      (commit items table).lookup (.receipt write.requested.sessionId write.requested.finalizationId) =
        some ⟨publication.receiptHash, publication.boardIndex, receipt, storage.expiresAt⟩ ∧
      (commit items table).lookup .receiptCounter = some ⟨publication.boardIndex + 1⟩ := by
  obtain ⟨stored, -, -, hparts, -⟩ := board_parts h.built h.apart
  have hwrites : receiptPublicationWrites write storage =
      [putItem (.receipt write.requested.sessionId write.requested.finalizationId)
          ⟨publication.receiptHash, publication.boardIndex, receipt, storage.expiresAt⟩ isAbsent,
        putItem .receiptCounter ⟨publication.boardIndex + 1⟩ (matchCounter write.counter)] := by
    rw [receiptPublicationWrites, hreceipt, hpublication]
  rw [hwrites] at hparts
  have hput := hparts _ List.mem_cons_self
  have hcounter := hparts _ (List.mem_cons_of_mem _ List.mem_cons_self)
  have habsent := condition_of_mem h.conditions hput
  have hmatch := condition_of_mem h.conditions hcounter
  exact ⟨Option.isNone_iff_eq_none.mp habsent, hmatch, lookup_commit_of_mem h.keys hput table,
    lookup_commit_of_mem h.keys hcounter table⟩

/-- Without a receipt nothing is written on the board. -/
theorem lookup_of_unreceipted (h : GoesThroughAs write storage items table)
    (hreceipt : write.receipt = none) {key : Key} (hboard : isBoardKey key = true)
    (hrecord : key ≠ .finalization write.requested.sessionId write.requested.finalizationId) :
    (commit items table).lookup key = table.lookup key := by
  obtain ⟨stored, -, -, -, hother⟩ := board_parts h.built h.apart
  refine lookup_commit_of_not_mem (hother key hboard hrecord ?_) table
  rw [receiptPublicationWrites, hreceipt]
  exact List.not_mem_nil

/-- Other receipts stay, and so do other records. -/
theorem lookup_of_other (h : GoesThroughAs write storage items table) {key : Key}
    (hboard : isBoardKey key = true)
    (hrecord : key ≠ .finalization write.requested.sessionId write.requested.finalizationId)
    (hreceipt : key ≠ .receipt write.requested.sessionId write.requested.finalizationId)
    (hcounter : key ≠ .receiptCounter) : (commit items table).lookup key = table.lookup key := by
  obtain ⟨stored, -, -, -, hother⟩ := board_parts h.built h.apart
  refine lookup_commit_of_not_mem (hother key hboard hrecord ?_) table
  unfold receiptPublicationWrites
  split
  · simp [putItem, hreceipt, hcounter]
  · exact List.not_mem_nil

/-- STEP: the board grows by the place of the receipt, if there is one. -/
theorem boardAt_commit (hboard : BoardAt taken table) (hnext : TakesNext write)
    (h : GoesThroughAs write storage items table) : ∃ taken', BoardAt taken' (commit items table) := by
  cases hreceipt : write.receipt with
  | none =>
    have hsame :
        ∀ i sessionId finalizationId, TakesPlace (commit items table) i sessionId finalizationId ↔
        TakesPlace table i sessionId finalizationId := by
      intro i sessionId finalizationId
      rw [TakesPlace, TakesPlace, lookup_of_unreceipted h hreceipt rfl (by rintro ⟨⟩)]
    refine ⟨taken, ?_, ?_, ?_⟩
    · rw [lookup_of_unreceipted h hreceipt rfl (by rintro ⟨⟩)]
      exact hboard.counter
    · simp only [hsame]
      exact hboard.placed
    · simp only [hsame]
      exact hboard.unique
  | some receipt =>
    have hsome : write.receiptPublication.isSome = true := by rw [hnext.receipted, hreceipt]; rfl
    obtain ⟨publication, hpublication⟩ := Option.isSome_iff_exists.mp hsome
    obtain ⟨habsent, hmatch, hput, hcounter⟩ := receipt_parts h hreceipt hpublication
    have hplace : publication.boardIndex = firstReceiptBoardIndex + taken := by
      rw [hnext.next publication hpublication, place_of_counter hmatch, hboard.counter]
      split
      · rename_i hnone
        rw [hnone]
        rfl
      · rfl
    have htakes :
        ∀ i sessionId finalizationId, TakesPlace (commit items table) i sessionId finalizationId ↔
        (i = firstReceiptBoardIndex + taken ∧ sessionId = write.requested.sessionId ∧
          finalizationId = write.requested.finalizationId) ∨
          TakesPlace table i sessionId finalizationId := by
      intro i sessionId finalizationId
      by_cases hown :
        sessionId = write.requested.sessionId ∧ finalizationId = write.requested.finalizationId
      · obtain ⟨rfl, rfl⟩ := hown
        rw [TakesPlace, TakesPlace, hput, habsent]
        simp [hplace, eq_comm]
      · have hother : (commit items table).lookup (.receipt sessionId finalizationId) =
            table.lookup (.receipt sessionId finalizationId) := by
          refine lookup_of_other h rfl (by rintro ⟨⟩) ?_ (by rintro ⟨⟩)
          intro heq
          exact hown (Key.receipt.inj heq)
        rw [TakesPlace, TakesPlace, hother]
        simp [hown]
    refine ⟨taken + 1, ?_, ?_, ?_⟩
    · rw [hcounter, hplace, Option.map_some, if_neg (Nat.succ_ne_zero taken)]
      rfl
    · intro i
      have hold := hboard.placed i
      simp only [htakes, exists_or, hold]
      constructor
      · rintro (⟨_, _, rfl, -⟩ | ⟨hle, hlt⟩)
        · omega
        · omega
      · rintro ⟨hle, hlt⟩
        by_cases hlast : i = firstReceiptBoardIndex + taken
        · exact .inl ⟨_, _, hlast, rfl, rfl⟩
        · exact .inr ⟨hle, by omega⟩
    · have hbelow : ∀ i sessionId finalizationId, TakesPlace table i sessionId finalizationId →
          i < firstReceiptBoardIndex + taken :=
        fun i sessionId finalizationId hplaced =>
          ((hboard.placed i).mp ⟨sessionId, finalizationId, hplaced⟩).2
      simp only [htakes]
      rintro i sessionId finalizationId sessionId' finalizationId' (⟨hlast, rfl, rfl⟩ | hold)
        (⟨hlast', rfl, rfl⟩ | hold')
      · exact ⟨rfl, rfl⟩
      · exact absurd (hbelow _ _ _ hold') (by omega)
      · exact absurd (hbelow _ _ _ hold) (by omega)
      · exact hboard.unique i _ _ _ _ hold hold'

/-- STEP: a record that is published names its own receipt. -/
theorem publishesOwn_commit (hpublished : PublishesOwn table) (hnext : TakesNext write)
    (h : GoesThroughAs write storage items table) : PublishesOwn (commit items table) := by
  intro sessionId finalizationId item record successful publication hitem hdecode hsuccessful
    hpublication
  obtain ⟨stored, hencode, hput, -, -⟩ := board_parts h.built h.apart
  by_cases hown : sessionId = write.requested.sessionId ∧ finalizationId = write.requested.finalizationId
  · obtain ⟨rfl, rfl⟩ := hown
    obtain rfl := Option.some.inj ((lookup_commit_of_mem h.keys hput table).symm.trans hitem)
    obtain ⟨stored', hencode', hdecode'⟩ := decode_encode hnext.admitted
    obtain rfl := Option.some.inj (hencode'.symm.trans hencode)
    obtain rfl := Option.some.inj (hdecode'.symm.trans hdecode)
    obtain rfl : write.committed = successful := Option.some.inj hsuccessful
    rw [hnext.published] at hpublication
    obtain ⟨place, hplace, rfl⟩ := Option.map_eq_some_iff.mp hpublication
    have hsome : write.receipt.isSome = true := by rw [← hnext.receipted, hplace]; rfl
    obtain ⟨receipt, hreceipt⟩ := Option.isSome_iff_exists.mp hsome
    obtain ⟨-, -, hlookup, -⟩ := receipt_parts h hreceipt hplace
    exact ⟨_, hlookup, rfl, rfl⟩
  · have hrecord : (commit items table).lookup (.finalization sessionId finalizationId) =
        table.lookup (.finalization sessionId finalizationId) := by
      refine lookup_of_other h rfl ?_ (by rintro ⟨⟩) (by rintro ⟨⟩)
      intro heq
      exact hown (Key.finalization.inj heq)
    have hreceipt : (commit items table).lookup (.receipt sessionId finalizationId) =
        table.lookup (.receipt sessionId finalizationId) := by
      refine lookup_of_other h rfl (by rintro ⟨⟩) ?_ (by rintro ⟨⟩)
      intro heq
      exact hown (Key.receipt.inj heq)
    rw [hreceipt]
    exact hpublished _ _ item record successful publication (hrecord ▸ hitem) hdecode hsuccessful
      hpublication

end Commits

/-! ### Commits that race -/

section Runs

/-- Publishing leaves the publication that was asked for. -/
theorem publication_of_build {requested committed : SuccessfulFinalizationRecord U}
    {publication : Option FinalizationReceiptPublication}
    (h : buildPublishedSuccessfulFinalization requested publication = .ok committed) :
    committed.authority.artifacts.receiptPublication =
      (requested.publish publication).authority.artifacts.receiptPublication := by
  obtain ⟨record, hadmitted, hsuccessful⟩ := admit_of_okOr h
  obtain rfl := toRecord_of_admitted hadmitted hsuccessful
  obtain ⟨-, ⟨-, -, hrecord⟩ | ⟨-, authority, authority', hresult, hauthority, hrecord⟩⟩ :=
    parseRecordWith_eq_some hadmitted
  · cases congrArg RecordOf.finalizationResult hrecord
  · obtain ⟨-, -, -, hkept, -⟩ := admitFinalizationResultAuthority_iff.mp hauthority
    have hrequested : (requested.publish publication).authority = authority := by
      have hsame := congrArg ResultRecordOf.authority (Option.some.inj hresult)
      exact hsame
    have hcommitted : committed.authority = authority' :=
      congrArg ResultRecordOf.authority (Option.some.inj (congrArg RecordOf.finalizationResult hrecord))
    rw [hrequested, hcommitted]
    exact eq_of_ifPresent_accept hkept

section Write

variable {config : StoreConfig} {input : SuccessfulFinalizationCommitInput U}
  {admitted : AdmittedCommit U}
  {readings : CommitReadings U} {outcome : SuccessfulFinalizationCommitResult U} {plan : ArtifactTtlPlan}
  {items : List (TransactItem (Item U))}

/-- The requested record of an admitted commit. -/
theorem commitAdmitted_of_admitCommit (h : admitCommit config input = .ok admitted) :
    CommitAdmitted admitted.requested := by
  obtain ⟨requested, hrequested, h⟩ := bind_eq_ok.mp h
  obtain ⟨evidence, -, h⟩ := bind_eq_ok.mp h
  obtain ⟨runtimePatch, -, h⟩ := bind_eq_ok.mp h
  obtain rfl := Except.ok.inj h
  exact commitAdmitted_of_admission hrequested

/-- SPEC: the write of a commit takes the next place after the counter that it read. -/
theorem takesNext_of_built (hadmitted : admitCommit config input = .ok admitted)
    (hbuilt : CommitBuilt config admitted readings outcome plan items) :
    TakesNext (commitWrite admitted readings outcome) := by
  obtain ⟨committed, hcommitted, houtcome⟩ := bind_eq_ok.mp hbuilt.outcome_eq
  obtain rfl := Except.ok.inj houtcome
  have hpublication := publication_of_build hcommitted
  have hprepared :
      receiptPublicationOf config admitted readings = prepareReceiptPublication config.sha256
      admitted.evidence.receipt none
        ((readings.receipt.counter.map (·.nextBoardIndex)).getD firstReceiptBoardIndex) := by
    rw [receiptPublicationOf, hbuilt.unreceipted]
  refine ⟨(published_of_build hcommitted).1, ?_, ?_, ?_⟩
  · have hunpublished := (commitAdmitted_of_admitCommit hadmitted).unpublished
    rw [commitWrite, hpublication]
    cases receiptPublicationOf config admitted readings with
    | none => exact hunpublished
    | some publication => rfl
  · simp only [commitWrite, hprepared, prepareReceiptPublication, Option.isSome_map]
  · intro publication hsome
    simp only [commitWrite, hprepared, prepareReceiptPublication] at hsome ⊢
    obtain ⟨receipt, -, rfl⟩ := Option.map_eq_some_iff.mp hsome
    rfl

/-- The new expiry of the session's items leaves the board alone. -/
theorem ttl_apart (sessionId : JsString) (plan : ArtifactTtlPlan) :
    ∀ key ∈ keysOf (storageOf (U := U) sessionId plan).ttlItems, isBoardKey key = false := by
  intro key hkey
  simp only [storageOf, artifactTtlItems, buildSessionTtlUpdates, updateIdentityTtl, updateVotingTtl,
    updateItem, keysOf, List.map_append, List.map_cons, List.map_map, List.map_nil, List.mem_append,
    List.mem_cons, List.not_mem_nil, or_false] at hkey
  rcases hkey with (rfl | hvote) | rfl
  · rfl
  · obtain ⟨vote, -, rfl⟩ := List.mem_map.mp hvote
    rfl
  · rfl

end Write

/-- The transactions that commits issue. -/
def BoardIssued : Issued ι U := fun _ _ items _ => ∃ write storage, TakesNext write ∧
  buildSuccessfulFinalizationTransaction write storage = .ok items ∧
  ∀ key ∈ keysOf storage.ttlItems, isBoardKey key = false

theorem boardExact_commit {table : AList (Item U)} {items : List (TransactItem (Item U))}
    {write : SuccessfulFinalizationWrite U} {storage : TransactionStorage U} (hexact : BoardExact table)
    (hnext : TakesNext write) (h : GoesThroughAs write storage items table) :
    BoardExact (commit items table) := by
  obtain ⟨taken, hboard⟩ := boardAt_commit (boardAt_of_exact hexact) hnext h
  exact exact_of_boardAt hboard (publishesOwn_commit hexact.published hnext h)

variable [DecidableEq ι]

theorem keeps_board : Keeps (fun _ choice _ _ => choice.removed = []) BoardIssued
    (fun s : SharedTable ι U => BoardExact s.table) := by
  refine keeps_table (fun _ _ _ _ hkept => hkept) ?_ (fun _ _ _ _ _ _ hissued => hissued)
  rintro c operation items s ⟨write, storage, hnext, hbuilt, hapart⟩ hkeys hconditions hexact
  exact boardExact_commit hexact hnext ⟨hbuilt, hapart, hkeys, hconditions⟩

variable [DecidableEq U] (config : StoreConfig)

/-- A client commits one finalization after the other, whatever comes of each. -/
def commitAll : List (SuccessfulFinalizationCommitInput U) →
    Async (TableRequest U) TableRequest.Answer
      (List (Except StoreError (SuccessfulFinalizationCommitResult U)))
  | [] => return []
  | input :: inputs => do
    let answer ← (commitSuccessfulFinalization config input).run
    let answers ← commitAll inputs
    return answer :: answers

/-- The clients at the start. -/
def commitSystem (commits : ι → List (SuccessfulFinalizationCommitInput U)) (table : AList (Item U))
    (clockMs : ℕ) :
    Concurrent ι (SharedTable ι U) (TableRequest U) TableRequest.Answer
      (List (Except StoreError (SuccessfulFinalizationCommitResult U))) :=
  ⟨⟨table, clockMs, [], fun _ _ => 0⟩, fun c => commitAll config (commits c)⟩

variable {config}

theorem safe_commitAll {guard : Guard ι U} {inv : SharedTable ι U → Prop}
    (h : Keeps guard BoardIssued inv) {s : SharedTable ι U} {c : ι}
    (inputs : List (SuccessfulFinalizationCommitInput U)) :
    Safe (serveGuarded guard) inv Later c (fun _ _ => True) (commitAll config inputs) s := by
  induction inputs generalizing s with
  | nil => trivial
  | cons input inputs ih =>
    refine safe_bind (safe_program (safe_commitSuccessfulFinalization h ?_)) ?_
    · intro admitted readings outcome plan items s hadmitted hbuilt _
      exact ⟨_, _, takesNext_of_built hadmitted hbuilt, hbuilt.built, ttl_apart _ plan⟩
    · intro answer s₁ _
      exact safe_bind ih fun _ _ _ => trivial

/-- SAFETY: whatever commits race, the places on the board are the first ones, each taken once, the
    counter is the next one, and every published success has its own receipt, as
    long as no item is removed. -/
theorem receipt_board_gap_free (config : StoreConfig)
    (commits : ι → List (SuccessfulFinalizationCommitInput U)) {table : AList (Item U)}
    (hexact : BoardExact table) (clockMs : ℕ) {schedule : List (ι × Choice)}
    (hkept : ∀ turn ∈ schedule, turn.2.removed = []) :
    BoardExact
      (runSchedule serve (commitSystem config commits table clockMs) schedule).shared.table := by
  have hmeets :
      Meets (fun _ choice _ _ => choice.removed = []) serve (commitSystem config commits table clockMs)
      schedule := meets_of_forall (fun turn hturn _ _ => hkept turn hturn) _
  have hsafe :
      ∀ c, Safe (serveGuarded fun _ choice _ _ => choice.removed = [])
        (fun s => BoardExact s.table) Later c
      (fun _ _ => True) ((commitSystem config commits table clockMs).programs c)
      (commitSystem config commits table clockMs).shared :=
        fun c => safe_commitAll keeps_board (commits c)
  exact inv_of_run hexact hsafe hmeets

end Runs

/-! ### A race for the first place -/

/-- Two sessions without a finalization. -/
def twoSessions : AList (Item Unit) :=
  commit (createSessionItems { sampleSession with sessionId := js "t" } 7200)
    (commit (createSessionItems sampleSession 7200) ∅)

/-- The success of a session, with a receipt. -/
def receiptedCommit (sessionId : JsString) : SuccessfulFinalizationCommitInput Unit where
  record := { sampleSuccess (.ofNat 3) with sessionId := sessionId }.toRecord
  bitmap := none
  receipt := some ⟨js "r", .ofNat 5⟩
  verificationResult := none
  runtimeMetadata := none
  verificationFirst := fun _ => false

def racingCommits (c : ℕ) : List (SuccessfulFinalizationCommitInput Unit) :=
  if c = 0 then [receiptedCommit (js "s")] else if c = 1 then [receiptedCommit (js "t")] else []

/-- Both read the empty board, and the second one to write has to start again. -/
def racingSchedule : List (ℕ × Choice) := served 0 17 ++ served 1 18 ++ served 0 20

theorem twoSessions_exact : BoardExact twoSessions := by
  refine ⟨by decide, rfl, ?_⟩
  intro sessionId finalizationId item record successful publication hitem
  rw [twoSessions, lookup_commit_of_not_mem (by simp [createSessionItems, putItem]),
    lookup_commit_of_not_mem (by simp [createSessionItems, putItem]), AList.lookup_empty] at hitem
  cases hitem

/-- Both have a place in the end. -/
theorem receipt_board_on_sample :
    (storedReceipts (runSchedule serve (commitSystem sampleStore racingCommits twoSessions 0)
        racingSchedule).shared.table).length = 2 ∧
      BoardExact (runSchedule serve (commitSystem sampleStore racingCommits twoSessions 0)
        racingSchedule).shared.table :=
  ⟨by decide +kernel, receipt_board_gap_free sampleStore racingCommits twoSessions_exact 0
    (by decide +kernel)⟩

end StarkBallot.AwsAdapters.Dynamo
