import StarkBallot.Verification.BitmapMerkleTree
import StarkBallot.ZkvmContract.HostIo

/-! Spellings of a bitmap proof (`verification/src/merkle/bitmap-merkle-tree.ts`). The chunk and the
    siblings are decoded before they are hashed, so the case of their digits is lost; the root is
    compared as a text with the lower-case digits of what was hashed, and only
    its prefix is made the same.

        chunk  AB12…  ──decode──┐
        path   Cd34…  ──decode──┴─▶ 0xfe98…  =  root 0xfe98… | fe98…
                                             ≠  root 0xFE98… -/

namespace StarkBallot.Verification
open Schemes ContractCore CryptoPrimitives ZkvmContract

/-- The library reads digits of either case. -/
def ReadsEitherCase (noble : NobleUtils) : Prop :=
  ∀ digits bytes, toLowerCase digits = hexText bytes → noble.hexToBytes digits = .ok bytes

/-! ### Other spellings -/

/-- Another admitted spelling of the bytes of a chunk or of a node. -/
def Respelled (hex hex' : JsString) : Prop :=
  hex = hex' ∨ isBitmapChunkHex hex = true ∧ isBitmapChunkHex hex' = true ∧
    toLowerCase hex = toLowerCase hex'

/-- The same node, where the sibling may be spelled in another way. -/
structure RespelledNode (node node' : PathNode) : Prop where
  hash : Respelled node.hash node'.hash
  position_eq : node.position = node'.position

/-- The same context, where the root may be spelled in another way. -/
structure RespelledContext (context context' : AuthenticatedBitmapProofContext) : Prop where
  bitIndex_eq : context.bitIndex = context'.bitIndex
  treeSize_eq : context.treeSize = context'.treeSize
  root : ∃ root : Bytes 32, Spells context.expectedRoot root.toList ∧
    Spells context'.expectedRoot root.toList

/-- The root has no capital digits. -/
def IsLowerRoot (context : AuthenticatedBitmapProofContext) : Prop :=
  toLowerCase context.expectedRoot = context.expectedRoot

variable {noble : NobleUtils} {sha256 : List UInt8 → Bytes 32}

section Spellings

variable {hex hex' : JsString}

theorem exists_bytes_of_isBitmapChunkHex (h : isBitmapChunkHex hex = true) :
    ∃ b : Bytes 32, toLowerCase hex = hexText b.toList := by
  simp only [isBitmapChunkHex, decide_eq_true_eq, List.all_eq_true] at h
  obtain ⟨hlength, hdigits⟩ := h
  have hlower : ∀ c ∈ toLowerCase hex, isHexDigit c = true := by
    intro c hc
    obtain ⟨d, hd, rfl⟩ := List.mem_map.mp hc
    exact hdigits d hd
  have hlowerLength : (toLowerCase hex).length = 64 := by rw [toLowerCase, List.length_map, hlength]
  obtain ⟨bytes, hbytes⟩ := exists_hexText _ hlower (by rw [hlowerLength])
  have hcount : bytes.length = 32 := by
    rw [hbytes, hexText_length] at hlowerLength
    omega
  exact ⟨⟨bytes, hcount⟩, hbytes⟩

theorem decodes_of_isBitmapChunkHex (hcase : ReadsEitherCase noble) (h : isBitmapChunkHex hex = true) :
    ∃ b : Bytes 32, Decodes noble hex b.toList := by
  obtain ⟨b, hb⟩ := exists_bytes_of_isBitmapChunkHex h
  exact ⟨b, h, hcase hex b.toList hb⟩

theorem Respelled.isBitmapChunkHex_eq (h : Respelled hex hex') :
    isBitmapChunkHex hex = isBitmapChunkHex hex' := by
  rcases h with rfl | ⟨hok, hok', -⟩
  · rfl
  · rw [hok, hok']

theorem Respelled.hexToBytes_eq (hcase : ReadsEitherCase noble) (h : Respelled hex hex') :
    noble.hexToBytes hex = noble.hexToBytes hex' := by
  rcases h with rfl | ⟨hok, -, hlower⟩
  · rfl
  · obtain ⟨b, hb⟩ := exists_bytes_of_isBitmapChunkHex hok
    rw [hcase hex b.toList hb, hcase hex' b.toList (hlower ▸ hb)]

theorem Respelled.extractBit_eq (hcase : ReadsEitherCase noble) (h : Respelled hex hex')
    (bitOffset : ℕ) :
    extractBitFromBitmapChunkHex noble hex bitOffset =
      extractBitFromBitmapChunkHex noble hex' bitOffset := by
  rw [extractBitFromBitmapChunkHex, extractBitFromBitmapChunkHex, h.isBitmapChunkHex_eq,
    h.hexToBytes_eq hcase]

theorem Respelled.anySet_eq (hcase : ReadsEitherCase noble) (h : Respelled hex hex') (offsets : List ℕ) :
    anySet noble hex offsets = anySet noble hex' offsets := by
  induction offsets with
  | nil => rfl
  | cons bitOffset rest ih => rw [anySet, anySet, h.extractBit_eq hcase, ih]

theorem Respelled.hasZeroUnusedPadding_eq (hcase : ReadsEitherCase noble) (h : Respelled hex hex')
    (treeSize leafIndex : ℕ) :
    hasZeroUnusedPadding noble hex treeSize leafIndex = hasZeroUnusedPadding noble hex' treeSize
      leafIndex := by
  simp only [hasZeroUnusedPadding, h.anySet_eq hcase]

theorem Respelled.hashLeaf_eq (hcase : ReadsEitherCase noble) (h : Respelled hex hex') :
    hashBitmapLeafChunkHex noble sha256 hex = hashBitmapLeafChunkHex noble sha256 hex' := by
  rw [hashBitmapLeafChunkHex, hashBitmapLeafChunkHex, h.isBitmapChunkHex_eq, h.hexToBytes_eq hcase]

theorem RespelledNode.hashPathNode_eq (hcase : ReadsEitherCase noble) {node node' : PathNode}
    (h : RespelledNode node node') (currentHash : JsString) :
    hashPathNode noble sha256 currentHash node = hashPathNode noble sha256 currentHash node' := by
  simp only [hashPathNode, hashBitmapInternalNodeHex, h.position_eq, h.hash.isBitmapChunkHex_eq,
    h.hash.hexToBytes_eq hcase]

/-- LOOP: the walk along a path does not depend on the spelling of its nodes. -/
theorem hashAlong_respelled (hcase : ReadsEitherCase noble) {path path' : List PathNode}
    (h : List.Forall₂ RespelledNode path path') (currentHash : JsString) :
    hashAlong noble sha256 currentHash path = hashAlong noble sha256 currentHash path' := by
  induction h generalizing currentHash with
  | nil => rfl
  | cons hnode _ ih =>
    rw [hashAlong, hashAlong, hnode.hash.isBitmapChunkHex_eq, hnode.hashPathNode_eq hcase]
    simp only [ih]

end Spellings

/-! ### The comparison -/

/-- Everything before the comparison: the bit, its place, and the hash that the path
    led to, if there is one. -/
def walkBitmapMerkleProof (noble : NobleUtils) (sha256 : List UInt8 → Bytes 32) (leafChunk : JsString)
    (auditPath : List PathNode) (treeSize bitIndex : ℕ) : JsM (Bool × Option JsString) := do
  if ¬ isValidAuthenticatedTreeShape treeSize bitIndex (bitIndex / 256) auditPath then
    return (false, none)
  else if ¬ isBitmapChunkHex leafChunk then return (false, none)
  else if ¬ (← hasZeroUnusedPadding noble leafChunk treeSize (bitIndex / 256)) then return (false, none)
  else
    let included ← extractBitFromBitmapChunkHex noble leafChunk (bitIndex % 256)
    let currentHash ← hashBitmapLeafChunkHex noble sha256 leafChunk
    return (included, ← hashAlong noble sha256 currentHash auditPath)

section Walk

variable {leafChunk leafChunk' : JsString} {auditPath auditPath' : List PathNode}
  {context context' : AuthenticatedBitmapProofContext}

/-- The answer about a walk. -/
def walkResult (context : AuthenticatedBitmapProofContext) (walk : Bool × Option JsString) :
    BitmapVerificationResult where
  valid := walk.2.any fun hash => js "0x" ++ hash = normalizedExpected context.expectedRoot
  included := walk.1
  leafIndex := context.bitIndex / 256
  bitOffset := context.bitIndex % 256

theorem verifyBitmapMerkleProof_eq : verifyBitmapMerkleProof noble sha256 leafChunk auditPath context =
    (walkBitmapMerkleProof noble sha256 leafChunk auditPath context.treeSize context.bitIndex).map
      (walkResult context) := by
  unfold verifyBitmapMerkleProof walkBitmapMerkleProof
  rw [calculateBrandedLeafIndex_eq context.bitIndex_le, ok_bind,
    calculateBrandedBitOffset_eq context.bitIndex_le, ok_bind]
  by_cases hshape :
      isValidAuthenticatedTreeShape context.treeSize context.bitIndex (context.bitIndex / 256)
        auditPath = true
  · rw [if_neg (not_not.mpr hshape), if_neg (not_not.mpr hshape)]
    by_cases hchunk : isBitmapChunkHex leafChunk = true
    · rw [if_neg (not_not.mpr hchunk), if_neg (not_not.mpr hchunk)]
      rcases hasZeroUnusedPadding noble leafChunk context.treeSize
        (context.bitIndex / 256) with e | _ | _
      · rfl
      · rfl
      · rcases extractBitFromBitmapChunkHex noble leafChunk (context.bitIndex % 256) with e | included
        · rfl
        · rcases hashBitmapLeafChunkHex noble sha256 leafChunk with e | leafHash
          · rfl
          · rw [ok_bind, ok_bind, ok_bind, ok_bind, ok_bind, ok_bind]
            rcases hashAlong noble sha256 leafHash auditPath with e | _ | rootHash
            · rfl
            · rfl
            · rfl
    · rw [if_pos hchunk, if_pos hchunk]
      rfl
  · rw [if_pos hshape, if_pos hshape]
    rfl

theorem shape_respelled (hpath : List.Forall₂ RespelledNode auditPath auditPath')
    (treeSize bitIndex leafIndex : ℕ) :
    isValidAuthenticatedTreeShape treeSize bitIndex leafIndex auditPath =
      isValidAuthenticatedTreeShape treeSize bitIndex leafIndex auditPath' := by
  have hpositions : auditPath.map PathNode.position = auditPath'.map PathNode.position := by
    induction hpath with
    | nil => rfl
    | cons hnode _ ih => rw [List.map_cons, List.map_cons, hnode.position_eq, ih]
  simp only [isValidAuthenticatedTreeShape, hpath.length_eq]
  split
  · rfl
  split
  · rfl
  split
  · rfl
  split
  · rfl
  rename_i hlength
  rw [positions_all (hpath.length_eq.trans (not_not.mp hlength)),
    positions_all (not_not.mp hlength), hpositions]

/-- WALK: the walk does not depend on the spelling of chunk and siblings. -/
theorem walk_respelled (hcase : ReadsEitherCase noble) (hchunk : Respelled leafChunk leafChunk')
    (hpath : List.Forall₂ RespelledNode auditPath auditPath') (treeSize bitIndex : ℕ) :
    walkBitmapMerkleProof noble sha256 leafChunk auditPath treeSize bitIndex =
      walkBitmapMerkleProof noble sha256 leafChunk' auditPath' treeSize bitIndex := by
  have halong := @hashAlong_respelled noble sha256 hcase _ _ hpath
  simp only [walkBitmapMerkleProof, shape_respelled hpath, hchunk.isBitmapChunkHex_eq,
    hchunk.hasZeroUnusedPadding_eq hcase, hchunk.extractBit_eq hcase, hchunk.hashLeaf_eq hcase, halong]

/-- The chunk leads along the path to the root. -/
structure LeadsTo (noble : NobleUtils) (sha256 : List UInt8 → Bytes 32) (leafChunk : JsString)
    (auditPath : List PathNode) (context : AuthenticatedBitmapProofContext) (root : Bytes 32) :
    Prop where
  shape : isValidAuthenticatedTreeShape context.treeSize context.bitIndex (context.bitIndex / 256)
    auditPath = true
  chunk : isBitmapChunkHex leafChunk = true
  padding : hasZeroUnusedPadding noble leafChunk context.treeSize (context.bitIndex / 256) = .ok true
  siblings : ∀ node ∈ auditPath, isBitmapChunkHex node.hash = true
  reached : follow (hashStep sha256) (sha256 (bitmapLeafMessage (decoded noble leafChunk)))
    (auditPath.map (decodedStep noble)) = root

theorem siblings_of_hashAlong {currentHash rootHash : JsString} {path : List PathNode}
    (h : hashAlong noble sha256 currentHash path = .ok (some rootHash)) :
    ∀ node ∈ path, isBitmapChunkHex node.hash = true := by
  induction path generalizing currentHash with
  | nil => exact fun _ hnode => absurd hnode List.not_mem_nil
  | cons node rest ih =>
    rw [hashAlong] at h
    split at h
    · cases h
    · rename_i hnode
      obtain ⟨hash, -, hrest⟩ := bind_eq_ok.mp h
      exact List.forall_mem_cons.mpr ⟨not_not.mp hnode, ih hrest⟩

theorem hashAlong_eq (hcase : ReadsEitherCase noble) {path : List PathNode}
    (hpath : ∀ node ∈ path, isBitmapChunkHex node.hash = true) (cur : Bytes 32) :
    hashAlong noble sha256 (text cur) path =
      .ok (some (text (follow (hashStep sha256) cur (path.map (decodedStep noble))))) := by
  induction path generalizing cur with
  | nil => rfl
  | cons node rest ih =>
    obtain ⟨hnode, hrest⟩ := List.forall_mem_cons.mp hpath
    obtain ⟨sibling, hsibling⟩ := decodes_of_isBitmapChunkHex hcase hnode
    have hstep : ∃ hash, hashPathNode noble sha256 (text cur) node = .ok hash := by
      unfold hashPathNode
      split
      · exact ⟨_, hashBitmapInternalNodeHex_eq_ok.mpr ⟨_, _, hsibling, decodes_text noble cur, rfl⟩⟩
      · exact ⟨_, hashBitmapInternalNodeHex_eq_ok.mpr ⟨_, _, decodes_text noble cur, hsibling, rfl⟩⟩
    obtain ⟨hash, hhash⟩ := hstep
    rw [hashAlong, if_neg (not_not.mpr hnode), hhash,
      ok_bind, ← hashPathNode_step noble sha256 hhash, ih hrest]
    rfl

/-- A walk that ends in a hash has led there. -/
theorem leadsTo_of_walk {included : Bool} {rootHash : JsString}
    (h : walkBitmapMerkleProof noble sha256 leafChunk auditPath context.treeSize context.bitIndex =
      .ok (included, some rootHash)) :
    ∃ root, rootHash = text root ∧ LeadsTo noble sha256 leafChunk auditPath context root := by
  unfold walkBitmapMerkleProof at h
  split at h
  · cases h
  rename_i hshape
  split at h
  · cases h
  rename_i hchunk
  obtain ⟨padded, hpadded, h⟩ := bind_eq_ok.mp h
  split at h
  · cases h
  rename_i hpadding
  obtain ⟨bit, -, h⟩ := bind_eq_ok.mp h
  obtain ⟨leafHash, hleaf, h⟩ := bind_eq_ok.mp h
  obtain ⟨reached, hreached, h⟩ := bind_eq_ok.mp h
  cases Except.ok.inj h
  obtain ⟨chunk, hdecodes, rfl⟩ := hashBitmapLeafChunkHex_eq_ok.mp hleaf
  refine ⟨_, (hashAlong_follow noble sha256 hreached).symm, not_not.mp hshape, not_not.mp hchunk, ?_,
    siblings_of_hashAlong hreached, ?_⟩
  · rw [hpadded, not_not.mp hpadding]
  · rw [decoded_of_decodes hdecodes]

theorem LeadsTo.walk_eq (hcase : ReadsEitherCase noble) {root : Bytes 32}
    (h : LeadsTo noble sha256 leafChunk auditPath context root) :
    ∃ included, walkBitmapMerkleProof noble sha256 leafChunk auditPath context.treeSize
      context.bitIndex = .ok (included, some (text root)) := by
  obtain ⟨hshape, hchunk, hpadding, hsiblings, hreached⟩ := h
  obtain ⟨chunk, hdecodes⟩ := decodes_of_isBitmapChunkHex hcase hchunk
  have hleaf := (@hashBitmapLeafChunkHex_eq_ok noble sha256 _ _).mpr ⟨chunk.toList, hdecodes, rfl⟩
  obtain ⟨included, hbit⟩ : ∃ included,
      extractBitFromBitmapChunkHex noble leafChunk (context.bitIndex % 256) = .ok included := by
    have hlt : context.bitIndex % 256 / 8 < chunk.toList.length := by
      rw [chunk.length_eq]
      omega
    have hoffset : ¬ context.bitIndex % 256 ≥ bitmapChunkBits := not_le.mpr (Nat.mod_lt _ (by decide))
    have hbytes :
        ∃ included, extractBitFromBitmapChunkBytes chunk.toList (context.bitIndex % 256) =
          .ok included := by
      rw [extractBitFromBitmapChunkBytes, if_neg hoffset, List.getElem?_eq_getElem hlt]
      exact ⟨_, rfl⟩
    obtain ⟨included, hincluded⟩ := hbytes
    exact ⟨included, extractBitFromBitmapChunkHex_eq_ok.mpr ⟨_, hdecodes, hincluded⟩⟩
  refine ⟨included, ?_⟩
  rw [decoded_of_decodes hdecodes] at hreached
  rw [walkBitmapMerkleProof, if_neg (not_not.mpr hshape), if_neg (not_not.mpr hchunk), hpadding, ok_bind,
    if_neg (not_not.mpr rfl), hbit, ok_bind, hleaf, ok_bind, hashAlong_eq hcase hsiblings,
    ok_bind, hreached]
  rfl

/-! ### The root as a text -/

theorem expectedRoot_digits (context : AuthenticatedBitmapProofContext) :
    ∃ digits, isBitmapChunkHex digits = true ∧
      normalizedExpected context.expectedRoot = js "0x" ++ digits ∧
      ∃ lead ∈ [js "", js "0x"], context.expectedRoot = lead ++ digits := by
  have hroot := context.expectedRoot_ok
  rw [isBitmapRoot, Bool.or_eq_true, Bool.and_eq_true, decide_eq_true_eq] at hroot
  rcases hroot with hdigits | ⟨hlead, hdigits⟩
  · have hlead : ¬ context.expectedRoot.take 2 = js "0x" := by
      intro hlead
      have hx : 'x' ∈ js "0x" := by decide
      rw [← hlead] at hx
      simp only [isBitmapChunkHex, decide_eq_true_eq, List.all_eq_true] at hdigits
      exact absurd (hdigits.2 'x' (List.mem_of_mem_take hx)) (by decide)
    exact ⟨_, hdigits, if_neg hlead, js "", by simp, rfl⟩
  · have hsplit : context.expectedRoot = js "0x" ++ context.expectedRoot.drop 2 := by
      rw [← hlead, List.take_append_drop]
    exact ⟨_, hdigits, (if_pos hlead).trans hsplit, js "0x", by simp, hsplit⟩

/-- COMPARED: a hash is the expected root if it is the root's bytes and the root has no capitals. -/
theorem eq_normalizedExpected_iff {root reached : Bytes 32}
    (hroot : Spells context.expectedRoot root.toList) :
    js "0x" ++ text reached = normalizedExpected context.expectedRoot ↔
    reached = root ∧ IsLowerRoot context := by
  obtain ⟨digits, hdigits, hnormalized, lead, hlead, hexpected⟩ := expectedRoot_digits context
  obtain ⟨b, hb⟩ := exists_bytes_of_isBitmapChunkHex hdigits
  have hspells : Spells context.expectedRoot b.toList :=
    ⟨lead, by simp only [List.mem_cons] at hlead ⊢; tauto, digits, hexpected, hb⟩
  obtain rfl := spells_unique hroot hspells
  have hlower : IsLowerRoot context ↔ toLowerCase digits = digits := by
    simp only [List.mem_cons, List.not_mem_nil, or_false] at hlead
    rw [IsLowerRoot, hexpected]
    rcases hlead with rfl | rfl
    · rfl
    · have hlead : toLowerCase (js "0x" ++ digits) = js "0x" ++ toLowerCase digits := rfl
      rw [hlead, List.append_cancel_left_eq]
  rw [hnormalized, List.append_cancel_left_eq, hlower, hb]
  constructor
  · rintro rfl
    have htext : text reached = text root := (toLowerCase_hexText reached.toList).symm.trans hb
    exact ⟨text_injective htext, htext.symm⟩
  · rintro ⟨rfl, h⟩
    exact h

/-- SPELLING: another spelling of the chunk or of a sibling never changes the answer; another spelling
    of the root changes it exactly if one of the two has capital digits, the other has none, and the
    chunk leads to the root. -/
theorem bitmap_spelling_iff (hcase : ReadsEitherCase noble)
    (hcontext : RespelledContext context context') (hchunk : Respelled leafChunk leafChunk')
    (hpath : List.Forall₂ RespelledNode auditPath auditPath') :
    verifyBitmapMerkleProof noble sha256 leafChunk auditPath context =
        verifyBitmapMerkleProof noble sha256 leafChunk' auditPath' context' ↔
      (IsLowerRoot context ↔ IsLowerRoot context') ∨ ∀ root : Bytes 32,
        Spells context.expectedRoot root.toList →
        ¬ LeadsTo noble sha256 leafChunk auditPath context root := by
  obtain ⟨root, hroot, hroot'⟩ := hcontext.root
  rw [verifyBitmapMerkleProof_eq,
    verifyBitmapMerkleProof_eq, ← hcontext.treeSize_eq, ← hcontext.bitIndex_eq, ← walk_respelled hcase
      hchunk hpath]
  constructor
  · intro heq
    by_contra hnot
    rw [not_or, not_forall] at hnot
    obtain ⟨hlower, root', hnot⟩ := hnot
    rw [Classical.not_imp, not_not] at hnot
    obtain ⟨hspells, hleads⟩ := hnot
    obtain rfl := spells_unique hroot hspells
    obtain ⟨included, hwalk⟩ := hleads.walk_eq hcase
    rw [hwalk] at heq
    have hvalid := congrArg BitmapVerificationResult.valid (Except.ok.inj heq)
    simp only [walkResult, Option.any_some, eq_normalizedExpected_iff hroot,
      eq_normalizedExpected_iff hroot', true_and, decide_eq_decide] at hvalid
    exact hlower hvalid
  · intro h
    rcases hwalk :
      walkBitmapMerkleProof noble sha256 leafChunk auditPath context.treeSize context.bitIndex with
      e | ⟨included, _ | rootHash⟩
    · rfl
    · simp only [Except.map, walkResult, Option.any_none, hcontext.bitIndex_eq]
    · obtain ⟨reached, rfl, hleads⟩ := leadsTo_of_walk hwalk
      have hvalid :
          (reached = root ∧ IsLowerRoot context) ↔ (reached = root ∧ IsLowerRoot context') := by
        rcases h with hlower | hnot
        · rw [hlower]
        · have hne : reached ≠ root := by
            rintro rfl
            exact hnot _ hroot hleads
          simp [hne]
      rw [← eq_normalizedExpected_iff hroot, ← eq_normalizedExpected_iff hroot'] at hvalid
      simp only [Except.map, walkResult, Option.any_some, decide_eq_decide.mpr hvalid,
        hcontext.bitIndex_eq]

end Walk

/-! ### A root in capitals -/

/-- The reading of digits does not look at their case. -/
theorem readHex_toLowerCase (digits : JsString) : readHex (toLowerCase digits) = readHex digits := by
  fun_induction readHex digits with
  | case1 => rfl
  | case2 _ => rfl
  | case3 high low rest hdigits ih =>
    rw [toLowerCase] at ih
    rw [toLowerCase, List.map_cons, List.map_cons, readHex, toLower_toLower, toLower_toLower,
      if_pos hdigits, ih]
    simp only [hexValue, toLower_toLower]
  | case4 high low rest hdigits =>
    rw [toLowerCase, List.map_cons, List.map_cons, readHex, toLower_toLower, toLower_toLower,
      if_neg hdigits]

theorem reference_readsEitherCase : ReadsEitherCase NobleUtils.reference := by
  intro digits bytes h
  have hread := readHex_hexText bytes
  rwa [← h, readHex_toLowerCase] at hread

/-- A bitmap of one bit. -/
def oneBit : JsArray Bool := ⟨[true], by decide⟩

/-- Its root, with capital digits. -/
def capitalRoot : JsString :=
  js "0x" ++ (text (computeBitmapMerkleRoot Sha256.digest oneBit.toList)).map Char.toUpper

theorem capitalRoot_ok : isBitmapRoot capitalRoot = true := by decide +kernel

theorem capitalRoot_spells :
    Spells capitalRoot (computeBitmapMerkleRoot Sha256.digest oneBit.toList).toList :=
  ⟨js "0x", by simp, _, rfl, by decide +kernel⟩

def lowerContext : AuthenticatedBitmapProofContext :=
  @contextOf Sha256.digest oneBit 0 (by decide)

def capitalContext : AuthenticatedBitmapProofContext :=
  { lowerContext with expectedRoot := capitalRoot, expectedRoot_ok := capitalRoot_ok }

theorem capitalContext_respelled : RespelledContext lowerContext capitalContext :=
  ⟨rfl, rfl, _, prefixed_spells _, capitalRoot_spells⟩

def lowerChunk : JsString := js "01" ++ List.replicate 62 'a'

def capitalChunk : JsString := js "01" ++ List.replicate 62 'A'

/-- The same proof in two spellings of its chunk. -/
theorem bitmap_spelling_on_sample :
    verifyBitmapMerkleProof NobleUtils.reference Sha256.digest lowerChunk [] lowerContext =
      verifyBitmapMerkleProof NobleUtils.reference Sha256.digest capitalChunk [] lowerContext := by
  refine (bitmap_spelling_iff reference_readsEitherCase
    ⟨rfl, rfl, _, prefixed_spells _, prefixed_spells _⟩ (.inr ⟨?_, ?_, ?_⟩) .nil).mpr (.inl Iff.rfl)
  · decide
  · decide
  · decide

/-- The proof of the bit is turned away where the root is spelled in capitals. -/
theorem capital_root_is_refused :
    ¬ ∀ (context context' : AuthenticatedBitmapProofContext) (leafChunk : JsString)
      (auditPath : List PathNode), RespelledContext context context' →
      verifyBitmapMerkleProof NobleUtils.reference Sha256.digest leafChunk auditPath context =
        verifyBitmapMerkleProof NobleUtils.reference Sha256.digest leafChunk auditPath context' := by
  intro hall
  have hlower : (verifyBitmapMerkleProof NobleUtils.reference Sha256.digest
      (text (bitmapLeafChunk oneBit.toList 0)) [] lowerContext).map (·.valid) = .ok true := by
    decide +kernel
  have hcapital : (verifyBitmapMerkleProof NobleUtils.reference Sha256.digest
      (text (bitmapLeafChunk oneBit.toList 0)) [] capitalContext).map (·.valid) = .ok false := by
    decide +kernel
  rw [hall lowerContext capitalContext _ _ capitalContext_respelled, hcapital] at hlower
  cases hlower

end StarkBallot.Verification
