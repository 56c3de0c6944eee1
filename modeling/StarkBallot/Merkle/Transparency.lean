import StarkBallot.Merkle.Coherence

/-! The caches of the tree cannot be observed. A run answers every call, with a value or a throw; the
    plain run answers the same calls from the list of accepted leaves alone. The two lists of answers
    are equal, whatever the order of growth and of historical queries, and a
    rejected leaf leaves no trace. -/

namespace StarkBallot.Merkle
open Schemes ContractCore CryptoPrimitives

variable (noble : NobleUtils) (sha256 : List UInt8 → Bytes 32)

/-- What a call returns. -/
inductive Reply where
  | done
  | root (root : JsString)
  | inclusion (proof : InclusionProof)
  | consistency (proof : ConsistencyProof)

/-- The answer of a call on a tree. -/
def Call.reply : Call → Tree → JsM Reply
  | .append leaf, t => (exec (Merkle.append leaf) t).1.map fun _ => .done
  | .getRoot, t => (exec (Merkle.getRoot noble sha256) t).1.map .root
  | .getRootAtSize size, t => (exec (Merkle.getRootAtSize noble sha256 size) t).1.map .root
  | .getInclusionProof leafIndex treeSize, t =>
    (exec (Merkle.getInclusionProof noble sha256 leafIndex treeSize) t).1.map .inclusion
  | .getConsistencyProof oldSize newSize, t =>
    (exec (Merkle.getConsistencyProof noble sha256 oldSize newSize) t).1.map .consistency
  | .clearCache, t => (exec Merkle.clearCache t).1.map fun _ => .done

/-- The answers of a run. -/
def replies : Tree → List Call → List (JsM Reply)
  | _, [] => []
  | t, call :: calls => call.reply noble sha256 t :: replies (call.after noble sha256 t) calls

namespace Plain

/-- The answer of a call, from the leaves alone. -/
def reply : Call → List JsString → JsM Reply
  | .append leaf, leaves => (append leaves leaf).map fun _ => .done
  | .getRoot, leaves => (getRoot noble sha256 leaves).map .root
  | .getRootAtSize size, leaves => (getRootAtSize noble sha256 leaves size).map .root
  | .getInclusionProof leafIndex treeSize, leaves =>
    (getInclusionProof noble sha256 leaves leafIndex treeSize).map .inclusion
  | .getConsistencyProof oldSize newSize, leaves =>
    (getConsistencyProof noble sha256 leaves oldSize newSize).map .consistency
  | .clearCache, _ => .ok .done

/-- The leaves after a call: one more if it is an accepted append. -/
def after : Call → List JsString → List JsString
  | .append leaf, leaves => (append leaves leaf).toOption.getD leaves
  | _, leaves => leaves

/-- The answers of a run, from the accepted leaves alone. -/
def replies : List JsString → List Call → List (JsM Reply)
  | _, [] => []
  | leaves, call :: calls => reply noble sha256 call leaves :: replies (after call leaves) calls

end Plain

/-! ### Queries leave the leaves alone -/

section Frames

theorem validateMthRange_frames (start size : ℕ) : Frames Tree.leaves (validateMthRange start size) :=
  frames_bind frames_get fun _ => frames_ite (fun _ => frames_throw) fun _ => frames_pure

theorem mthRange_frames (size : ℕ) : ∀ start, Frames Tree.leaves (mthRange noble sha256 start size) := by
  induction size using Nat.strong_induction_on with
  | _ size ih =>
    intro start
    rw [mthRange]
    refine frames_bind (validateMthRange_frames _ _) fun _ =>
      frames_ite (fun _ => frames_pure) fun hzero => ?_
    split
    · refine frames_bind frames_get fun t => ?_
      split
      · exact frames_throw
      · exact frames_throw
      · exact frames_lifted
    · refine frames_bind frames_get fun t => ?_
      split
      · exact frames_throw
      · exact frames_pure
      · have hlt := largestPowerOfTwoLessThan_lt (show 1 < size by omega)
        have hpos := largestPowerOfTwoLessThan_pos (show 1 < size by omega)
        refine frames_ite (fun _ => frames_throw) fun _ => frames_bind (ih _ hlt _) fun _ => ?_
        refine frames_bind (ih _ (by omega) _) fun _ => frames_bind frames_lifted fun _ => ?_
        exact frames_bind (frames_modify fun _ => rfl) fun _ => frames_pure

theorem getRootAtSize_frames (size : ℤ) : Frames Tree.leaves (getRootAtSize noble sha256 size) := by
  refine frames_ite (fun _ => frames_throw) fun _ => frames_ite (fun _ => frames_throw) fun _ => ?_
  refine frames_bind frames_get fun _ =>
    frames_ite (fun _ => frames_bind frames_get fun _ => frames_throw) fun _ => ?_
  refine frames_bind frames_get fun t => ?_
  split
  · exact frames_bind (frames_modify fun _ => rfl) fun _ =>
      frames_ite (fun _ => frames_throw) fun _ => frames_pure
  · refine frames_bind (frames_modify fun _ => rfl) fun _ =>
      frames_bind (mthRange_frames noble sha256 _ _) fun _ => ?_
    exact frames_bind (frames_modify fun _ => rfl) fun _ => frames_pure

theorem getRoot_frames : Frames Tree.leaves (getRoot noble sha256) :=
  frames_bind frames_get fun _ => frames_ite (fun _ => frames_pure) fun _ =>
    frames_bind frames_get fun _ => getRootAtSize_frames noble sha256 _

theorem path_frames (size : ℕ) : ∀ m start, Frames Tree.leaves (path noble sha256 m start size) := by
  induction size using Nat.strong_induction_on with
  | _ size ih =>
    intro m start
    rw [path]
    split
    · exact frames_pure
    · have hlt := largestPowerOfTwoLessThan_lt (show 1 < size by omega)
      have hpos := largestPowerOfTwoLessThan_pos (show 1 < size by omega)
      refine frames_ite (fun _ => ?_) fun _ => ?_
      · exact frames_bind (ih _ hlt _ _) fun _ =>
          frames_bind (mthRange_frames noble sha256 _ _) fun _ => frames_pure
      · exact frames_bind (ih _ (by omega) _ _) fun _ =>
          frames_bind (mthRange_frames noble sha256 _ _) fun _ => frames_pure

theorem getInclusionProof_frames (leafIndex : ℤ) (treeSize : Option ℤ) :
    Frames Tree.leaves (getInclusionProof noble sha256 leafIndex treeSize) := by
  refine frames_bind frames_get fun _ => frames_ite (fun _ => frames_throw) fun _ => ?_
  refine frames_ite (fun _ => frames_throw) fun _ => frames_bind frames_get fun _ => ?_
  refine frames_ite (fun _ => frames_bind frames_get fun _ => frames_throw) fun _ => ?_
  exact frames_bind (path_frames noble sha256 _ _ _) fun _ => frames_pure

theorem subproof_frames (size : ℕ) :
    ∀ m start b, Frames Tree.leaves (subproof noble sha256 m start size b) := by
  induction size using Nat.strong_induction_on with
  | _ size ih =>
    intro m start b
    rw [subproof]
    refine frames_ite (fun _ => ?_) fun _ => frames_ite (fun _ => ?_) fun _ => ?_
    · exact frames_ite (fun _ => frames_pure) fun _ =>
        frames_bind (mthRange_frames noble sha256 _ _) fun _ => frames_pure
    · refine frames_bind frames_get fun t => ?_
      split
      · exact frames_throw
      · exact frames_throw
      · exact frames_pure
    split
    · exact frames_throw
    · have hlt := largestPowerOfTwoLessThan_lt (show 1 < size by omega)
      have hpos := largestPowerOfTwoLessThan_pos (show 1 < size by omega)
      refine frames_ite (fun _ => ?_) fun _ => ?_
      · exact frames_bind (ih _ hlt _ _ _) fun _ =>
          frames_bind (mthRange_frames noble sha256 _ _) fun _ => frames_pure
      · exact frames_bind (ih _ (by omega) _ _ _) fun _ =>
          frames_bind (mthRange_frames noble sha256 _ _) fun _ => frames_pure

theorem getConsistencyProof_frames (oldSize newSize : ℤ) :
    Frames Tree.leaves (getConsistencyProof noble sha256 oldSize newSize) := by
  refine frames_ite (fun _ => frames_throw) fun _ => frames_ite (fun _ => frames_throw) fun _ => ?_
  refine frames_ite (fun _ => frames_throw) fun _ => frames_bind frames_get fun _ => ?_
  refine frames_ite (fun _ => frames_bind frames_get fun _ => frames_throw) fun _ => ?_
  refine frames_ite (fun _ => frames_pure) fun _ => ?_
  exact frames_bind (subproof_frames noble sha256 _ _ _ _) fun _ => frames_pure

end Frames

/-! ### One call, then any number -/

/-- An append answers and stores as the plain one does. -/
theorem append_plain (leaf : JsString) (t : Tree) :
    Call.reply noble sha256 (.append leaf) t = Plain.reply noble sha256 (.append leaf) t.leaves ∧
      (Call.after noble sha256 (.append leaf) t).leaves = Plain.after (.append leaf) t.leaves := by
  simp only [Call.reply, Call.after, Plain.reply, Plain.after, append, Plain.append]
  split
  · exact ⟨rfl, rfl⟩
  split
  · exact ⟨rfl, rfl⟩
  · exact ⟨rfl, rfl⟩

variable {noble sha256} {leaves : List (Bytes 32)} {t : Tree}

/-- A call answers as the plain one does. -/
theorem reply_plain (call : Call) (h : Coherent sha256 leaves t) :
    call.reply noble sha256 t = Plain.reply noble sha256 call t.leaves := by
  cases call with
  | append leaf => exact (append_plain noble sha256 leaf t).1
  | getRoot => rw [Call.reply, (getRoot_answers h).1, Plain.reply]
  | getRootAtSize size => rw [Call.reply, (getRootAtSize_answers size h).1, Plain.reply]
  | getInclusionProof index treeSize =>
      rw [Call.reply, (getInclusionProof_answers index treeSize h).1, Plain.reply]
  | getConsistencyProof oldSize newSize =>
      rw [Call.reply, (getConsistencyProof_answers oldSize newSize h).1, Plain.reply]
  | clearCache => rfl

variable (noble sha256)

/-- Only an accepted append changes the leaves. -/
theorem after_plain (call : Call) (t : Tree) :
    (call.after noble sha256 t).leaves = Plain.after call t.leaves := by
  cases call with
  | append leaf => exact (append_plain noble sha256 leaf t).2
  | getRoot => exact getRoot_frames noble sha256 t
  | getRootAtSize size => exact getRootAtSize_frames noble sha256 size t
  | getInclusionProof index treeSize => exact getInclusionProof_frames noble sha256 index treeSize t
  | getConsistencyProof oldSize newSize =>
      exact getConsistencyProof_frames noble sha256 oldSize newSize t
  | clearCache => rfl

theorem replies_plain (calls : List Call) :
    ∀ {leaves : List (Bytes 32)} {t : Tree}, Coherent sha256 leaves t →
    replies noble sha256 t calls = Plain.replies noble sha256 t.leaves calls := by
  induction calls with
  | nil => intro leaves t _; rfl
  | cons call calls ih =>
    intro leaves t h
    obtain ⟨leaves', h'⟩ := @call_keeps noble sha256 leaves t call h
    rw [replies, Plain.replies, reply_plain call h, ih h', after_plain]

theorem reached_leaves (calls : List Call) :
    (reached noble sha256 calls).leaves = calls.foldl (fun leaves call => Plain.after call leaves)
    [] := by
  induction calls using List.reverseRecOn with
  | nil => rfl
  | append_singleton calls call ih =>
      rw [reached, List.foldl_concat, List.foldl_concat, ← ih, after_plain, reached]

/-- A rejected append changes nothing. -/
theorem append_rejected {leaf : JsString} {t : Tree} {e : JsError}
    (h : Call.reply noble sha256 (.append leaf) t = .error e) :
    Call.after noble sha256 (.append leaf) t = t := by
  simp only [Call.reply, append] at h
  simp only [Call.after, append]
  split
  · rfl
  split
  · rfl
  · rename_i hne hvalid
    rw [if_neg hne, if_neg hvalid] at h
    cases h

/-- TRANSPARENCY: the answers of any run, returned or thrown, are those recomputed without caches from
    the accepted leaves; those leaves are what the tree stores; and a rejected append changes neither
    the leaves nor any later answer. -/
theorem caches_unobservable (calls : List Call) :
    replies noble sha256 Tree.new calls = Plain.replies noble sha256 [] calls ∧
    (reached noble sha256 calls).leaves = calls.foldl (fun leaves call => Plain.after call leaves) [] ∧
    ∀ leaf e, Call.reply noble sha256 (.append leaf) (reached noble sha256 calls) = .error e →
      (reached noble sha256 (calls ++ [.append leaf])).leaves = (reached noble sha256 calls).leaves ∧
      ∀ later, replies noble sha256 (reached noble sha256 (calls ++ [.append leaf])) later =
        replies noble sha256 (reached noble sha256 calls) later := by
  refine ⟨replies_plain noble sha256 calls coherent_new, reached_leaves noble sha256 calls,
    fun leaf e hreply => ?_⟩
  have hsame : reached noble sha256 (calls ++ [.append leaf]) = reached noble sha256 calls := by
    rw [reached, List.foldl_concat]
    exact append_rejected noble sha256 hreply
  rw [hsame]
  exact ⟨rfl, fun _ => rfl⟩

end StarkBallot.Merkle
