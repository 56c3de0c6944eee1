import Mathlib.Algebra.Ring.Nat
import Mathlib.Data.Nat.Log
import StarkBallot.Schemes.Levels

/-! Merkle trees by splitting. A list of `n ≥ 2` nodes is split at the largest power of two below `n`;
    the root joins the roots of the two parts (`mth`), an audit path is the path in the part that
    holds the leaf followed by the root of the other part (`auditPath`), and a path is checked by the
    same recursion (`descend`). The point of the module is that this top-down tree and the bottom-up
    one of `Levels` are the same tree: `levelsRoot_eq_mth` for roots, `climb_eq_descend` for paths.
    Both proofs peel the bottom level off a split tree, which works because the split point of a tree
    of three or more leaves is even and halves to the split point of the level above. -/

namespace StarkBallot.Schemes

/-- The largest power of two below `n` (for `n ≥ 2`). -/
def splitPoint (n : ℕ) : ℕ := 2 ^ Nat.log 2 (n - 1)

theorem splitPoint_pos (n : ℕ) : 0 < splitPoint n := Nat.two_pow_pos _

theorem splitPoint_lt {n : ℕ} (h : 1 < n) : splitPoint n < n := by
  have hne : n - 1 ≠ 0 := by omega
  have hlog := Nat.pow_log_le_self 2 hne
  unfold splitPoint; omega

/-- A power of two `k` with `k < n ≤ 2k` is the split point. -/
theorem splitPoint_unique {e n : ℕ} (hlt : 2 ^ e < n) (hle : n ≤ 2 ^ (e + 1)) :
    splitPoint n = 2 ^ e := by
  have hpos := Nat.two_pow_pos e
  rw [splitPoint, Nat.log_eq_of_pow_le_of_lt_pow (m := e) (by omega) (by omega)]

theorem le_two_mul_splitPoint {n : ℕ} (h : 1 < n) : n ≤ 2 * splitPoint n := by
  have := Nat.lt_pow_succ_log_self (b := 2) (by omega) (n - 1)
  rw [Nat.pow_succ] at this
  unfold splitPoint; omega

theorem splitPoint_two : splitPoint 2 = 1 := splitPoint_unique (e := 0) (by omega) (by omega)

/-- The split point halves from one level to the next. -/
theorem splitPoint_half {n : ℕ} (h : 2 < n) : splitPoint n = 2 * splitPoint ((n + 1) / 2) := by
  have hlt := splitPoint_lt (n := (n + 1) / 2) (by omega)
  have hle := le_two_mul_splitPoint (n := (n + 1) / 2) (by omega)
  have hpow : 2 * splitPoint ((n + 1) / 2) = 2 ^ (Nat.log 2 ((n + 1) / 2 - 1) + 1) := by
    rw [splitPoint, Nat.pow_succ, Nat.mul_comm]
  rw [hpow]
  refine splitPoint_unique (by rw [← hpow]; omega) ?_
  rw [Nat.pow_succ, ← hpow]; omega

variable {α : Type} (node : α → α → α)

/-! ### Roots -/

/-- Merkle tree hash by splitting; `d` stands for the root of no leaves. -/
def mth (d : α) (l : List α) : α :=
  if 1 < l.length then
    node (mth d (l.take (splitPoint l.length))) (mth d (l.drop (splitPoint l.length)))
  else l.headD d
termination_by l.length
decreasing_by
  all_goals
    have := splitPoint_pos l.length
    have := splitPoint_lt (n := l.length) (by omega)
    simp only [List.length_take, List.length_drop]; omega

theorem mth_of_le {d : α} {l : List α} (h : l.length ≤ 1) : mth node d l = l.headD d := by
  rw [mth, if_neg (by omega)]

theorem mth_of_lt {d : α} {l : List α} (h : 1 < l.length) :
    mth node d l = node (mth node d (l.take (splitPoint l.length)))
      (mth node d (l.drop (splitPoint l.length))) := by
  rw [mth, if_pos h]

/-- The split form of `mth`, read off a concatenation. -/
theorem mth_append {d : α} {l l' : List α} (h : 1 < (l ++ l').length)
    (hk : splitPoint (l ++ l').length = l.length) :
    mth node d (l ++ l') = node (mth node d l) (mth node d l') := by
  rw [mth_of_lt node h, hk, List.take_left, List.drop_left]

/-- The pairs `mth` gives to `node`. -/
def mthPairs (d : α) (l : List α) : List (α × α) :=
  if 1 < l.length then
    (mth node d (l.take (splitPoint l.length)), mth node d (l.drop (splitPoint l.length))) ::
      (mthPairs d (l.take (splitPoint l.length)) ++ mthPairs d (l.drop (splitPoint l.length)))
  else []
termination_by l.length
decreasing_by
  all_goals
    have := splitPoint_pos l.length
    have := splitPoint_lt (n := l.length) (by omega)
    simp only [List.length_take, List.length_drop]; omega

theorem mthPairs_of_lt {d : α} {l : List α} (h : 1 < l.length) : mthPairs node d l =
    (mth node d (l.take (splitPoint l.length)), mth node d (l.drop (splitPoint l.length))) ::
      (mthPairs node d (l.take (splitPoint l.length)) ++
        mthPairs node d (l.drop (splitPoint l.length))) := by
  rw [mthPairs, if_pos h]

theorem mthPairs_of_le {d : α} {l : List α} (h : l.length ≤ 1) : mthPairs node d l = [] := by
  rw [mthPairs, if_neg (by omega)]

/-- Past the split point a prefix splits where the whole does. -/
theorem splitPoint_between {m n : ℕ} (hlow : splitPoint n < m) (hhigh : m ≤ n) :
    splitPoint m = splitPoint n := by
  have hle := le_two_mul_splitPoint (n := n) (by have := splitPoint_pos n; omega)
  refine splitPoint_unique hlow ?_
  rw [Nat.pow_succ, Nat.mul_comm]
  exact hhigh.trans hle

/-- A prefix past the split point joins the whole left part with a prefix of the right part. -/
theorem mth_take {d : α} {l : List α} {m : ℕ} (hlow : splitPoint l.length < m) (hhigh : m ≤ l.length) :
    mth node d (l.take m) = node (mth node d (l.take (splitPoint l.length)))
      (mth node d ((l.drop (splitPoint l.length)).take (m - splitPoint l.length))) := by
  have hpos := splitPoint_pos l.length
  have hlen : (l.take m).length = m := by rw [List.length_take]; omega
  rw [mth_of_lt node (by omega), hlen, splitPoint_between hlow hhigh, List.take_take,
    Nat.min_eq_left hlow.le, List.drop_take]

/-- The pairs of a tree of equal leaves come from its sizes: any property of sizes that both parts
    inherit holds of the size behind each pair. -/
theorem mem_mthPairs_replicate {d x : α} {P : ℕ → Prop}
    (hP : ∀ s, 1 < s → P s → P (splitPoint s) ∧ P (s - splitPoint s)) {p : α × α} :
    ∀ s, P s → p ∈ mthPairs node d (List.replicate s x) → ∃ s', 1 < s' ∧ P s' ∧
      p = (mth node d (List.replicate (splitPoint s') x),
        mth node d (List.replicate (s' - splitPoint s') x)) := by
  intro s
  induction s using Nat.strong_induction_on with
  | _ s ih =>
    intro hs hp
    rcases Nat.lt_or_ge 1 s with h | h
    · have hlt := splitPoint_lt h
      have hpos := splitPoint_pos s
      rw [mthPairs_of_lt node (by rwa [List.length_replicate]), List.length_replicate,
        List.take_replicate, List.drop_replicate, Nat.min_eq_left hlt.le, List.mem_cons,
        List.mem_append] at hp
      rcases hp with rfl | hleft | hright
      · exact ⟨s, h, hs, rfl⟩
      · exact ih _ hlt (hP s h hs).1 hleft
      · exact ih _ (by omega) (hP s h hs).2 hright
    · rw [mthPairs_of_le node (by rwa [List.length_replicate])] at hp
      cases hp

theorem mth_replicate {d x : α} {s : ℕ} (h : 1 < s) : mth node d (List.replicate s x) =
    node (mth node d (List.replicate (splitPoint s) x))
      (mth node d (List.replicate (s - splitPoint s) x)) := by
  rw [mth_of_lt node (by rwa [List.length_replicate]), List.length_replicate, List.take_replicate,
    List.drop_replicate, Nat.min_eq_left (splitPoint_lt h).le]

/-- An even number of nodes pairs up independently of what follows. -/
theorem pairUp_append : ∀ {l : List α} (l' : List α), l.length % 2 = 0 →
    pairUp node (l ++ l') = pairUp node l ++ pairUp node l'
  | [], _, _ => by simp [pairUp]
  | [_], _, h => by simp at h
  | a :: b :: l, l', h => by
      rw [List.length_cons, List.length_cons] at h
      have heven : l.length % 2 = 0 := by omega
      simp only [List.cons_append, pairUp, pairUp_append l' heven]

/-- Peeling the bottom level off a split tree leaves its root unchanged. -/
theorem mth_pairUp {d : α} (l : List α) : mth node d (pairUp node l) = mth node d l := by
  induction hn : l.length using Nat.strong_induction_on generalizing l with
  | _ n ih =>
    match l, hn with
    | [], _ => rfl
    | [a], _ => rfl
    | [a, b], _ =>
      have hjoin : mth node d [a, b] = node (mth node d [a]) (mth node d [b]) :=
        mth_append (l := [a]) node (by simp) splitPoint_two
      rw [hjoin]
      simp [pairUp, mth_of_le]
    | a :: b :: c :: rest, hn =>
      have hlong : 2 < n := by simp only [List.length_cons] at hn; omega
      generalize a :: b :: c :: rest = l at hn
      subst hn
      have hhalf := splitPoint_half hlong
      have hlt := splitPoint_lt (n := l.length) (by omega)
      have hpos := splitPoint_pos ((l.length + 1) / 2)
      have htake : (l.take (splitPoint l.length)).length = splitPoint l.length := by
        rw [List.length_take]; omega
      have hsplit : pairUp node l =
          pairUp node (l.take (splitPoint l.length)) ++ pairUp node (l.drop (splitPoint l.length)) := by
        conv_lhs => rw [← List.take_append_drop (splitPoint l.length) l]
        exact pairUp_append node _ (by rw [htake]; omega)
      have hlen : (pairUp node (l.take (splitPoint l.length)) ++
          pairUp node (l.drop (splitPoint l.length))).length = (l.length + 1) / 2 := by
        rw [← hsplit, pairUp_length]
      rw [hsplit, mth_append node (by omega) (by rw [hlen, pairUp_length, htake]; omega),
        mth_of_lt node (l := l) (by omega), ih _ (by omega) _ htake,
        ih (l.drop (splitPoint l.length)).length (by rw [List.length_drop]; omega) _ rfl]

/-- ONE TREE (roots): pairing level by level and splitting at powers of two give one root. -/
theorem levelsRoot_eq_mth (d : α) (l : List α) : levelsRoot node d l = mth node d l := by
  induction hn : l.length using Nat.strong_induction_on generalizing l with
  | _ n ih =>
    rcases Nat.lt_or_ge 1 l.length with h | h
    · rw [levelsRoot_of_lt node h, ih _ (by rw [pairUp_length]; omega) _ rfl, mth_pairUp]
    · rw [levelsRoot_of_le node h, mth_of_le node h]

/-! ### Audit paths, root to leaf -/

/-- Join the hash reached so far with the next path node; `none` if there is none. -/
def joinNext (join : α → α → α) : Option (α × List α) → Option (α × List α)
  | some (h, s :: rest) => some (join h s, rest)
  | _ => none

/-- Check a path by the recursion of `mth`: the part that holds the leaf first, then its sibling. -/
def descend (index size : ℕ) (cur : α) (path : List α) : Option (α × List α) :=
  if 1 < size then
    if index < splitPoint size then joinNext node (descend index (splitPoint size) cur path)
    else
      joinNext (fun h s => node s h)
        (descend (index - splitPoint size) (size - splitPoint size) cur path)
  else some (cur, path)
termination_by size
decreasing_by
  all_goals
    have := splitPoint_pos size
    have := splitPoint_lt (n := size) (by omega)
    omega

/-- Audit path of the leaf at `index`: bottom sibling first. -/
def auditPath (d : α) (index : ℕ) (l : List α) : List α :=
  if 1 < l.length then
    if index < splitPoint l.length then
      auditPath d index (l.take (splitPoint l.length)) ++ [mth node d (l.drop (splitPoint l.length))]
    else
      auditPath d (index - splitPoint l.length) (l.drop (splitPoint l.length)) ++
        [mth node d (l.take (splitPoint l.length))]
  else []
termination_by l.length
decreasing_by
  all_goals
    have := splitPoint_pos l.length
    have := splitPoint_lt (n := l.length) (by omega)
    simp only [List.length_take, List.length_drop]; omega

section unfolding

variable {index size : ℕ} {cur : α} {path : List α}

theorem descend_done (h : size ≤ 1) : descend node index size cur path = some (cur, path) := by
  rw [descend, if_neg (by omega)]

theorem descend_left (h : 1 < size) (hi : index < splitPoint size) :
    descend node index size cur path =
      joinNext node (descend node index (splitPoint size) cur path) := by
  rw [descend, if_pos h, if_pos hi]

theorem descend_right (h : 1 < size) (hi : splitPoint size ≤ index) :
    descend node index size cur path = joinNext (fun h s => node s h)
      (descend node (index - splitPoint size) (size - splitPoint size) cur path) := by
  rw [descend, if_pos h, if_neg (by omega)]

end unfolding

/-- The bottom step of a walk: promote the node or join it with the first path node, then go on. -/
def bottomStep (index size : ℕ) (go : α → List α → Option (α × List α)) (cur : α) (path : List α) :
    Option (α × List α) :=
  if Promoted index size then go cur path
  else
    match path with
    | [] => none
    | s :: rest => go (Function.uncurry node (siblingPair index cur s)) rest

theorem joinNext_bottomStep (join : α → α → α) (index size : ℕ) (go : α → List α → Option (α × List α))
    (cur : α) (path : List α) :
    joinNext join (bottomStep node index size go cur path) =
      bottomStep node index size (fun c p => joinNext join (go c p)) cur path := by
  unfold bottomStep
  split
  · rfl
  · cases path <;> rfl

/-- A path over two leaves is its one node. -/
theorem descend_two {index : ℕ} (hi : index < 2) (cur : α) (path : List α) :
    descend node index 2 cur path = bottomStep node index 2 (fun c p => some (c, p)) cur path := by
  have hprom : ¬ Promoted index 2 := by unfold Promoted; omega
  rw [bottomStep.eq_def, if_neg hprom]
  rcases Nat.lt_or_ge index 1 with hzero | hone
  · rw [descend_left node (by omega) (by rw [splitPoint_two]; exact hzero), splitPoint_two,
      descend_done node le_rfl]
    obtain rfl : index = 0 := by omega
    cases path <;> rfl
  · rw [descend_right node (by omega) (by rw [splitPoint_two]; exact hone), splitPoint_two,
      descend_done node le_rfl]
    obtain rfl : index = 1 := by omega
    cases path <;> rfl

/-- Peeling the bottom level off a checked path. -/
theorem descend_bottomStep : ∀ (size index : ℕ) (cur : α) (path : List α), 1 < size → index < size →
    descend node index size cur path =
      bottomStep node index size (descend node (index / 2) ((size + 1) / 2)) cur path := by
  intro size
  induction size using Nat.strong_induction_on with
  | _ size ih =>
    intro index cur path hsize hi
    rcases Nat.lt_or_ge 2 size with hlong | hshort
    swap
    · obtain rfl : size = 2 := by omega
      have hdone : descend node (index / 2) ((2 + 1) / 2) = fun c p => some (c, p) := by
        funext c p
        exact descend_done node (by omega)
      rw [descend_two node hi, hdone]
    have hhalf := splitPoint_half hlong
    have hpos := splitPoint_pos ((size + 1) / 2)
    have hlt := splitPoint_lt hsize
    rcases Nat.lt_or_ge index (splitPoint size) with hleft | hright
    · -- a node of the left part has a sibling there, because the left part is even
      have hup : (splitPoint size + 1) / 2 = splitPoint ((size + 1) / 2) := by omega
      have hpart : ¬ Promoted index (splitPoint size) := by unfold Promoted; omega
      have hwhole : ¬ Promoted index size := by unfold Promoted; omega
      rw [descend_left node hsize hleft, ih _ hlt _ _ _ (by omega) hleft, joinNext_bottomStep, hup,
        bottomStep.eq_def, if_neg hpart, bottomStep.eq_def, if_neg hwhole]
      cases path with
      | nil => rfl
      | cons s path => exact (descend_left node (by omega) (by omega)).symm
    have hparent : ∀ c p, descend node (index / 2) ((size + 1) / 2) c p = joinNext (fun h s => node s h)
        (descend node (index / 2 - splitPoint ((size + 1) / 2))
          ((size + 1) / 2 - splitPoint ((size + 1) / 2)) c p) :=
      fun c p => descend_right node (by omega) (by omega)
    rw [descend_right node hsize hright]
    rcases Nat.lt_or_ge 1 (size - splitPoint size) with hmany | hone
    · -- the right part keeps parities, so its bottom level is the bottom level of the whole
      have hindex : (index - splitPoint size) / 2 = index / 2 - splitPoint ((size + 1) / 2) := by omega
      have hcount :
          (size - splitPoint size + 1) / 2 = (size + 1) / 2 - splitPoint ((size + 1) / 2) := by omega
      have hparity : (index - splitPoint size) % 2 = index % 2 := by omega
      have hprom : Promoted (index - splitPoint size) (size - splitPoint size) ↔
          Promoted index size := by
        unfold Promoted; omega
      have hpair : ∀ c s : α, siblingPair (index - splitPoint size) c s = siblingPair index c s := by
        intro c s
        rw [siblingPair, siblingPair, hparity]
      rw [ih _ (by omega) _ _ _ hmany (by omega), joinNext_bottomStep, hindex, hcount]
      simp only [bottomStep, hprom, hpair, hparent]
    · -- the right part is the promoted last leaf
      have hlast : Promoted index size := by unfold Promoted; omega
      rw [bottomStep.eq_def, if_pos hlast, hparent, descend_done node hone, descend_done node (by omega)]

/-- ONE TREE (paths): walking up level by level and checking by splits agree on every path. -/
theorem climb_eq_descend (index size : ℕ) : ∀ (cur : α) (path : List α), index < size →
    climb node index size cur path = descend node index size cur path := by
  refine climb_induction (motive := fun index size => ∀ (cur : α) (path : List α), index < size →
    climb node index size cur path = descend node index size cur path) ?_ ?_ size index
  · intro index size hsize cur path _
    rw [climb_done node hsize, descend_done node hsize]
  · intro index size hsize ih cur path hi
    rw [descend_bottomStep node size index cur path hsize hi, bottomStep.eq_def]
    by_cases hp : Promoted index size
    · rw [climb_promoted node hsize hp, if_pos hp, ih _ _ (by omega)]
    · rw [if_neg hp]
      cases path with
      | nil => rw [climb_nil node hsize hp]
      | cons s path => rw [climb_cons node hsize hp, ih _ _ (by omega)]

/-- COMPLETENESS: the audit path of a leaf leads from the leaf to the root, using exactly the path. -/
theorem descend_auditPath {d : α} (l : List α) :
    ∀ {index : ℕ} {x : α} (rest : List α), l[index]? = some x →
    descend node index l.length x (auditPath node d index l ++ rest) = some (mth node d l, rest) := by
  induction hn : l.length using Nat.strong_induction_on generalizing l with
  | _ n ih =>
    intro index x rest hx
    subst hn
    obtain ⟨hi, _⟩ := List.getElem?_eq_some_iff.mp hx
    rcases Nat.lt_or_ge 1 l.length with h | h
    · have hpos := splitPoint_pos l.length
      have hlt := splitPoint_lt h
      rw [auditPath, if_pos h, mth_of_lt node h]
      rcases Nat.lt_or_ge index (splitPoint l.length) with hleft | hright
      · have htake : (l.take (splitPoint l.length)).length = splitPoint l.length := by
          rw [List.length_take]; omega
        rw [if_pos hleft, descend_left node h hleft, List.append_assoc,
          ih _ hlt _ htake _ (by rw [List.getElem?_take_of_lt hleft]; exact hx)]
        rfl
      · have hdrop : (l.drop (splitPoint l.length)).length = l.length - splitPoint l.length :=
          List.length_drop
        have hindex : splitPoint l.length + (index - splitPoint l.length) = index := by omega
        rw [if_neg hright.not_gt, descend_right node h hright, List.append_assoc,
          ih _ (by omega) _ hdrop _ (by rw [List.getElem?_drop, hindex]; exact hx)]
        rfl
    · have hone : l.length = 1 := by omega
      obtain ⟨a, rfl⟩ := List.length_eq_one_iff.mp hone
      obtain rfl : index = 0 := by simpa using hi
      rw [auditPath, if_neg h.not_gt, descend_done node (by simp), mth_of_le node (by simp)]
      simp only [List.getElem?_cons_zero, Option.some.injEq] at hx
      rw [hx]; rfl

end StarkBallot.Schemes
