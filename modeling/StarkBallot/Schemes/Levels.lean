import Mathlib.Data.Set.Function
import Mathlib.Data.List.Basic

/-! Merkle trees built level by level. A level is a list of nodes; `pairUp` joins neighbours and
    promotes an odd last node unchanged; `levelsRoot` repeats until at most one node is left. An audit
    path is checked in the same direction: `climb` walks from a leaf to the root, taking a sibling from
    the path wherever the level has one.

        level   a   b   c   d   e
                 \ /     \ /    │ promoted
                 ab      cd     e

    Binding comes from the pairs given to `node`: if `node` is injective on the pairs met by two
    computations (`levelsPairs`, `climbPairs`), equal roots force equal inputs. -/

namespace StarkBallot.Schemes

variable {α : Type} (node : α → α → α)

/-- One level up: join neighbours, promote an odd last node. -/
def pairUp : List α → List α
  | a :: b :: rest => node a b :: pairUp rest
  | rest => rest

/-- The pairs `pairUp` gives to `node`. -/
def levelPairs : List α → List (α × α)
  | a :: b :: rest => (a, b) :: levelPairs rest
  | _ => []

@[simp] theorem pairUp_length : ∀ l : List α, (pairUp node l).length = (l.length + 1) / 2
  | [] => by simp [pairUp]
  | [_] => by simp [pairUp]
  | _ :: _ :: rest => by simp only [pairUp, List.length_cons, pairUp_length rest]; omega

/-- Pair up until at most one node is left; `d` stands for the root of no leaves. -/
def levelsRoot (d : α) (level : List α) : α :=
  if 1 < level.length then levelsRoot d (pairUp node level) else level.headD d
termination_by level.length
decreasing_by rw [pairUp_length]; omega

/-- All pairs given to `node` on the way to `levelsRoot`. -/
def levelsPairs (level : List α) : List (α × α) :=
  if 1 < level.length then levelPairs level ++ levelsPairs (pairUp node level) else []
termination_by level.length
decreasing_by rw [pairUp_length]; omega

theorem levelsRoot_of_le {d : α} {l : List α} (h : l.length ≤ 1) : levelsRoot node d l = l.headD d := by
  rw [levelsRoot, if_neg (by omega)]

theorem levelsRoot_of_lt {d : α} {l : List α} (h : 1 < l.length) :
    levelsRoot node d l = levelsRoot node d (pairUp node l) := by
  rw [levelsRoot, if_pos h]

theorem levelsPairs_of_lt {l : List α} (h : 1 < l.length) :
    levelsPairs node l = levelPairs l ++ levelsPairs node (pairUp node l) := by
  rw [levelsPairs, if_pos h]

/-- A node of the next level, by its index: a joined pair, or the promoted last node. -/
theorem pairUp_getElem? : ∀ (l : List α) (i : ℕ), (pairUp node l)[i]? =
    match l[2 * i]?, l[2 * i + 1]? with
    | some a, some b => some (node a b)
    | x, _ => x
  | [], i => by simp [pairUp]
  | [a], 0 => by simp [pairUp]
  | [a], i + 1 => by simp [pairUp]
  | a :: b :: rest, 0 => by simp [pairUp]
  | a :: b :: rest, i + 1 => by
      have h2 : 2 * (i + 1) = 2 * i + 2 := by omega
      simp only [pairUp, List.getElem?_cons_succ, h2]
      exact pairUp_getElem? rest i

theorem mem_levelPairs : ∀ {l : List α} {i : ℕ} {a b : α}, l[2 * i]? = some a → l[2 * i + 1]? = some b →
    (a, b) ∈ levelPairs l
  | [], _, _, _, ha, _ => by simp at ha
  | [_], i, _, _, _, hb => by simp at hb
  | x :: y :: rest, 0, a, b, ha, hb => by
      simp only [Nat.mul_zero, Nat.zero_add, List.getElem?_cons_zero, List.getElem?_cons_succ,
        Option.some.injEq] at ha hb
      subst ha hb
      exact List.mem_cons_self
  | x :: y :: rest, i + 1, a, b, ha, hb => by
      have h2 : 2 * (i + 1) = 2 * i + 2 := by omega
      have h3 : 2 * (i + 1) + 1 = 2 * i + 1 + 2 := by omega
      rw [h2, List.getElem?_cons_succ, List.getElem?_cons_succ] at ha
      rw [h3, List.getElem?_cons_succ, List.getElem?_cons_succ] at hb
      exact List.mem_cons_of_mem _ (mem_levelPairs ha hb)

/-! ### Two trees of one size -/

variable {node}

/-- Levels of one length with equal next levels are equal. -/
theorem pairUp_inj {S : Set (α × α)} (hS : Set.InjOn (Function.uncurry node) S) :
    ∀ {l l' : List α}, l.length = l'.length → (∀ p ∈ levelPairs l, p ∈ S) →
      (∀ p ∈ levelPairs l', p ∈ S) → pairUp node l = pairUp node l' → l = l'
  | [], [], _, _, _, _ => rfl
  | [a], [a'], _, _, _, h => h
  | a :: b :: rest, a' :: b' :: rest', hlen, hl, hl', h => by
      simp only [pairUp, List.cons.injEq] at h
      have hab : (a, b) = (a', b') :=
        hS (hl _ (List.mem_cons_self ..)) (hl' _ (List.mem_cons_self ..)) h.1
      have hrest : rest = rest' := pairUp_inj hS (by simpa using hlen)
        (fun p hp => hl p (List.mem_cons_of_mem _ hp))
        (fun p hp => hl' p (List.mem_cons_of_mem _ hp)) h.2
      rw [Prod.mk.injEq] at hab
      rw [hab.1, hab.2, hrest]
  | [], _ :: _, hlen, _, _, _ => by simp at hlen
  | _ :: _, [], hlen, _, _, _ => by simp at hlen
  | [_], _ :: _ :: _, hlen, _, _, _ => by simp at hlen
  | _ :: _ :: _, [_], hlen, _, _, _ => by simp at hlen

/-- BINDING (levels): lists of one length with one root are equal, when `node` is injective on the
    pairs met. -/
theorem levelsRoot_inj {S : Set (α × α)} (hS : Set.InjOn (Function.uncurry node) S) {d : α} :
    ∀ {l l' : List α}, l.length = l'.length → (∀ p ∈ levelsPairs node l, p ∈ S) →
      (∀ p ∈ levelsPairs node l', p ∈ S) → levelsRoot node d l = levelsRoot node d l' → l = l' := by
  intro l
  induction hn : l.length using Nat.strong_induction_on generalizing l with
  | _ n ih =>
    intro l' hlen hl hl' h
    rcases Nat.lt_or_ge 1 l.length with h1 | h1
    · have h1' : 1 < l'.length := by omega
      rw [levelsRoot_of_lt node h1, levelsRoot_of_lt node h1'] at h
      rw [levelsPairs_of_lt node h1] at hl
      rw [levelsPairs_of_lt node h1'] at hl'
      have hup : pairUp node l = pairUp node l' :=
        ih (pairUp node l).length (by rw [pairUp_length]; omega)
          rfl (by simp only [pairUp_length]; omega)
          (fun p hp => hl p (List.mem_append_right _ hp))
          (fun p hp => hl' p (List.mem_append_right _ hp)) h
      exact pairUp_inj hS (by omega) (fun p hp => hl p (List.mem_append_left _ hp))
        (fun p hp => hl' p (List.mem_append_left _ hp)) hup
    · rw [levelsRoot_of_le node h1, levelsRoot_of_le node (by omega)] at h
      rcases Nat.lt_or_ge 0 n with hpos | hzero
      · have hone : l.length = 1 := by omega
        have hone' : l'.length = 1 := by omega
        obtain ⟨a, rfl⟩ := List.length_eq_one_iff.mp hone
        obtain ⟨a', rfl⟩ := List.length_eq_one_iff.mp hone'
        rw [List.headD_cons, List.headD_cons] at h
        rw [h]
      · have hnil : l.length = 0 := by omega
        have hnil' : l'.length = 0 := by omega
        rw [List.length_eq_zero_iff.mp hnil, List.length_eq_zero_iff.mp hnil']

/-! ### Audit paths, leaf to root -/

variable (node)

/-- A node and its sibling in tree order: an odd index is a right child. -/
def siblingPair (index : ℕ) (cur s : α) : α × α := if index % 2 = 1 then (s, cur) else (cur, s)

/-- A node with no sibling: an even index at the end of its level. -/
abbrev Promoted (index size : ℕ) : Prop := index % 2 = 0 ∧ index + 1 = size

/-- Walk from a node at `index` of a level of `size` nodes to the root, taking siblings from `path`.
    Returns the root reached and the unused rest of the path; `none` if the path runs out. -/
def climb (index size : ℕ) (cur : α) (path : List α) : Option (α × List α) :=
  if 1 < size then
    if Promoted index size then climb (index / 2) ((size + 1) / 2) cur path
    else
      match path with
      | [] => none
      | s :: rest =>
        climb (index / 2) ((size + 1) / 2) (Function.uncurry node (siblingPair index cur s)) rest
  else some (cur, path)
termination_by size

/-- The pairs `climb` gives to `node`. -/
def climbPairs (index size : ℕ) (cur : α) (path : List α) : List (α × α) :=
  if 1 < size then
    if Promoted index size then climbPairs (index / 2) ((size + 1) / 2) cur path
    else
      match path with
      | [] => []
      | s :: rest => siblingPair index cur s ::
          climbPairs (index / 2) ((size + 1) / 2) (Function.uncurry node (siblingPair index cur s)) rest
  else []
termination_by size

/-- The number of siblings a walk takes. -/
def climbLength (index size : ℕ) : ℕ :=
  if 1 < size then
    (if Promoted index size then 0 else 1) + climbLength (index / 2) ((size + 1) / 2)
  else 0
termination_by size

section unfolding

variable {index size : ℕ} {cur : α} {path : List α}

theorem climb_done (h : size ≤ 1) : climb node index size cur path = some (cur, path) := by
  rw [climb.eq_def, if_neg (by omega)]

theorem climb_promoted (h : 1 < size) (hp : Promoted index size) :
    climb node index size cur path = climb node (index / 2) ((size + 1) / 2) cur path := by
  rw [climb.eq_def, if_pos h, if_pos hp]

theorem climb_nil (h : 1 < size) (hp : ¬ Promoted index size) :
    climb node index size cur [] = none := by
  rw [climb.eq_def, if_pos h, if_neg hp]

theorem climb_cons (h : 1 < size) (hp : ¬ Promoted index size) (s : α) :
    climb node index size cur (s :: path) = climb node (index / 2) ((size + 1) / 2)
      (Function.uncurry node (siblingPair index cur s)) path := by
  rw [climb.eq_def, if_pos h, if_neg hp]

theorem climbPairs_promoted (h : 1 < size) (hp : Promoted index size) :
    climbPairs node index size cur path = climbPairs node (index / 2) ((size + 1) / 2) cur path := by
  rw [climbPairs.eq_def, if_pos h, if_pos hp]

theorem climbPairs_cons (h : 1 < size) (hp : ¬ Promoted index size) (s : α) :
    climbPairs node index size cur (s :: path) = siblingPair index cur s ::
      climbPairs node (index / 2) ((size + 1) / 2)
        (Function.uncurry node (siblingPair index cur s)) path := by
  rw [climbPairs.eq_def, if_pos h, if_neg hp]

omit node in
theorem climbLength_up (h : 1 < size) : climbLength index size =
    (if Promoted index size then 0 else 1) + climbLength (index / 2) ((size + 1) / 2) := by
  rw [climbLength, if_pos h]

end unfolding

/-- Induction along a walk: the level above, until one node is left. -/
theorem climb_induction {motive : ℕ → ℕ → Prop} (done : ∀ index size, size ≤ 1 → motive index size)
    (up : ∀ index size, 1 < size → motive (index / 2) ((size + 1) / 2) → motive index size) :
    ∀ size index, motive index size := by
  intro size
  induction size using Nat.strong_induction_on with
  | _ size ih =>
    intro index
    rcases Nat.lt_or_ge 1 size with h | h
    · exact up index size h (ih _ (by omega) _)
    · exact done index size h

/-- A walk that returns has taken `climbLength` siblings. -/
theorem climb_length (index size : ℕ) : ∀ {cur r : α} {path rest : List α},
    climb node index size cur path = some (r, rest) →
    path.length = climbLength index size + rest.length := by
  refine climb_induction (motive := fun index size => ∀ {cur r : α} {path rest : List α},
    climb node index size cur path = some (r, rest) →
      path.length = climbLength index size + rest.length) ?_ ?_ size index
  · intro index size hsize cur r path rest h
    rw [climb_done node hsize, Option.some.injEq, Prod.mk.injEq] at h
    rw [climbLength, if_neg (by omega), Nat.zero_add, h.2]
  · intro index size hsize ih cur r path rest h
    rw [climbLength_up hsize]
    by_cases hp : Promoted index size
    · rw [climb_promoted node hsize hp] at h
      rw [if_pos hp, Nat.zero_add, ih h]
    · cases path with
      | nil => rw [climb_nil node hsize hp] at h; cases h
      | cons s path =>
        rw [climb_cons node hsize hp] at h
        rw [if_neg hp, List.length_cons, ih h]; omega

/-- A walk returns on a path that is long enough. -/
theorem climb_isSome (index size : ℕ) : ∀ (cur : α) {path : List α},
    climbLength index size ≤ path.length →
    ∃ r rest, climb node index size cur path = some (r, rest) := by
  refine climb_induction (motive := fun index size => ∀ (cur : α) {path : List α},
    climbLength index size ≤ path.length →
      ∃ r rest, climb node index size cur path = some (r, rest)) ?_ ?_ size index
  · intro index size hsize cur path _
    exact ⟨cur, path, climb_done node hsize⟩
  · intro index size hsize ih cur path h
    rw [climbLength_up hsize] at h
    by_cases hp : Promoted index size
    · rw [if_pos hp] at h
      rw [climb_promoted node hsize hp]
      exact ih _ (by omega)
    · rw [if_neg hp] at h
      cases path with
      | nil => rw [List.length_nil] at h; omega
      | cons s path =>
        rw [List.length_cons] at h
        rw [climb_cons node hsize hp]
        exact ih _ (by omega)

theorem siblingPair_inj {index : ℕ} {cur cur' s s' : α}
    (h : siblingPair index cur s = siblingPair index cur' s') : cur = cur' ∧ s = s' := by
  unfold siblingPair at h
  split at h
  · exact ⟨(Prod.mk.inj h).2, (Prod.mk.inj h).1⟩
  · exact Prod.mk.inj h

/-- The two children under the parent of an unpromoted node, as the node and its sibling. -/
theorem exists_siblingPair {level : List α} {index : ℕ} (hi : index < level.length)
    (hp : ¬ Promoted index level.length) :
    ∃ cur s, level[index]? = some cur ∧ siblingPair index cur s ∈ levelPairs level ∧
      (pairUp node level)[index / 2]? = some (Function.uncurry node (siblingPair index cur s)) := by
  have hrange : 2 * (index / 2) + 1 < level.length := by unfold Promoted at hp; omega
  obtain ⟨a, ha⟩ : ∃ a, level[2 * (index / 2)]? = some a := ⟨_, List.getElem?_eq_getElem (by omega)⟩
  obtain ⟨b, hb⟩ : ∃ b, level[2 * (index / 2) + 1]? = some b := ⟨_, List.getElem?_eq_getElem hrange⟩
  have hmem := mem_levelPairs ha hb
  have hup := pairUp_getElem? node level (index / 2)
  rw [ha, hb] at hup
  rcases Nat.mod_two_eq_zero_or_one index with heven | hodd
  · have hindex : 2 * (index / 2) = index := by omega
    rw [hindex] at ha
    refine ⟨a, b, ha, ?_, ?_⟩
    · rw [siblingPair, if_neg (by omega)]; exact hmem
    · rw [siblingPair, if_neg (by omega)]; exact hup
  · have hindex : 2 * (index / 2) + 1 = index := by omega
    rw [hindex] at hb
    refine ⟨b, a, hb, ?_, ?_⟩
    · rw [siblingPair, if_pos hodd]; exact hmem
    · rw [siblingPair, if_pos hodd]; exact hup

variable {node}

/-- SOUNDNESS: a walk that ends in the root of a tree started from the tree's own leaf at that index,
    when `node` is injective on the pairs met by the walk and by the tree. -/
theorem climb_sound {S : Set (α × α)} (hS : Set.InjOn (Function.uncurry node) S) {d : α}
    (index size : ℕ) :
    ∀ {cur : α} {path rest level : List α}, level.length = size → index < size →
      (∀ p ∈ climbPairs node index size cur path, p ∈ S) → (∀ p ∈ levelsPairs node level, p ∈ S) →
      climb node index size cur path = some (levelsRoot node d level, rest) →
      level[index]? = some cur := by
  refine climb_induction (motive := fun index size => ∀ {cur : α} {path rest level : List α},
    level.length = size → index < size →
      (∀ p ∈ climbPairs node index size cur path, p ∈ S) → (∀ p ∈ levelsPairs node level, p ∈ S) →
      climb node index size cur path = some (levelsRoot node d level, rest) →
      level[index]? = some cur) ?_ ?_ size index
  · intro index size hsize cur path rest level hlen hi _ _ h
    have hone : level.length = 1 := by omega
    obtain ⟨a, rfl⟩ := List.length_eq_one_iff.mp hone
    obtain rfl : index = 0 := by omega
    rw [climb_done node hsize, levelsRoot_of_le node (by simp), Option.some.injEq, Prod.mk.injEq] at h
    rw [List.getElem?_cons_zero, h.1, List.headD_cons]
  · intro index size hsize ih cur path rest level hlen hi hwalk htree h
    subst hlen
    rw [levelsPairs_of_lt node hsize] at htree
    rw [levelsRoot_of_lt node hsize] at h
    have hup := fun p hp => htree p (List.mem_append_right _ hp)
    by_cases hp : Promoted index level.length
    · rw [climb_promoted node hsize hp] at h
      rw [climbPairs_promoted node hsize hp] at hwalk
      have hparent := ih (pairUp_length node level) (by omega) hwalk hup h
      have hindex : 2 * (index / 2) = index := by omega
      rw [pairUp_getElem?, hindex,
        List.getElem?_eq_none (i := index + 1) (by omega)] at hparent
      simpa using hparent
    · cases path with
      | nil => rw [climb_nil node hsize hp] at h; cases h
      | cons s path =>
        rw [climb_cons node hsize hp] at h
        rw [climbPairs_cons node hsize hp] at hwalk
        have hparent := ih (pairUp_length node level) (by omega)
          (fun p hp => hwalk p (List.mem_cons_of_mem _ hp)) hup h
        obtain ⟨cur', s', hcur, hmem, hjoin⟩ := exists_siblingPair node hi hp
        rw [hjoin, Option.some.injEq] at hparent
        have hpair :=
          hS (htree _ (List.mem_append_left _ hmem)) (hwalk _ (List.mem_cons_self ..)) hparent
        rw [hcur, (siblingPair_inj hpair).1]

/-- BINDING (paths): two walks from one index of one size to one root started from one node and took the
    same siblings, when `node` is injective on the pairs met. -/
theorem climb_inj {S : Set (α × α)} (hS : Set.InjOn (Function.uncurry node) S) (index size : ℕ) :
    ∀ {cur cur' r : α} {path path' rest : List α},
      (∀ p ∈ climbPairs node index size cur path, p ∈ S) →
      (∀ p ∈ climbPairs node index size cur' path', p ∈ S) →
      climb node index size cur path = some (r, rest) →
      climb node index size cur' path' = some (r, rest) → cur = cur' ∧ path = path' := by
  refine climb_induction (motive := fun index size => ∀ {cur cur' r : α} {path path' rest : List α},
    (∀ p ∈ climbPairs node index size cur path, p ∈ S) →
      (∀ p ∈ climbPairs node index size cur' path', p ∈ S) →
      climb node index size cur path = some (r, rest) →
      climb node index size cur' path' = some (r, rest) → cur = cur' ∧ path = path') ?_ ?_ size index
  · intro index size hsize cur cur' r path path' rest _ _ h h'
    rw [climb_done node hsize, Option.some.injEq, Prod.mk.injEq] at h h'
    exact ⟨h.1.trans h'.1.symm, h.2.trans h'.2.symm⟩
  · intro index size hsize ih cur cur' r path path' rest hwalk hwalk' h h'
    by_cases hp : Promoted index size
    · rw [climb_promoted node hsize hp] at h h'
      rw [climbPairs_promoted node hsize hp] at hwalk hwalk'
      exact ih hwalk hwalk' h h'
    · cases path with
      | nil => rw [climb_nil node hsize hp] at h; cases h
      | cons s path =>
        cases path' with
        | nil => rw [climb_nil node hsize hp] at h'; cases h'
        | cons s' path' =>
          rw [climb_cons node hsize hp] at h h'
          rw [climbPairs_cons node hsize hp] at hwalk hwalk'
          obtain ⟨hjoin, hrest⟩ := ih (fun p hp => hwalk p (List.mem_cons_of_mem _ hp))
            (fun p hp => hwalk' p (List.mem_cons_of_mem _ hp)) h h'
          obtain ⟨hcur, hs⟩ := siblingPair_inj
            (hS (hwalk _ (List.mem_cons_self ..)) (hwalk' _ (List.mem_cons_self ..)) hjoin)
          exact ⟨hcur, by rw [hs, hrest]⟩

/-! ### Trails: paths that carry their turns -/

section Trails

variable {β : Type} (node)

/-- Where the sibling of a node stands, if it has one. -/
def siblingIndex (index : ℕ) : ℕ := if index % 2 = 0 then index + 1 else index - 1

/-- For each level on which there is a sibling, whether it stands on the left. -/
def turns (index size : ℕ) : List Bool :=
  if 1 < size then
    (if siblingIndex index < size then [decide (index % 2 = 1)] else []) ++ turns (index / 2)
      ((size + 1) / 2)
  else []
termination_by size

/-- The siblings on the way up, each with its turn. -/
def trail (index : ℕ) (level : List α) : List (α × Bool) :=
  if 1 < level.length then
    (level[siblingIndex index]?.toList.map fun s => (s, decide (index % 2 = 1))) ++
      trail (index / 2) (pairUp node level)
  else []
termination_by level.length
decreasing_by rw [pairUp_length]; omega

/-- Follow a trail from a node, joining by turn. -/
def follow (join : Bool → β → α → α) (cur : α) (steps : List (β × Bool)) : α :=
  steps.foldl (fun cur step => join step.2 step.1 cur) cur

/-- The steps taken, each with the node it starts from. -/
def followSteps (join : Bool → β → α → α) : α → List (β × Bool) → List ((β × Bool) × α)
  | _, [] => []
  | cur, step :: steps => (step, cur) :: followSteps join (join step.2 step.1 cur) steps

/-- Join a sibling on its side. -/
def joinSide (turn : Bool) (s cur : α) : α := if turn then node s cur else node cur s

theorem siblingIndex_lt_iff {index size : ℕ} (hi : index < size) :
    siblingIndex index < size ↔ ¬ Promoted index size := by
  unfold siblingIndex Promoted
  split <;> omega

/-- The turns of a trail depend on the size only. -/
theorem trail_turns (index : ℕ) (level : List α) :
    (trail node index level).map Prod.snd = turns index level.length := by
  induction hn : level.length using Nat.strong_induction_on generalizing index level with
  | _ n ih =>
    subst hn
    rw [trail, turns]
    by_cases hlong : 1 < level.length
    · rw [if_pos hlong, if_pos hlong, List.map_append, ih _ (by rw [pairUp_length]; omega) _ _ rfl,
        pairUp_length]
      congr 1
      by_cases hs : siblingIndex index < level.length
      · rw [if_pos hs, List.getElem?_eq_getElem hs]
        rfl
      · rw [if_neg hs, List.getElem?_eq_none (by omega)]
        rfl
    · rw [if_neg hlong, if_neg hlong]
      rfl

/-- The parent of a node that has a sibling. -/
theorem pairUp_sibling {level : List α} {index : ℕ} {cur s : α} (hcur : level[index]? = some cur)
    (hs : level[siblingIndex index]? = some s) :
    (pairUp node level)[index / 2]? = some (joinSide node (decide (index % 2 = 1)) s cur) := by
  have hup := pairUp_getElem? node level (index / 2)
  unfold siblingIndex at hs
  rcases Nat.mod_two_eq_zero_or_one index with heven | hodd
  · have hindex : 2 * (index / 2) = index := by omega
    rw [if_pos heven] at hs
    rw [hindex, hcur, hs] at hup
    rw [hup, joinSide, if_neg (by simp [heven])]
  · have hleft : 2 * (index / 2) = index - 1 := by omega
    have hindex : index - 1 + 1 = index := by omega
    rw [if_neg (by omega)] at hs
    rw [hleft, hindex, hcur, hs] at hup
    rw [hup, joinSide, if_pos (by simp [hodd])]

/-- The parent of a promoted node is the node. -/
theorem pairUp_promoted {level : List α} {index : ℕ} (hp : Promoted index level.length) :
    (pairUp node level)[index / 2]? = level[index]? := by
  have hindex : 2 * (index / 2) = index := by omega
  rw [pairUp_getElem?, hindex, List.getElem?_eq_none (i := index + 1) (by omega)]
  cases level[index]? <;> rfl

/-- COMPLETENESS: the trail of a node leads to the root. -/
theorem follow_trail {d : α} (level : List α) : ∀ {index : ℕ} {cur : α}, level[index]? = some cur →
    follow (joinSide node) cur (trail node index level) = levelsRoot node d level := by
  induction hn : level.length using Nat.strong_induction_on generalizing level with
  | _ n ih =>
    intro index cur hcur
    subst hn
    obtain ⟨hi, -⟩ := List.getElem?_eq_some_iff.mp hcur
    rw [trail]
    by_cases hlong : 1 < level.length
    · have hup := pairUp_length node level
      rw [if_pos hlong, levelsRoot_of_lt node hlong]
      by_cases hp : Promoted index level.length
      · have hnone : level[siblingIndex index]? = none :=
          List.getElem?_eq_none (Nat.not_lt.mp fun h => (siblingIndex_lt_iff hi).mp h hp)
        rw [hnone]
        exact ih _ (by omega) _ rfl ((pairUp_promoted node hp).trans hcur)
      · have hs : level[siblingIndex index]? = some _ :=
          List.getElem?_eq_getElem ((siblingIndex_lt_iff hi).mpr hp)
        rw [hs]
        exact ih _ (by omega) _ rfl (pairUp_sibling node hcur hs)
    · have hone : level.length = 1 := by omega
      obtain ⟨a, rfl⟩ := List.length_eq_one_iff.mp hone
      obtain rfl : index = 0 := by simpa using hi
      rw [if_neg hlong, levelsRoot_of_le node (by simp)]
      exact (Option.some.inj hcur).symm

variable {node}

/-- SOUNDNESS: steps with the right turns that end in the root of a tree started from the tree's own
    node, when each step that was met and ends in a joined pair started from its half of the pair. -/
theorem follow_sound {d : α} {join : Bool → β → α → α} {Met : Bool → β → α → Prop} {S : Set (α × α)}
    (hjoin : ∀ {turn s cur p}, Met turn s cur → p ∈ S → join turn s cur = Function.uncurry node p →
      cur = if turn then p.2 else p.1) (level : List α) :
    ∀ {index : ℕ} {cur : α} {steps : List (β × Bool)}, index < level.length →
      steps.map Prod.snd = turns index level.length → (∀ p ∈ levelsPairs node level, p ∈ S) →
      (∀ e ∈ followSteps join cur steps, Met e.1.2 e.1.1 e.2) →
      follow join cur steps = levelsRoot node d level → level[index]? = some cur := by
  induction hn : level.length using Nat.strong_induction_on generalizing level with
  | _ n ih =>
    intro index cur steps hi hturns hpairs hmet hroot
    subst hn
    rw [turns] at hturns
    by_cases hlong : 1 < level.length
    · have hup := pairUp_length node level
      rw [if_pos hlong, ← hup] at hturns
      rw [levelsRoot_of_lt node hlong] at hroot
      rw [levelsPairs_of_lt node hlong] at hpairs
      have habove : ∀ p ∈ levelsPairs node (pairUp node level), p ∈ S := fun p hp =>
        hpairs p (List.mem_append_right _ hp)
      by_cases hp : Promoted index level.length
      · rw [if_neg fun h => (siblingIndex_lt_iff hi).mp h hp, List.nil_append] at hturns
        rw [← pairUp_promoted node hp]
        exact ih _ (by omega) _ rfl (by omega) hturns habove hmet hroot
      · rw [if_pos ((siblingIndex_lt_iff hi).mpr hp)] at hturns
        cases steps with
        | nil => simp at hturns
        | cons step steps =>
          rw [List.map_cons, List.singleton_append, List.cons.injEq] at hturns
          have hparent := ih _ (by omega) _ rfl (by omega) hturns.2 habove
            (fun e he => hmet e (List.mem_cons_of_mem _ he)) hroot
          obtain ⟨cur', s', hcur, hmem, hup'⟩ := exists_siblingPair node hi hp
          have hhalf : cur = _ :=
            hjoin (hmet _ List.mem_cons_self) (hpairs _ (List.mem_append_left _ hmem))
            (Option.some.inj (hparent.symm.trans hup'))
          rw [hturns.1] at hhalf
          rw [hcur, hhalf, siblingPair]
          rcases Nat.mod_two_eq_zero_or_one index with heven | hodd
          · simp [heven]
          · simp [hodd]
    · have hone : level.length = 1 := by omega
      obtain ⟨a, rfl⟩ := List.length_eq_one_iff.mp hone
      obtain rfl : index = 0 := by simpa using hi
      rw [if_neg hlong, List.map_eq_nil_iff] at hturns
      rw [hturns, levelsRoot_of_le node (by simp)] at hroot
      exact congrArg some hroot.symm

end Trails

end StarkBallot.Schemes
