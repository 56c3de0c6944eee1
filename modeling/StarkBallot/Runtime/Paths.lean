import StarkBallot.Runtime.Js
import Mathlib.Data.List.DropRight
import Mathlib.Data.List.Infix

/-! POSIX paths as the `path` module of the host has them. `resolve` puts its arguments together from
    the right until the path is absolute, with the working directory in front if none of them is, and
    leaves out empty segments, `.` and what `..` takes back.

        resolve "out" "a/./b/../c"  ──▶  /work/out/a/./b/../c  ──▶  /work/out/a/c

    A path below another is the other's segments and more of them. -/

namespace StarkBallot.Paths

/-! ### Segments -/

/-- A segment that stands for itself. -/
structure IsName (segment : JsString) : Prop where
  ne_nil : segment ≠ []
  ne_dot : segment ≠ js "."
  ne_dots : segment ≠ js ".."
  no_slash : '/' ∉ segment

def normalizeStep (done : List JsString) (segment : JsString) : List JsString :=
  if segment = [] ∨ segment = js "." then done
  else if segment = js ".." then done.dropLast
  else done ++ [segment]

/-- What is left of the segments of an absolute path; above its root there is nothing to take back. -/
def normalSegments (path : JsString) : List JsString := (path.splitOn '/').foldl normalizeStep []

/-- The absolute path of segments. -/
def fromSegments (segments : List JsString) : JsString := '/' :: ['/'].intercalate segments

section Segments

variable {segments names done : List JsString}

theorem fromSegments_ne_nil : fromSegments segments ≠ [] := List.cons_ne_nil _ _

theorem head?_fromSegments : (fromSegments segments).head? = some '/' := rfl

theorem normalizeStep_name {name : JsString} (h : IsName name) :
    normalizeStep done name = done ++ [name] := by
  rw [normalizeStep, if_neg (by simp [h.ne_nil, h.ne_dot]), if_neg h.ne_dots]

theorem foldl_names (h : ∀ name ∈ names, IsName name) :
    names.foldl normalizeStep done = done ++ names := by
  induction names generalizing done with
  | nil => simp
  | cons name names ih =>
    rw [List.foldl_cons, normalizeStep_name (h name List.mem_cons_self),
      ih fun other hother => h other (List.mem_cons_of_mem name hother), List.append_assoc,
      List.singleton_append]

theorem no_slash_of_mem_splitOn (path : JsString) : ∀ segment ∈ path.splitOn '/', '/' ∉ segment := by
  induction path with
  | nil => simp
  | cons c path ih =>
    rw [List.splitOn_cons_eq_if_modifyHead]
    split
    · intro segment hsegment
      rcases List.mem_cons.mp hsegment with rfl | hsegment
      · simp
      · exact ih segment hsegment
    · rename_i hc
      cases hsplit : path.splitOn '/' with
      | nil => simp
      | cons first rest =>
        rw [hsplit] at ih
        intro segment hsegment
        rcases List.mem_cons.mp hsegment with rfl | hsegment
        · have hfirst := ih first List.mem_cons_self
          simp only [List.mem_cons, not_or]
          exact ⟨fun heq => hc (by simp [← heq]), hfirst⟩
        · exact ih segment (List.mem_cons_of_mem first hsegment)

/-- Every segment that is left is a name. -/
theorem names_normalSegments (path : JsString) : ∀ segment ∈ normalSegments path, IsName segment := by
  have hstep : ∀ segments : List JsString, (∀ segment ∈ segments, '/' ∉ segment) →
      ∀ done : List JsString, (∀ segment ∈ done, IsName segment) →
      ∀ segment ∈ segments.foldl normalizeStep done, IsName segment := by
    intro segments
    induction segments with
    | nil => exact fun _ done hdone => hdone
    | cons first segments ih =>
      intro hslash done hdone
      rw [List.foldl_cons]
      refine ih (fun segment h => hslash segment (List.mem_cons_of_mem first h)) _ ?_
      unfold normalizeStep
      split
      · exact hdone
      · rename_i hplain
        split
        · exact fun segment h => hdone segment (List.mem_of_mem_dropLast h)
        · rename_i hdots
          intro segment h
          rcases List.mem_append.mp h with h | h
          · exact hdone segment h
          · obtain rfl := List.mem_singleton.mp h
            exact ⟨fun h => hplain (.inl h), fun h => hplain (.inr h), hdots,
              hslash segment List.mem_cons_self⟩
  exact hstep _ (no_slash_of_mem_splitOn path) [] (by simp)

theorem normalSegments_append (path path' : JsString) :
    normalSegments (path ++ '/' :: path') = (path'.splitOn '/').foldl normalizeStep
      (normalSegments path) := by
  rw [normalSegments, List.splitOn_append_cons_self, List.foldl_append]
  rfl

theorem foldl_splitOn_intercalate (h : ∀ name ∈ names, IsName name) :
    (List.splitOn '/' (['/'].intercalate names)).foldl normalizeStep done = done ++ names := by
  cases names with
  | nil => simp [normalizeStep]
  | cons name names =>
    rw [List.splitOn_intercalate '/' (fun name hname => (h name hname).no_slash) (by simp),
      foldl_names h]

theorem normalSegments_fromSegments (h : ∀ name ∈ names, IsName name) :
    normalSegments (fromSegments names) = names := by
  have happend := normalSegments_append [] (['/'].intercalate names)
  rw [foldl_splitOn_intercalate h] at happend
  exact happend

/-- Paths of names are equal if the names are. -/
theorem fromSegments_inj {names' : List JsString} (h : ∀ name ∈ names, IsName name)
    (h' : ∀ name ∈ names', IsName name) (heq : fromSegments names = fromSegments names') :
    names = names' := by
  rw [← normalSegments_fromSegments h, heq, normalSegments_fromSegments h']

theorem intercalate_append (hsegments : segments ≠ []) (hnames : names ≠ []) :
    ['/'].intercalate (segments ++ names) = ['/'].intercalate segments ++ '/' ::
      ['/'].intercalate names := by
  induction segments with
  | nil => exact absurd rfl hsegments
  | cons first rest ih =>
    cases rest with
    | nil =>
      obtain ⟨name, others, rfl⟩ := List.exists_cons_of_ne_nil hnames
      rw [List.singleton_append, List.intercalate_cons_cons, List.intercalate_singleton]
      simp
    | cons second rest =>
      rw [List.cons_append, List.cons_append, List.intercalate_cons_cons, List.intercalate_cons_cons,
        ← List.cons_append, ih (List.cons_ne_nil _ _)]
      simp

theorem fromSegments_append (hsegments : segments ≠ []) (hnames : names ≠ []) :
    fromSegments (segments ++ names) = fromSegments segments ++ js "/" ++ ['/'].intercalate names := by
  rw [fromSegments, intercalate_append hsegments hnames, fromSegments, List.append_assoc,
    List.cons_append]
  rfl

/-- A path of names does not begin with a slash below its root. -/
theorem intercalate_names {name : JsString} (h : IsName name) (rest : List JsString) :
    ∃ c text, c ≠ '/' ∧ ['/'].intercalate (name :: rest) = c :: text := by
  obtain ⟨c, tail, rfl⟩ := List.exists_cons_of_ne_nil h.ne_nil
  have hc : c ≠ '/' := fun heq => h.no_slash (by simp [heq])
  cases rest with
  | nil => exact ⟨c, tail, hc, by simp⟩
  | cons other rest => exact ⟨c, _, hc, List.intercalate_cons_cons⟩

end Segments

/-! ### `resolve` -/

/-- The working directory of the process. -/
structure WorkingDirectory where
  path : JsString
  isAbsolute : path.head? = some '/'

/-- The arguments from the last to the first, up to an absolute one. -/
def resolveFrom (cwd : WorkingDirectory) : List JsString → JsString → JsString
  | [], resolvedPath => cwd.path ++ '/' :: resolvedPath
  | path :: rest, resolvedPath =>
    if path = [] then resolveFrom cwd rest resolvedPath
    else if path.head? = some '/' then path ++ '/' :: resolvedPath
    else resolveFrom cwd rest (path ++ '/' :: resolvedPath)

def resolve (cwd : WorkingDirectory) (args : List JsString) : JsString :=
  fromSegments (normalSegments (resolveFrom cwd args.reverse []))

section Resolve

variable (cwd : WorkingDirectory)

/-- The segments of the path that a directory resolves to. -/
def rootSegments (directory : JsString) : List JsString :=
  normalSegments (resolveFrom cwd [directory] [])

theorem resolve_one (directory : JsString) :
    resolve cwd [directory] = fromSegments (rootSegments cwd directory) := rfl

theorem names_rootSegments (directory : JsString) :
    ∀ segment ∈ rootSegments cwd directory, IsName segment :=
  names_normalSegments _

/-- What is resolved against an absolute path of names lies below it. -/
theorem resolve_under {segments names : List JsString} (hsegments : ∀ segment ∈ segments, IsName segment)
    (hnames : ∀ name ∈ names, IsName name) (hne : names ≠ []) :
    resolve cwd [fromSegments segments, ['/'].intercalate names] = fromSegments (segments ++ names) := by
  obtain ⟨name, rest, rfl⟩ := List.exists_cons_of_ne_nil hne
  obtain ⟨c, text, hc, htext⟩ := intercalate_names (hnames name List.mem_cons_self) rest
  have hfold := @foldl_splitOn_intercalate _ segments hnames
  rw [htext] at hfold ⊢
  have hroot : resolveFrom cwd [c :: text, fromSegments segments] [] =
      fromSegments segments ++ '/' :: (c :: text ++ '/' :: []) := by
    rw [resolveFrom, if_neg (by simp), if_neg (by simpa using hc), resolveFrom,
      if_neg fromSegments_ne_nil, if_pos head?_fromSegments]
  rw [resolve, List.reverse_cons, List.reverse_cons, List.reverse_nil, List.nil_append,
    List.singleton_append, hroot, normalSegments_append, normalSegments_fromSegments hsegments,
    List.splitOn_append_cons_self, List.foldl_append, hfold]
  simp [normalizeStep]

end Resolve

/-! ### `dirname` -/

/-- The path up to the last segment. -/
def dirname : JsString → JsString
  | [] => js "."
  | first :: rest =>
    let parent := (rest.rdropWhile (· = '/')).rdropWhile (· ≠ '/')
    if parent = [] then if first = '/' then js "/" else js "."
    else if first = '/' ∧ parent = js "/" then js "//"
    else first :: parent.dropLast

theorem rdropWhile_append_of_neg {l l' : JsString} {p : Char → Bool} (hne : l' ≠ [])
    (h : ∀ c ∈ l', p c = false) :
    (l ++ l').rdropWhile p = l ++ l' := by
  rw [List.rdropWhile_eq_self_iff]
  intro happend
  rw [List.getLast_append_of_ne_nil _ hne, h _ (List.getLast_mem hne)]
  exact Bool.false_ne_true

theorem rdropWhile_append_of_pos {l l' : JsString} {p : Char → Bool} (h : ∀ c ∈ l', p c = true) :
    (l ++ l').rdropWhile p = l.rdropWhile p := by
  rw [List.rdropWhile, List.reverse_append,
    List.dropWhile_append_of_pos (fun c hc => h c (List.mem_reverse.mp hc))]
  rfl

/-- The directory of a path of names is the path of the names before the last. -/
theorem dirname_fromSegments {segments : List JsString} {name : JsString}
    (h : ∀ segment ∈ segments, IsName segment) (hname : IsName name) :
    dirname (fromSegments (segments ++ [name])) = fromSegments segments := by
  have hnot : ∀ c ∈ name, decide (c = '/') = false := fun c hc => by
    rw [decide_eq_false_iff_not]
    exact fun heq => hname.no_slash (heq ▸ hc)
  have hnot' : ∀ c ∈ name, decide (c ≠ '/') = true := fun c hc => by simpa using hnot c hc
  by_cases hne : segments = []
  · subst hne
    have hfirst := rdropWhile_append_of_neg (l := []) hname.ne_nil hnot
    have hsecond := rdropWhile_append_of_pos (l := []) hnot'
    rw [List.nil_append] at hfirst hsecond
    have htext : fromSegments ([] ++ [name]) = '/' :: name := by simp [fromSegments]
    rw [htext, dirname, hfirst, hsecond]
    rfl
  · have hfirst := rdropWhile_append_of_neg (l := ['/'].intercalate segments ++ ['/']) hname.ne_nil hnot
    have hsecond := rdropWhile_append_of_pos (l := ['/'].intercalate segments ++ ['/']) hnot'
    have hslash :
        (['/'].intercalate segments ++ ['/']).rdropWhile (· ≠ '/') =
          ['/'].intercalate segments ++ ['/'] := by
      rw [List.rdropWhile_concat_neg]
      simp
    have hparent : ['/'].intercalate segments ++ ['/'] ≠ js "/" := by
      intro heq
      have hempty : ['/'].intercalate segments = [] := List.append_left_eq_self.mp heq
      have hsplit := List.splitOn_intercalate '/' (fun segment hmem => (h segment hmem).no_slash) hne
      rw [hempty, List.splitOn_nil] at hsplit
      exact (h [] (hsplit ▸ List.mem_singleton.mpr rfl)).ne_nil rfl
    rw [fromSegments, intercalate_append hne (List.cons_ne_nil _ _), List.intercalate_singleton,
      List.append_cons, dirname, hfirst, hsecond, hslash]
    simp [hparent, fromSegments]

end StarkBallot.Paths
