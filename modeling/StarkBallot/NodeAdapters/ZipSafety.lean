import StarkBallot.NodeAdapters.ZipEntries
import StarkBallot.Schemes.Triples

/-! What the extraction of an archive cannot do, whatever the archive says and whichever call on the
    host fails (`node-adapters/src/zip.ts`). A target is the destination and the names of the entry
    below it, so two targets are equal only if the names are; the meter counts a chunk before it is
    written, so what was written is never more than what was counted.

        before an entry   seen    ≤ counted     ≤ maxEntries        written ≤ metered ≤ maxTotalBytes
        after counting    seen+1  ≤ counted
        after the meter                                             written + chunk ≤ metered

    The inspection of an archive applies the same checks, so that an archive it accepts meets none of
    them when it is extracted. -/

namespace StarkBallot.NodeAdapters.Zip
open Schemes Paths

/-! ### Targets -/

/-- What a name says of its entry, whatever the destination is. -/
def entryKey (entryName : JsString) : Except ZipError (Bool × JsString) := do
  let sanitized := sanitize entryName
  refuseIf (sanitized.length = 0 ∨ '\x00' ∈ sanitized ∨ maxEntryPathBytes < (utf8 sanitized).length)
    (.invalidEntryName entryName)
  let isDirectory := decide (sanitized.getLast? = some '/')
  let trimmed := if isDirectory then sanitized.dropLast else sanitized
  refuseIf (trimmed = []) (.invalidEntryName entryName)
  refuseIf (∃ segment ∈ trimmed.splitOn '/', segment = [] ∨ segment = js "." ∨ segment = js "..")
    (.unsafeEntryName entryName)
  return (isDirectory, trimmed)

section Targets

variable {cwd : WorkingDirectory} {destination entryName : JsString}

theorem names_of_entryKey {isDirectory : Bool} {key : JsString}
    (h : entryKey entryName = .ok (isDirectory, key)) :
    ∀ name ∈ key.splitOn '/', IsName name := by
  obtain ⟨_, -, h⟩ := bind_eq_ok.mp h
  obtain ⟨_, -, h⟩ := bind_eq_ok.mp h
  obtain ⟨_, hsegments, h⟩ := bind_eq_ok.mp h
  obtain ⟨-, rfl⟩ := Prod.mk.inj (Except.ok.inj h)
  simp only [refuseIf_eq_ok, not_exists, not_and, not_or] at hsegments
  intro name hname
  obtain ⟨hnil, hdot, hdots⟩ := hsegments name hname
  exact ⟨hnil, hdot, hdots, no_slash_of_mem_splitOn _ name hname⟩

theorem resolve_key {key : JsString} (h : ∀ name ∈ key.splitOn '/', IsName name) :
    resolve cwd [resolve cwd [destination], key] =
      fromSegments (rootSegments cwd destination ++ key.splitOn '/') := by
  have hunder := resolve_under cwd (names_rootSegments cwd destination) h (List.splitOn_ne_nil '/' key)
  rwa [List.intercalate_splitOn] at hunder

theorem resolveEntryTarget_bind : resolveEntryTarget cwd destination entryName = (do
    let (isDirectory, key) ← entryKey entryName
    let destinationRoot := resolve cwd [destination]
    let resolved := resolve cwd [destinationRoot, key]
    refuseIf (¬ (resolved = destinationRoot ∨ (destinationRoot ++ js "/") <+: resolved))
      (.unsafeEntryName entryName)
    return ⟨resolved, isDirectory, key⟩) := by
  simp only [resolveEntryTarget, entryKey, bind_assoc, pure_bind]

/-- TARGET: outside the root of the file system, the checks of a name do not depend on the
    destination. -/
theorem resolveEntryTarget_eq (hroot : rootSegments cwd destination ≠ []) :
    resolveEntryTarget cwd destination entryName = (do
      let (isDirectory, key) ← entryKey entryName
      return ⟨fromSegments (rootSegments cwd destination ++ key.splitOn '/'), isDirectory, key⟩) := by
  rw [resolveEntryTarget_bind]
  cases hkey : entryKey entryName with
  | error e => rfl
  | ok named =>
    obtain ⟨isDirectory, key⟩ := named
    have hresolved := @resolve_key cwd destination key (names_of_entryKey hkey)
    rw [ok_bind, ok_bind]
    dsimp only
    rw [hresolved, refuseIf_of_not, ok_bind]
    rw [resolve_one, fromSegments_append hroot (List.splitOn_ne_nil '/' key)]
    exact not_not.mpr (.inr (List.prefix_append _ _))

/-- Nothing is admitted into the root of the file system. -/
theorem rootSegments_ne_nil {target : ZipTarget}
    (h : resolveEntryTarget cwd destination entryName = .ok target) :
    rootSegments cwd destination ≠ [] := by
  rw [resolveEntryTarget_bind] at h
  obtain ⟨⟨isDirectory, key⟩, hkey, h⟩ := bind_eq_ok.mp h
  obtain ⟨_, hwithin, -⟩ := bind_eq_ok.mp h
  have hnames := names_of_entryKey hkey
  rw [refuseIf_eq_ok, not_not, resolve_key hnames, resolve_one] at hwithin
  intro hroot
  rw [hroot, List.nil_append] at hwithin
  obtain ⟨name, rest, hsplit⟩ := List.exists_cons_of_ne_nil (List.splitOn_ne_nil '/' key)
  rw [hsplit] at hwithin hnames
  rcases hwithin with hsame | hbelow
  · cases fromSegments_inj hnames (by simp) hsame
  · obtain ⟨c, text, hc, htext⟩ := intercalate_names (hnames name List.mem_cons_self) rest
    have hpath : fromSegments (name :: rest) = '/' :: c :: text := congrArg (List.cons '/') htext
    rw [hpath] at hbelow
    obtain ⟨tail, htail⟩ := hbelow
    exact hc (List.cons.inj (List.cons.inj htail).2).1.symm

/-- What an admitted target is. -/
structure IsTarget (root : List JsString) (target : ZipTarget) : Prop where
  names : ∀ name ∈ target.key.splitOn '/', IsName name
  path : target.targetPath = fromSegments (root ++ target.key.splitOn '/')

theorem isTarget_of_resolve {target : ZipTarget}
    (h : resolveEntryTarget cwd destination entryName = .ok target) :
    IsTarget (rootSegments cwd destination) target := by
  rw [resolveEntryTarget_eq (rootSegments_ne_nil h)] at h
  obtain ⟨⟨isDirectory, key⟩, hkey, h⟩ := bind_eq_ok.mp h
  obtain rfl := Except.ok.inj h
  exact ⟨names_of_entryKey hkey, rfl⟩

end Targets

/-! ### The steps of the inventory -/

section Inventory

variable {cwd : WorkingDirectory} {destination : JsString} {entry : Entry}

/-- STEP: an entry is counted before the count is checked. -/
theorem exec_countEntry (maxEntries : Num) (i : ZipInventory) : exec (countEntry maxEntries) i =
    (if maxEntries.lt (.ofNat (i.entryCount + 1)) = true then .error (.tooManyEntries maxEntries)
      else .ok (), { i with entryCount := i.entryCount + 1 }) := by
  rw [countEntry, exec_bind, exec_modify]
  change exec (get >>= _) _ = _
  rw [exec_get_bind]
  split <;> rfl

theorem exec_countDeclaredBytes (maxTotalBytes : Num) (i : ZipInventory) :
    exec (countDeclaredBytes maxTotalBytes entry) i =
    (if maxTotalBytes.lt (.ofNat (i.totalBytes + entry.uncompressedSize)) = true then
        .error (.aggregateTooLarge maxTotalBytes) else .ok (),
      { i with totalBytes := i.totalBytes + entry.uncompressedSize }) := by
  rw [countDeclaredBytes, exec_bind, exec_modify]
  change exec (get >>= _) _ = _
  rw [exec_get_bind]
  split <;> rfl

/-- STEP: a target that is refused changes nothing. -/
theorem exec_admitTarget_error {e : ZipError}
    (h : resolveEntryTarget cwd destination entry.fileName = .error e) (i : ZipInventory) :
    exec (admitTarget cwd destination entry) i = (.error e, i) := by
  rw [admitTarget, h, exec_bind]
  rfl

theorem exec_admitTarget {target : ZipTarget}
    (h : resolveEntryTarget cwd destination entry.fileName = .ok target) (i : ZipInventory) :
    exec (admitTarget cwd destination entry) i =
    (if target.key ∈ i.seen then .error (.duplicateEntry entry.fileName) else .ok target,
      { i with seen := setAdd i.seen target.key }) := by
  rw [admitTarget, h, exec_bind_ok (exec_lifted _ _), exec_get_bind]
  by_cases hseen : target.key ∈ i.seen
  · have hsame : setAdd i.seen target.key = i.seen := if_pos hseen
    rw [if_pos hseen, if_pos hseen, hsame]
    rfl
  · rw [if_neg hseen, if_neg hseen]
    rfl

end Inventory

/-! ### The invariant -/

/-- The path is the root and names below it. -/
def Below (root : List JsString) (path : JsString) : Prop :=
  ∃ names, names ≠ [] ∧ (∀ name ∈ names, IsName name) ∧ path = fromSegments (root ++ names)

def fileBytes (files : List (JsString × List UInt8)) : ℕ := (files.map fun file => file.2.length).sum

/-- What holds of an extraction wherever it stops; `e`, `n` and `t` are the limits. -/
structure Safe (root : List JsString) (e n t : ℕ) (s : Extraction) : Prop where
  created : ∀ creation ∈ s.created, creation.entry ≠ none → Below root creation.path
  keys : ∀ key ∈ s.inventory.seen, ∀ name ∈ key.splitOn '/', IsName name
  seen : s.inventory.seen.Nodup
  admitted : s.inventory.seen.length ≤ n
  targets : ∀ file ∈ s.files, ∃ key ∈ s.inventory.seen, file.1 = fromSegments (root ++ key.splitOn '/')
  distinct : (s.files.map Prod.fst).Nodup
  file : ∀ file ∈ s.files, file.2.length ≤ e
  total : fileBytes s.files ≤ t

/-- What holds before a step: `slack` entries more are counted than admitted, `pending` bytes more are
    metered than written. -/
structure Ready (root : List JsString) (e n t slack pending : ℕ) (s : Extraction) :
    Prop extends Safe root e n t s where
  parents : ∀ segments ∈ root.inits.tail, segments ∈ s.directories
  counted : s.inventory.seen.length + slack ≤ s.inventory.entryCount
  entryCount : s.inventory.entryCount ≤ n
  metered : fileBytes s.files + pending ≤ s.actualTotalBytes
  actualTotalBytes : s.actualTotalBytes ≤ t

section Steps

variable {root : List JsString} {e n t slack pending : ℕ} {faults : ℕ → Option Fault}
  {cwd : WorkingDirectory}
  {destination : JsString} {entry : Entry} {target : ZipTarget} {s : Extraction}

theorem Safe.withCounts (h : Safe root e n t s) (entryCount totalBytes : ℕ) :
    Safe root e n t { s with inventory := ⟨s.inventory.seen, entryCount, totalBytes⟩ } :=
  ⟨h.created, h.keys, h.seen, h.admitted, h.targets, h.distinct, h.file, h.total⟩

theorem countEntry_meets : Triple (onInventory (countEntry (.ofNat n))) (Ready root e n t 0 0)
    (fun _ => Ready root e n t 1 0) fun _ => Safe root e n t := by
  refine triple_exec (fun s => by rw [onInventory, exec_onPart, exec_countEntry]) (fun s u h hok => ?_)
    fun s error h _ => h.withCounts _ _
  split at hok
  · cases hok
  · rename_i hlimit
    rw [Num.ofNat_lt, decide_eq_true_eq, not_lt] at hlimit
    exact ⟨h.withCounts _ _, h.parents, Nat.succ_le_succ h.counted, hlimit, h.metered,
      h.actualTotalBytes⟩

theorem countDeclaredBytes_meets {maxTotalBytes : Num} :
    Triple (onInventory (countDeclaredBytes maxTotalBytes entry))
    (Ready root e n t 1 0) (fun _ => Ready root e n t 1 0) fun _ => Safe root e n t := by
  refine triple_exec (fun s => by rw [onInventory, exec_onPart, exec_countDeclaredBytes])
    (fun s u h _ => ?_) fun s error h _ => h.withCounts _ _
  exact ⟨h.withCounts _ _, h.parents, h.counted, h.entryCount, h.metered, h.actualTotalBytes⟩

/-- What is known of a target that was admitted just now. -/
structure Admitted (root : List JsString) (target : ZipTarget) (s : Extraction) : Prop
    extends IsTarget root target where
  seen : target.key ∈ s.inventory.seen
  fresh : target.targetPath ∉ s.files.map Prod.fst

theorem key_of_path {key key' : JsString} (hroot : ∀ segment ∈ root, IsName segment)
    (h : ∀ name ∈ key.splitOn '/', IsName name) (h' : ∀ name ∈ key'.splitOn '/', IsName name)
    (heq : fromSegments (root ++ key.splitOn '/') = fromSegments (root ++ key'.splitOn '/')) :
    key = key' := by
  have happend : ∀ names : List JsString, (∀ name ∈ names, IsName name) →
      ∀ name ∈ root ++ names, IsName name := by
    intro names hnames name hname
    rcases List.mem_append.mp hname with hname | hname
    · exact hroot name hname
    · exact hnames name hname
  have hsplit := List.append_cancel_left (fromSegments_inj (happend _ h) (happend _ h') heq)
  have hkey : ['/'].intercalate (key.splitOn '/') = key := List.intercalate_splitOn '/'
  rw [← hkey, hsplit, List.intercalate_splitOn]

/-- STEP: a target is admitted once, and lies below the root. -/
theorem admitTarget_meets : Triple (onInventory (admitTarget cwd destination entry))
    (Ready (rootSegments cwd destination) e n t 1 0)
    (fun target s =>
      Ready (rootSegments cwd destination) e n t 0 0 s ∧
        Admitted (rootSegments cwd destination) target s)
    fun _ => Safe (rootSegments cwd destination) e n t := by
  cases htarget : resolveEntryTarget cwd destination entry.fileName with
  | error error =>
    exact triple_exec (fun s => by rw [onInventory, exec_onPart, exec_admitTarget_error htarget])
      (fun s target h hok => by cases hok) fun s error' h _ => h.toSafe
  | ok target =>
    have hshape := isTarget_of_resolve htarget
    refine triple_exec (fun s => by rw [onInventory, exec_onPart, exec_admitTarget htarget])
      (fun s target' h hok => ?_) fun s error h herror => ?_
    · dsimp only at hok
      split at hok
      · cases hok
      rename_i hnew
      obtain rfl := Except.ok.inj hok
      dsimp only
      rw [setAdd_of_not_mem hnew]
      have hseen : ∀ key ∈ s.inventory.seen ++ [target.key], ∀ name ∈ key.splitOn '/', IsName name := by
        intro key hkey
        rcases List.mem_append.mp hkey with hkey | hkey
        · exact h.keys key hkey
        · rw [List.mem_singleton.mp hkey]
          exact hshape.names
      have hcounted := h.counted
      have hcount := h.entryCount
      refine ⟨⟨⟨h.created, hseen, ?_, ?_, ?_, h.distinct, h.file, h.total⟩, h.parents, ?_,
        h.entryCount, h.metered, h.actualTotalBytes⟩, hshape, ?_, ?_⟩
      · have hnodup := h.seen.concat hnew
        rwa [List.concat_eq_append] at hnodup
      · rw [List.length_append, List.length_singleton]
        omega
      · intro file hfile
        obtain ⟨key, hkey, hpath⟩ := h.targets file hfile
        exact ⟨key, List.mem_append_left _ hkey, hpath⟩
      · rw [List.length_append, List.length_singleton]
        omega
      · exact List.mem_append_right _ (List.mem_singleton_self _)
      · intro hfile
        obtain ⟨file, hfile, hpath⟩ := List.mem_map.mp hfile
        obtain ⟨key, hkey, hkeyPath⟩ := h.targets file hfile
        refine hnew ?_
        rw [key_of_path (names_rootSegments cwd destination) hshape.names (h.keys key hkey)
          (hshape.path.symm.trans (hpath.symm.trans hkeyPath))]
        exact hkey
    · dsimp only at herror ⊢
      split at herror
      · rename_i hold
        have hsame : setAdd s.inventory.seen target.key = s.inventory.seen := if_pos hold
        rw [hsame]
        exact h.toSafe
      · cases herror

/-! ### The steps on the host -/

theorem exec_hostCall (s : Extraction) : exec (hostCall faults) s =
    ((faults s.calls).elim (.ok ()) fun fault => .error (.host fault.message),
      { s with calls := s.calls + 1 }) := by
  have hnext : exec (nextFault faults) s = (.ok (faults s.calls), { s with calls := s.calls + 1 }) := rfl
  rw [hostCall, exec_bind_ok hnext]
  cases faults s.calls <;> rfl

theorem hostCall_meets {P : Extraction → Prop} {fail : ZipError → Extraction → Prop}
    (hok : ∀ s, P s → P { s with calls := s.calls + 1 })
    (hfail : ∀ message s, P s → fail (.host message) { s with calls := s.calls + 1 }) :
    Triple (hostCall faults) P (fun _ => P) fail := by
  refine triple_exec exec_hostCall (fun s u h _ => hok s h) fun s error h herror => ?_
  cases hfault : faults s.calls with
  | none =>
    rw [hfault] at herror
    cases herror
  | some fault =>
    rw [hfault] at herror
    obtain rfl := Except.error.inj herror
    exact hfail _ s h

theorem Safe.withCalls (h : Safe root e n t s) (calls : ℕ) : Safe root e n t { s with calls := calls } :=
  ⟨h.created, h.keys, h.seen, h.admitted, h.targets, h.distinct, h.file, h.total⟩

/-- Between the admission of a target and its file. -/
def Placing (root : List JsString) (e n t : ℕ) (target : ZipTarget) (s : Extraction) : Prop :=
  Ready root e n t 0 0 s ∧ Admitted root target s

theorem Placing.withCalls (h : Placing root e n t target s) (calls : ℕ) :
    Placing root e n t target { s with calls := calls } :=
  ⟨⟨h.1.toSafe.withCalls calls, h.1.parents, h.1.counted, h.1.entryCount, h.1.metered,
    h.1.actualTotalBytes⟩, h.2.toIsTarget, h.2.seen, h.2.fresh⟩

theorem placing_hostCall :
    Triple (hostCall faults) (Placing root e n t target) (fun _ => Placing root e n t target)
    fun _ => Safe root e n t :=
  hostCall_meets (fun _ h => h.withCalls _) fun _ _ h => h.1.toSafe.withCalls _

theorem mem_tail_inits {l l' : List JsString} : l' ∈ l.inits.tail ↔ l' ≠ [] ∧ l' <+: l := by
  cases l with
  | nil => simp
  | cons first rest =>
    rw [List.inits_cons, List.tail_cons, List.mem_map]
    constructor
    · rintro ⟨init, hinit, rfl⟩
      exact ⟨List.cons_ne_nil _ _, List.cons_prefix_cons.mpr ⟨rfl, (List.mem_inits _ _).mp hinit⟩⟩
    · rintro ⟨hne, hle⟩
      obtain ⟨other, init, rfl⟩ := List.exists_cons_of_ne_nil hne
      obtain ⟨rfl, hinit⟩ := List.cons_prefix_cons.mp hle
      exact ⟨init, (List.mem_inits _ _).mpr hinit, rfl⟩

/-- A directory that is missing lies below the root. -/
theorem below_of_missing {segments names : List JsString} (h : Ready root e n t 0 0 s)
    (hnames : ∀ name ∈ names, IsName name) (hsegments : segments ∈ (root ++ names).inits.tail)
    (hmissing : segments ∉ s.directories) : Below root (fromSegments segments) := by
  obtain ⟨hne, hle⟩ := mem_tail_inits.mp hsegments
  rcases List.prefix_or_prefix_of_prefix hle (List.prefix_append root names) with hshort | ⟨rest, rfl⟩
  · exact absurd (h.parents segments (mem_tail_inits.mpr ⟨hne, hshort⟩)) hmissing
  · have hrest : rest <+: names := (List.prefix_append_right_inj root).mp hle
    refine ⟨rest, ?_, fun name hname => hnames name (hrest.subset hname), rfl⟩
    rintro rfl
    rw [List.append_nil] at hne hmissing
    exact hmissing (h.parents root (mem_tail_inits.mpr ⟨hne, List.prefix_rfl⟩))

/-- STEP: for an entry, directories are made below the root only. -/
theorem makeDirectory_meets {segments names : List JsString} {creator : Option JsString}
    (hnames : ∀ name ∈ names, IsName name) (hsegments : segments ∈ (root ++ names).inits.tail) :
    Triple (makeDirectory faults creator segments) (Placing root e n t target)
      (fun _ => Placing root e n t target) fun _ => Safe root e n t := by
  unfold makeDirectory
  refine triple_bind (fun s s' => s = s' ∧ Placing root e n t target s')
    (triple_get fun s h => ⟨rfl, h⟩) fun s => ?_
  refine triple_ite (fun _ => triple_pure fun s' h => h.2) fun hmissing => ?_
  have hcall :
      Triple (hostCall faults) (fun s' => Placing root e n t target s' ∧ segments ∉ s'.directories)
      (fun _ s' => Placing root e n t target s' ∧ segments ∉ s'.directories) fun _ => Safe root e n t :=
    hostCall_meets (fun _ h => ⟨h.1.withCalls _, h.2⟩) fun _ _ h => h.1.1.toSafe.withCalls _
  refine triple_bind _ (hcall.imp ?_ (fun _ _ h => h) fun _ _ h => h) fun _ =>
    triple_modify fun s' h => ?_
  · rintro s' ⟨rfl, h⟩
    exact ⟨h, hmissing⟩
  · have hbelow := below_of_missing h.1.1 hnames hsegments h.2
    refine ⟨⟨⟨?_, h.1.1.keys, h.1.1.seen, h.1.1.admitted, h.1.1.targets, h.1.1.distinct, h.1.1.file,
      h.1.1.total⟩, ?_, h.1.1.counted, h.1.1.entryCount, h.1.1.metered, h.1.1.actualTotalBytes⟩,
      h.1.2.toIsTarget, h.1.2.seen, h.1.2.fresh⟩
    · intro creation hcreation hentry
      rcases List.mem_append.mp hcreation with hold | hnew
      · exact h.1.1.created creation hold hentry
      · rw [List.mem_singleton.mp hnew]
        exact hbelow
    · exact fun parent hparent => List.mem_append_left _ (h.1.1.parents parent hparent)

theorem mkdir_meets {names : List JsString} {creator : Option JsString}
    (hroot : ∀ segment ∈ root, IsName segment) (hnames : ∀ name ∈ names, IsName name) :
    Triple (mkdir faults creator (fromSegments (root ++ names))) (Placing root e n t target)
      (fun _ => Placing root e n t target) fun _ => Safe root e n t := by
  have hall : ∀ segment ∈ root ++ names, IsName segment := by
    intro segment hsegment
    rcases List.mem_append.mp hsegment with h | h
    · exact hroot segment h
    · exact hnames segment h
  rw [mkdir, normalSegments_fromSegments hall]
  exact triple_forM fun segments hsegments => makeDirectory_meets hnames hsegments

/-! ### The bytes of a file -/

/-- While the file of the target is written: `a` bytes of the entry are metered, the last of them not
    written yet. -/
structure Writing (root : List JsString) (e n t a pending : ℕ) (s : Extraction) : Prop
    extends Ready root e n t 0 pending s where
  current : ∃ path content files, s.files = (path, content) :: files ∧ content.length + pending ≤ a
  bound : a ≤ e

theorem fileBytes_cons (path : JsString) (content : List UInt8) (files : List (JsString × List UInt8)) :
    fileBytes ((path, content) :: files) = content.length + fileBytes files := by
  rw [fileBytes, List.map_cons, List.sum_cons]
  rfl

/-- STEP: the file of the target is new. -/
theorem createWriteStream_meets :
    Triple (createWriteStream faults entry target.targetPath) (Placing root e n t target)
    (fun _ => Writing root e n t 0 0) fun _ => Safe root e n t := by
  refine triple_bind _ placing_hostCall fun _ => triple_modify fun s h => ?_
  obtain ⟨h, hadmitted⟩ := h
  refine ⟨⟨⟨?_, h.keys, h.seen, h.admitted, ?_, ?_, ?_, ?_⟩, h.parents, h.counted, h.entryCount, ?_,
    h.actualTotalBytes⟩, ⟨_, _, _, rfl, le_rfl⟩, Nat.zero_le e⟩
  · intro creation hcreation hentry
    rcases List.mem_append.mp hcreation with hold | hnew
    · exact h.created creation hold hentry
    · rw [List.mem_singleton.mp hnew]
      exact ⟨_, List.splitOn_ne_nil '/' target.key, hadmitted.names, hadmitted.path⟩
  · exact List.forall_mem_cons.mpr ⟨⟨target.key, hadmitted.seen, hadmitted.path⟩, h.targets⟩
  · rw [List.map_cons, List.nodup_cons]
    exact ⟨hadmitted.fresh, h.distinct⟩
  · exact List.forall_mem_cons.mpr ⟨Nat.zero_le e, h.file⟩
  · rw [fileBytes_cons]
    simpa using h.total
  · rw [fileBytes_cons]
    simpa using h.metered

theorem exec_meter (limits : ZipLimits) (a : ℕ) (buffer : List UInt8) (s : Extraction) :
    exec (meter limits a buffer) s =
    (if limits.maxEntryBytes.lt (.ofNat (a + buffer.length)) ∨
        limits.maxTotalBytes.lt (.ofNat (s.actualTotalBytes + buffer.length)) then
          .error .actualBytesExceeded
      else
        .ok (a + buffer.length), { s with actualTotalBytes := s.actualTotalBytes + buffer.length }) := by
  rw [meter, exec_bind, exec_modify]
  change exec (get >>= _) _ = _
  rw [exec_get_bind]
  split <;> rfl

/-- STEP: a chunk is metered before it is written, and one that is too much is not let through. -/
theorem meter_meets {a : ℕ} {buffer : List UInt8} :
    Triple (meter ⟨.ofNat e, .ofNat n, .ofNat t⟩ a buffer)
    (Writing root e n t a 0) (fun a' => Writing root e n t a' buffer.length) fun _ =>
      Safe root e n t := by
  refine triple_exec (exec_meter _ a buffer) (fun s a' h hok => ?_) fun s error h _ => ?_
  · split at hok
    · cases hok
    rename_i hlimits
    obtain rfl := Except.ok.inj hok
    rw [Num.ofNat_lt, Num.ofNat_lt, decide_eq_true_eq, decide_eq_true_eq, not_or, not_lt,
      not_lt] at hlimits
    obtain ⟨path, content, files, hfiles, hcontent⟩ := h.current
    have hmetered := h.metered
    have hsafe : Safe root e n t { s with actualTotalBytes := s.actualTotalBytes + buffer.length } :=
      ⟨h.created, h.keys, h.seen, h.admitted, h.targets, h.distinct, h.file, h.total⟩
    refine ⟨⟨hsafe, h.parents, h.counted, h.entryCount, ?_, hlimits.2⟩,
      ⟨path, content, files, hfiles, ?_⟩, hlimits.1⟩
    · dsimp only
      omega
    · omega
  · exact ⟨h.created, h.keys, h.seen, h.admitted, h.targets, h.distinct, h.file, h.total⟩

/-- No more bytes than were metered are written. -/
theorem writing_append {a pending : ℕ} {bytes : List UInt8} (h : Writing root e n t a pending s)
    (hbytes : bytes.length ≤ pending) (calls : ℕ) :
    Writing root e n t a 0 { s with files := appendToFile bytes s.files, calls := calls } := by
  obtain ⟨path, content, files, hfiles, hcontent⟩ := h.current
  have happend : appendToFile bytes s.files = (path, content ++ bytes) :: files := by
    rw [hfiles]
    rfl
  have hpaths : (appendToFile bytes s.files).map Prod.fst = s.files.map Prod.fst := by
    rw [happend, hfiles]
    rfl
  have hlength : (content ++ bytes).length ≤ a := by
    rw [List.length_append]
    omega
  have hsum : fileBytes (appendToFile bytes s.files) = fileBytes s.files + bytes.length := by
    rw [happend, hfiles, fileBytes_cons, fileBytes_cons, List.length_append]
    omega
  have hmetered := h.metered
  have hactual := h.actualTotalBytes
  have htargets := h.targets
  have hfile := h.file
  rw [hfiles] at htargets hfile
  refine ⟨⟨⟨h.created, h.keys, h.seen, h.admitted, ?_, ?_, ?_, ?_⟩, h.parents, h.counted, h.entryCount,
    ?_, hactual⟩, ⟨path, content ++ bytes, files, happend, hlength⟩, h.bound⟩
  · dsimp only
    rw [happend]
    exact List.forall_mem_cons.mpr ⟨htargets (path, content) List.mem_cons_self, fun file hmem =>
      htargets file (List.mem_cons_of_mem _ hmem)⟩
  · dsimp only
    rw [hpaths]
    exact h.distinct
  · dsimp only
    rw [happend]
    exact List.forall_mem_cons.mpr
      ⟨hlength.trans h.bound, fun file hmem => hfile file (List.mem_cons_of_mem _ hmem)⟩
  · dsimp only
    omega
  · dsimp only
    omega

theorem exec_write (buffer : List UInt8) (s : Extraction) : exec (write faults buffer) s =
    ((faults s.calls).elim (.ok ()) fun fault => .error (.host fault.message),
      { s with
        files := appendToFile
          ((faults s.calls).elim buffer fun fault => buffer.take fault.written) s.files
        calls := s.calls + 1 }) := by
  have hnext : exec (nextFault faults) s = (.ok (faults s.calls), { s with calls := s.calls + 1 }) := rfl
  rw [write, exec_bind_ok hnext]
  cases faults s.calls <;> rfl

/-- STEP: what is written was metered, also if the call fails. -/
theorem write_meets {a : ℕ} {buffer : List UInt8} : Triple (write faults buffer)
    (Writing root e n t a buffer.length) (fun _ => Writing root e n t a 0) fun _ => Safe root e n t := by
  have hbytes (s : Extraction) :
      ((faults s.calls).elim buffer fun fault => buffer.take fault.written).length ≤ buffer.length := by
    cases faults s.calls with
    | none => exact le_rfl
    | some fault => exact List.length_take_le' _ _
  exact triple_exec (exec_write buffer) (fun s _ h _ => writing_append h (hbytes s) _)
    fun s _ h _ => (writing_append h (hbytes s) _).toSafe

theorem transform_meets {a : ℕ} {chunk : Chunk} :
    Triple (transform faults ⟨.ofNat e, .ofNat n, .ofNat t⟩ a chunk)
    (Writing root e n t a 0) (fun a' => Writing root e n t a' 0) fun _ => Safe root e n t := by
  refine triple_bind (fun _ => Writing root e n t a 0)
    (triple_lifted (fun _ s _ h => h) fun _ s _ h => h.toSafe) fun buffer => ?_
  refine triple_bind _ meter_meets fun a' => ?_
  exact triple_bind _ write_meets fun _ => triple_pure fun s h => h

/-- LOOP: the file of the target gets no more than the meter lets through. -/
theorem pipeline_meets : Triple (pipeline faults ⟨.ofNat e, .ofNat n, .ofNat t⟩ entry target.targetPath)
    (Placing root e n t target) (fun _ => Ready root e n t 0 0) fun _ => Safe root e n t := by
  refine triple_bind _ createWriteStream_meets fun _ => ?_
  refine triple_bind (fun a => Writing root e n t a 0)
    (triple_foldlM fun chunk _ a => transform_meets) fun a => ?_
  cases entry.failure with
  | some message => exact triple_throw fun s h => h.toSafe
  | none => exact triple_pure fun s h => h.toReady

/-! ### A whole extraction -/

theorem dirname_target (hroot : ∀ segment ∈ root, IsName segment) (h : IsTarget root target) :
    ∃ names, (∀ name ∈ names, IsName name) ∧
    dirname target.targetPath = fromSegments (root ++ names) := by
  obtain ⟨names, name, hsplit⟩ :=
    (List.eq_nil_or_concat (target.key.splitOn '/')).resolve_left (List.splitOn_ne_nil _ _)
  have hnames := h.names
  rw [hsplit, List.concat_eq_append] at hnames
  have hparents : ∀ other ∈ names, IsName other :=
    fun other hother => hnames other (List.mem_append_left _ hother)
  refine ⟨names, hparents, ?_⟩
  rw [h.path, hsplit, List.concat_eq_append, ← List.append_assoc, dirname_fromSegments]
  · intro segment hsegment
    rcases List.mem_append.mp hsegment with hmem | hmem
    · exact hroot segment hmem
    · exact hparents segment hmem
  · exact hnames name (List.mem_append_right _ (List.mem_singleton_self _))

/-- STEP: an entry is extracted below the root, or the extraction stops. -/
theorem extractEntry_meets :
    Triple (extractEntry faults cwd destination ⟨.ofNat e, .ofNat n, .ofNat t⟩ entry)
    (Ready (rootSegments cwd destination) e n t 0 0)
    (fun _ => Ready (rootSegments cwd destination) e n t 0 0) fun _ =>
      Safe (rootSegments cwd destination) e n t := by
  have hroot := names_rootSegments cwd destination
  refine triple_bind _ countEntry_meets fun _ => ?_
  refine triple_bind _ countDeclaredBytes_meets fun _ => ?_
  refine triple_bind _ admitTarget_meets fun target => ?_
  have hfact : ∀ s, Placing (rootSegments cwd destination) e n t target s →
      IsTarget (rootSegments cwd destination) target := fun s h => h.2.toIsTarget
  refine triple_of_fact hfact fun htarget => ?_
  refine triple_ite (fun _ => ?_) fun _ => ?_
  · rw [htarget.path]
    exact (mkdir_meets hroot htarget.names).imp (fun s h => h) (fun _ s h => h.1) fun _ s h => h
  · obtain ⟨names, hnames, hdirectory⟩ := dirname_target hroot htarget
    refine triple_bind (fun _ => Placing (rootSegments cwd destination) e n t target)
      (triple_lifted (fun _ s _ h => h) fun _ s _ h => h.1.toSafe) fun _ => ?_
    rw [hdirectory]
    refine triple_bind _ (mkdir_meets hroot hnames) fun _ => ?_
    exact triple_bind _ placing_hostCall fun _ => pipeline_meets

/-! ### Before the first entry -/

/-- Until the first entry nothing is created for one. -/
structure Empty (done : List (List JsString)) (s : Extraction) : Prop where
  inventory : s.inventory = .new
  actualTotalBytes : s.actualTotalBytes = 0
  created : ∀ creation ∈ s.created, creation.entry = none
  files : s.files = []
  done : ∀ segments ∈ done, segments ∈ s.directories

theorem Empty.safe {done : List (List JsString)} (h : Empty done s) : Safe root e n t s where
  created := fun creation hcreation hentry => absurd (h.created creation hcreation) hentry
  keys := by simp [h.inventory, ZipInventory.new]
  seen := by simp [h.inventory, ZipInventory.new]
  admitted := by simp [h.inventory, ZipInventory.new]
  targets := by simp [h.files]
  distinct := by simp [h.files]
  file := by simp [h.files]
  total := by simp [h.files, fileBytes]

theorem Empty.ready (h : Empty root.inits.tail s) : Ready root e n t 0 0 s where
  toSafe := h.safe
  parents := h.done
  counted := by simp [h.inventory, ZipInventory.new]
  entryCount := by simp [h.inventory, ZipInventory.new]
  metered := by simp [h.files, fileBytes]
  actualTotalBytes := by simp [h.actualTotalBytes]

theorem makeDirectory_destination {segments : List JsString} {done : List (List JsString)} :
    Triple (makeDirectory faults none segments) (Empty done) (fun _ => Empty (done ++ [segments]))
      fun _ => Empty [] := by
  unfold makeDirectory
  refine triple_bind (fun s s' => s = s' ∧ Empty done s') (triple_get fun s h => ⟨rfl, h⟩) fun s => ?_
  refine triple_ite (fun hthere => triple_pure ?_) fun _ => ?_
  · rintro s' ⟨rfl, h⟩
    refine ⟨h.inventory, h.actualTotalBytes, h.created, h.files, ?_⟩
    intro other hother
    rcases List.mem_append.mp hother with hother | hother
    · exact h.done other hother
    · rwa [List.mem_singleton.mp hother]
  · have hcall : Triple (hostCall faults) (Empty done) (fun _ => Empty done) fun _ => Empty [] :=
      hostCall_meets (fun _ h => ⟨h.inventory, h.actualTotalBytes, h.created, h.files, h.done⟩)
        fun _ _ h => ⟨h.inventory, h.actualTotalBytes, h.created, h.files, by simp⟩
    refine triple_bind _ (hcall.imp (fun s h => h.2) (fun _ _ h => h) fun _ _ h => h) fun _ => ?_
    refine triple_modify fun s h => ?_
    refine ⟨h.inventory, h.actualTotalBytes, ?_, h.files, ?_⟩
    · intro creation hcreation
      rcases List.mem_append.mp hcreation with hold | hnew
      · exact h.created creation hold
      · rw [List.mem_singleton.mp hnew]
    · intro other hother
      rcases List.mem_append.mp hother with hother | hother
      · exact List.mem_append_left _ (h.done other hother)
      · exact List.mem_append_right _ hother

/-- STEP: the destination is made, and the directories above it. -/
theorem mkdir_destination {segments done : List (List JsString)} :
    Triple (segments.forM (makeDirectory faults none)) (Empty done)
      (fun _ => Empty (done ++ segments)) fun _ =>
      Empty [] := by
  induction segments generalizing done with
  | nil => exact triple_pure fun s h => by rwa [List.append_nil]
  | cons first segments ih =>
    rw [List.forM_eq_forM, List.forM_cons]
    refine triple_bind _ makeDirectory_destination fun _ => ?_
    rw [List.append_cons done first segments]
    exact ih

theorem visit_meets {σ : Type} {inv : σ → Prop} {fail : σ → Prop} {archive : Archive}
    {visit : Entry → ExceptT ZipError (StateM σ) Unit}
    (h : ∀ entry, Triple (visit entry) inv (fun _ => inv) fun _ => fail) (hfail : ∀ s, inv s → fail s) :
    Triple (visitZipEntries archive visit) inv (fun _ => fail) fun _ => fail := by
  refine triple_bind _ (triple_forM fun entry _ => h entry) fun _ => ?_
  cases archive.failure with
  | some message => exact triple_throw hfail
  | none => exact triple_pure hfail

/-- RUN: what holds of an extraction, wherever it stops. -/
theorem extractZip_meets {archive : Archive} {options : ZipOptions}
    (hlimits : options.limits = ⟨.ofNat e, .ofNat n, .ofNat t⟩) :
    Triple (extractZip faults cwd archive destination options) (Empty [])
      (fun _ => Safe (rootSegments cwd destination) e n t) fun _ =>
        Safe (rootSegments cwd destination) e n t := by
  unfold extractZip
  refine triple_ite (fun _ => triple_throw fun s h => h.safe) fun _ => ?_
  refine triple_bind (fun _ => Empty [])
    (triple_lifted (fun _ s _ h => h) fun _ s _ h => h.safe) fun _ => ?_
  rw [mkdir, resolve_one, normalSegments_fromSegments (names_rootSegments cwd destination), hlimits]
  refine triple_bind _ (mkdir_destination.imp (fun s h => h) (fun _ s h => h) fun _ s h => h.safe)
    fun _ => ?_
  exact (visit_meets (fun entry => extractEntry_meets) fun s h => h.toSafe).imp (fun s h => h.ready)
    (fun _ s h => h) fun _ s h => h

end Steps

end StarkBallot.NodeAdapters.Zip
