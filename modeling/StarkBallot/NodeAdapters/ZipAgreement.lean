import StarkBallot.NodeAdapters.ZipSafety
import StarkBallot.Runtime.Numbers

/-! Inspection and extraction of an archive (`node-adapters/src/zip.ts`). They apply the checks of an
    entry in another order and for another destination. What the inspection let through has the same
    effect on the inventory of the extraction, entry by entry, so that none of the checks can stop it;
    only the host can, or the meter.

        inspection    i ──────────▶ i' ──────────▶ i'' ...      names listed:  a   b
        extraction    i ── files ─▶ i' ── files ─▶ i'' ...      files opened:  out/a   out/b -/

namespace StarkBallot.NodeAdapters.Zip
open Schemes Paths

/-! ### What the inspection knows of an entry -/

/-- The entry passed every check, and what it did to the inventory. -/
structure Inspected (limits : ZipLimits) (entry : Entry) (isDirectory : Bool) (key : JsString)
    (i i' : ZipInventory) :
    Prop where
  named : entryKey entry.fileName = .ok (isDirectory, key)
  count : ¬ limits.maxEntries.lt (.ofNat (i.entryCount + 1)) = true
  size : ¬ limits.maxEntryBytes.lt (.ofNat entry.uncompressedSize) = true
  declared : ¬ limits.maxTotalBytes.lt (.ofNat (i.totalBytes + entry.uncompressedSize)) = true
  fresh : key ∉ i.seen
  after : i' = ⟨i.seen ++ [key], i.entryCount + 1, i.totalBytes + entry.uncompressedSize⟩

/-- The names that an entry adds to the list. -/
def listedName (isDirectory : Bool) (key : JsString) : List JsString := if isDirectory then [] else [key]

section Inspection

variable {cwd : WorkingDirectory} {destination : JsString} {limits : ZipLimits} {entry : Entry}
  {i i' : ZipInventory} {names names' : List JsString}

theorem countEntry_eq_ok {maxEntries : Num} (h : exec (countEntry maxEntries) i = (.ok (), i')) :
    ¬ maxEntries.lt (.ofNat (i.entryCount + 1)) = true ∧
    i' = { i with entryCount := i.entryCount + 1 } := by
  rw [exec_countEntry] at h
  obtain ⟨hresult, rfl⟩ := Prod.mk.inj h
  exact ⟨(not_of_ite_ok hresult).1, rfl⟩

theorem countDeclaredBytes_eq_ok {maxTotalBytes : Num}
    (h : exec (countDeclaredBytes maxTotalBytes entry) i = (.ok (), i')) :
    ¬ maxTotalBytes.lt (.ofNat (i.totalBytes + entry.uncompressedSize)) = true ∧
      i' = { i with totalBytes := i.totalBytes + entry.uncompressedSize } := by
  rw [exec_countDeclaredBytes] at h
  obtain ⟨hresult, rfl⟩ := Prod.mk.inj h
  exact ⟨(not_of_ite_ok hresult).1, rfl⟩

theorem admitTarget_eq_ok {target : ZipTarget}
    (h : exec (admitTarget cwd destination entry) i = (.ok target, i')) :
    entryKey entry.fileName = .ok (target.isDirectory, target.key) ∧ target.key ∉ i.seen ∧
      i' = { i with seen := i.seen ++ [target.key] } := by
  cases htarget : resolveEntryTarget cwd destination entry.fileName with
  | error e =>
    rw [exec_admitTarget_error htarget] at h
    cases (Prod.mk.inj h).1
  | ok target' =>
    rw [exec_admitTarget htarget] at h
    obtain ⟨hresult, rfl⟩ := Prod.mk.inj h
    obtain ⟨hfresh, rfl⟩ := not_of_ite_ok hresult
    rw [resolveEntryTarget_eq (rootSegments_ne_nil htarget)] at htarget
    obtain ⟨⟨isDirectory, key⟩, hnamed, htarget⟩ := bind_eq_ok.mp htarget
    obtain rfl := Except.ok.inj htarget
    refine ⟨hnamed, hfresh, ?_⟩
    rw [setAdd_of_not_mem hfresh]

/-- STEP: an entry that the inspection let through passed every check. -/
theorem inspected_of_exec (h : exec (inspectEntry cwd destination limits entry) (i, names) =
    (.ok (), (i', names'))) :
    ∃ isDirectory key, Inspected limits entry isDirectory key i i' ∧
    names' = names ++ listedName isDirectory key := by
  obtain ⟨_, s₁, hcounting, h⟩ := exec_bind_eq_ok h
  obtain ⟨_, s₂, hsizing, h⟩ := exec_bind_eq_ok h
  obtain ⟨_, s₃, hdeclaring, h⟩ := exec_bind_eq_ok h
  obtain ⟨target, s₄, hadmitting, h⟩ := exec_bind_eq_ok h
  obtain ⟨i₁, hcounted, rfl⟩ := exec_onPart_eq_ok hcounting
  obtain ⟨hcount, rfl⟩ := countEntry_eq_ok hcounted
  rw [exec_lifted] at hsizing
  obtain ⟨hsize, rfl⟩ := Prod.mk.inj hsizing
  obtain ⟨i₂, hsummed, rfl⟩ := exec_onPart_eq_ok hdeclaring
  obtain ⟨hdeclared, rfl⟩ := countDeclaredBytes_eq_ok hsummed
  obtain ⟨i₃, hadmitted, rfl⟩ := exec_onPart_eq_ok hadmitting
  obtain ⟨hnamed, hfresh, rfl⟩ := admitTarget_eq_ok hadmitted
  refine ⟨target.isDirectory, target.key, ?_⟩
  have hpassed
      (hafter : i' = ⟨i.seen ++ [target.key], i.entryCount + 1, i.totalBytes + entry.uncompressedSize⟩) :
      Inspected limits entry target.isDirectory target.key i i' :=
    ⟨hnamed, hcount, refuseIf_eq_ok.mp hsize, hdeclared, hfresh, hafter⟩
  split at h
  · rename_i hfile
    rw [exec_modify] at h
    obtain ⟨-, hstate⟩ := Prod.mk.inj h
    obtain ⟨hi, hnames⟩ := Prod.mk.inj hstate
    have hlisted : listedName target.isDirectory target.key = [target.key] := if_neg hfile
    rw [hlisted]
    exact ⟨hpassed hi.symm, hnames.symm⟩
  · rename_i hdirectory
    rw [exec_pure] at h
    obtain ⟨-, hstate⟩ := Prod.mk.inj h
    obtain ⟨hi, hnames⟩ := Prod.mk.inj hstate
    have hlisted : listedName target.isDirectory target.key = [] := if_pos (not_not.mp hdirectory)
    rw [hlisted, List.append_nil]
    exact ⟨hpassed hi.symm, hnames.symm⟩

end Inspection

/-! ### The same entry, extracted -/

/-- The files that were opened, the last one first. -/
def openedPaths (s : Extraction) : List JsString := s.files.map Prod.fst

/-- The inventory and the files opened so far. -/
def At (i : ZipInventory) (opened : List JsString) (s : Extraction) : Prop :=
  s.inventory = i ∧ openedPaths s = opened

/-- An extraction that stopped for none of the checks of an entry, with some of the files opened. -/
def Halted (possible : List JsString → Prop) (error : ZipError) (s : Extraction) : Prop :=
  error.isOfEntry = false ∧ possible (openedPaths s)

section Extraction

variable {faults : ℕ → Option Fault} {cwd : WorkingDirectory} {destination : JsString}
  {limits : ZipLimits}
  {entry : Entry} {isDirectory : Bool} {key path : JsString} {i i' : ZipInventory}
  {opened : List JsString} {possible : List JsString → Prop}

theorem at_hostCall (h : possible opened) :
    Triple (hostCall faults) (At i opened) (fun _ => At i opened) (Halted possible) :=
  hostCall_meets (fun _ hs => hs) fun _ _ hs => ⟨rfl, hs.2.symm ▸ h⟩

theorem at_mkdir {creator : Option JsString} (h : possible opened) :
    Triple (mkdir faults creator path) (At i opened) (fun _ => At i opened) (Halted possible) := by
  refine triple_forM fun segments _ => ?_
  unfold makeDirectory
  refine triple_bind (fun _ => At i opened) (triple_get fun s hs => hs) fun s => ?_
  refine triple_ite (fun _ => triple_pure fun s hs => hs) fun _ => ?_
  exact triple_bind _ (at_hostCall h) fun _ => triple_modify fun s hs => hs

theorem at_pipeline (hbefore : possible opened) (hafter : possible (path :: opened)) :
    Triple (pipeline faults limits entry path) (At i opened) (fun _ => At i (path :: opened))
      (Halted possible) := by
  have hhalt : ∀ error : ZipError, error.isOfEntry = false → ∀ s, At i (path :: opened) s →
      Halted possible error s :=
    fun error herror s hs => ⟨herror, hs.2.symm ▸ hafter⟩
  have hcreate :
      Triple (createWriteStream faults entry path) (At i opened) (fun _ => At i (path :: opened))
      (Halted possible) :=
    triple_bind _ (at_hostCall hbefore) fun _ => triple_modify fun s hs =>
      ⟨hs.1, congrArg (List.cons path) hs.2⟩
  have hchunk : ∀ chunk a, Triple (transform faults limits a chunk) (At i (path :: opened))
      (fun _ => At i (path :: opened)) (Halted possible) := by
    intro chunk a
    refine triple_bind (fun _ => At i (path :: opened))
      (triple_lifted (fun _ s _ hs => hs) ?_) fun buffer => ?_
    · intro error s herror hs
      refine hhalt error ?_ s hs
      cases chunk with
      | other =>
        obtain rfl := Except.error.inj herror
        rfl
      | _ => cases herror
    refine triple_bind (fun _ => At i (path :: opened)) (triple_exec (exec_meter limits a buffer)
      (fun s a' hs _ => hs) fun s error hs herror => ?_) fun a' => ?_
    · split at herror
      · obtain rfl := Except.error.inj herror
        exact hhalt _ rfl s hs
      · cases herror
    have hpaths : ∀ (bytes : List UInt8) (files : List (JsString × List UInt8)),
        (appendToFile bytes files).map Prod.fst = files.map Prod.fst := by
      rintro bytes (_ | ⟨file, files⟩) <;> rfl
    refine triple_bind (fun _ => At i (path :: opened)) (triple_exec (exec_write buffer)
      (fun s _ hs _ => ⟨hs.1, (hpaths _ _).trans hs.2⟩) fun s error hs herror => ?_) fun _ =>
        triple_pure fun s hs => hs
    cases hfault : faults s.calls with
    | none =>
      rw [hfault] at herror
      cases herror
    | some fault =>
      rw [hfault] at herror
      obtain rfl := Except.error.inj herror
      exact hhalt _ rfl _ ⟨hs.1, (hpaths _ _).trans hs.2⟩
  refine triple_bind _ hcreate fun _ => ?_
  refine triple_bind (fun _ => At i (path :: opened))
    (triple_foldlM fun chunk _ a => hchunk chunk a) fun a => ?_
  cases entry.failure with
  | some message => exact triple_throw (hhalt _ rfl)
  | none => exact triple_pure fun s hs => hs

/-- Where the file of a listed name goes. -/
def entryPath (cwd : WorkingDirectory) (destination name : JsString) : JsString :=
  resolve cwd [resolve cwd [destination], name]

/-- STEP: an entry that was inspected is extracted, unless the host or the meter stops it. -/
theorem extractEntry_inspected (hroot : rootSegments cwd destination ≠ [])
    (h : Inspected limits entry isDirectory key i i') (hbefore : possible opened)
    (hafter : possible ((listedName isDirectory key).map (entryPath cwd destination) ++ opened)) :
    Triple (extractEntry faults cwd destination limits entry) (At i opened)
      (fun _ => At i' ((listedName isDirectory key).map (entryPath cwd destination) ++ opened))
      (Halted possible) := by
  have htarget : resolveEntryTarget cwd destination entry.fileName =
      .ok ⟨entryPath cwd destination key, isDirectory, key⟩ := by
    rw [resolveEntryTarget_eq hroot, h.named, entryPath, resolve_key (names_of_entryKey h.named)]
    rfl
  refine triple_bind (fun _ => At { i with entryCount := i.entryCount + 1 } opened)
    (triple_exec (fun s => by rw [onInventory, exec_onPart, exec_countEntry]) ?_ ?_) fun _ => ?_
  · rintro s a ⟨rfl, hs⟩ _
    exact ⟨rfl, hs⟩
  · rintro s error ⟨rfl, hs⟩ herror
    dsimp only at herror
    rw [if_neg h.count] at herror
    cases herror
  refine triple_bind
    (fun _ => At ⟨i.seen, i.entryCount + 1, i.totalBytes + entry.uncompressedSize⟩ opened)
    (triple_exec (fun s => by rw [onInventory, exec_onPart, exec_countDeclaredBytes]) ?_ ?_) fun _ => ?_
  · rintro s a ⟨hi, hs⟩ _
    refine ⟨?_, hs⟩
    dsimp only
    rw [hi]
  · rintro s error ⟨hi, hs⟩ herror
    dsimp only at herror
    rw [hi, if_neg h.declared] at herror
    cases herror
  refine triple_bind (fun target s => target = ⟨entryPath cwd destination key, isDirectory, key⟩ ∧
    At i' opened s)
    (triple_exec (fun s => by rw [onInventory, exec_onPart, exec_admitTarget htarget]) ?_ ?_)
    fun target => ?_
  · rintro s target ⟨hi, hs⟩ hok
    dsimp only at hok ⊢
    rw [hi, if_neg h.fresh] at hok
    refine ⟨(Except.ok.inj hok).symm, ?_, hs⟩
    dsimp only
    rw [hi, h.after, setAdd_of_not_mem h.fresh]
  · rintro s error ⟨hi, hs⟩ herror
    dsimp only at herror
    rw [hi, if_neg h.fresh] at herror
    cases herror
  refine triple_of_fact (fun s hs => hs.1) ?_
  rintro rfl
  suffices hrest : Triple _ (At i' opened) _ (Halted possible) from
    hrest.imp (fun s hs => hs.2) (fun _ _ hs => hs) fun _ _ hs => hs
  cases isDirectory with
  | true => exact at_mkdir hbefore
  | false =>
    refine triple_bind (fun _ => At i' opened) (triple_lifted (fun _ s _ hs => hs) ?_) fun _ => ?_
    · intro error s herror hs
      rw [assertEntrySize, refuseIf_of_not h.size] at herror
      cases herror
    refine triple_bind _ (at_mkdir hbefore) fun _ => ?_
    exact triple_bind _ (at_hostCall hbefore) fun _ => at_pipeline hbefore hafter

/-- The files of some of the listed names, in their order. -/
def SomeOf (cwd : WorkingDirectory) (destination : JsString) (listed before : List JsString)
    (opened : List JsString) :
    Prop :=
  ∃ done, done <+: listed ∧ opened = (done.map (entryPath cwd destination)).reverse ++ before

theorem opened_append (listed : List JsString) :
    ((listedName isDirectory key ++ listed).map (entryPath cwd destination)).reverse ++ opened =
      (listed.map (entryPath cwd destination)).reverse ++
        ((listedName isDirectory key).map (entryPath cwd destination) ++ opened) := by
  cases isDirectory with
  | true => rfl
  | false => simp [listedName]

/-- RUN: the entries that were inspected are extracted, and the files are those of the listed names. -/
theorem extract_inspected {inspected : JsString} (hroot : rootSegments cwd destination ≠ [])
    {entries : List Entry} {names names' : List JsString}
    (h : exec (entries.forM (inspectEntry cwd inspected limits))
      (i, names) = (.ok (), (i', names'))) : ∃ listed, names' = names ++ listed ∧ ∀ opened,
    Triple (entries.forM (extractEntry faults cwd destination limits)) (At i opened)
      (fun _ => At i' ((listed.map (entryPath cwd destination)).reverse ++ opened))
      (Halted (SomeOf cwd destination listed opened)) := by
  induction entries generalizing i names with
  | nil =>
    obtain ⟨-, hstate⟩ := Prod.mk.inj h
    obtain ⟨rfl, rfl⟩ := Prod.mk.inj hstate
    refine ⟨[], (List.append_nil _).symm, fun opened => triple_pure fun s hs => hs⟩
  | cons entry entries ih =>
    rw [List.forM_eq_forM, List.forM_cons] at h
    obtain ⟨_, ⟨i₁, names₁⟩, hentry, hrest⟩ := exec_bind_eq_ok h
    obtain ⟨isDirectory, key, hinspected, rfl⟩ := inspected_of_exec hentry
    obtain ⟨listed, rfl, hmeets⟩ := ih hrest
    refine ⟨listedName isDirectory key ++ listed, List.append_assoc _ _ _, fun opened => ?_⟩
    have hbefore : SomeOf cwd destination (listedName isDirectory key ++ listed) opened opened :=
      ⟨[], List.nil_prefix, rfl⟩
    have hafter : SomeOf cwd destination (listedName isDirectory key ++ listed) opened
        ((listedName isDirectory key).map (entryPath cwd destination) ++ opened) := by
      refine ⟨listedName isDirectory key, List.prefix_append _ _, ?_⟩
      have happend := @opened_append cwd destination isDirectory key opened []
      rw [List.append_nil] at happend
      exact happend.symm
    rw [List.forM_eq_forM, List.forM_cons, opened_append]
    refine triple_bind _ (extractEntry_inspected hroot hinspected hbefore hafter) fun _ => ?_
    refine (hmeets _).imp (fun s hs => hs) (fun _ _ hs => hs) ?_
    rintro error s ⟨herror, done, hdone, hopened⟩
    refine ⟨herror, listedName isDirectory key ++ done, (List.prefix_append_right_inj _).mpr hdone, ?_⟩
    rw [opened_append]
    exact hopened

/-- AGREE: what stops the extraction of an archive that was inspected is none of
    the checks of an entry. -/
theorem extractZip_inspected {archive : Archive} {options : ZipOptions} {names : List JsString}
    (hroot : rootSegments cwd destination ≠ []) (h : listZipEntryNames cwd archive options = .ok names) :
    Triple (extractZip faults cwd archive destination options) (At .new [])
      (fun _ s => openedPaths s = (names.map (entryPath cwd destination)).reverse)
      (Halted (SomeOf cwd destination names [])) := by
  obtain ⟨_, hlimits, h⟩ := bind_eq_ok.mp h
  obtain ⟨_, hvisit, h⟩ := bind_eq_ok.mp h
  obtain ⟨final, hfinal⟩ : ∃ final, exec (visitZipEntries archive (inspectEntry cwd
      (resolve cwd [js "zip-inspection-root"]) options.limits)) (.new, []) = (.ok (), final) :=
      ⟨_, Prod.ext hvisit rfl⟩
  have hnames : final.2 = names := by
    rw [hfinal] at h
    exact Except.ok.inj h
  obtain ⟨_, ⟨i', listed⟩, hentries, hend⟩ := exec_bind_eq_ok hfinal
  have hfailure : archive.failure = none := by
    cases hfailure : archive.failure with
    | none => rfl
    | some message =>
      rw [hfailure] at hend
      cases congrArg Prod.fst hend
  rw [hfailure] at hend
  obtain rfl : (i', listed) = final := congrArg Prod.snd hend
  obtain ⟨listed', hlisted, hmeets⟩ := @extract_inspected faults _ _ _ _ _ _ hroot _ _ _ hentries
  obtain rfl : names = listed' := hnames.symm.trans hlisted
  have hnone : SomeOf cwd destination names [] [] := ⟨[], List.nil_prefix, rfl⟩
  unfold extractZip
  refine triple_ite (fun _ => triple_throw fun s hs => ⟨rfl, hs.2.symm ▸ hnone⟩) fun _ => ?_
  refine triple_bind (fun _ => At .new []) (triple_lifted (fun _ s _ hs => hs) ?_) fun _ => ?_
  · intro error s herror hs
    rw [hlimits] at herror
    cases herror
  refine triple_bind _ (at_mkdir hnone) fun _ => ?_
  refine triple_bind _ (hmeets []) fun _ => ?_
  rw [hfailure]
  refine triple_pure fun s hs => ?_
  rw [hs.2, List.append_nil]

end Extraction

/-! ### Any archive -/

/-- The path goes on below the root, and no segment of what follows leads back. -/
def StrictlyInside (root path : JsString) : Prop :=
  ∃ names, names ≠ [] ∧ (∀ name ∈ names, IsName name) ∧ path = root ++ js "/" ++ ['/'].intercalate names

/-- Bounds that hold of an extraction, as numbers. -/
structure Bounded (limits : ZipLimits) (s : Extraction) : Prop where
  entries : (Num.ofNat s.inventory.seen.length).le limits.maxEntries = true
  file : ∀ file ∈ s.files, (Num.ofNat file.2.length).le limits.maxEntryBytes = true
  total : (Num.ofNat (fileBytes s.files)).le limits.maxTotalBytes = true

section Extracted

variable {cwd : WorkingDirectory} {destination : JsString} {s : Extraction} {limits : ZipLimits}

theorem assertZipLimit_eq_ok {value : Num} {label : String} (h : assertZipLimit value label = .ok ()) :
    value = .ofNat value.toNat := by
  rw [assertZipLimit, refuseIf_eq_ok, not_or, not_not, Bool.not_eq_true] at h
  obtain ⟨hsafe, hpos⟩ := h
  exact Num.eq_ofNat_toNat (Num.isInteger_of_isSafeInteger hsafe) (Bool.or_eq_false_iff.mp hpos).1

/-- SAFE: what holds of an extraction under limits that are natural numbers. -/
theorem bounded_of_safe {root : List JsString} {e n t : ℕ} (h : Safe root e n t s) :
    Bounded ⟨.ofNat e, .ofNat n, .ofNat t⟩ s where
  entries := by simpa using h.admitted
  file := fun file hfile => by simpa using h.file file hfile
  total := by simpa using h.total

theorem strictlyInside_of_below {path : JsString} (hroot : rootSegments cwd destination ≠ [])
    (h : Below (rootSegments cwd destination) path) :
    StrictlyInside (resolve cwd [destination]) path := by
  obtain ⟨names, hne, hnames, rfl⟩ := h
  exact ⟨names, hne, hnames, fromSegments_append hroot hne⟩

theorem rootSegments_of_ne (h : resolve cwd [destination] ≠ js "/") :
    rootSegments cwd destination ≠ [] := by
  intro hroot
  rw [resolve_one, hroot] at h
  exact h rfl

theorem start_empty (directories : List (List JsString)) : Empty [] (.start directories) :=
  ⟨rfl, rfl, by simp [Extraction.start], rfl, by simp⟩

/-- The bounds hold, whether or not the limits are numbers that a limit can be. -/
theorem safe_and_bounded (cwd : WorkingDirectory) (archive : Archive) (destination : JsString)
    (options : ZipOptions) (faults : ℕ → Option Fault) (directories : List (List JsString))
    (hentries : (Num.ofNat 0).lt options.limits.maxEntries = true)
    (htotal : (Num.ofNat 0).lt options.limits.maxTotalBytes = true) :
    let final := (exec (extractZip faults cwd archive destination options) (.start directories)).2
    (∃ e n t, Safe (rootSegments cwd destination) e n t final) ∧ Bounded options.limits final := by
  intro final
  cases hlimits : assertZipLimits options.limits with
  | error error =>
    have hstart : final = .start directories := by
      change (exec (extractZip faults cwd archive destination options) (.start directories)).2 = _
      unfold extractZip
      split
      · rfl
      · rw [exec_bind, exec_lifted, hlimits]
    have hle {value : Num} (h : (Num.ofNat 0).lt value = true) : (Num.ofNat 0).le value = true := by
      rw [Num.le, h, Bool.true_or]
    rw [hstart]
    exact ⟨⟨0, 0, 0, (start_empty directories).safe⟩,
      hle hentries, by simp [Extraction.start], hle htotal⟩
  | ok =>
    obtain ⟨_, hbytes, hrest⟩ := bind_eq_ok.mp hlimits
    obtain ⟨_, hcount, hsum⟩ := bind_eq_ok.mp hrest
    have hshape :
        options.limits =
          ⟨.ofNat options.limits.maxEntryBytes.toNat, .ofNat options.limits.maxEntries.toNat,
        .ofNat options.limits.maxTotalBytes.toNat⟩ := by
      rw [← assertZipLimit_eq_ok hbytes, ← assertZipLimit_eq_ok hcount, ← assertZipLimit_eq_ok hsum]
    have hmeets := @extractZip_meets _ _ _ faults cwd destination archive options hshape
    have hsafe := hmeets.state (start_empty directories)
    refine ⟨⟨_, _, _, hsafe⟩, ?_⟩
    rw [hshape]
    exact bounded_of_safe hsafe

end Extracted

/-- CONFINED: whatever an archive delivers, what is created for its entries lies inside the destination,
    no target is admitted twice, and the limits hold of the entries and of the bytes written; an archive
    that was inspected is extracted to the names listed, unless the host or the meter stops it. -/
theorem extraction_confined (cwd : WorkingDirectory) (archive : Archive) (destination : JsString)
    (options : ZipOptions) (faults : ℕ → Option Fault) (directories : List (List JsString))
    (hroot : resolve cwd [destination] ≠ js "/")
    (hentries : (Num.ofNat 0).lt options.limits.maxEntries = true)
    (htotal : (Num.ofNat 0).lt options.limits.maxTotalBytes = true) :
    let outcome := exec (extractZip faults cwd archive destination options) (.start directories)
    (∀ creation ∈ outcome.2.created, creation.entry ≠ none →
      StrictlyInside (resolve cwd [destination]) creation.path) ∧
    (outcome.2.inventory.seen.map (entryPath cwd destination)).Nodup ∧
    (∀ file ∈ outcome.2.files, file.1 ∈ outcome.2.inventory.seen.map (entryPath cwd destination)) ∧
    (openedPaths outcome.2).Nodup ∧
    Bounded options.limits outcome.2 ∧
    ∀ names, listZipEntryNames cwd archive options = .ok names →
      (∀ error, outcome.1 = .error error → error.isOfEntry = false ∧
        (openedPaths outcome.2).reverse <+: names.map (entryPath cwd destination)) ∧
      (outcome.1 = .ok () → (openedPaths outcome.2).reverse = names.map
        (entryPath cwd destination)) := by
  intro outcome
  have hsegments := rootSegments_of_ne hroot
  obtain ⟨⟨e, n, t, hsafe⟩, hbounded⟩ :=
    safe_and_bounded cwd archive destination options faults directories hentries htotal
  refine ⟨fun creation hcreation hfor =>
    strictlyInside_of_below hsegments (hsafe.created creation hcreation hfor), ?_,
    ?_, hsafe.distinct, hbounded, ?_⟩
  · refine List.Nodup.map_on (fun key hkey key' hkey' heq => ?_) hsafe.seen
    rw [entryPath, entryPath, resolve_key (hsafe.keys key hkey),
      resolve_key (hsafe.keys key' hkey')] at heq
    exact key_of_path (names_rootSegments cwd destination) (hsafe.keys key hkey)
      (hsafe.keys key' hkey') heq
  · intro file hfile
    obtain ⟨key, hkey, hpath⟩ := hsafe.targets file hfile
    refine List.mem_map.mpr ⟨key, hkey, ?_⟩
    rw [hpath, entryPath, resolve_key (hsafe.keys key hkey)]
  · intro names hlist
    obtain ⟨hok, herror⟩ :=
      @extractZip_inspected faults cwd destination archive options names hsegments hlist
      (.start directories) ⟨rfl, rfl⟩
    refine ⟨fun error hthrown => ?_, fun hreturned => ?_⟩
    · obtain ⟨hkind, done, hdone, hopened⟩ := herror error outcome.2 (Prod.ext hthrown rfl)
      refine ⟨hkind, ?_⟩
      rw [hopened, List.append_nil, List.reverse_reverse]
      exact hdone.map _
    · rw [hok () outcome.2 (Prod.ext hreturned rfl), List.reverse_reverse]

def workingDirectory : WorkingDirectory := ⟨js "/work", rfl⟩

/-- A directory and a file in it, spelled with the other slash. -/
def twoEntries : Archive where
  entries := [⟨js "a/", 0, [], none⟩, ⟨js "a\\b", 2, [.bytes [1], .text (js "2")], none⟩]
  failure := none

theorem extraction_on_sample :
    listZipEntryNames workingDirectory twoEntries ⟨none, none, none⟩ = .ok [js "a/b"] ∧
    (openedPaths (exec (extractZip (fun _ => none) workingDirectory twoEntries (js "out")
      ⟨none, none, none⟩) (.start [])).2).reverse = [js "/work/out/a/b"] := by
  obtain ⟨names, hlist⟩ := exists_of_isOk
    (show (listZipEntryNames workingDirectory twoEntries ⟨none, none, none⟩).isOk =
      true by decide)
  have hnames :
      (listZipEntryNames workingDirectory twoEntries ⟨none, none, none⟩).toOption = some [js "a/b"] := by
    decide
  rw [hlist] at hnames
  obtain rfl : names = [js "a/b"] := Option.some.inj hnames
  obtain ⟨_, hdone⟩ :=
    exists_of_isOk (show (exec (extractZip (fun _ => none) workingDirectory twoEntries (js "out")
    ⟨none, none, none⟩) (.start [])).1.isOk = true by decide +kernel)
  have hall :=
    extraction_confined workingDirectory twoEntries (js "out") ⟨none, none, none⟩ (fun _ => none) []
    (by decide) (by decide) (by decide)
  exact ⟨hlist, (hall.2.2.2.2.2 _ hlist).2 hdone⟩

end StarkBallot.NodeAdapters.Zip
