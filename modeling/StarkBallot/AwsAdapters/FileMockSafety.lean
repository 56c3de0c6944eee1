import StarkBallot.AwsAdapters.FileMockOperations
import StarkBallot.AwsAdapters.SessionTtl
import StarkBallot.Schemes.Serial

/-! File store mutations take effect one after the other, as long as no call fails after it has changed
    its store's rollback snapshots. A call that has the lock directory works on the state of the file as
    it is: nobody else writes it, and a store that is already loaded from it is not loaded again. So
    each mutation that succeeds is applied to the snapshot that the one before it has left.

        start          rollback snapshot: none       file: running
        start, write refused    ... : running        file: running   (loaded again; the snapshot is not)
        rollback       puts `running` back           file: running   (one at a time: no record)

    The rollback snapshots are in memory only, and the `catch` block does not restore them. It also does
    not help where the file system refuses a look at the file or the removal of the lock
    directory after the rename. -/

namespace StarkBallot.AwsAdapters.FileMock
open Schemes

variable {State Content Private Value ι κ : Type} (codec : SnapshotCodec State Content)
  (calls : ι → Call State Private Value κ)

/-! ### Looks at the file -/

/-- A look that does not miss a file and does not fail to read it; it may throw. -/
def Sight.reads (disk : Disk ι Content) : Sight → Bool
  | .hidden => disk.snapshotFile.isNone
  | .unreadable => disk.snapshotFile.isNone
  | _ => true

/-- A look that does not miss a file. -/
def Sight.finds (disk : Disk ι Content) : Sight → Bool
  | .hidden => disk.snapshotFile.isNone
  | _ => true

/-- A look that does not throw. -/
def Sight.stats (disk : Disk ι Content) : Sight → Bool
  | .unstatted _ => disk.snapshotFile.isNone
  | _ => true

section Loading

variable {codec} {disk : Disk ι Content} {sight : Sight} {memory memory' : Memory State Private}

theorem computeSignature_of_finds (h : sight.finds disk = true) {signature : Option JsString}
    (hok : computeSignature disk sight = .ok signature) : signature = disk.signature := by
  unfold computeSignature at hok
  unfold Disk.signature
  cases hfile : disk.snapshotFile with
  | none =>
    rw [hfile] at hok
    exact (Except.ok.inj hok).symm
  | some file =>
    rw [hfile] at hok
    cases sight with
    | clear => exact (Except.ok.inj hok).symm
    | hidden =>
      rw [Sight.finds, hfile] at h
      cases h
    | unstatted error => cases hok
    | unreadable => exact (Except.ok.inj hok).symm

theorem computeSignature_of_stats (h : sight.stats disk = true) :
    (computeSignature disk sight).isOk = true := by
  unfold computeSignature
  cases hfile : disk.snapshotFile with
  | none => rfl
  | some file =>
    cases sight with
    | unstatted error =>
      rw [Sight.stats, hfile] at h
      cases h
    | _ => rfl

theorem Sight.finds_of_reads (h : sight.reads disk = true) : sight.finds disk = true := by
  cases sight with
  | hidden => exact h
  | _ => rfl

/-- A forced look that returns has loaded the file. -/
theorem loadFromDisk_forced (h : sight.reads disk = true)
    (hok : loadFromDisk codec disk sight true memory = .ok memory') :
    memory' = { memory with loaded := codec.read disk.content, loadedSignature := disk.signature } := by
  obtain ⟨signature, hsignature, hok⟩ := bind_eq_ok.mp hok
  rw [if_neg (by simp)] at hok
  rw [computeSignature_of_finds (Sight.finds_of_reads h) hsignature] at hok
  unfold Disk.signature Disk.content at *
  cases hfile : disk.snapshotFile with
  | none =>
    rw [hfile] at hok
    exact (Except.ok.inj hok).symm
  | some file =>
    rw [hfile] at hok
    have hread : readFileSync disk sight = some file.content := by
      cases sight with
      | unreadable =>
        rw [Sight.reads, hfile] at h
        cases h
      | _ =>
        simp only [readFileSync, Disk.content, hfile]
        rfl
    obtain rfl := Except.ok.inj hok
    rw [hread]
    rfl

theorem loadFromDisk_of_stats (h : sight.stats disk = true) (force : Bool) :
    ∃ memory', loadFromDisk codec disk sight force memory = .ok memory' := by
  obtain ⟨signature, hsignature⟩ := exists_of_isOk (computeSignature_of_stats h)
  unfold loadFromDisk
  rw [hsignature, ok_bind]
  split
  · exact ⟨_, rfl⟩
  · split <;> exact ⟨_, rfl⟩

/-- Loading leaves the rollback snapshots alone. -/
theorem loadFromDisk_snapshots {force : Bool}
    (hok : loadFromDisk codec disk sight force memory = .ok memory') :
    memory'.verificationRollbackSnapshots = memory.verificationRollbackSnapshots := by
  obtain ⟨signature, -, hok⟩ := bind_eq_ok.mp hok
  split at hok
  · rw [← Except.ok.inj hok]
  · split at hok <;> rw [← Except.ok.inj hok]

/-- A store that has loaded the file does not load it again. -/
theorem ensureFresh_of_loaded (hsight : sight.finds disk = true)
    (h : memory.loadedSignature = disk.signature)
    (hok : ensureFresh codec disk sight memory = .ok memory') : memory' = memory := by
  obtain ⟨signature, hsignature, hok⟩ := bind_eq_ok.mp hok
  rw [if_pos ⟨by simp, (computeSignature_of_finds hsight hsignature).trans h.symm⟩] at hok
  exact (Except.ok.inj hok).symm

end Loading

/-! ### What is known of a call -/

/-- The mutation of the call, run on a snapshot and the rollback snapshots of its store, returns the
    result and leaves the state and the rollback snapshots. -/
def Mutates (c : ι) (content : Option Content) (snapshots : Private) (result : MutationResult Value)
    (state : State) (snapshots' : Private) : Prop :=
  (calls c).mutation (codec.read content) snapshots = ⟨.ok result, state, snapshots'⟩

/-- APPLIES: a mutation leads from one snapshot to the next; one that is not
    dirty leaves the snapshot. -/
def Applies [DecidableEq κ] (s : Option Content × (κ → Private)) (entry : Entry ι Value)
    (s' : Option Content × (κ → Private)) : Prop :=
  ∃ dirty state snapshots,
    Mutates codec calls entry.call s.1 (s.2 (calls entry.call).store) ⟨entry.value, dirty⟩
      state snapshots ∧
    s'.2 = Function.update s.2 (calls entry.call).store snapshots ∧
    if dirty then ∃ serialized, codec.serializeFileStoreState state = .ok serialized ∧
      s'.1 = some serialized
    else s'.1 = s.1

/-- The store of the call has in memory what is in the file, and the rollback snapshots are settled. -/
def InMemory (system : System State Content Private Value ι κ) (c : ι) : Prop :=
  (system.memory (calls c).store).loaded = codec.read system.disk.content ∧
    (system.memory (calls c).store).loadedSignature = system.disk.signature ∧
    (system.memory (calls c).store).verificationRollbackSnapshots = system.settled (calls c).store

def Phase.holdsLock : Phase Content Value → Bool
  | .waiting => false
  | .done _ => false
  | _ => true

/-- The mutation has run, and it is not known yet whether it succeeds. -/
def Phase.unsettled : Phase Content Value → Bool
  | .mutated _ => true
  | .writing .. => true
  | .written _ => true
  | .failed _ => true
  | _ => false

/-- What the store has in memory still matters. -/
def Phase.usesMemory : Phase Content Value → Bool
  | .mutated _ => true
  | .releasing (.error _) => true
  | _ => false

/-- The mutation has succeeded. -/
def Phase.returns : Phase Content Value → Option Value
  | .renamed value => some value
  | .releasing (.ok value) => some value
  | .done (.ok value) => some value
  | _ => none

/-- The branch of the step that goes wrong is not taken: the look of a mutation finds and reads a file
    that is there, `statSync` and `rm` are served once the file is replaced, and a call that has failed
    has not changed its store's rollback snapshots and can load the file. -/
def UndisturbedStep (system : System State Content Private Value ι κ) (c : ι) (fate : Fate Content) :
    Phase Content Value → Prop
  | .acquired => fate.sight.reads system.disk = true
  | .renamed _ => fate.sight.stats system.disk = true
  | .failed _ => fate.sight.reads system.disk = true ∧ fate.sight.stats system.disk = true ∧
    (system.memory (calls c).store).verificationRollbackSnapshots = system.settled (calls c).store
  | .releasing _ => fate.error = none
  | _ => True

/-- A reader does not miss the file while a call on its store needs what is loaded. -/
def Undisturbed (system : System State Content Private Value ι κ) : Turn ι κ Content → Prop
  | .ensureFresh store sight =>
    sight.finds system.disk = true ∨ ∀ c, (calls c).store = store → (system.phase c).usesMemory = false
  | .step c fate => UndisturbedStep calls system c fate (system.phase c)

/-- What is known of the file and the memory where a call is. -/
def Known (system : System State Content Private Value ι κ) (c : ι) : Phase Content Value → Prop
  | .mutated result =>
    Mutates codec calls c system.disk.content (system.settled (calls c).store) result
        (system.memory (calls c).store).loaded.state
          (system.memory (calls c).store).verificationRollbackSnapshots ∧
      (system.memory (calls c).store).loadedSignature = system.disk.signature
  | .writing serialized value =>
    ∃ state, Mutates codec calls c system.disk.content (system.settled (calls c).store)
        ⟨value, true⟩ state (system.memory (calls c).store).verificationRollbackSnapshots ∧
      codec.serializeFileStoreState state = .ok serialized
  | .written value =>
    ∃ state serialized, Mutates codec calls c system.disk.content (system.settled (calls c).store)
        ⟨value, true⟩ state (system.memory (calls c).store).verificationRollbackSnapshots ∧
      codec.serializeFileStoreState state = .ok serialized ∧
        system.disk.temporarySnapshotFile = some serialized
  | .releasing (.error _) => InMemory codec calls system c
  | _ => True

/-- The one call past the attempt at the lock is the one that has made it, what is known of each call
    holds, the rollback snapshots of a store are settled but for a mutation under way, and the calls
    that have succeeded are noted once. -/
structure Inv (system : System State Content Private Value ι κ) : Prop where
  owner : ∀ c, (system.phase c).holdsLock = true ↔ system.disk.lockDirectory = some c
  known : ∀ c, Known codec calls system c (system.phase c)
  settled : ∀ store, (∀ c, (calls c).store = store → (system.phase c).unsettled = false) →
    (system.memory store).verificationRollbackSnapshots = system.settled store
  noted : ∀ c value, (system.phase c).returns = some value ↔ ⟨c, value⟩ ∈ system.succeeded
  once : (system.succeeded.map Entry.call).Nodup

/-! ### One turn -/

/-- A turn leaves the file and what was noted, or it notes the call whose mutation leads to the file. -/
def TurnEffect [DecidableEq κ] (system system' : System State Content Private Value ι κ)
    (turn : Turn ι κ Content) :
    Prop :=
  (system'.succeeded = system.succeeded ∧ system'.disk.snapshotFile = system.disk.snapshotFile ∧
    system'.settled = system.settled) ∨
    ∃ c fate value, turn = .step c fate ∧ system'.succeeded = system.succeeded ++ [⟨c, value⟩] ∧
      Applies codec calls (system.disk.content, system.settled) ⟨c, value⟩
        (system'.disk.content, system'.settled)

section Turns

variable {codec calls} {system : System State Content Private Value ι κ} {c : ι}

/-- A call that has the lock is the only one. -/
theorem Inv.alone (hinv : Inv codec calls system) (hc : (system.phase c).holdsLock = true) {d : ι}
    (hd : d ≠ c) :
    (system.phase d).holdsLock = false := by
  by_contra hlock
  rw [Bool.not_eq_false] at hlock
  have hsame := ((hinv.owner d).mp hlock).symm.trans ((hinv.owner c).mp hc)
  exact hd (Option.some.inj hsame)

theorem Inv.locked {before : Phase Content Value} (hinv : Inv codec calls system)
    (hbefore : system.phase c = before) (hlock : before.holdsLock = true) :
    system.disk.lockDirectory = some c :=
  (hinv.owner c).mp (hbefore ▸ hlock)

theorem known_of_free {phase : Phase Content Value} (h : phase.holdsLock = false) :
    Known codec calls system c phase := by
  cases phase with
  | waiting => trivial
  | done result => trivial
  | _ => cases h

theorem unsettled_of_free {phase : Phase Content Value} (h : phase.holdsLock = false) :
    phase.unsettled = false := by
  cases phase with
  | waiting => rfl
  | done result => rfl
  | _ => cases h

/-- The store of a call that holds the lock and has not mutated is settled. -/
theorem Inv.settled_of_phase {before : Phase Content Value} (hinv : Inv codec calls system)
    (hbefore : system.phase c = before) (hlock : before.holdsLock = true)
    (hsettled : before.unsettled = false) :
    (system.memory (calls c).store).verificationRollbackSnapshots = system.settled (calls c).store := by
  subst hbefore
  refine hinv.settled _ fun d _ => ?_
  by_cases hd : d = c
  · rw [hd]
    exact hsettled
  · exact unsettled_of_free (hinv.alone hlock hd)

/-- The phase of one call is set. -/
structure Moves (system system' : System State Content Private Value ι κ) (c : ι)
    (phase : Phase Content Value) :
    Prop where
  phase_self : system'.phase c = phase
  phase_other : ∀ d, d ≠ c → system'.phase d = system.phase d

/-- The rollback snapshots of all stores but one are left alone. -/
def OthersKept (system system' : System State Content Private Value ι κ) (store : κ) : Prop :=
  ∀ other, other ≠ store →
    (system'.memory other).verificationRollbackSnapshots =
      (system.memory other).verificationRollbackSnapshots ∧
      system'.settled other = system.settled other

theorem others_same {system system' : System State Content Private Value ι κ} {store : κ}
    (hmemory : system'.memory = system.memory) (hsettled : system'.settled = system.settled) :
    OthersKept system system' store := by
  intro other _
  rw [hmemory, hsettled]
  exact ⟨rfl, rfl⟩

/-- A turn of the call that has the lock, with what it leaves behind. -/
theorem Inv.of_moves {system' : System State Content Private Value ι κ}
    {before phase : Phase Content Value} (hinv : Inv codec calls system)
    (hbefore : system.phase c = before) (hlock : before.holdsLock = true)
    (hmoves : Moves system system' c phase)
    (howner : system'.disk.lockDirectory = if phase.holdsLock then some c else none)
    (hknown : Known codec calls system' c phase) (hothers : OthersKept system system' (calls c).store)
    (hsettled : phase.unsettled = false →
      (system'.memory (calls c).store).verificationRollbackSnapshots = system'.settled (calls c).store)
    (hnoted : system'.succeeded = system.succeeded ∧ phase.returns = before.returns ∨
      ∃ value, before.returns = none ∧ phase.returns = some value ∧
        system'.succeeded = system.succeeded ++ [⟨c, value⟩]) : Inv codec calls system' := by
  subst hbefore
  have halone (d : ι) (hd : d ≠ c) : (system'.phase d).holdsLock = false := by
    rw [hmoves.phase_other d hd]
    exact hinv.alone hlock hd
  refine ⟨fun d => ?_, fun d => ?_, fun store hstore => ?_, fun d value => ?_, ?_⟩
  · by_cases hd : d = c
    · subst hd
      rw [hmoves.phase_self, howner]
      split <;> simp_all
    · rw [halone d hd, howner]
      split <;> simp [Ne.symm hd]
  · by_cases hd : d = c
    · subst hd
      rw [hmoves.phase_self]
      exact hknown
    · exact known_of_free (halone d hd)
  · by_cases hsame : store = (calls c).store
    · subst hsame
      refine hsettled ?_
      rw [← hmoves.phase_self]
      exact hstore c rfl
    · -- no other call is under way, so the other stores were settled before
      obtain ⟨hmemory, hkept⟩ := hothers store hsame
      rw [hmemory, hkept]
      refine hinv.settled store fun d hd => ?_
      have hne : d ≠ c := fun heq => hsame (heq ▸ hd.symm)
      exact unsettled_of_free (hinv.alone hlock hne)
  · by_cases hd : d = c
    · subst hd
      rw [hmoves.phase_self]
      rcases hnoted with ⟨hsame, hreturns⟩ | ⟨value', hbefore, hreturns, hsame⟩
      · rw [hreturns, hsame]
        exact hinv.noted d value
      · have hfresh : ⟨d, value⟩ ∉ system.succeeded := by
          rw [← hinv.noted, hbefore]
          simp
        rw [hreturns, hsame, List.mem_append, List.mem_singleton]
        simp [hfresh, eq_comm]
    · rw [hmoves.phase_other d hd, hinv.noted]
      rcases hnoted with ⟨hsame, -⟩ | ⟨value', -, -, hsame⟩
      · rw [hsame]
      · simp [hsame, hd]
  · rcases hnoted with ⟨hsame, -⟩ | ⟨value', hbefore, -, hsame⟩
    · rw [hsame]
      exact hinv.once
    · rw [hsame, List.map_append, List.nodup_append]
      refine ⟨hinv.once, List.nodup_singleton _, ?_⟩
      rintro a ha b hb rfl
      obtain ⟨entry, hentry, rfl⟩ := List.mem_map.mp ha
      obtain rfl : entry.call = c := by simpa using hb
      have hreturns := (hinv.noted entry.call entry.value).mpr hentry
      rw [hbefore] at hreturns
      cases hreturns

variable [DecidableEq ι] {fate : Fate Content}

theorem moves_update {system system' : System State Content Private Value ι κ}
    {phase : Phase Content Value} (h : system'.phase = Function.update system.phase c phase) :
    Moves system system' c phase := by
  refine ⟨?_, fun d hd => ?_⟩
  · rw [h, Function.update_self]
  · rw [h, Function.update_of_ne hd]

/-- A turn that sets the phase of the call that has the lock, and nothing else that is kept. -/
theorem Inv.of_setPhase {system' : System State Content Private Value ι κ}
    {before phase : Phase Content Value} (hinv : Inv codec calls system)
    (hbefore : system.phase c = before) (hlock : before.holdsLock = true)
    (hphase : system'.phase = Function.update system.phase c phase) (hlock' : phase.holdsLock = true)
    (hdirectory : system'.disk.lockDirectory = system.disk.lockDirectory)
    (hmemory : system'.memory = system.memory) (hkept : system'.settled = system.settled)
    (hsucceeded : system'.succeeded = system.succeeded) (hknown : Known codec calls system' c phase)
    (hsettled : phase.unsettled = true ∨ before.unsettled = false)
    (hreturns : phase.returns = before.returns) : Inv codec calls system' := by
  refine hinv.of_moves hbefore hlock (moves_update hphase) ?_ hknown (others_same hmemory hkept) ?_
    (.inl ⟨hsucceeded, hreturns⟩)
  · rw [hdirectory, if_pos hlock']
    exact hinv.locked hbefore hlock
  · intro hphase
    rcases hsettled with hunsettled | hbeforeSettled
    · rw [hphase] at hunsettled
      cases hunsettled
    · rw [hmemory, hkept]
      exact hinv.settled_of_phase hbefore hlock hbeforeSettled

/-- The turn of a call that waits for the lock. -/
theorem Inv.of_waiting {system' : System State Content Private Value ι κ} {phase : Phase Content Value}
    (hinv : Inv codec calls system) (hphase : system.phase c = .waiting)
    (hmoves : Moves system system' c phase) (howner : ∀ d, system'.disk.lockDirectory = some d ↔
      if d = c then phase.holdsLock = true else system.disk.lockDirectory = some d)
    (hknown : ∀ d phase, Known codec calls system d phase → Known codec calls system' d phase)
    (hself : Known codec calls system' c phase) (hmemory : system'.memory = system.memory)
    (hsettled : system'.settled = system.settled) (hreturns : phase.returns = none)
    (hsucceeded : system'.succeeded = system.succeeded) : Inv codec calls system' := by
  refine ⟨fun d => ?_, fun d => ?_, fun store hstore => ?_, fun d value => ?_, hsucceeded ▸ hinv.once⟩
  · rw [howner]
    by_cases hd : d = c
    · subst hd
      rw [hmoves.phase_self, if_pos rfl]
    · rw [hmoves.phase_other d hd, if_neg hd]
      exact hinv.owner d
  · by_cases hd : d = c
    · subst hd
      rw [hmoves.phase_self]
      exact hself
    · rw [hmoves.phase_other d hd]
      exact hknown d _ (hinv.known d)
  · rw [hmemory, hsettled]
    refine hinv.settled store fun d hd => ?_
    by_cases hne : d = c
    · rw [hne, hphase]
      rfl
    · rw [← hmoves.phase_other d hne]
      exact hstore d hd
  · rw [hsucceeded]
    by_cases hd : d = c
    · subst hd
      have hbefore := hinv.noted d value
      rw [hphase] at hbefore
      rw [hmoves.phase_self, hreturns]
      exact hbefore
    · rw [hmoves.phase_other d hd]
      exact hinv.noted d value

theorem acquireLock_keeps (hinv : Inv codec calls system) (hphase : system.phase c = .waiting) :
    Inv codec calls (system.acquireLock c fate) := by
  have hfree : system.disk.lockDirectory ≠ some c := by
    intro hlock
    have hholds := (hinv.owner c).mpr hlock
    rw [hphase] at hholds
    cases hholds
  unfold System.acquireLock
  split
  · refine hinv.of_waiting hphase (moves_update rfl) ?_ (fun _ _ h => h) trivial rfl rfl rfl rfl
    intro d
    by_cases hd : d = c
    · subst hd
      rw [if_pos rfl]
      exact ⟨fun hlock => absurd hlock hfree, fun hholds => by cases hholds⟩
    · rw [if_neg hd]
      rfl
  · exact hinv
  · rename_i hnone
    refine hinv.of_waiting hphase (moves_update rfl) ?_ (fun _ _ h => h) trivial rfl rfl rfl rfl
    intro d
    rw [hnone]
    by_cases hd : d = c
    · subst hd
      simp [Phase.holdsLock]
    · simp [hd, Ne.symm hd]

theorem writeFile_keeps (hinv : Inv codec calls system) {serialized : Content} {value : Value}
    (hphase : system.phase c = .writing serialized value) :
    Inv codec calls (system.writeFile c serialized value fate) := by
  have hknown := hinv.known c
  rw [hphase] at hknown
  obtain ⟨state, hmutates, hserialized⟩ := hknown
  unfold System.writeFile
  split
  · exact hinv.of_setPhase hphase rfl rfl rfl rfl rfl rfl rfl trivial (.inl rfl) rfl
  · exact hinv.of_setPhase hphase rfl rfl rfl rfl rfl rfl rfl ⟨state, serialized, hmutates,
      hserialized, rfl⟩ (.inl rfl) rfl

theorem release_keeps (hinv : Inv codec calls system) {result : JsM Value}
    (hphase : system.phase c = .releasing result) (hserved : fate.error = none) :
    Inv codec calls (system.release c result fate) := by
  unfold System.release
  rw [hserved]
  refine hinv.of_moves hphase rfl (moves_update rfl) rfl trivial (others_same rfl rfl)
    (fun _ => hinv.settled_of_phase hphase rfl rfl) (.inl ⟨rfl, ?_⟩)
  cases result <;> rfl

variable [DecidableEq κ]

omit [DecidableEq ι] in
/-- A mutation that is noted settles the rollback snapshots of its store. -/
theorem settled_succeed (system : System State Content Private Value ι κ) (c : ι) (value : Value) :
    (system.succeed calls c value).settled (calls c).store =
      (system.memory (calls c).store).verificationRollbackSnapshots :=
  Function.update_self ..

omit [DecidableEq ι] in
theorem others_succeed (system : System State Content Private Value ι κ) (c : ι) (value : Value) :
    OthersKept system (system.succeed calls c value) (calls c).store :=
  fun _ hother => ⟨rfl, Function.update_of_ne hother _ _⟩

omit [DecidableEq ι] in
theorem others_setMemory (system : System State Content Private Value ι κ) (store : κ)
    (memory : Memory State Private) :
    OthersKept system (system.setMemory store memory) store := by
  intro other hother
  refine ⟨?_, rfl⟩
  simp only [System.setMemory, Function.update_of_ne hother]

theorem rename_keeps (hinv : Inv codec calls system) {value : Value}
    (hphase : system.phase c = .written value) :
    Inv codec calls (system.rename calls c value fate) := by
  unfold System.rename
  split
  · exact hinv.of_setPhase hphase rfl rfl rfl rfl rfl rfl rfl trivial (.inl rfl) rfl
  · exact hinv.of_setPhase hphase rfl rfl rfl rfl rfl rfl rfl trivial (.inl rfl) rfl
  · exact hinv.of_moves hphase rfl (moves_update rfl)
      (hinv.locked hphase rfl) trivial (others_succeed system c value)
      (fun _ => (settled_succeed system c value).symm) (.inr ⟨value, rfl, rfl, rfl⟩)

/-- STEP: the mutation runs on the state of the file. -/
theorem mutateLoaded_keeps (hinv : Inv codec calls system) (hphase : system.phase c = .acquired)
    (hsight : fate.sight.reads system.disk = true) :
    Inv codec calls (system.mutateLoaded codec calls c fate) := by
  have hsettled := hinv.settled_of_phase hphase rfl rfl
  unfold System.mutateLoaded
  split
  · exact hinv.of_setPhase hphase rfl rfl rfl rfl rfl rfl rfl trivial (.inl rfl) rfl
  · rename_i memory hmemory
    obtain rfl := loadFromDisk_forced hsight hmemory
    have hothers := others_setMemory system (calls c).store
    dsimp only [Mutation.run]
    split
    · rename_i result hresult
      refine hinv.of_moves hphase rfl (moves_update rfl) (hinv.locked hphase rfl) ⟨?_, ?_⟩ (hothers _)
        (fun h => by cases h) (.inl ⟨rfl, rfl⟩)
      · simp only [System.setPhase, System.setMemory, Function.update_self]
        rw [Mutates, ← hsettled, ← hresult]
      · simp only [System.setPhase, System.setMemory, Function.update_self]
    · exact hinv.of_moves hphase rfl (moves_update rfl) (hinv.locked hphase rfl) trivial (hothers _)
        (fun h => by cases h) (.inl ⟨rfl, rfl⟩)

theorem persistState_keeps (hinv : Inv codec calls system) {result : MutationResult Value}
    (hphase : system.phase c = .mutated result) :
    Inv codec calls (system.persistState codec calls c result) := by
  have hknown := hinv.known c
  rw [hphase] at hknown
  obtain ⟨hmutates, -⟩ := hknown
  unfold System.persistState
  split
  · rename_i hdirty
    split
    · rename_i serialized hserialized
      refine hinv.of_setPhase hphase rfl rfl rfl rfl rfl rfl rfl ⟨_, ?_, hserialized⟩ (.inl rfl) rfl
      obtain ⟨value, dirty⟩ := result
      obtain rfl : dirty = true := hdirty
      exact hmutates
    · exact hinv.of_setPhase hphase rfl rfl rfl rfl rfl rfl rfl trivial (.inl rfl) rfl
  · exact hinv.of_moves hphase rfl (moves_update rfl) (hinv.locked hphase rfl) trivial
      (others_succeed system c result.value) (fun _ => (settled_succeed system c result.value).symm)
      (.inr ⟨result.value, rfl, rfl, rfl⟩)

theorem rememberSignature_keeps (hinv : Inv codec calls system) {value : Value}
    (hphase : system.phase c = .renamed value) (hsight : fate.sight.stats system.disk = true) :
    Inv codec calls (system.rememberSignature calls c value fate) := by
  obtain ⟨signature, hsignature⟩ := exists_of_isOk (computeSignature_of_stats hsight)
  have hsettled := hinv.settled_of_phase hphase rfl rfl
  unfold System.rememberSignature
  rw [hsignature]
  refine hinv.of_moves hphase rfl (moves_update rfl) (hinv.locked hphase rfl) trivial
    (others_setMemory system (calls c).store _) (fun _ => ?_) (.inl ⟨rfl, rfl⟩)
  simp only [System.setPhase, System.setMemory, Function.update_self]
  exact hsettled

/-- STEP: the `catch` block loads the file that is still there. -/
theorem catchError_keeps (hinv : Inv codec calls system) {error : JsError}
    (hphase : system.phase c = .failed error) (hreads : fate.sight.reads system.disk = true)
    (hstats : fate.sight.stats system.disk = true)
    (hsettled : (system.memory (calls c).store).verificationRollbackSnapshots =
      system.settled (calls c).store) :
    Inv codec calls (system.catchError codec calls c error fate) := by
  obtain ⟨memory, hmemory⟩ :=
    @loadFromDisk_of_stats _ _ _ _ codec _ _ (system.memory (calls c).store) hstats true
  unfold System.catchError
  rw [hmemory]
  obtain rfl := loadFromDisk_forced hreads hmemory
  refine hinv.of_moves hphase rfl (moves_update rfl) (hinv.locked hphase rfl) ⟨?_, ?_, ?_⟩
    (others_setMemory system (calls c).store _) (fun _ => ?_) (.inl ⟨rfl, rfl⟩)
  · simp only [System.setPhase, System.setMemory, Function.update_self]
  · simp only [System.setPhase, System.setMemory, Function.update_self]
  · simp only [System.setPhase, System.setMemory, Function.update_self]
    exact hsettled
  · simp only [System.setPhase, System.setMemory, Function.update_self]
    exact hsettled

/-- STEP: every undisturbed step of a call keeps the invariant. -/
theorem step_keeps (hinv : Inv codec calls system) (hturn : Undisturbed calls system (.step c fate)) :
    Inv codec calls (system.step codec calls c fate) := by
  unfold System.step
  rw [Undisturbed] at hturn
  split <;> rename_i hphase <;> rw [hphase] at hturn
  · exact acquireLock_keeps hinv hphase
  · exact mutateLoaded_keeps hinv hphase hturn
  · exact persistState_keeps hinv hphase
  · exact writeFile_keeps hinv hphase
  · exact rename_keeps hinv hphase
  · exact rememberSignature_keeps hinv hphase hturn
  · exact catchError_keeps hinv hphase hturn.1 hturn.2.1 hturn.2.2
  · exact release_keeps hinv hphase hturn
  · exact hinv

omit [DecidableEq ι] in
/-- A look leaves the rollback snapshots and, where it finds the file, a store that has loaded it. -/
theorem refresh_memory (system : System State Content Private Value ι κ) (store other : κ)
    (sight : Sight) :
    ((system.refresh codec store sight).memory other).verificationRollbackSnapshots =
        (system.memory other).verificationRollbackSnapshots ∧
      ((system.memory other).loadedSignature = system.disk.signature → sight.finds system.disk = true ∨
        other ≠ store →
        (system.refresh codec store sight).memory other = system.memory other) := by
  unfold System.refresh
  split
  · rename_i memory hmemory
    by_cases hother : other = store
    · subst hother
      simp only [System.setMemory, Function.update_self]
      refine ⟨loadFromDisk_snapshots hmemory, fun hloaded hfinds => ?_⟩
      rcases hfinds with hfinds | hne
      · exact ensureFresh_of_loaded hfinds hloaded hmemory
      · exact absurd rfl hne
    · simp only [System.setMemory, Function.update_of_ne hother]
      exact ⟨trivial, fun _ _ => trivial⟩
  · exact ⟨rfl, fun _ _ => rfl⟩

omit [DecidableEq ι] in
theorem refresh_eq (system : System State Content Private Value ι κ) (store : κ) (sight : Sight) :
    (system.refresh codec store sight).disk = system.disk ∧
      (system.refresh codec store sight).phase = system.phase ∧
      (system.refresh codec store sight).succeeded = system.succeeded ∧
      (system.refresh codec store sight).settled = system.settled := by
  unfold System.refresh
  split <;> exact ⟨rfl, rfl, rfl, rfl⟩

omit [DecidableEq ι] in
/-- STEP: a reader loads nothing that a call under way has not. -/
theorem refresh_keeps (hinv : Inv codec calls system) {store : κ} {sight : Sight}
    (hturn : Undisturbed calls system (.ensureFresh store sight)) :
    Inv codec calls (system.refresh codec store sight) := by
  obtain ⟨hdisk, hphase, hsucceeded, hsettled⟩ := @refresh_eq _ _ _ _ _ _ codec _ system store sight
  refine ⟨fun c => ?_, fun c => ?_, fun other hother => ?_, fun c value => ?_, hsucceeded ▸ hinv.once⟩
  · rw [hdisk, hphase]
    exact hinv.owner c
  · obtain ⟨hsnapshots, hsame⟩ := @refresh_memory _ _ _ _ _ _ codec _ system store (calls c).store sight
    have hused (hused : (system.phase c).usesMemory = true) :
        sight.finds system.disk = true ∨ (calls c).store ≠ store := by
      rcases hturn with hfinds | hfree
      · exact .inl hfinds
      · refine .inr fun heq => ?_
        rw [hfree c heq] at hused
        cases hused
    have hknown := hinv.known c
    rw [hphase]
    cases hc : system.phase c with
    | mutated result =>
      rw [hc] at hknown hused
      obtain ⟨hmutates, hsignature⟩ := hknown
      rw [Known, hsame hsignature (hused rfl), hdisk, hsettled]
      exact ⟨hmutates, hsignature⟩
    | releasing result =>
      cases result with
      | ok value => trivial
      | error e =>
        rw [hc] at hknown hused
        obtain ⟨hloaded, hsignature, hkept⟩ := hknown
        rw [Known, InMemory, hsame hsignature (hused rfl), hdisk, hsettled]
        exact ⟨hloaded, hsignature, hkept⟩
    | writing serialized value =>
      rw [hc] at hknown
      rw [Known, hsnapshots, hdisk, hsettled]
      exact hknown
    | written value =>
      rw [hc] at hknown
      rw [Known, hsnapshots, hdisk, hsettled]
      exact hknown
    | _ => trivial
  · rw [(@refresh_memory _ _ _ _ _ _ codec _ system store other sight).1, hsettled]
    rw [hphase] at hother
    exact hinv.settled other hother
  · rw [hphase, hsucceeded]
    exact hinv.noted c value

/-- STEP: what a turn does to the file. -/
theorem turn_effect (hinv : Inv codec calls system) (turn : Turn ι κ Content) :
    TurnEffect codec calls system (system.advance codec calls turn) turn := by
  cases turn with
  | ensureFresh store sight =>
    obtain ⟨hdisk, -, hsucceeded, hsettled⟩ := @refresh_eq _ _ _ _ _ _ codec _ system store sight
    exact .inl ⟨hsucceeded, congrArg Disk.snapshotFile hdisk, hsettled⟩
  | step c fate =>
    have hknown := hinv.known c
    change TurnEffect codec calls system (system.step codec calls c fate) _
    unfold System.step
    cases hphase : system.phase c with
    | waiting =>
      refine .inl ?_
      dsimp only [System.acquireLock]
      split <;> exact ⟨rfl, rfl, rfl⟩
    | acquired =>
      refine .inl ?_
      dsimp only [System.mutateLoaded]
      split
      · exact ⟨rfl, rfl, rfl⟩
      · split <;> exact ⟨rfl, rfl, rfl⟩
    | mutated result =>
      rw [hphase] at hknown
      obtain ⟨hmutates, -⟩ := hknown
      dsimp only [System.persistState]
      split
      · refine .inl ?_
        split <;> exact ⟨rfl, rfl, rfl⟩
      · rename_i hclean
        refine .inr ⟨c, fate, result.value, rfl, rfl, false,
          (system.memory (calls c).store).loaded.state, _, ?_, rfl, rfl⟩
        obtain ⟨value, dirty⟩ := result
        obtain rfl : dirty = false := by simpa using hclean
        exact hmutates
    | writing serialized value =>
      refine .inl ?_
      dsimp only [System.writeFile]
      split <;> exact ⟨rfl, rfl, rfl⟩
    | written value =>
      rw [hphase] at hknown
      obtain ⟨state, serialized, hmutates, hserialized, htemporary⟩ := hknown
      dsimp only [System.rename]
      split
      · exact .inl ⟨rfl, rfl, rfl⟩
      · exact .inl ⟨rfl, rfl, rfl⟩
      · rename_i content hcontent
        obtain rfl := Option.some.inj (htemporary.symm.trans hcontent)
        exact .inr ⟨c, fate, value, rfl, rfl, true, state, _, hmutates, rfl, serialized,
          hserialized, rfl⟩
    | renamed value =>
      refine .inl ?_
      dsimp only [System.rememberSignature]
      split <;> exact ⟨rfl, rfl, rfl⟩
    | failed error =>
      refine .inl ?_
      dsimp only [System.catchError]
      split <;> exact ⟨rfl, rfl, rfl⟩
    | releasing result =>
      refine .inl ?_
      dsimp only [System.release]
      split <;> exact ⟨rfl, rfl, rfl⟩
    | done result => exact .inl ⟨rfl, rfl, rfl⟩

theorem advance_keeps (hinv : Inv codec calls system) {turn : Turn ι κ Content}
    (hturn : Undisturbed calls system turn) : Inv codec calls (system.advance codec calls turn) := by
  cases turn with
  | step c fate => exact step_keeps hinv hturn
  | ensureFresh store sight => exact refresh_keeps hinv hturn

end Turns

/-! ### Runs -/

/-- Every turn of a run is undisturbed where it is taken. -/
def UndisturbedRun [DecidableEq ι] [DecidableEq κ] :
    System State Content Private Value ι κ → List (Turn ι κ Content) → Prop
  | _, [] => True
  | system, turn :: turns =>
    Undisturbed calls system turn ∧ UndisturbedRun (system.advance codec calls turn) turns

/-- The file store from a snapshot file on, in memory and on disk. -/
structure Origin (State Content Private κ : Type) where
  snapshotFile : Option (SnapshotFile Content)
  temporarySnapshotFile : Option Content
  memory : κ → Memory State Private

def Origin.start (origin : Origin State Content Private κ) : System State Content Private Value ι κ :=
  FileMock.start origin.snapshotFile origin.temporarySnapshotFile origin.memory

/-- What was in the file and in the rollback snapshots at the start. -/
def Origin.snapshot (origin : Origin State Content Private κ) : Option Content × (κ → Private) :=
  (origin.snapshotFile.map SnapshotFile.content,
    fun store => (origin.memory store).verificationRollbackSnapshots)

/-- SERIALIZABLE: the snapshot file is what the mutations that succeeded lead to, one at a time and each
    from the snapshot before and from what the ones before on its store have left of the rollback
    snapshots; every turn leaves the file or notes the one mutation that replaces it, and nothing that
    was noted is lost. A call that returns was noted, once; a call that fails has left the file alone in
    each of its turns, and until it releases the lock its store has in memory what is in the file. -/
structure Serializable [DecidableEq ι] [DecidableEq κ] (origin : Origin State Content Private κ)
    (turns : List (Turn ι κ Content)) : Prop where
  serial : ∃ snapshots,
    Serial (Applies codec calls) origin.snapshot (origin.start.run codec calls turns).succeeded
      ((origin.start.run codec calls turns).disk.content, snapshots)
  turn : ∀ before turn after, turns = before ++ turn :: after →
    TurnEffect codec calls (origin.start.run codec calls before)
      (origin.start.run codec calls (before ++ [turn])) turn ∧
      (origin.start.run codec calls (before ++ [turn])).succeeded <+:
        (origin.start.run codec calls turns).succeeded
  returned : ∀ c value, (origin.start.run codec calls turns).phase c = .done (.ok value) →
    ⟨c, value⟩ ∈ (origin.start.run codec calls turns).succeeded
  once : ((origin.start.run codec calls turns).succeeded.map Entry.call).Nodup
  left : ∀ c e, (origin.start.run codec calls turns).phase c = .releasing (.error e) ∨
      (origin.start.run codec calls turns).phase c = .done (.error e) →
    ∀ before fate after, turns = before ++ .step c fate :: after →
      (origin.start.run codec calls (before ++ [.step c fate])).disk.snapshotFile =
        (origin.start.run codec calls before).disk.snapshotFile
  restored : ∀ c e, (origin.start.run codec calls turns).phase c = .releasing (.error e) →
    InMemory codec calls (origin.start.run codec calls turns) c

section Runs

variable {codec calls} {system : System State Content Private Value ι κ}

theorem inv_start (origin : Origin State Content Private κ) :
    Inv codec calls (origin.start : System _ _ _ Value ι κ) := by
  refine ⟨fun c => ?_, fun c => trivial, fun store _ => rfl, fun c value => ?_, List.nodup_nil⟩
  · simp [Origin.start, start, Phase.holdsLock]
  · simp [Origin.start, start, Phase.returns]

/-- A call that has failed was never noted. -/
theorem not_noted_of_failed (hinv : Inv codec calls system) {c : ι} {e : JsError}
    (h : system.phase c = .releasing (.error e) ∨ system.phase c = .done (.error e)) (value : Value) :
    ⟨c, value⟩ ∉ system.succeeded := by
  rw [← hinv.noted]
  rcases h with h | h <;> simp [h, Phase.returns]

variable [DecidableEq ι] [DecidableEq κ]

theorem run_append (system : System State Content Private Value ι κ)
    (before after : List (Turn ι κ Content)) :
    system.run codec calls (before ++ after) = (system.run codec calls before).run codec calls after :=
  List.foldl_append

theorem undisturbedRun_append {before after : List (Turn ι κ Content)} :
    UndisturbedRun codec calls system (before ++ after) ↔ UndisturbedRun codec calls system before ∧
      UndisturbedRun codec calls (system.run codec calls before) after := by
  induction before generalizing system with
  | nil => exact ⟨fun h => ⟨trivial, h⟩, And.right⟩
  | cons turn turns ih =>
    rw [List.cons_append, UndisturbedRun, UndisturbedRun, ih, and_assoc]
    rfl

/-- RUN: the invariant holds all along. -/
theorem run_keeps (hinv : Inv codec calls system) {turns : List (Turn ι κ Content)}
    (hturns : UndisturbedRun codec calls system turns) :
    Inv codec calls (system.run codec calls turns) := by
  induction turns generalizing system with
  | nil => exact hinv
  | cons turn turns ih => exact ih (advance_keeps hinv hturns.1) hturns.2

/-- RUN: what was noted stays, in its order. -/
theorem run_extends (hinv : Inv codec calls system) {turns : List (Turn ι κ Content)}
    (hturns : UndisturbedRun codec calls system turns) :
    system.succeeded <+: (system.run codec calls turns).succeeded := by
  induction turns generalizing system with
  | nil => exact List.prefix_refl _
  | cons turn turns ih =>
    have hturn : system.succeeded <+: (system.advance codec calls turn).succeeded := by
      rcases turn_effect hinv turn with ⟨hsame, -⟩ | ⟨c, fate, value, -, hnoted, -⟩
      · rw [hsame]
      · rw [hnoted]
        exact List.prefix_append _ _
    exact hturn.trans (ih (advance_keeps hinv hturns.1) hturns.2)

/-- RUN: the file is the one that the mutations lead to, one after the other. -/
theorem run_serial (hinv : Inv codec calls system) {start : Option Content × (κ → Private)}
    (hserial : Serial (Applies codec calls) start system.succeeded (system.disk.content, system.settled))
    {turns : List (Turn ι κ Content)} (hturns : UndisturbedRun codec calls system turns) :
    Serial (Applies codec calls) start (system.run codec calls turns).succeeded
      ((system.run codec calls turns).disk.content, (system.run codec calls turns).settled) := by
  induction turns generalizing system with
  | nil => exact hserial
  | cons turn turns ih =>
    refine ih (advance_keeps hinv hturns.1) ?_ hturns.2
    rcases turn_effect hinv turn with ⟨hsame, hfile, hsettled⟩ | ⟨c, fate, value, -, hnoted, happlies⟩
    · rw [hsame, Disk.content, hfile, hsettled]
      exact hserial
    · rw [hnoted]
      exact hserial.snoc happlies

end Runs

/-- SERIALIZABLE: every undisturbed run of any number of calls on any number of
    stores of one directory. -/
theorem mutations_serializable [DecidableEq ι] [DecidableEq κ] (origin : Origin State Content Private κ)
    (turns : List (Turn ι κ Content)) (hturns : UndisturbedRun codec calls origin.start turns) :
    Serializable codec calls origin turns := by
  have hstart : Inv codec calls (origin.start : System State Content Private Value ι κ) :=
    inv_start origin
  have hparts {before after : List (Turn ι κ Content)} (h : turns = before ++ after) :
      Inv codec calls (origin.start.run codec calls before) ∧
        (origin.start.run codec calls before).succeeded <+:
          (origin.start.run codec calls turns).succeeded := by
    rw [h, undisturbedRun_append] at hturns
    rw [h, run_append]
    exact ⟨run_keeps hstart hturns.1, run_extends (run_keeps hstart hturns.1) hturns.2⟩
  have hsnoc (before : List (Turn ι κ Content)) (turn : Turn ι κ Content) :
      origin.start.run codec calls (before ++ [turn]) = (origin.start.run codec calls before).advance
        codec calls turn :=
    run_append _ before [turn]
  have heffect {before after : List (Turn ι κ Content)} {turn : Turn ι κ Content}
      (h : turns = before ++ turn :: after) :
      TurnEffect codec calls (origin.start.run codec calls before)
        (origin.start.run codec calls (before ++ [turn])) turn := by
    rw [hsnoc]
    exact turn_effect (hparts h).1 turn
  have hend : Inv codec calls (origin.start.run codec calls turns) := run_keeps hstart hturns
  refine ⟨⟨_, run_serial hstart .nil hturns⟩, ?_, ?_, hend.once, ?_, ?_⟩
  · intro before turn after h
    exact ⟨heffect h, (hparts (h.trans (List.append_cons before turn after))).2⟩
  · intro c value hdone
    rw [← hend.noted, hdone]
    rfl
  · intro c e hfailed before fate after h
    rcases heffect h with ⟨-, hfile, -⟩ | ⟨d, fate', value, hturn, hnoted, -⟩
    · exact hfile
    · obtain ⟨rfl, -⟩ : c = d ∧ fate = fate' := by simpa using hturn
      have hmem : ⟨c, value⟩ ∈ (origin.start.run codec calls turns).succeeded := by
        refine (hparts (h.trans (List.append_cons before _ after))).2.subset ?_
        rw [hnoted]
        exact List.mem_append_right _ (List.mem_singleton_self _)
      exact absurd hmem (not_noted_of_failed hend hfailed value)
  · intro c e hfailed
    have hknown := hend.known c
    rw [hfailed] at hknown
    exact hknown

/-! ### A refused start -/

instance UndisturbedStep.decidable [DecidableEq Private]
    (system : System State Content Private Value ι κ) (c : ι) (fate : Fate Content) :
    (phase : Phase Content Value) → Decidable (UndisturbedStep calls system c fate phase)
  | .waiting => .isTrue trivial
  | .acquired => decEq _ _
  | .mutated _ => .isTrue trivial
  | .writing .. => .isTrue trivial
  | .written _ => .isTrue trivial
  | .renamed _ => decEq _ _
  | .failed _ => instDecidableAnd
  | .releasing _ => Option.decidableEqNone _
  | .done _ => .isTrue trivial

instance Undisturbed.decidable [Fintype ι] [DecidableEq κ] [DecidableEq Private]
    (system : System State Content Private Value ι κ) :
    (turn : Turn ι κ Content) → Decidable (Undisturbed calls system turn)
  | .ensureFresh store sight => inferInstanceAs (Decidable
      (sight.finds system.disk = true ∨ ∀ c, (calls c).store = store →
        (system.phase c).usesMemory = false))
  | .step c fate => UndisturbedStep.decidable calls system c fate (system.phase c)

instance UndisturbedRun.decidable [Fintype ι] [DecidableEq ι] [DecidableEq κ] [DecidableEq Private] :
    (system : System State Content Private Value ι κ) → (turns : List (Turn ι κ Content)) →
      Decidable (UndisturbedRun codec calls system turns)
  | _, [] => .isTrue trivial
  | system, turn :: turns =>
    have := UndisturbedRun.decidable (system.advance codec calls turn) turns
    inferInstanceAs (Decidable (Undisturbed calls system turn ∧
      UndisturbedRun codec calls (system.advance codec calls turn) turns))

/-- Two mutations of one snapshot lead to one snapshot. -/
theorem applies_unique [DecidableEq κ] (s : Option Content × (κ → Private)) (entry : Entry ι Value)
    (s₁ s₂ : Option Content × (κ → Private)) (h₁ : Applies codec calls s entry s₁)
    (h₂ : Applies codec calls s entry s₂) : s₁ = s₂ := by
  obtain ⟨dirty₁, state₁, snapshots₁, hmutates₁, hsnapshots₁, hcontent₁⟩ := h₁
  obtain ⟨dirty₂, state₂, snapshots₂, hmutates₂, hsnapshots₂, hcontent₂⟩ := h₂
  injection hmutates₁.symm.trans hmutates₂ with hresult hstate hsnapshots
  injection Except.ok.inj hresult with _ hdirty
  subst hdirty hstate hsnapshots
  refine Prod.ext ?_ (hsnapshots₁.trans hsnapshots₂.symm)
  cases dirty₁ with
  | false => exact hcontent₁.trans hcontent₂.symm
  | true =>
    obtain ⟨serialized₁, hserialized₁, hcontent₁⟩ := hcontent₁
    obtain ⟨serialized₂, hserialized₂, hcontent₂⟩ := hcontent₂
    rw [hcontent₁, hcontent₂, Except.ok.inj (hserialized₁.symm.trans hserialized₂)]

/-- A file that holds a state as it is. -/
def stateCodec : SnapshotCodec (FileStoreState Unit) (FileStoreState Unit) :=
  ⟨createEmptyFileStoreState, some, .ok⟩

/-- A session whose finalization has succeeded. -/
def finalizedState : FileStoreState Unit :=
  { (createEmptyFileStoreState : FileStoreState Unit) with
    identityRecords := [(js "s", (Application.buildSessionRecords Dynamo.sampleSession).1)]
    votingRecords := [(js "s", (Application.buildSessionRecords Dynamo.sampleSession).2)]
    finalizationRecords := [(scopedKey (js "s") (js "f"), (Dynamo.sampleSuccess (.ofNat 3)).toRecord)]
    currentFinalizationIdBySession := [(js "s", js "f")] }

def finalizedOrigin : Origin (FileStoreState Unit) (FileStoreState Unit) RollbackSnapshots Unit :=
  ⟨some ⟨finalizedState, js "1"⟩, none, fun _ => ⟨⟨finalizedState, false⟩, [], some (js "1")⟩⟩

inductive VerificationStep where
  | start
  | startAgain
  | rollback
  deriving DecidableEq

instance : Fintype VerificationStep where
  elems := {.start, .startAgain, .rollback}
  complete step := by cases step <;> decide

def VerificationStep.operation : VerificationStep → Operation Unit
  | .rollback => .rollbackVerificationResult (js "s") (js "f") (.ofNat 5)
  | _ => .writeVerificationResult (js "s") (js "f") runningResult .start (.ofNat 4)

/-- The steps on one store. -/
def verificationCalls (step : VerificationStep) :
    Call (FileStoreState Unit) RollbackSnapshots (Answer Unit) Unit :=
  step.operation.on .reference Sha256.digest ()

def served : Fate (FileStoreState Unit) := ⟨none, none, js "2", .clear⟩

def refused : Fate (FileStoreState Unit) := ⟨some (.error "EIO"), none, [], .clear⟩

/-- The turns of one call that is served. -/
def servedTurns (step : VerificationStep) : List (Turn VerificationStep Unit (FileStoreState Unit)) :=
  List.replicate 7 (.step step served)

/-- The turns of one call whose write is refused. -/
def refusedTurns (step : VerificationStep) : List (Turn VerificationStep Unit (FileStoreState Unit)) :=
  List.replicate 3 (.step step served) ++ [.step step refused] ++ List.replicate 2 (.step step served)

def verificationStatus (content : Option (FileStoreState Unit)) :
    Option Application.VerificationStatus :=
  content.bind fun state =>
    (state.verificationResultRecords.lookup (scopedKey (js "s") (js "f"))).map
      (·.verificationResult.status)

/-- A rollback whose write is refused has changed nothing, and the start after it takes effect. -/
theorem mutations_serializable_on_sample : Serializable stateCodec verificationCalls finalizedOrigin
    (refusedTurns .rollback ++ servedTurns .start) :=
  mutations_serializable stateCodec verificationCalls finalizedOrigin
    (refusedTurns .rollback ++ servedTurns .start) (by decide +kernel)

/-- ROLLED BACK: after a start and another one whose write is refused, the rollback leaves the running
    record; one after the other, the two mutations that succeeded leave none. -/
theorem refused_start_not_serializable : ¬ Serializable stateCodec verificationCalls finalizedOrigin
    (servedTurns .start ++ refusedTurns .startAgain ++ servedTurns .rollback) := by
  intro h
  obtain ⟨snapshots, hserial⟩ := h.serial
  have hundisturbed : UndisturbedRun stateCodec verificationCalls finalizedOrigin.start
      (servedTurns .start ++ servedTurns .rollback) := by decide +kernel
  have hserved := run_serial (inv_start finalizedOrigin) .nil hundisturbed
  have hsame : (finalizedOrigin.start.run stateCodec verificationCalls
      (servedTurns .start ++ refusedTurns .startAgain ++ servedTurns .rollback)).succeeded =
      (finalizedOrigin.start.run stateCodec verificationCalls
        (servedTurns .start ++ servedTurns .rollback)).succeeded := by
    with_unfolding_all rfl
  rw [hsame] at hserial
  have hcontent := congrArg (fun s => verificationStatus s.1)
    (Serial.unique (applies_unique stateCodec verificationCalls) hserial hserved)
  have hrunning : verificationStatus (finalizedOrigin.start.run stateCodec verificationCalls
      (servedTurns .start ++ refusedTurns .startAgain ++ servedTurns .rollback)).disk.content =
        some .running := by
    decide +kernel
  have hremoved : verificationStatus (finalizedOrigin.start.run stateCodec verificationCalls
      (servedTurns .start ++ servedTurns .rollback)).disk.content = none := by
    decide +kernel
  dsimp only at hcontent
  rw [hrunning, hremoved] at hcontent
  cases hcontent

end StarkBallot.AwsAdapters.FileMock
