import Mio.Desktop.RoomPersistence

/-!
# The recovery of the Room file

A process starts with a load and then persists, each under a schedule of failures and cuts, and
between two processes the primary can be corrupted. `stored` is what such a run has stored: the
snapshot that was persisted last and, once the primary can no longer be read, that of the backup.
The files always hold it (`Sound`), so whatever befalls a start, it loads what is stored or it fails
(`roomFile_recovers`). What was set aside stays.
-/

namespace Mio.Desktop.RoomPersistence

open Library Mio.Core

/-! ## What the files hold -/

/-- What a run has stored. -/
inductive Stored where
  /-- Nothing was persisted, and there is no file. -/
  | nothing
  /-- This snapshot was. -/
  | snapshot (value : RoomSnapshot)
  /-- The primary was corrupted, and there was no backup. -/
  | unreadable
  deriving DecidableEq

/-- What is stored, where there is something: the snapshot that can be read, if any can. -/
def Stored.ofRead : Option RoomSnapshot → Stored
  | some value => snapshot value
  | none => unreadable

/-- What a load returns for it. There is no value for what cannot be read. -/
def Stored.Gives : Stored → Option RoomSnapshot → Prop
  | nothing, loaded => loaded = none
  | snapshot value, loaded => loaded = some value
  | unreadable, _ => False

section Files

variable (serde : Serde PersistedRoomFile)

/-- The snapshot that can be read under a name. -/
def readNode : Option Node → Option RoomSnapshot
  | some (.file body) => decodeRoomFile serde body
  | _ => none

/-- What the files hold: the primary if it can be read, and the backup if it cannot. -/
def storedIn (dir : Directory) : Stored :=
  if dir .primary = none ∧ dir .backup = none then .nothing
  else .ofRead (readNode serde (dir .primary) <|> readNode serde (dir .backup))

/-- What a load returns, where what a reader finds can be read. -/
def Holds (dir : Directory) : Option RoomSnapshot → Prop
  | none => dir.current = none
  | some value =>
    ∃ body, dir.current = some (.file body) ∧ decodeRoomFile serde body = some value

/-- What a reader finds can be read. -/
def Intact (dir : Directory) : Prop :=
  ∀ body, dir.current = some (.file body) → ∃ value, decodeRoomFile serde body = some value

/-- What a recovery from the backup `spare` leaves at each of its steps, where the content `lost` of
the primary cannot be read. -/
structure Recovering (lost spare : Bytes) (before after : World) : Prop where
  regular : after.dir.Regular
  /-- The backup is still there, or it was renamed to the primary. -/
  backup : after.dir .backup = some (.file spare) ∨
    after.dir .backup = none ∧ after.dir .primary = some (.file spare)
  /-- The primary is still there, or it was set aside under a name that was free. -/
  primary : after.dir .primary = some (.file lost) ∨
    ∃ pid sequence, before.dir (.corrupt pid sequence) = none ∧
      after.dir (.corrupt pid sequence) = some (.file lost)
  /-- What was set aside before stays. -/
  corrupt : ∀ pid sequence, before.dir (.corrupt pid sequence) ≠ none →
    after.dir (.corrupt pid sequence) = before.dir (.corrupt pid sequence)

end Files

/-! ## What a load does -/

section Load

variable {serde : Serde PersistedRoomFile} {w : World}

/-- Where what a reader finds can be read, that is what is stored. -/
theorem storedIn_of_current {dir : Directory} {body : Bytes} {value : RoomSnapshot}
    (hcurrent : dir.current = some (.file body)) (hread : decodeRoomFile serde body = some value) :
    storedIn serde dir = .snapshot value := by
  rcases hp : dir .primary with _ | node
  · have hb : dir .backup = some (.file body) := by
      rwa [Directory.current_of_no_primary hp] at hcurrent
    simp [storedIn, hp, hb, readNode, hread, Stored.ofRead]
  · obtain rfl : node = .file body := by
      rw [Directory.current_of_primary hp] at hcurrent
      simpa using hcurrent
    simp [storedIn, hp, readNode, hread, Stored.ofRead]

/-- Without any file, nothing is stored. -/
theorem storedIn_of_none {dir : Directory} (hcurrent : dir.current = none) :
    storedIn serde dir = .nothing := by
  obtain ⟨hp, hb⟩ : dir .primary = none ∧ dir .backup = none := by
    simpa [Directory.current] using hcurrent
  simp [storedIn, hp, hb]

/-- A reader finds a file, or there is none. -/
theorem current_cases {dir : Directory} (hdir : dir.Regular) :
    dir.current = none ∨ ∃ body, dir.current = some (.file body) := by
  rcases hdir.primary with hp | ⟨primary, hp⟩
  · rw [Directory.current_of_no_primary hp]
    exact hdir.backup
  · exact .inr ⟨primary, Directory.current_of_primary hp⟩

/-- What a load returns depends on what a reader finds. -/
theorem Holds.congr {loaded : Option RoomSnapshot} {dir dir' : Directory}
    (h : Holds serde dir loaded) (hcurrent : dir'.current = dir.current) :
    Holds serde dir' loaded := by
  cases loaded with
  | none => exact hcurrent.trans h
  | some value =>
    obtain ⟨body, hbody, hread⟩ := h
    exact ⟨body, hcurrent.trans hbody, hread⟩

/-- Readable files hold what is stored. -/
theorem holds_of_intact {dir : Directory} (hregular : dir.Regular) (hintact : Intact serde dir) :
    ∃ loaded, Holds serde dir loaded ∧ (storedIn serde dir).Gives loaded := by
  rcases current_cases hregular with hnone | ⟨body, hbody⟩
  · refine ⟨none, hnone, ?_⟩
    rw [storedIn_of_none hnone]
    rfl
  · obtain ⟨value, hread⟩ := hintact body hbody
    refine ⟨some value, ⟨body, hbody, hread⟩, ?_⟩
    rw [storedIn_of_current hbody hread]
    rfl

/-- A load of one file leaves the files. -/
theorem loadRoomFile_wp {done : RoomSnapshot → World → Prop}
    {error : DesktopRoomPersistenceError → World → Prop} {cut : World → Prop} {path : Sibling}
    {body : Bytes} (hpath : w.dir path = some (.file body))
    (hdone : ∀ value, decodeRoomFile serde body = some value → done value w)
    (hinvalid : decodeRoomFile serde body = none → error .invalidFile w)
    (hrest : error .io w ∧ cut w) : (loadRoomFile serde path).wp done error cut w := by
  simp only [loadRoomFile, Prog.wp_bind, wp_readToEnd, Prog.wp_ofOption, hpath, Option.some.injEq,
    Node.file.injEq, forall_eq']
  exact ⟨⟨hdone, hinvalid⟩, hrest⟩

/-- Where what a reader finds can be read, a load returns it, and it changes nothing. -/
theorem load_wp_of_holds {loaded : Option RoomSnapshot} (h : Holds serde w.dir loaded) :
    (load serde).wp (fun found w' => found = loaded ∧ w' = w) (fun _ w' => w' = w)
      (fun w' => w' = w) w := by
  cases loaded with
  | none =>
    obtain ⟨hp, hb⟩ : w.dir .primary = none ∧ w.dir .backup = none := by
      simpa [Holds, Directory.current] using h
    simp [load, Directory.isFile, Directory.has, hp, hb]
  | some value =>
    obtain ⟨body, hcurrent, hread⟩ := h
    have hfile : ∀ path, w.dir path = some (.file body) →
        (loadRoomFile serde path).wp (fun found w' => found = value ∧ w' = w) (fun _ w' => w' = w)
          (fun w' => w' = w) w :=
      fun path hpath => loadRoomFile_wp hpath
        (fun found hfound => ⟨by simpa [hread] using hfound.symm, rfl⟩) (fun _ => rfl) ⟨rfl, rfl⟩
    rcases hp : w.dir .primary with _ | node
    · have hb : w.dir .backup = some (.file body) := by
        rwa [Directory.current_of_no_primary hp] at hcurrent
      simpa [load, Directory.isFile, Directory.has, hp, hb] using hfile _ hb
    · obtain rfl : node = .file body := by
        rw [Directory.current_of_primary hp] at hcurrent
        simpa using hcurrent
      simp only [load, Prog.wp_bind, wp_pathIsFile, Directory.isFile, hp, if_true, Prog.wp_attempt]
      refine loadRoomFile_wp hp (fun found hfound => ?_) (fun hinvalid => ?_) ⟨rfl, rfl⟩
      · obtain rfl : value = found := by simpa [hread] using hfound
        exact ⟨rfl, rfl⟩
      · simp [hread] at hinvalid

/-- A load of one file that no fault befalls. -/
theorem loadRoomFile_run {path : Sibling} {body : Bytes} {value : RoomSnapshot}
    (hpath : w.dir path = some (.file body)) (hread : decodeRoomFile serde body = some value) :
    (loadRoomFile serde path).run [] w = (.done value, w) := by
  simp [loadRoomFile, readToEnd, quietStep, dirStep, Prog.run_bind_nil, Prog.gets, Prog.tryStep,
    hpath, hread, Prog.ofOption, Prog.run]

/-- A load that no fault befalls returns what a reader finds, where that can be read. -/
theorem Holds.load_run {loaded : Option RoomSnapshot} (h : Holds serde w.dir loaded) :
    (load serde).run [] w = (.done loaded, w) := by
  cases loaded with
  | none =>
    obtain ⟨hp, hb⟩ : w.dir .primary = none ∧ w.dir .backup = none := by
      simpa [Holds, Directory.current] using h
    simp [load, pathIsFile, pathExists, Prog.gets_bind, Directory.isFile, Directory.has, hp, hb]
  | some value =>
    obtain ⟨body, hcurrent, hread⟩ := h
    rcases hp : w.dir .primary with _ | node
    · have hb : w.dir .backup = some (.file body) := by
        rwa [Directory.current_of_no_primary hp] at hcurrent
      simp [load, pathIsFile, pathExists, Prog.gets_bind, Directory.isFile, Directory.has, hp, hb,
        Prog.run_map, loadRoomFile_run hb hread]
    · obtain rfl : node = .file body := by
        rw [Directory.current_of_primary hp] at hcurrent
        simpa using hcurrent
      simp [load, pathIsFile, Prog.gets_bind, Directory.isFile, hp, Prog.run_bind_nil,
        Prog.run_attempt, loadRoomFile_run hp hread]

/-- The primary, with the content `body`, was set aside under a name that was free. -/
structure SetAside (body : Bytes) (before after : World) : Prop where
  primary : after.dir .primary = none
  backup : after.dir .backup = before.dir .backup
  aside : ∃ pid sequence, before.dir (.corrupt pid sequence) = none ∧
    after.dir (.corrupt pid sequence) = some (.file body)
  corrupt : ∀ pid sequence, before.dir (.corrupt pid sequence) ≠ none →
    after.dir (.corrupt pid sequence) = before.dir (.corrupt pid sequence)

/-- A primary is set aside, or it stays. -/
theorem preserveCorruptedPrimary_wp {done : Unit → World → Prop}
    {error : DesktopRoomPersistenceError → World → Prop} {cut : World → Prop} (tries : ℕ)
    {lost : Bytes} (hp : w.dir .primary = some (.file lost))
    (hdone : ∀ w', SetAside lost w w' → done () w')
    (hrest : ∀ w', World.SameFiles w w' → error .io w' ∧ cut w') :
    (preserveCorruptedPrimary tries).wp done error cut w := by
  induction tries generalizing w with
  | zero => exact (hrest w (.refl w)).1
  | succ tries ih =>
    have hnext : World.SameFiles w { w with sequence := w.sequence + 1 } :=
      ⟨rfl, rfl, fun _ _ => rfl⟩
    simp only [preserveCorruptedPrimary, Prog.wp_bind, wp_fetchAdd, Prog.wp_gets, wp_pathExists,
      Prog.wp_ite, wp_renameFile]
    refine ⟨fun _ => ?_, fun hfree => ⟨fun node hnode => ?_, hrest _ hnext⟩⟩
    · refine ih hp (fun w' h => hdone w' ?_) fun w' hsame => hrest w' (hnext.trans hsame)
      exact ⟨h.primary, h.backup, h.aside, h.corrupt⟩
    · obtain rfl : node = .file lost := by simpa [hp] using hnode.symm
      have hfree : w.dir (.corrupt w.pid w.sequence) = none := by
        simpa [Directory.has] using hfree
      refine hdone _ ⟨?_, ?_, ⟨w.pid, w.sequence, hfree, Directory.put_self _ _ _⟩, ?_⟩
      · simp [Directory.put_apply]
      · simp [Directory.put_apply]
      · intro pid sequence htaken
        have hne : Sibling.corrupt pid sequence ≠ .corrupt w.pid w.sequence := by
          rintro h
          exact htaken (h ▸ hfree)
        simp [Directory.put_apply, hne]

/-- The recovery is at its start. -/
theorem Recovering.start {lost spare : Bytes} (hp : w.dir .primary = some (.file lost))
    (hb : w.dir .backup = some (.file spare)) {w' : World} (hsame : World.SameFiles w w') :
    Recovering lost spare w w' := by
  refine ⟨⟨.inr ⟨lost, ?_⟩, .inr ⟨spare, ?_⟩⟩, .inl ?_, .inl ?_, fun pid sequence _ => ?_⟩
  · rw [hsame.primary, hp]
  · rw [hsame.backup, hb]
  · rw [hsame.backup, hb]
  · rw [hsame.primary, hp]
  · exact hsame.corrupt pid sequence

/-- It goes on where the primary was set aside, up to the persist of the backup's snapshot. -/
theorem SetAside.recovering {lost spare : Bytes} {w1 w2 : World}
    (h : SetAside lost w w1) (hregular : w2.dir.Regular)
    (hbackup : w2.dir .backup = some (.file spare) ∨
      w2.dir .backup = none ∧ w2.dir .primary = some (.file spare))
    (hcorrupt : ∀ pid sequence, w2.dir (.corrupt pid sequence) = w1.dir (.corrupt pid sequence)) :
    Recovering lost spare w w2 := by
  obtain ⟨pid, sequence, hfree, haside⟩ := h.aside
  refine ⟨hregular, hbackup, .inr ⟨pid, sequence, hfree, ?_⟩, fun pid sequence htaken => ?_⟩
  · rw [hcorrupt, haside]
  · rw [hcorrupt, h.corrupt pid sequence htaken]

/-- A primary that cannot be read is replaced by its backup. Whatever befalls the recovery, the
files hold the backup's snapshot, and neither file's content is lost. -/
theorem loadBackup_wp (hserde : serde.RoundTrips) {lost spare : Bytes} {value : RoomSnapshot}
    (hp : w.dir .primary = some (.file lost)) (hunread : decodeRoomFile serde lost = none)
    (hb : w.dir .backup = some (.file spare))
    (hread : decodeRoomFile serde spare = some value) :
    (loadBackup serde).wp
      (fun loaded w' => loaded = value ∧ Intact serde w'.dir ∧
        Recovering lost spare w w' ∧ storedIn serde w'.dir = .snapshot value)
      (fun _ w' => Recovering lost spare w w' ∧ storedIn serde w'.dir = .snapshot value)
      (fun w' => Recovering lost spare w w' ∧ storedIn serde w'.dir = .snapshot value) w := by
  have hstart : ∀ w', World.SameFiles w w' →
      Recovering lost spare w w' ∧ storedIn serde w'.dir = .snapshot value := by
    intro w' hsame
    refine ⟨.start hp hb hsame, ?_⟩
    simp [storedIn, hsame.primary, hsame.backup, hp, hb, readNode, hunread, hread, Stored.ofRead]
  have hfile : w.dir.isFile .backup = true := Directory.isFile_iff.mpr ⟨spare, hb⟩
  simp only [loadBackup, Prog.wp_bind, wp_pathIsFile, hfile, Bool.not_true, Prog.wp_refuse,
    Bool.false_eq_true, false_implies, true_and, forall_const, Prog.wp_pure]
  refine loadRoomFile_wp hb (fun read hread' => ?_) (fun h => by simp [hread] at h)
    ⟨hstart w (.refl w), hstart w (.refl w)⟩
  obtain rfl : read = value := by simpa [hread] using hread'.symm
  refine preserveCorruptedPrimary_wp 16 hp (fun w1 haside => ?_)
    fun w' hsame => ⟨hstart w' hsame, hstart w' hsame⟩
  have hb1 : w1.dir .backup = some (.file spare) := haside.backup.trans hb
  have hcurrent : w1.dir.current = some (.file spare) := by
    rw [Directory.current_of_no_primary haside.primary, hb1]
  have hregular : w1.dir.Regular := ⟨.inl haside.primary, .inr ⟨spare, hb1⟩⟩
  have hkept : ∀ w2, World.Kept w1 w2 →
      Recovering lost spare w w2 ∧ storedIn serde w2.dir = .snapshot read := by
    intro w2 h
    have hcurrent2 : w2.dir.current = some (.file spare) := h.current.trans hcurrent
    refine ⟨haside.recovering (h.regular hregular) ?_ h.corrupt,
      storedIn_of_current hcurrent2 hread⟩
    -- The backup is still there, unless the persist has renamed it back.
    rcases h.backup with hnone | hsame | hprimary
    · right
      refine ⟨hnone, ?_⟩
      simpa [Directory.current, hnone] using hcurrent2
    · exact .inl (hsame.trans hb1)
    · rw [haside.primary] at hprimary
      right
      refine ⟨hprimary, ?_⟩
      simpa [Directory.current, hprimary] using hcurrent2
  refine Prog.wp_mono (fun _ w2 h => ?_) (fun _ => hkept) hkept _ _ (persist_wp serde read w1)
  obtain ⟨body, hvec, hsize, hreplaced⟩ := h
  have hcurrent2 := Directory.current_of_primary hreplaced.primary
  have hread2 := decodeRoomFile_toVec hserde (valid_of_decodeRoomFile hread) hvec hsize
  refine ⟨rfl, ?_, ?_, storedIn_of_current hcurrent2 hread2⟩
  · intro found hfound
    obtain rfl : body = found := by simpa [hcurrent2] using hfound
    exact ⟨read, hread2⟩
  · exact haside.recovering (hreplaced.regular hregular)
      (.inl (hreplaced.backup.trans hcurrent)) hreplaced.corrupt

/-- Where what a reader finds can be read, a load changes nothing, and it returns what is stored. -/
theorem load_wp_of_intact (hregular : w.dir.Regular) (hintact : Intact serde w.dir) :
    (load serde).wp (fun loaded w' => w' = w ∧ (storedIn serde w.dir).Gives loaded)
      (fun _ w' => w' = w) (fun w' => w' = w) w := by
  obtain ⟨loaded, hholds, hgives⟩ := holds_of_intact hregular hintact
  refine Prog.wp_mono ?_ (fun _ _ h => h) (fun _ h => h) _ _ (load_wp_of_holds hholds)
  rintro _ w' ⟨rfl, rfl⟩
  exact ⟨rfl, hgives⟩

/-- A primary that cannot be read makes a load take the backup. -/
theorem load_wp_of_unread {lost : Bytes} (hp : w.dir .primary = some (.file lost))
    (hunread : decodeRoomFile serde lost = none) {done : Option RoomSnapshot → World → Prop}
    {error : DesktopRoomPersistenceError → World → Prop} {cut : World → Prop}
    (hbackup : (loadBackup serde).wp (fun value => done (some value)) error cut w)
    (hrest : error .io w ∧ cut w) : (load serde).wp done error cut w := by
  simp only [load, Prog.wp_bind, wp_pathIsFile, Directory.isFile, hp, if_true, Prog.wp_attempt]
  refine loadRoomFile_wp hp (fun found h => ?_) (fun _ => ?_) hrest
  · simp [hunread] at h
  · rwa [Prog.wp_map]

/-- Without a backup, such a load fails and changes nothing. -/
theorem loadBackup_wp_of_none (hb : w.dir .backup = none) :
    (loadBackup serde).wp (fun _ _ => False) (fun _ w' => w' = w) (fun w' => w' = w) w := by
  simp [loadBackup, Directory.isFile, hb]

end Load

/-! ## Runs -/

/-- The files, whether a process is running on them, and what is stored. -/
structure State where
  world : World
  running : Bool
  stored : Stored

/-- Before the first process, in a directory without any file of the store. -/
def State.first (world : World) : State := { world, running := false, stored := .nothing }

/-- What can happen: a new process starts with a load, the running process persists a snapshot,
each under some schedule of faults, or the primary is corrupted while no process is running. -/
inductive Event where
  | start (pid : ℕ) (faults : List Fault)
  | persist (source : InMemoryRoomSource) (faults : List Fault)
  | corrupt (body : Bytes)

section Runs

variable (serde : Serde PersistedRoomFile)

/-- What an event leaves. A process stops where it is cut off, and where its load fails. -/
def apply (state : State) : Event → State
  | .start pid faults =>
    match (load serde).run faults (state.world.restart pid) with
    | (.done _, world) => { state with world, running := true }
    | (_, world) => { state with world, running := false }
  | .persist source faults =>
    if state.running then
      match (persist serde source.snapshot).run faults state.world with
      | (.done _, world) => { state with world, stored := .snapshot source.snapshot }
      | (.error _, world) => { state with world }
      | (.cut, world) => { state with world, running := false }
    else state
  | .corrupt body =>
    let dir := state.world.dir
    if dir.isFile .primary then
      { world := { state.world with dir := dir.put .primary (some (.file body)) }
        running := false
        stored := .ofRead (decodeRoomFile serde body <|> readNode serde (dir .backup)) }
    else { state with running := false }

/-- What a run of events leaves. -/
def run (events : List Event) (state : State) : State := events.foldl (apply serde) state

/-- The invariant of a run: the files hold what is stored, the backup can be read, and so can the
primary while a process is running. -/
structure Sound (state : State) : Prop where
  regular : state.world.dir.Regular
  backup : ∀ body, state.world.dir .backup = some (.file body) →
    ∃ value, decodeRoomFile serde body = some value
  stored : state.stored = storedIn serde state.world.dir
  running : state.running = true → Intact serde state.world.dir

variable {serde} {state : State}

/-- A world with the same files. -/
theorem Sound.restart (h : Sound serde state) (pid : ℕ) :
    Sound serde { state with world := state.world.restart pid } :=
  ⟨h.regular, h.backup, h.stored, h.running⟩

/-- A process may stop at any time. -/
theorem Sound.stop (h : Sound serde state) : Sound serde { state with running := false } :=
  ⟨h.regular, h.backup, h.stored, by simp⟩

/-- Files that are kept stay intact. -/
theorem Intact.kept {before after : World} (hintact : Intact serde before.dir)
    (h : World.Kept before after) : Intact serde after.dir :=
  fun body hbody => hintact body (h.current.symm.trans hbody)

/-- Saved rooms can be read. -/
theorem Saved.intact (hserde : serde.RoundTrips) {source : InMemoryRoomSource}
    {before after : World} (h : Saved serde source.snapshot before after) :
    Intact serde after.dir := by
  obtain ⟨body, hvec, hsize, hreplaced⟩ := h
  intro found hfound
  obtain rfl : body = found := by
    simpa [Directory.current_of_primary hreplaced.primary] using hfound
  exact ⟨_, decodeRoomFile_toVec hserde source.valid hvec hsize⟩

/-- A call that keeps what a reader finds keeps what is stored. -/
theorem Sound.kept (h : Sound serde state) (hrunning : state.running = true) {world : World}
    (hkept : World.Kept state.world world) : Sound serde { state with world } := by
  have hintact := h.running hrunning
  refine ⟨hkept.regular h.regular, fun body hbody => ?_, ?_, fun _ => hintact.kept hkept⟩
  · rcases hkept.backup with hnone | hsame | hprimary
    · exact absurd (hnone.symm.trans hbody) (by simp)
    · exact h.backup body (hsame.symm.trans hbody)
    · exact hintact body (Directory.current_of_primary (hprimary.symm.trans hbody))
  · have hsame : world.dir.current = state.world.dir.current := hkept.current
    rw [h.stored]
    rcases current_cases h.regular with hnone | ⟨body, hbody⟩
    · rw [storedIn_of_none hnone, storedIn_of_none (hsame.trans hnone)]
    · obtain ⟨value, hread⟩ := hintact body hbody
      rw [storedIn_of_current hbody hread, storedIn_of_current (hsame.trans hbody) hread]

/-- A persist that returns stores its snapshot. -/
theorem Sound.saved (hserde : serde.RoundTrips) (h : Sound serde state)
    (hrunning : state.running = true) (source : InMemoryRoomSource) {world : World}
    (hsaved : Saved serde source.snapshot state.world world) :
    Sound serde { state with world, stored := .snapshot source.snapshot } := by
  have hintact := hsaved.intact hserde
  obtain ⟨body, hvec, hsize, hreplaced⟩ := hsaved
  have hread := decodeRoomFile_toVec hserde source.valid hvec hsize
  have hcurrent := Directory.current_of_primary hreplaced.primary
  refine ⟨hreplaced.regular h.regular, fun old hold => ?_,
    (storedIn_of_current hcurrent hread).symm, fun _ => hintact⟩
  exact h.running hrunning old (hreplaced.backup.symm.trans hold)

/-- What was set aside stays as it is. -/
def KeepsAside (before after : World) : Prop :=
  ∀ pid sequence, before.dir (.corrupt pid sequence) ≠ none →
    after.dir (.corrupt pid sequence) = before.dir (.corrupt pid sequence)

/-- What a reader finds can be read, or there is a primary that cannot. -/
theorem Sound.intact_or (h : Sound serde state) : Intact serde state.world.dir ∨
    ∃ lost, state.world.dir .primary = some (.file lost) ∧ decodeRoomFile serde lost = none := by
  rcases h.regular.primary with hp | ⟨primary, hp⟩
  · left
    intro body hbody
    rw [Directory.current_of_no_primary hp] at hbody
    exact h.backup body hbody
  · rcases hread : decodeRoomFile serde primary with _ | value
    · exact .inr ⟨primary, hp, hread⟩
    · left
      intro body hbody
      obtain rfl : primary = body := by simpa [Directory.current_of_primary hp] using hbody
      exact ⟨value, hread⟩

/-- A new process sees the same files. -/
theorem Recovering.of_restart {lost spare : Bytes} {before after : World} {pid : ℕ}
    (h : Recovering lost spare (before.restart pid) after) : Recovering lost spare before after :=
  ⟨h.regular, h.backup, h.primary, h.corrupt⟩

/-- A recovery loads the backup's snapshot, and it keeps both contents. -/
theorem Sound.recovery_ends (hserde : serde.RoundTrips) (h : Sound serde state)
    {lost spare : Bytes} (hp : state.world.dir .primary = some (.file lost))
    (hunread : decodeRoomFile serde lost = none)
    (hb : state.world.dir .backup = some (.file spare)) (pid : ℕ) (faults : List Fault) :
    Prog.Ends
      (fun loaded w => state.stored.Gives loaded ∧ Recovering lost spare state.world w ∧
        Sound serde { state with world := w, running := true })
      (fun _ w => Recovering lost spare state.world w ∧
        Sound serde { state with world := w, running := false })
      (fun w => Recovering lost spare state.world w ∧
        Sound serde { state with world := w, running := false })
      ((load serde).run faults (state.world.restart pid)) := by
  obtain ⟨value, hread⟩ := h.backup spare hb
  have hstored : state.stored = .snapshot value := by
    simp [h.stored, storedIn, hp, hb, readNode, hunread, hread, Stored.ofRead]
  -- The state that is reached keeps what is stored, since the files do.
  have hsound : ∀ running w, Recovering lost spare state.world w →
      storedIn serde w.dir = .snapshot value → (running = true → Intact serde w.dir) →
      Sound serde { state with world := w, running } := by
    intro running w hrecovering hw hrunning
    refine ⟨hrecovering.regular, fun body hbody => ?_, hstored.trans hw.symm, hrunning⟩
    rcases hrecovering.backup with hsame | ⟨hnone, -⟩
    · obtain rfl : spare = body := by simpa [hsame] using hbody
      exact ⟨value, hread⟩
    · exact absurd (hnone.symm.trans hbody) (by simp)
  refine Prog.run_wp _ _ _ (load_wp_of_unread (w := state.world.restart pid) hp hunread
    (Prog.wp_mono ?_ ?_ ?_ _ _ (loadBackup_wp hserde hp hunread hb hread)) ?_)
  · rintro loaded w ⟨rfl, hintact, hrecovering, hw⟩
    have hrecovering := hrecovering.of_restart
    exact ⟨by rw [hstored]; rfl, hrecovering, hsound true w hrecovering hw fun _ => hintact⟩
  · rintro - w ⟨hrecovering, hw⟩
    exact ⟨hrecovering.of_restart, hsound false w hrecovering.of_restart hw (by simp)⟩
  · rintro w ⟨hrecovering, hw⟩
    exact ⟨hrecovering.of_restart, hsound false w hrecovering.of_restart hw (by simp)⟩
  · have hrecovering : Recovering lost spare state.world (state.world.restart pid) :=
      .start hp hb ⟨rfl, rfl, fun _ _ => rfl⟩
    exact ⟨⟨hrecovering, (h.restart pid).stop⟩, hrecovering, (h.restart pid).stop⟩

/-- Whatever befalls a start, it loads what is stored, or it ends. -/
theorem Sound.load_ends (hserde : serde.RoundTrips) (h : Sound serde state) (pid : ℕ)
    (faults : List Fault) :
    Prog.Ends
      (fun loaded w => state.stored.Gives loaded ∧ KeepsAside state.world w ∧
        Sound serde { state with world := w, running := true })
      (fun _ w => KeepsAside state.world w ∧
        Sound serde { state with world := w, running := false })
      (fun w => KeepsAside state.world w ∧
        Sound serde { state with world := w, running := false })
      ((load serde).run faults (state.world.restart pid)) := by
  have hsame : KeepsAside state.world (state.world.restart pid) := fun _ _ _ => rfl
  have hstop := (h.restart pid).stop
  -- The file can be read, or it is set aside, and then there is a backup or none.
  rcases h.intact_or with hintact | ⟨lost, hp, hunread⟩
  · refine Prog.run_wp _ _ _ (Prog.wp_mono ?_ ?_ ?_ _ _
      (load_wp_of_intact (w := state.world.restart pid) h.regular hintact))
    · rintro loaded w ⟨rfl, hgives⟩
      rw [h.stored]
      exact ⟨hgives, hsame, h.regular, h.backup, rfl, fun _ => hintact⟩
    · rintro - w rfl
      exact ⟨hsame, hstop⟩
    · rintro w rfl
      exact ⟨hsame, hstop⟩
  rcases h.regular.backup with hb | ⟨spare, hb⟩
  · refine Prog.run_wp _ _ _ (load_wp_of_unread (w := state.world.restart pid) hp hunread
      (Prog.wp_mono ?_ ?_ ?_ _ _ (loadBackup_wp_of_none hb)) ⟨⟨hsame, hstop⟩, hsame, hstop⟩)
    -- Without a backup, the load cannot succeed.
    · exact fun _ _ hfalse => hfalse.elim
    · rintro - w rfl
      exact ⟨hsame, hstop⟩
    · rintro w rfl
      exact ⟨hsame, hstop⟩
  · have hends := h.recovery_ends hserde hp hunread hb pid faults
    rcases hrun : (load serde).run faults (state.world.restart pid) with ⟨outcome, w⟩
    rw [hrun] at hends
    cases outcome with
    | done loaded => exact ⟨hends.1, hends.2.1.corrupt, hends.2.2⟩
    | error e => exact ⟨hends.1.corrupt, hends.2⟩
    | cut => exact ⟨hends.1.corrupt, hends.2⟩

/-- One event keeps the invariant, and what was set aside. -/
theorem Sound.apply (hserde : serde.RoundTrips) (h : Sound serde state) (event : Event) :
    Sound serde (apply serde state event) ∧
      KeepsAside state.world (RoomPersistence.apply serde state event).world := by
  cases event with
  -- A start leaves the file as it is, or sets what it cannot read aside and recovers the backup.
  | start pid faults =>
    have hends := h.load_ends hserde pid faults
    rw [RoomPersistence.apply]
    rcases hrun : (load serde).run faults (state.world.restart pid) with ⟨outcome, w⟩
    rw [hrun] at hends
    cases outcome with
    | done loaded => exact ⟨hends.2.2, hends.2.1⟩
    | error e => exact ⟨hends.2, hends.1⟩
    | cut => exact ⟨hends.2, hends.1⟩
  | persist source faults =>
    rw [RoomPersistence.apply]
    split
    · rename_i hrunning
      -- A persist that is not done leaves what was stored.
      have hends := persist_ends serde source.snapshot faults state.world
      rcases hrun : (persist serde source.snapshot).run faults state.world with ⟨outcome, w⟩
      rw [hrun] at hends
      cases outcome with
      | done _ =>
        obtain ⟨body, hvec, hsize, hreplaced⟩ := hends
        exact ⟨h.saved hserde hrunning source ⟨body, hvec, hsize, hreplaced⟩,
          fun pid sequence _ => hreplaced.corrupt pid sequence⟩
      | error e => exact ⟨h.kept hrunning hends, fun pid sequence _ => hends.corrupt pid sequence⟩
      | cut =>
        exact ⟨(h.kept hrunning hends).stop, fun pid sequence _ => hends.corrupt pid sequence⟩
    · exact ⟨h, fun _ _ _ => rfl⟩
  | corrupt body =>
    rw [RoomPersistence.apply]
    dsimp only
    -- Only a file that is there can be corrupted, and then the next start is the one to see it.
    split
    · refine ⟨⟨⟨.inr ⟨body, ?_⟩, ?_⟩, ?_, ?_, by simp⟩, fun _ _ _ => ?_⟩
      · simp
      · simpa [Directory.put_apply] using h.regular.backup
      · simpa [Directory.put_apply] using h.backup
      · simp [storedIn, Directory.put_apply, readNode]
      · simp [Directory.put_apply]
    · exact ⟨h.stop, fun _ _ _ => rfl⟩

/-- A run of events keeps them. -/
theorem Sound.run (hserde : serde.RoundTrips) (h : Sound serde state) (events : List Event) :
    Sound serde (run serde events state) ∧
      KeepsAside state.world (RoomPersistence.run serde events state).world := by
  induction events generalizing state with
  | nil => exact ⟨h, fun _ _ _ => rfl⟩
  | cons event events ih =>
    obtain ⟨hsound, hkeeps⟩ := h.apply hserde event
    obtain ⟨hsound', hkeeps'⟩ := ih hsound
    refine ⟨hsound', fun pid sequence htaken => ?_⟩
    have hkept := hkeeps pid sequence htaken
    rw [← hkept] at htaken
    exact (hkeeps' pid sequence htaken).trans hkept

/-- A run that corrupts nothing keeps what a reader finds readable. -/
theorem Sound.intact_run (hserde : serde.RoundTrips) (h : Sound serde state)
    (hintact : Intact serde state.world.dir) {events : List Event}
    (huncorrupted : ∀ body, Event.corrupt body ∉ events) :
    Intact serde (RoomPersistence.run serde events state).world.dir := by
  induction events generalizing state with
  | nil => exact hintact
  | cons event events ih =>
    refine ih (h.apply hserde event).1 ?_ fun body hmem =>
      huncorrupted body (List.mem_cons_of_mem _ hmem)
    -- A start or a persist leaves a file that can be read, whatever fails.
    cases event with
    | start pid faults =>
      have hends := Prog.run_wp (load serde) faults _
        (load_wp_of_intact (w := state.world.restart pid) h.regular hintact)
      rw [RoomPersistence.apply]
      rcases hrun : (load serde).run faults (state.world.restart pid) with ⟨outcome, w⟩
      rw [hrun] at hends
      cases outcome with
      | done loaded =>
        obtain ⟨rfl, -⟩ := hends
        exact hintact
      | error e =>
        obtain rfl : w = _ := hends
        exact hintact
      | cut =>
        obtain rfl : w = _ := hends
        exact hintact
    | persist source faults =>
      rw [RoomPersistence.apply]
      split
      · have hends := persist_ends serde source.snapshot faults state.world
        rcases hrun : (persist serde source.snapshot).run faults state.world with ⟨outcome, w⟩
        rw [hrun] at hends
        cases outcome with
        | done _ => exact Saved.intact hserde hends
        | error e => exact hintact.kept hends
        | cut => exact hintact.kept hends
      · exact hintact
    | corrupt body => exact absurd List.mem_cons_self (huncorrupted body)

/-- Once something is stored, it stays so. -/
theorem stored_run_ne_nothing (h : state.stored ≠ .nothing) (events : List Event) :
    (RoomPersistence.run serde events state).stored ≠ .nothing := by
  have hofRead : ∀ read, Stored.ofRead read ≠ .nothing := by
    intro read
    cases read <;> simp [Stored.ofRead]
  induction events generalizing state with
  | nil => exact h
  | cons event events ih =>
    refine ih ?_
    cases event with
    | start pid faults =>
      rw [RoomPersistence.apply]
      split <;> exact h
    | persist source faults =>
      rw [RoomPersistence.apply]
      split
      · split
        · simp
        · exact h
        · exact h
      · exact h
    | corrupt body =>
      rw [RoomPersistence.apply]
      dsimp only
      split
      · exact hofRead _
      · exact h

end Runs

/-- What holds of the files at every point of a run. -/
structure CrashSafe (serde : Serde PersistedRoomFile) (state : State) : Prop where
  /-- Whatever befalls a start, it loads what is stored, or it fails or is cut off. -/
  loads : ∀ pid faults, Prog.Ends (fun loaded _ => state.stored.Gives loaded) (fun _ _ => True)
    (fun _ => True) ((load serde).run faults (state.world.restart pid))
  /-- Where the primary cannot be read and there is a backup, that is what a start loads. At each of
  its steps the backup is still there, and so is the primary, which may have been set aside. -/
  recovers : ∀ lost spare, state.world.dir .primary = some (.file lost) →
    decodeRoomFile serde lost = none → state.world.dir .backup = some (.file spare) →
    ∃ value, decodeRoomFile serde spare = some value ∧ ∀ pid faults,
      Prog.Ends (fun loaded w => loaded = some value ∧ Recovering lost spare state.world w)
        (fun _ w => Recovering lost spare state.world w) (Recovering lost spare state.world)
        ((load serde).run faults (state.world.restart pid))
  /-- What was set aside stays, whatever else happens. -/
  keepsAside : ∀ later, KeepsAside state.world (run serde later state).world
  /-- Once a snapshot was persisted, there is always something to load. -/
  keepsStored : state.stored ≠ .nothing → ∀ later, (run serde later state).stored ≠ .nothing

/-- The Room file is safe at every point of every run, with any failures and cuts in it. As long as
the run corrupts nothing, a start that no fault befalls loads the snapshot that was persisted last,
and none only where none was. -/
theorem roomFile_recovers {serde : Serde PersistedRoomFile} (hserde : serde.RoundTrips)
    (start : World) (hp : start.dir .primary = none) (hb : start.dir .backup = none)
    (events : List Event) :
    let state := run serde events (.first start)
    CrashSafe serde state ∧
      ((∀ body, Event.corrupt body ∉ events) → ∀ pid, ∃ loaded, state.stored.Gives loaded ∧
        (load serde).run [] (state.world.restart pid) =
          (.done loaded, state.world.restart pid)) := by
  intro state
  have hcurrent : start.dir.current = none := by rw [Directory.current_of_no_primary hp, hb]
  -- The first start finds no file, which is sound.
  have hfirst : Sound serde (.first start) :=
    ⟨⟨.inl hp, .inl hb⟩, by simp [State.first, hb], (storedIn_of_none hcurrent).symm,
      by simp [State.first]⟩
  have hsound : Sound serde state := (hfirst.run hserde events).1
  refine ⟨⟨fun pid faults => ?_, fun lost spare hp hunread hb => ?_,
    fun later => (hsound.run hserde later).2, fun h later => stored_run_ne_nothing h later⟩, ?_⟩
  -- For the sound state the three ends of a load are as the law says.
  · have hends := hsound.load_ends hserde pid faults
    rcases hrun : (load serde).run faults (state.world.restart pid) with ⟨outcome, w⟩
    rw [hrun] at hends
    cases outcome with
    | done loaded => exact hends.1
    | error e => trivial
    | cut => trivial
  · obtain ⟨value, hread⟩ := hsound.backup spare hb
    have hstored : state.stored = .snapshot value := by
      simp [hsound.stored, storedIn, hp, hb, readNode, hunread, hread, Stored.ofRead]
    refine ⟨value, hread, fun pid faults => ?_⟩
    have hends := hsound.recovery_ends hserde hp hunread hb pid faults
    rcases hrun : (load serde).run faults (state.world.restart pid) with ⟨outcome, w⟩
    rw [hrun] at hends
    cases outcome with
    | done loaded =>
      refine ⟨?_, hends.2.1⟩
      have hgives := hends.1
      rwa [hstored] at hgives
    | error e => exact hends.1
    | cut => exact hends.1
  -- Without corruption, what was stored can be read.
  · intro huncorrupted pid
    have hintact : Intact serde state.world.dir :=
      hfirst.intact_run hserde (by intro body hbody; simp [State.first, hcurrent] at hbody)
        huncorrupted
    obtain ⟨loaded, hholds, hgives⟩ := holds_of_intact hsound.regular hintact
    rw [← hsound.stored] at hgives
    exact ⟨loaded, hgives, Holds.load_run (w := state.world.restart pid) hholds⟩

namespace Sample

open Json

/-- A participant, written. -/
def participantText (participant : RoomParticipant) : String :=
  object [("id", string participant.id), ("displayName", string participant.displayName),
    ("kind", string (match participant.kind with | .human => "human" | .ai => "ai"))]

/-- A message, written. -/
def messageText (message : RoomMessage) : String :=
  object ([("id", string message.id), ("roomId", string message.roomId),
    ("authorId", string message.authorId), ("recipients", strings message.recipients),
    ("body", string message.body), ("createdAt", string message.createdAt),
    ("artifactIds", strings message.artifactIds)] ++
    message.provenance.toList.map fun .codexOwnerProxy => ("provenance", string "codexOwnerProxy"))

/-- A room, written. -/
def roomText (room : Room) : String :=
  object [("id", string room.id), ("name", string room.name),
    ("participantIds", strings room.participantIds),
    ("messages", array (room.messages.map messageText))]

/-- The content of the file for a snapshot whose texts need no escapes. -/
def body (snapshot : RoomSnapshot) : Bytes :=
  asBytes (object [("fileVersion", "1"),
    ("snapshot", object [("schemaVersion", string snapshot.schemaVersion),
      ("generatedAt", string snapshot.generatedAt),
      ("participants", array (snapshot.participants.map participantText)),
      ("rooms", array (snapshot.rooms.map roomText))])])

/-- The serializer for some snapshots. -/
def serde (snapshots : List RoomSnapshot) : Serde PersistedRoomFile :=
  .table (snapshots.map fun snapshot =>
    ({ fileVersion := roomFileVersion, snapshot }, body snapshot))

/-- Snapshots with distinct contents come back. -/
theorem serde_roundTrips {snapshots : List RoomSnapshot} (hdistinct : (snapshots.map body).Nodup)
    (hne : ∀ snapshot ∈ snapshots, body snapshot ≠ []) : (serde snapshots).RoundTrips := by
  refine Serde.table_roundTrips ?_ ?_
  · rwa [List.map_map]
  · intro row hrow
    obtain ⟨snapshot, hsnapshot, rfl⟩ := List.mem_map.mp hrow
    exact hne snapshot hsnapshot

/-- The sample snapshot is persisted, the next persist is cut off at the last rename, and a start
fails to read the backup. -/
def events : List Event :=
  [.start 7 [], .persist ⟨sampleSnapshot, by decide⟩ [],
    .persist ⟨sampleSnapshot, by decide⟩ [.proceed, .proceed, .proceed, .proceed, .proceed, .cut 0],
    .start 8 [.fail 0]]

end Sample

/-- A persist, one that is cut, and a start that cannot read the backup: all is recovered. -/
theorem roomFile_recovers_sample :
    let serde := Sample.serde [sampleSnapshot]
    let state := run serde Sample.events (.first (.empty 7))
    CrashSafe serde state ∧
      ((∀ body, Event.corrupt body ∉ Sample.events) → ∀ pid, ∃ loaded,
        state.stored.Gives loaded ∧ (load serde).run [] (state.world.restart pid) =
          (.done loaded, state.world.restart pid)) :=
  roomFile_recovers (Sample.serde_roundTrips (by decide) (by decide)) (.empty 7) rfl rfl _

end Mio.Desktop.RoomPersistence
