import Mio.Desktop.JsonStore

/-!
# Settings that are kept in one file

The participant profiles and the appearance of the desktop application each keep their state in one
JSON file, and their `load` and `persist` are written out twice with the same steps. A persist sets
the primary aside as the backup and then renames the new file to the primary. In between there is
only the backup, and a load that finds no primary does not look for one: it gives the default. So a
persist that is stopped there forgets the settings (`Exposes`). In every run without one, a load
gives what was saved last (`recovers`).
-/

namespace Mio.Desktop.SettingsStore

open Library

variable {α : Type} (store : JsonStore α)

/-- `read_file`. -/
def readFile (path : Sibling) : Prog World StoreError α := do
  let body ← readToEnd .io path
  Prog.refuse .invalid (store.maximumBytes < body.length)
  Prog.ofOption .invalid (store.fromSlice body)

/-- The backup is read only where the primary is a file that cannot be read. -/
def load : Prog World StoreError α := do
  if ← pathIsFile .primary then
    match ← (readFile store .primary).attempt with
    | .ok value => pure value
    | .error _ =>
      match ← (readFile store .backup).attempt with
      | .ok value => pure value
      | .error _ => pure store.empty
  else if ← pathExists .primary then Prog.throw .invalid
  else pure store.empty

/-- The last rename. When it fails, the temporary file is removed, and the backup renamed back if
there is no primary. -/
def renameTemp (temp : Sibling) : Prog World StoreError Unit := do
  match ← (renameFile .io temp .primary).attempt with
  | .ok () => pure ()
  | .error _ =>
    let _ ← (removeFile StoreError.io temp).attempt
    if !(← pathExists .primary) && (← pathIsFile .backup) then
      let _ ← (renameFile StoreError.io .backup .primary).attempt
    Prog.throw .io

/-- Writes the value, and keeps the old file as the backup. -/
def persist (value : α) : Prog World StoreError Unit := do
  quietStep .io
  let body ← Prog.ofOption .invalid (store.toVec value)
  Prog.refuse .invalid (store.maximumBytes < body.length)
  let sequence ← fetchAdd
  let temp ← Prog.gets fun w => Sibling.temp w.pid sequence
  createNew .io temp
  Prog.onError (removeFile .io temp) (writeTemp .io temp body)
  keepPrimary .io
  renameTemp temp

/-! ## What a persist leaves -/

/-- The primary is as before, and so is the backup where there is no primary. -/
@[mk_iff]
structure Kept (before after : World) : Prop where
  regular : after.dir.Regular
  primary : after.dir .primary = before.dir .primary
  backup : before.dir .primary = none → after.dir .backup = before.dir .backup

/-- The primary is the content for the new state. -/
@[mk_iff]
structure Saved (value : α) (after : World) : Prop where
  regular : after.dir.Regular
  primary : ∃ body, store.toVec value = some body ∧ body.length ≤ store.maximumBytes ∧
    after.dir .primary = some (.file body)

/-- The step of a persist that is its last rename, where there is a primary. -/
def lastRename (w : World) : ℕ := if w.dir.has .backup then 6 else 5

/-- What befalls a persist from its last rename on: it fails there, and the backup is renamed back.
-/
def Restores : List Fault → Prop
  | .fail _ :: rest => (∀ m, rest[0]? ≠ some (.cut m)) ∧
      ∀ fault, rest[1]? = some fault → fault = .proceed
  | _ => False

/-- A persist that forgets the settings. There is a primary, the persist gets to its last rename, is
stopped there, and does not rename the backup back. -/
structure Exposes (value : α) (faults : List Fault) (w : World) : Prop where
  primary : w.dir.isFile .primary = true
  body : ∃ body, store.toVec value = some body ∧ body.length ≤ store.maximumBytes
  temp : w.dir (.temp w.pid w.sequence) = none
  stopped : ¬Prog.Spares (lastRename w) faults
  forgotten : ¬Restores (faults.drop (lastRename w))

section Specs

variable {store}

/-- What has the same files as a kept world is kept. -/
theorem Kept.sameFiles {first before after : World} (h : Kept first before)
    (hsame : World.SameFiles before after) : Kept first after :=
  ⟨hsame.regular h.regular, hsame.primary.trans h.primary,
    fun hp => hsame.backup.trans (h.backup hp)⟩

section Steps

attribute [local simp] Prog.tryStep_bind Prog.attempt_tryStep_bind Prog.gets_bind Prog.refuse_bind
  Prog.read_bind Prog.step_bind Prog.throw_bind Prog.ite_bind Prog.onError_read Prog.onError_step
  Prog.onError_ite Prog.onError_tryStep Directory.put_apply

/-- With a primary, a persist that gets to its last rename is safe when it is not stopped there. -/
theorem persist_wpSparing {value : α} {w : World} (hw : w.dir.Regular) {old body : Bytes}
    (hp : w.dir .primary = some (.file old)) (hvec : store.toVec value = some body)
    (hsize : body.length ≤ store.maximumBytes) (htemp : w.dir (.temp w.pid w.sequence) = none) :
    (persist store value).wpSparing (fun _ => Saved store value) (fun _ => Kept w) (Kept w)
      (lastRename w) w := by
  have hsize' : ¬store.maximumBytes < body.length := by omega
  rcases hw.backup with hb | ⟨backup, hb⟩
  all_goals
    simp [persist, lastRename, quietStep, dirStep, pathExists, pathIsFile, createNew, writeAll,
      removeFile, renameFile, keepPrimary, renameTemp, writeTemp, fetchAdd_bind,
      Prog.ofOption_bind, Prog.wpSparing, Prog.wpSparing_ite, Prog.wp_tryStep, Prog.wp,
      Directory.has, Directory.isFile, Directory.createNew, Directory.remove, Directory.rename,
      saved_iff, kept_iff, Directory.regular_iff, hvec, hp, hb, htemp, hsize, hsize']

/-- Where no step goes wrong before it, a persist comes to its last rename with the primary set
aside. -/
theorem persist_run_lastRename {value : α} {w : World} (hw : w.dir.Regular) {old body : Bytes}
    (hp : w.dir .primary = some (.file old)) (hvec : store.toVec value = some body)
    (hsize : body.length ≤ store.maximumBytes) (htemp : w.dir (.temp w.pid w.sequence) = none)
    (faults : List Fault) :
    ∃ w', (persist store value).run (List.replicate (lastRename w) .proceed ++ faults) w =
        (renameTemp (.temp w.pid w.sequence)).run faults w' ∧
      w'.dir .primary = none ∧ w'.dir .backup = some (.file old) ∧
        w'.dir (.temp w.pid w.sequence) = some (.file body) := by
  have hsize' : ¬store.maximumBytes < body.length := by omega
  rcases hw.backup with hb | ⟨backup, hb⟩
  all_goals
    simp [persist, lastRename, quietStep, dirStep, pathExists, createNew, writeAll, removeFile,
      renameFile, keepPrimary, writeTemp, fetchAdd_bind, Prog.ofOption_bind, Prog.run,
      List.replicate, Directory.has, Directory.isFile, Directory.createNew, Directory.remove,
      Directory.rename, hvec, hp, hb, htemp, hsize']
    exact ⟨_, rfl, by simp, by simp, by simp⟩

/-- A last rename that fails leaves the primary as it was, when the backup is renamed back. -/
theorem renameTemp_restores {faults : List Fault} (hrestores : Restores faults) {pid sequence : ℕ}
    {old body : Bytes} {w : World} (hp : w.dir .primary = none)
    (hb : w.dir .backup = some (.file old))
    (htemp : w.dir (.temp pid sequence) = some (.file body)) :
    ∃ after, (renameTemp (.temp pid sequence)).run faults w = (.error .io, after) ∧
      after.dir .primary = some (.file old) ∧ after.dir .backup = none := by
  match faults, hrestores with
  | .fail m :: [], _ =>
    simp [renameTemp, dirStep, pathExists, pathIsFile, removeFile, renameFile, Prog.run,
      Directory.has, Directory.isFile, Directory.remove, Directory.rename, hp, hb, htemp]
  | .fail m :: fault :: rest, ⟨hcut, hproceed⟩ =>
    have hback : rest = [] ∨ ∃ more, rest = .proceed :: more := by
      cases rest with
      | nil => exact .inl rfl
      | cons back more =>
        obtain rfl := hproceed back rfl
        exact .inr ⟨more, rfl⟩
    cases fault with
    | cut m => exact absurd rfl (hcut m)
    | proceed =>
      rcases hback with rfl | ⟨more, rfl⟩ <;>
        simp [renameTemp, dirStep, pathExists, pathIsFile, removeFile, renameFile, Prog.run,
          Directory.has, Directory.isFile, Directory.remove, Directory.rename, hp, hb, htemp]
    | fail m =>
      rcases hback with rfl | ⟨more, rfl⟩ <;>
        simp [renameTemp, dirStep, pathExists, pathIsFile, removeFile, renameFile, Prog.run,
          Directory.has, Directory.isFile, Directory.remove, Directory.rename, hp, hb]

/-- A last rename that is stopped, with the backup not renamed back, leaves no primary. -/
theorem renameTemp_forgets {fault : Fault} {rest : List Fault} (hstopped : fault ≠ .proceed)
    (hforgotten : ¬Restores (fault :: rest)) {pid sequence : ℕ} {old body : Bytes} {w : World}
    (hp : w.dir .primary = none) (hb : w.dir .backup = some (.file old))
    (htemp : w.dir (.temp pid sequence) = some (.file body)) :
    Prog.Ends (fun _ _ => False) (fun _ after => after.dir .primary = none)
      (fun after => after.dir .primary = none)
      ((renameTemp (.temp pid sequence)).run (fault :: rest) w) := by
  cases fault with
  | proceed => exact absurd rfl hstopped
  | cut m => simpa [renameTemp, dirStep, renameFile, Prog.run, Prog.Ends] using hp
  | fail m =>
    cases rest with
    | nil => exact absurd (by simp [Restores]) hforgotten
    | cons remove rest =>
      -- The removal of the temporary file is cut off, or the backup is not renamed.
      have hcases : (∃ m, remove = .cut m) ∨
          ∃ back more, rest = back :: more ∧ back ≠ .proceed := by
        by_contra hnone
        push Not at hnone
        refine hforgotten ⟨fun m hcut => hnone.1 m (by simpa using hcut), fun back hback => ?_⟩
        cases rest with
        | nil => simp at hback
        | cons other more =>
          obtain rfl : other = back := by simpa using hback
          exact hnone.2 other more rfl
      rcases hcases with ⟨n, rfl⟩ | ⟨back, more, rfl, hback⟩
      · simpa [renameTemp, dirStep, renameFile, removeFile, Prog.run, Prog.Ends] using hp
      · cases back with
        | proceed => exact absurd rfl hback
        | fail n | cut n =>
          cases remove <;>
            simp [renameTemp, dirStep, pathExists, pathIsFile, removeFile, renameFile, Prog.run,
              Prog.Ends, Directory.has, Directory.isFile, Directory.remove, hp, hb, htemp]

end Steps

/-- Without a primary and without a backup, the last rename leaves neither, or the new primary. -/
theorem renameTemp_wp {pid sequence : ℕ} {body : Bytes} {w : World} (hp : w.dir .primary = none)
    (hb : w.dir .backup = none) (htemp : w.dir (.temp pid sequence) = some (.file body)) :
    (renameTemp (.temp pid sequence)).wp
      (fun _ after => after.dir .primary = some (.file body) ∧ after.dir .backup = none)
      (fun _ after => after.dir .primary = none ∧ after.dir .backup = none)
      (fun after => after.dir .primary = none ∧ after.dir .backup = none) w := by
  simp [renameTemp, Directory.has, Directory.isFile, Directory.put_apply, hp, hb, htemp]

/-- Without a primary, or where it is refused before the temporary file is written, a persist is
safe. -/
theorem persist_wp {value : α} {w : World} (hw : w.dir.Regular)
    (hbackup : w.dir .primary = none → w.dir .backup = none)
    (hsafe : w.dir .primary ≠ none → ∀ body, store.toVec value = some body →
      body.length ≤ store.maximumBytes → w.dir (.temp w.pid w.sequence) ≠ none) :
    (persist store value).wp (fun _ => Saved store value) (fun _ => Kept w) (Kept w) w := by
  have hkept : Kept w w := ⟨hw, rfl, fun _ => rfl⟩
  simp only [persist, Prog.wp_bind, wp_quietStep, Prog.wp_refuse, Prog.wp_ofOption, wp_fetchAdd,
    Prog.wp_gets, Prog.wp_onError, wp_createNew]
  refine ⟨⟨fun body hvec => ⟨fun _ => hkept, fun hsize => ?_⟩, fun _ => hkept⟩, hkept, hkept⟩
  have hsize' : body.length ≤ store.maximumBytes := by simpa using hsize
  have hnext : World.SameFiles w { w with sequence := w.sequence + 1 } :=
    ⟨rfl, rfl, fun _ _ => rfl⟩
  refine ⟨fun hfree => ?_, hkept.sameFiles hnext, hkept.sameFiles hnext⟩
  have hcreated := hnext.trans (.temp _ w.pid w.sequence (some (.file [])))
  refine writeTemp_wp (fun w1 hwritten htemp => ?_) fun w' hsame => ?_
  · -- The temporary file is written, so there is no primary.
    have hsame := hcreated.trans hwritten
    have hp : w.dir .primary = none := by
      by_contra hp
      exact hsafe hp body hvec hsize' (Directory.has_eq_false.mp hfree)
    have hp1 : w1.dir .primary = none := hsame.primary.trans hp
    have hb1 : w1.dir .backup = none := hsame.backup.trans (hbackup hp)
    simp only [keepPrimary, Prog.wp_bind, wp_pathExists, Directory.has, hp1, Option.isSome_none,
      Bool.false_eq_true, if_false, Prog.wp_pure]
    refine Prog.wp_mono (fun _ after h => ?_) (fun _ after h => ?_) (fun after h => ?_) _ _
      (renameTemp_wp hp1 hb1 htemp)
    · exact ⟨⟨.inr ⟨body, h.1⟩, .inl h.2⟩, body, hvec, hsize', h.1⟩
    · exact ⟨⟨.inl h.1, .inl h.2⟩, h.1.trans hp.symm, fun _ => h.2.trans (hbackup hp).symm⟩
    · exact ⟨⟨.inl h.1, .inl h.2⟩, h.1.trans hp.symm, fun _ => h.2.trans (hbackup hp).symm⟩
  · have hsame' := hcreated.trans hsame
    refine ⟨removeTemp_wp fun after hremoved => ?_, hkept.sameFiles hsame'⟩
    have hafter := hkept.sameFiles (hsame'.trans hremoved)
    exact ⟨hafter, hafter, hafter⟩

/-- A persist that does not expose the settings saves the new ones, or it leaves the files. -/
theorem persist_ends {value : α} {faults : List Fault} {w : World} (hw : w.dir.Regular)
    (hbackup : w.dir .primary = none → w.dir .backup = none)
    (hsafe : ¬Exposes store value faults w) :
    Prog.Ends (fun _ => Saved store value) (fun _ => Kept w) (Kept w)
      ((persist store value).run faults w) := by
  by_cases hreach : w.dir .primary ≠ none ∧
      (∃ body, store.toVec value = some body ∧ body.length ≤ store.maximumBytes) ∧
      w.dir (.temp w.pid w.sequence) = none
  · obtain ⟨hprimary, ⟨body, hvec, hsize⟩, htemp⟩ := hreach
    obtain ⟨old, hp⟩ := hw.primary.resolve_left hprimary
    by_cases hspares : Prog.Spares (lastRename w) faults
    · exact Prog.run_wpSparing _ _ _ _ (persist_wpSparing hw hp hvec hsize htemp) hspares
    · obtain ⟨fault, rest, -, hfaults⟩ := Prog.exists_of_not_spares hspares
      have hdrop : faults.drop (lastRename w) = fault :: rest := by
        rw [hfaults, List.drop_left' List.length_replicate]
      have hrestores : Restores (fault :: rest) := by
        by_contra hforgotten
        rw [← hdrop] at hforgotten
        exact hsafe ⟨Directory.isFile_iff.mpr ⟨old, hp⟩, ⟨body, hvec, hsize⟩, htemp, hspares,
          hforgotten⟩
      obtain ⟨w', hrun, hp', hb', htemp'⟩ :=
        persist_run_lastRename hw hp hvec hsize htemp (fault :: rest)
      obtain ⟨after, hafter, hpafter, hbafter⟩ := renameTemp_restores hrestores hp' hb' htemp'
      rw [hfaults, hrun, hafter]
      exact ⟨⟨.inr ⟨old, hpafter⟩, .inl hbafter⟩, hpafter.trans hp.symm,
        fun hnone => absurd hnone hprimary⟩
  · refine Prog.run_wp _ _ _ (persist_wp hw hbackup fun hp body hvec hsize htemp => hreach ?_)
    exact ⟨hp, ⟨body, hvec, hsize⟩, htemp⟩

/-- One that exposes them leaves no primary, so that a load gives the default. -/
theorem persist_forgets {value : α} {faults : List Fault} {w : World} (hw : w.dir.Regular)
    (h : Exposes store value faults w) :
    Prog.Ends (fun _ _ => False) (fun _ after => after.dir .primary = none)
      (fun after => after.dir .primary = none) ((persist store value).run faults w) := by
  obtain ⟨old, hp⟩ := Directory.isFile_iff.mp h.primary
  obtain ⟨body, hvec, hsize⟩ := h.body
  obtain ⟨fault, rest, hne, hfaults⟩ := Prog.exists_of_not_spares h.stopped
  have hforgotten := h.forgotten
  rw [hfaults, List.drop_left' List.length_replicate] at hforgotten
  obtain ⟨w', hrun, hp', hb', htemp'⟩ :=
    persist_run_lastRename hw hp hvec hsize h.temp (fault :: rest)
  rw [hfaults, hrun]
  exact renameTemp_forgets hne hforgotten hp' hb' htemp'

attribute [local simp] Prog.gets_bind Prog.ite_bind Prog.run_ite in
/-- A load gives what the primary has, or the default where there is none. -/
theorem load_run {w : World} (hp : w.dir .primary = none) :
    (load store).run [] w = (.done store.empty, w) := by
  simp [load, pathIsFile, pathExists, Directory.isFile, Directory.has, hp]

attribute [local simp] Prog.gets_bind Prog.ite_bind Prog.run_ite Prog.run_bind_nil
  Prog.run_attempt in
/-- Undisturbed, a load reads the primary file. -/
theorem load_run_primary {w : World} {body : Bytes} {value : α}
    (hp : w.dir .primary = some (.file body)) (hsize : body.length ≤ store.maximumBytes)
    (hback : store.fromSlice body = some value) :
    (load store).run [] w = (.done value, w) := by
  have hsize' : ¬store.maximumBytes < body.length := by omega
  simp [load, readFile, pathIsFile, readToEnd, quietStep, dirStep, Prog.tryStep, Prog.refuse,
    Prog.ofOption, Directory.isFile, Prog.run, Prog.gets, hp, hsize', hback]

end Specs

/-! ## Runs -/

/-- The files, the settings in memory, and those that were last saved, if any were. -/
structure State (α : Type) where
  world : World
  memory : α
  saved : Option α

/-- What can happen: a save, under some schedule of faults, or a new process, which loads. -/
inductive Event (ι : Type) where
  | save (input : ι) (faults : List Fault)
  | restart (pid : ℕ)

section Runs

variable {ι : Type} (next : α → ι → Option α)

/-- A save checks its input, persists what it makes of the settings, and takes that over when the
persist returns. -/
def save (input : ι) (faults : List Fault) (state : State α) : State α :=
  match next state.memory input with
  | none => state
  | some value =>
    match (persist store value).run faults state.world with
    | (.done _, world) => { world, memory := value, saved := some value }
    | (_, world) => { state with world }

/-- What an event leaves. -/
def apply (state : State α) : Event ι → State α
  | .save input faults => save store next input faults state
  | .restart pid =>
    match (load store).run [] (state.world.restart pid) with
    | (.done memory, world) => { state with world, memory }
    | (_, world) => { state with world }

/-- What a run of events leaves. -/
def run (events : List (Event ι)) (state : State α) : State α :=
    events.foldl (apply store next) state

/-- No save of the run exposes the settings. -/
def Unexposed : List (Event ι) → State α → Prop
  | [], _ => True
  | event :: events, state =>
    (∀ input faults value, event = .save input faults → next state.memory input = some value →
      ¬Exposes store value faults state.world) ∧ Unexposed events (apply store next state event)

/-- The settings before the first save. -/
def start (world : World) : State α := ⟨world, store.empty, none⟩

/-- A load gives what was saved last, and the default before that. So does the memory. -/
def Recovers : Prop :=
  ∀ (world : World), world.dir .primary = none → world.dir .backup = none →
    ∀ events, Unexposed store next events (start store world) →
      let state := run store next events (start store world)
      (load store).run [] state.world = (.done (state.saved.getD store.empty), state.world) ∧
        state.memory = state.saved.getD store.empty

/-- The invariant of a run: the primary is the content for what was saved last. -/
structure Consistent (Valid : α → Prop) (state : State α) : Prop where
  regular : state.world.dir.Regular
  backup : state.world.dir .primary = none → state.world.dir .backup = none
  memory : state.memory = state.saved.getD store.empty
  valid : Valid state.memory
  saved : match state.saved with
    | none => state.world.dir .primary = none
    | some value => Saved store value state.world

variable {store next} {Valid : α → Prop}

/-- A kept world keeps the invariant. -/
theorem Consistent.kept {state : State α} (h : Consistent store Valid state) {world : World}
    (hkept : Kept state.world world) : Consistent store Valid { state with world } := by
  refine ⟨hkept.regular, fun hp => ?_, h.memory, h.valid, ?_⟩
  · have hp' : state.world.dir .primary = none := hkept.primary.symm.trans hp
    exact (hkept.backup hp').trans (h.backup hp')
  · have hsaved := h.saved
    obtain ⟨before, memory, saved⟩ := state
    cases saved with
    | none => exact hkept.primary.trans hsaved
    | some value =>
      obtain ⟨-, body, hvec, hsize, hprimary⟩ := hsaved
      exact ⟨hkept.regular, body, hvec, hsize, hkept.primary.trans hprimary⟩

/-- A load finds what the invariant says. -/
theorem Consistent.load (hlawful : store.Lawful Valid) {state : State α}
    (h : Consistent store Valid state) :
    (load store).run [] state.world = (.done (state.saved.getD store.empty), state.world) := by
  have hmemory := h.memory
  have hvalid := h.valid
  have hsaved := h.saved
  obtain ⟨world, memory, saved⟩ := state
  cases saved with
  | none => exact load_run hsaved
  | some value =>
    obtain ⟨-, body, hvec, hsize, hprimary⟩ := hsaved
    obtain rfl : memory = value := hmemory
    exact load_run_primary hprimary hsize (hlawful.roundTrip memory body hvalid hvec).2

/-- An event keeps the invariant. -/
theorem Consistent.apply (hlawful : store.Lawful Valid)
    (hnext : ∀ memory input value, Valid memory → next memory input = some value → Valid value)
    {state : State α} (h : Consistent store Valid state) {event : Event ι}
    (hsafe : ∀ input faults value, event = .save input faults →
      next state.memory input = some value → ¬Exposes store value faults state.world) :
    Consistent store Valid (apply store next state event) := by
  -- A restart reads what the file has, and a save leaves the file alone or replaces it.
  cases event with
  | restart pid =>
    have hrestart : Consistent store Valid { state with world := state.world.restart pid } :=
      h.kept ⟨h.regular, rfl, fun _ => rfl⟩
    have hloaded := hrestart.load hlawful
    have happly : SettingsStore.apply store next state (.restart pid) =
        { state with
          world := state.world.restart pid
          memory := state.saved.getD store.empty } := by
      rw [SettingsStore.apply, hloaded]
    rw [happly, ← h.memory]
    exact hrestart
  | save input faults =>
    rw [SettingsStore.apply, save]
    rcases hvalue : next state.memory input with _ | value
    · exact h
    · have hends := persist_ends h.regular h.backup (hsafe input faults value rfl hvalue)
      dsimp only
      rcases hrun : (persist store value).run faults state.world with ⟨result, world⟩
      rw [hrun] at hends
      cases result with
      | done _ =>
        obtain ⟨hregular, body, hvec, hsize, hprimary⟩ := hends
        refine ⟨hregular, fun hp => ?_, rfl, hnext _ _ _ h.valid hvalue, ?_⟩
        · rw [hprimary] at hp
          cases hp
        · exact ⟨hregular, body, hvec, hsize, hprimary⟩
      | error e => exact h.kept hends
      | cut => exact h.kept hends

/-- The invariant holds along a run, by induction on its events. -/
theorem Consistent.run (hlawful : store.Lawful Valid)
    (hnext : ∀ memory input value, Valid memory → next memory input = some value → Valid value)
    {state : State α} (h : Consistent store Valid state) {events : List (Event ι)}
    (hsafe : Unexposed store next events state) :
    Consistent store Valid (run store next events state) := by
  induction events generalizing state with
  | nil => exact h
  | cons event events ih => exact ih (h.apply hlawful hnext hsafe.1) hsafe.2

/-- In every run without a save that exposes the settings, a load gives what was saved last. -/
theorem recovers (hlawful : store.Lawful Valid) (hempty : Valid store.empty)
    (hnext : ∀ memory input value, Valid memory → next memory input = some value → Valid value) :
    Recovers store next := by
  intro world hp hb events hsafe
  have hstart : Consistent store Valid (start store world) :=
    ⟨⟨.inl hp, .inl hb⟩, fun _ => hb, rfl, hempty, hp⟩
  have hrun := hstart.run hlawful hnext hsafe
  exact ⟨hrun.load hlawful, hrun.memory⟩

end Runs

end Mio.Desktop.SettingsStore
