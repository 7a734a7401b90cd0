import Mio.Core.RoomValidity
import Mio.Library.Replace
import Mio.Library.Serde

/-!
# The file of the Room store

The `load` and `persist` of `RoomPersistence` in `room_source.rs`. A persist replaces the file as a
whole and keeps the old one as its backup. A load that finds a primary it cannot read takes the
backup: it sets the primary aside under a free name and persists the backup's snapshot.

Unlike in the other stores of the desktop application, a persist removes the backup only when there
is a primary to put in its place, so it never removes the only file there is (`persist_wp`). And a
copy that was set aside is never touched again (`World.Kept.corrupt`).

The path is given: the checks that it is absolute and has a parent and a name are not modelled.
-/

namespace Mio.Desktop

open Library Mio.Core

/-- Why the file of the rooms is not read or written. -/
inductive DesktopRoomPersistenceError where
  | io
  | invalidFile
  deriving DecidableEq

/-- The version of the file. -/
def roomFileVersion : UInt8 := 1

/-- The greatest size of the file, in bytes. -/
def maximumRoomFileBytes : ℕ := 64 * 1024 * 1024

/-- The file. -/
structure PersistedRoomFile where
  fileVersion : UInt8
  snapshot : RoomSnapshot
  deriving DecidableEq

namespace RoomPersistence

/-- The programs of this module. -/
abbrev RoomProg := Prog World DesktopRoomPersistenceError

section Code

variable (serde : Serde PersistedRoomFile)

/-- The checks of `load_room_file` on a file's content, which all refuse it as invalid. -/
def decodeRoomFile (body : Bytes) : Option RoomSnapshot :=
  if maximumRoomFileBytes < body.length then none
  else
    match serde.fromSlice body with
    | none => none
    | some persisted =>
      if persisted.fileVersion != roomFileVersion then none
      else
        match InMemoryRoomSource.new persisted.snapshot with
        | .error _ => none
        | .ok _ => some persisted.snapshot

/-- Reads and decodes one file. -/
def loadRoomFile (path : Sibling) : RoomProg RoomSnapshot := do
  let body ← readToEnd .io path
  Prog.ofOption .invalidFile (decodeRoomFile serde body)

/-- Create a temporary file, under the first of so many sequence numbers that is free. -/
def createTempFile : ℕ → RoomProg Sibling
  | 0 => Prog.throw .io
  | tries + 1 => do
    let sequence ← fetchAdd
    let temp ← Prog.gets fun w => Sibling.temp w.pid sequence
    if ← pathExists temp then
      -- Such an open fails with `AlreadyExists`, or with another error.
      quietStep .io
      createTempFile tries
    else
      createNew .io temp
      pure temp

/-- Writes the rooms, and sets the old file aside as the backup. -/
def persist (snapshot : RoomSnapshot) : RoomProg Unit := do
  quietStep .io
  Prog.refuse .invalidFile ((← pathExists .primary) && !(← pathIsFile .primary) ||
    (← pathExists .backup) && !(← pathIsFile .backup))
  let body ← Prog.ofOption .invalidFile
    (serde.toVec { fileVersion := roomFileVersion, snapshot })
  Prog.refuse .invalidFile (maximumRoomFileBytes < body.length)
  let temp ← createTempFile 16
  -- Past this point the temporary file is removed on an error (`TempFileGuard`).
  Prog.onError (removeFile .io temp) do
    writeTemp .io temp body
    replacePrimary .io temp

/-- Set the primary aside, under the first of so many sequence numbers that is free. -/
def preserveCorruptedPrimary : ℕ → RoomProg Unit
  | 0 => Prog.throw .io
  | tries + 1 => do
    let sequence ← fetchAdd
    let quarantine ← Prog.gets fun w => Sibling.corrupt w.pid sequence
    if ← pathExists quarantine then preserveCorruptedPrimary tries
    else renameFile .io .primary quarantine

/-- Load the backup in the place of a primary that cannot be read. -/
def loadBackup : RoomProg RoomSnapshot := do
  Prog.refuse .invalidFile !(← pathIsFile .backup)
  let snapshot ← loadRoomFile serde .backup
  preserveCorruptedPrimary 16
  persist serde snapshot
  pure snapshot

/-- Reads the rooms, from the backup when the primary file is gone or bad. -/
def load : RoomProg (Option RoomSnapshot) := do
  if ← pathIsFile .primary then
    match ← (loadRoomFile serde .primary).attempt with
    | .ok snapshot => pure (some snapshot)
    | .error .invalidFile => some <$> loadBackup serde
    | .error .io => Prog.throw .io
  else if ← pathExists .primary then Prog.throw .invalidFile
  else if ← pathIsFile .backup then some <$> loadRoomFile serde .backup
  else if ← pathExists .backup then Prog.throw .invalidFile
  else pure none

end Code

/-! ## The content of a file -/

section Content

variable {serde : Serde PersistedRoomFile}

/-- A snapshot that is read has passed the check. -/
theorem valid_of_decodeRoomFile {body : Bytes} {snapshot : RoomSnapshot}
    (h : decodeRoomFile serde body = some snapshot) : validateSnapshot snapshot = .ok () := by
  unfold decodeRoomFile at h
  split at h
  · cases h
  split at h
  · cases h
  split at h
  · cases h
  split at h
  · cases h
  rename_i source hnew
  obtain rfl : _ = snapshot := by simpa using h
  exact InMemoryRoomSource.valid_of_new hnew

/-- What is written for a valid snapshot is read back. -/
theorem decodeRoomFile_toVec (hserde : serde.RoundTrips) {snapshot : RoomSnapshot}
    (hvalid : validateSnapshot snapshot = .ok ()) {body : Bytes}
    (hvec : serde.toVec { fileVersion := roomFileVersion, snapshot } = some body)
    (hsize : body.length ≤ maximumRoomFileBytes) :
    decodeRoomFile serde body = some snapshot := by
  have hsize' : ¬maximumRoomFileBytes < body.length := by omega
  have hslice := (hserde _ _ hvec).2
  simp [decodeRoomFile, hsize', hslice, InMemoryRoomSource.new_eq_ok hvalid]

end Content

/-! ## What a persist leaves -/

/-- The persist of a snapshot has returned. -/
def Saved (serde : Serde PersistedRoomFile) (snapshot : RoomSnapshot) (before after : World) :
    Prop :=
  ∃ body, serde.toVec { fileVersion := roomFileVersion, snapshot } = some body ∧
    body.length ≤ maximumRoomFileBytes ∧ World.Replaced body before after

section Specs

variable {done : Unit → World → Prop} {error : DesktopRoomPersistenceError → World → Prop}
  {cut : World → Prop} {w : World}

/-- The creation of a temporary file leaves the others. -/
theorem createTempFile_wp {done : Sibling → World → Prop} (tries : ℕ)
    (hdone : ∀ pid sequence w', World.SameFiles w w' →
      w'.dir (.temp pid sequence) = some (.file []) → done (.temp pid sequence) w')
    (hrest : ∀ w', World.SameFiles w w' → error .io w' ∧ cut w') :
    (createTempFile tries).wp done error cut w := by
  induction tries generalizing w with
  | zero => exact (hrest w (.refl w)).1
  | succ tries ih =>
    have hnext : World.SameFiles w { w with sequence := w.sequence + 1 } :=
      ⟨rfl, rfl, fun _ _ => rfl⟩
    simp only [createTempFile, Prog.wp_bind, wp_fetchAdd, Prog.wp_gets, wp_pathExists,
      Prog.wp_ite, wp_quietStep, wp_createNew, Prog.wp_pure]
    refine ⟨fun _ => ⟨?_, hrest _ hnext⟩, fun _ => ⟨fun _ => ?_, hrest _ hnext⟩⟩
    · exact ih (fun pid sequence w' hsame => hdone pid sequence w' (hnext.trans hsame))
        fun w' hsame => hrest w' (hnext.trans hsame)
    · exact hdone _ _ _ (hnext.trans (.temp _ _ _ _)) (Directory.put_self _ _ _)

/-- A persist saves the snapshot, or it keeps what a reader finds, under every schedule and whatever
is in the directory. -/
theorem persist_wp (serde : Serde PersistedRoomFile) (snapshot : RoomSnapshot) (w : World) :
    (persist serde snapshot).wp (fun _ => Saved serde snapshot w)
    (fun _ => World.Kept w) (World.Kept w) w := by
  have hkept : World.Kept w w := .refl w
  simp only [persist, Prog.wp_bind, wp_quietStep, wp_pathExists, wp_pathIsFile, Prog.wp_refuse,
    Prog.wp_ofOption, Prog.wp_onError]
  refine ⟨⟨fun _ => hkept, fun hchecks => ⟨fun body hvec => ⟨fun _ => hkept, fun hsize => ?_⟩,
    fun _ => hkept⟩⟩, hkept, hkept⟩
  have hw := regular_of_checks hchecks
  have hsize' : body.length ≤ maximumRoomFileBytes := by simpa using hsize
  refine createTempFile_wp 16 ?_ fun w' hsame => ⟨hkept.sameFiles hsame, hkept.sameFiles hsame⟩
  intro pid sequence w1 hcreated hempty
  have hcleanup : ∀ w', World.Kept w w' →
      (removeFile DesktopRoomPersistenceError.io (.temp pid sequence)).wp (fun _ => World.Kept w)
        (fun _ => World.Kept w) (World.Kept w) w' :=
    fun w' h => removeTemp_wp fun _ hsame =>
      ⟨h.sameFiles hsame, h.sameFiles hsame, h.sameFiles hsame⟩
  refine writeTemp_wp ?_ fun w' hsame =>
    ⟨hcleanup _ (hkept.sameFiles (hcreated.trans hsame)), hkept.sameFiles (hcreated.trans hsame)⟩
  intro w2 hwritten htemp
  -- Only once the temporary file is written can the primary or the backup change.
  have hsame := hcreated.trans hwritten
  refine Prog.wp_mono (fun _ w' h => ?_) (fun e w' h => ?_) (fun w' h => ?_) _ _
    (replacePrimary_wp (hsame.regular hw) htemp)
  · exact ⟨body, hvec, hsize', h.of_sameFiles hsame⟩
  · exact hcleanup _ (h.of_sameFiles hsame)
  · exact h.of_sameFiles hsame

/-- How a persist can end, under any faults. -/
theorem persist_ends (serde : Serde PersistedRoomFile) (snapshot : RoomSnapshot)
    (faults : List Fault) (w : World) :
    Prog.Ends (fun _ => Saved serde snapshot w) (fun _ => World.Kept w) (World.Kept w)
      ((persist serde snapshot).run faults w) :=
  Prog.run_wp _ _ _ (persist_wp serde snapshot w)

end Specs

end RoomPersistence

end Mio.Desktop
