import Mio.Desktop.BundledRooms
import Mio.Desktop.RoomRecovery

/-!
# The persistent Room source

`DesktopRoomSource` of `room_source.rs` is the in-memory store together with its file. At the start
of the application it is prepared from what the file holds and committed, and each of its write
operations changes the snapshot in memory, persists it, and goes back to the one before when the
persist fails. So after every call, what is in memory is what the next start will load
(`writes_atomic`).

A program of this module that changes the snapshot in memory takes it and returns the one it leaves.
The lock around it is not modelled, and neither is the source without a file, which only tests use.
-/

namespace Mio.Desktop.RoomSource

open Library Mio.Core RoomPersistence

/-! ## The start -/

/-- A source that was loaded and not yet written back. -/
structure PreparedDesktopRoomSource where
  snapshot : RoomSnapshot
  needsPersist : Bool
  ownerMigration : Option ParticipantIdMigration
  deriving DecidableEq

/-- The migrations of what was loaded, and whether they changed it. -/
def migrate : Option RoomSnapshot →
    Except DesktopRoomPersistenceError (RoomSnapshot × Bool × Option ParticipantIdMigration)
  | some loaded =>
    match normalizeOwnerParticipant loaded with
    | .error e => .error e
    | .ok (snapshot, ownerMigration, ownerUpgraded) =>
      let (snapshot, catalogUpgraded) := mergeBundledCatalog snapshot
      .ok (snapshot, catalogUpgraded || ownerUpgraded, ownerMigration)
  | none => .ok (bundledSnapshot, false, none)

/-- The source for what was loaded. -/
def prepared (loaded : Option RoomSnapshot) :
    Except DesktopRoomPersistenceError PreparedDesktopRoomSource :=
  match migrate loaded with
  | .error e => .error e
  | .ok (snapshot, upgraded, ownerMigration) =>
    match InMemoryRoomSource.new snapshot with
    | .error _ => .error .invalidFile
    | .ok _ => .ok { snapshot, needsPersist := upgraded, ownerMigration }

/-- A backup file that the user has picked. -/
structure SnapshotSource where
  /-- Whether its path is absolute. -/
  isAbsolute : Bool
  /-- Its name, where the path has one that is text. -/
  fileName : Option String
  /-- Its content, where the path is that of a regular file. -/
  content : Option Bytes
  deriving DecidableEq

/-- Whether the owner's file has the name of a backup and an absolute path. -/
def validExternalSnapshotPath (source : SnapshotSource) : Bool :=
  source.isAbsolute && source.fileName.any fun name =>
    match name.toList.dropPrefix? "moe-room-backup-".toList with
    | none => false
    | some value =>
      match value.dropSuffix? ".json".toList with
      | none => false
      | some stamp => stamp.length == 20 && stamp.all Char.isDigit

section Code

variable (serde : Serde PersistedRoomFile)

/-- Reads the rooms and prepares them for the application. -/
def preparePersistentDesktopRoomSource : RoomProg PreparedDesktopRoomSource := do
  let loaded ← load serde
  Prog.ofExcept (prepared loaded)

/-- Write a prepared source back, if it was changed. Returns the snapshot in memory. -/
def commit (source : PreparedDesktopRoomSource) : RoomProg RoomSnapshot := do
  if source.needsPersist then
    Prog.refuse .invalidFile (validateSnapshot source.snapshot != .ok ())
    persist serde source.snapshot
  match InMemoryRoomSource.new source.snapshot with
  | .error _ => Prog.throw .invalidFile
  | .ok inner => pure inner.snapshot

/-- A start of the application. -/
def start : RoomProg RoomSnapshot := do
  let source ← preparePersistentDesktopRoomSource serde
  commit serde source

/-! ## The write operations -/

/-- The common form of the write operations: change the snapshot in memory, persist it, and go back
to the one before when that fails. -/
def write {ε α : Type} (unavailable : ε) (operation : RoomSnapshot → Except ε α × RoomSnapshot)
    (memory : RoomSnapshot) : RoomProg (Except ε α × RoomSnapshot) := do
  let before := memory
  match operation memory with
  | (.error e, memory) => pure (.error e, memory)
  | (.ok result, memory) =>
    match ← (persist serde memory).attempt with
    | .ok () => pure (.ok result, memory)
    | .error _ =>
      let (_, memory) := replaceSnapshot before memory
      pure (.error unavailable, memory)

/-- Appends a message and saves the rooms. -/
def appendMessage (draft : RoomMessageDraft) (memory : RoomSnapshot) :
    RoomProg (Except RoomWriteError RoomWriteSuccess × RoomSnapshot) :=
  write serde .sourceUnavailable (Core.appendMessage draft) memory

/-- Creates a room and saves the rooms. -/
def createRoom (draft : RoomCreateDraft) (memory : RoomSnapshot) :
    RoomProg (Except RoomMutationError RoomMutationSuccess × RoomSnapshot) :=
  write serde .sourceUnavailable (Core.createRoom draft) memory

/-- Adds a participant and saves the rooms. -/
def addRoomParticipant (roomId participantId updatedAt : String) (memory : RoomSnapshot) :
    RoomProg (Except RoomMutationError RoomMutationSuccess × RoomSnapshot) :=
  write serde .sourceUnavailable (Core.addRoomParticipant roomId participantId updatedAt) memory

/-- Renames a room and saves the rooms. -/
def renameRoom (roomId name updatedAt : String) (memory : RoomSnapshot) :
    RoomProg (Except RoomMutationError RoomMutationSuccess × RoomSnapshot) :=
  write serde .sourceUnavailable (Core.renameRoom roomId name updatedAt) memory

/-- Removes a participant and saves the rooms. -/
def removeRoomParticipant (roomId participantId updatedAt : String) (memory : RoomSnapshot) :
    RoomProg (Except RoomMutationError RoomMutationSuccess × RoomSnapshot) :=
  write serde .sourceUnavailable (Core.removeRoomParticipant roomId participantId updatedAt) memory

/-- Deletes a room and saves the rooms. -/
def deleteRoom (roomId updatedAt : String) (memory : RoomSnapshot) :
    RoomProg (Except RoomMutationError RoomMutationSuccess × RoomSnapshot) :=
  write serde .sourceUnavailable (Core.deleteRoom roomId updatedAt) memory

/-- The snapshot in a backup file, after the migrations. -/
def importSnapshot (body : Bytes) : Except DesktopRoomPersistenceError RoomSnapshot :=
  match decodeRoomFile serde body with
  | none => .error .invalidFile
  | some snapshot =>
    match normalizeOwnerParticipant snapshot with
    | .error e => .error e
    | .ok (snapshot, _) =>
      let (snapshot, _) := mergeBundledCatalog snapshot
      match InMemoryRoomSource.new snapshot with
      | .error _ => .error .invalidFile
      | .ok _ => .ok snapshot

/-- Read a backup file, and return the snapshot in it after the migrations. -/
def readExternalSnapshot (source : SnapshotSource) : RoomProg RoomSnapshot := do
  Prog.refuse .invalidFile !(validExternalSnapshotPath source)
  let body ← Prog.ofOption .invalidFile source.content
  quietStep .io
  Prog.ofExcept (importSnapshot serde body)

/-- Take over the snapshot of a backup file, and go back to the one before when it cannot be
persisted. -/
def takeOver (snapshot memory : RoomSnapshot) :
    RoomProg (Except DesktopRoomPersistenceError Unit × RoomSnapshot) := do
  let before := memory
  match replaceSnapshot snapshot memory with
  | (.error _, memory) => pure (.error .invalidFile, memory)
  | (.ok (), memory) =>
    match ← (persist serde snapshot).attempt with
    | .ok () => pure (.ok (), memory)
    | .error _ =>
      match replaceSnapshot before memory with
      | (.error _, memory) => pure (.error .invalidFile, memory)
      | (.ok (), memory) => pure (.error .io, memory)

/-- Takes the rooms of the owner's file over and saves them. -/
def restoreSnapshot (source : SnapshotSource) (memory : RoomSnapshot) :
    RoomProg (Except DesktopRoomPersistenceError Unit × RoomSnapshot) := do
  match ← (readExternalSnapshot serde source).attempt with
  | .error e => pure (.error e, memory)
  | .ok snapshot => takeOver serde snapshot memory

end Code

/-! ## What is in memory and what is in the file -/

/-- What is in memory is what the next start will load, where no file at all stands for the bundled
snapshot. -/
structure Agrees (serde : Serde PersistedRoomFile) (memory : RoomSnapshot) (dir : Directory) :
    Prop where
  valid : validateSnapshot memory = .ok ()
  files : Holds serde dir (some memory) ∨ Holds serde dir none ∧ memory = bundledSnapshot

section Files

variable {serde : Serde PersistedRoomFile} {memory : RoomSnapshot} {w : World}

/-- A snapshot that was persisted is what the files hold. -/
theorem holds_of_saved (hserde : serde.RoundTrips) {snapshot : RoomSnapshot}
    (hvalid : validateSnapshot snapshot = .ok ()) {w' : World}
    (h : Saved serde snapshot w w') : Holds serde w'.dir (some snapshot) := by
  obtain ⟨body, hvec, hsize, hreplaced⟩ := h
  exact ⟨body, Directory.current_of_primary hreplaced.primary,
    decodeRoomFile_toVec hserde hvalid hvec hsize⟩

/-- Whatever is in the directory, a load that returns leaves files that hold what it returns. -/
theorem load_wp_holds (hserde : serde.RoundTrips) (w : World) :
    (load serde).wp (fun loaded w' => Holds serde w'.dir loaded) (fun _ _ => True) (fun _ => True)
      w := by
  -- The cases are those of `load`: no primary file, a primary file that can be read or not, or
  -- another entry.
  rcases hp : w.dir .primary with _ | (lost | _)
  · rcases hb : w.dir .backup with _ | (spare | _)
    · simp [load, Directory.isFile, Directory.has, hp, hb, Holds, Directory.current]
    · have hfile : (loadRoomFile serde .backup).wp
          (fun value w' => Holds serde w'.dir (some value)) (fun _ _ => True) (fun _ => True) w :=
        loadRoomFile_wp hb
          (fun value h => ⟨spare, by rw [Directory.current_of_no_primary hp, hb], h⟩)
          (fun _ => trivial) ⟨trivial, trivial⟩
      simp [load, Directory.isFile, Directory.has, hp, hb, hfile]
    · simp [load, Directory.isFile, Directory.has, hp, hb]
  -- A file that cannot be read is set aside, and then the backup is read.
  · rcases hread : decodeRoomFile serde lost with _ | value
    · refine load_wp_of_unread hp hread ?_ ⟨trivial, trivial⟩
      rcases hb : w.dir .backup with _ | (spare | _)
      · simp [loadBackup, Directory.isFile, hb]
      · rcases hspare : decodeRoomFile serde spare with _ | found
        · have hfile : (loadRoomFile serde .backup).wp (fun _ _ => False) (fun _ _ => True)
              (fun _ => True) w :=
            loadRoomFile_wp hb (fun _ h => by simp [hspare] at h) (fun _ => trivial)
              ⟨trivial, trivial⟩
          simp only [loadBackup, Prog.wp_bind, wp_pathIsFile, Directory.isFile, hb, Bool.not_true,
            Prog.wp_refuse, Bool.false_eq_true, false_implies, true_and, forall_const]
          exact Prog.wp_mono (fun _ _ h => h.elim) (fun _ _ h => h) (fun _ h => h) _ _ hfile
        · refine Prog.wp_mono ?_ (fun _ _ _ => trivial) (fun _ _ => trivial) _ _
            (loadBackup_wp hserde hp hread hb hspare)
          rintro _ w' ⟨rfl, hintact, hrecovering, hstored⟩
          obtain ⟨loaded, hholds, hgives⟩ := holds_of_intact hrecovering.regular hintact
          rw [hstored] at hgives
          obtain rfl : loaded = _ := hgives
          exact hholds
      · simp [loadBackup, Directory.isFile, hb]
    · simp only [load, Prog.wp_bind, wp_pathIsFile, Directory.isFile, hp, if_true, Prog.wp_attempt]
      refine loadRoomFile_wp hp (fun found h => ?_) (fun h => ?_) ⟨trivial, trivial⟩
      · exact ⟨lost, Directory.current_of_primary hp, h⟩
      · simp [hread] at h
  · simp [load, Directory.isFile, Directory.has, hp]

/-- A persist that returns makes the files hold the snapshot, and any other keeps what they hold. -/
theorem Agrees.kept (h : Agrees serde memory w.dir) {w' : World} (hkept : World.Kept w w') :
    Agrees serde memory w'.dir := by
  refine ⟨h.valid, ?_⟩
  rcases h.files with hfiles | ⟨hfiles, hbundled⟩
  · exact .inl (hfiles.congr hkept.current)
  · exact .inr ⟨hfiles.congr hkept.current, hbundled⟩

end Files

/-! ## The start -/

section Start

variable {serde : Serde PersistedRoomFile}

/-- What is prepared is settled. Where it need not be written back, it is what was loaded, and the
bundled snapshot where nothing was. -/
theorem prepared_eq_ok {loaded : Option RoomSnapshot} {source : PreparedDesktopRoomSource}
    (h : prepared loaded = .ok source) : Settled source.snapshot ∧
      (source.needsPersist = false → source.snapshot = loaded.getD bundledSnapshot) := by
  cases loaded with
  | none =>
    have hnew := InMemoryRoomSource.new_eq_ok bundledSnapshot_valid
    simp only [prepared, migrate, hnew, Except.ok.injEq] at h
    subst h
    exact ⟨bundledSnapshot_settled, fun _ => rfl⟩
  | some snapshot =>
    unfold prepared migrate at h
    rcases hnormalize : normalizeOwnerParticipant snapshot with e | ⟨owned, migration, upgraded⟩
    · simp [hnormalize] at h
    rcases hmerge : mergeBundledCatalog owned with ⟨merged, catalogUpgraded⟩
    simp only [hnormalize, hmerge] at h
    split at h
    · simp at h
    rename_i inner hnew
    simp only [Except.ok.injEq] at h
    subst h
    refine ⟨settled_of_migrations hnormalize hmerge (InMemoryRoomSource.valid_of_new hnew), ?_⟩
    intro hpersist
    rw [Bool.or_eq_false_iff] at hpersist
    obtain ⟨rfl, rfl⟩ := hpersist
    rw [mergeBundledCatalog_of_not_upgraded hmerge]
    exact (normalizeOwnerParticipant_of_not_upgraded hnormalize).1

/-- A settled snapshot that agrees with the files is prepared as it is. -/
theorem Agrees.prepared {memory : RoomSnapshot} {dir : Directory} (hsettled : Settled memory)
    (h : Agrees serde memory dir) : ∃ loaded, Holds serde dir loaded ∧
      RoomSource.prepared loaded =
        .ok { snapshot := memory, needsPersist := false, ownerMigration := none } := by
  have hnew := InMemoryRoomSource.new_eq_ok h.valid
  rcases h.files with hholds | ⟨hholds, rfl⟩
  · refine ⟨_, hholds, ?_⟩
    simp [RoomSource.prepared, migrate, hsettled.normalize, hsettled.merge, hnew]
  · refine ⟨_, hholds, ?_⟩
    simp [RoomSource.prepared, migrate, hnew]

/-- A start that returns leaves a settled snapshot in memory that agrees with the files. -/
theorem start_wp (hserde : serde.RoundTrips) (w : World) :
    (start serde).wp (fun memory w' => Settled memory ∧ Agrees serde memory w'.dir)
      (fun _ _ => True) (fun _ => True) w := by
  simp only [start, preparePersistentDesktopRoomSource, Prog.wp_bind, Prog.wp_ofExcept]
  refine Prog.wp_mono ?_ (fun _ _ _ => trivial) (fun _ _ => trivial) _ _ (load_wp_holds hserde w)
  refine fun loaded w1 hholds => ⟨fun source hsource => ?_, fun _ _ => trivial⟩
  obtain ⟨hsettled, hsame⟩ := prepared_eq_ok hsource
  have hvalid := validateSnapshot_eq_ok.mpr hsettled.valid
  have hnew := InMemoryRoomSource.new_eq_ok hvalid
  rcases hpersist : source.needsPersist with _ | _
  · have hagrees : Agrees serde source.snapshot w1.dir := by
      refine ⟨hvalid, ?_⟩
      cases loaded with
      | none => exact .inr ⟨hholds, hsame hpersist⟩
      | some value =>
        rw [hsame hpersist]
        exact .inl hholds
    simpa [commit, hpersist, hnew] using ⟨hsettled, hagrees⟩
  · simp only [commit, hpersist, if_true, hvalid, hnew, bne_self_eq_false, Prog.wp_bind,
      Prog.wp_refuse, Bool.false_eq_true, false_implies, forall_const, true_and, Prog.wp_pure]
    refine Prog.wp_mono (fun _ w2 h => ?_) (fun _ _ _ => trivial) (fun _ _ => trivial) _ _
      (persist_wp serde source.snapshot w1)
    exact ⟨hsettled, hvalid, .inl (holds_of_saved hserde hvalid h)⟩

/-- Where a settled snapshot agrees with the files, a start that returns yields it and changes
nothing, and so does one that fails or is cut off. -/
theorem start_wp_of_agrees {memory : RoomSnapshot} {w : World} (hsettled : Settled memory)
    (h : Agrees serde memory w.dir) :
    (start serde).wp (fun found w' => found = memory ∧ w' = w) (fun _ w' => w' = w)
      (fun w' => w' = w) w := by
  obtain ⟨loaded, hholds, hprepared⟩ := h.prepared hsettled
  simp only [start, preparePersistentDesktopRoomSource, Prog.wp_bind, Prog.wp_ofExcept]
  refine Prog.wp_mono ?_ (fun _ _ h => h) (fun _ h => h) _ _ (load_wp_of_holds hholds)
  rintro _ _ ⟨rfl, rfl⟩
  simp [hprepared, commit, InMemoryRoomSource.new_eq_ok h.valid]

/-- The next start that no fault befalls yields it, and no migration changes it. -/
theorem start_run {memory : RoomSnapshot} {w : World} (hsettled : Settled memory)
    (h : Agrees serde memory w.dir) :
    (preparePersistentDesktopRoomSource serde).run [] w =
        (.done { snapshot := memory, needsPersist := false, ownerMigration := none }, w) ∧
      (start serde).run [] w = (.done memory, w) := by
  obtain ⟨loaded, hholds, hprepared⟩ := h.prepared hsettled
  have hprepare : (preparePersistentDesktopRoomSource serde).run [] w =
      (.done { snapshot := memory, needsPersist := false, ownerMigration := none }, w) := by
    simp [preparePersistentDesktopRoomSource, Prog.run_bind_nil, hholds.load_run, hprepared,
      Prog.ofExcept, Prog.run]
  refine ⟨hprepare, ?_⟩
  simp [start, Prog.run_bind_nil, hprepare, commit, InMemoryRoomSource.new_eq_ok h.valid]

end Start

/-! ## The write operations -/

section Writes

variable (serde : Serde PersistedRoomFile)

/-- Whether a call has returned `Ok`, with the snapshot it leaves. -/
def returned {ε α : Type} (result : Except ε α × RoomSnapshot) : Bool × RoomSnapshot :=
  (result.1.isOk, result.2)

/-- The write operation of the source for one of the store. -/
def writeOperation (operation : RoomOperation) (memory : RoomSnapshot) :
    RoomProg (Bool × RoomSnapshot) :=
  match operation with
  | .appendMessage draft => returned <$> appendMessage serde draft memory
  | .createRoom draft => returned <$> createRoom serde draft memory
  | .addRoomParticipant roomId participantId updatedAt =>
    returned <$> addRoomParticipant serde roomId participantId updatedAt memory
  | .renameRoom roomId name updatedAt => returned <$> renameRoom serde roomId name updatedAt memory
  | .removeRoomParticipant roomId participantId updatedAt =>
    returned <$> removeRoomParticipant serde roomId participantId updatedAt memory
  | .deleteRoom roomId updatedAt => returned <$> deleteRoom serde roomId updatedAt memory

variable {serde} {memory : RoomSnapshot}

/-- How a write operation ends, by how its persist does, with what it returns. -/
theorem write_result {ε α : Type} {unavailable : ε}
    {operation : RoomSnapshot → Except ε α × RoomSnapshot} (hkeeps : KeepsOnError operation)
    (hvalid : validateSnapshot memory = .ok ()) (faults : List Fault) (w : World) :
    (write serde unavailable operation memory).run faults w =
      match (operation memory).1 with
      | .error e => (.done (.error e, memory), w)
      | .ok result =>
        match (persist serde (operation memory).2).run faults w with
        | (.done _, w') => (.done (.ok result, (operation memory).2), w')
        | (.error _, w') => (.done (.error unavailable, memory), w')
        | (.cut, w') => (.cut, w') := by
  rcases hoperation : operation memory with ⟨_ | result, after⟩
  · have hsame := hkeeps _ _ _ hoperation
    simp [write, hoperation, hsame]
  · -- The rollback succeeds, since what was in memory has passed the check.
    have hsettle : ∀ persisted : Except DesktopRoomPersistenceError Unit,
        (match persisted with
          | .ok () => pure (.ok result, after)
          | .error _ =>
            let (_, memory) := replaceSnapshot memory after
            pure (.error unavailable, memory) : RoomProg (Except ε α × RoomSnapshot)) =
          pure (match persisted with
            | .ok () => (.ok result, after)
            | .error _ => (.error unavailable, memory)) := by
      rintro (_ | _) <;> simp [replaceSnapshot_eq_ok hvalid]
    rw [write, hoperation]
    dsimp only
    rw [Prog.run_bind_pure _ hsettle, Prog.run_attempt]
    rcases (persist serde after).run faults w with ⟨_ | _ | _, w'⟩ <;> rfl

/-- How a write operation ends, by how its persist does. -/
theorem write_run {ε α : Type} {unavailable : ε}
    {operation : RoomSnapshot → Except ε α × RoomSnapshot} (hkeeps : KeepsOnError operation)
    (hvalid : validateSnapshot memory = .ok ()) (faults : List Fault) (w : World) :
    (returned <$> write serde unavailable operation memory).run faults w =
      if (operation memory).1.isOk then
        match (persist serde (operation memory).2).run faults w with
        | (.done _, w') => (.done (true, (operation memory).2), w')
        | (.error _, w') => (.done (false, memory), w')
        | (.cut, w') => (.cut, w')
      else (.done (false, memory), w) := by
  rw [Prog.run_map, write_result hkeeps hvalid]
  rcases (operation memory).1 with e | result
  · rfl
  · rcases (persist serde (operation memory).2).run faults w with ⟨_ | _ | _, w'⟩ <;> rfl

/-- How a write operation of the source ends, by how its persist does. -/
theorem writeOperation_run (operation : RoomOperation) (hvalid : validateSnapshot memory = .ok ())
    (faults : List Fault) (w : World) :
    (writeOperation serde operation memory).run faults w =
      if operation.isOk memory then
        match (persist serde (operation.apply memory)).run faults w with
        | (.done _, w') => (.done (true, operation.apply memory), w')
        | (.error _, w') => (.done (false, memory), w')
        | (.cut, w') => (.cut, w')
      else (.done (false, memory), w) := by
  cases operation with
  | appendMessage draft => exact write_run (appendMessage_keepsOnError draft) hvalid faults w
  | createRoom draft => exact write_run (createRoom_keepsOnError draft) hvalid faults w
  | addRoomParticipant roomId participantId updatedAt =>
    exact write_run (addRoomParticipant_keepsOnError roomId participantId updatedAt) hvalid faults w
  | renameRoom roomId name updatedAt =>
    exact write_run (renameRoom_keepsOnError roomId name updatedAt) hvalid faults w
  | removeRoomParticipant roomId participantId updatedAt =>
    exact write_run (removeRoomParticipant_keepsOnError roomId participantId updatedAt) hvalid
      faults w
  | deleteRoom roomId updatedAt =>
    exact write_run (deleteRoom_keepsOnError roomId updatedAt) hvalid faults w

/-- A snapshot that is imported is settled. -/
theorem settled_of_importSnapshot {body : Bytes} {snapshot : RoomSnapshot}
    (h : importSnapshot serde body = .ok snapshot) : Settled snapshot := by
  unfold importSnapshot at h
  split at h
  · simp at h
  rename_i loaded hread
  split at h
  · simp at h
  rename_i owned migration hnormalize
  rcases hmerge : mergeBundledCatalog owned with ⟨merged, upgraded⟩
  simp only [hmerge] at h
  split at h
  · simp at h
  rename_i inner hnew
  obtain rfl : merged = snapshot := by simpa using h
  exact settled_of_migrations hnormalize hmerge (InMemoryRoomSource.valid_of_new hnew)

/-- How the end of a restore goes, by how its persist does. -/
theorem takeOver_run {snapshot : RoomSnapshot} (hsnapshot : validateSnapshot snapshot = .ok ())
    (hvalid : validateSnapshot memory = .ok ()) (faults : List Fault) (w : World) :
    (takeOver serde snapshot memory).run faults w =
      match (persist serde snapshot).run faults w with
      | (.done _, w') => (.done (.ok (), snapshot), w')
      | (.error _, w') => (.done (.error .io, memory), w')
      | (.cut, w') => (.cut, w') := by
  have hsettle : ∀ persisted : Except DesktopRoomPersistenceError Unit,
      (match persisted with
        | .ok () => pure (.ok (), snapshot)
        | .error _ =>
          match replaceSnapshot memory snapshot with
          | (.error _, memory) => pure (.error .invalidFile, memory)
          | (.ok (), memory) => pure (.error .io, memory) :
        RoomProg (Except DesktopRoomPersistenceError Unit × RoomSnapshot)) =
        pure (match persisted with
          | .ok () => (.ok (), snapshot)
          | .error _ => (.error .io, memory)) := by
    rintro (_ | _) <;> simp [replaceSnapshot_eq_ok hvalid]
  rw [takeOver, replaceSnapshot_eq_ok hsnapshot]
  dsimp only
  rw [Prog.run_bind_pure _ hsettle, Prog.run_attempt]
  rcases (persist serde snapshot).run faults w with ⟨_ | _ | _, w'⟩ <;> rfl

/-- The reading of a backup file changes nothing. -/
theorem readExternalSnapshot_wp (source : SnapshotSource) {done : RoomSnapshot → World → Prop}
    {error : DesktopRoomPersistenceError → World → Prop} {cut : World → Prop} {w : World}
    (hdone : ∀ snapshot, Settled snapshot → done snapshot w) (hrest : ∀ e, error e w ∧ cut w) :
    (readExternalSnapshot serde source).wp done error cut w := by
  simp only [readExternalSnapshot, Prog.wp_bind, Prog.wp_refuse, Prog.wp_ofOption, wp_quietStep,
    Prog.wp_ofExcept]
  refine ⟨fun _ => (hrest _).1,
    fun _ => ⟨fun body _ => ⟨⟨fun snapshot h => ?_, fun e _ => (hrest e).1⟩,
    hrest _⟩, fun _ => (hrest _).1⟩⟩
  exact hdone snapshot (settled_of_importSnapshot h)

/-- A restore takes over a settled snapshot, or it leaves what is in memory and what is in the
file. -/
theorem restoreSnapshot_wp (hserde : serde.RoundTrips) (source : SnapshotSource) {w : World}
    (h : Agrees serde memory w.dir) :
    (restoreSnapshot serde source memory).wp
      (fun result w' => Agrees serde result.2 w'.dir ∧
        (result.1.isOk = false → result.2 = memory) ∧ (Settled memory → Settled result.2))
      (fun _ _ => False) (fun w' => Agrees serde memory w'.dir) w := by
  simp only [restoreSnapshot, Prog.wp_bind, Prog.wp_attempt]
  refine readExternalSnapshot_wp source (fun snapshot hsettled => ?_)
    fun e => ⟨⟨h, fun _ => rfl, id⟩, h⟩
  have hsnapshot := validateSnapshot_eq_ok.mpr hsettled.valid
  simp only [takeOver, replaceSnapshot_eq_ok hsnapshot, replaceSnapshot_eq_ok h.valid,
    Prog.wp_bind, Prog.wp_attempt, Prog.wp_pure]
  refine Prog.wp_mono (fun _ w' hsaved => ?_) (fun e w' hkept => ?_) (fun w' hkept => ?_) _ _
    (persist_wp serde snapshot w)
  · exact ⟨⟨hsnapshot, .inl (holds_of_saved hserde hsnapshot hsaved)⟩, by simp [Except.isOk,
      Except.toBool], fun _ => hsettled⟩
  · exact ⟨h.kept hkept, fun _ => trivial, id⟩
  · exact h.kept hkept

end Writes

end Mio.Desktop.RoomSource
