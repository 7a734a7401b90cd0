import Mio.Desktop.RoomCommands
import Mio.Library.Numerals

/-!
# The backups of the Room store

`room_backup_commands.rs`: an export writes the snapshot in memory to a file whose name is the time
of the export, and a restore takes over the one of these files whose name is the greatest. A restore
runs the migrations of the start. What is in memory is settled, so they do not change a file that an
export wrote, and a restore of it gives the exported snapshot exactly (`restores_of_export`).

The time and what there is in the backup directory are arguments. The export takes and returns the
directory of its destination, with the temporary files and the backup beside it. The choice of the
backup directory and its settings are not modelled.
-/

namespace Mio.Desktop.RoomBackupCommands

open Library Mio.Core RoomSource
open RoomPersistence (RoomProg persist persist_wp Saved Holds)

/-! ## The commands -/

/-- The answer to a backup or a restore. -/
structure RoomBackupSuccess where
  fileName : String
  roomCount : ℕ
  deriving DecidableEq

/-- What is shown of the latest backup. -/
structure RoomBackupPreview where
  fileName : String
  roomCount : ℕ
  createdAtUnixMs : ℕ
  deriving DecidableEq

/-- An error as the application shows it. -/
structure RoomBackupCommandError where
  code : String
  message : String
  deriving DecidableEq

/-- How an error of the rooms' files is shown. -/
def mapError (_ : DesktopRoomPersistenceError) : RoomBackupCommandError :=
  ⟨"roomBackupUnavailable", "The Room backup could not be accessed."⟩

/-- The error of a folder or a name that cannot be used. -/
def invalidSettings : RoomBackupCommandError :=
  ⟨"roomBackupSettingsInvalid", "The Room backup settings are invalid."⟩

/-- What the checks ask of the path of the backup directory. -/
structure DirectoryPath where
  isAbsolute : Bool
  hasParent : Bool
  hasFileName : Bool
  /-- The path, where it is text. -/
  text : Option String
  deriving DecidableEq

/-- A name in the backup directory. -/
structure BackupEntry where
  /-- The name, where it is text. -/
  name : Option String
  /-- Its content, where it is that of a regular file. -/
  content : Option Bytes
  deriving DecidableEq

/-- The backup directory. -/
structure BackupDirectory where
  path : DirectoryPath
  /-- What is in it, where it is a directory that can be read. -/
  entries : Option (List BackupEntry)
  deriving DecidableEq

/-- Whether the backups may be in the folder. -/
def validDirectoryPath (path : DirectoryPath) : Bool :=
  path.isAbsolute && path.hasParent && path.hasFileName && path.text.any fun value =>
    !value.isEmpty && value.utf8ByteSize ≤ 32768 && !value.toList.any isControl

/-- The time in milliseconds, with leading zeros up to twenty digits. -/
def stampText (stamp : ℕ) : List Char :=
  List.replicate (20 - (Nat.toDigits 10 stamp).length) '0' ++ Nat.toDigits 10 stamp

/-- The name of a backup, by its time. -/
def backupFileName (stamp : ℕ) : String :=
  .ofList ("moe-room-backup-".toList ++ stampText stamp ++ ".json".toList)

/-- The file of an entry in the folder. -/
def backupFile (path : DirectoryPath) (entry : BackupEntry) : SnapshotSource where
  isAbsolute := path.isAbsolute
  fileName := entry.name
  content := entry.content

/-- A file's name between the prefix and the suffix of the backups. -/
def stripName (name : String) : Option (List Char) :=
  (name.toList.dropPrefix? "moe-room-backup-".toList).bind (·.dropSuffix? ".json".toList)

/-- Whether the time in a name has 20 digits. -/
def validStamp (stamp : List Char) : Bool := stamp.length == 20 && stamp.all Char.isDigit

/-- Whether the name is one of a backup. -/
def validBackupFileName (name : String) : Bool := (stripName name).any validStamp

/-- The time in a name, where it fits in 64 bits. -/
def backupStampFromPath (name : Option String) : Except RoomBackupCommandError ℕ :=
  match name with
  | none => .error invalidSettings
  | some name =>
    match (stripName name).filter validStamp with
    | none => .error invalidSettings
    | some stamp =>
      if Nat.ofDigitChars 10 stamp 0 < 2 ^ 64 then .ok (Nat.ofDigitChars 10 stamp 0)
      else .error invalidSettings

/-- The backups in a directory, by their names. -/
def namedBackups (entries : List BackupEntry) : List (String × BackupEntry) :=
  (entries.filter (·.content.isSome)).filterMap fun entry =>
    match entry.name with
    | none => none
    | some name => if validBackupFileName name then some (name, entry) else none

/-- The backup with the latest time in its name. -/
def latestBackup (directory : BackupDirectory) : Except RoomBackupCommandError BackupEntry :=
  if !validDirectoryPath directory.path then .error (mapError .io)
  else
    match directory.entries with
    | none => .error (mapError .io)
    | some entries =>
      match maxBy (compareOn (·.1)) (namedBackups entries) with
      | some (_, path) => .ok path
      | none => .error ⟨"roomBackupMissing", "No M.I.O. Room backup was found."⟩

section Code

variable (serde : Serde PersistedRoomFile)

/-- Writes the rooms to a file of the owner's choice. -/
def exportSnapshot (destination : SnapshotSource) (memory : RoomSnapshot) : RoomProg Unit := do
  Prog.refuse .invalidFile !(validExternalSnapshotPath destination)
  persist serde memory

/-- Writes a backup into the folder. -/
def exportRooms (path : DirectoryPath) (stamp : ℕ) (memory : RoomSnapshot) :
    RoomProg (Except RoomBackupCommandError RoomBackupSuccess) :=
  if !validDirectoryPath path then pure (.error invalidSettings)
  else do
    let fileName := backupFileName stamp
    let destination := backupFile path { name := some fileName, content := none }
    match ← (exportSnapshot serde destination memory).attempt with
    | .error e => pure (.error (mapError e))
    | .ok () => pure (.ok { fileName, roomCount := memory.rooms.length })

/-- The number of rooms in a file. -/
def inspectSnapshot (source : SnapshotSource) : RoomProg ℕ := do
  let snapshot ← readExternalSnapshot serde source
  pure snapshot.rooms.length

/-- What the latest backup holds. -/
def previewLatestRooms (directory : BackupDirectory) :
    RoomProg (Except RoomBackupCommandError RoomBackupPreview) :=
  match latestBackup directory with
  | .error e => pure (.error e)
  | .ok path => do
    match ← (inspectSnapshot serde (backupFile directory.path path)).attempt with
    | .error e => pure (.error (mapError e))
    | .ok roomCount =>
      match path.name with
      | none => pure (.error invalidSettings)
      | some fileName =>
        match backupStampFromPath path.name with
        | .error e => pure (.error e)
        | .ok createdAtUnixMs => pure (.ok { fileName, roomCount, createdAtUnixMs })

/-- Takes the rooms of the latest backup over, if it still is the selected one. -/
def restoreSelectedRooms (directory : BackupDirectory) (expectedFileName : String)
    (memory : RoomSnapshot) :
    RoomProg (Except RoomBackupCommandError RoomBackupSuccess × RoomSnapshot) :=
  if !validBackupFileName expectedFileName then pure (.error invalidSettings, memory)
  else
    match latestBackup directory with
    | .error e => pure (.error e, memory)
    | .ok path =>
      if path.name != some expectedFileName then
        pure (.error ⟨"roomBackupChanged",
          "The selected Room backup is no longer the latest backup."⟩, memory)
      else do
        match ← restoreSnapshot serde (backupFile directory.path path) memory with
        | (.error e, memory) => pure (.error (mapError e), memory)
        | (.ok (), memory) =>
          pure (.ok { fileName := expectedFileName, roomCount := memory.rooms.length }, memory)

end Code

/-! ## The latest backup -/

/-- The time that a backup's name tells. -/
def stampOf (name : String) : ℕ := ((stripName name).map (Nat.ofDigitChars 10 · 0)).getD 0

/-- A name has a time exactly when it is of the form of a backup's. -/
theorem stripName_eq_some {name : String} {stamp : List Char} :
    stripName name = some stamp ↔
      name.toList = "moe-room-backup-".toList ++ stamp ++ ".json".toList := by
  simp only [stripName, Option.bind_eq_some_iff, List.dropPrefix?_eq_some_iff,
    List.dropSuffix?_eq_some_iff, beq_iff_eq]
  constructor
  · rintro ⟨rest, ⟨_, hname, rfl⟩, _, rfl, rfl⟩
    rw [hname, List.append_assoc]
  · intro hname
    exact ⟨stamp ++ ".json".toList, ⟨_, by rw [hname, List.append_assoc], rfl⟩, _, rfl, rfl⟩

/-- A backup's name is one of twenty digits, between a fixed prefix and a fixed suffix. -/
theorem validBackupFileName_iff {name : String} :
    validBackupFileName name = true ↔
      ∃ stamp, stripName name = some stamp ∧ stamp.length = 20 ∧ AllDigits stamp := by
  simp only [validBackupFileName, Option.any_eq_true, validStamp, Bool.and_eq_true, beq_iff_eq,
    List.all_eq_true]
  rfl

/-- The names of backups are ordered as the times that they tell. -/
theorem compare_le_iff_stampOf_le {name other : String} (hname : validBackupFileName name = true)
    (hother : validBackupFileName other = true) :
    (compare other name).isLE = true ↔ stampOf other ≤ stampOf name := by
  obtain ⟨stamp, hstamp, hlength, hdigits⟩ := validBackupFileName_iff.mp hname
  obtain ⟨stamp', hstamp', hlength', hdigits'⟩ := validBackupFileName_iff.mp hother
  have hlt : name < other ↔ stampOf name < stampOf other := by
    rw [String.lt_iff_toList_lt, stripName_eq_some.mp hstamp, stripName_eq_some.mp hstamp',
      append_lt_append_iff (by rw [hlength, hlength']),
      lt_iff_ofDigitChars_lt hdigits hdigits' (by rw [hlength, hlength'])]
    simp [stampOf, hstamp, hstamp']
  have hgt : compare other name = .gt ↔ name < other := Std.LawfulLTCmp.eq_gt_iff_gt
  rw [← Ordering.ne_gt_iff_isLE, hgt, hlt]
  omega

/-- The times of the exports are in their files' names. -/
theorem backupFileName_spec {stamp : ℕ} (h : (stampText stamp).length = 20) :
    validBackupFileName (backupFileName stamp) = true ∧ stampOf (backupFileName stamp) = stamp := by
  have hstrip : stripName (backupFileName stamp) = some (stampText stamp) :=
    stripName_eq_some.mpr String.toList_ofList
  have hdigits : AllDigits (stampText stamp) := by
    intro c hc
    rw [stampText, List.mem_append, List.mem_replicate] at hc
    rcases hc with ⟨-, rfl⟩ | hdigit
    · rfl
    · exact Nat.isDigit_of_mem_toDigits (by decide) (by decide) hdigit
  refine ⟨validBackupFileName_iff.mpr ⟨_, hstrip, h, hdigits⟩, ?_⟩
  · rw [stampOf, hstrip, Option.map_some, Option.getD_some, stampText, Nat.ofDigitChars_append,
      Nat.ofDigitChars_replicate_zero, Nat.mul_zero,
      Nat.ofDigitChars_toDigits (by decide) (by decide)]

/-- The entry is a backup with the name. -/
structure IsBackup (entry : BackupEntry) (name : String) : Prop where
  named : entry.name = some name
  valid : validBackupFileName name = true
  isFile : entry.content.isSome = true

/-- The backups of a folder are its entries with such a name. -/
theorem mem_namedBackups {entries : List BackupEntry} {name : String} {entry : BackupEntry} :
    (name, entry) ∈ namedBackups entries ↔ entry ∈ entries ∧ IsBackup entry name := by
  simp only [namedBackups, List.mem_filterMap, List.mem_filter]
  constructor
  · rintro ⟨found, ⟨hmem, hfile⟩, hfound⟩
    split at hfound
    · cases hfound
    · next other hname =>
      split at hfound
      · next hvalid =>
        cases hfound
        exact ⟨hmem, hname, hvalid, hfile⟩
      · cases hfound
  · rintro ⟨hmem, hname, hvalid, hfile⟩
    exact ⟨entry, ⟨hmem, hfile⟩, by simp [hname, hvalid]⟩

/-- The latest backup is one of those in the directory, and none there tells a later time. -/
structure IsLatest (entries : List BackupEntry) (entry : BackupEntry) (name : String) : Prop where
  mem : entry ∈ entries
  isBackup : IsBackup entry name
  latest : ∀ other ∈ entries, ∀ otherName, IsBackup other otherName →
    stampOf otherName ≤ stampOf name

/-- The path of a restore's file asks for the name of a backup. -/
theorem validExternalSnapshotPath_eq (source : SnapshotSource) :
    validExternalSnapshotPath source =
      (source.isAbsolute && source.fileName.any validBackupFileName) := by
  unfold validExternalSnapshotPath
  congr 2
  funext name
  rw [validBackupFileName, stripName]
  rcases name.toList.dropPrefix? "moe-room-backup-".toList with _ | value
  · rfl
  · rw [Option.bind_some]
    dsimp only
    rcases value.dropSuffix? ".json".toList with _ | stamp <;> rfl

/-- A folder in which a backup is found has an absolute path. -/
theorem isAbsolute_of_latestBackup {directory : BackupDirectory} {entry : BackupEntry}
    (h : latestBackup directory = .ok entry) : directory.path.isAbsolute = true := by
  unfold latestBackup at h
  split at h
  · cases h
  next hpath =>
    simp only [validDirectoryPath, Bool.not_eq_true, Bool.not_eq_false', Bool.and_eq_true] at hpath
    exact hpath.1.1.1

/-- The backup that is found is the latest of the folder. -/
theorem latestBackup_spec {directory : BackupDirectory} {entry : BackupEntry}
    (h : latestBackup directory = .ok entry) :
    ∃ entries name, directory.entries = some entries ∧ IsLatest entries entry name := by
  unfold latestBackup at h
  split at h
  · cases h
  split at h
  · cases h
  rename_i entries hentries
  split at h
  · next name best hbest =>
    obtain rfl := Except.ok.inj h
    obtain ⟨hmem, hgreatest⟩ := maxBy_spec hbest
    obtain ⟨hmem, hbackup⟩ := mem_namedBackups.mp hmem
    refine ⟨entries, name, hentries, hmem, hbackup, fun other hother otherName hotherBackup => ?_⟩
    exact (compare_le_iff_stampOf_le hbackup.valid hotherBackup.valid).mp
      (hgreatest _ (mem_namedBackups.mpr ⟨hother, hotherBackup⟩))
  · cases h

/-- A latest backup is found wherever there is one. -/
theorem latestBackup_isOk {directory : BackupDirectory} {entries : List BackupEntry}
    (hpath : validDirectoryPath directory.path = true) (hentries : directory.entries = some entries)
    {entry : BackupEntry} (hmem : entry ∈ entries) {name : String} (h : IsBackup entry name) :
    ∃ latest, latestBackup directory = .ok latest := by
  have hnamed : (name, entry) ∈ namedBackups entries := mem_namedBackups.mpr ⟨hmem, h⟩
  rw [latestBackup, hpath, hentries]
  simp only [Bool.not_true, Bool.false_eq_true, if_false]
  rcases hbest : maxBy (compareOn (·.1)) (namedBackups entries) with _ | ⟨bestName, best⟩
  · rw [maxBy_eq_none.mp hbest] at hnamed
    cases hnamed
  · rw [hbest]
    exact ⟨best, rfl⟩

/-! ## Exports and restores -/

section Restores

variable {serde : Serde PersistedRoomFile} {memory : RoomSnapshot} {w : World}

variable (serde) in
/-- The content of a backup file for a snapshot. -/
def IsExport (snapshot : RoomSnapshot) (content : Bytes) : Prop :=
  serde.toVec { fileVersion := roomFileVersion, snapshot } = some content ∧
    content.length ≤ maximumRoomFileBytes

/-- An export that returns has written the snapshot to its file. -/
theorem exportRooms_done {path : DirectoryPath} {stamp : ℕ} {faults : List Fault} {w' : World}
    {success : RoomBackupSuccess}
    (h : (exportRooms serde path stamp memory).run faults w = (.done (.ok success), w')) :
    success = { fileName := backupFileName stamp, roomCount := memory.rooms.length } ∧
      ∃ content, IsExport serde memory content ∧ w'.dir .primary = some (.file content) := by
  have hends : (exportRooms serde path stamp memory).wp
      (fun result w' => ∀ success, result = .ok success →
        success = { fileName := backupFileName stamp, roomCount := memory.rooms.length } ∧
          Saved serde memory w w') (fun _ _ => True) (fun _ => True) w := by
    unfold exportRooms
    split
    · simp
    · simp only [exportSnapshot, Prog.wp_bind, Prog.wp_attempt, Prog.wp_refuse, Prog.wp_pure]
      refine ⟨fun _ => by simp, fun _ => ?_⟩
      refine Prog.wp_mono (fun _ w1 hsaved => ?_) (fun e w1 _ => by simp) (fun _ _ => trivial) _ _
        (persist_wp serde memory w)
      rintro success ⟨⟩
      exact ⟨rfl, hsaved⟩
  have hrun := Prog.run_wp _ faults w hends
  rw [h] at hrun
  obtain ⟨hsuccess, content, hvec, hsize, hreplaced⟩ := hrun success rfl
  exact ⟨hsuccess, content, ⟨hvec, hsize⟩, hreplaced.primary⟩

/-- What an export of a settled snapshot has written is imported as it is. -/
theorem importSnapshot_export (hserde : serde.RoundTrips) (h : Settled memory) {content : Bytes}
    (hexport : IsExport serde memory content) : importSnapshot serde content = .ok memory := by
  have hvalid := validateSnapshot_eq_ok.mpr h.valid
  have hdecode := RoomPersistence.decodeRoomFile_toVec hserde hvalid hexport.1 hexport.2
  simp [importSnapshot, hdecode, h.normalize, h.merge, InMemoryRoomSource.new_eq_ok hvalid]

/-- A restore takes over what it imports and has persisted it, or it leaves what was in memory and
what a reader of the room file finds. -/
theorem restoreSnapshot_ends (hvalid : validateSnapshot memory = .ok ()) (source : SnapshotSource) :
    (restoreSnapshot serde source memory).wp
      (fun result w' =>
        (result.1 = .ok () → ∃ content, source.content = some content ∧
          importSnapshot serde content = .ok result.2 ∧ Saved serde result.2 w w') ∧
        ∀ e, result.1 = .error e → result.2 = memory ∧ World.Kept w w')
      (fun _ _ => False) (World.Kept w) w := by
  have hkept : World.Kept w w := .refl w
  simp only [restoreSnapshot, readExternalSnapshot, Prog.wp_bind, Prog.wp_attempt, Prog.wp_refuse,
    Prog.wp_ofOption, wp_quietStep, Prog.wp_ofExcept, Prog.wp_pure, reduceCtorEq, false_implies,
    true_and, hkept, and_true, implies_true]
  refine fun _ content hcontent snapshot himport => ?_
  have hsnapshot := validateSnapshot_eq_ok.mpr (settled_of_importSnapshot himport).valid
  simp only [takeOver, replaceSnapshot_eq_ok hsnapshot, replaceSnapshot_eq_ok hvalid,
    Prog.wp_bind, Prog.wp_attempt, Prog.wp_pure]
  refine Prog.wp_mono (fun _ w' hsaved => ?_) (fun e w' hkept => ?_) (fun w' hkept => hkept) _ _
    (persist_wp serde snapshot w)
  · refine ⟨fun _ => ⟨content, hcontent, himport, hsaved⟩, ?_⟩
    rintro _ ⟨⟩
  · refine ⟨?_, fun _ _ => ⟨trivial, hkept⟩⟩
    rintro ⟨⟩

/-- Past the step that opens the file, only a failed persist makes a restore fail. -/
theorem restoreSnapshot_returns (hvalid : validateSnapshot memory = .ok ())
    {source : SnapshotSource} {content : Bytes} {snapshot : RoomSnapshot} {faults : List Fault}
    {w' : World} (hpath : validExternalSnapshotPath source = true)
    (hcontent : source.content = some content)
    (himport : importSnapshot serde content = .ok snapshot)
    (hpersist : (persist serde snapshot).run faults w = (.done (), w')) :
    (restoreSnapshot serde source memory).run (.proceed :: faults) w =
      (.done (.ok (), snapshot), w') := by
  have hsnapshot := validateSnapshot_eq_ok.mpr (settled_of_importSnapshot himport).valid
  have hread : (restoreSnapshot serde source memory).run (.proceed :: faults) w =
      (takeOver serde snapshot memory).run faults w := by
    simp only [restoreSnapshot, readExternalSnapshot, hpath, hcontent, Bool.not_true]
    simp only [Prog.refuse_bind, Bool.false_eq_true, if_false, Prog.ofOption_bind, Option.elim,
      quietStep, dirStep, Prog.tryStep_bind, himport]
    rfl
  rw [hread, takeOver_run hsnapshot hvalid, hpersist]

/-- How a restore of a selected backup ends. -/
structure RestoreEnds (serde : Serde PersistedRoomFile) (directory : BackupDirectory)
    (fileName : String) (memory : RoomSnapshot) (w : World)
    (result : Except RoomBackupCommandError RoomBackupSuccess × RoomSnapshot) (w' : World) :
    Prop where
  /-- It has taken over what the latest backup holds, and this is the selected one. -/
  restored : ∀ success, result.1 = .ok success → ∃ entry content,
    latestBackup directory = .ok entry ∧ entry.name = some fileName ∧
    entry.content = some content ∧ importSnapshot serde content = .ok result.2 ∧
    Saved serde result.2 w w' ∧ success = { fileName, roomCount := result.2.rooms.length }
  /-- Or it leaves what was in memory, and what a load of the room file finds. -/
  refused : ∀ e, result.1 = .error e → result.2 = memory ∧ w'.dir.current = w.dir.current

/-- How a restore can end, under any faults. -/
theorem restoreSelectedRooms_ends (hvalid : validateSnapshot memory = .ok ())
    (directory : BackupDirectory) (fileName : String) :
    (restoreSelectedRooms serde directory fileName memory).wp
      (RestoreEnds serde directory fileName memory w) (fun _ _ => False) (World.Kept w) w := by
  have hrefused : ∀ e, RestoreEnds serde directory fileName memory w (.error e, memory) w :=
    fun e => ⟨by rintro _ ⟨⟩, fun _ _ => ⟨rfl, rfl⟩⟩
  unfold restoreSelectedRooms
  split
  · exact hrefused _
  split
  · exact hrefused _
  rename_i entry hlatest
  split
  · exact hrefused _
  rename_i hname
  have hname : entry.name = some fileName := by simpa using hname
  simp only [Prog.wp_bind]
  refine Prog.wp_mono ?_ (fun _ _ h => h) (fun _ h => h) _ _ (restoreSnapshot_ends hvalid _)
  rintro ⟨_ | _, after⟩ w' ⟨hok, herror⟩
  · obtain ⟨hsame, hkept⟩ := herror _ rfl
    refine ⟨?_, fun _ _ => ⟨hsame, hkept.current⟩⟩
    rintro _ ⟨⟩
  · obtain ⟨content, hcontent, himport, hsaved⟩ := hok rfl
    refine ⟨fun success h => ?_, by rintro _ ⟨⟩⟩
    exact ⟨entry, content, hlatest, hname, hcontent, himport, hsaved, (Except.ok.inj h).symm⟩

end Restores

/-! ## Runs -/

/-- In the directory, the file with this name has this content. -/
def Lists (directory : BackupDirectory) (fileName : String) (content : Bytes) : Prop :=
  ∀ entries, directory.entries = some entries → ∀ entry ∈ entries, entry.name = some fileName →
    entry.content = some content

/-- What a restore of a backup file for the snapshot does. -/
structure Restores (serde : Serde PersistedRoomFile) (snapshot : RoomSnapshot) (fileName : String)
    (content : Bytes) (memory : RoomSnapshot) (w : World) : Prop where
  /-- When it returns, the snapshot is in memory and in the room file. -/
  exact : ∀ directory faults success after w', Lists directory fileName content →
    (restoreSelectedRooms serde directory fileName memory).run faults w =
      (.done (.ok success, after), w') →
    after = snapshot ∧ w'.dir .primary = some (.file content) ∧
      Holds serde w'.dir (some snapshot) ∧
      success = { fileName, roomCount := snapshot.rooms.length }
  /-- It returns where this is the latest backup, and the file can be read and the snapshot
  persisted. -/
  returns : ∀ directory entry faults w', Lists directory fileName content →
    latestBackup directory = .ok entry → entry.name = some fileName →
    (persist serde snapshot).run faults w = (.done (), w') →
    (restoreSelectedRooms serde directory fileName memory).run (.proceed :: faults) w =
      (.done (.ok { fileName, roomCount := snapshot.rooms.length }, snapshot), w')

/-- A restore that returns an error leaves the snapshot in memory, and what a load of the room file
finds. So the primary is as it was, or it is gone and its content is the backup, or it is what the
backup was, where there was only a backup. -/
structure RestoreKeeps (memory : RoomSnapshot) (before : World) (after : RoomSnapshot)
    (w' : World) : Prop where
  memory : after = memory
  current : w'.dir.current = before.dir.current
  primary : w'.dir .primary = before.dir .primary ∨
    w'.dir .primary = none ∧ w'.dir .backup = before.dir .primary ∨
    before.dir .primary = none ∧ w'.dir .primary = before.dir .backup

/-- What a reader finds is in the primary file, or else in the backup. -/
theorem primary_of_current {before after : Directory} (h : after.current = before.current) :
    after .primary = before .primary ∨
      after .primary = none ∧ after .backup = before .primary ∨
      before .primary = none ∧ after .primary = before .backup := by
  rcases hafter : after .primary with _ | node
  · rcases hbefore : before .primary with _ | old
    · exact .inl rfl
    · rw [Directory.current_of_no_primary hafter, Directory.current_of_primary hbefore] at h
      exact .inr (.inl ⟨rfl, h⟩)
  · rcases hbefore : before .primary with _ | old
    · rw [Directory.current_of_primary hafter, Directory.current_of_no_primary hbefore] at h
      exact .inr (.inr ⟨rfl, h⟩)
    · rw [Directory.current_of_primary hafter, Directory.current_of_primary hbefore] at h
      exact .inl h

section Runs

variable {serde : Serde PersistedRoomFile}

/-- A file that an export of a settled snapshot has written is restored exactly. -/
theorem restores_of_export (hserde : serde.RoundTrips) {snapshot memory : RoomSnapshot} {w : World}
    (hsettled : Settled snapshot) (hvalid : validateSnapshot memory = .ok ()) {fileName : String}
    {content : Bytes} (hexport : IsExport serde snapshot content) :
    Restores serde snapshot fileName content memory w := by
  have himport := importSnapshot_export hserde hsettled hexport
  refine ⟨fun directory faults success after w' hlists hrun => ?_,
    fun directory entry faults w' hlists hlatest hname hpersist => ?_⟩
  · have hends := Prog.run_wp _ faults w
      (@restoreSelectedRooms_ends serde _ _ hvalid directory fileName)
    -- A restore that succeeds has read the latest backup, which is the one with this name.
    rw [hrun] at hends
    obtain ⟨entry, found, hlatest, hname, hfound, hafter, hsaved, hsuccess⟩ :=
      hends.restored success rfl
    obtain ⟨entries, name, hentries, hbest⟩ := latestBackup_spec hlatest
    have hcontent := hlists entries hentries entry hbest.mem hname
    rw [hfound, Option.some.injEq] at hcontent
    subst hcontent
    rw [himport, Except.ok.injEq] at hafter
    subst hafter
    -- Its content is the export, so the import gives the snapshot, and the file holds that.
    have hsnapshot := validateSnapshot_eq_ok.mpr hsettled.valid
    have hholds := holds_of_saved hserde hsnapshot hsaved
    obtain ⟨body, hvec, -, hreplaced⟩ := hsaved
    obtain rfl : body = found := Option.some.inj (hvec.symm.trans hexport.1)
    exact ⟨rfl, hreplaced.primary, hholds, hsuccess⟩
  -- In the other direction, the latest backup has the name that was asked for.
  · obtain ⟨entries, name, hentries, hbest⟩ := latestBackup_spec hlatest
    have hcontent := hlists entries hentries entry hbest.mem hname
    obtain rfl : name = fileName :=
      Option.some.inj (hbest.isBackup.named.symm.trans hname)
    have hpath : validExternalSnapshotPath (backupFile directory.path entry) = true := by
      rw [validExternalSnapshotPath_eq]
      simp [backupFile, isAbsolute_of_latestBackup hlatest, hname, hbest.isBackup.valid]
    have hrun := restoreSnapshot_returns hvalid hpath hcontent himport hpersist
    have hanswer : ∀ result : Except DesktopRoomPersistenceError Unit × RoomSnapshot,
        (match result with
          | (.error e, memory) => pure (.error (mapError e), memory)
          | (.ok (), memory) =>
            pure (.ok { fileName := name, roomCount := memory.rooms.length }, memory) :
          RoomProg (Except RoomBackupCommandError RoomBackupSuccess × RoomSnapshot)) =
        pure (match result with
          | (.error e, memory) => (.error (mapError e), memory)
          | (.ok (), memory) =>
            (.ok { fileName := name, roomCount := memory.rooms.length }, memory)) := by
      rintro ⟨_ | _, after⟩ <;> rfl
    simp only [restoreSelectedRooms, hbest.isBackup.valid, hlatest, hname, Bool.not_true,
      Bool.false_eq_true, if_false, bne_self_eq_false]
    rw [Prog.run_bind_pure _ hanswer, hrun]

/-- What a preview offers is the latest backup. -/
theorem previewLatestRooms_done {directory : BackupDirectory} {preview : RoomBackupPreview}
    {faults : List Fault} {w w' : World}
    (h : (previewLatestRooms serde directory).run faults w = (.done (.ok preview), w')) :
    ∃ entries entry, directory.entries = some entries ∧
      IsLatest entries entry preview.fileName ∧
      preview.createdAtUnixMs = stampOf preview.fileName := by
  have hends : (previewLatestRooms serde directory).wp
      (fun result _ => ∀ preview, result = .ok preview → ∃ entry,
        latestBackup directory = .ok entry ∧ entry.name = some preview.fileName ∧
        backupStampFromPath entry.name = .ok preview.createdAtUnixMs)
      (fun _ _ => True) (fun _ => True) w := by
    unfold previewLatestRooms
    split
    · simp
    rename_i entry hlatest
    have hread : (readExternalSnapshot serde (backupFile directory.path entry)).wp
        (fun _ _ => True) (fun _ _ => True) (fun _ => True) w :=
      readExternalSnapshot_wp _ (fun _ _ => trivial) fun _ => ⟨trivial, trivial⟩
    simp only [inspectSnapshot, Prog.wp_bind, Prog.wp_attempt, Prog.wp_pure]
    refine Prog.wp_mono (fun snapshot _ _ => ?_) (fun e _ _ => by simp) (fun _ h => h) _ _ hread
    split
    · simp
    rename_i fileName hname
    split
    · simp
    rename_i created hstamp
    rw [Prog.wp_pure]
    rintro preview ⟨⟩
    exact ⟨entry, hlatest, hname, hstamp⟩
  have hrun := Prog.run_wp _ faults w hends
  -- The preview is of the latest backup, and its time is that of the name.
  rw [h] at hrun
  obtain ⟨entry, hlatest, hname, hstamp⟩ := hrun preview rfl
  obtain ⟨entries, name, hentries, hbest⟩ := latestBackup_spec hlatest
  obtain rfl : name = preview.fileName := Option.some.inj (hbest.isBackup.named.symm.trans hname)
  refine ⟨entries, entry, hentries, hbest, ?_⟩
  rw [hname, backupStampFromPath] at hstamp
  rw [stampOf]
  rcases hstrip : stripName preview.fileName with _ | stamp
  · simp [hstrip] at hstamp
  · simp only [hstrip, Option.filter] at hstamp
    split at hstamp
    · cases hstamp
    · next found hfound =>
      split_ifs at hfound hstamp
      cases hfound
      exact (Except.ok.inj hstamp).symm

end Runs

/-- In every run of the Room commands, from any start that returns: a backup that was exported in
one state is restored exactly in any later one, a restore that returns an error keeps what there
was, and the backup that is offered is the one with the latest time. -/
theorem backups_restore {serde : Serde PersistedRoomFile} (hserde : serde.RoundTrips) {w0 w : World}
    {startFaults : List Fault} {memory : RoomSnapshot}
    (hstart : (start serde).run startFaults w0 = (.done memory, w))
    (before after : List RoomCommands.Event) :
    let exported := RoomCommands.run serde before { memory, world := w, running := true }
    let later := RoomCommands.run serde after exported
    (∀ path stamp faults wd success wd',
      (exportRooms serde path stamp exported.memory).run faults wd = (.done (.ok success), wd') →
      ∃ content, wd'.dir .primary = some (.file content) ∧
        Restores serde exported.memory success.fileName content later.memory later.world) ∧
    (∀ directory fileName faults e kept w',
      (restoreSelectedRooms serde directory fileName later.memory).run faults later.world =
        (.done (.error e, kept), w') → RestoreKeeps later.memory later.world kept w') ∧
    ∀ directory preview faults wd wd',
      (previewLatestRooms serde directory).run faults wd = (.done (.ok preview), wd') →
      ∃ entries entry, directory.entries = some entries ∧
        IsLatest entries entry preview.fileName ∧
        preview.createdAtUnixMs = stampOf preview.fileName := by
  intro exported later
  have hends := Prog.run_wp _ startFaults w0 (start_wp hserde w0)
  rw [hstart] at hends
  -- Both before the export and after it, the file and the memory agree.
  obtain ⟨hsettled, hagrees⟩ : Settled exported.memory ∧
      Agrees serde exported.memory exported.world.dir := by
    exact @RoomCommands.run_settled serde hserde { memory, world := w, running := true } hends.1
      hends.2 before
  obtain ⟨hlater, -⟩ := RoomCommands.run_settled hserde hsettled hagrees after
  have hvalid := validateSnapshot_eq_ok.mpr hlater.valid
  refine ⟨fun path stamp faults wd success wd' hexport => ?_,
    fun directory fileName faults e kept w' hrun => ?_,
    fun directory preview faults wd wd' hpreview => previewLatestRooms_done hpreview⟩
  · obtain ⟨-, content, hcontent, hprimary⟩ := exportRooms_done hexport
    exact ⟨content, hprimary, restores_of_export hserde hsettled hvalid hcontent⟩
  -- A restore that answers with an error leaves the memory and what the file has.
  · have hrestore := Prog.run_wp _ faults later.world
      (@restoreSelectedRooms_ends serde _ _ hvalid directory fileName)
    rw [hrun] at hrestore
    obtain ⟨hkept, hcurrent⟩ := hrestore.refused e rfl
    exact ⟨hkept, hcurrent, primary_of_current hcurrent⟩

namespace Sample

open RoomPersistence.Sample (body)

/-- A directory with one backup, of the snapshot with the renamed room. -/
def directory : BackupDirectory where
  path := { isAbsolute := true, hasParent := true, hasFileName := true, text := some "/backups" }
  entries := some [{ name := some (backupFileName 1), content := some (body renamedSnapshot) }]

/-- The state after a room was renamed. -/
def state : State :=
  RoomCommands.run (RoomPersistence.Sample.serde [renamedSnapshot])
    [.command (.renameRoom "mcp-lab" "Lab" (some "2026-08-13T00:00:00.000Z")) []]
    { memory := bundledSnapshot, world := .empty 7, running := true }

/-- The rename of the temporary file fails, and so does the one that takes the backup back. -/
theorem restore_loses_primary :
    let ended := (restoreSelectedRooms (RoomPersistence.Sample.serde [renamedSnapshot]) directory
      (backupFileName 1) state.memory).run (List.replicate 6 .proceed ++ [.fail 0, .fail 0])
        state.world
    ended.1 = .done (.error (mapError .io), state.memory) ∧
      state.world.dir .primary = some (.file (body renamedSnapshot)) ∧
      ended.2.dir .primary = none := by
  decide +kernel

/-- A backup is written; after a cut start and a whole one it is restored. -/
theorem backups_restore_sample :
    let serde := RoomPersistence.Sample.serde [renamedSnapshot]
    let exported := (exportRooms serde directory.path 1 state.memory).run [] (.empty 7)
    let later := RoomCommands.run serde [.restart 8 [.cut 0], .restart 9 []] state
    exported.1 = .done (.ok { fileName := backupFileName 1, roomCount := 3 }) ∧
      ∃ content, exported.2.dir .primary = some (.file content) ∧
        Restores serde state.memory (backupFileName 1) content later.memory later.world := by
  intro serde exported later
  have hdone : exported.1 = .done (.ok { fileName := backupFileName 1, roomCount := 3 }) := by
    decide +kernel
  have hserde : serde.RoundTrips := RoomPersistence.Sample.serde_roundTrips (by decide) (by decide)
  have hstart := (start_run (w := World.empty 7) bundledSnapshot_settled
    (agrees_first serde rfl rfl)).2
  have hlaws := backups_restore hserde hstart
    [.command (.renameRoom "mcp-lab" "Lab" (some "2026-08-13T00:00:00.000Z")) []]
    [.restart 8 [.cut 0], .restart 9 []]
  have hexported : exported =
      (.done (.ok { fileName := backupFileName 1, roomCount := 3 }), exported.2) := by
    rw [← hdone]
  exact ⟨hdone, hlaws.1 directory.path 1 [] (.empty 7)
    { fileName := backupFileName 1, roomCount := 3 } exported.2 hexported⟩

end Sample

end Mio.Desktop.RoomBackupCommands
