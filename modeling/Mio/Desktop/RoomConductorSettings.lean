import Mio.Desktop.JsonStore
import Mio.Library.Collect
import Mio.Library.Serde

/-!
# The settings of the conductors

The store of `room_conductor_settings.rs` remembers which participant conducts a room, and how a
message there is sent. Its `persist` is that of the orchestration ledger but for one step: a primary
that cannot be read is removed, where the ledger refuses. A read can also fail for a while, of a
file that is as it should be. A persist whose read fails, and which is then stopped at its last
rename, has by then removed the state (`Exposes`). Every other persist saves the new state or keeps
what a reader finds (`persist_ends`).

The path is given, and the errors for a poisoned lock do not occur.
-/

namespace Mio.Desktop.RoomConductorSettings

open Library Std

/-- The version of the file. -/
def fileVersion : UInt8 := 1

/-- The greatest size of the file, in bytes. -/
def maximumFileBytes : ℕ := 256 * 1024

/-- The greatest number of rooms in the file. -/
def maximumRoomSettings : ℕ := 1000

/-! ## The data -/

/-- Where the messages of a room go: to their recipients, or to the conductor. -/
inductive ConductorSendMode where
  | direct
  | conductor
  deriving DecidableEq

/-- The settings of a room, as they are shown. -/
structure RoomConductorStatus where
  ok : Bool
  roomId : String
  conductorId : Option String
  sendMode : ConductorSendMode
  deriving DecidableEq

namespace RoomConductorStatus

/-- The status of a room without a conductor. -/
def direct (roomId : String) : RoomConductorStatus where
  ok := true
  roomId := roomId
  conductorId := none
  sendMode := .direct

end RoomConductorStatus

/-- The settings of a room that has a conductor. -/
structure PersistedRoomConductor where
  roomId : String
  conductorId : String
  sendMode : ConductorSendMode
  deriving DecidableEq

namespace PersistedRoomConductor

/-- The settings as they are shown. -/
def status (room : PersistedRoomConductor) : RoomConductorStatus where
  ok := true
  roomId := room.roomId
  conductorId := some room.conductorId
  sendMode := room.sendMode

end PersistedRoomConductor

/-- The file. -/
structure PersistedFile where
  fileVersion : UInt8
  rooms : List PersistedRoomConductor
  deriving DecidableEq

/-- An error as the application shows it. -/
structure RoomConductorSettingsError where
  code : String
  message : String
  deriving DecidableEq

/-- The error of a call or a file that is not well formed. -/
def invalid : RoomConductorSettingsError where
  code := "invalidRoomConductorSettings"
  message := "The Room conductor settings are invalid."

/-- The error of a file that could not be read or written. -/
def unavailable : RoomConductorSettingsError where
  code := "roomConductorSettingsUnavailable"
  message := "The Room conductor settings are temporarily unavailable."

/-- The error of a room without a conductor. -/
def notConfigured : RoomConductorSettingsError where
  code := "roomConductorNotConfigured"
  message := "This Room does not have a configured conductor."

/-- The settings, by room. -/
abbrev Rooms := ExtTreeMap String PersistedRoomConductor

/-! ## The file -/

/-- Whether an identifier of a room or a conductor may be saved. -/
def validIdentifier : String → Bool :=
  boundedBytes 128 fun index byte =>
    isAsciiAlphanumeric byte || (byte == 0x2e || byte == 0x5f || byte == 0x2d) && 0 < index

/-- The check of `validate_room_setting`. -/
def validRoomSetting (room : PersistedRoomConductor) : Bool :=
  validIdentifier room.roomId && validIdentifier room.conductorId

/-- The file of the settings. -/
def toPersisted (rooms : Rooms) : PersistedFile where
  fileVersion := fileVersion
  rooms := rooms.toList.map (·.2)

/-- The entry for a row of the file, when the room passes its check. -/
def persistedEntry (room : PersistedRoomConductor) : Option (String × PersistedRoomConductor) :=
  if validRoomSetting room then some (room.roomId, room) else none

/-- The settings of a file; one bad entry refuses it. -/
def ofPersisted (persisted : PersistedFile) : Option Rooms :=
  if persisted.fileVersion != fileVersion || maximumRoomSettings < persisted.rooms.length then none
  else collect persistedEntry persisted.rooms ∅

/-- The programs of this module. -/
abbrev SettingsProg := Prog World RoomConductorSettingsError

section File

variable (serde : Serde PersistedFile)

/-- Reads and decodes one file. -/
def readFile (path : Sibling) : SettingsProg PersistedFile := do
  Prog.refuse invalid !(← pathIsFile path)
  let body ← readToEnd unavailable path
  Prog.refuse invalid (body.isEmpty || maximumFileBytes < body.length)
  Prog.ofOption invalid (serde.fromSlice body)

/-- The primary, or where it cannot be read the backup. -/
def readEither : SettingsProg PersistedFile := do
  match ← (readFile serde .primary).attempt with
  | .ok persisted => pure persisted
  | .error _ => readFile serde .backup

/-- Reads the settings; without any file there are none. -/
def load : SettingsProg Rooms := do
  if !(← pathExists .primary) && !(← pathExists .backup) then pure ∅
  else
    let persisted ← readEither serde
    Prog.ofOption invalid (ofPersisted persisted)

/-- Make the primary the backup, or remove it where it cannot be read. -/
def setAside : SettingsProg Unit := do
  if ← pathExists .primary then
    Prog.refuse invalid !(← pathIsFile .primary)
    match ← (readFile serde .primary).attempt with
    | .ok _ =>
      if ← pathExists .backup then
        removeFile unavailable .backup
      renameFile unavailable .primary .backup
    | .error _ => removeFile unavailable .primary

/-- Write the temporary file, and put it in the place of the primary. -/
def replaceFile (temp : Sibling) (body : Bytes) : SettingsProg Unit := do
  createNew unavailable temp
  writeTemp unavailable temp body
  Prog.refuse invalid ((← pathExists .backup) && !(← pathIsFile .backup))
  setAside serde
  renameTemp unavailable temp

/-- Writes the settings, and sets the old file aside as the backup. -/
def persist (rooms : Rooms) : SettingsProg Unit := do
  Prog.refuse invalid (maximumRoomSettings < rooms.size)
  quietStep unavailable
  Prog.refuse invalid ((← pathExists .primary) && !(← pathIsFile .primary))
  let body ← Prog.ofOption invalid (serde.toVec (toPersisted rooms))
  Prog.refuse invalid (maximumFileBytes < body.length)
  let sequence ← fetchAdd
  let temp ← Prog.gets fun w => Sibling.temp w.pid sequence
  -- An error removes the temporary file (`TempGuard`).
  Prog.onError (removeFile unavailable temp) (replaceFile serde temp body)

end File

/-! ## The operations -/

/-- The running settings, and the directory that their file is in. -/
structure DesktopRoomConductorSettings where
  rooms : Rooms
  world : World

section Operations

variable (serde : Serde PersistedFile) (faults : List Fault)

/-- Persist the rooms and, once they are persisted, take them over. -/
def commit (next : Rooms) (status : RoomConductorStatus) (settings : DesktopRoomConductorSettings) :
    Outcome RoomConductorSettingsError RoomConductorStatus × DesktopRoomConductorSettings :=
  match (persist serde next).run faults settings.world with
  | (.done (), world) => (.done status, { rooms := next, world })
  | (.error e, world) => (.error e, { settings with world })
  | (.cut, world) => (.cut, { settings with world })

/-- Sets the conductor of a room; the same one keeps its send mode. -/
def setConductor (roomId conductorId : String) (settings : DesktopRoomConductorSettings) :
    Outcome RoomConductorSettingsError RoomConductorStatus × DesktopRoomConductorSettings :=
  if !validIdentifier roomId || !validIdentifier conductorId then (.error invalid, settings)
  else
    let room : PersistedRoomConductor := { roomId, conductorId, sendMode := .conductor }
    match settings.rooms[roomId]? with
    | some current =>
      if current.conductorId == conductorId then
        (.done { ok := true, roomId, conductorId, sendMode := current.sendMode }, settings)
      else commit serde faults (settings.rooms.insert roomId room) room.status settings
    | none => commit serde faults (settings.rooms.insert roomId room) room.status settings

/-- Sets the send mode of a room that has a conductor. -/
def setMode (roomId : String) (sendMode : ConductorSendMode)
    (settings : DesktopRoomConductorSettings) :
    Outcome RoomConductorSettingsError RoomConductorStatus × DesktopRoomConductorSettings :=
  if !validIdentifier roomId then (.error invalid, settings)
  else
    match settings.rooms[roomId]? with
    | none => (.error notConfigured, settings)
    | some current =>
      if current.sendMode == sendMode then (.done current.status, settings)
      else
        let updated := { current with sendMode }
        commit serde faults (settings.rooms.insert roomId updated) updated.status settings

/-- Takes the conductor of a room away. -/
def clear (roomId : String) (settings : DesktopRoomConductorSettings) :
    Outcome RoomConductorSettingsError RoomConductorStatus × DesktopRoomConductorSettings :=
  if !validIdentifier roomId then (.error invalid, settings)
  else if !settings.rooms.contains roomId then (.done (.direct roomId), settings)
  else commit serde faults (settings.rooms.erase roomId) (.direct roomId) settings

end Operations

/-! ## What a persist leaves -/

/-- The persist of some rooms has returned. -/
@[mk_iff]
structure Saved (serde : Serde PersistedFile) (rooms : Rooms) (after : World) : Prop where
  size : rooms.size ≤ maximumRoomSettings
  regular : after.dir.Regular
  current : ∃ body, serde.toVec (toPersisted rooms) = some body ∧ body.length ≤ maximumFileBytes ∧
    after.dir.current = some (.file body)

/-- A persist that loses the state. It gets to the read of the primary, its fifth step, which fails,
it removes the primary, and it is stopped at the last rename. -/
structure Exposes (serde : Serde PersistedFile) (rooms : Rooms) (faults : List Fault) (w : World) :
    Prop where
  size : rooms.size ≤ maximumRoomSettings
  primary : w.dir.isFile .primary = true
  body : ∃ body, serde.toVec (toPersisted rooms) = some body ∧ body.length ≤ maximumFileBytes
  temp : w.dir (.temp w.pid w.sequence) = none
  faults : ∃ (progress : ℕ) (fault : Fault) (rest : List Fault), fault ≠ .proceed ∧
    faults = List.replicate 4 .proceed ++ .fail progress :: .proceed :: fault :: rest

section Specs

variable {serde : Serde PersistedFile}

/-- What is read from a file, once it is open. -/
def contentOf (serde : Serde PersistedFile) :
    Option Node → Except RoomConductorSettingsError PersistedFile
  | some (.file body) =>
    if body.isEmpty || maximumFileBytes < body.length then .error invalid
    else
      match serde.fromSlice body with
      | some persisted => .ok persisted
      | none => .error invalid
  | _ => .error unavailable

/-- The read of a file, with its one step in front. -/
theorem readFile_eq (path : Sibling) :
    readFile serde path = .read fun w =>
      if w.dir.isFile path then
        .step some (fun _ w => w) fun taken =>
          if taken then .read fun w => Prog.ofExcept (contentOf serde (w.dir path))
          else Prog.throw unavailable
      else Prog.throw invalid := by
  simp only [readFile, pathIsFile, readToEnd, quietStep, dirStep, Prog.gets_bind, Prog.read_bind,
    Prog.step_bind, Prog.refuse_bind, Prog.tryStep_bind, Prog.ite_bind, Prog.throw_bind]
  congr 1
  funext w
  rcases w.dir.isFile path with _ | _
  -- A file that is not there is refused before it is opened.
  · rfl
  · show Prog.step _ _ _ = Prog.step _ _ _
    congr 1
    funext taken
    -- The step may fail; it changes nothing.
    cases taken with
    | false => rfl
    | true =>
      show Prog.read _ = Prog.read _
      congr 1
      funext w
      rcases w.dir path with _ | body | _
      · rfl
      · dsimp only
        rw [pure_bind, contentOf]
        split
        · rfl
        · rcases serde.fromSlice body with _ | persisted <;> rfl
      · rfl

/-- The same for an attempt. -/
theorem attempt_readFile_bind {α : Type} (path : Sibling)
    (next : Except RoomConductorSettingsError PersistedFile → SettingsProg α) :
    (readFile serde path).attempt >>= next =
      .read fun w =>
        if w.dir.isFile path then
          .step some (fun _ w => w) fun taken =>
            if taken then .read fun w => next (contentOf serde (w.dir path))
            else next (.error unavailable)
        else next (.error invalid) := by
  -- An answer that is there already is attempted as it is.
  have hexcept : ∀ result : Except RoomConductorSettingsError PersistedFile,
      (Prog.ofExcept result : SettingsProg PersistedFile).attempt = pure result := by
    intro result
    cases result <;> rfl
  rw [readFile_eq]
  show Prog.read _ = Prog.read _
  congr 1
  funext w
  dsimp only
  rcases w.dir.isFile path with _ | _
  · rfl
  · show Prog.step _ _ _ = Prog.step _ _ _
    congr 1
    funext taken
    cases taken with
    | false => rfl
    | true =>
      show Prog.read _ = Prog.read _
      congr 1
      funext w
      dsimp only
      show (Prog.ofExcept _).attempt >>= next = _
      rw [hexcept, pure_bind]

section Steps

attribute [local simp] Prog.tryStep_bind Prog.attempt_tryStep_bind Prog.gets_bind Prog.refuse_bind
  Prog.read_bind Prog.step_bind Prog.throw_bind Prog.ite_bind Prog.onError_read Prog.onError_step
  Prog.onError_ite Prog.onError_tryStep Prog.onError_throw Directory.put_apply
  attempt_readFile_bind

/-- With a primary that can be read, the replacement is safe when its read does not fail. -/
theorem replaceFile_wpSparing {pid sequence : ℕ} {body old : Bytes} {held : PersistedFile}
    {w : World} (hw : w.dir.Regular) (hp : w.dir .primary = some (.file old))
    (hheld : contentOf serde (some (.file old)) = .ok held)
    (htemp : w.dir (.temp pid sequence) = none) :
    (replaceFile serde (.temp pid sequence) body).wpSparing
      (fun _ after => after.dir.Regular ∧ after.dir.current = some (.file body))
      (fun _ => JsonStore.Kept w) (JsonStore.Kept w) 3 w := by
  rcases hw.backup with hb | ⟨backup, hb⟩
  all_goals
    simp [replaceFile, quietStep, dirStep, pathExists, pathIsFile, createNew, writeAll, removeFile,
      renameFile, setAside, renameTemp, writeTemp, Prog.wpSparing, Prog.wpSparing_ite,
      Prog.wp_tryStep, Prog.wp, Directory.has, Directory.isFile, Directory.createNew,
      Directory.remove, Directory.rename, Directory.current,
        JsonStore.kept_iff, Directory.regular_iff, hp, hb, htemp,
      hheld]

/-- Where none of its first four steps goes wrong, a persist comes to the read of the primary. -/
theorem persist_run_setAside {rooms : Rooms} {w : World} (hw : w.dir.Regular) {old body : Bytes}
    (hp : w.dir .primary = some (.file old)) (hrooms : rooms.size ≤ maximumRoomSettings)
    (hvec : serde.toVec (toPersisted rooms) = some body) (hsize : body.length ≤ maximumFileBytes)
    (htemp : w.dir (.temp w.pid w.sequence) = none) (faults : List Fault) :
    ∃ w', (persist serde rooms).run (List.replicate 4 .proceed ++ faults) w =
        (Prog.onError (removeFile unavailable (.temp w.pid w.sequence)) (do
          setAside serde
          renameTemp unavailable (.temp w.pid w.sequence))).run faults w' ∧
      World.SameFiles w w' ∧ w'.dir (.temp w.pid w.sequence) = some (.file body) := by
  have hsize' : ¬maximumFileBytes < body.length := by omega
  have hrooms' : ¬maximumRoomSettings < rooms.size := by omega
  have hsame := (World.SameFiles.temp { w with sequence := w.sequence + 1 } w.pid w.sequence
    (some (.file []))).trans (World.SameFiles.temp _ w.pid w.sequence (some (.file body)))
  rcases hw.backup with hb | ⟨backup, hb⟩
  all_goals
    simp [persist, replaceFile, quietStep, dirStep, pathExists, pathIsFile, createNew, writeAll,
      writeTemp, fetchAdd_bind, Prog.ofOption_bind, Prog.run, List.replicate, Directory.has,
      Directory.isFile, Directory.createNew, hrooms', hvec, hp, hb, htemp, hsize']
    exact ⟨_, rfl, ⟨hsame.primary, hsame.backup, hsame.corrupt⟩, Directory.put_self _ _ _⟩

/-- A primary whose read fails is removed next. -/
theorem setAside_run_fail {w : World} {old : Bytes} (hp : w.dir .primary = some (.file old))
    (temp : Sibling) (progress : ℕ) (faults : List Fault) :
    (Prog.onError (removeFile unavailable temp) (do
        setAside serde
        renameTemp unavailable temp)).run (.fail progress :: faults) w =
      (Prog.onError (removeFile unavailable temp) (do
        removeFile unavailable .primary
        renameTemp unavailable temp)).run faults w := by
  simp [setAside, pathExists, pathIsFile, Prog.run, Directory.has, Directory.isFile, hp]

/-- A persist that is cut before it sets the old file aside changes nothing. -/
theorem setAside_run_cut {w : World} {old : Bytes} (hp : w.dir .primary = some (.file old))
    (temp : Sibling) (progress : ℕ) (faults : List Fault) :
    (Prog.onError (removeFile unavailable temp) (do
        setAside serde
        renameTemp unavailable temp)).run (.cut progress :: faults) w = (.cut, w) := by
  simp [setAside, pathExists, pathIsFile, Prog.run, Directory.has, Directory.isFile, hp]

/-- Once the primary is to be removed, all is well where the last rename is not stopped. -/
theorem removePrimary_wpSparing {pid sequence : ℕ} {body : Bytes} {w : World} (hw : w.dir.Regular)
    {old : Bytes} (hp : w.dir .primary = some (.file old))
    (htemp : w.dir (.temp pid sequence) = some (.file body)) :
    (removeFile unavailable .primary >>= fun _ =>
        renameTemp unavailable (.temp pid sequence)).wpSparing
      (fun _ after => after.dir.Regular ∧ after.dir.current = some (.file body))
      (fun _ => JsonStore.Kept w) (JsonStore.Kept w) 1 w := by
  rcases hw.backup with hb | ⟨backup, hb⟩
  all_goals
    simp [dirStep, pathExists, pathIsFile, removeFile, renameFile, renameTemp, Prog.wpSparing,
      Prog.wp, Directory.has, Directory.isFile, Directory.remove, Directory.rename,
      Directory.current, JsonStore.kept_iff, Directory.regular_iff, hp, hb, htemp]

/-- Once the primary is removed, a last rename that is stopped leaves what was the backup. -/
theorem removePrimary_loses {pid sequence : ℕ} {old body : Bytes} {w : World}
    (hw : w.dir.Regular) (hp : w.dir .primary = some (.file old))
    (htemp : w.dir (.temp pid sequence) = some (.file body)) {fault : Fault}
    (hstopped : fault ≠ .proceed) (faults : List Fault) :
    Prog.Ends (fun _ _ => False) (fun _ after => after.dir.current = w.dir .backup)
      (fun after => after.dir.current = w.dir .backup)
      ((Prog.onError (removeFile unavailable (.temp pid sequence)) (do
        removeFile unavailable .primary
        renameTemp unavailable (.temp pid sequence))).run (.proceed :: fault :: faults) w) := by
  cases fault with
  | proceed => exact absurd rfl hstopped
  | cut m =>
    simp [dirStep, removeFile, renameFile, renameTemp, Prog.run, Prog.Ends, Directory.isFile,
      Directory.remove, Directory.current, hp]
  | fail m =>
    rcases hw.backup with hb | ⟨backup, hb⟩
    all_goals
      simp [dirStep, pathExists, pathIsFile, removeFile, renameFile, renameTemp, Prog.run,
        Directory.has, Directory.isFile, Directory.remove, Directory.rename, hp, hb, htemp]
      repeat' split
      all_goals simp [Prog.Ends, Directory.current, hb]

end Steps

/-- Without a primary, the last rename puts the temporary file in its place, or it keeps what a
reader finds. -/
theorem renameTemp_wp {pid sequence : ℕ} {body : Bytes} {w : World} (hw : w.dir.Regular)
    (hp : w.dir .primary = none) (htemp : w.dir (.temp pid sequence) = some (.file body)) :
    (renameTemp unavailable (.temp pid sequence)).wp
      (fun _ after => after.dir.Regular ∧ after.dir.current = some (.file body))
      (fun _ => JsonStore.Kept w) (JsonStore.Kept w) w := by
  rcases hw.backup with hb | ⟨backup, hb⟩ <;>
    simp [renameTemp, Directory.has, Directory.isFile, Directory.put_apply, Directory.current,
      JsonStore.kept_iff, Directory.regular_iff, hp, hb, htemp]

/-- The removal of the temporary file keeps what a reader finds. -/
theorem cleanup_wp {w w' : World} {pid sequence : ℕ} (h : JsonStore.Kept w w') :
    (removeFile unavailable (.temp pid sequence)).wp (fun _ => JsonStore.Kept w)
      (fun _ => JsonStore.Kept w) (JsonStore.Kept w) w' :=
  removeTemp_wp fun _ hsame => ⟨h.sameFiles hsame, h.sameFiles hsame, h.sameFiles hsame⟩

/-- Without a primary, or where it is refused before the temporary file is written, a persist is
safe. -/
theorem persist_wp {rooms : Rooms} {w : World} (hw : w.dir.Regular)
    (hsafe : w.dir .primary ≠ none → rooms.size ≤ maximumRoomSettings →
      ∀ body, serde.toVec (toPersisted rooms) = some body → body.length ≤ maximumFileBytes →
        w.dir (.temp w.pid w.sequence) ≠ none) :
    (persist serde rooms).wp (fun _ => Saved serde rooms) (fun _ => JsonStore.Kept w)
      (JsonStore.Kept w) w := by
  have hkept : JsonStore.Kept w w := ⟨hw, rfl⟩
  simp only [persist, Prog.wp_bind, wp_quietStep, wp_pathExists, wp_pathIsFile, Prog.wp_refuse,
    Prog.wp_ofOption, Prog.wp_onError, wp_fetchAdd, Prog.wp_gets]
  refine ⟨fun _ => hkept, fun hrooms => ⟨⟨fun _ => hkept, fun _ => ⟨fun body hvec =>
    ⟨fun _ => hkept, fun hsize => ?_⟩, fun _ => hkept⟩⟩, hkept, hkept⟩⟩
  have hrooms' : rooms.size ≤ maximumRoomSettings := by simpa using hrooms
  have hsize' : body.length ≤ maximumFileBytes := by simpa using hsize
  have hnext : World.SameFiles w { w with sequence := w.sequence + 1 } :=
    ⟨rfl, rfl, fun _ _ => rfl⟩
  have hfail : ∀ w', World.SameFiles w w' →
      (removeFile unavailable (.temp w.pid w.sequence)).wp (fun _ => JsonStore.Kept w)
        (fun _ => JsonStore.Kept w) (JsonStore.Kept w) w' ∧ JsonStore.Kept w w' :=
    fun w' hsame => ⟨cleanup_wp (hkept.sameFiles hsame), hkept.sameFiles hsame⟩
  simp only [replaceFile, Prog.wp_bind, wp_createNew]
  refine ⟨fun hfree => ?_, hfail _ hnext⟩
  have hcreated := hnext.trans (.temp _ w.pid w.sequence (some (.file [])))
  refine writeTemp_wp (fun w1 hwritten htemp => ?_) fun w' hsame => hfail _ (hcreated.trans hsame)
  have hsame := hcreated.trans hwritten
  -- The temporary file is written, so there is no primary.
  have hp : w1.dir .primary = none := by
    rw [hsame.primary]
    by_contra hp
    exact hsafe hp hrooms' body hvec hsize' (Directory.has_eq_false.mp hfree)
  simp only [Prog.wp_bind, wp_pathExists, wp_pathIsFile, Prog.wp_refuse, setAside, Directory.has,
    hp, Option.isSome_none, Bool.false_eq_true, if_false, Prog.wp_pure]
  refine ⟨fun _ => (hfail _ hsame).1, fun _ => ?_⟩
  refine Prog.wp_mono (fun _ w' h => ?_) (fun e w' h => ?_) (fun w' h => ?_) _ _
    (renameTemp_wp (hsame.regular hw) hp htemp)
  · exact ⟨hrooms', h.1, body, hvec, hsize', h.2⟩
  · exact cleanup_wp ⟨h.regular, h.current.trans hsame.current⟩
  · exact ⟨h.regular, h.current.trans hsame.current⟩

attribute [local simp] Prog.tryStep_bind Prog.gets_bind Prog.refuse_bind in
/-- With a primary that can be read, a persist is safe when its read does not fail. -/
theorem persist_wpSparing {rooms : Rooms} {w : World} (hw : w.dir.Regular) {old body : Bytes}
    {held : PersistedFile} (hp : w.dir .primary = some (.file old))
    (hheld : contentOf serde (some (.file old)) = .ok held)
    (hrooms : rooms.size ≤ maximumRoomSettings) (hvec : serde.toVec (toPersisted rooms) = some body)
    (hsize : body.length ≤ maximumFileBytes) (htemp : w.dir (.temp w.pid w.sequence) = none) :
    (persist serde rooms).wpSparing (fun _ => Saved serde rooms) (fun _ => JsonStore.Kept w)
      (JsonStore.Kept w) 4 w := by
  have hsize' : ¬maximumFileBytes < body.length := by omega
  have hrooms' : ¬maximumRoomSettings < rooms.size := by omega
  have hkept : JsonStore.Kept w w := ⟨hw, rfl⟩
  have hreplace := @replaceFile_wpSparing serde w.pid w.sequence body old held
    { w with sequence := w.sequence + 1 } hw hp hheld htemp
  have hsaves : (replaceFile serde (.temp w.pid w.sequence) body).wpSparing
      (fun _ => Saved serde rooms)
      (fun _ after => (removeFile unavailable (.temp w.pid w.sequence)).wp
        (fun _ => JsonStore.Kept w) (fun _ => JsonStore.Kept w) (JsonStore.Kept w) after)
      (JsonStore.Kept w) 3 { w with sequence := w.sequence + 1 } :=
    Prog.wpSparing_mono (fun _ _ h => ⟨hrooms, h.1, body, hvec, hsize, h.2⟩)
      (fun _ _ h => cleanup_wp ⟨h.regular, h.current⟩) (fun _ h => ⟨h.regular, h.current⟩) _ _ _
      hreplace
  have hguarded := Prog.wpSparing_onError _ _ _ _ hsaves
  simp [persist, quietStep, dirStep, pathExists, pathIsFile, fetchAdd_bind, Prog.ofOption_bind,
    Prog.wpSparing, Directory.has, Directory.isFile, hrooms', hvec, hsize', hp]
  exact ⟨hguarded, hkept⟩

/-- A persist that does not lose the state saves the new one, or it keeps what a reader finds. -/
theorem persist_ends {rooms : Rooms} {faults : List Fault} {w : World} (hw : w.dir.Regular)
    (hread : ∀ old, w.dir .primary = some (.file old) →
      ∃ held, contentOf serde (some (.file old)) = .ok held)
    (hsafe : ¬Exposes serde rooms faults w) :
    Prog.Ends (fun _ => Saved serde rooms) (fun _ => JsonStore.Kept w) (JsonStore.Kept w)
      ((persist serde rooms).run faults w) := by
  by_cases hreach : w.dir .primary ≠ none ∧ rooms.size ≤ maximumRoomSettings ∧
      (∃ body, serde.toVec (toPersisted rooms) = some body ∧ body.length ≤ maximumFileBytes) ∧
      w.dir (.temp w.pid w.sequence) = none
  · obtain ⟨hprimary, hrooms, ⟨body, hvec, hsize⟩, htemp⟩ := hreach
    obtain ⟨old, hp⟩ := hw.primary.resolve_left hprimary
    obtain ⟨held, hheld⟩ := hread old hp
    by_cases hspares : Prog.Spares 4 faults
    · exact Prog.run_wpSparing _ _ _ _ (persist_wpSparing hw hp hheld hrooms hvec hsize htemp)
        hspares
    · obtain ⟨fault, rest, hne, rfl⟩ := Prog.exists_of_not_spares hspares
      obtain ⟨w', hrun, hsame, htemp'⟩ :=
        persist_run_setAside hw hp hrooms hvec hsize htemp (fault :: rest)
      have hp' : w'.dir .primary = some (.file old) := hsame.primary.trans hp
      have hkept : JsonStore.Kept w w' := ⟨hsame.regular hw, hsame.current⟩
      rw [hrun]
      cases fault with
      | proceed => exact absurd rfl hne
      | cut progress =>
        rw [setAside_run_cut hp']
        exact hkept
      | fail progress =>
        -- The primary is removed now, so the last rename must not be stopped.
        have hspares' : Prog.Spares 1 rest := by
          by_contra hstopped
          obtain ⟨fault, more, hfault, rfl⟩ := Prog.exists_of_not_spares hstopped
          exact hsafe ⟨hrooms, Directory.isFile_iff.mpr ⟨old, hp⟩, ⟨body, hvec, hsize⟩, htemp,
            progress, fault, more, hfault, rfl⟩
        rw [setAside_run_fail hp']
        refine Prog.run_wpSparing _ 1 _ _ (Prog.wpSparing_onError _ _ _ _ ?_) hspares'
        exact Prog.wpSparing_mono (fun _ _ h => ⟨hrooms, h.1, body, hvec, hsize, h.2⟩)
          (fun _ _ h => cleanup_wp ⟨h.regular, h.current.trans hsame.current⟩)
          (fun _ h => ⟨h.regular, h.current.trans hsame.current⟩) _ _ _
          (removePrimary_wpSparing (hsame.regular hw) hp' htemp')
  · refine Prog.run_wp _ _ _ (persist_wp hw fun hp hrooms body hvec hsize htemp => hreach ?_)
    exact ⟨hp, hrooms, ⟨body, hvec, hsize⟩, htemp⟩

/-- One that loses it leaves what was the backup to a reader. -/
theorem persist_loses {rooms : Rooms} {faults : List Fault} {w : World} (hw : w.dir.Regular)
    (h : Exposes serde rooms faults w) :
    Prog.Ends (fun _ _ => False) (fun _ after => after.dir.current = w.dir .backup)
      (fun after => after.dir.current = w.dir .backup) ((persist serde rooms).run faults w) := by
  obtain ⟨old, hp⟩ := Directory.isFile_iff.mp h.primary
  obtain ⟨body, hvec, hsize⟩ := h.body
  obtain ⟨progress, fault, rest, hne, hfaults⟩ := h.faults
  obtain ⟨w', hrun, hsame, htemp'⟩ := persist_run_setAside hw hp h.size hvec hsize h.temp
    (.fail progress :: .proceed :: fault :: rest)
  have hp' : w'.dir .primary = some (.file old) := hsame.primary.trans hp
  rw [hfaults, hrun, setAside_run_fail hp', ← hsame.backup]
  exact removePrimary_loses (hsame.regular hw) hp' htemp' hne rest

/-! ## The file -/

/-- Rooms that a file can hold: within the limit, each valid and under its own identifier. -/
abbrev ValidRooms : Rooms → Prop :=
  ValidMap maximumRoomSettings fun id room => room.roomId = id ∧ validRoomSetting room = true

/-- Valid settings are read back from their file. -/
theorem ofPersisted_toPersisted {rooms : Rooms} (h : ValidRooms rooms) :
    ofPersisted (toPersisted rooms) = some rooms := by
  have hlength : (toPersisted rooms).rooms.length = rooms.size := by
    rw [toPersisted, List.length_map, ExtTreeMap.length_toList]
  have hguard : ((toPersisted rooms).fileVersion != fileVersion ||
      decide (maximumRoomSettings < (toPersisted rooms).rooms.length)) = false := by
    have hsize := h.size
    rw [hlength]
    simp only [toPersisted, bne_self_eq_false, Bool.false_or, decide_eq_false_iff_not]
    omega
  rw [ofPersisted, hguard]
  refine collect_toList fun id room hroom => ?_
  obtain ⟨hid, hvalid⟩ := h.entries id room hroom
  simp [persistedEntry, hvalid, hid]

/-- The file holds the rooms: it is the content for them, and there is none only where there are no
rooms. -/
structure FileHolds (serde : Serde PersistedFile) (rooms : Rooms) (dir : Directory) : Prop where
  regular : dir.Regular
  valid : ValidRooms rooms
  content : (dir.current = none ∧ rooms = ∅) ∨ ∃ body, dir.current = some (.file body) ∧
    contentOf serde (some (.file body)) = .ok (toPersisted rooms)

/-- What was written for settings is read as their file. -/
theorem contentOf_toVec (hserde : serde.RoundTrips) {rooms : Rooms} {body : Bytes}
    (hvec : serde.toVec (toPersisted rooms) = some body) (hsize : body.length ≤ maximumFileBytes) :
    contentOf serde (some (.file body)) = .ok (toPersisted rooms) := by
  obtain ⟨hne, hback⟩ := hserde _ _ hvec
  have hfits : (body.isEmpty || decide (maximumFileBytes < body.length)) = false := by
    simp only [Bool.or_eq_false_iff, List.isEmpty_eq_false_iff, decide_eq_false_iff_not]
    exact ⟨hne, by omega⟩
  simp [contentOf, hfits, hback]

/-- A persist that keeps what a reader finds keeps what the file holds. -/
theorem FileHolds.kept {rooms : Rooms} {w w' : World} (h : FileHolds serde rooms w.dir)
    (hkept : JsonStore.Kept w w') : FileHolds serde rooms w'.dir := by
  refine ⟨hkept.regular, h.valid, ?_⟩
  rw [hkept.current]
  exact h.content

/-- A persist that returns makes the file hold the rooms. -/
theorem FileHolds.saved (hserde : serde.RoundTrips) {rooms : Rooms} {w : World}
    (hvalid : AllEntries (fun id room => room.roomId = id ∧ validRoomSetting room = true) rooms)
    (h : Saved serde rooms w) : FileHolds serde rooms w.dir := by
  obtain ⟨body, hvec, hsize, hcurrent⟩ := h.current
  exact ⟨h.regular, ⟨h.size, hvalid⟩, .inr ⟨body, hcurrent, contentOf_toVec hserde hvec hsize⟩⟩

/-- The primary can be read, if there is one. -/
theorem FileHolds.read {rooms : Rooms} {w : World} (h : FileHolds serde rooms w.dir) {old : Bytes}
    (hp : w.dir .primary = some (.file old)) :
    ∃ held, contentOf serde (some (.file old)) = .ok held := by
  rcases h.content with ⟨hnone, -⟩ | ⟨body, hcurrent, hheld⟩
  · rw [Directory.current_of_primary hp] at hnone
    cases hnone
  · rw [Directory.current_of_primary hp] at hcurrent
    obtain rfl : old = body := by simpa using hcurrent
    exact ⟨_, hheld⟩

/-- Undisturbed, a file that is there is read. -/
theorem readFile_run {path : Sibling} {body : Bytes} {held : PersistedFile} {w : World}
    (hpath : w.dir path = some (.file body))
    (hheld : contentOf serde (some (.file body)) = .ok held) :
    (readFile serde path).run [] w = (.done held, w) := by
  simp [readFile_eq, Prog.run, Prog.ofExcept, Directory.isFile, hpath, hheld]

/-- A file that is not there is refused. -/
theorem readFile_run_none {path : Sibling} {w : World} (hpath : w.dir path = none) :
    (readFile serde path).run [] w = (.error invalid, w) := by
  simp [readFile_eq, Directory.isFile, hpath]

/-- A load returns the rooms that the file holds. -/
theorem load_run {rooms : Rooms} {w : World} (h : FileHolds serde rooms w.dir) :
    (load serde).run [] w = (.done rooms, w) := by
  have hrows := ofPersisted_toPersisted h.valid
  rcases h.content with ⟨hnone, rfl⟩ | ⟨body, hcurrent, hheld⟩
  · obtain ⟨hp, hb⟩ : w.dir .primary = none ∧ w.dir .backup = none := by
      simpa [Directory.current] using hnone
    simp [load, pathExists, Directory.has, Prog.gets_bind, hp, hb]
  rcases h.regular.primary with hp | ⟨primary, hp⟩
  · have hb : w.dir .backup = some (.file body) := by
      rwa [Directory.current_of_no_primary hp] at hcurrent
    have hmissing := @readFile_run_none serde .primary w hp
    have hread := readFile_run hb hheld
    simp [load, readEither, pathExists, Directory.has, Prog.gets_bind, Prog.run_bind_nil,
      Prog.run_attempt, Prog.run, Prog.ofOption, hp, hb, hmissing, hread, hrows]
  · obtain rfl : primary = body := by
      simpa [Directory.current_of_primary hp] using hcurrent
    have hread := readFile_run hp hheld
    simp [load, readEither, pathExists, Directory.has, Prog.gets_bind, Prog.run_bind_nil,
      Prog.run_attempt, Prog.run, Prog.ofOption, hp, hread, hrows]

end Specs

/-! ## Calls -/

/-- A call of an operation that can change the rooms, with its arguments. -/
inductive SettingsCall where
  | setConductor (roomId conductorId : String)
  | setMode (roomId : String) (sendMode : ConductorSendMode)
  | clear (roomId : String)

/-- What can happen: a call, under some schedule of faults, or a new process, which loads. -/
inductive Event where
  | call (call : SettingsCall) (faults : List Fault)
  | restart (pid : ℕ)

/-- The settings, and whether their process is running. The rooms of a process that has stopped are
those that it had before its last call. -/
structure State where
  settings : DesktopRoomConductorSettings
  running : Bool

section Code

variable (serde : Serde PersistedFile)

/-- The call of the settings. -/
def SettingsCall.run (faults : List Fault) (settings : DesktopRoomConductorSettings) :
    SettingsCall →
      Outcome RoomConductorSettingsError RoomConductorStatus × DesktopRoomConductorSettings
  | setConductor roomId conductorId =>
    RoomConductorSettings.setConductor serde faults roomId conductorId settings
  | setMode roomId sendMode => RoomConductorSettings.setMode serde faults roomId sendMode settings
  | clear roomId => RoomConductorSettings.clear serde faults roomId settings

/-- What an event leaves. A process stops where it is cut off, and where its start fails. -/
def apply (state : State) : Event → State
  | .call call faults =>
    if state.running then
      match call.run serde faults state.settings with
      | (.cut, settings) => { settings, running := false }
      | (_, settings) => { settings, running := true }
    else state
  | .restart pid =>
    match (load serde).run [] (state.settings.world.restart pid) with
    | (.done rooms, world) => { settings := { rooms, world }, running := true }
    | (_, world) => { settings := { state.settings with world }, running := false }

/-- What a run of events leaves. -/
def run (events : List Event) (state : State) : State := events.foldl (apply serde) state

/-- Before the first start, in a directory without any file of the settings. -/
def State.first (world : World) : State := { settings := { rooms := ∅, world }, running := false }

/-- The rooms that a call is about to persist, if it is. -/
def SettingsCall.next (rooms : Rooms) : SettingsCall → Option Rooms
  | setConductor roomId conductorId =>
    if !validIdentifier roomId || !validIdentifier conductorId ||
        rooms[roomId]?.any (·.conductorId == conductorId) then none
    else some (rooms.insert roomId { roomId, conductorId, sendMode := .conductor })
  | setMode roomId sendMode =>
    if !validIdentifier roomId || rooms[roomId]?.any (·.sendMode == sendMode) then none
    else rooms[roomId]?.map fun current => rooms.insert roomId { current with sendMode }
  | clear roomId =>
    if !validIdentifier roomId || !rooms.contains roomId then none else some (rooms.erase roomId)

/-- No call of the run loses the state. -/
def Unexposed : List Event → State → Prop
  | [], _ => True
  | event :: events, state =>
    (∀ call faults rooms, event = .call call faults → call.next state.settings.rooms = some rooms →
      ¬Exposes serde rooms faults state.settings.world) ∧
        Unexposed events (apply serde state event)

end Code

section Calls

variable {serde : Serde PersistedFile} {faults : List Fault}
    {settings : DesktopRoomConductorSettings}

/-- A call persists its next rooms, or it leaves the settings. -/
theorem SettingsCall.run_eq (call : SettingsCall) :
    ∃ status outcome, call.run serde faults settings =
      match call.next settings.rooms with
      | some next => commit serde faults next status settings
      | none => (outcome, settings) := by
  -- A command that changes something commits it; every other answers from memory.
  cases call with
  | setConductor roomId conductorId =>
    simp only [SettingsCall.run, RoomConductorSettings.setConductor, SettingsCall.next]
    by_cases hvalid : (!validIdentifier roomId || !validIdentifier conductorId) = true
    · rw [if_pos hvalid, if_pos (by simp [hvalid])]
      exact ⟨.direct roomId, _, rfl⟩
    · rw [if_neg hvalid]
      rcases hcurrent : settings.rooms[roomId]? with _ | current
      · rw [if_neg (by simpa using hvalid)]
        exact ⟨_, .cut, rfl⟩
      -- A choice that is made already is not written again.
      · by_cases hsame : (current.conductorId == conductorId) = true
        · rw [if_pos (by simp [hsame])]
          dsimp only
          rw [if_pos hsame]
          exact ⟨.direct roomId, _, rfl⟩
        · rw [if_neg (by simpa [hsame] using hvalid)]
          dsimp only
          rw [if_neg hsame]
          exact ⟨_, .cut, rfl⟩
  | setMode roomId sendMode =>
    simp only [SettingsCall.run, RoomConductorSettings.setMode, SettingsCall.next]
    by_cases hvalid : (!validIdentifier roomId) = true
    · rw [if_pos hvalid, if_pos (by simp [hvalid])]
      exact ⟨.direct roomId, _, rfl⟩
    · rw [if_neg hvalid]
      rcases hcurrent : settings.rooms[roomId]? with _ | current
      · rw [if_neg (by simpa using hvalid)]
        exact ⟨.direct roomId, _, rfl⟩
      -- A choice that is made already is not written again.
      · by_cases hsame : (current.sendMode == sendMode) = true
        · rw [if_pos (by simp [hsame])]
          dsimp only
          rw [if_pos hsame]
          exact ⟨.direct roomId, _, rfl⟩
        · rw [if_neg (by simpa [hsame] using hvalid)]
          dsimp only
          rw [if_neg hsame]
          exact ⟨_, .cut, rfl⟩
  | clear roomId =>
    simp only [SettingsCall.run, RoomConductorSettings.clear, SettingsCall.next]
    by_cases hvalid : (!validIdentifier roomId) = true
    · rw [if_pos hvalid, if_pos (by simp [hvalid])]
      exact ⟨.direct roomId, _, rfl⟩
    · rw [if_neg hvalid]
      by_cases hmissing : (!settings.rooms.contains roomId) = true
      · rw [if_pos hmissing, if_pos (by simp [hmissing])]
        exact ⟨.direct roomId, _, rfl⟩
      · rw [if_neg hmissing, if_neg (by simpa [hmissing] using hvalid)]
        exact ⟨_, .cut, rfl⟩

/-- A commit that does not return leaves the rooms. -/
theorem commit_rooms {next : Rooms} {status : RoomConductorStatus}
    (h : ∀ status', (commit serde faults next status settings).1 ≠ .done status') :
    (commit serde faults next status settings).2.rooms = settings.rooms := by
  unfold commit at h ⊢
  rcases hrun : (persist serde next).run faults settings.world with ⟨_ | _ | _, world⟩
  · rw [hrun] at h
    exact absurd rfl (h status)
  · rfl
  · rfl

/-- A call that does not return leaves the rooms. -/
theorem SettingsCall.run_rooms {call : SettingsCall}
    (h : ∀ status, (call.run serde faults settings).1 ≠ .done status) :
    (call.run serde faults settings).2.rooms = settings.rooms := by
  obtain ⟨status, outcome, hrun⟩ := @SettingsCall.run_eq serde faults settings call
  rw [hrun] at h ⊢
  rcases hnext : call.next settings.rooms with _ | next
  · rfl
  · rw [hnext] at h
    exact commit_rooms h

/-- The next rooms of valid ones are valid. -/
theorem SettingsCall.next_valid {call : SettingsCall} {rooms next : Rooms}
    (hrooms : AllEntries (fun id room => room.roomId = id ∧ validRoomSetting room = true) rooms)
    (h : call.next rooms = some next) :
    AllEntries (fun id room => room.roomId = id ∧ validRoomSetting room = true) next := by
  cases call with
  | setConductor roomId conductorId =>
    simp only [SettingsCall.next] at h
    split at h
    · cases h
    · rename_i hvalid
      simp only [Bool.or_eq_true, Bool.not_eq_true', not_or, Bool.not_eq_false] at hvalid
      obtain rfl := Option.some.inj h
      exact hrooms.insert ⟨rfl, by simp [validRoomSetting, hvalid.1.1, hvalid.1.2]⟩
  | setMode roomId sendMode =>
    simp only [SettingsCall.next] at h
    split at h
    · cases h
    · obtain ⟨current, hcurrent, rfl⟩ := Option.map_eq_some_iff.mp h
      exact hrooms.insert (hrooms roomId current hcurrent)
  | clear roomId =>
    simp only [SettingsCall.next] at h
    split at h
    · cases h
    · obtain rfl := Option.some.inj h
      exact hrooms.erase roomId

/-- A call that does not lose the state keeps the file and the rooms together. -/
theorem SettingsCall.run_fileHolds (hserde : serde.RoundTrips) {call : SettingsCall}
    (hfile : FileHolds serde settings.rooms settings.world.dir)
    (hsafe : ∀ rooms, call.next settings.rooms = some rooms →
      ¬Exposes serde rooms faults settings.world) :
    FileHolds serde (call.run serde faults settings).2.rooms
      (call.run serde faults settings).2.world.dir := by
  obtain ⟨status, outcome, hrun⟩ := @SettingsCall.run_eq serde faults settings call
  rw [hrun]
  rcases hnext : call.next settings.rooms with _ | next
  · exact hfile
  · have hvalid := SettingsCall.next_valid hfile.valid.entries hnext
    have hends := persist_ends hfile.regular (fun _ => hfile.read) (hsafe next hnext)
    dsimp only
    unfold commit
    rcases hpersist : (persist serde next).run faults settings.world with ⟨_ | _ | _, world⟩
    all_goals rw [hpersist] at hends
    · exact .saved hserde hvalid hends
    · exact hfile.kept hends
    · exact hfile.kept hends

/-- In a run in which no call loses the state, the file holds the rooms. -/
theorem run_fileHolds (hserde : serde.RoundTrips) {events : List Event} {state : State}
    (hfile : FileHolds serde state.settings.rooms state.settings.world.dir)
    (hsafe : Unexposed serde events state) :
    FileHolds serde (run serde events state).settings.rooms
      (run serde events state).settings.world.dir := by
  induction events generalizing state with
  | nil => exact hfile
  | cons event events ih =>
    refine ih ?_ hsafe.2
    cases event with
    | call call faults =>
      have hcall := @SettingsCall.run_fileHolds serde faults state.settings hserde call hfile
        fun rooms => hsafe.1 call faults rooms rfl
      rw [apply]
      split
      · rcases hrun : call.run serde faults state.settings with ⟨_ | _ | _, settings⟩
        all_goals
          rw [hrun] at hcall
          exact hcall
      · exact hfile
    | restart pid =>
      have hrestart : FileHolds serde state.settings.rooms (state.settings.world.restart pid).dir :=
        hfile
      rw [apply, load_run hrestart]
      exact hrestart

/-- Such a run begins where there are no files. -/
theorem fileHolds_first {world : World} (hp : world.dir .primary = none)
    (hb : world.dir .backup = none) :
    FileHolds serde (State.first world).settings.rooms (State.first world).settings.world.dir :=
  ⟨⟨.inl hp, .inl hb⟩, .empty _, .inl ⟨(Directory.current_of_no_primary hp).trans hb, rfl⟩⟩

end Calls

end Mio.Desktop.RoomConductorSettings
