import Mio.Desktop.JsonStore
import Mio.Library.Collect
import Mio.Library.Serde

/-!
# The workspace of a room

The store of `apps/desktop/src-tauri/src/room_workspace.rs` remembers which directory a room's AI
participants may work in. This module has its bindings, the file they are kept in, and the checks
that make every binding one that the file can give back, and the key that says which directory it
is.

A path is a value of a type `PathBuf` with a test for absolute paths. The root that is bound is the
canonical form of the chosen directory, which is absolute, or the reason why there is none.
-/

namespace Mio.Desktop.RoomWorkspace

open Library Std

/-- The version of the file. -/
def workspaceFileVersion : UInt8 := 1

/-- The greatest size of the file, in bytes. -/
def maximumWorkspaceFileBytes : ℕ := 64 * 1024

variable {PathBuf : Type}

/-- The folders, by room. -/
abbrev Bindings (PathBuf : Type) := ExtTreeMap String PathBuf

/-- A binding as the file has it. -/
structure PersistedWorkspaceBinding (PathBuf : Type) where
  roomId : String
  root : PathBuf
  deriving DecidableEq

/-- The file. -/
structure PersistedWorkspaceFile (PathBuf : Type) where
  fileVersion : UInt8
  bindings : List (PersistedWorkspaceBinding PathBuf)
  deriving DecidableEq

/-- Whether the identifier of a room may be a key. -/
def validRoomId : String → Bool :=
  boundedBytes 128 fun _ byte => isAsciiAlphanumeric byte || byte == 0x2d || byte == 0x5f

/-! ## The file -/

/-- The file of the bindings. -/
def toPersisted (bindings : Bindings PathBuf) : PersistedWorkspaceFile PathBuf where
  fileVersion := workspaceFileVersion
  bindings := bindings.toList.map fun (roomId, root) => { roomId, root }

/-- The entry for a row of the file, when the binding passes its check. -/
def persistedEntry (isAbsolute : PathBuf → Bool) (binding : PersistedWorkspaceBinding PathBuf) :
    Option (String × PathBuf) :=
  if !validRoomId binding.roomId || !isAbsolute binding.root then none
  else some (binding.roomId, binding.root)

/-- The bindings of a file; one bad entry refuses it. -/
def ofPersisted (isAbsolute : PathBuf → Bool) (persisted : PersistedWorkspaceFile PathBuf) :
    Option (Bindings PathBuf) :=
  if persisted.fileVersion != workspaceFileVersion then none
  else collect (persistedEntry isAbsolute) persisted.bindings ∅

/-- The file of the store (`WorkspacePersistence`). -/
def workspacePersistence (serde : Serde (PersistedWorkspaceFile PathBuf))
    (isAbsolute : PathBuf → Bool) : JsonStore (Bindings PathBuf) where
  maximumBytes := maximumWorkspaceFileBytes
  empty := ∅
  toVec bindings := serde.toVec (toPersisted bindings)
  fromSlice body := (serde.fromSlice body).bind (ofPersisted isAbsolute)

/-! ## The operations -/

/-- Why a workspace cannot be used. -/
inductive RoomWorkspaceError where
  | io
  | invalid
  | roomNotFound
  | unavailable
  | unsafeLink
  deriving DecidableEq

/-- The error of the file, among those of the store. -/
def ofStoreError : StoreError → RoomWorkspaceError
  | .invalid => .invalid
  | .io => .io

section Operations

variable (serde : Serde (PersistedWorkspaceFile PathBuf)) (isAbsolute : PathBuf → Bool)
  (faults : List Fault)

/-- Persist the bindings and, once they are persisted, take them over. -/
def replaceBindings (next bindings : Bindings PathBuf) (world : World) :
    Outcome RoomWorkspaceError Unit × Bindings PathBuf × World :=
  match ((workspacePersistence serde isAbsolute).persist next).run faults world with
  | (.done (), world) => (.done (), next, world)
  | (.error e, world) => (.error (ofStoreError e), bindings, world)
  | (.cut, world) => (.cut, bindings, world)

/-- Bind a room to a root. `canonical` is what `safe_workspace_root` makes of the root, once the
root has been found to be a directory. -/
def bind (roomId : String) (canonical : Except RoomWorkspaceError PathBuf)
    (bindings : Bindings PathBuf) (world : World) :
    Outcome RoomWorkspaceError Unit × Bindings PathBuf × World :=
  if !validRoomId roomId then (.error .invalid, bindings, world)
  else
    match canonical with
    | .error e => (.error e, bindings, world)
    | .ok root =>
      replaceBindings serde isAbsolute faults (bindings.insert roomId root) bindings world

/-- Takes the binding of a room away. -/
def clear (roomId : String) (bindings : Bindings PathBuf) (world : World) :
    Outcome RoomWorkspaceError Unit × Bindings PathBuf × World :=
  if !validRoomId roomId then (.error .invalid, bindings, world)
  else replaceBindings serde isAbsolute faults (bindings.erase roomId) bindings world

end Operations

/-! ## The bindings stay valid -/

/-- Bindings that the file can give back. -/
abbrev ValidBindings (isAbsolute : PathBuf → Bool) : Bindings PathBuf → Prop :=
  AllEntries fun roomId root => validRoomId roomId = true ∧ isAbsolute root = true

/-- The store's file gives back valid bindings. -/
theorem workspacePersistence_lawful {serde : Serde (PersistedWorkspaceFile PathBuf)}
    (hserde : serde.RoundTrips) (isAbsolute : PathBuf → Bool) :
    (workspacePersistence serde isAbsolute).Lawful (ValidBindings isAbsolute) := by
  refine ⟨fun bindings body hvalid hvec => ?_⟩
  obtain ⟨hne, hback⟩ := hserde _ _ hvec
  refine ⟨hne, ?_⟩
  show (serde.fromSlice body).bind (ofPersisted isAbsolute) = some bindings
  rw [hback]
  show ofPersisted isAbsolute (toPersisted bindings) = some bindings
  rw [ofPersisted, if_neg (by simp [toPersisted])]
  refine collect_toList fun roomId root hroot => ?_
  obtain ⟨hid, habsolute⟩ := hvalid roomId root hroot
  simp [persistedEntry, hid, habsolute]

/-- The bindings that a change leaves are valid, whatever becomes of its persist. -/
theorem replaceBindings_valid (serde : Serde (PersistedWorkspaceFile PathBuf))
    {isAbsolute : PathBuf → Bool} (faults : List Fault) {next bindings : Bindings PathBuf}
    (hnext : ValidBindings isAbsolute next) (h : ValidBindings isAbsolute bindings)
    (world : World) :
    ValidBindings isAbsolute
      (replaceBindings serde isAbsolute faults next bindings world).2.1 := by
  unfold replaceBindings
  split
  · exact hnext
  · exact h
  · exact h

/-- A binding to an absolute root keeps the bindings valid. -/
theorem bind_valid (serde : Serde (PersistedWorkspaceFile PathBuf)) {isAbsolute : PathBuf → Bool}
    (faults : List Fault) {roomId : String} {canonical : Except RoomWorkspaceError PathBuf}
    (hcanonical : ∀ root, canonical = .ok root → isAbsolute root = true)
    {bindings : Bindings PathBuf} (h : ValidBindings isAbsolute bindings) (world : World) :
    ValidBindings isAbsolute
      (bind serde isAbsolute faults roomId canonical bindings world).2.1 := by
  unfold bind
  split
  · exact h
  rename_i hid
  split
  · exact h
  · rename_i root
    have hnext := h.insert ⟨by simpa using hid, hcanonical root rfl⟩
    exact replaceBindings_valid serde faults hnext h world

/-- A clearing keeps the bindings valid. -/
theorem clear_valid (serde : Serde (PersistedWorkspaceFile PathBuf)) {isAbsolute : PathBuf → Bool}
    (faults : List Fault) (roomId : String) {bindings : Bindings PathBuf}
    (h : ValidBindings isAbsolute bindings) (world : World) :
    ValidBindings isAbsolute (clear serde isAbsolute faults roomId bindings world).2.1 := by
  unfold clear
  split
  · exact h
  · exact replaceBindings_valid serde faults (h.erase roomId) h world

/-! ## The identity of a directory -/

/-- What the file system says which directory it is: the serial number of its volume and its index
on Windows, its device and its inode on Unix. -/
inductive DirectoryIdentity where
  | windows (volumeSerialNumber : UInt32) (fileIndex : UInt64)
  | unix (dev ino : UInt64)
  deriving DecidableEq

/-- The identity of a folder, written. -/
def workspaceIdentityKey : DirectoryIdentity → String
  | .windows volumeSerialNumber fileIndex =>
    "windows-" ++ lowerHex 8 volumeSerialNumber.toNat ++ "-" ++ lowerHex 16 fileIndex.toNat
  | .unix dev ino => "unix-" ++ lowerHex 16 dev.toNat ++ "-" ++ lowerHex 16 ino.toNat

/-- A workspace that can be worked in. -/
structure AvailableRoomWorkspace where
  identity : DirectoryIdentity
  deriving DecidableEq

/-- The key of a workspace. -/
def AvailableRoomWorkspace.identityKey (workspace : AvailableRoomWorkspace) : String :=
  workspaceIdentityKey workspace.identity

/-- A key is of printable ASCII and at most 38 bytes. -/
theorem workspaceIdentityKey_graphic (identity : DirectoryIdentity) :
    GraphicText 38 (workspaceIdentityKey identity) := by
  cases identity with
  | windows volume file =>
    have hvolume : GraphicText 8 (lowerHex 8 volume.toNat) :=
      graphicText_lowerHex (by decide) (UInt32.toNat_lt volume)
    have hfile : GraphicText 16 (lowerHex 16 file.toNat) :=
      graphicText_lowerHex (by decide) (UInt64.toNat_lt file)
    have hname : GraphicText 8 "windows-" := ⟨by decide, by decide⟩
    have hdash : GraphicText 1 "-" := ⟨by decide, by decide⟩
    exact (((hname.append hvolume).append hdash).append hfile).mono (by decide)
  | unix dev ino =>
    have hdev : GraphicText 16 (lowerHex 16 dev.toNat) :=
      graphicText_lowerHex (by decide) (UInt64.toNat_lt dev)
    have hino : GraphicText 16 (lowerHex 16 ino.toNat) :=
      graphicText_lowerHex (by decide) (UInt64.toNat_lt ino)
    have hname : GraphicText 5 "unix-" := ⟨by decide, by decide⟩
    have hdash : GraphicText 1 "-" := ⟨by decide, by decide⟩
    exact (((hname.append hdev).append hdash).append hino).mono (by decide)

end Mio.Desktop.RoomWorkspace
