import Mio.Desktop.JsonStore
import Mio.Library.Collect
import Mio.Library.Serde

/-!
# The continuity of AI sessions

The store of `apps/desktop/src-tauri/src/room_ai_continuity.rs` remembers, for each room and each AI
participant, the session that the next turn resumes. This module has its bindings, the file they are
kept in, and the checks that make every committed binding one that the file can give back.
-/

namespace Mio.Desktop.RoomAiContinuity

open Library Std

/-- The version of the file. -/
def continuityFileVersion : UInt8 := 1

/-- The greatest size of the file, in bytes. -/
def maximumContinuityFileBytes : ℕ := 256 * 1024

/-- What is needed to resume a conversation. -/
structure RoomAiContinuation where
  sessionId : String
  lastSyncedMessageId : String
  environmentKey : String
  deriving DecidableEq

/-- Why a conversation cannot be read or saved. -/
abbrev RoomAiContinuityError := StoreError

/-- The room and the participant. -/
abbrev BindingKey := String × String

instance : Ord BindingKey := lexOrd

/-- The conversations, by room and participant. -/
abbrev Bindings := ExtTreeMap BindingKey RoomAiContinuation

/-- A conversation as the file has it. -/
structure PersistedBinding where
  roomId : String
  participantId : String
  sessionId : String
  lastSyncedMessageId : String
  environmentKey : String
  deriving DecidableEq

/-- The file. -/
structure PersistedContinuityFile where
  fileVersion : UInt8
  bindings : List PersistedBinding
  deriving DecidableEq

/-! ## The checks -/

/-- Whether the identifier of a room or participant may be a key. -/
def validIdentifier : String → Bool :=
  boundedBytes 128 fun _ byte => isAsciiAlphanumeric byte || byte == 0x2d || byte == 0x5f

/-- Whether the identifier of a session may be saved. -/
def validSessionId : String → Bool := boundedBytes 256 fun _ byte => isAsciiGraphic byte

/-- Whether the key of an environment may be saved. -/
def validEnvironmentKey : String → Bool :=
  boundedBytes 128 fun _ byte => isAsciiAlphanumeric byte || byte == 0x2d || byte == 0x5f

/-- The check of a binding, which `load` and `commit` both make. -/
def validBinding (roomId participantId : String) (continuation : RoomAiContinuation) : Bool :=
  validIdentifier roomId && validIdentifier participantId &&
    validSessionId continuation.sessionId && validIdentifier continuation.lastSyncedMessageId &&
    validEnvironmentKey continuation.environmentKey

/-! ## The file -/

/-- A conversation, written. -/
def toPersistedBinding : BindingKey × RoomAiContinuation → PersistedBinding
  | ((roomId, participantId), continuation) =>
    { roomId, participantId
      sessionId := continuation.sessionId
      lastSyncedMessageId := continuation.lastSyncedMessageId
      environmentKey := continuation.environmentKey }

/-- The file of the conversations. -/
def toPersisted (bindings : Bindings) : PersistedContinuityFile where
  fileVersion := continuityFileVersion
  bindings := bindings.toList.map toPersistedBinding

/-- The entry for a row of the file, when the binding passes its check. -/
def persistedEntry (binding : PersistedBinding) : Option (BindingKey × RoomAiContinuation) :=
  let value : RoomAiContinuation :=
    { sessionId := binding.sessionId
      lastSyncedMessageId := binding.lastSyncedMessageId
      environmentKey := binding.environmentKey }
  if validBinding binding.roomId binding.participantId value then
    some ((binding.roomId, binding.participantId), value)
  else none

/-- The conversations of a file; one bad entry refuses it. -/
def ofPersisted (persisted : PersistedContinuityFile) : Option Bindings :=
  if persisted.fileVersion != continuityFileVersion then none
  else collect persistedEntry persisted.bindings ∅

/-- The file of the store (`ContinuityPersistence`). -/
def continuityPersistence (serde : Serde PersistedContinuityFile) : JsonStore Bindings where
  maximumBytes := maximumContinuityFileBytes
  empty := ∅
  toVec bindings := serde.toVec (toPersisted bindings)
  fromSlice body := (serde.fromSlice body).bind ofPersisted

/-! ## The operations -/

/-- The conversation of the participant in the room. -/
def get (roomId participantId : String) (bindings : Bindings) :
    Except RoomAiContinuityError (Option RoomAiContinuation) :=
  if !validIdentifier roomId || !validIdentifier participantId then .error .invalid
  else .ok bindings[(roomId, participantId)]?

section Operations

variable (serde : Serde PersistedContinuityFile) (faults : List Fault)

/-- Persist the bindings and, once they are persisted, take them over. -/
def replaceBindings (next bindings : Bindings) (world : World) :
    Outcome RoomAiContinuityError Unit × Bindings × World :=
  match ((continuityPersistence serde).persist next).run faults world with
  | (.done (), world) => (.done (), next, world)
  | (.error e, world) => (.error e, bindings, world)
  | (.cut, world) => (.cut, bindings, world)

/-- Saves a conversation, and keeps it once it is saved. -/
def commit (roomId participantId : String) (continuation : RoomAiContinuation)
    (bindings : Bindings) (world : World) :
    Outcome RoomAiContinuityError Unit × Bindings × World :=
  if !validBinding roomId participantId continuation then (.error .invalid, bindings, world)
  else
    replaceBindings serde faults (bindings.insert (roomId, participantId) continuation) bindings
      world

/-- Forgets a conversation; the answer is whether there was one. -/
def clear (roomId participantId : String) (bindings : Bindings) (world : World) :
    Outcome RoomAiContinuityError Bool × Bindings × World :=
  if !validIdentifier roomId || !validIdentifier participantId then
    (.error .invalid, bindings, world)
  else if !bindings.contains (roomId, participantId) then (.done false, bindings, world)
  else
    match replaceBindings serde faults (bindings.erase (roomId, participantId)) bindings world with
    | (.done (), bindings, world) => (.done true, bindings, world)
    | (.error e, bindings, world) => (.error e, bindings, world)
    | (.cut, bindings, world) => (.cut, bindings, world)

end Operations

/-! ## The bindings stay valid -/

/-- Bindings that the file can give back. -/
abbrev ValidBindings : Bindings → Prop :=
  AllEntries fun key continuation => validBinding key.1 key.2 continuation = true

/-- The store's file gives back valid bindings. -/
theorem continuityPersistence_lawful {serde : Serde PersistedContinuityFile}
    (hserde : serde.RoundTrips) : (continuityPersistence serde).Lawful ValidBindings := by
  refine ⟨fun bindings body hvalid hvec => ?_⟩
  obtain ⟨hne, hback⟩ := hserde _ _ hvec
  refine ⟨hne, ?_⟩
  show (serde.fromSlice body).bind ofPersisted = some bindings
  rw [hback]
  show ofPersisted (toPersisted bindings) = some bindings
  rw [ofPersisted, if_neg (by simp [toPersisted])]
  refine collect_toList fun key continuation hkey => ?_
  have hbinding := hvalid key continuation hkey
  simp [persistedEntry, toPersistedBinding, hbinding]

/-- The bindings that a commit or a clearing leaves are valid, whatever becomes of its persist. -/
theorem replaceBindings_valid (serde : Serde PersistedContinuityFile) (faults : List Fault)
    {next bindings : Bindings} (hnext : ValidBindings next) (h : ValidBindings bindings)
    (world : World) : ValidBindings (replaceBindings serde faults next bindings world).2.1 := by
  unfold replaceBindings
  split
  · exact hnext
  · exact h
  · exact h

/-- A commit keeps the bindings valid. -/
theorem commit_valid (serde : Serde PersistedContinuityFile) (faults : List Fault)
    (roomId participantId : String) (continuation : RoomAiContinuation) {bindings : Bindings}
    (h : ValidBindings bindings) (world : World) :
    ValidBindings (commit serde faults roomId participantId continuation bindings world).2.1 := by
  unfold commit
  split
  · exact h
  · rename_i hvalid
    exact replaceBindings_valid serde faults (h.insert (by simpa using hvalid)) h world

/-- A clearing keeps the bindings valid. -/
theorem clear_valid (serde : Serde PersistedContinuityFile) (faults : List Fault)
    (roomId participantId : String) {bindings : Bindings} (h : ValidBindings bindings)
    (world : World) :
    ValidBindings (clear serde faults roomId participantId bindings world).2.1 := by
  unfold clear
  split
  · exact h
  split
  · exact h
  have hvalid := replaceBindings_valid serde faults (h.erase (roomId, participantId)) h world
  split <;> simp_all

end Mio.Desktop.RoomAiContinuity
