import Mathlib.Data.List.Dedup
import Mio.Library.Keyed
import Mio.Library.Text

/-!
# The Room store

The rooms of `crates/moe-core/src/room.rs`: the snapshot that is saved and restored, the check that
a snapshot passes before it is used (`validateSnapshot`), the drafts, whose values pass their own
check by construction, and the operations of the in-memory store. An operation takes the snapshot
and returns its result together with the snapshot that it leaves, also where the result is an error.

The lock around the snapshot is not modelled, so the errors for a poisoned lock do not occur.
-/

namespace Mio.Core

open Library

/-- The version of the protocol that a snapshot states (`moe_protocol::PROTOCOL_VERSION`). -/
def protocolVersion : String := "0.1.0"

/-- The longest identifier, in bytes. -/
def maximumIdentifierBytes : ℕ := 128

/-- The longest name of a participant or of a room, in bytes. -/
def maximumDisplayNameBytes : ℕ := 200

/-- The longest body that a snapshot can have, in bytes. -/
def maximumMessageBodyBytes : ℕ := 100000

/-- The longest body that is written, in bytes. It is less than a snapshot can have. -/
def maximumRoomWriteBodyBytes : ℕ := 4000

/-- The most participants of a snapshot. -/
def maximumParticipants : ℕ := 1000

/-- The most rooms of a snapshot. -/
def maximumRooms : ℕ := 1000

/-- The most participants of a room. -/
def maximumRoomParticipants : ℕ := 100

/-- The most messages of a room. -/
def maximumRoomMessages : ℕ := 10000

/-- The most recipients of a message, and the most artifacts. -/
def maximumMessageLinks : ℕ := 100

/-! ## The data -/

/-- Whether a participant is a human or an AI. -/
inductive RoomParticipantKind where
  | human
  | ai
  deriving DecidableEq

/-- A participant of the rooms. -/
structure RoomParticipant where
  id : String
  displayName : String
  kind : RoomParticipantKind
  deriving DecidableEq

/-- Where a message comes from, if not from its author directly. -/
inductive RoomMessageProvenance where
  | codexOwnerProxy
  deriving DecidableEq

/-- A message of a room. -/
structure RoomMessage where
  id : String
  roomId : String
  authorId : String
  recipients : List String
  body : String
  createdAt : String
  artifactIds : List String
  provenance : Option RoomMessageProvenance
  deriving DecidableEq

/-- A room with its messages, the oldest one first. -/
structure Room where
  id : String
  name : String
  participantIds : List String
  messages : List RoomMessage
  deriving DecidableEq

/-- Everything that the Room store keeps. -/
structure RoomSnapshot where
  schemaVersion : String
  generatedAt : String
  participants : List RoomParticipant
  rooms : List Room
  deriving DecidableEq

/-- The messages of all rooms, in order. -/
def RoomSnapshot.messages (snapshot : RoomSnapshot) : List RoomMessage :=
  snapshot.rooms.flatMap (·.messages)

/-- Why a snapshot is not taken over. -/
inductive RoomSnapshotError where
  | invalidSnapshot
  deriving DecidableEq

/-! ## The checks -/

/-- An identifier: ASCII letters and digits and, past the first byte, `.`, `_`, and `-`. -/
def validIdentifier : String → Bool :=
  boundedBytes maximumIdentifierBytes fun index byte =>
    isAsciiAlphanumeric byte || (byte == 0x2e || byte == 0x5f || byte == 0x2d) && 0 < index

/-- A text that is not empty and not too long. -/
def validText (value : String) (maximum : ℕ) : Bool :=
  !value.isEmpty && value.utf8ByteSize ≤ maximum

/-- Identifiers that are valid and all different. -/
def uniqueValidIdentifiers (values : List String) : Bool :=
  (insertDistinct validIdentifier id values []).isSome

/-- What a message must be like by itself, with a limit on its body. -/
def validMessageShape (message : RoomMessage) (maximumBodyBytes : ℕ) : Bool :=
  validIdentifier message.id && validIdentifier message.roomId &&
    validIdentifier message.authorId && message.recipients.length ≤ maximumMessageLinks &&
    uniqueValidIdentifiers message.recipients && validText message.body maximumBodyBytes &&
    validText message.createdAt 64 && message.artifactIds.length ≤ maximumMessageLinks &&
    uniqueValidIdentifiers message.artifactIds

/-- The check of one message of a room, but for the uniqueness of its identifier. -/
def validRoomMessage (room : Room) (roomParticipants : List String) (message : RoomMessage) :
    Bool :=
  validMessageShape message maximumMessageBodyBytes && message.roomId == room.id &&
    roomParticipants.contains message.authorId &&
    message.recipients.all roomParticipants.contains

/-- The loop over the rooms, with the room and the message identifiers seen so far. -/
def validateRooms (participantIds : List String) :
    List Room → List String → List String → Except RoomSnapshotError Unit
  | [], _, _ => .ok ()
  | room :: rest, roomIds, messageIds =>
    if !validIdentifier room.id || !validText room.name maximumDisplayNameBytes ||
        maximumRoomParticipants < room.participantIds.length ||
        maximumRoomMessages < room.messages.length || roomIds.contains room.id then
      .error .invalidSnapshot
    else
      let roomParticipants := room.participantIds.dedup
      if roomParticipants.length != room.participantIds.length ||
          roomParticipants.any fun participantId => !participantIds.contains participantId then
        .error .invalidSnapshot
      else
        match insertDistinct (validRoomMessage room roomParticipants) (·.id) room.messages
            messageIds with
        | none => .error .invalidSnapshot
        | some messageIds => validateRooms participantIds rest (room.id :: roomIds) messageIds

/-- The check of a participant, but for the uniqueness of its identifier. -/
def validParticipant (participant : RoomParticipant) : Bool :=
  validIdentifier participant.id && validText participant.displayName maximumDisplayNameBytes

/-- The check of a snapshot, in the order of the source. -/
def validateSnapshot (snapshot : RoomSnapshot) : Except RoomSnapshotError Unit :=
  if snapshot.schemaVersion != protocolVersion || !validText snapshot.generatedAt 64 ||
      maximumParticipants < snapshot.participants.length ||
      maximumRooms < snapshot.rooms.length then
    .error .invalidSnapshot
  else
    match insertDistinct validParticipant (·.id) snapshot.participants [] with
    | none => .error .invalidSnapshot
    | some participantIds => validateRooms participantIds snapshot.rooms [] []

/-! ## Drafts -/

/-- The check of a draft of a message. -/
def validDraftMessage (message : RoomMessage) : Bool :=
  validMessageShape message maximumRoomWriteBodyBytes && !isBlank message.body &&
    !message.recipients.isEmpty

/-- A message that is to be appended. -/
structure RoomMessageDraft where
  message : RoomMessage
  /-- The message has passed the check. -/
  valid : validDraftMessage message = true

/-- Why a message is not drafted. -/
inductive RoomMessageDraftError where
  | invalidMessage
  deriving DecidableEq

/-- A draft of a message, if the message passes its check. -/
def RoomMessageDraft.tryNewWithProvenance (id roomId authorId : String)
    (recipients : List String) (body createdAt : String) (artifactIds : List String)
    (provenance : Option RoomMessageProvenance) : Except RoomMessageDraftError RoomMessageDraft :=
  let message : RoomMessage :=
    { id, roomId, authorId, recipients, body, createdAt, artifactIds, provenance }
  if h : validDraftMessage message = true then .ok ⟨message, h⟩ else .error .invalidMessage

/-- A draft of a message that comes from its author. -/
def RoomMessageDraft.tryNew (id roomId authorId : String) (recipients : List String)
    (body createdAt : String) (artifactIds : List String) :
    Except RoomMessageDraftError RoomMessageDraft :=
  tryNewWithProvenance id roomId authorId recipients body createdAt artifactIds none

/-- The check of a draft of a room. -/
def validDraftRoom (room : Room) (createdAt : String) : Bool :=
  validIdentifier room.id && validText room.name maximumDisplayNameBytes &&
    !room.participantIds.isEmpty && room.participantIds.length ≤ maximumRoomParticipants &&
    uniqueValidIdentifiers room.participantIds && validText createdAt 64

/-- A room that is to be created. -/
structure RoomCreateDraft where
  room : Room
  createdAt : String
  /-- The room has passed the check. -/
  valid : validDraftRoom room createdAt = true
  /-- The room starts without messages. -/
  noMessages : room.messages = []

/-- Why a room is not drafted. -/
inductive RoomCreateDraftError where
  | invalidRoom
  deriving DecidableEq

/-- A draft of a room without messages, if it passes its check. -/
def RoomCreateDraft.tryNew (id name : String) (participantIds : List String) (createdAt : String) :
    Except RoomCreateDraftError RoomCreateDraft :=
  let room : Room := { id, name, participantIds, messages := [] }
  if h : validDraftRoom room createdAt = true then .ok ⟨room, createdAt, h, rfl⟩
  else .error .invalidRoom

/-! ## Results -/

/-- What an answer says of a room. -/
structure RoomSummary where
  id : String
  name : String
  participantIds : List String
  latestMessageAt : Option String
  deriving DecidableEq

/-- The summary of a room, with the time of its last message. -/
def roomSummary (room : Room) : RoomSummary where
  id := room.id
  name := room.name
  participantIds := room.participantIds
  latestMessageAt := room.messages.getLast?.map (·.createdAt)

/-- What a change of the rooms comes to. -/
inductive RoomMutationStatus where
  | created
  | added
  | renamed
  | removed
  | deleted
  | duplicate
  deriving DecidableEq

/-- The answer to a change of the rooms. -/
structure RoomMutationSuccess where
  ok : Bool
  status : RoomMutationStatus
  room : RoomSummary
  deriving DecidableEq

/-- The answer with the summary of the room. -/
def RoomMutationSuccess.new (status : RoomMutationStatus) (room : Room) : RoomMutationSuccess :=
  { ok := true, status, room := roomSummary room }

/-- Why the rooms are not changed. -/
inductive RoomMutationError where
  | invalidMutation
  | roomNotFound
  | participantNotFound
  | participantInUse
  | requiredParticipant
  | requiredRoom
  | idempotencyConflict
  | capacityReached
  | sourceUnavailable
  deriving DecidableEq

/-- Whether the message is new or was there. -/
inductive RoomWriteStatus where
  | appended
  | duplicate
  deriving DecidableEq

/-- The answer to a message that is written. -/
structure RoomWriteSuccess where
  ok : Bool
  status : RoomWriteStatus
  message : RoomMessage
  deriving DecidableEq

/-- The answer with the message. -/
def RoomWriteSuccess.new (status : RoomWriteStatus) (message : RoomMessage) : RoomWriteSuccess :=
  { ok := true, status, message }

/-- Why a message is not written. -/
inductive RoomWriteError where
  | roomNotFound
  | authorNotParticipant
  | recipientNotParticipant
  | idempotencyConflict
  | roomCapacityReached
  | sourceUnavailable
  deriving DecidableEq

/-! ## The operations -/

/-- Whether two messages are the same but for when they were created. -/
def sameIdempotentPayload (existing retried : RoomMessage) : Bool :=
  existing.id == retried.id && existing.roomId == retried.roomId &&
    existing.authorId == retried.authorId && existing.recipients == retried.recipients &&
    existing.body == retried.body && existing.artifactIds == retried.artifactIds &&
    existing.provenance == retried.provenance

/-- Write a message. The same message again is a duplicate, and another one with its identifier a
conflict. -/
def appendMessage (draft : RoomMessageDraft) (snapshot : RoomSnapshot) :
    Except RoomWriteError RoomWriteSuccess × RoomSnapshot :=
  let message := draft.message
  match snapshot.messages.find? (fun existing => existing.id == message.id) with
  | some existing =>
    if sameIdempotentPayload existing message then (.ok (.new .duplicate existing), snapshot)
    else (.error .idempotencyConflict, snapshot)
  | none =>
    match snapshot.rooms.find? (fun room => room.id == message.roomId) with
    | none => (.error .roomNotFound, snapshot)
    | some room =>
      if maximumRoomMessages ≤ room.messages.length then (.error .roomCapacityReached, snapshot)
      else if !room.participantIds.contains message.authorId then
        (.error .authorNotParticipant, snapshot)
      else if message.recipients.any fun recipient => !room.participantIds.contains recipient then
        (.error .recipientNotParticipant, snapshot)
      else
        (.ok (.new .appended message),
          { snapshot with
            generatedAt := message.createdAt
            rooms := modifyFirst (fun room => room.id == message.roomId)
              (fun room => { room with messages := room.messages ++ [message] }) snapshot.rooms })

/-- Make a room. The same room again is a duplicate. -/
def createRoom (draft : RoomCreateDraft) (snapshot : RoomSnapshot) :
    Except RoomMutationError RoomMutationSuccess × RoomSnapshot :=
  match snapshot.rooms.find? (fun room => room.id == draft.room.id) with
  | some existing =>
    if existing.name == draft.room.name && existing.participantIds == draft.room.participantIds then
      (.ok (.new .duplicate existing), snapshot)
    else (.error .idempotencyConflict, snapshot)
  | none =>
    if maximumRooms ≤ snapshot.rooms.length then (.error .capacityReached, snapshot)
    else if draft.room.participantIds.any fun participantId =>
        !snapshot.participants.any fun participant => participant.id == participantId then
      (.error .participantNotFound, snapshot)
    else
      (.ok (.new .created draft.room),
        { snapshot with
          generatedAt := draft.createdAt
          rooms := snapshot.rooms ++ [draft.room] })

/-- Take a participant into a room. -/
def addRoomParticipant (roomId participantId updatedAt : String) (snapshot : RoomSnapshot) :
    Except RoomMutationError RoomMutationSuccess × RoomSnapshot :=
  if !validIdentifier roomId || !validIdentifier participantId || !validText updatedAt 64 then
    (.error .invalidMutation, snapshot)
  else if !snapshot.participants.any fun participant => participant.id == participantId then
    (.error .participantNotFound, snapshot)
  else
    match snapshot.rooms.find? (fun room => room.id == roomId) with
    | none => (.error .roomNotFound, snapshot)
    | some room =>
      if room.participantIds.contains participantId then (.ok (.new .duplicate room), snapshot)
      else if maximumRoomParticipants ≤ room.participantIds.length then
        (.error .capacityReached, snapshot)
      else
        let add (room : Room) : Room :=
          { room with participantIds := room.participantIds ++ [participantId] }
        (.ok (.new .added (add room)),
          { snapshot with
            generatedAt := updatedAt
            rooms := modifyFirst (fun room => room.id == roomId) add snapshot.rooms })

/-- Give a room another name. -/
def renameRoom (roomId name updatedAt : String) (snapshot : RoomSnapshot) :
    Except RoomMutationError RoomMutationSuccess × RoomSnapshot :=
  if !validIdentifier roomId || !validText name maximumDisplayNameBytes ||
      !validText updatedAt 64 then
    (.error .invalidMutation, snapshot)
  else
    match snapshot.rooms.find? (fun room => room.id == roomId) with
    | none => (.error .roomNotFound, snapshot)
    | some room =>
      if room.name == name then (.ok (.new .duplicate room), snapshot)
      else
        let rename (room : Room) : Room := { room with name := name }
        (.ok (.new .renamed (rename room)),
          { snapshot with
            generatedAt := updatedAt
            rooms := modifyFirst (fun room => room.id == roomId) rename snapshot.rooms })

/-- Take a participant out of a room, unless a message is from it or to it, or fewer than two would
be left. -/
def removeRoomParticipant (roomId participantId updatedAt : String) (snapshot : RoomSnapshot) :
    Except RoomMutationError RoomMutationSuccess × RoomSnapshot :=
  if !validIdentifier roomId || !validIdentifier participantId || !validText updatedAt 64 then
    (.error .invalidMutation, snapshot)
  else if !snapshot.participants.any fun participant => participant.id == participantId then
    (.error .participantNotFound, snapshot)
  else
    match snapshot.rooms.find? (fun room => room.id == roomId) with
    | none => (.error .roomNotFound, snapshot)
    | some room =>
      match removeFirst (fun existing => existing == participantId) room.participantIds with
      | none => (.ok (.new .duplicate room), snapshot)
      | some (_, participantIds) =>
        if room.participantIds.length ≤ 2 then (.error .requiredParticipant, snapshot)
        else if room.messages.any fun message =>
            message.authorId == participantId || message.recipients.contains participantId then
          (.error .participantInUse, snapshot)
        else
          let remove (room : Room) : Room := { room with participantIds }
          (.ok (.new .removed (remove room)),
            { snapshot with
              generatedAt := updatedAt
              rooms := modifyFirst (fun room => room.id == roomId) remove snapshot.rooms })

/-- Delete a room that is not the last one. -/
def deleteRoom (roomId updatedAt : String) (snapshot : RoomSnapshot) :
    Except RoomMutationError RoomMutationSuccess × RoomSnapshot :=
  if !validIdentifier roomId || !validText updatedAt 64 then (.error .invalidMutation, snapshot)
  else if snapshot.rooms.length ≤ 1 then (.error .requiredRoom, snapshot)
  else
    match removeFirst (fun room => room.id == roomId) snapshot.rooms with
    | none => (.error .roomNotFound, snapshot)
    | some (room, rooms) =>
      (.ok (.new .deleted room), { snapshot with generatedAt := updatedAt, rooms })

/-! ## Runs -/

/-- A call of an operation, with its arguments. -/
inductive RoomOperation where
  | appendMessage (draft : RoomMessageDraft)
  | createRoom (draft : RoomCreateDraft)
  | addRoomParticipant (roomId participantId updatedAt : String)
  | renameRoom (roomId name updatedAt : String)
  | removeRoomParticipant (roomId participantId updatedAt : String)
  | deleteRoom (roomId updatedAt : String)

/-- The snapshot that a call leaves. -/
def RoomOperation.apply (snapshot : RoomSnapshot) : RoomOperation → RoomSnapshot
  | .appendMessage draft => (Core.appendMessage draft snapshot).2
  | .createRoom draft => (Core.createRoom draft snapshot).2
  | .addRoomParticipant roomId participantId updatedAt =>
    (Core.addRoomParticipant roomId participantId updatedAt snapshot).2
  | .renameRoom roomId name updatedAt => (Core.renameRoom roomId name updatedAt snapshot).2
  | .removeRoomParticipant roomId participantId updatedAt =>
    (Core.removeRoomParticipant roomId participantId updatedAt snapshot).2
  | .deleteRoom roomId updatedAt => (Core.deleteRoom roomId updatedAt snapshot).2

/-- Whether a call succeeds. -/
def RoomOperation.isOk (snapshot : RoomSnapshot) : RoomOperation → Bool
  | .appendMessage draft => (Core.appendMessage draft snapshot).1.isOk
  | .createRoom draft => (Core.createRoom draft snapshot).1.isOk
  | .addRoomParticipant roomId participantId updatedAt =>
    (Core.addRoomParticipant roomId participantId updatedAt snapshot).1.isOk
  | .renameRoom roomId name updatedAt => (Core.renameRoom roomId name updatedAt snapshot).1.isOk
  | .removeRoomParticipant roomId participantId updatedAt =>
    (Core.removeRoomParticipant roomId participantId updatedAt snapshot).1.isOk
  | .deleteRoom roomId updatedAt => (Core.deleteRoom roomId updatedAt snapshot).1.isOk

/-- The snapshot that a run of calls leaves. -/
def RoomOperation.run (operations : List RoomOperation) (snapshot : RoomSnapshot) : RoomSnapshot :=
  operations.foldl apply snapshot

/-! ## The in-memory source -/

/-- The store: a snapshot that has passed its check. -/
structure InMemoryRoomSource where
  snapshot : RoomSnapshot
  /-- The snapshot has passed the check. -/
  valid : validateSnapshot snapshot = .ok ()

/-- The source over a snapshot that passes its check. -/
def InMemoryRoomSource.new (snapshot : RoomSnapshot) :
    Except RoomSnapshotError InMemoryRoomSource :=
  match h : validateSnapshot snapshot with
  | .ok () => .ok ⟨snapshot, h⟩
  | .error e => .error e

/-- A store is made from every snapshot that passes the check. -/
theorem InMemoryRoomSource.new_eq_ok {snapshot : RoomSnapshot}
    (h : validateSnapshot snapshot = .ok ()) : new snapshot = .ok ⟨snapshot, h⟩ := by
  unfold new
  split
  · rfl
  · simp_all

/-- A store is made only from those. -/
theorem InMemoryRoomSource.valid_of_new {snapshot : RoomSnapshot} {source : InMemoryRoomSource}
    (h : new snapshot = .ok source) : validateSnapshot snapshot = .ok () := by
  unfold new at h
  split at h
  · assumption
  · cases h

/-- Take over another snapshot. It passes the check first. -/
def replaceSnapshot (replacement snapshot : RoomSnapshot) :
    Except RoomSnapshotError Unit × RoomSnapshot :=
  match validateSnapshot replacement with
  | .ok () => (.ok (), replacement)
  | .error e => (.error e, snapshot)

/-- A snapshot that passes the check is taken over. -/
theorem replaceSnapshot_eq_ok {replacement : RoomSnapshot}
    (h : validateSnapshot replacement = .ok ()) (snapshot : RoomSnapshot) :
    replaceSnapshot replacement snapshot = (.ok (), replacement) := by
  simp [replaceSnapshot, h]

end Mio.Core
