import Mio.Core.RoomPaging

/-!
# The rooms that the window shows

What `apps/desktop/src/hooks/useRooms.ts` does with the rooms that it shows, and how
`apps/desktop/src/roomBridge.ts` checks and reads the answers of the backend. A message that is
written, an AI's reply, a conductor's answer, and a reply from the browser are each added to the
room unless it has them. When a message was saved from elsewhere, the room is read again, and the
answer replaces it.

The window and the store of the rooms take their steps in any order: an answer is in flight until
the window receives it, and a room that was read is applied later.
-/

namespace Mio.Interface

open Library Mio.Core

/-- The id of the owner. -/
def ownerParticipantId : String := "owner"

/-- The kinds of the participants that the window knows. -/
abbrev ParticipantMap := String → Option RoomParticipantKind

/-- A message as the window shows it. -/
structure ChatMessage where
  id : String
  authorId : String
  body : String
  targetIds : List String
  sentAt : String
  isDemo : Bool
  provenance : Option RoomMessageProvenance
  artifactIds : List String
  deriving DecidableEq

/-- A room as it is shown. -/
structure RoomView where
  id : String
  name : String
  participantIds : List String
  messages : List ChatMessage
  updatedLabel : String
  deriving DecidableEq

/-- White space for `trim`: that of Unicode without U+0085, and U+FEFF. -/
def isTrimmed (c : Char) : Bool := isWhitespace c && c != '\u0085' || c == '\uFEFF'

/-- Whether nothing is left of a body once it is trimmed. -/
def isEmptyTrimmed (body : String) : Bool := body.toList.all isTrimmed

/-! ## The answers of the backend -/

section Views

variable (displayTime : String → String)

/-- How a message of the store is shown. -/
def messageView (message : RoomMessage) (participants : ParticipantMap) : ChatMessage where
  id := message.id
  authorId := message.authorId
  body := message.body
  targetIds := message.recipients
  sentAt := displayTime message.createdAt
  isDemo := participants message.authorId == some .ai &&
    "welcome-".toList.isPrefixOf message.id.toList
  provenance := message.provenance
  artifactIds := message.artifactIds

/-- How a room that was read is shown. -/
def hydrateRoom (room : RoomReadView) : RoomView :=
  let participants (id : String) :=
    (room.participants.find? fun participant => participant.id == id).map (·.kind)
  { id := room.id
    name := room.name
    participantIds := room.participants.map (·.id)
    messages := room.messages.map fun message => messageView displayTime message participants
    updatedLabel :=
      match room.messages.getLast? with
      | some message => displayTime message.createdAt
      | none => "まだ会話なし" }

/-- What the window sends to write a message. -/
structure WriteInput where
  roomId : String
  messageId : String
  recipientIds : List String
  body : String
  deriving DecidableEq

/-- The message that was written, if it is the one that was asked for. -/
def writeDesktopRoomMessage (input : WriteInput) (value : RoomWriteSuccess)
    (participants : ParticipantMap) : Option ChatMessage :=
  let message := value.message
  if message.id != input.messageId || message.roomId != input.roomId ||
      message.authorId != ownerParticipantId || message.body != input.body ||
      message.recipients != input.recipientIds || !message.artifactIds.isEmpty ||
      message.provenance.isSome then none
  else some (messageView displayTime message participants)

/-- What the window is told of one recipient. -/
inductive DispatchStatus where
  | completed
  | duplicate
  | failed
  | unknown
  | queued
  | unsupported
  deriving DecidableEq

/-- The answer of a dispatch, for one recipient. -/
structure RecipientDispatchResult where
  recipientId : String
  status : DispatchStatus
  message : Option RoomMessage
  deriving DecidableEq

/-- The answer of a dispatch, for all recipients. -/
structure RoomDispatchSuccess where
  sourceMessageId : String
  results : List RecipientDispatchResult
  deriving DecidableEq

/-- What the window sends to dispatch a message. -/
structure DispatchInput where
  roomId : String
  messageId : String
  recipientIds : List String
  deriving DecidableEq

/-- The reply of one recipient. A recipient that has not completed has none. -/
def dispatchMessages (input : DispatchInput) (participants : ParticipantMap)
    (result : RecipientDispatchResult) : Option (List ChatMessage) :=
  match result.status with
  | .unsupported | .queued | .failed | .unknown => if result.message.isSome then none else some []
  | .completed | .duplicate =>
    match result.message with
    | none => none
    | some message =>
      if message.roomId != input.roomId || message.authorId != result.recipientId ||
          message.recipients != [ownerParticipantId] ||
          isEmptyTrimmed message.body && message.artifactIds.isEmpty then none
      else some [messageView displayTime message participants]

/-- The replies of a dispatch, in the order of the recipients. -/
def desktopRoomDispatchView (value : RoomDispatchSuccess) (input : DispatchInput)
    (participants : ParticipantMap) : Option (List ChatMessage) :=
  if value.sourceMessageId != input.messageId ||
      value.results.map (·.recipientId) != input.recipientIds then none
  else (value.results.mapM (dispatchMessages displayTime input participants)).map List.flatten

/-- The answer of a conductor. -/
def orchestrateDesktopRoomMessage (roomId : String) (finalMessage : RoomMessage)
    (participants : ParticipantMap) : Option ChatMessage :=
  if finalMessage.roomId != roomId || finalMessage.recipients != [ownerParticipantId] ||
      isEmptyTrimmed finalMessage.body || !finalMessage.artifactIds.isEmpty then none
  else some (messageView displayTime finalMessage participants)

/-- The reply that the browser has given. -/
def browserBridgeReplyView (value : RoomMessage) (participants : ParticipantMap) :
    Option ChatMessage :=
  if value.authorId != "gemini" || value.recipients != [ownerParticipantId] ||
      !value.artifactIds.isEmpty || isEmptyTrimmed value.body then none
  else some (messageView displayTime value participants)

/-- A room's last thirty messages, as they are now. -/
def readDesktopRoom (roomId : String) (store : RoomSnapshot) : Option RoomReadSuccess :=
  readPage roomId none 30 store

end Views

/-! ## The rooms that are shown -/

/-- A change of the room with the identifier. -/
def updateRoom (roomId : String) (change : RoomView → RoomView) (rooms : List RoomView) :
    List RoomView :=
  rooms.map fun room => if room.id = roomId then change room else room

/-- One message is added unless the room has it. -/
def addMessage (message : ChatMessage) (room : RoomView) : RoomView :=
  { room with
    messages :=
      if room.messages.any fun existing => existing.id == message.id then room.messages
      else room.messages ++ [message]
    updatedLabel := "いま" }

/-- The messages of a dispatch are added, but for those that the room has. -/
def addMessages (messages : List ChatMessage) (room : RoomView) : RoomView :=
  { room with
    messages := room.messages ++ messages.filter fun message =>
      !room.messages.any fun existing => existing.id == message.id
    updatedLabel := "いま" }

/-! ## Steps -/

/-- How a message comes into the store. -/
inductive MessagePath where
  | ownerWrite
  | aiDispatch (sourceMessageId : String)
  | orchestration
  | bridgeReply
  | viaCodex
  deriving DecidableEq

/-- What is on its way to the window. -/
inductive WindowAnswer where
  | written (input : WriteInput) (value : RoomWriteSuccess)
  | dispatched (input : DispatchInput) (value : RoomDispatchSuccess)
  | orchestrated (roomId : String) (finalMessage : RoomMessage)
  | bridgeReply (message : RoomMessage)
  /-- `mio-room-message-saved` -/
  | messageSaved (roomId : String)
  deriving DecidableEq

/-- A room that was read and is not yet applied. `stored` is what the store then had of it. -/
structure PendingRead where
  roomId : String
  result : RoomReadSuccess
  stored : List RoomMessage
  deriving DecidableEq

/-- The store, what the window shows of it, and what is on its way. -/
structure WindowState where
  store : RoomSnapshot
  rooms : List RoomView
  inFlight : List WindowAnswer
  /-- The rooms that are to be read. -/
  requests : List String
  reads : List PendingRead
  /-- The messages that the window was given, each with its room. -/
  given : List (String × String)

/-- The answer of the backend to what was stored on a path. -/
def answerFor (draft : RoomMessage) (value : RoomWriteSuccess) : MessagePath → WindowAnswer
  | .ownerWrite =>
    .written
      { roomId := draft.roomId, messageId := draft.id, recipientIds := draft.recipients
        body := draft.body } value
  | .aiDispatch sourceMessageId =>
    .dispatched
      { roomId := draft.roomId, messageId := sourceMessageId, recipientIds := [draft.authorId] }
      { sourceMessageId
        results :=
          [{ recipientId := draft.authorId
             status :=
              match value.status with
              | .appended => .completed
              | .duplicate => .duplicate
             message := some value.message }] }
  | .orchestration => .orchestrated draft.roomId value.message
  | .bridgeReply => .bridgeReply value.message
  | .viaCodex => .messageSaved draft.roomId

section Steps

variable (displayTime : String → String)

/-- What an answer shows: the messages that pass their checks, and how they come into their room. -/
def WindowAnswer.shows (participants : ParticipantMap) :
    WindowAnswer → Option (String × List ChatMessage × (RoomView → RoomView))
  | .written input value =>
    (writeDesktopRoomMessage displayTime input value participants).map fun message =>
      (input.roomId, [message], addMessage message)
  | .dispatched input value =>
    (desktopRoomDispatchView displayTime value input participants).map fun messages =>
      (input.roomId, messages, addMessages messages)
  | .orchestrated roomId finalMessage =>
    (orchestrateDesktopRoomMessage displayTime roomId finalMessage participants).map fun message =>
      (roomId, [message], addMessage message)
  | .bridgeReply message =>
    (browserBridgeReplyView displayTime message participants).map fun reply =>
      (message.roomId, [reply], addMessage reply)
  | .messageSaved _ => none

/-- The rooms that are to be read on account of an answer. -/
def WindowAnswer.requests : WindowAnswer → List String
  | .messageSaved roomId => [roomId]
  | _ => []

/-- What can happen between the store and the window. -/
inductive WindowEvent where
  /-- A message is stored, and the answer is on its way. -/
  | store (path : MessagePath) (draft : RoomMessageDraft)
  /-- The window receives an answer. -/
  | receive (index : ℕ) (participants : ParticipantMap)
  /-- A room is read. -/
  | read (index : ℕ)
  /-- A room that was read replaces the one that is shown. -/
  | apply (index : ℕ)

/-- One event. -/
def WindowState.step (state : WindowState) : WindowEvent → WindowState
  | .store path draft =>
    match appendMessage draft state.store with
    | (.ok value, store) =>
      { state with store, inFlight := state.inFlight ++ [answerFor draft.message value path] }
    | (.error _, store) => { state with store }
  | .receive index participants =>
    match state.inFlight[index]? with
    | none => state
    | some answer =>
      let state :=
        { state with
          inFlight := state.inFlight.eraseIdx index
          requests := state.requests ++ answer.requests }
      match answer.shows displayTime participants with
      | none => state
      | some (roomId, messages, change) =>
        { state with
          rooms := updateRoom roomId change state.rooms
          given := state.given ++ messages.map fun message => (roomId, message.id) }
  | .read index =>
    match state.requests[index]? with
    | none => state
    | some roomId =>
      let state := { state with requests := state.requests.eraseIdx index }
      match readDesktopRoom roomId state.store with
      -- The store may have moved on since the request was made, and it is read as it is now.
      | none => state
      | some result =>
        let stored := (state.store.rooms.find? fun room => room.id == roomId).elim [] (·.messages)
        { state with reads := state.reads ++ [{ roomId, result, stored }] }
  | .apply index =>
    match state.reads[index]? with
    | none => state
    | some read =>
      let state := { state with reads := state.reads.eraseIdx index }
      -- An answer for another room is dropped.
      if read.result.room.id != read.roomId then state
      else
        { state with
          rooms :=
            updateRoom read.roomId (fun _ => hydrateRoom displayTime read.result.room) state.rooms
          given := state.given ++ read.result.room.messages.map fun message =>
            (read.roomId, message.id) }

/-- A run of events. -/
def WindowState.run (events : List WindowEvent) (state : WindowState) : WindowState :=
  events.foldl (fun state event => state.step displayTime event) state

end Steps

end Mio.Interface
