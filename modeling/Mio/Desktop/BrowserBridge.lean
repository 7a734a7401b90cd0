import Mio.Core.RoomPaging
import Mio.Desktop.AiDispatch
import Mio.Desktop.RoomSourceRuns
import Mio.Library.Outbox

/-!
# The browser bridge

The queue of `apps/desktop/src-tauri/src/browser_bridge.rs`. Questions to Gemini wait in it for the
browser's extension, which takes the first one and posts the reply with the token of the dispatch.
A reply is appended to the room, and its dispatch is then completed and leaves the list.

The hashes of the standard library's `DefaultHasher` are a parameter, and so is the order in which a
map is gone through. Poisoned locks do not occur.
-/

namespace Mio.Desktop.BrowserBridge

open Library Std Mio.Core Time

/-- The greatest size of a reply, in bytes. -/
def maximumReplyBodyBytes : ℕ := 4000

/-! ## The data -/

/-- A dispatch that the browser may fetch, with the token its reply must carry. -/
structure BrowserBridgeDispatch where
  dispatchId : String
  roomId : String
  sourceMessageId : String
  prompt : String
  replyToken : String
  deriving DecidableEq

/-- Where a dispatch is: waiting for its reply, or answered. -/
inductive BrowserDispatchState where
  | pending (dispatch : BrowserBridgeDispatch)
  | completed (dispatch : BrowserBridgeDispatch) (message : RoomMessage)
  deriving DecidableEq

/-- Whether the reply is still awaited. -/
def BrowserDispatchState.isPending : BrowserDispatchState → Bool
  | .pending _ => true
  | .completed _ _ => false

/-- The dispatch, answered or not. -/
def BrowserDispatchState.dispatch : BrowserDispatchState → BrowserBridgeDispatch
  | .pending dispatch => dispatch
  | .completed dispatch _ => dispatch

/-- The dispatches by the message that they are of. -/
abbrev States := ExtTreeMap String BrowserDispatchState

/-- The dispatches, by source message, and the order in which they came. -/
structure BrowserBridgeLedger where
  order : List String
  states : States

/-- The ledger of a process that just started. -/
def BrowserBridgeLedger.default : BrowserBridgeLedger := ⟨[], ∅⟩

/-- What a queued message is answered: it waits, or its reply is there already. -/
inductive BrowserBridgeQueueResult where
  | queued
  | completed (message : RoomMessage)
  deriving DecidableEq

/-- What the browser is told of a stored reply. -/
structure BrowserBridgeReplySuccess where
  ok : Bool
  status : String
  truncated : Bool
  message : RoomMessage
  deriving DecidableEq

/-- What the browser sends as a reply. -/
structure BrowserBridgeReplyInput where
  dispatchId : String
  replyToken : String
  body : String
  sourceUrl : String
  deriving DecidableEq

/-- Why the bridge refuses a call. -/
inductive BrowserBridgeError where
  | invalidRequest
  | dispatchNotFound
  | sourceUnavailable
  deriving DecidableEq

/-- The hashes of an identifier, and the two of a message at a time in nanoseconds. -/
structure Hashes where
  messageId : String → UInt64
  token : RoomMessage → ℕ → UInt64 × UInt64

/-- A way to go through the entries of a map. -/
structure Iteration where
  entries : States → List (String × BrowserDispatchState)
  perm : ∀ states : States, (entries states).Perm states.toList

/-! ## The parts of a reply -/

/-- Whether the page of a reply is one of the known Google pages. -/
def validGoogleSource (sourceUrl : String) : Bool :=
  ["https://www.google.com/search", "https://www.google.com/ai", "https://www.google.co.jp/search",
    "https://www.google.co.jp/ai"].any fun known =>
      sourceUrl == known || sourceUrl.startsWith s!"{known}/"

/-- The characters that fit, from the first on. -/
def takeWithin : ℕ → List Char → List Char
  | _, [] => []
  | size, c :: chars =>
    if c.utf8Size ≤ size then c :: takeWithin (size - c.utf8Size) chars else []

/-- What is put after a reply that was cut. -/
def replySuffix : String := "\n\n（M.I.O.の取り込み上限により末尾を省略しました）"

/-- The body as it is stored, and whether its end is left out. -/
def boundedReplyBody (input : String) : Except BrowserBridgeError (String × Bool) :=
  let trimmed := trim input
  if trimmed.isEmpty then .error .invalidRequest
  else if trimmed.utf8ByteSize ≤ maximumReplyBodyBytes then .ok (trimmed, false)
  else
    let maximumPrefix := maximumReplyBodyBytes - replySuffix.utf8ByteSize
    .ok (String.ofList (takeWithin maximumPrefix trimmed.toList) ++ replySuffix, true)

/-- Whether the participant is a human of the rooms. -/
def isHumanParticipant (rooms : RoomSnapshot) (participantId : String) : Bool :=
  rooms.participants.any fun participant =>
    participant.id == participantId && participant.kind == .human

section Hashed

variable (hashes : Hashes)

/-- The id of the message that stores a reply. -/
def browserReplyMessageId (sourceMessageId : String) : String :=
  s!"browser-reply-gemini-{Conductor.lowerHex16 (hashes.messageId sourceMessageId)}"

/-- The token a reply must carry. -/
def replyToken (sourceMessage : RoomMessage) (nanoseconds : ℕ) : String :=
  let (first, second) := hashes.token sourceMessage nanoseconds
  s!"{Conductor.lowerHex16 first}{Conductor.lowerHex16 second}"

/-- The reply to a dispatch, as it is to be appended. -/
def replyDraft (rooms : RoomSnapshot) (clock : Clock) (dispatch : BrowserBridgeDispatch)
    (body : String) : Except BrowserBridgeError RoomMessageDraft :=
  match findMessage rooms dispatch.roomId dispatch.sourceMessageId with
  | .error _ => .error .sourceUnavailable
  | .ok sourceMessage =>
    if !isHumanParticipant rooms sourceMessage.authorId then .error .invalidRequest
    else
      match currentRfc3339Timestamp clock with
      | none => .error .sourceUnavailable
      | some createdAt =>
        match RoomMessageDraft.tryNew (browserReplyMessageId hashes dispatch.sourceMessageId)
            dispatch.roomId AiDispatch.geminiSearchParticipantId [sourceMessage.authorId] body
            createdAt [] with
        | .error _ => .error .invalidRequest
        | .ok draft => .ok draft

/-! ## The operations -/

/-- Queues a message for the browser; one that is queued already is only looked up. -/
def queue (sourceMessage : RoomMessage) (prompt : String) (nanoseconds : ℕ)
    (ledger : BrowserBridgeLedger) :
    Except BrowserBridgeError BrowserBridgeQueueResult × BrowserBridgeLedger :=
  if (trim prompt).isEmpty || 32000 < prompt.utf8ByteSize then (.error .invalidRequest, ledger)
  else
    match ledger.states[sourceMessage.id]? with
    | some (.pending _) => (.ok .queued, ledger)
    | some (.completed _ message) => (.ok (.completed message), ledger)
    | none =>
      let dispatch : BrowserBridgeDispatch :=
        { dispatchId := s!"browser-gemini:{sourceMessage.roomId}:{sourceMessage.id}"
          roomId := sourceMessage.roomId
          sourceMessageId := sourceMessage.id
          prompt
          replyToken := replyToken hashes sourceMessage nanoseconds }
      (.ok .queued,
        { order := ledger.order ++ [sourceMessage.id]
          states := ledger.states.insert sourceMessage.id (.pending dispatch) })

/-- The dispatch of a state that is pending. -/
def pendingDispatch : BrowserDispatchState → Option BrowserBridgeDispatch
  | .pending dispatch => some dispatch
  | .completed _ _ => none

/-- The oldest dispatch that has no reply. -/
def nextDispatch (ledger : BrowserBridgeLedger) : Option BrowserBridgeDispatch :=
  ledger.order.findSome? fun sourceMessageId =>
    ledger.states[sourceMessageId]?.bind pendingDispatch

/-- The dispatch has the identifier and the token of the reply. -/
def BrowserBridgeReplyInput.isFor (input : BrowserBridgeReplyInput)
    (dispatch : BrowserBridgeDispatch) : Bool :=
  dispatch.dispatchId == input.dispatchId && dispatch.replyToken == input.replyToken

/-- The message of the dispatch that a reply is for. A completed dispatch is passed over. -/
def findDispatch (iteration : Iteration) (input : BrowserBridgeReplyInput) (states : States) :
    Option String :=
  (iteration.entries states).findSome? fun
    | (sourceMessageId, .pending dispatch) =>
      if input.isFor dispatch then some sourceMessageId else none
    | (_, .completed _ _) => none

/-- What a reply is answered with, and what it leaves of the ledger and the rooms. There is no
answer where the process stops. -/
structure ReplyOutcome where
  answer : Option (Except BrowserBridgeError BrowserBridgeReplySuccess)
  ledger : BrowserBridgeLedger
  source : RoomSource.State

/-- How the status of a write is told to the browser. -/
def replyStatus : RoomWriteStatus → String
  | .appended => "appended"
  | .duplicate => "duplicate"

/-- Append the reply, and complete its dispatch. -/
def storeReply (serde : Serde PersistedRoomFile) (faults : List Fault) (sourceMessageId : String)
    (dispatch : BrowserBridgeDispatch) (truncated : Bool) (draft : RoomMessageDraft)
    (ledger : BrowserBridgeLedger) (source : RoomSource.State) : ReplyOutcome :=
  match (RoomSource.appendMessage serde draft source.memory).run faults source.world with
  | (.done (.error _, memory), world) =>
    { answer := some (.error .sourceUnavailable), ledger, source := { source with memory, world } }
  | (.done (.ok saved, memory), world) =>
    { answer := some (.ok
        { ok := true, status := replyStatus saved.status, truncated, message := saved.message })
      ledger :=
        { order := ledger.order.filter fun id => id ≠ sourceMessageId
          states := ledger.states.insert sourceMessageId (.completed dispatch saved.message) }
      source := { source with memory, world } }
  | (_, world) => { answer := none, ledger, source := { source with world, running := false } }

/-- Takes a reply: checks it, stores its message and marks the dispatch as answered. -/
def completeReply (serde : Serde PersistedRoomFile) (iteration : Iteration) (faults : List Fault)
    (clock : Clock) (input : BrowserBridgeReplyInput) (ledger : BrowserBridgeLedger)
    (source : RoomSource.State) : ReplyOutcome :=
  let refuse (error : BrowserBridgeError) : ReplyOutcome :=
    { answer := some (.error error), ledger, source }
  if !validGoogleSource input.sourceUrl then refuse .invalidRequest
  else
    match findDispatch iteration input ledger.states with
    | none => refuse .dispatchNotFound
    | some sourceMessageId =>
      match ledger.states[sourceMessageId]? with
      | none => refuse .dispatchNotFound
      | some (.completed _ message) =>
        { answer := some (.ok { ok := true, status := "duplicate", truncated := false, message })
          ledger, source }
      | some (.pending dispatch) =>
        match boundedReplyBody input.body with
        | .error error => refuse error
        | .ok (body, truncated) =>
          match replyDraft hashes source.memory clock dispatch body with
          | .error error => refuse error
          | .ok draft =>
            storeReply serde faults sourceMessageId dispatch truncated draft ledger source

end Hashed

end Mio.Desktop.BrowserBridge
