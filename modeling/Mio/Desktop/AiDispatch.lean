import Mio.Core.Conductor
import Mio.Core.RoomValidity
import Mio.Desktop.AiDispatchLedger
import Mio.Desktop.RoomAiContinuity
import Mio.Desktop.Time

/-!
# The dispatch of a message to an AI participant

The parts of `apps/desktop/src-tauri/src/ai_dispatch.rs` that a dispatch computes from the message,
its room, and the settings: the identifiers of the dispatch and of the reply, the key of the
environment that a session belongs to, and the plan of which messages of the room are sent as the
context. Room identifiers and message identifiers may have dots, which the ledger and the continuity
store refuse (`dispatchable_iff`). The key of a workspace's environment has the path of the
workspace in it, and is refused for every path with a separator (`environment_keys`).
-/

namespace Mio.Desktop.AiDispatch

open Library Mio.Core Mio.Core.Conductor RoomAiContinuity

/-- The participant that Codex is. -/
def codexParticipantId : String := "codex"

/-- The participant that Claude Code is. -/
def claudeCodeParticipantId : String := "claude-code"

/-- The participant that Grok is. -/
def grokParticipantId : String := "grok"

/-- The participant that Gemini is. -/
def geminiSearchParticipantId : String := "gemini"

/-- The start of the key for a thread of Codex without a workspace. -/
def codexChatEnvironmentPrefix : String := "codex-prompt-v5-isolated-chat"

/-- The start of the key for a thread of Codex in a workspace. -/
def codexWorkspaceEnvironmentPrefix : String := "codex-prompt-v6-isolated-workspace"

/-- The start of the key for a session of Grok without a workspace. -/
def grokChatEnvironmentPrefix : String := "grok-cli-chat-only-v4-ai-instructions"

/-- The start of the key for a session of Grok in a workspace. -/
def grokWorkspaceEnvironmentPrefix : String := "grok-cli-read-only-review-v1"

/-- The start of the key for a session of Gemini. -/
def geminiChatEnvironmentPrefix : String := "gemini-antigravity-chat-v2"

/-- The start of the key for a session of Claude. -/
def claudeChatEnvironmentPrefix : String := "claude-code-fable-5-chat-v3"

/-- The most messages of the room that a prompt shows. -/
def maximumContextMessages : ℕ := 16

/-- The most characters of each of them that it shows. -/
def maximumContextBodyChars : ℕ := 800

/-- Why a dispatch fails, as the window is told. -/
structure RoomDispatchCommandError where
  code : String
  message : String
  deriving DecidableEq

/-! ## Identifiers -/

/-- The FNV-1a hash of some bytes. -/
def fnv (bytes : Bytes) : UInt64 := bytes.foldl fnvStep 0xcbf29ce484222325

/-- The identifier of the reply that a recipient gives to a message. -/
def replyMessageId (sourceMessageId recipientId : String) : String :=
  s!"reply-{recipientId}-{lowerHex16 (fnv (asBytes sourceMessageId ++ 0 :: asBytes recipientId))}"

/-- The identifier of the dispatch of a message to a recipient. -/
def dispatchId (sourceMessageId recipientId : String) : String :=
  s!"room-message:{sourceMessageId}:{recipientId}"

/-- The record that a dispatch begins in the ledger. -/
def dispatchRecord (sourceMessage : RoomMessage) (recipientId updatedAt : String) :
    AiDispatchLedger.AiDispatchRecord where
  dispatchId := dispatchId sourceMessage.id recipientId
  roomId := sourceMessage.roomId
  sourceMessageId := sourceMessage.id
  recipientId := recipientId
  replyMessageId := replyMessageId sourceMessage.id recipientId
  state := .prepared
  updatedAt := updatedAt

/-! ## Environments -/

/-- What a turn may do in the workspace. -/
inductive TextTurnWorkspaceAccess where
  | readOnly
  | readWrite
  deriving DecidableEq

/-- The key of an environment without a workspace, by what shapes its turns. -/
def chatEnvironmentKey (environmentPrefix : String)
    (aiInstructions model : Option String) : String :=
  let bytes := asBytes environmentPrefix ++ 0 :: asBytes (aiInstructions.getD "") ++
    0 :: asBytes (model.getD "")
  s!"{environmentPrefix}-{lowerHex16 (fnv bytes)}"

/-- The prefix for a workspace. The root is given by its text (`to_string_lossy`). -/
def workspaceEnvironmentPrefix (environmentPrefix access root : String) : String :=
  s!"{environmentPrefix}-{access}-{root}"

/-- The access as it stands in a key of Codex. -/
def codexAccess : Option TextTurnWorkspaceAccess → String
  | some .readOnly => "read"
  | some .readWrite => "write"
  | none => "chat"

/-- The key under which a thread of Codex can be resumed. -/
def continuityEnvironmentKey (workspaceRoot : Option String)
    (workspaceAccess : Option TextTurnWorkspaceAccess) (aiInstructions model : Option String) :
    String :=
  match workspaceRoot with
  | none => chatEnvironmentKey codexChatEnvironmentPrefix aiInstructions model
  | some root =>
    chatEnvironmentKey
      (workspaceEnvironmentPrefix codexWorkspaceEnvironmentPrefix
        (codexAccess workspaceAccess) root)
      aiInstructions model

/-- The access as it stands in a key of Grok. -/
def grokAccess : Option TextTurnWorkspaceAccess → String
  | some .readOnly => "read"
  | some .readWrite => "write-rejected"
  | none => "chat"

/-- The key under which a session of Grok can be resumed. -/
def grokContinuityEnvironmentKey (workspaceRoot : Option String)
    (workspaceAccess : Option TextTurnWorkspaceAccess) (aiInstructions model : Option String) :
    String :=
  match workspaceRoot with
  | none => chatEnvironmentKey grokChatEnvironmentPrefix aiInstructions model
  | some root =>
    chatEnvironmentKey
      (workspaceEnvironmentPrefix grokWorkspaceEnvironmentPrefix (grokAccess workspaceAccess) root)
      aiInstructions model

/-! ## The context of a turn -/

/-- What a dispatch reads of the room. -/
structure DesktopRoomContext where
  room : Room

/-- Whether the messages are the first ones, those since the last turn, or all that fit. -/
inductive RoomContextMode where
  | initial
  | resumed
  | reconstructed
  deriving DecidableEq

/-- What a prompt shows of the room, and what it leaves out. -/
structure RoomContextPlan where
  resuming : Bool
  mode : RoomContextMode
  messages : List RoomMessage
  omittedMessages : ℕ
  truncatedMessages : ℕ
  omittedCharacters : ℕ
  deriving DecidableEq

/-- What the window is told of it. -/
structure RoomContextReport where
  mode : RoomContextMode
  includedMessages : ℕ
  omittedMessages : ℕ
  truncatedMessages : ℕ
  omittedCharacters : ℕ
  continuitySaved : Bool
  deriving DecidableEq

/-- The report of a plan, once the turn is over. -/
def RoomContextPlan.report (plan : RoomContextPlan)
    (continuitySaved : Bool) : RoomContextReport where
  mode := plan.mode
  includedMessages := plan.messages.length
  omittedMessages := plan.omittedMessages
  truncatedMessages := plan.truncatedMessages
  omittedCharacters := plan.omittedCharacters
  continuitySaved := continuitySaved

/-- How many bodies are longer than the limit, and by how many characters together. -/
def contextTruncation (messages : List RoomMessage) : ℕ × ℕ :=
  messages.foldl (fun (count, omitted) message =>
    let characters := message.body.length
    if maximumContextBodyChars < characters then
      (count + 1, omitted + characters - maximumContextBodyChars)
    else (count, omitted)) (0, 0)

/-- The body as it is sent. -/
def truncateContextBody (body : String) : String :=
  let truncated := String.ofList (body.toList.take maximumContextBodyChars)
  if maximumContextBodyChars < body.length then truncated.push '…' else truncated

/-- The messages between the cursor and the source, if the session can be resumed with them. -/
def resumedMessages (messages : List RoomMessage) (sourceIndex : ℕ)
    (continuation : Option RoomAiContinuation) (environmentKey participantId : String) :
    Option (List RoomMessage) :=
  match continuation with
  | none => none
  | some continuation =>
    if continuation.environmentKey == environmentKey then
      match messages.findIdx? (fun message => message.id == continuation.lastSyncedMessageId) with
      | none => none
      | some cursorIndex =>
        if cursorIndex < sourceIndex then
          let between := ((messages.take sourceIndex).drop (cursorIndex + 1)).filter fun message =>
            message.authorId != participantId
          if between.length ≤ maximumContextMessages then some between else none
        else none
    else none

/-- The messages that a prompt shows: those since the last turn of a session that goes on, or else
those before the source message. -/
def roomContextPlan (context : DesktopRoomContext) (sourceMessage : RoomMessage)
    (continuation : Option RoomAiContinuation) (environmentKey participantId : String) :
    Except RoomDispatchCommandError RoomContextPlan :=
  match context.room.messages.findIdx? (fun message => message.id == sourceMessage.id) with
  | none =>
    .error {
      code := "aiDispatchMessageNotFound"
      message := "The saved Room message is not available in its Room context." }
  | some sourceIndex =>
    match resumedMessages context.room.messages sourceIndex continuation environmentKey
      participantId with
    | some messages =>
      let (truncatedMessages, omittedCharacters) := contextTruncation messages
      .ok { resuming := true, mode := .resumed, messages, omittedMessages := 0, truncatedMessages
            omittedCharacters }
    | none =>
      let start := sourceIndex - maximumContextMessages
      let messages := (context.room.messages.take sourceIndex).drop start
      let (truncatedMessages, omittedCharacters) := contextTruncation messages
      let mode := if continuation.isSome then .reconstructed else .initial
      .ok { resuming := false, mode, messages, omittedMessages := start, truncatedMessages
            omittedCharacters }

end Mio.Desktop.AiDispatch
