import Mio.Desktop.CodexAppServer

/-!
# The adapters of the command line providers

How `apps/desktop/src-tauri/src/grok_cli.rs`, `gemini_antigravity.rs`, and `claude_fable.rs` there
take the output of a provider's process for a reply. The three are alike: a process that has to be
started, a bounded output, a JSON value, a text of at most so many characters, and an identifier of
the session. They differ in the fields and in the limits, which are in characters. The limit of a
Grok review is five times that of a chat.

The text of a reply is counted in bytes where it is stored. The JSON parser is a parameter.
-/

namespace Mio.Desktop.TextAdapters

open Library
open AiDispatch (TextTurnError TextTurnResponse)

/-- The greatest length of a reply, in characters. -/
def maximumResponseChars : ℕ := 800

/-- The greatest length of a reply to a review, in characters. -/
def maximumReviewResponseChars : ℕ := 4000

/-- What a process has written, cut at a limit. -/
structure BoundedBytes where
  bytes : Bytes
  exceeded : Bool
  deriving DecidableEq

/-- What a process has left. -/
structure ProcessOutput where
  success : Bool
  stdout : BoundedBytes
  deriving DecidableEq

/-- The text under a name, trimmed, if it says something in at most so many characters. -/
def replyText (value : Value) (name : String) (maximumChars : ℕ) : Option String :=
  ((value.str name).map trim).filter fun text => !text.isEmpty && text.length ≤ maximumChars

section Parse

variable (fromSlice : Bytes → Option Value)

namespace Grok

/-- Whether the identifier of a session may be recorded. -/
def validSessionId (value : String) : Bool := boundedBytes 256
    (fun _ byte => isAsciiGraphic byte) value

/-- Reads the answer of Grok. -/
def parseResponse (bytes : Bytes) (maximumResponseChars : ℕ) :
    Except TextTurnError TextTurnResponse :=
  match fromSlice bytes with
  | none => .error .invalidResponse
  | some value =>
    if value.str "type" == some "error" then .error .rejected
    else
      match replyText value "text" maximumResponseChars with
      | none => .error .invalidResponse
      | some text =>
        if value.str "stopReason" != some "EndTurn" &&
          value.str "stopReason" != some "end_turn" then
          .error .invalidResponse
        else
          match (value.str "sessionId").filter validSessionId with
          | none => .error .invalidResponse
          | some sessionId => .ok { text, sessionId := some sessionId, artifactIds := [] }

/-- The limit of a turn. -/
def maximumChars (isReview : Bool) : ℕ :=
  if isReview then maximumReviewResponseChars else maximumResponseChars

/-- What `run` makes of the output of the process. -/
def response (isReview : Bool) (output : ProcessOutput) : Except TextTurnError TextTurnResponse :=
  if !output.success || output.stdout.exceeded then .error .rejected
  else parseResponse fromSlice output.stdout.bytes (maximumChars isReview)

end Grok

namespace Gemini

/-- Whether the identifier of a conversation may be recorded. -/
def validConversationId (value : String) : Bool :=
  boundedBytes 128 (fun _ byte => isAsciiAlphanumeric byte || byte == 0x2d) value

/-- Reads the answer of Gemini. -/
def parseResponse (bytes : Bytes) : Except TextTurnError TextTurnResponse :=
  match fromSlice bytes with
  | none => .error .invalidResponse
  | some value =>
    if value.str "status" != some "SUCCESS" then .error .rejected
    else
      match replyText value "response" maximumResponseChars with
      | none => .error .invalidResponse
      | some text =>
        match (value.str "conversation_id").filter validConversationId with
        | none => .error .invalidResponse
        | some sessionId => .ok { text, sessionId := some sessionId, artifactIds := [] }

/-- The reply of a Gemini process that ended. -/
def response (output : ProcessOutput) : Except TextTurnError TextTurnResponse :=
  if !output.success || output.stdout.exceeded then .error .rejected
  else parseResponse fromSlice output.stdout.bytes

end Gemini

namespace Claude

/-- Whether the byte is a hexadecimal digit. -/
def isAsciiHexdigit (byte : UInt8) : Bool :=
  isAsciiDigit byte || 0x41 ≤ byte && byte ≤ 0x46 || 0x61 ≤ byte && byte ≤ 0x66

/-- A session is told by a UUID. -/
def validSessionId (value : String) : Bool :=
  value.utf8ByteSize == 36 && (asBytes value).zipIdx.all fun (byte, index) =>
    if index ∈ [8, 13, 18, 23] then byte == 0x2d else isAsciiHexdigit byte

/-- Reads the answer of Claude Code. -/
def parseResponse (bytes : Bytes) : Except TextTurnError TextTurnResponse :=
  match fromSlice bytes with
  | none => .error .invalidResponse
  | some value =>
    if value.str "type" != some "result" ||
        (value.get "is_error").bind Value.asBool != some false then .error .rejected
    else
      match replyText value "result" maximumResponseChars with
      | none => .error .invalidResponse
      | some text =>
        match (value.str "session_id").filter validSessionId with
        | none => .error .invalidResponse
        | some sessionId => .ok { text, sessionId := some sessionId, artifactIds := [] }

/-- The reply of a Claude Code process that ended. -/
def response (output : ProcessOutput) : Except TextTurnError TextTurnResponse :=
  if !output.success || output.stdout.exceeded then .error .rejected
  else parseResponse fromSlice output.stdout.bytes

end Claude

end Parse

end Mio.Desktop.TextAdapters
