import Mio.Desktop.CodexTools

/-!
# A turn of Codex

The App Server driver of `apps/desktop/src-tauri/src/codex_app_server.rs`. A turn starts a process,
talks JSON with it over lines, and answers its tool calls until it says that the turn is completed.

What the reader's channel has at each look at it is given for each moment (`received`), and a
deadline by how many looks there are before it (`polls`). A look finds a message, the end of the
lines, or nothing for now. Whether a line can be written is given too. The text of the request that
opens the thread and the progress that the window is told are left out.
-/

namespace Mio.Desktop.CodexAppServer

open Library CommandExecution CodexTools
open AiDispatch (TextTurnError TextTurnRequest TextTurnResponse TextTurnContinuity)

/-- The greatest size of an answer, in bytes. -/
def maximumResponseBytes : ℕ := 4000

/-- The models a turn may ask for. -/
def verifiedCodexModels : List String := ["gpt-5.6-sol", "gpt-5.6-terra", "gpt-5.6-luna"]

/-- How the id of a generated image begins. -/
def artifactIdPrefix : String := "artifact-image-"

/-- What a look at the channel of the reader finds. -/
inductive Received where
  | message (message : Value)
  | invalid
  | finished
  | disconnected
  | nothing

/-- What a turn of Codex has outside of the application besides. -/
structure CodexSurroundings extends ToolSurroundings where
  received : ℕ → Received
  writes : ℕ → Bool
  /-- How often the channel is looked at before a deadline that is set at the moment. -/
  polls : ℕ → ℕ
  opensWorkspace : ℕ → String → Bool
  /-- The application has its commands (`command_execution`). -/
  hasCommands : Bool
  /-- The version of the application. -/
  version : String
  runtimeRoot : ℕ → Option String
  spawns : ℕ → Bool
  /-- The request that opens the thread. -/
  threadOpen : TextTurnRequest → Bool → Value
  /-- The bytes of a generated image, if the store of artifacts takes it. -/
  generatedImage : ℕ → String → Option Bytes
  /-- SHA-256. -/
  digest : Bytes → Fin (2 ^ 256)
  /-- Two paths are equal (`PathBuf`), which they are where their components are. -/
  samePath : String → String → Bool

/-- A thread of the app server's client. -/
abbrev CodexProg (α : Type) : Type := Thread Host TextTurnError α

/-! ## Messages -/

/-- Whether a notification names the thread and the turn. -/
def matchesTurn (message : Value) (threadId turnId : String) : Bool :=
  message.strAt ["params", "threadId"] == some threadId &&
    (message.strAt ["params", "turnId"] == some turnId ||
      message.strAt ["params", "turn", "id"] == some turnId)

/-- Whether a message asks for an answer. -/
def isServerRequest (message : Value) : Bool :=
  (message.get "id").isSome && (message.get "method").isSome

/-- Whether a message is an error of the turn that will not be retried. -/
def terminalCodexError (message : Value) (threadId turnId : String) : Bool :=
  message.str "method" == some "error" && matchesTurn message threadId turnId &&
    (message.pointer ["params", "willRetry"]).bind Value.asBool == some false

/-- The image that an item of the turn saved, if the message reports one. -/
def completedGeneratedImagePath (message : Value) (threadId turnId : String) : Option String :=
  if message.str "method" == some "item/completed" && matchesTurn message threadId turnId &&
      message.strAt ["params", "item", "type"] == some "imageGeneration" &&
      (message.pointer ["params", "item", "failure"]).all Value.isNull then
    (message.strAt ["params", "item", "savedPath"]).filter (! ·.isEmpty)
  else none

/-- How an error before the turn is reported: the telling ones as they are, the others as
preflight. -/
def codexPreflightFailure : TextTurnError → TextTurnError
  | .cancelled => .cancelled
  | .workspaceUnavailable => .workspaceUnavailable
  | .workspaceSandboxUnavailable => .workspaceSandboxUnavailable
  | .clientUpdateRequired => .clientUpdateRequired
  | _ => .preflightFailure

/-- Whether a session id has the shape that may be recorded. -/
def validSessionId (value : String) : Bool :=
  boundedBytes 256 (fun _ byte => isAsciiGraphic byte) value

/-- The answer to a request of the server that a turn does not take. -/
def declineResponse (id : Value) (method : String) : Value :=
  if method == "item/commandExecution/requestApproval" ||
      method == "item/fileChange/requestApproval" then
    .object [("id", id), ("result", .object [("decision", .string "decline")])]
  else if method == "execCommandApproval" || method == "applyPatchApproval" then
    .object [("id", id), ("result", .object [("decision", .object [("denied", .object
      [("rejection", .string "M.I.O. Room turns do not allow tools.")])])])]
  else
    .object [("id", id), ("error", .object [("code", .number "-32601"), ("message",
      .string "M.I.O. Room turns do not implement this server request.")])]

/-! ## The progress of a turn -/

/-- A turn that is over: its text and the images it made. -/
structure CompletedTurn where
  text : String
  generatedImagePaths : List String
  deriving DecidableEq

/-- What a turn has said so far. -/
structure TurnProgress where
  deltas : String
  completedText : Option String
  generatedImagePaths : List String
  deriving DecidableEq

/-- The turn before any notification. -/
def TurnProgress.initial : TurnProgress where
  deltas := ""
  completedText := none
  generatedImagePaths := []

/-- What the text of the turn adds to the progress. -/
def TurnProgress.noteText (message : Value) (threadId turnId : String) (progress : TurnProgress) :
    TurnProgress :=
  let progress :=
    if message.str "method" == some "item/agentMessage/delta" &&
        matchesTurn message threadId turnId then
      match message.strAt ["params", "delta"] with
      | some delta => { progress with deltas := progress.deltas ++ delta }
      | none => progress
    else progress
  if message.str "method" == some "item/completed" && matchesTurn message threadId turnId &&
      message.strAt ["params", "item", "type"] == some "agentMessage" then
    { progress with completedText := message.strAt ["params", "item", "text"] }
  else progress

/-- What the images of the turn add to it. -/
def TurnProgress.noteImage (samePath : String → String → Bool) (message : Value)
    (threadId turnId : String) (progress : TurnProgress) : TurnProgress :=
  match completedGeneratedImagePath message threadId turnId with
  | some path =>
    if progress.generatedImagePaths.any (samePath · path) then progress
    else { progress with generatedImagePaths := progress.generatedImagePaths ++ [path] }
  | none => progress

/-- The text of the turn: what was completed last, or the parts that came. -/
def TurnProgress.text (progress : TurnProgress) : String :=
    progress.completedText.getD progress.deltas

section Code

variable (env : CodexSurroundings)

/-- Whether a failure asks for a newer client. -/
def codexClientUpdateRequired (message : Value) : Bool :=
  let text := (env.toText message).toList.map Char.toLower
  ["requires a newer version of codex", "please upgrade to the latest app or cli"].any
    fun part => decide (part.toList <:+: text)

/-- The error that a reported failure stands for. -/
def codexReportedFailure (message : Value) : TextTurnError :=
  if codexClientUpdateRequired env message then .clientUpdateRequired else .confirmedFailure

/-- What a message that is no request of the server does to the turn: it ends it, or the turn goes
on. -/
def noteMessage (message : Value) (threadId turnId : String) (progress : TurnProgress) :
    Except TextTurnError CompletedTurn ⊕ TurnProgress :=
  if terminalCodexError message threadId turnId then
    .inl (.error (codexReportedFailure env message))
  else
    let progress :=
      (progress.noteText message threadId turnId).noteImage env.samePath message threadId turnId
    if message.str "method" == some "turn/completed" && matchesTurn message threadId turnId then
      if message.strAt ["params", "turn", "status"] != some "completed" then
        .inl (.error (codexReportedFailure env message))
      else if progress.text.isEmpty && progress.generatedImagePaths.isEmpty then
        .inl (.error .invalidResponse)
      else
        .inl (.ok
          { text := progress.text, generatedImagePaths := progress.generatedImagePaths })
    else .inr progress

/-! ## Reading and writing -/

/-- Write a message. It is noted even where that fails, since a part of it may have been written. -/
def send (message : Value) : CodexProg Unit := do
  let written ← Thread.step fun moment host =>
    (.done (env.writes moment), host.note (.sent message))
  Thread.require .unavailable written

/-- Leave if the turn is stopped. -/
def checkCancelled : CodexProg Unit := do
  let cancelled ← Thread.reads fun _ host => host.cancelled
  Thread.require .cancelled !cancelled

/-- A round of `receive`: the message that has come, if one has. -/
def poll : CodexProg (Option Value) := do
  checkCancelled
  match ← Thread.reads fun moment _ => env.received moment with
  | .message message => pure (some message)
  | .invalid | .finished => Thread.exit .invalidResponse
  | .disconnected => Thread.exit .unavailable
  | .nothing => pure none

/-- The deadline has passed. -/
def timedOut {α : Type} : CodexProg α := do
  checkCancelled
  Thread.exit .timedOut

/-- Declines a request of the server. -/
def declineServerRequest (message : Value) : CodexProg Unit := do
  let id ← Thread.ofOption .invalidResponse (message.get "id")
  let method ← Thread.ofOption .invalidResponse (message.str "method")
  send env (declineResponse id method)

/-- The response to the request with the number, which has so many looks to come. Notifications are
put aside, and never read again. -/
def waitForResponse (requestId : ℕ) : ℕ → CodexProg Value
  | 0 => timedOut
  | polls + 1 => do
    match ← poll env with
    | none => waitForResponse requestId polls
    | some message =>
      if isServerRequest message then
        declineServerRequest env message
        waitForResponse requestId polls
      else if (message.get "id").bind Value.asU64 == some requestId then
        if (message.get "error").isSome then Thread.exit (codexReportedFailure env message)
        else Thread.ofOption .invalidResponse (message.get "result")
      else waitForResponse requestId polls

/-- Answers a request of the server during a turn: only a tool call is taken. -/
def respondToTurnServerRequest (message : Value) (threadId turnId : String)
    (contexts : TurnToolContexts) : CodexProg Unit := do
  if message.str "method" != some "item/tool/call" then declineServerRequest env message
  else
    let id ← Thread.ofOption .invalidResponse (message.get "id")
    let params ← Thread.ofOption .invalidResponse (message.get "params")
    let result ← (toolResult env.toToolSurroundings params threadId turnId contexts).mapError
      Empty.elim
    Thread.changes fun _ host => host.note (.answered host.cancelled)
    send env (.object [("id", id), ("result", result)])

/-- Polls until the turn is over; each poll may bring one message. -/
def waitForTurn (threadId turnId : String) (contexts : TurnToolContexts) :
    ℕ → TurnProgress → CodexProg CompletedTurn
  | 0, _ => timedOut
  | polls + 1, progress => do
    match ← poll env with
    | none => waitForTurn threadId turnId contexts polls progress
    | some message =>
      if isServerRequest message then
        respondToTurnServerRequest env message threadId turnId contexts
        waitForTurn threadId turnId contexts polls progress
      else
        match noteMessage env message threadId turnId progress with
        | .inl result => Thread.ofExcept result
        | .inr progress => waitForTurn threadId turnId contexts polls progress

/-! ## The reply -/

/-- The id of an image: the digest of its bytes. -/
def artifactId (bytes : Bytes) : String := artifactIdPrefix ++ lowerHex 64 (env.digest bytes).val

/-- The turn says something, and not too much. -/
def acceptsTurn (turn : CompletedTurn) : Bool :=
  !(isBlank turn.text && turn.generatedImagePaths.isEmpty ||
    maximumResponseBytes < turn.text.utf8ByteSize)

/-- The text of a turn; one that only made images gets a fixed text. -/
def turnText (turn : CompletedTurn) : String :=
  if isBlank turn.text then "画像を生成しました。" else trim turn.text

/-- The reply, with the images that were stored. A session is told only where the turn has one. -/
def turnResponse (turn : CompletedTurn) (images : List Bytes) (threadId : String)
    (continuity : Option TextTurnContinuity) : TextTurnResponse where
  text := turnText turn
  sessionId := if continuity.isSome then some threadId else none
  artifactIds := images.map (artifactId env)

/-- The images, one after the other, as long as the store takes them. -/
def ingestGeneratedImages : List String → CodexProg (List Bytes)
  | [] => pure []
  | path :: paths => do
    let image ← Thread.reads fun moment _ => env.generatedImage moment path
    let image ← Thread.ofOption .invalidResponse image
    let images ← ingestGeneratedImages paths
    pure (image :: images)

/-! ## A turn -/

/-- The request and its answer, before the turn is started. -/
def preflightRequest (requestId : ℕ) (message : Value) : CodexProg Value := do
  (send env message).mapError codexPreflightFailure
  let polls ← Thread.reads fun moment _ => env.polls moment
  (waitForResponse env requestId polls).mapError codexPreflightFailure

/-- Refuses the turn unless the server allows its read-only profile. -/
def ensurePermissionProfilesAvailable (profiles : Value) : Except TextTurnError Unit :=
  match (profiles.get "data").bind Value.asArray with
  | none => .error .invalidResponse
  | some data =>
    if data.any fun profile => profile.str "id" == some ":read-only" &&
        (profile.get "allowed").bind Value.asBool == some true then .ok ()
    else .error .rejected

/-- Refuses the turn unless the server's sandbox is the elevated one. -/
def ensureElevatedWindowsSandbox (config : Value) : Except TextTurnError Unit :=
  if config.strAt ["config", "windows", "sandbox"] == some "elevated" then .ok ()
  else .error .workspaceSandboxUnavailable

/-- The request that opens the thread can be written: the model is a known one, and the session that
is resumed has a valid identifier. -/
def validThreadOpen (request : TextTurnRequest) : Bool :=
  (match request.model with
    | some model => verifiedCodexModels.contains model
    | none => true) &&
  match request.continuity with
  | some (.resume sessionId) => validSessionId sessionId
  | _ => true

/-- The first request of a connection. -/
def initializeRequest : Value :=
  .object [("method", .string "initialize"), ("id", .number "1"), ("params", .object
    [("clientInfo", .object [("name", .string "moe_desktop"), ("title", .string "M.I.O. Desktop"),
        ("version", .string env.version)]),
      ("capabilities", .object [("experimentalApi", .bool true)])])]

/-- The notification after the first request. -/
def initializedNotification : Value :=
  .object [("method", .string "initialized"), ("params", .object [])]

/-- The request for the permission profiles of a folder. -/
def permissionProfileRequest (runtimeRoot : String) : Value :=
  .object [("method", .string "permissionProfile/list"), ("id", .number "2"), ("params", .object
    [("cwd", .string runtimeRoot), ("limit", .number "100")])]

/-- The request for the configuration. -/
def configRequest : Value :=
  .object [("method", .string "config/read"), ("id", .number "5"), ("params", .object
    [("includeLayers", .bool false)])]

/-- The request that starts a turn. -/
def turnStartRequest (runtimeRoot threadId : String) (request : TextTurnRequest) : Value :=
  let params := [("threadId", .string threadId),
    ("input", .array [.object [("type", .string "text"), ("text", .string request.prompt)]]),
    ("cwd", .string runtimeRoot), ("approvalPolicy", .string "never")]
  let sandbox := if request.workspace.isSome then
      [("sandboxPolicy", .object [("type", .string "readOnly")])]
    else []
  .object [("method", .string "turn/start"), ("id", .number "4"), ("params",
    .object (params ++ sandbox))]

/-- The tools of the turn. -/
def toolContexts (request : TextTurnRequest) : CodexProg TurnToolContexts := do
  let workspace ← match request.workspace with
    | none => pure none
    | some workspace => do
      let opens ← Thread.reads fun moment _ => env.opensWorkspace moment workspace.root
      Thread.require .workspaceUnavailable opens
      pure (some { root := workspace.root, access := workspace.access : WorkspaceToolContext })
  if env.hasCommands then
    match ← (contextForTurn env.toSurroundings request).attempt with
    | .ok turn => pure { workspace, command := some { turn } }
    | .error _ => pure { workspace, command := none }
  else pure { workspace, command := none }

/-- What the driver does up to the thread of the turn. Returns the directory that it works in, and
the identifier of the thread. -/
def openThread (request : TextTurnRequest) (contexts : TurnToolContexts) :
    CodexProg (String × String) := do
  let runtimeRoot ← Thread.reads fun moment _ => env.runtimeRoot moment
  let runtimeRoot ← Thread.ofOption .preflightFailure runtimeRoot
  Thread.require .preflightFailure (validThreadOpen request)
  let spawned ← Thread.reads fun moment _ => env.spawns moment
  Thread.require .preflightFailure spawned
  let _ ← preflightRequest env 1 (initializeRequest env)
  (send env initializedNotification).mapError codexPreflightFailure
  let profiles ← preflightRequest env 2 (permissionProfileRequest runtimeRoot)
  (Thread.ofExcept (ensurePermissionProfilesAvailable profiles)).mapError codexPreflightFailure
  if request.workspace.isSome then
    (send env configRequest).mapError codexPreflightFailure
    let polls ← Thread.reads fun moment _ => env.polls moment
    let config ← (waitForResponse env 5 polls).mapError fun error =>
      if error = .cancelled then error else .workspaceSandboxUnavailable
    (Thread.ofExcept (ensureElevatedWindowsSandbox config)).mapError codexPreflightFailure
  let thread ← preflightRequest env 3 (env.threadOpen request contexts.command.isSome)
  let threadId ← Thread.ofOption .preflightFailure (thread.strAt ["thread", "id"])
  Thread.require .preflightFailure <| match request.continuity with
    | some (.resume sessionId) => sessionId == threadId
    | _ => true
  pure (runtimeRoot, threadId)

/-- What the driver does from the start of the turn. -/
def runThread (request : TextTurnRequest) (contexts : TurnToolContexts)
    (runtimeRoot threadId : String) : CodexProg TextTurnResponse := do
  send env (turnStartRequest runtimeRoot threadId request)
  let polls ← Thread.reads fun moment _ => env.polls moment
  let turn ← waitForResponse env 4 polls
  let turnId ← Thread.ofOption .invalidResponse (turn.strAt ["turn", "id"])
  let polls ← Thread.reads fun moment _ => env.polls moment
  let turn ← waitForTurn env threadId turnId contexts polls .initial
  Thread.require .invalidResponse (acceptsTurn turn)
  let images ← ingestGeneratedImages env turn.generatedImagePaths
  pure (turnResponse env turn images threadId request.continuity)

/-- The whole turn: the contexts of its tools, its thread, and the turn in it. -/
def run (request : TextTurnRequest) : CodexProg TextTurnResponse := do
  checkCancelled
  let contexts ← toolContexts env request
  let (runtimeRoot, threadId) ← openThread env request contexts
  runThread env request contexts runtimeRoot threadId

end Code

/-! ## Surroundings without anything -/

/-- Nothing is there, nothing can be written, and nothing is encoded. -/
def emptySurroundings : CodexSurroundings where
  processId := 7
  codec := ⟨⟨fun _ => none, fun _ => none⟩, ⟨fun _ => none, fun _ => none⟩, fun _ => none⟩
  helper := none
  toolchain _ := none
  revalidates _ _ := false
  availableWorkspace _ _ := none
  boundary _ _ := false
  existingFile _ _ _ := false
  existingDirectory _ _ _ := none
  ownsDirectory _ _ := none
  preparesLaunch _ _ := false
  execute _ _ := none
  rounds _ := 0
  listDirectory _ _ _ := .error .unavailable
  readFile _ _ _ := .error .unavailable
  createFile _ _ _ _ := .error .unavailable
  replaceFile _ _ _ _ := .error .unavailable
  gitStatus _ _ := .error .workspaceUnavailable
  toText _ := ""
  fromUtf8Lossy _ := ""
  received _ := .disconnected
  writes _ := false
  polls _ := 0
  opensWorkspace _ _ := false
  hasCommands := false
  version := "1.0.0"
  runtimeRoot _ := none
  spawns _ := false
  threadOpen _ _ := .null
  generatedImage _ _ := none
  digest _ := ⟨0, Nat.two_pow_pos 256⟩
  samePath path other := path == other

end Mio.Desktop.CodexAppServer
