import Mio.Desktop.CommandExecution

/-!
# The tools of a Codex turn

The tool calls of `apps/desktop/src-tauri/src/codex_app_server.rs`: the files of the workspace, the
Git status, and the commands. A call names its tool and has JSON arguments, which can be anything.
It is answered with a text or an error code (`workspaceToolSuccess`, `workspaceToolFailure`), and
never ends the turn.

What the workspace broker and the Git broker answer is given for each moment. A call of theirs is
noted before they answer, so that a refused call counts.
-/

namespace Mio.Desktop.CodexTools

open Library Broker CommandExecution
open AiDispatch (TextTurnWorkspaceAccess)

/-- The greatest size of the text that a workspace tool answers, in bytes. -/
def maximumWorkspaceToolTextBytes : ℕ := 128 * 1024

/-- The namespace of the workspace tools. -/
def workspaceToolNamespace : String := "mio_workspace"

/-- The tool that lists a directory. -/
def workspaceListDirectoryTool : String := "list_directory"

/-- The tool that reads a file. -/
def workspaceReadFileTool : String := "read_file"

/-- The tool that creates a file. -/
def workspaceCreateFileTool : String := "create_file"

/-- The tool that replaces a file. -/
def workspaceReplaceFileTool : String := "replace_file"

/-- The namespace of the command tools. -/
def commandToolNamespace : String := "mio_command"

/-- The tool that shows the Git status. -/
def commandGitStatusTool : String := "git_status"

/-- The tool that runs the room's Node program. -/
def commandRunNodeTool : String := "run_node"

/-- The tool that runs one of the npm scripts. -/
def commandRunNpmScriptTool : String := "run_npm_script"

/-- The tool that installs an npm package. -/
def commandInstallNpmPackageTool : String := "install_npm_package"

/-- Why the workspace broker refuses a call. -/
inductive WorkspaceBoundaryError where
  | invalidRoot
  | invalidRelativePath
  | unavailable
  | unsafeLink
  | notFile
  | notDirectory
  | alreadyExists
  | contentTooLarge
  | directoryTooLarge
  deriving DecidableEq

/-- Why no Git status is shown. -/
inductive GitStatusBrokerError where
  | workspaceUnavailable
  | unsupportedRepositoryLayout
  | unsupportedRepositoryConfiguration
  | repositoryUnavailable
  | statusUnavailable
  | nonUtf8Path
  | tooManyEntries
  | outputTooLarge
  | diffUnavailable
  | tooManyReviewFiles
  | reviewOutputTooLarge
  | nonUtf8Diff
  deriving DecidableEq

/-- What an entry of a directory is. -/
inductive WorkspaceEntryKind where
  | file
  | directory
  | blockedLink
  | other
  deriving DecidableEq

/-- How a kind is written in an answer. -/
def WorkspaceEntryKind.asStr : WorkspaceEntryKind → String
  | file => "file"
  | directory => "directory"
  | blockedLink => "blocked_link"
  | other => "other"

/-- An entry of a listed directory. -/
structure WorkspaceDirectoryEntry where
  name : String
  kind : WorkspaceEntryKind
  deriving DecidableEq

/-- The workspace that the tools of a turn work in. -/
structure WorkspaceToolContext where
  root : String
  access : TextTurnWorkspaceAccess
  deriving DecidableEq

/-- The turn that the command tools work for. -/
structure CommandToolContext where
  turn : DesktopCommandTurnContext
  deriving DecidableEq

/-- The tools that a turn has. -/
structure TurnToolContexts where
  workspace : Option WorkspaceToolContext
  command : Option CommandToolContext
  deriving DecidableEq

/-- What the tools have outside of the application besides. -/
structure ToolSurroundings extends Surroundings where
  listDirectory : ℕ → String → String →
    Except WorkspaceBoundaryError (List WorkspaceDirectoryEntry)
  readFile : ℕ → String → String → Except WorkspaceBoundaryError Bytes
  createFile : ℕ → String → String → Bytes → Except WorkspaceBoundaryError Unit
  replaceFile : ℕ → String → String → Bytes → Except WorkspaceBoundaryError Unit
  gitStatus : ℕ → String → Except GitStatusBrokerError String
  /-- The JSON text of a value (`to_string`). -/
  toText : Value → String
  /-- `from_utf8_lossy`. -/
  fromUtf8Lossy : Bytes → String

/-! ## Arguments and answers -/

/-- The path of a call whose only argument is one. -/
def workspaceToolPath (arguments : Value) : Except WorkspaceBoundaryError String :=
  match arguments.asObject with
  | none => .error .invalidRelativePath
  | some object =>
    if object.length != 1 then .error .invalidRelativePath
    else
      match ((Value.field object "path").bind Value.asStr).filter (! ·.isEmpty) with
      | none => .error .invalidRelativePath
      | some path => .ok path

/-- The path and the contents of a call that has just these arguments. -/
def workspaceToolPathAndContent (arguments : Value) :
    Except WorkspaceBoundaryError (String × String) :=
  match arguments.asObject with
  | none => .error .invalidRelativePath
  | some object =>
    if object.length != 2 then .error .invalidRelativePath
    else
      match ((Value.field object "path").bind Value.asStr).filter (! ·.isEmpty),
        (Value.field object "content").bind Value.asStr with
      | some path, some contents =>
        if maximumWorkspaceToolTextBytes < contents.utf8ByteSize then .error .contentTooLarge
        else .ok (path, contents)
      | _, _ => .error .invalidRelativePath

/-- The code by which an error of the workspace is answered. -/
def workspaceErrorCode : WorkspaceBoundaryError → String
  | .invalidRoot | .invalidRelativePath => "workspace_path_invalid"
  | .unsafeLink => "workspace_link_denied"
  | .notFile => "workspace_text_file_required"
  | .notDirectory => "workspace_parent_invalid"
  | .alreadyExists => "workspace_file_exists"
  | .contentTooLarge => "workspace_content_too_large"
  | .directoryTooLarge => "workspace_directory_too_large"
  | .unavailable => "workspace_unavailable"

/-- The code by which a command that was not prepared is answered. -/
def commandPreparationErrorCode : DesktopCommandPreparationError → String
  | .roomSessionUnavailable => "command_room_session_unavailable"
  | .workspaceUnavailable | .workspaceChanged => "command_workspace_unavailable"
  | .workspaceOwnerUnavailable => "command_workspace_owner_unavailable"
  | .workspaceOwnerMismatch => "command_workspace_owner_mismatch"
  | .commandDenied | .commandAuthorizationDenied => "command_denied"
  | .commandConfirmationUnavailable => "command_confirmation_unavailable"
  | .commandHelperUnavailable | .toolNotReady | .gitExecutableUnavailable
  | .nodeExecutableUnavailable | .npmRuntimeUnavailable | .backendPreparationFailed
  | .requestEncodingFailed => "command_unavailable"

/-- The code by which a command that failed is answered. -/
def commandExecutionErrorCode : DesktopCommandExecutionError → String
  | .roomSessionUnavailable => "command_room_session_unavailable"
  | .workspaceUnavailable | .workspaceChanged => "command_workspace_unavailable"
  | .workspaceOwnerUnavailable => "command_workspace_owner_unavailable"
  | .workspaceOwnerChanged => "command_workspace_owner_changed"
  | .commandHelperChanged | .gitExecutableChanged | .nodeExecutableChanged | .npmRuntimeChanged
  | .backendPreparationFailed | .backendExecutionFailed => "command_execution_unavailable"

/-- The code by which a failed Git status is answered. -/
def gitStatusErrorCode : GitStatusBrokerError → String
  | .workspaceUnavailable | .unsupportedRepositoryLayout | .repositoryUnavailable =>
    "command_workspace_unavailable"
  | .unsupportedRepositoryConfiguration => "command_repository_configuration_unsupported"
  | .statusUnavailable | .nonUtf8Path | .tooManyEntries | .outputTooLarge | .diffUnavailable
  | .tooManyReviewFiles | .reviewOutputTooLarge | .nonUtf8Diff => "command_status_unavailable"

/-- An answer, with the text in it. -/
def toolAnswer (success : Bool) (text : String) : Value :=
  .object
    [("success", .bool success),
      ("contentItems",
        .array [.object [("type", .string "inputText"), ("text", .string text)]])]

/-- The answer of a call that succeeded. -/
def workspaceToolSuccess (text : String) : Value := toolAnswer true text

/-- The answer of a call that failed. -/
def workspaceToolFailure (code : String) : Value := toolAnswer false code

section Code

variable (env : ToolSurroundings)

/-! ## The files of the workspace -/

/-- A call of a broker. It is noted, and then answered. -/
def brokerCall {α : Type} (effect : TurnEffect) (answer : ℕ → α) : Thread Host Empty α :=
  Thread.step fun moment host => (.done (answer moment), host.start effect)

namespace WorkspaceToolContext

variable (context : WorkspaceToolContext)

/-- Lists a directory; the answer is its entries. -/
def listDirectory (path : String) : Thread Host Empty (Except WorkspaceBoundaryError String) := do
  match ← brokerCall (.listDirectory path) fun moment =>
      env.listDirectory moment context.root path with
  | .error e => pure (.error e)
  | .ok entries =>
    let text := env.toText <| .object
      [("path", .string path),
        ("entries", .array (entries.map fun entry =>
          .object [("name", .string entry.name), ("kind", .string entry.kind.asStr)]))]
    if maximumWorkspaceToolTextBytes < text.utf8ByteSize then pure (.error .directoryTooLarge)
    else pure (.ok text)

/-- Reads a file; the answer is its text. -/
def readFile (path : String) : Thread Host Empty (Except WorkspaceBoundaryError String) := do
  match ← brokerCall (.readFile path) fun moment => env.readFile moment context.root path with
  | .error e => pure (.error e)
  | .ok bytes =>
    if maximumWorkspaceToolTextBytes < bytes.length then pure (.error .contentTooLarge)
    else
      match utf8Text bytes with
      | some text => pure (.ok text)
      | none => pure (.error .notFile)

/-- Creates a file, in a turn that may write. -/
def createFile (path contents : String) : Thread Host Empty
    (Except WorkspaceBoundaryError String) := do
  match ← brokerCall (.createFile path (asBytes contents)) fun moment =>
      env.createFile moment context.root path (asBytes contents) with
  | .error e => pure (.error e)
  | .ok () => pure (.ok "created")

/-- Replaces a file, in a turn that may write. -/
def replaceFile (path contents : String) : Thread Host Empty
    (Except WorkspaceBoundaryError String) := do
  match ← brokerCall (.replaceFile path (asBytes contents)) fun moment =>
      env.replaceFile moment context.root path (asBytes contents) with
  | .error e => pure (.error e)
  | .ok () => pure (.ok "replaced")

/-- A tool with a path. -/
def withPath (arguments : Value)
    (act : String → Thread Host Empty (Except WorkspaceBoundaryError String)) :
    Thread Host Empty (Except WorkspaceBoundaryError String) :=
  match workspaceToolPath arguments with
  | .error e => pure (.error e)
  | .ok path => act path

/-- A tool with a path and a content. -/
def withPathAndContent (arguments : Value)
    (act : String → String → Thread Host Empty (Except WorkspaceBoundaryError String)) :
    Thread Host Empty (Except WorkspaceBoundaryError String) :=
  match workspaceToolPathAndContent arguments with
  | .error e => pure (.error e)
  | .ok (path, contents) => act path contents

/-- The answer to a tool of the workspace. -/
def answer : Except WorkspaceBoundaryError String → Value
  | .ok text => workspaceToolSuccess text
  | .error e => workspaceToolFailure (workspaceErrorCode e)

/-- Runs the workspace tool of the name; an unknown one is refused. -/
def call (tool : String) (arguments : Value) : Thread Host Empty Value :=
  if tool == workspaceListDirectoryTool then do
    let result ← withPath arguments (context.listDirectory env)
    pure (answer result)
  else if tool == workspaceReadFileTool then do
    let result ← withPath arguments (context.readFile env)
    pure (answer result)
  else if tool == workspaceCreateFileTool && context.access == .readWrite then do
    let result ← withPathAndContent arguments (context.createFile env)
    pure (answer result)
  else if tool == workspaceReplaceFileTool && context.access == .readWrite then do
    let result ← withPathAndContent arguments (context.replaceFile env)
    pure (answer result)
  else if tool == workspaceCreateFileTool || tool == workspaceReplaceFileTool then
    pure (workspaceToolFailure "workspace_write_denied")
  else pure (workspaceToolFailure "workspace_tool_unavailable")

end WorkspaceToolContext

/-! ## The commands -/

namespace CommandToolContext

variable (context : CommandToolContext)

/-- The Git status of the workspace, which is looked at again first. -/
def gitStatus : Thread Host Empty (Except String String) := do
  match ← (revalidateTurnWorkspace env.toSurroundings context.turn).attempt with
  | .error e => pure (.error (commandPreparationErrorCode e))
  | .ok workspaceRoot =>
    match ← brokerCall (.gitStatus workspaceRoot) fun moment =>
      env.gitStatus moment workspaceRoot with
    | .error e => pure (.error (gitStatusErrorCode e))
    | .ok text => pure (.ok text)

/-- What a process has left, as JSON text. -/
def outcomeText (outcome : CommandLaunchOutcome) : String :=
  env.toText <| .object
    [("success", .bool outcome.success),
      ("completion", .string outcome.completion),
      ("exitCode", match outcome.exitCode with
        | some code => .number (toString code)
        | none => .null),
      ("stdout", .string (env.fromUtf8Lossy outcome.stdout)),
      ("stderr", .string (env.fromUtf8Lossy outcome.stderr))]

/-- Prepare a command, and execute it. The source writes this out for each kind of command. -/
def runPrepared (prepare : PrepareProg PreparedDesktopCommand) :
    Thread Host Empty (Except String String) := do
  match ← prepare.attempt with
  | .error e => pure (.error (commandPreparationErrorCode e))
  | .ok prepared =>
    match ← (executePrepared env.toSurroundings prepared).attempt with
    | .error e => pure (.error (commandExecutionErrorCode e))
    | .ok outcome => pure (.ok (outcomeText env outcome))

/-- Runs the Node program of a directory. -/
def runNode (directory : String) : Thread Host Empty (Except String String) :=
  runPrepared env (prepareBaseline env.toSurroundings context.turn directory .nodeRun)

/-- Runs one of the npm scripts of a directory. -/
def runNpmScript (directory : String) (command : BaselineCommand) :
    Thread Host Empty (Except String String) :=
  runPrepared env (prepareBaseline env.toSurroundings context.turn directory command)

/-- Installs a package, once the owner allowed it. -/
def installNpmPackage (directory packageName exactVersion : String) :
    Thread Host Empty (Except String String) :=
  runPrepared env
    (prepareNpmPackageInstall env.toSurroundings context.turn directory packageName exactVersion)

end CommandToolContext

/-- The call of a command tool, read from its arguments. -/
inductive CommandCall where
  | gitStatus
  | runNode (directory : String)
  | runNpmScript (directory : String) (command : BaselineCommand)
  | installNpmPackage (directory packageName exactVersion : String)
  deriving DecidableEq

/-- The text of an argument, which is not empty and has at most so many bytes. -/
def boundedArgument (arguments : List (String × Value)) (name : String) (maximum : ℕ) :
    Option String :=
  ((Value.field arguments name).bind Value.asStr).filter fun value =>
    !value.isEmpty && value.utf8ByteSize ≤ maximum

/-- The command that a call asks for, if its arguments are those of its tool. -/
def commandCall (tool : Option String) (arguments : Option (List (String × Value))) :
    Option CommandCall :=
  match tool, arguments with
  | some tool, some arguments =>
    if tool == commandGitStatusTool && arguments.isEmpty then some .gitStatus
    else if tool == commandRunNodeTool && arguments.length == 1 then do
      let directory ← boundedArgument arguments "directory" 4096
      some (.runNode directory)
    else if tool == commandRunNpmScriptTool && arguments.length == 2 then do
      let directory ← boundedArgument arguments "directory" 4096
      match (Value.field arguments "script").bind Value.asStr with
      | some "build" => some (.runNpmScript directory .npmBuild)
      | some "test" => some (.runNpmScript directory .npmTest)
      | some "typecheck" => some (.runNpmScript directory .npmTypecheck)
      | _ => none
    else if tool == commandInstallNpmPackageTool && arguments.length == 3 then do
      let directory ← boundedArgument arguments "directory" 4096
      let packageName ← boundedArgument arguments "packageName" 214
      let exactVersion ← boundedArgument arguments "exactVersion" 128
      -- The package is looked at as if it were for a workspace that can be written.
      match classifyNpmPackageInstall env.codec.semver
          { workingDirectory := directory, packageName, exactVersion } .readWrite with
      | .actionTimeConfirmationRequired _ =>
        some (.installNpmPackage directory packageName exactVersion)
      | .denied _ => none
    else none
  | _, _ => none

/-- Whether the id of a call is of printable ASCII and not too long. -/
def validCallId (value : String) : Bool := boundedBytes 256
    (fun _ byte => isAsciiGraphic byte) value

/-- A call is one of the turn, and it has an identifier. -/
def callMatchesTurn (params : Value) (threadId turnId : String) : Bool :=
  params.str "threadId" == some threadId && params.str "turnId" == some turnId &&
    ((params.str "callId").any validCallId)

/-- The answer to a call of a command tool; one that is not of this turn is refused. -/
def commandDynamicToolResponse (params : Value) (threadId turnId : String)
    (commandTools : Option CommandToolContext) : Thread Host Empty Value :=
  if !callMatchesTurn params threadId turnId then
    pure (workspaceToolFailure "command_tool_request_invalid")
  else
    match commandCall env (params.str "tool") ((params.get "arguments").bind Value.asObject) with
    | none => pure (workspaceToolFailure "command_tool_request_invalid")
    | some call =>
      match commandTools with
      | none => pure (workspaceToolFailure "command_tool_unavailable")
      | some context => do
        let result ← match call with
          | .gitStatus => context.gitStatus env
          | .runNode directory => context.runNode env directory
          | .runNpmScript directory command => context.runNpmScript env directory command
          | .installNpmPackage directory packageName exactVersion =>
            context.installNpmPackage env directory packageName exactVersion
        match result with
        | .ok text => pure (workspaceToolSuccess text)
        | .error code => pure (workspaceToolFailure code)

/-- The answer to a tool call; one that is not of this turn is refused. -/
def workspaceDynamicToolResponse (params : Value) (threadId turnId : String)
    (workspaceTools : Option WorkspaceToolContext) : Thread Host Empty Value :=
  if !callMatchesTurn params threadId turnId ||
      params.str "namespace" != some workspaceToolNamespace then
    pure (workspaceToolFailure "workspace_tool_request_invalid")
  else
    match workspaceTools with
    | none => pure (workspaceToolFailure "workspace_tool_unavailable")
    | some context =>
      match params.str "tool", params.get "arguments" with
      | some tool, some arguments => context.call env tool arguments
      | _, _ => pure (workspaceToolFailure "workspace_tool_request_invalid")

/-- The result of a tool call. -/
def toolResult (params : Value) (threadId turnId : String) (contexts : TurnToolContexts) :
    Thread Host Empty Value :=
  match params.str "namespace" with
  | some name =>
    if name == workspaceToolNamespace then
      workspaceDynamicToolResponse env params threadId turnId contexts.workspace
    else if name == commandToolNamespace then
      commandDynamicToolResponse env params threadId turnId contexts.command
    else pure (workspaceToolFailure "dynamic_tool_unavailable")
  | none => pure (workspaceToolFailure "dynamic_tool_unavailable")

end Code

end Mio.Desktop.CodexTools
