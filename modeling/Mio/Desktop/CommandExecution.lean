import Mio.Broker.HelperProtocol
import Mio.Desktop.AiDispatchTurn
import Mio.Desktop.CommandConfirmations
import Mio.Library.Value

/-!
# The commands of a turn

`apps/desktop/src-tauri/src/command_execution_product.rs`: how a command of a Codex turn is prepared
and executed. A turn is a thread of the application. It shares a `Host` with the others: the actions
on the consent registry so far (`System.run` says what they leave), the stop signal of the turn, and
what has happened. What a turn does is noted as it starts, with what the stop signal was then.

The bindings of the workspaces, the file system, the tools, and the launches are given for each
moment (`Surroundings`), so that they can change between any two steps. A call of
`wait_for_room_authorization` has a number of its own among the threads of the registry: those of
turns are odd. The launch of a process is its description (`CommandLaunch`), which can be refused.
Poisoned locks do not occur.
-/

namespace Mio.Desktop.CommandExecution

open Library Broker
open CommandConfirmations (Action System Seen WaitResult unavailable)
open RoomWorkspace (AvailableRoomWorkspace)

/-- Why a command is not prepared. -/
inductive DesktopCommandPreparationError where
  | roomSessionUnavailable
  | workspaceUnavailable
  | workspaceChanged
  | workspaceOwnerUnavailable
  | workspaceOwnerMismatch
  | commandDenied
  | commandAuthorizationDenied
  | commandConfirmationUnavailable
  | commandHelperUnavailable
  | toolNotReady
  | gitExecutableUnavailable
  | nodeExecutableUnavailable
  | npmRuntimeUnavailable
  | backendPreparationFailed
  | requestEncodingFailed
  deriving DecidableEq

/-- Why a prepared command fails. -/
inductive DesktopCommandExecutionError where
  | roomSessionUnavailable
  | workspaceUnavailable
  | workspaceChanged
  | workspaceOwnerUnavailable
  | workspaceOwnerChanged
  | commandHelperChanged
  | gitExecutableChanged
  | nodeExecutableChanged
  | npmRuntimeChanged
  | backendPreparationFailed
  | backendExecutionFailed
  deriving DecidableEq

/-- The session of a room that a turn started in. -/
structure DesktopRoomCommandContext where
  roomId : String
  sessionId : String
  workspaceKey : String
  deriving DecidableEq

/-- The room, the workspace and the access for which a turn's commands run. -/
structure DesktopCommandTurnContext where
  roomContext : DesktopRoomCommandContext
  workspaceRoot : String
  access : WorkspaceCommandAccess
  deriving DecidableEq

/-- The file that a command needs in its directory. -/
inductive PreparedExecutionGuard where
  | nodeEntry (relative : String)
  | packageManifest (relative : String)
  deriving DecidableEq

/-- How a prepared command is run. -/
inductive PreparedBackendKind where
  | baseline
  | npmScript
  | npmPackageInstall
  deriving DecidableEq

/-- The program that runs a command. -/
inductive VerifiedCommandExecutable where
  | git (path : String)
  | node (path : String)
  deriving DecidableEq

/-- Where the program is. -/
def VerifiedCommandExecutable.path : VerifiedCommandExecutable → String
  | git path | node path => path

/-- The process that is to be launched (`PreparedWindowsCommandLaunch`). -/
structure CommandLaunch where
  kind : PreparedBackendKind
  executionRoot : String
  helper : String
  executable : String
  npmRuntime : Option String
  request : Bytes
  deriving DecidableEq

/-- A command that is ready to run. -/
structure PreparedDesktopCommand where
  roomContext : DesktopRoomCommandContext
  workspaceRoot : String
  executionRoot : String
  executionGuard : Option PreparedExecutionGuard
  helper : String
  toolExecutable : VerifiedCommandExecutable
  npmRuntime : Option String
  backendKind : PreparedBackendKind
  request : Bytes
  backend : CommandLaunch
  deriving DecidableEq

/-- The programs that were found when the application started. -/
structure DesktopCommandToolchain where
  gitExecutable : Option String
  nodeExecutable : Option String
  npmRuntime : Option String
  deriving DecidableEq

/-- What a process that was launched has left. -/
structure CommandLaunchOutcome where
  success : Bool
  completion : String
  exitCode : Option ℕ
  stdout : Bytes
  stderr : Bytes
  deriving DecidableEq

/-! ## What a turn does -/

/-- What the last checks before a launch have seen. -/
structure LaunchChecks where
  /-- When the workspace of the room was looked up. -/
  workspaceMoment : ℕ
  /-- The actions on the consent registry before the session was compared. -/
  sessionActions : List Action
  /-- When the directory was resolved. -/
  directoryMoment : ℕ

/-- What a tool call can do outside of the process. -/
inductive TurnEffect where
  | listDirectory (path : String)
  | readFile (path : String)
  | createFile (path : String) (contents : Bytes)
  | replaceFile (path : String) (contents : Bytes)
  | gitStatus (root : String)
  | prepared (launch : CommandLaunch)
  | launched (launch : CommandLaunch) (checks : LaunchChecks)

/-- The effect leaves the workspace as it is, and prepares and executes nothing. -/
def TurnEffect.isRead : TurnEffect → Bool
  | listDirectory _ | readFile _ | gitStatus _ => true
  | _ => false

/-- What is noted about a turn. -/
inductive HostEvent where
  /-- An effect starts, and whether the turn is stopped at that time. -/
  | started (effect : TurnEffect) (isCancelled : Bool)
  /-- A tool call is done, and whether the turn is stopped at that time. -/
  | answered (isCancelled : Bool)
  /-- A message is written to the provider. -/
  | sent (message : Value)

/-- What a turn shares with the other threads. -/
structure Host where
  /-- The actions on the consent registry, in order. -/
  actions : List Action
  /-- The stop signal of the turn. -/
  cancelled : Bool
  /-- What the turn has done, the latest first. -/
  events : List HostEvent

namespace Host

/-- Notes an event, the latest first. -/
def note (event : HostEvent) (host : Host) : Host := { host with events := event :: host.events }

/-- Notes that an effect starts, and whether the turn is stopped then. -/
def start (effect : TurnEffect) (host : Host) : Host := host.note (.started effect host.cancelled)

/-- An action on the confirmations. -/
def act (action : Action) (host : Host) : Host := { host with actions := host.actions ++ [action] }

/-- The consent registry. -/
def confirmations (processId : UInt32) (host : Host) : System := System.run processId host.actions

end Host

/-! ## The other threads -/

/-- The action of another thread, which has an even number. -/
def otherAction : Action → Action
  | .beginRoomSession thread roomId workspace => .beginRoomSession (2 * thread) roomId workspace
  | .waitForRoomAuthorization thread roomId command targetLabel =>
    .waitForRoomAuthorization (2 * thread) roomId command targetLabel
  | .advance thread seen => .advance (2 * thread) seen
  | action => action

/-- What another thread does. -/
inductive OtherStep where
  /-- It acts on the consent registry. -/
  | registry (action : Action)
  /-- It stops the turn. -/
  | stop

/-- What another thread does. -/
def Host.other (host : Host) : OtherStep → Host
  | .registry action => host.act (otherAction action)
  | .stop => { host with cancelled := true }

/-- What the other threads do between the steps of the turn. -/
def others (steps : ℕ → List OtherStep) : ℕ → Host → Host := fun moment host =>
  (steps moment).foldl Host.other host

/-- A property that no step of another thread breaks is stable. -/
theorem stable_others {steps : ℕ → List OtherStep} {holds : Host → Prop}
    (h : ∀ step host, holds host → holds (host.other step)) :
    Thread.Stable (others steps) holds := by
  intro moment host hhost
  unfold others
  induction steps moment generalizing host with
  | nil => exact hhost
  | cons step rest ih => exact ih _ (h step host hhost)

/-- What is outside of the application, at each moment. -/
structure Surroundings where
  processId : UInt32
  codec : HelperCodec
  helper : Option String
  toolchain : ℕ → Option DesktopCommandToolchain
  /-- The file is the one that was verified. -/
  revalidates : ℕ → String → Bool
  /-- The root of the room's workspace and the workspace, if it is available. -/
  availableWorkspace : ℕ → String → Option (String × AvailableRoomWorkspace)
  /-- The root can be worked in (`WorkspaceBoundary::new`). -/
  boundary : ℕ → String → Bool
  existingFile : ℕ → String → String → Bool
  existingDirectory : ℕ → String → String → Option String
  /-- The user of the process owns the directory, if that can be told. -/
  ownsDirectory : ℕ → String → Option Bool
  preparesLaunch : ℕ → CommandLaunch → Bool
  execute : ℕ → CommandLaunch → Option CommandLaunchOutcome
  /-- How often a thread that waits for consent is woken before its time is over. -/
  rounds : ℕ → ℕ

/-- A thread that prepares a command. -/
abbrev PrepareProg (α : Type) : Type := Thread Host DesktopCommandPreparationError α

/-- A thread that runs a prepared command. -/
abbrev ExecuteProg (α : Type) : Type := Thread Host DesktopCommandExecutionError α

/-- The path of a file in a directory of the workspace. -/
def workspaceChild (directory fileName : String) : String :=
  if isCurrentDirectory directory then fileName
  else if directory.endsWith "/" || directory.endsWith "\\" then directory ++ fileName
  else directory ++ "\\" ++ fileName

section Code

variable (env : Surroundings)

/-! ## The consent registry -/

/-- The context of the room's active session, if it has the workspace. -/
def activeRoomContext (roomId : String) (workspace : AvailableRoomWorkspace) (host : Host) :
    Option DesktopRoomCommandContext :=
  match (host.confirmations env.processId).state.roomSessions[roomId]? with
  | none => none
  | some session =>
    if session.workspaceKey == workspace.identityKey then
      some
        { roomId := session.roomId
          sessionId := session.sessionId
          workspaceKey := session.workspaceKey }
    else none

/-- Whether the context is still that of the room's active session. -/
def matchesActiveContext (context : DesktopRoomCommandContext) (host : Host) : Bool :=
  match (host.confirmations env.processId).state.roomSessions[context.roomId]? with
  | none => false
  | some session =>
    session.roomId == context.roomId && session.sessionId == context.sessionId &&
      session.workspaceKey == context.workspaceKey

variable {ε : Type}

/-- The thread that waits takes its next step. Returns its result, if it has one then. -/
def advanceWaiter (roomId : String) (caller : ℕ) (expired : Bool) :
    Thread Host ε (Option WaitResult) :=
  Thread.step fun moment host =>
    let seen : Seen :=
      { workspace := (env.availableWorkspace moment roomId).map fun (_, workspace) => workspace
        expired }
    let host := host.act (.advance caller seen)
    match (host.confirmations env.processId).threads caller with
    | .returned _ result => (.done (some result), host)
    | _ => (.done none, host)

/-- The thread takes steps until it returns, so often before its time is over. -/
def awaitReturn (roomId : String) (caller : ℕ) : ℕ → Thread Host ε WaitResult
  | 0 => do
    match ← advanceWaiter env roomId caller true with
    | some result => pure result
    | none => pure (.error unavailable)
  | rounds + 1 => do
    match ← advanceWaiter env roomId caller false with
    | some result => pure result
    | none => awaitReturn roomId caller rounds

/-- A call of `wait_for_room_authorization`. It has four steps before it waits: it looks up the
session, it looks up the workspace, it takes a number, and it registers its request. -/
def waitForRoomAuthorization (roomId : String) (command : ActionTimeCommand)
    (targetLabel : String) :
    Thread Host ε WaitResult := do
  let caller ← Thread.step fun _ host =>
    let caller := 2 * host.actions.length + 1
    (.done caller, host.act (.waitForRoomAuthorization caller roomId command targetLabel))
  let rounds ← Thread.reads fun moment _ => env.rounds moment
  awaitReturn env roomId caller (4 + rounds)

/-! ## The context of a turn -/

/-- The access of the commands, by that of the turn. -/
def commandAccess : AiDispatch.TextTurnWorkspaceAccess → WorkspaceCommandAccess
  | .readOnly => .readOnly
  | .readWrite => .readWrite

/-- The context of a turn's commands, made when the turn begins. -/
def contextForTurn (request : AiDispatch.TextTurnRequest) :
    PrepareProg DesktopCommandTurnContext := do
  let roomId ← Thread.ofOption .roomSessionUnavailable request.roomId
  let requested ← Thread.ofOption .workspaceUnavailable request.workspace
  let found ← Thread.reads fun moment _ => env.availableWorkspace moment roomId
  let (root, workspace) ← Thread.ofOption .workspaceUnavailable found
  Thread.require .workspaceChanged (root == requested.root)
  let roomContext ← Thread.reads fun _ host => activeRoomContext env roomId workspace host
  let roomContext ← Thread.ofOption .roomSessionUnavailable roomContext
  pure { roomContext, workspaceRoot := root, access := commandAccess requested.access }

/-- Looks at the workspace again: it must be the one the turn began with. -/
def revalidateTurnWorkspace (context : DesktopCommandTurnContext) : PrepareProg String := do
  let found ← Thread.reads fun moment _ =>
    env.availableWorkspace moment context.roomContext.roomId
  let (root, workspace) ← Thread.ofOption .workspaceUnavailable found
  Thread.require .workspaceChanged
    (root == context.workspaceRoot && workspace.identityKey == context.roomContext.workspaceKey)
  let active ← Thread.reads fun _ host => matchesActiveContext env context.roomContext host
  Thread.require .roomSessionUnavailable active
  pure root

/-! ## The files of a command -/

/-- A check of the file system or of a tool. -/
def check {ε : Type} (e : ε) (holds : ℕ → Bool) : Thread Host ε Unit := do
  let holds ← Thread.reads fun moment _ => holds moment
  Thread.require e holds

/-- The directory of a command, with the moment when it was resolved. -/
def executionDirectoryRoot {ε : Type} (e : ε) (workspaceRoot relative : String) :
    Thread Host ε (ℕ × String) := do
  let (moment, directory) ← Thread.reads fun moment _ =>
    (moment,
      if isCurrentDirectory relative then some workspaceRoot
      else env.existingDirectory moment workspaceRoot relative)
  let directory ← Thread.ofOption e directory
  pure (moment, directory)

/-- The directory must belong to the user. -/
def requireCurrentUserOwner (path : String) : PrepareProg Unit := do
  let owns ← Thread.reads fun moment _ => env.ownsDirectory moment path
  let owns ← Thread.ofOption .workspaceOwnerUnavailable owns
  Thread.require .workspaceOwnerMismatch owns

/-- The directory must still belong to the user. -/
def revalidateCurrentUserOwner (path : String) : ExecuteProg Unit := do
  let owns ← Thread.reads fun moment _ => env.ownsDirectory moment path
  let owns ← Thread.ofOption .workspaceOwnerUnavailable owns
  Thread.require .workspaceOwnerChanged owns

/-- Prepare a launch. It is noted as prepared even where that fails. -/
def prepareLaunch {ε : Type} (e : ε) (launch : CommandLaunch) : Thread Host ε Unit := do
  let prepared ← Thread.step fun moment host =>
    (.done (env.preparesLaunch moment launch), host.start (.prepared launch))
  Thread.require e prepared

/-! ## Preparing a command -/

/-- Whether the command is one of the npm scripts. -/
def isNpmScript : BaselineCommand → Bool
  | .npmBuild | .npmTest | .npmTypecheck => true
  | _ => false

/-- The directory of a fixed command, the guard of it, and its directory in the plan. -/
def baselineDirectory (workspaceRoot workingDirectory : String) (command : BaselineCommand) :
    PrepareProg (String × Option PreparedExecutionGuard × String) := do
  if command == .nodeRun || isNpmScript command then
    check .workspaceUnavailable fun moment => env.boundary moment workspaceRoot
    let (_, directory) ←
      executionDirectoryRoot env .workspaceUnavailable workspaceRoot workingDirectory
    let requiredFile := if isNpmScript command then "package.json" else "mio-main.mjs"
    check .workspaceUnavailable fun moment =>
      env.existingFile moment workspaceRoot (workspaceChild workingDirectory requiredFile)
    let guard :=
      if isNpmScript command then .packageManifest workingDirectory
      else .nodeEntry workingDirectory
    pure (directory, some guard, ".")
  else pure (workspaceRoot, none, workingDirectory)

/-- The executable of a tool, and the npm runtime where the tool needs it. -/
def toolOf (toolchain : DesktopCommandToolchain) :
    RegisteredTool → PrepareProg (VerifiedCommandExecutable × Option String)
  | .git => do
    let path ← Thread.ofOption .gitExecutableUnavailable toolchain.gitExecutable
    pure (.git path, none)
  | .node => do
    let path ← Thread.ofOption .nodeExecutableUnavailable toolchain.nodeExecutable
    pure (.node path, none)
  | .npm => do
    let path ← Thread.ofOption .nodeExecutableUnavailable toolchain.nodeExecutable
    let npmRuntime ← Thread.ofOption .npmRuntimeUnavailable toolchain.npmRuntime
    pure (.node path, some npmRuntime)
  | .cargo => Thread.exit .toolNotReady

/-- The error of a program that was not found. -/
def executableUnavailable : VerifiedCommandExecutable → DesktopCommandPreparationError
  | .git _ => .gitExecutableUnavailable
  | .node _ => .nodeExecutableUnavailable

/-- The error of a program that has changed. -/
def executableChanged : VerifiedCommandExecutable → DesktopCommandExecutionError
  | .git _ => .gitExecutableChanged
  | .node _ => .nodeExecutableChanged

/-- The npm runtime, where there is one, is the one that was verified. -/
def checkNpmRuntime {ε : Type} (e : ε) : Option String → Thread Host ε Unit
  | none => pure ()
  | some npmRuntime => check e fun moment => env.revalidates moment npmRuntime

/-- Prepares one of the commands that need no consent. -/
def prepareBaseline (context : DesktopCommandTurnContext) (workingDirectory : String)
    (command : BaselineCommand) : PrepareProg PreparedDesktopCommand := do
  -- The helper, the workspace and the directory come before the plan, and the tool after it.
  let helper ← Thread.ofOption .commandHelperUnavailable env.helper
  let workspaceRoot ← revalidateTurnWorkspace env context
  check .commandHelperUnavailable fun moment => env.revalidates moment helper
  let (executionRoot, executionGuard, brokerWorkingDirectory) ←
    baselineDirectory env workspaceRoot workingDirectory command
  match classifyCommand
      { workingDirectory := brokerWorkingDirectory, intent := .baseline command }
      context.access with
  -- A baseline command is never asked about.
  | .actionTimeConfirmationRequired _ | .denied _ => Thread.exit .commandDenied
  | .baseline plan =>
    if executionGuard.isSome then requireCurrentUserOwner env executionRoot
    let toolchain ← Thread.reads fun moment _ => env.toolchain moment
    let toolchain ← Thread.ofOption .toolNotReady toolchain
    let (toolExecutable, npmRuntime) ← toolOf toolchain plan.tool
    check (executableUnavailable toolExecutable) fun moment =>
      env.revalidates moment toolExecutable.path
    checkNpmRuntime env .npmRuntimeUnavailable npmRuntime
    match env.codec.encodeRequest plan context.access with
    | .error _ => Thread.exit .requestEncodingFailed
    | .ok request =>
      let kind : PreparedBackendKind := if isNpmScript command then .npmScript else .baseline
      let backend : CommandLaunch :=
        { kind, executionRoot, helper, executable := toolExecutable.path, npmRuntime, request }
      prepareLaunch env .backendPreparationFailed backend
      pure
        { roomContext := context.roomContext
          workspaceRoot, executionRoot, executionGuard, helper, toolExecutable, npmRuntime
          backendKind := kind
          request, backend }

/-- The label of a request to install. -/
def installLabel (plan : NpmPackageInstallPlan) (workingDirectory : String) : String :=
  s!"{plan.packageName}@{plan.exactVersion} in {workingDirectory}"

/-- The directory of an install, which the user owns and which has a manifest. The source makes the
last two checks in this order before and after it waits for consent. -/
def installDirectory (workspaceRoot workingDirectory : String) : PrepareProg String := do
  check .workspaceUnavailable fun moment => env.boundary moment workspaceRoot
  let (_, executionRoot) ←
    executionDirectoryRoot env .workspaceUnavailable workspaceRoot workingDirectory
  requireCurrentUserOwner env executionRoot
  check .workspaceUnavailable fun moment =>
    env.existingFile moment workspaceRoot (workspaceChild workingDirectory "package.json")
  pure executionRoot

/-- Prepares an install: its checks, the consent of the owner, and the checks again. -/
def prepareNpmPackageInstall (context : DesktopCommandTurnContext)
    (workingDirectory packageName exactVersion : String) : PrepareProg PreparedDesktopCommand := do
  -- Whatever is needed is looked up and validated before anything is asked of the owner.
  let helper ← Thread.ofOption .commandHelperUnavailable env.helper
  let toolchain ← Thread.reads fun moment _ => env.toolchain moment
  let toolchain ← Thread.ofOption .toolNotReady toolchain
  let node ← Thread.ofOption .nodeExecutableUnavailable toolchain.nodeExecutable
  let npmRuntime ← Thread.ofOption .npmRuntimeUnavailable toolchain.npmRuntime
  let workspaceRoot ← revalidateTurnWorkspace env context
  check .commandHelperUnavailable fun moment => env.revalidates moment helper
  check .nodeExecutableUnavailable fun moment => env.revalidates moment node
  check .npmRuntimeUnavailable fun moment => env.revalidates moment npmRuntime
  let _ ← installDirectory env workspaceRoot workingDirectory
  match classifyNpmPackageInstall env.codec.semver
      { workingDirectory := ".", packageName, exactVersion } context.access with
  | .denied _ => Thread.exit .commandDenied
  | .actionTimeConfirmationRequired plan =>
    match ← waitForRoomAuthorization env context.roomContext.roomId .packageInstall
        (installLabel plan workingDirectory) with
    | .error _ => Thread.exit .commandConfirmationUnavailable
    | .ok (.denied _) | .ok .roomSessionEnded => Thread.exit .commandAuthorizationDenied
    | .ok (.authorized _) =>
      -- The workspace may have changed during the wait, so it is looked at again.
      let currentWorkspace ← revalidateTurnWorkspace env context
      Thread.require .workspaceChanged (currentWorkspace == workspaceRoot)
      let executionRoot ← installDirectory env currentWorkspace workingDirectory
      match env.codec.encodeNpmPackageInstallRequest plan context.access with
      | .error _ => Thread.exit .requestEncodingFailed
      | .ok request =>
        let backend : CommandLaunch :=
          { kind := .npmPackageInstall, executionRoot, helper, executable := node
            npmRuntime := some npmRuntime, request }
        prepareLaunch env .backendPreparationFailed backend
        pure
          { roomContext := context.roomContext
            workspaceRoot, executionRoot
            executionGuard := some (.packageManifest workingDirectory)
            helper
            toolExecutable := .node node
            npmRuntime := some npmRuntime
            backendKind := .npmPackageInstall
            request, backend }

/-! ## Executing a command -/

/-- The directory that a guarded command is executed in, as it is now. -/
def guardedDirectory (workspaceRoot : String) (prepared : PreparedDesktopCommand)
    (guard : PreparedExecutionGuard) : ExecuteProg (ℕ × String) := do
  check .workspaceUnavailable fun moment => env.boundary moment workspaceRoot
  let (relative, requiredFile) := match guard with
    | .nodeEntry relative => (relative, "mio-main.mjs")
    | .packageManifest relative => (relative, "package.json")
  check .workspaceUnavailable fun moment =>
    env.existingFile moment workspaceRoot (workspaceChild relative requiredFile)
  let (moment, current) ←
    executionDirectoryRoot env .workspaceUnavailable workspaceRoot relative
  Thread.require .workspaceChanged (current == prepared.executionRoot)
  pure (moment, current)

/-- Runs a prepared command after checking again what it was prepared for. -/
def executePrepared (prepared : PreparedDesktopCommand) : ExecuteProg CommandLaunchOutcome := do
  let (workspaceMoment, found) ← Thread.reads fun moment _ =>
    (moment, env.availableWorkspace moment prepared.roomContext.roomId)
  let (root, workspace) ← Thread.ofOption .workspaceUnavailable found
  Thread.require .workspaceChanged
    (workspace.identityKey == prepared.roomContext.workspaceKey && root == prepared.workspaceRoot)
  let (sessionActions, active) ← Thread.reads fun _ host =>
    (host.actions, matchesActiveContext env prepared.roomContext host)
  Thread.require .roomSessionUnavailable active
  check .commandHelperChanged fun moment => env.revalidates moment prepared.helper
  check (executableChanged prepared.toolExecutable) fun moment =>
    env.revalidates moment prepared.toolExecutable.path
  checkNpmRuntime env .npmRuntimeChanged prepared.npmRuntime
  let (directoryMoment, executionRoot) ← match prepared.executionGuard with
    | some guard => guardedDirectory env root prepared guard
    | none => pure (workspaceMoment, root)
  if prepared.executionGuard.isSome then revalidateCurrentUserOwner env executionRoot
  -- A baseline command has no use for the npm runtime, and the others are refused without it.
  let npmRuntime ← match prepared.backendKind with
    | .baseline => pure none
    | .npmScript | .npmPackageInstall => do
      let npmRuntime ← Thread.ofOption .npmRuntimeChanged prepared.npmRuntime
      pure (some npmRuntime)
  let backend : CommandLaunch :=
    { kind := prepared.backendKind, executionRoot
      helper := prepared.helper
      executable := prepared.toolExecutable.path
      npmRuntime
      request := prepared.request }
  prepareLaunch env .backendPreparationFailed backend
  let outcome ← Thread.step fun moment host =>
    (.done (env.execute moment backend),
      host.start (.launched backend { workspaceMoment, sessionActions, directoryMoment }))
  Thread.ofOption .backendExecutionFailed outcome

end Code

end Mio.Desktop.CommandExecution
