import Mio.Broker.CommandPlan
import Mio.Library.Faults
import Mio.Library.Guards

/-!
# The isolation of a command

What `crates/moe-windows-command-launcher/src/windows.rs` acquires for one command, and how it gives
it back. Every call of the operating system is a step that succeeds or fails, and the state is the
list of the calls so far, with the latest first. A value that is dropped gives back what it still
holds, and it ignores whether that succeeds. The drops of a function are written where they happen:
`Prog.onError` drops a value on the way out of an early return.

What the calls give, beyond their success, is the `Windows` of a run.
-/

namespace Mio.Launcher

open Library Broker

/-- Why an isolated command fails. -/
inductive WindowsCommandIsolationError where
  | profileUnavailable
  | networkCapabilityUnavailable
  | systemToolUnavailable
  | workspaceGrantFailed
  | driveUnavailable
  | driveMappingFailed
  | jobUnavailable
  | requestPipeUnavailable
  | outputPipeUnavailable
  | processLaunchFailed
  | jobAssignmentFailed
  | requestWriteFailed
  | processResumeFailed
  | processWaitFailed
  | processExitUnavailable
  | outputReadFailed
  | outputReaderPanicked
  | toolStagingFailed
  | cleanupFailed
  deriving DecidableEq

/-- What is launched, and with which rights. -/
structure PreparedWindowsCommandLaunch where
  workspaceRoot : String
  toolExecutable : String
  tool : RegisteredTool
  workspaceWritable : Bool
  npmRuntime : Option String
  networkClientEnabled : Bool

/-- How the process of a command ended. -/
inductive WindowsCommandLaunchCompletion where
  | completed
  | outputLimitExceeded
  | hostTimedOut
  deriving DecidableEq

/-- What the process of a command left. -/
structure WindowsCommandLaunchOutcome where
  completion : WindowsCommandLaunchCompletion
  exitCode : ℕ
  stdout : Bytes
  stderr : Bytes
  deriving DecidableEq

/-! ## The calls -/

/-- What is acquired for a command. -/
inductive Resource where
  | job
  | toolDrive
  | drive
  | grant
  | stagedTool
  | profile
  deriving DecidableEq

/-- What a program of the system directory is run for. -/
inductive SystemCommand where
  | grant
  | removeGrant
  | mapDrive (resource : Resource) (letter : Char)
  | removeDrive (resource : Resource)
  deriving DecidableEq

/-- The calls that find a program of the system directory. -/
inductive Lookup where
  | systemDirectory
  | canonicalDirectory
  | canonicalExecutable
  | inDirectory
  deriving DecidableEq

/-- The calls before a process runs that only it needs. -/
inductive LaunchCall where
  | createPipe (output : Bool)
  | keepFromChild (output : Bool)
  | attributeListSize
  | attributeList
  | capabilitySid
  | securityCapabilities
  | inheritedHandles
  | environment
  | createProcess
  deriving DecidableEq

/-- A call of the system. -/
inductive Call where
  | createProfile
  | profileSid
  | profileFolder
  | deleteProfile
  | createToolDirectory
  | copyTool
  | createTempDirectory
  /-- A call that copies the runtime of npm. -/
  | copyNpmRuntime
  | removeToolDirectory
  | lookup (part : Lookup) (command : SystemCommand)
  | spawn (command : SystemCommand) (arguments : List String)
  | succeeds (command : SystemCommand)
  | logicalDrives
  | isFree (letter : Char)
  | createJob
  | setJobLimits
  | closeJob
  | terminateJob (exitCode : ℕ)
  | launch (call : LaunchCall)
  | assignProcess
  | terminateProcess
  | writeRequest
  | resumeThread
  | exitCode
  deriving DecidableEq

/-- The calls so far, with whether they succeeded. -/
abbrev Calls := List (Call × Bool)

/-- A program that calls the system. -/
abbrev Launch := Prog Calls WindowsCommandIsolationError

/-- Make a call and go on with whether it succeeded. -/
def call (c : Call) : Launch Bool :=
  .step (fun calls => some ((c, true) :: calls)) (fun _ calls => (c, false) :: calls) .ret

/-- Make a call that has to succeed. -/
def require (e : WindowsCommandIsolationError) (c : Call) : Launch Unit :=
  .tryStep e (fun calls => some ((c, true) :: calls)) fun _ calls => (c, false) :: calls

/-- Release what a value holds. The value stays as it was where that fails. -/
def tryRelease {α : Type} (release : α → Launch α) (value : α) : Launch (α × Bool) := do
  match ← (release value).attempt with
  | .ok value => pure (value, false)
  | .error _ => pure (value, true)

/-- Releases a resource that may be missing. -/
def tryReleaseOptional {α : Type} (release : α → Launch α) :
    Option α → Launch (Option α × Bool)
  | none => pure (none, false)
  | some value => do
    let (value, failed) ← tryRelease release value
    pure (some value, failed)

/-! ## What the calls give -/

/-- An entry of a directory of the npm runtime. -/
inductive RuntimeEntry where
  | link
  | directory
  | file (length copied : ℕ)
  | other

/-- How the wait for a process ends. -/
inductive Wait where
  | signalled
  | timedOut
  | failed
  deriving DecidableEq

/-- What the system answers. -/
structure Windows where
  sid : String
  profileFolder : String
  /-- The entries of the directories of the npm runtime, in the order in which they are read. -/
  runtimeEntries : ℕ → List RuntimeEntry
  wait : Wait
  /-- Whether a process that is ended after its time signals it. -/
  terminated : Bool
  exitCode : ℕ
  /-- What a reader of the output gives. -/
  output : Bool → Except WindowsCommandIsolationError Bytes
  outputExceeded : Bool

variable (windows : Windows) (prepared : PreparedWindowsCommandLaunch)

/-! ## The profile -/

/-- The profile that the command runs under. -/
structure AppContainerProfile where
  sid : String
  active : Bool

namespace AppContainerProfile

/-- Creates the profile. -/
def create : Launch AppContainerProfile := do
  require .profileUnavailable .createProfile
  pure ⟨windows.sid, true⟩

/-- The identity of the profile. -/
def sidString (profile : AppContainerProfile) : Launch String := do
  require .profileUnavailable .profileSid
  pure profile.sid

/-- The folder of the profile. -/
def folderPath (profile : AppContainerProfile) : Launch String := do
  let _ ← profile.sidString
  require .profileUnavailable .profileFolder
  pure windows.profileFolder

/-- Deletes the profile, once. -/
def delete (profile : AppContainerProfile) : Launch AppContainerProfile :=
  if !profile.active then pure profile
  else do
    require .cleanupFailed .deleteProfile
    pure { profile with active := false }

/-- What happens when the profile goes out of scope. -/
def drop (profile : AppContainerProfile) : Launch Unit :=
  if profile.active then do
    let _ ← call .deleteProfile
    pure ()
  else pure ()

end AppContainerProfile

/-! ## The staged tool -/

/-- The greatest number of files that are copied. -/
def maximumStagedNpmFiles : ℕ := 4096

/-- The greatest number of directories that are copied. -/
def maximumStagedNpmDirectories : ℕ := 1024

/-- The greatest size of a copied file, in bytes. -/
def maximumStagedNpmFileBytes : ℕ := 16 * 1024 * 1024

/-- The greatest size of all copied files, in bytes. -/
def maximumStagedNpmTotalBytes : ℕ := 64 * 1024 * 1024

/-- What there is to copy, and what was copied. -/
structure StagedNpm where
  pending : ℕ
  fileCount : ℕ
  totalBytes : ℕ

/-- A call of the copy. -/
def copyCall : Launch Unit := require .toolStagingFailed .copyNpmRuntime

/-- Copy the entries of a directory. -/
def copyEntries (staged : StagedNpm) : List RuntimeEntry → Launch StagedNpm
  | [] => pure staged
  | entry :: entries => do
    copyCall
    match entry with
    | .link | .other => Prog.throw .toolStagingFailed
    | .directory =>
      copyCall
      copyEntries { staged with pending := staged.pending + 1 } entries
    | .file length copied =>
      Prog.refuse .toolStagingFailed (decide (maximumStagedNpmFiles ≤ staged.fileCount))
      copyCall
      Prog.refuse .toolStagingFailed (decide (maximumStagedNpmFileBytes < length ∨
        maximumStagedNpmTotalBytes < staged.totalBytes + length))
      copyCall
      Prog.refuse .toolStagingFailed (copied != length)
      copyEntries
        { staged with fileCount := staged.fileCount + 1, totalBytes := staged.totalBytes + length }
        entries

/-- Copy the directories that are pending. -/
def copyDirectories (directoryCount : ℕ) (staged : StagedNpm) : Launch StagedNpm :=
  if staged.pending = 0 then pure staged
  else if maximumStagedNpmDirectories ≤ directoryCount then Prog.throw .toolStagingFailed
  else do
    copyCall
    let staged ← copyEntries { staged with pending := staged.pending - 1 }
      (windows.runtimeEntries directoryCount)
    copyDirectories (directoryCount + 1) staged
termination_by maximumStagedNpmDirectories - directoryCount

/-- Copies the npm runtime, within its limits. -/
def copyNpmRuntime : Launch Unit := do
  copyCall
  copyCall
  let staged ← copyDirectories windows 0 ⟨1, 0, 0⟩
  Prog.refuse .toolStagingFailed (staged.fileCount == 0)
  copyCall

/-- The folder that the tool was copied to. -/
structure StagedTool where
  directory : String
  active : Bool

namespace StagedTool

/-- Removes the folder, once. -/
def remove (tool : StagedTool) : Launch StagedTool :=
  if !tool.active then pure tool
  else do
    require .cleanupFailed .removeToolDirectory
    pure { tool with active := false }

/-- What happens when the folder goes out of scope. -/
def drop (tool : StagedTool) : Launch Unit := do
  let _ ← tool.remove.attempt

/-- Copies the tool of the command, if it needs one. -/
def forCommand (profile : AppContainerProfile) : Launch (Option StagedTool) :=
  if prepared.tool != .node && prepared.tool != .npm then pure none
  else do
    let folder ← profile.folderPath windows
    let directory := folder ++ "\\MIOCommandTool"
    require .toolStagingFailed .createToolDirectory
    let staged : StagedTool := ⟨directory, true⟩
    Prog.onError staged.drop do
      require .toolStagingFailed .copyTool
      require .toolStagingFailed .createTempDirectory
      if prepared.npmRuntime.isSome then copyNpmRuntime windows
      pure (some staged)

end StagedTool

/-! ## Programs of the system directory -/

/-- Find a program of the system directory. -/
def systemCommand (command : SystemCommand) : Launch Unit := do
  require .systemToolUnavailable (.lookup .systemDirectory command)
  require .systemToolUnavailable (.lookup .canonicalDirectory command)
  require .systemToolUnavailable (.lookup .canonicalExecutable command)
  require .systemToolUnavailable (.lookup .inDirectory command)

/-! ## The access to the workspace -/

/-- The right of the profile on the workspace. -/
structure TemporaryAclGrant where
  path : String
  sid : String
  active : Bool

namespace TemporaryAclGrant

/-- Takes the right away, once. -/
def remove (grant : TemporaryAclGrant) : Launch TemporaryAclGrant :=
  if !grant.active then pure grant
  else do
    systemCommand .removeGrant
    require .cleanupFailed
      (.spawn .removeGrant [grant.path, "/remove:g", "*" ++ grant.sid, "/T", "/C", "/L", "/Q"])
    require .cleanupFailed (.succeeds .removeGrant)
    pure { grant with active := false }

/-- What happens when the right goes out of scope. -/
def drop (grant : TemporaryAclGrant) : Launch Unit := do
  let _ ← grant.remove.attempt

/-- Grants the right; a grant that fails is taken back. -/
def grant (path sid : String) (writable : Bool) : Launch TemporaryAclGrant := do
  let grant : TemporaryAclGrant := ⟨path, sid, true⟩
  let granted ← Prog.onError grant.drop do
    systemCommand .grant
    let rights := if writable then "M" else "RX"
    require .workspaceGrantFailed (.spawn .grant
      [path, "/grant:r", "*" ++ sid ++ ":(OI)(CI)" ++ rights, "/T", "/C", "/L", "/Q"])
    call (.succeeds .grant)
  if granted then pure grant
  else do
    let (grant, _) ← tryRelease remove grant
    grant.drop
    Prog.throw .workspaceGrantFailed

end TemporaryAclGrant

/-! ## The drives -/

/-- A drive letter that stands for a folder. -/
structure WorkspaceDrive where
  resource : Resource
  name : Char
  active : Bool

namespace WorkspaceDrive

/-- Map the first letter that is free and can be mapped. -/
def mapFirst (resource : Resource) (workspace : String) : List Char → Launch WorkspaceDrive
  | [] => Prog.throw .driveUnavailable
  | letter :: letters => do
    if ← call (.isFree letter) then
      systemCommand (.mapDrive resource letter)
      require .driveMappingFailed
        (.spawn (.mapDrive resource letter) [letter.toString ++ ":", workspace])
      if ← call (.succeeds (.mapDrive resource letter)) then pure ⟨resource, letter, true⟩
      else mapFirst resource workspace letters
    else mapFirst resource workspace letters

/-- Maps the folder to the first letter that is free. -/
def create (resource : Resource) (workspace : String) : Launch WorkspaceDrive := do
  require .driveUnavailable .logicalDrives
  mapFirst resource workspace "ZYXWVUTSRQP".toList

/-- The root of the drive. -/
def root (drive : WorkspaceDrive) : String := drive.name.toString ++ ":\\"

/-- Removes the mapping, once. -/
def remove (drive : WorkspaceDrive) : Launch WorkspaceDrive :=
  if !drive.active then pure drive
  else do
    systemCommand (.removeDrive drive.resource)
    require .cleanupFailed
      (.spawn (.removeDrive drive.resource) [drive.name.toString ++ ":", "/D"])
    require .cleanupFailed (.succeeds (.removeDrive drive.resource))
    pure { drive with active := false }

/-- What happens when the mapping goes out of scope. -/
def drop (drive : WorkspaceDrive) : Launch Unit := do
  let _ ← drive.remove.attempt

end WorkspaceDrive

/-! ## The job -/

/-- The job that the process runs in. -/
structure JobHandle where
  active : Bool

namespace JobHandle

/-- Ends the processes of the job; whether it succeeds is not looked at. -/
def terminate (job : JobHandle) (exitCode : ℕ) : Launch Unit :=
  if job.active then do
    let _ ← call (.terminateJob exitCode)
    pure ()
  else pure ()

/-- Closes the job, once. -/
def close (job : JobHandle) : Launch JobHandle :=
  if !job.active then pure job
  else do
    require .cleanupFailed .closeJob
    pure { job with active := false }

/-- What happens when the job goes out of scope. -/
def drop (job : JobHandle) : Launch Unit :=
  if job.active then do
    let _ ← call .closeJob
    pure ()
  else pure ()

/-- Creates a job that ends its processes when it is closed. -/
def createKillOnClose : Launch JobHandle := do
  require .jobUnavailable .createJob
  let job : JobHandle := ⟨true⟩
  Prog.onError job.drop (require .jobUnavailable .setJobLimits)
  pure job

end JobHandle

/-! ## All of it -/

/-- Use a value that may be missing. -/
def optional {α β : Type} (f : α → Launch β) : Option α → Launch (Option β)
  | none => pure none
  | some a => some <$> f a

/-- Drop a value that may be missing. -/
def dropOptional {α : Type} (drop : α → Launch Unit) (value : Option α) : Launch Unit := do
  let _ ← optional drop value

/-- The resources of an isolated command. -/
structure IsolationResources where
  job : JobHandle
  drive : WorkspaceDrive
  toolDrive : Option WorkspaceDrive
  grant : TemporaryAclGrant
  stagedTool : Option StagedTool
  toolExecutable : String
  profile : AppContainerProfile

namespace IsolationResources

/-- Acquires the resources; those that are held are dropped on an error. -/
def establish : Launch IsolationResources := do
  let profile ← AppContainerProfile.create windows
  Prog.onError profile.drop do
    let sid ← profile.sidString
    let stagedTool ← StagedTool.forCommand windows prepared profile
    Prog.onError (dropOptional StagedTool.drop stagedTool) do
      let grant ← TemporaryAclGrant.grant prepared.workspaceRoot sid prepared.workspaceWritable
      Prog.onError grant.drop do
        let drive ← WorkspaceDrive.create .drive prepared.workspaceRoot
        Prog.onError drive.drop do
          let toolDrive ← optional (fun tool => WorkspaceDrive.create .toolDrive tool.directory)
            stagedTool
          Prog.onError (dropOptional WorkspaceDrive.drop toolDrive) do
            let toolExecutable :=
              toolDrive.elim prepared.toolExecutable fun drive => drive.root ++ "node.exe"
            let job ← JobHandle.createKillOnClose
            pure { job, drive, toolDrive, grant, stagedTool, toolExecutable, profile }

/-- Make the calls up to the process. -/
def launch (resources : IsolationResources) : Launch Unit := do
  require .requestPipeUnavailable (.launch (.createPipe false))
  require .requestPipeUnavailable (.launch (.keepFromChild false))
  require .outputPipeUnavailable (.launch (.createPipe true))
  require .outputPipeUnavailable (.launch (.keepFromChild true))
  require .outputPipeUnavailable (.launch (.createPipe true))
  require .outputPipeUnavailable (.launch (.keepFromChild true))
  require .processLaunchFailed (.launch .attributeListSize)
  require .processLaunchFailed (.launch .attributeList)
  if prepared.networkClientEnabled then
    require .networkCapabilityUnavailable (.launch .capabilitySid)
  require .processLaunchFailed (.launch .securityCapabilities)
  require .processLaunchFailed (.launch .inheritedHandles)
  let _ ← resources.toolDrive.elim (resources.profile.folderPath windows) fun drive =>
    pure drive.root
  require .systemToolUnavailable (.launch .environment)
  require .processLaunchFailed (.launch .createProcess)

/-- Wait for the process. Its time can be up. -/
def waitForProcess (resources : IsolationResources) : Launch Bool :=
  match windows.wait with
  | .signalled => pure false
  | .timedOut => do
    resources.job.terminate 124
    Prog.refuse .processWaitFailed (!windows.terminated)
    pure true
  | .failed => do
    resources.job.terminate 125
    Prog.throw .processWaitFailed

/-- Launches the process and waits for it. -/
def execute (resources : IsolationResources) : Launch WindowsCommandLaunchOutcome := do
  resources.launch windows prepared
  if !(← call .assignProcess) then
    require .processWaitFailed .terminateProcess
    Prog.throw .jobAssignmentFailed
  if !(← call .writeRequest) then
    resources.job.terminate 125
    Prog.throw .requestWriteFailed
  if !(← call .resumeThread) then
    resources.job.terminate 125
    Prog.throw .processResumeFailed
  let hostTimedOut ← resources.waitForProcess windows
  require .processExitUnavailable .exitCode
  if !hostTimedOut then resources.job.terminate 125
  let stdout ← Prog.ofExcept (windows.output false)
  let stderr ← Prog.ofExcept (windows.output true)
  let completion :=
    if hostTimedOut then .hostTimedOut
    else if windows.outputExceeded then .outputLimitExceeded
    else .completed
  pure { completion, exitCode := windows.exitCode, stdout, stderr }

/-- Releases the resources; all are tried, and an error is told at the end. -/
def close (resources : IsolationResources) :
    Launch (IsolationResources × Except WindowsCommandIsolationError Unit) := do
  let (job, jobFailed) ← tryRelease JobHandle.close resources.job
  let (toolDrive, toolDriveFailed) ← tryReleaseOptional WorkspaceDrive.remove resources.toolDrive
  let (drive, driveFailed) ← tryRelease WorkspaceDrive.remove resources.drive
  let (grant, grantFailed) ← tryRelease TemporaryAclGrant.remove resources.grant
  let (stagedTool, toolFailed) ← tryReleaseOptional StagedTool.remove resources.stagedTool
  let (profile, profileFailed) ← tryRelease AppContainerProfile.delete resources.profile
  let failed :=
    jobFailed || toolDriveFailed || driveFailed || grantFailed || toolFailed || profileFailed
  pure ({ resources with job, toolDrive, drive, grant, stagedTool, profile },
    if failed then .error .cleanupFailed else .ok ())

/-- The drop closes the resources once more, and then drops each of them. -/
def drop (resources : IsolationResources) : Launch Unit := do
  let (resources, _) ← resources.close
  resources.job.drop
  resources.drive.drop
  dropOptional WorkspaceDrive.drop resources.toolDrive
  resources.grant.drop
  dropOptional StagedTool.drop resources.stagedTool
  resources.profile.drop

end IsolationResources

/-- The whole launch: the resources are released however the command ends. -/
def executeWindowsCommandLaunch : Launch WindowsCommandLaunchOutcome := do
  let resources ← IsolationResources.establish windows prepared
  let outcome ← (resources.execute windows prepared).attempt
  let (resources, cleanup) ← resources.close
  resources.drop
  Prog.ofExcept cleanup
  Prog.ofExcept outcome

end Mio.Launcher
