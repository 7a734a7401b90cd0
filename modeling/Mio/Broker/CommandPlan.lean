import Mio.Broker.CommandBroker

/-!
# The commands of a workspace

The commands that `crates/moe-command-broker/src/lib.rs` plans: the fixed ones, and the install of
one npm package. A working directory is a relative path of Windows. A path with a drive or a root is
refused, and so is every name that Windows takes for a device. What the `semver` crate makes of a
version is a parameter.
-/

namespace Mio.Broker

open Library

/-- The longest working directory that a request can name, in bytes. -/
def maximumRelativePathBytes : ℕ := 4096

/-- The most components that a working directory can have. -/
def maximumRelativePathComponents : ℕ := 256

/-- The longest name of an npm package, in bytes. -/
def maximumNpmPackageNameBytes : ℕ := 214

/-- The longest version of an npm package, in bytes. -/
def maximumNpmExactVersionBytes : ℕ := 128

/-- The output of a command that is kept, in bytes. -/
def maximumCommandOutputBytes : ℕ := 256 * 1024

/-- The time that a command has, in seconds. -/
def maximumCommandSeconds : ℕ := 300

/-- What a command may do in the workspace. -/
inductive WorkspaceCommandAccess where
  | readOnly
  | readWrite
  deriving DecidableEq

/-- The tools that commands run. -/
inductive RegisteredTool where
  | git
  | node
  | npm
  | cargo
  deriving DecidableEq

/-- The commands that run without a question to the owner. -/
inductive BaselineCommand where
  | gitStatus
  | gitDiff
  | gitDiffStaged
  | gitLog
  | nodeRun
  | npmBuild
  | npmTest
  | npmTypecheck
  | cargoCheck
  | cargoBuild
  | cargoTest
  | cargoClippy
  | cargoFmtCheck
  deriving DecidableEq

namespace BaselineCommand

/-- The tool that a command runs. -/
def tool : BaselineCommand → RegisteredTool
  | gitStatus | gitDiff | gitDiffStaged | gitLog => .git
  | nodeRun => .node
  | npmBuild | npmTest | npmTypecheck => .npm
  | cargoCheck | cargoBuild | cargoTest | cargoClippy | cargoFmtCheck => .cargo

/-- Whether a command may write files of the workspace. Only those of git that show something do
not. -/
def writesWorkspace : BaselineCommand → Bool
  | gitStatus | gitDiff | gitDiffStaged | gitLog => false
  | _ => true

end BaselineCommand

/-- What is to be run: a command that needs no question, or one that does. -/
inductive WorkspaceCommandIntent where
  | baseline (command : BaselineCommand)
  | actionTime (command : ActionTimeCommand)
  deriving DecidableEq

/-- A request to run a command in a directory of the workspace. -/
structure WorkspaceCommandRequest where
  workingDirectory : String
  intent : WorkspaceCommandIntent
  deriving DecidableEq

/-- A command that has passed the checks, with the limits that it runs under. -/
structure WorkspaceCommandPlan where
  workingDirectory : String
  command : BaselineCommand
  tool : RegisteredTool
  networkEnabled : Bool
  acceptsShellCommandString : Bool
  maximumOutputBytes : ℕ
  maximumSeconds : ℕ
  deriving DecidableEq

/-- Why a request is refused. -/
inductive CommandDenialReason where
  | invalidWorkingDirectory
  | invalidPackageName
  | invalidExactVersion
  | workspaceWriteRequired
  deriving DecidableEq

/-- A request to install one version of an npm package in a directory of the workspace. -/
structure NpmPackageInstallRequest where
  workingDirectory : String
  packageName : String
  exactVersion : String
  deriving DecidableEq

/-- An install that has passed the checks. -/
structure NpmPackageInstallPlan where
  workingDirectory : String
  packageName : String
  exactVersion : String
  deriving DecidableEq

/-- What becomes of a request for an install: the owner is asked, or it is refused. -/
inductive NpmPackageInstallClassification where
  | actionTimeConfirmationRequired (plan : NpmPackageInstallPlan)
  | denied (reason : CommandDenialReason)
  deriving DecidableEq

/-- What becomes of a request for a command: it runs, the owner is asked, or it is refused. -/
inductive CommandClassification where
  | baseline (plan : WorkspaceCommandPlan)
  | actionTimeConfirmationRequired (reason : ConfirmationReason)
  | denied (reason : CommandDenialReason)
  deriving DecidableEq

/-! ## Working directories -/

/-- The parts of a path between its separators. -/
def pathSegments (path : List Char) : List (List Char) :=
  path.splitOnP fun c => c == '/' || c == '\\'

/-- The path is `Path::new(".")`: `.` first, and nothing else that counts. -/
def isCurrentDirectory (path : String) : Bool :=
  match pathSegments path.toList with
  | [] => false
  | first :: rest => first == ['.'] && rest.all fun segment => segment == [] || segment == ['.']

/-- `to_ascii_uppercase` of one character. -/
def asciiUppercase (c : Char) : Char := if c.isLower then c.toUpper else c

/-- The names that Windows keeps for devices. -/
def windowsDeviceNames : List String :=
  ["CON", "PRN", "AUX", "NUL", "CLOCK$", "CONIN$", "CONOUT$"]

/-- The digits behind `COM` and `LPT` in the names of devices, the superscript ones with them. -/
def windowsDeviceNumbers : List Char :=
  ['0', '1', '2', '3', '4', '5', '6', '7', '8', '9',
   '⁰', '¹', '²', '³', '⁴', '⁵', '⁶', '⁷', '⁸', '⁹']

/-- Whether a name is that of a serial or a parallel port. -/
def windowsNumberedDeviceName (deviceName : List Char) : Bool :=
  windowsDeviceNumbers.any fun number =>
    deviceName == ['C', 'O', 'M', number] || deviceName == ['L', 'P', 'T', number]

/-- Whether a component of a path can be the name of a directory on Windows. It ends neither in a
blank nor in a full stop, has no colon and no null, and is no device, with or without an
extension. -/
def validPathSegment (segment : List Char) : Bool :=
  if segment.isEmpty || segment.getLast? == some ' ' || segment.getLast? == some '.' ||
      segment.contains ':' || segment.contains '\x00' then false
  else
    let deviceName := (segment.takeWhile (· != '.')).map asciiUppercase
    !(windowsDeviceNames.any fun name => name.toList == deviceName) &&
      !windowsNumberedDeviceName deviceName

/-- The components of a relative path. A separator at its start is a root. Empty parts and `.` do
not count after the first part, and `..` is no component that a working directory may have, nor is
`.` at the start. -/
def pathComponents (path : List Char) : Option (List (List Char)) :=
  match pathSegments path with
  | [] => none
  | first :: rest =>
    if first == [] || first == ['.'] then none
    else some (first :: rest.filter fun segment => segment != [] && segment != ['.'])

/-- The working directory as the broker passes it on, or `none` where it is refused. Every way to
name the root gives `.`, and the components are joined again by one separator. -/
def workspaceRelativeDirectory (path : String) : Option String :=
  if isCurrentDirectory path then some "."
  else if path.isEmpty || maximumRelativePathBytes < path.utf8ByteSize then none
  else
    match pathComponents path.toList with
    | none => none
    | some components =>
      if components.all validPathSegment && components.length ≤ maximumRelativePathComponents then
        some (String.ofList (['\\'].intercalate components))
      else none

/-! ## Packages -/

/-- A character that a name of an npm package can have. -/
def validNpmNameByte (c : Char) : Bool :=
  c.isLower || c.isDigit || c == '-' || c == '_' || c == '.'

/-- A part of a name starts with a letter or a digit and has only such characters. -/
def validNpmNameComponent (component : List Char) : Bool :=
  match component with
  | [] => false
  | first :: _ => (first.isLower || first.isDigit) && component.all validNpmNameByte

/-- A name of an npm package, with or without a scope, in small letters. -/
def validNpmPackageName (name : String) : Bool :=
  if name.isEmpty || maximumNpmPackageNameBytes < name.utf8ByteSize ||
      name.toList.any (fun c => 0x7f < c.val) || name.toList.any (·.isUpper) then false
  else
    match name.toList.splitOnP (· == '/') with
    | [first] => validNpmNameComponent first
    | [first, package] =>
      match first with
      | '@' :: scope => validNpmNameComponent scope && validNpmNameComponent package
      | _ => false
    | _ => false

/-- A version as the `semver` crate reads it: its text, and its build metadata. -/
structure SemverVersion where
  text : String
  build : String
  deriving DecidableEq

section Classify

variable (semver : String → Option SemverVersion)

/-- An exact version: the text of a semantic version without a build, as it is written again. -/
def validExactNpmVersion (version : String) : Bool :=
  if version.isEmpty || maximumNpmExactVersionBytes < version.utf8ByteSize ||
      version.toList.any (fun c => 0x7f < c.val) then false
  else
    match semver version with
    | some parsed => parsed.text == version && parsed.build.isEmpty
    | none => false

/-- The checks of an install, in the order of the source: the directory, the access, the name, the
version. -/
def classifyNpmPackageInstall (request : NpmPackageInstallRequest)
    (access : WorkspaceCommandAccess) : NpmPackageInstallClassification :=
  match workspaceRelativeDirectory request.workingDirectory with
  | none => .denied .invalidWorkingDirectory
  | some workingDirectory =>
    if access != .readWrite then .denied .workspaceWriteRequired
    else if !validNpmPackageName request.packageName then .denied .invalidPackageName
    else if !validExactNpmVersion semver request.exactVersion then .denied .invalidExactVersion
    else
      .actionTimeConfirmationRequired
        { workingDirectory
          packageName := request.packageName
          exactVersion := request.exactVersion }

end Classify

/-- The checks of a command, in the order of the source: the directory, then what the intent asks
for. -/
def classifyCommand (request : WorkspaceCommandRequest) (access : WorkspaceCommandAccess) :
    CommandClassification :=
  match workspaceRelativeDirectory request.workingDirectory with
  | none => .denied .invalidWorkingDirectory
  | some workingDirectory =>
    match request.intent with
    | .baseline command =>
      if command.writesWorkspace && access != .readWrite then .denied .workspaceWriteRequired
      else
        .baseline
          { workingDirectory
            command
            tool := command.tool
            networkEnabled := false
            acceptsShellCommandString := false
            maximumOutputBytes := maximumCommandOutputBytes
            maximumSeconds := maximumCommandSeconds }
    | .actionTime command =>
      if command.writesWorkspace && access != .readWrite then .denied .workspaceWriteRequired
      else .actionTimeConfirmationRequired command.reason

example : workspaceRelativeDirectory "packages/app//" = some "packages\\app" := by decide
example : workspaceRelativeDirectory "packages/../app" = none := by decide
example : workspaceRelativeDirectory "com¹.txt" = none := by decide
example : validNpmPackageName "@types/node" = true := by decide

/-! ## What a plan says -/

/-- A command that is planned has the tool that is its own, and no network. A command that writes is
planned for a writable workspace only. -/
theorem classifyCommand_baseline {request : WorkspaceCommandRequest}
    {access : WorkspaceCommandAccess} {plan : WorkspaceCommandPlan}
    (h : classifyCommand request access = .baseline plan) :
    request.intent = .baseline plan.command ∧ plan.tool = plan.command.tool ∧
      plan.networkEnabled = false ∧
        (plan.command.writesWorkspace = true → access = .readWrite) := by
  unfold classifyCommand at h
  split at h
  · cases h
  · split at h
    · rename_i command hintent
      split at h
      · cases h
      · rename_i hwrites
        obtain rfl := CommandClassification.baseline.inj h
        refine ⟨hintent, rfl, rfl, fun hwrite => ?_⟩
        by_contra hne
        exact hwrites (by simpa using ⟨hwrite, hne⟩)
    · split at h <;> cases h

/-- An install that is planned is the one that was asked for, in a writable workspace. -/
theorem classifyNpmPackageInstall_plan {semver : String → Option SemverVersion}
    {request : NpmPackageInstallRequest} {access : WorkspaceCommandAccess}
    {plan : NpmPackageInstallPlan}
    (h : classifyNpmPackageInstall semver request access = .actionTimeConfirmationRequired plan) :
    access = .readWrite ∧ plan.packageName = request.packageName ∧
      plan.exactVersion = request.exactVersion ∧
        workspaceRelativeDirectory request.workingDirectory = some plan.workingDirectory := by
  unfold classifyNpmPackageInstall at h
  split at h
  · cases h
  · rename_i workingDirectory hdirectory
    split at h
    · cases h
    · rename_i haccess
      split at h
      · cases h
      · split at h
        · cases h
        · obtain rfl := NpmPackageInstallClassification.actionTimeConfirmationRequired.inj h
          exact ⟨by simpa using haccess, rfl, rfl, hdirectory⟩

end Mio.Broker
