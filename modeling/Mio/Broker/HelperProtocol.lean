import Mio.Broker.CommandPlan
import Mio.Library.Serde

/-!
# The requests to the command helper

`crates/moe-command-helper-protocol/src/lib.rs`: a plan is classified again before it is encoded,
and a request that is decoded is classified again before it is used, so that what comes out is what
went in (`decode_encodeNpmPackageInstall`). The JSON of the requests is a parameter.
-/

namespace Mio.Broker

open Library

/-- The version of the protocol between the application and its helper. -/
def commandHelperProtocolVersion : ℕ := 1

/-- The longest request to the helper, in bytes. -/
def maximumCommandHelperRequestBytes : ℕ := 16 * 1024

/-- Why a request is not encoded or not decoded. -/
inductive CommandHelperProtocolError where
  | invalidPlan
  | nonUnicodeWorkingDirectory
  | requestTooLarge
  | invalidEncoding
  | unsupportedVersion
  | rejectedByCommandBroker
  | inputReadFailed
  deriving DecidableEq

/-- `WireBaselineCommand` and `WireWorkspaceAccess` have the cases of what they stand for. -/
structure WireRequest where
  version : ℕ
  command : BaselineCommand
  workingDirectory : String
  access : WorkspaceCommandAccess
  deriving DecidableEq

/-- The operations of a request that is not for a baseline command. -/
inductive WireOperation where
  | npmPackageInstall
  deriving DecidableEq

/-- The request for an install as it goes over the wire. -/
structure WireNpmPackageInstallRequest where
  version : ℕ
  operation : WireOperation
  workingDirectory : String
  packageName : String
  exactVersion : String
  access : WorkspaceCommandAccess
  deriving DecidableEq

/-- What the helper has decoded. -/
inductive DecodedCommandRequest where
  | baseline (plan : WorkspaceCommandPlan)
  | npmPackageInstall (plan : NpmPackageInstallPlan)
  deriving DecidableEq

/-- What the protocol has from other crates: the JSON of its requests, and the versions. -/
structure HelperCodec where
  request : Serde WireRequest
  npmPackageInstall : Serde WireNpmPackageInstallRequest
  semver : String → Option SemverVersion

namespace HelperCodec

variable (codec : HelperCodec)

/-- The bytes, as long as they are not too many. -/
def bounded (encoded : Option Bytes) : Except CommandHelperProtocolError Bytes :=
  match encoded with
  | none => .error .invalidEncoding
  | some encoded =>
    if maximumCommandHelperRequestBytes < encoded.length then .error .requestTooLarge
    else .ok encoded

/-- The plan of a baseline command, by the checks of the broker. -/
def classify (workingDirectory : String) (command : BaselineCommand)
    (access : WorkspaceCommandAccess) : Except CommandHelperProtocolError WorkspaceCommandPlan :=
  match classifyCommand { workingDirectory, intent := .baseline command } access with
  | .baseline plan => .ok plan
  | _ => .error .rejectedByCommandBroker

/-- The plan of an install, by the checks of the broker. -/
def classifyNpmPackageInstallPlan (workingDirectory packageName exactVersion : String)
    (access : WorkspaceCommandAccess) : Except CommandHelperProtocolError NpmPackageInstallPlan :=
  match classifyNpmPackageInstall codec.semver { workingDirectory, packageName, exactVersion }
    access with
  | .actionTimeConfirmationRequired plan => .ok plan
  | .denied _ => .error .rejectedByCommandBroker

/-- The bytes for a plan. The plan has to be what the checks give for it again. -/
def encodeRequest (plan : WorkspaceCommandPlan) (access : WorkspaceCommandAccess) :
    Except CommandHelperProtocolError Bytes :=
  match classify plan.workingDirectory plan.command access with
  | .error e => .error e
  | .ok reclassified =>
    if reclassified != plan then .error .invalidPlan
    else
      bounded (codec.request.toVec
        { version := commandHelperProtocolVersion
          command := plan.command
          workingDirectory := plan.workingDirectory
          access })

/-- The plan that the bytes are for, by its checks. -/
def decodeRequest (encoded : Bytes) : Except CommandHelperProtocolError WorkspaceCommandPlan :=
  if maximumCommandHelperRequestBytes < encoded.length then .error .requestTooLarge
  else
    match codec.request.fromSlice encoded with
    | none => .error .invalidEncoding
    | some request =>
      if request.version != commandHelperProtocolVersion then .error .unsupportedVersion
      else classify request.workingDirectory request.command request.access

/-- The bytes for an install, whose plan has to be what the checks give for it again. -/
def encodeNpmPackageInstallRequest (plan : NpmPackageInstallPlan)
    (access : WorkspaceCommandAccess) : Except CommandHelperProtocolError Bytes :=
  match codec.classifyNpmPackageInstallPlan plan.workingDirectory plan.packageName
    plan.exactVersion access with
  | .error e => .error e
  | .ok reclassified =>
    if reclassified != plan then .error .invalidPlan
    else
      bounded (codec.npmPackageInstall.toVec
        { version := commandHelperProtocolVersion
          operation := .npmPackageInstall
          workingDirectory := plan.workingDirectory
          packageName := plan.packageName
          exactVersion := plan.exactVersion
          access })

/-- The install that the bytes are for, by its checks. -/
def decodeNpmPackageInstallRequest (encoded : Bytes) :
    Except CommandHelperProtocolError NpmPackageInstallPlan :=
  if maximumCommandHelperRequestBytes < encoded.length then .error .requestTooLarge
  else
    match codec.npmPackageInstall.fromSlice encoded with
    | none => .error .invalidEncoding
    | some request =>
      if request.version != commandHelperProtocolVersion then .error .unsupportedVersion
      else
        codec.classifyNpmPackageInstallPlan request.workingDirectory request.packageName
          request.exactVersion request.access

/-- The request that the bytes are for: a baseline command, or else an install. -/
def decodeCommandRequest (encoded : Bytes) :
    Except CommandHelperProtocolError DecodedCommandRequest :=
  match codec.decodeRequest encoded with
  | .ok plan => .ok (.baseline plan)
  | .error .requestTooLarge => .error .requestTooLarge
  | .error _ => (codec.decodeNpmPackageInstallRequest encoded).map .npmPackageInstall

/-- What the JSON of the requests does: it round trips, and a request to install, whose fields are
others, is not taken for a fixed command. -/
structure Lawful : Prop where
  request : codec.request.RoundTrips
  npmPackageInstall : codec.npmPackageInstall.RoundTrips
  distinct : ∀ install encoded, codec.npmPackageInstall.toVec install = some encoded →
    codec.request.fromSlice encoded = none

/-- What passes the limit is what was encoded, and it is short enough. -/
theorem bounded_eq_ok {encoded : Option Bytes} {bytes : Bytes} (h : bounded encoded = .ok bytes) :
    encoded = some bytes ∧ bytes.length ≤ maximumCommandHelperRequestBytes := by
  unfold bounded at h
  split at h
  · cases h
  · split at h
    · cases h
    · rename_i hsize
      obtain rfl := Except.ok.inj h
      exact ⟨rfl, Nat.le_of_not_lt hsize⟩

variable {codec}

/-- A request to install is decoded to the plan that it was encoded from. -/
theorem decode_encodeNpmPackageInstall (hcodec : codec.Lawful) {plan : NpmPackageInstallPlan}
    {access : WorkspaceCommandAccess} {encoded : Bytes}
    (h : codec.encodeNpmPackageInstallRequest plan access = .ok encoded) :
    codec.decodeCommandRequest encoded = .ok (.npmPackageInstall plan) := by
  unfold encodeNpmPackageInstallRequest at h
  split at h
  · cases h
  rename_i reclassified hclassify
  split at h
  · cases h
  rename_i hsame
  obtain rfl : reclassified = plan := by simpa using hsame
  obtain ⟨hvec, hsize⟩ := bounded_eq_ok h
  have hback := (hcodec.npmPackageInstall _ _ hvec).2
  have hother := hcodec.distinct _ _ hvec
  have hbound : ¬maximumCommandHelperRequestBytes < encoded.length := Nat.not_lt.mpr hsize
  have hinstall : codec.decodeNpmPackageInstallRequest encoded = .ok reclassified := by
    unfold decodeNpmPackageInstallRequest
    rw [if_neg hbound, hback]
    exact hclassify
  unfold decodeCommandRequest decodeRequest
  rw [if_neg hbound, hother, hinstall]
  rfl

end HelperCodec

end Mio.Broker
