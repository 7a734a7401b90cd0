import Mio.Broker.HelperProtocol
import Mio.Broker.WorkspacePath
import Mio.Library.SerdeJson

/-!
# The requests that the helper decodes

The JSON of `WireRequest` and `WireNpmPackageInstallRequest`, whose serialization is derived. The
two have different numbers of fields, with different names, so no text is a request of both kinds
(`fromValue_disjoint`). A directory, a package, or a version that is accepted is accepted again as
it is, so that a plan is classified again as itself. Thus the helper decodes the plan that was
encoded, and what it decodes can be encoded again (`helper_requests_faithful`).

A part of a path that is not Unicode is refused when the plan is classified, so a plan's directory
is a text.
-/

namespace Mio.Broker

open Library

namespace BaselineCommand

/-- The name of a command in a request. -/
def wireName : BaselineCommand → String
  | gitStatus => "git_status"
  | gitDiff => "git_diff"
  | gitDiffStaged => "git_diff_staged"
  | gitLog => "git_log"
  | nodeRun => "node_run"
  | npmBuild => "npm_build"
  | npmTest => "npm_test"
  | npmTypecheck => "npm_typecheck"
  | cargoCheck => "cargo_check"
  | cargoBuild => "cargo_build"
  | cargoTest => "cargo_test"
  | cargoClippy => "cargo_clippy"
  | cargoFmtCheck => "cargo_fmt_check"

/-- Every baseline command. -/
def all : List BaselineCommand :=
  [gitStatus, gitDiff, gitDiffStaged, gitLog, nodeRun, npmBuild, npmTest, npmTypecheck, cargoCheck,
    cargoBuild, cargoTest, cargoClippy, cargoFmtCheck]

end BaselineCommand

namespace WorkspaceCommandAccess

/-- The name of an access on the wire. -/
def wireName : WorkspaceCommandAccess → String
  | readOnly => "read_only"
  | readWrite => "read_write"

/-- Every access. -/
def all : List WorkspaceCommandAccess := [readOnly, readWrite]

end WorkspaceCommandAccess

namespace WireOperation

/-- The name of an operation on the wire. -/
def wireName : WireOperation → String
  | npmPackageInstall => "npm_package_install"

/-- Every operation. -/
def all : List WireOperation := [npmPackageInstall]

end WireOperation

namespace WireRequest

/-- The names of the fields of a request, in their order. -/
def names : List String := ["version", "command", "working_directory", "access"]

/-- The JSON value that is written for a request. -/
def toValue (request : WireRequest) : Value :=
  .object [("version", .number (toString request.version)),
    ("command", .string request.command.wireName),
    ("working_directory", .string request.workingDirectory),
    ("access", .string request.access.wireName)]

/-- The request that a JSON value is read as. -/
def fromValue (value : Value) : Option WireRequest :=
  match value.structFields names with
  | some [version, command, workingDirectory, access] => do
    let version ← version.asU16
    let command ← command.asVariant BaselineCommand.all BaselineCommand.wireName
    let workingDirectory ← workingDirectory.asStr
    let access ← access.asVariant WorkspaceCommandAccess.all WorkspaceCommandAccess.wireName
    some { version, command, workingDirectory, access }
  | _ => none

/-- The request that a plan is encoded as. -/
def ofPlan (plan : WorkspaceCommandPlan) (access : WorkspaceCommandAccess) : WireRequest where
  version := commandHelperProtocolVersion
  command := plan.command
  workingDirectory := plan.workingDirectory
  access := access

/-- A request is read back from what is written for it. -/
theorem fromValue_toValue {request : WireRequest} (h : request.version < 2 ^ 16) :
    fromValue request.toValue = some request := by
  have hfields : request.toValue.structFields names = some
      [.number (toString request.version), .string request.command.wireName,
        .string request.workingDirectory, .string request.access.wireName] :=
    Value.structFields_object (by simp)
  have hcommand : (Value.string request.command.wireName).asVariant BaselineCommand.all
      BaselineCommand.wireName = some request.command := by
    refine Value.asVariant_string (by decide) ?_
    cases request.command <;> decide
  have haccess : (Value.string request.access.wireName).asVariant WorkspaceCommandAccess.all
      WorkspaceCommandAccess.wireName = some request.access := by
    refine Value.asVariant_string (by decide) ?_
    cases request.access <;> decide
  unfold fromValue
  rw [hfields]
  dsimp only
  rw [Value.asU16_toString h, hcommand, haccess]
  rfl

end WireRequest

namespace WireNpmPackageInstallRequest

/-- The names of the fields of a request for an install, in their order. -/
def names : List String :=
  ["version", "operation", "working_directory", "package_name", "exact_version", "access"]

/-- The JSON value that is written for a request for an install. -/
def toValue (request : WireNpmPackageInstallRequest) : Value :=
  .object [("version", .number (toString request.version)),
    ("operation", .string request.operation.wireName),
    ("working_directory", .string request.workingDirectory),
    ("package_name", .string request.packageName),
    ("exact_version", .string request.exactVersion),
    ("access", .string request.access.wireName)]

/-- The request for an install that a JSON value is read as. -/
def fromValue (value : Value) : Option WireNpmPackageInstallRequest :=
  match value.structFields names with
  | some [version, operation, workingDirectory, packageName, exactVersion, access] => do
    let version ← version.asU16
    let operation ← operation.asVariant WireOperation.all WireOperation.wireName
    let workingDirectory ← workingDirectory.asStr
    let packageName ← packageName.asStr
    let exactVersion ← exactVersion.asStr
    let access ← access.asVariant WorkspaceCommandAccess.all WorkspaceCommandAccess.wireName
    some { version, operation, workingDirectory, packageName, exactVersion, access }
  | _ => none

/-- The request that carries the plan of an install. -/
def ofPlan (plan : NpmPackageInstallPlan) (access : WorkspaceCommandAccess) :
    WireNpmPackageInstallRequest where
  version := commandHelperProtocolVersion
  operation := .npmPackageInstall
  workingDirectory := plan.workingDirectory
  packageName := plan.packageName
  exactVersion := plan.exactVersion
  access := access

/-- A request for an install is read back from what is written for it. -/
theorem fromValue_toValue {request : WireNpmPackageInstallRequest} (h : request.version < 2 ^ 16) :
    fromValue request.toValue = some request := by
  have hfields : request.toValue.structFields names = some
      [.number (toString request.version), .string request.operation.wireName,
        .string request.workingDirectory, .string request.packageName,
        .string request.exactVersion, .string request.access.wireName] :=
    Value.structFields_object (by simp)
  have hoperation : (Value.string request.operation.wireName).asVariant WireOperation.all
      WireOperation.wireName = some request.operation := by
    refine Value.asVariant_string (by decide) ?_
    cases request.operation
    decide
  have haccess : (Value.string request.access.wireName).asVariant WorkspaceCommandAccess.all
      WorkspaceCommandAccess.wireName = some request.access := by
    refine Value.asVariant_string (by decide) ?_
    cases request.access <;> decide
  unfold fromValue
  rw [hfields]
  dsimp only
  rw [Value.asU16_toString h, hoperation, haccess]
  rfl

end WireNpmPackageInstallRequest

/-- No value is a request of both kinds. -/
theorem fromValue_disjoint {value : Value} {request : WireRequest}
    {install : WireNpmPackageInstallRequest} (hrequest : WireRequest.fromValue value = some request)
    (hinstall : WireNpmPackageInstallRequest.fromValue value = some install) : False := by
  unfold WireRequest.fromValue at hrequest
  unfold WireNpmPackageInstallRequest.fromValue at hinstall
  split at hrequest
  · rename_i hfields
    split at hinstall
    · rename_i hfields'
      obtain hlength | hnames := Value.structFields_both hfields hfields'
      · exact absurd hlength (by decide)
      · exact absurd ((hnames "command").mp (by decide)) (by decide)
    · cases hinstall
  · cases hrequest

/-! ## Classified again -/

/-- A plan is classified again as itself. -/
theorem classifyCommand_again {request : WorkspaceCommandRequest} {access : WorkspaceCommandAccess}
    {plan : WorkspaceCommandPlan} (h : classifyCommand request access = .baseline plan) :
    classifyCommand { workingDirectory := plan.workingDirectory, intent := .baseline plan.command }
      access = .baseline plan := by
  unfold classifyCommand at h
  split at h
  · cases h
  rename_i workingDirectory hdirectory
  split at h
  · rename_i command hintent
    split at h
    · cases h
    rename_i hwrites
    obtain rfl := CommandClassification.baseline.inj h
    unfold classifyCommand
    dsimp only
    rw [workspaceRelativeDirectory_again hdirectory]
    exact if_neg hwrites
  · split at h <;> cases h

/-- The checks accept the install that they have given, and give it again. -/
theorem classifyNpmPackageInstall_again {semver : String → Option SemverVersion}
    {request : NpmPackageInstallRequest} {access : WorkspaceCommandAccess}
    {plan : NpmPackageInstallPlan}
    (h : classifyNpmPackageInstall semver request access = .actionTimeConfirmationRequired plan) :
    classifyNpmPackageInstall semver
      { workingDirectory := plan.workingDirectory
        packageName := plan.packageName
        exactVersion := plan.exactVersion } access = .actionTimeConfirmationRequired plan := by
  obtain ⟨-, hname, hversion, hdirectory⟩ := classifyNpmPackageInstall_plan h
  unfold classifyNpmPackageInstall at h ⊢
  rw [hdirectory] at h
  dsimp only
  rw [workspaceRelativeDirectory_again hdirectory, hname, hversion]
  exact h

namespace HelperCodec

/-- The requests as `serde_json` writes and reads them. -/
def ofJson (json : SerdeJson) (semver : String → Option SemverVersion) : HelperCodec where
  request :=
    { toVec := fun request => some (json.toVec request.toValue)
      fromSlice := fun encoded => (json.fromSlice encoded).bind WireRequest.fromValue }
  npmPackageInstall :=
    { toVec := fun request => some (json.toVec request.toValue)
      fromSlice := fun encoded =>
        (json.fromSlice encoded).bind WireNpmPackageInstallRequest.fromValue }
  semver := semver

/-- The plan is encoded as these bytes and decoded from them, unless they are too many. -/
def Transmits (codec : HelperCodec) (result : Except CommandHelperProtocolError Bytes)
    (encoded : Bytes) (decoded : DecodedCommandRequest) : Prop :=
  if maximumCommandHelperRequestBytes < encoded.length then result = .error .requestTooLarge
  else result = .ok encoded ∧ codec.decodeCommandRequest encoded = .ok decoded

/-- The plan is given exactly where the broker runs the command without a question. -/
theorem classify_eq_ok {workingDirectory : String} {command : BaselineCommand}
    {access : WorkspaceCommandAccess} {plan : WorkspaceCommandPlan} :
    classify workingDirectory command access = .ok plan ↔
      classifyCommand { workingDirectory, intent := .baseline command } access =
        .baseline plan := by
  unfold classify
  constructor
  · intro h
    split at h
    · rename_i hclassified
      rw [hclassified, Except.ok.inj h]
    · cases h
  · intro h
    rw [h]

/-- The plan is given exactly where the broker would ask the owner. -/
theorem classifyNpmPackageInstallPlan_eq_ok {codec : HelperCodec}
    {workingDirectory packageName exactVersion : String} {access : WorkspaceCommandAccess}
    {plan : NpmPackageInstallPlan} :
    codec.classifyNpmPackageInstallPlan workingDirectory packageName exactVersion access =
      .ok plan ↔
      classifyNpmPackageInstall codec.semver
        { workingDirectory, packageName, exactVersion } access =
        .actionTimeConfirmationRequired plan := by
  unfold classifyNpmPackageInstallPlan
  constructor
  · intro h
    split at h
    · rename_i hclassified
      rw [hclassified, Except.ok.inj h]
    · cases h
  · intro h
    rw [h]

/-- A plan is decoded exactly from a request of the right size and version that the broker accepts.
-/
theorem decodeRequest_eq_ok {codec : HelperCodec} {encoded : Bytes} {plan : WorkspaceCommandPlan} :
    codec.decodeRequest encoded = .ok plan ↔
      encoded.length ≤ maximumCommandHelperRequestBytes ∧
        ∃ request, codec.request.fromSlice encoded = some request ∧
          request.version = commandHelperProtocolVersion ∧
            classify request.workingDirectory request.command request.access = .ok plan := by
  unfold decodeRequest
  constructor
  · intro h
    split at h
    · cases h
    rename_i hfits
    split at h
    · cases h
    rename_i request hread
    split at h
    · cases h
    rename_i hversion
    exact ⟨Nat.le_of_not_lt hfits, request, hread, by simpa using hversion, h⟩
  · rintro ⟨hfits, request, hread, hversion, h⟩
    rw [if_neg (Nat.not_lt.mpr hfits), hread]
    dsimp only
    rw [hversion]
    exact h

/-- An install is decoded exactly from a request of the right size and version that the broker
accepts. -/
theorem decodeNpmPackageInstallRequest_eq_ok {codec : HelperCodec} {encoded : Bytes}
    {plan : NpmPackageInstallPlan} :
    codec.decodeNpmPackageInstallRequest encoded = .ok plan ↔
      encoded.length ≤ maximumCommandHelperRequestBytes ∧
        ∃ request, codec.npmPackageInstall.fromSlice encoded = some request ∧
          request.version = commandHelperProtocolVersion ∧
            codec.classifyNpmPackageInstallPlan request.workingDirectory request.packageName
              request.exactVersion request.access = .ok plan := by
  unfold decodeNpmPackageInstallRequest
  constructor
  · intro h
    split at h
    · cases h
    rename_i hfits
    split at h
    · cases h
    rename_i request hread
    split at h
    · cases h
    rename_i hversion
    exact ⟨Nat.le_of_not_lt hfits, request, hread, by simpa using hversion, h⟩
  · rintro ⟨hfits, request, hread, hversion, h⟩
    rw [if_neg (Nat.not_lt.mpr hfits), hread]
    dsimp only
    rw [hversion]
    exact h

/-- A request that fits is not refused for its size. -/
theorem decodeRequest_ne_requestTooLarge {codec : HelperCodec} {encoded : Bytes}
    (h : encoded.length ≤ maximumCommandHelperRequestBytes) :
    codec.decodeRequest encoded ≠ .error .requestTooLarge := by
  unfold decodeRequest classify
  rw [if_neg (Nat.not_lt.mpr h)]
  intro herror
  split at herror
  · cases herror
  · split at herror
    · cases herror
    · split at herror <;> cases herror

/-- A baseline command is decoded exactly where the bytes are a request for one. -/
theorem decodeCommandRequest_baseline {codec : HelperCodec} {encoded : Bytes}
    {plan : WorkspaceCommandPlan} :
    codec.decodeCommandRequest encoded = .ok (.baseline plan) ↔
      codec.decodeRequest encoded = .ok plan := by
  unfold decodeCommandRequest
  constructor
  · intro h
    split at h
    · rename_i hdecoded
      rw [hdecoded, DecodedCommandRequest.baseline.inj (Except.ok.inj h)]
    · cases h
    · cases hinstall : codec.decodeNpmPackageInstallRequest encoded with
      | error e => rw [hinstall] at h; cases h
      | ok install => rw [hinstall] at h; cases h
  · intro h
    rw [h]

/-- An install is decoded where no fixed command is. -/
theorem decodeCommandRequest_npmPackageInstall {codec : HelperCodec} {encoded : Bytes}
    {plan : NpmPackageInstallPlan} (hother : ∀ other, codec.decodeRequest encoded ≠ .ok other) :
    codec.decodeCommandRequest encoded = .ok (.npmPackageInstall plan) ↔
      codec.decodeNpmPackageInstallRequest encoded = .ok plan := by
  unfold decodeCommandRequest
  constructor
  · intro h
    split at h
    · cases h
    · cases h
    · cases hinstall : codec.decodeNpmPackageInstallRequest encoded with
      | error e => rw [hinstall] at h; cases h
      | ok install =>
        rw [hinstall] at h
        rw [DecodedCommandRequest.npmPackageInstall.inj (Except.ok.inj h)]
  · intro h
    split
    · rename_i other hdecoded
      exact absurd hdecoded (hother other)
    · rename_i hdecoded
      exact absurd hdecoded
        (decodeRequest_ne_requestTooLarge (decodeNpmPackageInstallRequest_eq_ok.mp h).1)
    · rw [h]
      rfl

section OfJson

variable {json : SerdeJson} {semver : String → Option SemverVersion}

/-- A request of one kind is not decoded as one of the other. -/
theorem decode_unambiguous {encoded : Bytes} {plan : WorkspaceCommandPlan}
    {install : NpmPackageInstallPlan} (h : (ofJson json semver).decodeRequest encoded = .ok plan)
    (hinstall : (ofJson json semver).decodeNpmPackageInstallRequest encoded = .ok install) :
    False := by
  obtain ⟨-, request, hread, -⟩ := decodeRequest_eq_ok.mp h
  obtain ⟨-, other, hread', -⟩ := decodeNpmPackageInstallRequest_eq_ok.mp hinstall
  obtain ⟨value, hvalue, hrequest⟩ := Option.bind_eq_some_iff.mp hread
  obtain ⟨value', hvalue', hother⟩ := Option.bind_eq_some_iff.mp hread'
  obtain rfl := Option.some.inj (hvalue.symm.trans hvalue')
  exact fromValue_disjoint hrequest hother

/-- A JSON parameter that reads back what it writes does so for a request. -/
theorem request_readsBack (hjson : json.ReadsBack) {request : WireRequest}
    (h : request.version < 2 ^ 16) :
    (ofJson json semver).request.fromSlice (json.toVec request.toValue) = some request := by
  have hscalars : ∀ field ∈ [("version", Value.number (toString request.version)),
      ("command", .string request.command.wireName),
      ("working_directory", .string request.workingDirectory),
      ("access", .string request.access.wireName)], IsScalar field.2 := by
    simp only [List.forall_mem_cons]
    exact ⟨.inr ⟨_, h, rfl⟩, .inl ⟨_, rfl⟩, .inl ⟨_, rfl⟩, .inl ⟨_, rfl⟩, by simp⟩
  have hvalue : json.fromSlice (json.toVec request.toValue) = some request.toValue :=
    hjson _ hscalars
  show (json.fromSlice _).bind _ = _
  rw [hvalue]
  exact WireRequest.fromValue_toValue h

/-- It does so for a request for an install. -/
theorem npmPackageInstall_readsBack (hjson : json.ReadsBack)
    {request : WireNpmPackageInstallRequest}
    (h : request.version < 2 ^ 16) :
    (ofJson json semver).npmPackageInstall.fromSlice
    (json.toVec request.toValue) = some request := by
  have hscalars : ∀ field ∈ [("version", Value.number (toString request.version)),
      ("operation", .string request.operation.wireName),
      ("working_directory", .string request.workingDirectory),
      ("package_name", .string request.packageName),
      ("exact_version", .string request.exactVersion),
      ("access", .string request.access.wireName)], IsScalar field.2 := by
    simp only [List.forall_mem_cons]
    exact ⟨.inr ⟨_, h, rfl⟩, .inl ⟨_, rfl⟩, .inl ⟨_, rfl⟩, .inl ⟨_, rfl⟩, .inl ⟨_, rfl⟩,
      .inl ⟨_, rfl⟩, by simp⟩
  have hvalue : json.fromSlice (json.toVec request.toValue) = some request.toValue :=
    hjson _ hscalars
  show (json.fromSlice _).bind _ = _
  rw [hvalue]
  exact WireNpmPackageInstallRequest.fromValue_toValue h

/-- The version fits its field. -/
theorem version_lt : commandHelperProtocolVersion < 2 ^ 16 := by decide

/-- A plan that is classified as itself is decoded from what it is encoded as. -/
theorem transmits_baseline (hjson : json.ReadsBack) {plan : WorkspaceCommandPlan}
    {access : WorkspaceCommandAccess}
    (h : classify plan.workingDirectory plan.command access = .ok plan) :
    (ofJson json semver).Transmits ((ofJson json semver).encodeRequest plan access)
      (json.toVec (WireRequest.ofPlan plan access).toValue) (.baseline plan) := by
  have hencode : (ofJson json semver).encodeRequest plan access =
      bounded (some (json.toVec (WireRequest.ofPlan plan access).toValue)) := by
    unfold encodeRequest
    rw [h]
    simp only [bne_self_eq_false]
    rfl
  unfold Transmits
  split
  · rename_i hlarge
    rw [hencode, bounded, if_pos hlarge]
  · rename_i hfits
    exact ⟨by rw [hencode, bounded, if_neg hfits],
      decodeCommandRequest_baseline.mpr (decodeRequest_eq_ok.mpr
        ⟨Nat.le_of_not_lt hfits, _, request_readsBack hjson version_lt, rfl, h⟩)⟩

/-- An install that passes the checks arrives as it was sent. -/
theorem transmits_npmPackageInstall (hjson : json.ReadsBack) {plan : NpmPackageInstallPlan}
    {access : WorkspaceCommandAccess}
    (h : (ofJson json semver).classifyNpmPackageInstallPlan plan.workingDirectory plan.packageName
      plan.exactVersion access = .ok plan) :
    (ofJson json semver).Transmits ((ofJson json semver).encodeNpmPackageInstallRequest plan access)
      (json.toVec (WireNpmPackageInstallRequest.ofPlan plan access).toValue)
      (.npmPackageInstall plan) := by
  have hencode : (ofJson json semver).encodeNpmPackageInstallRequest plan access =
      bounded (some (json.toVec (WireNpmPackageInstallRequest.ofPlan plan access).toValue)) := by
    unfold encodeNpmPackageInstallRequest
    rw [h]
    simp only [bne_self_eq_false]
    rfl
  unfold Transmits
  split
  · rename_i hlarge
    rw [hencode, bounded, if_pos hlarge]
  · rename_i hfits
    have hdecoded : (ofJson json semver).decodeNpmPackageInstallRequest
        (json.toVec (WireNpmPackageInstallRequest.ofPlan plan access).toValue) = .ok plan :=
      decodeNpmPackageInstallRequest_eq_ok.mpr
        ⟨Nat.le_of_not_lt hfits, _, npmPackageInstall_readsBack hjson version_lt, rfl, h⟩
    exact ⟨by rw [hencode, bounded, if_neg hfits],
      (decodeCommandRequest_npmPackageInstall fun _ hother =>
        decode_unambiguous hother hdecoded).mpr hdecoded⟩

end OfJson

/-- A plan that was classified is encoded and decoded as itself. No text is decoded as a request of
both kinds. A plan that was decoded is classified as itself with the access that came with it, and
so it is encoded again. -/
theorem helper_requests_faithful (json : SerdeJson) (hjson : json.ReadsBack)
    (semver : String → Option SemverVersion) :
    (∀ request access plan, classifyCommand request access = .baseline plan →
      (ofJson json semver).Transmits ((ofJson json semver).encodeRequest plan access)
        (json.toVec (WireRequest.ofPlan plan access).toValue) (.baseline plan)) ∧
    (∀ request access plan,
      classifyNpmPackageInstall semver request access = .actionTimeConfirmationRequired plan →
        (ofJson json semver).Transmits
          ((ofJson json semver).encodeNpmPackageInstallRequest plan access)
          (json.toVec (WireNpmPackageInstallRequest.ofPlan plan access).toValue)
          (.npmPackageInstall plan)) ∧
    (∀ encoded,
      (∀ plan, (ofJson json semver).decodeCommandRequest encoded = .ok (.baseline plan) ↔
        (ofJson json semver).decodeRequest encoded = .ok plan) ∧
      (∀ plan, (ofJson json semver).decodeCommandRequest encoded = .ok (.npmPackageInstall plan) ↔
        (ofJson json semver).decodeNpmPackageInstallRequest encoded = .ok plan) ∧
      ∀ plan install, (ofJson json semver).decodeRequest encoded = .ok plan →
        (ofJson json semver).decodeNpmPackageInstallRequest encoded ≠ .ok install) ∧
    (∀ encoded plan, (ofJson json semver).decodeRequest encoded = .ok plan →
      ∃ request, (ofJson json semver).request.fromSlice encoded = some request ∧
        classifyCommand
          { workingDirectory := plan.workingDirectory, intent := .baseline plan.command }
          request.access = .baseline plan ∧
        (ofJson json semver).Transmits ((ofJson json semver).encodeRequest plan request.access)
          (json.toVec (WireRequest.ofPlan plan request.access).toValue) (.baseline plan)) ∧
    ∀ encoded plan, (ofJson json semver).decodeNpmPackageInstallRequest encoded = .ok plan →
      ∃ request, (ofJson json semver).npmPackageInstall.fromSlice encoded = some request ∧
        classifyNpmPackageInstall semver
          { workingDirectory := plan.workingDirectory
            packageName := plan.packageName
            exactVersion := plan.exactVersion } request.access =
          .actionTimeConfirmationRequired plan ∧
        (ofJson json semver).Transmits
          ((ofJson json semver).encodeNpmPackageInstallRequest plan request.access)
          (json.toVec (WireNpmPackageInstallRequest.ofPlan plan request.access).toValue)
          (.npmPackageInstall plan) := by
  refine ⟨?_, ?_, ?_, ?_, ?_⟩
  · intro request access plan h
    exact transmits_baseline hjson (classify_eq_ok.mpr (classifyCommand_again h))
  · intro request access plan h
    exact transmits_npmPackageInstall hjson
      (classifyNpmPackageInstallPlan_eq_ok.mpr (classifyNpmPackageInstall_again h))
  -- The two decoders accept no bytes in common, so what the joint decoder gives is what one of them
  -- gives.
  · intro encoded
    refine ⟨fun plan => decodeCommandRequest_baseline, fun install => ?_,
      fun plan install h hinstall =>
      decode_unambiguous h hinstall⟩
    constructor
    · intro h
      refine (decodeCommandRequest_npmPackageInstall fun other hother => ?_).mp h
      rw [decodeCommandRequest_baseline.mpr hother] at h
      cases h
    · intro h
      exact (decodeCommandRequest_npmPackageInstall fun other hother =>
        decode_unambiguous hother h).mpr h
  · intro encoded plan h
    obtain ⟨-, request, hread, -, hclassified⟩ := decodeRequest_eq_ok.mp h
    have hagain := classifyCommand_again (classify_eq_ok.mp hclassified)
    exact ⟨request, hread, hagain, transmits_baseline hjson (classify_eq_ok.mpr hagain)⟩
  · intro encoded plan h
    obtain ⟨-, request, hread, -, hclassified⟩ := decodeNpmPackageInstallRequest_eq_ok.mp h
    have hagain :=
      classifyNpmPackageInstall_again (classifyNpmPackageInstallPlan_eq_ok.mp hclassified)
    exact ⟨request, hread, hagain,
      transmits_npmPackageInstall hjson (classifyNpmPackageInstallPlan_eq_ok.mpr hagain)⟩

/-- The tests of a package, and the bytes of the request for them. -/
def cargoTestPlan : WorkspaceCommandPlan where
  workingDirectory := "packages\\app"
  command := .cargoTest
  tool := .cargo
  networkEnabled := false
  acceptsShellCommandString := false
  maximumOutputBytes := maximumCommandOutputBytes
  maximumSeconds := maximumCommandSeconds

/-- The bytes of a request for `cargo test`. -/
def cargoTestBytes : Bytes :=
  asBytes (Json.object [("version", "1"), ("command", Json.string "cargo_test"),
    ("working_directory", Json.string "packages\\\\app"), ("access", Json.string "read_write")])

/-- A request for `cargo test` is encoded as these bytes and decoded from them. -/
theorem helper_requests_faithful_cargoTest :
    (ofJson .flat fun text => some ⟨text, ""⟩).encodeRequest cargoTestPlan .readWrite =
        .ok cargoTestBytes ∧
      (ofJson .flat fun text => some ⟨text, ""⟩).decodeCommandRequest cargoTestBytes =
        .ok (.baseline cargoTestPlan) := by
  have h := (helper_requests_faithful .flat SerdeJson.flat_readsBack fun text => some ⟨text, ""⟩).1
    { workingDirectory := "packages/app", intent := .baseline .cargoTest } .readWrite cargoTestPlan
    (by decide)
  have hbytes : SerdeJson.flat.toVec (WireRequest.ofPlan cargoTestPlan .readWrite).toValue =
      cargoTestBytes := by decide
  rw [hbytes] at h
  have hlength : cargoTestBytes.length ≤ maximumCommandHelperRequestBytes := by decide
  rwa [Transmits, if_neg (Nat.not_lt.mpr hlength)] at h

end HelperCodec

end Mio.Broker
