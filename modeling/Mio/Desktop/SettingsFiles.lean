import Mathlib.Algebra.Field.Rat
import Mathlib.Algebra.Order.Ring.Rat
import Mio.Desktop.SettingsStore
import Mio.Library.Serde

/-!
# The participant profiles and the appearance

The two files of `participant_profiles.rs` and `appearance_settings.rs` under
`apps/desktop/src-tauri/src`, which are instances of `SettingsStore`. A number of the source is a
double: its type and the check of its bounds are parameters. A load is the one without a change of
participant identifiers.
-/

namespace Mio.Desktop

open Library Std

/-- A picture in a data URL, of a type that is shown, and within the limit. -/
def validDataUrl (maximum : ℕ) (dataUrl : String) : Bool :=
  ["data:image/png;base64,", "data:image/jpeg;base64,", "data:image/webp;base64,"].any
      (fun start => dataUrl.startsWith start) &&
    dataUrl.utf8ByteSize ≤ maximum &&
    match dataUrl.toList.dropWhile (· != ',') with
    | _ :: body => !body.isEmpty && (asBytes (String.ofList body)).all fun byte =>
        isAsciiAlphanumeric byte || byte == 0x2b || byte == 0x2f || byte == 0x3d
    | [] => false

namespace ParticipantProfiles

/-- The version of the file. -/
def fileVersion : UInt8 := 1

/-- The greatest size of the file, in bytes. -/
def maximumFileBytes : ℕ := 16 * 1024 * 1024

/-- The greatest size of an avatar, in bytes. -/
def maximumAvatarDataUrlBytes : ℕ := 8 * 1024 * 1024

/-- The greatest size of a name, in bytes. -/
def maximumDisplayNameBytes : ℕ := 200

/-- The greatest length of the instructions, in characters. -/
def maximumAiInstructionsChars : ℕ := 2000

/-- The model that leaves the choice to the provider. -/
def providerDefaultModel : String := "providerDefault"

/-- The access that the owner gives a participant. -/
inductive AiAccessMode where
  | providerDefault
  | chatOnly
  | workspaceRead
  | workspaceWrite
  deriving DecidableEq

/-- An avatar and where it is placed. -/
structure AvatarProfile (Number : Type) where
  dataUrl : String
  scale : Number
  x : Number
  y : Number
  deriving DecidableEq

/-- The profile of a participant. -/
structure ParticipantProfile (Number : Type) where
  participantId : String
  displayName : String
  avatar : Option (AvatarProfile Number)
  aiInstructions : String
  aiAccessMode : AiAccessMode
  aiModel : String
  deriving DecidableEq

/-- The profiles, by participant. -/
abbrev Profiles (Number : Type) := ExtTreeMap String (ParticipantProfile Number)

/-- The file of the profiles. -/
structure ProfileFile (Number : Type) where
  fileVersion : UInt8
  profiles : Profiles Number

instance {Number : Type} [DecidableEq Number] : DecidableEq (ProfileFile Number) := fun a b =>
  decidable_of_iff (a.fileVersion = b.fileVersion ∧ a.profiles = b.profiles) <| by
    cases a
    cases b
    simp

/-- Whether a name may be saved. -/
def validDisplayName (name : String) : Bool :=
  !(trim name).isEmpty && (trim name).utf8ByteSize ≤ maximumDisplayNameBytes &&
    !(trim name).toList.any isControl

/-- Whether the model is one of the participant's. -/
def validAiModel (participantId model : String) : Bool :=
  model == providerDefaultModel ||
    [("codex", "gpt-5.6-sol"), ("codex", "gpt-5.6-terra"), ("codex", "gpt-5.6-luna"),
      ("claude-code", "claude-fable-5"), ("claude-code", "claude-opus-5"),
      ("claude-code", "claude-sonnet-5"), ("grok", "grok-4.6")].contains (participantId, model)

section Store

variable {Number : Type} (within : ℚ → ℚ → Number → Bool) (serde : Serde (ProfileFile Number))

/-- Whether an avatar may be saved. -/
def validAvatar (avatar : AvatarProfile Number) : Bool :=
  validDataUrl maximumAvatarDataUrlBytes avatar.dataUrl && within 1 6 avatar.scale &&
    within (-1) 1 avatar.x && within (-1) 1 avatar.y

/-- Whether a profile may be saved. -/
def validProfile (profile : ParticipantProfile Number) : Bool :=
  boundedBytes 128 (fun _ byte =>
      isAsciiAlphanumeric byte || byte == 0x2d || byte == 0x5f || byte == 0x2e)
      profile.participantId &&
    validDisplayName profile.displayName && profile.avatar.all (validAvatar within) &&
    profile.aiInstructions.length ≤ maximumAiInstructionsChars &&
    !profile.aiInstructions.toList.any (fun c => isControl c && c != '\n' && c != '\t') &&
    validAiModel profile.participantId profile.aiModel &&
    match profile.participantId, profile.aiAccessMode with
    | "codex", _ => true
    | "grok", .workspaceRead => true
    | _, .providerDefault | _, .chatOnly => true
    | _, _ => false

/-- The profiles of a file; one bad entry refuses it. -/
def ofPersisted (value : ProfileFile Number) : Option (Profiles Number) :=
  if value.fileVersion != fileVersion ||
      value.profiles.toList.any (fun (id, profile) =>
        id != profile.participantId || !validProfile within profile) then none
  else some value.profiles

/-- The file of the profiles (`DesktopParticipantProfiles`). -/
def profileStore : JsonStore (Profiles Number) where
  maximumBytes := maximumFileBytes
  empty := ∅
  toVec profiles := serde.toVec { fileVersion, profiles }
  fromSlice body := (serde.fromSlice body).bind (ofPersisted within)

/-- The profiles that a save of one persists, if it is valid. -/
def withProfile (profiles : Profiles Number) (profile : ParticipantProfile Number) :
    Option (Profiles Number) :=
  if !validProfile within profile then none
  else some (profiles.insert profile.participantId profile)

/-- Profiles that a file gives back: each valid, and under its own identifier. -/
def ValidProfiles (profiles : Profiles Number) : Prop :=
  ∀ id profile, profiles[id]? = some profile →
    id = profile.participantId ∧ validProfile within profile = true

variable {within serde}

/-- Valid profiles are read back. -/
theorem ofPersisted_of_valid {profiles : Profiles Number} (h : ValidProfiles within profiles) :
    ofPersisted within { fileVersion, profiles } = some profiles := by
  have hentries : (profiles.toList.any fun (id, profile) =>
      id != profile.participantId || !validProfile within profile) = false := by
    rw [List.any_eq_false]
    rintro ⟨id, profile⟩ hmem
    obtain ⟨rfl, hvalid⟩ := h id profile (ExtTreeMap.mem_toList_iff_getElem?_eq_some.mp hmem)
    simp [hvalid]
  simp [ofPersisted, hentries]

/-- The store of the profiles is lawful. -/
theorem profileStore_lawful (hserde : serde.RoundTrips) :
    (profileStore within serde).Lawful (ValidProfiles within) := by
  refine ⟨fun profiles body hvalid hvec => ?_⟩
  obtain ⟨hne, hback⟩ := hserde _ body hvec
  refine ⟨hne, ?_⟩
  show (serde.fromSlice body).bind (ofPersisted within) = some profiles
  rw [hback, Option.bind_some, ofPersisted_of_valid hvalid]

/-- Profiles with a changed one are valid. -/
theorem validProfiles_withProfile {profiles after : Profiles Number}
    {profile : ParticipantProfile Number} (h : ValidProfiles within profiles)
    (hafter : withProfile within profiles profile = some after) : ValidProfiles within after := by
  unfold withProfile at hafter
  split at hafter
  · cases hafter
  · rename_i hvalid
    obtain rfl := Option.some.inj hafter
    intro id other hother
    rw [ExtTreeMap.getElem?_insert] at hother
    split at hother
    · rename_i heq
      obtain rfl := Option.some.inj hother
      exact ⟨(LawfulEqCmp.eq_of_compare heq).symm, by simpa using hvalid⟩
    · exact h id other hother

end Store

end ParticipantProfiles

namespace AppearanceSettings

/-- The version of the file. -/
def fileVersion : UInt8 := 1

/-- The greatest size of the file, in bytes. -/
def maximumFileBytes : ℕ := 26 * 1024 * 1024

/-- The greatest size of an image, in bytes. -/
def maximumImageDataUrlBytes : ℕ := 12 * 1024 * 1024

/-- The greatest size of a file's name, in bytes. -/
def maximumFileNameBytes : ℕ := 512

/-- The image behind the window. -/
structure AppearanceImage where
  dataUrl : String
  fileName : String
  deriving DecidableEq

/-- Where an artwork is placed. -/
structure AppearancePlacement (Number : Type) where
  scale : Number
  x : Number
  y : Number
  deriving DecidableEq

/-- An artwork and where it is placed. -/
structure AppearanceArtwork (Number : Type) where
  dataUrl : String
  fileName : String
  placement : AppearancePlacement Number
  deriving DecidableEq

/-- The appearance of the application. -/
structure Settings (Number : Type) where
  backgroundColor : String
  backgroundImage : Option AppearanceImage
  artwork : Option (AppearanceArtwork Number)
  deriving DecidableEq

/-- The file of the appearance. -/
structure AppearanceFile (Number : Type) where
  fileVersion : UInt8
  settings : Settings Number
  deriving DecidableEq

/-- Whether the name of a file may be saved. -/
def validFileName (fileName : String) : Bool :=
  !fileName.isEmpty && fileName.utf8ByteSize ≤ maximumFileNameBytes &&
    !fileName.toList.any isControl

/-- Whether the byte is a hexadecimal digit. -/
def isAsciiHexdigit (byte : UInt8) : Bool :=
  isAsciiDigit byte || 0x41 ≤ byte && byte ≤ 0x46 || 0x61 ≤ byte && byte ≤ 0x66

/-- The appearance without a file. -/
def defaultSettings {Number : Type} : Settings Number where
  backgroundColor := "#ffc126"
  backgroundImage := none
  artwork := none

section Store

variable {Number : Type} (within : ℚ → ℚ → Number → Bool) (serde : Serde (AppearanceFile Number))

/-- Whether an appearance may be saved. -/
def validSettings (settings : Settings Number) : Bool :=
  (match asBytes settings.backgroundColor with
    | first :: digits => first == 0x23 && digits.length == 6 && digits.all isAsciiHexdigit
    | [] => false) &&
    settings.backgroundImage.all (fun image =>
      validFileName image.fileName && validDataUrl maximumImageDataUrlBytes image.dataUrl) &&
    settings.artwork.all (fun artwork =>
      validFileName artwork.fileName && validDataUrl maximumImageDataUrlBytes artwork.dataUrl &&
        within (1 / 20) 2 artwork.placement.scale && within (-1 / 2) (3 / 2) artwork.placement.x &&
        within (-1 / 2) (3 / 2) artwork.placement.y)

/-- The appearance of a file; a bad one refuses it. -/
def ofPersisted (value : AppearanceFile Number) : Option (Settings Number) :=
  if value.fileVersion != fileVersion || !validSettings within value.settings then none
  else some value.settings

/-- The file of the appearance (`DesktopAppearanceSettings`). -/
def appearanceStore : JsonStore (Settings Number) where
  maximumBytes := maximumFileBytes
  empty := defaultSettings
  toVec settings := serde.toVec { fileVersion, settings }
  fromSlice body := (serde.fromSlice body).bind (ofPersisted within)

/-- The settings that a save persists, if they are valid. -/
def newSettings (_current settings : Settings Number) : Option (Settings Number) :=
  if !validSettings within settings then none else some settings

variable {within serde}

/-- The store of the appearance is lawful. -/
theorem appearanceStore_lawful (hserde : serde.RoundTrips) :
    (appearanceStore within serde).Lawful fun settings => validSettings within settings = true := by
  refine ⟨fun settings body hvalid hvec => ?_⟩
  obtain ⟨hne, hback⟩ := hserde _ body hvec
  refine ⟨hne, ?_⟩
  show (serde.fromSlice body).bind (ofPersisted within) = some settings
  rw [hback, Option.bind_some, ofPersisted]
  simp [hvalid]

/-- The default appearance passes its check. -/
theorem validSettings_default :
    validSettings within (defaultSettings : Settings Number) = true := by
  simp only [validSettings, defaultSettings, Option.all_none, Bool.and_true]
  decide

/-- A changed appearance passes its check. -/
theorem validSettings_newSettings {current settings after : Settings Number}
    (h : newSettings within current settings = some after) : validSettings within after = true := by
  unfold newSettings at h
  split at h
  · cases h
  · rename_i hvalid
    obtain rfl := Option.some.inj h
    simpa using hvalid

end Store

end AppearanceSettings

/-- In every run in which no save is stopped between its two renames, a load gives the profiles, and
the appearance, that were saved last. -/
theorem settings_recover {Number : Type} (within : ℚ → ℚ → Number → Bool)
    (profileSerde : Serde (ParticipantProfiles.ProfileFile Number))
    (appearanceSerde : Serde (AppearanceSettings.AppearanceFile Number))
    (hprofile : profileSerde.RoundTrips) (happearance : appearanceSerde.RoundTrips) :
    SettingsStore.Recovers (ParticipantProfiles.profileStore within profileSerde)
        (ParticipantProfiles.withProfile within) ∧
      SettingsStore.Recovers (AppearanceSettings.appearanceStore within appearanceSerde)
        (AppearanceSettings.newSettings within) := by
  constructor
  · refine SettingsStore.recovers (ParticipantProfiles.profileStore_lawful hprofile) ?_
      fun _ _ _ hvalid hnext => ParticipantProfiles.validProfiles_withProfile hvalid hnext
    intro id profile hprofile
    simp [ParticipantProfiles.profileStore] at hprofile
  · exact SettingsStore.recovers (AppearanceSettings.appearanceStore_lawful happearance)
      AppearanceSettings.validSettings_default
      fun _ _ _ _ hnext => AppearanceSettings.validSettings_newSettings hnext

namespace SettingsSample

open ParticipantProfiles AppearanceSettings

/-- The order of the rationals. -/
def within (lowest highest x : ℚ) : Bool := lowest ≤ x && x ≤ highest

/-- A profile of Codex. -/
def profile : ParticipantProfile ℚ where
  participantId := "codex"
  displayName := "Codex"
  avatar := none
  aiInstructions := ""
  aiAccessMode := .workspaceRead
  aiModel := "providerDefault"

/-- The profiles with that one. -/
def profiles : Profiles ℚ := .ofList [("codex", profile)]

/-- The content of their file. -/
def profilesBody : Bytes :=
  asBytes ("\x7b\"fileVersion\":1,\"profiles\":\x7b\"codex\":\x7b\"participantId\":\"codex\"," ++
    "\"displayName\":\"Codex\",\"avatar\":null,\"aiInstructions\":\"\"," ++
    "\"aiAccessMode\":\"workspaceRead\",\"aiModel\":\"providerDefault\"\x7d\x7d\x7d")

/-- A serializer that knows that file. -/
def profileSerde : Serde (ProfileFile ℚ) :=
  .table [({ fileVersion := 1, profiles }, profilesBody)]

/-- An appearance with another color. -/
def settings : Settings ℚ := { defaultSettings with backgroundColor := "#80b9cf" }

/-- The content of its file. -/
def settingsBody : Bytes :=
  asBytes ("\x7b\"fileVersion\":1,\"settings\":\x7b\"backgroundColor\":\"#80b9cf\"," ++
    "\"backgroundImage\":null,\"artwork\":null\x7d\x7d")

/-- A serializer that knows that file. -/
def appearanceSerde : Serde (AppearanceFile ℚ) :=
  .table [({ fileVersion := 1, settings }, settingsBody)]

/-- A schedule that stops at the sixth step. -/
def cutAtSixth : List Fault :=
  [.proceed, .proceed, .proceed, .proceed, .proceed, .cut 0]

end SettingsSample

open SettingsSample in
/-- Both stores recover with these serializers. -/
theorem settings_recover_sample :
    SettingsStore.Recovers (ParticipantProfiles.profileStore within profileSerde)
        (ParticipantProfiles.withProfile within) ∧
      SettingsStore.Recovers (AppearanceSettings.appearanceStore within appearanceSerde)
        (AppearanceSettings.newSettings within) :=
  settings_recover within profileSerde appearanceSerde
    (Serde.table_roundTrips (by decide) (by decide))
    (Serde.table_roundTrips (by decide) (by decide))

open SettingsSample in
/-- A profile, and an appearance, that were saved once are forgotten when the next save is cut off
between its two renames: the load after it gives the default, with the saved one in the backup. -/
theorem settings_forgotten :
    let profileFile := ParticipantProfiles.profileStore within profileSerde
    let afterProfile := SettingsStore.run profileFile (ParticipantProfiles.withProfile within)
      [.save profile [], .save profile cutAtSixth, .restart 8]
      (SettingsStore.start profileFile (.empty 7))
    let appearanceFile := AppearanceSettings.appearanceStore within appearanceSerde
    let afterAppearance := SettingsStore.run appearanceFile (AppearanceSettings.newSettings within)
      [.save settings [], .save settings cutAtSixth, .restart 8]
      (SettingsStore.start appearanceFile (.empty 7))
    (afterProfile.saved = some profiles ∧
        ((SettingsStore.load profileFile).run [] afterProfile.world).1 = .done ∅ ∧
        afterProfile.world.dir .backup = some (.file profilesBody)) ∧
      afterAppearance.saved = some settings ∧
        ((SettingsStore.load appearanceFile).run [] afterAppearance.world).1 =
          .done AppearanceSettings.defaultSettings ∧
        afterAppearance.world.dir .backup = some (.file settingsBody) := by
  decide +kernel

end Mio.Desktop
