import Mio.Library.Digest
import Mio.Library.Faults

/-!
# The image artifacts of the rooms

`RoomArtifactStore` of `apps/desktop/src-tauri/src/room_artifacts.rs`. An image is stored under a
name that is derived from its content: it is created there, and then written. What the calls say of
the file that an image is taken from is its `GeneratedImage`. A write that fails or is cut off
leaves a start of the content.
-/

namespace Mio.Desktop.RoomArtifacts

open Library

/-- How an artifact identifier begins. -/
def artifactIdPrefix : String := "artifact-image-"

/-- `MAXIMUM_BINARY_FILE_BYTES` of the workspace broker. -/
def maximumBinaryFileBytes : ℕ := 16 * 1048576

/-- Why an artifact is not stored or read. -/
inductive RoomArtifactError where
  | invalid
  | notFound
  | tooLarge
  | unsafeSource
  | unavailable
  | alreadyExists
  | workspaceUnavailable
  deriving DecidableEq

/-- The kinds of images. -/
inductive ImageKind where
  | png
  | jpeg
  | webp
  deriving DecidableEq

/-- The extension of an image's file. -/
def ImageKind.extension : ImageKind → String
  | .png => "png"
  | .jpeg => "jpg"
  | .webp => "webp"

/-- The kind of an image, by its first bytes. -/
def imageKind (bytes : Bytes) : Option ImageKind :=
  if [0x89, 0x50, 0x4e, 0x47, 0x0d, 0x0a, 0x1a, 0x0a].isPrefixOf bytes then some .png
  else if [0xff, 0xd8, 0xff].isPrefixOf bytes then some .jpeg
  else if 12 ≤ bytes.length && bytes.take 4 == [0x52, 0x49, 0x46, 0x46] &&
      (bytes.drop 8).take 4 == [0x57, 0x45, 0x42, 0x50] then some .webp
  else none

/-- The file of an image, as the calls of `ingest_generated_image` find it. -/
structure GeneratedImage where
  isAbsolute : Bool
  canonicalizes : Bool
  /-- It is in the trusted directory. -/
  isTrusted : Bool
  /-- Whether it is a regular file, and its length. -/
  metadata : Option (Bool × ℕ)
  content : Option Bytes

/-- The directory of the store, by the names of its files. -/
abbrev Files := String → Option Bytes

/-- A program over the artifact folder. -/
abbrev ArtifactProg := Prog Files RoomArtifactError

variable {known : Set Bytes} (digest : Digest known)

/-- The identifier of a content: its digest. -/
def artifactId (bytes : Bytes) : String := artifactIdPrefix ++ lowerHex 64 (digest.hash bytes).val

/-- The file of an artifact. -/
def fileName (id : String) (kind : ImageKind) : String := id ++ "." ++ kind.extension

/-! ## The file operations -/

/-- Whether the file is there. -/
def fileExists (name : String) : ArtifactProg Bool := .gets fun files => (files name).isSome

/-- Reads the whole file. -/
def readFile (name : String) : ArtifactProg Bytes := do
  Prog.tryStep .unavailable some fun _ files => files
  let content ← Prog.gets fun files => files name
  Prog.ofOption .unavailable content

/-- Creates an empty file; one that is there is an error. -/
def createNew (name : String) : ArtifactProg Unit :=
  .tryStep .unavailable
    (fun files => if (files name).isSome then none else some (Function.update files name (some [])))
    fun _ files => files

/-- Writes the content; a cut leaves a part of it. -/
def writeAll (name : String) (bytes : Bytes) : ArtifactProg Unit :=
  .tryStep .unavailable (fun files => some (Function.update files name (some bytes)))
    fun n files => Function.update files name (some (bytes.take n))

/-- Syncs the file. -/
def syncAll : ArtifactProg Unit := .tryStep .unavailable some fun _ files => files

/-- Removes the file. -/
def removeFile (name : String) : ArtifactProg Unit :=
  .tryStep .unavailable
    (fun files => if (files name).isSome then some (Function.update files name none) else none)
    fun _ files => files

/-! ## The operations -/

/-- The checks of an image: its content and its kind. -/
def checkImage (image : GeneratedImage) : Except RoomArtifactError (Bytes × ImageKind) :=
  if !image.isAbsolute then .error .unsafeSource
  else if !image.canonicalizes then .error .notFound
  else if !image.isTrusted then .error .unsafeSource
  else
    match image.metadata with
    | none => .error .notFound
    | some (isFile, length) =>
      if !isFile then .error .invalid
      else if maximumBinaryFileBytes < length then .error .tooLarge
      else
        match image.content with
        | none => .error .unavailable
        | some bytes =>
          if maximumBinaryFileBytes < bytes.length then .error .tooLarge
          else
            match imageKind bytes with
            | none => .error .invalid
            | some kind => .ok (bytes, kind)

/-- Store the content of an image. A file that is there is compared with it. -/
def store (bytes : Bytes) (kind : ImageKind) : ArtifactProg String := do
  let id := artifactId digest bytes
  let destination := fileName id kind
  if ← fileExists destination then
    match ← (readFile destination).attempt with
    | .ok found => if found = bytes then pure id else Prog.throw .invalid
    | .error _ => Prog.throw .invalid
  else do
    createNew destination
    Prog.onError (removeFile destination) do
      writeAll destination bytes
      syncAll
    pure id

/-- Checks an image and stores its content. -/
def ingestGeneratedImage (image : GeneratedImage) : ArtifactProg String := do
  let (bytes, kind) ← Prog.ofExcept (checkImage image)
  store digest bytes kind

/-- Whether the byte is a lower hexadecimal digit. -/
def isLowerHexDigit (byte : UInt8) : Bool :=
  0x30 ≤ byte && byte ≤ 0x39 || 0x61 ≤ byte && byte ≤ 0x66

/-- Whether the identifier is the prefix and 64 hexadecimal digits. -/
def validArtifactId (id : String) : Bool :=
  id.utf8ByteSize == artifactIdPrefix.utf8ByteSize + 64 &&
    (asBytes artifactIdPrefix).isPrefixOf (asBytes id) &&
    ((asBytes id).drop artifactIdPrefix.utf8ByteSize).all isLowerHexDigit

/-- The first file of an artifact, by its kinds. -/
def readKinds (id : String) : List ImageKind → ArtifactProg (ImageKind × Bytes)
  | [] => Prog.throw .notFound
  | kind :: kinds => do
    if ← fileExists (fileName id kind) then
      let bytes ← readFile (fileName id kind)
      if maximumBinaryFileBytes < bytes.length ∨ imageKind bytes ≠ some kind ∨
          artifactId digest bytes ≠ id then
        Prog.throw .invalid
      else pure (kind, bytes)
    else readKinds id kinds

/-- Reads an artifact, whatever kind of image it is. -/
def read (id : String) : ArtifactProg (ImageKind × Bytes) :=
  if !validArtifactId id then Prog.throw .invalid
  else readKinds digest id [.png, .jpeg, .webp]

end Mio.Desktop.RoomArtifacts
