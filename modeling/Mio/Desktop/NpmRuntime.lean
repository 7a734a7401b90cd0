import Mathlib.Data.List.Sort
import Mathlib.Data.String.Basic
import Mio.Core.Conductor
import Mio.Library.Digest

/-!
# The fingerprint of the npm runtime

`inspect_npm_runtime` and `revalidate` of `apps/desktop/src-tauri/src/command_toolchain_product.rs`.
A tree has its entries in the order in which the listing of a directory returns them. The
directories that are still to be listed are a stack.
-/

namespace Mio.Desktop.NpmRuntime

open Library Mio.Core.Conductor

/-- Where the npm program is in the runtime. -/
def npmCliRelativePath : String := "bin/npm-cli.js"

/-- The manifest of the runtime. -/
def npmPackageJsonFileName : String := "package.json"

/-- The greatest number of files. -/
def maximumNpmRuntimeFiles : ℕ := 4096

/-- The greatest number of directories. -/
def maximumNpmRuntimeDirectories : ℕ := 1024

/-- The greatest size of one file, in bytes. -/
def maximumNpmRuntimeFileBytes : ℕ := 16 * 1024 * 1024

/-- The greatest size of all files, in bytes. -/
def maximumNpmRuntimeTotalBytes : ℕ := 64 * 1024 * 1024

/-- Why the npm runtime is refused. -/
inductive CommandToolchainProductError where
  | unsafeNpmRuntime
  | npmRuntimeChanged
  deriving DecidableEq

/-- The name of an entry. Windows has names that are no text. -/
inductive FileName where
  | text (name : String)
  | units (name : List UInt16)
  deriving DecidableEq

/-- What an entry of a directory is. -/
inductive Node where
  | file (content : Bytes) (linkCount : ℕ)
  | directory (entries : List (FileName × Node))
  | link
  /-- Neither a file, nor a directory, nor a link. -/
  | special
  /-- An entry that one of the calls fails for. -/
  | unreadable

/-- A path from the root. -/
abbrev FilePath := List FileName

/-- The directory of the runtime, and what the calls say of its path. -/
structure NpmRoot where
  isAbsolute : Bool
  isDir : Bool
  isLink : Bool
  isCanonical : Bool
  entries : List (FileName × Node)

/-- The name as text, if it is one. -/
def FileName.toStr : FileName → Option String
  | .text name => some name
  | .units _ => none

/-- The path relative to the root, as a text with slashes. -/
def relativeText (path : FilePath) : Option String := do
  let names ← path.mapM FileName.toStr
  let chars := ['\\'].intercalate (names.map String.toList)
  if chars = [] then none
  else some (.ofList (chars.map fun c => if c = '\\' then '/' else c))

/-- A file of the runtime: its relative path, its length, and the digest of its content. -/
abbrev FileItem := String × ℕ × Fin (2 ^ 256)

/-- The state of a scan: what is still to be read, and what was found. -/
structure Scan where
  pending : List (FilePath × List (FileName × Node))
  files : List FileItem
  directoryCount : ℕ
  totalBytes : ℕ

/-- What is remembered of the runtime. -/
structure NpmRuntimeSnapshot where
  fileCount : ℕ
  directoryCount : ℕ
  totalBytes : ℕ
  treeHash : Fin (2 ^ 256)
  deriving DecidableEq

/-- A runtime that was inspected when the application started. -/
structure VerifiedNpmRuntime where
  snapshot : NpmRuntimeSnapshot

variable {known : Set Bytes} (digest : Digest known)

/-- An entry of the directory that is listed. -/
def visitEntry (directory : FilePath) (scan : Scan) (entry : FileName × Node) :
    Except CommandToolchainProductError Scan :=
  match entry.2 with
  | .link | .special | .unreadable => .error .unsafeNpmRuntime
  | .directory entries =>
    .ok { scan with pending := (directory ++ [entry.1], entries) :: scan.pending }
  | .file content linkCount =>
    if maximumNpmRuntimeFiles ≤ scan.files.length then .error .unsafeNpmRuntime
    else
      match relativeText (directory ++ [entry.1]) with
      | none => .error .unsafeNpmRuntime
      | some relative =>
        if maximumNpmRuntimeFileBytes < content.length then .error .unsafeNpmRuntime
        else if maximumNpmRuntimeTotalBytes < scan.totalBytes + content.length then
          .error .unsafeNpmRuntime
        else if linkCount ≠ 1 then .error .unsafeNpmRuntime
        else
          .ok { scan with
            files := scan.files ++ [(relative, content.length, digest.hash content)]
            totalBytes := scan.totalBytes + content.length }

/-- List the directories of the stack, as many as the limit leaves. -/
def visitDirectories : ℕ → Scan → Except CommandToolchainProductError Scan
  | remaining, scan =>
    match scan.pending with
    | [] => .ok scan
    | (directory, entries) :: pending =>
      match remaining with
      | 0 => .error .unsafeNpmRuntime
      | remaining + 1 => do
        let scan ← entries.foldlM (visitEntry digest directory)
          { scan with pending, directoryCount := scan.directoryCount + 1 }
        visitDirectories remaining scan

/-- Reads the whole tree, within its limits. -/
def scanNpmRuntime (root : NpmRoot) : Except CommandToolchainProductError Scan :=
  if !root.isAbsolute || !root.isDir || root.isLink then .error .unsafeNpmRuntime
  else if !root.isCanonical then .error .unsafeNpmRuntime
  else visitDirectories digest maximumNpmRuntimeDirectories ⟨[([], root.entries)], [], 0, 0⟩

/-- The items in the order of their paths. -/
def sortByPath (files : List FileItem) : List FileItem :=
  files.insertionSort fun left right => left.1 ≤ right.1

/-- What is hashed of a file. -/
def itemBytes (item : FileItem) : Bytes :=
  toLeBytes item.1.utf8ByteSize.toUInt64 ++ asBytes item.1 ++ toLeBytes item.2.1.toUInt64 ++
    digestBytes item.2.2

/-- The bytes that are hashed for the tree. -/
def treeBytes (files : List FileItem) : Bytes := (sortByPath files).flatMap itemBytes

/-- Inspects the runtime: its tree must have the npm program and the manifest. -/
def inspectNpmRuntime (root : NpmRoot) :
    Except CommandToolchainProductError NpmRuntimeSnapshot := do
  let scan ← scanNpmRuntime digest root
  if scan.files.isEmpty || !scan.files.any (fun item => item.1 == npmCliRelativePath) ||
      !scan.files.any (fun item => item.1 == npmPackageJsonFileName) then
    throw .unsafeNpmRuntime
  else
    return ⟨scan.files.length, scan.directoryCount, scan.totalBytes,
      digest.hash (treeBytes scan.files)⟩

/-- The runtime must be as it was. -/
def revalidate (runtime : VerifiedNpmRuntime) (root : NpmRoot) :
    Except CommandToolchainProductError Unit := do
  let snapshot ← inspectNpmRuntime digest root
  if snapshot ≠ runtime.snapshot then throw .npmRuntimeChanged

end Mio.Desktop.NpmRuntime
