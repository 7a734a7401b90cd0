import Mathlib.Data.List.Sort
import Mio.Broker.WorkspacePath
import Mio.Library.Pool

/-!
# The files of a workspace

`WorkspaceBroker` and `WorkspaceBoundary` of `crates/moe-workspace-broker/src/lib.rs`, as routines
over the volume that the workspace is on. Each call to the operating system is a call of a routine,
and what it answers is what the volume says at that moment.

The volume is the workspace below its canonical root. It compares names by `Host.fold`, so that one
that makes no difference between upper and lower case is covered. Of a file its content, the number
of its names, and whether its content has been brought to the disk is kept; of a link where it
leads.
-/

namespace Mio.Broker.WorkspaceFiles

open Library

/-- The longest text file that is read or made, in bytes. -/
def maximumFileBytes : ℕ := 1048576

/-- The longest binary file that is made, in bytes. -/
def maximumBinaryFileBytes : ℕ := 16 * 1048576

/-- The most entries that are listed of a directory. -/
def maximumDirectoryEntries : ℕ := 256

/-- The most bytes that their names have together. -/
def maximumDirectoryListingBytes : ℕ := 64 * 1024

/-- Why an operation fails. -/
inductive WorkspaceBoundaryError where
  | invalidRoot
  | invalidRelativePath
  | unavailable
  | unsafeLink
  | notFile
  | notDirectory
  | alreadyExists
  | contentTooLarge
  | directoryTooLarge
  deriving DecidableEq

/-- What an entry of a listing is. A link is listed, and not followed. -/
inductive WorkspaceEntryKind where
  | file
  | directory
  | blockedLink
  | other
  deriving DecidableEq

/-- An entry of a listing. -/
structure WorkspaceDirectoryEntry where
  name : String
  kind : WorkspaceEntryKind
  deriving DecidableEq

/-! ## The volume -/

/-- A name as the volume keeps it. Windows has names that are no text. -/
inductive FileName where
  | text (name : List Char)
  | units (name : List UInt16)
  deriving DecidableEq

/-- The way from the root to an entry, by names as they are compared. -/
abbrev FilePath := List FileName

/-- What the names of a path lead to, where `none` is outside of the workspace. -/
inductive Node where
  | file (id : ℕ)
  | directory
  | link (target : Option FilePath)
  /-- Neither a file, nor a directory, nor a link. -/
  | other
  deriving DecidableEq

/-- `is_filesystem_link`, `is_file`, and `is_dir` of what `symlink_metadata` answers. -/
def Node.kind : Node → WorkspaceEntryKind
  | .file _ => .file
  | .directory => .directory
  | .link _ => .blockedLink
  | .other => .other

/-- The data of a file, whatever its names are. -/
structure FileData where
  content : Bytes
  /-- How many names it had when it was made or first seen. The broker makes no second name for a
  file, and removes names only of files that have one. -/
  linkCount : ℕ
  /-- Whether the content has been brought to the disk. -/
  synced : Bool
  /-- The operation that has made the file, if it was one of the broker. -/
  creator : Option ℕ

/-- A name in a directory, with what it leads to. -/
structure Entry where
  path : FilePath
  /-- The last name of the path, as it was given. -/
  name : FileName
  node : Node
  deriving DecidableEq

/-- The files of the machine, with the counter for temporary names. -/
structure Volume where
  entries : List Entry
  files : ℕ → FileData
  /-- The first number that no file has. -/
  nextFile : ℕ
  /-- `TEMPORARY_FILE_SEQUENCE`. -/
  temporaryFileSequence : ℕ

/-- A directory that is being read (`ReadDir`). -/
structure ReadDir where
  path : FilePath
  /-- The names that it had at one of the calls so far. -/
  found : List FileName
  /-- The entries that it had at all of the calls so far. -/
  stayed : List Entry
  /-- The names that were given, the last one first. -/
  given : List FileName

/-- How the volume compares names, and the process. -/
structure Host where
  fold : List Char → List Char
  pid : ℕ

namespace Host

variable (host : Host)

/-- A name as it is compared. -/
def key : FileName → FileName
  | .text name => .text (host.fold name)
  | .units name => .units name

/-- A path as its names are compared. -/
def path (names : List (List Char)) : FilePath := names.map fun name => host.key (.text name)

end Host

namespace Volume

/-- What is under the path. The root itself is a directory. -/
def node (volume : Volume) (path : FilePath) : Option Node :=
  if path = [] then some .directory
  else (volume.entries.find? (·.path = path)).map Entry.node

/-- The entries of a directory. -/
def children (volume : Volume) (path : FilePath) : List Entry :=
  volume.entries.filter fun entry => entry.path ≠ [] ∧ entry.path.dropLast = path

/-- Remove what is under the path. -/
def erase (volume : Volume) (path : FilePath) : Volume :=
  { volume with entries := volume.entries.filter (·.path ≠ path) }

/-- Put something under the path, in place of what was there. -/
def put (volume : Volume) (path : FilePath) (name : FileName) (node : Node) : Volume :=
  { volume with entries := volume.entries.filter (·.path ≠ path) ++ [⟨path, name, node⟩] }

/-- The volume with other data of a file. -/
def setFile (volume : Volume) (id : ℕ) (data : FileData) : Volume :=
  { volume with files := Function.update volume.files id data }

/-- The path that is reached from `here`, where links are followed and `none` is outside. -/
def follow (volume : Volume) : FilePath → FilePath → Option (Option FilePath)
  | here, [] => some (some here)
  | here, name :: rest =>
    -- Nothing under a name ends the way, and so does a link to the outside.
    match volume.node (here ++ [name]) with
    | none => none
    | some (.link none) => some none
    | some (.link (some target)) => volume.follow target rest
    | some _ => volume.follow (here ++ [name]) rest

/-- `canonicalize`. -/
def canonicalize (volume : Volume) (path : FilePath) : Option (Option FilePath) :=
  volume.follow [] path

/-- What is opened under the path. A directory capability follows links, but not to the outside. -/
def opened (volume : Volume) (path : FilePath) : Option Node := do
  let target ← (volume.canonicalize path).join
  volume.node target

/-- The directory that is opened under the path. -/
def readDir (volume : Volume) (path : FilePath) : Option ReadDir := do
  let target ← (volume.canonicalize path).join
  if volume.node target = some .directory then
    some
      { path := target
        found := (volume.children target).map Entry.name
        stayed := volume.children target
        given := [] }
  else none

/-- The next name of a directory that is being read, or that it ends. The name of an entry that was
there at every call is given once, before the end. One that was added, removed or replaced meanwhile
may be given or not, and the order is any: `pick` says which of the names that may be given is. -/
def nextEntry (volume : Volume) (pick : Option ℕ) (dir : ReadDir) : Option FileName × ReadDir :=
  let entries := volume.children dir.path
  let stayed := dir.stayed.filter (· ∈ entries)
  let found := dir.found ++ entries.map Entry.name
  let candidates := found.filter fun name => name ∉ stayed.map Entry.name ∨ name ∉ dir.given
  let picked := pick.bind fun n => candidates[n]?
  let next := picked.or ((stayed.map Entry.name).find? (· ∉ dir.given))
  (next, { dir with found, stayed, given := next.toList ++ dir.given })

/-- Make an empty file under a free name in a directory. -/
def createNew (volume : Volume) (task : ℕ) (path : FilePath) (name : FileName) :
    Except WorkspaceBoundaryError (ℕ × Volume) :=
  -- `create_new` refuses a name that is taken, also by a link.
  if (volume.node path).isSome then .error .alreadyExists
  else if volume.node path.dropLast ≠ some .directory then .error .unavailable
  else
    let data : FileData := { content := [], linkCount := 1, synced := false, creator := some task }
    .ok (volume.nextFile,
      { (volume.put path name (.file volume.nextFile)).setFile volume.nextFile data with
        nextFile := volume.nextFile + 1 })

/-- Remove a name (`remove_file`). It does not remove a directory. -/
def remove (volume : Volume) (path : FilePath) : Except WorkspaceBoundaryError (Unit × Volume) :=
  match volume.node path with
  | none => .error .unavailable
  | some .directory => .error .unavailable
  | some _ => .ok ((), volume.erase path)

/-- Rename, in place of what is under the new name. -/
def rename (volume : Volume) (source target : FilePath) (name : FileName) :
    Except WorkspaceBoundaryError (Unit × Volume) :=
  match volume.node source, volume.node target with
  | none, _ => .error .unavailable
  | some _, some .directory => .error .unavailable
  | some node, _ => .ok ((), (volume.erase source).put target name node)

/-- Write the content of an open file. -/
def write (volume : Volume) (id : ℕ) (content : Bytes) : Volume :=
  volume.setFile id { volume.files id with content }

/-- Bring the content of an open file to the disk. -/
def sync (volume : Volume) (id : ℕ) : Volume :=
  volume.setFile id { volume.files id with synced := true }

end Volume

/-! ## The calls -/

/-- The routines of this module. -/
abbrev FileRoutine := Routine Volume WorkspaceBoundaryError

/-- What the volume says, or that the call fails. -/
def call {α : Type} (f : Volume → α) : FileRoutine α := .ask .unavailable f

/-- What is found, or that there is nothing or the call fails. -/
def find {α : Type} (f : Volume → Option α) : FileRoutine α := do
  let found ← call f
  Routine.ofOption .unavailable found

/-- Hand a content to the system, in pieces that end after so many bytes. A call that fails has
written a start of its piece. -/
def writeAll (id : ℕ) (contents : Bytes) : List ℕ → FileRoutine Unit
  | [] => .invoke .unavailable (fun volume => .ok ((), volume.write id contents))
      fun n volume => volume.write id (contents.take n)
  | piece :: pieces => do
    Routine.invoke .unavailable (fun volume => .ok ((), volume.write id (contents.take piece)))
      fun n volume => volume.write id ((contents.take piece).take n)
    writeAll id contents pieces

/-- Bring the content of a file to the disk (`sync_all`). -/
def syncAll (id : ℕ) : FileRoutine Unit :=
  .invoke .unavailable (fun volume => .ok ((), volume.sync id)) fun _ volume => volume

/-- Remove a name. Where the call fails, it may still be there. -/
def removeFile (path : FilePath) : FileRoutine Unit :=
  .invoke .unavailable (·.remove path) fun _ volume => volume

/-! ## The boundary -/

/-- The names of a relative path, and the canonical path that they lead to. The path `.` has none.
-/
structure WorkspaceTarget where
  relative : List (List Char)
  resolved : FilePath

/-- `workspace_relative_path`, by the names of the result. -/
def relativeNames (path : String) : Option (List (List Char)) :=
  if path.isEmpty || maximumRelativePathBytes < path.utf8ByteSize then none
  else
    match relativeSegments (components path.toList) 0 [] with
    | none => none
    | some relative => if relative.isEmpty then none else some relative

section Boundary

variable (host : Host)

/-- The loop of `walk_existing` over the names. -/
def walkNames : FilePath → List (List Char) → FileRoutine FilePath
  | current, [] => pure current
  | current, segment :: rest => do
    let current := current ++ [host.key (.text segment)]
    let kind ← find fun volume => (volume.node current).map Node.kind
    -- Another kind is passed over: what is no directory fails at the next name.
    if kind = .blockedLink then Routine.throw .unsafeLink
    else walkNames current rest

/-- The path to what is there, if there is no link on the way and it leads where it says
(`walk_existing`). -/
def walkExisting (relative : List (List Char)) : FileRoutine FilePath := do
  let current ← walkNames host [] relative
  let canonical ← find (·.canonicalize current)
  -- A canonical path that does not start with the root is an unsafe link.
  Routine.ofOption .unsafeLink canonical

/-- The target of a path to something that is there (`existing_target`). -/
def existingTarget (path : String) : FileRoutine WorkspaceTarget := do
  let relative ← Routine.ofOption .invalidRelativePath (relativeNames path)
  let resolved ← walkExisting host relative
  pure { relative, resolved }

/-- The target of a path to a file (`existing_file`). -/
def existingFile (path : String) : FileRoutine WorkspaceTarget := do
  let target ← existingTarget host path
  let kind ← find fun volume => (volume.node target.resolved).map Node.kind
  if kind = .file then pure target else Routine.throw .notFile

/-- The target of a path to a directory (`existing_directory`). -/
def existingDirectory (path : String) : FileRoutine WorkspaceTarget := do
  let target ← existingTarget host path
  let kind ← find fun volume => (volume.node target.resolved).map Node.kind
  if kind = .directory then pure target else Routine.throw .notDirectory

/-- The directory that is listed, which may be the root (`listing_directory`). -/
def listingDirectory (path : String) : FileRoutine WorkspaceTarget :=
  if isCurrentDirectory path then pure { relative := [], resolved := [] }
  else existingDirectory host path

/-- The target of a path to a file that is to be made (`new_file`). -/
def newFile (path : String) : FileRoutine WorkspaceTarget := do
  let relative ← Routine.ofOption .invalidRelativePath (relativeNames path)
  let resolvedParent ← walkExisting host relative.dropLast
  let kind ← find fun volume => (volume.node resolvedParent).map Node.kind
  Routine.refuse .notDirectory (kind ≠ .directory)
  let fileName ← Routine.ofOption .invalidRelativePath relative.getLast?
  let resolved := resolvedParent ++ [host.key (.text fileName)]
  let present ← call fun volume => (volume.node resolved).map Node.kind
  -- Of the answers, that nothing was found is the one to go on with.
  match present with
  | some .blockedLink => Routine.throw .unsafeLink
  | some _ => Routine.throw .alreadyExists
  | none => pure { relative, resolved }

end Boundary

/-! ## The operations -/

section Operations

variable (host : Host)

/-- The content of a file (`read_file`). The length is looked at before the read and after it. -/
def readFile (path : String) : FileRoutine Bytes := do
  let target ← existingFile host path
  let node ← find (·.opened (host.path target.relative))
  match node with
  | .file id => do
    let metadata ← call (·.files id)
    Routine.refuse .unsafeLink (1 < metadata.linkCount)
    Routine.refuse .contentTooLarge (maximumFileBytes < metadata.content.length)
    -- Of a file that grows meanwhile, what is read is what it has when its end is read.
    let contents ← call fun volume => (volume.files id).content.take (maximumFileBytes + 1)
    Routine.refuse .contentTooLarge (maximumFileBytes < contents.length)
    pure contents
  | _ => do
    -- Its metadata are read before they say that it is no file.
    let _ ← call fun _ => ()
    Routine.throw .notFile

/-- The loop of `list_directory`, from how many entries the limit leaves. -/
def listEntries (resolved : FilePath) :
    ℕ → List ℕ → ReadDir → List WorkspaceDirectoryEntry → ℕ →
      FileRoutine (List WorkspaceDirectoryEntry)
  | 0, picks, dir, entries, _ => do
    -- One more entry is too many, also one that cannot be read.
    let read ← Routine.ask .directoryTooLarge (·.nextEntry picks.head? dir)
    match read.1 with
    | none => pure entries
    | some _ => Routine.throw .directoryTooLarge
  | room + 1, picks, dir, entries, listingBytes => do
    let read ← call (·.nextEntry picks.head? dir)
    match read.1 with
    | none => pure entries
    | some (.units _) => Routine.throw .invalidRelativePath
    | some (.text chars) => do
      let name := String.ofList chars
      let listingBytes := listingBytes + name.utf8ByteSize
      Routine.refuse .directoryTooLarge (maximumDirectoryListingBytes < listingBytes)
      let kind ← find fun volume =>
        (volume.node (resolved ++ [host.key (.text chars)])).map Node.kind
      listEntries resolved room picks.tail read.2 (entries ++ [{ name, kind }]) listingBytes

/-- List a directory. `picks` is the order in which the system gives the entries
(`Volume.nextEntry`). -/
def listDirectory (path : String) (picks : List ℕ) : FileRoutine
    (List WorkspaceDirectoryEntry) := do
  let target ← listingDirectory host path
  let dir ← find (·.readDir (host.path target.relative))
  let entries ← listEntries host target.resolved maximumDirectoryEntries picks dir [] 0
  pure (entries.insertionSort fun left right => left.name ≤ right.name)

/-- Make a file, write it, and bring it to the disk. If it cannot be written, it is removed. -/
def createWithin (maximum : ℕ) (task : ℕ) (path : String) (contents : Bytes) (pieces : List ℕ) :
    FileRoutine Unit := do
  Routine.refuse .contentTooLarge (maximum < contents.length)
  let target ← newFile host path
  let key := host.path target.relative
  let file ← Routine.invoke .unavailable
    (·.createNew task key (.text (target.relative.getLast?.getD []))) fun _ volume => volume
  -- What the removal answers is dropped.
  Routine.onError (removeFile key) do
    writeAll file contents pieces
    syncAll file

/-- Make a text file (`create_file`). -/
def createFile (task : ℕ) (path : String) (contents : Bytes) (pieces : List ℕ) : FileRoutine Unit :=
  createWithin host maximumFileBytes task path contents pieces

/-- Make a binary file (`create_binary_file`). -/
def createBinaryFile (task : ℕ) (path : String) (contents : Bytes) (pieces : List ℕ) :
    FileRoutine Unit :=
  createWithin host maximumBinaryFileBytes task path contents pieces

/-- The name of `temporary_sibling`. -/
def temporaryName (fileName : List Char) (sequence : ℕ) : List Char :=
  '.' :: fileName ++ s!".mio-{host.pid}-{sequence}.tmp".toList

/-- A name beside the target that no other operation has (`temporary_sibling`). -/
def temporarySibling (relative : List (List Char)) : FileRoutine (List (List Char)) := do
  let fileName ← Routine.ofOption .invalidRelativePath relative.getLast?
  -- `fetch_add` of a `u64` wraps around.
  let sequence ← Routine.atomically fun volume : Volume =>
    (volume.temporaryFileSequence,
      { volume with temporaryFileSequence := (volume.temporaryFileSequence + 1) % 2 ^ 64 })
  pure (relative.dropLast ++ [temporaryName host fileName sequence])

/-- Write the content to a temporary file beside the file, and rename it. -/
def replaceFile (task : ℕ) (path : String) (contents : Bytes) (pieces : List ℕ) :
    FileRoutine Unit := do
  Routine.refuse .contentTooLarge (maximumFileBytes < contents.length)
  let target ← existingFile host path
  let key := host.path target.relative
  let node ← find (·.opened key)
  match node with
  | .file id => do
    let metadata ← call (·.files id)
    Routine.refuse .unsafeLink (1 < metadata.linkCount)
    let temporary ← temporarySibling host target.relative
    let temporaryKey := host.path temporary
    -- A temporary name that is taken is a failure as any other.
    let file ← Routine.invoke .unavailable
      (fun volume =>
        (volume.createNew task temporaryKey (.text (temporary.getLast?.getD []))).mapError
        fun _ => .unavailable) fun _ volume => volume
    Routine.onError (removeFile temporaryKey) do
      writeAll file contents pieces
      syncAll file
    Routine.onError (removeFile temporaryKey)
      (Routine.invoke .unavailable
        (·.rename temporaryKey key (.text (target.relative.getLast?.getD []))) fun _ volume =>
          volume)
  | _ => do
    let _ ← call fun _ => ()
    Routine.throw .notFile

end Operations

/-- An operation of the broker. A content is handed to the system in pieces, and the system gives
the entries of a directory in an order of its own. -/
inductive Operation where
  | readFile (path : String)
  | listDirectory (path : String) (picks : List ℕ)
  | createFile (path : String) (contents : Bytes) (pieces : List ℕ)
  | createBinaryFile (path : String) (contents : Bytes) (pieces : List ℕ)
  | replaceFile (path : String) (contents : Bytes) (pieces : List ℕ)

/-- What an operation returns. -/
inductive Answer where
  | contents (contents : Bytes)
  | entries (entries : List WorkspaceDirectoryEntry)
  | done
  deriving DecidableEq

/-- The operation as the routine `task`. -/
def Operation.routine (host : Host) (task : ℕ) : Operation → FileRoutine Answer
  | .readFile path => .contents <$> WorkspaceFiles.readFile host path
  | .listDirectory path picks => .entries <$> WorkspaceFiles.listDirectory host path picks
  | .createFile path contents pieces => do
    WorkspaceFiles.createFile host task path contents pieces
    pure .done
  | .createBinaryFile path contents pieces => do
    WorkspaceFiles.createBinaryFile host task path contents pieces
    pure .done
  | .replaceFile path contents pieces => do
    WorkspaceFiles.replaceFile host task path contents pieces
    pure .done

end Mio.Broker.WorkspaceFiles
