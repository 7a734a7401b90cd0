import Mathlib.Data.List.Basic
import Mathlib.Logic.Function.Basic
import Mio.Library.Faults
import Mio.Library.Text

/-!
# A file and its siblings

A program that keeps its state in one file replaces the file as a whole: it writes a temporary
sibling, keeps the old content as a backup, and renames. `Directory` is what the directory holds
under the names such a program uses, `World` adds what names its temporary files, and the file
operations are steps of `Prog`. A rename and a removal are taken as a whole or not at all. A write
that is cut off leaves a prefix of what was to be written.

A reader takes the primary if there is one, and the backup if there is none, which is `current`.
-/

namespace Mio.Library

/-- What a name in a directory stands for. -/
inductive Node where
  /-- A regular file with its content. -/
  | file (body : Bytes)
  /-- Anything else: a directory, a device. -/
  | other
  deriving DecidableEq

/-- The names beside a file that a program uses. -/
inductive Sibling where
  /-- The file itself. -/
  | primary
  /-- Its backup. -/
  | backup
  /-- A temporary file, by the process and its sequence number. -/
  | temp (pid sequence : ℕ)
  /-- A copy set aside because it could not be read, named in the same way. -/
  | corrupt (pid sequence : ℕ)
  deriving DecidableEq

/-- What the directory holds under each name. -/
abbrev Directory := Sibling → Option Node

namespace Directory

/-- Whether there is anything under the name. -/
def has (dir : Directory) (name : Sibling) : Bool := (dir name).isSome

/-- Whether there is a regular file under the name. -/
def isFile (dir : Directory) (name : Sibling) : Bool :=
  match dir name with
  | some (.file _) => true
  | _ => false

/-- The directory with `node` under `name`. -/
def put (dir : Directory) (name : Sibling) (node : Option Node) : Directory :=
  Function.update dir name node

/-- Remove a regular file. -/
def remove (dir : Directory) (name : Sibling) : Option Directory :=
  if dir.isFile name then some (dir.put name none) else none

/-- Rename, replacing what was under the new name. -/
def rename (dir : Directory) (source target : Sibling) : Option Directory :=
  (dir source).map fun node => (dir.put source none).put target (some node)

/-- Create an empty file under a free name. -/
def createNew (dir : Directory) (name : Sibling) : Option Directory :=
  if dir.has name then none else some (dir.put name (some (.file [])))

/-- What a reader finds: the primary if there is one, and otherwise the backup. -/
def current (dir : Directory) : Option Node := dir .primary <|> dir .backup

/-- What was put is there. -/
@[simp]
theorem put_self (dir : Directory) (name : Sibling) (node : Option Node) :
    dir.put name node name = node := Function.update_self ..

/-- What is there after a put. -/
theorem put_apply (dir : Directory) (name : Sibling) (node : Option Node) (other : Sibling) :
    dir.put name node other = if other = name then node else dir other := by
  rw [put, Function.update_apply]

/-- A put leaves the other names. -/
theorem put_of_ne (dir : Directory) {name other : Sibling} (h : other ≠ name)
    (node : Option Node) : dir.put name node other = dir other := Function.update_of_ne h ..

/-- A name is of a file when a file is there. -/
theorem isFile_iff {dir : Directory} {name : Sibling} :
    dir.isFile name = true ↔ ∃ body, dir name = some (.file body) := by
  unfold isFile
  split <;> simp_all

/-- A name is free when nothing is there. -/
theorem has_eq_false {dir : Directory} {name : Sibling} :
    dir.has name = false ↔ dir name = none := by
  simp [Directory.has]

/-- With a primary, that is what a reader finds. -/
theorem current_of_primary {dir : Directory} {node : Node} (h : dir .primary = some node) :
    dir.current = some node := by
  simp [current, h]

/-- Without a primary, a reader finds the backup. -/
theorem current_of_no_primary {dir : Directory} (h : dir .primary = none) :
    dir.current = dir .backup := by
  simp [current, h]

/-- What a reader finds depends on the primary and the backup only. -/
theorem current_congr {dir dir' : Directory} (hp : dir' .primary = dir .primary)
    (hb : dir' .backup = dir .backup) : dir'.current = dir.current := by
  simp [current, hp, hb]

end Directory

/-- The primary and the backup are regular files, where they are there. -/
@[mk_iff]
structure Directory.Regular (dir : Directory) : Prop where
  primary : dir .primary = none ∨ ∃ body, dir .primary = some (.file body)
  backup : dir .backup = none ∨ ∃ body, dir .backup = some (.file body)

/-- The directory, and what names the temporary files of the running process. -/
structure World where
  /-- What the directory holds. -/
  dir : Directory
  /-- The process. -/
  pid : ℕ
  /-- The next sequence number of its temporary files. -/
  sequence : ℕ

/-- An empty directory, seen by the process `pid`. -/
def World.empty (pid : ℕ) : World := ⟨fun _ => none, pid, 1⟩

/-- The same directory, seen by a new process. -/
def World.restart (world : World) (pid : ℕ) : World := { world with pid, sequence := 1 }

/-- A restart leaves the files. -/
@[simp]
theorem World.restart_dir (world : World) (pid : ℕ) : (world.restart pid).dir = world.dir := rfl

/-- The same primary, the same backup, and the same copies set aside. -/
structure World.SameFiles (before after : World) : Prop where
  primary : after.dir .primary = before.dir .primary
  backup : after.dir .backup = before.dir .backup
  corrupt : ∀ pid sequence,
    after.dir (.corrupt pid sequence) = before.dir (.corrupt pid sequence)

namespace World.SameFiles

variable {first before after : World}

/-- A world has its own files. -/
theorem refl (w : World) : SameFiles w w := ⟨rfl, rfl, fun _ _ => rfl⟩

/-- Having the same files is transitive. -/
theorem trans (h : SameFiles first before) (h' : SameFiles before after) :
    SameFiles first after :=
  ⟨h'.primary.trans h.primary, h'.backup.trans h.backup,
    fun pid sequence => (h'.corrupt pid sequence).trans (h.corrupt pid sequence)⟩

/-- A temporary file is none of them. -/
theorem temp (w : World) (pid sequence : ℕ) (node : Option Node) :
    SameFiles w { w with dir := w.dir.put (.temp pid sequence) node } := by
  refine ⟨?_, ?_, fun _ _ => ?_⟩
  all_goals simp [Directory.put_apply]

/-- The same files are regular, too. -/
theorem regular (h : SameFiles before after) (hbefore : before.dir.Regular) :
    after.dir.Regular := by
  have hp := hbefore.primary
  have hb := hbefore.backup
  rw [← h.primary] at hp
  rw [← h.backup] at hb
  exact ⟨hp, hb⟩

/-- In the same files a reader finds the same. -/
theorem current (h : SameFiles before after) : after.dir.current = before.dir.current :=
  Directory.current_congr h.primary h.backup

end World.SameFiles

/-! ## The file operations as steps -/

section Steps

variable {ε : Type} (e : ε)

/-- Whether there is anything under the name. -/
def pathExists (name : Sibling) : Prog World ε Bool := .gets fun w => w.dir.has name

/-- Whether there is a regular file under the name. -/
def pathIsFile (name : Sibling) : Prog World ε Bool := .gets fun w => w.dir.isFile name

/-- A step on the directory that is taken as a whole or not at all. -/
def dirStep (act : Directory → Option Directory) : Prog World ε Unit :=
  .tryStep e (fun w => (act w.dir).map fun dir => { w with dir }) fun _ w => w

/-- A step that leaves the directory's names as they are: to make the parent directory, to open a
file for reading, to bring a file's content to the disk. -/
def quietStep : Prog World ε Unit := dirStep e some

/-- Create an empty file under a free name. -/
def createNew (name : Sibling) : Prog World ε Unit := dirStep e (·.createNew name)

/-- Remove a regular file. -/
def removeFile (name : Sibling) : Prog World ε Unit := dirStep e (·.remove name)

/-- Rename, replacing what was under the new name. -/
def renameFile (source target : Sibling) : Prog World ε Unit := dirStep e (·.rename source target)

/-- Write a whole file. A write that fails or is cut off leaves a prefix. -/
def writeAll (name : Sibling) (body : Bytes) : Prog World ε Unit :=
  .tryStep e (fun w => some { w with dir := w.dir.put name (some (.file body)) })
    fun n w => { w with dir := w.dir.put name (some (.file (body.take n))) }

/-- The content of a regular file, once it is open. -/
def readToEnd (name : Sibling) : Prog World ε Bytes := do
  quietStep e
  let node ← Prog.gets fun w => w.dir name
  match node with
  | some (.file body) => pure body
  | _ => Prog.throw e

/-- The next sequence number, which no later call gets again. -/
def fetchAdd : Prog World ε ℕ :=
  .read fun w => .update (fun w => { w with sequence := w.sequence + 1 }) (.ret w.sequence)

variable {e} {error : ε → World → Prop} {cut : World → Prop}

/-- The look sees whether something is there. -/
@[simp]
theorem wp_pathExists (name : Sibling) (done : Bool → World → Prop) (w : World) :
    (pathExists name).wp done error cut w ↔ done (w.dir.has name) w := Iff.rfl

/-- The look sees whether a file is there. -/
@[simp]
theorem wp_pathIsFile (name : Sibling) (done : Bool → World → Prop) (w : World) :
    (pathIsFile name).wp done error cut w ↔ done (w.dir.isFile name) w := Iff.rfl

/-- A step on the directory is taken, or leaves it as it was. -/
theorem wp_dirStep (act : Directory → Option Directory) (done : Unit → World → Prop) (w : World) :
    (dirStep e act).wp done error cut w ↔
      (∀ dir, act w.dir = some dir → done () { w with dir }) ∧ error e w ∧ cut w := by
  simp only [dirStep, Prog.wp_tryStep, Option.map_eq_some_iff, Option.map_eq_none_iff]
  constructor
  · rintro ⟨h1, -, h3⟩
    exact ⟨fun dir h => h1 _ ⟨dir, h, rfl⟩, h3 0⟩
  · rintro ⟨h1, h2, h3⟩
    refine ⟨?_, fun _ => h2, fun _ => ⟨h2, h3⟩⟩
    rintro _ ⟨dir, h, rfl⟩
    exact h1 dir h

/-- A step without an effect may fail or be cut. -/
@[simp]
theorem wp_quietStep (done : Unit → World → Prop) (w : World) :
    (quietStep e).wp done error cut w ↔ done () w ∧ error e w ∧ cut w := by
  simp [quietStep, wp_dirStep]

/-- A new file is empty. -/
@[simp]
theorem wp_createNew (name : Sibling) (done : Unit → World → Prop) (w : World) :
    (createNew e name).wp done error cut w ↔
      (w.dir.has name = false → done () { w with dir := w.dir.put name (some (.file [])) }) ∧
        error e w ∧ cut w := by
  simp [createNew, wp_dirStep, Directory.createNew]

/-- A regular file is removed, or stays. -/
@[simp]
theorem wp_removeFile (name : Sibling) (done : Unit → World → Prop) (w : World) :
    (removeFile e name).wp done error cut w ↔
      (w.dir.isFile name = true → done () { w with dir := w.dir.put name none }) ∧
        error e w ∧ cut w := by
  simp [removeFile, wp_dirStep, Directory.remove]

/-- What is under the source is renamed, or stays. -/
@[simp]
theorem wp_renameFile (source target : Sibling) (done : Unit → World → Prop) (w : World) :
    (renameFile e source target).wp done error cut w ↔
      (∀ node, w.dir source = some node →
        done () { w with dir := (w.dir.put source none).put target (some node) }) ∧
        error e w ∧ cut w := by
  simp only [renameFile, wp_dirStep, Directory.rename, Option.map_eq_some_iff]
  constructor
  · rintro ⟨h1, h2⟩
    exact ⟨fun node h => h1 _ ⟨node, h, rfl⟩, h2⟩
  · rintro ⟨h1, h2⟩
    refine ⟨?_, h2⟩
    rintro _ ⟨node, h, rfl⟩
    exact h1 node h

/-- A file is written whole, or a prefix of it is. -/
@[simp]
theorem wp_writeAll (name : Sibling) (body : Bytes) (done : Unit → World → Prop) (w : World) :
    (writeAll e name body).wp done error cut w ↔
      done () { w with dir := w.dir.put name (some (.file body)) } ∧
        ∀ n, error e { w with dir := w.dir.put name (some (.file (body.take n))) } ∧
          cut { w with dir := w.dir.put name (some (.file (body.take n))) } := by
  simp [writeAll, Prog.wp_tryStep]

/-- A read gives the whole file, and may fail or be cut. -/
@[simp]
theorem wp_readToEnd (name : Sibling) (done : Bytes → World → Prop) (w : World) :
    (readToEnd e name).wp done error cut w ↔
      (∀ body, w.dir name = some (.file body) → done body w) ∧ error e w ∧ cut w := by
  simp only [readToEnd, Prog.wp_bind, wp_quietStep, Prog.wp_gets]
  constructor
  · rintro ⟨h1, h2⟩
    exact ⟨fun body h => by simpa [h] using h1, h2⟩
  · rintro ⟨h1, h2⟩
    refine ⟨?_, h2⟩
    split
    · exact h1 _ ‹_›
    · exact h2.1

/-- The counter goes up by one. -/
@[simp]
theorem wp_fetchAdd (done : ℕ → World → Prop) (w : World) :
    (fetchAdd : Prog World ε ℕ).wp done error cut w ↔
      done w.sequence { w with sequence := w.sequence + 1 } := Iff.rfl

/-- What follows knows the counter before. -/
theorem fetchAdd_bind {α : Type} (next : ℕ → Prog World ε α) :
    fetchAdd >>= next =
      .read fun w => .update (fun w => { w with sequence := w.sequence + 1 }) (next w.sequence) :=
  rfl

/-! ## Steps without a fault -/

section Calm

variable {error : ε → World → Prop}

/-- Undisturbed, a step fails only when it cannot be taken. -/
theorem wpCalm_dirStep (act : Directory → Option Directory) (done : Unit → World → Prop)
    (w : World) :
    (dirStep e act).wpCalm done error w ↔
      (act w.dir).elim (error e w) fun dir => done () { w with dir } := by
  rw [dirStep, Prog.wpCalm_tryStep]
  cases act w.dir <;> rfl

/-- Undisturbed, a step without an effect succeeds. -/
@[simp]
theorem wpCalm_quietStep (done : Unit → World → Prop) (w : World) :
    (quietStep e).wpCalm done error w ↔ done () w := wpCalm_dirStep some done w

/-- Undisturbed, a file is created unless the name is taken. -/
@[simp]
theorem wpCalm_createNew (name : Sibling) (done : Unit → World → Prop) (w : World) :
    (createNew e name).wpCalm done error w ↔
      if w.dir.has name then error e w
      else done () { w with dir := w.dir.put name (some (.file [])) } := by
  rw [createNew, wpCalm_dirStep, Directory.createNew]
  split <;> rfl

/-- Undisturbed, a file that is there is removed. -/
@[simp]
theorem wpCalm_removeFile (name : Sibling) (done : Unit → World → Prop) (w : World) :
    (removeFile e name).wpCalm done error w ↔
      if w.dir.isFile name then done () { w with dir := w.dir.put name none } else error e w := by
  rw [removeFile, wpCalm_dirStep, Directory.remove]
  split <;> rfl

/-- Undisturbed, what is there is renamed. -/
@[simp]
theorem wpCalm_renameFile (source target : Sibling) (done : Unit → World → Prop) (w : World) :
    (renameFile e source target).wpCalm done error w ↔
      (w.dir source).elim (error e w) fun node =>
        done () { w with dir := (w.dir.put source none).put target (some node) } := by
  rw [renameFile, wpCalm_dirStep, Directory.rename]
  cases w.dir source <;> rfl

/-- Undisturbed, the whole body is written. -/
@[simp]
theorem wpCalm_writeAll (name : Sibling) (body : Bytes) (done : Unit → World → Prop) (w : World) :
    (writeAll e name body).wpCalm done error w ↔
      done () { w with dir := w.dir.put name (some (.file body)) } := by
  rw [writeAll, Prog.wpCalm_tryStep]
  rfl

/-- Undisturbed, the look sees whether something is there. -/
@[simp]
theorem wpCalm_pathExists (name : Sibling) (done : Bool → World → Prop) (w : World) :
    (pathExists name : Prog World ε Bool).wpCalm done error w ↔ done (w.dir.has name) w := Iff.rfl

/-- Undisturbed, the look sees whether a file is there. -/
@[simp]
theorem wpCalm_pathIsFile (name : Sibling) (done : Bool → World → Prop) (w : World) :
    (pathIsFile name : Prog World ε Bool).wpCalm done error w ↔ done
    (w.dir.isFile name) w := Iff.rfl

/-- Undisturbed, the counter goes up by one. -/
@[simp]
theorem wpCalm_fetchAdd (done : ℕ → World → Prop) (w : World) :
    (fetchAdd : Prog World ε ℕ).wpCalm done error w ↔
      done w.sequence { w with sequence := w.sequence + 1 } := Iff.rfl

end Calm

end Steps

end Mio.Library
