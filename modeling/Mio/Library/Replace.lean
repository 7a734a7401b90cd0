import Mio.Library.Directory

/-!
# Replacing a file as a whole

The last steps of a persist: the content is in a temporary file, the primary becomes the backup, and
the temporary file the primary. Where there is no primary the backup stays, so the steps never
remove the only file that there is. Where they go wrong, the temporary file is removed and a reader
finds what it found before (`World.Kept`). Otherwise the file is replaced (`World.Replaced`).
-/

namespace Mio.Library

section Code

variable {ε : Type} (e : ε)

/-- Write the temporary file and bring it to the disk. -/
def writeTemp (temp : Sibling) (body : Bytes) : Prog World ε Unit := do
  writeAll e temp body
  quietStep e

/-- Make the primary the backup. -/
def keepPrimary : Prog World ε Unit := do
  if ← pathExists .primary then
    if ← pathExists .backup then
      removeFile e .backup
    renameFile e .primary .backup

/-- The last rename. When it fails, the backup is renamed back if it is all there is. -/
def renameTemp (temp : Sibling) : Prog World ε Unit := do
  match ← (renameFile e temp .primary).attempt with
  | .ok () => pure ()
  | .error _ =>
    if !(← pathExists .primary) && (← pathIsFile .backup) then
      let _ ← (renameFile e .backup .primary).attempt
    Prog.throw e

/-- Put the temporary file in the place of the primary, and the primary in that of the backup. -/
def replacePrimary (temp : Sibling) : Prog World ε Unit := do
  keepPrimary e
  renameTemp e temp

end Code

/-- What a reader finds is as before, and so is every copy that was set aside. The backup is gone,
as before, or what was the primary. -/
@[mk_iff]
structure World.Kept (before after : World) : Prop where
  regular : before.dir.Regular → after.dir.Regular
  current : after.dir.current = before.dir.current
  backup : after.dir .backup = none ∨ after.dir .backup = before.dir .backup ∨
    after.dir .backup = before.dir .primary
  corrupt : ∀ pid sequence,
    after.dir (.corrupt pid sequence) = before.dir (.corrupt pid sequence)

/-- The primary is the new content, and the backup what a reader found before. -/
@[mk_iff]
structure World.Replaced (body : Bytes) (before after : World) : Prop where
  primary : after.dir .primary = some (.file body)
  backup : after.dir .backup = before.dir.current
  corrupt : ∀ pid sequence,
    after.dir (.corrupt pid sequence) = before.dir (.corrupt pid sequence)

section Specs

variable {first before after : World}

/-- A world keeps itself. -/
theorem World.Kept.refl (w : World) : World.Kept w w := ⟨id, rfl, .inr (.inl rfl), fun _ _ => rfl⟩

/-- What has the same files as a kept world is kept. -/
theorem World.Kept.sameFiles (h : World.Kept first before) (hsame : World.SameFiles before after) :
    World.Kept first after := by
  refine ⟨fun hfirst => hsame.regular (h.regular hfirst), hsame.current.trans h.current, ?_,
    fun pid sequence => ?_⟩
  · rw [hsame.backup]
    exact h.backup
  · rw [hsame.corrupt]
    exact h.corrupt pid sequence

/-- A world with the same files before may stand for it. -/
theorem World.Kept.of_sameFiles (hsame : World.SameFiles first before)
    (h : World.Kept before after) :
    World.Kept first after := by
  refine ⟨fun hfirst => h.regular (hsame.regular hfirst), h.current.trans hsame.current, ?_,
    fun pid sequence => ?_⟩
  · rw [← hsame.backup, ← hsame.primary]
    exact h.backup
  · rw [h.corrupt, hsame.corrupt]

/-- A world with the same files before may stand for it. -/
theorem World.Replaced.of_sameFiles {body : Bytes} (hsame : World.SameFiles first before)
    (h : World.Replaced body before after) : World.Replaced body first after :=
  ⟨h.primary, h.backup.trans hsame.current,
    fun pid sequence => (h.corrupt pid sequence).trans (hsame.corrupt pid sequence)⟩

/-- A replacement leaves the files regular. -/
theorem World.Replaced.regular {body : Bytes} (h : World.Replaced body before after)
    (hregular : before.dir.Regular) : after.dir.Regular := by
  refine ⟨.inr ⟨body, h.primary⟩, ?_⟩
  rw [h.backup]
  rcases hregular.primary with hp | ⟨primary, hp⟩
  · rw [Directory.current_of_no_primary hp]
    exact hregular.backup
  · exact .inr ⟨primary, Directory.current_of_primary hp⟩

/-- What passes the checks of a persist on the two files. -/
theorem regular_of_checks {dir : Directory}
    (h : (dir.has .primary && !dir.isFile .primary || dir.has .backup && !dir.isFile .backup) =
      false) : dir.Regular := by
  have hcheck : ∀ path, (dir.has path && !dir.isFile path) = false →
      dir path = none ∨ ∃ body, dir path = some (.file body) := by
    intro path hpath
    rw [Bool.and_eq_false_iff, Directory.has_eq_false, Bool.not_eq_false',
      Directory.isFile_iff] at hpath
    exact hpath
  rw [Bool.or_eq_false_iff] at h
  exact ⟨hcheck _ h.1, hcheck _ h.2⟩

variable {ε : Type} {e : ε} {done : Unit → World → Prop} {error : ε → World → Prop}
  {cut : World → Prop} {w : World}

/-- The write of a temporary file leaves the others. -/
theorem writeTemp_wp {pid sequence : ℕ} {body : Bytes}
    (hdone : ∀ w', World.SameFiles w w' → w'.dir (.temp pid sequence) = some (.file body) →
      done () w')
    (hrest : ∀ w', World.SameFiles w w' → error e w' ∧ cut w') :
    (writeTemp e (.temp pid sequence) body).wp done error cut w := by
  simp only [writeTemp, Prog.wp_bind, wp_writeAll, wp_quietStep]
  refine ⟨⟨?_, hrest _ (.temp w pid sequence _)⟩, fun n => hrest _ (.temp w pid sequence _)⟩
  exact hdone _ (.temp w pid sequence _) (Directory.put_self _ _ _)

/-- So does the removal of one, whether it succeeds or not. -/
theorem removeTemp_wp {pid sequence : ℕ}
    (h : ∀ w', World.SameFiles w w' → done () w' ∧ error e w' ∧ cut w') :
    (removeFile e (.temp pid sequence)).wp done error cut w := by
  rw [wp_removeFile]
  exact ⟨fun _ => (h _ (.temp w pid sequence none)).1, (h w (.refl w)).2⟩

/-- The renames replace the primary, or they keep what a reader finds. -/
theorem replacePrimary_wp {pid sequence : ℕ} {body : Bytes} (hw : w.dir.Regular)
    (htemp : w.dir (.temp pid sequence) = some (.file body)) :
    (replacePrimary e (.temp pid sequence)).wp (fun _ => World.Replaced body w)
      (fun _ => World.Kept w) (World.Kept w) w := by
  rcases hw.primary with hp | ⟨primary, hp⟩ <;> rcases hw.backup with hb | ⟨backup, hb⟩
  all_goals
    simp [replacePrimary, keepPrimary, renameTemp, Directory.has, Directory.isFile,
      Directory.put_apply, Directory.current, World.kept_iff, World.replaced_iff,
      Directory.regular_iff, hp, hb, htemp]

end Specs

end Mio.Library
