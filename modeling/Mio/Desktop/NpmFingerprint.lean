import Mio.Core.StableIdentifiers
import Mio.Desktop.NpmRuntime

/-!
# What the fingerprint of the npm runtime tells

The traversal gathers the files of a tree, in some order (`visitDirectories_spec`). They are sorted
by their paths, and what is hashed of them can be read back (`itemBytes_inj`). So two trees have one
fingerprint if and only if they have the same files and the same number of directories
(`fingerprint_faithful`).
-/

namespace Mio.Desktop.NpmRuntime

open Library Mio.Core.Conductor

/-! ## Trees -/

mutual

/-- The files of a tree, by their paths. -/
def Node.files : Node → List (FilePath × Bytes)
  | .file content _ => [([], content)]
  | .directory entries => filesOf entries
  | _ => []

/-- The files below the entries, by their paths. -/
def filesOf : List (FileName × Node) → List (FilePath × Bytes)
  | [] => []
  | (name, node) :: entries =>
    node.files.map (fun file => (name :: file.1, file.2)) ++ filesOf entries

end

mutual

/-- The number of directories of a tree. -/
def Node.directories : Node → ℕ
  | .directory entries => directoriesOf entries + 1
  | _ => 0

/-- The number of directories below the entries. -/
def directoriesOf : List (FileName × Node) → ℕ
  | [] => 0
  | (_, node) :: entries => node.directories + directoriesOf entries

end

/-- A name without a separator. -/
def FileName.WindowsName : FileName → Prop
  | .text name => '/' ∉ name.toList ∧ '\\' ∉ name.toList
  | .units _ => True

mutual

/-- The names of a directory differ, and have no separator in them. -/
def Node.WellFormed : Node → Prop
  | .directory entries => (entries.map Prod.fst).Nodup ∧ WellFormedEntries entries
  | _ => True

/-- The entries have names that Windows allows, at every depth. -/
def WellFormedEntries : List (FileName × Node) → Prop
  | [] => True
  | (name, node) :: entries => name.WindowsName ∧ node.WellFormed ∧ WellFormedEntries entries

end

/-- The path of a file begins with the name of an entry. -/
theorem mem_filesOf {entries : List (FileName × Node)} {path : FilePath} {content : Bytes}
    (h : (path, content) ∈ filesOf entries) : ∃ name rest, path = name :: rest ∧
      name ∈ entries.map Prod.fst := by
  induction entries with
  | nil => exact absurd h List.not_mem_nil
  | cons entry entries ih =>
    obtain ⟨name, node⟩ := entry
    rw [filesOf, List.mem_append, List.mem_map] at h
    rcases h with ⟨file, -, hfile⟩ | h
    · obtain ⟨rfl, -⟩ := Prod.mk.inj hfile
      exact ⟨name, file.1, rfl, List.mem_cons_self⟩
    · obtain ⟨first, rest, hpath, hmem⟩ := ih h
      exact ⟨first, rest, hpath, List.mem_cons_of_mem _ hmem⟩

mutual

/-- A path names one file. -/
theorem Node.files_nodup (node : Node) (h : node.WellFormed) : (node.files.map Prod.fst).Nodup := by
  cases node with
  | file content linkCount => simp [Node.files]
  | directory entries =>
    rw [Node.files]
    exact filesOf_nodup entries h.1 h.2
  | link => simp [Node.files]
  | special => simp [Node.files]
  | unreadable => simp [Node.files]

/-- No two files of a well-formed tree have the same path. -/
theorem filesOf_nodup (entries : List (FileName × Node)) (hnodup : (entries.map Prod.fst).Nodup)
    (h : WellFormedEntries entries) : ((filesOf entries).map Prod.fst).Nodup := by
  match entries with
  | [] => simp [filesOf]
  | (name, node) :: entries =>
    rw [WellFormedEntries] at h
    rw [List.map_cons, List.nodup_cons] at hnodup
    have hnode := Node.files_nodup node h.2.1
    have hrest := filesOf_nodup entries hnodup.2 h.2.2
    have hnames : (node.files.map fun file => (name :: file.1, file.2)).map Prod.fst =
        (node.files.map Prod.fst).map (List.cons name) := by
      rw [List.map_map, List.map_map]
      rfl
    rw [filesOf, List.map_append, hnames]
    refine List.nodup_append.mpr ⟨hnode.map List.cons_injective, hrest, ?_⟩
    intro path hpath other hother
    obtain ⟨tail, -, rfl⟩ := List.mem_map.mp hpath
    obtain ⟨⟨otherPath, content⟩, hfile, rfl⟩ := List.mem_map.mp hother
    obtain ⟨first, rest, rfl, hfirst⟩ := mem_filesOf hfile
    intro heq
    obtain ⟨rfl, -⟩ := List.cons.inj heq
    exact hnodup.1 hfirst

end

mutual

/-- The names of a path are names of the tree. -/
theorem Node.files_windowsName (node : Node) (h : node.WellFormed) :
    ∀ file ∈ node.files, ∀ name ∈ file.1, name.WindowsName := by
  cases node with
  | file content linkCount => simp [Node.files]
  | directory entries =>
    rw [Node.files]
    exact filesOf_windowsName entries h.2
  | link => simp [Node.files]
  | special => simp [Node.files]
  | unreadable => simp [Node.files]

/-- Every name in a path is one that Windows allows. -/
theorem filesOf_windowsName (entries : List (FileName × Node)) (h : WellFormedEntries entries) :
    ∀ file ∈ filesOf entries, ∀ name ∈ file.1, name.WindowsName := by
  match entries with
  | [] => simp [filesOf]
  | (first, node) :: entries =>
    rw [WellFormedEntries] at h
    intro file hfile name hname
    rw [filesOf, List.mem_append, List.mem_map] at hfile
    rcases hfile with ⟨inner, hinner, rfl⟩ | hfile
    · rcases List.mem_cons.mp hname with rfl | hname
      · exact h.1
      · exact Node.files_windowsName node h.2.1 inner hinner name hname
    · exact filesOf_windowsName entries h.2.2 file hfile name hname

end

/-! ## Paths -/

/-- A path that can be written has the texts of its names. -/
theorem mapM_toStr {path : FilePath} {names : List String}
    (h : path.mapM FileName.toStr = some names) : path = names.map FileName.text := by
  induction path generalizing names with
  | nil =>
    rw [List.mapM_nil] at h
    cases h
    rfl
  | cons name path ih =>
    rw [List.mapM_cons] at h
    cases name with
    | units name => cases h
    | text name =>
      have htext : (FileName.text name).toStr = some name := rfl
      rw [htext, Option.bind_eq_bind, Option.bind_some] at h
      obtain ⟨rest, hrest, hnames⟩ := Option.bind_eq_some_iff.mp h
      obtain rfl := Option.some_inj.mp hnames
      rw [List.map_cons, ih hrest]

/-- A letter of a joined text is the separator or comes from a part. -/
theorem mem_intercalate {sep a : Char} {parts : List (List Char)}
    (h : a ∈ [sep].intercalate parts) : a = sep ∨ ∃ part ∈ parts, a ∈ part := by
  induction parts with
  | nil => exact absurd h List.not_mem_nil
  | cons part parts ih =>
    cases parts with
    | nil =>
      rw [List.intercalate_singleton] at h
      exact .inr ⟨part, List.mem_cons_self, h⟩
    | cons next parts =>
      rw [List.intercalate_cons_cons, List.mem_append, List.mem_append] at h
      rcases h with (hpart | hsep) | hrest
      · exact .inr ⟨part, List.mem_cons_self, hpart⟩
      · exact .inl (List.mem_singleton.mp hsep)
      · obtain heq | ⟨other, hother, ha⟩ := ih hrest
        · exact .inl heq
        · exact .inr ⟨other, List.mem_cons_of_mem _ hother, ha⟩

/-- The names that a relative path has, read off its text. -/
def pathOf (relative : String) : FilePath :=
  ((relative.toList.map fun c => if c = '/' then '\\' else c).splitOn '\\').map fun chars =>
    .text (.ofList chars)

/-- The text of a relative path tells its names. -/
theorem pathOf_relativeText {path : FilePath} {relative : String}
    (hpath : ∀ name ∈ path, name.WindowsName) (h : relativeText path = some relative) :
    pathOf relative = path := by
  obtain ⟨names, hmap, htext⟩ := Option.bind_eq_some_iff.mp h
  obtain rfl := mapM_toStr hmap
  -- A name of Windows has no separator of either kind.
  have hwindows : ∀ part ∈ names.map String.toList, '/' ∉ part ∧ '\\' ∉ part := by
    intro part hpart
    obtain ⟨name, hname, rfl⟩ := List.mem_map.mp hpart
    exact hpath _ (List.mem_map_of_mem hname)
  have hslash : '/' ∉ ['\\'].intercalate (names.map String.toList) := by
    intro hmem
    obtain heq | ⟨part, hpart, hc⟩ := mem_intercalate hmem
    · exact absurd heq (by decide)
    · exact (hwindows part hpart).1 hc
  dsimp only at htext
  split at htext
  · cases htext
  · next hne =>
    obtain rfl := Option.some_inj.mp htext
    have hnames : names.map String.toList ≠ [] := by
      intro hnil
      rw [hnil] at hne
      exact hne rfl
    -- So splitting gives back the names.
    have hsplit := List.splitOn_intercalate '\\' (fun part hpart => (hwindows part hpart).2) hnames
    have hback : ((['\\'].intercalate (names.map String.toList)).map fun c =>
        if c = '\\' then '/' else c).map (fun c => if c = '/' then '\\' else c) =
          ['\\'].intercalate (names.map String.toList) := by
      rw [List.map_map]
      refine (List.map_congr_left fun c hc => ?_).trans (List.map_id _)
      have hc' : c ≠ '/' := fun heq => hslash (heq ▸ hc)
      by_cases hback : c = '\\'
      · simp [hback]
      · simp [hback, hc']
    rw [pathOf, String.toList_ofList, hback, hsplit, List.map_map]
    exact List.map_congr_left fun name _ => congrArg FileName.text (String.ofList_toList)

/-- Two paths that are written alike are the same. -/
theorem relativeText_inj {path other : FilePath} {relative : String}
    (hpath : ∀ name ∈ path, name.WindowsName) (hother : ∀ name ∈ other, name.WindowsName)
    (h : relativeText path = some relative) (h' : relativeText other = some relative) :
    path = other :=
  (pathOf_relativeText hpath h).symm.trans (pathOf_relativeText hother h')

/-! ## The traversal -/

/-- A chain of steps that succeeds went through its first step. -/
theorem bind_eq_ok {ε α β : Type} {result : Except ε α} {next : α → Except ε β} {value : β}
    (h : result >>= next = .ok value) : ∃ a, result = .ok a ∧ next a = .ok value := by
  cases result with
  | error e => cases h
  | ok a => exact ⟨a, rfl, h⟩

section Traversal

variable {known : Set Bytes} (digest : Digest known) {directory : FilePath} {scan scan' : Scan}
variable {seen : List (FilePath × Bytes)}

/-- What the traversal keeps of a file. -/
def fileItem (file : FilePath × Bytes) : Option FileItem :=
  (relativeText file.1).map fun relative => (relative, file.2.length, digest.hash file.2)

/-- The files below a directory, by their paths from the root. -/
def filesBelow (directory : FilePath) (entries : List (FileName × Node)) : List
    (FilePath × Bytes) :=
  (filesOf entries).map fun file => (directory ++ file.1, file.2)

/-- The files that are still to be read. -/
def pendingFiles (pending : List (FilePath × List (FileName × Node))) : List (FilePath × Bytes) :=
  pending.flatMap fun (directory, entries) => filesBelow directory entries

/-- The number of directories that are still to be read. -/
def pendingDirectories (pending : List (FilePath × List (FileName × Node))) : ℕ :=
  (pending.map fun (_, entries) => directoriesOf entries + 1).sum

/-- The count, with one more pending directory. -/
theorem pendingDirectories_cons (directory : FilePath) (entries : List (FileName × Node))
    (pending : List (FilePath × List (FileName × Node))) :
    pendingDirectories ((directory, entries) :: pending) =
      directoriesOf entries + 1 + pendingDirectories pending := rfl

/-- The scan holds what is kept of these files. -/
structure Gathered (scan : Scan) (seen : List (FilePath × Bytes)) : Prop where
  items : scan.files.map some = seen.map (fileItem digest)
  bounded : ∀ file ∈ seen, file.2.length ≤ maximumNpmRuntimeFileBytes
  total : scan.totalBytes = (seen.map fun file => file.2.length).sum

/-- The files below an entry and those below the others. -/
theorem filesBelow_cons (directory : FilePath) (name : FileName) (node : Node)
    (entries : List (FileName × Node)) :
    filesBelow directory ((name, node) :: entries) =
      filesBelow directory [(name, node)] ++ filesBelow directory entries := by
  simp [filesBelow, filesOf]

/-- The files below a directory have its name in their paths. -/
theorem filesBelow_directory (directory : FilePath) (name : FileName)
    (entries : List (FileName × Node)) :
    filesBelow directory [(name, .directory entries)] =
      filesBelow (directory ++ [name]) entries := by
  simp [filesBelow, filesOf, Node.files, Function.comp_def]

/-- An entry is a file that is gathered, or a directory that is pending. -/
theorem visitEntry_spec {entry : FileName × Node}
    (h : visitEntry digest directory scan entry = .ok scan') (hseen : Gathered digest scan seen) :
    ∃ seen', Gathered digest scan' seen' ∧
      (seen' ++ pendingFiles scan'.pending).Perm
        (seen ++ filesBelow directory [entry] ++ pendingFiles scan.pending) ∧
      pendingDirectories scan'.pending =
        pendingDirectories scan.pending + entry.2.directories ∧
      scan'.directoryCount = scan.directoryCount := by
  obtain ⟨name, node⟩ := entry
  cases node with
  | link => cases h
  | special => cases h
  | unreadable => cases h
  -- A directory is put off until the entries of this one are visited.
  | directory entries =>
    obtain rfl := Except.ok.inj h
    refine ⟨seen, ⟨hseen.items, hseen.bounded, hseen.total⟩, ?_, ?_, rfl⟩
    · rw [filesBelow_directory, List.append_assoc]
      rfl
    · rw [pendingDirectories_cons, Nat.add_comm, Node.directories]
  -- A file is taken after five checks: the count, its path, its size, the total, and its links.
  | file content linkCount =>
    unfold visitEntry at h
    dsimp only at h
    split at h
    · cases h
    split at h
    · cases h
    next relative hrelative =>
    split at h
    · cases h
    next hsize =>
    split at h
    · cases h
    split at h
    · cases h
    obtain rfl := Except.ok.inj h
    refine ⟨seen ++ [(directory ++ [name], content)], ⟨?_, ?_, ?_⟩, ?_, ?_, rfl⟩
    · have hitem : fileItem digest (directory ++ [name], content) =
          some (relative, content.length, digest.hash content) := by
        rw [fileItem, hrelative]
        rfl
      rw [List.map_append, List.map_append, hseen.items, List.map_singleton,
        List.map_singleton, hitem]
    · intro file hfile
      rcases List.mem_append.mp hfile with hfile | hfile
      · exact hseen.bounded file hfile
      · obtain rfl := List.mem_singleton.mp hfile
        exact Nat.le_of_not_lt hsize
    · rw [List.map_append, List.sum_append, ← hseen.total]
      rfl
    · simp [filesBelow, filesOf, Node.files]
    · rfl

/-- A listing is gathered entry by entry. -/
theorem visitEntries_spec {entries : List (FileName × Node)}
    (h : entries.foldlM (visitEntry digest directory) scan = .ok scan')
    (hseen : Gathered digest scan seen) :
    ∃ seen', Gathered digest scan' seen' ∧
      (seen' ++ pendingFiles scan'.pending).Perm
        (seen ++ filesBelow directory entries ++ pendingFiles scan.pending) ∧
      pendingDirectories scan'.pending =
        pendingDirectories scan.pending + directoriesOf entries ∧
      scan'.directoryCount = scan.directoryCount := by
  induction entries generalizing scan seen with
  | nil =>
    obtain rfl := Except.ok.inj h
    exact ⟨seen, hseen, by simp [filesBelow, filesOf], rfl, rfl⟩
  | cons entry entries ih =>
    rw [List.foldlM_cons] at h
    obtain ⟨next, hentry, hrest⟩ := bind_eq_ok h
    obtain ⟨seen₁, hseen₁, hperm₁, hdirectories₁, hcount₁⟩ := visitEntry_spec digest hentry hseen
    obtain ⟨seen₂, hseen₂, hperm₂, hdirectories₂, hcount₂⟩ := ih hrest hseen₁
    refine ⟨seen₂, hseen₂, ?_, ?_, hcount₂.trans hcount₁⟩
    · have hmove : (seen₁ ++ filesBelow directory entries ++ pendingFiles next.pending).Perm
          (seen₁ ++ pendingFiles next.pending ++ filesBelow directory entries) := by
        rw [List.append_assoc, List.append_assoc]
        exact List.perm_append_comm.append_left _
      refine hperm₂.trans (hmove.trans ((hperm₁.append_right _).trans ?_))
      rw [filesBelow_cons directory entry.1 entry.2 entries]
      simp only [List.append_assoc]
      exact (List.perm_append_comm.append_left _).append_left _
    · rw [hdirectories₂, hdirectories₁, directoriesOf]
      omega

/-- The traversal gathers the files of the pending directories, and counts these directories. -/
theorem visitDirectories_spec {remaining : ℕ}
    (h : visitDirectories digest remaining scan = .ok scan')
    (hseen : Gathered digest scan seen) :
    ∃ seen', Gathered digest scan' seen' ∧ seen'.Perm (seen ++ pendingFiles scan.pending) ∧
      scan'.directoryCount = scan.directoryCount + pendingDirectories scan.pending := by
  -- By induction on the directories that may still be listed.
  induction remaining generalizing scan seen with
  | zero =>
    unfold visitDirectories at h
    split at h
    · next hpending =>
      obtain rfl := Except.ok.inj h
      exact ⟨seen, hseen, by simp [hpending, pendingFiles], by simp [hpending, pendingDirectories]⟩
    · cases h
  | succ remaining ih =>
    unfold visitDirectories at h
    split at h
    · next hpending =>
      obtain rfl := Except.ok.inj h
      exact ⟨seen, hseen, by simp [hpending, pendingFiles], by simp [hpending, pendingDirectories]⟩
    -- The next directory is listed: its files are seen, and its directories are pending.
    · next directory entries pending hpending =>
      obtain ⟨next, hnext, hrest⟩ := bind_eq_ok h
      have hstart : Gathered digest { scan with
          pending := pending, directoryCount := scan.directoryCount + 1 } seen :=
        ⟨hseen.items, hseen.bounded, hseen.total⟩
      obtain ⟨seen₁, hseen₁, hperm₁, hdirectories₁, hcount₁⟩ :=
        visitEntries_spec digest hnext hstart
      obtain ⟨seen₂, hseen₂, hperm₂, hcount₂⟩ := ih hrest hseen₁
      refine ⟨seen₂, hseen₂, hperm₂.trans (hperm₁.trans ?_), ?_⟩
      · rw [hpending, pendingFiles, pendingFiles, List.flatMap_cons, List.append_assoc]
      · rw [hcount₂, hcount₁, hdirectories₁, hpending, pendingDirectories_cons]
        dsimp only
        omega

/-! ## What is hashed -/

/-- An item whose two lengths are those of the machine. -/
def FileItem.Fits (item : FileItem) : Prop := item.1.utf8ByteSize < 2 ^ 64 ∧ item.2.1 < 2 ^ 64

/-- The bytes of an item tell it, whatever follows. -/
theorem itemBytes_inj {item other : FileItem} (hitem : FileItem.Fits item)
    (hother : FileItem.Fits other)
    {rest rest' : Bytes} (h : itemBytes item ++ rest = itemBytes other ++ rest') :
    item = other := by
  have hlength : ∀ {n m : ℕ}, n < 2 ^ 64 → m < 2 ^ 64 →
    toLeBytes n.toUInt64 = toLeBytes m.toUInt64 →
      n = m := by
    intro n m hn hm heq
    have hvalue := congrArg UInt64.toNat (toLeBytes_inj heq)
    simp only [Nat.toUInt64_eq, UInt64.toNat_ofNat'] at hvalue
    rwa [Nat.mod_eq_of_lt hn, Nat.mod_eq_of_lt hm] at hvalue
  simp only [itemBytes, List.append_assoc] at h
  obtain ⟨hsize, h⟩ := List.append_inj h (by rw [length_toLeBytes, length_toLeBytes])
  have hsize := hlength hitem.1 hother.1 hsize
  obtain ⟨hpath, h⟩ := List.append_inj h (by rw [length_asBytes, length_asBytes, hsize])
  obtain ⟨hcontent, h⟩ := List.append_inj h (by rw [length_toLeBytes, length_toLeBytes])
  obtain ⟨hhash, -⟩ := List.append_inj h (by rw [length_digestBytes, length_digestBytes])
  exact Prod.ext (asBytes_inj hpath)
    (Prod.ext (hlength hitem.2 hother.2 hcontent) (digestBytes_inj hhash))

/-- Sorting keeps the files. -/
theorem sortByPath_perm (files : List FileItem) : (sortByPath files).Perm files :=
  List.perm_insertionSort _ files

/-- The sorted items of different paths do not depend on the order in which they were gathered. -/
theorem sortByPath_eq {files others : List FileItem} (hperm : files.Perm others)
    (hnodup : (files.map Prod.fst).Nodup) : sortByPath files = sortByPath others := by
  have hpairwise : ∀ files : List FileItem,
      (sortByPath files).Pairwise fun left right => left.1 ≤ right.1 := by
    intro files
    have : IsTrans FileItem fun left right => left.1 ≤ right.1 := ⟨fun _ _ _ => le_trans⟩
    have : Std.Total fun left right : FileItem => left.1 ≤ right.1 := ⟨fun _ _ => le_total _ _⟩
    exact List.pairwise_insertionSort _ files
  have hsame : (sortByPath files).Perm (sortByPath others) :=
    (sortByPath_perm files).trans (hperm.trans (sortByPath_perm others).symm)
  refine hsame.eq_of_pairwise ?_ (hpairwise files) (hpairwise others)
  intro left right hleft hright hle hle'
  have hleft := (sortByPath_perm files).mem_iff.mp hleft
  have hright := hperm.mem_iff.mpr ((sortByPath_perm others).mem_iff.mp hright)
  exact List.inj_on_of_nodup_map hnodup hleft hright (le_antisymm hle hle')

/-! ## The fingerprint -/

/-- A tree as Windows has them. A text has at most `isize::MAX` bytes. -/
structure WindowsRoot extends NpmRoot where
  distinct : (entries.map Prod.fst).Nodup
  wellFormed : WellFormedEntries entries
  textSize : ∀ file ∈ filesOf entries, ∀ relative, relativeText file.1 = some relative →
    relative.utf8ByteSize < 2 ^ 63

/-- The files of the tree, by their paths. -/
def NpmRoot.files (root : NpmRoot) : List (FilePath × Bytes) := filesOf root.entries

/-- The number of directories of the tree, with its root. -/
def NpmRoot.directories (root : NpmRoot) : ℕ := directoriesOf root.entries + 1

/-- The trees have the same number of directories, and the same files. -/
def SameTree (left right : NpmRoot) : Prop :=
  left.directories = right.directories ∧ ∀ file, file ∈ left.files ↔ file ∈ right.files

/-- What is hashed for a tree: the contents of its files, and the list of its items. -/
def HashedBytes (root : NpmRoot) : Set Bytes :=
  {bytes | (∃ path, (path, bytes) ∈ root.files) ∨
    ∃ scan, scanNpmRuntime digest root = .ok scan ∧ bytes = treeBytes scan.files}

/-- A scan has gathered the files of the tree, and counted its directories. -/
theorem scanNpmRuntime_spec {root : NpmRoot} (h : scanNpmRuntime digest root = .ok scan) :
    ∃ seen, Gathered digest scan seen ∧ seen.Perm root.files ∧
      scan.directoryCount = root.directories := by
  unfold scanNpmRuntime at h
  split at h
  · cases h
  split at h
  · cases h
  have hnone : Gathered digest ⟨[([], root.entries)], [], 0, 0⟩ [] :=
    ⟨rfl, fun file hfile => absurd hfile List.not_mem_nil, rfl⟩
  obtain ⟨seen, hseen, hperm, hcount⟩ := visitDirectories_spec digest h hnone
  refine ⟨seen, hseen, hperm.trans ?_, ?_⟩
  · simp [pendingFiles, filesBelow, NpmRoot.files]
  · rw [hcount, NpmRoot.directories]
    simp [pendingDirectories]

variable {digest} {left right : WindowsRoot} {scanned scanned' : Scan}

/-- An item is that of a file that was seen. -/
theorem Gathered.mem_items (hseen : Gathered digest scan seen) {item : FileItem} :
    item ∈ scan.files ↔ ∃ file ∈ seen, fileItem digest file = some item := by
  rw [← List.mem_map, ← hseen.items, List.mem_map_of_injective (Option.some_injective _)]

/-- The items of a tree have different paths. -/
theorem Gathered.nodup (hseen : Gathered digest scan seen) (hperm : seen.Perm left.files) :
    (scan.files.map Prod.fst).Nodup := by
  have htexts : (scan.files.map Prod.fst).map some = (seen.map Prod.fst).map relativeText := by
    have hpath : ∀ file, (fileItem digest file).map Prod.fst = relativeText file.1 := by
      intro file
      rw [fileItem, Option.map_map]
      exact Option.map_id'
    have hitems := congrArg (List.map fun item : Option FileItem => item.map Prod.fst) hseen.items
    rw [List.map_map, List.map_map] at hitems
    rw [List.map_map, List.map_map]
    exact hitems.trans (List.map_congr_left fun file _ => hpath file)
  have hpaths : (seen.map Prod.fst).Nodup :=
    ((hperm.map Prod.fst).nodup_iff).mpr (filesOf_nodup left.entries left.distinct left.wellFormed)
  have hnames : ∀ path ∈ seen.map Prod.fst, ∀ name ∈ path, name.WindowsName := by
    intro path hpath
    obtain ⟨file, hfile, rfl⟩ := List.mem_map.mp hpath
    exact filesOf_windowsName left.entries left.wellFormed file (hperm.mem_iff.mp hfile)
  refine List.Nodup.of_map some ?_
  rw [htexts]
  refine hpaths.map_on fun path hpath other hother heq => ?_
  have hmem : relativeText path ∈ (scan.files.map Prod.fst).map some := by
    rw [htexts]
    exact List.mem_map_of_mem hpath
  obtain ⟨relative, -, hrelative⟩ := List.mem_map.mp hmem
  exact relativeText_inj (hnames path hpath) (hnames other hother) hrelative.symm
    (heq.symm.trans hrelative.symm)

/-- The lengths of the items are those of the machine. -/
theorem Gathered.fits (hseen : Gathered digest scan seen) (hperm : seen.Perm left.files) :
    ∀ item ∈ scan.files, FileItem.Fits item := by
  intro item hitem
  obtain ⟨file, hfile, hfileItem⟩ := hseen.mem_items.mp hitem
  obtain ⟨relative, hrelative, rfl⟩ := Option.map_eq_some_iff.mp hfileItem
  have htext := left.textSize file (hperm.mem_iff.mp hfile) relative hrelative
  have hcontent := hseen.bounded file hfile
  have hmaximum : maximumNpmRuntimeFileBytes < 2 ^ 64 := by decide
  exact ⟨htext.trans (by decide), Nat.lt_of_le_of_lt hcontent hmaximum⟩

/-- Items tell the files that they are kept of. -/
theorem Gathered.files_subset {seen' : List (FilePath × Bytes)}
    (hseen : Gathered digest scanned seen) (hperm : seen.Perm left.files)
    (hseen' : Gathered digest scanned' seen') (hperm' : seen'.Perm right.files)
    (hleft : ∀ file ∈ left.files, file.2 ∈ known) (hright : ∀ file ∈ right.files, file.2 ∈ known)
    (hitems : ∀ item ∈ scanned.files, item ∈ scanned'.files) :
    ∀ file ∈ left.files, file ∈ right.files := by
  intro file hfile
  have hmem : fileItem digest file ∈ scanned.files.map some := by
    rw [hseen.items]
    exact List.mem_map_of_mem (hperm.mem_iff.mpr hfile)
  obtain ⟨item, hitem, hfileItem⟩ := List.mem_map.mp hmem
  obtain ⟨other, hother, hotherItem⟩ := hseen'.mem_items.mp (hitems item hitem)
  have hother := hperm'.mem_iff.mp hother
  obtain ⟨relative, hrelative, hvalue⟩ := Option.map_eq_some_iff.mp hfileItem.symm
  obtain ⟨relative', hrelative', hvalue'⟩ := Option.map_eq_some_iff.mp hotherItem
  obtain ⟨hpaths, hrest⟩ := Prod.mk.inj (hvalue.trans hvalue'.symm)
  obtain ⟨-, hhash⟩ := Prod.mk.inj hrest
  have hcontent := digest.injOn (hleft file hfile) (hright other hother) hhash
  have hnames := filesOf_windowsName left.entries left.wellFormed file hfile
  have hnames' := filesOf_windowsName right.entries right.wellFormed other hother
  rw [← hpaths] at hrelative'
  have hpath := relativeText_inj hnames hnames' hrelative hrelative'
  have hsame : file = other := Prod.ext hpath hcontent
  rwa [hsame]

/-- An inspection that succeeds has scanned the tree. -/
theorem inspectNpmRuntime_ok {root : NpmRoot} {snapshot : NpmRuntimeSnapshot}
    (h : inspectNpmRuntime digest root = .ok snapshot) :
    ∃ scan, scanNpmRuntime digest root = .ok scan ∧
      snapshot = ⟨scan.files.length, scan.directoryCount, scan.totalBytes,
        digest.hash (treeBytes scan.files)⟩ := by
  obtain ⟨scan, hscan, hrest⟩ := bind_eq_ok h
  split at hrest
  · cases hrest
  · exact ⟨scan, hscan, (Except.ok.inj hrest).symm⟩

/-- Two snapshots are the same if and only if the trees are. -/
theorem snapshot_eq_iff {snapshot other : NpmRuntimeSnapshot}
    (hknown : HashedBytes digest left.toNpmRoot ⊆ known)
    (hknown' : HashedBytes digest right.toNpmRoot ⊆ known)
    (hleft : inspectNpmRuntime digest left.toNpmRoot = .ok snapshot)
    (hright : inspectNpmRuntime digest right.toNpmRoot = .ok other) :
    snapshot = other ↔ SameTree left.toNpmRoot right.toNpmRoot := by
  obtain ⟨scanned, hscanned, rfl⟩ := inspectNpmRuntime_ok hleft
  obtain ⟨scanned', hscanned', rfl⟩ := inspectNpmRuntime_ok hright
  obtain ⟨seen, hseen, hperm, hcount⟩ := scanNpmRuntime_spec digest hscanned
  obtain ⟨seen', hseen', hperm', hcount'⟩ := scanNpmRuntime_spec digest hscanned'
  have hcontents : ∀ file ∈ left.files, file.2 ∈ known := fun file hfile =>
    hknown (.inl ⟨file.1, hfile⟩)
  have hcontents' : ∀ file ∈ right.files, file.2 ∈ known := fun file hfile =>
    hknown' (.inl ⟨file.1, hfile⟩)
  constructor
  -- Equal snapshots have equal digests, and of the bytes that were hashed no two collide.
  · intro heq
    obtain ⟨-, hdirectories, -, hhash⟩ := NpmRuntimeSnapshot.mk.inj heq
    have hbytes := digest.injOn (hknown (.inr ⟨scanned, hscanned, rfl⟩))
      (hknown' (.inr ⟨scanned', hscanned', rfl⟩)) hhash
    have hsorted : sortByPath scanned.files = sortByPath scanned'.files := by
      refine @flatMap_inj _ _ FileItem.Fits ?_ ?_ _ _ ?_ ?_ hbytes
      · intro item hnil
        have hlength := congrArg List.length hnil
        rw [itemBytes, List.length_append, length_digestBytes] at hlength
        simp at hlength
      · exact fun item other hitem hother rest rest' => itemBytes_inj hitem hother
      · exact fun item hitem => hseen.fits hperm item ((sortByPath_perm _).mem_iff.mp hitem)
      · exact fun item hitem => hseen'.fits hperm' item ((sortByPath_perm _).mem_iff.mp hitem)
    have hitems : scanned.files.Perm scanned'.files := by
      have hsort := (sortByPath_perm scanned.files).symm
      rw [hsorted] at hsort
      exact hsort.trans (sortByPath_perm scanned'.files)
    refine ⟨hcount.symm.trans (hdirectories.trans hcount'), fun file => ⟨?_, ?_⟩⟩
    · exact hseen.files_subset hperm hseen' hperm' hcontents hcontents'
        (fun item => hitems.mem_iff.mp) file
    · exact hseen'.files_subset hperm' hseen hperm hcontents' hcontents
        (fun item => hitems.mem_iff.mpr) file
  -- The same files are scanned in some order, and sorting gives one list of them.
  · rintro ⟨hdirectories, hfiles⟩
    have hnodup := filesOf_nodup left.entries left.distinct left.wellFormed
    have hnodup' := filesOf_nodup right.entries right.distinct right.wellFormed
    have hsame : seen.Perm seen' :=
      hperm.trans (((List.perm_ext_iff_of_nodup hnodup.of_map hnodup'.of_map).mpr hfiles).trans
        hperm'.symm)
    have hitems : scanned.files.Perm scanned'.files := by
      have hmapped := hsame.map (fileItem digest)
      rw [← hseen.items, ← hseen'.items] at hmapped
      exact (List.map_perm_map_iff (Option.some_injective _)).mp hmapped
    have htotal : scanned.totalBytes = scanned'.totalBytes := by
      rw [hseen.total, hseen'.total]
      exact (hsame.map _).sum_eq
    have hbytes : treeBytes scanned.files = treeBytes scanned'.files := by
      rw [treeBytes, sortByPath_eq hitems (hseen.nodup hperm), treeBytes]
    rw [hitems.length_eq, hcount, hcount', hdirectories, htotal, hbytes]

end Traversal

/-- Two trees that are accepted have one snapshot if and only if they have the same files and the
same number of directories. So a runtime is verified again if and only if its tree is accepted and
is the same. -/
theorem fingerprint_faithful {known : Set Bytes} {digest : Digest known} {left right : WindowsRoot}
    {snapshot : NpmRuntimeSnapshot} (hknown : HashedBytes digest left.toNpmRoot ⊆ known)
    (hknown' : HashedBytes digest right.toNpmRoot ⊆ known)
    (hleft : inspectNpmRuntime digest left.toNpmRoot = .ok snapshot) :
    (∀ other, inspectNpmRuntime digest right.toNpmRoot = .ok other →
        (snapshot = other ↔ SameTree left.toNpmRoot right.toNpmRoot)) ∧
      (revalidate digest ⟨snapshot⟩ right.toNpmRoot = .ok () ↔
        (∃ other, inspectNpmRuntime digest right.toNpmRoot = .ok other) ∧
          SameTree left.toNpmRoot right.toNpmRoot) := by
  have hiff : ∀ other, inspectNpmRuntime digest right.toNpmRoot = .ok other →
      (snapshot = other ↔ SameTree left.toNpmRoot right.toNpmRoot) := fun other hright =>
    snapshot_eq_iff hknown hknown' hleft hright
  refine ⟨hiff, ?_⟩
  rw [revalidate]
  cases hright : inspectNpmRuntime digest right.toNpmRoot with
  | error e =>
    -- A tree that cannot be inspected is no tree that is the same.
    refine iff_of_false (fun h => ?_) fun h => ?_
    · cases h
    · obtain ⟨⟨other, hother⟩, -⟩ := h
      cases hother
  | ok other =>
    have hsame := hiff other hright
    by_cases heq : other = snapshot
    · refine iff_of_true ?_ ⟨⟨other, rfl⟩, hsame.mp heq.symm⟩
      show (if other ≠ snapshot then _ else _) = _
      rw [if_neg (not_not.mpr heq)]
      rfl
    · refine iff_of_false (fun h => ?_) fun h => heq (hsame.mpr h.2).symm
      change (if other ≠ snapshot then _ else _) = _ at h
      rw [if_pos heq] at h
      cases h

/-! ## A small runtime -/

/-- A file without content. -/
def emptyFile : Node := .file [] 1

/-- The command-line interface and the package file, both empty. -/
def smallEntries : List (FileName × Node) :=
  [(.text "bin", .directory [(.text "npm-cli.js", emptyFile)]), (.text "package.json", emptyFile)]

/-- The SHA-256 digest of the empty text. -/
def emptyHash : Fin (2 ^ 256) := 0xe3b0c44298fc1c149afbf4c8996fb92427ae41e4649b934ca495991b7852b855

/-- The items of the small tree. -/
def smallItems : List FileItem := [("bin/npm-cli.js", 0, emptyHash), ("package.json", 0, emptyHash)]

/-- The SHA-256 digests of the empty text, and of the items of the small runtime. -/
def smallDigest : Digest {[], treeBytes smallItems} where
  hash bytes := if bytes = [] then
    emptyHash else 0x8629f7f0d6156280e18f70e566998f655e4c914316161c787440cc2920388316
  injOn := by
    have hne : treeBytes smallItems ≠ [] := by decide
    intro bytes hbytes other hother heq
    rcases Set.mem_insert_iff.mp hbytes with rfl | rfl <;>
      rcases Set.mem_insert_iff.mp hother with rfl | rfl
    · rfl
    · exact absurd heq (by simp [hne, emptyHash])
    · exact absurd heq (by simp [hne, emptyHash])
    · rfl

/-- A root that passes the checks, with the entries. -/
def rootOf (entries : List (FileName × Node)) : NpmRoot := ⟨true, true, false, true, entries⟩

/-- The files of the small tree. -/
def smallFiles : List (FilePath × Bytes) :=
  [([.text "bin", .text "npm-cli.js"], []), ([.text "package.json"], [])]

/-- The paths of the small tree are short. -/
theorem smallFiles_textSize : ∀ file ∈ smallFiles, ∀ relative, relativeText file.1 = some relative →
    relative.utf8ByteSize < 2 ^ 63 := by
  intro file hfile relative hrelative
  rcases List.mem_pair.mp hfile with rfl | rfl
  · obtain rfl := Option.some_inj.mp hrelative
    decide
  · obtain rfl := Option.some_inj.mp hrelative
    decide

/-- The root of the small tree. -/
def smallRoot : WindowsRoot where
  toNpmRoot := rootOf smallEntries
  distinct := by decide
  wellFormed := by
    simp [rootOf, smallEntries, WellFormedEntries, Node.WellFormed, FileName.WindowsName, emptyFile]
  textSize := smallFiles_textSize

/-- The listing of the root returns the package file first. -/
def reorderedRoot : WindowsRoot where
  toNpmRoot := rootOf smallEntries.reverse
  distinct := by decide
  wellFormed := by
    simp [rootOf, smallEntries, WellFormedEntries, Node.WellFormed, FileName.WindowsName, emptyFile]
  textSize := fun file hfile => smallFiles_textSize file (List.mem_reverse.mp hfile)

/-- The small tree with an empty directory more. -/
def cachedEntries : List (FileName × Node) := (.text "cache", .directory []) :: smallEntries

/-- An empty directory is added. -/
def cachedRoot : WindowsRoot where
  toNpmRoot := rootOf cachedEntries
  distinct := by decide
  wellFormed := by
    simp [rootOf, cachedEntries, smallEntries, WellFormedEntries, Node.WellFormed,
      FileName.WindowsName, emptyFile]
  textSize := smallFiles_textSize

/-- What an inspection of the small tree finds. -/
def smallSnapshot : NpmRuntimeSnapshot := ⟨2, 2, 0, smallDigest.hash (treeBytes smallItems)⟩

/-- The inspection of the small tree. -/
theorem inspect_smallRoot : inspectNpmRuntime smallDigest smallRoot.toNpmRoot =
    .ok smallSnapshot := by
  rfl

/-- All that is hashed for a tree like the small one. -/
theorem hashedBytes_known {root : NpmRoot} {scan : Scan} (hfiles : root.files.Perm smallFiles)
    (hscan : scanNpmRuntime smallDigest root = .ok scan) (hitems : scan.files.Perm smallItems) :
    HashedBytes smallDigest root ⊆ {[], treeBytes smallItems} := by
  rintro bytes (⟨path, hpath⟩ | ⟨scan', hscan', rfl⟩)
  · obtain hfile | hfile := List.mem_pair.mp (hfiles.mem_iff.mp hpath)
    · exact .inl (Prod.mk.inj hfile).2
    · exact .inl (Prod.mk.inj hfile).2
  · rw [hscan] at hscan'
    obtain rfl := Except.ok.inj hscan'
    have hnodup : (smallItems.map Prod.fst).Nodup := by decide
    have hsorted := sortByPath_eq hitems.symm hnodup
    refine .inr ?_
    show treeBytes scan.files = treeBytes smallItems
    rw [treeBytes, ← hsorted, treeBytes]

/-- The order of the listing does not matter. -/
theorem fingerprint_faithful_reordered :
    revalidate smallDigest ⟨smallSnapshot⟩ reorderedRoot.toNpmRoot = .ok () := by
  have hscan : scanNpmRuntime smallDigest smallRoot.toNpmRoot =
    .ok ⟨[], smallItems.reverse, 2, 0⟩ := rfl
  have hscan' : scanNpmRuntime smallDigest reorderedRoot.toNpmRoot =
      .ok ⟨[], smallItems.reverse, 2, 0⟩ := rfl
  have hknown : HashedBytes smallDigest smallRoot.toNpmRoot ⊆ {[], treeBytes smallItems} :=
    hashedBytes_known (.refl _) hscan smallItems.reverse_perm
  have hknown' : HashedBytes smallDigest reorderedRoot.toNpmRoot ⊆ {[], treeBytes smallItems} :=
    hashedBytes_known smallFiles.reverse_perm hscan' smallItems.reverse_perm
  have hreordered : inspectNpmRuntime smallDigest reorderedRoot.toNpmRoot = .ok smallSnapshot := by
    rfl
  have hfiles : ∀ file, file ∈ smallRoot.files ↔ file ∈ reorderedRoot.files := by
    intro file
    have hreverse : file ∈ smallFiles.reverse ↔ file ∈ smallFiles := List.mem_reverse
    exact hreverse.symm
  exact (fingerprint_faithful hknown hknown' inspect_smallRoot).2.mpr ⟨⟨_, hreordered⟩, rfl, hfiles⟩

/-- An empty directory is added, and no file, and the runtime is no longer the one that was
verified. -/
theorem empty_directory_changes :
    (∀ file, file ∈ smallRoot.files ↔ file ∈ cachedRoot.files) ∧
      inspectNpmRuntime smallDigest smallRoot.toNpmRoot = .ok smallSnapshot ∧
      inspectNpmRuntime smallDigest cachedRoot.toNpmRoot =
        .ok { smallSnapshot with directoryCount := 3 } ∧
      revalidate smallDigest ⟨smallSnapshot⟩ cachedRoot.toNpmRoot = .error .npmRuntimeChanged := by
  exact ⟨fun file => Iff.rfl, inspect_smallRoot, rfl, rfl⟩

end Mio.Desktop.NpmRuntime
