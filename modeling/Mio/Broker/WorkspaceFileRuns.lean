import Mio.Broker.WorkspaceFiles
import Mio.Library.Serial

/-!
# Operations on the files of a workspace, at the same time

What an operation of the broker relies on while others run (`Relies`), what it guarantees of its own
calls (`Guarantees`), and that the one follows from the other (`Guarantees.relies`). The operations
that only ask come first: where a path leads, what a file holds (`readFile_triple`), and what is in
a directory (`listDirectory_triple`). What they answer was so at one of their calls.
-/

namespace Mio.Broker.WorkspaceFiles

open Library Routine

/-! ## The volume -/

namespace Volume

variable {volume : Volume}

/-- The first entry of a path, once those of another path are left out. -/
theorem find?_filter_ne (entries : List Entry) (path other : FilePath) :
    (entries.filter (·.path ≠ path)).find? (·.path = other) =
      if other = path then none else entries.find? (·.path = other) := by
  induction entries with
  | nil => split <;> rfl
  | cons entry entries ih =>
    rw [List.filter_cons]
    by_cases hpath : entry.path = path
    · rw [if_neg (by simpa using hpath), ih, List.find?_cons]
      by_cases hother : other = path
      · rw [if_pos hother, if_pos hother]
      · rw [if_neg hother, if_neg hother, decide_eq_false (by rw [hpath]; exact Ne.symm hother)]
    · rw [if_pos (by simpa using hpath), List.find?_cons, List.find?_cons, ih]
      by_cases hother : entry.path = other
      · simp only [decide_eq_true hother, if_neg (show other ≠ path from hother ▸ hpath)]
      · simp only [decide_eq_false hother]

/-- What a path leads to after an entry was removed. -/
theorem node_erase (volume : Volume) {path : FilePath} (hpath : path ≠ []) (other : FilePath) :
    (volume.erase path).node other = if other = path then none else volume.node other := by
  unfold node erase
  by_cases hother : other = []
  · rw [if_pos hother, if_pos hother, if_neg (by rw [hother]; exact Ne.symm hpath)]
  · rw [if_neg hother, if_neg hother, find?_filter_ne]
    split <;> rfl

/-- What a path leads to after an entry was put in its place. -/
theorem node_put (volume : Volume) {path : FilePath} (hpath : path ≠ [])
    (name : FileName) (node : Node)
    (other : FilePath) :
    (volume.put path name node).node other = if other = path then
      some node else volume.node other := by
  unfold Volume.node put
  by_cases hother : other = []
  · rw [if_pos hother, if_pos hother, if_neg (by rw [hother]; exact Ne.symm hpath)]
  · rw [if_neg hother, if_neg hother, List.find?_append, find?_filter_ne]
    by_cases hsame : other = path
    · simp [hsame]
    · rw [if_neg hsame, if_neg hsame, List.find?_cons_of_neg (by simpa using Ne.symm hsame),
        List.find?_nil, Option.or_none]

/-- A change of a file leaves where the paths lead. -/
@[simp]
theorem node_setFile (volume : Volume) (id : ℕ) (data : FileData) (path : FilePath) :
    (volume.setFile id data).node path = volume.node path := rfl

/-- The data of the files after one was changed. -/
theorem files_setFile (volume : Volume) (id : ℕ) (data : FileData) (other : ℕ) :
    (volume.setFile id data).files other = if other = id then data else volume.files other :=
  Function.update_apply ..

/-- Where no link is on the way, a path leads to itself. -/
theorem follow_of_plain {here path : FilePath} {target : Option FilePath}
    (hplain : ∀ way, way <+: path → ∀ target, volume.node (here ++ way) ≠ some (.link target))
    (h : volume.follow here path = some target) : target = some (here ++ path) := by
  induction path generalizing here with
  | nil =>
    rw [List.append_nil]
    exact (Option.some.inj h).symm
  | cons name path ih =>
    have hnext : ∀ way, way <+: path → ∀ target,
        volume.node (here ++ [name] ++ way) ≠ some (.link target) := by
      intro way hway
      rw [List.append_assoc]
      exact hplain ([name] ++ way) (List.prefix_append_right_inj _ |>.mpr hway)
    have hhere := hplain [name] (List.prefix_append [name] path)
    unfold follow at h
    split at h
    · cases h
    · exact absurd ‹_› (hhere _)
    · exact absurd ‹_› (hhere _)
    · rw [ih hnext h, List.append_assoc]
      rfl

/-- Every file that has a name is one that there is. Of the numbers that no file has yet, nothing is
said. -/
structure Valid (volume : Volume) : Prop where
  named : ∀ path id, volume.node path = some (.file id) → id < volume.nextFile
  fresh : ∀ id, volume.nextFile ≤ id →
    (volume.files id).creator = none ∧ (volume.files id).linkCount ≤ 1

/-- What the broker does not touch: directories, links, and files with several names. -/
def IsFixed (volume : Volume) : Node → Prop
  | .file id => 1 < (volume.files id).linkCount
  | _ => True

/-- What is under the path is not touched. -/
def Fixed (volume : Volume) (path : FilePath) : Prop :=
  ∃ node, volume.node path = some node ∧ volume.IsFixed node

/-- No link is on the way. -/
def Plain (volume : Volume) (path : FilePath) : Prop :=
  ∀ way, way <+: path → ∀ target, volume.node way ≠ some (.link target)

/-- The content of the file under the path, once it has been brought to the disk. -/
def stored (volume : Volume) (path : FilePath) : Option Bytes :=
  match volume.node path with
  | some (.file id) => if (volume.files id).synced then some (volume.files id).content else none
  | _ => none

/-- A file is under the path that an operation other than `task` has made, or that there was before,
and its content has not been brought to the disk. -/
def Unfinished (volume : Volume) (task : ℕ) (path : FilePath) : Prop :=
  ∃ id, volume.node path = some (.file id) ∧ (volume.files id).synced = false ∧
    (volume.files id).creator ≠ some task

/-- What `task` has made has been brought to the disk. -/
def SyncedBy (volume : Volume) (task : ℕ) : Prop :=
  ∀ id, (volume.files id).creator = some task → (volume.files id).synced = true

/-- A path without a link leads to itself. -/
theorem canonicalize_of_plain {path : FilePath} {target : Option FilePath}
    (hplain : volume.Plain path) (h : volume.canonicalize path = some target) :
    target = some path :=
  @follow_of_plain volume [] path target hplain h

end Volume

section Effects

variable (host : Host)

/-- The path is one of a temporary file. -/
def IsTemporary (path : FilePath) : Prop :=
  ∃ parent fileName sequence,
    path = parent ++ [host.key (.text (temporaryName host fileName sequence))]

/-- The files that are stored, but for those under temporary names. -/
abbrev Store := {path : FilePath // ¬IsTemporary host path} → Option Bytes

/-- What is stored in the volume, under every path that an operation may name. -/
def stores (volume : Volume) : Store host := fun path => volume.stored path

variable {host}

/-- The store after a write. -/
def Store.write (path : FilePath) (contents : Bytes) (store : Store host) : Store host :=
  fun other => if other.1 = path then some contents else store other

end Effects

/-! ## Contracts -/

namespace Operation

variable (host : Host)

/-- The path that the operation is about. -/
def target : Operation → Option FilePath
  | .readFile path => (relativeNames path).map host.path
  | .listDirectory path _ =>
    if isCurrentDirectory path then some [] else (relativeNames path).map host.path
  | .createFile path _ _ => (relativeNames path).map host.path
  | .createBinaryFile path _ _ => (relativeNames path).map host.path
  | .replaceFile path _ _ => (relativeNames path).map host.path

/-- The path that the operation makes a file under. -/
def creates : Operation → Option FilePath
  | .createFile path _ _ => (relativeNames path).map host.path
  | .createBinaryFile path _ _ => (relativeNames path).map host.path
  | _ => none

/-- The path that the operation replaces the file of. -/
def replaces : Operation → Option FilePath
  | .replaceFile path _ _ => (relativeNames path).map host.path
  | _ => none

/-- The content that the operation stores, and where. -/
def writes (operation : Operation) : Option (FilePath × Bytes) :=
  match operation with
  | .createFile _ contents _ => (operation.creates host).map (·, contents)
  | .createBinaryFile _ contents _ => (operation.creates host).map (·, contents)
  | .replaceFile _ contents _ => (operation.replaces host).map (·, contents)
  | _ => none

end Operation

/-- An operation that replaces no file under a temporary name. -/
structure Request (host : Host) where
  operation : Operation
  plain : ∀ path, operation.replaces host = some path → ¬IsTemporary host path

/-- What the operation does to the files that are stored, once it has returned. -/
def Request.effect {host : Host} (request : Request host) (_ : Answer) : Store host → Store host :=
  match request.operation.writes host with
  | some (path, contents) => Store.write path contents
  | none => id

/-- They may run at the same time: the first one replaces no file that the second one makes. -/
def Compatible {host : Host} (request request' : Request host) : Prop :=
  ∀ path, request'.operation.creates host = some path → request.operation.replaces host ≠ some path

/-- The node is a file with one name that the operation has made. -/
def Made (task : ℕ) (volume : Volume) (node : Node) : Prop :=
  ∃ id, node = .file id ∧ (volume.files id).creator = some task ∧ (volume.files id).linkCount = 1

/-- What an operation relies on: nobody else touches what it has made until it is done, what has
been brought to the disk stays as it is, and what is fixed stays where it is. -/
structure Relies (host : Host) (task : ℕ) (creates : Option FilePath) (volume volume' : Volume) :
    Prop where
  valid : volume.Valid → volume'.Valid
  creators : ∀ id, (volume'.files id).creator = some task → (volume.files id).creator = some task
  own_files : ∀ id, (volume.files id).creator = some task → volume'.files id = volume.files id
  own_entries : ∀ path id, volume.node path = some (.file id) →
    (volume.files id).creator = some task → IsTemporary host path ∨ creates = some path →
      volume'.node path = some (.file id)
  no_new : ∀ path id, volume'.node path = some (.file id) → (volume'.files id).creator = some task →
    volume.node path = some (.file id)
  synced : ∀ id, id < volume.nextFile → (volume.files id).synced = true →
    volume'.files id = volume.files id
  counts : ∀ id, 1 < (volume'.files id).linkCount ↔ 1 < (volume.files id).linkCount
  fixed : ∀ path, volume.Fixed path ∨ volume'.Fixed path → volume'.node path = volume.node path
  next : volume.nextFile ≤ volume'.nextFile

/-- What a call of an operation may do: write to a file that it has made and that has not been
brought to the disk, make or remove a file of its own under a temporary name or under the one that
it creates, and put a file of its own in place of the one that it replaces. -/
structure Guarantees (host : Host) (task : ℕ) (creates replaces : Option FilePath)
    (volume volume' : Volume) : Prop where
  before : volume.Valid
  after : volume'.Valid
  files : ∀ id, volume'.files id = volume.files id ∨
    (volume'.files id).creator = some task ∧
      ((volume.files id).creator = some task ∧ (volume.files id).synced = false ∧
          (volume'.files id).linkCount = (volume.files id).linkCount ∨
        volume.nextFile ≤ id ∧ (volume'.files id).linkCount = 1)
  entries : ∀ path, volume'.node path = volume.node path ∨
    (IsTemporary host path ∨ creates = some path) ∧
      (∀ node, volume.node path = some node → Made task volume node) ∧
      (∀ node, volume'.node path = some node → Made task volume' node) ∨
    replaces = some path ∧ ¬volume.Fixed path ∧
      ∀ node, volume'.node path = some node → Made task volume' node
  next : volume.nextFile ≤ volume'.nextFile

/-- What an operation made itself is not fixed. -/
theorem Made.not_fixed {task : ℕ} {volume : Volume} {path : FilePath}
    (h : ∀ node, volume.node path = some node → Made task volume node) : ¬volume.Fixed path := by
  rintro ⟨node, hnode, hfixed⟩
  obtain ⟨id, rfl, -, hcount⟩ := h node hnode
  have hlt : 1 < (volume.files id).linkCount := hfixed
  omega

section Relies

variable {host : Host} {task : ℕ} {creates : Option FilePath} {volume volume' volume'' : Volume}

/-- The others may do nothing. -/
theorem Relies.refl (host : Host) (task : ℕ) (creates : Option FilePath) (volume : Volume) :
    Relies host task creates volume volume where
  valid h := h
  creators _ h := h
  own_files _ _ := rfl
  own_entries _ _ h _ _ := h
  no_new _ _ h _ := h
  synced _ _ _ := rfl
  counts _ := Iff.rfl
  fixed _ _ := rfl
  next := le_refl _

/-- What is fixed stays fixed. -/
theorem Relies.fixed_iff (h : Relies host task creates volume volume') (path : FilePath) :
    volume'.Fixed path ↔ volume.Fixed path := by
  have hkind : ∀ node, volume'.IsFixed node ↔ volume.IsFixed node := by
    intro node
    cases node with
    | file id => exact h.counts id
    | _ => exact Iff.rfl
  constructor
  · rintro hfixed
    have hsame := h.fixed path (.inr hfixed)
    obtain ⟨node, hnode, hfixed⟩ := hfixed
    rw [hsame] at hnode
    exact ⟨node, hnode, (hkind node).mp hfixed⟩
  · rintro hfixed
    have hsame := h.fixed path (.inl hfixed)
    obtain ⟨node, hnode, hfixed⟩ := hfixed
    exact ⟨node, hsame.trans hnode, (hkind node).mpr hfixed⟩

/-- What the others may do twice they may do at once. -/
theorem Relies.trans (h : Relies host task creates volume volume')
    (h' : Relies host task creates volume' volume'') :
    Relies host task creates volume volume'' where
  valid hvalid := h'.valid (h.valid hvalid)
  creators id hid := h.creators id (h'.creators id hid)
  own_files id hid := by
    have hsame := h.own_files id hid
    rw [h'.own_files id (by rw [hsame]; exact hid), hsame]
  own_entries path id hnode hid hpath :=
    h'.own_entries path id (h.own_entries path id hnode hid hpath)
      (by rw [h.own_files id hid]; exact hid) hpath
  no_new path id hnode hid :=
    h.no_new path id (h'.no_new path id hnode hid) (h'.creators id hid)
  synced id hid hsynced := by
    have hsame := h.synced id hid hsynced
    rw [h'.synced id (lt_of_lt_of_le hid h.next) (by rw [hsame]; exact hsynced), hsame]
  counts id := (h'.counts id).trans (h.counts id)
  fixed path hfixed := by
    -- What is fixed at one end is fixed in the middle.
    have hmiddle : volume'.Fixed path := by
      rcases hfixed with hfixed | hfixed
      · exact (h.fixed_iff path).mpr hfixed
      · exact (h'.fixed_iff path).mp hfixed
    rw [h'.fixed path (.inl hmiddle), h.fixed path (.inr hmiddle)]
  next := h.next.trans h'.next

/-- An operation guarantees what every other one relies on that may run at the same time. -/
theorem Guarantees.relies {other : ℕ} {created replaced : Option FilePath}
    (h : Guarantees host task created replaced volume volume') (hne : task ≠ other)
    (hplain : ∀ path, replaced = some path → ¬IsTemporary host path)
    (hcompatible : ∀ path, creates = some path → replaced ≠ some path) :
    Relies host other creates volume volume' := by
  have hothers : ∀ {creator}, creator = some other → creator ≠ some task := by
    rintro creator rfl hsame
    exact hne (Option.some.inj hsame).symm
  -- What a call changes was made by its own operation, or is new.
  have hown : ∀ id, (volume.files id).creator = some other →
    volume'.files id = volume.files id := by
    intro id hid
    rcases h.files id with hsame | ⟨-, ⟨hcreator, -⟩ | ⟨hle, -⟩⟩
    · exact hsame
    · exact absurd hcreator (hothers hid)
    · rw [(h.before.fresh id hle).1] at hid
      cases hid
  have hcreators : ∀ id, (volume'.files id).creator = some other →
      (volume.files id).creator = some other := by
    intro id hid
    rcases h.files id with hsame | ⟨hcreator, -⟩
    · rw [← hsame]
      exact hid
    · exact absurd hcreator (hothers hid)
  constructor
  case valid => exact fun _ => h.after
  case creators => exact hcreators
  case own_files => exact hown
  case own_entries =>
    intro path id hnode hid hpath
    rcases h.entries path with hsame | ⟨-, hmade, -⟩ | ⟨hreplaced, -, -⟩
    · exact hsame.trans hnode
    · obtain ⟨id', hid', hcreator, -⟩ := hmade _ hnode
      obtain rfl := Node.file.inj hid'
      exact absurd hcreator (hothers hid)
    · rcases hpath with htemporary | hcreates
      · exact absurd htemporary (hplain path hreplaced)
      · exact absurd hreplaced (hcompatible path hcreates)
  case no_new =>
    intro path id hnode hid
    have hmade : (∀ node, volume'.node path = some node → Made task volume' node) → False := by
      intro hmade
      obtain ⟨id', hid', hcreator, -⟩ := hmade _ hnode
      obtain rfl := Node.file.inj hid'
      exact hothers hid hcreator
    rcases h.entries path with hsame | ⟨-, -, hmade'⟩ | ⟨-, -, hmade'⟩
    · rw [← hsame]
      exact hnode
    · exact absurd hmade' hmade
    · exact absurd hmade' hmade
  case synced =>
    intro id hlt hsynced
    rcases h.files id with hsame | ⟨-, ⟨-, hunsynced, -⟩ | ⟨hle, -⟩⟩
    · exact hsame
    · rw [hsynced] at hunsynced
      cases hunsynced
    · omega
  case counts =>
    intro id
    rcases h.files id with hsame | ⟨-, ⟨-, -, hcount⟩ | ⟨hle, hcount⟩⟩
    · rw [hsame]
    · rw [hcount]
    · have hfresh := (h.before.fresh id hle).2
      omega
  case fixed =>
    intro path hfixed
    rcases h.entries path with hsame | ⟨-, hmade, hmade'⟩ | ⟨-, hloose, hmade'⟩
    · exact hsame
    · rcases hfixed with hfixed | hfixed
      · exact absurd hfixed (Made.not_fixed hmade)
      · exact absurd hfixed (Made.not_fixed hmade')
    · rcases hfixed with hfixed | hfixed
      · exact absurd hfixed hloose
      · exact absurd hfixed (Made.not_fixed hmade')
  case next => exact h.next

/-- The operation has made no file. -/
structure Untouched (task : ℕ) (volume : Volume) : Prop where
  valid : volume.Valid
  creator : ∀ id, (volume.files id).creator ≠ some task

/-- Nobody else makes a file for it. -/
theorem Untouched.relies (h : Untouched task volume)
    (hrelies : Relies host task creates volume volume') :
    Untouched task volume' where
  valid := hrelies.valid h.valid
  creator id hid := h.creator id (hrelies.creators id hid)

end Relies

/-! ## Questions -/

section Questions

variable {host : Host} {task : ℕ} {creates : Option FilePath} {guarantee : Volume → Volume → Prop}
  {holds : List (Volume × Volume) → Volume → Prop}

/-- Where there is no link on the way, none is put there. -/
theorem Relies.plain {volume volume' : Volume} (h : Relies host task creates volume volume')
    {path : FilePath} (hplain : volume.Plain path) : volume'.Plain path := by
  intro way hway target hlink
  have hsame := h.fixed way (.inr ⟨_, hlink, trivial⟩)
  exact hplain way hway target (hsame.symm.trans hlink)

/-- A path stays without a link, whatever the others do. -/
theorem steady_plain (path : FilePath) :
    Steady (Relies host task creates) fun _ volume => volume.Plain path :=
  steady_state fun _ _ h hplain => h.plain hplain

/-- The rule for a call of the system that only reads. -/
theorem triple_call (h : Steady (Relies host task creates) holds) {α : Type} (f : Volume → α) :
    Triple (Relies host task creates) guarantee holds (call f)
      (fun a past volume => holds past volume ∧ a = f volume ∧ (volume, volume) ∈ past)
      fun _ => holds := h.triple_ask

/-- The rule for a call that reads what may not be there. -/
theorem triple_find (h : Steady (Relies host task creates) holds)
    {α : Type} (f : Volume → Option α) :
    Triple (Relies host task creates) guarantee holds (find f)
      (fun a past volume => holds past volume ∧ f volume = some a ∧ (volume, volume) ∈ past)
      fun _ => holds := by
  apply triple_bind (triple_call h f)
  intro found
  cases found with
  | none => exact triple_throw fun _ _ hdone => hdone.1
  | some a => exact triple_pure fun _ _ hdone => ⟨hdone.1, hdone.2.1.symm, hdone.2.2⟩

/-- The walk along the names ends at a path without a link. -/
theorem walkNames_triple (h : Steady (Relies host task creates) holds) (current : FilePath)
    (names : List (List Char)) :
    Triple (Relies host task creates) guarantee
      (fun past volume => holds past volume ∧ volume.Plain current) (walkNames host current names)
      (fun path past volume => (holds past volume ∧ volume.Plain path) ∧
        path = current ++ host.path names) fun _ => holds := by
  -- By induction on the names, from any directory that was reached without a link.
  induction names generalizing current with
  | nil =>
    apply triple_pure
    intro past volume hholds
    exact ⟨hholds, (List.append_nil current).symm⟩
  | cons segment rest ih =>
    have hsteady := h.and (steady_plain current)
    apply triple_bind ((triple_find hsteady _).mono_error fun _ _ _ herror => herror.1)
    intro kind
    split
    · apply triple_throw
      rintro past volume ⟨⟨hholds, -⟩, -⟩
      exact hholds
    · rename_i hkind
      refine (ih (current ++ [host.key (.text segment)])).mono ?_ ?_ fun _ _ _ herror => herror
      -- The path was plain, and its next name is no link, so it is plain with that name.
      · rintro past volume ⟨⟨hholds, hplain⟩, hnode, -⟩
        refine ⟨hholds, fun way hway target hlink => ?_⟩
        rcases List.prefix_concat_iff.mp hway with rfl | hway
        · rw [hlink] at hnode
          exact hkind (Option.some.inj hnode).symm
        · exact hplain way hway target hlink
      · -- The names that were walked are those before and the rest.
        rintro path past volume ⟨hholds, rfl⟩
        refine ⟨hholds, ?_⟩
        rw [List.append_assoc]
        rfl

/-- The walk to what is there ends at the path of its names. -/
theorem walkExisting_triple (h : Steady (Relies host task creates) holds)
    (names : List (List Char)) :
    Triple (Relies host task creates) guarantee holds (walkExisting host names)
      (fun path past volume => (holds past volume ∧ volume.Plain path) ∧ path = host.path names)
      fun _ => holds := by
  have hroot : ∀ volume : Volume, volume.Plain [] := by
    intro volume way hway target hlink
    rw [List.prefix_nil.mp hway] at hlink
    cases hlink
  apply triple_bind ((walkNames_triple h [] names).mono
    (fun past volume hholds => ⟨hholds, hroot volume⟩) (fun _ _ _ hdone => hdone)
    fun _ _ _ herror => herror)
  intro current
  have hsteady := (h.and (steady_plain current)).and
    (steady_state fun _ _ _ (hcurrent : current = [] ++ host.path names) => hcurrent)
  apply triple_bind ((triple_find hsteady _).mono_error fun _ _ _ herror => herror.1.1)
  intro canonical
  cases canonical with
  | none =>
    -- The path leads to the outside.
    apply triple_throw
    rintro past volume ⟨⟨⟨hholds, -⟩, -⟩, -⟩
    exact hholds
  | some path =>
    apply triple_pure
    rintro past volume ⟨⟨⟨hholds, hplain⟩, rfl⟩, hcanonical, -⟩
    obtain rfl := Option.some.inj (volume.canonicalize_of_plain hplain hcanonical)
    exact ⟨⟨hholds, hplain⟩, rfl⟩

/-- What a target that was found is. -/
structure Found (host : Host) (path : String) (target : WorkspaceTarget)
    (volume : Volume) : Prop where
  names : relativeNames path = some target.relative
  resolved : target.resolved = host.path target.relative
  plain : volume.Plain target.resolved

/-- What was found of a path stays so. -/
theorem steady_found (path : String) (target : WorkspaceTarget) :
    Steady (Relies host task creates) fun _ volume => Found host path target volume :=
  steady_state fun _ _ h hfound => ⟨hfound.names, hfound.resolved, h.plain hfound.plain⟩

/-- The target that is there has been found under its path. -/
theorem existingTarget_triple (h : Steady (Relies host task creates) holds) (path : String) :
    Triple (Relies host task creates) guarantee holds (existingTarget host path)
      (fun target past volume => holds past volume ∧ Found host path target volume)
      fun _ => holds := by
  refine triple_ofOption_bind (fun names hnames => ?_) fun _ _ _ hholds => hholds
  apply triple_bind (walkExisting_triple h names)
  intro resolved
  apply triple_pure
  rintro past volume ⟨⟨hholds, hplain⟩, rfl⟩
  exact ⟨hholds, hnames, rfl, hplain⟩

/-- A target that exists and is of the kind that is asked for. -/
theorem existingKind_triple (h : Steady (Relies host task creates) holds) (path : String)
    (kind : WorkspaceEntryKind) (e : WorkspaceBoundaryError) :
    Triple (Relies host task creates) guarantee holds
      (do
        let target ← existingTarget host path
        let found ← find fun volume => (volume.node target.resolved).map Node.kind
        if found = kind then pure target else Routine.throw e)
      (fun target past volume => holds past volume ∧ Found host path target volume)
      fun _ => holds := by
  apply triple_bind (existingTarget_triple h path)
  intro target
  have hsteady := h.and (steady_found path target)
  apply triple_bind ((triple_find hsteady _).mono_error fun _ _ _ herror => herror.1)
  intro found
  split
  · exact triple_pure fun _ _ hdone => hdone.1
  · exact triple_throw fun _ _ hdone => hdone.1.1

/-- A file that is there has been found under its path. -/
theorem existingFile_triple (h : Steady (Relies host task creates) holds) (path : String) :
    Triple (Relies host task creates) guarantee holds (existingFile host path)
      (fun target past volume => holds past volume ∧ Found host path target volume)
      fun _ => holds := existingKind_triple h path .file .notFile

/-- A directory that is there has been found under its path. -/
theorem existingDirectory_triple (h : Steady (Relies host task creates) holds) (path : String) :
    Triple (Relies host task creates) guarantee holds (existingDirectory host path)
      (fun target past volume => holds past volume ∧ Found host path target volume)
      fun _ => holds := existingKind_triple h path .directory .notDirectory

/-- The target of a new file has the names of its path. -/
theorem newFile_triple (h : Steady (Relies host task creates) holds) (path : String) :
    Triple (Relies host task creates) guarantee holds (newFile host path)
      (fun target past volume => holds past volume ∧ relativeNames path = some target.relative)
      fun _ => holds := by
  refine triple_ofOption_bind (fun names hnames => ?_) fun _ _ _ hholds => hholds
  apply triple_bind ((walkExisting_triple h names.dropLast).mono_done fun _ _ _ hdone => hdone.1.1)
  intro resolvedParent
  apply triple_bind ((triple_find h _).mono_done fun _ _ _ hdone => hdone.1)
  intro kind
  refine triple_refuse_bind (fun _ _ _ hholds => hholds) fun _ => ?_
  refine triple_ofOption_bind (fun fileName _ => ?_) fun _ _ _ hholds => hholds
  apply triple_bind ((triple_call h _).mono_done fun _ _ _ hdone => hdone.1)
  intro present
  split
  · exact triple_throw fun _ _ hholds => hholds
  · exact triple_throw fun _ _ hholds => hholds
  · exact triple_pure fun _ _ hholds => ⟨hholds, hnames⟩

/-- The directory of a listing is the target of the operation. -/
theorem listingDirectory_triple (h : Steady (Relies host task creates) holds) (path : String)
    (picks : List ℕ) :
    Triple (Relies host task creates) guarantee holds (listingDirectory host path)
      (fun target past volume => holds past volume ∧
        (Operation.listDirectory path picks).target host = some (host.path target.relative) ∧
          target.resolved = host.path target.relative ∧ volume.Plain target.resolved)
      fun _ => holds := by
  have htarget : (Operation.listDirectory path picks).target host =
      if isCurrentDirectory path = true then some [] else (relativeNames path).map host.path := rfl
  unfold listingDirectory
  split
  · rename_i hcurrent
    apply triple_pure
    intro past volume hholds
    refine ⟨hholds, ?_, rfl, fun way hway target hlink => ?_⟩
    · rw [htarget, if_pos hcurrent]
      rfl
    · rw [List.prefix_nil.mp hway] at hlink
      cases hlink
  · rename_i hcurrent
    refine (existingDirectory_triple h path).mono (fun _ _ hholds => hholds) ?_ fun _ _ _ herror =>
      herror
    rintro target past volume ⟨hholds, hfound⟩
    refine ⟨hholds, ?_, hfound.resolved, hfound.plain⟩
    rw [htarget, if_neg hcurrent, hfound.names]
    rfl

end Questions

/-! ## Reading -/

section Reading

variable {host : Host} {task : ℕ} {creates : Option FilePath} {guarantee : Volume → Volume → Prop}
  {holds : List (Volume × Volume) → Volume → Prop}

/-- What was read is what the file had when it was opened, unless it was not finished then. -/
def ReadBack (task : ℕ) (path : FilePath) (contents : Bytes)
    (past : List (Volume × Volume)) : Prop :=
  contents.length ≤ maximumFileBytes ∧ ∃ made ∈ past, made.1.Plain path ∧ ¬made.1.Fixed path ∧
    (made.1.stored path = some contents ∨ made.1.Unfinished task path)

/-- The file that was opened, and what is the same of it now. -/
structure Opened (task : ℕ) (path : FilePath) (id : ℕ) (before volume : Volume) : Prop where
  node : before.node path = some (.file id)
  plain : before.Plain path
  creator : (before.files id).creator ≠ some task
  known : id < volume.nextFile
  synced : (before.files id).synced = true → volume.files id = before.files id
  count : 1 < (volume.files id).linkCount ↔ 1 < (before.files id).linkCount

/-- A file that was opened stays the one that was opened. -/
theorem Opened.relies {path : FilePath} {id : ℕ} {before volume volume' : Volume}
    (h : Opened task path id before volume) (hrelies : Relies host task creates volume volume') :
    Opened task path id before volume' where
  node := h.node
  plain := h.plain
  creator := h.creator
  known := lt_of_lt_of_le h.known hrelies.next
  synced hsynced := by
    have hsame := h.synced hsynced
    rw [hrelies.synced id h.known (by rw [hsame]; exact hsynced), hsame]
  count := (hrelies.counts id).trans h.count

/-- What is opened where no link is on the way is what is under the path. -/
theorem Volume.node_of_opened {volume : Volume} {path : FilePath} {node : Node}
    (hplain : volume.Plain path) (h : volume.opened path = some node) :
    volume.node path = some node := by
  obtain ⟨target, htarget, hnode⟩ := Option.bind_eq_some_iff.mp h
  obtain rfl :=
    Option.some.inj (volume.canonicalize_of_plain hplain (Option.join_eq_some_iff.mp htarget))
  exact hnode

/-- What a file with a single name holds that was opened was stored when it was opened, or the file
was not finished then. -/
theorem Opened.stored {path : FilePath} {id : ℕ} {before volume : Volume}
    (h : Opened task path id before volume) (hsingle : ¬1 < (volume.files id).linkCount) :
    ¬before.Fixed path ∧
      (before.stored path = some (volume.files id).content ∨ before.Unfinished task path) := by
  constructor
  · rintro ⟨node, hnode, hfixed⟩
    rw [h.node] at hnode
    obtain rfl := Option.some.inj hnode
    exact hsingle (h.count.mpr hfixed)
  · rcases hsynced : (before.files id).synced with _ | _
    · exact .inr ⟨id, h.node, hsynced, h.creator⟩
    · left
      unfold Volume.stored
      rw [h.node, h.synced hsynced]
      simp only [hsynced, if_true]

/-- What is read was stored at one of the calls, namely when the file was opened. -/
theorem readFile_triple (h : Steady (Relies host task creates) holds)
    (huntouched : ∀ past volume, holds past volume → Untouched task volume) (path : String) :
    Triple (Relies host task creates) guarantee holds (readFile host path)
      (fun contents past volume => holds past volume ∧ ∃ names, relativeNames path = some names ∧
        ReadBack task (host.path names) contents past) fun _ => holds := by
  apply triple_bind (existingFile_triple h path)
  intro target
  have hsteady := h.and (steady_found path target)
  apply triple_bind ((triple_find hsteady _).mono_error fun _ _ _ herror => herror.1)
  intro node
  split
  case h_2 =>
    apply triple_bind ((triple_call h _).mono (fun _ _ hholds => hholds.1.1)
      (fun _ _ _ hdone => hdone.1) fun _ _ _ herror => herror)
    exact fun _ => triple_throw fun _ _ hholds => hholds
  case h_1 id =>
    -- From here on what the file was when it was opened is carried along.
    have hopened := hsteady.and (steady_call fun before _ _ hrelies
      (hseen : Opened task (host.path target.relative) id before _) => hseen.relies hrelies)
    apply triple_bind ((triple_call hopened _).mono ?_ (fun _ _ _ hdone => hdone)
      fun _ _ _ herror => herror.1.1)
    rotate_left
    · rintro past volume ⟨⟨hholds, hfound⟩, hnode, hmem⟩
      have hplain := hfound.plain
      rw [hfound.resolved] at hplain
      have hnode' := volume.node_of_opened hplain hnode
      have hnone := huntouched past volume hholds
      exact ⟨⟨hholds, hfound⟩, _, hmem, hnode', hplain, hnone.creator id,
        hnone.valid.named _ _ hnode', fun _ => rfl, Iff.rfl⟩
    intro metadata
    refine triple_refuse_bind (fun _ _ _ hholds => hholds.1.1.1) fun hcount => ?_
    refine triple_refuse_bind (fun _ _ _ hholds => hholds.1.1.1) fun _ => ?_
    -- That the file has one name stays so until it is read.
    have hsingle := hopened.and (steady_state fun volume _ hrelies
      (hone : ¬1 < (volume.files id).linkCount) hmore => hone ((hrelies.counts id).mp hmore))
    apply triple_bind ((triple_call hsingle _).mono ?_ (fun _ _ _ hdone => hdone)
      fun _ _ _ herror => herror.1.1.1)
    rotate_left
    · rintro past volume ⟨hholds, rfl, -⟩
      exact ⟨hholds, by simpa using hcount⟩
    intro contents
    refine triple_refuse_bind (fun _ _ _ hholds => hholds.1.1.1.1) fun hlength => ?_
    apply triple_pure
    rintro past volume ⟨⟨⟨⟨hholds, hfound⟩, made, hmade, hseen⟩, hone⟩, rfl, -⟩
    -- The bound is on what was read, one byte more than may be read at most.
    rw [decide_eq_false_iff_not, List.length_take] at hlength
    have hfits : (volume.files id).content.length ≤ maximumFileBytes := by omega
    rw [List.take_of_length_le (by omega)]
    exact ⟨hholds, _, hfound.names, hfits, made, hmade, hseen.plain, hseen.stored hone⟩

/-! ## Listing -/

/-- What is so of a directory that is being read. -/
structure Listing (path : FilePath) (dir : ReadDir) (past : List (Volume × Volume)) : Prop where
  opened : dir.path = path
  found : ∀ name ∈ dir.found, ∃ made ∈ past,
    made.1.Plain path ∧ name ∈ (made.1.children path).map Entry.name
  stayed : ∀ entry, (∀ made ∈ past, entry ∈ made.1.children path) → entry ∈ dir.stayed
  given : ∀ name ∈ dir.given, name ∈ dir.found
  /-- The name of an entry that has stayed is given at most once. -/
  once : ∀ entry ∈ dir.stayed, dir.given.count entry.name ≤ 1

/-- Calls to something else change nothing of it. -/
theorem Listing.append {path : FilePath} {dir : ReadDir} {past : List (Volume × Volume)}
    (h : Listing path dir past) (made : Volume × Volume) : Listing path dir (past ++ [made]) where
  opened := h.opened
  found name hname := by
    obtain ⟨made', hmade, hseen⟩ := h.found name hname
    exact ⟨made', List.mem_append_left _ hmade, hseen⟩
  stayed entry hentry := h.stayed entry fun made' hmade =>
    hentry made' (List.mem_append_left _ hmade)
  given := h.given
  once := h.once

/-- The entries that have stayed are those that had and that are still there. -/
theorem Volume.mem_nextEntry_stayed {volume : Volume} {pick : Option ℕ}
    {dir : ReadDir} {entry : Entry} :
    entry ∈ (volume.nextEntry pick dir).2.stayed ↔
      entry ∈ dir.stayed ∧ entry ∈ volume.children dir.path := by
  refine List.mem_filter.trans (and_congr_right fun _ => ?_)
  exact decide_eq_true_iff

/-- The next name is one that was found, and none that was given of an entry that has stayed. -/
theorem Volume.nextEntry_some {volume : Volume} {pick : Option ℕ} {dir : ReadDir} {name : FileName}
    (h : (volume.nextEntry pick dir).1 = some name) :
    name ∈ (volume.nextEntry pick dir).2.found ∧
      (name ∈ (volume.nextEntry pick dir).2.stayed.map Entry.name → name ∉ dir.given) := by
  have hnext : (pick.bind fun n => ((volume.nextEntry pick dir).2.found.filter fun name =>
        name ∉ (volume.nextEntry pick dir).2.stayed.map Entry.name ∨ name ∉ dir.given)[n]?) =
          some name ∨
      ((volume.nextEntry pick dir).2.stayed.map Entry.name).find? (· ∉ dir.given) = some name := by
    rcases Option.or_eq_some_iff.mp h with hpicked | ⟨-, hstayed⟩
    · exact .inl hpicked
    · exact .inr hstayed
  rcases hnext with hpicked | hstayed
  · obtain ⟨n, -, hname⟩ := Option.bind_eq_some_iff.mp hpicked
    obtain ⟨hfound, hopen⟩ := List.mem_filter.mp (List.mem_of_getElem? hname)
    have hopen' := of_decide_eq_true hopen
    exact ⟨hfound, fun hstay => hopen'.resolve_left fun hnot => hnot hstay⟩
  · obtain ⟨entry, hstay, rfl⟩ := List.mem_map.mp (List.mem_of_find?_eq_some hstayed)
    have hfresh : entry.name ∉ dir.given := by simpa using List.find?_some hstayed
    exact ⟨List.mem_append_right _ (List.mem_map_of_mem (Volume.mem_nextEntry_stayed.mp hstay).2),
      fun _ => hfresh⟩

/-- A directory ends after the names of all the entries that have stayed. -/
theorem Volume.nextEntry_none {volume : Volume} {pick : Option ℕ} {dir : ReadDir}
    (h : (volume.nextEntry pick dir).1 = none) :
    ∀ entry ∈ (volume.nextEntry pick dir).2.stayed,
      entry.name ∈ (volume.nextEntry pick dir).2.given := by
  intro entry hentry
  have hnone : ((volume.nextEntry pick dir).2.stayed.map Entry.name).find? (· ∉ dir.given) = none :=
    (Option.or_eq_none_iff.mp h).2
  have hgiven := List.find?_eq_none.mp hnone entry.name (List.mem_map_of_mem hentry)
  exact List.mem_append_right _ (by simpa using hgiven)

/-- The call that gives the next name reads more of the directory. -/
theorem Listing.next {path : FilePath} {dir : ReadDir} {past : List (Volume × Volume)}
    (h : Listing path dir past) {volume : Volume} (hplain : volume.Plain path) (pick : Option ℕ) :
    Listing path (volume.nextEntry pick dir).2 (past ++ [(volume, volume)]) := by
  have hopened := h.opened
  have hgiven : (volume.nextEntry pick dir).2.given =
      (volume.nextEntry pick dir).1.toList ++ dir.given := rfl
  refine ⟨hopened, fun name hname => ?_, fun entry hentry => ?_, fun name hname => ?_,
    fun entry hentry => ?_⟩
  -- The names that were given before were seen before, and the new one is there now.
  · rcases List.mem_append.mp hname with hold | hnew
    · obtain ⟨made, hmade, hseen⟩ := h.found name hold
      exact ⟨made, List.mem_append_left _ hmade, hseen⟩
    · exact ⟨_, List.mem_append_right _ (List.mem_singleton_self _), hplain, hopened ▸ hnew⟩
  · have hhere := hentry (volume, volume) (List.mem_append_right _ (List.mem_singleton_self _))
    rw [← hopened] at hhere
    exact Volume.mem_nextEntry_stayed.mpr
      ⟨h.stayed entry fun made hmade => hentry made (List.mem_append_left _ hmade), hhere⟩
  · rw [hgiven] at hname
    rcases List.mem_append.mp hname with hnew | hold
    · exact (Volume.nextEntry_some (Option.mem_toList.mp hnew)).1
    · exact List.mem_append_left _ (h.given name hold)
  -- An entry that stays was to be given once, and is either given now or was before.
  · rw [hgiven, List.count_append]
    have honce := h.once entry (Volume.mem_nextEntry_stayed.mp hentry).1
    rcases hnext : (volume.nextEntry pick dir).1 with _ | given
    · rw [Option.toList_none, List.count_nil]
      omega
    · by_cases hsame : given = entry.name
      · -- It is given by this call, so it was not before.
        subst hsame
        have hfresh := (Volume.nextEntry_some hnext).2 (List.mem_map_of_mem hentry)
        rw [List.count_eq_zero.mpr hfresh, Option.toList_some, List.count_singleton_self]
      · rw [Option.toList_some, List.count_singleton, if_neg (by simpa using hsame)]
        omega

/-- Each entry was of its kind at one of the calls. -/
def KindsSeen (host : Host) (path : FilePath) (entries : List WorkspaceDirectoryEntry)
    (past : List (Volume × Volume)) : Prop :=
  ∀ entry ∈ entries, ∃ made ∈ past,
    (made.1.node (path ++ [host.key (.text entry.name.toList)])).map Node.kind = some entry.kind

/-- More calls change nothing of it. -/
theorem KindsSeen.append {path : FilePath} {entries : List WorkspaceDirectoryEntry}
    {past : List (Volume × Volume)} (h : KindsSeen host path entries past)
    (made : Volume × Volume) :
    KindsSeen host path entries (past ++ [made]) := by
  intro entry hentry
  obtain ⟨made', hmade, hkind⟩ := h entry hentry
  exact ⟨made', List.mem_append_left _ hmade, hkind⟩

/-- The names of the entries. -/
def entryNames (entries : List WorkspaceDirectoryEntry) : List FileName :=
  entries.map fun entry => .text entry.name.toList

/-- What the entries of a listing are, in whatever order. -/
structure Entered (host : Host) (path : FilePath) (entries : List WorkspaceDirectoryEntry)
    (past : List (Volume × Volume)) : Prop where
  entryCount : entries.length ≤ maximumDirectoryEntries
  listingBytes : (entries.map (·.name.utf8ByteSize)).sum ≤ maximumDirectoryListingBytes
  /-- Each name was in the directory at one of the calls. -/
  seen : ∀ name ∈ entryNames entries, ∃ made ∈ past,
    made.1.Plain path ∧ name ∈ (made.1.children path).map Entry.name
  /-- The name of an entry that was in the directory at all of the calls is listed once. -/
  stayed : ∀ entry, (∀ made ∈ past, entry ∈ made.1.children path) →
    (entryNames entries).count entry.name = 1
  kinds : KindsSeen host path entries past

/-- What a listing says. -/
structure Listed (host : Host) (path : FilePath) (entries : List WorkspaceDirectoryEntry)
    (past : List (Volume × Volume)) : Prop extends Entered host path entries past where
  sorted : entries.Pairwise fun left right => left.name ≤ right.name

/-- Of what the entries are, the order is no part. -/
theorem Entered.perm {path : FilePath} {entries entries' : List WorkspaceDirectoryEntry}
    {past : List (Volume × Volume)} (h : Entered host path entries past)
    (hperm : entries'.Perm entries) :
    Entered host path entries' past where
  entryCount := hperm.length_eq ▸ h.entryCount
  listingBytes := by
    rw [(hperm.map _).sum_eq]
    exact h.listingBytes
  seen name hname := h.seen name ((hperm.map _).mem_iff.mp hname)
  stayed entry hentry := ((hperm.map _).count_eq entry.name).trans (h.stayed entry hentry)
  kinds entry hentry := h.kinds entry (hperm.mem_iff.mp hentry)

/-- What the calls before say stays so with another call. -/
theorem steady_past {rely : Volume → Volume → Prop} {before : List (Volume × Volume) → Prop}
    (h : ∀ past made, before past → before (past ++ [made])) :
    Steady rely fun past _ => before past where
  stable _ _ _ _ hbefore := hbefore
  asks past s hbefore := h past (s, s) hbefore

/-- At the end of the directory, the names that were given are those of the entries. -/
theorem Listing.entered {path : FilePath} {dir : ReadDir} {past : List (Volume × Volume)}
    (h : Listing path dir past) (hend : ∀ entry ∈ dir.stayed, entry.name ∈ dir.given)
    {entries : List WorkspaceDirectoryEntry} (hnames : entryNames entries = dir.given.reverse)
    (hcount : entries.length ≤ maximumDirectoryEntries)
    (hbytes : (entries.map (·.name.utf8ByteSize)).sum ≤ maximumDirectoryListingBytes)
    (hkinds : KindsSeen host path entries past) : Entered host path entries past where
  entryCount := hcount
  listingBytes := hbytes
  seen name hname := by
    rw [hnames, List.mem_reverse] at hname
    exact h.found name (h.given name hname)
  stayed entry hentry := by
    have hstayed := h.stayed entry hentry
    have hpos := List.count_pos_iff.mpr (hend entry hstayed)
    have honce := h.once entry hstayed
    rw [hnames, List.count_reverse]
    omega
  kinds := hkinds

/-- The call that gives the next name of a directory, which fails with `e`. -/
theorem nextEntry_triple (h : Steady (Relies host task creates) holds)
    {path : FilePath} {dir : ReadDir}
    {entries : List WorkspaceDirectoryEntry} (pick : Option ℕ) (e : WorkspaceBoundaryError) :
    Triple (Relies host task creates) guarantee
      (fun past volume => (holds past volume ∧ volume.Plain path) ∧ Listing path dir past ∧
        KindsSeen host path entries past)
      (Routine.ask e (·.nextEntry pick dir))
      (fun read past volume => (holds past volume ∧ volume.Plain path) ∧ Listing path read.2 past ∧
        (read.1 = none → ∀ entry ∈ read.2.stayed, entry.name ∈ read.2.given) ∧
        read.2.given = read.1.toList ++ dir.given ∧ KindsSeen host path entries past)
      fun _ => holds := by
  have hsteady := h.and (steady_plain path)
  apply Routine.triple_ask
  · exact fun past volume volume' hrelies hholds =>
      ⟨hsteady.stable past volume volume' hrelies hholds.1, hholds.2⟩
  · intro past volume hholds
    exact ⟨hsteady.asks past volume hholds.1, hholds.2.1.next hholds.1.2 pick,
      Volume.nextEntry_none, rfl, hholds.2.2.append _⟩
  · exact fun past volume hholds => h.asks past volume hholds.1.1

/-- The loop returns the entries when the directory ends. -/
theorem listEntries_end {resolved : FilePath} {dir : ReadDir} {read : Option FileName × ReadDir}
    {entries : List WorkspaceDirectoryEntry} (hend : read.1 = none)
    (hnames : entryNames entries = dir.given.reverse)
    (hcount : entries.length ≤ maximumDirectoryEntries)
    (hbytes : (entries.map (·.name.utf8ByteSize)).sum ≤ maximumDirectoryListingBytes) :
    Triple (Relies host task creates) guarantee
      (fun past volume => (holds past volume ∧ volume.Plain resolved) ∧
        Listing resolved read.2 past ∧
        (read.1 = none → ∀ entry ∈ read.2.stayed, entry.name ∈ read.2.given) ∧
        read.2.given = read.1.toList ++ dir.given ∧ KindsSeen host resolved entries past)
      (pure entries : FileRoutine (List WorkspaceDirectoryEntry))
      (fun result past volume => holds past volume ∧ Entered host resolved result past)
      fun _ => holds := by
  apply triple_pure
  intro past volume hholds
  obtain ⟨⟨hholds, -⟩, hlisting, hlast, hgiven, hkinds⟩ := hholds
  rw [hend, Option.toList_none, List.nil_append] at hgiven
  rw [← hgiven] at hnames
  exact ⟨hholds, hlisting.entered (hlast hend) hnames hcount hbytes hkinds⟩

/-- The loop lists the names that the directory gives, each with a kind that it had. -/
theorem listEntries_triple (h : Steady (Relies host task creates) holds)
    (resolved : FilePath) (room : ℕ)
    (picks : List ℕ) (dir : ReadDir) (entries : List WorkspaceDirectoryEntry) (listingBytes : ℕ)
    (hnames : entryNames entries = dir.given.reverse)
    (hbytes : listingBytes = (entries.map (·.name.utf8ByteSize)).sum)
    (hfits : listingBytes ≤ maximumDirectoryListingBytes)
    (hroom : entries.length + room = maximumDirectoryEntries) :
    Triple (Relies host task creates) guarantee
      (fun past volume => (holds past volume ∧ volume.Plain resolved) ∧ Listing resolved dir past ∧
        KindsSeen host resolved entries past)
      (listEntries host resolved room picks dir entries listingBytes)
      (fun result past volume => holds past volume ∧ Entered host resolved result past)
      fun _ => holds := by
  induction room generalizing picks dir entries listingBytes with
  | zero =>
    apply triple_bind (nextEntry_triple h picks.head? _)
    intro read
    split
    · rename_i hend
      exact listEntries_end hend hnames (by omega) (hbytes ▸ hfits)
    · exact triple_throw fun _ _ hholds => hholds.1.1
  | succ room ih =>
    apply triple_bind (nextEntry_triple h picks.head? _)
    intro read
    split
    · rename_i hend
      exact listEntries_end hend hnames (by omega) (hbytes ▸ hfits)
    · exact triple_throw fun _ _ hholds => hholds.1.1
    · rename_i chars hnext
      refine triple_refuse_bind (fun _ _ _ hholds => hholds.1.1) fun hsize => ?_
      rw [decide_eq_false_iff_not] at hsize
      have hread : Steady (Relies host task creates) fun past volume =>
          (holds past volume ∧ volume.Plain resolved) ∧ Listing resolved read.2 past ∧
            read.2.given = read.1.toList ++ dir.given ∧ KindsSeen host resolved entries past :=
        (h.and (steady_plain resolved)).and (steady_past fun past made hpast =>
          ⟨hpast.1.append made, hpast.2.1, hpast.2.2.append made⟩)
      apply triple_bind ((triple_find hread _).mono ?_ (fun _ _ _ hdone => hdone)
        fun _ _ _ herror => herror.1.1)
      rotate_left
      · exact fun past volume hholds =>
          ⟨hholds.1, hholds.2.1, hholds.2.2.2.1, hholds.2.2.2.2⟩
      intro kind past volume hholds
      obtain ⟨⟨hheld, hlisting, hgiven, hkinds⟩, hkind, hmem⟩ := hholds
      rw [hnext, Option.toList_some] at hgiven
      -- Both limits were checked before the entry is added.
      have hnames' : entryNames (entries ++ [⟨String.ofList chars, kind⟩]) =
        read.2.given.reverse := by
        rw [hgiven, List.reverse_append, ← hnames, entryNames, List.map_append, List.map_singleton,
          String.toList_ofList]
        rfl
      refine ih picks.tail read.2 (entries ++ [⟨String.ofList chars, kind⟩])
        (listingBytes + (String.ofList chars).utf8ByteSize) hnames' ?_ (by omega) ?_ past volume
        ⟨hheld, hlisting, fun entry hentry => ?_⟩
      · rw [hbytes, List.map_append, List.sum_append, List.map_singleton, List.sum_singleton]
      · rw [List.length_append, List.length_singleton]
        omega
      · rcases List.mem_append.mp hentry with hold | hnew
        · exact hkinds entry hold
        · obtain rfl := List.mem_singleton.mp hnew
          refine ⟨_, hmem, ?_⟩
          rw [String.toList_ofList]
          exact hkind

/-- What a directory is read from begins with what is in it. -/
theorem listing_opened {volume : Volume} {path : FilePath} {dir : ReadDir}
    (hplain : volume.Plain path)
    (hread : volume.readDir path = some dir) {past : List (Volume × Volume)}
    (hmem : (volume, volume) ∈ past) : Listing path dir past ∧ dir.given = [] := by
  obtain ⟨target, htarget, hdir⟩ := Option.bind_eq_some_iff.mp hread
  obtain rfl :=
    Option.some.inj (volume.canonicalize_of_plain hplain (Option.join_eq_some_iff.mp htarget))
  split at hdir
  · cases hdir
    exact ⟨⟨rfl, fun name hname => ⟨_, hmem, hplain, hname⟩, fun name hname => hname _ hmem,
      fun name hname => absurd hname List.not_mem_nil, fun entry _ => Nat.zero_le _⟩, rfl⟩
  · cases hdir

/-- A listing has the entries that the directory gives, in order. -/
theorem listDirectory_triple (h : Steady (Relies host task creates) holds) (path : String)
    (picks : List ℕ) :
    Triple (Relies host task creates) guarantee holds (listDirectory host path picks)
      (fun entries past volume => holds past volume ∧ ∃ target,
        (Operation.listDirectory path picks).target host = some target ∧
          Listed host target entries past)
      fun _ => holds := by
  apply triple_bind (listingDirectory_triple h path picks)
  intro target
  have hfound : Steady (Relies host task creates) fun past volume => holds past volume ∧
      (Operation.listDirectory path picks).target host = some (host.path target.relative) ∧
        target.resolved = host.path target.relative ∧ volume.Plain target.resolved :=
    h.and (steady_state fun _ _ hrelies hfound =>
      ⟨hfound.1, hfound.2.1, hrelies.plain hfound.2.2⟩)
  apply triple_bind ((triple_find hfound _).mono_error fun _ _ _ herror => herror.1)
  intro dir past volume hholds
  obtain ⟨⟨hholds, htarget, hresolved, hplain⟩, hread, hmem⟩ := hholds
  rw [← hresolved] at hread
  obtain ⟨hlisting, hgiven⟩ := listing_opened hplain hread hmem
  refine triple_bind (listEntries_triple h target.resolved maximumDirectoryEntries picks dir [] 0
    (by rw [hgiven]; rfl) rfl (Nat.zero_le _) (Nat.zero_add _)) (fun entries => ?_) past volume
    ⟨⟨hholds, hplain⟩, hlisting, fun _ hentry => absurd hentry List.not_mem_nil⟩
  apply triple_pure
  rintro past volume ⟨hholds, hentered⟩
  -- Sorting keeps the entries, so what holds of all of them holds afterwards.
  have htrans : IsTrans WorkspaceDirectoryEntry fun left right => left.name ≤ right.name :=
    ⟨fun _ _ _ => le_trans⟩
  have htotal : Std.Total fun left right : WorkspaceDirectoryEntry => left.name ≤ right.name :=
    ⟨fun _ _ => le_total _ _⟩
  have hperm := List.perm_insertionSort
    (fun left right : WorkspaceDirectoryEntry => left.name ≤ right.name) entries
  exact ⟨hholds, _, hresolved ▸ htarget, hentered.perm hperm, List.pairwise_insertionSort _ _⟩

end Reading

end Mio.Broker.WorkspaceFiles
