import Mio.Broker.WorkspaceFileRuns

/-!
# Writing to the files of a workspace

An operation that creates or replaces a file makes a file of its own, writes to it, and brings its
content to the disk. Until its last call nothing is seen of that: the new file is empty or
unfinished, or it is under a temporary name. The last call stores the whole content, and if it fails
nothing is stored (`createWithin_triple`, `replaceFile_triple`).
-/

namespace Mio.Broker.WorkspaceFiles

open Library Routine

/-! ## The file that an operation makes -/

/-- The operation has made the file, which is under the path and under no other one. -/
structure Held (task : ℕ) (path : FilePath) (id : ℕ) (volume : Volume) : Prop where
  valid : volume.Valid
  node : volume.node path = some (.file id)
  creator : (volume.files id).creator = some task
  count : (volume.files id).linkCount = 1
  only : ∀ other, volume.node other = some (.file id) → other = path
  sole : ∀ other, (volume.files other).creator = some task → other = id

section Held

variable {host : Host} {task : ℕ} {creates : Option FilePath} (replaces : Option FilePath)
  {path : FilePath} {id : ℕ} {volume volume' : Volume}

/-- A file that an operation holds stays its own. -/
theorem Held.relies (h : Held task path id volume)
    (hpath : IsTemporary host path ∨ creates = some path)
    (hrelies : Relies host task creates volume volume') : Held task path id volume' := by
  have hsame := hrelies.own_files id h.creator
  constructor
  case valid => exact hrelies.valid h.valid
  case node => exact hrelies.own_entries path id h.node h.creator hpath
  case creator =>
    rw [hsame]
    exact h.creator
  case count =>
    rw [hsame]
    exact h.count
  case only =>
    intro other hother
    refine h.only other (hrelies.no_new other id hother ?_)
    rw [hsame]
    exact h.creator
  case sole => exact fun other hother => h.sole other (hrelies.creators other hother)

/-- What a file is like that was just made, and that nothing else has changed. -/
theorem createNew_eq_ok {name : FileName}
    (h : volume.createNew task path name = .ok (id, volume')) :
    path ≠ [] ∧ volume.node path = none ∧ id = volume.nextFile ∧
      (∀ other, volume'.node other = if other = path then some (.file id) else volume.node other) ∧
      (∀ other, volume'.files other =
        if other = id then ⟨[], 1, false, some task⟩ else volume.files other) ∧
      volume'.nextFile = volume.nextFile + 1 := by
  unfold Volume.createNew at h
  split at h
  · cases h
  · rename_i hnone
    have hnode : volume.node path = none := by simpa using hnone
    have hpath : path ≠ [] := by
      rintro rfl
      cases hnode
    split at h
    · cases h
    · cases h
      refine ⟨hpath, hnode, rfl, fun other => ?_, fun other => ?_, rfl⟩
      · exact volume.node_put hpath name _ other
      · exact Volume.files_setFile _ _ _ other

/-- A new file has a number that no file has. -/
theorem createNew_valid (hvalid : volume.Valid) {name : FileName}
    (hmade : volume.createNew task path name = .ok (id, volume')) : volume'.Valid := by
  obtain ⟨-, -, rfl, hnode, hfiles, hnext⟩ := createNew_eq_ok hmade
  constructor
  · intro other id hother
    rw [hnode] at hother
    split at hother
    · cases hother
      omega
    · have hlt := hvalid.named other id hother
      omega
  · intro id hid
    rw [hfiles, if_neg (by omega)]
    exact hvalid.fresh id (by omega)

/-- A file that is made is empty, and under one name. -/
theorem Untouched.held_createNew (h : Untouched task volume) {name : FileName}
    (hmade : volume.createNew task path name = .ok (id, volume')) :
    Held task path id volume' ∧ (volume'.files id).synced = false := by
  have hvalid := createNew_valid h.valid hmade
  obtain ⟨-, -, rfl, hnode, hfiles, -⟩ := createNew_eq_ok hmade
  have hself : volume'.files volume.nextFile = ⟨[], 1, false, some task⟩ := by
    rw [hfiles, if_pos rfl]
  refine ⟨⟨hvalid, ?_, ?_, ?_, fun other hother => ?_, fun other hother => ?_⟩, ?_⟩
  · rw [hnode, if_pos rfl]
  · rw [hself]
  · rw [hself]
  · rw [hnode] at hother
    split at hother
    · assumption
    · exact absurd (h.valid.named other _ hother) (lt_irrefl _)
  · rw [hfiles] at hother
    split at hother
    · assumption
    · exact absurd hother (h.creator other)
  · rw [hself]

/-- To make a file is within what an operation may do to the others. -/
theorem Untouched.guarantees_createNew (h : Untouched task volume) {name : FileName}
    (hpath : IsTemporary host path ∨ creates = some path)
    (hmade : volume.createNew task path name = .ok (id, volume')) :
    Guarantees host task creates replaces volume volume' := by
  have hvalid := createNew_valid h.valid hmade
  obtain ⟨-, hnone, rfl, hnode, hfiles, hnext⟩ := createNew_eq_ok hmade
  have hself : volume'.files volume.nextFile = ⟨[], 1, false, some task⟩ := by
    rw [hfiles, if_pos rfl]
  refine ⟨h.valid, hvalid, fun id => ?_, fun other => ?_, by omega⟩
  · by_cases hid : id = volume.nextFile
    · subst hid
      rw [hself]
      exact .inr ⟨rfl, .inr ⟨le_refl _, rfl⟩⟩
    · rw [hfiles, if_neg hid]
      exact .inl rfl
  · by_cases hother : other = path
    · subst hother
      refine .inr (.inl ⟨hpath, fun node hbefore => ?_, fun node hafter => ?_⟩)
      · rw [hnone] at hbefore
        cases hbefore
      · rw [hnode, if_pos rfl] at hafter
        cases hafter
        refine ⟨_, rfl, ?_, ?_⟩ <;> rw [hself]
    · rw [hnode, if_neg hother]
      exact .inl rfl

/-- A file that is made is not stored before it has been brought to the disk. -/
theorem Untouched.stores_createNew (h : Untouched task volume) {name : FileName}
    (hmade : volume.createNew task path name = .ok (id, volume')) :
    stores host volume' = stores host volume := by
  obtain ⟨-, hnone, rfl, hnode, hfiles, -⟩ := createNew_eq_ok hmade
  refine funext fun other => ?_
  obtain ⟨other, hplain⟩ := other
  show volume'.stored other = volume.stored other
  unfold Volume.stored
  rw [hnode]
  by_cases hother : other = path
  · -- There was nothing under the path, and what is there now is not on the disk.
    subst hother
    rw [if_pos rfl, hnone]
    simp only [hfiles, if_true, Bool.false_eq_true, if_false]
  · rw [if_neg hother]
    rcases hbefore : volume.node other with _ | node
    · rfl
    · cases node with
      | file other_id =>
        have hlt := h.valid.named other other_id hbefore
        simp only [hfiles, if_neg (Nat.ne_of_lt hlt)]
      | _ => rfl

/-- Until the file has been brought to the disk, the operation writes to it. -/
theorem Held.setFile (h : Held task path id volume) {data : FileData}
    (hcreator : data.creator = some task) (hcount : data.linkCount = 1) :
    Held task path id (volume.setFile id data) := by
  have hself : (volume.setFile id data).files id = data := by rw [Volume.files_setFile, if_pos rfl]
  have hlt := h.valid.named path id h.node
  refine ⟨⟨h.valid.named, fun other hother => ?_⟩, h.node, ?_, ?_, h.only, fun other hother => ?_⟩
  · have hle : volume.nextFile ≤ other := hother
    rw [Volume.files_setFile, if_neg (by omega)]
    exact h.valid.fresh other hle
  · rw [hself]
    exact hcreator
  · rw [hself]
    exact hcount
  · by_cases hsame : other = id
    · exact hsame
    · rw [Volume.files_setFile, if_neg hsame] at hother
      exact h.sole other hother

/-- To change a file of its own that is not on the disk is so too. -/
theorem Held.guarantees_setFile (h : Held task path id volume)
    (hsynced : (volume.files id).synced = false) {data : FileData}
    (hcreator : data.creator = some task) (hcount : data.linkCount = 1) :
    Guarantees host task creates replaces volume (volume.setFile id data) := by
  refine ⟨h.valid, (h.setFile hcreator hcount).valid, fun other => ?_, fun _ => .inl rfl, le_refl _⟩
  by_cases hother : other = id
  · subst hother
    rw [Volume.files_setFile, if_pos rfl]
    exact .inr ⟨hcreator, .inl ⟨h.creator, hsynced, hcount.trans h.count.symm⟩⟩
  · rw [Volume.files_setFile, if_neg hother]
    exact .inl rfl

/-- What is stored after a change of such a file. -/
theorem Held.stored_setFile (h : Held task path id volume) (data : FileData) (other : FilePath) :
    (volume.setFile id data).stored other =
      if other = path then (if data.synced then some data.content else none)
      else volume.stored other := by
  unfold Volume.stored
  rw [Volume.node_setFile]
  by_cases hother : other = path
  · rw [if_pos hother, hother, h.node]
    simp only [Volume.files_setFile, if_true]
  · rw [if_neg hother]
    rcases hnode : volume.node other with _ | node
    · rfl
    · cases node with
      | file other_id =>
        -- The file is under no other path.
        have hne : other_id ≠ id := by
          rintro rfl
          exact hother (h.only other hnode)
        simp only [Volume.files_setFile, if_neg hne]
      | _ => rfl

/-- A file that is not on the disk stores nothing. -/
theorem Held.stored_unsynced (h : Held task path id volume)
    (hsynced : (volume.files id).synced = false) :
    volume.stored path = none := by
  unfold Volume.stored
  rw [h.node]
  simp only [hsynced, Bool.false_eq_true, if_false]

/-- What is written is not stored before it has been brought to the disk. -/
theorem Held.stores_write (h : Held task path id volume)
    (hsynced : (volume.files id).synced = false)
    (contents : Bytes) : stores host (volume.write id contents) = stores host volume := by
  funext other
  refine (h.stored_setFile _ other.1).trans ?_
  split
  · rename_i hother
    rw [hsynced, if_neg Bool.false_ne_true]
    show none = volume.stored other.1
    rw [hother, h.stored_unsynced hsynced]
  · rfl

/-- The content is stored once it has been brought to the disk. -/
theorem Held.stores_sync (h : Held task path id volume) : stores host (volume.sync id) =
    Store.write path (volume.files id).content (stores host volume) :=
  funext fun other => h.stored_setFile _ other.1

/-- The operation removes the file. -/
theorem Held.erase (h : Held task path id volume)
    (hpath : IsTemporary host path ∨ creates = some path) :
    Guarantees host task creates replaces volume (volume.erase path) := by
  have hroot : path ≠ [] := by
    rintro rfl
    cases h.node
  -- The root cannot be removed, and it is no file.
  have hvalid : (volume.erase path).Valid := by
    refine ⟨fun other other_id hother => ?_, h.valid.fresh⟩
    rw [volume.node_erase hroot] at hother
    split at hother
    · cases hother
    · exact h.valid.named other other_id hother
  refine ⟨h.valid, hvalid, fun _ => .inl rfl, fun other => ?_, le_refl _⟩
  by_cases hother : other = path
  · subst hother
    refine .inr (.inl ⟨hpath, fun node hbefore => ?_, fun node hafter => ?_⟩)
    · rw [h.node] at hbefore
      cases hbefore
      exact ⟨id, rfl, h.creator, h.count⟩
    · rw [volume.node_erase hroot, if_pos rfl] at hafter
      cases hafter
  · rw [volume.node_erase hroot, if_neg hother]
    exact .inl rfl

/-- What is stored after an entry was removed. -/
theorem stored_erase (hroot : path ≠ []) (other : FilePath) :
    (volume.erase path).stored other = if other = path then none else volume.stored other := by
  unfold Volume.stored
  rw [volume.node_erase hroot]
  by_cases hother : other = path
  · rw [if_pos hother, if_pos hother]
  · rw [if_neg hother, if_neg hother]
    rfl

/-- What a rename does. -/
theorem rename_eq_ok {target : FilePath} {name : FileName} {node : Node}
    (hnode : volume.node path = some node)
    (h : volume.rename path target name = .ok ((), volume')) :
    volume' = (volume.erase path).put target name node := by
  unfold Volume.rename at h
  rw [hnode] at h
  generalize volume.node target = present at h
  rcases present with _ | (_ | _ | _ | _) <;> cases h <;> rfl

/-- The file is under its new name only, and is as it was. -/
theorem Held.volume_rename (h : Held task path id volume) {target : FilePath}
    (hloose : ¬volume.Fixed target) {name : FileName}
    (hmade : volume.rename path target name = .ok ((), volume')) :
    (∀ other, volume'.node other = if other = target then some (.file id)
      else if other = path then none else volume.node other) ∧
      volume'.files = volume.files ∧ volume'.nextFile = volume.nextFile := by
  have hroot : path ≠ [] := by
    rintro rfl
    cases h.node
  have htarget_root : target ≠ [] := by
    rintro rfl
    exact hloose ⟨.directory, rfl, trivial⟩
  rw [rename_eq_ok h.node hmade]
  refine ⟨fun other => ?_, rfl, rfl⟩
  rw [Volume.node_put _ htarget_root, Volume.node_erase _ hroot]

/-- The operation puts its file in place of another one. -/
theorem Held.guarantees_rename (h : Held task path id volume) (hpath : IsTemporary host path)
    {target : FilePath} (hloose : ¬volume.Fixed target) {name : FileName}
    (hmade : volume.rename path target name = .ok ((), volume')) :
    Guarantees host task creates (some target) volume volume' := by
  obtain ⟨hnode, hfiles, hnext⟩ := h.volume_rename hloose hmade
  -- A rename moves a name, so no identifier becomes new or old by it.
  have hvalid : volume'.Valid := by
    constructor
    · intro other other_id hother
      rw [hnode] at hother
      rw [hnext]
      split at hother
      · cases hother
        exact h.valid.named path id h.node
      · split at hother
        · cases hother
        · exact h.valid.named other other_id hother
    · intro other hother
      rw [hfiles]
      exact h.valid.fresh other (hnext ▸ hother)
  refine ⟨h.valid, hvalid, fun other => .inl (by rw [hfiles]), fun other => ?_, by rw [hnext]⟩
  -- The target has the file now, the source has nothing, and every other path is as it was.
  by_cases hother : other = target
  · subst hother
    refine .inr (.inr ⟨rfl, hloose, fun node hafter => ?_⟩)
    rw [hnode, if_pos rfl] at hafter
    cases hafter
    refine ⟨id, rfl, ?_, ?_⟩ <;> rw [hfiles]
    · exact h.creator
    · exact h.count
  · by_cases hsource : other = path
    · subst hsource
      refine .inr (.inl ⟨.inl hpath, fun node hbefore => ?_, fun node hafter => ?_⟩)
      · rw [h.node] at hbefore
        cases hbefore
        exact ⟨id, rfl, h.creator, h.count⟩
      · rw [hnode, if_neg hother, if_pos rfl] at hafter
        cases hafter
    · rw [hnode, if_neg hother, if_neg hsource]
      exact .inl rfl

/-- Its old name was a temporary one, so that what is seen is the new one. -/
theorem Held.stores_rename (h : Held task path id volume) (hpath : IsTemporary host path)
    {target : FilePath} (hloose : ¬volume.Fixed target) {name : FileName}
    (hmade : volume.rename path target name = .ok ((), volume'))
    (hsynced : (volume.files id).synced = true) : stores host volume' =
      Store.write target (volume.files id).content (stores host volume) := by
  obtain ⟨hnode, hfiles, -⟩ := h.volume_rename hloose hmade
  refine funext fun other => ?_
  obtain ⟨other, hplain⟩ := other
  show volume'.stored other = if other = target then some (volume.files id).content
    else volume.stored other
  unfold Volume.stored
  rw [hnode]
  by_cases hother : other = target
  · rw [if_pos hother, if_pos hother]
    simp only [hfiles, hsynced, if_true]
  · have hsource : other ≠ path := by
      rintro rfl
      exact hplain hpath
    rw [if_neg hother, if_neg hother, if_neg hsource, hfiles]

end Held

/-! ## Triples -/

section Writing

variable {host : Host} {task : ℕ} {creates replaces : Option FilePath} {path : FilePath} {id : ℕ}

/-- The operation has made the file, and nothing has been seen of it. -/
def Holding (host : Host) (task : ℕ) (path : FilePath) (id : ℕ) (now : FileData → Prop)
    (past : List (Volume × Volume)) (volume : Volume) : Prop :=
  Unmoved (stores host) past ∧ Held task path id volume ∧ now (volume.files id)

/-- Its content has not been brought to the disk. -/
def Unsynced (data : FileData) : Prop := data.synced = false

/-- The content is written, and not on the disk. -/
def HasWritten (contents : Bytes) (data : FileData) : Prop :=
  data.synced = false ∧ data.content = contents

/-- The content is on the disk. -/
def HasSynced (contents : Bytes) (data : FileData) : Prop :=
  data.synced = true ∧ data.content = contents

/-- What is known of a file of its own withstands the others. -/
theorem stable_holding (hpath : IsTemporary host path ∨ creates = some path)
    (now : FileData → Prop) :
    Stable (Relies host task creates) (Holding host task path id now) := by
  rintro past volume volume' hrelies ⟨hunmoved, hheld, hnow⟩
  refine ⟨hunmoved, hheld.relies hpath hrelies, ?_⟩
  rw [hrelies.own_files id hheld.creator]
  exact hnow

/-- The operation has made no file so far, and nothing has been seen of it. -/
structure Unseen (host : Host) (task : ℕ) (past : List (Volume × Volume))
    (volume : Volume) : Prop where
  unmoved : Unmoved (stores host) past
  untouched : Untouched task volume
  always : ∀ made ∈ past, Untouched task made.2

/-- A call keeps that, if it makes no file and nothing is seen of it. -/
theorem Unseen.concat {past : List (Volume × Volume)} {volume volume' : Volume}
    (h : Unseen host task past volume) (hstores : stores host volume' = stores host volume)
    (huntouched : Untouched task volume') :
    Unseen host task (past ++ [(volume, volume')]) volume' where
  unmoved := h.unmoved.concat hstores
  untouched := huntouched
  always made hmade := by
    rcases List.mem_append.mp hmade with hold | hnew
    · exact h.always made hold
    · obtain rfl := List.mem_singleton.mp hnew
      exact huntouched

/-- Neither the others nor a question break it. -/
theorem steady_unseen : Steady (Relies host task creates) (Unseen host task) where
  stable _ _ _ hrelies h := ⟨h.unmoved, h.untouched.relies hrelies, h.always⟩
  asks _ _ h := h.concat rfl h.untouched

/-- What the operation has made had been brought to the disk when its last call was over. -/
def Finished (task : ℕ) (past : List (Volume × Volume)) : Prop :=
  ∀ made, past.getLast? = some made → made.2.SyncedBy task

/-- So it is if the last call leaves the file on the disk. -/
theorem Held.finished {volume volume' : Volume} (h : Held task path id volume')
    (hsynced : (volume'.files id).synced = true) (past : List (Volume × Volume)) :
    Finished task (past ++ [(volume, volume')]) := by
  intro made hmade other hother
  rw [List.getLast?_concat] at hmade
  obtain rfl := Option.some.inj hmade
  rw [h.sole other hother]
  exact hsynced

/-- And if the operation makes no file. -/
theorem Unseen.finished {past : List (Volume × Volume)} {volume : Volume}
    (h : Unseen host task past volume) : Finished task past := by
  intro made hmade id hid
  exact absurd hid ((h.always made (List.mem_of_getLast? hmade)).creator id)

/-- An operation that makes a file holds it. -/
theorem createNew_triple (hpath : IsTemporary host path ∨ creates = some path) {name : FileName}
    {act : Volume → Except WorkspaceBoundaryError (ℕ × Volume)}
    (hact : ∀ volume id volume', act volume = .ok (id, volume') →
      volume.createNew task path name = .ok (id, volume')) :
    Triple (Relies host task creates) (Guarantees host task creates replaces)
      (Unseen host task)
      (Routine.invoke .unavailable act fun _ volume => volume)
      (fun id => Holding host task path id Unsynced) fun _ past _ =>
        Unmoved (stores host) past := by
  apply triple_invoke steady_unseen.stable
  · rintro past volume ⟨hunmoved, huntouched, -⟩ id volume' hmade
    have hcreated := hact volume id volume' hmade
    obtain ⟨hheld, hsynced⟩ := huntouched.held_createNew hcreated
    exact ⟨.inr (huntouched.guarantees_createNew replaces hpath hcreated),
      hunmoved.concat (huntouched.stores_createNew hcreated), hheld, hsynced⟩
  · exact fun past volume h _ _ => h.1.concat rfl
  · exact fun past volume h _ => ⟨.inl rfl, h.1.concat rfl⟩

/-- Whatever a call writes, nothing is seen of it. -/
theorem Holding.write {past : List (Volume × Volume)} {volume : Volume}
    (h : Holding host task path id Unsynced past volume) (contents : Bytes) :
    Holding host task path id (HasWritten contents) (past ++ [(volume, volume.write id contents)])
      (volume.write id contents) := by
  obtain ⟨hunmoved, hheld, hsynced⟩ := h
  have hself : (volume.write id contents).files id = { volume.files id with content := contents } :=
    (Volume.files_setFile ..).trans (if_pos rfl)
  refine ⟨hunmoved.concat (hheld.stores_write hsynced contents),
    hheld.setFile hheld.creator hheld.count, ?_⟩
  rw [hself]
  exact ⟨hsynced, rfl⟩

/-- To write to a file of its own is within what it may do. -/
theorem Holding.guarantees_write {past : List (Volume × Volume)} {volume : Volume}
    (h : Holding host task path id Unsynced past volume) (contents : Bytes) :
    Guarantees host task creates replaces volume (volume.write id contents) :=
  h.2.1.guarantees_setFile replaces h.2.2 h.2.1.creator h.2.1.count

/-- A file that was written to is not on the disk. -/
theorem Holding.unsynced {past : List (Volume × Volume)} {volume : Volume} {contents : Bytes}
    (h : Holding host task path id (HasWritten contents) past volume) :
    Holding host task path id Unsynced past volume := ⟨h.1, h.2.1, h.2.2.1⟩

/-- One call that writes, whatever a fault lets it write. -/
theorem write_triple (hpath : IsTemporary host path ∨ creates = some path) (contents : Bytes)
    (torn : ℕ → Bytes) :
    Triple (Relies host task creates) (Guarantees host task creates replaces)
      (Holding host task path id Unsynced)
      (Routine.invoke WorkspaceBoundaryError.unavailable
        (fun volume : Volume => .ok ((), volume.write id contents))
        fun n volume => volume.write id (torn n))
      (fun _ => Holding host task path id (HasWritten contents))
      fun _ => Holding host task path id Unsynced := by
  apply triple_invoke (stable_holding hpath Unsynced)
  · rintro past volume h a volume' hmade
    cases hmade
    exact ⟨.inr (h.guarantees_write contents), h.write contents⟩
  · rintro past volume h e hrefused
    cases hrefused
  · exact fun past volume h n => ⟨.inr (h.guarantees_write _), (h.write _).unsynced⟩

/-- The whole content is written, in whatever pieces. -/
theorem writeAll_triple (hpath : IsTemporary host path ∨ creates = some path) (contents : Bytes)
    (pieces : List ℕ) :
    Triple (Relies host task creates) (Guarantees host task creates replaces)
      (Holding host task path id Unsynced) (writeAll id contents pieces)
      (fun _ => Holding host task path id (HasWritten contents))
      fun _ => Holding host task path id Unsynced := by
  induction pieces with
  | nil => exact write_triple hpath contents fun n => contents.take n
  | cons piece pieces ih =>
    refine triple_bind ?_ fun _ => ih
    exact (write_triple hpath (contents.take piece) fun n => (contents.take piece).take n).mono
      (fun _ _ h => h) (fun _ _ _ h => h.unsynced) fun _ _ _ h => h

/-- The content is stored by the call that brings it to the disk. -/
theorem syncAll_triple (hpath : IsTemporary host path ∨ creates = some path) (contents : Bytes) :
    Triple (Relies host task creates) (Guarantees host task creates replaces)
      (Holding host task path id (HasWritten contents)) (syncAll id)
      (fun _ past volume => Commits (stores host) (Store.write path contents) past ∧
        Finished task past ∧ Held task path id volume ∧ HasSynced contents (volume.files id))
      fun _ => Holding host task path id Unsynced := by
  apply triple_invoke (stable_holding hpath (HasWritten contents))
  · rintro past volume ⟨hunmoved, hheld, hsynced, rfl⟩ a volume' hmade
    cases hmade
    have hself : (volume.sync id).files id = { volume.files id with synced := true } :=
      (Volume.files_setFile ..).trans (if_pos rfl)
    have hheld' : Held task path id (volume.sync id) := hheld.setFile hheld.creator hheld.count
    refine ⟨.inr (hheld.guarantees_setFile replaces hsynced hheld.creator hheld.count),
      commits_concat.mpr ⟨hunmoved, hheld.stores_sync⟩, hheld'.finished ?_ past, hheld', ?_⟩
    · rw [hself]
    · rw [hself]
      exact ⟨rfl, rfl⟩
  · rintro past volume h e hrefused
    cases hrefused
  · exact fun past volume h n => ⟨.inl rfl, h.1.concat rfl, h.2.1, h.2.2.1⟩

/-- Nothing is seen when the operation removes its file, which was not brought to the disk or is a
temporary one. -/
theorem removeFile_triple (hpath : IsTemporary host path ∨ creates = some path)
    {now : FileData → Prop}
    (hunseen : ∀ data, now data → data.synced = false ∨ IsTemporary host path) :
    Triple (Relies host task creates) (Guarantees host task creates replaces)
      (Holding host task path id now) (removeFile path) (fun _ past _ => Unmoved (stores host) past)
      fun _ past _ => Unmoved (stores host) past := by
  apply triple_invoke (stable_holding hpath now)
  · rintro past volume ⟨hunmoved, hheld, hnow⟩ a volume' hmade
    have hroot : path ≠ [] := by
      rintro rfl
      cases hheld.node
    have hvolume : volume' = volume.erase path := by
      unfold Volume.remove at hmade
      rw [hheld.node] at hmade
      cases hmade
      rfl
    subst hvolume
    refine ⟨.inr (hheld.erase replaces hpath), hunmoved.concat (funext fun other => ?_)⟩
    show (volume.erase path).stored other.1 = volume.stored other.1
    rw [stored_erase hroot]
    split
    · -- Under its path nothing was stored, or the path is a temporary one.
      rename_i hother
      rcases hunseen _ hnow with hsynced | htemporary
      · rw [hother, hheld.stored_unsynced hsynced]
      · exact absurd (hother ▸ htemporary) other.2
    · rfl
  · exact fun past volume h _ _ => h.1.concat rfl
  · exact fun past volume h _ => ⟨.inl rfl, h.1.concat rfl⟩

/-- A file that is created is stored by the last call, or not at all. -/
theorem createWithin_triple (maximum : ℕ) {path : String}
    (hcreates : ∀ names, relativeNames path = some names → creates = some (host.path names))
    (contents : Bytes) (pieces : List ℕ) :
    Triple (Relies host task creates) (Guarantees host task creates replaces)
      (Unseen host task)
      (createWithin host maximum task path contents pieces)
      (fun _ past _ => ∃ names, relativeNames path = some names ∧
        Commits (stores host) (Store.write (host.path names) contents) past ∧ Finished task past)
      fun _ past _ => Unmoved (stores host) past := by
  refine triple_refuse_bind (fun _ _ _ h => h.1) fun _ => ?_
  apply triple_bind ((newFile_triple steady_unseen path).mono_error fun _ _ _ h => h.1)
  intro target past volume h
  obtain ⟨huntouched, hnames⟩ := h
  have hpath : IsTemporary host (host.path target.relative) ∨
      creates = some (host.path target.relative) := .inr (hcreates _ hnames)
  refine triple_bind (createNew_triple hpath fun _ _ _ hmade => hmade) (fun id => ?_) past volume
    huntouched
  -- If a write or the synchronisation fails, the file is unsynced, and removing it is not seen.
  apply triple_onError
  · refine triple_bind (writeAll_triple hpath contents pieces) fun _ => ?_
    exact (syncAll_triple hpath contents).mono (fun _ _ h => h)
      (fun _ _ _ hdone => ⟨_, hnames, hdone.1, hdone.2.1⟩) fun _ _ _ h => h
  · exact fun _ => removeFile_triple hpath fun _ hsynced => .inl hsynced

/-- The temporary name is a temporary one. -/
theorem temporarySibling_triple (relative : List (List Char)) :
    Triple (Relies host task creates) (Guarantees host task creates replaces)
      (Unseen host task)
      (temporarySibling host relative)
      (fun temporary past volume => Unseen host task past volume ∧
        IsTemporary host (host.path temporary)) fun _ past _ => Unmoved (stores host) past := by
  refine triple_ofOption_bind (fun fileName _ => ?_) fun _ _ _ h => h.1
  have hsequence : Triple (Relies host task creates) (Guarantees host task creates replaces)
      (Unseen host task)
      (Routine.atomically fun volume : Volume => (volume.temporaryFileSequence,
        { volume with temporaryFileSequence := (volume.temporaryFileSequence + 1) % 2 ^ 64 }))
      (fun _ => Unseen host task)
      fun (_ : WorkspaceBoundaryError) past _ => Unmoved (stores host) past := by
    apply triple_atomically steady_unseen.stable
    intro past volume h
    have huntouched := h.untouched
    have hvalid : Volume.Valid { volume with
        temporaryFileSequence := (volume.temporaryFileSequence + 1) % 2 ^ 64 } :=
      ⟨huntouched.valid.named, huntouched.valid.fresh⟩
    exact ⟨⟨huntouched.valid, hvalid, fun _ => .inl rfl, fun _ => .inl rfl, le_refl _⟩,
      h.concat rfl ⟨hvalid, huntouched.creator⟩⟩
  refine triple_bind hsequence fun sequence => triple_pure fun past volume h => ?_
  exact ⟨h, host.path relative.dropLast, fileName, sequence, List.map_append⟩

/-- The file is stored under its new name by the call that renames it. -/
theorem rename_triple (hpath : IsTemporary host path) {target : FilePath}
    (name : FileName) (contents : Bytes) :
    Triple (Relies host task creates) (Guarantees host task creates (some target))
      (fun past volume => Holding host task path id (HasSynced contents) past volume ∧
        ¬volume.Fixed target)
      (Routine.invoke .unavailable (·.rename path target name) fun _ volume => volume)
      (fun _ past _ => Commits (stores host) (Store.write target contents) past ∧
        Finished task past)
      fun _ => Holding host task path id (HasSynced contents) := by
  apply triple_invoke
  · rintro past volume volume' hrelies ⟨hholding, hloose⟩
    exact ⟨stable_holding (.inl hpath) _ past volume volume' hrelies hholding,
      fun hfixed => hloose ((hrelies.fixed_iff target).mp hfixed)⟩
  · -- The content was on the disk already, and is seen now that the name is no temporary one.
    rintro past volume ⟨⟨hunmoved, hheld, hsynced, rfl⟩, hloose⟩ a volume' hmade
    refine ⟨.inr (hheld.guarantees_rename hpath hloose hmade),
      commits_concat.mpr ⟨hunmoved, hheld.stores_rename hpath hloose hmade hsynced⟩, ?_⟩
    -- The file is the one that was on the disk before.
    intro made hlast other hother
    rw [List.getLast?_concat] at hlast
    obtain rfl := Option.some.inj hlast
    have hfiles := (hheld.volume_rename hloose hmade).2.1
    dsimp only at hother ⊢
    rw [hfiles] at hother ⊢
    rw [hheld.sole other hother]
    exact hsynced
  · exact fun past volume h _ _ => ⟨h.1.1.concat rfl, h.1.2⟩
  · exact fun past volume h _ => ⟨.inl rfl, h.1.1.concat rfl, h.1.2⟩

/-- What is not fixed stays so, whoever makes a call. -/
theorem Guarantees.not_fixed {volume volume' : Volume} {target : FilePath}
    (h : Guarantees host task creates (some target) volume volume')
    (htarget : ¬IsTemporary host target)
    {other : FilePath} (hloose : ¬volume.Fixed other) : ¬volume'.Fixed other := by
  have hrelies : Relies host (task + 1) none volume volume' := by
    refine h.relies (Nat.ne_of_lt (Nat.lt_succ_self task)) ?_ ?_
    · rintro path hpath
      cases hpath
      exact htarget
    · rintro path hpath
      cases hpath
  exact fun hfixed => hloose ((hrelies.fixed_iff other).mp hfixed)

/-- If the path of a file that was opened is fixed, the file that was opened is still under it, so
that one with a single name can be replaced. -/
theorem not_fixed_of_opened {volume : Volume} {target : FilePath}
    (hopened : volume.Fixed target → volume.node target = some (.file id))
    (hcount : ¬1 < (volume.files id).linkCount) : ¬volume.Fixed target := by
  intro hfixed
  have hnode := hopened hfixed
  obtain ⟨node, hnode', hisfixed⟩ := hfixed
  rw [hnode] at hnode'
  cases hnode'
  exact hcount hisfixed

/-- The error of the call is replaced, its success is not. -/
theorem createNew_of_mapError {volume volume' : Volume} {name : FileName}
    {f : WorkspaceBoundaryError → WorkspaceBoundaryError}
    (h : (volume.createNew task path name).mapError f = .ok (id, volume')) :
    volume.createNew task path name = .ok (id, volume') := by
  generalize volume.createNew task path name = created at h ⊢
  cases created with
  | error e => cases h
  | ok made => exact congrArg Except.ok (Except.ok.inj h)

/-- What a store has under a temporary name is not seen. -/
theorem write_of_temporary (hpath : IsTemporary host path) (contents : Bytes) (store : Store host) :
    Store.write path contents store = store := by
  refine funext fun other => if_neg fun hother : other.1 = path => other.2 ?_
  rw [hother]
  exact hpath

/-- A file that is replaced is stored by the last call, or not at all. -/
theorem replaceFile_triple {path : String}
    (hreplaces : ∀ names, relativeNames path = some names → replaces = some (host.path names) ∧
      ¬IsTemporary host (host.path names)) (contents : Bytes) (pieces : List ℕ) :
    Triple (Relies host task creates) (Guarantees host task creates replaces)
      (Unseen host task)
      (replaceFile host task path contents pieces)
      (fun _ past _ => ∃ names, relativeNames path = some names ∧
        Commits (stores host) (Store.write (host.path names) contents) past ∧ Finished task past)
      fun _ past _ => Unmoved (stores host) past := by
  refine triple_refuse_bind (fun _ _ _ h => h.1) fun _ => ?_
  apply triple_bind ((existingFile_triple steady_unseen path).mono_error fun _ _ _ h => h.1)
  intro target
  -- What was found stays while the file is looked at.
  have hfound : Steady (Relies host task creates) fun past volume =>
      Unseen host task past volume ∧ Found host path target volume :=
    steady_unseen.and (steady_found path target)
  apply triple_bind ((triple_find hfound _).mono_error fun _ _ _ h => h.1.1)
  intro node
  split
  case h_2 =>
    apply triple_bind ((triple_call steady_unseen _).mono (fun _ _ h => h.1.1)
      (fun _ _ _ h => h) fun _ _ _ h => h.1)
    exact fun _ => triple_throw fun _ _ h => h.1.1
  case h_1 id =>
    have hopened := hfound.and (steady_state fun volume volume' hrelies
      (hopened : volume.Fixed (host.path target.relative) →
        volume.node (host.path target.relative) = some (.file id)) hfixed => by
        have hbefore := (hrelies.fixed_iff _).mp hfixed
        rw [hrelies.fixed _ (.inl hbefore)]
        exact hopened hbefore)
    apply triple_bind ((triple_call hopened _).mono ?_ (fun _ _ _ h => h) fun _ _ _ h => h.1.1.1)
    rotate_left
    · rintro past volume ⟨⟨huntouched, hfound⟩, hnode, -⟩
      have hplain := hfound.plain
      rw [hfound.resolved] at hplain
      exact ⟨⟨huntouched, hfound⟩, fun _ => volume.node_of_opened hplain hnode⟩
    intro metadata
    refine triple_refuse_bind (fun _ _ _ h => h.1.1.1.1) fun hcount => ?_
    intro past volume h
    obtain ⟨⟨⟨huntouched, hfound⟩, hopened⟩, rfl, -⟩ := h
    have hloose := not_fixed_of_opened hopened (of_decide_eq_false hcount)
    obtain ⟨rfl, htarget⟩ := hreplaces _ hfound.names
    have hnames := hfound.names
    -- From here on the one thing to keep of the target is that it can be replaced.
    have hrely : ∀ volume volume', Relies host task creates volume volume' →
        ¬volume.Fixed (host.path target.relative) → ¬volume'.Fixed (host.path target.relative) :=
      fun _ _ hrelies hloose hfixed => hloose ((hrelies.fixed_iff _).mp hfixed)
    have hguarantee : ∀ volume volume',
        Guarantees host task creates (some (host.path target.relative)) volume volume' →
        ¬volume.Fixed (host.path target.relative) → ¬volume'.Fixed (host.path target.relative) :=
      fun _ _ hguarantees hloose => hguarantees.not_fixed htarget hloose
    refine triple_bind
      (((temporarySibling_triple target.relative).frame hrely hguarantee).mono_error
      fun _ _ _ h => h.1) (fun temporary => ?_) past volume
      ⟨huntouched, hloose⟩
    intro past volume h
    obtain ⟨⟨huntouched, htemporary⟩, hloose⟩ := h
    refine triple_bind (((createNew_triple (.inl htemporary)
      fun _ _ _ hmade => createNew_of_mapError hmade).frame hrely hguarantee).mono_error
      fun _ _ _ h => h.1) (fun file => ?_) past volume
      ⟨huntouched, hloose⟩
    -- Whatever it has, a temporary file can be removed without being missed.
    have hcleanup : ∀ now : FileData → Prop, Triple (Relies host task creates)
        (Guarantees host task creates (some (host.path target.relative)))
        (Holding host task (host.path temporary) file now) (removeFile (host.path temporary))
        (fun _ past _ => Unmoved (stores host) past) fun _ past _ => Unmoved (stores host) past :=
      fun _ => removeFile_triple (.inl htemporary) fun _ _ => .inr htemporary
    apply triple_bind
    · refine ((triple_onError (triple_bind (writeAll_triple (.inl htemporary) contents pieces)
        fun _ => syncAll_triple (.inl htemporary) contents) fun _ => hcleanup _).frame hrely
        hguarantee).mono_error fun _ _ _ h => h.1
    · intro _
      apply triple_onError
      · refine (@rename_triple host task creates _ file htemporary _ _ contents).mono ?_
          (fun _ _ _ h => ⟨_, hnames, h⟩) fun _ _ _ h => h
        -- The synchronisation of a temporary file is not seen.
        rintro past volume ⟨⟨hcommits, -, hheld, hsynced⟩, hloose⟩
        exact ⟨⟨hcommits.unmoved_of_same (write_of_temporary htemporary contents), hheld, hsynced⟩,
          hloose⟩
      · exact fun _ => hcleanup _

end Writing

end Mio.Broker.WorkspaceFiles
