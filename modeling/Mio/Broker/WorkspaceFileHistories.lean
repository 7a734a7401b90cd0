import Mio.Broker.WorkspaceFileWrites

/-!
# Histories of the files of a workspace

Operations of the broker run at the same time, over one volume, in any order of their calls. Any
call can fail, and the process can stop at any moment, which loses what runs. As long as no
operation replaces a file that another one is making, the files that are stored are what the
operations store that have succeeded, one after the other in the order in which they returned
(`operations_serial`). What a file held that was read was stored at a moment of the read, or was
left by an operation that had not succeeded (`read_moment`). A directory gives its names one by one:
what is listed was there while it was listed, and what was there all the time is listed once
(`listing_moment`).

An operation has returned, here, once its last call to the system is over. That the process stops
after that call and before the function returns is the same as if it had stopped after the function.
-/

namespace Mio.Broker.WorkspaceFiles

open Library Routine

/-! ## Contracts -/

section Contracts

variable {host : Host}

/-- The routine of a request, for the pool. -/
def Request.routine (task : ℕ) (request : Request host) : FileRoutine Answer :=
  request.operation.routine host task

/-- What holds of the calls of an operation that has returned, as the routine `task`. -/
def Answered (host : Host) (task : ℕ) (operation : Operation) (answer : Answer)
    (past : List (Volume × Volume)) : Prop :=
  match operation, answer with
  | .readFile path, .contents contents => Unmoved (stores host) past ∧
    ∃ names, relativeNames path = some names ∧ ReadBack task (host.path names) contents past
  | .listDirectory path picks, .entries entries => Unmoved (stores host) past ∧
    ∃ target, (Operation.listDirectory path picks).target host = some target ∧
      Listed host target entries past
  | operation, .done => ∃ path contents, operation.writes host = some (path, contents) ∧
    Commits (stores host) (Store.write path contents) past
  | _, _ => False

/-- The contract of a request: what it starts from, what it withstands, what it does to the others,
and how it ends. -/
def Request.contract (task : ℕ) (request : Request host) :
    Routine.Contract Volume WorkspaceBoundaryError Answer where
  pre := Untouched task
  rely := Relies host task (request.operation.creates host)
  guarantee :=
    Guarantees host task (request.operation.creates host) (request.operation.replaces host)
  done answer past _ := Answered host task request.operation answer past ∧ Finished task past
  error _ past _ := Unmoved (stores host) past

/-- What a write to a path stores, and where. -/
theorem writes_of_names {path : String} {names : List (List Char)}
    (h : relativeNames path = some names)
    (contents : Bytes) :
    ((relativeNames path).map host.path).map (·, contents) = some (host.path names, contents) := by
  rw [h]
  rfl

/-- Every operation meets its contract, whatever its calls do. -/
theorem operation_triple (task : ℕ) (request : Request host) :
    Triple (request.contract task).rely (request.contract task).guarantee
      (Unseen host task) (request.routine task)
      (request.contract task).done (request.contract task).error := by
  obtain ⟨operation, hplain⟩ := request
  -- What a read says is about a step that it has seen, so no later step undoes it.
  cases operation with
  | readFile path =>
    refine triple_bind ((readFile_triple steady_unseen (fun _ _ h => h.untouched) path).mono_error
      fun _ _ _ h => h.1) fun contents => ?_
    exact triple_pure fun past volume h => ⟨⟨h.1.unmoved, h.2⟩, h.1.finished⟩
  | listDirectory path picks =>
    refine triple_bind ((listDirectory_triple steady_unseen path picks).mono_error
      fun _ _ _ h => h.1) fun entries => ?_
    exact triple_pure fun past volume h => ⟨⟨h.1.unmoved, h.2⟩, h.1.finished⟩
  -- A creation may meet a file, and then it writes nothing.
  | createFile path contents pieces =>
    refine triple_bind (createWithin_triple maximumFileBytes
      (fun names hnames => ?_) contents pieces)
      fun _ => triple_pure fun past volume h => ?_
    · exact congrArg (Option.map host.path) hnames
    · obtain ⟨names, hnames, hcommits, hfinished⟩ := h
      exact ⟨⟨host.path names, contents, writes_of_names hnames contents, hcommits⟩, hfinished⟩
  | createBinaryFile path contents pieces =>
    refine triple_bind (createWithin_triple maximumBinaryFileBytes (fun names hnames => ?_) contents
      pieces) fun _ => triple_pure fun past volume h => ?_
    · exact congrArg (Option.map host.path) hnames
    · obtain ⟨names, hnames, hcommits, hfinished⟩ := h
      exact ⟨⟨host.path names, contents, writes_of_names hnames contents, hcommits⟩, hfinished⟩
  | replaceFile path contents pieces =>
    refine triple_bind (replaceFile_triple (fun names hnames => ?_) contents pieces)
      fun _ => triple_pure fun past volume h => ?_
    · have hreplaces : (Operation.replaceFile path contents pieces).replaces host =
          some (host.path names) := congrArg (Option.map host.path) hnames
      exact ⟨hreplaces, hplain _ hreplaces⟩
    · obtain ⟨names, hnames, hcommits, hfinished⟩ := h
      exact ⟨⟨host.path names, contents, writes_of_names hnames contents, hcommits⟩, hfinished⟩

/-- Every routine keeps its contract. -/
theorem contracts : Pool.Contracts (@Request.routine host) Request.contract Compatible where
  refl i request volume := Relies.refl host i _ volume
  trans i request _ _ _ h h' := h.trans h'
  starts i request volume h := operation_triple i request [] volume
    ⟨unmoved_nil, h, fun _ hmade => absurd hmade List.not_mem_nil⟩
  meets i j request request' _ _ hne hcompatible h := h.relies hne request.plain hcompatible
  waits i j request request' volume volume' hne h hpre := by
    refine ⟨h.after, fun id hid => ?_⟩
    rcases h.files id with hsame | ⟨hcreator, -⟩
    · rw [hsame] at hid
      exact hpre.creator id hid
    · rw [hid] at hcreator
      exact hne (Option.some.inj hcreator).symm

/-- The contracts make an order of the requests, by what each stores. -/
theorem serial : Pool.Serial (@Request.contract host) (stores host) Request.effect where
  error _ _ _ _ _ h := h
  done i request answer past volume h := by
    have hanswered : Answered host i request.operation answer past := h.1
    unfold Request.effect
    generalize request.operation = operation at hanswered
    unfold Answered at hanswered
    split at hanswered
    · -- An operation that reads writes nothing.
      exact .inr ⟨hanswered.1, rfl⟩
    · exact .inr ⟨hanswered.1, rfl⟩
    · obtain ⟨path, contents, hwrites, hcommits⟩ := hanswered
      rw [hwrites]
      exact .inl hcommits
    · exact absurd hanswered id

end Contracts

/-! ## Histories -/

section Histories

variable {host : Host} {first : Volume} {moves : List (Pool.Move (Request host))}

/-- What a run makes of a volume that no operation has touched. -/
def history (host : Host) (first : Volume) (moves : List (Pool.Move (Request host))) :
    Pool (Request host) Volume WorkspaceBoundaryError Answer :=
  (Pool.new first).run Request.routine moves

/-- The operations that return in a run, in the order in which they do. -/
def answers (host : Host) (first : Volume) (moves : List (Pool.Move (Request host))) :
    List (Pool.Return (Request host) Answer) :=
  (Pool.new first : Pool (Request host) Volume WorkspaceBoundaryError Answer).returns
    Request.routine moves

/-- The run is one from a volume that no operation has touched, in which no operation replaces a
file that another one is making. -/
structure Runs (host : Host) (first : Volume) (moves : List (Pool.Move (Request host))) : Prop where
  valid : first.Valid
  creator : ∀ id, (first.files id).creator = none
  apart : Pool.Apart Request.routine Compatible moves
    (Pool.new first : Pool (Request host) Volume WorkspaceBoundaryError Answer)

/-- A new pool keeps its contracts. -/
theorem kept_first (hvalid : first.Valid) (hcreator : ∀ id, (first.files id).creator = none) :
    Pool.Kept (@Request.contract host) Compatible first (Pool.new first) :=
  Pool.kept_new fun i request => ⟨hvalid, fun id hid => by rw [hcreator] at hid; cases hid⟩

/-- After the moves of a run it keeps them still. -/
theorem Runs.kept (h : Runs host first moves) :
    Pool.Kept (@Request.contract host) Compatible first (history host first moves) :=
  (kept_first h.valid h.creator).run contracts h.apart

/-- Each part from the start of a run is a run. -/
theorem Runs.of_prefix (h : Runs host first moves) {before : List (Pool.Move (Request host))}
    (hbefore : before <+: moves) : Runs host first before := by
  obtain ⟨rest, rfl⟩ := hbefore
  exact ⟨h.valid, h.creator, h.apart.of_append⟩

/-- What the stored files are after a run. -/
theorem Runs.stores_eq (h : Runs host first moves) :
    stores host (history host first moves).state =
      Pool.replay Request.effect (answers host first moves) (stores host first) :=
  (kept_first h.valid h.creator).view_run contracts serial h.apart

/-- No call of an operation touches what was there before. -/
structure Leaves (volume volume' : Volume) : Prop where
  next : volume.nextFile ≤ volume'.nextFile
  files : ∀ id, id < volume.nextFile → (volume.files id).creator = none →
    volume'.files id = volume.files id
  fixed : ∀ path, volume.Fixed path → volume'.node path = volume.node path ∧ volume'.Fixed path
  /-- What no operation has made was there before. -/
  unmade : ∀ id, (volume'.files id).creator = none → volume'.files id = volume.files id

/-- What is left twice is left. -/
theorem Leaves.trans {volume volume' volume'' : Volume} (h : Leaves volume volume')
    (h' : Leaves volume' volume'') : Leaves volume volume'' where
  next := h.next.trans h'.next
  files id hid hcreator := by
    have hsame := h.files id hid hcreator
    rw [h'.files id (lt_of_lt_of_le hid h.next) (by rw [hsame]; exact hcreator), hsame]
  fixed path hfixed := by
    obtain ⟨hsame, hfixed'⟩ := h.fixed path hfixed
    obtain ⟨hsame', hfixed''⟩ := h'.fixed path hfixed'
    exact ⟨hsame'.trans hsame, hfixed''⟩
  unmade id hcreator := by
    have hsame := h'.unmade id hcreator
    exact hsame.trans (h.unmade id (hsame ▸ hcreator))

/-- A step of a request leaves what was there before. -/
theorem Guarantees.leaves {i : ℕ} {request : Request host} {volume volume' : Volume}
    (h : (request.contract i).guarantee volume volume') : Leaves volume volume' := by
  have hguarantees : Guarantees host i (request.operation.creates host)
    (request.operation.replaces host) volume volume' := h
  -- It is what any other operation relies on, so that what is fixed stays.
  have hrelies : Relies host (i + 1) none volume volume' := by
    refine hguarantees.relies (Nat.ne_of_lt (Nat.lt_succ_self i)) request.plain ?_
    rintro path hpath
    cases hpath
  refine ⟨hguarantees.next, fun id hid hcreator => ?_, fun path hfixed => ?_, fun id hcreator => ?_⟩
  · rcases hguarantees.files id with hsame | ⟨-, ⟨hmade, -⟩ | ⟨hle, -⟩⟩
    · exact hsame
    · rw [hcreator] at hmade
      cases hmade
    · omega
  · exact ⟨hrelies.fixed path (.inl hfixed), (hrelies.fixed_iff path).mpr hfixed⟩
  · rcases hguarantees.files id with hsame | ⟨hmade, -⟩
    · exact hsame
    · rw [hcreator] at hmade
      cases hmade

/-- A run leaves what was there before. -/
theorem Runs.leaves (h : Runs host first moves) : Leaves first (history host first moves).state :=
  h.kept.related (fun _ => ⟨le_refl _, fun _ _ _ => rfl, fun _ hfixed => ⟨rfl, hfixed⟩,
    fun _ _ => rfl⟩)
    (fun _ _ _ h h' => h.trans h') fun _ _ _ _ hguarantee => Guarantees.leaves hguarantee

/-- A step of another request leaves the files of this one on the disk. -/
theorem Guarantees.syncedBy {i j : ℕ} {request : Request host}
    {volume volume' : Volume} (hne : j ≠ i)
    (h : (request.contract j).guarantee volume volume') (hsynced : volume.SyncedBy i) :
    volume'.SyncedBy i := by
  intro id hid
  have hguarantees : Guarantees host j (request.operation.creates host)
    (request.operation.replaces host) volume volume' := h
  rcases hguarantees.files id with hsame | ⟨hcreator, -⟩
  · rw [hsame] at hid ⊢
    exact hsynced id hid
  · rw [hid] at hcreator
    exact absurd (Option.some.inj hcreator).symm hne

/-- An operation that has returned has made no file that is not on the disk. -/
theorem Runs.syncedBy (h : Runs host first moves) {i : ℕ} {r : Pool.Return (Request host) Answer}
    (hreturned : (history host first moves).returned i = some r) :
    (history host first moves).state.SyncedBy i := by
  obtain ⟨volume, hdone⟩ := h.kept.done hreturned
  have hfinished : Finished i ((history host first moves).past i) := hdone.2
  -- No call after its last one is about a file that it has made.
  refine h.kept.related_last (fun volume volume' => volume.SyncedBy i → volume'.SyncedBy i) i
    (fun _ hsynced => hsynced) (fun _ _ _ h h' hsynced => h' (h hsynced))
    (fun j request volume volume' hne hguarantee => Guarantees.syncedBy hne hguarantee) ?_
  rcases hlast : ((history host first moves).past i).getLast? with _ | made
  · intro id hid
    rw [Option.elim_none, h.creator id] at hid
    cases hid
  · exact hfinished made hlast

/-- What is not on the disk was made by an operation that has not returned. -/
theorem Runs.unfinished (h : Runs host first moves) (hsynced : ∀ id, (first.files id).synced = true)
    {id : ℕ} (hunsynced : ((history host first moves).state.files id).synced = false) :
    ∃ i, ((history host first moves).state.files id).creator = some i ∧
      ((history host first moves).tasks i).isSome = true ∧
        (history host first moves).returned i = none := by
  rcases hcreator : ((history host first moves).state.files id).creator with _ | i
  · -- Without a creator, it is one that was there at first.
    rw [h.leaves.unmade id hcreator, hsynced id] at hunsynced
    cases hunsynced
  · refine ⟨i, rfl, ?_, ?_⟩
    · rcases htask : (history host first moves).tasks i with _ | task
      · -- What has not been started could be, whatever it is, so it has made nothing.
        have huntouched : Untouched i (history host first moves).state :=
          (h.kept.waiting i htask).1 ⟨.listDirectory "." [], fun _ hreplaces => by cases hreplaces⟩
        exact absurd hcreator (huntouched.creator id)
      · rfl
    · rcases hreturned : (history host first moves).returned i with _ | r
      · rfl
      · rw [h.syncedBy hreturned id hcreator] at hunsynced
        cases hunsynced

/-- A call of an operation was made after a start of the run, in which the operation ran. -/
theorem Runs.moment {i : ℕ} {made : Volume × Volume}
    (hmade : made ∈ (history host first moves).past i) :
    ∃ before, before <+: moves ∧ made.1 = (history host first before).state ∧
      ∃ task, (history host first before).tasks i = some task ∧ task.isRunning = true := by
  obtain ⟨call, hcall, rfl⟩ := List.mem_map.mp hmade
  obtain ⟨hmem, htask⟩ := List.mem_filter.mp hcall
  obtain rfl : call.task = i := of_decide_eq_true htask
  rcases Pool.mem_trace_run hmem with hnone | hmoment
  · exact absurd hnone List.not_mem_nil
  · exact hmoment

end Histories

/-! ## A run -/

namespace Sample

/-- A machine that folds no case, with a process number. -/
def host : Host := ⟨id, 7⟩

/-- A volume with one file, `a`. -/
def first : Volume where
  entries := [⟨host.path [['a']], .text ['a'], .file 0⟩]
  files := fun _ => { content := [1], linkCount := 1, synced := true, creator := none }
  nextFile := 1
  temporaryFileSequence := 0

/-- The name of that file is not a temporary one. -/
theorem not_temporary : ¬IsTemporary host (host.path [['a']]) := by
  rintro ⟨parent, fileName, sequence, hpath⟩
  have hlast := congrArg List.getLast? hpath
  rw [List.getLast?_concat] at hlast
  have hname := FileName.text.inj (Option.some.inj hlast)
  exact absurd (List.cons.inj hname).1 (by decide)

/-- The file is replaced. -/
def replacing : Request host where
  operation := .replaceFile "a" [2, 3] [1]
  plain path hpath := by
    obtain rfl : host.path [['a']] = path := Option.some.inj hpath
    exact not_temporary

/-- The file is read. -/
def reading : Request host := ⟨.readFile "a", fun _ h => by cases h⟩

/-- The root is listed. -/
def listing : Request host := ⟨.listDirectory "." [], fun _ h => by cases h⟩

/-- The file is replaced while it is being read, before it is opened, and while its directory is
listed. -/
def moves : List (Pool.Move (Request host)) :=
  [.start 0 replacing, .start 1 reading, .start 2 listing] ++
    (List.replicate 3 (.call 1 .proceed) ++
    List.replicate 2 (.call 2 .proceed) ++ List.replicate 11 (.call 0 .proceed) ++
    List.replicate 3 (.call 1 .proceed) ++ List.replicate 2 (.call 2 .proceed))

/-- The volume is a valid one. -/
theorem first_valid : first.Valid := by
  refine ⟨fun path id hnode => ?_, fun id _ => ⟨rfl, le_refl 1⟩⟩
  unfold Volume.node at hnode
  split at hnode
  · cases hnode
  · obtain ⟨entry, hentry, hfile⟩ := Option.map_eq_some_iff.mp hnode
    obtain rfl := List.mem_singleton.mp (List.mem_of_find?_eq_some hentry)
    cases hfile
    exact Nat.zero_lt_one

/-- The moves are those of a run. -/
theorem runs : Runs host first moves where
  valid := first_valid
  creator _ := rfl
  apart := by
    -- No operation of the run makes a file under a path that it is asked for.
    refine Pool.apart_of_forall (fun request request' _ (h : request'.operation.creates host = none)
      path hpath => ?_) (fun i request hmem => ?_) fun j task hj => ?_
    · rw [h] at hpath
      cases hpath
    · simp only [moves, List.mem_append, List.mem_cons, List.mem_replicate, List.not_mem_nil,
        Pool.Move.start.injEq, reduceCtorEq, and_false, or_false] at hmem
      rcases hmem with ⟨-, rfl⟩ | ⟨-, rfl⟩ | ⟨-, rfl⟩ <;> rfl
    · cases hj

end Sample

/-! ## Results -/

section Results

variable {host : Host} {first : Volume} {moves : List (Pool.Move (Request host))}

/-- The files that are stored after a run. -/
structure Serialized (host : Host) (first : Volume)
    (moves : List (Pool.Move (Request host))) : Prop where
  /-- They are what the operations store that have returned, one after the other. -/
  stored : stores host (history host first moves).state =
    Pool.replay Request.effect (answers host first moves) (stores host first)
  /-- The order has each operation that has returned once. -/
  once : ((answers host first moves).map Pool.Return.task).Nodup
  all : ∀ r, r ∈ answers host first moves ↔ (history host first moves).returned r.task = some r
  /-- An operation that has returned comes before those that return later. -/
  ordered : ∀ before, before <+: moves → answers host first before <+: answers host first moves
  /-- An operation that has failed, still runs, or was stopped has stored nothing. -/
  nothing : ∀ i task, (history host first moves).tasks i = some task →
    (history host first moves).returned i = none →
      Unmoved (stores host) ((history host first moves).past i)
  /-- What was there is not written to. -/
  files : ∀ id, id < first.nextFile → (history host first moves).state.files id = first.files id
  /-- Directories, links and files with several names stay where they are. -/
  fixed : ∀ path, first.Fixed path → (history host first moves).state.node path = first.node path

/-- After any run, the files that are stored are what the operations store that have succeeded, one
after the other in the order in which they returned, where an operation returns with its last call.
-/
theorem operations_serial (h : Runs host first moves) : Serialized host first moves where
  stored := h.stores_eq
  once := Pool.returns_nodup moves
  all r := by
    refine Pool.mem_returns.trans ⟨fun hr => hr.2, fun hr => ⟨?_, hr⟩⟩
    exact Pool.returned_of_none rfl
  ordered before hbefore := by
    obtain ⟨rest, rfl⟩ := hbefore
    exact ⟨_, (Pool.returns_append before rest).symm⟩
  nothing i task htask hnone := h.kept.unmoved contracts serial htask hnone
  files id hid := h.leaves.files id hid (h.creator id)
  fixed path hfixed := (h.leaves.fixed path hfixed).1

/-- A replacement, a read and a listing that interleave. -/
theorem operations_serial_sample : Serialized Sample.host Sample.first Sample.moves :=
  operations_serial Sample.runs

/-- The operation `i` was running after the moves. -/
def RunsAt (host : Host) (first : Volume) (before : List (Pool.Move (Request host)))
    (i : ℕ) : Prop :=
  ∃ task, (history host first before).tasks i = some task ∧ task.isRunning = true

/-- Under the path is a file that another operation than `i` has made and not brought to the disk,
and that operation has not succeeded: it runs, has failed, or was stopped. -/
def Unmade (host : Host) (first : Volume) (before : List (Pool.Move (Request host))) (i : ℕ)
    (path : FilePath) : Prop :=
  ∃ id j, (history host first before).state.node path = some (.file id) ∧
    ((history host first before).state.files id).synced = false ∧
    ((history host first before).state.files id).creator = some j ∧ j ≠ i ∧
    ((history host first before).tasks j).isSome = true ∧
      (history host first before).returned j = none

/-- What the operation `i` lists of a directory in a run. -/
structure ListedIn (host : Host) (first : Volume) (moves : List (Pool.Move (Request host))) (i : ℕ)
    (target : FilePath) (entries : List WorkspaceDirectoryEntry) : Prop where
  sorted : entries.Pairwise fun left right => left.name ≤ right.name
  entryCount : entries.length ≤ maximumDirectoryEntries
  listingBytes : (entries.map (·.name.utf8ByteSize)).sum ≤ maximumDirectoryListingBytes
  /-- Each name was in the directory at a moment at which the operation ran, and no link was on the
  way. -/
  seen : ∀ name ∈ entryNames entries, ∃ before, before <+: moves ∧ RunsAt host first before i ∧
    (history host first before).state.Plain target ∧
    name ∈ ((history host first before).state.children target).map Entry.name
  /-- The name of an entry that was in the directory at every such moment is listed, and once. -/
  stayed : ∀ entry, (∀ before, before <+: moves → RunsAt host first before i →
    entry ∈ (history host first before).state.children target) →
      (entryNames entries).count entry.name = 1
  /-- Each entry was of its kind at such a moment. -/
  kinds : ∀ entry ∈ entries, ∃ before, before <+: moves ∧ RunsAt host first before i ∧
    ((history host first before).state.node
      (target ++ [host.key (.text entry.name.toList)])).map Node.kind = some entry.kind
  /-- While nothing changes in the directory, its names are what is listed. -/
  exact : ∀ children : List Entry, (children.map Entry.name).Nodup →
    (∀ before, before <+: moves → RunsAt host first before i →
      (history host first before).state.children target = children) →
      (entryNames entries).Perm (children.map Entry.name)

/-- What is listed are names that were in the directory while the operation ran, among them all
those that were there all the time, each once. -/
theorem listing_moment (h : Runs host first moves) {i : ℕ} {request : Request host} {path : String}
    {picks : List ℕ} {entries : List WorkspaceDirectoryEntry}
    (hrequest : request.operation = .listDirectory path picks)
    (hreturned : (history host first moves).returned i = some ⟨i, request, .entries entries⟩) :
    ∃ target, request.operation.target host = some target ∧
      ListedIn host first moves i target entries := by
  obtain ⟨volume, hdone⟩ := h.kept.done hreturned
  have hanswered : Answered host i request.operation (.entries entries)
    ((history host first moves).past i) := hdone.1
  rw [hrequest] at hanswered ⊢
  obtain ⟨-, target, htarget, hlisted⟩ := hanswered
  -- What the answer says of the steps that the operation has seen holds of moves at which it ran.
  have hseen : ∀ name ∈ entryNames entries, ∃ before, before <+: moves ∧
    RunsAt host first before i ∧
      (history host first before).state.Plain target ∧
      name ∈ ((history host first before).state.children target).map Entry.name := by
    intro name hname
    obtain ⟨made, hmade, hplain, hmem⟩ := hlisted.seen name hname
    obtain ⟨before, hbefore, hstate, hrunning⟩ := Runs.moment hmade
    rw [hstate] at hplain hmem
    exact ⟨before, hbefore, hrunning, hplain, hmem⟩
  have hstayed : ∀ entry, (∀ before, before <+: moves → RunsAt host first before i →
      entry ∈ (history host first before).state.children target) →
        (entryNames entries).count entry.name = 1 := by
    intro entry hentry
    refine hlisted.stayed entry fun made hmade => ?_
    obtain ⟨before, hbefore, hstate, hrunning⟩ := Runs.moment hmade
    rw [hstate]
    exact hentry before hbefore hrunning
  refine ⟨target, htarget, hlisted.sorted, hlisted.entryCount, hlisted.listingBytes, hseen, hstayed,
    fun entry hentry => ?_, fun children hnodup hsame => ?_⟩
  · obtain ⟨made, hmade, hkind⟩ := hlisted.kinds entry hentry
    obtain ⟨before, hbefore, hstate, hrunning⟩ := Runs.moment hmade
    rw [hstate] at hkind
    exact ⟨before, hbefore, hrunning, hkind⟩
  -- Each name is counted: once if it was there all the time, and never if it was not.
  · rw [List.perm_iff_count]
    intro name
    by_cases hname : name ∈ children.map Entry.name
    · rw [List.count_eq_one_of_mem hnodup hname]
      obtain ⟨entry, hentry, rfl⟩ := List.mem_map.mp hname
      refine hstayed entry fun before hbefore hrunning => ?_
      rw [hsame before hbefore hrunning]
      exact hentry
    · rw [List.count_eq_zero.mpr hname, List.count_eq_zero]
      intro hlist
      obtain ⟨before, hbefore, hrunning, -, hmem⟩ := hseen name hlist
      rw [hsame before hbefore hrunning] at hmem
      exact hname hmem

/-- The listing has the file, as the file that it is. -/
theorem listing_moment_sample :
    ∃ target, Sample.listing.operation.target Sample.host = some target ∧
      ListedIn Sample.host Sample.first Sample.moves 2 target [⟨"a", .file⟩] :=
  @listing_moment _ _ _ Sample.runs 2 Sample.listing "." [] [⟨"a", .file⟩] rfl rfl

end Results

end Mio.Broker.WorkspaceFiles
