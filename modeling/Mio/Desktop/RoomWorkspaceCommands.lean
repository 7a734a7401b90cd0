import Mio.Desktop.JsonStoreLoads
import Mio.Desktop.RoomBackupCommands
import Mio.Desktop.RoomWorkspace

/-!
# The workspace commands, beside the Room commands

A room's workspace is bound under the room's identifier, in a store of its own. The workspace
commands ask whether the room exists, and none of the Room commands looks at the bindings. So a
binding stays when its room is deleted, or goes with a restore, and a room that comes back under the
identifier has it (`binding_outlives_room`). In a run where that happens to no bound room, every
binding is that of a room (`bindings_scoped`).

The folder dialog answers later than it is opened: by then, the room may be gone.
-/

namespace Mio.Desktop.RoomWorkspace

open Library Std Mio.Core
open RoomCommands (Command)

/-! ## The commands -/

/-- An error as the application shows it. -/
structure RoomWorkspaceCommandError where
  code : String
  message : String
  deriving DecidableEq

/-- How an error of the workspaces is shown. -/
def mapError : RoomWorkspaceError → RoomWorkspaceCommandError
  | .invalid => ⟨"roomWorkspaceInvalid", "The Room workspace selection is invalid."⟩
  | .roomNotFound => ⟨"roomNotFound", "The Room does not exist."⟩
  | .unavailable => ⟨"roomWorkspaceUnavailable", "The selected Room workspace is unavailable."⟩
  | .unsafeLink =>
    ⟨"roomWorkspaceUnsafeLink", "Linked folders cannot be used as a Room workspace."⟩
  | .io => ⟨"roomWorkspaceUnavailable", "The Room workspace settings could not be accessed."⟩

/-- Whether a room has a workspace. -/
inductive RoomWorkspaceMode where
  | chatOnly
  | workspace
  deriving DecidableEq

/-- The workspace of a room, as it is shown. -/
structure RoomWorkspaceStatus where
  roomId : String
  mode : RoomWorkspaceMode
  folderName : Option String
  available : Bool
  changed : Bool
  deriving DecidableEq

/-- Refuses a room that is not there. -/
def ensureRoomExists (rooms : RoomSnapshot) (roomId : String) :
    Except RoomWorkspaceCommandError Unit :=
  if !validRoomId roomId then .error (mapError .invalid)
  else if rooms.rooms.any (·.id == roomId) then .ok ()
  else .error (mapError .roomNotFound)

/-- What the file system says about a root: the name of its folder, and whether
`safe_workspace_root` accepts it. -/
structure Roots (PathBuf : Type) where
  isAbsolute : PathBuf → Bool
  folderName : PathBuf → String
  isSafe : PathBuf → Bool

variable {PathBuf : Type}

/-- The workspace of a room, by its binding. -/
def status (roots : Roots PathBuf) (rooms : RoomSnapshot) (bindings : Bindings PathBuf)
    (roomId : String) (changed : Bool) : Except RoomWorkspaceCommandError RoomWorkspaceStatus :=
  match ensureRoomExists rooms roomId with
  | .error e => .error e
  | .ok () =>
    let root := bindings[roomId]?
    .ok {
      roomId
      mode := if root.isSome then .workspace else .chatOnly
      folderName := root.map roots.folderName
      available := root.all roots.isSafe
      changed }

/-- The room store, the bindings with the directory that their file is in, and the rooms for which
the folder dialog is open. The process of the room store is that of the bindings. -/
structure State (PathBuf : Type) where
  store : RoomSource.State
  bindings : Bindings PathBuf
  world : World
  dialogs : List String

/-- The identifiers of the rooms. -/
def State.roomIds (state : State PathBuf) : List String := state.store.memory.rooms.map (·.id)

/-- What can happen: a Room command, a workspace command, an answer of the folder dialog, or a new
process. The folder that is picked is given by its canonical form, which is absolute, or by the
reason why there is none. -/
inductive Event (roots : Roots PathBuf) where
  | room (command : Command) (faults : List Fault)
  | choose (roomId : String)
  | picked (roomId : String)
    (canonical : Except RoomWorkspaceError { root : PathBuf // roots.isAbsolute root = true })
    (faults : List Fault)
  | dismissed (roomId : String)
  | clear (roomId : String) (faults : List Fault)
  | restart (pid : ℕ) (faults : List Fault)

section Code

variable (roomSerde : Serde PersistedRoomFile) (serde : Serde (PersistedWorkspaceFile PathBuf))
  (roots : Roots PathBuf)

/-- Clear a room's binding, and report its state. -/
def clearWorkspace (roomId : String) (faults : List Fault) (state : State PathBuf) :
    Outcome RoomWorkspaceCommandError RoomWorkspaceStatus × State PathBuf :=
  match ensureRoomExists state.store.memory roomId with
  | .error e => (.error e, state)
  | .ok () =>
    match clear serde roots.isAbsolute faults roomId state.bindings state.world with
    | (.error e, bindings, world) => (.error (mapError e), { state with bindings, world })
    | (.cut, bindings, world) => (.cut, { state with bindings, world })
    | (.done (), bindings, world) =>
      match status roots state.store.memory bindings roomId true with
      | .error e => (.error e, { state with bindings, world })
      | .ok status => (.done status, { state with bindings, world })

/-- Open the folder dialog for a room. -/
def chooseWorkspace (roomId : String) (state : State PathBuf) :
    Except RoomWorkspaceCommandError RoomWorkspaceStatus × State PathBuf :=
  match ensureRoomExists state.store.memory roomId with
  | .error e => (.error e, state)
  | .ok () =>
    (status roots state.store.memory state.bindings roomId false,
      { state with dialogs := roomId :: state.dialogs })

/-- The process stops. -/
def State.stop (state : State PathBuf) : State PathBuf :=
  { state with store := { state.store with running := false } }

/-- What the state is after a call that has ended in this way. -/
def State.after {ε α : Type} (state : State PathBuf) : Outcome ε α → State PathBuf
  | .cut => state.stop
  | _ => state

/-- The answer of the folder dialog binds the room. -/
def pickFolder (roomId : String) (canonical : Except RoomWorkspaceError PathBuf)
    (faults : List Fault) (state : State PathBuf) :
    Outcome RoomWorkspaceError Unit × State PathBuf :=
  let (outcome, bindings, world) :=
    bind serde roots.isAbsolute faults roomId canonical state.bindings state.world
  (outcome, { state with bindings, world, dialogs := state.dialogs.erase roomId })

/-- A new process, once its room store has started. -/
def startWorkspaces (pid : ℕ) (state : State PathBuf) : State PathBuf :=
  let world := state.world.restart pid
  match (workspacePersistence serde roots.isAbsolute).load.run [] world with
  | (.done bindings, world) => { state with bindings, world, dialogs := [] }
  | (_, world) => { state with world }.stop

/-- What an event leaves. -/
def apply (state : State PathBuf) : Event roots → State PathBuf
  | .room command faults =>
    { state with store := RoomCommands.apply roomSerde state.store (.command command faults) }
  | .choose roomId =>
    if state.store.running then (chooseWorkspace roots roomId state).2 else state
  | .picked roomId canonical faults =>
    if state.store.running && state.dialogs.contains roomId then
      let (outcome, state) := pickFolder serde roots roomId (canonical.map (·.val)) faults state
      state.after outcome
    else state
  | .dismissed roomId => { state with dialogs := state.dialogs.erase roomId }
  | .clear roomId faults =>
    if state.store.running then
      let (outcome, state) := clearWorkspace serde roots roomId faults state
      state.after outcome
    else state
  | .restart pid faults =>
    let state := { state with
      store := RoomCommands.apply roomSerde state.store (.restart pid faults) }
    if state.store.running then startWorkspaces serde roots pid state else state

/-- What a run of events leaves. -/
def run (events : List (Event roots)) (state : State PathBuf) : State PathBuf :=
  events.foldl (apply roomSerde serde roots) state

/-- Before the first start, with a directory for each store. -/
def State.first (roomWorld world : World) : State PathBuf where
  store := RoomCommands.firstRun roomWorld
  bindings := ∅
  world
  dialogs := []

end Code

/-! ## The rooms -/

section Rooms

variable {roomSerde : Serde PersistedRoomFile}

/-- A room stays, unless it is deleted. -/
theorem mem_rooms_of_step {snapshot snapshot' : RoomSnapshot} {operation : RoomOperation}
    (h : RoomStep snapshot operation snapshot') {roomId : String}
    (hroom : roomId ∈ snapshot.rooms.map (·.id))
    (hkept : ∀ updatedAt, operation ≠ .deleteRoom roomId updatedAt) :
    roomId ∈ snapshot'.rooms.map (·.id) := by
  cases h with
  | unchanged => exact hroom
  | append draft before room after hat | addParticipant _ _ _ before room after hat
  | rename _ _ _ before room after hat | removeParticipant _ _ _ before room after hat =>
    rw [hat.rooms] at hroom
    simpa using hroom
  | create draft =>
    rw [List.map_append]
    exact List.mem_append_left _ hroom
  | delete deleted updatedAt before room after hat =>
    rw [hat.rooms, List.map_append, List.map_cons, List.mem_append, List.mem_cons] at hroom
    have hne : roomId ≠ room.id := by
      rintro rfl
      exact hkept updatedAt (by rw [hat.id])
    rw [List.map_append, List.mem_append]
    rcases hroom with hbefore | heq | hafter
    · exact .inl hbefore
    · exact absurd heq hne
    · exact .inr hafter

/-- The rooms that a command takes away: the one that it deletes, and those that the backup that it
restores does not have. -/
def Removes (roomSerde : Serde PersistedRoomFile) (roomId : String) (command : Command) : Prop :=
  (∃ timestamp, command = .deleteRoom roomId timestamp ∧
    roomId ∉ bundledSnapshot.rooms.map (·.id)) ∨
  ∃ source content snapshot, command = .restoreSnapshot source ∧ source.content = some content ∧
    RoomSource.importSnapshot roomSerde content = .ok snapshot ∧
    roomId ∉ snapshot.rooms.map (·.id)

/-- A room stays when a command does not take it away. -/
theorem mem_rooms_of_command {state : RoomSource.State} (hsettled : Settled state.memory)
    {command : Command} {roomId : String} (hroom : roomId ∈ state.memory.rooms.map (·.id))
    (hkept : ¬Removes roomSerde roomId command) (faults : List Fault) :
    roomId ∈ (RoomCommands.apply roomSerde state (.command command faults)).memory.rooms.map
      (·.id) := by
  rw [RoomCommands.apply]
  split
  swap
  · exact hroom
  have hvalid := validateSnapshot_eq_ok.mpr hsettled.valid
  rcases @Command.prog_cases roomSerde state.memory command with heq | ⟨operation, heq, hasks⟩ |
    ⟨source, rfl⟩
  · rw [heq]
    exact hroom
  · rw [heq, RoomSource.writeOperation_run operation hvalid]
    -- The operation deletes the room only if the command does.
    have hoperation : roomId ∈ (operation.apply state.memory).rooms.map (·.id) := by
      refine mem_rooms_of_step (operation.apply_step state.memory) hroom fun updatedAt hdelete => ?_
      obtain ⟨⟨timestamp, rfl⟩, hbundled⟩ := hasks.deletes roomId updatedAt hdelete
      exact hkept (.inl ⟨timestamp, rfl, hbundled⟩)
    by_cases hok : operation.isOk state.memory = true
    · rw [if_pos hok]
      rcases (RoomPersistence.persist roomSerde (operation.apply state.memory)).run faults
        state.world with ⟨_ | _ | _, w'⟩
      · exact hoperation
      · exact hroom
      · exact hroom
    · rw [if_neg hok]
      exact hroom
  · have hends := Prog.run_wp _ faults state.world
      (@RoomBackupCommands.restoreSnapshot_ends roomSerde _ _ hvalid source)
    rw [Command.prog, Prog.run_map]
    -- A restore removes the room only if the imported snapshot does not have it.
    rcases hrun : (RoomSource.restoreSnapshot roomSerde source state.memory).run faults
      state.world with ⟨⟨_ | _, after⟩ | _ | _, w'⟩
    · rw [hrun] at hends
      obtain ⟨rfl, -⟩ := hends.2 _ rfl
      exact hroom
    · rw [hrun] at hends
      obtain ⟨content, hcontent, himport, -⟩ := hends.1 rfl
      by_contra hgone
      exact hkept (.inr ⟨source, content, after, rfl, hcontent, himport, hgone⟩)
    · exact hroom
    · exact hroom

/-- A restart leaves the rooms. -/
theorem memory_restart {state : RoomSource.State} (hsettled : Settled state.memory)
    (hagrees : RoomSource.Agrees roomSerde state.memory state.world.dir) (pid : ℕ)
    (faults : List Fault) :
    (RoomCommands.apply roomSerde state (.restart pid faults)).memory = state.memory := by
  have hends := Prog.run_wp _ faults _
    (RoomSource.start_wp_of_agrees (w := state.world.restart pid) hsettled hagrees)
  rw [RoomCommands.apply]
  rcases hrun : (RoomSource.start roomSerde).run faults (state.world.restart pid) with
    ⟨_ | _ | _, w'⟩
  · rw [hrun] at hends
    exact hends.1
  · rfl
  · rfl

end Rooms

/-! ## The bindings and their file -/

section Bindings

variable {serde : Serde (PersistedWorkspaceFile PathBuf)} {isAbsolute : PathBuf → Bool}
  {bindings next : Bindings PathBuf} {world : World}

variable (serde isAbsolute) in
/-- What a load would give is among the bindings. -/
def FileWithin (bindings : Bindings PathBuf) (world : World) : Prop :=
  ∀ loaded, (workspacePersistence serde isAbsolute).reading world.dir.current = .ok loaded →
    ∀ (roomId : String) (root : PathBuf), loaded[roomId]? = some root →
      bindings[roomId]? = some root

/-- What an interrupted save leaves is within the bindings. -/
theorem FileWithin.left (h : FileWithin serde isAbsolute bindings world) {world' : World}
    (hleft : JsonStore.Left world world') : FileWithin serde isAbsolute bindings world' := by
  intro loaded hreading roomId root hroot
  rcases hleft with hsame | hnone
  · rw [hsame] at hreading
    exact h loaded hreading roomId root hroot
  · rw [hnone] at hreading
    obtain rfl : (∅ : Bindings PathBuf) = loaded := Except.ok.inj hreading
    simp at hroot

/-- Saved bindings are within themselves. -/
theorem FileWithin.saved (hserde : serde.RoundTrips) (hvalid : ValidBindings isAbsolute next)
    (hsaved : (workspacePersistence serde isAbsolute).Holds next world) :
    FileWithin serde isAbsolute next world := by
  intro loaded hreading roomId root hroot
  rw [hsaved.reading (workspacePersistence_lawful hserde isAbsolute) hvalid,
    Except.ok.injEq] at hreading
  rw [hreading]
  exact hroot

/-- A change of the bindings is made in memory and in the file, or in neither. -/
theorem replaceBindings_ends (faults : List Fault) (next bindings : Bindings PathBuf)
    (world : World) :
    ∃ world', ((replaceBindings serde isAbsolute faults next bindings world).2 = (next, world') ∧
        (workspacePersistence serde isAbsolute).Holds next world') ∨
      (replaceBindings serde isAbsolute faults next bindings world).2 = (bindings, world') ∧
        JsonStore.Left world world' := by
  have hends := Prog.run_wp _ faults world
    ((workspacePersistence serde isAbsolute).persist_leaves next world)
  unfold replaceBindings
  rcases hrun : ((workspacePersistence serde isAbsolute).persist next).run faults world with
    ⟨_ | _ | _, world'⟩
  · rw [hrun] at hends
    exact ⟨world', .inl ⟨rfl, hends⟩⟩
  · rw [hrun] at hends
    exact ⟨world', .inr ⟨rfl, hends⟩⟩
  · rw [hrun] at hends
    exact ⟨world', .inr ⟨rfl, hends⟩⟩

variable (serde isAbsolute) in
/-- What a workspace command leaves of the bindings: as they were, or with one change that is in the
file, too. -/
inductive Changed (bindings : Bindings PathBuf) (world : World) (roomId : String) :
    Bindings PathBuf → World → Prop
  | kept (world' : World) (hleft : JsonStore.Left world world') :
    Changed bindings world roomId bindings world'
  | bound (root : PathBuf) (hid : validRoomId roomId = true) (habsolute : isAbsolute root = true)
    (world' : World)
    (hsaved : (workspacePersistence serde isAbsolute).Holds (bindings.insert roomId root) world') :
    Changed bindings world roomId (bindings.insert roomId root) world'
  | cleared (world' : World)
    (hsaved : (workspacePersistence serde isAbsolute).Holds (bindings.erase roomId) world') :
    Changed bindings world roomId (bindings.erase roomId) world'

/-- Binding a room changes its binding only. -/
theorem bind_changed (roomId : String) {canonical : Except RoomWorkspaceError PathBuf}
    (hcanonical : ∀ root, canonical = .ok root → isAbsolute root = true) (faults : List Fault) :
    Changed serde isAbsolute bindings world roomId
      (bind serde isAbsolute faults roomId canonical bindings world).2.1
      (bind serde isAbsolute faults roomId canonical bindings world).2.2 := by
  unfold bind
  split
  · exact .kept world (.inl rfl)
  rename_i hid
  split
  · exact .kept world (.inl rfl)
  rename_i root
  obtain ⟨world', ⟨heq, hsaved⟩ | ⟨heq, hleft⟩⟩ :=
    @replaceBindings_ends _ serde isAbsolute faults (bindings.insert roomId root) bindings world
  · rw [heq]
    exact .bound root (by simpa using hid) (hcanonical root rfl) world' hsaved
  · rw [heq]
    exact .kept world' hleft

/-- Clearing a room changes its binding only. -/
theorem clear_changed (roomId : String) (faults : List Fault) :
    Changed serde isAbsolute bindings world roomId
      (clear serde isAbsolute faults roomId bindings world).2.1
      (clear serde isAbsolute faults roomId bindings world).2.2 := by
  unfold clear
  split
  · exact .kept world (.inl rfl)
  obtain ⟨world', ⟨heq, hsaved⟩ | ⟨heq, hleft⟩⟩ :=
    @replaceBindings_ends _ serde isAbsolute faults (bindings.erase roomId) bindings world
  · rw [heq]
    exact .cleared world' hsaved
  · rw [heq]
    exact .kept world' hleft

/-- A clearing binds no room. -/
theorem clear_subset (roomId : String) (faults : List Fault) {other : String}
    (h : (clear serde isAbsolute faults roomId bindings world).2.1[other]? ≠ none) :
    bindings[other]? ≠ none := by
  unfold clear at h
  split at h
  · exact h
  obtain ⟨world', ⟨heq, -⟩ | ⟨heq, -⟩⟩ :=
    @replaceBindings_ends _ serde isAbsolute faults (bindings.erase roomId) bindings world
  · rw [heq, ExtTreeMap.getElem?_erase] at h
    split_ifs at h
    · exact absurd rfl h
    · exact h
  · rw [heq] at h
    exact h

/-- A change keeps the bindings valid, and those in the file among them. -/
theorem Changed.sound {roomId : String} {bindings' : Bindings PathBuf} {world' : World}
    (h : Changed serde isAbsolute bindings world roomId bindings' world')
    (hserde : serde.RoundTrips) (hvalid : ValidBindings isAbsolute bindings)
    (hfile : FileWithin serde isAbsolute bindings world) :
    ValidBindings isAbsolute bindings' ∧ FileWithin serde isAbsolute bindings' world' := by
  cases h with
  | kept _ hleft => exact ⟨hvalid, hfile.left hleft⟩
  | bound root hid habsolute _ hsaved =>
    have hnext := hvalid.insert ⟨hid, habsolute⟩
    exact ⟨hnext, .saved hserde hnext hsaved⟩
  | cleared _ hsaved =>
    have hnext := hvalid.erase roomId
    exact ⟨hnext, .saved hserde hnext hsaved⟩

/-- A change binds no other room. -/
theorem Changed.bound_iff {roomId : String} {bindings' : Bindings PathBuf} {world' : World}
    (h : Changed serde isAbsolute bindings world roomId bindings' world') {other : String}
    (hbound : bindings'[other]? ≠ none) : other = roomId ∨ bindings[other]? ≠ none := by
  cases h with
  | kept => exact .inr hbound
  | bound root =>
    rw [ExtTreeMap.getElem?_insert] at hbound
    split_ifs at hbound with heq
    · rw [Std.compare_eq_iff_eq] at heq
      exact .inl heq.symm
    · exact .inr hbound
  | cleared =>
    rw [ExtTreeMap.getElem?_erase] at hbound
    split_ifs at hbound
    · exact absurd rfl hbound
    · exact .inr hbound

end Bindings

/-! ## Runs -/

section Runs

variable {roomSerde : Serde PersistedRoomFile} {serde : Serde (PersistedWorkspaceFile PathBuf)}
  {roots : Roots PathBuf} {state : State PathBuf} {event : Event roots}

variable (roomSerde serde roots) in
/-- The invariant of the two stores, which no event breaks. -/
structure Sound (state : State PathBuf) : Prop where
  settled : Settled state.store.memory
  agrees : RoomSource.Agrees roomSerde state.store.memory state.store.world.dir
  valid : ValidBindings roots.isAbsolute state.bindings
  file : FileWithin serde roots.isAbsolute state.bindings state.world

/-- Every binding is that of a room. -/
def Linked (state : State PathBuf) : Prop :=
  ∀ roomId, state.bindings[roomId]? ≠ none → roomId ∈ state.roomIds

variable (roomSerde) in
/-- The event takes a bound room away, or binds one that is no longer there. -/
def Unlinks (state : State PathBuf) : Event roots → Prop
  | .room command _ =>
    ∃ roomId, state.bindings[roomId]? ≠ none ∧ Removes roomSerde roomId command
  | .picked roomId (.ok _) _ => roomId ∉ state.roomIds
  | _ => False

/-- The end of a step leaves the stores. -/
theorem after_store {ε α : Type} (outcome : Outcome ε α) :
    (state.after outcome).store.memory = state.store.memory ∧
      (state.after outcome).store.world = state.store.world ∧
      (state.after outcome).bindings = state.bindings ∧
      (state.after outcome).world = state.world := by
  cases outcome <;> exact ⟨rfl, rfl, rfl, rfl⟩

/-- What the answer of the dialog leaves. -/
theorem pickFolder_changed (roomId : String)
    (canonical : Except RoomWorkspaceError { root : PathBuf // roots.isAbsolute root = true })
    (faults : List Fault) :
    let picked := pickFolder serde roots roomId (canonical.map (·.val)) faults state
    picked.2.store = state.store ∧
      Changed serde roots.isAbsolute state.bindings state.world roomId picked.2.bindings
        picked.2.world := by
  refine ⟨rfl, bind_changed roomId (fun root hroot => ?_) faults⟩
  rcases canonical with e | ⟨found, habsolute⟩
  · cases hroot
  · obtain rfl : found = root := Except.ok.inj hroot
    exact habsolute

/-- What a clear command leaves. -/
theorem clearWorkspace_changed (roomId : String) (faults : List Fault) :
    let cleared := clearWorkspace serde roots roomId faults state
    cleared.2.store = state.store ∧
      Changed serde roots.isAbsolute state.bindings state.world roomId cleared.2.bindings
        cleared.2.world ∧
      ∀ other : String, cleared.2.bindings[other]? ≠ none → state.bindings[other]? ≠ none := by
  have hsubset := fun other =>
    @clear_subset _ serde roots.isAbsolute state.bindings state.world roomId faults other
  have hchanged := @clear_changed _ serde roots.isAbsolute state.bindings state.world roomId faults
  unfold clearWorkspace
  dsimp only
  rcases ensureRoomExists state.store.memory roomId with e | _
  · exact ⟨rfl, .kept _ (.inl rfl), fun _ h => h⟩
  rcases hclear : clear serde roots.isAbsolute faults roomId state.bindings state.world with
    ⟨_ | _ | _, bindings, world⟩
  · rw [hclear] at hchanged hsubset
    dsimp only
    rcases status roots state.store.memory bindings roomId true with e | answer
    · exact ⟨rfl, hchanged, hsubset⟩
    · exact ⟨rfl, hchanged, hsubset⟩
  · rw [hclear] at hchanged hsubset
    exact ⟨rfl, hchanged, hsubset⟩
  · rw [hclear] at hchanged hsubset
    exact ⟨rfl, hchanged, hsubset⟩

/-- What a new process has: the same rooms, and no other bindings. -/
theorem startWorkspaces_spec (hfile : FileWithin serde roots.isAbsolute state.bindings state.world)
    (hvalid : ValidBindings roots.isAbsolute state.bindings) (pid : ℕ) :
    let started := startWorkspaces serde roots pid state
    started.store.memory = state.store.memory ∧ started.store.world = state.store.world ∧
      ValidBindings roots.isAbsolute started.bindings ∧
      FileWithin serde roots.isAbsolute started.bindings started.world ∧
      ∀ (roomId : String) (root : PathBuf), started.bindings[roomId]? = some root →
        state.bindings[roomId]? = some root := by
  unfold startWorkspaces
  dsimp only
  rw [JsonStore.load_run]
  rcases hreading : (workspacePersistence serde roots.isAbsolute).reading
    (state.world.restart pid).dir.current with e | loaded
  · exact ⟨rfl, rfl, hvalid, hfile.left (.inl rfl), fun _ _ h => h⟩
  · have hwithin := hfile loaded hreading
    refine ⟨rfl, rfl, fun roomId root hroot => hvalid roomId root (hwithin roomId root hroot),
      fun loaded' hreading' roomId root hroot => ?_, hwithin⟩
    have heq : Except.ok loaded = Except.ok loaded' := hreading.symm.trans hreading'
    obtain rfl := Except.ok.inj heq
    exact hroot

variable (roomSerde serde) in
/-- What an event leaves. -/
structure StepLaws (state : State PathBuf) (event : Event roots)
    (state' : State PathBuf) : Prop where
  sound : Sound roomSerde serde roots state'
  /-- Only the answer of the dialog binds a room. -/
  bound : ∀ roomId, state'.bindings[roomId]? ≠ none → state.bindings[roomId]? ≠ none ∨
    ∃ root faults, event = .picked roomId (.ok root) faults
  /-- Only a Room command changes the rooms, and it leaves the bindings. -/
  rooms : (∃ command faults, event = .room command faults ∧ state'.bindings = state.bindings) ∨
    state'.roomIds = state.roomIds

/-- A step that changes nothing meets the laws. -/
theorem StepLaws.refl (h : Sound roomSerde serde roots state) (event : Event roots) :
    StepLaws roomSerde serde state event state :=
  ⟨h, fun _ hbound => .inl hbound, .inr rfl⟩

/-- A change of the bindings of one room, in a process that goes on or stops. -/
theorem StepLaws.changed (hserde : serde.RoundTrips) (h : Sound roomSerde serde roots state)
    {roomId : String} {next : State PathBuf} (hstore : next.store = state.store)
    (hchanged : Changed serde roots.isAbsolute state.bindings state.world roomId next.bindings
      next.world)
    (hbound : next.bindings[roomId]? ≠ none → state.bindings[roomId]? ≠ none ∨
      ∃ root faults, event = .picked roomId (.ok root) faults)
    {ε α : Type} (outcome : Outcome ε α) :
    StepLaws roomSerde serde state event (next.after outcome) := by
  obtain ⟨hmemory, hdir, hbindings, hworld⟩ := @after_store _ next ε α outcome
  obtain ⟨hvalid, hfile⟩ := hchanged.sound hserde h.valid h.file
  refine ⟨⟨?_, ?_, ?_, ?_⟩, fun other hother => ?_, .inr ?_⟩
  · rw [hmemory, hstore]
    exact h.settled
  · rw [hmemory, hdir, hstore]
    exact h.agrees
  · rw [hbindings]
    exact hvalid
  · rw [hbindings, hworld]
    exact hfile
  · rw [hbindings] at hother
    rcases hchanged.bound_iff hother with rfl | hbefore
    · exact hbound hother
    · exact .inl hbefore
  · rw [State.roomIds, hmemory, hstore]
    rfl

/-- Every event leaves the invariant, and does no more to the rooms and the bindings than this. -/
theorem apply_laws (hserde : serde.RoundTrips) (hroomSerde : roomSerde.RoundTrips)
    (h : Sound roomSerde serde roots state) (event : Event roots) :
    StepLaws roomSerde serde state event (apply roomSerde serde roots state event) := by
  -- A command of the rooms leaves the bindings, and a command of the workspaces leaves the rooms.
  cases event with
  | room command faults =>
    obtain ⟨hsettled, hagrees⟩ :=
      RoomCommands.apply_settled hroomSerde h.settled h.agrees (.command command faults)
    exact ⟨⟨hsettled, hagrees, h.valid, h.file⟩, fun _ hbound => .inl hbound,
      .inl ⟨command, faults, rfl, rfl⟩⟩
  | choose roomId =>
    rw [apply]
    split
    · unfold chooseWorkspace
      split
      · exact .refl h _
      · exact ⟨⟨h.settled, h.agrees, h.valid, h.file⟩, fun _ hbound => .inl hbound, .inr rfl⟩
    · exact .refl h _
  | picked roomId canonical faults =>
    rw [apply]
    split
    · obtain ⟨hstore, hchanged⟩ :=
        @pickFolder_changed _ serde roots state roomId canonical faults
      refine StepLaws.changed hserde h hstore hchanged (fun hbound => ?_) _
      rcases canonical with e | root
      · -- Without a folder, the bindings are as they were.
        left
        rw [pickFolder] at hbound
        simp only [bind, Except.map] at hbound
        split at hbound <;> exact hbound
      · exact .inr ⟨root, faults, rfl⟩
    · exact .refl h _
  | dismissed roomId =>
    exact ⟨⟨h.settled, h.agrees, h.valid, h.file⟩, fun _ hbound => .inl hbound, .inr rfl⟩
  | clear roomId faults =>
    rw [apply]
    split
    · have hcleared := @clearWorkspace_changed _ serde roots state roomId faults
      obtain ⟨hstore, hchanged, hsubset⟩ := hcleared
      exact .changed hserde h hstore hchanged (fun hbound => .inl (hsubset roomId hbound)) _
    · exact .refl h _
  -- A restart reads both files, and binds no more than it has read.
  | restart pid faults =>
    obtain ⟨hsettled, hagrees⟩ :=
      RoomCommands.apply_settled hroomSerde h.settled h.agrees (.restart pid faults)
    have hrooms := memory_restart h.settled h.agrees pid faults
    rw [apply]
    dsimp only
    split
    · obtain ⟨hmemory, hdir, hvalid, hfile, hwithin⟩ := @startWorkspaces_spec _ serde roots
        { state with store := RoomCommands.apply roomSerde state.store (.restart pid faults) }
        h.file h.valid pid
      refine ⟨⟨hmemory ▸ hsettled, ?_, hvalid, hfile⟩, fun roomId hbound => .inl ?_, .inr ?_⟩
      · rw [hmemory, hdir]
        exact hagrees
      · obtain ⟨root, hroot⟩ := Option.ne_none_iff_exists'.mp hbound
        rw [hwithin roomId root hroot]
        simp
      · rw [State.roomIds, hmemory, hrooms]
        rfl
    · refine ⟨⟨hsettled, hagrees, h.valid, h.file⟩, fun _ hbound => .inl hbound, .inr ?_⟩
      rw [State.roomIds, hrooms]
      rfl

/-- An event that takes no bound room away keeps every binding that of a room. -/
theorem StepLaws.linked {state' : State PathBuf}
    (hlaws : StepLaws roomSerde serde state event state')
    (hsettled : Settled state.store.memory) (hlinked : Linked state)
    (hkept : ¬Unlinks roomSerde state event)
    (happly : state' = apply roomSerde serde roots state event) : Linked state' := by
  intro roomId hbound
  rcases hlaws.rooms with ⟨command, faults, rfl, hbindings⟩ | hrooms
  · rw [hbindings] at hbound
    have hroom := hlinked roomId hbound
    have hcommand : ¬Removes roomSerde roomId command :=
      fun hremoves => hkept ⟨roomId, hbound, hremoves⟩
    rw [happly]
    exact mem_rooms_of_command hsettled hroom hcommand faults
  · rw [hrooms]
    rcases hlaws.bound roomId hbound with hbefore | ⟨root, faults, rfl⟩
    · exact hlinked roomId hbefore
    · by_contra hgone
      exact hkept hgone

/-- Without any file all is sound at first. -/
theorem sound_first {roomWorld world : World}
    (hroomPrimary : roomWorld.dir .primary = none) (hroomBackup : roomWorld.dir .backup = none)
    (hprimary : world.dir .primary = none) (hbackup : world.dir .backup = none) :
    Sound roomSerde serde roots (.first roomWorld world) ∧
      Linked (.first roomWorld world : State PathBuf) := by
  have hcurrent : world.dir.current = none :=
    (Directory.current_of_no_primary hprimary).trans hbackup
  refine ⟨⟨bundledSnapshot_settled, RoomSource.agrees_first _ hroomPrimary hroomBackup, ?_, ?_⟩, ?_⟩
  · exact AllEntries.empty
  · intro loaded hreading roomId root hroot
    obtain rfl : (∅ : Bindings PathBuf) = loaded := by
      have hnone : (State.first roomWorld world : State PathBuf).world.dir.current =
        none := hcurrent
      rw [hnone] at hreading
      exact Except.ok.inj hreading
    simp at hroot
  · intro roomId hbound
    simp [State.first] at hbound

variable (roomSerde serde roots) in
/-- No step of the run takes a bound room away, or binds one that is gone. -/
def KeepsRooms (events : List (Event roots)) (first : State PathBuf) : Prop :=
  ∀ before event rest, events = before ++ event :: rest →
    ¬Unlinks roomSerde (run roomSerde serde roots before first) event

/-- The empty run keeps the rooms. -/
theorem KeepsRooms.nil : KeepsRooms roomSerde serde roots [] state := by
  intro before event rest heq
  simp at heq

/-- A run keeps the rooms when its first step and the rest do. -/
theorem keepsRooms_cons {events : List (Event roots)} :
    KeepsRooms roomSerde serde roots (event :: events) state ↔
      ¬Unlinks roomSerde state event ∧
        KeepsRooms roomSerde serde roots events (apply roomSerde serde roots state event) := by
  constructor
  · intro h
    refine ⟨h [] event events rfl, fun before other rest heq => ?_⟩
    exact h (event :: before) other rest (by rw [heq]; rfl)
  · rintro ⟨hfirst, hrest⟩ before other rest heq
    rcases before with _ | ⟨first, before⟩
    · obtain ⟨rfl, -⟩ := List.cons.inj heq
      exact hfirst
    · obtain ⟨rfl, htail⟩ := List.cons.inj heq
      exact hrest before other rest htail

/-- Every binding is that of a room along such a run, by induction on its events. -/
theorem run_linked (hserde : serde.RoundTrips) (hroomSerde : roomSerde.RoundTrips)
    (events : List (Event roots)) (hsound : Sound roomSerde serde roots state)
    (hlinked : Linked state) (hkept : KeepsRooms roomSerde serde roots events state) :
    Sound roomSerde serde roots (run roomSerde serde roots events state) ∧
      Linked (run roomSerde serde roots events state) := by
  induction events generalizing state with
  | nil => exact ⟨hsound, hlinked⟩
  | cons event events ih =>
    have hlaws := apply_laws hserde hroomSerde hsound event
    obtain ⟨hfirst, hrest⟩ := keepsRooms_cons.mp hkept
    exact ih hlaws.sound (hlaws.linked hsound.settled hlinked hfirst rfl) hrest

variable (roomSerde serde roots) in
/-- What holds in every state of such a run. -/
structure Scoped (state : State PathBuf) : Prop where
  /-- Every room that has a binding exists. -/
  linked : Linked state
  /-- A room that comes to be has no binding. -/
  fresh : ∀ (event : Event roots) roomId, roomId ∉ state.roomIds →
    roomId ∈ (apply roomSerde serde roots state event).roomIds →
    (apply roomSerde serde roots state event).bindings[roomId]? = none
  /-- The clear command is open to every binding, and removes it where the rest can be persisted. -/
  clearable : ∀ (roomId : String) faults world', state.bindings[roomId]? ≠ none →
    ((workspacePersistence serde roots.isAbsolute).persist (state.bindings.erase roomId)).run faults
      state.world = (.done (), world') →
    clearWorkspace serde roots roomId faults state =
      (.done { roomId, mode := .chatOnly, folderName := none, available := true, changed := true },
        { state with bindings := state.bindings.erase roomId, world := world' })

/-- A sound state with linked bindings is scoped. -/
theorem Sound.scoped (hserde : serde.RoundTrips) (hroomSerde : roomSerde.RoundTrips)
    (h : Sound roomSerde serde roots state) (hlinked : Linked state) :
    Scoped roomSerde serde roots state := by
  refine ⟨hlinked, fun event roomId hnew hroom => ?_,
    fun roomId faults world' hbound hpersist => ?_⟩
  · have hlaws := apply_laws hserde hroomSerde h event
    -- Only a command of the rooms brings a new room, and it leaves the bindings.
    rcases hlaws.rooms with ⟨command, faults, rfl, hbindings⟩ | hrooms
    · rw [hbindings]
      by_contra hbound
      -- A bound room is one of the rooms, so a new one is not bound.
      exact hnew (hlinked roomId hbound)
    · rw [hrooms] at hroom
      exact absurd hroom hnew
  · obtain ⟨root, hroot⟩ := Option.ne_none_iff_exists'.mp hbound
    have hid := (h.valid roomId root hroot).1
    have hexists : ensureRoomExists state.store.memory roomId = .ok () := by
      have hroom := hlinked roomId hbound
      rw [State.roomIds, List.mem_map] at hroom
      rw [ensureRoomExists, hid, if_neg (by simp), if_pos]
      rw [List.any_eq_true]
      obtain ⟨room, hmem, heq⟩ := hroom
      exact ⟨room, hmem, by simpa using heq⟩
    have hclear : clear serde roots.isAbsolute faults roomId state.bindings state.world =
        (.done (), state.bindings.erase roomId, world') := by
      rw [clear, hid, if_neg (by simp), replaceBindings, hpersist]
    rw [clearWorkspace, hexists]
    dsimp only
    rw [hclear]
    dsimp only
    rw [status, hexists]
    simp

end Runs

/-- From a first run without any file, in every run in which no step takes a bound room away, or
binds one that is gone: every binding is that of a room, so a room that comes to be has no
workspace, and every binding can be cleared. -/
theorem bindings_scoped {roomSerde : Serde PersistedRoomFile}
    {serde : Serde (PersistedWorkspaceFile PathBuf)} {roots : Roots PathBuf}
    (hroomSerde : roomSerde.RoundTrips) (hserde : serde.RoundTrips) {roomWorld world : World}
    (hroomPrimary : roomWorld.dir .primary = none) (hroomBackup : roomWorld.dir .backup = none)
    (hprimary : world.dir .primary = none) (hbackup : world.dir .backup = none)
    (events : List (Event roots))
    (hkept : KeepsRooms roomSerde serde roots events (.first roomWorld world)) :
    Scoped roomSerde serde roots (run roomSerde serde roots events (.first roomWorld world)) := by
  obtain ⟨hsound, hlinked⟩ := @sound_first _ roomSerde serde roots _ _ hroomPrimary hroomBackup
    hprimary hbackup
  obtain ⟨hsound, hlinked⟩ := run_linked hserde hroomSerde events hsound hlinked hkept
  exact hsound.scoped hserde hroomSerde hlinked

namespace Sample

/-- Folders that are named by their paths. -/
def roots : Roots String where
  isAbsolute root := root.startsWith "/"
  folderName root := root
  isSafe _ := true

/-- The room is created. -/
def create (timestamp : String) : Event roots :=
  .room (.createRoom "plans" "Plans" (some timestamp)) []

/-- The room is deleted. -/
def delete (timestamp : String) : Event roots := .room (.deleteRoom "plans" (some timestamp)) []

/-- A room is created, and bound to a folder. -/
def bound : List (Event roots) :=
  [.restart 7 [], create "2026-08-13T00:00:00.000Z", .choose "plans",
    .picked "plans" (.ok ⟨"/work", by decide +kernel⟩) []]

/-- The room of the examples. -/
def plans : Room := ⟨"plans", "Plans", [ownerParticipantId, "codex"], []⟩

/-- The rooms at a time, with those that were added to the bundled ones. -/
def roomsAt (generatedAt : String) (added : List Room) : RoomSnapshot :=
  { bundledSnapshot with generatedAt, rooms := bundledSnapshot.rooms ++ added }

/-- A serializer that knows the three states of the rooms. -/
def roomSerde : Serde PersistedRoomFile :=
  RoomPersistence.Sample.serde [roomsAt "2026-08-13T00:00:00.000Z" [plans],
    roomsAt "2026-08-13T00:00:01.000Z" [], roomsAt "2026-08-13T00:00:02.000Z" [plans]]

/-- A serializer that knows the file with the one binding. -/
def serde : Serde (PersistedWorkspaceFile String) :=
  .table [(⟨workspaceFileVersion, [⟨"plans", "/work"⟩]⟩,
      asBytes ("\x7b\"fileVersion\":1,\"bindings\":[\x7b\"roomId\":\"plans\"," ++
        "\"root\":\"/work\"\x7d]\x7d")),
    (⟨workspaceFileVersion, []⟩, asBytes "\x7b\"fileVersion\":1,\"bindings\":[]\x7d")]

/-- A run that creates a room and binds it. -/
theorem bindings_scoped_sample :
    Scoped roomSerde serde roots
      (run roomSerde serde roots bound (.first (.empty 7) (.empty 7))) := by
  have hroomSerde : roomSerde.RoundTrips := Serde.table_roundTrips (by decide)
    (by decide)
  have hserde : serde.RoundTrips := Serde.table_roundTrips (by decide) (by decide)
  refine bindings_scoped hroomSerde hserde rfl rfl rfl rfl bound ?_
  simp only [bound, keepsRooms_cons]
  refine ⟨id, ?_, id, ?_, .nil⟩
  · rintro ⟨roomId, -, ⟨timestamp, h, -⟩ | ⟨source, content, snapshot, h, -⟩⟩
    · cases h
    · cases h
  · intro hgone
    refine hgone ?_
    decide +kernel

/-- The room is deleted. Its binding stays, no command clears it, and a room that is created under
the identifier has the workspace. -/
theorem binding_outlives_room :
    let gone := run roomSerde serde roots (bound ++ [delete "2026-08-13T00:00:01.000Z"])
      (.first (.empty 7) (.empty 7))
    let again := apply roomSerde serde roots gone (create "2026-08-13T00:00:02.000Z")
    ("plans" ∉ gone.roomIds ∧ gone.bindings["plans"]? = some "/work" ∧
      (clearWorkspace serde roots "plans" [] gone).1 = .error (mapError .roomNotFound)) ∧
      "plans" ∈ again.roomIds ∧ again.bindings["plans"]? = some "/work" := by
  decide +kernel

end Sample

end Mio.Desktop.RoomWorkspace
