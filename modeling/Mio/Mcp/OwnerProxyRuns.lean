import Mio.Desktop.RoomBackupCommands
import Mio.Mcp.OwnerProxy

/-!
# Which messages are marked as posted for the owner

The runs of the application in which messages are posted for the owner: Room commands, the messages
of others, calls of the tool, restarts, and restores of files that the application has exported, in
this run or in another. What is not in the code is a record of the messages that the tool has
appended (`State.posted`). A message that is stored is marked exactly if it is in that record, and
it stays as it is until its room is deleted or a file without it is restored (`owner_proxy_exact`).
-/

namespace Mio.Mcp

open Library Mio.Core Mio.Desktop RoomBackupCommands
open RoomSource (Agrees)

/-! ## The runs -/

/-- The application, with the messages that the tool has appended. -/
structure State where
  app : RoomSource.State
  posted : List RoomMessage

/-- What can happen, each under some schedule of faults. -/
inductive Event where
  /-- A Room command. -/
  | command (command : RoomCommands.Command) (faults : List Fault)
  /-- A message that an AI participant, the conductor, or the browser bridge makes. -/
  | append (id roomId authorId : String) (recipients : List String) (body createdAt : String)
    (artifactIds : List String) (faults : List Fault)
  /-- A call of the tool, which reads the room in one snapshot and writes to the current one. -/
  | postAsOwner (read : RoomSnapshot) (input : MioRoomPostAsOwnerInput) (createdAt : String)
    (faults : List Fault)
  /-- The restore of a file that was exported in some state. -/
  | restore (source : RoomSource.SnapshotSource) (exported : State) (faults : List Fault)
  | restart (pid : ℕ) (faults : List Fault)

/-- What a call of the tool leaves, by how it ends. A message that it has appended is recorded. -/
def State.afterPost (state : State) :
    Outcome DesktopRoomPersistenceError (Except MioWriteToolError RoomWriteSuccess × RoomSnapshot) ×
      World → State
  | (.done (.ok success, memory), world) =>
    { app := { memory, world, running := true }
      posted :=
        if success.status == .appended then success.message :: state.posted else state.posted }
  | (.done (.error _, memory), world) => { state with app := { memory, world, running := true } }
  | (.error _, world) => { state with app := { state.app with world, running := false } }
  | (.cut, world) => { state with app := { state.app with world, running := false } }

section Runs

variable (serde : Serde PersistedRoomFile)

/-- What an append of a message leaves, which is refused where there is no draft of it. -/
def State.afterAppend (state : State) (made : Except RoomMessageDraftError RoomMessageDraft)
    (faults : List Fault) : State :=
  match made with
  | .error _ => state
  | .ok draft =>
    { state with
      app := RoomCommands.apply serde state.app (.command (.appendMessage draft) faults) }

/-- What an event leaves. What the state that a restored file was exported in counts as posted does
so from then on. -/
def apply (state : State) : Event → State
  | .command command faults =>
    { state with app := RoomCommands.apply serde state.app (.command command faults) }
  | .append id roomId authorId recipients body createdAt artifactIds faults =>
    state.afterAppend serde
      (RoomMessageDraft.tryNew id roomId authorId recipients body createdAt artifactIds) faults
  | .postAsOwner read input createdAt faults =>
    if state.app.running then
      state.afterPost
        ((roomPostAsOwner serde read input createdAt state.app.memory).run faults state.app.world)
    else state
  | .restore source exported faults =>
    { app := RoomCommands.apply serde state.app (.command (.restoreSnapshot source) faults)
      posted := state.posted ++ exported.posted }
  | .restart pid faults =>
    { state with app := RoomCommands.apply serde state.app (.restart pid faults) }

/-- What a run of events leaves. -/
def run (events : List Event) (state : State) : State := events.foldl (apply serde) state

/-- A Room command, which neither appends a given message nor restores a file. -/
def IsRoomCommand : RoomCommands.Command → Prop
  | .appendMessage _ => False
  | .restoreSnapshot _ => False
  | _ => True

/-- The states that the application can be in, from a first run without any file on. -/
inductive Reached : State → Prop
  | first (world : World) (hp : world.dir .primary = none) (hb : world.dir .backup = none) :
    Reached { app := RoomCommands.firstRun world, posted := [] }
  | command {state : State} (h : Reached state) (command : RoomCommands.Command)
    (hcommand : IsRoomCommand command) (faults : List Fault) :
    Reached (apply serde state (.command command faults))
  | append {state : State} (h : Reached state) (id roomId authorId : String)
    (recipients : List String) (body createdAt : String) (artifactIds : List String)
    (faults : List Fault) :
    Reached (apply serde state
      (.append id roomId authorId recipients body createdAt artifactIds faults))
  | postAsOwner {state reading : State} (h : Reached state) (hreading : Reached reading)
    (input : MioRoomPostAsOwnerInput) (createdAt : String) (faults : List Fault) :
    Reached (apply serde state (.postAsOwner reading.app.memory input createdAt faults))
  | restore {state exported : State} (h : Reached state) (hexported : Reached exported)
    {content : Bytes} (hexport : IsExport serde exported.app.memory content)
    (source : RoomSource.SnapshotSource) (hcontent : source.content = some content)
    (faults : List Fault) : Reached (apply serde state (.restore source exported faults))
  | restart {state : State} (h : Reached state) (pid : ℕ) (faults : List Fault) :
    Reached (apply serde state (.restart pid faults))

/-- The events that can happen in such a state. -/
inductive Admitted : Event → Prop
  | command (command : RoomCommands.Command) (hcommand : IsRoomCommand command)
    (faults : List Fault) : Admitted (.command command faults)
  | append (id roomId authorId : String) (recipients : List String) (body createdAt : String)
    (artifactIds : List String) (faults : List Fault) :
    Admitted (.append id roomId authorId recipients body createdAt artifactIds faults)
  | postAsOwner {reading : State} (hreading : Reached serde reading)
    (input : MioRoomPostAsOwnerInput) (createdAt : String) (faults : List Fault) :
    Admitted (.postAsOwner reading.app.memory input createdAt faults)
  | restore {exported : State} (hexported : Reached serde exported) {content : Bytes}
    (hexport : IsExport serde exported.app.memory content) (source : RoomSource.SnapshotSource)
    (hcontent : source.content = some content) (faults : List Fault) :
    Admitted (.restore source exported faults)
  | restart (pid : ℕ) (faults : List Fault) : Admitted (.restart pid faults)

/-- The event takes the message out: it deletes its room, or it restores a file without it. -/
def Event.Drops (message : RoomMessage) : Event → Prop
  | .command (.deleteRoom roomId _) _ => roomId = message.roomId
  | .restore _ exported _ => message ∉ exported.app.memory.messages
  | _ => False

variable {serde} {state : State}

/-- An admitted event leads to a reached state. -/
theorem Reached.apply (h : Reached serde state) {event : Event} (hevent : Admitted serde event) :
    Reached serde (apply serde state event) := by
  cases hevent with
  | command command hcommand faults => exact h.command command hcommand faults
  | append id roomId authorId recipients body createdAt artifactIds faults =>
    exact h.append id roomId authorId recipients body createdAt artifactIds faults
  | postAsOwner hreading input createdAt faults =>
    exact h.postAsOwner hreading input createdAt faults
  | restore hexported hexport source hcontent faults =>
    exact h.restore hexported hexport source hcontent faults
  | restart pid faults => exact h.restart pid faults

/-- A run of admitted events leads to a reached state. -/
theorem Reached.run (h : Reached serde state) {events : List Event}
    (hevents : ∀ event ∈ events, Admitted serde event) :
    Reached serde (run serde events state) := by
  induction events generalizing state with
  | nil => exact h
  | cons event events ih =>
    rw [List.forall_mem_cons] at hevents
    exact ih (h.apply hevents.1) hevents.2

end Runs

/-! ## What one event does to the messages -/

/-- An operation adds no message but the one that it appends. -/
theorem mem_messages_of_step {snapshot snapshot' : RoomSnapshot} {operation : RoomOperation}
    (hstep : RoomStep snapshot operation snapshot') {message : RoomMessage}
    (hmem : message ∈ snapshot'.messages) :
    message ∈ snapshot.messages ∨
      ∃ draft, operation = .appendMessage draft ∧ message = draft.message := by
  -- Only an append brings a message.
  cases hstep with
  | unchanged => exact .inl hmem
  | append draft before room after hroom =>
    simp only [RoomSnapshot.messages, List.flatMap_append, List.flatMap_cons, List.mem_append,
      List.mem_singleton] at hmem
    rw [hroom.messages, List.mem_append, List.mem_append]
    rcases hmem with hmem | (hmem | rfl) | hmem
    · exact .inl (.inl hmem)
    · exact .inl (.inr (.inl hmem))
    · exact .inr ⟨draft, rfl, rfl⟩
    · exact .inl (.inr (.inr hmem))
  | create draft =>
    left
    simpa [RoomSnapshot.messages, draft.noMessages] using hmem
  | addParticipant _ _ _ before room after hroom =>
    left
    rw [hroom.messages]
    simpa [RoomSnapshot.messages] using hmem
  | rename _ _ _ before room after hroom =>
    left
    rw [hroom.messages]
    simpa [RoomSnapshot.messages] using hmem
  | removeParticipant _ _ _ before room after hroom =>
    left
    rw [hroom.messages]
    simpa [RoomSnapshot.messages] using hmem
  | delete roomId updatedAt before room after hroom =>
    left
    rw [hroom.messages]
    simp only [RoomSnapshot.messages, List.flatMap_append, List.mem_append] at hmem ⊢
    tauto

section Steps

variable {serde : Serde PersistedRoomFile}

/-- What a command does to the snapshot in memory, unless it is a restore: nothing, or an
operation. -/
theorem command_memory {app : RoomSource.State} (hvalid : validateSnapshot app.memory = .ok ())
    {command : RoomCommands.Command} (hrestore : ∀ source, command ≠ .restoreSnapshot source)
    (faults : List Fault) :
    let after := (RoomCommands.apply serde app (.command command faults)).memory
    after = app.memory ∨
      ∃ operation, after = operation.apply app.memory ∧ command.Asks operation ∧
        ∀ draft, operation = .appendMessage draft →
          draft.message.provenance = none ∨ command = .appendMessage draft := by
  intro after
  by_cases hrunning : app.running = true
  -- By what the command writes: nothing, one operation, or a snapshot that is restored.
  · rcases @RoomCommands.Command.prog_writes serde app.memory command with
      heq | ⟨operation, heq, hasks, hdraft⟩ | ⟨source, hcommand⟩
    · left
      simp only [after, RoomCommands.apply, hrunning, heq, if_true]
      rfl
    · have hrun := @RoomSource.writeOperation_run serde _ operation hvalid faults app.world
      simp only [after, RoomCommands.apply, hrunning, heq, if_true]
      rw [hrun]
      by_cases hok : operation.isOk app.memory = true
      · rw [if_pos hok]
        rcases (RoomPersistence.persist serde (operation.apply app.memory)).run faults app.world
          with ⟨_ | _ | _, w'⟩
        · exact .inr ⟨operation, rfl, hasks, hdraft⟩
        · exact .inl rfl
        · exact .inl rfl
      · rw [if_neg hok]
        exact .inl rfl
    · exact absurd hcommand (hrestore source)
  · left
    simp only [after, RoomCommands.apply, hrunning]
    rfl

/-- What a restore does to it: nothing, or an import of the file. -/
theorem restore_memory {app : RoomSource.State} (hvalid : validateSnapshot app.memory = .ok ())
    (source : RoomSource.SnapshotSource) (faults : List Fault) :
    let after := (RoomCommands.apply serde app (.command (.restoreSnapshot source) faults)).memory
    after = app.memory ∨ ∃ content, source.content = some content ∧
      RoomSource.importSnapshot serde content = .ok after := by
  intro after
  by_cases hrunning : app.running = true
  · have hends := Prog.run_wp _ faults app.world (@restoreSnapshot_ends serde _ _ hvalid source)
    simp only [after, RoomCommands.apply, hrunning, if_true,
      RoomCommands.Command.prog, Prog.run_map]
    rcases hrun : (RoomSource.restoreSnapshot serde source app.memory).run faults app.world with
      ⟨⟨_ | _, memory⟩ | _ | _, w'⟩
    all_goals rw [hrun] at hends
    · exact .inl (hends.2 _ rfl).1
    · obtain ⟨content, hcontent, himport, -⟩ := hends.1 rfl
      exact .inr ⟨content, hcontent, himport⟩
    · exact .inl rfl
    · exact .inl rfl
  · left
    simp only [after, RoomCommands.apply, hrunning]
    rfl

/-- The application after a call of the tool is as after an append of its draft. -/
theorem postAsOwner_app (state : State) (read : RoomSnapshot) (input : MioRoomPostAsOwnerInput)
    (createdAt : String) (faults : List Fault) :
    (apply serde state (.postAsOwner read input createdAt faults)).app =
      match ownerProxyDraft read input createdAt with
      | .error _ => state.app
      | .ok draft =>
        RoomCommands.apply serde state.app (.command (.appendMessage draft) faults) := by
  obtain ⟨⟨memory, world, running⟩, posted⟩ := state
  simp only [apply, roomPostAsOwner]
  generalize ownerProxyDraft read input createdAt = made
  cases running with
  | false => rcases made with e | draft <;> simp [RoomCommands.apply]
  | true =>
    rcases made with e | draft
    · rfl
    · simp only [RoomCommands.apply, RoomCommands.Command.prog, if_true, Prog.run_map]
      rcases (RoomSource.appendMessage serde draft memory).run faults world with
        ⟨⟨_ | _, memory'⟩ | _ | _, w'⟩ <;> rfl

/-- What a call of the tool does: nothing, or it appends its message and records it. -/
theorem postAsOwner_memory {state : State} (hvalid : validateSnapshot state.app.memory = .ok ())
    (read : RoomSnapshot) (input : MioRoomPostAsOwnerInput) (createdAt : String)
    (faults : List Fault) :
    let after := apply serde state (.postAsOwner read input createdAt faults)
    (after.app.memory = state.app.memory ∧ after.posted = state.posted) ∨
      ∃ draft, ownerProxyDraft read input createdAt = .ok draft ∧
        after.app.memory = RoomOperation.apply state.app.memory (.appendMessage draft) ∧
        after.posted = draft.message :: state.posted := by
  intro after
  by_cases hrunning : state.app.running = true
  -- The post is refused, or it is an append that is persisted.
  · rcases hdraft : ownerProxyDraft read input createdAt with e | draft
    · left
      simp only [after, apply, roomPostAsOwner, hdraft, hrunning, if_true]
      exact ⟨rfl, rfl⟩
    have hrun := @roomPostAsOwner_run serde _ hvalid _ _ _ _ hdraft faults state.app.world
    rcases happend : Core.appendMessage draft state.app.memory with ⟨e | success, memory'⟩
    · left
      rw [happend] at hrun
      simp only [after, apply, hrunning, if_true, hrun]
      exact ⟨rfl, rfl⟩
    rw [happend] at hrun
    rcases hpersist : (RoomPersistence.persist serde memory').run faults state.app.world with
      ⟨_ | _ | _, w'⟩
    all_goals simp only [hpersist] at hrun
    all_goals simp only [after, apply, hrunning, if_true, hrun, State.afterPost]
    -- A repeated append leaves the rooms and is not recorded as posted.
    · rcases appendMessage_ok happend with ⟨hstatus, hsame⟩ | ⟨hstatus, hmessage⟩
      · left
        rw [hstatus]
        exact ⟨hsame, rfl⟩
      · right
        refine ⟨draft, rfl, ?_, ?_⟩
        · exact (congrArg Prod.snd happend).symm
        · rw [hstatus, hmessage]
          rfl
    · exact .inl ⟨trivial, trivial⟩
    · exact .inl ⟨trivial, trivial⟩
  · left
    simp [after, apply, hrunning]

/-- A restart yields the snapshot that was in memory. -/
theorem restart_memory {app : RoomSource.State} (hsettled : Settled app.memory)
    (hagrees : Agrees serde app.memory app.world.dir) (pid : ℕ) (faults : List Fault) :
    (RoomCommands.apply serde app (.restart pid faults)).memory = app.memory := by
  have hends := Prog.run_wp _ faults _
    (RoomSource.start_wp_of_agrees (w := app.world.restart pid) hsettled hagrees)
  rw [RoomCommands.apply]
  rcases hrun : (RoomSource.start serde).run faults (app.world.restart pid) with ⟨_ | _ | _, w'⟩
  · rw [hrun] at hends
    exact hends.1
  · rfl
  · rfl

end Steps

/-! ## What holds in every state -/

/-- A message of valid rooms is stored. -/
theorem stored_of_mem {snapshot : RoomSnapshot} (h : ValidSnapshot snapshot) {message : RoomMessage}
    (hmem : message ∈ snapshot.messages) : Stored message snapshot := by
  obtain ⟨room, hroom, hmessage⟩ := List.mem_flatMap.mp hmem
  exact ⟨room, hroom, ((h.rooms room hroom).messages message hmessage).roomId.symm, hmessage⟩

/-- What the runs keep: the store's own invariant, and the record of what was posted. -/
structure Sound (serde : Serde PersistedRoomFile) (state : State) : Prop where
  settled : Settled state.app.memory
  agrees : Agrees serde state.app.memory state.app.world.dir
  marked : ∀ message ∈ state.app.memory.messages,
    message.provenance = some .codexOwnerProxy → message ∈ state.posted
  posted : ∀ message ∈ state.posted, Posted message

section Invariant

variable {serde : Serde PersistedRoomFile} {state : State}

/-- A Room command, or an append of a message without a mark, keeps the invariant. -/
theorem Sound.command (hserde : serde.RoundTrips) (h : Sound serde state)
    {command : RoomCommands.Command} (hrestore : ∀ source, command ≠ .restoreSnapshot source)
    (hdraft : ∀ draft, command = .appendMessage draft → draft.message.provenance = none)
    (faults : List Fault) :
    Sound serde
      { state with app := RoomCommands.apply serde state.app (.command command faults) } := by
  obtain ⟨hsettled, hagrees⟩ :=
    RoomCommands.apply_settled hserde h.settled h.agrees (.command command faults)
  refine ⟨hsettled, hagrees, fun message hmem hmarked => ?_, h.posted⟩
  rcases command_memory h.agrees.valid hrestore faults with
    hsame | ⟨operation, hafter, -, hnone⟩
  · exact h.marked message (hsame ▸ hmem) hmarked
  · have hstep := operation.apply_step state.app.memory
    rw [← hafter] at hstep
    rcases mem_messages_of_step hstep hmem with hold | ⟨draft, hoperation, rfl⟩
    · exact h.marked message hold hmarked
    · -- The message of a command has no mark.
      have hunmarked : draft.message.provenance = none := by
        rcases hnone draft hoperation with hnone | hcommand
        · exact hnone
        · exact hdraft draft hcommand
      rw [hunmarked] at hmarked
      cases hmarked

/-- So does a restore of a file that was exported in a state with the invariant. -/
theorem Sound.restore (hserde : serde.RoundTrips) (h : Sound serde state) {exported : State}
    (hexported : Sound serde exported) {content : Bytes}
    (hexport : IsExport serde exported.app.memory content) {source : RoomSource.SnapshotSource}
    (hcontent : source.content = some content) (faults : List Fault) :
    Sound serde (apply serde state (.restore source exported faults)) := by
  obtain ⟨hsettled, hagrees⟩ :=
    RoomCommands.apply_settled hserde h.settled h.agrees (.command (.restoreSnapshot source) faults)
  refine ⟨hsettled, hagrees, fun message hmem hmarked => ?_, fun message hmem => ?_⟩
  · rw [apply, List.mem_append]
    rcases restore_memory h.agrees.valid source faults with hsame | ⟨found, hfound, himport⟩
    · exact .inl (h.marked message (hsame ▸ hmem) hmarked)
    · obtain rfl : content = found := Option.some.inj (hcontent.symm.trans hfound)
      rw [importSnapshot_export hserde hexported.settled hexport] at himport
      have hmemory := Except.ok.inj himport
      exact .inr (hexported.marked message (hmemory ▸ hmem) hmarked)
  · rw [apply, List.mem_append] at hmem
    rcases hmem with hmem | hmem
    · exact h.posted message hmem
    · exact hexported.posted message hmem

/-- So does a call of the tool that reads the room in a state with the invariant. -/
theorem Sound.postAsOwner (hserde : serde.RoundTrips) (h : Sound serde state) {read : RoomSnapshot}
    (hread : Settled read) (input : MioRoomPostAsOwnerInput) (createdAt : String)
    (faults : List Fault) :
    Sound serde (apply serde state (.postAsOwner read input createdAt faults)) := by
  have happ := @postAsOwner_app serde state read input createdAt faults
  have hmemory := @postAsOwner_memory serde state h.agrees.valid read input createdAt faults
  generalize apply serde state (.postAsOwner read input createdAt faults) = after at happ hmemory
  obtain ⟨hsettled, hagrees⟩ : Settled after.app.memory ∧
      Agrees serde after.app.memory after.app.world.dir := by
    rw [happ]
    split
    · exact ⟨h.settled, h.agrees⟩
    · exact RoomCommands.apply_settled hserde h.settled h.agrees _
  refine ⟨hsettled, hagrees, fun message hmem hmarked => ?_, fun message hmem => ?_⟩
  · rcases hmemory with ⟨hsame, hposted⟩ | ⟨draft, -, hafter, hposted⟩
    · rw [hposted]
      exact h.marked message (hsame ▸ hmem) hmarked
    · have hstep := RoomOperation.apply_step state.app.memory (.appendMessage draft)
      rw [← hafter] at hstep
      rw [hposted, List.mem_cons]
      -- A message is an old one, or the one that was posted.
      rcases mem_messages_of_step hstep hmem with hold | ⟨other, hoperation, rfl⟩
      · exact .inr (h.marked message hold hmarked)
      · obtain rfl := RoomOperation.appendMessage.inj hoperation
        exact .inl rfl
  · rcases hmemory with ⟨-, hposted⟩ | ⟨draft, hdraft, -, hposted⟩
    · exact h.posted message (hposted ▸ hmem)
    · rw [hposted, List.mem_cons] at hmem
      rcases hmem with rfl | hmem
      · exact (ownerProxyDraft_posted hread hdraft).1
      · exact h.posted message hmem

/-- Every state that the application can be in has the invariant. -/
theorem Reached.sound (hserde : serde.RoundTrips) (h : Reached serde state) :
    Sound serde state := by
  -- By induction on the run.
  induction h with
  | first world hp hb =>
    refine ⟨bundledSnapshot_settled, RoomSource.agrees_first serde hp hb, ?_, by simp⟩
    have hplain : ∀ message ∈ bundledSnapshot.messages, message.provenance = none := by
      decide
    intro message hmem hmarked
    rw [hplain message hmem] at hmarked
    cases hmarked
  | command _ command hcommand faults ih =>
    refine ih.command hserde ?_ ?_ faults
    · rintro source rfl
      exact hcommand
    · rintro draft rfl
      exact hcommand.elim
  | append _ id roomId authorId recipients body createdAt artifactIds faults ih =>
    rw [Mcp.apply]
    rcases hmade : RoomMessageDraft.tryNew id roomId authorId recipients body createdAt artifactIds
      with _ | draft
    · exact ih
    -- The messages of the window carry no provenance.
    · have hdraft : draft.message.provenance = none := by rw [RoomCommands.message_of_draft hmade]
      exact @Sound.command serde _ hserde ih (.appendMessage draft) nofun
        (fun _ heq => RoomCommands.Command.appendMessage.inj heq ▸ hdraft) faults
  | postAsOwner _ _ input createdAt faults ih ihreading =>
    exact ih.postAsOwner hserde ihreading.settled input createdAt faults
  | restore _ _ hexport source hcontent faults ih ihexported =>
    exact ih.restore hserde ihexported hexport hcontent faults
  | restart _ pid faults ih =>
    obtain ⟨hsettled, hagrees⟩ :=
      RoomCommands.apply_settled hserde ih.settled ih.agrees (.restart pid faults)
    refine ⟨hsettled, hagrees, fun message hmem hmarked => ?_, ih.posted⟩
    have hsame := restart_memory ih.settled ih.agrees pid faults
    rw [Mcp.apply] at hmem
    exact ih.marked message (hsame ▸ hmem) hmarked

/-- A stored message stays as it is, unless the event drops it. -/
theorem Sound.stays (hserde : serde.RoundTrips) (h : Sound serde state) {event : Event}
    (hevent : Admitted serde event) {message : RoomMessage} (hdrops : ¬event.Drops message)
    (hstored : Stored message state.app.memory) :
    Stored message (apply serde state event).app.memory := by
  -- No operation that keeps the room takes a message away.
  have happly : ∀ operation : RoomOperation,
      operation.deletes message.roomId state.app.memory = false →
      Stored message (operation.apply state.app.memory) := by
    intro operation hkept
    exact @Stored.run _ _ hstored [operation] ⟨hkept, trivial⟩
  cases hevent with
  | command command hcommand faults =>
    have hrestore : ∀ source, command ≠ .restoreSnapshot source := by
      rintro source rfl
      exact hcommand
    rw [apply]
    rcases command_memory h.agrees.valid hrestore faults with hsame | ⟨operation, hafter, hasks, -⟩
    · rw [hsame]
      exact hstored
    · rw [hafter]
      refine happly operation ?_
      cases operation with
      | deleteRoom roomId updatedAt =>
        -- Only the deletion of another room gets here.
        obtain ⟨⟨timestamp, rfl⟩, -⟩ := hasks.deletes roomId updatedAt rfl
        have hne : (roomId == message.roomId) = false := beq_eq_false_iff_ne.mpr hdrops
        rw [RoomOperation.deletes, hne, Bool.false_and]
      | _ => rfl
  | append id roomId authorId recipients body createdAt artifactIds faults =>
    rw [apply]
    rcases hmade : RoomMessageDraft.tryNew id roomId authorId recipients body createdAt artifactIds
      with _ | draft
    · exact hstored
    · have hrestore : ∀ source, RoomCommands.Command.appendMessage draft ≠
        .restoreSnapshot source := by
        rintro source ⟨⟩
      rcases @command_memory serde _ h.agrees.valid
        (.appendMessage draft) hrestore faults with hsame | ⟨operation, hafter, hasks, -⟩
      · rw [State.afterAppend, hsame]
        exact hstored
      · rw [State.afterAppend, hafter]
        refine happly operation ?_
        cases operation with
        | deleteRoom roomId updatedAt =>
          obtain ⟨⟨timestamp, hcommand⟩, -⟩ := hasks.deletes roomId updatedAt rfl
          cases hcommand
        | _ => rfl
  | postAsOwner hreading input createdAt faults =>
    rcases @postAsOwner_memory serde state h.agrees.valid _ input createdAt faults with
      ⟨hsame, -⟩ | ⟨draft, -, hafter, -⟩
    · rw [hsame]
      exact hstored
    · rw [hafter]
      exact happly _ rfl
  | restore hexported hexport source hcontent faults =>
    rename_i exported content
    rw [apply]
    rcases restore_memory h.agrees.valid source faults with hsame | ⟨found, hfound, himport⟩
    · rw [hsame]
      exact hstored
    -- A restore is of an export, and the message is in the snapshot that was exported.
    · obtain rfl : content = found := Option.some.inj (hcontent.symm.trans hfound)
      have hsettled := (hexported.sound hserde).settled
      rw [importSnapshot_export hserde hsettled hexport] at himport
      rw [← Except.ok.inj himport]
      exact stored_of_mem hsettled.valid (not_not.mp hdrops)
  | restart pid faults =>
    rw [apply, restart_memory h.settled h.agrees]
    exact hstored

/-- It stays so through every run of events that do not drop it. -/
theorem Reached.stays (hserde : serde.RoundTrips) (h : Reached serde state) {events : List Event}
    {message : RoomMessage}
    (hevents : ∀ event ∈ events, Admitted serde event ∧ ¬event.Drops message)
    (hstored : Stored message state.app.memory) :
    Stored message (Mcp.run serde events state).app.memory := by
  induction events generalizing state with
  | nil => exact hstored
  | cons event events ih =>
    rw [List.forall_mem_cons] at hevents
    obtain ⟨⟨hevent, hdrops⟩, hrest⟩ := hevents
    exact ih (h.apply hevent) hrest ((h.sound hserde).stays hserde hevent hdrops hstored)

end Invariant

/-! ## The marks are exact -/

/-- What holds of the messages that are marked as posted for the owner. -/
structure OwnerProxyLaws (serde : Serde PersistedRoomFile) (state : State) : Prop where
  /-- A stored message is marked exactly if the tool has appended it. -/
  exact : ∀ message ∈ state.app.memory.messages,
    message.provenance = some .codexOwnerProxy ↔ message ∈ state.posted
  /-- Its author is the only human in its room. -/
  author : ∀ message ∈ state.app.memory.messages, message.provenance = some .codexOwnerProxy →
    ∃ room ∈ state.app.memory.rooms, message ∈ room.messages ∧
      ∃ owner, humansIn state.app.memory room = [owner] ∧ message.authorId = owner.id
  /-- Its identifier is that of a request. -/
  request : ∀ message ∈ state.app.memory.messages, message.provenance = some .codexOwnerProxy →
    ∃ requestId, validRequestId requestId = true ∧
      message.id = ownerProxyMessageIdPrefix ++ requestId
  /-- There is at most one message for a request in all rooms. -/
  unique : ∀ requestId, ∀ message ∈ state.app.memory.messages,
    ∀ other ∈ state.app.memory.messages, message.id = ownerProxyMessageIdPrefix ++ requestId →
      other.id = ownerProxyMessageIdPrefix ++ requestId → other = message
  /-- Until an event drops it, it stays as it is. A call with its content returns it then and
  changes nothing, unless the snapshot cannot be persisted. -/
  kept : ∀ message ∈ state.app.memory.messages, message.provenance = some .codexOwnerProxy →
    ∀ events : List Event, (∀ event ∈ events, Admitted serde event ∧ ¬event.Drops message) →
    let later := (run serde events state).app
    message ∈ later.memory.messages ∧
      ∀ (input : MioRoomPostAsOwnerInput) (createdAt : String) (faults : List Fault),
        message.id = ownerProxyMessageIdPrefix ++ input.requestId →
        message.roomId = input.roomId → message.recipients = input.recipientIds →
        message.body = input.body → validText createdAt 64 = true →
        (roomPostAsOwner serde later.memory input createdAt later.memory).run faults later.world =
          match (RoomPersistence.persist serde later.memory).run faults later.world with
          | (.done _, w') => (.done (.ok (.new .duplicate message), later.memory), w')
          | (.error _, w') => (.done (.error (mapWriteError .sourceUnavailable), later.memory), w')
          | (.cut, w') => (.cut, w')

/-- In every state that the application can be in, the messages that are marked as posted for the
owner are those that the tool has appended. -/
theorem owner_proxy_exact {serde : Serde PersistedRoomFile} (hserde : serde.RoundTrips)
    {state : State} (h : Reached serde state) : OwnerProxyLaws serde state := by
  have hsound := h.sound hserde
  have hvalid := hsound.settled.valid
  have hposted : ∀ message ∈ state.app.memory.messages,
      message.provenance = some .codexOwnerProxy → Posted message := fun message hmem hmarked =>
    hsound.posted message (hsound.marked message hmem hmarked)
  refine ⟨fun message hmem => ?_, fun message hmem hmarked => ?_, fun message hmem hmarked => ?_,
    fun requestId message hmem other hother hid hotherId => ?_,
    fun message hmem hmarked events hevents => ?_⟩
  · constructor
    · exact hsound.marked message hmem
    · intro hrecorded
      exact (hsound.posted message hrecorded).provenance
  · obtain ⟨room, hroom, hmessage⟩ := List.mem_flatMap.mp hmem
    have hauthor := ((hvalid.rooms room hroom).messages message hmessage).authorId
    have howner := (hposted message hmem hmarked).authorId
    rw [howner] at hauthor
    exact ⟨room, hroom, hmessage, _, humansIn_of_mem hsound.settled hroom hauthor, howner⟩
  · exact (hposted message hmem hmarked).request
  · exact List.inj_on_of_nodup_map hvalid.messages_nodup hother hmem (hotherId.trans hid.symm)
  · have hstored := h.stays hserde hevents (stored_of_mem hvalid hmem)
    have hlater := (h.run fun event hevent => (hevents event hevent).1).sound hserde
    refine ⟨hstored.mem, fun input createdAt faults hid hroomId hrecipients hbody hcreated => ?_⟩
    exact roomPostAsOwner_again hlater.settled (hposted message hmem hmarked) hstored hid hroomId
      hrecipients hbody hcreated faults _

namespace OwnerProxySample

/-- A call of the tool, for a room of the bundled ones. -/
def input : MioRoomPostAsOwnerInput where
  requestId := "request-1"
  roomId := "mcp-lab"
  recipientIds := ["generic-mcp"]
  body := "Look into this."

/-- The message for the request, at a time. -/
def posted (createdAt : String) : RoomMessage where
  id := "mcp-owner-request-1"
  roomId := "mcp-lab"
  authorId := "owner"
  recipients := ["generic-mcp"]
  body := "Look into this."
  createdAt := createdAt
  artifactIds := []
  provenance := some .codexOwnerProxy

/-- The bundled snapshot with that message. -/
def snapshot (createdAt : String) : RoomSnapshot :=
  { bundledSnapshot with
    generatedAt := createdAt
    rooms := modifyFirst (fun room => room.id == "mcp-lab")
      (fun room => { room with messages := room.messages ++ [posted createdAt] })
      bundledSnapshot.rooms }

/-- The time of the first call. -/
def early : String := "2026-08-17T00:00:00Z"

/-- The time of the retry. -/
def late : String := "2026-08-17T00:01:00Z"

/-- A serializer for the snapshots of these runs. -/
def serde : Serde PersistedRoomFile :=
  .table
    [({ fileVersion := roomFileVersion, snapshot := bundledSnapshot }, [1]),
      ({ fileVersion := roomFileVersion, snapshot := snapshot early }, [2]),
      ({ fileVersion := roomFileVersion, snapshot := snapshot late }, [3])]

/-- The serializer reads back what it writes. -/
theorem serde_roundTrips : serde.RoundTrips :=
  Serde.table_roundTrips (by decide) (by decide)

/-- The application after its first start. -/
def started : State :=
  apply serde { app := RoomCommands.firstRun (.empty 7), posted := [] } (.restart 7 [])

/-- Then the message is posted. -/
def after : State := apply serde started (.postAsOwner started.app.memory input early [])

/-- The backup file that is exported before. -/
def source : RoomSource.SnapshotSource where
  isAbsolute := true
  fileName := some "moe-room-backup-00000000000000000001.json"
  content := some [1]

/-- Then the file is restored. -/
def restored : State := apply serde after (.restore source started [])

/-- The started application is reached. -/
theorem reached_started : Reached serde started :=
  (Reached.first (.empty 7) rfl rfl).restart 7 []

/-- The state after the message is posted is reached. -/
theorem reached_after : Reached serde after :=
    reached_started.postAsOwner reached_started input early []

/-- The application starts with the bundled rooms. -/
theorem started_memory : started.app.memory = bundledSnapshot := by decide

/-- The content is what an export of these rooms writes. -/
theorem isExport_started : IsExport serde started.app.memory [1] := by
  rw [started_memory]
  exact ⟨by decide, by decide⟩

/-- The restore of that export is admitted. -/
theorem admitted_restore : Admitted serde (.restore source started []) :=
  .restore reached_started isExport_started source rfl []

end OwnerProxySample

open OwnerProxySample

/-- The laws hold after the message is posted. -/
theorem owner_proxy_exact_sample : OwnerProxyLaws serde after :=
  owner_proxy_exact serde_roundTrips reached_after

/-- A call that is made again is not sure to return the message where the room is still there: after
the restore of a file that was exported before the message was posted, it posts the message anew. -/
theorem retry_after_restore :
    Reached serde after ∧ posted early ∈ after.app.memory.messages ∧
      (posted early).provenance = some .codexOwnerProxy ∧
      Admitted serde (.restore source started []) ∧ restored.app.running = true ∧
      (∃ room ∈ restored.app.memory.rooms, room.id = (posted early).roomId) ∧
      ((roomPostAsOwner serde restored.app.memory input late restored.app.memory).run []
        restored.app.world).1 = .done (.ok (.new .appended (posted late)), snapshot late) ∧
      posted late ≠ posted early := by
  refine ⟨reached_after, ?_, rfl, admitted_restore, ?_⟩
  · decide +kernel
  · decide +kernel

end Mio.Mcp
