import Mio.Desktop.RoomSourceRuns

/-!
# The Room commands, and what survives a restart

The commands of `room_commands.rs` that change a room. They check and complete their arguments, and
one of them protects what the source itself does not: `deleteRoom` refuses the bundled rooms, which
the next start would bring back. With it, every command keeps the snapshot settled, so that no
migration changes it, and the next start yields what was in memory (`start_after_run`).

The time is an argument, which is missing where the clock cannot be read.
-/

namespace Mio.Desktop.RoomCommands

open Library Mio.Core RoomSource
open RoomPersistence (RoomProg)

/-- An error of a message, as the application shows it. -/
structure RoomWriteCommandError where
  code : String
  message : String
  deriving DecidableEq

/-- An error of another command, as the application shows it. -/
structure RoomMutationCommandError where
  code : String
  message : String
  deriving DecidableEq

/-- The time of a message; without a clock the command fails. -/
def currentTimestamp (timestamp : Option String) : Except RoomWriteCommandError String :=
  match timestamp with
  | some timestamp => .ok timestamp
  | none => .error ⟨"roomWriteUnavailable", "The Room message could not be timestamped."⟩

/-- The time of another command; without a clock the command fails. -/
def mutationTimestamp (timestamp : Option String) : Except RoomMutationCommandError String :=
  match timestamp with
  | some timestamp => .ok timestamp
  | none => .error ⟨"roomMutationUnavailable", "The Room mutation could not be timestamped."⟩

/-- How an error of a mutation is shown. -/
def mapMutationError : RoomMutationError → RoomMutationCommandError
  | .invalidMutation => ⟨"invalidRoomMutation", "The Room mutation is invalid."⟩
  | .roomNotFound => ⟨"roomNotFound", "The Room is not available."⟩
  | .participantNotFound => ⟨"roomParticipantInvalid", "The participant is not available."⟩
  | .participantInUse =>
    ⟨"roomParticipantInUse", "A participant referenced by Room history cannot be removed."⟩
  | .requiredParticipant =>
    ⟨"roomParticipantRequired", "The Room must keep its owner and at least one AI participant."⟩
  | .requiredRoom => ⟨"roomRequired", "The final Room cannot be deleted."⟩
  | .idempotencyConflict => ⟨"roomConflict", "The Room ID was already used for different content."⟩
  | .capacityReached => ⟨"roomCapacityReached", "The Room catalog has reached its capacity."⟩
  | .sourceUnavailable => ⟨"roomMutationUnavailable", "The Room is temporarily unavailable."⟩

/-- How an error of a message is shown. -/
def mapWriteError : RoomWriteError → RoomWriteCommandError
  | .roomNotFound => ⟨"roomNotFound", "The Room is not available."⟩
  | .authorNotParticipant | .recipientNotParticipant =>
    ⟨"roomParticipantInvalid", "A message participant is not available in the Room."⟩
  | .idempotencyConflict =>
    ⟨"messageConflict", "The message ID was already used for different content."⟩
  | .roomCapacityReached =>
    ⟨"roomCapacityReached", "The Room cannot accept more in-memory messages."⟩
  | .sourceUnavailable => ⟨"roomWriteUnavailable", "The Room is temporarily unavailable."⟩

/-- The only human of the snapshot (`DesktopRoomSource::owner_participant_id`). -/
def ownerParticipantIdIn (memory : RoomSnapshot) : Option String :=
  match memory.participants.filter isHuman with
  | [owner] => some owner.id
  | _ => none

/-- Whether the participant is a human. -/
def isHumanParticipant (participantId : String) (memory : RoomSnapshot) : Bool :=
  memory.participants.any fun participant => participant.id == participantId && isHuman participant

/-- A result of the source with its error as the command states it. -/
def mapError {ε ε' α : Type} (f : ε → ε') (result : Except ε α × RoomSnapshot) :
    Except ε' α × RoomSnapshot :=
  (result.1.mapError f, result.2)

section Code

variable (serde : Serde PersistedRoomFile)

/-- Creates a room with the owner in it. -/
def createRoom (roomId name : String) (timestamp : Option String) (memory : RoomSnapshot) :
    RoomProg (Except RoomMutationCommandError RoomMutationSuccess × RoomSnapshot) :=
  match ownerParticipantIdIn memory with
  | none =>
    pure (.error ⟨"roomMutationUnavailable", "The Room owner is temporarily unavailable."⟩, memory)
  | some ownerId =>
    match mutationTimestamp timestamp with
    | .error e => pure (.error e, memory)
    | .ok createdAt =>
      match RoomCreateDraft.tryNew roomId name [ownerId, "codex"] createdAt with
      | .error _ =>
        pure (.error ⟨"invalidRoomMutation", "The Room creation request is invalid."⟩, memory)
      | .ok draft => mapError mapMutationError <$> RoomSource.createRoom serde draft memory

/-- Adds a participant to a room. -/
def addParticipant (roomId participantId : String) (timestamp : Option String)
    (memory : RoomSnapshot) :
    RoomProg (Except RoomMutationCommandError RoomMutationSuccess × RoomSnapshot) :=
  match mutationTimestamp timestamp with
  | .error e => pure (.error e, memory)
  | .ok updatedAt =>
    mapError mapMutationError <$> addRoomParticipant serde roomId participantId updatedAt memory

/-- Renames a room. -/
def renameRoom (roomId name : String) (timestamp : Option String) (memory : RoomSnapshot) :
    RoomProg (Except RoomMutationCommandError RoomMutationSuccess × RoomSnapshot) :=
  match mutationTimestamp timestamp with
  | .error e => pure (.error e, memory)
  | .ok updatedAt =>
    mapError mapMutationError <$> RoomSource.renameRoom serde roomId name updatedAt memory

/-- Removes a participant, unless it is a human. -/
def removeParticipant (roomId participantId : String) (timestamp : Option String)
    (memory : RoomSnapshot) :
    RoomProg (Except RoomMutationCommandError RoomMutationSuccess × RoomSnapshot) :=
  if isHumanParticipant participantId memory then
    pure (.error ⟨"roomParticipantRequired", "The Room owner cannot be removed."⟩, memory)
  else
    match mutationTimestamp timestamp with
    | .error e => pure (.error e, memory)
    | .ok updatedAt =>
      mapError mapMutationError <$>
        removeRoomParticipant serde roomId participantId updatedAt memory

/-- Deletes a room, unless it is one of the bundled ones. -/
def deleteRoom (roomId : String) (timestamp : Option String) (memory : RoomSnapshot) :
    RoomProg (Except RoomMutationCommandError RoomMutationSuccess × RoomSnapshot) :=
  if ["moe-dev-room", "comparison-room", "mcp-lab"].contains roomId then
    pure (.error ⟨"protectedRoom", "A bundled Room cannot be deleted."⟩, memory)
  else
    match mutationTimestamp timestamp with
    | .error e => pure (.error e, memory)
    | .ok updatedAt =>
      mapError mapMutationError <$> RoomSource.deleteRoom serde roomId updatedAt memory

/-- Writes a message of the owner. -/
def writeMessage (roomId messageId : String) (recipientIds : List String) (body : String)
    (timestamp : Option String) (memory : RoomSnapshot) :
    RoomProg (Except RoomWriteCommandError RoomWriteSuccess × RoomSnapshot) :=
  match ownerParticipantIdIn memory with
  | none =>
    pure (.error ⟨"roomWriteUnavailable", "The Room owner is temporarily unavailable."⟩, memory)
  | some ownerId =>
    match currentTimestamp timestamp with
    | .error e => pure (.error e, memory)
    | .ok createdAt =>
      match RoomMessageDraft.tryNew messageId roomId ownerId recipientIds body createdAt [] with
      | .error _ => pure (.error ⟨"invalidRoomMessage", "The Room message is invalid."⟩, memory)
      | .ok draft => mapError mapWriteError <$> appendMessage serde draft memory

end Code

/-! ## Runs -/

/-- What changes a room while the application is running: the commands, the messages of the AI
participants, and the restore of a backup. -/
inductive Command where
  | createRoom (roomId name : String) (timestamp : Option String)
  | addParticipant (roomId participantId : String) (timestamp : Option String)
  | renameRoom (roomId name : String) (timestamp : Option String)
  | removeParticipant (roomId participantId : String) (timestamp : Option String)
  | deleteRoom (roomId : String) (timestamp : Option String)
  | writeMessage (roomId messageId : String) (recipientIds : List String) (body : String)
    (timestamp : Option String)
  | appendMessage (draft : RoomMessageDraft)
  | restoreSnapshot (source : SnapshotSource)

/-- What can happen: a command, or a new process, each under some schedule of faults. -/
inductive Event where
  | command (command : Command) (faults : List Fault)
  | restart (pid : ℕ) (faults : List Fault)

section Runs

variable (serde : Serde PersistedRoomFile)

/-- The command on the snapshot in memory, with whether it has returned `Ok`. -/
def Command.prog (memory : RoomSnapshot) : Command → RoomProg (Bool × RoomSnapshot)
  | createRoom roomId name timestamp =>
    returned <$> RoomCommands.createRoom serde roomId name timestamp memory
  | addParticipant roomId participantId timestamp =>
    returned <$> RoomCommands.addParticipant serde roomId participantId timestamp memory
  | renameRoom roomId name timestamp =>
    returned <$> RoomCommands.renameRoom serde roomId name timestamp memory
  | removeParticipant roomId participantId timestamp =>
    returned <$> RoomCommands.removeParticipant serde roomId participantId timestamp memory
  | deleteRoom roomId timestamp =>
    returned <$> RoomCommands.deleteRoom serde roomId timestamp memory
  | writeMessage roomId messageId recipientIds body timestamp =>
    returned <$> RoomCommands.writeMessage serde roomId messageId recipientIds body timestamp memory
  | appendMessage draft => returned <$> RoomSource.appendMessage serde draft memory
  | restoreSnapshot source => returned <$> RoomSource.restoreSnapshot serde source memory

/-- What an event leaves. A process stops where it is cut off, and where its start fails. -/
def apply (state : State) : Event → State
  | .command command faults =>
    if state.running then
      match (command.prog serde state.memory).run faults state.world with
      | (.done (_, memory), world) => { memory, world, running := true }
      | (_, world) => { state with world, running := false }
    else state
  | .restart pid faults =>
    match (start serde).run faults (state.world.restart pid) with
    | (.done memory, world) => { memory, world, running := true }
    | (_, world) => { state with world, running := false }

/-- What a run of events leaves. -/
def run (events : List Event) (state : State) : State := events.foldl (apply serde) state

/-- The first run, before its start, in a directory without any file of the store. -/
def firstRun (world : World) : State :=
  { memory := bundledSnapshot, world, running := false }

variable {serde} {memory : RoomSnapshot}

/-- The command's errors are the source's, under other names. -/
theorem returned_mapError {ε ε' α : Type} (f : ε → ε')
    (p : RoomProg (Except ε α × RoomSnapshot)) :
    returned <$> mapError f <$> p = returned <$> p := by
  rw [← comp_map]
  congr 1
  funext result
  obtain ⟨_ | _, after⟩ := result <;> rfl

/-- A write operation that does not delete a bundled room. -/
def Unprotected (operation : RoomOperation) : Prop :=
  ∀ roomId updatedAt, operation = .deleteRoom roomId updatedAt →
    roomId ∉ bundledSnapshot.rooms.map (·.id)

/-- What a command does: it refuses its arguments, it is a write operation that does not delete a
bundled room, or it is a restore. -/
inductive CommandCases (serde : Serde PersistedRoomFile) (memory : RoomSnapshot) :
    RoomProg (Bool × RoomSnapshot) → Prop
  | refused : CommandCases serde memory (pure (false, memory))
  | write (operation : RoomOperation) (hsafe : Unprotected operation) :
    CommandCases serde memory (writeOperation serde operation memory)
  | restore (source : SnapshotSource) :
    CommandCases serde memory (returned <$> restoreSnapshot serde source memory)

/-- The operation that a command asks for, besides a restore. Only the deletion of a room deletes
one. -/
structure Command.Asks (command : Command) (operation : RoomOperation) : Prop where
  deletes : ∀ roomId updatedAt, operation = .deleteRoom roomId updatedAt →
    (∃ timestamp, command = .deleteRoom roomId timestamp) ∧
      roomId ∉ bundledSnapshot.rooms.map (·.id)

/-- Nothing more is asked of an operation that deletes no room. -/
theorem Command.Asks.of_ne {command : Command} {operation : RoomOperation}
    (h : ∀ roomId updatedAt, operation ≠ .deleteRoom roomId updatedAt) : command.Asks operation :=
  ⟨fun roomId updatedAt heq => absurd heq (h roomId updatedAt)⟩

/-- A draft that passes its check is of the message that was asked for. -/
theorem message_of_draft {id roomId authorId : String} {recipients : List String}
    {body createdAt : String} {artifactIds : List String}
    {provenance : Option RoomMessageProvenance} {draft : RoomMessageDraft}
    (h : RoomMessageDraft.tryNewWithProvenance id roomId authorId recipients body createdAt
      artifactIds provenance = .ok draft) :
    draft.message =
      { id, roomId, authorId, recipients, body, createdAt, artifactIds, provenance } := by
  unfold RoomMessageDraft.tryNewWithProvenance at h
  dsimp only at h
  split at h
  · obtain rfl := Except.ok.inj h
    rfl
  · cases h

/-- What a command runs, by what it is. The messages that it makes have no provenance. -/
theorem Command.prog_writes (command : Command) :
    command.prog serde memory = pure (false, memory) ∨
      (∃ operation, command.prog serde memory = writeOperation serde operation memory ∧
        command.Asks operation ∧ ∀ draft, operation = .appendMessage draft →
          draft.message.provenance = none ∨ command = .appendMessage draft) ∨
      ∃ source, command = .restoreSnapshot source := by
  -- Each command makes its checks and then asks the source for its own operation.
  cases command with
  | createRoom roomId name timestamp =>
    rw [Command.prog, RoomCommands.createRoom]
    split
    · exact .inl rfl
    split
    · exact .inl rfl
    split
    · exact .inl rfl
    rw [returned_mapError]
    exact .inr (.inl ⟨.createRoom _, rfl, .of_ne nofun, nofun⟩)
  | addParticipant roomId participantId timestamp =>
    rw [Command.prog, RoomCommands.addParticipant]
    split
    · exact .inl rfl
    rw [returned_mapError]
    exact .inr (.inl ⟨.addRoomParticipant _ _ _, rfl, .of_ne nofun, nofun⟩)
  | renameRoom roomId name timestamp =>
    rw [Command.prog, RoomCommands.renameRoom]
    split
    · exact .inl rfl
    rw [returned_mapError]
    exact .inr (.inl ⟨.renameRoom _ _ _, rfl, .of_ne nofun, nofun⟩)
  | removeParticipant roomId participantId timestamp =>
    rw [Command.prog, RoomCommands.removeParticipant]
    split
    · exact .inl rfl
    split
    · exact .inl rfl
    rw [returned_mapError]
    exact .inr (.inl ⟨.removeRoomParticipant _ _ _, rfl, .of_ne nofun, nofun⟩)
  | deleteRoom roomId timestamp =>
    rw [Command.prog, RoomCommands.deleteRoom]
    split
    · exact .inl rfl
    -- The bundled rooms are protected from deletion here, and only here.
    rename_i hprotected
    split
    · exact .inl rfl
    rw [returned_mapError]
    refine .inr (.inl ⟨.deleteRoom _ _, rfl, ⟨?_⟩, nofun⟩)
    rintro _ _ ⟨⟩
    exact ⟨⟨timestamp, rfl⟩, by simpa [bundledSnapshot] using hprotected⟩
  | writeMessage roomId messageId recipientIds body timestamp =>
    rw [Command.prog, RoomCommands.writeMessage]
    split
    · exact .inl rfl
    split
    · exact .inl rfl
    split
    · exact .inl rfl
    rename_i hmade
    rw [returned_mapError]
    refine .inr (.inl ⟨.appendMessage _, rfl, .of_ne nofun, ?_⟩)
    rintro _ ⟨⟩
    exact .inl (by rw [message_of_draft hmade])
  | appendMessage draft =>
    refine .inr (.inl ⟨.appendMessage draft, rfl, .of_ne nofun, ?_⟩)
    rintro _ ⟨⟩
    exact .inr rfl
  | restoreSnapshot source => exact .inr (.inr ⟨source, rfl⟩)

/-- A command does nothing, one operation, or a restore. -/
theorem Command.prog_cases (command : Command) :
    command.prog serde memory = pure (false, memory) ∨
      (∃ operation, command.prog serde memory = writeOperation serde operation memory ∧
        command.Asks operation) ∨
      ∃ source, command = .restoreSnapshot source := by
  rcases @Command.prog_writes serde memory command with heq | ⟨operation, heq, hasks, -⟩ | hrestore
  · exact .inl heq
  · exact .inr (.inl ⟨operation, heq, hasks⟩)
  · exact .inr (.inr hrestore)

/-- What the program of a command can be. -/
theorem Command.cases (command : Command) :
    CommandCases serde memory (command.prog serde memory) := by
  rcases @Command.prog_cases serde memory command with heq | ⟨operation, heq, hasks⟩ | ⟨source, rfl⟩
  · rw [heq]
    exact .refused
  · rw [heq]
    exact .write operation fun roomId updatedAt h => (hasks.deletes roomId updatedAt h).2
  · exact .restore source

/-- After a command, the snapshot in memory is settled and agrees with the files. A command that is
cut off leaves files that agree with the snapshot before it. -/
theorem Command.ends (hserde : serde.RoundTrips) (hsettled : Settled memory) {w : World}
    (h : Agrees serde memory w.dir) (command : Command) (faults : List Fault) :
    Prog.Ends (fun result w' => Settled result.2 ∧ Agrees serde result.2 w'.dir)
      (fun _ _ => False) (fun w' => Agrees serde memory w'.dir)
      ((command.prog serde memory).run faults w) := by
  have hcases : CommandCases serde memory (command.prog serde memory) := command.cases
  generalize command.prog serde memory = p at hcases
  cases hcases with
  | refused => exact ⟨hsettled, h⟩
  | write operation hsafe =>
    have hends := (Call.write operation).ends hserde h faults
    rw [Call.prog, writeOperation_run operation h.valid] at hends
    rw [writeOperation_run operation h.valid]
    -- The operation keeps the snapshot settled, and is only there if it was persisted.
    have hsettled' := hsettled.apply operation hsafe
    split at hends
    · rcases hrun : (RoomPersistence.persist serde (operation.apply memory)).run faults w with
        ⟨_ | _ | _, w'⟩
      all_goals rw [hrun] at hends; simp only [*, if_true]
      · exact ⟨hsettled', hends.1⟩
      · exact ⟨hsettled, hends.1⟩
      · exact hends
    · simp only [*]
      exact ⟨hsettled, h⟩
  -- What a restore has read was settled when it was exported, or is now.
  | restore source =>
    have hends := Prog.run_wp _ faults w (restoreSnapshot_wp hserde source h)
    rw [Prog.run_map]
    rcases hrun : (RoomSource.restoreSnapshot serde source memory).run faults w with ⟨_ | _ | _, w'⟩
    all_goals rw [hrun] at hends
    · exact ⟨hends.2.2 hsettled, hends.1⟩
    · exact hends
    · exact hends

/-- One event keeps the snapshot in memory settled, and in agreement with the files. -/
theorem apply_settled (hserde : serde.RoundTrips) {state : State} (hsettled : Settled state.memory)
    (h : Agrees serde state.memory state.world.dir) (event : Event) :
    Settled (apply serde state event).memory ∧
      Agrees serde (apply serde state event).memory (apply serde state event).world.dir := by
  cases event with
  | command command faults =>
    rw [apply]
    split
    · have hends := command.ends hserde hsettled h faults
      rcases hrun : (command.prog serde state.memory).run faults state.world with ⟨_ | _ | _, w'⟩
      all_goals rw [hrun] at hends
      · exact hends
      · exact hends.elim
      · exact ⟨hsettled, hends⟩
    · exact ⟨hsettled, h⟩
  | restart pid faults =>
    have hends := Prog.run_wp _ faults _
      (start_wp_of_agrees (w := state.world.restart pid) hsettled h)
    rw [apply]
    rcases hrun : (start serde).run faults (state.world.restart pid) with ⟨_ | _ | _, w'⟩
    all_goals rw [hrun] at hends
    · obtain ⟨rfl, rfl⟩ := hends
      exact ⟨hsettled, h⟩
    · obtain rfl : w' = _ := hends
      exact ⟨hsettled, h⟩
    · obtain rfl : w' = _ := hends
      exact ⟨hsettled, h⟩

/-- A run of events does. -/
theorem run_settled (hserde : serde.RoundTrips) {state : State} (hsettled : Settled state.memory)
    (h : Agrees serde state.memory state.world.dir) (events : List Event) :
    Settled (run serde events state).memory ∧
      Agrees serde (run serde events state).memory (run serde events state).world.dir := by
  induction events generalizing state with
  | nil => exact ⟨hsettled, h⟩
  | cons event events ih =>
    obtain ⟨hsettled', h'⟩ := apply_settled hserde hsettled h event
    exact ih hsettled' h'

end Runs

/-- After every run from a first run without any file, the next start succeeds and yields the
snapshot that was in memory: nothing is migrated, and nothing has to be written back. A start that
returns although faults befall it yields it, too. -/
theorem start_after_run {serde : Serde PersistedRoomFile} (hserde : serde.RoundTrips)
    (world : World) (hp : world.dir .primary = none) (hb : world.dir .backup = none)
    (events : List Event) (pid : ℕ) :
    let state := run serde events (firstRun world)
    let next := state.world.restart pid
    (preparePersistentDesktopRoomSource serde).run [] next =
        (.done { snapshot := state.memory, needsPersist := false, ownerMigration := none }, next) ∧
      (start serde).run [] next = (.done state.memory, next) ∧
      ∀ faults memory w, (start serde).run faults next = (.done memory, w) →
        memory = state.memory := by
  intro state next
  obtain ⟨hsettled, h⟩ : Settled state.memory ∧ Agrees serde state.memory state.world.dir :=
    run_settled hserde bundledSnapshot_settled (agrees_first serde hp hb) events
  have hnext : Agrees serde state.memory next.dir := h
  refine ⟨(start_run hsettled hnext).1, (start_run hsettled hnext).2,
    fun faults memory w hrun => ?_⟩
  have hends := Prog.run_wp _ faults next (start_wp_of_agrees hsettled hnext)
  rw [hrun] at hends
  exact hends.1

/-- After a rename, a refused deletion and a cut start, the next start finds the renamed room. -/
theorem start_after_run_sample :
    let serde := RoomPersistence.Sample.serde [renamedSnapshot, deletedSnapshot]
    let state := run serde
      [.restart 7 [], .command (.renameRoom "mcp-lab" "Lab" (some "2026-08-13T00:00:00.000Z")) [],
        .command (.deleteRoom "mcp-lab" (some "2026-08-13T00:00:01.000Z")) [], .restart 8 [.cut 0]]
      (firstRun (.empty 7))
    let next := state.world.restart 9
    (preparePersistentDesktopRoomSource serde).run [] next =
        (.done { snapshot := state.memory, needsPersist := false, ownerMigration := none }, next) ∧
      (start serde).run [] next = (.done state.memory, next) ∧
      ∀ faults memory w, (start serde).run faults next = (.done memory, w) →
        memory = state.memory :=
  start_after_run (RoomPersistence.Sample.serde_roundTrips (by decide) (by decide))
    (.empty 7) rfl rfl
    _ 9

end Mio.Desktop.RoomCommands
