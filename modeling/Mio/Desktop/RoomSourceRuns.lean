import Mio.Desktop.RoomSource

/-!
# Memory and file agree after every call

A run of a started source is a sequence of its write operations and restores, each under some
schedule of failures. `Call.ends` says what one call leaves: memory and file agree, and a call that
returns an error leaves the snapshot in memory. A run is cut short where the process stops.
-/

namespace Mio.Desktop.RoomSource

open Library Mio.Core RoomPersistence

/-- A call that can change the rooms. -/
inductive Call where
  | write (operation : RoomOperation)
  | restore (source : SnapshotSource)

/-- The snapshot in memory, the files, and whether the process is running. A process that has
stopped is said to have the snapshot that it had before its last call. -/
structure State where
  memory : RoomSnapshot
  world : World
  running : Bool

section Code

variable (serde : Serde PersistedRoomFile)

/-- The call on the snapshot in memory, with whether it has returned `Ok`. -/
def Call.prog (memory : RoomSnapshot) : Call → RoomProg (Bool × RoomSnapshot)
  | write operation => writeOperation serde operation memory
  | restore source => returned <$> restoreSnapshot serde source memory

/-- What a call leaves. -/
def apply (state : State) : Call × List Fault → State
  | (call, faults) =>
    if state.running then
      match (call.prog serde state.memory).run faults state.world with
      | (.done (_, memory), world) => { memory, world, running := true }
      | (_, world) => { state with world, running := false }
    else state

/-- What a run of calls leaves. -/
def run (calls : List (Call × List Fault)) (state : State) : State :=
  calls.foldl (apply serde) state

/-- What holds of the snapshot in memory and of the files after every call. -/
structure FailureAtomic (memory : RoomSnapshot) (w : World) : Prop where
  /-- What is in memory is what a load returns. Only where nothing was persisted is it the bundled
  snapshot, without any file. -/
  loads : (∀ pid, (load serde).run [] (w.restart pid) = (.done (some memory), w.restart pid)) ∨
    memory = bundledSnapshot ∧ w.dir .primary = none ∧ w.dir .backup = none
  /-- A call that returns an error leaves the snapshot in memory. -/
  errors : ∀ (call : Call) faults after w',
    (call.prog serde memory).run faults w = (.done (false, after), w') → after = memory
  /-- A write operation whose persist fails returns an error, and so leaves the snapshot. -/
  failedWrite : ∀ (operation : RoomOperation) faults e w', operation.isOk memory = true →
    (persist serde (operation.apply memory)).run faults w = (.error e, w') →
    (writeOperation serde operation memory).run faults w = (.done (false, memory), w')
  /-- So does a restore, past the step that reads the backup file. -/
  failedRestore : ∀ source body snapshot faults e w', validExternalSnapshotPath source = true →
    source.content = some body → importSnapshot serde body = .ok snapshot →
    (persist serde snapshot).run faults w = (.error e, w') →
    (restoreSnapshot serde source memory).run (.proceed :: faults) w =
      (.done (.error .io, memory), w')

end Code

section Runs

variable {serde : Serde PersistedRoomFile} {memory : RoomSnapshot} {w : World}

/-- After a call, memory and file agree, and an error leaves the snapshot in memory. A call that is
cut off leaves files that agree with the snapshot before it. -/
theorem Call.ends (hserde : serde.RoundTrips) (h : Agrees serde memory w.dir) (call : Call)
    (faults : List Fault) :
    Prog.Ends
      (fun result w' => Agrees serde result.2 w'.dir ∧ (result.1 = false → result.2 = memory))
      (fun _ _ => False) (fun w' => Agrees serde memory w'.dir)
      ((call.prog serde memory).run faults w) := by
  cases call with
  | write operation =>
    rw [Call.prog, writeOperation_run operation h.valid]
    split
    · have hvalid : validateSnapshot (operation.apply memory) = .ok () :=
        validateSnapshot_eq_ok.mpr
          ((operation.apply_step memory).valid (validateSnapshot_eq_ok.mp h.valid))
      have hends := persist_ends serde (operation.apply memory) faults w
      rcases hrun : (persist serde (operation.apply memory)).run faults w with ⟨_ | _ | _, w'⟩
      all_goals rw [hrun] at hends
      · exact ⟨⟨hvalid, .inl (holds_of_saved hserde hvalid hends)⟩, by simp⟩
      · exact ⟨h.kept hends, fun _ => rfl⟩
      · exact h.kept hends
    · exact ⟨h, fun _ => rfl⟩
  | restore source =>
    have hends := Prog.run_wp _ faults w (restoreSnapshot_wp hserde source h)
    rw [Call.prog, Prog.run_map]
    rcases hrun : (restoreSnapshot serde source memory).run faults w with ⟨_ | _ | _, w'⟩
    all_goals rw [hrun] at hends
    · exact ⟨hends.1, hends.2.1⟩
    · exact hends
    · exact hends

/-- One call keeps the agreement. -/
theorem apply_agrees (hserde : serde.RoundTrips) {state : State}
    (h : Agrees serde state.memory state.world.dir) (call : Call × List Fault) :
    Agrees serde (apply serde state call).memory (apply serde state call).world.dir := by
  obtain ⟨call, faults⟩ := call
  rw [apply]
  split
  · have hends := call.ends hserde h faults
    rcases hrun : (call.prog serde state.memory).run faults state.world with ⟨_ | _ | _, w'⟩
    all_goals rw [hrun] at hends
    · exact hends.1
    · exact hends.elim
    · exact hends
  · exact h

/-- A run of calls does. -/
theorem run_agrees (hserde : serde.RoundTrips) {state : State}
    (h : Agrees serde state.memory state.world.dir) (calls : List (Call × List Fault)) :
    Agrees serde (run serde calls state).memory (run serde calls state).world.dir := by
  induction calls generalizing state with
  | nil => exact h
  | cons call calls ih => exact ih (apply_agrees hserde h call)

/-- A restore whose persist fails returns an error and leaves the snapshot in memory. -/
theorem restoreSnapshot_run (hvalid : validateSnapshot memory = .ok ()) {source : SnapshotSource}
    {body : Bytes} {snapshot : RoomSnapshot} {faults : List Fault} {w' : World}
    {e : DesktopRoomPersistenceError} (hpath : validExternalSnapshotPath source = true)
    (hcontent : source.content = some body) (himport : importSnapshot serde body = .ok snapshot)
    (hpersist : (persist serde snapshot).run faults w = (.error e, w')) :
    (restoreSnapshot serde source memory).run (.proceed :: faults) w =
      (.done (.error .io, memory), w') := by
  have hsnapshot := validateSnapshot_eq_ok.mpr (settled_of_importSnapshot himport).valid
  have hread : (restoreSnapshot serde source memory).run (.proceed :: faults) w =
      (takeOver serde snapshot memory).run faults w := by
    simp only [restoreSnapshot, readExternalSnapshot, hpath, hcontent, Bool.not_true]
    simp only [Prog.refuse_bind, Bool.false_eq_true, if_false, Prog.ofOption_bind, Option.elim,
      quietStep, dirStep, Prog.tryStep_bind, himport]
    rfl
  rw [hread, takeOver_run hsnapshot hvalid, hpersist]

end Runs

/-- From every start that returns, whatever was in the directory and whatever befell the start,
every run of calls keeps memory and file together, and every call that fails changes nothing. -/
theorem writes_atomic {serde : Serde PersistedRoomFile} (hserde : serde.RoundTrips) {w0 w : World}
    {startFaults : List Fault} {memory : RoomSnapshot}
    (hstart : (start serde).run startFaults w0 = (.done memory, w))
    (calls : List (Call × List Fault)) :
    let state := run serde calls { memory, world := w, running := true }
    FailureAtomic serde state.memory state.world := by
  intro state
  have hends := Prog.run_wp _ startFaults w0 (start_wp hserde w0)
  rw [hstart] at hends
  have hagrees : Agrees serde state.memory state.world.dir := by
    let first : State := { memory, world := w, running := true }
    have hfirst : Agrees serde first.memory first.world.dir := hends.2
    exact run_agrees hserde hfirst calls
  refine ⟨?_, fun call faults after w' hrun => ?_, fun operation faults e w' hok hpersist => ?_,
    fun source body snapshot faults e w' hpath hcontent himport hpersist =>
      restoreSnapshot_run hagrees.valid hpath hcontent himport hpersist⟩
  · rcases hagrees.files with hholds | ⟨hnone, hbundled⟩
    · exact .inl fun pid => Holds.load_run (w := state.world.restart pid) hholds
    · right
      refine ⟨hbundled, ?_⟩
      simpa [Holds, Directory.current] using hnone
  · have hcall := call.ends hserde hagrees faults
    rw [hrun] at hcall
    exact hcall.2 rfl
  · rw [writeOperation_run operation hagrees.valid, if_pos hok, hpersist]

/-- Without any file, the first start agrees with the bundled snapshot. -/
theorem agrees_first (serde : Serde PersistedRoomFile) {w : World} (hp : w.dir .primary = none)
    (hb : w.dir .backup = none) : Agrees serde bundledSnapshot w.dir :=
  ⟨bundledSnapshot_valid, .inr ⟨by simp [Holds, Directory.current, hp, hb], rfl⟩⟩

/-- The bundled snapshot after one of its rooms was renamed. -/
def renamedSnapshot : RoomSnapshot :=
  RoomOperation.apply bundledSnapshot (.renameRoom "mcp-lab" "Lab" "2026-08-13T00:00:00.000Z")

/-- That snapshot after the room was deleted. -/
def deletedSnapshot : RoomSnapshot :=
  RoomOperation.apply renamedSnapshot (.deleteRoom "mcp-lab" "2026-08-13T00:00:01.000Z")

/-- A run of writes under faults: memory and file agree after it. -/
theorem writes_atomic_sample :
    let serde := Sample.serde [renamedSnapshot, deletedSnapshot]
    let state := run serde
      [(.write (.renameRoom "mcp-lab" "Lab" "2026-08-13T00:00:00.000Z"), []),
        (.write (.deleteRoom "mcp-lab" "2026-08-13T00:00:01.000Z"), [.fail 0]),
        (.restore ⟨true, some "moe-room-backup-20260812000000000000.json", some (asBytes "\x7b")⟩,
          [])]
      { memory := bundledSnapshot, world := .empty 7, running := true }
    FailureAtomic serde state.memory state.world :=
  writes_atomic (Sample.serde_roundTrips (by decide) (by decide))
    (start_run bundledSnapshot_settled (agrees_first _ rfl rfl)).2 _

end Mio.Desktop.RoomSource
