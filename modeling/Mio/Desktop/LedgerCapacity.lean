import Mio.Desktop.AiDispatchLaws
import Mio.Desktop.LedgerSizes
import Mio.Desktop.RoomOrchestrationRuns

/-!
# The capacity of the two ledgers

A ledger that is full prunes the oldest record that may be, and unresolved records stay. So a fresh
record can be begun where the ledger is not full or holds a record that may be pruned, and nowhere
else (`ledger_capacity`), and turns that end unknown fill the dispatch ledger for good
(`Sample.begin_refused`). The file of the dispatch ledger always has room for the record. That of
the orchestration ledger has a limit on its length, which a begin can exceed before the ledger is
full.
-/

namespace Mio.Desktop.LedgerCapacity

open Library Std

/-- Nothing is in the way of a file: the ledger's own files are regular, and the name of the next
temporary file is free. -/
structure Ready (w : World) : Prop where
  regular : w.dir.Regular
  temp : w.dir (.temp w.pid w.sequence) = none

/-! ## The dispatch ledger -/

section Dispatch

open AiDispatchLedger

/-- What a begin of a new valid record does in a ledger. -/
structure DispatchCapacity (serde : Serde PersistedDispatchLedger)
    (ledger : DesktopAiDispatchLedger) : Prop where
  /-- With room, the record is written next to what pruning keeps. It is reserved and active once it
  is written. If it cannot be written, the ledger is without it and pruned. -/
  room : ∀ faults (record : AiDispatchRecord), validateRecord record = .ok () →
    ledger.data.records[record.dispatchId]? = none →
    HasRoom maximumDispatchRecords isTerminal ledger.data.records →
    ∃ kept, KeptFor maximumDispatchRecords isTerminal ledger.data.records kept ∧
      let next := kept.insert record.dispatchId { record with state := .prepared }
      let stored := ((dispatchLedgerPersistence serde).persist next).run faults ledger.world
      let begun := begin serde faults record ledger
      begun.1 = stored.1.map (fun _ => .reserved) ∧ begun.2.world = stored.2 ∧
        (stored.1 = .done () →
          begun.2.data = { records := next, active := record.dispatchId :: ledger.data.active }) ∧
        (stored.1 ≠ .done () → begun.2.data = { ledger.data with records := kept }) ∧
        -- No limit is in the way of the file, so without a fault it is written.
        (serde.toVec (toPersisted next) = some (fileBytes (toPersisted next)) →
          Ready ledger.world → faults = [] → stored.1 = .done ())
  /-- Without room, it is refused. -/
  full : ∀ faults (record : AiDispatchRecord), validateRecord record = .ok () →
    ledger.data.records[record.dispatchId]? = none →
    ¬HasRoom maximumDispatchRecords isTerminal ledger.data.records →
    begin serde faults record ledger = (.error .invalid, ledger)

/-- A begin of a new valid record, once it has pruned. -/
theorem begin_fresh {serde : Serde PersistedDispatchLedger} {ledger : DesktopAiDispatchLedger}
    (hsound : Sound ledger.data) (faults : List Fault) {record : AiDispatchRecord}
    (hvalid : validateRecord record = .ok ())
    (hfresh : ledger.data.records[record.dispatchId]? = none) :
    begin serde faults record ledger =
      let records := pruneTerminalRecords ledger.data.records
      let pruned := { ledger with data := { ledger.data with records } }
      if maximumDispatchRecords ≤ records.size then (.error .invalid, pruned)
      else
        let next := records.insert record.dispatchId { record with state := .prepared }
        match commit serde faults next
          { records := next, active := record.dispatchId :: ledger.data.active } pruned with
        | (.done (), ledger) => (.done .reserved, ledger)
        | (.error e, ledger) => (.error e, ledger)
        | (.cut, ledger) => (.cut, ledger) := by
  have hinactive : ¬ledger.data.active.contains record.dispatchId = true := by
    intro hactive
    obtain ⟨current, hcurrent, -⟩ := hsound.active _ (List.contains_iff_mem.mp hactive)
    rw [hfresh] at hcurrent
    cases hcurrent
  unfold begin
  rw [hvalid]
  dsimp only
  rewrite [if_neg hinactive, hfresh]
  rfl

/-- A sound ledger has this capacity. -/
theorem dispatch_capacity {serde : Serde PersistedDispatchLedger} {ledger : DesktopAiDispatchLedger}
    (hsound : Sound ledger.data) : DispatchCapacity serde ledger := by
  constructor
  · intro faults record hvalid hfresh hroom
    have hkept : KeptFor maximumDispatchRecords isTerminal ledger.data.records
        (pruneTerminalRecords ledger.data.records) :=
      pruneOldest_keptFor hsound.valid hsound.valid.key hroom
    -- A pruned table has room for one more record.
    have hsize := hkept.size
    have hnext : ValidRecords ((pruneTerminalRecords ledger.data.records).insert record.dispatchId
        { record with state := .prepared }) :=
      ValidMap.insert (hsound.valid.prune hsound.valid.key)
        ⟨rfl, validateRecord_state hvalid _⟩ (.inr hsize)
    -- The records that fit the limit of the table fit the limit of the file.
    have hfits := length_fileBytes_le hnext.size fun id row hrow => (hnext.entries id row hrow).2
    refine ⟨_, hkept, ?_⟩
    rw [begin_fresh hsound faults hvalid hfresh]
    dsimp only
    rw [if_neg (by omega)]
    unfold commit
    dsimp only
    -- What is left of the begin is the outcome of its persist.
    rcases hstored : ((dispatchLedgerPersistence serde).persist
      ((pruneTerminalRecords ledger.data.records).insert record.dispatchId
        { record with state := .prepared })).run faults ledger.world with ⟨outcome, world⟩
    refine ⟨?_, ?_, ?_, ?_, ?_⟩
    · rcases outcome with _ | _ | _ <;> rfl
    · rcases outcome with _ | _ | _ <;> rfl
    · rintro rfl
      rfl
    · intro hne
      rcases outcome with _ | _ | _
      · exact absurd rfl hne
      · rfl
      · rfl
    · rintro hvec hready rfl
      have hdone := @JsonStore.persist_calm _ (dispatchLedgerPersistence serde) _ _ _ hready.regular
        hready.temp hvec hfits
      rw [hstored] at hdone
      exact hdone
  -- In a full table nothing can be pruned, so the record is refused.
  · intro faults record hvalid hfresh hfull
    obtain ⟨hprune, hsize⟩ : pruneTerminalRecords ledger.data.records = ledger.data.records ∧
        maximumDispatchRecords ≤ ledger.data.records.size :=
      pruneOldest_full hsound.valid.key hfull
    rw [begin_fresh hsound faults hvalid hfresh, hprune]
    dsimp only
    rw [if_pos hsize]

end Dispatch

/-! ## The orchestration ledger -/

section Orchestration

open RoomOrchestrationLedger Mio.Core.Conductor

/-- What a begin of a new valid record does in a ledger. -/
structure OrchestrationCapacity (serde : Serde PersistedFile)
    (ledger : DesktopRoomOrchestrationLedger) : Prop where
  /-- With room, the record is written next to what pruning keeps, and reserved once it is written.
  If it cannot be written, the ledger is as before. -/
  room : ∀ faults ids roomId sourceMessageId conductorId updatedAt,
    ConductorOperationIds.derive sourceMessageId conductorId = .ok ids →
    let record := preparedRecord ids roomId sourceMessageId conductorId updatedAt
    validateRecord record = .ok () → ledger.records[record.operationId]? = none →
    HasRoom maximumRecords isPrunable ledger.records →
    ∃ kept, KeptFor maximumRecords isPrunable ledger.records kept ∧
      let next := kept.insert record.operationId record
      let stored := (persist serde next).run faults ledger.world
      let begun := begin serde faults roomId sourceMessageId conductorId updatedAt ledger
      begun.1 = stored.1.map (fun _ => .reserved record) ∧ begun.2.world = stored.2 ∧
        (stored.1 = .done () → begun.2.records = next) ∧
        (stored.1 ≠ .done () → begun.2.records = ledger.records) ∧
        -- Without a fault, the file is written exactly if it is within its limit.
        (serde.toVec (toPersisted next) = some (fileBytes (toPersisted next)) →
          ledger.world.dir (.temp ledger.world.pid ledger.world.sequence) = none → faults = [] →
          (stored.1 = .done () ↔ (fileBytes (toPersisted next)).length ≤ maximumFileBytes))
  /-- Without room, it is refused. -/
  full : ∀ faults ids roomId sourceMessageId conductorId updatedAt,
    ConductorOperationIds.derive sourceMessageId conductorId = .ok ids →
    let record := preparedRecord ids roomId sourceMessageId conductorId updatedAt
    validateRecord record = .ok () → ledger.records[record.operationId]? = none →
    ¬HasRoom maximumRecords isPrunable ledger.records →
    begin serde faults roomId sourceMessageId conductorId updatedAt ledger =
      (.error .invalid, ledger)

/-- A ledger whose file holds its records has this capacity. -/
theorem orchestration_capacity {serde : Serde PersistedFile}
    {ledger : DesktopRoomOrchestrationLedger}
    (hfile : FileHolds serde ledger.records ledger.world.dir) :
    OrchestrationCapacity serde ledger := by
  have hrecords := hfile.valid
  constructor
  · intro faults ids roomId sourceMessageId conductorId updatedAt hids record hvalid hfresh hroom
    have hkept : KeptFor maximumRecords isPrunable ledger.records
        (pruneTerminalRecord ledger.records) :=
      pruneOldest_keptFor hrecords hrecords.key hroom
    have hsize := hkept.size
    have hnext : ((pruneTerminalRecord ledger.records).insert record.operationId record).size ≤
        maximumRecords := by
      rw [ExtTreeMap.size_insert]
      split <;> omega
    refine ⟨_, hkept, ?_⟩
    unfold begin
    rw [hids]
    dsimp only
    rw [hvalid]
    dsimp only
    rw [hfresh]
    dsimp only
    rw [if_neg (by omega)]
    unfold commit
    rcases hstored : (persist serde ((pruneTerminalRecord ledger.records).insert record.operationId
      record)).run faults ledger.world with ⟨outcome, world⟩
    refine ⟨?_, ?_, ?_, ?_, ?_⟩
    · rcases outcome with _ | _ | _ <;> rfl
    · rcases outcome with _ | _ | _ <;> rfl
    · rintro rfl
      rfl
    · intro hne
      rcases outcome with _ | _ | _
      · exact absurd rfl hne
      · rfl
      · rfl
    -- The file is written if and only if it is not longer than its limit.
    · rintro hvec htemp rfl
      constructor
      · rintro rfl
        obtain ⟨body, hbody, hlength⟩ := persist_done (congrArg Prod.fst hstored)
        obtain rfl := Option.some.inj (hvec.symm.trans hbody)
        exact hlength
      · intro hlength
        have hdone := persist_calm hfile htemp hnext hvec hlength
        rw [hstored] at hdone
        exact hdone
  -- A full table without a terminal record refuses the record before it writes anything.
  · intro faults ids roomId sourceMessageId conductorId updatedAt hids record hvalid hfresh hfull
    obtain ⟨hprune, hsize⟩ : pruneTerminalRecord ledger.records = ledger.records ∧
        maximumRecords ≤ ledger.records.size :=
      pruneOldest_full hrecords.key hfull
    unfold begin
    rw [hids]
    dsimp only
    rw [hvalid]
    dsimp only
    rw [hfresh]
    dsimp only
    rw [hprune, if_pos hsize]

end Orchestration

/-- In every state of every run, each ledger takes a new valid record exactly where it has room for
it, or a record to prune. For the orchestration ledger, the file with the record must be within its
limit. -/
theorem ledger_capacity :
    (∀ serde world events, DispatchCapacity serde
      (AiDispatchLedger.run serde events (.first world)).ledger) ∧
    ∀ (serde : Serde RoomOrchestrationLedger.PersistedFile) (world : World) events,
      serde.RoundTrips → world.dir .primary = none → world.dir .backup = none →
        OrchestrationCapacity serde
          (RoomOrchestrationLedger.run serde events (.first world)).ledger := by
  constructor
  · intro serde world events
    have hsound := @AiDispatchLedger.run_sound serde _ events (AiDispatchLedger.sound_first world)
    exact dispatch_capacity hsound
  · intro serde world events hserde hp hb
    have hfile := RoomOrchestrationLedger.run_fileHolds hserde
      (RoomOrchestrationLedger.fileHolds_first serde hp hb) events
    exact orchestration_capacity hfile

section OrchestrationSample

open RoomOrchestrationLedger Mio.Core.Conductor RoomOrchestrationLedger.Sample

/-- The identifiers of the operation on another message. -/
def ids : ConductorOperationIds where
  operationId := "conductor-operation-v1-27512f4b9a2bebf0a9ec710a85e51982"
  finalMessageId := "conductor-final-v1-d8ed9b5f02508cfac3103392f2f5af14"

/-- The record of that operation. -/
def second : RoomOrchestrationRecord :=
  preparedRecord ids "room-1" "m2" "codex" prepared.updatedAt

/-- The serializer for the ledger with the first operation, and then with both. -/
def serdeBoth : Serde PersistedFile :=
  .table ([{ fileVersion, records := [prepared] }, { fileVersion, records := [planning] },
    { fileVersion, records := [second, planning] }].map fun file => (file, fileBytes file))

/-- It reads back what it writes. -/
theorem serdeBoth_roundTrips : serdeBoth.RoundTrips :=
  Serde.table_roundTrips (by decide +kernel) (by decide +kernel)

/-- In a ledger with one operation, another one is begun, and both are in it then. -/
theorem ledger_capacity_second :
    let ledger := (run serdeBoth events (.first (.empty 7))).ledger
    let begun := begin serdeBoth [] "room-1" "m2" "codex" prepared.updatedAt ledger
    begun.1 = .done (.reserved second) ∧
      begun.2.records = ledger.records.insert second.operationId second := by
  have hids : ConductorOperationIds.derive "m2" "codex" = .ok ids := by decide +kernel
  have hvalid : validateRecord second = .ok () := by decide +kernel
  have hcapacity := ledger_capacity.2 serdeBoth (.empty 7) events serdeBoth_roundTrips rfl rfl
  have hstate : let ledger := (run serdeBoth events (.first (.empty 7))).ledger
      let next := toPersisted (ledger.records.insert second.operationId second)
      ledger.records.size < maximumRecords ∧ ledger.records[second.operationId]? = none ∧
        (ledger.records.toList.all fun row => !isPrunable row.2) = true ∧
        ledger.world.dir (.temp ledger.world.pid ledger.world.sequence) = none ∧
        serdeBoth.toVec next = some (fileBytes next) ∧
        (fileBytes next).length ≤ maximumFileBytes := by
    decide +kernel
  generalize (run serdeBoth events (.first (.empty 7))).ledger = ledger at hcapacity hstate ⊢
  obtain ⟨hsize, hfresh, hunfinished, htemp, hvec, hlength⟩ := hstate
  have hroom := hcapacity.room [] ids "room-1" "m2" "codex" prepared.updatedAt hids
  change let record := second; _ at hroom
  obtain ⟨kept, hkept, hbegun, -, hrecords, -, hwritten⟩ := hroom hvalid hfresh (.inl hsize)
  -- The first operation has not ended, so it is not pruned.
  have hsame : kept = ledger.records := by
    rcases hkept.entries with hsame | ⟨id, record, hrecord, hprunable, -⟩
    · exact hsame
    · have hentry := List.all_eq_true.mp hunfinished _
        (ExtTreeMap.mem_toList_iff_getElem?_eq_some.mpr hrecord)
      dsimp only at hentry
      rw [hprunable] at hentry
      cases hentry
  subst hsame
  have hdone := (hwritten hvec htemp rfl).mpr hlength
  rw [hdone] at hbegun
  exact ⟨hbegun, hrecords hdone⟩

end OrchestrationSample

section DispatchSample

open AiDispatchLedger AiDispatchLedger.Sample

/-- No turn is active, and the ledger is full of dispatches whose turns ended unknown. A new one is
refused. -/
theorem begin_refused :
    let state := run serde ([.restart 7] ++ fill 0 512) (.first (World.empty 7))
    state.running = true ∧ state.ledger.data.active = [] ∧
      validateRecord (dispatch 512) = .ok () ∧ state.record (identifier 512) = none ∧
      begin serde [] (dispatch 512) state.ledger = (.error .invalid, state.ledger) := by
  have hsampled : Sampled ∅ := AllEntries.empty
  have hsize : (∅ : Records).size = 0 := rfl
  -- All 512 records of the run are external turns that were left open.
  obtain ⟨filled, hfilled, hat⟩ := fill_run restart_at hsampled 0 512 (by decide)
    (fun n _ _ => ExtTreeMap.getElem?_empty) (by rw [hsize]; decide)
  rw [← run_append] at hat
  have hsound := @run_sound serde _ ([.restart 7] ++ fill 0 512) (sound_first (World.empty 7))
  generalize run serde ([.restart 7] ++ fill 0 512) (.first (World.empty 7)) = state at hat hsound ⊢
  have hdata : state.ledger.data = { records := filled, active := [] } := hat.data
  have hvalid : validateRecord (dispatch 512) = .ok () := dispatch_valid (by decide)
  have hfresh : state.record (identifier 512) = none := by
    rw [State.record, hdata, hfilled.entries, if_neg (by decide)]
    exact ExtTreeMap.getElem?_empty
  have hfull : ¬HasRoom maximumDispatchRecords isTerminal state.ledger.data.records := by
    rw [hdata]
    -- The table has no room, and none of its records is terminal.
    rintro (hroom | ⟨id, record, hrecord, hterminal⟩)
    · rw [hfilled.size] at hroom
      exact absurd hroom (by decide)
    · obtain ⟨n, -, turn, rfl, rfl⟩ := hfilled.sampled id record hrecord
      rw [hfilled.entries] at hrecord
      split_ifs at hrecord
      · rw [Option.some.injEq] at hrecord
        rw [← hrecord] at hterminal
        cases hterminal
      · cases hrecord
  have hactive : state.ledger.data.active = [] := by rw [hdata]
  have hrefused : begin serde [] (dispatch 512) state.ledger = (.error .invalid, state.ledger) :=
    (dispatch_capacity hsound).full [] (dispatch 512) hvalid hfresh hfull
  exact ⟨hat.running, hactive, hvalid, hfresh, hrefused⟩

end DispatchSample

end Mio.Desktop.LedgerCapacity
