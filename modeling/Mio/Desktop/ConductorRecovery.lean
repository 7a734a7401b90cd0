import Mio.Desktop.RoomConductorSettings
import Mio.Desktop.RoomOrchestrationRuns

/-!
# The recovery of the conductors' files

What a load gives of the orchestration ledger and of the settings of the conductors. The ledger
recovers in every run. The settings recover in every run in which no call loses them
(`RoomConductorSettings.Exposes`), and a read that fails for a while shows that the exception is a
real one. A call that does not return leaves what is in memory.
-/

namespace Mio.Desktop

open Library Std

namespace RoomOrchestrationLedger

/-- At every point of every run, a load gives the records of the last persist that returned,
rewritten, and a call that does not return leaves them. -/
def Recovers (serde : Serde PersistedFile) : Prop :=
  ∀ world : World, world.dir .primary = none → world.dir .backup = none → ∀ events,
    let state := run serde events (.first world)
    (∃ normalized, (load serde).run [] state.ledger.world =
        (.done (rewriteRecords state.ledger.records, normalized), state.ledger.world)) ∧
      (rewriteRecords state.ledger.records = ∅ → state.ledger.records = ∅) ∧
      ∀ (call : LedgerCall) faults, (call.run serde faults state.ledger).1 ≠ .done () →
        (call.run serde faults state.ledger).2.records = state.ledger.records

/-- The file of the operations meets the claim that both conductor files share. -/
theorem recovers {serde : Serde PersistedFile} (hserde : serde.RoundTrips) : Recovers serde := by
  intro world hp hb events
  have hfile := run_fileHolds hserde (fileHolds_first serde hp hb) events
  refine ⟨⟨_, load_run hfile⟩, fun hempty => ?_, fun call faults hfailed => ?_⟩
  · refine ExtTreeMap.ext_getElem? fun id => ?_
    have hget := getElem?_rewriteRecords (run serde events (.first world)).ledger.records id
    rw [hempty] at hget
    have hnone : (run serde events (.first world)).ledger.records[id]? = none := by
      simpa using hget.symm
    rw [hnone]
    simp
  · have hends := @LedgerCall.ends serde faults _ hserde hfile call
    generalize hresult : call.run serde faults (run serde events (.first world)).ledger = result
      at hends hfailed
    cases hends with
    | kept outcome world hfile => rfl
    | stepped next world hstep hfile => exact absurd rfl hfailed

end RoomOrchestrationLedger

namespace RoomConductorSettings

/-- At every point of a run in which no call loses the state, a load gives the rooms of the last
persist that returned, and a call that does not return leaves them. -/
def Recovers (serde : Serde PersistedFile) : Prop :=
  ∀ world : World, world.dir .primary = none → world.dir .backup = none →
    ∀ events, Unexposed serde events (.first world) →
      let state := run serde events (.first world)
      (load serde).run [] state.settings.world =
        (.done state.settings.rooms, state.settings.world) ∧
        ∀ (call : SettingsCall) faults,
          (∀ status, (call.run serde faults state.settings).1 ≠ .done status) →
            (call.run serde faults state.settings).2.rooms = state.settings.rooms

/-- The file of the settings meets it too. -/
theorem recovers {serde : Serde PersistedFile} (hserde : serde.RoundTrips) : Recovers serde := by
  intro world hp hb events hsafe
  have hfile := run_fileHolds hserde (fileHolds_first hp hb) hsafe
  exact ⟨load_run hfile, fun call faults hfailed => SettingsCall.run_rooms hfailed⟩

end RoomConductorSettings

/-- The ledger recovers in every run, and the settings of the conductors in every run in which no
call loses them. -/
theorem conductor_files_recover (ledgerSerde : Serde RoomOrchestrationLedger.PersistedFile)
    (settingsSerde : Serde RoomConductorSettings.PersistedFile) (hledger : ledgerSerde.RoundTrips)
    (hsettings : settingsSerde.RoundTrips) :
    RoomOrchestrationLedger.Recovers ledgerSerde ∧ RoomConductorSettings.Recovers settingsSerde :=
  ⟨RoomOrchestrationLedger.recovers hledger, RoomConductorSettings.recovers hsettings⟩

namespace ConductorSample

open RoomConductorSettings

/-- A serializer that knows the empty file of operations. -/
def ledgerSerde : Serde RoomOrchestrationLedger.PersistedFile :=
  .table [(RoomOrchestrationLedger.toPersisted ∅,
    asBytes "\x7b\"fileVersion\":1,\"records\":[]\x7d")]

/-- The settings of the one room. -/
def room (sendMode : ConductorSendMode) : PersistedRoomConductor where
  roomId := "moe-dev-room"
  conductorId := "codex"
  sendMode := sendMode

/-- The file in which the room has the send mode. -/
def body (sendMode : String) : Bytes :=
  asBytes ("\x7b\"fileVersion\":1,\"rooms\":[\x7b\"roomId\":\"moe-dev-room\"," ++
    "\"conductorId\":\"codex\",\"sendMode\":\"" ++ sendMode ++ "\"\x7d]\x7d")

/-- A serializer that knows the files of both send modes. -/
def settingsSerde : Serde PersistedFile :=
  .table [(⟨1, [room .conductor]⟩, body "conductor"), (⟨1, [room .direct]⟩, body "direct")]

/-- The read of the primary fails, and the last rename is cut off. -/
def unreadAndCut : List Fault :=
  [.proceed, .proceed, .proceed, .proceed, .fail 0, .proceed, .cut 0]

/-- A conductor is set, and the change of the mode is cut off. -/
def events : List Event :=
  [.restart 7, .call (.setConductor "moe-dev-room" "codex") [],
    .call (.setMode "moe-dev-room" .direct) unreadAndCut]

end ConductorSample

open ConductorSample in
/-- Both files recover with these serializers. -/
theorem conductor_files_recover_sample :
    RoomOrchestrationLedger.Recovers ledgerSerde ∧ RoomConductorSettings.Recovers settingsSerde :=
  conductor_files_recover ledgerSerde settingsSerde
    (Serde.table_roundTrips (by decide) (by decide))
    (Serde.table_roundTrips (by decide) (by decide))

open ConductorSample RoomConductorSettings in
/-- A conductor that was set is lost when the next persist cannot read the primary for once and is
cut off after it has removed it: a load gives no rooms. -/
theorem conductorSettings_lost :
    let state := RoomConductorSettings.run settingsSerde events (.first (.empty 6))
    state.settings.rooms = .ofList [("moe-dev-room", room .conductor)] ∧
      ((load settingsSerde).run [] state.settings.world).1 = .done ∅ := by
  decide +kernel

end Mio.Desktop
