import Mio.Desktop.AiDispatchLedger
import Mio.Desktop.RoomAiContinuity
import Mio.Desktop.RoomWorkspace

/-!
# The recovery of the JSON stores

The dispatch ledger, the continuity store, and the workspace bindings are instances of `JsonStore`,
and their files give back every valid state. So each recovers in every run in which no persist loses
the file (`JsonStore.Exposes`). Two cuts in a row show that the exception is a real one: the first
leaves only the backup, and the second stops the next persist once it has removed it.
-/

namespace Mio.Desktop

open Library

/-- In every run in which no persist loses its file, the three stores recover what was persisted
last. -/
theorem stores_recover {PathBuf : Type} (isAbsolute : PathBuf → Bool)
    (dispatchSerde : Serde AiDispatchLedger.PersistedDispatchLedger)
    (continuitySerde : Serde RoomAiContinuity.PersistedContinuityFile)
    (workspaceSerde : Serde (RoomWorkspace.PersistedWorkspaceFile PathBuf))
    (hdispatch : dispatchSerde.RoundTrips) (hcontinuity : continuitySerde.RoundTrips)
    (hworkspace : workspaceSerde.RoundTrips) :
    (AiDispatchLedger.dispatchLedgerPersistence dispatchSerde).Recovers
        AiDispatchLedger.ValidRecords ∧
      (RoomAiContinuity.continuityPersistence continuitySerde).Recovers
        RoomAiContinuity.ValidBindings ∧
      (RoomWorkspace.workspacePersistence workspaceSerde isAbsolute).Recovers
        (RoomWorkspace.ValidBindings isAbsolute) :=
  ⟨JsonStore.recovers (AiDispatchLedger.dispatchLedgerPersistence_lawful hdispatch),
    JsonStore.recovers (RoomAiContinuity.continuityPersistence_lawful hcontinuity),
    JsonStore.recovers (RoomWorkspace.workspacePersistence_lawful hworkspace isAbsolute)⟩

namespace StoreSample

/-- A record of the dispatch ledger. -/
def record : AiDispatchLedger.AiDispatchRecord where
  dispatchId := "room-message:m1:codex"
  roomId := "room-1"
  sourceMessageId := "m1"
  recipientId := "codex"
  replyMessageId := "ai-reply-m1-codex"
  state := .prepared
  updatedAt := "2026-08-13T00:00:00Z"

/-- The ledger with that record. -/
def records : AiDispatchLedger.Records := Std.ExtTreeMap.ofList [(record.dispatchId, record)]

/-- The file of the ledger with that record. -/
def recordsBody : Bytes :=
  asBytes ("\x7b\"fileVersion\":1,\"records\":[\x7b\"dispatchId\":\"room-message:m1:codex\"," ++
    "\"roomId\":\"room-1\",\"sourceMessageId\":\"m1\",\"recipientId\":\"codex\"," ++
    "\"replyMessageId\":\"ai-reply-m1-codex\",\"state\":\"prepared\"," ++
    "\"updatedAt\":\"2026-08-13T00:00:00Z\"\x7d]\x7d")

/-- A serializer that knows the file of the dispatch. -/
def dispatchSerde : Serde AiDispatchLedger.PersistedDispatchLedger :=
  .table [(AiDispatchLedger.toPersisted records, recordsBody)]

/-- A serializer that knows the empty file of conversations. -/
def continuitySerde : Serde RoomAiContinuity.PersistedContinuityFile :=
  .table [(RoomAiContinuity.toPersisted ∅, asBytes "\x7b\"fileVersion\":1,\"bindings\":[]\x7d")]

/-- A serializer that knows the empty file of bindings. -/
def workspaceSerde : Serde (RoomWorkspace.PersistedWorkspaceFile String) :=
  .table [(RoomWorkspace.toPersisted ∅, asBytes "\x7b\"fileVersion\":1,\"bindings\":[]\x7d")]

/-- A schedule that stops at the sixth step. -/
def cutAtSixth : List Fault :=
  [.proceed, .proceed, .proceed, .proceed, .proceed, .cut 0]

/-- The ledger is persisted once, and the next two persists are cut off. -/
def events : List (JsonStore.Event AiDispatchLedger.Records) :=
  [.persist records [], .persist records cutAtSixth, .restart 8, .persist records cutAtSixth,
    .restart 9]

end StoreSample

open StoreSample in
/-- The three stores recover with these serializers. -/
theorem stores_recover_sample :
    (AiDispatchLedger.dispatchLedgerPersistence dispatchSerde).Recovers
        AiDispatchLedger.ValidRecords ∧
      (RoomAiContinuity.continuityPersistence continuitySerde).Recovers
        RoomAiContinuity.ValidBindings ∧
      (RoomWorkspace.workspacePersistence workspaceSerde (·.startsWith "/")).Recovers
        (RoomWorkspace.ValidBindings (·.startsWith "/")) :=
  stores_recover _ _ _ _ (Serde.table_roundTrips (by decide) (by decide))
    (Serde.table_roundTrips (by decide) (by decide))
    (Serde.table_roundTrips (by decide) (by decide))

open StoreSample in
/-- After two cuts in a row, the ledger that was persisted is lost: a load gives the empty one. -/
theorem dispatchLedger_lost :
    let store := AiDispatchLedger.dispatchLedgerPersistence dispatchSerde
    let state := store.run events ⟨World.empty 7, none⟩
    state.saved = some records ∧ records ≠ ∅ ∧
      (store.load.run [] state.world).1 = .done ∅ := by
  decide +kernel

end Mio.Desktop
