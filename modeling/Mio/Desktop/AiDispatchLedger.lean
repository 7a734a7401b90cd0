import Mio.Desktop.JsonStore
import Mio.Library.Collect
import Mio.Library.Keyed
import Mio.Library.Serde

/-!
# The dispatch ledger

The ledger of `apps/desktop/src-tauri/src/ai_dispatch_ledger.rs` remembers which messages were
handed to an external AI. This module has its records, the file they are kept in, and the
operations, which keep the records valid. An operation persists the records that it is about to put
in memory, under a schedule of faults, so it takes and returns the ledger together with the
directory.

`serde_json` is a parameter, and the errors for a poisoned lock do not occur.
-/

namespace Mio.Desktop.AiDispatchLedger

open Library Std

/-- The version of the file. -/
def dispatchLedgerFileVersion : UInt8 := 1

/-- The longest file that is read or written, in bytes. -/
def maximumDispatchLedgerBytes : ℕ := 1024 * 1024

/-- The most records that the ledger keeps. -/
def maximumDispatchRecords : ℕ := 512

/-! ## The data -/

/-- How far a dispatch is. -/
inductive AiDispatchState where
  | prepared
  | externalStarted
  | completed
  | failed
  deriving DecidableEq

/-- What the ledger keeps of a dispatch. -/
structure AiDispatchRecord where
  dispatchId : String
  roomId : String
  sourceMessageId : String
  recipientId : String
  replyMessageId : String
  state : AiDispatchState
  updatedAt : String
  deriving DecidableEq

/-- What a begin comes to: a new record, a dispatch that is under way, or a record that is there. -/
inductive AiDispatchBegin where
  | reserved
  | active
  | existing (record : AiDispatchRecord)
  deriving DecidableEq

/-- Why a call of the ledger fails. -/
abbrev AiDispatchLedgerError := StoreError

/-- The records by their dispatch identifier. -/
abbrev Records := ExtTreeMap String AiDispatchRecord

/-- A record as it stands in the file. -/
structure PersistedDispatchRecord where
  dispatchId : String
  roomId : String
  sourceMessageId : String
  recipientId : String
  replyMessageId : String
  state : AiDispatchState
  updatedAt : String
  deriving DecidableEq

/-- The content of the file. -/
structure PersistedDispatchLedger where
  fileVersion : UInt8
  records : List PersistedDispatchRecord
  deriving DecidableEq

/-! ## The checks -/

/-- An identifier of a dispatch: letters, digits, dashes, underscores and colons. -/
def validDispatchId : String → Bool :=
  boundedBytes 384 fun _ byte =>
    isAsciiAlphanumeric byte || byte == 0x2d || byte == 0x5f || byte == 0x3a

/-- An identifier of a room, a message or a participant: letters, digits, dashes and underscores. -/
def validEntityId : String → Bool :=
  boundedBytes 128 fun _ byte => isAsciiAlphanumeric byte || byte == 0x2d || byte == 0x5f

/-- A time is a short text of visible characters. -/
def validTimestamp : String → Bool := boundedBytes 64 fun _ byte => isAsciiGraphic byte

/-- The check of a record. Its identifier has to be the one that its message and its recipient
give. -/
def validateRecord (record : AiDispatchRecord) : Except AiDispatchLedgerError Unit :=
  if !validDispatchId record.dispatchId || !validEntityId record.roomId ||
      !validEntityId record.sourceMessageId || !validEntityId record.recipientId ||
      !validEntityId record.replyMessageId || !validTimestamp record.updatedAt ||
      record.dispatchId != s!"room-message:{record.sourceMessageId}:{record.recipientId}" then
    .error .invalid
  else .ok ()

/-- Whether two records are of one dispatch, with the same room and the same reply. -/
def sameDispatch (left right : AiDispatchRecord) : Bool :=
  left.dispatchId == right.dispatchId && left.roomId == right.roomId &&
    left.sourceMessageId == right.sourceMessageId && left.recipientId == right.recipientId &&
    left.replyMessageId == right.replyMessageId

/-! ## The file -/

/-- A record as it is written. -/
def toPersistedRecord (record : AiDispatchRecord) : PersistedDispatchRecord where
  dispatchId := record.dispatchId
  roomId := record.roomId
  sourceMessageId := record.sourceMessageId
  recipientId := record.recipientId
  replyMessageId := record.replyMessageId
  state := record.state
  updatedAt := record.updatedAt

/-- A record as it is read. -/
def ofPersistedRecord (persisted : PersistedDispatchRecord) : AiDispatchRecord where
  dispatchId := persisted.dispatchId
  roomId := persisted.roomId
  sourceMessageId := persisted.sourceMessageId
  recipientId := persisted.recipientId
  replyMessageId := persisted.replyMessageId
  state := persisted.state
  updatedAt := persisted.updatedAt

/-- The records as they are written, in the order of their identifiers. -/
def toPersisted (records : Records) : PersistedDispatchLedger where
  fileVersion := dispatchLedgerFileVersion
  records := records.toList.map fun entry => toPersistedRecord entry.2

/-- The entry for a row of the file, when the record passes its check. -/
def persistedEntry (persisted : PersistedDispatchRecord) : Option (String × AiDispatchRecord) :=
  let record := ofPersistedRecord persisted
  match validateRecord record with
  | .ok () => some (record.dispatchId, record)
  | .error _ => none

/-- The records as they are read, if the file has the right version, not too many of them, and each
passes its check. -/
def ofPersisted (persisted : PersistedDispatchLedger) : Option Records :=
  if persisted.fileVersion != dispatchLedgerFileVersion ||
      maximumDispatchRecords < persisted.records.length then
    none
  else collect persistedEntry persisted.records ∅

/-- The file of the ledger (`DispatchLedgerPersistence`). -/
def dispatchLedgerPersistence (serde : Serde PersistedDispatchLedger) : JsonStore Records where
  maximumBytes := maximumDispatchLedgerBytes
  empty := ∅
  toVec records := serde.toVec (toPersisted records)
  fromSlice body := (serde.fromSlice body).bind ofPersisted

/-! ## The operations -/

/-- The records, and the dispatches that are under way in this process. -/
structure DispatchLedgerData where
  records : Records
  active : List String

/-- A running ledger, and the directory that its file is in. -/
structure DesktopAiDispatchLedger where
  data : DispatchLedgerData
  world : World

/-- The order in which terminal records are pruned. -/
def olderThan (left right : AiDispatchRecord) : Bool :=
  left.updatedAt < right.updatedAt ||
    left.updatedAt == right.updatedAt && left.dispatchId < right.dispatchId

/-- Whether the record is one that may be pruned. -/
def isTerminal (record : AiDispatchRecord) : Bool :=
  record.state == .completed || record.state == .failed

/-- Make room for a record: the oldest one that is over goes. -/
def pruneTerminalRecords (records : Records) : Records :=
  pruneOldest maximumDispatchRecords (·.dispatchId) olderThan isTerminal records

section Operations

variable (serde : Serde PersistedDispatchLedger) (faults : List Fault)

/-- Persist the records and, once they are persisted, take them over as `data`. -/
def commit (records : Records) (data : DispatchLedgerData) (ledger : DesktopAiDispatchLedger) :
    Outcome AiDispatchLedgerError Unit × DesktopAiDispatchLedger :=
  match ((dispatchLedgerPersistence serde).persist records).run faults ledger.world with
  | (.done (), world) => (.done (), { data, world })
  | (.error e, world) => (.error e, { ledger with world })
  | (.cut, world) => (.cut, { ledger with world })

/-- Begin a dispatch: reserve its record, unless it is under way or has one that counts. -/
def begin (record : AiDispatchRecord) (ledger : DesktopAiDispatchLedger) :
    Outcome AiDispatchLedgerError AiDispatchBegin × DesktopAiDispatchLedger :=
  match validateRecord record with
  | .error e => (.error e, ledger)
  | .ok () =>
    let record := { record with state := .prepared }
    if ledger.data.active.contains record.dispatchId then (.done .active, ledger)
    else
      match ledger.data.records[record.dispatchId]? with
      | some existing =>
        if !sameDispatch existing record then (.error .invalid, ledger)
        else (.done (.existing existing), ledger)
      | none =>
        -- The records in memory are pruned before anything is persisted.
        let records := pruneTerminalRecords ledger.data.records
        let pruned := { ledger with data := { ledger.data with records } }
        if maximumDispatchRecords ≤ records.size then (.error .invalid, pruned)
        else
          let next := records.insert record.dispatchId record
          let data := { records := next, active := record.dispatchId :: ledger.data.active }
          match commit serde faults next data pruned with
          | (.done (), ledger) => (.done .reserved, ledger)
          | (.error e, ledger) => (.error e, ledger)
          | (.cut, ledger) => (.cut, ledger)

/-- Move the record of a dispatch that is under way from one state to the next. -/
def transition (dispatchId : String) (expected nextState : AiDispatchState) (updatedAt : String)
    (finish : Bool) (ledger : DesktopAiDispatchLedger) :
    Outcome AiDispatchLedgerError Unit × DesktopAiDispatchLedger :=
  if !validDispatchId dispatchId || !validTimestamp updatedAt then (.error .invalid, ledger)
  else if !ledger.data.active.contains dispatchId then (.error .invalid, ledger)
  else
    match ledger.data.records[dispatchId]? with
    | none => (.error .invalid, ledger)
    | some current =>
      if current.state != expected then (.error .invalid, ledger)
      else
        let next := ledger.data.records.insert dispatchId
          { current with state := nextState, updatedAt }
        let active :=
          if finish then ledger.data.active.filter (· != dispatchId) else ledger.data.active
        commit serde faults next { records := next, active } ledger

/-- The provider is about to be called. -/
def markExternalStarted (dispatchId updatedAt : String) :
    DesktopAiDispatchLedger → Outcome AiDispatchLedgerError Unit × DesktopAiDispatchLedger :=
  transition serde faults dispatchId .prepared .externalStarted updatedAt false

/-- The dispatch has failed before the provider was called. -/
def markFailed (dispatchId updatedAt : String) :
    DesktopAiDispatchLedger → Outcome AiDispatchLedgerError Unit × DesktopAiDispatchLedger :=
  transition serde faults dispatchId .prepared .failed updatedAt true

/-- The provider has confirmed that there was no turn. -/
def markExternalPreflightFailed (dispatchId updatedAt : String) :
    DesktopAiDispatchLedger → Outcome AiDispatchLedgerError Unit × DesktopAiDispatchLedger :=
  transition serde faults dispatchId .externalStarted .failed updatedAt true

/-- The reply is stored. -/
def markCompleted (dispatchId updatedAt : String) :
    DesktopAiDispatchLedger → Outcome AiDispatchLedgerError Unit × DesktopAiDispatchLedger :=
  transition serde faults dispatchId .externalStarted .completed updatedAt true

end Operations

/-- The dispatch is no longer under way, and its record stays as it is. -/
def finishUnknown (dispatchId : String) (ledger : DesktopAiDispatchLedger) :
    DesktopAiDispatchLedger :=
  { ledger with
    data := { ledger.data with active := ledger.data.active.filter (· != dispatchId) } }

/-- The start of a ledger from its file. No dispatch is active then. -/
def persistent (serde : Serde PersistedDispatchLedger) (world : World) :
    Except AiDispatchLedgerError DesktopAiDispatchLedger :=
  match (dispatchLedgerPersistence serde).load.run [] world with
  | (.done records, world) => .ok { data := { records, active := [] }, world }
  | (.error e, _) => .error e
  | (.cut, _) => .error .io

/-! ## The records stay valid -/

/-- Records that a file can hold: within the limit, each valid and under its own identifier. -/
abbrev ValidRecords : Records → Prop :=
  ValidMap maximumDispatchRecords fun id record =>
    record.dispatchId = id ∧ validateRecord record = .ok ()

/-- Each record stands under its identifier. -/
theorem ValidRecords.key {records : Records} (h : ValidRecords records) :
    AllEntries (fun id record => record.dispatchId = id) records :=
  fun id record hrecord => (h.entries id record hrecord).1

/-- A record that is written is read as it was. -/
theorem ofPersistedRecord_toPersistedRecord (record : AiDispatchRecord) :
    ofPersistedRecord (toPersistedRecord record) = record := rfl

/-- Valid records come back from the file's rows. -/
theorem ofPersisted_toPersisted {records : Records} (h : ValidRecords records) :
    ofPersisted (toPersisted records) = some records := by
  have hlength : (records.toList.map fun entry => toPersistedRecord entry.2).length =
      records.size := by
    rw [List.length_map, ExtTreeMap.length_toList]
  have hsize := h.size
  have hguard : ((toPersisted records).fileVersion != dispatchLedgerFileVersion ||
      decide (maximumDispatchRecords < (toPersisted records).records.length)) = false := by
    simp only [toPersisted, hlength, bne_self_eq_false, Bool.false_or, decide_eq_false_iff_not]
    omega
  rw [ofPersisted, hguard]
  refine collect_toList fun id record hrecord => ?_
  obtain ⟨hid, hvalid⟩ := h.entries id record hrecord
  simp [persistedEntry, ofPersistedRecord_toPersistedRecord, hvalid, hid]

/-- The ledger's file gives back valid records. -/
theorem dispatchLedgerPersistence_lawful {serde : Serde PersistedDispatchLedger}
    (hserde : serde.RoundTrips) : (dispatchLedgerPersistence serde).Lawful ValidRecords := by
  refine ⟨fun records body hvalid hvec => ?_⟩
  obtain ⟨hne, hback⟩ := hserde _ _ hvec
  refine ⟨hne, ?_⟩
  show (serde.fromSlice body).bind ofPersisted = some records
  rw [hback]
  exact ofPersisted_toPersisted hvalid

/-- A record stays valid in another state and with another valid time. -/
theorem validateRecord_update {record : AiDispatchRecord} (h : validateRecord record = .ok ())
    (state : AiDispatchState) {updatedAt : String} (hupdated : validTimestamp updatedAt = true) :
    validateRecord { record with state, updatedAt } = .ok () := by
  unfold validateRecord at h ⊢
  split at h
  · cases h
  rename_i hchecked
  simp only [Bool.or_eq_true, not_or] at hchecked
  rw [if_neg]
  simp only [Bool.or_eq_true, not_or, hupdated]
  exact ⟨⟨hchecked.1.1, by simp⟩, hchecked.2⟩

end Mio.Desktop.AiDispatchLedger
