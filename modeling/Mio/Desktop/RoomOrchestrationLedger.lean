import Mio.Core.Conductor
import Mio.Library.Collect
import Mio.Library.Keyed
import Mio.Library.Replace
import Mio.Library.Serde

/-!
# The orchestration ledger

The ledger of `room_orchestration_ledger.rs` remembers how far each conductor operation has come.
This module has its records, their checks, the file, and the operations. An operation persists the
records it is about to put in memory, under a schedule of faults, and takes and returns the ledger
together with the directory. A load cannot know whether an external turn that was under way has
ended, so it makes the records in such a stage `unknown` (`rewriteRecord`).

The path is given, and the errors for a poisoned lock do not occur.
-/

namespace Mio.Desktop.RoomOrchestrationLedger

open Library Core.Conductor Std

/-- The version of the file. -/
def fileVersion : UInt8 := 1

/-- The greatest size of the file, in bytes. -/
def maximumFileBytes : ℕ := 1024 * 1024

/-- The greatest number of records. -/
def maximumRecords : ℕ := 512

/-- The greatest number of delegations of an operation. -/
def maximumWorkers : ℕ := 3

/-! ## The data -/

/-- What the ledger keeps of a delegation. -/
structure OrchestrationDelegationLink where
  targetParticipantId : String
  messageId : String
  dispatchId : String
  deriving DecidableEq

/-- What the ledger keeps of an operation. -/
structure RoomOrchestrationRecord where
  operationId : String
  roomId : String
  sourceMessageId : String
  conductorId : String
  conductorSessionId : Option String
  finalMessageId : String
  stage : ConductorOperationStage
  delegations : List OrchestrationDelegationLink
  updatedAt : String
  deriving DecidableEq

/-- The answer of a begin: the new record, or the one that was there. -/
inductive RoomOrchestrationBegin where
  | reserved (record : RoomOrchestrationRecord)
  | existing (record : RoomOrchestrationRecord)
  deriving DecidableEq

/-- Why the ledger refuses a call. -/
inductive RoomOrchestrationLedgerError where
  | invalid
  | conflict
  | io
  deriving DecidableEq

/-- The records by their operation identifier. -/
abbrev Records := ExtTreeMap String RoomOrchestrationRecord

/-- The file. -/
structure PersistedFile where
  fileVersion : UInt8
  records : List RoomOrchestrationRecord
  deriving DecidableEq

/-! ## The checks -/

/-- Whether an identifier may be in a record. -/
def validIdentifier : String → Bool :=
  boundedBytes 128 fun index byte =>
    isAsciiAlphanumeric byte || (byte == 0x2e || byte == 0x5f || byte == 0x2d) && 0 < index

/-- Whether a time may be in a record. -/
def validTimestamp : String → Bool := boundedBytes 64 fun _ byte => isAsciiGraphic byte

/-- Whether a session may be in a record. -/
def validSessionId : String → Bool := boundedBytes 256 fun _ byte => isAsciiGraphic byte

/-- The loop over the delegations, with the ordinal of the next one and the targets seen so far. -/
def validateDelegationsFrom (ids : ConductorOperationIds) :
    List OrchestrationDelegationLink → ℕ → List String → Except RoomOrchestrationLedgerError Unit
  | [], _, _ => .ok ()
  | delegation :: rest, ordinal, targets =>
    if !validIdentifier delegation.targetParticipantId ||
        targets.contains delegation.targetParticipantId then
      .error .invalid
    else
      match ids.delegation delegation.targetParticipantId ordinal with
      | .error _ => .error .invalid
      | .ok expected =>
        if delegation.messageId != expected.messageId ||
            delegation.dispatchId != expected.dispatchId then
          .error .invalid
        else
          validateDelegationsFrom ids rest (ordinal + 1) (delegation.targetParticipantId :: targets)

/-- The delegations of a record must be the derived ones, to different participants. -/
def validateDelegations (record : RoomOrchestrationRecord)
    (delegations : List OrchestrationDelegationLink) : Except RoomOrchestrationLedgerError Unit :=
  let ids : ConductorOperationIds :=
    { operationId := record.operationId, finalMessageId := record.finalMessageId }
  validateDelegationsFrom ids delegations 0 []

/-- The check of a record. -/
def validateRecord (record : RoomOrchestrationRecord) : Except RoomOrchestrationLedgerError Unit :=
  if !validIdentifier record.operationId || !validIdentifier record.roomId ||
      !validIdentifier record.sourceMessageId || !validIdentifier record.conductorId ||
      record.conductorSessionId.any (fun sessionId => !validSessionId sessionId) ||
      !validIdentifier record.finalMessageId || !validTimestamp record.updatedAt ||
      maximumWorkers < record.delegations.length then
    .error .invalid
  else
    match ConductorOperationIds.derive record.sourceMessageId record.conductorId with
    | .error _ => .error .invalid
    | .ok ids =>
      if record.operationId != ids.operationId || record.finalMessageId != ids.finalMessageId then
        .error .invalid
      else validateDelegations record record.delegations

/-- Whether two records are of the same operation of the same message. -/
def sameIdentity (left right : RoomOrchestrationRecord) : Bool :=
  left.operationId == right.operationId && left.roomId == right.roomId &&
    left.sourceMessageId == right.sourceMessageId && left.conductorId == right.conductorId &&
    left.finalMessageId == right.finalMessageId

/-! ## The file -/

/-- Whether a load rewrites the record: an external turn was under way. -/
def isRewritten (record : RoomOrchestrationRecord) : Bool :=
  record.stage == .planning || record.stage == .synthesizing

/-- The record that a load makes of one. -/
def rewriteRecord (record : RoomOrchestrationRecord) : RoomOrchestrationRecord :=
  if isRewritten record then { record with stage := .unknown } else record

/-- The file of the records. -/
def toPersisted (records : Records) : PersistedFile where
  fileVersion := fileVersion
  records := records.toList.map (·.2)

/-- The entry for a row of the file, when the record passes its check. -/
def persistedEntry (record : RoomOrchestrationRecord) : Option (String × RoomOrchestrationRecord) :=
  match validateRecord record with
  | .ok () => some (record.operationId, rewriteRecord record)
  | .error _ => none

/-- The records in a file, and whether one of them was rewritten. -/
def ofPersisted (persisted : PersistedFile) : Option (Records × Bool) :=
  if persisted.fileVersion != fileVersion || maximumRecords < persisted.records.length then none
  else
    (collect persistedEntry persisted.records ∅).map fun records =>
      (records, persisted.records.any isRewritten)

/-- The programs of this module. -/
abbrev LedgerProg := Prog World RoomOrchestrationLedgerError

section File

variable (serde : Serde PersistedFile)

/-- Reads and decodes one file. -/
def readFile (path : Sibling) : LedgerProg PersistedFile := do
  Prog.refuse .invalid !(← pathIsFile path)
  let body ← readToEnd .io path
  Prog.refuse .invalid (body.isEmpty || maximumFileBytes < body.length)
  Prog.ofOption .invalid (serde.fromSlice body)

/-- Which file to load: the primary, the backup if there is no primary, or none. -/
def loadSource : LedgerProg (Option Sibling) := do
  if ← pathIsFile .primary then pure (some .primary)
  else if !(← pathExists .primary) && (← pathIsFile .backup) then pure (some .backup)
  else if !(← pathExists .primary) && !(← pathExists .backup) then pure none
  else Prog.throw .invalid

/-- Reads the records; the answer is also whether some of them were rewritten. -/
def load : LedgerProg (Records × Bool) := do
  match ← loadSource with
  | none => pure (∅, false)
  | some source =>
    let persisted ← readFile serde source
    Prog.ofOption .invalid (ofPersisted persisted)

/-- Refuse to make a primary that cannot be read the backup. -/
def checkPrimary : LedgerProg Unit := do
  if ← pathExists .primary then
    Prog.refuse .invalid !(← pathIsFile .primary)
    match ← (readFile serde .primary).attempt with
    | .ok _ => pure ()
    | .error _ => Prog.throw .invalid

/-- Writes the records to a temporary file and puts it in the place of the primary one. -/
def persist (records : Records) : LedgerProg Unit := do
  Prog.refuse .invalid (maximumRecords < records.size)
  quietStep .io
  Prog.refuse .invalid ((← pathExists .primary) && !(← pathIsFile .primary))
  let body ← Prog.ofOption .invalid (serde.toVec (toPersisted records))
  Prog.refuse .invalid (maximumFileBytes < body.length)
  let sequence ← fetchAdd
  let temp ← Prog.gets fun w => Sibling.temp w.pid sequence
  -- Past this point the temporary file is removed on an error (`TempGuard`).
  Prog.onError (removeFile .io temp) do
    createNew .io temp
    writeTemp .io temp body
    Prog.refuse .invalid ((← pathExists .backup) && !(← pathIsFile .backup))
    checkPrimary serde
    replacePrimary .io temp

/-- The start of a ledger from its file, which is written back if a record was rewritten. -/
def persistent : LedgerProg Records := do
  let (records, normalized) ← load serde
  if normalized then
    persist serde records
  pure records

end File

/-! ## The operations -/

/-- A running ledger, and the directory that its file is in. -/
structure DesktopRoomOrchestrationLedger where
  records : Records
  world : World

/-- The order in which terminal records are pruned. -/
def olderThan (left right : RoomOrchestrationRecord) : Bool :=
  left.updatedAt < right.updatedAt ||
    left.updatedAt == right.updatedAt && left.operationId < right.operationId

/-- Whether the record is one that may be pruned. -/
def isPrunable (record : RoomOrchestrationRecord) : Bool :=
  record.stage == .completed || record.stage == .failed

/-- Makes room for one more record by dropping the oldest that is terminal. -/
def pruneTerminalRecord (records : Records) : Records :=
  pruneOldest maximumRecords (·.operationId) olderThan isPrunable records

section Operations

variable (serde : Serde PersistedFile) (faults : List Fault)

/-- Persist the records and, once they are persisted, take them over. -/
def commit (next : Records) (ledger : DesktopRoomOrchestrationLedger) :
    Outcome RoomOrchestrationLedgerError Unit × DesktopRoomOrchestrationLedger :=
  match (persist serde next).run faults ledger.world with
  | (.done (), world) => (.done (), { records := next, world })
  | (.error e, world) => (.error e, { ledger with world })
  | (.cut, world) => (.cut, { ledger with world })

/-- The record that a begin reserves. -/
def preparedRecord (ids : ConductorOperationIds)
    (roomId sourceMessageId conductorId updatedAt : String) :
    RoomOrchestrationRecord where
  operationId := ids.operationId
  roomId := roomId
  sourceMessageId := sourceMessageId
  conductorId := conductorId
  conductorSessionId := none
  finalMessageId := ids.finalMessageId
  stage := .prepared
  delegations := []
  updatedAt := updatedAt

/-- Reserves the operation of a message, or finds the record that it has. -/
def begin (roomId sourceMessageId conductorId updatedAt : String)
    (ledger : DesktopRoomOrchestrationLedger) :
    Outcome RoomOrchestrationLedgerError RoomOrchestrationBegin × DesktopRoomOrchestrationLedger :=
  match ConductorOperationIds.derive sourceMessageId conductorId with
  | .error _ => (.error .invalid, ledger)
  | .ok ids =>
    let record := preparedRecord ids roomId sourceMessageId conductorId updatedAt
    match validateRecord record with
    | .error e => (.error e, ledger)
    | .ok () =>
      match ledger.records[record.operationId]? with
      | some existing =>
        if sameIdentity existing record then (.done (.existing existing), ledger)
        else (.error .conflict, ledger)
      | none =>
        let next := pruneTerminalRecord ledger.records
        if maximumRecords ≤ next.size then (.error .invalid, ledger)
        else
          match commit serde faults (next.insert record.operationId record) ledger with
          | (.done (), ledger) => (.done (.reserved record), ledger)
          | (.error e, ledger) => (.error e, ledger)
          | (.cut, ledger) => (.cut, ledger)

/-- Moves a record to the next stage; one that is there already is left as it is. -/
def transition (operationId : String) (expected : List ConductorOperationStage)
    (nextStage : ConductorOperationStage) (updatedAt : String)
    (ledger : DesktopRoomOrchestrationLedger) :
    Outcome RoomOrchestrationLedgerError Unit × DesktopRoomOrchestrationLedger :=
  if !validIdentifier operationId || !validTimestamp updatedAt then (.error .invalid, ledger)
  else
    match ledger.records[operationId]? with
    | none => (.error .invalid, ledger)
    | some current =>
      if current.stage == nextStage then (.done (), ledger)
      else if !expected.contains current.stage then (.error .conflict, ledger)
      else
        commit serde faults
          (ledger.records.insert operationId { current with stage := nextStage, updatedAt }) ledger

/-- The plan is asked for. -/
def markPlanning (operationId updatedAt : String) :
    DesktopRoomOrchestrationLedger →
      Outcome RoomOrchestrationLedgerError Unit × DesktopRoomOrchestrationLedger :=
  transition serde faults operationId [.prepared] .planning updatedAt

/-- The plan is known: the record gets its delegations and the conductor's session. -/
def markDelegating (operationId conductorSessionId : String)
    (delegations : List OrchestrationDelegationLink) (updatedAt : String)
    (ledger : DesktopRoomOrchestrationLedger) :
    Outcome RoomOrchestrationLedgerError Unit × DesktopRoomOrchestrationLedger :=
  if !validSessionId conductorSessionId || delegations.length < 1 ||
      maximumWorkers < delegations.length then
    (.error .invalid, ledger)
  else
    match ledger.records[operationId]? with
    | none => (.error .invalid, ledger)
    | some current =>
      if current.stage == .delegating then
        if current.conductorSessionId == some conductorSessionId &&
            current.delegations == delegations then
          (.done (), ledger)
        else (.error .conflict, ledger)
      else if current.stage != .planning || !validTimestamp updatedAt then
        (.error .conflict, ledger)
      else
        match validateDelegations current delegations with
        | .error e => (.error e, ledger)
        | .ok () =>
          commit serde faults
            (ledger.records.insert operationId
              { current with
                conductorSessionId := some conductorSessionId
                delegations
                stage := .delegating
                updatedAt }) ledger

/-- The final answer is asked for. -/
def markSynthesizing (operationId updatedAt : String) :
    DesktopRoomOrchestrationLedger →
      Outcome RoomOrchestrationLedgerError Unit × DesktopRoomOrchestrationLedger :=
  transition serde faults operationId [.planning, .delegating] .synthesizing updatedAt

/-- The final answer is saved. -/
def markCompleted (operationId updatedAt : String) :
    DesktopRoomOrchestrationLedger →
      Outcome RoomOrchestrationLedgerError Unit × DesktopRoomOrchestrationLedger :=
  transition serde faults operationId [.synthesizing] .completed updatedAt

/-- The operation certainly did not end. -/
def markFailed (operationId updatedAt : String) :
    DesktopRoomOrchestrationLedger →
      Outcome RoomOrchestrationLedgerError Unit × DesktopRoomOrchestrationLedger :=
  transition serde faults operationId [.prepared, .planning, .delegating, .synthesizing] .failed
    updatedAt

/-- Nobody knows whether the conductor's turn ran. -/
def markUnknown (operationId updatedAt : String) :
    DesktopRoomOrchestrationLedger →
      Outcome RoomOrchestrationLedgerError Unit × DesktopRoomOrchestrationLedger :=
  transition serde faults operationId [.planning, .synthesizing] .unknown updatedAt

end Operations

end Mio.Desktop.RoomOrchestrationLedger
