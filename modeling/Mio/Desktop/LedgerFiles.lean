import Mio.Core.StableIdentifiers
import Mio.Desktop.AiDispatchLedger
import Mio.Desktop.RoomOrchestrationLedger
import Mio.Library.JsonLines

/-!
# The size of the ledgers' files

The bytes of the two ledgers' files, as their serializer writes the records, and how many there are.
Of what a record's check admits, only a session identifier and a time can have characters that are
escaped. The length of a file is that of its records' texts, which the checks limit, and one byte
for each escaped character, which they do not (`length_fileBytes`).
-/

namespace Mio.Desktop

open Library Library.JsonBytes Std

/-! ## The dispatch ledger -/

namespace AiDispatchLedger

/-- How a state is written in the file. -/
def stateText : AiDispatchState → String
  | .prepared => "prepared"
  | .externalStarted => "externalStarted"
  | .completed => "completed"
  | .failed => "failed"

/-- The text of a record (`Serialize` of `PersistedDispatchRecord`). -/
def recordBytes (record : PersistedDispatchRecord) : Bytes :=
  object
    [("dispatchId", quoted record.dispatchId),
      ("roomId", quoted record.roomId),
      ("sourceMessageId", quoted record.sourceMessageId),
      ("recipientId", quoted record.recipientId),
      ("replyMessageId", quoted record.replyMessageId),
      ("state", quoted (stateText record.state)),
      ("updatedAt", quoted record.updatedAt)]

/-- The text of the file (`Serialize` of `PersistedDispatchLedger`). -/
def fileBytes (file : PersistedDispatchLedger) : Bytes :=
  object
    [("fileVersion", asBytes (toString file.fileVersion.toNat)),
      ("records", array (file.records.map recordBytes))]

/-- The length of a written record, by the lengths of its texts. -/
theorem length_recordBytes (record : PersistedDispatchRecord) :
    (recordBytes record).length = 99 + (quoted record.dispatchId).length +
      (quoted record.roomId).length + (quoted record.sourceMessageId).length +
      (quoted record.recipientId).length + (quoted record.replyMessageId).length +
      (quoted (stateText record.state)).length + (quoted record.updatedAt).length := by
  have hnames : (quoted "dispatchId").length = 12 ∧ (quoted "roomId").length = 8 ∧
      (quoted "sourceMessageId").length = 17 ∧ (quoted "recipientId").length = 13 ∧
      (quoted "replyMessageId").length = 16 ∧ (quoted "state").length = 7 ∧
      (quoted "updatedAt").length = 11 := by decide
  obtain ⟨h1, h2, h3, h4, h5, h6, h7⟩ := hnames
  rw [recordBytes, length_object]
  simp only [List.map_cons, List.map_nil, List.sum_cons, List.sum_nil, List.length_cons,
    List.length_nil, h1, h2, h3, h4, h5, h6, h7]
  omega

/-- A written state takes at most 17 bytes. -/
theorem length_stateText (state : AiDispatchState) : (quoted (stateText state)).length ≤ 17 := by
  cases state <;> decide

/-- A record that passes its check has a short text. -/
theorem length_recordBytes_le {record : AiDispatchRecord} (h : validateRecord record = .ok ()) :
    (recordBytes (toPersistedRecord record)).length ≤ 1152 := by
  unfold validateRecord at h
  split at h
  · cases h
  rename_i hchecked
  simp only [Bool.or_eq_true, not_or, Bool.not_eq_true, Bool.not_eq_false'] at hchecked
  obtain ⟨⟨⟨⟨⟨⟨hdispatch, hroom⟩, hsource⟩, hrecipient⟩, hreply⟩, hupdated⟩, -⟩ := hchecked
  have hcolon : ∀ byte : UInt8, (isAsciiAlphanumeric byte || byte == 0x2d || byte == 0x5f ||
      byte == 0x3a) = true → isAsciiGraphic byte = true ∧ byte ≠ 0x22 ∧ byte ≠ 0x5c := by
    intro byte hbyte
    exact plain_of_name byte (by rw [hbyte, Bool.true_or])
  have hentity : ∀ byte : UInt8, (isAsciiAlphanumeric byte || byte == 0x2d || byte == 0x5f) = true →
      isAsciiGraphic byte = true ∧ byte ≠ 0x22 ∧ byte ≠ 0x5c := fun byte hbyte =>
    hcolon byte (Bool.or_eq_true _ _ ▸ .inl hbyte)
  obtain ⟨hdispatch, hdispatch'⟩ := length_quoted_of_bounded (fun _ => hcolon) hdispatch
  obtain ⟨hroom, hroom'⟩ := length_quoted_of_bounded (fun _ => hentity) hroom
  obtain ⟨hsource, hsource'⟩ := length_quoted_of_bounded (fun _ => hentity) hsource
  obtain ⟨hrecipient, hrecipient'⟩ := length_quoted_of_bounded (fun _ => hentity) hrecipient
  obtain ⟨hreply, hreply'⟩ := length_quoted_of_bounded (fun _ => hentity) hreply
  obtain ⟨hupdated, hupdated'⟩ := length_quoted_of_graphic hupdated
  have hescapes := escapes_le record.updatedAt
  have hstate := length_stateText record.state
  rw [length_recordBytes]
  simp only [toPersistedRecord, hdispatch, hroom, hsource, hrecipient, hreply, hupdated]
  omega

/-- The file of records that pass their check, within the limit on their number. -/
theorem length_fileBytes_le {records : Records} (hsize : records.size ≤ maximumDispatchRecords)
    (hvalid : AllEntries (fun _ record => validateRecord record = .ok ()) records) :
    (fileBytes (toPersisted records)).length ≤ maximumDispatchLedgerBytes := by
  have hversion : (asBytes (toString dispatchLedgerFileVersion.toNat)).length = 1 := by
    decide
  have hnames : (quoted "fileVersion").length = 13 ∧ (quoted "records").length = 9 := by
    decide
  obtain ⟨h1, h2⟩ := hnames
  have hrecords : (((toPersisted records).records.map recordBytes).map List.length).sum ≤
      records.size * 1152 := by
    have hlength : (((toPersisted records).records.map recordBytes).map List.length).length =
        records.size := by
      simp [toPersisted]
    rw [← hlength, ← smul_eq_mul]
    refine List.sum_le_card_nsmul _ _ fun length hmem => ?_
    simp only [toPersisted, List.map_map, List.mem_map, Function.comp_apply] at hmem
    obtain ⟨⟨id, record⟩, hentry, rfl⟩ := hmem
    exact length_recordBytes_le
      (hvalid id record (ExtTreeMap.mem_toList_iff_getElem?_eq_some.mp hentry))
  have hcount : ((toPersisted records).records.map recordBytes).length = records.size := by
    simp [toPersisted]
  rw [fileBytes, length_object]
  simp only [List.map_cons, List.map_nil, List.sum_cons, List.sum_nil, List.length_cons,
    List.length_nil, h1, h2, length_array, hcount]
  change 13 + (asBytes (toString dispatchLedgerFileVersion.toNat)).length + 1 + _ + _ + 2 ≤ _
  rw [hversion]
  have hmax : maximumDispatchLedgerBytes = 1048576 := rfl
  have hlimit : maximumDispatchRecords = 512 := rfl
  omega

end AiDispatchLedger

/-! ## The orchestration ledger -/

namespace RoomOrchestrationLedger

open Core.Conductor

/-- How a stage is written in the file. -/
def stageText : ConductorOperationStage → String
  | .prepared => "prepared"
  | .planning => "planning"
  | .delegating => "delegating"
  | .synthesizing => "synthesizing"
  | .completed => "completed"
  | .failed => "failed"
  | .unknown => "unknown"

/-- The text of a delegation (`Serialize` of `OrchestrationDelegationLink`). -/
def linkBytes (link : OrchestrationDelegationLink) : Bytes :=
  object
    [("targetParticipantId", quoted link.targetParticipantId),
      ("messageId", quoted link.messageId),
      ("dispatchId", quoted link.dispatchId)]

/-- The text of a record (`Serialize` of `RoomOrchestrationRecord`). -/
def recordBytes (record : RoomOrchestrationRecord) : Bytes :=
  object
    [("operationId", quoted record.operationId),
      ("roomId", quoted record.roomId),
      ("sourceMessageId", quoted record.sourceMessageId),
      ("conductorId", quoted record.conductorId),
      ("conductorSessionId", record.conductorSessionId.elim (asBytes "null") quoted),
      ("finalMessageId", quoted record.finalMessageId),
      ("stage", quoted (stageText record.stage)),
      ("delegations", array (record.delegations.map linkBytes)),
      ("updatedAt", quoted record.updatedAt)]

/-- The text of the file (`Serialize` of `PersistedFile`). -/
def fileBytes (file : PersistedFile) : Bytes :=
  object
    [("fileVersion", asBytes (toString file.fileVersion.toNat)),
      ("records", array (file.records.map recordBytes))]

/-! ### What the check limits -/

/-- The length of a delegation's text. -/
def linkSize (link : OrchestrationDelegationLink) : ℕ :=
  57 + link.targetParticipantId.utf8ByteSize + link.messageId.utf8ByteSize +
    link.dispatchId.utf8ByteSize

/-- The length of a record's text, if nothing in it were escaped. -/
def recordSize (record : RoomOrchestrationRecord) : ℕ :=
  153 + record.operationId.utf8ByteSize + record.roomId.utf8ByteSize +
    record.sourceMessageId.utf8ByteSize + record.conductorId.utf8ByteSize +
    record.conductorSessionId.elim 4 (fun sessionId => sessionId.utf8ByteSize + 2) +
    record.finalMessageId.utf8ByteSize + (stageText record.stage).utf8ByteSize +
    (record.delegations.map linkSize).sum + (record.delegations.length - 1) +
    record.updatedAt.utf8ByteSize

/-- The length of a file's text, if nothing in it were escaped. -/
def fileSize (file : PersistedFile) : ℕ :=
  30 + (file.records.map recordSize).sum + (file.records.length - 1)

/-- The quotation marks and backslashes in a record. -/
def recordEscapes (record : RoomOrchestrationRecord) : ℕ :=
  record.conductorSessionId.elim 0 escapes + escapes record.updatedAt

/-- The quotation marks and backslashes in the records of a file. -/
def fileEscapes (file : PersistedFile) : ℕ := (file.records.map recordEscapes).sum

/-- A valid identifier needs no escape, and has at most 128 bytes. -/
theorem length_quoted_identifier {value : String} (h : validIdentifier value = true) :
    (quoted value).length = value.utf8ByteSize + 2 ∧ value.utf8ByteSize ≤ 128 := by
  refine length_quoted_of_bounded (fun index byte hallowed => plain_of_name byte ?_) h
  simp only [Bool.or_eq_true, Bool.and_eq_true] at hallowed ⊢
  rcases hallowed with halnum | ⟨(hdot | hscore) | hdash, -⟩
  · exact .inl (.inl (.inl (.inl halnum)))
  · exact .inr hdot
  · exact .inl (.inl (.inr hscore))
  · exact .inl (.inl (.inl (.inr hdash)))

/-- The loop of the check leaves delegations to valid targets, with the identifiers derived for
them. -/
theorem validateDelegationsFrom_links {ids : ConductorOperationIds}
    {delegations : List OrchestrationDelegationLink} {ordinal : ℕ} {targets : List String}
    (h : validateDelegationsFrom ids delegations ordinal targets = .ok ()) :
    ∀ link ∈ delegations, validIdentifier link.targetParticipantId = true ∧
      ∃ parts, link.messageId = stableIdentifier "conductor-delegation-v1" parts ∧
        link.dispatchId = stableIdentifier "conductor-dispatch-v1" parts := by
  induction delegations generalizing ordinal targets with
  | nil => simp
  | cons delegation rest ih =>
    rw [validateDelegationsFrom] at h
    split at h
    · cases h
    rename_i htarget
    simp only [Bool.or_eq_true, not_or, Bool.not_eq_true, Bool.not_eq_false'] at htarget
    split at h
    · cases h
    rename_i expected hexpected
    split at h
    · cases h
    rename_i hsame
    simp only [Bool.or_eq_true, bne_iff_ne, ne_eq, not_or, not_not] at hsame
    rw [ConductorOperationIds.delegation] at hexpected
    split at hexpected
    · cases hexpected
    obtain rfl := Except.ok.inj hexpected
    rw [List.forall_mem_cons]
    exact ⟨⟨htarget.1, _, hsame.1, hsame.2⟩, ih h⟩

/-- The text of such a delegation has nothing that is escaped. -/
theorem length_linkBytes {link : OrchestrationDelegationLink}
    (htarget : validIdentifier link.targetParticipantId = true) {parts : List String}
    (hmessage : link.messageId = stableIdentifier "conductor-delegation-v1" parts)
    (hdispatch : link.dispatchId = stableIdentifier "conductor-dispatch-v1" parts) :
    (linkBytes link).length = linkSize link ∧ linkSize link ≤ 295 := by
  have hnames : (quoted "targetParticipantId").length = 21 ∧ (quoted "messageId").length = 11 ∧
      (quoted "dispatchId").length = 12 := by decide
  obtain ⟨h1, h2, h3⟩ := hnames
  have hkinds : "conductor-delegation-v1".utf8ByteSize = 23 ∧
      "conductor-dispatch-v1".utf8ByteSize = 21 := by decide
  obtain ⟨hdelegation, hdispatches⟩ := hkinds
  obtain ⟨htarget, htarget'⟩ := length_quoted_identifier htarget
  obtain ⟨hmessage', -⟩ := length_quoted_identifier 
    (hmessage ▸ validIdentifier_stableIdentifier parts (by decide) (by decide))
  obtain ⟨hdispatch', -⟩ := length_quoted_identifier 
    (hdispatch ▸ validIdentifier_stableIdentifier parts (by decide) (by decide))
  have hsizes : link.messageId.utf8ByteSize = 56 ∧ link.dispatchId.utf8ByteSize = 54 := by
    rw [hmessage, hdispatch, utf8ByteSize_stableIdentifier, utf8ByteSize_stableIdentifier]
    omega
  refine ⟨?_, by rw [linkSize]; omega⟩
  rw [linkBytes, length_object, linkSize]
  simp only [List.map_cons, List.map_nil, List.sum_cons, List.sum_nil, List.length_cons,
    List.length_nil, h1, h2, h3, htarget, hmessage', hdispatch']
  omega

/-- The text of the delegations of a record that passes its check. -/
theorem length_linksBytes {record : RoomOrchestrationRecord}
    (h : validateDelegations record record.delegations = .ok ()) :
    (array (record.delegations.map linkBytes)).length =
      (record.delegations.map linkSize).sum + (record.delegations.length - 1) + 2 ∧
      (record.delegations.map linkSize).sum ≤ record.delegations.length * 295 := by
  have hlinks : ∀ link ∈ record.delegations,
      (linkBytes link).length = linkSize link ∧ linkSize link ≤ 295 := by
    intro link hlink
    obtain ⟨htarget, parts, hmessage, hdispatch⟩ := validateDelegationsFrom_links h link hlink
    exact length_linkBytes htarget hmessage hdispatch
  constructor
  · rw [length_array, List.length_map, List.map_map]
    congr 3
    exact List.map_congr_left fun link hlink => (hlinks link hlink).1
  · rw [← List.length_map (f := linkSize), ← smul_eq_mul]
    refine List.sum_le_card_nsmul _ _ fun size hsize => ?_
    obtain ⟨link, hlink, rfl⟩ := List.mem_map.mp hsize
    exact (hlinks link hlink).2

/-- The text of the session identifier, or of its absence. -/
theorem length_sessionBytes {session : Option String}
    (h : session.any (fun sessionId => !validSessionId sessionId) = false) :
    (session.elim (asBytes "null") quoted).length =
      session.elim 4 (fun sessionId => sessionId.utf8ByteSize + 2) + session.elim 0 escapes ∧
      session.elim 4 (fun sessionId => sessionId.utf8ByteSize + 2) ≤ 258 := by
  cases session with
  | none => exact ⟨rfl, by decide⟩
  | some sessionId =>
    have hvalid : validSessionId sessionId = true := by simpa using h
    obtain ⟨hlength, hle⟩ := length_quoted_of_graphic hvalid
    simp only [Option.elim_some, hlength]
    omega

/-- The text of a record that passes its check. -/
theorem length_recordBytes {record : RoomOrchestrationRecord} (h : validateRecord record = .ok ()) :
    (recordBytes record).length = recordSize record + recordEscapes record ∧
      recordSize record ≤ 1864 := by
  unfold validateRecord at h
  split at h
  · cases h
  rename_i hchecked
  simp only [Bool.or_eq_true, not_or, Bool.not_eq_true, Bool.not_eq_false', decide_eq_true_eq,
    Nat.not_lt] at hchecked
  obtain ⟨⟨⟨⟨⟨⟨⟨hoperation, hroom⟩, hsource⟩, hconductor⟩, hsession⟩, hfinal⟩, hupdated⟩,
    hworkers⟩ :=
    hchecked
  split at h
  · cases h
  rename_i ids hids
  split at h
  · cases h
  rename_i hsame
  simp only [Bool.or_eq_true, bne_iff_ne, ne_eq, not_or, not_not] at hsame
  rw [ConductorOperationIds.derive] at hids
  split at hids
  · cases hids
  obtain rfl := Except.ok.inj hids
  -- Both identifiers of the operation are derived, so their lengths are known.
  have hkinds : "conductor-operation-v1".utf8ByteSize = 22 ∧
      "conductor-final-v1".utf8ByteSize = 18 := by decide
  have hsizes : record.operationId.utf8ByteSize = 55 ∧ record.finalMessageId.utf8ByteSize = 51 := by
    rw [hsame.1, hsame.2, utf8ByteSize_stableIdentifier, utf8ByteSize_stableIdentifier]
    omega
  have hstage : (quoted (stageText record.stage)).length =
      (stageText record.stage).utf8ByteSize + 2 ∧ (stageText record.stage).utf8ByteSize ≤ 12 := by
    cases record.stage <;> decide
  have hnames : (quoted "operationId").length = 13 ∧ (quoted "roomId").length = 8 ∧
      (quoted "sourceMessageId").length = 17 ∧ (quoted "conductorId").length = 13 ∧
      (quoted "conductorSessionId").length = 20 ∧ (quoted "finalMessageId").length = 16 ∧
      (quoted "stage").length = 7 ∧ (quoted "delegations").length = 13 ∧
      (quoted "updatedAt").length = 11 := by decide
  obtain ⟨h1, h2, h3, h4, h5, h6, h7, h8, h9⟩ := hnames
  obtain ⟨hoperation, -⟩ := length_quoted_identifier hoperation
  obtain ⟨hroom, hroom'⟩ := length_quoted_identifier hroom
  obtain ⟨hsource, hsource'⟩ := length_quoted_identifier hsource
  obtain ⟨hconductor, hconductor'⟩ := length_quoted_identifier hconductor
  obtain ⟨hsession, hsession'⟩ := length_sessionBytes hsession
  obtain ⟨hfinal, -⟩ := length_quoted_identifier hfinal
  obtain ⟨hlinks, hlinks'⟩ := length_linksBytes h
  obtain ⟨hupdated, hupdated'⟩ := length_quoted_of_graphic hupdated
  have hmaximum : maximumWorkers = 3 := rfl
  rw [recordBytes, length_object, recordSize, recordEscapes]
  simp only [List.map_cons, List.map_nil, List.sum_cons, List.sum_nil, List.length_cons,
    List.length_nil, h1, h2, h3, h4, h5, h6, h7, h8, h9, hoperation, hroom, hsource, hconductor,
    hsession, hfinal, hstage.1, hlinks, hupdated]
  omega

/-- The text of a file whose records pass their check. -/
theorem length_fileBytes {records : Records} (hsize : records.size ≤ maximumRecords)
    (hvalid : AllEntries (fun _ record => validateRecord record = .ok ()) records) :
    (fileBytes (toPersisted records)).length =
        fileSize (toPersisted records) + fileEscapes (toPersisted records) ∧
      fileSize (toPersisted records) ≤ 954909 := by
  -- Of a record, only the escapes can go past the 1,864 bytes.
  have hrecord : ∀ record ∈ (toPersisted records).records,
      (recordBytes record).length = recordSize record + recordEscapes record ∧
        recordSize record ≤ 1864 := by
    intro record hmem
    obtain ⟨⟨id, _⟩, hentry, rfl⟩ := List.mem_map.mp hmem
    exact length_recordBytes (hvalid id _ (ExtTreeMap.mem_toList_iff_getElem?_eq_some.mp hentry))
  have hcount : (toPersisted records).records.length = records.size := by simp [toPersisted]
  have hversion : (asBytes (toString (toPersisted records).fileVersion.toNat)).length = 1 := by
    change (asBytes (toString fileVersion.toNat)).length = 1
    decide
  have hnames : (quoted "fileVersion").length = 13 ∧ (quoted "records").length = 9 := by
    decide
  obtain ⟨h1, h2⟩ := hnames
  generalize toPersisted records = file at hrecord hcount hversion ⊢
  -- The sizes of the records add up, and so do their escapes.
  have hsum : ((file.records.map recordBytes).map List.length).sum =
      (file.records.map recordSize).sum + fileEscapes file := by
    rw [fileEscapes, ← List.sum_map_add, List.map_map]
    exact congrArg _ (List.map_congr_left fun record hmem => (hrecord record hmem).1)
  have hmax : (file.records.map recordSize).sum ≤ file.records.length * 1864 := by
    rw [← List.length_map (f := recordSize), ← smul_eq_mul]
    refine List.sum_le_card_nsmul _ _ fun size hsize => ?_
    obtain ⟨record, hmem, rfl⟩ := List.mem_map.mp hsize
    exact (hrecord record hmem).2
  have hlimit : maximumRecords = 512 := rfl
  rw [fileSize]
  refine ⟨?_, by omega⟩
  rw [fileBytes, length_object]
  simp only [List.map_cons, List.map_nil, List.sum_cons, List.sum_nil, List.length_cons,
    List.length_nil, h1, h2, hversion, length_array, hsum, List.length_map]
  omega

end RoomOrchestrationLedger

end Mio.Desktop
