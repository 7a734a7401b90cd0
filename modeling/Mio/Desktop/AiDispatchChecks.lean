import Mio.Desktop.AiDispatch
import Mio.Desktop.LedgerCapacity

/-!
# What the stores accept of a dispatch

The ledger and the continuity store check what a dispatch gives them: identifiers of the message and
its room, and the key of the environment. These are compared here with what a room can store and
with the keys that the dispatch makes.
-/

namespace Mio.Desktop.AiDispatch

open Library Std Mio.Core Mio.Core.Conductor RoomAiContinuity Time

/-! ## Plain texts -/

/-- A letter, a digit, a hyphen, or an underscore. -/
def isPlain (byte : UInt8) : Bool := isAsciiAlphanumeric byte || byte == 0x2d || byte == 0x5f

/-- A text of such bytes. -/
def PlainText (value : String) : Prop := ∀ byte ∈ asBytes value, isPlain byte = true

instance (value : String) : Decidable (PlainText value) :=
  inferInstanceAs (Decidable (∀ byte ∈ asBytes value, isPlain byte = true))

/-- Two texts together are plain exactly where each of them is. -/
theorem plainText_append {s t : String} : PlainText (s ++ t) ↔ PlainText s ∧ PlainText t := by
  simp only [PlainText, asBytes_append, List.mem_append]
  constructor
  · intro h
    exact ⟨fun byte hbyte => h byte (.inl hbyte), fun byte hbyte => h byte (.inr hbyte)⟩
  · rintro ⟨hs, ht⟩ byte (hbyte | hbyte)
    · exact hs byte hbyte
    · exact ht byte hbyte

/-- The texts that the identifiers and the keys are put together from. -/
theorem plainText_parts :
    PlainText "reply-" ∧ PlainText "-" ∧ PlainText codexWorkspaceEnvironmentPrefix ∧
      PlainText grokWorkspaceEnvironmentPrefix := by
  decide +kernel

/-- A dash is plain. -/
theorem plainText_dash : PlainText "-" := plainText_parts.2.1

/-- The grammar of the two stores. -/
theorem boundedBytes_plain_iff {maximum : ℕ} {value : String} :
    boundedBytes maximum (fun _ byte => isPlain byte) value = true ↔
      value ≠ "" ∧ value.utf8ByteSize ≤ maximum ∧ PlainText value := by
  rw [boundedBytes_iff]
  refine and_congr_right fun _ => and_congr_right fun _ => ?_
  constructor
  · intro h byte hbyte
    obtain ⟨index, hindex⟩ := List.mem_iff_getElem?.mp hbyte
    exact h byte index hindex
  · intro h byte index hindex
    exact h byte (List.mem_of_getElem? hindex)

/-- A hash has sixteen plain digits. -/
theorem lowerHex16_digits (n : UInt64) :
    (lowerHex16 n).utf8ByteSize = 16 ∧ PlainText (lowerHex16 n) := by
  have hdigit : ∀ d < 16, (String.utf8EncodeChar d.digitChar).length = 1 ∧
      ∀ byte ∈ String.utf8EncodeChar d.digitChar, isPlain byte = true := by
    decide +kernel
  have hbytes : ∀ digits : List ℕ, (∀ d ∈ digits, d < 16) →
      ((digits.map Nat.digitChar).flatMap String.utf8EncodeChar).length = digits.length ∧
        ∀ byte ∈ (digits.map Nat.digitChar).flatMap String.utf8EncodeChar, isPlain byte = true := by
    intro digits
    induction digits with
    | nil => simp
    | cons d digits ih =>
      intro h
      obtain ⟨hlength, hplain⟩ := hdigit d (h d List.mem_cons_self)
      obtain ⟨hlengths, hplains⟩ := ih fun other hother => h other (List.mem_cons_of_mem _ hother)
      rw [List.map_cons, List.flatMap_cons, List.length_append, hlength, hlengths]
      refine ⟨by rw [List.length_cons]; omega, fun byte hbyte => ?_⟩
      rcases List.mem_append.mp hbyte with hbyte | hbyte
      · exact hplain byte hbyte
      · exact hplains byte hbyte
  obtain ⟨hlength, hplain⟩ := hbytes
    ((List.range 16).map fun i => n.toNat / 16 ^ (15 - i) % 16) fun d hd => by
      obtain ⟨i, -, rfl⟩ := List.mem_map.mp hd
      exact Nat.mod_lt _ (by decide)
  rw [List.map_map] at hlength hplain
  unfold PlainText
  rw [← length_asBytes, asBytes_eq_flatMap, lowerHex16, String.toList_ofList]
  exact ⟨hlength.trans (by simp), hplain⟩

/-! ## What a store does with what it accepts -/

/-- The ledger reserves the record wherever the dispatch is new and there is room, if it can write
its file. -/
def Begins (record : AiDispatchLedger.AiDispatchRecord) : Prop :=
  ∀ serde faults (ledger : AiDispatchLedger.DesktopAiDispatchLedger),
    AiDispatchLedger.Sound ledger.data → ledger.data.records[record.dispatchId]? = none →
    HasRoom AiDispatchLedger.maximumDispatchRecords AiDispatchLedger.isTerminal
      ledger.data.records →
    ∃ kept, KeptFor AiDispatchLedger.maximumDispatchRecords AiDispatchLedger.isTerminal
        ledger.data.records kept ∧
      (AiDispatchLedger.begin serde faults record ledger).1 =
        (((AiDispatchLedger.dispatchLedgerPersistence serde).persist
          (kept.insert record.dispatchId { record with state := .prepared })).run faults
            ledger.world).1.map fun _ => .reserved

/-- The continuity store takes the continuation over, if it can write its file. -/
def Commits (roomId participantId : String) (continuation : RoomAiContinuation) : Prop :=
  ∀ serde faults bindings world,
    RoomAiContinuity.commit serde faults roomId participantId continuation bindings world =
      replaceBindings serde faults (bindings.insert (roomId, participantId) continuation) bindings
        world

/-- The world of an empty directory has nothing that a persist stumbles over. -/
theorem clean_empty (pid : ℕ) : JsonStore.Clean (World.empty pid) :=
  ⟨⟨.inl rfl, .inl rfl⟩, fun _ _ => rfl⟩

/-- The ledger begins with exactly the records that pass its check. -/
theorem begins_iff {record : AiDispatchLedger.AiDispatchRecord} :
    Begins record ↔ AiDispatchLedger.validateRecord record = .ok () := by
  constructor
  · intro h
    by_contra hinvalid
    -- A serialization that always succeeds, and an empty ledger beside no files.
    let serde : Serde AiDispatchLedger.PersistedDispatchLedger := ⟨fun _ => some [1], fun _ => none⟩
    let ledger : AiDispatchLedger.DesktopAiDispatchLedger :=
      { data := { records := ∅, active := [] }, world := .empty 0 }
    have hsound : AiDispatchLedger.Sound ledger.data :=
      (AiDispatchLedger.sound_first (World.empty 0))
    obtain ⟨kept, -, hbegin⟩ := h serde [] ledger hsound ExtTreeMap.getElem?_empty
      (.inl (by decide))
    obtain ⟨world, hrun, -⟩ : ∃ world, ((AiDispatchLedger.dispatchLedgerPersistence serde).persist
        (kept.insert record.dispatchId { record with state := .prepared })).run [] ledger.world =
          (.done (), world) ∧ JsonStore.Clean world :=
      JsonStore.persist_run (clean_empty 0) rfl (by decide)
    rw [hrun] at hbegin
    unfold AiDispatchLedger.begin at hbegin
    split at hbegin
    · cases hbegin
    · contradiction
  · intro hvalid serde faults ledger hsound hfresh hroom
    obtain ⟨kept, hkept, hbegin, -⟩ :=
      (@LedgerCapacity.dispatch_capacity serde ledger hsound).room faults record hvalid hfresh hroom
    exact ⟨kept, hkept, hbegin⟩

/-- A binding is committed exactly where it passes its check. -/
theorem commits_iff {roomId participantId : String} {continuation : RoomAiContinuation} :
    Commits roomId participantId continuation ↔
      validBinding roomId participantId continuation = true := by
  constructor
  · intro h
    by_contra hinvalid
    let serde : Serde PersistedContinuityFile := ⟨fun _ => some [1], fun _ => none⟩
    obtain ⟨world, hrun, -⟩ : ∃ world, ((continuityPersistence serde).persist
        ((∅ : Bindings).insert (roomId, participantId) continuation)).run [] (.empty 0) =
          (.done (), world) ∧ JsonStore.Clean world :=
      JsonStore.persist_run (clean_empty 0) rfl (by decide)
    have hcommit := h serde [] ∅ (.empty 0)
    unfold RoomAiContinuity.commit replaceBindings at hcommit
    rw [hrun, if_pos (by simpa using hinvalid)] at hcommit
    cases hcommit
  · intro hvalid serde faults bindings world
    unfold RoomAiContinuity.commit
    rw [if_neg (by simp [hvalid])]

/-! ## Identifiers -/

/-- The participants that a message can be dispatched to. -/
def aiParticipantIds : List String :=
  [codexParticipantId, claudeCodeParticipantId, grokParticipantId, geminiSearchParticipantId]

/-- Both stores take the message when it is dispatched to an AI participant. -/
structure Dispatchable (message : RoomMessage) : Prop where
  /-- The dispatch can begin. -/
  begins : ∀ recipientId ∈ aiParticipantIds, ∀ clock updatedAt,
    currentRfc3339Timestamp clock = some updatedAt →
      Begins (dispatchRecord message recipientId updatedAt)
  /-- The continuation can be saved, when the store accepts the session and the environment. -/
  continues : ∀ recipientId ∈ aiParticipantIds, ∀ sessionId environmentKey,
    validSessionId sessionId = true → validEnvironmentKey environmentKey = true →
      Commits message.roomId recipientId
        { sessionId, lastSyncedMessageId := message.id, environmentKey }

/-- A dot. -/
def dot : UInt8 := 0x2e

/-- An identifier of the Room store is one of the two other stores as well, if it has no dot. -/
theorem validIdentifier_plain_iff {id : String} (h : Core.validIdentifier id = true) :
    boundedBytes 128 (fun _ byte => isPlain byte) id = true ↔ dot ∉ asBytes id := by
  unfold Core.validIdentifier at h
  obtain ⟨hne, hsize, hbytes⟩ := boundedBytes_iff.mp h
  rw [boundedBytes_plain_iff]
  constructor
  · intro hplain hdot
    exact absurd (hplain.2.2 dot hdot) (by decide)
  · intro hdot
    refine ⟨hne, hsize, fun byte hbyte => ?_⟩
    obtain ⟨index, hindex⟩ := List.mem_iff_getElem?.mp hbyte
    have hallowed := hbytes byte index hindex
    have hbyteDot : byte ≠ dot := fun heq => hdot (heq ▸ hbyte)
    have hnot : (byte == 0x2e) = false := by simpa [dot] using hbyteDot
    simp only [hnot, Bool.false_or, Bool.or_eq_true, Bool.and_eq_true] at hallowed
    simp only [isPlain, Bool.or_eq_true]
    rcases hallowed with hletter | hmark
    · exact .inl (.inl hletter)
    · rcases hmark.1 with hmark | hmark
      · exact .inr hmark
      · exact .inl (.inr hmark)

/-- The identifiers of the participants are plain and short. -/
theorem aiParticipantIds_plain {recipientId : String} (h : recipientId ∈ aiParticipantIds) :
    recipientId ≠ "" ∧ recipientId.utf8ByteSize ≤ 11 ∧ PlainText recipientId := by
  have hall : ∀ id ∈ aiParticipantIds, id ≠ "" ∧ id.utf8ByteSize ≤ 11 ∧ PlainText id := by
    decide +kernel
  exact hall recipientId h

/-- The identifier of a reply is always plain. -/
theorem replyMessageId_plain {recipientId : String} (h : recipientId ∈ aiParticipantIds)
    (sourceMessageId : String) :
    AiDispatchLedger.validEntityId (replyMessageId sourceMessageId recipientId) = true := by
  obtain ⟨-, hsize, hplain⟩ := aiParticipantIds_plain h
  obtain ⟨hhexSize, hhex⟩ :=
    lowerHex16_digits (fnv (asBytes sourceMessageId ++ 0 :: asBytes recipientId))
  obtain ⟨hreply, hdash, -⟩ := plainText_parts
  have hreplySize : "reply-".utf8ByteSize = 6 := rfl
  have hdashSize : "-".utf8ByteSize = 1 := rfl
  have hid : replyMessageId sourceMessageId recipientId = "reply-" ++ recipientId ++ "-" ++
      lowerHex16 (fnv (asBytes sourceMessageId ++ 0 :: asBytes recipientId)) := rfl
  refine boundedBytes_plain_iff.mpr ⟨?_, ?_, ?_⟩
  · rw [hid, ne_eq, ← String.utf8ByteSize_eq_zero_iff, String.utf8ByteSize_append, hhexSize]
    omega
  · rw [hid]
    simp only [String.utf8ByteSize_append]
    omega
  · rw [hid]
    simp only [plainText_append]
    exact ⟨⟨⟨hreply, hplain⟩, hdash⟩, hhex⟩

/-- The identifier of the dispatch of a message with a plain identifier. -/
theorem dispatchId_valid {recipientId sourceMessageId : String} (h : recipientId ∈ aiParticipantIds)
    (hsource : AiDispatchLedger.validEntityId sourceMessageId = true) :
    AiDispatchLedger.validDispatchId (dispatchId sourceMessageId recipientId) = true := by
  obtain ⟨-, hsize, hplain⟩ := aiParticipantIds_plain h
  obtain ⟨-, hsourceSize, hsourcePlain⟩ := boundedBytes_plain_iff.mp hsource
  -- The id has colons between its parts, and otherwise plain bytes.
  have hroom : ∀ byte ∈ asBytes "room-message:", isPlain byte = true ∨ byte = 0x3a := by
    decide +kernel
  have hcolon : ∀ byte ∈ asBytes ":", byte = 0x3a := by decide +kernel
  have hroomSize : "room-message:".utf8ByteSize = 13 := rfl
  have hcolonSize : ":".utf8ByteSize = 1 := rfl
  have hid : dispatchId sourceMessageId recipientId =
      "room-message:" ++ sourceMessageId ++ ":" ++ recipientId := rfl
  -- The bytes of the parts together are within the limit.
  refine boundedBytes_iff.mpr ⟨?_, ?_, fun byte index hindex => ?_⟩
  · rw [hid, ne_eq, ← String.utf8ByteSize_eq_zero_iff]
    simp only [String.utf8ByteSize_append]
    omega
  · rw [hid]
    simp only [String.utf8ByteSize_append]
    omega
  · have hbyte : isPlain byte = true ∨ byte = 0x3a := by
      have hmem := List.mem_of_getElem? hindex
      rw [hid] at hmem
      simp only [asBytes_append, List.mem_append] at hmem
      rcases hmem with ((hmem | hmem) | hmem) | hmem
      · exact hroom byte hmem
      · exact .inl (hsourcePlain byte hmem)
      · exact .inr (hcolon byte hmem)
      · exact .inl (hplain byte hmem)
    rcases hbyte with hplain | rfl
    · show (isPlain byte || byte == 0x3a) = true
      rw [hplain, Bool.true_or]
    · decide

/-- A dispatch of a message can begin and be continued exactly where the two stores know the
identifiers of the message and of its room. -/
theorem dispatchable_of_identifiers {message : RoomMessage} :
    Dispatchable message ↔ AiDispatchLedger.validEntityId message.id = true ∧
      AiDispatchLedger.validEntityId message.roomId = true := by
  constructor
  · intro h
    -- The record of any one dispatch has both ids, so both must be valid.
    have hmem : codexParticipantId ∈ aiParticipantIds := by decide
    have hrecord := begins_iff.mp
      (h.begins codexParticipantId hmem (some (0, 0)) "1970-01-01T00:00:00.000Z" (by decide))
    unfold AiDispatchLedger.validateRecord at hrecord
    split at hrecord
    · cases hrecord
    · rename_i hchecks
      simp only [dispatchRecord, Bool.or_eq_true, not_or, Bool.not_eq_true', Bool.not_eq_false]
        at hchecks
      obtain ⟨⟨⟨⟨⟨⟨-, hroomId⟩, hid⟩, -⟩, -⟩, -⟩, -⟩ := hchecks
      exact ⟨hid, hroomId⟩
  · rintro ⟨hid, hroomId⟩
    constructor
    · intro recipientId hrecipient clock updatedAt hclock
      obtain ⟨hgraphic, hne⟩ := graphicText_current hclock
      -- The ids of the product's own participants are valid in both grammars.
      have hrecipientId : AiDispatchLedger.validEntityId recipientId = true := by
        obtain ⟨hne, hsize, hplain⟩ := aiParticipantIds_plain hrecipient
        exact boundedBytes_plain_iff.mpr ⟨hne, by omega, hplain⟩
      have htimestamp : AiDispatchLedger.validTimestamp updatedAt = true :=
        (hgraphic.mono (by decide)).boundedBytes hne
      have hsame : (dispatchId message.id recipientId !=
          s!"room-message:{message.id}:{recipientId}") = false := bne_self_eq_false _
      rw [begins_iff, AiDispatchLedger.validateRecord, if_neg]
      simp only [dispatchRecord, dispatchId_valid hrecipient hid, hroomId, hid, hrecipientId,
        replyMessageId_plain hrecipient, htimestamp, hsame]
      decide
    · intro recipientId hrecipient sessionId environmentKey hsession henvironment
      have hrecipientId : RoomAiContinuity.validIdentifier recipientId = true := by
        obtain ⟨hne, hsize, hplain⟩ := aiParticipantIds_plain hrecipient
        exact boundedBytes_plain_iff.mpr ⟨hne, by omega, hplain⟩
      have hroom : RoomAiContinuity.validIdentifier message.roomId = true := hroomId
      have hmessage : RoomAiContinuity.validIdentifier message.id = true := hid
      rw [commits_iff, validBinding, hroom, hrecipientId, hsession, hmessage, henvironment]
      rfl

/-- The stores know an identifier of the Room store, and take a message of it, exactly where there
is no dot. -/
theorem identifiers_agree_iff (id : String) (snapshot : RoomSnapshot) :
    (Core.validIdentifier id = true →
      (AiDispatchLedger.validEntityId id = true ↔ dot ∉ asBytes id) ∧
        (RoomAiContinuity.validIdentifier id = true ↔ dot ∉ asBytes id)) ∧
    (validateSnapshot snapshot = .ok () → ∀ message ∈ snapshot.messages,
      (Dispatchable message ↔ dot ∉ asBytes message.id ∧ dot ∉ asBytes message.roomId)) := by
  have hagree : ∀ id, Core.validIdentifier id = true →
      (AiDispatchLedger.validEntityId id = true ↔ dot ∉ asBytes id) :=
    fun id hid => validIdentifier_plain_iff hid
  refine ⟨fun hid => ⟨hagree id hid, hagree id hid⟩, ?_⟩
  intro hsnapshot message hmessage
  have hvalid := validateSnapshot_eq_ok.mp hsnapshot
  obtain ⟨room, hroom, hmem⟩ := List.mem_flatMap.mp hmessage
  have hshape := ((hvalid.rooms room hroom).messages message hmem).shape
  rw [dispatchable_of_identifiers, hagree _ hshape.id, hagree _ hshape.roomId]

/-- What the three checks say of the sample message. -/
theorem identifiers_agree_sample :
    (Core.validIdentifier "m1" = true ∧ dot ∉ asBytes "m1") ∧
      AiDispatchLedger.validEntityId "m1" = true ∧
      validateSnapshot sampleSnapshot = .ok () ∧
      ∀ message ∈ sampleSnapshot.messages, Dispatchable message := by
  have hid : Core.validIdentifier "m1" = true := by decide
  have hdot : dot ∉ asBytes "m1" := by decide
  have hsnapshot : validateSnapshot sampleSnapshot = .ok () := by decide
  refine ⟨⟨hid, hdot⟩, ((identifiers_agree_iff "m1" sampleSnapshot).1 hid).1.mpr hdot,
    hsnapshot, ?_⟩
  intro message hmessage
  refine ((identifiers_agree_iff "m1" sampleSnapshot).2 hsnapshot message hmessage).mpr ?_
  revert message
  decide

/-- A draft whose identifier has a dot. -/
def dottedDraft : RoomMessageDraft where
  message := ⟨"m.2", "room", "owner", ["codex"], "Hello again", "2026-08-13", [], none⟩
  valid := by decide

/-- A room stores a message whose identifier has a dot. The ledger refuses every record of its
dispatch, and the continuity store refuses it as the last message of a session. -/
theorem dotted_refused :
    let message := dottedDraft.message
    validateSnapshot sampleSnapshot = .ok () ∧ Core.validIdentifier message.id = true ∧
      (appendMessage dottedDraft sampleSnapshot).1 = .ok (.new .appended message) ∧
      (∀ serde faults updatedAt ledger,
        AiDispatchLedger.begin serde faults (dispatchRecord message codexParticipantId updatedAt)
          ledger = (.error .invalid, ledger)) ∧
      (∀ serde faults sessionId environmentKey bindings world,
        RoomAiContinuity.commit serde faults message.roomId codexParticipantId
          { sessionId, lastSyncedMessageId := message.id, environmentKey } bindings world =
            (.error .invalid, bindings, world)) ∧
      ¬Dispatchable message := by
  intro message
  have hledger : AiDispatchLedger.validEntityId message.id = false := by decide
  have hcontinuity : RoomAiContinuity.validIdentifier message.id = false := by decide
  refine ⟨by decide, by decide, by decide, ?_, ?_, fun h => ?_⟩
  · intro serde faults updatedAt ledger
    unfold AiDispatchLedger.begin AiDispatchLedger.validateRecord
    rw [if_pos (by simp [dispatchRecord, hledger])]
  · intro serde faults sessionId environmentKey bindings world
    unfold RoomAiContinuity.commit validBinding
    rw [if_pos (by simp [hcontinuity])]
  · rw [dispatchable_of_identifiers, hledger] at h
    exact absurd h.1 (by decide)

/-! ## Environment keys -/

/-- The continuity store takes every continuation in the environment, if the rest of it is valid. -/
def Continues (environmentKey : String) : Prop :=
  ∀ roomId participantId sessionId lastSyncedMessageId,
    RoomAiContinuity.validIdentifier roomId = true →
    RoomAiContinuity.validIdentifier participantId = true → validSessionId sessionId = true →
    RoomAiContinuity.validIdentifier lastSyncedMessageId = true →
      Commits roomId participantId { sessionId, lastSyncedMessageId, environmentKey }

/-- An environment continues exactly where its key is a plain text of at most 128 bytes. -/
theorem continues_iff {environmentKey : String} :
    Continues environmentKey ↔
      environmentKey ≠ "" ∧ environmentKey.utf8ByteSize ≤ 128 ∧ PlainText environmentKey := by
  have hkey : validEnvironmentKey environmentKey = true ↔
      environmentKey ≠ "" ∧ environmentKey.utf8ByteSize ≤ 128 ∧ PlainText environmentKey :=
    boundedBytes_plain_iff
  rw [← hkey]
  constructor
  · intro h
    have hbinding := commits_iff.mp (h "room" "codex" "s" "m" (by decide) (by decide)
      (by decide) (by decide))
    unfold validBinding at hbinding
    simp only [Bool.and_eq_true] at hbinding
    exact hbinding.2
  · intro h roomId participantId sessionId messageId hroom hparticipant hsession hmessage
    rw [commits_iff, validBinding, hroom, hparticipant, hsession, hmessage, h]
    rfl

/-- A key is storable exactly where its prefix is plain and leaves room for the hash. -/
theorem continues_chatEnvironmentKey {environmentPrefix : String}
    {aiInstructions model : Option String} :
    Continues (chatEnvironmentKey environmentPrefix aiInstructions model) ↔
      environmentPrefix.utf8ByteSize ≤ 111 ∧ PlainText environmentPrefix := by
  rw [continues_iff]
  unfold chatEnvironmentKey
  extract_lets bytes
  obtain ⟨hhexSize, hhex⟩ := lowerHex16_digits (fnv bytes)
  have hdashSize : "-".utf8ByteSize = 1 := rfl
  have hkey : (s!"{environmentPrefix}-{lowerHex16 (fnv bytes)}") =
      environmentPrefix ++ "-" ++ lowerHex16 (fnv bytes) := rfl
  rw [hkey, ne_eq, ← String.utf8ByteSize_eq_zero_iff]
  simp only [String.utf8ByteSize_append, plainText_append]
  constructor
  · rintro ⟨-, hsize, ⟨hplain, -⟩, -⟩
    exact ⟨by omega, hplain⟩
  · rintro ⟨hsize, hplain⟩
    exact ⟨by omega, by omega, ⟨hplain, plainText_dash⟩, hhex⟩

/-- The prefix of a workspace is as plain as the text of its root, and longer by the rest of it. -/
theorem workspaceEnvironmentPrefix_iff {environmentPrefix access root : String}
    (hpre : PlainText environmentPrefix) (haccess : PlainText access) :
    let whole := workspaceEnvironmentPrefix environmentPrefix access root
    whole.utf8ByteSize =
        environmentPrefix.utf8ByteSize + access.utf8ByteSize + root.utf8ByteSize + 2 ∧
      (PlainText whole ↔ PlainText root) := by
  intro whole
  have hdashSize : "-".utf8ByteSize = 1 := rfl
  have hwhole : whole = environmentPrefix ++ "-" ++ access ++ "-" ++ root := rfl
  rw [hwhole]
  simp only [String.utf8ByteSize_append, plainText_append]
  constructor
  · omega
  · constructor
    · exact fun h => h.2
    · exact fun h => ⟨⟨⟨⟨hpre, plainText_dash⟩, haccess⟩, plainText_dash⟩, h⟩

/-- The key of a workspace is storable exactly where the path is plain and leaves room for the rest.
-/
theorem continues_workspaceKey {environmentPrefix access root : String}
    {aiInstructions model : Option String} (hpre : PlainText environmentPrefix)
    (haccess : PlainText access) :
    Continues (chatEnvironmentKey (workspaceEnvironmentPrefix environmentPrefix access root)
        aiInstructions model) ↔
      environmentPrefix.utf8ByteSize + access.utf8ByteSize + root.utf8ByteSize ≤ 109 ∧
        PlainText root := by
  obtain ⟨hsize, hplain⟩ := @workspaceEnvironmentPrefix_iff _ _ root hpre haccess
  rw [continues_chatEnvironmentKey, hplain, hsize]
  refine and_congr_left fun _ => ?_
  omega

/-- The prefixes of the chats. -/
def chatEnvironmentPrefixes : List String :=
  [codexChatEnvironmentPrefix, grokChatEnvironmentPrefix, geminiChatEnvironmentPrefix,
    claudeChatEnvironmentPrefix]

/-- The keys of the chats are always storable. That of a workspace is storable exactly where the
path is plain and short, which no absolute path is. -/
theorem environment_keys (workspaceRoot : Option String) (access : Option TextTurnWorkspaceAccess)
    (aiInstructions model : Option String) :
    (∀ environmentPrefix ∈ chatEnvironmentPrefixes,
      Continues (chatEnvironmentKey environmentPrefix aiInstructions model)) ∧
    (Continues (continuityEnvironmentKey workspaceRoot access aiInstructions model) ↔
      ∀ root, workspaceRoot = some root →
        root.utf8ByteSize + (codexAccess access).utf8ByteSize ≤ 75 ∧ PlainText root) ∧
    (Continues (grokContinuityEnvironmentKey workspaceRoot access aiInstructions model) ↔
      ∀ root, workspaceRoot = some root →
        root.utf8ByteSize + (grokAccess access).utf8ByteSize ≤ 81 ∧ PlainText root) := by
  have hchat : ∀ environmentPrefix ∈ chatEnvironmentPrefixes,
      Continues (chatEnvironmentKey environmentPrefix aiInstructions model) := by
    intro environmentPrefix hpre
    have hall : ∀ known ∈ chatEnvironmentPrefixes,
        known.utf8ByteSize ≤ 111 ∧ PlainText known := by
      decide +kernel
    exact continues_chatEnvironmentKey.mpr (hall environmentPrefix hpre)
  refine ⟨hchat, ?_, ?_⟩
  · cases workspaceRoot with
    | none =>
      have hkey := hchat codexChatEnvironmentPrefix (by decide)
      exact iff_of_true hkey fun root hroot => by cases hroot
    | some root =>
      obtain ⟨-, -, hpre, -⟩ := plainText_parts
      -- The prefix leaves 128 bytes less its own 34 and the separators to the access and the root.
      have hpreSize : codexWorkspaceEnvironmentPrefix.utf8ByteSize = 34 := rfl
      have haccess : PlainText (codexAccess access) := by
        rcases access with _ | _ | _ <;> decide +kernel
      unfold continuityEnvironmentKey
      rw [continues_workspaceKey hpre haccess, hpreSize]
      simp only [Option.some.injEq, forall_eq']
      refine and_congr_left fun _ => ?_
      omega
  · cases workspaceRoot with
    | none =>
      have hkey := hchat grokChatEnvironmentPrefix (by decide)
      exact iff_of_true hkey fun root hroot => by cases hroot
    | some root =>
      obtain ⟨-, -, -, hpre⟩ := plainText_parts
      -- Here the prefix takes 28 bytes.
      have hpreSize : grokWorkspaceEnvironmentPrefix.utf8ByteSize = 28 := rfl
      have haccess : PlainText (grokAccess access) := by
        rcases access with _ | _ | _ <;> decide +kernel
      unfold grokContinuityEnvironmentKey
      rw [continues_workspaceKey hpre haccess, hpreSize]
      simp only [Option.some.injEq, forall_eq']
      refine and_congr_left fun _ => ?_
      omega

/-- The environment of a workspace has no key that the continuity store accepts: the commit of a
turn in it is refused. -/
theorem workspace_key_refused :
    let key := continuityEnvironmentKey (some "/w") (some .readOnly) none none
    ¬Continues key ∧
      ∀ serde faults bindings world,
        RoomAiContinuity.commit serde faults "room" codexParticipantId
          { sessionId := "session", lastSyncedMessageId := "m1", environmentKey := key } bindings
          world = (.error .invalid, bindings, world) := by
  intro key
  have hkey : validEnvironmentKey key = false := by decide +kernel
  refine ⟨fun h => ?_, ?_⟩
  · have hvalid : validEnvironmentKey key = true := boundedBytes_plain_iff.mpr (continues_iff.mp h)
    rw [hkey] at hvalid
    cases hvalid
  · intro serde faults bindings world
    unfold RoomAiContinuity.commit validBinding
    rw [if_pos (by simp [hkey])]

end Mio.Desktop.AiDispatch
