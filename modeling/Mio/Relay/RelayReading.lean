import Mio.Relay.RelayServing

/-!
# Reading a room over a relay

What a reader on the other side of a relay gets of a room when it goes from page to page, with the
cursor of the last page that it got. It may ask on any connection, behind any other requests, and
with any limit. Where it gets no page it asks again.

A response that is longer than a frame is not written. So a message whose text is as long as a frame
is on no page that is sent, and the reader stays before it for good: the pages that it gets are the
messages from its cursor on, and none of them is that message or one behind it (`reading_stuck`).
The Room store takes such messages: it limits the length of a body, and not that of its text with
the escapes (`Sample.draft`).
-/

namespace Mio.Library.Value

/-- A number of 8 bits is read back. -/
theorem asU8_toString (n : UInt8) : (Value.number (toString n.toNat)).asU8 = some n := by
  have hsmall : n.toNat < 2 ^ 8 := n.toNat_lt
  have hread := asU16_toString (n := n.toNat) (by omega)
  obtain ⟨hread, -⟩ := Option.filter_eq_some_iff.mp hread
  rw [asU8, hread, Option.filter_some, if_pos (decide_eq_true hsmall), Option.map_some,
    UInt8.ofNat_toNat]

end Mio.Library.Value

namespace Mio.Relay.RelayProduct

open Library Mio.Core RelayTransport RelayProtocol

/-! ## Requests for a page -/

/-- The parameters of a read, as a client sends them. -/
def readRoomParameters (roomId : String) (afterMessageId : Option String) (limit : UInt8) : Value :=
  .object [
    ("roomId", .string roomId),
    ("afterMessageId", afterMessageId.elim .null .string),
    ("limit", .number (toString limit.toNat))]

/-- The frame that asks for a page. -/
def readRoomFrame (requestId roomId : String) (afterMessageId : Option String)
    (limit : UInt8) : Value :=
  .object [
    ("type", .string "request"),
    ("requestId", .string requestId),
    ("method", .string relayReadRoomMethod),
    ("params", readRoomParameters roomId afterMessageId limit)]

/-- Sent parameters are read back when they are valid. -/
theorem parse_readRoomParameters (roomId : String) (afterMessageId : Option String)
    (limit : UInt8) :
    RelayReadRoomParams.parse (readRoomParameters roomId afterMessageId limit) =
      if h : validReadRoomParams roomId afterMessageId limit = true then
        .ok ⟨roomId, afterMessageId, limit, h⟩
      else .error .invalidReadRoomParams := by
  have hfields : (readRoomParameters roomId afterMessageId limit).optionalFields
      ["roomId", "afterMessageId", "limit"] =
      some [some (.string roomId), some (afterMessageId.elim .null .string),
        some (.number (toString limit.toNat))] := by
    rfl
  have hcursor : optionalText (some (afterMessageId.elim .null .string)) = some afterMessageId := by
    cases afterMessageId <;> rfl
  rw [RelayReadRoomParams.parse, hfields]
  dsimp only
  rw [hcursor, u8Or, Value.asU8_toString]
  rfl

/-- A sent request is read back when its id is valid. -/
theorem parse_readRoomFrame (requestId roomId : String) (afterMessageId : Option String)
    (limit : UInt8) :
    RelayRequestFrame.parse (readRoomFrame requestId roomId afterMessageId limit) =
      if h : validRelayIdentifier requestId = true then
        .ok ⟨requestId, relayReadRoomMethod, readRoomParameters roomId afterMessageId limit, h⟩
      else .error .invalidRequestId := by
  rfl

/-- A request for a page is routed to the query for it. -/
theorem route_readRoomFrame {requestId roomId : String} {afterMessageId : Option String}
    {limit : UInt8}
    {request : RelayRequestFrame}
    (h : RelayRequestFrame.parse (readRoomFrame requestId roomId afterMessageId limit) =
      .ok request)
    (rooms : RoomSnapshot) :
    request.requestId = requestId ∧ routeRequest request rooms =
      match RoomReadQuery.tryNew roomId afterMessageId limit with
      | .error _ => .error invalidParameters
      | .ok query => .ok (readRoom rooms query) := by
  rw [parse_readRoomFrame] at h
  split_ifs at h with hid
  obtain rfl := Except.ok.inj h
  refine ⟨rfl, ?_⟩
  have hparams : RelayRequestFrame.readRoomParams
      ⟨requestId, relayReadRoomMethod, readRoomParameters roomId afterMessageId limit, hid⟩ = _ :=
    parse_readRoomParameters roomId afterMessageId limit
  rw [routeRequest, if_neg (by simp), hparams]
  have hquery : validReadQuery roomId afterMessageId limit =
    validReadRoomParams roomId afterMessageId limit := by
    rw [validReadQuery, validReadRoomParams, validIdentifier_eq, Bool.not_or, Bool.not_or,
      Bool.not_not, Bool.not_not]
  by_cases hvalid : validReadRoomParams roomId afterMessageId limit = true
  · rewrite [dif_pos hvalid]
    rfl
  · rw [dif_neg hvalid, RoomReadQuery.tryNew, dif_neg (hquery ▸ hvalid)]

/-! ## Readers -/

/-- One request of a reader, and what it meets. -/
structure Fetch where
  /-- What happens to the rooms before. -/
  operations : List RoomOperation
  /-- The requests that came before it on its connection. -/
  earlier : List String
  requestId : String
  limit : UInt8
  round : Round

/-- The page that the reader gets. There is none where the connection ends, where the write fails,
or where the response is an error. -/
def fetchPage (roomId : String) (cursor : Option String) (fetch : Fetch) (rooms : RoomSnapshot) :
    Option RoomReadSuccess :=
  let round := { fetch.round with rooms }
  match handled round fetch.earlier (readRoomFrame fetch.requestId roomId cursor fetch.limit) with
  | .ok (.success requestId (.success result)) =>
    if (writeFrame round (.success requestId (.success result))).2.isNone then some result else none
  | _ => none

/-- The pages that a reader gets in turn, each with the cursor of the last one. -/
def reading (roomId : String) : List Fetch → Option String → RoomSnapshot → List RoomReadSuccess
  | [], _, _ => []
  | fetch :: fetches, cursor, rooms =>
    let rooms := RoomOperation.run fetch.operations rooms
    match fetchPage roomId cursor fetch rooms with
    | none => reading roomId fetches cursor rooms
    | some result => result :: reading roomId fetches result.page.nextAfterMessageId rooms

/-- Everything that happens to the rooms. -/
def fetchOperations (fetches : List Fetch) : List RoomOperation := fetches.flatMap (·.operations)

/-- An answer with a result is that of the read. -/
theorem answer_eq_success {earlier : List String} {rooms : RoomSnapshot}
    {request : RelayRequestFrame}
    {requestId : String} {result : RoomReadResult}
    (h : answer earlier rooms request = .success requestId result) :
    routeRequest request rooms = .ok result := by
  unfold answer at h
  split at h
  · cases h
  split at h
  · cases h
  · rename_i result' hroute
    obtain ⟨-, rfl⟩ := RelayResponseFrame.success.inj h
    exact hroute

/-- A page that the reader gets is the one of its query, and its messages fit into a frame. -/
theorem fetchPage_eq_some {roomId : String} {cursor : Option String}
    {fetch : Fetch} {rooms : RoomSnapshot}
    {result : RoomReadSuccess} (h : fetchPage roomId cursor fetch rooms = some result) :
    readPage roomId cursor fetch.limit rooms = some result ∧
      (result.room.messages.map fun message => (messageText message).length).sum <
        maximumStreamFrameBytes := by
  unfold fetchPage at h
  dsimp only at h
  split at h
  · rename_i requestId page hhandled
    split at h
    · rename_i hwritten
      obtain rfl := Option.some.inj h
      obtain ⟨request, hparse, hanswer, -⟩ := handled_eq_ok hhandled
      have hroute := answer_eq_success hanswer.symm
      rw [(route_readRoomFrame hparse rooms).2] at hroute
      refine ⟨?_, ?_⟩
      · rw [readPage]
        rcases hquery : RoomReadQuery.tryNew roomId cursor fetch.limit with e | query
        · rw [hquery] at hroute
          cases hroute
        · rw [hquery] at hroute
          dsimp only at hroute ⊢
          rw [Except.ok.inj hroute]
      · have hwrite : writeFrame { fetch.round with rooms } (.success requestId (.success page)) =
            (_, none) := Prod.ext rfl (Option.isNone_iff_eq_none.mp hwritten)
        exact (messages_le_response requestId page).trans_lt (writeFrame_length hwrite)
    · cases h
  · cases h

/-- A page that is read has a valid limit. -/
theorem validLimit_of_readPage {roomId : String} {cursor : Option String} {limit : UInt8}
    {rooms : RoomSnapshot} {result : RoomReadSuccess}
    (h : readPage roomId cursor limit rooms = some result) :
    validLimit limit = true := by
  unfold readPage RoomReadQuery.tryNew at h
  by_cases hvalid : validReadQuery roomId cursor limit = true
  · rw [validReadQuery, Bool.and_eq_true] at hvalid
    exact hvalid.2
  · rw [dif_neg hvalid] at h
    cases h

/-! ## A message that is too long -/

/-- A part of a list that ends before an index, if an element with that index is not in it. -/
theorem take_drop_before {α : Type} {l : List α} {position limit p : ℕ}
    {a : α} (ha : l[p]? = some a)
    (hbefore : position ≤ p) (hnot : a ∉ (l.drop position).take limit) : position + limit ≤ p := by
  by_contra hlong
  refine hnot (List.mem_of_getElem? (i := p - position) ?_)
  rw [List.getElem?_take_of_lt (by omega), List.getElem?_drop, Nat.add_sub_cancel' hbefore, ha]

/-- A part of a list that ends before an index, and what follows it up to there. -/
theorem take_append_before {α : Type} (l : List α) {position limit p : ℕ}
    (h : position + limit ≤ p) :
    (l.take p).drop position = (l.drop position).take limit ++
    (l.take p).drop (position + limit) := by
  have hpart : ((l.take p).drop position).take limit = (l.drop position).take limit := by
    rw [List.drop_take, List.take_take, Nat.min_eq_left (by omega)]
  rw [← hpart, ← List.drop_drop, List.take_append_drop]

/-- A message whose text is as long as a frame is on no page that the reader gets. -/
theorem not_mem_of_large {page : RoomReadSuccess} {message : RoomMessage}
    (hfits : (page.room.messages.map fun message => (messageText message).length).sum <
      maximumStreamFrameBytes)
    (hlarge : maximumStreamFrameBytes ≤ (messageText message).length) :
    message ∉ page.room.messages := by
  intro hmem
  have hone : (messageText message).length ≤
      (page.room.messages.map fun message => (messageText message).length).sum :=
    List.single_le_sum (fun _ _ => Nat.zero_le _) _ (List.mem_map.mpr ⟨message, hmem, rfl⟩)
  omega

/-- A reader stays before a message whose text is as long as a frame, whatever it asks for and
whatever happens to the rooms meanwhile. What it gets are messages between its cursor and that
message. -/
theorem reading_stuck {snapshot : RoomSnapshot} (hs : validateSnapshot snapshot = .ok ())
    {room : Room}
    (hroom : room ∈ snapshot.rooms) {p : ℕ} {message : RoomMessage}
    (hmessage : room.messages[p]? = some message)
    (hlarge : maximumStreamFrameBytes ≤ (messageText message).length)
    {cursor : String} {position : ℕ}
    (hat : CursorAt RoomMessage.id room.messages cursor position) (hbefore : position ≤ p)
    (fetches : List Fetch)
    (hkept : RoomOperation.keeps room.id (fetchOperations fetches) snapshot) :
    pageMessages (reading room.id fetches (some cursor) snapshot) <+:
      (room.messages.take p).drop position := by
  induction fetches generalizing snapshot room cursor position with
  | nil => exact List.nil_prefix
  | cons fetch fetches ih =>
    have hoperations : fetchOperations (fetch :: fetches) =
        fetch.operations ++ fetchOperations fetches := List.flatMap_cons
    rw [hoperations] at hkept
    obtain ⟨hfirst, hrest⟩ := RoomOperation.keeps_append.mp hkept
    have hvalid := validateSnapshot_eq_ok.mp hs
    obtain ⟨now, hnow, hid, hgrown⟩ := RoomOperation.run_grows hroom fetch.operations hfirst
    have hvalid' := RoomOperation.run_valid hvalid fetch.operations
    have hs' := validateSnapshot_eq_ok.mpr hvalid'
    -- The message keeps its place, and so does what comes before it.
    have hp : p < room.messages.length := (List.getElem?_eq_some_iff.mp hmessage).1
    have hmessage' : now.messages[p]? = some message := by
      obtain ⟨later, hlater⟩ := hgrown
      rw [← hlater, List.getElem?_append_left hp, hmessage]
    have htake : now.messages.take p = room.messages.take p := by
      obtain ⟨later, hlater⟩ := hgrown
      rw [← hlater, List.take_append_of_le_length hp.le]
    rw [← hid] at hrest ⊢
    rw [← htake, reading]
    rcases hfetch :
      fetchPage now.id (some cursor) fetch (RoomOperation.run fetch.operations snapshot) with
      _ | result
    · exact ih hs' hnow hmessage' (hat.mono hgrown) hbefore hrest
    obtain ⟨hread, hfits⟩ := fetchPage_eq_some hfetch
    obtain ⟨page, hpage, hafter, hlaws⟩ :=
      readPage_eq_some hvalid' hnow (validLimit_of_readPage hread)
      (.cursor (hat.mono hgrown))
    obtain rfl := Option.some.inj (hread.symm.trans hpage)
    have hlimit : position + fetch.limit.toNat ≤ p := by
      refine take_drop_before hmessage' hbefore ?_
      rw [← hlaws.taken]
      exact not_mem_of_large hfits hlarge
    have hlength : result.room.messages.length = fetch.limit.toNat := by
      have hp' : p < now.messages.length := (List.getElem?_eq_some_iff.mp hmessage').1
      rw [hlaws.taken, List.length_take, List.length_drop]
      omega
    obtain ⟨next, hnext, hat'⟩ : ∃ next, result.page.nextAfterMessageId = some next ∧
        CursorAt RoomMessage.id now.messages next (position + result.room.messages.length) := by
      rcases hlaws.next with ⟨hsame, hnil⟩ | hnext
      · rw [hsame, hafter, hnil]
        exact ⟨cursor, rfl, hat.mono hgrown⟩
      · exact hnext
    have hlater := ih hs' hnow hmessage' hat' (by omega) hrest
    rw [hlength] at hlater
    dsimp only
    rw [hnext, pageMessages_cons, hlaws.taken, take_append_before now.messages hlimit]
    exact (List.prefix_append_right_inj _).mpr hlater

namespace ReadingSample

/-- A text of control characters, which takes six times its length in JSON. -/
def controls (n : ℕ) : String := .ofList (List.replicate n '\x01')

/-- A message of control characters. -/
def message (n : ℕ) : RoomMessage :=
  ⟨"m2", "room", "owner", ["owner"], controls n, "2026-08-12", [], none⟩

/-- A room with a short message and that one. -/
def room (n : ℕ) : Room where
  id := "room"
  name := "Room"
  participantIds := ["owner"]
  messages := [⟨"m1", "room", "owner", ["owner"], "Hello", "2026-08-12", [], none⟩, message n]

/-- The rooms with that one. -/
def rooms (n : ℕ) : RoomSnapshot where
  schemaVersion := protocolVersion
  generatedAt := "2026-08-12"
  participants := [⟨"owner", "Owner", .human⟩]
  rooms := [room n]

/-- The bytes of the control characters. -/
theorem asBytes_controls (n : ℕ) : asBytes (controls n) = List.replicate n 0x01 := by
  have hchar : String.utf8EncodeChar '\x01' = [0x01] := by decide
  rw [controls, asBytes_eq_flatMap, String.toList_ofList]
  induction n with
  | zero => rfl
  | succ n ih => rw [List.replicate_succ, List.flatMap_cons, ih, hchar, List.replicate_succ]; rfl

/-- Each control character takes one byte. -/
theorem utf8ByteSize_controls (n : ℕ) : (controls n).utf8ByteSize = n := by
  rw [← length_asBytes, asBytes_controls, List.length_replicate]

variable {n : ℕ} (hn : 0 < n)

include hn

/-- The control characters are a valid text within the limit. -/
theorem validText_controls {maximum : ℕ} (h : n ≤ maximum) : validText
    (controls n) maximum = true := by
  have hne : (controls n).isEmpty = false := by
    rw [Bool.eq_false_iff, ne_eq, String.isEmpty_iff]
    intro hempty
    have hsize := utf8ByteSize_controls n
    rw [hempty] at hsize
    simp at hsize
    omega
  rw [validText, hne, utf8ByteSize_controls]
  simpa using h

/-- The Room store takes such a message. -/
theorem draft_valid (h : n ≤ maximumRoomWriteBodyBytes) : validDraftMessage (message n) = true := by
  have hblank : isBlank (controls n) = false := by
    rw [Bool.eq_false_iff, ne_eq, isBlank_iff]
    intro hall
    have hspace := hall '\x01' (by simp [controls, hn.ne'])
    exact absurd hspace (by decide)
  have hids : validIdentifier "m2" = true ∧ validIdentifier "room" = true ∧
    validIdentifier "owner" = true ∧
      uniqueValidIdentifiers ["owner"] = true ∧ uniqueValidIdentifiers [] = true ∧
        validText "2026-08-12" 64 = true := by decide
  simp [validDraftMessage, validMessageShape, message, hids, hblank, validText_controls hn h,
    maximumMessageLinks]

/-- These rooms are valid. -/
theorem rooms_valid (h : n ≤ maximumMessageBodyBytes) : validateSnapshot (rooms n) = .ok () := by
  have hids : validIdentifier "m1" = true ∧ validIdentifier "m2" = true ∧
    validIdentifier "room" = true ∧
      validIdentifier "owner" = true ∧ uniqueValidIdentifiers ["owner"] = true ∧
        uniqueValidIdentifiers [] = true := by decide
  have htexts : validText "2026-08-12" 64 = true ∧ validText "Room" maximumDisplayNameBytes = true ∧
      validText "Owner" maximumDisplayNameBytes = true ∧
        validText "Hello" maximumMessageBodyBytes = true := by decide
  simp [validateSnapshot, validateRooms, insertDistinct, validParticipant, validRoomMessage,
    validMessageShape, rooms, room, message, hids, htexts, validText_controls hn h,
      maximumMessageLinks,
    maximumParticipants, maximumRooms, maximumRoomParticipants, maximumRoomMessages]

omit hn in
/-- Each control character is written with six bytes. -/
theorem length_message (n : ℕ) : 6 * n ≤ (messageText (message n)).length := by
  have hescape : JsonBytes.escapeByte 0x01 = [0x5c, 0x75, 0x30, 0x30, 0x30, 0x31] := by decide
  have hbody : (JsonBytes.quoted (controls n)).length = 6 * n + 2 := by
    rw [JsonBytes.quoted, asBytes_controls, List.length_append,
      List.length_cons, List.length_flatMap,
      List.map_replicate, List.sum_replicate, hescape]
    simp
    omega
  have hle : (JsonBytes.quoted (controls n)).length ≤ _ := body_le_messageText (message n)
  omega

/-- A round in which nothing fails. -/
def calm : Round where
  shutdownAtRead := false
  cancelledAtRead := false
  rooms := rooms 0
  cancelledAtWrite := false
  failsAfter := none
  shutdownAtWrite := false

end ReadingSample

open ReadingSample in
/-- A read that cannot get past the long message. -/
theorem reading_stuck_sample :
    pageMessages (reading "room" [⟨[], [], "request-1", 1, calm⟩,
      ⟨[], [], "request-2", 30, calm⟩] (some "m1")
      (rooms 1400)) <+: ((room 1400).messages.take 1).drop 1 :=
  reading_stuck (rooms_valid (by decide) (by decide)) List.mem_cons_self rfl
    ((show maximumStreamFrameBytes ≤ 6 * 1400 by decide).trans (length_message 1400))
    ⟨0, _, rfl, rfl, rfl⟩ le_rfl _ trivial

end Mio.Relay.RelayProduct
