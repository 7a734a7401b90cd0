import Mio.Core.RoomPaging
import Mio.Core.StableIdentifiers
import Mio.Desktop.RoomCommands

/-!
# Messages posted for the owner

The tool `room_post_as_owner` of `crates/moe-mcp/src/lib.rs`, with which a local Codex posts a
message in the owner's name. It reads the room to find its owner, and appends a message that is
marked with where it came from. The two steps are not under one lock, so the snapshot that is read
is given apart from the one that is written.

In a settled snapshot the owner that it finds is the application's (`ownerProxyDraft_posted`), and a
call that is made again finds the message that is there (`roomPostAsOwner_again`).
-/

namespace Mio.Mcp

open Library Mio.Core Mio.Desktop
open RoomPersistence (RoomProg)

/-- How the id of a posted message begins. -/
def ownerProxyMessageIdPrefix : String := "mcp-owner-"

/-- What the tool is called with. -/
structure MioRoomPostAsOwnerInput where
  requestId : String
  roomId : String
  recipientIds : List String
  body : String
  deriving DecidableEq

/-- An error as the tool answers it. -/
structure MioWriteToolError where
  code : String
  message : String
  deriving DecidableEq

/-- Whether the id of a request may be part of a message's. -/
def validRequestId : String → Bool :=
  boundedBytes 118 fun index byte =>
    isAsciiAlphanumeric byte || (byte == 0x2e || byte == 0x5f || byte == 0x2d) && 0 < index

/-- The error of a message that is not well formed. -/
def invalidOwnerProxyMessage : MioWriteToolError :=
  ⟨"invalidRoomMessage", "The Owner-proxy Room message is invalid."⟩

/-- The error of rooms without exactly one human. -/
def roomOwnerUnavailable : MioWriteToolError :=
  ⟨"roomOwnerUnavailable", "The Room does not have exactly one human Owner."⟩

/-- How an error of the rooms is answered. -/
def mapWriteError : RoomWriteError → MioWriteToolError
  | .roomNotFound => ⟨"roomNotFound", "The Room is not available."⟩
  | .authorNotParticipant | .recipientNotParticipant =>
    ⟨"roomParticipantInvalid", "A message participant is not available in the Room."⟩
  | .idempotencyConflict =>
    ⟨"messageConflict", "The request ID was already used for different content."⟩
  | .roomCapacityReached => ⟨"roomCapacityReached", "The Room cannot accept more messages."⟩
  | .sourceUnavailable => ⟨"roomWriteUnavailable", "The Room is temporarily unavailable."⟩

/-- The only human among the participants of the room that was read. -/
def resolveRoomOwner : RoomReadResult → Except MioWriteToolError String
  | .failure _ => .error roomOwnerUnavailable
  | .success result =>
    match result.room.participants.filter isHuman with
    | [owner] => .ok owner.id
    | _ => .error roomOwnerUnavailable

/-- The message that is to be appended, by the room as it is read. -/
def ownerProxyDraft (read : RoomSnapshot) (input : MioRoomPostAsOwnerInput) (createdAt : String) :
    Except MioWriteToolError RoomMessageDraft :=
  if !validRequestId input.requestId then .error invalidOwnerProxyMessage
  else
    match RoomReadQuery.tryNew input.roomId none 1 with
    | .error _ => .error invalidOwnerProxyMessage
    | .ok query =>
      match resolveRoomOwner (readRoom read query) with
      | .error e => .error e
      | .ok ownerId =>
        match RoomMessageDraft.tryNewWithProvenance (ownerProxyMessageIdPrefix ++ input.requestId)
          input.roomId ownerId input.recipientIds input.body createdAt []
          (some .codexOwnerProxy) with
        | .error _ => .error invalidOwnerProxyMessage
        | .ok draft => .ok draft

/-- The call, where `read` is the snapshot in memory when the room is read, and `memory` the one
when the message is appended. -/
def roomPostAsOwner (serde : Serde PersistedRoomFile) (read : RoomSnapshot)
    (input : MioRoomPostAsOwnerInput) (createdAt : String) (memory : RoomSnapshot) :
    RoomProg (Except MioWriteToolError RoomWriteSuccess × RoomSnapshot) :=
  match ownerProxyDraft read input createdAt with
  | .error e => pure (.error e, memory)
  | .ok draft =>
    RoomCommands.mapError mapWriteError <$> RoomSource.appendMessage serde draft memory

/-! ## The owner of a room -/

/-- The humans among the participants of a room. -/
def humansIn (snapshot : RoomSnapshot) (room : Room) : List RoomParticipant :=
  (room.participantIds.filterMap fun participantId =>
    snapshot.participants.find? fun participant => participant.id == participantId).filter isHuman

/-- A message as the tool posts it. -/
structure Posted (message : RoomMessage) : Prop where
  provenance : message.provenance = some .codexOwnerProxy
  authorId : message.authorId = ownerParticipantId
  artifactIds : message.artifactIds = []
  request : ∃ requestId, validRequestId requestId = true ∧
    message.id = ownerProxyMessageIdPrefix ++ requestId
  draft : validDraftMessage message = true

section Owner

variable {snapshot : RoomSnapshot}

/-- The only human of a settled snapshot is its owner. -/
theorem human_eq_owner (h : Settled snapshot) {human : RoomParticipant}
    (hmem : human ∈ snapshot.participants) (hhuman : isHuman human = true) :
    human = participant ownerParticipantId "Owner" .human := by
  have hfiltered : human ∈ snapshot.participants.filter isHuman :=
    List.mem_filter.mpr ⟨hmem, hhuman⟩
  rwa [h.owner, List.mem_singleton] at hfiltered

/-- In settled rooms the owner is a participant. -/
theorem owner_mem (h : Settled snapshot) :
    participant ownerParticipantId "Owner" .human ∈ snapshot.participants := by
  have hfiltered : participant ownerParticipantId "Owner" .human ∈
      snapshot.participants.filter isHuman := by
    rw [h.owner, List.mem_singleton]
  exact List.mem_of_mem_filter hfiltered

/-- The participants that are read are the snapshot's. -/
theorem mem_of_readRoom {query : RoomReadQuery} {result : RoomReadSuccess}
    (hread : readRoom snapshot query = .success result) {p : RoomParticipant}
    (hp : p ∈ result.room.participants) : p ∈ snapshot.participants := by
  have hpage : ∀ room startIndex, readPageAt snapshot room query startIndex = .success result →
      p ∈ snapshot.participants := by
    intro room startIndex hpage
    obtain rfl := RoomReadResult.success.inj hpage
    obtain ⟨participantId, -, hfind⟩ := List.mem_filterMap.mp hp
    exact List.mem_of_find?_eq_some hfind
  unfold readRoom at hread
  split at hread
  · cases hread
  split at hread
  · split at hread
    · cases hread
    · exact hpage _ _ hread
  · exact hpage _ _ hread

/-- A participant that is looked up is a human exactly if it is the owner. -/
theorem find?_filter_isHuman (h : Settled snapshot) (participantId : String) :
    (snapshot.participants.find? fun p => p.id == participantId).filter isHuman =
      if participantId = ownerParticipantId then
        some (participant ownerParticipantId "Owner" .human)
      else none := by
  split
  · rename_i heq
    have hfind : snapshot.participants.find? (fun p => p.id == participantId) =
        some (participant ownerParticipantId "Owner" .human) := by
      rw [heq]
      exact find?_key h.valid.participants_nodup (owner_mem h)
    rw [hfind]
    rfl
  · rename_i hne
    rw [Option.filter_eq_none_iff]
    intro p hfind hhuman
    have hp := human_eq_owner h (List.mem_of_find?_eq_some hfind) hhuman
    have hid : p.id = participantId := by simpa using List.find?_some hfind
    exact hne (hid.symm.trans (congrArg RoomParticipant.id hp))

/-- A room that the owner is in has no other human. -/
theorem humansIn_of_mem (h : Settled snapshot) {room : Room} (hroom : room ∈ snapshot.rooms)
    (howner : ownerParticipantId ∈ room.participantIds) :
    humansIn snapshot room = [participant ownerParticipantId "Owner" .human] := by
  have hnodup := (h.valid.rooms room hroom).participantIds_nodup
  rw [humansIn, List.filter_filterMap]
  simp only [find?_filter_isHuman h]
  obtain ⟨before, after, hids⟩ := List.append_of_mem howner
  rw [hids] at hnodup ⊢
  have hothers : ∀ others : List String, ownerParticipantId ∉ others →
      (others.filterMap fun participantId => if participantId = ownerParticipantId then
        some (participant ownerParticipantId "Owner" .human) else none) = [] := by
    intro others hnot
    rw [List.filterMap_eq_nil_iff]
    intro participantId hmem
    rw [if_neg]
    rintro rfl
    exact hnot hmem
  have hbefore : ownerParticipantId ∉ before := by
    intro hmem
    exact (List.nodup_append.mp hnodup).2.2 _ hmem _ List.mem_cons_self rfl
  have hafter : ownerParticipantId ∉ after :=
    (List.nodup_cons.mp (List.nodup_append.mp hnodup).2.1).1
  rw [List.filterMap_append, List.filterMap_cons, hothers _ hbefore, hothers _ hafter]
  rfl

/-- The owner that the tool finds in a settled snapshot. -/
theorem resolveRoomOwner_settled (h : Settled snapshot) {query : RoomReadQuery} {ownerId : String}
    (hresolve : resolveRoomOwner (readRoom snapshot query) = .ok ownerId) :
    ownerId = ownerParticipantId := by
  unfold resolveRoomOwner at hresolve
  split at hresolve
  · cases hresolve
  rename_i result hread
  split at hresolve
  · rename_i owner howner
    obtain rfl := Except.ok.inj hresolve
    have hmem : owner ∈ result.room.participants.filter isHuman := by simp [howner]
    obtain ⟨hparticipant, hhuman⟩ := List.mem_filter.mp hmem
    have hthere : owner ∈ snapshot.participants := mem_of_readRoom hread hparticipant
    exact congrArg RoomParticipant.id (human_eq_owner h hthere hhuman)
  · cases hresolve

/-- A draft is of a message as the tool posts it, with what the call asked for. -/
theorem ownerProxyDraft_posted (h : Settled snapshot) {input : MioRoomPostAsOwnerInput}
    {createdAt : String} {draft : RoomMessageDraft}
    (hdraft : ownerProxyDraft snapshot input createdAt = .ok draft) :
    Posted draft.message ∧
      draft.message.id = ownerProxyMessageIdPrefix ++ input.requestId := by
  unfold ownerProxyDraft at hdraft
  split at hdraft
  · cases hdraft
  rename_i hrequest
  split at hdraft
  · cases hdraft
  split at hdraft
  · cases hdraft
  rename_i ownerId hresolve
  split at hdraft
  · cases hdraft
  rename_i made hmade
  obtain rfl := Except.ok.inj hdraft
  have hmessage := RoomCommands.message_of_draft hmade
  have hvalid := made.valid
  have howner := resolveRoomOwner_settled h hresolve
  rw [hmessage] at hvalid ⊢
  exact ⟨⟨rfl, howner, rfl, ⟨input.requestId, by simpa using hrequest, rfl⟩, hvalid⟩, rfl⟩

/-- A message that can be appended can be so at another time. -/
theorem validDraftMessage_createdAt {message : RoomMessage} (h : validDraftMessage message = true)
    {createdAt : String} (hcreated : validText createdAt 64 = true) :
    validDraftMessage { message with createdAt } = true := by
  simp only [validDraftMessage, Bool.and_eq_true, validMessageShape_iff] at h ⊢
  exact ⟨⟨{ h.1.1 with createdAt := hcreated }, h.1.2⟩, h.2⟩

/-- A draft for a message that was posted is of that message, but for its time. -/
theorem ownerProxyDraft_again (h : Settled snapshot) {message : RoomMessage}
    (hposted : Posted message) (hstored : Stored message snapshot)
    {input : MioRoomPostAsOwnerInput}
    (hid : message.id = ownerProxyMessageIdPrefix ++ input.requestId)
    (hroomId : message.roomId = input.roomId)
    (hrecipients : message.recipients = input.recipientIds)
    (hbody : message.body = input.body) {createdAt : String}
    (hcreated : validText createdAt 64 = true) :
    ∃ draft, ownerProxyDraft snapshot input createdAt = .ok draft ∧
      draft.message = { message with createdAt } := by
  -- The request is the one of the message, as only its id follows the prefix.
  obtain ⟨requestId, hrequest, hrequestId⟩ := hposted.request
  obtain rfl : requestId = input.requestId := by
    have hsame := hrequestId.symm.trans hid
    exact (Conductor.string_append_inj hsame rfl).2
  obtain ⟨room, hroom, hat, hmessage⟩ := hstored
  have hvalid := (h.valid.rooms room hroom).messages message hmessage
  have hquery : RoomReadQuery.tryNew input.roomId none 1 =
      .ok ⟨input.roomId, none, 1, by
        rw [← hroomId]
        simp [validReadQuery, hvalid.shape.roomId]⟩ := by
    rw [RoomReadQuery.tryNew, dif_pos]
  have hfind : snapshot.rooms.find? (fun room => room.id == input.roomId) = some room := by
    rw [← hroomId, ← hat]
    exact find?_key h.valid.rooms_nodup hroom
  have howner : ownerParticipantId ∈ room.participantIds := hposted.authorId ▸ hvalid.authorId
  -- The owner is found by reading any one message of the room.
  have hresolve : ∀ query : RoomReadQuery, query.roomId = input.roomId →
      query.afterMessageId = none →
      resolveRoomOwner (readRoom snapshot query) = .ok ownerParticipantId := by
    intro query hqueryRoom hcursor
    have hhumans := humansIn_of_mem h hroom howner
    rw [humansIn] at hhumans
    simp only [readRoom, hqueryRoom, hfind, hcursor, readPageAt, resolveRoomOwner, hhumans]
    rfl
  -- The draft of the input is the stored message, but for its time.
  have hsame : { message with createdAt } =
      { id := ownerProxyMessageIdPrefix ++ input.requestId
        roomId := input.roomId
        authorId := ownerParticipantId
        recipients := input.recipientIds
        body := input.body
        createdAt
        artifactIds := []
        provenance := some .codexOwnerProxy } := by
    rw [← hid, ← hroomId, ← hrecipients, ← hbody, ← hposted.authorId, ← hposted.artifactIds,
      ← hposted.provenance]
  have hdraft := validDraftMessage_createdAt hposted.draft hcreated
  refine ⟨⟨_, hdraft⟩, ?_, rfl⟩
  have hmade : RoomMessageDraft.tryNewWithProvenance (ownerProxyMessageIdPrefix ++ input.requestId)
      input.roomId ownerParticipantId input.recipientIds input.body createdAt []
      (some .codexOwnerProxy) = .ok ⟨{ message with createdAt }, hdraft⟩ := by
    simp only [RoomMessageDraft.tryNewWithProvenance, ← hsame]
    exact dif_pos hdraft
  rw [ownerProxyDraft, hrequest, if_neg (by decide), hquery]
  dsimp only
  rw [hresolve _ rfl rfl]
  dsimp only
  rw [hmade]

end Owner

/-! ## The call -/

/-- What a successful append returns, and which messages it leaves. -/
theorem appendMessage_ok {snapshot snapshot' : RoomSnapshot} {draft : RoomMessageDraft}
    {success : RoomWriteSuccess}
    (h : Core.appendMessage draft snapshot = (.ok success, snapshot')) :
    success.status = .duplicate ∧ snapshot' = snapshot ∨
      success.status = .appended ∧ success.message = draft.message := by
  unfold Core.appendMessage at h
  dsimp only at h
  split at h
  · split at h
    · obtain ⟨hsuccess, rfl⟩ := Prod.mk.inj h
      obtain rfl := Except.ok.inj hsuccess
      exact .inl ⟨rfl, rfl⟩
    · cases (Prod.mk.inj h).1
  · split at h
    · cases (Prod.mk.inj h).1
    · split_ifs at h
      · cases (Prod.mk.inj h).1
      · cases (Prod.mk.inj h).1
      · cases (Prod.mk.inj h).1
      · obtain rfl := Except.ok.inj (Prod.mk.inj h).1
        exact .inr ⟨rfl, rfl⟩

section Call

variable {serde : Serde PersistedRoomFile} {memory : RoomSnapshot}

/-- How a call ends whose draft is made, by how its persist does. -/
theorem roomPostAsOwner_run (hvalid : validateSnapshot memory = .ok ()) {read : RoomSnapshot}
    {input : MioRoomPostAsOwnerInput} {createdAt : String} {draft : RoomMessageDraft}
    (hdraft : ownerProxyDraft read input createdAt = .ok draft) (faults : List Fault) (w : World) :
    (roomPostAsOwner serde read input createdAt memory).run faults w =
      match (Core.appendMessage draft memory).1 with
      | .error e => (.done (.error (mapWriteError e), memory), w)
      | .ok success =>
        match (RoomPersistence.persist serde (Core.appendMessage draft memory).2).run faults w with
        | (.done _, w') => (.done (.ok success, (Core.appendMessage draft memory).2), w')
        | (.error _, w') => (.done (.error (mapWriteError .sourceUnavailable), memory), w')
        | (.cut, w') => (.cut, w') := by
  rw [roomPostAsOwner, hdraft]
  dsimp only
  rw [Prog.run_map, RoomSource.appendMessage,
    RoomSource.write_result (appendMessage_keepsOnError draft) hvalid]
  rcases (Core.appendMessage draft memory).1 with e | success
  · rfl
  · rcases (RoomPersistence.persist serde (Core.appendMessage draft memory).2).run faults w with
      ⟨_ | _ | _, w'⟩ <;> rfl

/-- A call that is made again returns the message that is there, and changes nothing, unless the
snapshot cannot be persisted. -/
theorem roomPostAsOwner_again (h : Settled memory) {message : RoomMessage}
    (hposted : Posted message) (hstored : Stored message memory) {input : MioRoomPostAsOwnerInput}
    (hid : message.id = ownerProxyMessageIdPrefix ++ input.requestId)
    (hroomId : message.roomId = input.roomId)
    (hrecipients : message.recipients = input.recipientIds)
    (hbody : message.body = input.body) {createdAt : String}
    (hcreated : validText createdAt 64 = true) (faults : List Fault) (w : World) :
    (roomPostAsOwner serde memory input createdAt memory).run faults w =
      match (RoomPersistence.persist serde memory).run faults w with
      | (.done _, w') => (.done (.ok (.new .duplicate message), memory), w')
      | (.error _, w') => (.done (.error (mapWriteError .sourceUnavailable), memory), w')
      | (.cut, w') => (.cut, w') := by
  obtain ⟨draft, hdraft, hmessage⟩ :=
    ownerProxyDraft_again h hposted hstored hid hroomId hrecipients hbody hcreated
  have hdraftId : draft.message.id = message.id := by rw [hmessage]
  have happend := appendMessage_of_stored h.valid hstored hdraftId
  have hpayload : draft.message.payload = message.payload := by rw [hmessage]; rfl
  rw [if_pos hpayload] at happend
  rw [roomPostAsOwner_run (validateSnapshot_eq_ok.mpr h.valid) hdraft, happend]

end Call

end Mio.Mcp
