import Mio.Core.RoomValidity

/-!
# An append is idempotent and keeps the history

The messages of a room that is not deleted are only added to: `RoomStep.prefix` says so of one call,
and `RoomOperation.run_prefix` of a run. A message that is in the store is therefore in it later,
and since message identifiers are distinct, a later append of its identifier finds it, before any
check on the room or on its members. `appendMessage_history` puts this together.
-/

namespace Mio.Core

open Library

/-- What of a message an append compares: all but when it was created. -/
def RoomMessage.payload (message : RoomMessage) : RoomMessage := { message with createdAt := "" }

/-- The payload keeps the identifier. -/
@[simp]
theorem RoomMessage.payload_id (message : RoomMessage) : message.payload.id = message.id := rfl

/-- The payload keeps the room. -/
@[simp]
theorem RoomMessage.payload_roomId (message : RoomMessage) :
    message.payload.roomId = message.roomId := rfl

/-- A retry is the same message exactly where it is so but for the time. -/
theorem sameIdempotentPayload_iff {existing retried : RoomMessage} :
    sameIdempotentPayload existing retried = true ↔ existing.payload = retried.payload := by
  simp only [sameIdempotentPayload, RoomMessage.payload, Bool.and_eq_true, beq_iff_eq,
    RoomMessage.mk.injEq, true_and, and_assoc]

/-- Whether a call deletes the room. A deletion that is refused does not. -/
def RoomOperation.deletes (roomId : String) (snapshot : RoomSnapshot) : RoomOperation → Bool
  | .deleteRoom id updatedAt => id == roomId && (Core.deleteRoom id updatedAt snapshot).1.isOk
  | _ => false

/-- No call of the run deletes the room. -/
def RoomOperation.keeps (roomId : String) : List RoomOperation → RoomSnapshot → Prop
  | [], _ => True
  | operation :: operations, snapshot =>
    operation.deletes roomId snapshot = false ∧ keeps roomId operations (operation.apply snapshot)

/-- A deletion that is not refused leaves a room less. -/
theorem deleteRoom_isOk {roomId updatedAt : String} {snapshot : RoomSnapshot}
    (h : (deleteRoom roomId updatedAt snapshot).1.isOk = false) :
    (deleteRoom roomId updatedAt snapshot).2 = snapshot := by
  unfold deleteRoom at h ⊢
  split_ifs at h ⊢
  · rfl
  · rfl
  · split
    · rfl
    · simp_all [Except.isOk, Except.toBool]

/-- The room is still there, with messages that start with those it had. -/
def RoomGrows (room : Room) (snapshot : RoomSnapshot) : Prop :=
  ∃ room' ∈ snapshot.rooms, room'.id = room.id ∧ room.messages <+: room'.messages

/-- A room grows from itself. -/
theorem RoomGrows.refl {room : Room} {snapshot : RoomSnapshot} (h : room ∈ snapshot.rooms) :
    RoomGrows room snapshot := ⟨room, h, rfl, List.prefix_refl _⟩

/-- Where a room is replaced by one with its identifier and with messages that start with its
messages, every room is still there. -/
theorem RoomAt.grows {snapshot : RoomSnapshot} {roomId : String} {before after : List Room}
    {old new : Room} (hat : RoomAt snapshot roomId before old after) (generatedAt : String)
    (hid : new.id = old.id) (hmessages : old.messages <+: new.messages) {room : Room}
    (hroom : room ∈ snapshot.rooms) :
    RoomGrows room { snapshot with generatedAt, rooms := before ++ new :: after } := by
  rw [hat.rooms, List.mem_append, List.mem_cons] at hroom
  rcases hroom with h | rfl | h
  · exact .refl (by simp [h])
  · exact ⟨new, by simp, hid, hmessages⟩
  · exact .refl (by simp [h])

/-- One step only adds to the messages of a room, unless it is that room's deletion. -/
theorem RoomStep.grows {snapshot snapshot' : RoomSnapshot} {operation : RoomOperation}
    (hstep : RoomStep snapshot operation snapshot') {room : Room} (hroom : room ∈ snapshot.rooms)
    (hkept : ∀ updatedAt, operation = .deleteRoom room.id updatedAt → snapshot' = snapshot) :
    RoomGrows room snapshot' := by
  -- A room keeps its messages, or gets more, unless it is deleted itself.
  cases hstep with
  | unchanged => exact .refl hroom
  | append draft before old after hat =>
    refine hat.grows _ ?_ ?_ hroom
    · rfl
    · exact List.prefix_append _ _
  | create draft => exact .refl (List.mem_append_left _ hroom)
  | addParticipant _ _ _ before old after hat =>
    refine hat.grows _ ?_ ?_ hroom
    · rfl
    · exact List.prefix_refl _
  | rename _ _ _ before old after hat =>
    refine hat.grows _ ?_ ?_ hroom
    · rfl
    · exact List.prefix_refl _
  | removeParticipant _ _ _ before old after hat =>
    refine hat.grows _ ?_ ?_ hroom
    · rfl
    · exact List.prefix_refl _
  | delete roomId updatedAt before old after hat =>
    by_cases hsame : roomId = room.id
    · subst hsame
      rw [hkept updatedAt rfl]
      exact .refl hroom
    · rw [hat.rooms, List.mem_append, List.mem_cons] at hroom
      have hne : room ≠ old := fun h => hsame (h ▸ hat.id.symm)
      refine .refl ?_
      show room ∈ before ++ after
      rw [List.mem_append]
      tauto

/-- One call only adds to the messages of a room that it does not delete. -/
theorem RoomOperation.apply_grows {snapshot : RoomSnapshot} {room : Room}
    (hroom : room ∈ snapshot.rooms) (operation : RoomOperation)
    (hkept : operation.deletes room.id snapshot = false) :
    RoomGrows room (operation.apply snapshot) := by
  refine (operation.apply_step snapshot).grows hroom ?_
  rintro updatedAt rfl
  rw [deletes, beq_self_eq_true, Bool.true_and] at hkept
  exact deleteRoom_isOk hkept

/-- A run that does not delete the room only adds to its messages. -/
theorem RoomOperation.run_grows {snapshot : RoomSnapshot} {room : Room}
    (hroom : room ∈ snapshot.rooms) (operations : List RoomOperation)
    (hkept : keeps room.id operations snapshot) : RoomGrows room (run operations snapshot) := by
  induction operations generalizing snapshot room with
  | nil => exact .refl hroom
  | cons operation operations ih =>
    obtain ⟨hhead, htail⟩ := hkept
    obtain ⟨room₁, hroom₁, hid₁, hpre₁⟩ := apply_grows hroom operation hhead
    rw [← hid₁] at htail
    obtain ⟨room₂, hroom₂, hid₂, hpre₂⟩ := ih hroom₁ htail
    exact ⟨room₂, hroom₂, hid₂.trans hid₁, hpre₁.trans hpre₂⟩

/-- A message that is in a room of the snapshot. -/
def Stored (message : RoomMessage) (snapshot : RoomSnapshot) : Prop :=
  ∃ room ∈ snapshot.rooms, room.id = message.roomId ∧ message ∈ room.messages

/-- A stored message is one of the snapshot. -/
theorem Stored.mem {message : RoomMessage} {snapshot : RoomSnapshot}
    (h : Stored message snapshot) : message ∈ snapshot.messages := by
  obtain ⟨room, hroom, -, hmessage⟩ := h
  exact List.mem_flatMap.mpr ⟨room, hroom, hmessage⟩

/-- A stored message stays stored as long as its room is not deleted. -/
theorem Stored.run {message : RoomMessage} {snapshot : RoomSnapshot} (h : Stored message snapshot)
    {operations : List RoomOperation}
    (hkept : RoomOperation.keeps message.roomId operations snapshot) :
    Stored message (RoomOperation.run operations snapshot) := by
  obtain ⟨room, hroom, hid, hmessage⟩ := h
  rw [← hid] at hkept
  obtain ⟨room', hroom', hid', hpre⟩ := RoomOperation.run_grows hroom operations hkept
  exact ⟨room', hroom', hid'.trans hid, hpre.subset hmessage⟩

/-- An append that succeeds returns a stored message with the draft's payload. -/
theorem appendMessage_stored {snapshot snapshot' : RoomSnapshot} (hs : ValidSnapshot snapshot)
    {draft : RoomMessageDraft} {success : RoomWriteSuccess}
    (h : appendMessage draft snapshot = (.ok success, snapshot')) :
    Stored success.message snapshot' ∧ success.message.payload = draft.message.payload := by
  unfold appendMessage at h
  dsimp only at h
  split at h
  · rename_i existing hfind
    split at h
    · rename_i hsame
      obtain ⟨rfl, rfl⟩ : RoomWriteSuccess.new .duplicate existing = success ∧
        snapshot = snapshot' := by simpa using h
      obtain ⟨room, hroom, hmessage⟩ := List.mem_flatMap.mp (List.mem_of_find?_eq_some hfind)
      have hid := ((hs.rooms room hroom).messages existing hmessage).roomId
      exact ⟨⟨room, hroom, hid.symm, hmessage⟩, sameIdempotentPayload_iff.mp hsame⟩
    · simp at h
  · split at h
    · simp at h
    rename_i room hfind
    split_ifs at h
    · simp at h
    · simp at h
    · simp at h
    obtain ⟨before, after, hat, hmodify⟩ := roomAt_of_find? hfind
    rw [hmodify] at h
    obtain ⟨hsuccess, rfl⟩ := Prod.mk.inj h
    obtain rfl := Except.ok.inj hsuccess
    have hmessage : draft.message ∈ room.messages ++ [draft.message] := by simp
    exact ⟨⟨_, List.mem_append_right _ List.mem_cons_self, hat.id, hmessage⟩, rfl⟩

/-- An append of the identifier of a stored message leaves the snapshot. It returns the stored
message where the payload is the same, and a conflict where it is not. -/
theorem appendMessage_of_stored {snapshot : RoomSnapshot} (hs : ValidSnapshot snapshot)
    {message : RoomMessage} (hstored : Stored message snapshot) {draft : RoomMessageDraft}
    (hid : draft.message.id = message.id) :
    appendMessage draft snapshot =
      (if draft.message.payload = message.payload then .ok (.new .duplicate message)
        else .error .idempotencyConflict, snapshot) := by
  have hfind : snapshot.messages.find? (fun existing => existing.id == draft.message.id) =
      some message := by
    rw [hid]
    exact find?_key hs.messages_nodup hstored.mem
  unfold appendMessage
  simp only [hfind]
  by_cases hsame : draft.message.payload = message.payload
  · rw [if_pos (sameIdempotentPayload_iff.mpr hsame.symm), if_pos hsame]
  · rw [if_neg (fun h => hsame (sameIdempotentPayload_iff.mp h).symm), if_neg hsame]

/-- What holds of the messages of a snapshot and of the calls that follow. -/
structure MessageHistory (snapshot : RoomSnapshot) (later : List RoomOperation) : Prop where
  /-- A message identifier occurs at most once in all rooms. -/
  unique : (snapshot.messages.map (·.id)).Nodup
  /-- Once an append of a draft has succeeded and other calls have followed, an append of the same
  identifier returns the stored message where the payload is the same, and a conflict where it is
  not, and leaves the snapshot. -/
  retried : ∀ (draft : RoomMessageDraft) (success : RoomWriteSuccess) (appended : RoomSnapshot),
    appendMessage draft snapshot = (.ok success, appended) →
    RoomOperation.keeps draft.message.roomId later appended →
    ∀ retry : RoomMessageDraft, retry.message.id = draft.message.id →
      appendMessage retry (RoomOperation.run later appended) =
        (if retry.message.payload = draft.message.payload then
            .ok (.new .duplicate success.message)
          else .error .idempotencyConflict, RoomOperation.run later appended)
  /-- The messages of a room that is not deleted stay in front of those that are added. -/
  grows : ∀ room ∈ snapshot.rooms, RoomOperation.keeps room.id later snapshot →
    ∃ room' ∈ (RoomOperation.run later snapshot).rooms,
      room'.id = room.id ∧ room.messages <+: room'.messages

/-- In every run from a snapshot that passes the check, messages are unique, appended once, and
kept. -/
theorem run_messageHistory {snapshot : RoomSnapshot} (hs : validateSnapshot snapshot = .ok ())
    (operations later : List RoomOperation) :
    MessageHistory (RoomOperation.run operations snapshot) later := by
  have hvalid := RoomOperation.run_valid (validateSnapshot_eq_ok.mp hs) operations
  refine ⟨hvalid.messages_nodup, ?_, ?_⟩
  · intro draft success appended happend hkept retry hretry
    obtain ⟨hstored, hpayload⟩ := appendMessage_stored hvalid happend
    have happended : ValidSnapshot appended := by
      have hstep := (appendMessage_step _ draft).valid hvalid
      rwa [happend] at hstep
    have hroomId : success.message.payload.roomId = draft.message.payload.roomId := by rw [hpayload]
    have hid : success.message.payload.id = draft.message.payload.id := by rw [hpayload]
    rw [RoomMessage.payload_roomId, RoomMessage.payload_roomId] at hroomId
    rw [RoomMessage.payload_id, RoomMessage.payload_id] at hid
    rw [← hroomId] at hkept
    have hlater := RoomOperation.run_valid happended later
    rw [appendMessage_of_stored hlater (hstored.run hkept) (hretry.trans hid.symm), hpayload]
  · exact fun room hroom hkept => RoomOperation.run_grows hroom later hkept

/-- The history of a message over a rename of its room. -/
theorem run_messageHistory_sample :
    MessageHistory (RoomOperation.run [] sampleSnapshot) [.renameRoom "room" "Den" "2026-08-13"] :=
  run_messageHistory (by decide) [] _

end Mio.Core
