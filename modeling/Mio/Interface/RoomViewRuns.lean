import Mio.Interface.RoomView
import Mio.Library.Latest

/-!
# The runs of the window

What the window shows of the last messages of a room, over every order of storing, receiving,
reading, and applying. `WindowInvariant` says what links the window to the store: what it was given
is stored, and a room that was read is what the store had of it. A read that is applied while the
window was given a message that the read does not have takes that message away
(`stale_read_removes`). Where no such read is applied, the window shows every one of the last
messages that it was given (`window_shows`).
-/

namespace Mio.Interface

open Library Mio.Core

/-- The messages that a read of a room gives. -/
def lastMessages (messages : List RoomMessage) : List RoomMessage := latest 30 messages

/-- What the window shows is right: no message twice, and every one of the last messages of a room
that it was given. -/
structure ViewSound (state : WindowState) : Prop where
  once : ∀ view ∈ state.rooms, (view.messages.map (·.id)).Nodup
  shown : ∀ view ∈ state.rooms, ∀ room ∈ state.store.rooms, room.id = view.id →
    ∀ message ∈ lastMessages room.messages, (room.id, message.id) ∈ state.given →
      message.id ∈ view.messages.map (·.id)

/-- An identifier of a message that the store has in the room. -/
def StoredIn (store : RoomSnapshot) (roomId messageId : String) : Prop :=
  ∃ room ∈ store.rooms, room.id = roomId ∧ messageId ∈ room.messages.map (·.id)

/-- What links the window to the store. -/
structure WindowInvariant (state : WindowState) : Prop where
  valid : ValidSnapshot state.store
  /-- What is on its way is stored. -/
  inFlight : ∀ answer ∈ state.inFlight, ∃ draft value path,
    answer = answerFor draft value path ∧ Stored value.message state.store
  /-- A room that was read has the last of the messages that the store then had. -/
  reads : ∀ read ∈ state.reads, read.result.room.messages = lastMessages read.stored ∧
    ∃ room ∈ state.store.rooms, room.id = read.roomId ∧ read.stored <+: room.messages
  given : ∀ roomId messageId, (roomId, messageId) ∈ state.given →
    StoredIn state.store roomId messageId
  sound : ViewSound state

/-! ## What one answer shows -/

/-- Adding one message at once is adding it. -/
theorem addMessages_singleton (message : ChatMessage) : addMessages
    [message] = addMessage message := by
  funext room
  unfold addMessages addMessage
  by_cases hhas : (room.messages.any fun existing => existing.id == message.id) = true
  · simp [hhas]
  · simp [hhas]

/-- An answer shows one message, which was stored, and adds it to its room. -/
theorem shows_answerFor {displayTime : String → String} {participants : ParticipantMap}
    {draft : RoomMessage} {value : RoomWriteSuccess} {path : MessagePath} {roomId : String}
    {messages : List ChatMessage} {change : RoomView → RoomView}
    (h : (answerFor draft value path).shows displayTime participants =
      some (roomId, messages, change)) :
    ∃ message : ChatMessage, messages = [message] ∧ message.id = value.message.id ∧
      roomId = value.message.roomId ∧ change = addMessage message := by
  -- Each path checks the answer in its own way, and shows the one message of it.
  cases path with
  | ownerWrite =>
    obtain ⟨message, hmessage, heq⟩ := Option.map_eq_some_iff.mp h
    obtain ⟨rfl, rfl, rfl⟩ : draft.roomId = roomId ∧ [message] = messages ∧
      addMessage message = change := by simpa using heq
    unfold writeDesktopRoomMessage at hmessage
    dsimp only at hmessage
    split_ifs at hmessage with hchecked
    obtain rfl := Option.some.inj hmessage
    simp only [Bool.or_eq_true, bne_iff_ne, ne_eq, not_or, not_not] at hchecked
    exact ⟨_, rfl, rfl, hchecked.1.1.1.1.1.2.symm, rfl⟩
  | aiDispatch sourceMessageId =>
    obtain ⟨shown, hshown, heq⟩ := Option.map_eq_some_iff.mp h
    obtain ⟨rfl, rfl, rfl⟩ : draft.roomId = roomId ∧ shown = messages ∧
      addMessages shown = change := by simpa using heq
    -- Both states of a stored reply show the message.
    obtain ⟨status, hstatus, hreply⟩ : ∃ status, (status = .completed ∨ status = .duplicate) ∧
        dispatchMessages displayTime
          { roomId := draft.roomId, messageId := sourceMessageId, recipientIds := [draft.authorId] }
          participants
          { recipientId := draft.authorId, status, message := some value.message } =
            some shown := by
      unfold desktopRoomDispatchView at hshown
      simp only [List.map_cons, List.map_nil, bne_self_eq_false, Bool.or_self, Bool.false_eq_true,
        if_false, List.mapM_cons, List.mapM_nil, Option.pure_def, Option.bind_eq_bind,
        Option.map_eq_some_iff, Option.bind_eq_some_iff] at hshown
      obtain ⟨all, ⟨replies, hreplies, rest, hrest, hall⟩, hflatten⟩ := hshown
      obtain rfl := Option.some.inj hrest
      obtain rfl := Option.some.inj hall
      obtain rfl : replies = shown := by simpa using hflatten
      refine ⟨_, ?_, hreplies⟩
      cases value.status with
      | appended => exact .inl rfl
      | duplicate => exact .inr rfl
    unfold dispatchMessages at hreply
    rcases hstatus with rfl | rfl <;>
      · dsimp only at hreply
        split_ifs at hreply with hchecked
        obtain rfl := Option.some.inj hreply
        simp only [Bool.or_eq_true, bne_iff_ne, ne_eq, not_or, not_not] at hchecked
        exact ⟨_, rfl, rfl, hchecked.1.1.1.symm, addMessages_singleton _⟩
  | orchestration =>
    obtain ⟨message, hmessage, heq⟩ := Option.map_eq_some_iff.mp h
    obtain ⟨rfl, rfl, rfl⟩ : draft.roomId = roomId ∧ [message] = messages ∧
      addMessage message = change := by simpa using heq
    unfold orchestrateDesktopRoomMessage at hmessage
    split_ifs at hmessage with hchecked
    obtain rfl := Option.some.inj hmessage
    simp only [Bool.or_eq_true, bne_iff_ne, ne_eq, not_or, not_not] at hchecked
    exact ⟨_, rfl, rfl, hchecked.1.1.1.symm, rfl⟩
  | bridgeReply =>
    obtain ⟨message, hmessage, heq⟩ := Option.map_eq_some_iff.mp h
    obtain ⟨rfl, rfl, rfl⟩ : value.message.roomId = roomId ∧ [message] = messages ∧
      addMessage message = change := by simpa using heq
    unfold browserBridgeReplyView at hmessage
    split_ifs at hmessage
    obtain rfl := Option.some.inj hmessage
    exact ⟨_, rfl, rfl, rfl, rfl⟩
  -- What goes by way of Codex is only read later.
  | viaCodex => cases h

/-- An added message leaves the room's id. -/
@[simp]
theorem addMessage_id (message : ChatMessage) (view : RoomView) :
    (addMessage message view).id = view.id := rfl

/-- A room that a message is added to has it, and what it had. -/
theorem mem_addMessage {message : ChatMessage} {view : RoomView} {id : String} :
    id ∈ (addMessage message view).messages.map (·.id) ↔
      id = message.id ∨ id ∈ view.messages.map (·.id) := by
  show id ∈ (if view.messages.any fun existing => existing.id == message.id then view.messages
    else view.messages ++ [message]).map (·.id) ↔ _
  split_ifs with hhas
  · constructor
    · exact .inr
    · rintro (rfl | h)
      · obtain ⟨existing, hexisting, hid⟩ := List.any_eq_true.mp hhas
        exact List.mem_map.mpr ⟨existing, hexisting, by simpa using hid⟩
      · exact h
  · rw [List.map_append, List.mem_append, List.map_singleton, List.mem_singleton, or_comm]

/-- No message is shown twice after one is added. -/
theorem addMessage_nodup {message : ChatMessage} {view : RoomView}
    (h : (view.messages.map (·.id)).Nodup) :
    ((addMessage message view).messages.map (·.id)).Nodup := by
  show ((if view.messages.any fun existing => existing.id == message.id then view.messages
    else view.messages ++ [message]).map (·.id)).Nodup
  split_ifs with hhas
  · exact h
  · rw [List.map_append, List.map_singleton, List.nodup_append']
    refine ⟨h, List.nodup_singleton _, ?_⟩
    intro id hid hmessage
    obtain rfl := List.mem_singleton.mp hmessage
    obtain ⟨existing, hexisting, heq⟩ := List.mem_map.mp hid
    exact hhas (List.any_eq_true.mpr ⟨existing, hexisting, by simpa using heq⟩)

/-- A room after a change is the change of a room that has the identifier, or as it was. -/
theorem mem_updateRoom {roomId : String} {change : RoomView → RoomView} {rooms : List RoomView}
    {view : RoomView} (h : view ∈ updateRoom roomId change rooms) :
    (∃ old ∈ rooms, old.id = roomId ∧ view = change old) ∨ view ∈ rooms ∧ view.id ≠ roomId := by
  obtain ⟨old, hold, rfl⟩ := List.mem_map.mp h
  split_ifs with hid
  · exact .inl ⟨old, hold, hid, rfl⟩
  · exact .inr ⟨hold, hid⟩

/-! ## Storing -/

/-- An append keeps the rooms, and adds at most one message, with a new identifier. -/
theorem appendMessage_rooms {store : RoomSnapshot} (draft : RoomMessageDraft) {room' : Room}
    (hroom' : room' ∈ (appendMessage draft store).2.rooms) :
    ∃ room ∈ store.rooms, room'.id = room.id ∧ (room'.messages = room.messages ∨
      room'.messages = room.messages ++ [draft.message] ∧
        ∀ message ∈ store.messages, message.id ≠ draft.message.id) := by
  have hstep := appendMessage_step store draft
  generalize hafter : (appendMessage draft store).2 = after at hstep hroom'
  cases hstep with
  | unchanged => exact ⟨room', hroom', rfl, .inl rfl⟩
  | append _ before room rest hat hfresh =>
    rw [List.mem_append, List.mem_cons] at hroom'
    rcases hroom' with h | rfl | h
    · exact ⟨room', hat.rooms ▸ List.mem_append_left _ h, rfl, .inl rfl⟩
    · exact ⟨room, hat.mem, rfl, .inr ⟨rfl, hfresh⟩⟩
    · exact ⟨room', hat.rooms ▸ List.mem_append_right _ (List.mem_cons_of_mem _ h), rfl, .inl rfl⟩

/-! ## The steps -/

/-- What is stored in a room is in no other. -/
theorem storedIn_of_stored {message : RoomMessage} {store : RoomSnapshot}
    (h : Stored message store) :
    StoredIn store message.roomId message.id := by
  obtain ⟨room, hroom, hid, hmessage⟩ := h
  exact ⟨room, hroom, hid, List.mem_map_of_mem hmessage⟩

/-- What was stored stays stored when a message is. -/
theorem appendMessage_grows {store : RoomSnapshot} (draft : RoomMessageDraft) {room : Room}
    (hroom : room ∈ store.rooms) : RoomGrows room (appendMessage draft store).2 := by
  refine (appendMessage_step store draft).grows hroom ?_
  intro updatedAt h
  cases h

/-- An append takes no message out of the store. -/
theorem StoredIn.append {store : RoomSnapshot} {roomId messageId : String}
    (h : StoredIn store roomId messageId) (draft : RoomMessageDraft) :
    StoredIn (appendMessage draft store).2 roomId messageId := by
  obtain ⟨room, hroom, rfl, hmessage⟩ := h
  obtain ⟨room', hroom', hid, hpre⟩ := appendMessage_grows draft hroom
  exact ⟨room', hroom', hid, (hpre.map _).subset hmessage⟩

/-- An append changes no stored message. -/
theorem stored_append {store : RoomSnapshot} {message : RoomMessage} (h : Stored message store)
    (draft : RoomMessageDraft) : Stored message (appendMessage draft store).2 := by
  obtain ⟨room, hroom, hid, hmessage⟩ := h
  obtain ⟨room', hroom', hid', hpre⟩ := appendMessage_grows draft hroom
  exact ⟨room', hroom', hid'.trans hid, hpre.subset hmessage⟩

/-- Storing a message keeps the invariant, whatever is then on its way. -/
theorem WindowInvariant.append {state : WindowState} (hinv : WindowInvariant state)
    (draft : RoomMessageDraft) {answers : List WindowAnswer}
    (hanswers : ∀ answer ∈ answers, ∃ draft' value path, answer = answerFor draft' value path ∧
      Stored value.message (appendMessage draft state.store).2) :
    WindowInvariant
      { state with
        store := (appendMessage draft state.store).2, inFlight := state.inFlight ++ answers } := by
  have hvalid : ValidSnapshot (appendMessage draft state.store).2 :=
    (appendMessage_step state.store draft).valid hinv.valid
  refine ⟨hvalid, ?_, ?_, ?_, ⟨hinv.sound.once, ?_⟩⟩
  -- An answer in flight is an earlier one, or one of those that are added.
  · intro answer hanswer
    rcases List.mem_append.mp hanswer with h | h
    · obtain ⟨draft', value, path, heq, hstored⟩ := hinv.inFlight answer h
      exact ⟨draft', value, path, heq, stored_append hstored draft⟩
    · exact hanswers answer h
  · intro read hread
    obtain ⟨hlast, room, hroom, hid, hpre⟩ := hinv.reads read hread
    obtain ⟨room', hroom', hid', hpre'⟩ := appendMessage_grows draft hroom
    exact ⟨hlast, room', hroom', hid'.trans hid, hpre.trans hpre'⟩
  · intro roomId messageId h
    exact (hinv.given roomId messageId h).append draft
  · intro view hview room' hroom' hid message hmessage hgiven
    obtain ⟨room, hroom, hsame, hmessages⟩ := appendMessage_rooms draft hroom'
    rw [hsame] at hid hgiven
    rcases hmessages with heq | ⟨heq, hfresh⟩
    · rw [heq] at hmessage
      exact hinv.sound.shown view hview room hroom hid message hmessage hgiven
    · rw [lastMessages, heq] at hmessage
      rcases mem_latest_append_singleton hmessage with rfl | hold
      · -- The window was not given the message that is new.
        obtain ⟨other, hother, -, hmem⟩ := hinv.given _ _ hgiven
        obtain ⟨existing, hexisting, hexisting_id⟩ := List.mem_map.mp hmem
        exact absurd hexisting_id
          (hfresh existing (List.mem_flatMap.mpr ⟨other, hother, hexisting⟩))
      · exact hinv.sound.shown view hview room hroom hid message hold hgiven

/-- Showing a stored message keeps what the window shows right. -/
theorem ViewSound.add {state : WindowState} (hsound : ViewSound state) {roomId : String}
    (message : ChatMessage) {inFlight : List WindowAnswer} {requests : List String} :
    ViewSound
      { state with
        inFlight, requests
        rooms := updateRoom roomId (addMessage message) state.rooms
        given := state.given ++ [(roomId, message.id)] } := by
  constructor
  · intro view hview
    rcases mem_updateRoom hview with ⟨old, hold, -, rfl⟩ | ⟨hold, -⟩
    · exact addMessage_nodup (hsound.once old hold)
    · exact hsound.once view hold
  · intro view hview room hroom hid stored hstored hgiven
    rw [List.mem_append, List.mem_singleton, Prod.mk.injEq] at hgiven
    rcases mem_updateRoom hview with ⟨old, hold, hold_id, rfl⟩ | ⟨hold, hne⟩
    · rw [mem_addMessage]
      rcases hgiven with h | ⟨-, h⟩
      · exact .inr (hsound.shown old hold room hroom hid stored hstored h)
      · exact .inl h
    · rcases hgiven with h | ⟨h, -⟩
      · exact hsound.shown view hold room hroom hid stored hstored h
      · exact absurd (hid.symm.trans h) hne

/-- A room is read as the last of its messages. -/
theorem readDesktopRoom_eq_some {store : RoomSnapshot} {roomId : String}
    {result : RoomReadSuccess} (h : readDesktopRoom roomId store = some result) :
    ∃ room ∈ store.rooms, store.rooms.find? (fun room => room.id == roomId) = some room ∧
      room.id = roomId ∧ result.room.id = roomId ∧
      result.room.messages = lastMessages room.messages := by
  unfold readDesktopRoom readPage at h
  split at h
  · cases h
  rename_i query hquery
  unfold RoomReadQuery.tryNew at hquery
  split_ifs at hquery with hvalid
  obtain rfl := Except.ok.inj hquery
  split at h
  · cases h
  rename_i answer hread
  obtain rfl := Option.some.inj h
  unfold readRoom at hread
  split at hread
  · cases hread
  rename_i room hfind
  obtain rfl := RoomReadResult.success.inj hread
  have hid : room.id = roomId := by simpa using List.find?_some hfind
  refine ⟨room, List.mem_of_find?_eq_some hfind, hfind, hid, hid, ?_⟩
  show (room.messages.drop (room.messages.length - 30)).take 30 = _
  rw [lastMessages, latest, List.take_of_length_le]
  rw [List.length_drop]
  omega

/-- No read is applied that lacks a message of its room that the window was given. -/
def Current (state : WindowState) : WindowEvent → Prop
  | .apply index => ∀ read, state.reads[index]? = some read →
    ∀ messageId, (read.roomId, messageId) ∈ state.given → messageId ∈ read.stored.map (·.id)
  | _ => True

/-- Applying such a read keeps what the window shows right. -/
theorem WindowInvariant.apply {displayTime : String → String} {state : WindowState}
    (hinv : WindowInvariant state) {read : PendingRead} (hread : read ∈ state.reads)
    (hcurrent : ∀ messageId, (read.roomId, messageId) ∈ state.given →
      messageId ∈ read.stored.map (·.id))
    (hid : read.result.room.id = read.roomId) (reads : List PendingRead) :
    ViewSound
      { state with
        reads
        rooms :=
          updateRoom read.roomId (fun _ => hydrateRoom displayTime read.result.room) state.rooms
        given := state.given ++ read.result.room.messages.map fun message =>
          (read.roomId, message.id) } := by
  obtain ⟨hlast, room, hroom, hroom_id, hpre⟩ := hinv.reads read hread
  have hids : (hydrateRoom displayTime read.result.room).messages.map (·.id) =
      (lastMessages read.stored).map (·.id) := by
    rw [← hlast]
    show (read.result.room.messages.map _).map _ = _
    rw [List.map_map]
    rfl
  have hnodup : (room.messages.map (·.id)).Nodup := hinv.valid.room_messages_nodup hroom
  -- The view that is replaced has the ids of the read, the other views are as they were.
  constructor
  · intro view hview
    rcases mem_updateRoom hview with ⟨-, -, -, rfl⟩ | ⟨hold, -⟩
    · rw [hids]
      exact hnodup.sublist (((latest_sublist 30 _).trans hpre.sublist).map _)
    · exact hinv.sound.once view hold
  · intro view hview stored_room hstored_room hview_id message hmessage hgiven
    rw [List.mem_append] at hgiven
    rcases mem_updateRoom hview with ⟨-, -, -, rfl⟩ | ⟨hold, hne⟩
    · obtain rfl : stored_room = room :=
        hinv.valid.room_eq hroom hstored_room (hview_id.trans (hid.trans hroom_id.symm))
      rw [hids]
      rcases hgiven with h | h
      · rw [hroom_id] at h
        obtain ⟨stored, hstored, hsame⟩ := List.mem_map.mp (hcurrent _ h)
        obtain rfl : stored = message := List.inj_on_of_nodup_map hnodup (hpre.subset hstored)
          (mem_of_mem_latest hmessage) hsame
        -- What was given and stored when it was read is among the latest if it still is.
        exact List.mem_map_of_mem (mem_latest_of_earlier hpre hnodup.of_map hmessage hstored)
      · obtain ⟨other, hother, heq⟩ := List.mem_map.mp h
        rw [← (Prod.mk.inj heq).2, ← hlast]
        exact List.mem_map_of_mem hother
    · rcases hgiven with h | h
      · exact hinv.sound.shown view hold stored_room hstored_room hview_id message hmessage h
      · obtain ⟨other, -, heq⟩ := List.mem_map.mp h
        exact absurd (hview_id.symm.trans (Prod.mk.inj heq).1.symm) hne

/-- A step that applies no read that lacks something keeps the invariant. -/
theorem WindowInvariant.step {displayTime : String → String} {state : WindowState}
    (hinv : WindowInvariant state) {event : WindowEvent} (hcurrent : Current state event) :
    WindowInvariant (state.step displayTime event) := by
  -- One case for each event of the window: it stores, receives an answer, reads, or shows a read.
  cases event with
  | store path draft =>
    unfold WindowState.step
    dsimp only
    split
    · rename_i value store happend
      have hstored := (appendMessage_stored hinv.valid happend).1
      have hstore : store = (appendMessage draft state.store).2 := by rw [happend]
      subst hstore
      refine hinv.append draft fun answer hanswer => ?_
      obtain rfl := List.mem_singleton.mp hanswer
      exact ⟨_, _, _, rfl, hstored⟩
    · rename_i store happend
      have hstore : store = (appendMessage draft state.store).2 := by rw [happend]
      subst hstore
      have hkept := @WindowInvariant.append _ hinv draft [] (by simp)
      rwa [List.append_nil] at hkept
  | receive index participants =>
    unfold WindowState.step
    dsimp only
    split
    · exact hinv
    rename_i answer hanswer
    have hmem := List.mem_of_getElem? hanswer
    have hrest : ∀ other ∈ state.inFlight.eraseIdx index, other ∈ state.inFlight :=
      fun other hother => List.mem_of_mem_eraseIdx hother
    split
    -- An answer that shows nothing changes no view.
    · exact { hinv with inFlight := fun other hother => hinv.inFlight other (hrest other hother)
                        sound := ⟨hinv.sound.once, hinv.sound.shown⟩ }
    · rename_i roomId messages change hshows
      obtain ⟨draft, value, path, rfl, hstored⟩ := hinv.inFlight answer hmem
      obtain ⟨message, rfl, hid, rfl, rfl⟩ := shows_answerFor hshows
      refine ⟨hinv.valid, fun other hother => hinv.inFlight other (hrest other hother), hinv.reads,
        ?_, hinv.sound.add message⟩
      intro roomId messageId hgiven
      rcases List.mem_append.mp hgiven with h | h
      · exact hinv.given roomId messageId h
      · obtain ⟨rfl, rfl⟩ : roomId = value.message.roomId ∧ messageId = message.id := by
          simpa using h
        rw [hid]
        exact storedIn_of_stored hstored
  | read index =>
    unfold WindowState.step
    dsimp only
    split
    · exact hinv
    rename_i roomId hrequest
    split
    · exact { hinv with sound := ⟨hinv.sound.once, hinv.sound.shown⟩ }
    · rename_i result hresult
      obtain ⟨room, hroom, hfind, hid, -, hlast⟩ := readDesktopRoom_eq_some hresult
      refine { hinv with reads := ?_, sound := ⟨hinv.sound.once, hinv.sound.shown⟩ }
      intro read hread
      rcases List.mem_append.mp hread with h | h
      · exact hinv.reads read h
      · obtain rfl := List.mem_singleton.mp h
        rw [hfind]
        exact ⟨hlast, room, hroom, hid, List.prefix_refl _⟩
  | apply index =>
    unfold WindowState.step
    dsimp only
    split
    · exact hinv
    rename_i read hread
    have hmem := List.mem_of_getElem? hread
    have hrest : ∀ other ∈ state.reads.eraseIdx index, other ∈ state.reads :=
      fun other hother => List.mem_of_mem_eraseIdx hother
    split
    · exact { hinv with reads := fun other hother => hinv.reads other (hrest other hother)
                        sound := ⟨hinv.sound.once, hinv.sound.shown⟩ }
    · rename_i hid
      rw [bne_iff_ne, ne_eq, not_not] at hid
      refine ⟨hinv.valid, hinv.inFlight, fun other hother => hinv.reads other (hrest other hother),
        ?_, hinv.apply hmem (hcurrent read hread) hid _⟩
      obtain ⟨hlast, room, hroom, hroom_id, hpre⟩ := hinv.reads read hmem
      intro roomId messageId hgiven
      rcases List.mem_append.mp hgiven with h | h
      · exact hinv.given roomId messageId h
      · obtain ⟨message, hmessage, heq⟩ := List.mem_map.mp h
        obtain ⟨rfl, rfl⟩ := Prod.mk.inj heq
        rw [hlast] at hmessage
        exact ⟨room, hroom, hroom_id,
          List.mem_map_of_mem (hpre.subset (mem_of_mem_latest hmessage))⟩

/-! ## Runs -/

/-- A window that was just opened: nothing is on its way, and no room has a message twice. -/
structure WindowStart (state : WindowState) : Prop where
  valid : validateSnapshot state.store = .ok ()
  inFlight : state.inFlight = []
  requests : state.requests = []
  reads : state.reads = []
  given : state.given = []
  once : ∀ view ∈ state.rooms, (view.messages.map (·.id)).Nodup

/-- The invariant holds at the start. -/
theorem WindowStart.invariant {state : WindowState} (h : WindowStart state) :
    WindowInvariant state := by
  refine ⟨validateSnapshot_eq_ok.mp h.valid, ?_, ?_, ?_, ⟨h.once, ?_⟩⟩
  · simp [h.inFlight]
  · simp [h.reads]
  · simp [h.given]
  · simp [h.given]

/-- In no step of the run is a read applied that lacks a message that the window was given. -/
def CurrentRun (displayTime : String → String) : List WindowEvent → WindowState → Prop
  | [], _ => True
  | event :: events, state =>
    Current state event ∧ CurrentRun displayTime events (state.step displayTime event)

/-- In every such run, the window shows no message twice, and every one of the last messages that it
was given. -/
theorem window_shows {displayTime : String → String} {state : WindowState}
    (hstart : WindowStart state) (events : List WindowEvent)
    (hcurrent : CurrentRun displayTime events state) :
    ViewSound (state.run displayTime events) := by
  have hinv := hstart.invariant
  clear hstart
  induction events generalizing state with
  | nil => exact hinv.sound
  | cons event events ih => exact ih hcurrent.2 (hinv.step hcurrent.1)

/-! ## A read that comes late -/

namespace RoomViewSample

/-- A message of the owner or of Codex in the sample's room. -/
def message (id authorId recipient : String) : RoomMessage :=
  ⟨id, "room", authorId, [recipient], "Hello", "2026-08-12", [], none⟩

/-- The owner's question, saved via Codex. -/
def question : RoomMessageDraft := ⟨message "m2" "owner" "codex", by decide⟩

/-- The reply. -/
def reply : RoomMessageDraft := ⟨message "m3" "codex" "owner", by decide⟩

/-- A window that shows an empty room. -/
def start : WindowState where
  store := sampleSnapshot
  rooms := [⟨"room", "Room", ["owner", "codex"], [], "まだ会話なし"⟩]
  inFlight := []
  requests := []
  reads := []
  given := []

/-- The window is at its start. -/
theorem start_spec : WindowStart start := ⟨by decide, rfl, rfl, rfl, rfl, by simp [start]⟩

/-- The room is read before the reply is stored, and the answer is applied after the reply is
shown. -/
def events : List WindowEvent :=
  [.store .viaCodex question, .receive 0 fun _ => none, .read 0, .store (.aiDispatch "m2") reply,
    .receive 0 fun _ => none, .apply 0]

/-- The room is read after the owner's message was shown. -/
def currentEvents : List WindowEvent :=
  [.store .ownerWrite question, .receive 0 fun _ => none, .store .viaCodex reply,
    .receive 0 fun _ => none, .read 0, .apply 0]

end RoomViewSample

open RoomViewSample

/-- A read that was taken before a reply was stored takes the reply away again. Nothing is on its
way then. -/
theorem stale_read_removes :
    WindowStart start ∧
      (start.run id events).inFlight = [] ∧ (start.run id events).requests = [] ∧
      (start.run id events).reads = [] ∧ ("room", "m3") ∈ (start.run id events).given ∧
      ¬ViewSound (start.run id events) := by
  have hrooms : (start.run id events).rooms.map (fun view => (view.id, view.messages.map (·.id))) =
      [("room", ["m1", "m2"])] := by decide
  have hstore : (start.run id events).store.rooms.map
      (fun room => (room.id, (lastMessages room.messages).map (·.id))) =
      [("room", ["m1", "m2", "m3"])] := by decide
  have hgiven : ("room", "m3") ∈ (start.run id events).given := by decide
  refine ⟨start_spec, by decide, by decide, by decide, hgiven, fun h => ?_⟩
  obtain ⟨view, hview, hview_eq⟩ := List.mem_map.mp (hrooms ▸ List.mem_singleton_self _)
  obtain ⟨room, hroom, hroom_eq⟩ := List.mem_map.mp (hstore ▸ List.mem_singleton_self _)
  obtain ⟨hview_id, hview_messages⟩ := Prod.mk.inj hview_eq
  obtain ⟨hroom_id, hroom_messages⟩ := Prod.mk.inj hroom_eq
  obtain ⟨lost, hlost, hlost_id⟩ : ∃ lost ∈ lastMessages room.messages, lost.id = "m3" := by
    rw [← List.mem_map, hroom_messages]
    simp
  have hshown := h.shown view hview room hroom (hroom_id.trans hview_id.symm) lost hlost
    (by rw [hroom_id, hlost_id]; exact hgiven)
  rw [hview_messages, hlost_id] at hshown
  simp at hshown

/-- A run whose reads are all current: the view is sound after it. -/
theorem window_shows_sample : ViewSound (start.run id currentEvents) := by
  refine window_shows start_spec currentEvents ⟨trivial, trivial,
    trivial, trivial, trivial, ?_, trivial⟩
  intro read hread messageId hgiven
  have hreads : (((start.run id (currentEvents.take 5)).reads.map fun read =>
      read.stored.map (·.id))) = [["m1", "m2", "m3"]] := by decide
  have hall : (start.run id (currentEvents.take 5)).given = [("room", "m2")] := by decide
  obtain ⟨-, rfl⟩ : read.roomId = "room" ∧ messageId = "m2" := by
    have hmem : (read.roomId, messageId) ∈ (start.run id (currentEvents.take 5)).given := hgiven
    rw [hall] at hmem
    simpa using hmem
  have hmem : read.stored.map (·.id) ∈ (start.run id (currentEvents.take 5)).reads.map fun read =>
      read.stored.map (·.id) := List.mem_map_of_mem (List.mem_of_getElem? hread)
  rw [hreads, List.mem_singleton] at hmem
  rw [hmem]
  simp

end Mio.Interface
