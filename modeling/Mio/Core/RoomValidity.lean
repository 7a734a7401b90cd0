import Mio.Core.Room

/-!
# Every operation keeps the snapshot valid

`ValidSnapshot` says what a snapshot that passes `validateSnapshot` is: within its limits, with
valid and distinct identifiers, and with messages whose author and recipients are participants of
their room. `RoomStep` says what one operation can do, together with what it has checked by then:
it leaves the snapshot, or it makes one change to one room. From these, `RoomStep.valid` derives
that an operation keeps the snapshot valid, and so does a run of any length.
-/

namespace Mio.Core

open Library

/-! ## What the checks say -/

/-- The check of a text, as a statement. -/
theorem validText_iff {value : String} {maximum : ℕ} :
    validText value maximum = true ↔ value ≠ "" ∧ value.utf8ByteSize ≤ maximum := by
  simp only [validText, Bool.and_eq_true, Bool.not_eq_true', decide_eq_true_eq,
    Bool.eq_false_iff, ne_eq, String.isEmpty_iff]

/-- The check of a list of identifiers, as a statement. -/
theorem uniqueValidIdentifiers_iff {values : List String} :
    uniqueValidIdentifiers values = true ↔
      (∀ value ∈ values, validIdentifier value = true) ∧ values.Nodup := by
  rw [uniqueValidIdentifiers, insertDistinct_nil_isSome, List.map_id]

/-- What a message that passes its check is. -/
structure MessageShape (message : RoomMessage) (maximumBodyBytes : ℕ) : Prop where
  id : validIdentifier message.id = true
  roomId : validIdentifier message.roomId = true
  authorId : validIdentifier message.authorId = true
  recipients_length : message.recipients.length ≤ maximumMessageLinks
  recipients : uniqueValidIdentifiers message.recipients = true
  body : validText message.body maximumBodyBytes = true
  createdAt : validText message.createdAt 64 = true
  artifactIds_length : message.artifactIds.length ≤ maximumMessageLinks
  artifactIds : uniqueValidIdentifiers message.artifactIds = true

/-- The check of a message by itself, as a statement. -/
theorem validMessageShape_iff {message : RoomMessage} {maximumBodyBytes : ℕ} :
    validMessageShape message maximumBodyBytes = true ↔ MessageShape message maximumBodyBytes := by
  simp only [validMessageShape, Bool.and_eq_true, decide_eq_true_eq]
  constructor
  · rintro ⟨⟨⟨⟨⟨⟨⟨⟨h1, h2⟩, h3⟩, h4⟩, h5⟩, h6⟩, h7⟩, h8⟩, h9⟩
    exact ⟨h1, h2, h3, h4, h5, h6, h7, h8, h9⟩
  · intro h
    exact ⟨⟨⟨⟨⟨⟨⟨⟨h.id, h.roomId⟩, h.authorId⟩, h.recipients_length⟩, h.recipients⟩, h.body⟩,
      h.createdAt⟩, h.artifactIds_length⟩, h.artifactIds⟩

/-- A larger bound on the body allows every message that a smaller one does. -/
theorem MessageShape.mono {message : RoomMessage} {m n : ℕ} (h : MessageShape message m)
    (hmn : m ≤ n) : MessageShape message n := by
  obtain ⟨hne, hsize⟩ := validText_iff.mp h.body
  exact { h with body := validText_iff.mpr ⟨hne, by omega⟩ }

/-- A message of a valid room. -/
structure ValidMessage (room : Room) (message : RoomMessage) : Prop where
  shape : MessageShape message maximumMessageBodyBytes
  roomId : message.roomId = room.id
  authorId : message.authorId ∈ room.participantIds
  recipients : ∀ recipient ∈ message.recipients, recipient ∈ room.participantIds

/-- The check of a message in its room, as a statement. -/
theorem validRoomMessage_iff {room : Room} {message : RoomMessage} :
    validRoomMessage room room.participantIds message = true ↔ ValidMessage room message := by
  simp only [validRoomMessage, Bool.and_eq_true, validMessageShape_iff, beq_iff_eq,
    List.contains_iff_mem, List.all_eq_true]
  constructor
  · rintro ⟨⟨⟨h1, h2⟩, h3⟩, h4⟩
    exact ⟨h1, h2, h3, h4⟩
  · intro h
    exact ⟨⟨⟨h.shape, h.roomId⟩, h.authorId⟩, h.recipients⟩

/-- A room of a valid snapshot, among whose participants the room's are. -/
structure ValidRoom (participants : List String) (room : Room) : Prop where
  id : validIdentifier room.id = true
  name : validText room.name maximumDisplayNameBytes = true
  participantIds_length : room.participantIds.length ≤ maximumRoomParticipants
  messages_length : room.messages.length ≤ maximumRoomMessages
  participantIds_nodup : room.participantIds.Nodup
  participantIds : ∀ participantId ∈ room.participantIds, participantId ∈ participants
  messages : ∀ message ∈ room.messages, ValidMessage room message

/-- A valid snapshot. -/
structure ValidSnapshot (snapshot : RoomSnapshot) : Prop where
  schemaVersion : snapshot.schemaVersion = protocolVersion
  generatedAt : validText snapshot.generatedAt 64 = true
  participants_length : snapshot.participants.length ≤ maximumParticipants
  rooms_length : snapshot.rooms.length ≤ maximumRooms
  participants : ∀ participant ∈ snapshot.participants, validParticipant participant = true
  participants_nodup : (snapshot.participants.map (·.id)).Nodup
  rooms : ∀ room ∈ snapshot.rooms, ValidRoom (snapshot.participants.map (·.id)) room
  rooms_nodup : (snapshot.rooms.map (·.id)).Nodup
  messages_nodup : (snapshot.messages.map (·.id)).Nodup

/-- Without a repeated participant, the set of a room's participants is as large as their list. -/
theorem length_dedup_bne {values : List String} :
    (values.dedup.length != values.length) = false ↔ values.Nodup := by
  rw [bne_eq_false_iff_eq, ← List.dedup_eq_self]
  exact ⟨(List.dedup_sublist values).eq_of_length, congrArg List.length⟩

/-- One turn of the loop over the rooms. -/
theorem validateRooms_cons {participantIds : List String} {room : Room} {rooms : List Room}
    {roomIds messageIds : List String} :
    validateRooms participantIds (room :: rooms) roomIds messageIds = .ok () ↔
      (validIdentifier room.id = true ∧ validText room.name maximumDisplayNameBytes = true ∧
        room.participantIds.length ≤ maximumRoomParticipants ∧
        room.messages.length ≤ maximumRoomMessages ∧ room.id ∉ roomIds) ∧
      (room.participantIds.Nodup ∧ ∀ p ∈ room.participantIds, p ∈ participantIds) ∧
      ∃ messageIds', insertDistinct (validRoomMessage room room.participantIds.dedup) (·.id)
          room.messages messageIds = some messageIds' ∧
        validateRooms participantIds rooms (room.id :: roomIds) messageIds' = .ok () := by
  rw [validateRooms]
  dsimp only
  -- The checks come in the source's order: the room's own fields, its participants, its messages.
  split
  · rename_i hroom
    simp only [Bool.or_eq_true, Bool.not_eq_true', decide_eq_true_eq, List.contains_iff_mem]
      at hroom
    simp only [reduceCtorEq, false_iff]
    rintro ⟨⟨hid, hname, hplen, hmlen, hfresh⟩, -⟩
    rcases hroom with (((h | h) | h) | h) | h
    · simp [hid] at h
    · simp [hname] at h
    · omega
    · omega
    · exact hfresh h
  rename_i hroom
  simp only [Bool.or_eq_true, Bool.not_eq_true', decide_eq_true_eq, List.contains_iff_mem,
    not_or, Bool.not_eq_false, not_lt] at hroom
  obtain ⟨⟨⟨⟨hid, hname⟩, hplen⟩, hmlen⟩, hfresh⟩ := hroom
  split
  · rename_i hparticipants
    simp only [reduceCtorEq, false_iff]
    rintro ⟨-, ⟨hnodup, hsub⟩, -⟩
    -- Duplicates are found by comparing lengths, before each participant is looked up.
    rw [length_dedup_bne.mpr hnodup, Bool.false_or, List.any_eq_true] at hparticipants
    obtain ⟨p, hp, hout⟩ := hparticipants
    simp [hsub p (List.mem_dedup.mp hp)] at hout
  rename_i hparticipants
  rw [Bool.not_eq_true, Bool.or_eq_false_iff, length_dedup_bne, List.any_eq_false] at hparticipants
  obtain ⟨hnodup, hsub⟩ := hparticipants
  have hsub' : ∀ p ∈ room.participantIds, p ∈ participantIds := by
    intro p hp
    have := hsub p (List.mem_dedup.mpr hp)
    simpa using this
  split
  · rename_i hinsert
    simp [hinsert]
  · rename_i ids hinsert
    simp only [hid, hname, hplen, hmlen, hfresh, hnodup, hinsert, Option.some.injEq,
      exists_eq_left', not_false_eq_true, and_self, true_and]
    exact ⟨fun h => ⟨hsub', h⟩, And.right⟩

/-- The loop over the rooms succeeds exactly when each room is valid, and their identifiers and
those of their messages are distinct and new. The order in which the participants were collected
does not matter. -/
theorem validateRooms_eq_ok {participants participantIds : List String}
    (hmem : ∀ p, p ∈ participantIds ↔ p ∈ participants) (rooms : List Room)
    (roomIds messageIds : List String) :
    validateRooms participantIds rooms roomIds messageIds = .ok () ↔
      (∀ room ∈ rooms, ValidRoom participants room) ∧ (rooms.map (·.id)).Nodup ∧
        (∀ room ∈ rooms, room.id ∉ roomIds) ∧
        ((rooms.flatMap (·.messages)).map (·.id)).Nodup ∧
        ∀ message ∈ rooms.flatMap (·.messages), message.id ∉ messageIds := by
  -- By induction on the rooms, for any room and message ids that the ones before have used.
  induction rooms generalizing roomIds messageIds with
  | nil => simp [validateRooms]
  | cons room rooms ih =>
    rw [validateRooms_cons, List.forall_mem_cons, List.forall_mem_cons, List.map_cons,
      List.nodup_cons, List.flatMap_cons, List.map_append, List.nodup_append,
      List.forall_mem_append]
    simp only [ih, hmem, insertDistinct_eq_some_iff, List.mem_map, List.mem_cons, not_or,
      not_exists, not_and]
    constructor
    · rintro ⟨⟨hid, hname, hplen, hmlen, hfresh⟩, ⟨hnodup, hsub⟩, messageIds',
        ⟨hvalid, hdistinct, hnew, rfl⟩, hrooms, hrnodup, hrfresh, hmnodup, hmnew⟩
      rw [List.dedup_eq_self.mpr hnodup] at hvalid
      have hroom : ValidRoom participants room :=
        ⟨hid, hname, hplen, hmlen, hnodup, hsub, fun m hm => validRoomMessage_iff.mp (hvalid m hm)⟩
      refine ⟨⟨hroom, hrooms⟩, ⟨fun r hr => (hrfresh r hr).1, hrnodup⟩,
        ⟨hfresh, fun r hr => (hrfresh r hr).2⟩, ⟨hdistinct, hmnodup, ?_⟩, hnew, ?_⟩
      -- The ids of this room are among those that the later rooms may not use again.
      · rintro _ ⟨m, hm, rfl⟩ _ ⟨m', hm', rfl⟩ heq
        exact hmnew m' hm' (List.mem_append_left _ (List.mem_reverse.mpr
          (List.mem_map.mpr ⟨m, hm, heq⟩)))
      · intro m hm hmem'
        exact hmnew m hm (List.mem_append_right _ hmem')
    · rintro ⟨⟨hroom, hrooms⟩, ⟨hrfresh, hrnodup⟩, ⟨hfresh, hrfresh'⟩, ⟨hdistinct, hmnodup, hdisj⟩,
        hnew, hnew'⟩
      refine ⟨⟨hroom.id, hroom.name, hroom.participantIds_length, hroom.messages_length, hfresh⟩,
        ⟨hroom.participantIds_nodup, hroom.participantIds⟩, _, ⟨?_, hdistinct, hnew, rfl⟩, hrooms,
        hrnodup, fun r hr => ⟨hrfresh r hr, hrfresh' r hr⟩, hmnodup, ?_⟩
      · rw [List.dedup_eq_self.mpr hroom.participantIds_nodup]
        exact fun m hm => validRoomMessage_iff.mpr (hroom.messages m hm)
      · intro m hm hmem'
        rcases List.mem_append.mp hmem' with h | h
        · obtain ⟨m', hm', heq⟩ := List.mem_map.mp (List.mem_reverse.mp h)
          exact hdisj _ ⟨m', hm', rfl⟩ _ ⟨m, hm, rfl⟩ heq
        · exact hnew' m hm h

/-- The check accepts exactly the valid snapshots. -/
theorem validateSnapshot_eq_ok {snapshot : RoomSnapshot} :
    validateSnapshot snapshot = .ok () ↔ ValidSnapshot snapshot := by
  unfold validateSnapshot
  split
  -- Each of the guards denies one of the fields.
  · rename_i hguard
    simp only [Bool.or_eq_true, bne_iff_ne, Bool.not_eq_true', decide_eq_true_eq] at hguard
    simp only [reduceCtorEq, false_iff]
    intro h
    have h1 := h.participants_length
    have h2 := h.rooms_length
    rcases hguard with ((hg | hg) | hg) | hg
    · exact hg h.schemaVersion
    · simp [h.generatedAt] at hg
    · omega
    · omega
  rename_i hguard
  simp only [Bool.or_eq_true, bne_iff_ne, Bool.not_eq_true', decide_eq_true_eq, not_or,
    ne_eq, not_not, Bool.not_eq_false, not_lt] at hguard
  obtain ⟨⟨⟨hversion, hgenerated⟩, hplen⟩, hrlen⟩ := hguard
  -- The participants are inserted one by one, which fails for an invalid or a repeated one.
  split
  · rename_i hinsert
    simp only [reduceCtorEq, false_iff]
    intro h
    have hsome := insertDistinct_nil_isSome.mpr ⟨h.participants, h.participants_nodup⟩
    simp [hinsert] at hsome
  · rename_i participantIds hinsert
    obtain ⟨hvalid, hnodup, -, hids⟩ := insertDistinct_eq_some_iff.mp hinsert
    have hmem : ∀ p, p ∈ participantIds ↔ p ∈ snapshot.participants.map (·.id) := by
      intro p
      rw [← hids, List.append_nil, List.mem_reverse]
    rw [validateRooms_eq_ok hmem]
    constructor
    · rintro ⟨hrooms, hrnodup, -, hmnodup, -⟩
      exact ⟨hversion, hgenerated, hplen, hrlen, hvalid, hnodup, hrooms, hrnodup, hmnodup⟩
    · intro h
      exact ⟨h.rooms, h.rooms_nodup, by simp, h.messages_nodup, by simp⟩

/-! ## What an operation can do -/

/-- A room and those around it, where the room has the identifier. -/
structure RoomAt (snapshot : RoomSnapshot) (roomId : String) (before : List Room) (room : Room)
    (after : List Room) : Prop where
  rooms : snapshot.rooms = before ++ room :: after
  id : room.id = roomId

/-- The room at a place is one of the snapshot. -/
theorem RoomAt.mem {snapshot : RoomSnapshot} {roomId : String} {before after : List Room}
    {room : Room} (h : RoomAt snapshot roomId before room after) : room ∈ snapshot.rooms := by
  simp [h.rooms]

/-- A search by identifier splits the rooms at the one it finds, and that one is changed. -/
theorem roomAt_of_find? {snapshot : RoomSnapshot} {roomId : String} {room : Room}
    (h : snapshot.rooms.find? (fun room => room.id == roomId) = some room) :
    ∃ before after, RoomAt snapshot roomId before room after ∧
      ∀ f : Room → Room, modifyFirst (fun room => room.id == roomId) f snapshot.rooms =
        before ++ f room :: after := by
  obtain ⟨before, after, hrooms, -, hmodify⟩ := modifyFirst_of_find? h
  have hid : room.id = roomId := by simpa using List.find?_some h
  exact ⟨before, after, ⟨hrooms, hid⟩, hmodify⟩

/-- What a call can do to the snapshot, together with what it has checked by then. -/
inductive RoomStep (snapshot : RoomSnapshot) : RoomOperation → RoomSnapshot → Prop
  /-- A call that fails, or that finds its work done, changes nothing. -/
  | unchanged (operation : RoomOperation) : RoomStep snapshot operation snapshot
  /-- A new message is appended to its room. -/
  | append (draft : RoomMessageDraft) (before : List Room) (room : Room) (after : List Room)
    (hroom : RoomAt snapshot draft.message.roomId before room after)
    (hfresh : ∀ message ∈ snapshot.messages, message.id ≠ draft.message.id)
    (hcapacity : room.messages.length < maximumRoomMessages)
    (hauthor : draft.message.authorId ∈ room.participantIds)
    (hrecipients : ∀ recipient ∈ draft.message.recipients, recipient ∈ room.participantIds) :
    RoomStep snapshot (.appendMessage draft)
      { snapshot with
        generatedAt := draft.message.createdAt
        rooms := before ++ { room with messages := room.messages ++ [draft.message] } :: after }
  /-- A new room is put last. -/
  | create (draft : RoomCreateDraft)
    (hfresh : ∀ room ∈ snapshot.rooms, room.id ≠ draft.room.id)
    (hcapacity : snapshot.rooms.length < maximumRooms)
    (hparticipants : ∀ p ∈ draft.room.participantIds, p ∈ snapshot.participants.map (·.id)) :
    RoomStep snapshot (.createRoom draft)
      { snapshot with generatedAt := draft.createdAt, rooms := snapshot.rooms ++ [draft.room] }
  /-- A participant is put last in a room. -/
  | addParticipant (roomId participantId updatedAt : String) (before : List Room) (room : Room)
    (after : List Room) (hroom : RoomAt snapshot roomId before room after)
    (hupdated : validText updatedAt 64 = true)
    (hparticipant : participantId ∈ snapshot.participants.map (·.id))
    (hfresh : participantId ∉ room.participantIds)
    (hcapacity : room.participantIds.length < maximumRoomParticipants) :
    RoomStep snapshot (.addRoomParticipant roomId participantId updatedAt)
      { snapshot with
        generatedAt := updatedAt
        rooms := before ++
          { room with participantIds := room.participantIds ++ [participantId] } :: after }
  /-- A room is given another name. -/
  | rename (roomId name updatedAt : String) (before : List Room) (room : Room)
    (after : List Room) (hroom : RoomAt snapshot roomId before room after)
    (hupdated : validText updatedAt 64 = true)
    (hname : validText name maximumDisplayNameBytes = true) :
    RoomStep snapshot (.renameRoom roomId name updatedAt)
      { snapshot with
        generatedAt := updatedAt
        rooms := before ++ { room with name := name } :: after }
  /-- A participant that no message of the room names is taken out of it. -/
  | removeParticipant (roomId participantId updatedAt : String) (before : List Room)
    (room : Room) (after : List Room) (hroom : RoomAt snapshot roomId before room after)
    (hupdated : validText updatedAt 64 = true) (first last : List String)
    (hparticipantIds : room.participantIds = first ++ participantId :: last)
    (hunused : ∀ message ∈ room.messages,
      message.authorId ≠ participantId ∧ participantId ∉ message.recipients) :
    RoomStep snapshot (.removeRoomParticipant roomId participantId updatedAt)
      { snapshot with
        generatedAt := updatedAt
        rooms := before ++ { room with participantIds := first ++ last } :: after }
  /-- A room is deleted. -/
  | delete (roomId updatedAt : String) (before : List Room) (room : Room) (after : List Room)
    (hroom : RoomAt snapshot roomId before room after)
    (hupdated : validText updatedAt 64 = true) :
    RoomStep snapshot (.deleteRoom roomId updatedAt)
      { snapshot with generatedAt := updatedAt, rooms := before ++ after }

section Steps

variable (snapshot : RoomSnapshot)

/-- What `append_message` can do to a snapshot. -/
theorem appendMessage_step (draft : RoomMessageDraft) :
    RoomStep snapshot (.appendMessage draft) (appendMessage draft snapshot).2 := by
  unfold appendMessage
  dsimp only
  split
  · split <;> exact .unchanged _
  rename_i hfresh
  split
  · exact .unchanged _
  rename_i room hfind
  split_ifs with hcapacity hauthor hrecipients
  · exact .unchanged _
  · exact .unchanged _
  · exact .unchanged _
  obtain ⟨before, after, hroom, hmodify⟩ := roomAt_of_find? hfind
  dsimp only
  rw [hmodify]
  refine .append draft before room after hroom ?_ (by omega) (by simpa using hauthor) ?_
  · intro message hmessage
    have := List.find?_eq_none.mp hfresh message hmessage
    simpa using this
  · intro recipient hrecipient
    by_contra hout
    exact hrecipients (List.any_eq_true.mpr ⟨recipient, hrecipient, by simpa using hout⟩)

/-- What `create_room` can do to it. -/
theorem createRoom_step (draft : RoomCreateDraft) :
    RoomStep snapshot (.createRoom draft) (createRoom draft snapshot).2 := by
  unfold createRoom
  split
  · split <;> exact .unchanged _
  rename_i hfresh
  split_ifs with hcapacity hparticipants
  · exact .unchanged _
  · exact .unchanged _
  refine .create draft ?_ (by omega) ?_
  · intro room hroom
    have := List.find?_eq_none.mp hfresh room hroom
    simpa using this
  · intro p hp
    by_contra hout
    refine hparticipants (List.any_eq_true.mpr ⟨p, hp, ?_⟩)
    simpa using hout

/-- What `add_room_participant` can do to it. -/
theorem addRoomParticipant_step (roomId participantId updatedAt : String) :
    RoomStep snapshot (.addRoomParticipant roomId participantId updatedAt)
      (addRoomParticipant roomId participantId updatedAt snapshot).2 := by
  unfold addRoomParticipant
  split_ifs with harguments hparticipant
  · exact .unchanged _
  · exact .unchanged _
  split
  · exact .unchanged _
  rename_i room hfind
  split_ifs with hfresh hcapacity
  · exact .unchanged _
  · exact .unchanged _
  obtain ⟨before, after, hroom, hmodify⟩ := roomAt_of_find? hfind
  dsimp only
  rw [hmodify]
  refine .addParticipant roomId participantId updatedAt before room after hroom ?_ ?_
    (by simpa using hfresh) (by omega)
  · simp only [Bool.or_eq_true, not_or, Bool.not_eq_true', Bool.not_eq_false] at harguments
    exact harguments.2
  · simpa using hparticipant

/-- What `rename_room` can do to it. -/
theorem renameRoom_step (roomId name updatedAt : String) :
    RoomStep snapshot (.renameRoom roomId name updatedAt)
      (renameRoom roomId name updatedAt snapshot).2 := by
  unfold renameRoom
  split_ifs with harguments
  · exact .unchanged _
  split
  · exact .unchanged _
  rename_i room hfind
  split_ifs with hname
  · exact .unchanged _
  obtain ⟨before, after, hroom, hmodify⟩ := roomAt_of_find? hfind
  dsimp only
  rw [hmodify]
  simp only [Bool.or_eq_true, not_or, Bool.not_eq_true', Bool.not_eq_false] at harguments
  exact .rename roomId name updatedAt before room after hroom harguments.2 harguments.1.2

/-- What `remove_room_participant` can do to it. -/
theorem removeRoomParticipant_step (roomId participantId updatedAt : String) :
    RoomStep snapshot (.removeRoomParticipant roomId participantId updatedAt)
      (removeRoomParticipant roomId participantId updatedAt snapshot).2 := by
  unfold removeRoomParticipant
  split_ifs with harguments hparticipant
  · exact .unchanged _
  · exact .unchanged _
  split
  · exact .unchanged _
  rename_i room hfind
  split
  · exact .unchanged _
  rename_i found participantIds hremove
  split_ifs with hrequired hunused
  · exact .unchanged _
  · exact .unchanged _
  obtain ⟨before, after, hroom, hmodify⟩ := roomAt_of_find? hfind
  obtain ⟨hfound, first, last, hsplit, rfl⟩ := removeFirst_eq_some hremove
  obtain rfl : found = participantId := by simpa using hfound
  dsimp only
  rw [hmodify]
  simp only [Bool.or_eq_true, not_or, Bool.not_eq_true', Bool.not_eq_false] at harguments
  refine .removeParticipant roomId found updatedAt before room after hroom harguments.2 first last
    hsplit ?_
  intro message hmessage
  by_contra hused
  refine hunused (List.any_eq_true.mpr ⟨message, hmessage, ?_⟩)
  simp only [Bool.or_eq_true, beq_iff_eq, List.contains_iff_mem]
  tauto

/-- What `delete_room` can do to it. -/
theorem deleteRoom_step (roomId updatedAt : String) :
    RoomStep snapshot (.deleteRoom roomId updatedAt) (deleteRoom roomId updatedAt snapshot).2 := by
  unfold deleteRoom
  split_ifs with harguments hrequired
  · exact .unchanged _
  · exact .unchanged _
  split
  · exact .unchanged _
  rename_i room rooms hremove
  obtain ⟨hfound, before, after, hsplit, rfl⟩ := removeFirst_eq_some hremove
  simp only [Bool.or_eq_true, not_or, Bool.not_eq_true', Bool.not_eq_false] at harguments
  exact .delete roomId updatedAt before room after ⟨hsplit, by simpa using hfound⟩ harguments.2

/-- Every call is one of the steps. -/
theorem RoomOperation.apply_step (operation : RoomOperation) :
    RoomStep snapshot operation (operation.apply snapshot) := by
  cases operation with
  | appendMessage draft => exact appendMessage_step snapshot draft
  | createRoom draft => exact createRoom_step snapshot draft
  | addRoomParticipant roomId participantId updatedAt =>
    exact addRoomParticipant_step snapshot roomId participantId updatedAt
  | renameRoom roomId name updatedAt => exact renameRoom_step snapshot roomId name updatedAt
  | removeRoomParticipant roomId participantId updatedAt =>
    exact removeRoomParticipant_step snapshot roomId participantId updatedAt
  | deleteRoom roomId updatedAt => exact deleteRoom_step snapshot roomId updatedAt

end Steps

/-! ## An operation that fails changes nothing -/

/-- An operation that fails leaves the snapshot. -/
def KeepsOnError {ε α : Type} (operation : RoomSnapshot → Except ε α × RoomSnapshot) : Prop :=
  ∀ snapshot e after, operation snapshot = (.error e, after) → after = snapshot

/-- A message that is not written changes nothing. -/
theorem appendMessage_keepsOnError (draft : RoomMessageDraft) :
    KeepsOnError (appendMessage draft) := by
  intro snapshot e after h
  unfold appendMessage at h
  grind

/-- A room that is not made changes nothing. -/
theorem createRoom_keepsOnError (draft : RoomCreateDraft) : KeepsOnError (createRoom draft) := by
  intro snapshot e after h
  unfold createRoom at h
  grind

/-- A participant that is not added changes nothing. -/
theorem addRoomParticipant_keepsOnError (roomId participantId updatedAt : String) :
    KeepsOnError (addRoomParticipant roomId participantId updatedAt) := by
  intro snapshot e after h
  unfold addRoomParticipant at h
  grind

/-- A rename that fails changes nothing. -/
theorem renameRoom_keepsOnError (roomId name updatedAt : String) :
    KeepsOnError (renameRoom roomId name updatedAt) := by
  intro snapshot e after h
  unfold renameRoom at h
  grind

/-- A participant that is not removed changes nothing. -/
theorem removeRoomParticipant_keepsOnError (roomId participantId updatedAt : String) :
    KeepsOnError (removeRoomParticipant roomId participantId updatedAt) := by
  intro snapshot e after h
  unfold removeRoomParticipant at h
  grind

/-- A room that is not deleted changes nothing. -/
theorem deleteRoom_keepsOnError (roomId updatedAt : String) :
    KeepsOnError (deleteRoom roomId updatedAt) := by
  intro snapshot e after h
  unfold deleteRoom at h
  grind
/-! ## Validity is kept -/

/-- A draft's message is as valid as one that was restored, where its body may be longer. -/
theorem RoomMessageDraft.shape (draft : RoomMessageDraft) :
    MessageShape draft.message maximumMessageBodyBytes := by
  have hvalid := draft.valid
  simp only [validDraftMessage, Bool.and_eq_true, validMessageShape_iff] at hvalid
  exact hvalid.1.1.mono (by decide)

/-- A draft's room is valid where its participants are known. -/
theorem RoomCreateDraft.validRoom (draft : RoomCreateDraft) {participants : List String}
    (h : ∀ p ∈ draft.room.participantIds, p ∈ participants) :
    ValidRoom participants draft.room ∧ validText draft.createdAt 64 = true := by
  have hvalid := draft.valid
  simp only [validDraftRoom, Bool.and_eq_true, decide_eq_true_eq] at hvalid
  obtain ⟨⟨⟨⟨⟨hid, hname⟩, -⟩, hlength⟩, hunique⟩, hcreated⟩ := hvalid
  have hnodup := (uniqueValidIdentifiers_iff.mp hunique).2
  have hmessages := draft.noMessages
  exact ⟨⟨hid, hname, hlength, by simp [hmessages], hnodup, h, by simp [hmessages]⟩, hcreated⟩

/-- The messages of a snapshot, split at one of its rooms. -/
theorem RoomAt.messages {snapshot : RoomSnapshot} {roomId : String} {before after : List Room}
    {room : Room} (h : RoomAt snapshot roomId before room after) :
    snapshot.messages =
      before.flatMap (·.messages) ++ (room.messages ++ after.flatMap (·.messages)) := by
  simp [RoomSnapshot.messages, h.rooms]

/-- A room of a valid snapshot can be replaced by a valid one with its identifier and its messages,
followed by messages with new and distinct identifiers. -/
theorem ValidSnapshot.replace {snapshot : RoomSnapshot} (hs : ValidSnapshot snapshot)
    {roomId : String} {before after : List Room} {room : Room}
    (hroom : RoomAt snapshot roomId before room after) {room' : Room} {generatedAt : String}
    (added : List RoomMessage) (hgenerated : validText generatedAt 64 = true)
    (hroom' : ValidRoom (snapshot.participants.map (·.id)) room') (hid : room'.id = room.id)
    (hmessages : room'.messages = room.messages ++ added) (hadded : (added.map (·.id)).Nodup)
    (hfresh : ∀ new ∈ added, ∀ message ∈ snapshot.messages, message.id ≠ new.id) :
    ValidSnapshot { snapshot with generatedAt, rooms := before ++ room' :: after } := by
  have hrooms := hs.rooms
  have hlength := hs.rooms_length
  have hnodup := hs.rooms_nodup
  have hmnodup := hs.messages_nodup
  rw [hroom.rooms] at hrooms hlength hnodup
  refine ⟨hs.schemaVersion, hgenerated, hs.participants_length, ?_, hs.participants,
    hs.participants_nodup, ?_, ?_, ?_⟩
  · simpa using hlength
  -- The room that was replaced is valid by assumption, and the others stay as they were.
  · intro r hr
    rw [List.mem_append, List.mem_cons] at hr
    rcases hr with hr | rfl | hr
    · exact hrooms r (by simp [hr])
    · exact hroom'
    · exact hrooms r (by simp [hr])
  · simpa [hid] using hnodup
  · -- The new messages can be moved past those of the rooms that follow.
    have hperm : (RoomSnapshot.messages
        { snapshot with generatedAt, rooms := before ++ room' :: after }).Perm
        (snapshot.messages ++ added) := by
      rw [hroom.messages]
      simp only [RoomSnapshot.messages, List.flatMap_append, List.flatMap_cons, hmessages,
        List.append_assoc]
      exact (List.perm_append_comm.append_left _).append_left _
    rw [(hperm.map (·.id)).nodup_iff, List.map_append, List.nodup_append]
    refine ⟨hmnodup, hadded, ?_⟩
    simp only [List.mem_map]
    rintro _ ⟨message, hmessage, rfl⟩ _ ⟨new, hnew, rfl⟩
    exact hfresh new hnew message hmessage

/-- One call keeps a valid snapshot valid. -/
theorem RoomStep.valid {snapshot snapshot' : RoomSnapshot} {operation : RoomOperation}
    (hstep : RoomStep snapshot operation snapshot') (hs : ValidSnapshot snapshot) :
    ValidSnapshot snapshot' := by
  cases hstep with
  | unchanged => exact hs
  | append draft before room after hroom hfresh hcapacity hauthor hrecipients =>
    have hvalid := hs.rooms room hroom.mem
    have hshape := draft.shape
    refine hs.replace hroom [draft.message] hshape.createdAt ?_ rfl rfl (by simp)
      (by simpa using hfresh)
    refine { hvalid with messages_length := ?_, messages := ?_ }
    · rw [List.length_append, List.length_singleton]
      omega
    · intro message hmessage
      rw [List.mem_append, List.mem_singleton] at hmessage
      rcases hmessage with hmessage | rfl
      · have hold := hvalid.messages message hmessage
        exact ⟨hold.shape, hold.roomId, hold.authorId, hold.recipients⟩
      · exact ⟨hshape, hroom.id.symm, hauthor, hrecipients⟩
  | create draft hfresh hcapacity hparticipants =>
    obtain ⟨hvalid, hcreated⟩ := draft.validRoom hparticipants
    have hmessages := hs.messages_nodup
    refine { hs with generatedAt := hcreated, rooms_length := ?_, rooms := ?_, rooms_nodup := ?_,
                     messages_nodup := ?_ }
    · rw [List.length_append, List.length_singleton]
      omega
    · intro room hroom
      rw [List.mem_append, List.mem_singleton] at hroom
      rcases hroom with hroom | rfl
      · exact hs.rooms room hroom
      · exact hvalid
    · rw [List.map_append, List.map_singleton, List.nodup_append]
      refine ⟨hs.rooms_nodup, by simp, ?_⟩
      simpa using hfresh
    · simpa [RoomSnapshot.messages, draft.noMessages] using hmessages
  | addParticipant roomId participantId updatedAt before room after hroom hupdated hparticipant
      hfresh hcapacity =>
    have hvalid := hs.rooms room hroom.mem
    refine hs.replace hroom [] hupdated ?_ rfl (by simp) (by simp) (by simp)
    refine { hvalid with participantIds_length := ?_, participantIds_nodup := ?_,
                         participantIds := ?_, messages := ?_ }
    · rw [List.length_append, List.length_singleton]
      omega
    · rw [List.nodup_append]
      refine ⟨hvalid.participantIds_nodup, by simp, ?_⟩
      rintro p hp q hq rfl
      exact hfresh (List.mem_singleton.mp hq ▸ hp)
    · intro p hp
      rw [List.mem_append, List.mem_singleton] at hp
      rcases hp with hp | rfl
      · exact hvalid.participantIds p hp
      · exact hparticipant
    · intro message hmessage
      have hold := hvalid.messages message hmessage
      exact ⟨hold.shape, hold.roomId, List.mem_append_left _ hold.authorId,
        fun r hr => List.mem_append_left _ (hold.recipients r hr)⟩
  | rename roomId name updatedAt before room after hroom hupdated hname =>
    have hvalid := hs.rooms room hroom.mem
    refine hs.replace hroom [] hupdated ?_ rfl (by simp) (by simp) (by simp)
    refine { hvalid with name := hname, messages := ?_ }
    intro message hmessage
    have hold := hvalid.messages message hmessage
    exact ⟨hold.shape, hold.roomId, hold.authorId, hold.recipients⟩
  | removeParticipant roomId participantId updatedAt before room after hroom hupdated first last
      hsplit hunused =>
    have hvalid := hs.rooms room hroom.mem
    have hlength := hvalid.participantIds_length
    have hnodup := hvalid.participantIds_nodup
    rw [hsplit] at hlength hnodup
    -- A participant other than the removed one is still there.
    have hkept : ∀ p ∈ room.participantIds, p ≠ participantId → p ∈ first ++ last := by
      intro p hp hne
      rw [hsplit, List.mem_append, List.mem_cons] at hp
      rw [List.mem_append]
      tauto
    refine hs.replace hroom [] hupdated ?_ rfl (by simp) (by simp) (by simp)
    refine { hvalid with participantIds_length := ?_, participantIds_nodup := ?_,
                         participantIds := ?_, messages := ?_ }
    · simp only [List.length_append, List.length_cons] at hlength ⊢
      omega
    · exact hnodup.sublist ((List.sublist_cons_self _ _).append_left _)
    · intro p hp
      refine hvalid.participantIds p ?_
      rw [hsplit, List.mem_append, List.mem_cons]
      rw [List.mem_append] at hp
      tauto
    · intro message hmessage
      have hold := hvalid.messages message hmessage
      obtain ⟨hauthor, hrecipients⟩ := hunused message hmessage
      refine ⟨hold.shape, hold.roomId, hkept _ hold.authorId hauthor, fun r hr => ?_⟩
      exact hkept r (hold.recipients r hr) fun h => hrecipients (h ▸ hr)
  | delete roomId updatedAt before room after hroom hupdated =>
    have hsub : (before ++ after).Sublist snapshot.rooms := by
      rw [hroom.rooms]
      exact (List.sublist_cons_self _ _).append_left _
    have hlength := hsub.length_le
    have hlimit := hs.rooms_length
    refine { hs with generatedAt := hupdated, rooms_length := ?_, rooms := ?_, rooms_nodup := ?_,
                     messages_nodup := ?_ }
    · show (before ++ after).length ≤ maximumRooms
      omega
    · exact fun r hr => hs.rooms r (hsub.subset hr)
    · exact hs.rooms_nodup.sublist (hsub.map _)
    · have hmessages : (RoomSnapshot.messages
          { snapshot with generatedAt := updatedAt, rooms := before ++ after }).Sublist
          snapshot.messages := by
        rw [hroom.messages]
        simp only [RoomSnapshot.messages, List.flatMap_append]
        exact (List.sublist_append_right _ _).append_left _
      exact hs.messages_nodup.sublist (hmessages.map _)

/-- A run of calls keeps a valid snapshot valid. -/
theorem RoomOperation.run_valid {snapshot : RoomSnapshot} (hs : ValidSnapshot snapshot)
    (operations : List RoomOperation) : ValidSnapshot (run operations snapshot) := by
  induction operations generalizing snapshot with
  | nil => exact hs
  | cons operation operations ih => exact ih ((operation.apply_step snapshot).valid hs)

/-- A snapshot that is exported at any point of a run can be imported again: it passes the check,
and the store that is made from it holds it. -/
theorem validateSnapshot_run {snapshot : RoomSnapshot}
    (hs : validateSnapshot snapshot = .ok ()) (operations : List RoomOperation) :
    validateSnapshot (RoomOperation.run operations snapshot) = .ok () ∧
      ∃ source, InMemoryRoomSource.new (RoomOperation.run operations snapshot) = .ok source ∧
        source.snapshot = RoomOperation.run operations snapshot := by
  have hvalid : validateSnapshot (RoomOperation.run operations snapshot) = .ok () :=
    validateSnapshot_eq_ok.mpr
      (RoomOperation.run_valid (validateSnapshot_eq_ok.mp hs) operations)
  exact ⟨hvalid, ⟨_, hvalid⟩, InMemoryRoomSource.new_eq_ok hvalid, rfl⟩

/-- A snapshot with one room of two participants, in which one message was sent. -/
def sampleSnapshot : RoomSnapshot where
  schemaVersion := protocolVersion
  generatedAt := "2026-08-12T00:00:00+09:00"
  participants := [⟨"owner", "Owner", .human⟩, ⟨"codex", "Codex", .ai⟩]
  rooms :=
    [{ id := "room"
       name := "Room"
       participantIds := ["owner", "codex"]
       messages := [⟨"m1", "room", "owner", ["codex"], "Hello", "2026-08-12", [], none⟩] }]

/-- The sample snapshot stays valid over a rename. -/
theorem validateSnapshot_run_sample :
    validateSnapshot (RoomOperation.run [.renameRoom "room" "Den" "2026-08-13"] sampleSnapshot) =
        .ok () ∧
      ∃ source, InMemoryRoomSource.new
          (RoomOperation.run [.renameRoom "room" "Den" "2026-08-13"] sampleSnapshot) =
          .ok source ∧
        source.snapshot =
          RoomOperation.run [.renameRoom "room" "Den" "2026-08-13"] sampleSnapshot :=
  validateSnapshot_run (by decide) _

end Mio.Core
