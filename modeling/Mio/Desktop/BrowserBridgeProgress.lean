import Mio.Desktop.AiDispatchChecks
import Mio.Desktop.BrowserBridgeRuns

/-!
# When the queue of the browser bridge moves on

The first pending dispatch is offered until a reply to it is stored. For that, the rooms have to
hold what the dispatch needs (`Provides`): its message by a human, Gemini in its room, place for the
reply there, and the reply's identifier. The replies themselves never take it from another dispatch
(`Provides.store`). The room commands and restores can, and then no reply is ever stored and every
later dispatch waits for good.
-/

namespace Mio.Desktop.BrowserBridge

open Library Std Mio.Core Time RoomPersistence

/-! ## What a reply needs -/

/-- The rooms have the message of the dispatch, of a human author, and Gemini in its room. -/
structure Sourced (memory : RoomSnapshot) (dispatch : BrowserBridgeDispatch) (room : Room)
    (message : RoomMessage) : Prop where
  mem_rooms : room ∈ memory.rooms
  mem_messages : message ∈ room.messages
  roomId : room.id = dispatch.roomId
  messageId : message.id = dispatch.sourceMessageId
  human : isHumanParticipant memory message.authorId = true
  gemini : AiDispatch.geminiSearchParticipantId ∈ room.participantIds

/-- The rooms hold what the pending dispatches need for their replies. -/
structure Provides (hashes : Hashes) (memory : RoomSnapshot)
    (pending : List BrowserBridgeDispatch) :
    Prop where
  /-- Every dispatch has its message. -/
  sources : ∀ dispatch ∈ pending, ∃ room message, Sourced memory dispatch room message
  /-- Every room has place for the replies of its dispatches. -/
  capacity : ∀ room ∈ memory.rooms,
    room.messages.length + pending.countP (fun dispatch => dispatch.roomId = room.id) ≤
      maximumRoomMessages
  /-- No message has the identifier of a reply. -/
  free : ∀ dispatch ∈ pending, ∀ message ∈ memory.messages,
    message.id ≠ browserReplyMessageId hashes dispatch.sourceMessageId
  /-- The replies have distinct identifiers. -/
  distinct : (pending.map fun dispatch =>
    browserReplyMessageId hashes dispatch.sourceMessageId).Nodup

/-! ## The parts of a reply -/

/-- What is taken fits the size. -/
theorem takeWithin_size (size : ℕ) (chars : List Char) :
    (String.ofList (takeWithin size chars)).utf8ByteSize ≤ size := by
  rw [utf8ByteSize_ofList]
  induction chars generalizing size with
  | nil => simp [takeWithin]
  | cons c chars ih =>
    rw [takeWithin]
    split
    · have hrest := ih (size - c.utf8Size)
      rw [List.map_cons, List.sum_cons]
      omega
    · simp

/-- The stored body is not blank, and it fits. -/
theorem boundedReplyBody_eq_ok {input : String} (h : isBlank input = false) :
    ∃ body truncated, boundedReplyBody input = .ok (body, truncated) ∧ isBlank body = false ∧
      validText body maximumRoomWriteBodyBytes = true := by
  have hne : (trim input).isEmpty = false := h
  have htrim : isBlank (trim input) = false := isBlank_trim h
  unfold boundedReplyBody
  simp only [hne, Bool.false_eq_true, if_false]
  split
  · rename_i hsize
    refine ⟨_, _, rfl, htrim, validText_iff.mpr ⟨fun hempty => ?_, hsize⟩⟩
    rw [hempty] at hne
    cases hne
  · have hsuffix : isBlank replySuffix = false := by decide
    have hsuffixSize : replySuffix.utf8ByteSize ≤ maximumReplyBodyBytes := by decide
    have hsize := takeWithin_size (maximumReplyBodyBytes - replySuffix.utf8ByteSize)
      (trim input).toList
    have hmaximum : maximumReplyBodyBytes = maximumRoomWriteBodyBytes := rfl
    refine ⟨_, _, rfl, ?_, validText_iff.mpr ⟨?_, ?_⟩⟩
    · rw [Bool.eq_false_iff] at hsuffix ⊢
      intro hblank
      rw [isBlank_iff, String.toList_append] at hblank
      exact hsuffix (isBlank_iff.mpr fun c hc => hblank c (List.mem_append_right _ hc))
    · intro hempty
      have hpos : 0 < replySuffix.utf8ByteSize := by decide
      have hzero := congrArg String.utf8ByteSize hempty
      rw [String.utf8ByteSize_append, String.utf8ByteSize_empty] at hzero
      omega
    · rw [String.utf8ByteSize_append]
      omega

section Draft

variable {hashes : Hashes} {memory : RoomSnapshot} {dispatch : BrowserBridgeDispatch}
    {clock : Clock}
  {body : String}

/-- The id of a reply's message is a valid identifier. -/
theorem browserReplyMessageId_valid (hashes : Hashes) (sourceMessageId : String) :
    validIdentifier (browserReplyMessageId hashes sourceMessageId) = true := by
  obtain ⟨hsize, hplain⟩ := AiDispatch.lowerHex16_digits (hashes.messageId sourceMessageId)
  have hpre : validIdentifier "browser-reply-gemini-" = true := by decide
  have hpreSize : "browser-reply-gemini-".utf8ByteSize = 21 := rfl
  refine boundedBytes_append hpre ?_ fun byte hbyte index hindex => ?_
  · show "browser-reply-gemini-".utf8ByteSize + (Conductor.lowerHex16 _).utf8ByteSize ≤ 128
    omega
  · have := hplain byte hbyte
    simp only [AiDispatch.isPlain, Bool.or_eq_true, beq_iff_eq] at this
    simp only [Bool.or_eq_true, Bool.and_eq_true, beq_iff_eq, decide_eq_true_eq]
    tauto

/-- What a draft of a reply says. -/
theorem replyDraft_message {draft : RoomMessageDraft}
    (h : replyDraft hashes memory clock dispatch body = .ok draft) :
    (∃ sourceMessage,
        findMessage memory dispatch.roomId dispatch.sourceMessageId = .ok sourceMessage ∧
          draft.message.recipients = [sourceMessage.authorId]) ∧
      draft.message.id = browserReplyMessageId hashes dispatch.sourceMessageId ∧
      draft.message.roomId = dispatch.roomId ∧
      draft.message.authorId = AiDispatch.geminiSearchParticipantId ∧
        draft.message.body = body := by
  unfold replyDraft at h
  split at h
  · cases h
  rename_i sourceMessage hfound
  split at h
  · cases h
  split at h
  · cases h
  split at h
  · cases h
  rename_i made hmade
  obtain rfl := Except.ok.inj h
  unfold RoomMessageDraft.tryNew RoomMessageDraft.tryNewWithProvenance at hmade
  dsimp only at hmade
  split at hmade
  · obtain rfl := Except.ok.inj hmade
    exact ⟨⟨sourceMessage, hfound, rfl⟩, rfl, rfl, rfl, rfl⟩
  · cases hmade

/-- A reply to a dispatch that has its message is drafted. -/
theorem exists_replyDraft (hs : ValidSnapshot memory) {room : Room} {message : RoomMessage}
    (h : Sourced memory dispatch room message) (hbody : isBlank body = false)
    (hsize : validText body maximumRoomWriteBodyBytes = true)
    (hclock : (currentRfc3339Timestamp clock).isSome = true) :
    ∃ draft, replyDraft hashes memory clock dispatch body = .ok draft := by
  have hvalid := (hs.rooms room h.mem_rooms).messages message h.mem_messages
  have hfound : findMessage memory dispatch.roomId dispatch.sourceMessageId = .ok message :=
    (findMessage_eq_ok_iff hs).mpr ⟨List.mem_flatMap.mpr ⟨room, h.mem_rooms, h.mem_messages⟩,
      hvalid.roomId.trans h.roomId, h.messageId⟩
  -- All fields but the body are valid by themselves or come from the message that is answered.
  obtain ⟨createdAt, hcreatedAt⟩ := Option.isSome_iff_exists.mp hclock
  have htimestamp : validText createdAt 64 = true := by
    obtain ⟨htext, hne⟩ := graphicText_current hcreatedAt
    have hbytes := htext.utf8ByteSize_le
    exact validText_iff.mpr ⟨hne, by omega⟩
  have hroomId : validIdentifier dispatch.roomId = true := by
    rw [← h.roomId]
    exact (hs.rooms room h.mem_rooms).id
  have hgemini : validIdentifier AiDispatch.geminiSearchParticipantId = true := by decide
  have hrecipients : uniqueValidIdentifiers [message.authorId] = true :=
    uniqueValidIdentifiers_iff.mpr ⟨by simpa using hvalid.shape.authorId, List.nodup_singleton _⟩
  have hdraft : validDraftMessage
      { id := browserReplyMessageId hashes dispatch.sourceMessageId
        roomId := dispatch.roomId
        authorId := AiDispatch.geminiSearchParticipantId
        recipients := [message.authorId]
        body, createdAt, artifactIds := [], provenance := none } = true := by
    simp only [validDraftMessage, Bool.and_eq_true, Bool.not_eq_true']
    refine ⟨⟨validMessageShape_iff.mpr ?_, hbody⟩, rfl⟩
    exact
      { id := browserReplyMessageId_valid hashes _
        roomId := hroomId
        authorId := hgemini
        recipients_length := by simp [maximumMessageLinks]
        recipients := hrecipients
        body := hsize
        createdAt := htimestamp
        artifactIds_length := by simp [maximumMessageLinks]
        artifactIds := rfl }
  refine ⟨⟨_, hdraft⟩, ?_⟩
  unfold replyDraft
  rw [hfound]
  dsimp only
  rw [h.human, hcreatedAt]
  simp [RoomMessageDraft.tryNew, RoomMessageDraft.tryNewWithProvenance, hdraft]

/-- Where the rooms provide for a dispatch, a reply to it is appended. -/
theorem appendMessage_reply (hs : ValidSnapshot memory) {pending : List BrowserBridgeDispatch}
    (h : Provides hashes memory pending) (hdispatch : dispatch ∈ pending) {draft : RoomMessageDraft}
    (hdraft : replyDraft hashes memory clock dispatch body = .ok draft) :
    ∃ memory', Core.appendMessage draft memory = (.ok (.new .appended draft.message), memory') := by
  obtain ⟨⟨sourceMessage, hfound, hrecipients⟩, hid, hroomId, hauthorId, -⟩ :=
    replyDraft_message hdraft
  obtain ⟨room, message, hsourced⟩ := h.sources dispatch hdispatch
  obtain ⟨hmem, hmessageRoom, hmessageId⟩ := (findMessage_eq_ok_iff hs).mp hfound
  have hmessageMem : message ∈ memory.messages :=
    List.mem_flatMap.mpr ⟨room, hsourced.mem_rooms, hsourced.mem_messages⟩
  -- The source message is the one of the dispatch, as ids are distinct.
  have hsame : sourceMessage = message :=
    List.inj_on_of_nodup_map hs.messages_nodup hmem hmessageMem
      (hmessageId.trans hsourced.messageId.symm)
  have hvalid := (hs.rooms room hsourced.mem_rooms).messages message hsourced.mem_messages
  -- Nothing in the room has the id of the reply, which is kept free for it.
  have hfresh : memory.messages.find? (fun existing => existing.id == draft.message.id) = none := by
    rw [List.find?_eq_none]
    intro existing hexisting
    rw [hid]
    simpa using h.free dispatch hdispatch existing hexisting
  have hroom : memory.rooms.find? (fun room => room.id == draft.message.roomId) = some room := by
    rw [hroomId, ← hsourced.roomId]
    exact find?_key hs.rooms_nodup hsourced.mem_rooms
  -- The room has a place for each of its pending dispatches.
  have hplace : ¬maximumRoomMessages ≤ room.messages.length := by
    have hcapacity := h.capacity room hsourced.mem_rooms
    have hpos : 0 < pending.countP (fun dispatch => dispatch.roomId = room.id) :=
      List.countP_pos_iff.mpr ⟨dispatch, hdispatch, by simpa using hsourced.roomId.symm⟩
    omega
  have hauthor : room.participantIds.contains draft.message.authorId = true := by
    rw [hauthorId, List.contains_iff_mem]
    exact hsourced.gemini
  have hreaders : (draft.message.recipients.any fun recipient =>
      !room.participantIds.contains recipient) = false := by
    rw [hrecipients, hsame]
    simpa using hvalid.authorId
  unfold Core.appendMessage
  simp only [hfresh, hroom, if_neg hplace, hauthor, hreaders, Bool.not_true, Bool.false_eq_true,
    if_false]
  exact ⟨_, rfl⟩

end Draft

/-! ## What the replies leave to the others -/

section Store

variable {hashes : Hashes} {memory : RoomSnapshot} {pending : List BrowserBridgeDispatch}
  {dispatch : BrowserBridgeDispatch} {clock : Clock} {body : String}

/-- Fewer dispatches need less. -/
theorem Provides.sublist (h : Provides hashes memory pending) {rest : List BrowserBridgeDispatch}
    (hrest : rest.Sublist pending) : Provides hashes memory rest where
  sources := fun dispatch hdispatch => h.sources dispatch (hrest.subset hdispatch)
  capacity := by
    intro room hroom
    have hcapacity := h.capacity room hroom
    have hcount := hrest.countP_le (p := fun dispatch => dispatch.roomId = room.id)
    omega
  free := fun dispatch hdispatch => h.free dispatch (hrest.subset hdispatch)
  distinct := h.distinct.sublist (hrest.map _)

/-- A stored reply leaves what the other dispatches need. -/
theorem Provides.store (h : Provides hashes memory pending) (hdispatch : dispatch ∈ pending)
    {draft : RoomMessageDraft} (hdraft : replyDraft hashes memory clock dispatch body = .ok draft) :
    Provides hashes (Core.appendMessage draft memory).2
      (pending.filter fun other => other.sourceMessageId ≠ dispatch.sourceMessageId) := by
  obtain ⟨-, hid, hroomId, -, -⟩ := replyDraft_message hdraft
  have hrest : (pending.filter fun other =>
      other.sourceMessageId ≠ dispatch.sourceMessageId).Sublist pending := List.filter_sublist
  have hless := h.sublist hrest
  have hstep := appendMessage_step memory draft
  generalize (Core.appendMessage draft memory).2 = memory' at hstep
  cases hstep with
  | unchanged => exact hless
  | append _ before room after hroom hfresh hcapacity hauthor hrecipients =>
    have hmessages : ∀ message, message ∈ (before ++ { room with
        messages := room.messages ++ [draft.message] } :: after).flatMap (·.messages) →
        message ∈ memory.messages ∨ message = draft.message := by
      intro message hmessage
      rw [hroom.messages]
      simp only [List.flatMap_append, List.flatMap_cons, List.mem_append, List.mem_singleton]
        at hmessage ⊢
      tauto
    constructor
    · -- The room has one message more, and it is the same otherwise.
      intro other hother
      obtain ⟨source, message, hsourced⟩ := hless.sources other hother
      have hmem := hsourced.mem_rooms
      rw [hroom.rooms, List.mem_append, List.mem_cons] at hmem
      obtain hbefore | rfl | hafter := hmem
      · exact ⟨source, message, { hsourced with mem_rooms := by simp [hbefore] }⟩
      · exact ⟨_, message,
          { mem_rooms := List.mem_append_right _ List.mem_cons_self
            mem_messages := List.mem_append_left _ hsourced.mem_messages
            roomId := hsourced.roomId
            messageId := hsourced.messageId
            human := hsourced.human
            gemini := hsourced.gemini }⟩
      · exact ⟨source, message, { hsourced with mem_rooms := by simp [hafter] }⟩
    · -- The reply takes the place that its dispatch gives up.
      intro other hother
      rw [List.mem_append, List.mem_cons] at hother
      obtain hbefore | rfl | hafter := hother
      · exact hless.capacity other (by simp [hroom.rooms, hbefore])
      · have hold := h.capacity room hroom.mem
        have hsplit := List.countP_eq_countP_filter_add pending
          (fun dispatch => dispatch.roomId = room.id)
          (fun other => other.sourceMessageId ≠ dispatch.sourceMessageId)
        have hown : 0 < (pending.filter fun other =>
            !decide (other.sourceMessageId ≠ dispatch.sourceMessageId)).countP
              (fun dispatch => dispatch.roomId = room.id) := by
          rw [List.countP_pos_iff]
          refine ⟨dispatch, List.mem_filter.mpr ⟨hdispatch, by simp⟩, ?_⟩
          simpa [← hroomId] using hroom.id.symm
        dsimp only
        rw [List.length_append, List.length_singleton]
        omega
      · exact hless.capacity other (by simp [hroom.rooms, hafter])
    -- The reply has the id of its own dispatch, and the other dispatches have other ids.
    · intro other hother message hmessage
      obtain hold | rfl := hmessages message hmessage
      · exact hless.free other hother message hold
      · rw [hid]
        intro heq
        obtain ⟨hpending, hne⟩ := List.mem_filter.mp hother
        have hsame := List.inj_on_of_nodup_map h.distinct hdispatch hpending heq
        rw [hsame] at hne
        simp at hne
    · exact hless.distinct

end Store

/-! ## The pending dispatches -/

section Pending

variable {m : Machine}

/-- In a sound machine a dispatch is pending exactly when its source message is kept so. -/
theorem Machine.Sound.mem_pending (h : m.Sound) {dispatch : BrowserBridgeDispatch} :
    dispatch ∈ m.ledger.pending ↔
      m.ledger.states[dispatch.sourceMessageId]? = some (.pending dispatch) := by
  unfold BrowserBridgeLedger.pending
  rw [List.mem_filterMap]
  constructor
  · rintro ⟨sourceMessageId, -, hbind⟩
    obtain ⟨state, hstate, hpending⟩ := Option.bind_eq_some_iff.mp hbind
    obtain rfl := pendingDispatch_eq_some.mp hpending
    have hown := (h.own _ _ hstate).sourceMessageId
    dsimp only [BrowserDispatchState.dispatch] at hown
    rw [hown, hstate]
  · intro hstate
    refine ⟨dispatch.sourceMessageId, h.inOrder.mem_order_iff.mpr ?_, by rw [hstate]; rfl⟩
    rw [isPendingAt, hstate]
    rfl

/-- There is one dispatch of a message. -/
theorem Machine.Sound.pending_ext (h : m.Sound) {dispatch other : BrowserBridgeDispatch}
    (hdispatch : dispatch ∈ m.ledger.pending) (hother : other ∈ m.ledger.pending)
    (hsame : other.sourceMessageId = dispatch.sourceMessageId) : other = dispatch := by
  rw [h.mem_pending] at hdispatch hother
  rw [hsame, hdispatch] at hother
  exact (BrowserDispatchState.pending.inj (Option.some.inj hother)).symm

/-- A message that is queued the first time waits last. -/
theorem Machine.Sound.pending_push (h : m.Sound) {dispatch : BrowserBridgeDispatch}
    (hfresh : dispatch.sourceMessageId ∉ m.ledger.states) :
    BrowserBridgeLedger.pending
        { order := m.ledger.order ++ [dispatch.sourceMessageId]
          states := m.ledger.states.insert dispatch.sourceMessageId (.pending dispatch) } =
      m.ledger.pending ++ [dispatch] := by
  unfold BrowserBridgeLedger.pending
  rw [List.filterMap_append]
  congr 1
  · refine List.filterMap_congr fun id hid => ?_
    have hne : id ≠ dispatch.sourceMessageId := by
      rintro rfl
      have hpending := h.inOrder.mem_order_iff.mp hid
      rw [isPendingAt, ExtTreeMap.getElem?_eq_none hfresh] at hpending
      cases hpending
    rw [ExtTreeMap.getElem?_insert, if_neg (by simpa using hne.symm)]
  · simp [pendingDispatch]

/-- A dispatch that is completed no longer waits. -/
theorem Machine.Sound.pending_settle (h : m.Sound) (sourceMessageId : String)
    (dispatch : BrowserBridgeDispatch) (message : RoomMessage) :
    BrowserBridgeLedger.pending
        { order := m.ledger.order.filter fun id => id ≠ sourceMessageId
          states := m.ledger.states.insert sourceMessageId (.completed dispatch message) } =
      m.ledger.pending.filter fun other => other.sourceMessageId ≠ sourceMessageId := by
  have hfilter : ∀ id, (m.ledger.states[id]?.bind pendingDispatch).filter
      (fun other => other.sourceMessageId ≠ sourceMessageId) =
        if id = sourceMessageId then none else m.ledger.states[id]?.bind pendingDispatch := by
    intro id
    rcases hstate : m.ledger.states[id]? with _ | ⟨other | ⟨other, message⟩⟩
    · simp
    · have hown : other.sourceMessageId = id := (h.own _ _ hstate).sourceMessageId
      show Option.filter _ (some other) = if id = sourceMessageId then none else some other
      rw [Option.filter_some, hown]
      by_cases hid : id = sourceMessageId <;> simp [hid]
    · simp [pendingDispatch]
  unfold BrowserBridgeLedger.pending
  rw [List.filterMap_filter, List.filter_filterMap]
  refine List.filterMap_congr fun id _ => ?_
  rw [hfilter]
  by_cases hid : id = sourceMessageId
  · simp [hid]
  · rw [if_pos (by simpa using hid), if_neg hid, ExtTreeMap.getElem?_insert,
      if_neg (by simpa using Ne.symm hid)]

/-- The first dispatch is not among the others. -/
theorem Machine.Sound.pending_tail (h : m.Sound) {dispatch : BrowserBridgeDispatch}
    {rest : List BrowserBridgeDispatch} (hpending : m.ledger.pending = dispatch :: rest) :
    (m.ledger.pending.filter fun other =>
      other.sourceMessageId ≠ dispatch.sourceMessageId) = rest := by
  have hnodup : m.ledger.pending.Nodup := by
    unfold BrowserBridgeLedger.pending
    refine h.inOrder.order_nodup.filterMap ?_
    intro id id' other hother hother'
    obtain ⟨state, hstate, hpending⟩ := Option.bind_eq_some_iff.mp hother
    obtain ⟨state', hstate', hpending'⟩ := Option.bind_eq_some_iff.mp hother'
    obtain rfl := pendingDispatch_eq_some.mp hpending
    obtain rfl := pendingDispatch_eq_some.mp hpending'
    exact (h.own _ _ hstate).sourceMessageId.symm.trans (h.own _ _ hstate').sourceMessageId
  rw [hpending] at hnodup
  rw [hpending, List.filter_cons_of_neg (by simp), List.filter_eq_self]
  intro other hother
  have hne : other.sourceMessageId ≠ dispatch.sourceMessageId := fun hsame => by
    have heq := h.pending_ext (by rw [hpending]; exact List.mem_cons_self)
      (by rw [hpending]; exact List.mem_cons_of_mem _ hother) hsame
    rw [heq] at hother
    exact (List.nodup_cons.mp hnodup).1 hother
  simpa using hne

end Pending

/-! ## Runs that keep what the dispatches need -/

/-- A message that is queued has what its reply needs, and a room command or a restore leaves what
the pending dispatches need. -/
def Spares (hashes : Hashes) (serde : Serde PersistedRoomFile) (m : Machine) (event : Event) :
    Prop :=
  m.source.running = true →
    match event with
    | .queue sourceMessage prompt nanoseconds =>
      sourceMessage.id ∉ m.ledger.states → ValidPrompt prompt →
        Provides hashes m.source.memory
          (m.ledger.pending ++ [queuedDispatch hashes sourceMessage prompt nanoseconds])
    | .call call faults =>
      Provides hashes (RoomSource.apply serde m.source (call, faults)).memory m.ledger.pending
    | .nextDispatch => True
    | .completeReply _ _ _ _ => True

/-- A reply to the dispatch that the bridge has to store: it has the token, its page is Google's,
its body is not blank, the clock can be read, and the rooms are persisted. -/
structure WellFormedReply (hashes : Hashes) (serde : Serde PersistedRoomFile) (m : Machine)
    (dispatch : BrowserBridgeDispatch) (faults : List Fault) (clock : Clock)
    (input : BrowserBridgeReplyInput) : Prop where
  isFor : input.isFor dispatch = true
  sourceUrl : validGoogleSource input.sourceUrl = true
  body : isBlank input.body = false
  timestamp : (currentRfc3339Timestamp clock).isSome = true
  persisted : ∀ body truncated draft, boundedReplyBody input.body = .ok (body, truncated) →
    replyDraft hashes m.source.memory clock dispatch body = .ok draft →
    ∃ world, (persist serde (Core.appendMessage draft m.source.memory).2).run faults
      m.source.world = (.done (), world)

/-- The queue is not blocked: every pending dispatch has its message, and the first of them, which
is the one that is offered, gives way to the next with every reply that has to be stored. -/
structure Unblocked (hashes : Hashes) (serde : Serde PersistedRoomFile) (m : Machine) : Prop where
  sources : ∀ dispatch ∈ m.ledger.pending, ∃ message,
    findMessage m.source.memory dispatch.roomId dispatch.sourceMessageId = .ok message
  moves : ∀ dispatch rest, m.ledger.pending = dispatch :: rest →
    nextDispatch m.ledger = some dispatch ∧
      ∀ iteration faults clock input,
        WellFormedReply hashes serde m dispatch faults clock input →
        ∃ success, (m.reply hashes serde iteration faults clock input).answer = some (.ok success) ∧
          success.status = "appended" ∧
          (m.reply hashes serde iteration faults clock input).ledger.pending = rest

section Runs

variable {hashes : Hashes} {serde : Serde PersistedRoomFile} {m : Machine}

/-- A step that spares the pending dispatches leaves what they need. -/
theorem step_provides (hserde : serde.RoundTrips) (hsound : m.Sound)
    (hagrees : RoomSource.Agrees serde m.source.memory m.source.world.dir)
    (h : Provides hashes m.source.memory m.ledger.pending) {event : Event}
    (hspares : Spares hashes serde m event) :
    Provides hashes (step hashes serde m event).source.memory
      (step hashes serde m event).ledger.pending := by
  have hcases := @step_cases hashes serde m hserde hsound hagrees event
  generalize step hashes serde m event = m' at hcases
  cases hcases with
  -- Nothing is queued or settled, so only the rooms can have changed, and the condition speaks of
  -- that.
  | kept event source hafter hsource =>
    dsimp only
    obtain hsame | ⟨call, faults, rfl, rfl⟩ := hsource
    · rw [hsame]
      exact h
    · by_cases hrunning : m.source.running = true
      · exact hspares hrunning
      · have hstopped : RoomSource.apply serde m.source (call, faults) = m.source := by
          rw [RoomSource.apply, if_neg hrunning]
        rw [hstopped]
        exact h
  | queued sourceMessage prompt nanoseconds hrunning hfresh hprompt =>
    have hpending := @Machine.Sound.pending_push m hsound
      (queuedDispatch hashes sourceMessage prompt nanoseconds) hfresh
    have hneeded := hspares hrunning hfresh hprompt
    rw [← hpending] at hneeded
    exact hneeded
  | stored iteration faults clock input sourceMessageId dispatch body truncated draft saved memory
      world success hstate hfor hdraft happend hsuccess hafter =>
    have hown : dispatch.sourceMessageId = sourceMessageId :=
      (hsound.own _ _ hstate).sourceMessageId
    -- A reply settles the dispatch whose place it takes.
    have hdispatch : dispatch ∈ m.ledger.pending := by
      rw [hsound.mem_pending, hown, hstate]
    have hstored := h.store hdispatch hdraft
    rw [happend, hown] at hstored
    dsimp only
    rw [hsound.pending_settle]
    exact hstored

/-- So do the steps of a run. -/
theorem run_provides (hserde : serde.RoundTrips) (events : List Event) (hsound : m.Sound)
    (hagrees : RoomSource.Agrees serde m.source.memory m.source.world.dir)
    (h : Provides hashes m.source.memory m.ledger.pending)
    (hspares : ∀ before event rest, events = before ++ event :: rest →
      Spares hashes serde (run hashes serde before m) event) :
    Provides hashes (run hashes serde events m).source.memory
      (run hashes serde events m).ledger.pending := by
  induction events generalizing m with
  | nil => exact h
  | cons event events ih =>
    obtain ⟨hsound', hagrees'⟩ := @step_sound hashes serde m hserde hsound hagrees event
    have hfirst := step_provides hserde hsound hagrees h (hspares [] event events rfl)
    refine ih hsound' hagrees' hfirst fun before other rest hevents => ?_
    exact hspares (event :: before) other rest (by rw [hevents]; rfl)

/-- The reply to a dispatch that is alone with its identifier finds it. -/
theorem Machine.Sound.findDispatch_of_isFor (h : m.Sound) {dispatch : BrowserBridgeDispatch}
    (hdispatch : dispatch ∈ m.ledger.pending)
    (hvalid : validIdentifier dispatch.roomId = true ∧
      validIdentifier dispatch.sourceMessageId = true)
    {input : BrowserBridgeReplyInput} (hfor : input.isFor dispatch = true) (iteration : Iteration) :
    findDispatch iteration input m.ledger.states = some dispatch.sourceMessageId := by
  have hstate := h.mem_pending.mp hdispatch
  have hown := h.own _ _ hstate
  dsimp only [BrowserDispatchState.dispatch] at hown
  simp only [BrowserBridgeReplyInput.isFor, Bool.and_eq_true, beq_iff_eq] at hfor
  cases hfind : findDispatch iteration input m.ledger.states with
  | none =>
    unfold findDispatch at hfind
    rw [List.findSome?_eq_none_iff] at hfind
    have hmem : (dispatch.sourceMessageId, .pending dispatch) ∈ iteration.entries m.ledger.states :=
      (iteration.perm _).mem_iff.mpr (ExtTreeMap.mem_toList_iff_getElem?_eq_some.mpr hstate)
    have hnone := hfind _ hmem
    simp [BrowserBridgeReplyInput.isFor, hfor] at hnone
  | some sourceMessageId =>
    obtain ⟨found, hfound, hmatches⟩ := findDispatch_eq_some hfind
    simp only [BrowserBridgeReplyInput.isFor, Bool.and_eq_true, beq_iff_eq] at hmatches
    have hown' := h.own _ _ hfound
    dsimp only [BrowserDispatchState.dispatch] at hown'
    have hids : found.dispatchId = dispatch.dispatchId := hmatches.1.trans hfor.1.symm
    rw [hown.dispatchId, hown'.dispatchId] at hids
    rw [← (dispatchId_inj hvalid.1 hvalid.2 hids).2, hown'.sourceMessageId]

/-- Where the rooms provide for the pending dispatches, the queue is not blocked. -/
theorem Provides.unblocked (hsound : m.Sound)
    (hagrees : RoomSource.Agrees serde m.source.memory m.source.world.dir)
    (h : Provides hashes m.source.memory m.ledger.pending) : Unblocked hashes serde m := by
  have hs := validateSnapshot_eq_ok.mp hagrees.valid
  -- Each pending dispatch still has its source message.
  have hfound : ∀ dispatch ∈ m.ledger.pending, ∃ message,
      findMessage m.source.memory dispatch.roomId dispatch.sourceMessageId = .ok message := by
    intro dispatch hdispatch
    obtain ⟨room, message, hsourced⟩ := h.sources dispatch hdispatch
    have hvalid := (hs.rooms room hsourced.mem_rooms).messages message hsourced.mem_messages
    exact ⟨message, (findMessage_eq_ok_iff hs).mpr
      ⟨List.mem_flatMap.mpr ⟨room, hsourced.mem_rooms, hsourced.mem_messages⟩,
        hvalid.roomId.trans hsourced.roomId, hsourced.messageId⟩⟩
  refine ⟨hfound, fun dispatch rest hpending => ⟨?_, ?_⟩⟩
  · rw [nextDispatch_eq_head?, hpending]
    rfl
  intro iteration faults clock input hinput
  have hdispatch : dispatch ∈ m.ledger.pending := by
    rw [hpending]
    exact List.mem_cons_self
  obtain ⟨room, message, hsourced⟩ := h.sources dispatch hdispatch
  obtain ⟨body, truncated, hbounded, hbody, hsize⟩ := boundedReplyBody_eq_ok hinput.body
  obtain ⟨draft, hdraft⟩ :=
    @exists_replyDraft hashes _ _ _ _ hs room message hsourced hbody hsize hinput.timestamp
  obtain ⟨memory', happend⟩ := appendMessage_reply hs h hdispatch hdraft
  obtain ⟨world, hpersisted⟩ := hinput.persisted body truncated draft hbounded hdraft
  -- The reply is for the dispatch at the head of the queue, which is the one the ledger finds.
  have hstate := hsound.mem_pending.mp hdispatch
  have hfind := hsound.findDispatch_of_isFor hdispatch (validIdentifier_of_replyDraft hdraft)
    hinput.isFor iteration
  -- The room takes the reply, and the disk takes the room.
  have hrun : (RoomSource.appendMessage serde draft m.source.memory).run faults m.source.world =
      (.done (.ok (.new .appended draft.message), memory'), world) := by
    unfold RoomSource.appendMessage
    rw [RoomSource.write_result (appendMessage_keepsOnError draft) hagrees.valid, happend]
    rw [happend] at hpersisted
    dsimp only at hpersisted ⊢
    rw [hpersisted]
  have hreply : m.reply hashes serde iteration faults clock input =
      storeReply serde faults dispatch.sourceMessageId dispatch truncated draft m.ledger
        m.source := by
    unfold Machine.reply completeReply
    simp only [hinput.sourceUrl, hfind, hstate, hbounded, hdraft, Bool.not_true,
      Bool.false_eq_true, if_false]
  rw [hreply, storeReply, hrun]
  refine ⟨_, rfl, rfl, ?_⟩
  dsimp only
  rw [hsound.pending_settle, hsound.pending_tail hpending]

/-- While its message is gone, the first pending dispatch stays the first, whatever happens. -/
theorem step_blocked (hserde : serde.RoundTrips) (hsound : m.Sound)
    (hagrees : RoomSource.Agrees serde m.source.memory m.source.world.dir)
    {dispatch : BrowserBridgeDispatch} (hnext : nextDispatch m.ledger = some dispatch)
    (hgone : ∀ message,
      findMessage m.source.memory dispatch.roomId dispatch.sourceMessageId ≠ .ok message)
    (event : Event) : nextDispatch (step hashes serde m event).ledger = some dispatch := by
  rw [nextDispatch_eq_head?] at hnext ⊢
  obtain ⟨rest, hpending⟩ := List.head?_eq_some_iff.mp hnext
  have hcases := @step_cases hashes serde m hserde hsound hagrees event
  generalize step hashes serde m event = m' at hcases
  cases hcases with
  | kept event source hafter hsource => exact hnext
  | queued sourceMessage prompt nanoseconds hrunning hfresh hprompt =>
    have hpush := @Machine.Sound.pending_push m hsound
      (queuedDispatch hashes sourceMessage prompt nanoseconds) hfresh
    dsimp only [queuedDispatch] at hpush ⊢
    rw [hpush, hpending]
    rfl
  | stored iteration faults clock input sourceMessageId other body truncated draft saved memory
      world success hstate hfor hdraft happend hsuccess hafter =>
    -- The stored reply is to a dispatch whose message was found.
    obtain ⟨⟨message, hfound, -⟩, -⟩ := replyDraft_message hdraft
    have hown : other.sourceMessageId = sourceMessageId := (hsound.own _ _ hstate).sourceMessageId
    have hne : dispatch.sourceMessageId ≠ sourceMessageId := by
      intro hsame
      have hdispatch : dispatch ∈ m.ledger.pending := by
        rw [hpending]
        exact List.mem_cons_self
      have hstate' := hsound.mem_pending.mp hdispatch
      rw [hsame, hstate] at hstate'
      obtain rfl := BrowserDispatchState.pending.inj (Option.some.inj hstate')
      exact hgone message hfound
    dsimp only
    rw [hsound.pending_settle, hpending, List.filter_cons_of_pos (by simpa using hne)]
    rfl

end Runs

/-- From every start of the application: in a run that spares the pending dispatches, the queue is
never blocked. And in every run, the first dispatch stays the first as long as its message is
gone. -/
theorem queue_unblocked {serde : Serde PersistedRoomFile} (hserde : serde.RoundTrips)
    (hashes : Hashes) {w0 w : World} {startFaults : List Fault} {memory : RoomSnapshot}
    (hstart : (RoomSource.start serde).run startFaults w0 = (.done memory, w))
    (events : List Event) :
    let first := Machine.start { memory, world := w, running := true }
    ((∀ before event rest, events = before ++ event :: rest →
        Spares hashes serde (run hashes serde before first) event) →
      ∀ before, before <+: events → Unblocked hashes serde (run hashes serde before first)) ∧
    ∀ before event rest, events = before ++ event :: rest → ∀ dispatch,
      nextDispatch (run hashes serde before first).ledger = some dispatch →
      (∀ message, findMessage (run hashes serde before first).source.memory dispatch.roomId
        dispatch.sourceMessageId ≠ .ok message) →
      nextDispatch (run hashes serde (before ++ [event]) first).ledger = some dispatch := by
  intro first
  have hends := Prog.run_wp _ startFaults w0 (RoomSource.start_wp hserde w0)
  rw [hstart] at hends
  -- At the start nothing is pending.
  have hfirst : Provides hashes first.source.memory first.ledger.pending := by
    have hempty : first.ledger.pending = [] := rfl
    rw [hempty]
    refine ⟨fun _ h => (List.not_mem_nil h).elim, fun room hroom => ?_,
      fun _ h => (List.not_mem_nil h).elim, List.nodup_nil⟩
    have hvalid := (validateSnapshot_eq_ok.mp hends.2.valid).rooms room hroom
    simpa using hvalid.messages_length
  constructor
  · rintro hspares before ⟨after, rfl⟩
    obtain ⟨hsound, hagrees⟩ := @run_sound hashes serde first hserde before (sound_start _) hends.2
    refine Provides.unblocked hsound hagrees ?_
    refine run_provides hserde before (sound_start _) hends.2 hfirst fun earlier event rest h => ?_
    exact hspares earlier event (rest ++ after) (by rw [h]; simp)
  -- The room of the head is gone: no event gets past it.
  · intro before event rest _ dispatch hnext hgone
    obtain ⟨hsound, hagrees⟩ := @run_sound hashes serde first hserde before (sound_start _) hends.2
    rw [run_concat]
    exact step_blocked hserde hsound hagrees hnext hgone event

namespace Sample

/-- The bundled rooms have what the reply to the welcome needs. -/
theorem provides_welcome : Provides hashes bundledSnapshot
    [queuedDispatch hashes welcome "prompt" 5] where
  sources := by
    intro dispatch hdispatch
    obtain rfl := List.mem_singleton.mp hdispatch
    obtain ⟨room, hroom⟩ : ∃ room, bundledSnapshot.rooms[0]? = some room := ⟨_, rfl⟩
    refine ⟨room, welcome, ?_⟩
    obtain rfl := (Option.some.inj hroom).symm
    exact
      { mem_rooms := List.mem_of_getElem? hroom
        mem_messages := List.mem_cons_self
        roomId := rfl
        messageId := rfl
        human := by decide
        gemini := by decide }
  capacity := by decide
  free := by decide
  distinct := List.nodup_singleton _

/-- A run in which a message is queued and its reply stored. -/
theorem queue_unblocked_sample :
    (∀ before, before <+: replied → Unblocked hashes serde (run hashes serde before first)) ∧
      ∀ before event rest, replied = before ++ event :: rest → ∀ dispatch,
        nextDispatch (run hashes serde before first).ledger = some dispatch →
        (∀ message, findMessage (run hashes serde before first).source.memory dispatch.roomId
          dispatch.sourceMessageId ≠ .ok message) →
        nextDispatch (run hashes serde (before ++ [event]) first).ledger = some dispatch := by
  have hserde : serde.RoundTrips := RoomPersistence.Sample.serde_roundTrips (by decide) (by decide)
  have hmoves := queue_unblocked hserde hashes start_first replied
  refine ⟨hmoves.1 ?_, hmoves.2⟩
  intro before event rest hevents
  match before, hevents with
  | [], hevents =>
    obtain ⟨rfl, -⟩ := List.cons.inj hevents
    exact fun _ _ _ => provides_welcome
  | [_], hevents =>
    obtain ⟨-, hevents⟩ := List.cons.inj hevents
    obtain ⟨rfl, -⟩ := List.cons.inj hevents
    exact fun _ => trivial
  | _ :: _ :: _, hevents =>
    have hlength := congrArg List.length hevents
    simp [replied] at hlength

/-- A room of the owner's. -/
def plans : RoomCreateDraft where
  room := ⟨"plans", "Plans", [ownerParticipantId, "gemini"], []⟩
  createdAt := "2026-08-13T00:00:00.000Z"
  noMessages := rfl
  valid := by decide

/-- What the owner asks in it. -/
def question : RoomMessageDraft where
  message := message "plans" "question-1" ownerParticipantId ["gemini"] "Which way?"
    "2026-08-13T00:00:01.000Z"
  valid := by decide

/-- The rooms after each of the calls. -/
def created : RoomSnapshot := RoomOperation.apply bundledSnapshot (.createRoom plans)

/-- The rooms with a question for the browser. -/
def asked : RoomSnapshot := RoomOperation.apply created (.appendMessage question)

/-- The same rooms after the question's room was deleted. -/
def deleted : RoomSnapshot :=
  RoomOperation.apply asked (.deleteRoom "plans" "2026-08-13T00:00:02.000Z")

/-- A serializer that knows the three states of the rooms. -/
def roomSerde : Serde PersistedRoomFile :=
  RoomPersistence.Sample.serde [created, asked, deleted]

/-- The question and a message of another room are queued, and the room of the question is
deleted. -/
def abandoned : List Event :=
  [.call (.write (.createRoom plans)) [], .call (.write (.appendMessage question)) [],
    .queue question.message "prompt" 1, .queue welcome "prompt" 2,
    .call (.write (.deleteRoom "plans" "2026-08-13T00:00:02.000Z")) []]

/-- The reply to the question. -/
def late : BrowserBridgeReplyInput where
  dispatchId := "browser-gemini:plans:question-1"
  replyToken := replyToken hashes question.message 1
  body := "That way."
  sourceUrl := "https://www.google.com/search"

/-- The question is offered still, the reply to it is refused, and the other message waits behind
it. -/
theorem queue_blocked :
    let m := run hashes roomSerde abandoned first
    m.source.memory = deleted ∧
      m.ledger.pending = [queuedDispatch hashes question.message "prompt" 1,
        queuedDispatch hashes welcome "prompt" 2] ∧
      nextDispatch m.ledger = some (queuedDispatch hashes question.message "prompt" 1) ∧
      (m.reply hashes roomSerde inOrder [] clock late).answer = some (.error .sourceUnavailable) ∧
      ¬Unblocked hashes roomSerde m := by
  intro m
  have hall : (m.source.memory, m.ledger.pending,
      (m.reply hashes roomSerde inOrder [] clock late).answer) =
        (deleted, [queuedDispatch hashes question.message "prompt" 1,
          queuedDispatch hashes welcome "prompt" 2], some (.error .sourceUnavailable)) := by
    decide +kernel
  obtain ⟨hmemory, hrest⟩ := Prod.mk.inj hall
  obtain ⟨hpending, hanswer⟩ := Prod.mk.inj hrest
  have hgone : findMessage deleted "plans" "question-1" = .error .roomNotFound := by
    decide
  have hnext : nextDispatch m.ledger =
    some (queuedDispatch hashes question.message "prompt" 1) := by
    rw [nextDispatch_eq_head?, hpending, List.head?_cons]
  refine ⟨hmemory, hpending, hnext, hanswer, fun h => ?_⟩
  obtain ⟨found, hfound⟩ := h.sources (queuedDispatch hashes question.message "prompt" 1)
    (by rw [hpending]; exact List.mem_cons_self)
  have hsame : findMessage deleted "plans" "question-1" = .ok found := by
    rw [← hmemory]
    exact hfound
  rw [hgone] at hsame
  cases hsame

end Sample

end Mio.Desktop.BrowserBridge
