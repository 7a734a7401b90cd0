import Mio.Desktop.AiDispatch
import Mio.Library.Windows

/-!
# The context over the turns of a session

A turn sends the messages of its room that its session does not know. The session's cursor is the
source message of the turn before, so the turns that resume it together send what is between the
first cursor and the last source: nothing twice, and nothing missing but the messages of turns that
were not resumed (`context_laws`).
-/

namespace Mio.Desktop.AiDispatch

open Library Mio.Core RoomAiContinuity

/-! ## One plan -/

/-- Where the message is in the history. -/
abbrev messagePosition (messages : List RoomMessage) (id : String) : ℕ :=
  position RoomMessage.id messages id

/-- The messages between two positions that the participant has not written. -/
def unknownMessages (participantId : String) (messages : List RoomMessage) (first last : ℕ) :
    List RoomMessage :=
  (between messages first last).filter fun message => message.authorId != participantId

/-- What a plan promises, for a room whose messages have distinct identifiers. -/
structure PlanLaws (messages : List RoomMessage) (sourceMessage : RoomMessage)
    (continuation : Option RoomAiContinuation) (environmentKey participantId : String)
    (plan : RoomContextPlan) : Prop where
  length : plan.messages.length ≤ maximumContextMessages
  sublist : plan.messages.Sublist messages
  /-- All the messages are before the source. -/
  before : ∀ message ∈ plan.messages,
    messagePosition messages message.id < messagePosition messages sourceMessage.id
  /-- It resumes exactly when the environment is that of the session, the cursor is before the
  source, and what is between them is not too much. -/
  resumes : plan.resuming = true ↔ ∃ stored, continuation = some stored ∧
    stored.environmentKey = environmentKey ∧
    messagePosition messages stored.lastSyncedMessageId <
      messagePosition messages sourceMessage.id ∧
    (unknownMessages participantId messages (messagePosition messages stored.lastSyncedMessageId)
      (messagePosition messages sourceMessage.id)).length ≤ maximumContextMessages
  /-- When it resumes, it sends what is between the cursor and the source. -/
  resumed : ∀ stored, continuation = some stored → plan.resuming = true →
    plan.messages = unknownMessages participantId messages
      (messagePosition messages stored.lastSyncedMessageId)
      (messagePosition messages sourceMessage.id)
  /-- When it resumes, it sends nothing at the cursor or before it. -/
  after : ∀ stored, continuation = some stored → plan.resuming = true →
    ∀ message ∈ plan.messages,
      messagePosition messages stored.lastSyncedMessageId < messagePosition messages message.id
  /-- When it reports no truncation, the bodies are sent as they are. -/
  whole : plan.truncatedMessages = 0 →
    ∀ message ∈ plan.messages, truncateContextBody message.body = message.body

/-- The count of the bodies that are too long. -/
theorem contextTruncation_fst (messages : List RoomMessage) :
    (contextTruncation messages).1 =
      messages.countP fun message => maximumContextBodyChars < message.body.length := by
  have hfold : ∀ (messages : List RoomMessage) (start : ℕ × ℕ),
      (messages.foldl (fun totals message =>
        if maximumContextBodyChars < message.body.length then
          (totals.1 + 1, totals.2 + message.body.length - maximumContextBodyChars)
        else totals) start).1 =
          start.1 + messages.countP fun message =>
            maximumContextBodyChars < message.body.length := by
    intro messages
    induction messages with
    | nil => intro start; rfl
    | cons message messages ih =>
      intro start
      rw [List.foldl_cons, ih, List.countP_cons]
      by_cases hlong : maximumContextBodyChars < message.body.length
      · rw [if_pos hlong, if_pos (by simpa using hlong)]
        omega
      · rw [if_neg hlong, if_neg (by simpa using hlong)]
        omega
  have hcount := hfold messages (0, 0)
  rw [Nat.zero_add] at hcount
  exact hcount

/-- A body that is short enough is shown as it is. -/
theorem truncateContextBody_of_le {body : String} (h : body.length ≤ maximumContextBodyChars) :
    truncateContextBody body = body := by
  unfold truncateContextBody
  dsimp only
  rw [if_neg (by omega), List.take_of_length_le (by rw [String.length_toList]; exact h),
    String.ofList_toList]

/-- Bodies that are not counted are sent as they are. -/
theorem truncateContextBody_of_not_counted {messages : List RoomMessage}
    (h : (contextTruncation messages).1 = 0) :
    ∀ message ∈ messages, truncateContextBody message.body = message.body := by
  rw [contextTruncation_fst, List.countP_eq_zero] at h
  intro message hmessage
  refine truncateContextBody_of_le ?_
  have hshort := h message hmessage
  simp only [decide_eq_true_eq] at hshort
  omega

section Plan

variable {messages : List RoomMessage} {continuation : Option RoomAiContinuation}
  {environmentKey participantId : String} {sourceIndex : ℕ}

/-- When the session can be resumed, and with which messages. -/
theorem resumedMessages_eq_some {kept : List RoomMessage}
    (hsource : sourceIndex ≤ messages.length) :
    resumedMessages messages sourceIndex continuation environmentKey participantId = some kept ↔
      ∃ stored, continuation = some stored ∧ stored.environmentKey = environmentKey ∧
        messagePosition messages stored.lastSyncedMessageId < sourceIndex ∧
        kept = unknownMessages participantId messages
          (messagePosition messages stored.lastSyncedMessageId) sourceIndex ∧
        kept.length ≤ maximumContextMessages := by
  unfold resumedMessages unknownMessages between
  cases continuation with
  | none => simp
  | some stored =>
    simp only [Option.some.injEq, exists_eq_left', beq_iff_eq]
    by_cases henvironment : stored.environmentKey = environmentKey
    · simp only [henvironment, if_true, true_and]
      split
      · rename_i hfind
        -- The cursor is not in the room, so its position is past the end.
        have hmissing : ¬messagePosition messages stored.lastSyncedMessageId < messages.length := by
          rw [position_lt_length]
          intro hmem
          obtain ⟨message, hmessage, hid⟩ := List.mem_map.mp hmem
          have hnot := List.findIdx?_eq_none_iff.mp hfind message hmessage
          simp [hid] at hnot
        refine iff_of_false (by simp) ?_
        rintro ⟨hlt, -⟩
        omega
      · rename_i cursorIndex hfind
        obtain ⟨-, hindex⟩ := List.findIdx?_eq_some_iff_findIdx_eq.mp hfind
        have hposition : messagePosition messages stored.lastSyncedMessageId = cursorIndex := hindex
        rw [hposition]
        split
        · rename_i hlt
          split
          · rename_i hshort
            simp only [Option.some.injEq, hlt, true_and]
            constructor
            · rintro rfl
              exact ⟨rfl, hshort⟩
            · exact fun h => h.1.symm
          · rename_i hlong
            simp only [reduceCtorEq, false_iff, not_and]
            rintro - rfl
            exact hlong
        · rename_i hge
          simp [hge]
    · simp [henvironment]

/-- The laws of a plan over messages that are all different. -/
theorem planLaws {context : DesktopRoomContext} {sourceMessage : RoomMessage}
    {plan : RoomContextPlan} (hnodup : (context.room.messages.map (·.id)).Nodup)
    (h : roomContextPlan context sourceMessage continuation environmentKey participantId =
      .ok plan) :
    PlanLaws context.room.messages sourceMessage continuation
      environmentKey participantId plan := by
  unfold roomContextPlan at h
  split at h
  · cases h
  rename_i sourceIndex hfind
  obtain ⟨hlength, hindex⟩ := List.findIdx?_eq_some_iff_findIdx_eq.mp hfind
  have hposition : messagePosition context.room.messages sourceMessage.id = sourceIndex := hindex
  -- A plan resumes the stored thread, or starts with the window before the source.
  split at h
  · rename_i messages hresumed
    obtain ⟨stored, hstored, hkey, hcursor, hmessages, hshort⟩ :=
      (resumedMessages_eq_some hlength.le).mp hresumed
    obtain rfl := Except.ok.inj h
    have hmem : ∀ message ∈ messages, message ∈ between context.room.messages
        (messagePosition context.room.messages stored.lastSyncedMessageId) sourceIndex := by
      intro message hmessage
      rw [hmessages] at hmessage
      exact List.mem_of_mem_filter hmessage
    have hsame : ∀ other, continuation = some other → other = stored := by
      intro other hother
      rw [hstored] at hother
      exact (Option.some.inj hother).symm
    refine ⟨hshort, ?_, ?_, ?_, ?_, ?_, ?_⟩
    · rw [hmessages]
      exact List.filter_sublist.trans ((List.drop_sublist _ _).trans (List.take_sublist _ _))
    · intro message hmessage
      rw [hposition]
      exact ((mem_between_iff hnodup).mp (hmem message hmessage)).2.2
    · exact iff_of_true rfl ⟨stored, hstored, hkey, by rw [hposition]; exact hcursor,
        by rw [hposition, ← hmessages]; exact hshort⟩
    · intro other hother _
      rw [hsame other hother, hposition]
      exact hmessages
    · intro other hother _ message hmessage
      rw [hsame other hother]
      exact ((mem_between_iff hnodup).mp (hmem message hmessage)).2.1
    · exact truncateContextBody_of_not_counted
  · rename_i hnone
    obtain rfl := Except.ok.inj h
    set window :=
      (context.room.messages.take sourceIndex).drop (sourceIndex - maximumContextMessages)
    refine ⟨?_, ?_, ?_, ?_, ?_, ?_, ?_⟩
    · show window.length ≤ maximumContextMessages
      rw [List.length_drop, List.length_take]
      omega
    · exact (List.drop_sublist _ _).trans (List.take_sublist _ _)
    -- The window ends before the source, and the position of a message is its index.
    · intro message hmessage
      obtain ⟨i, hi⟩ := List.mem_iff_getElem?.mp ((List.drop_sublist _ _).subset hmessage)
      rw [List.getElem?_take] at hi
      split at hi
      · have hat : messagePosition context.room.messages message.id = i :=
          position_of_getElem? hnodup hi
        omega
      · cases hi
    · refine iff_of_false (by simp) ?_
      -- If a plan could resume, it would.
      rintro ⟨stored, hstored, hkey, hcursor, hshort⟩
      rw [hposition] at hcursor hshort
      rw [(resumedMessages_eq_some hlength.le).mpr
        ⟨stored, hstored, hkey, hcursor, rfl, hshort⟩] at hnone
      cases hnone
    · intro stored _ hresuming
      cases hresuming
    · intro stored _ hresuming
      cases hresuming
    · exact truncateContextBody_of_not_counted

end Plan

/-! ## The turns of a session -/

/-- A turn: the room as it is when the context is planned, the message that is dispatched, and the
session that the adapter answers with. -/
structure RoomTurn where
  room : Room
  sourceMessage : RoomMessage
  sessionId : String

/-- What the turn commits to the continuity store. -/
def RoomTurn.continuation (environmentKey : String) (turn : RoomTurn) : RoomAiContinuation where
  sessionId := turn.sessionId
  lastSyncedMessageId := turn.sourceMessage.id
  environmentKey := environmentKey

/-- A turn with the continuation that was stored for it and the plan that was made. -/
structure PlannedTurn where
  stored : RoomAiContinuation
  turn : RoomTurn
  plan : Except RoomDispatchCommandError RoomContextPlan

namespace PlannedTurn

/-- Whether the turn goes on in the session of the one before. -/
def isResumed (planned : PlannedTurn) : Bool :=
  match planned.plan with
  | .ok plan => plan.resuming
  | .error _ => false

/-- The messages that the turn shows. -/
def messages (planned : PlannedTurn) : List RoomMessage :=
  match planned.plan with
  | .ok plan => plan.messages
  | .error _ => []

/-- The part of the history between the cursor of the turn and its source. -/
def window (history : List RoomMessage) (planned : PlannedTurn) : Window where
  first := messagePosition history planned.stored.lastSyncedMessageId
  last := messagePosition history planned.turn.sourceMessage.id
  isTaken := planned.isResumed

end PlannedTurn

/-- The turns with their plans. Each turn commits its source as the cursor of the next one. -/
def plannedTurns (environmentKey participantId : String) :
    RoomAiContinuation → List RoomTurn → List PlannedTurn
  | _, [] => []
  | stored, turn :: turns =>
    { stored, turn
      plan := roomContextPlan ⟨turn.room⟩ turn.sourceMessage (some stored) environmentKey
        participantId } ::
      plannedTurns environmentKey participantId (turn.continuation environmentKey) turns

/-- What the resumed turns send, one after the other. -/
def resumedContext (planned : List PlannedTurn) : List RoomMessage :=
  planned.flatMap fun planned => if planned.isResumed then planned.messages else []

/-- The cursor after the last turn. -/
def lastSource (stored : RoomAiContinuation) (turns : List RoomTurn) : String :=
  (turns.getLast?.map (·.sourceMessage.id)).getD stored.lastSyncedMessageId

/-- The turns are of a room that only grows, and their sources come one after the other in it. -/
structure Increasing (history : List RoomMessage) (stored : RoomAiContinuation)
    (turns : List RoomTurn) : Prop where
  distinct : (history.map (·.id)).Nodup
  rooms : ∀ turn ∈ turns, turn.room.messages <+: history
  sources : ∀ turn ∈ turns, turn.sourceMessage ∈ turn.room.messages
  increasing : (messagePosition history stored.lastSyncedMessageId ::
    turns.map fun turn => messagePosition history turn.sourceMessage.id).IsChain (· < ·)

section Turns

variable {history : List RoomMessage} {environmentKey participantId : String}
  {stored : RoomAiContinuation} {turns : List RoomTurn}

/-- Behind the first turn, the others are still in order. -/
theorem Increasing.tail (environmentKey : String) {turn : RoomTurn}
    (h : Increasing history stored (turn :: turns)) :
    Increasing history (turn.continuation environmentKey) turns := by
  have hchain := h.increasing
  rw [List.map_cons, List.isChain_cons_cons] at hchain
  exact ⟨h.distinct, fun other hother => h.rooms other (List.mem_cons_of_mem _ hother),
    fun other hother => h.sources other (List.mem_cons_of_mem _ hother), hchain.2⟩

/-- The first turn is about a message behind the last one that the session has seen. -/
theorem Increasing.head {turn : RoomTurn} (h : Increasing history stored (turn :: turns)) :
    messagePosition history stored.lastSyncedMessageId <
      messagePosition history turn.sourceMessage.id := by
  have hchain := h.increasing
  rw [List.map_cons, List.isChain_cons_cons] at hchain
  exact hchain.1

/-- The windows of the turns follow each other. -/
theorem chained_windows (h : Increasing history stored turns) :
    Chained (messagePosition history stored.lastSyncedMessageId)
      ((plannedTurns environmentKey participantId stored turns).map (·.window history)) := by
  induction turns generalizing stored with
  | nil => trivial
  | cons turn turns ih => exact ⟨rfl, h.head, ih (h.tail environmentKey)⟩

/-- The windows of the turns end at the source message of the last turn. -/
theorem finish_windows (stored : RoomAiContinuation) (turns : List RoomTurn) :
    finish (messagePosition history stored.lastSyncedMessageId)
        ((plannedTurns environmentKey participantId stored turns).map (·.window history)) =
      messagePosition history (lastSource stored turns) := by
  induction turns generalizing stored with
  | nil => rfl
  | cons turn turns ih =>
    have hlast : lastSource stored (turn :: turns) =
        lastSource (turn.continuation environmentKey) turns := by
      unfold lastSource
      rw [List.getLast?_cons]
      cases turns.getLast? <;> rfl
    rw [hlast]
    exact ih (turn.continuation environmentKey)

/-- A turn resumes when not too much is between its cursor and its source, and sends just that. -/
theorem plannedTurn_eq (participantId : String) {turn : RoomTurn}
    (hdistinct : (history.map (·.id)).Nodup)
    (hroom : turn.room.messages <+: history) (hsource : turn.sourceMessage ∈ turn.room.messages)
    (hcursor : messagePosition history stored.lastSyncedMessageId <
      messagePosition history turn.sourceMessage.id)
    (hkey : stored.environmentKey = environmentKey) :
    ∃ plan, roomContextPlan ⟨turn.room⟩ turn.sourceMessage (some stored) environmentKey
        participantId = .ok plan ∧
      let unknown := unknownMessages participantId history
        (messagePosition history stored.lastSyncedMessageId)
        (messagePosition history turn.sourceMessage.id)
      (plan.resuming = true ↔ unknown.length ≤ maximumContextMessages) ∧
        (plan.resuming = true → plan.messages = unknown) ∧
        (plan.truncatedMessages = 0 →
          ∀ message ∈ plan.messages, truncateContextBody message.body = message.body) := by
  -- The room is a prefix of the history in which both the source and the cursor are.
  have hmem : turn.sourceMessage.id ∈ turn.room.messages.map (·.id) := List.mem_map_of_mem hsource
  have hsourcePosition : messagePosition turn.room.messages turn.sourceMessage.id =
      messagePosition history turn.sourceMessage.id := position_prefix hroom hmem
  have hsourceLength : messagePosition turn.room.messages turn.sourceMessage.id <
      turn.room.messages.length := position_lt_length.mpr hmem
  have hcursorMem : stored.lastSyncedMessageId ∈ turn.room.messages.map (·.id) := by
    have hlength := hroom.length_le
    have hinside : messagePosition history stored.lastSyncedMessageId < history.length := by omega
    obtain ⟨message, hmessage, hid⟩ := List.mem_map.mp (position_lt_length.mp hinside)
    have hat : history[messagePosition history message.id]? = some message :=
      getElem?_position hdistinct hmessage
    have hbefore : messagePosition history message.id < turn.room.messages.length := by
      rw [hid]
      omega
    obtain ⟨added, hadded⟩ := hroom
    rw [← hadded, List.getElem?_append_left (by rw [hadded]; exact hbefore)] at hat
    exact hid ▸ List.mem_map_of_mem (List.mem_of_getElem? hat)
  have hcursorPosition : messagePosition turn.room.messages stored.lastSyncedMessageId =
      messagePosition history stored.lastSyncedMessageId := position_prefix hroom hcursorMem
  have hunknown : unknownMessages participantId turn.room.messages
      (messagePosition turn.room.messages stored.lastSyncedMessageId)
      (messagePosition turn.room.messages turn.sourceMessage.id) =
        unknownMessages participantId history
          (messagePosition history stored.lastSyncedMessageId)
          (messagePosition history turn.sourceMessage.id) := by
    unfold unknownMessages
    rw [between_extend hroom hsourceLength.le, hcursorPosition, hsourcePosition]
  obtain ⟨plan, hplan⟩ : ∃ plan, roomContextPlan ⟨turn.room⟩ turn.sourceMessage (some stored)
      environmentKey participantId = .ok plan := by
    unfold roomContextPlan
    split
    · rename_i hfind
      have hnot := List.findIdx?_eq_none_iff.mp hfind turn.sourceMessage hsource
      simp at hnot
    · split
      · exact ⟨_, rfl⟩
      · exact ⟨_, rfl⟩
  have hlaws := planLaws (hdistinct.sublist (hroom.sublist.map _)) hplan
  refine ⟨plan, hplan, ?_, fun hresuming => ?_, hlaws.whole⟩
  · rw [hlaws.resumes, ← hunknown]
    simp only [Option.some.injEq, exists_eq_left', hkey, true_and]
    exact and_iff_right (by rw [hcursorPosition, hsourcePosition]; exact hcursor)
  · rw [hlaws.resumed stored rfl hresuming, hunknown]

/-- What the resumed turns send is what a reader of their windows takes. -/
theorem resumedContext_eq_taken (participantId : String) (h : Increasing history stored turns)
    (hkey : stored.environmentKey = environmentKey) :
    resumedContext (plannedTurns environmentKey participantId stored turns) =
      taken history (fun message => message.authorId != participantId)
        ((plannedTurns environmentKey participantId stored turns).map (·.window history)) := by
  induction turns generalizing stored with
  | nil => rfl
  | cons turn turns ih =>
    have hmem : turn ∈ turn :: turns := List.mem_cons_self
    obtain ⟨plan, hplan, -, hmessages, -⟩ := plannedTurn_eq participantId h.distinct
      (h.rooms turn hmem) (h.sources turn hmem) h.head hkey
    have hrest := ih (h.tail environmentKey) rfl
    unfold resumedContext taken at hrest ⊢
    unfold plannedTurns
    rw [List.flatMap_cons, List.map_cons, List.flatMap_cons, hrest, hplan]
    congr 1
    unfold PlannedTurn.window PlannedTurn.isResumed PlannedTurn.messages
    dsimp only
    split
    · rename_i hresuming
      exact hmessages hresuming
    · rfl

/-- Each turn of a run has a plan, which resumes when not too much is new. -/
theorem plannedTurns_mem (h : Increasing history stored turns)
    (hkey : stored.environmentKey = environmentKey) {planned : PlannedTurn}
    (hplanned : planned ∈ plannedTurns environmentKey participantId stored turns) :
    ∃ plan, planned.plan = .ok plan ∧
      (plan.resuming = true ↔ (unknownMessages participantId history
        (messagePosition history planned.stored.lastSyncedMessageId)
        (messagePosition history planned.turn.sourceMessage.id)).length ≤ maximumContextMessages) ∧
      (plan.truncatedMessages = 0 →
        ∀ message ∈ plan.messages, truncateContextBody message.body = message.body) := by
  induction turns generalizing stored with
  | nil => cases hplanned
  | cons turn turns ih =>
    rcases List.mem_cons.mp hplanned with rfl | hlater
    · have hmem : turn ∈ turn :: turns := List.mem_cons_self
      obtain ⟨plan, hplan, hresumes, -, hwhole⟩ := plannedTurn_eq participantId h.distinct
        (h.rooms turn hmem) (h.sources turn hmem) h.head hkey
      exact ⟨plan, hplan, hresumes, hwhole⟩
    · exact ih (h.tail environmentKey) rfl hlater

/-- The source of each planned turn is that of a turn. -/
theorem turn_mem_iff {turn : RoomTurn} :
    (∃ planned ∈ plannedTurns environmentKey participantId stored turns, planned.turn = turn) ↔
      turn ∈ turns := by
  induction turns generalizing stored with
  | nil => simp [plannedTurns]
  | cons head turns ih =>
    unfold plannedTurns
    rw [List.mem_cons, ← @ih (head.continuation environmentKey)]
    simp only [List.mem_cons, exists_eq_or_imp]
    exact or_congr_left ⟨Eq.symm, Eq.symm⟩

end Turns

/-- What the resumed turns of a session send together. -/
structure ContextLaws (history : List RoomMessage) (environmentKey participantId : String)
    (stored : RoomAiContinuation) (turns : List RoomTurn) : Prop where
  /-- It is in the stored order. -/
  ordered :
    (resumedContext (plannedTurns environmentKey participantId stored turns)).Sublist history
  /-- No message is repeated. -/
  nodup : (resumedContext (plannedTurns environmentKey participantId stored turns)).Nodup
  /-- When all the turns resume, it is what is between the first cursor and the last source, but for
  the sources and the recipient's own messages. -/
  resumed : (∀ planned ∈ plannedTurns environmentKey participantId stored turns,
      planned.isResumed = true) →
    ∀ message, message ∈ resumedContext (plannedTurns environmentKey participantId stored turns) ↔
      message ∈ history ∧ message.authorId ≠ participantId ∧
        messagePosition history stored.lastSyncedMessageId < messagePosition history message.id ∧
        messagePosition history message.id < messagePosition history (lastSource stored turns) ∧
        ∀ turn ∈ turns, message.id ≠ turn.sourceMessage.id
  /-- When some do not resume, what is before their sources, up to their cursors, is not in it. -/
  mixed : ∀ message,
    message ∈ resumedContext (plannedTurns environmentKey participantId stored turns) ↔
      message ∈ history ∧ message.authorId ≠ participantId ∧
        messagePosition history stored.lastSyncedMessageId < messagePosition history message.id ∧
        messagePosition history message.id < messagePosition history (lastSource stored turns) ∧
        (∀ turn ∈ turns, message.id ≠ turn.sourceMessage.id) ∧
        ∀ planned ∈ plannedTurns environmentKey participantId stored turns,
          planned.isResumed = false →
            ¬(messagePosition history planned.stored.lastSyncedMessageId <
                messagePosition history message.id ∧
              messagePosition history message.id <
                messagePosition history planned.turn.sourceMessage.id)
  /-- A turn resumes when at most so many messages are new to it. -/
  resumes : ∀ planned ∈ plannedTurns environmentKey participantId stored turns,
    (planned.isResumed = true ↔ (unknownMessages participantId history
      (messagePosition history planned.stored.lastSyncedMessageId)
      (messagePosition history planned.turn.sourceMessage.id)).length ≤ maximumContextMessages)
  /-- Where a turn reports no truncation, it sends the bodies as they are. -/
  whole : ∀ planned ∈ plannedTurns environmentKey participantId stored turns, ∀ plan,
    planned.plan = .ok plan → plan.truncatedMessages = 0 →
      ∀ message ∈ plan.messages, truncateContextBody message.body = message.body

/-- The laws of turns that follow one another in one session. -/
theorem contextLaws {history : List RoomMessage} {environmentKey : String} (participantId : String)
    {stored : RoomAiContinuation} {turns : List RoomTurn} (h : Increasing history stored turns)
    (hkey : stored.environmentKey = environmentKey) :
    ContextLaws history environmentKey participantId stored turns := by
  have htaken := resumedContext_eq_taken participantId h hkey
  have hchained : Chained _ ((plannedTurns environmentKey participantId stored turns).map
    (·.window history)) := chained_windows h
  have hordered : (resumedContext
      (plannedTurns environmentKey participantId stored turns)).Sublist history := by
    rw [htaken]
    exact (taken_sublist hchained).trans (List.drop_sublist _ _)
  -- One statement says which messages are shown; the laws with and without a fresh thread follow.
  have hmixed : ∀ message,
      message ∈ resumedContext (plannedTurns environmentKey participantId stored turns) ↔
        message ∈ history ∧ message.authorId ≠ participantId ∧
          messagePosition history stored.lastSyncedMessageId < messagePosition history message.id ∧
          messagePosition history message.id < messagePosition history (lastSource stored turns) ∧
          (∀ turn ∈ turns, message.id ≠ turn.sourceMessage.id) ∧
          ∀ planned ∈ plannedTurns environmentKey participantId stored turns,
            planned.isResumed = false →
              ¬(messagePosition history planned.stored.lastSyncedMessageId <
                  messagePosition history message.id ∧
                messagePosition history message.id <
                  messagePosition history planned.turn.sourceMessage.id) := by
    intro message
    -- Being at the position of a source means being that source, as the ids are distinct.
    have hsources : message ∈ history →
        ((∀ planned ∈ plannedTurns environmentKey participantId stored turns,
            messagePosition history message.id ≠
              messagePosition history planned.turn.sourceMessage.id) ↔
          ∀ turn ∈ turns, message.id ≠ turn.sourceMessage.id) := by
      intro hmessage
      constructor
      · intro hall turn hturn hid
        obtain ⟨planned, hplanned, rfl⟩ := turn_mem_iff.mpr hturn
        exact hall planned hplanned (by rw [hid])
      · intro hall planned hplanned hposition
        have hturn : planned.turn ∈ turns := turn_mem_iff.mp ⟨planned, hplanned, rfl⟩
        have hsource : planned.turn.sourceMessage ∈ history :=
          (h.rooms planned.turn hturn).subset (h.sources planned.turn hturn)
        exact hall planned.turn hturn (position_inj h.distinct hmessage hsource hposition)
    rw [htaken, mem_taken_iff h.distinct hchained, finish_windows]
    simp only [bne_iff_ne, List.forall_mem_map, forall_and]
    constructor
    · rintro ⟨hmessage, hauthor, hfirst, hlast, hne, hskipped⟩
      exact ⟨hmessage, hauthor, hfirst, hlast, (hsources hmessage).mp hne, hskipped⟩
    · rintro ⟨hmessage, hauthor, hfirst, hlast, hne, hskipped⟩
      exact ⟨hmessage, hauthor, hfirst, hlast, (hsources hmessage).mpr hne, hskipped⟩
  refine ⟨hordered, ?_, ?_, hmixed, ?_, ?_⟩
  · exact hordered.nodup h.distinct.of_map
  · intro hall message
    rw [hmixed message]
    constructor
    · rintro ⟨hmessage, hauthor, hfirst, hlast, hne, -⟩
      exact ⟨hmessage, hauthor, hfirst, hlast, hne⟩
    · rintro ⟨hmessage, hauthor, hfirst, hlast, hne⟩
      refine ⟨hmessage, hauthor, hfirst, hlast, hne, fun planned hplanned hnot => ?_⟩
      rw [hall planned hplanned] at hnot
      cases hnot
  · intro planned hplanned
    obtain ⟨plan, hplan, hresumes, -⟩ := plannedTurns_mem h hkey hplanned
    rw [← hresumes, PlannedTurn.isResumed, hplan]
  · intro planned hplanned plan hplan
    obtain ⟨other, hother, -, hwhole⟩ := plannedTurns_mem h hkey hplanned
    obtain rfl : other = plan := by
      rw [hplan] at hother
      exact (Except.ok.inj hother).symm
    exact hwhole

/-- Every plan is of bounded size, sends only what comes before its source, and, when it resumes,
only what comes after the cursor. The resumed turns of a session send everything between the first
cursor and the last source, once and in order, but for what a turn that was not resumed skipped. -/
theorem context_laws :
    (∀ (context : DesktopRoomContext) sourceMessage continuation environmentKey participantId plan,
      (context.room.messages.map (·.id)).Nodup →
      roomContextPlan context sourceMessage continuation environmentKey participantId = .ok plan →
        PlanLaws context.room.messages sourceMessage continuation environmentKey participantId
          plan) ∧
    ∀ history environmentKey participantId stored turns, Increasing history stored turns →
      stored.environmentKey = environmentKey →
        ContextLaws history environmentKey participantId stored turns :=
  ⟨fun _ _ _ _ _ _ hnodup hplan => planLaws hnodup hplan,
    fun _ _ participantId _ _ h hkey => contextLaws participantId h hkey⟩

namespace ContextSample

/-- The `n`-th message of the room. -/
def message (n : ℕ) : RoomMessage where
  id := s!"m{n}"
  roomId := "room"
  authorId := "owner"
  recipients := ["codex"]
  body := "Hello"
  createdAt := "2026-08-12"
  artifactIds := []
  provenance := none

/-- The room after so many messages. -/
def room (count : ℕ) : Room where
  id := "room"
  name := "Room"
  participantIds := ["owner", "codex"]
  messages := (List.range count).map message

/-- The session is at the first message. -/
def stored : RoomAiContinuation := ⟨"session", "m0", "key"⟩

/-- A turn of the `n`-th message. -/
def turn (n : ℕ) : RoomTurn := ⟨room (n + 1), message n, "session"⟩

/-- Two turns in a short room are in order. -/
theorem increasing_short : Increasing (room 5).messages stored [turn 2, turn 4] :=
  ⟨by decide, by decide, by decide, by decide⟩

/-- Three turns in a long room are in order. -/
theorem increasing_long : Increasing (room 23).messages stored [turn 2, turn 20, turn 22] :=
  ⟨by decide, by decide, by decide, by decide⟩

/-- Two turns that resume send what is new to each. -/
theorem context_laws_short :
    (∃ plan, roomContextPlan ⟨room 5⟩ (message 4) (some stored) "key" "codex" = .ok plan ∧
      PlanLaws (room 5).messages (message 4) (some stored) "key" "codex" plan) ∧
    ContextLaws (room 5).messages "key" "codex" stored [turn 2, turn 4] ∧
    resumedContext (plannedTurns "key" "codex" stored [turn 2, turn 4]) =
      [message 1, message 3] := by
  have hplan : roomContextPlan ⟨room 5⟩ (message 4) (some stored) "key" "codex" = .ok
      { resuming := true, mode := .resumed, messages := [message 1, message 2, message 3]
        omittedMessages := 0, truncatedMessages := 0, omittedCharacters := 0 } := by
    decide
  refine ⟨⟨_, hplan, ?_⟩, ?_, by decide⟩
  · exact context_laws.1 ⟨room 5⟩ (message 4) (some stored) "key" "codex" _ (by decide) hplan
  · exact context_laws.2 _ "key" "codex" stored [turn 2, turn 4] increasing_short rfl

/-- The second of three turns does not resume, for 17 messages are new to it. No resumed turn sends
them, and they are between the first cursor and the last source. -/
theorem context_skipped :
    let history := (room 23).messages
    let turns := [turn 2, turn 20, turn 22]
    Increasing history stored turns ∧
      resumedContext (plannedTurns "key" "codex" stored turns) = [message 1, message 21] ∧
      message 3 ∈ history ∧ (message 3).authorId ≠ "codex" ∧
      (∀ turn ∈ turns, (message 3).id ≠ turn.sourceMessage.id) ∧
      messagePosition history stored.lastSyncedMessageId < messagePosition history (message 3).id ∧
      messagePosition history (message 3).id <
        messagePosition history (lastSource stored turns) := by
  refine ⟨increasing_long, ?_, ?_, ?_, ?_, ?_, ?_⟩ <;> decide

end ContextSample

end Mio.Desktop.AiDispatch
