import Mio.Desktop.BrowserBridge

/-!
# Runs of the browser bridge

A run is a sequence of calls of the bridge, with calls that change the rooms in between. The machine
has a history beside the bridge: the messages in the order in which they were queued, and the
replies that were accepted. In every run the queue is in step with its map (`Machine.Sound`), and a
reply is accepted for a pending dispatch alone, at most once for a message. A reply that is sent
again is never answered as stored, since the search for its dispatch passes over those that are
completed (`completeReply_of_completed`).
-/

namespace Mio.Desktop.BrowserBridge

open Library Std Mio.Core Time RoomPersistence

/-- A call of the bridge, or one that changes the rooms. -/
inductive Event where
  | queue (sourceMessage : RoomMessage) (prompt : String) (nanoseconds : ℕ)
  | nextDispatch
  | completeReply (iteration : Iteration) (faults : List Fault) (clock : Clock)
    (input : BrowserBridgeReplyInput)
  | call (call : RoomSource.Call) (faults : List Fault)

/-- A reply that was answered with success, and the message that its dispatch was of. -/
structure AcceptedReply where
  sourceMessageId : String
  input : BrowserBridgeReplyInput
  success : BrowserBridgeReplySuccess

/-- The bridge and the rooms, with the history of the calls. -/
structure Machine where
  ledger : BrowserBridgeLedger
  source : RoomSource.State
  /-- The messages that were queued, in the order of their first call. -/
  queued : List String
  accepted : List AcceptedReply

/-- A bridge that is started beside its rooms. -/
def Machine.start (source : RoomSource.State) : Machine :=
  { ledger := .default, source, queued := [], accepted := [] }

/-- The reply that is accepted, if any, by what was found for it and its answer. -/
def acceptedReply (input : BrowserBridgeReplyInput) :
    Option String → Option (Except BrowserBridgeError BrowserBridgeReplySuccess) →
      List AcceptedReply
  | some sourceMessageId, some (.ok success) => [{ sourceMessageId, input, success }]
  | _, _ => []

/-- A refused reply accepts nothing. -/
@[simp]
theorem acceptedReply_error (input : BrowserBridgeReplyInput) (found : Option String)
    (error : BrowserBridgeError) : acceptedReply input found (some (.error error)) = [] := by
  cases found <;> rfl

/-- A reply that was cut accepts nothing. -/
@[simp]
theorem acceptedReply_none (input : BrowserBridgeReplyInput) (found : Option String) :
    acceptedReply input found none = [] := by
  cases found <;> rfl

section Code

variable (hashes : Hashes) (serde : Serde PersistedRoomFile)

/-- What a reply comes to in a state. -/
def Machine.reply (m : Machine) (iteration : Iteration) (faults : List Fault) (clock : Clock)
    (input : BrowserBridgeReplyInput) : ReplyOutcome :=
  completeReply hashes serde iteration faults clock input m.ledger m.source

/-- What an event leaves. A process that has stopped does nothing. -/
def step (m : Machine) (event : Event) : Machine :=
  if m.source.running then
    match event with
    | .queue sourceMessage prompt nanoseconds =>
      let (answer, ledger) := queue hashes sourceMessage prompt nanoseconds m.ledger
      let isNew := answer.isOk && !m.queued.contains sourceMessage.id
      { m with ledger, queued := if isNew then m.queued ++ [sourceMessage.id] else m.queued }
    | .nextDispatch => m
    | .completeReply iteration faults clock input =>
      let outcome := m.reply hashes serde iteration faults clock input
      let found := findDispatch iteration input m.ledger.states
      { m with
        ledger := outcome.ledger
        source := outcome.source
        accepted := m.accepted ++ acceptedReply input found outcome.answer }
    | .call call faults => { m with source := RoomSource.apply serde m.source (call, faults) }
  else m

/-- What a run leaves. -/
def run (events : List Event) (m : Machine) : Machine := events.foldl (step hashes serde) m

end Code

/-- The pending dispatches in the order of the queue. -/
def BrowserBridgeLedger.pending (ledger : BrowserBridgeLedger) : List BrowserBridgeDispatch :=
  ledger.order.filterMap fun sourceMessageId => ledger.states[sourceMessageId]?.bind pendingDispatch

/-! ## The queue and its map -/

/-- A dispatch with the identifiers of the message that it is kept under. -/
structure OfMessage (sourceMessageId : String) (dispatch : BrowserBridgeDispatch) : Prop where
  sourceMessageId : dispatch.sourceMessageId = sourceMessageId
  dispatchId : dispatch.dispatchId = s!"browser-gemini:{dispatch.roomId}:{dispatch.sourceMessageId}"

/-- What holds of the queue, its map and the history in every run. -/
structure Machine.Sound (m : Machine) : Prop where
  /-- The queue has the messages with a pending dispatch, each once, in the order in which they were
  queued. -/
  inOrder : InOrder BrowserDispatchState.isPending m.queued m.ledger.order m.ledger.states
  /-- Every dispatch is of the message that it is kept under. -/
  own : ∀ sourceMessageId (state : BrowserDispatchState),
    m.ledger.states[sourceMessageId]? = some state → OfMessage sourceMessageId state.dispatch
  /-- No two accepted replies are to one message. -/
  once : (m.accepted.map (·.sourceMessageId)).Nodup
  /-- The dispatch of an accepted reply is completed with its message. It is the one that the reply
  was for, and its message was found in a room. -/
  completed : ∀ reply ∈ m.accepted, ∃ dispatch,
    m.ledger.states[reply.sourceMessageId]? = some (.completed dispatch reply.success.message) ∧
      reply.input.isFor dispatch = true ∧
      validIdentifier dispatch.roomId = true ∧ validIdentifier dispatch.sourceMessageId = true

section Queue

variable {hashes : Hashes} {ledger : BrowserBridgeLedger}

/-- A state offers a dispatch exactly when it is pending. -/
theorem isSome_pendingDispatch (state : BrowserDispatchState) :
    (pendingDispatch state).isSome = state.isPending := by
  cases state <;> rfl

/-- The dispatch that a pending state offers. -/
theorem pendingDispatch_eq_some {state : BrowserDispatchState} {dispatch : BrowserBridgeDispatch} :
    pendingDispatch state = some dispatch ↔ state = .pending dispatch := by
  cases state <;> simp [pendingDispatch]

/-- The next dispatch is the first of the pending ones. -/
theorem nextDispatch_eq_head? (ledger : BrowserBridgeLedger) :
    nextDispatch ledger = ledger.pending.head? := by
  unfold nextDispatch BrowserBridgeLedger.pending
  exact List.head?_filterMap.symm

/-- The dispatch that a message is queued with. -/
def queuedDispatch (hashes : Hashes) (sourceMessage : RoomMessage) (prompt : String)
    (nanoseconds : ℕ) : BrowserBridgeDispatch :=
  { dispatchId := s!"browser-gemini:{sourceMessage.roomId}:{sourceMessage.id}"
    roomId := sourceMessage.roomId
    sourceMessageId := sourceMessage.id
    prompt
    replyToken := replyToken hashes sourceMessage nanoseconds }

/-- A prompt that is queued. -/
def ValidPrompt (prompt : String) : Prop := isBlank prompt = false ∧ prompt.utf8ByteSize ≤ 32000

/-- What `queue` does: it refuses the prompt, it finds the message known, or it adds it to the end
of the queue. -/
theorem queue_cases (hashes : Hashes) (sourceMessage : RoomMessage) (prompt : String)
    (nanoseconds : ℕ) (ledger : BrowserBridgeLedger) :
    queue hashes sourceMessage prompt nanoseconds ledger = (.error .invalidRequest, ledger) ∨
    (sourceMessage.id ∈ ledger.states ∧
      ∃ result, queue hashes sourceMessage prompt nanoseconds ledger = (.ok result, ledger)) ∨
    (sourceMessage.id ∉ ledger.states ∧ ValidPrompt prompt ∧
      queue hashes sourceMessage prompt nanoseconds ledger = (.ok .queued,
        { order := ledger.order ++ [sourceMessage.id]
          states := ledger.states.insert sourceMessage.id
            (.pending (queuedDispatch hashes sourceMessage prompt nanoseconds)) })) := by
  unfold queue
  split
  · exact .inl rfl
  rename_i hprompt
  have hvalid : ValidPrompt prompt := by
    simp only [Bool.or_eq_true, decide_eq_true_eq, not_or, Bool.not_eq_true] at hprompt
    exact ⟨hprompt.1, by omega⟩
  have hmem : sourceMessage.id ∈ ledger.states ↔ ledger.states[sourceMessage.id]?.isSome = true :=
    ExtTreeMap.mem_iff_isSome_getElem?
  split
  · rename_i hstate
    exact .inr (.inl ⟨by simp [hmem, hstate], _, rfl⟩)
  · rename_i hstate
    exact .inr (.inl ⟨by simp [hmem, hstate], _, rfl⟩)
  · rename_i hstate
    exact .inr (.inr ⟨by simp [hmem, hstate], hvalid, rfl⟩)

end Queue

/-! ## What a reply comes to -/

section Reply

variable {hashes : Hashes} {serde : Serde PersistedRoomFile} {iteration : Iteration}
  {input : BrowserBridgeReplyInput} {states : States}

/-- A reply is for a pending dispatch with its identifier and its token. -/
theorem findDispatch_eq_some {sourceMessageId : String}
    (h : findDispatch iteration input states = some sourceMessageId) :
    ∃ dispatch, states[sourceMessageId]? = some (.pending dispatch) ∧
      input.isFor dispatch = true := by
  unfold findDispatch at h
  obtain ⟨⟨id, state⟩, hmem, hstate⟩ := List.exists_of_findSome?_eq_some h
  have hget : states[id]? = some state :=
    ExtTreeMap.mem_toList_iff_getElem?_eq_some.mp ((iteration.perm states).mem_iff.mp hmem)
  cases state with
  | pending dispatch =>
    dsimp only at hstate
    split at hstate
    · rename_i hfor
      obtain rfl := Option.some.inj hstate
      exact ⟨dispatch, hget, hfor⟩
    · cases hstate
  | completed dispatch message => cases hstate

/-- A reply that is for no pending dispatch is for none. -/
theorem findDispatch_eq_none (h : ∀ (sourceMessageId : String) (dispatch : BrowserBridgeDispatch),
      states[sourceMessageId]? = some (.pending dispatch) → input.isFor dispatch = false) :
    findDispatch iteration input states = none := by
  cases hfind : findDispatch iteration input states with
  | none => rfl
  | some sourceMessageId =>
    obtain ⟨dispatch, hstate, hfor⟩ := findDispatch_eq_some hfind
    rw [h _ _ hstate] at hfor
    cases hfor

variable {faults : List Fault} {clock : Clock} {ledger : BrowserBridgeLedger}
  {source : RoomSource.State}

/-- A reply is drafted for a message of a room, whose identifiers are valid. -/
theorem validIdentifier_of_replyDraft {memory : RoomSnapshot} {dispatch : BrowserBridgeDispatch}
    {body : String} {draft : RoomMessageDraft}
    (h : replyDraft hashes memory clock dispatch body = .ok draft) :
    validIdentifier dispatch.roomId = true ∧ validIdentifier dispatch.sourceMessageId = true := by
  unfold replyDraft at h
  split at h
  · cases h
  rename_i sourceMessage hfound
  unfold findMessage at hfound
  split at hfound
  · cases hfound
  rename_i hvalid
  simpa using hvalid

/-- How an append to the rooms ends. -/
inductive AppendEnds (serde : Serde PersistedRoomFile) (draft : RoomMessageDraft)
    (source : RoomSource.State) :
    Outcome DesktopRoomPersistenceError (Except RoomWriteError RoomWriteSuccess × RoomSnapshot) ×
      World → Prop
  | refused (error : RoomWriteError) (world : World)
    (hagrees : RoomSource.Agrees serde source.memory world.dir) :
    AppendEnds serde draft source (.done (.error error, source.memory), world)
  | stored (saved : RoomWriteSuccess) (memory : RoomSnapshot) (world : World)
    (happend : Core.appendMessage draft source.memory = (.ok saved, memory))
    (hagrees : RoomSource.Agrees serde memory world.dir) :
    AppendEnds serde draft source (.done (.ok saved, memory), world)
  | stopped (world : World) (hagrees : RoomSource.Agrees serde source.memory world.dir) :
    AppendEnds serde draft source (.cut, world)

/-- How the append of a reply's message can end, under any faults. -/
theorem appendEnds (hserde : serde.RoundTrips)
    (h : RoomSource.Agrees serde source.memory source.world.dir) (draft : RoomMessageDraft)
    (faults : List Fault) :
    AppendEnds serde draft source
      ((RoomSource.appendMessage serde draft source.memory).run faults source.world) := by
  unfold RoomSource.appendMessage
  rw [RoomSource.write_result (appendMessage_keepsOnError draft) h.valid]
  rcases happend : Core.appendMessage draft source.memory with ⟨error | saved, memory⟩
  · exact .refused error source.world h
  · have hends := persist_ends serde memory faults source.world
    have hvalid : validateSnapshot memory = .ok () := by
      have hstep := appendMessage_step source.memory draft
      rw [happend] at hstep
      exact validateSnapshot_eq_ok.mpr (hstep.valid (validateSnapshot_eq_ok.mp h.valid))
    dsimp only
    rcases hrun : (persist serde memory).run faults source.world with ⟨_ | _ | _, world⟩
    all_goals rw [hrun] at hends
    · have hholds := RoomSource.holds_of_saved hserde hvalid hends
      exact .stored saved memory world happend ⟨hvalid, .inl hholds⟩
    · exact .refused _ world (h.kept hends)
    · exact .stopped world (h.kept hends)

/-- What a reply comes to: it changes nothing, the process stops, or it is appended to the rooms and
its dispatch is completed. -/
inductive ReplyEnds (hashes : Hashes) (serde : Serde PersistedRoomFile) (iteration : Iteration)
    (clock : Clock) (input : BrowserBridgeReplyInput) (ledger : BrowserBridgeLedger)
    (source : RoomSource.State) : ReplyOutcome → Prop
  | refused (error : BrowserBridgeError) (world : World)
    (hagrees : RoomSource.Agrees serde source.memory world.dir) :
    ReplyEnds hashes serde iteration clock input ledger source
      { answer := some (.error error), ledger, source := { source with world } }
  | stopped (world : World) (hagrees : RoomSource.Agrees serde source.memory world.dir) :
    ReplyEnds hashes serde iteration clock input ledger source
      { answer := none, ledger, source := { source with world, running := false } }
  | stored (sourceMessageId : String) (dispatch : BrowserBridgeDispatch) (body : String)
    (truncated : Bool) (draft : RoomMessageDraft) (saved : RoomWriteSuccess)
    (memory : RoomSnapshot) (world : World)
    (hfind : findDispatch iteration input ledger.states = some sourceMessageId)
    (hstate : ledger.states[sourceMessageId]? = some (.pending dispatch))
    (hfor : input.isFor dispatch = true)
    (hdraft : replyDraft hashes source.memory clock dispatch body = .ok draft)
    (happend : Core.appendMessage draft source.memory = (.ok saved, memory))
    (hagrees : RoomSource.Agrees serde memory world.dir) :
    ReplyEnds hashes serde iteration clock input ledger source
      { answer := some (.ok
          { ok := true, status := replyStatus saved.status, truncated, message := saved.message })
        ledger :=
          { order := ledger.order.filter fun id => id ≠ sourceMessageId
            states := ledger.states.insert sourceMessageId (.completed dispatch saved.message) }
        source := { source with memory, world } }

/-- How a reply can end, under any faults. -/
theorem completeReply_ends (hserde : serde.RoundTrips)
    (h : RoomSource.Agrees serde source.memory source.world.dir) (hashes : Hashes)
    (iteration : Iteration) (faults : List Fault) (clock : Clock)
    (input : BrowserBridgeReplyInput) (ledger : BrowserBridgeLedger) :
    ReplyEnds hashes serde iteration clock input ledger source
      (completeReply hashes serde iteration faults clock input ledger source) := by
  have hrefused : ∀ error, ReplyEnds hashes serde iteration clock input ledger source
      { answer := some (.error error), ledger, source } := fun error =>
        .refused error source.world h
  unfold completeReply
  extract_lets refuse
  -- The refusals come first: the address, the dispatch, the body, and the draft.
  split
  · exact hrefused _
  split
  · exact hrefused _
  rename_i sourceMessageId hfind
  obtain ⟨dispatch, hstate, hfor⟩ := findDispatch_eq_some hfind
  rw [hstate]
  dsimp only
  split
  · exact hrefused _
  rename_i body truncated hbody
  split
  · exact hrefused _
  rename_i draft hdraft
  -- What is left is the write of the reply, which may also stop.
  unfold storeReply
  have hends := appendEnds hserde h draft faults
  generalize (RoomSource.appendMessage serde draft source.memory).run faults source.world = ended
    at hends
  cases hends with
  | refused error world hagrees => exact .refused _ world hagrees
  | stored saved memory world happend hagrees =>
    exact .stored sourceMessageId dispatch body truncated draft saved memory world hfind hstate hfor
      hdraft happend hagrees
  | stopped world hagrees => exact .stopped world hagrees

/-- A reply to a dispatch that is not pending finds none, whether it has been completed or not. -/
theorem completeReply_of_completed (hurl : validGoogleSource input.sourceUrl = true)
    (h : ∀ (sourceMessageId : String) (dispatch : BrowserBridgeDispatch),
      ledger.states[sourceMessageId]? = some (.pending dispatch) → input.isFor dispatch = false) :
    (completeReply hashes serde iteration faults clock input ledger source).answer =
      some (.error .dispatchNotFound) := by
  unfold completeReply
  rw [findDispatch_eq_none h, hurl]
  rfl

end Reply

/-! ## One step -/

section Steps

variable {hashes : Hashes} {serde : Serde PersistedRoomFile} {m : Machine}

/-- A machine that just started is sound. -/
theorem sound_start (source : RoomSource.State) : (Machine.start source).Sound where
  inOrder := .empty _
  own := by
    intro sourceMessageId state h
    simp [Machine.start, BrowserBridgeLedger.default] at h
  once := List.nodup_nil
  completed := by
    intro reply hreply
    cases hreply

/-- A message that is queued the first time goes to the end. -/
theorem Machine.Sound.queue (h : m.Sound) (sourceMessage : RoomMessage) (prompt : String)
    (nanoseconds : ℕ) (hfresh : sourceMessage.id ∉ m.ledger.states) :
    Machine.Sound
      { m with
        ledger :=
          { order := m.ledger.order ++ [sourceMessage.id]
            states := m.ledger.states.insert sourceMessage.id
              (.pending (queuedDispatch hashes sourceMessage prompt nanoseconds)) }
        queued := m.queued ++ [sourceMessage.id] } := by
  have hnone : m.ledger.states[sourceMessage.id]? = none := ExtTreeMap.getElem?_eq_none hfresh
  constructor
  · exact h.inOrder.push hfresh rfl
  · intro id state hstate
    dsimp only at hstate
    by_cases hid : id = sourceMessage.id
    · rw [hid, ExtTreeMap.getElem?_insert_self] at hstate
      obtain rfl := Option.some.inj hstate
      exact ⟨hid.symm, rfl⟩
    · rw [ExtTreeMap.getElem?_insert, if_neg (by simpa using Ne.symm hid)] at hstate
      exact h.own id state hstate
  · exact h.once
  · intro reply hreply
    obtain ⟨dispatch, hstate, hrest⟩ := h.completed reply hreply
    have hid : reply.sourceMessageId ≠ sourceMessage.id := fun heq => by
      rw [heq, hnone] at hstate
      cases hstate
    refine ⟨dispatch, ?_, hrest⟩
    dsimp only
    rw [ExtTreeMap.getElem?_insert, if_neg (by simpa using hid.symm), hstate]

/-- A reply that is stored settles its dispatch, which no reply before it was accepted for. -/
theorem Machine.Sound.store (h : m.Sound) {sourceMessageId : String}
    {dispatch : BrowserBridgeDispatch} {input : BrowserBridgeReplyInput}
    (success : BrowserBridgeReplySuccess) (source : RoomSource.State)
    (hstate : m.ledger.states[sourceMessageId]? = some (.pending dispatch))
    (hfor : input.isFor dispatch = true)
    (hvalid : validIdentifier dispatch.roomId = true ∧
      validIdentifier dispatch.sourceMessageId = true) :
    Machine.Sound
      { m with
        ledger :=
          { order := m.ledger.order.filter fun id => id ≠ sourceMessageId
            states := m.ledger.states.insert sourceMessageId
              (.completed dispatch success.message) }
        source
        accepted := m.accepted ++ [{ sourceMessageId, input, success }] } := by
  have hmem : sourceMessageId ∈ m.ledger.states :=
    ExtTreeMap.mem_iff_isSome_getElem?.mpr (by rw [hstate]; rfl)
  -- No reply was accepted for the dispatch before, as it was pending.
  have hnew : ∀ reply ∈ m.accepted, reply.sourceMessageId ≠ sourceMessageId := by
    intro reply hreply heq
    obtain ⟨other, hother, -⟩ := h.completed reply hreply
    rw [heq, hstate] at hother
    cases hother
  constructor
  · exact h.inOrder.settle hmem rfl
  · intro id state hget
    dsimp only at hget
    by_cases hid : id = sourceMessageId
    · rw [hid, ExtTreeMap.getElem?_insert_self] at hget
      obtain rfl := Option.some.inj hget
      rw [hid]
      have hown := h.own sourceMessageId _ hstate
      exact hown
    · rw [ExtTreeMap.getElem?_insert, if_neg (by simpa using Ne.symm hid)] at hget
      exact h.own id state hget
  · rw [List.map_append, List.map_singleton, List.nodup_append]
    refine ⟨h.once, List.nodup_singleton _, ?_⟩
    intro id hid other hother heq
    obtain ⟨reply, hreply, rfl⟩ := List.mem_map.mp hid
    rw [List.mem_singleton.mp hother] at heq
    exact hnew reply hreply heq
  -- The earlier replies keep their entries, and the last one has its own now.
  · intro reply hreply
    dsimp only
    rcases List.mem_append.mp hreply with hold | hlast
    · obtain ⟨other, hother, hrest⟩ := h.completed reply hold
      refine ⟨other, ?_, hrest⟩
      rw [ExtTreeMap.getElem?_insert, if_neg (by simpa using (hnew reply hold).symm), hother]
    · obtain rfl := List.mem_singleton.mp hlast
      exact ⟨dispatch, ExtTreeMap.getElem?_insert_self, hfor, hvalid⟩

/-- What a step does, apart from what it does to the rooms alone. -/
inductive StepCases (hashes : Hashes) (serde : Serde PersistedRoomFile) (m : Machine) :
    Event → Machine → Prop
  | kept (event : Event) (source : RoomSource.State)
    (hagrees : RoomSource.Agrees serde source.memory source.world.dir)
    (hsource : source.memory = m.source.memory ∨ ∃ call faults, event = .call call faults ∧
      source = RoomSource.apply serde m.source (call, faults)) :
    StepCases hashes serde m event { m with source }
  | queued (sourceMessage : RoomMessage) (prompt : String) (nanoseconds : ℕ)
    (hrunning : m.source.running = true) (hfresh : sourceMessage.id ∉ m.ledger.states)
    (hprompt : ValidPrompt prompt) :
    StepCases hashes serde m (.queue sourceMessage prompt nanoseconds)
      { m with
        ledger :=
          { order := m.ledger.order ++ [sourceMessage.id]
            states := m.ledger.states.insert sourceMessage.id
              (.pending (queuedDispatch hashes sourceMessage prompt nanoseconds)) }
        queued := m.queued ++ [sourceMessage.id] }
  | stored (iteration : Iteration) (faults : List Fault) (clock : Clock)
    (input : BrowserBridgeReplyInput) (sourceMessageId : String) (dispatch : BrowserBridgeDispatch)
    (body : String) (truncated : Bool) (draft : RoomMessageDraft) (saved : RoomWriteSuccess)
    (memory : RoomSnapshot) (world : World) (success : BrowserBridgeReplySuccess)
    (hstate : m.ledger.states[sourceMessageId]? = some (.pending dispatch))
    (hfor : input.isFor dispatch = true)
    (hdraft : replyDraft hashes m.source.memory clock dispatch body = .ok draft)
    (happend : Core.appendMessage draft m.source.memory = (.ok saved, memory))
    (hsuccess : success =
      { ok := true, status := replyStatus saved.status, truncated, message := saved.message })
    (hagrees : RoomSource.Agrees serde memory world.dir) :
    StepCases hashes serde m (.completeReply iteration faults clock input)
      { m with
        ledger :=
          { order := m.ledger.order.filter fun id => id ≠ sourceMessageId
            states := m.ledger.states.insert sourceMessageId
              (.completed dispatch success.message) }
        source := { m.source with memory, world }
        accepted := m.accepted ++ [{ sourceMessageId, input, success }] }

/-- What one event can do to a sound machine. -/
theorem step_cases (hserde : serde.RoundTrips) (hsound : m.Sound)
    (h : RoomSource.Agrees serde m.source.memory m.source.world.dir) (event : Event) :
    StepCases hashes serde m event (step hashes serde m event) := by
  have hkept : ∀ event, StepCases hashes serde m event m := fun event =>
    .kept event m.source h (.inl rfl)
  unfold step
  split
  · rename_i hrunning
    cases event with
    -- A queued message is refused, known already, or new.
    | queue sourceMessage prompt nanoseconds =>
      obtain hrefused | ⟨hmem, result, hknown⟩ | ⟨hfresh, hprompt, hnew⟩ :=
        queue_cases hashes sourceMessage prompt nanoseconds m.ledger
      · simpa [hrefused, Except.isOk, Except.toBool] using hkept _
      · have hqueued : sourceMessage.id ∈ m.queued := (hsound.inOrder.keys _).mpr hmem
        simpa [hknown, hqueued] using hkept _
      · have hqueued : sourceMessage.id ∉ m.queued := fun hq =>
          hfresh ((hsound.inOrder.keys _).mp hq)
        have hisNew :
          (Except.isOk (.ok .queued : Except BrowserBridgeError BrowserBridgeQueueResult) &&
            !m.queued.contains sourceMessage.id) = true := by
          simp [hqueued, Except.isOk, Except.toBool]
        simp only [hnew, hisNew, if_true]
        exact .queued sourceMessage prompt nanoseconds hrunning hfresh hprompt
    | nextDispatch => exact hkept _
    -- The answer of the extension is the only event that settles a dispatch.
    | completeReply iteration faults clock input =>
      have hends := completeReply_ends hserde h hashes iteration faults clock input m.ledger
      dsimp only [Machine.reply]
      generalize completeReply hashes serde iteration faults clock input m.ledger m.source = outcome
        at hends ⊢
      cases hends with
      | refused error world hagrees =>
        simp only [acceptedReply_error, List.append_nil]
        exact .kept _ { m.source with world } hagrees (.inl rfl)
      | stopped world hagrees =>
        simp only [acceptedReply_none, List.append_nil]
        exact .kept _ { m.source with world, running := false } hagrees (.inl rfl)
      | stored sourceMessageId dispatch body truncated draft saved memory world hfind hstate hfor
          hdraft happend hagrees =>
        simp only [hfind]
        exact .stored iteration faults clock input sourceMessageId dispatch body truncated draft
          saved memory world _ hstate hfor hdraft happend rfl hagrees
    | call call faults =>
      exact .kept _ _ (RoomSource.apply_agrees hserde h (call, faults))
        (.inr ⟨call, faults, rfl, rfl⟩)
  · exact hkept _

/-- A run with one more event is one more step. -/
theorem run_concat (before : List Event) (event : Event) (m : Machine) :
    run hashes serde (before ++ [event]) m =
      step hashes serde (run hashes serde before m) event := by
  unfold run
  rw [List.foldl_append, List.foldl_cons, List.foldl_nil]

/-- A step keeps the queue, its map and the history in step, and the rooms with their file. -/
theorem step_sound (hserde : serde.RoundTrips) (hsound : m.Sound)
    (h : RoomSource.Agrees serde m.source.memory m.source.world.dir) (event : Event) :
    (step hashes serde m event).Sound ∧
      RoomSource.Agrees serde (step hashes serde m event).source.memory
        (step hashes serde m event).source.world.dir := by
  have hcases := @step_cases hashes serde m hserde hsound h event
  generalize step hashes serde m event = m' at hcases
  cases hcases with
  | kept event source hagrees hsource =>
    exact ⟨⟨hsound.inOrder, hsound.own, hsound.once, hsound.completed⟩, hagrees⟩
  | queued sourceMessage prompt nanoseconds hrunning hfresh hprompt =>
    exact ⟨hsound.queue sourceMessage prompt nanoseconds hfresh, h⟩
  | stored iteration faults clock input sourceMessageId dispatch body truncated draft saved memory
      world success hstate hfor hdraft happend hsuccess hagrees =>
    have hvalid := validIdentifier_of_replyDraft hdraft
    exact ⟨hsound.store success _ hstate hfor hvalid, hagrees⟩

/-- So does a run. -/
theorem run_sound (hserde : serde.RoundTrips) (events : List Event) (hsound : m.Sound)
    (h : RoomSource.Agrees serde m.source.memory m.source.world.dir) :
    (run hashes serde events m).Sound ∧
      RoomSource.Agrees serde (run hashes serde events m).source.memory
        (run hashes serde events m).source.world.dir := by
  induction events generalizing m with
  | nil => exact ⟨hsound, h⟩
  | cons event events ih =>
    obtain ⟨hsound', h'⟩ := @step_sound hashes serde m hserde hsound h event
    exact ih hsound' h'

end Steps

/-! ## Replies that are sent again -/

/-- No colon is in an identifier. -/
theorem colon_notMem_of_validIdentifier {id : String} (h : validIdentifier id = true) :
    (0x3a : UInt8) ∉ asBytes id := by
  intro hmem
  obtain ⟨index, hindex⟩ := List.mem_iff_getElem?.mp hmem
  obtain ⟨-, -, hbytes⟩ := boundedBytes_iff.mp h
  have hallowed := hbytes 0x3a index hindex
  have hcolon : isAsciiAlphanumeric 0x3a = false := by decide
  simp [hcolon] at hallowed

/-- The identifier of a dispatch tells what it is of, where the room and the message have valid
identifiers. -/
theorem dispatchId_inj {roomId messageId otherRoomId otherMessageId : String}
    (hroom : validIdentifier roomId = true) (hmessage : validIdentifier messageId = true)
    (h : s!"browser-gemini:{otherRoomId}:{otherMessageId}" =
      s!"browser-gemini:{roomId}:{messageId}") :
    otherRoomId = roomId ∧ otherMessageId = messageId := by
  have hbytes := congrArg asBytes h
  have hcolon : asBytes ":" = [0x3a] := by decide
  simp only [toString, asBytes_append, hcolon, List.append_assoc, List.append_cancel_left_eq,
    List.singleton_append] at hbytes
  obtain ⟨hroomId, -, hmessageId⟩ := (List.append_cons_inj_of_notMem
    (colon_notMem_of_validIdentifier hroom) (colon_notMem_of_validIdentifier hmessage)).mp
    hbytes.symm
  exact ⟨(asBytes_inj hroomId).symm, (asBytes_inj hmessageId).symm⟩

/-- A reply with the dispatch, the token and the body of one before. -/
structure BrowserBridgeReplyInput.Repeats (input earlier : BrowserBridgeReplyInput) : Prop where
  dispatchId : input.dispatchId = earlier.dispatchId
  replyToken : input.replyToken = earlier.replyToken
  body : input.body = earlier.body

/-- The event is a reply that repeats one that was accepted. -/
def Retries (m : Machine) (event : Event) : Prop :=
  m.source.running = true ∧ ∃ iteration faults clock input,
    event = .completeReply iteration faults clock input ∧
      ∃ earlier ∈ m.accepted, input.Repeats earlier.input

/-- Where the event is a reply that repeats one that was accepted, it is answered as stored already,
with the message that was stored. -/
def AnsweredAsStored (hashes : Hashes) (serde : Serde PersistedRoomFile) (m : Machine)
    (event : Event) : Prop :=
  m.source.running = true → ∀ iteration faults clock input,
    event = .completeReply iteration faults clock input →
    ∀ earlier ∈ m.accepted, input.Repeats earlier.input → ∃ truncated,
      (m.reply hashes serde iteration faults clock input).answer = some (.ok
        { ok := true, status := "duplicate", truncated, message := earlier.success.message })

section Retries

variable {hashes : Hashes} {serde : Serde PersistedRoomFile} {m : Machine}

/-- A reply that repeats an accepted one is for no pending dispatch. -/
theorem Machine.Sound.not_isFor (h : m.Sound) {input : BrowserBridgeReplyInput}
    {earlier : AcceptedReply} (hearlier : earlier ∈ m.accepted)
    (hrepeats : input.Repeats earlier.input)
    {sourceMessageId : String} {dispatch : BrowserBridgeDispatch}
    (hstate : m.ledger.states[sourceMessageId]? = some (.pending dispatch)) :
    input.isFor dispatch = false := by
  obtain ⟨completed, hcompleted, hfor, hroom, hmessage⟩ := h.completed earlier hearlier
  rw [Bool.eq_false_iff]
  intro hmatches
  simp only [BrowserBridgeReplyInput.isFor, Bool.and_eq_true, beq_iff_eq] at hfor hmatches
  have hown := h.own _ _ hcompleted
  have hown' := h.own _ _ hstate
  dsimp only [BrowserDispatchState.dispatch] at hown hown'
  -- Both dispatches have the identifier of the reply, so they are of one message.
  have hids : dispatch.dispatchId = completed.dispatchId := by
    rw [hmatches.1, hfor.1, hrepeats.dispatchId]
  rw [hown.dispatchId, hown'.dispatchId] at hids
  have hsame := (dispatchId_inj hroom hmessage hids).2
  rw [hown.sourceMessageId, hown'.sourceMessageId] at hsame
  rw [hsame, hcompleted] at hstate
  cases hstate

/-- A reply that repeats an accepted one is never answered with success. -/
theorem Machine.Sound.repeated_refused (h : m.Sound) (iteration : Iteration) (faults : List Fault)
    (clock : Clock) {input : BrowserBridgeReplyInput} {earlier : AcceptedReply}
    (hearlier : earlier ∈ m.accepted) (hrepeats : input.Repeats earlier.input) :
    ∃ error, (m.reply hashes serde iteration faults clock input).answer = some (.error error) := by
  cases hurl : validGoogleSource input.sourceUrl with
  | true =>
    exact ⟨.dispatchNotFound, completeReply_of_completed hurl fun sourceMessageId dispatch hstate =>
      h.not_isFor hearlier hrepeats hstate⟩
  | false =>
    refine ⟨.invalidRequest, ?_⟩
    unfold Machine.reply completeReply
    rw [hurl]
    rfl

/-- An event is answered as it should be exactly where it is not a reply that is sent again. -/
theorem Machine.Sound.answeredAsStored_iff (h : m.Sound) (event : Event) :
    AnsweredAsStored hashes serde m event ↔ ¬Retries m event := by
  constructor
  · rintro hanswered ⟨hrunning, iteration, faults, clock, input, rfl, earlier, hearlier, hrepeats⟩
    obtain ⟨truncated, hduplicate⟩ :=
      hanswered hrunning iteration faults clock input rfl earlier hearlier hrepeats
    obtain ⟨error, herror⟩ :=
      @repeated_refused hashes serde m h iteration faults clock _ _ hearlier hrepeats
    rw [hduplicate] at herror
    cases herror
  · intro hretries hrunning iteration faults clock input hevent earlier hearlier hrepeats
    exact absurd ⟨hrunning, iteration, faults, clock, input, hevent, earlier, hearlier, hrepeats⟩
      hretries

/-- The laws of the queue in a state of a run. -/
structure BridgeLaws (hashes : Hashes) (serde : Serde PersistedRoomFile) (m : Machine) : Prop where
  /-- The queue has exactly the messages with a pending dispatch. -/
  pending : ∀ sourceMessageId, sourceMessageId ∈ m.ledger.order ↔
    ∃ dispatch : BrowserBridgeDispatch,
      m.ledger.states[sourceMessageId]? = some (.pending dispatch)
  /-- It has each of them once. -/
  nodup : m.ledger.order.Nodup
  /-- They wait in the order in which they were queued. -/
  fifo : m.queued.Nodup ∧ m.ledger.order.Sublist m.queued
  /-- The first of them is offered. -/
  next : nextDispatch m.ledger =
    m.ledger.order.head?.bind fun first => m.ledger.states[first]?.bind pendingDispatch
  /-- A reply is accepted for a pending dispatch alone, with its identifier and its token. What it
  does to the rooms is one append, and what that returns is the answer. -/
  accepted : ∀ iteration faults clock input success,
    (m.reply hashes serde iteration faults clock input).answer = some (.ok success) →
    ∃ (sourceMessageId : String) (dispatch : BrowserBridgeDispatch) (draft : RoomMessageDraft)
        (saved : RoomWriteSuccess),
      m.ledger.states[sourceMessageId]? = some (.pending dispatch) ∧
      input.dispatchId = dispatch.dispatchId ∧ input.replyToken = dispatch.replyToken ∧
      Core.appendMessage draft m.source.memory = (.ok saved,
        (m.reply hashes serde iteration faults clock input).source.memory) ∧
      success.status = replyStatus saved.status ∧ success.message = saved.message
  /-- A reply that is not accepted leaves the rooms. -/
  refused : ∀ iteration faults clock input,
    (∀ success, (m.reply hashes serde iteration faults clock input).answer ≠ some (.ok success)) →
    (m.reply hashes serde iteration faults clock input).source.memory = m.source.memory
  /-- At most one reply to a message is accepted. -/
  once : (m.accepted.map (·.sourceMessageId)).Nodup

/-- The laws hold in every sound machine. -/
theorem Machine.Sound.laws (hserde : serde.RoundTrips) (h : m.Sound)
    (hagrees : RoomSource.Agrees serde m.source.memory m.source.world.dir) :
    BridgeLaws hashes serde m := by
  constructor
  · intro sourceMessageId
    rw [h.inOrder.mem_order_iff, isPendingAt, Option.any_eq_true]
    constructor
    · rintro ⟨state, hstate, hpending⟩
      cases state with
      | pending dispatch => exact ⟨dispatch, hstate⟩
      | completed dispatch message => cases hpending
    · rintro ⟨dispatch, hstate⟩
      exact ⟨_, hstate, rfl⟩
  · exact h.inOrder.order_nodup
  · refine ⟨h.inOrder.nodup, ?_⟩
    rw [h.inOrder.order]
    exact List.filter_sublist
  · exact h.inOrder.findSome?_order isSome_pendingDispatch
  · intro iteration faults clock input success hanswer
    have hends := completeReply_ends hserde hagrees hashes iteration faults clock input m.ledger
    unfold Machine.reply at hanswer ⊢
    generalize completeReply hashes serde iteration faults clock input m.ledger m.source = outcome
      at hends hanswer ⊢
    -- Only an answer that was stored is a success.
    cases hends with
    | refused error world => cases hanswer
    | stopped world => cases hanswer
    | stored sourceMessageId dispatch body truncated draft saved memory world hfind hstate hfor
        hdraft happend =>
      obtain rfl := Except.ok.inj (Option.some.inj hanswer)
      simp only [BrowserBridgeReplyInput.isFor, Bool.and_eq_true, beq_iff_eq] at hfor
      exact ⟨sourceMessageId, dispatch, draft, saved, hstate, hfor.1.symm, hfor.2.symm, happend,
        rfl, rfl⟩
  · intro iteration faults clock input hanswer
    have hends := completeReply_ends hserde hagrees hashes iteration faults clock input m.ledger
    unfold Machine.reply at hanswer ⊢
    generalize completeReply hashes serde iteration faults clock input m.ledger m.source = outcome
      at hends hanswer ⊢
    -- And whatever is not a success has left the ledger as it was.
    cases hends with
    | refused error world => rfl
    | stopped world => rfl
    | stored => exact absurd rfl (hanswer _)
  · exact h.once

end Retries

/-- From every start of the application, every run keeps the laws of the queue. And the replies of a
run that are sent again are answered as stored exactly where no reply is sent again. -/
theorem bridge_laws {serde : Serde PersistedRoomFile} (hserde : serde.RoundTrips) (hashes : Hashes)
    {w0 w : World} {startFaults : List Fault} {memory : RoomSnapshot}
    (hstart : (RoomSource.start serde).run startFaults w0 = (.done memory, w))
    (events : List Event) :
    let first := Machine.start { memory, world := w, running := true }
    (∀ before, before <+: events → BridgeLaws hashes serde (run hashes serde before first)) ∧
      ((∀ before event rest, events = before ++ event :: rest →
          AnsweredAsStored hashes serde (run hashes serde before first) event) ↔
        ∀ before event rest, events = before ++ event :: rest →
          ¬Retries (run hashes serde before first) event) := by
  intro first
  have hends := Prog.run_wp _ startFaults w0 (RoomSource.start_wp hserde w0)
  rw [hstart] at hends
  have hreached : ∀ before, (run hashes serde before first).Sound ∧
      RoomSource.Agrees serde (run hashes serde before first).source.memory
        (run hashes serde before first).source.world.dir :=
    fun before => run_sound hserde before (sound_start _) hends.2
  constructor
  · intro before _
    obtain ⟨hsound, hagrees⟩ := hreached before
    exact hsound.laws hserde hagrees
  · constructor
    · intro hanswered before event rest hevents
      exact ((hreached before).1.answeredAsStored_iff event).mp
        (hanswered before event rest hevents)
    · intro hretries before event rest hevents
      exact ((hreached before).1.answeredAsStored_iff event).mpr
        (hretries before event rest hevents)

namespace Sample

/-- Hashes that tell the messages here apart. -/
def hashes : Hashes where
  messageId id := id.length.toUInt64
  token message nanoseconds := (message.id.length.toUInt64, nanoseconds.toUInt64)

/-- The entries of the map in the order of its keys. -/
def inOrder : Iteration := ⟨fun states => states.toList, fun _ => .rfl⟩

/-- The owner's first message of the bundled rooms. -/
def welcome : RoomMessage :=
  message "moe-dev-room" "welcome-1" ownerParticipantId ["claude-web", "codex", "gemini"]
    "みんな、M.I.O.のトークルームUIを作っていきましょうー。" "2026-08-11T19:42:00+09:00"

/-- The reply to it that the browser posts. -/
def input : BrowserBridgeReplyInput where
  dispatchId := "browser-gemini:moe-dev-room:welcome-1"
  replyToken := replyToken hashes welcome 5
  body := "作りましょう。"
  sourceUrl := "https://www.google.com/search"

/-- A moment of 2026. -/
def clock : Clock := some (1786500000, 0)

/-- The bundled snapshot with that reply. -/
def answered : RoomSnapshot :=
  match replyDraft hashes bundledSnapshot clock (queuedDispatch hashes welcome "prompt" 5)
      input.body with
  | .ok draft => (Core.appendMessage draft bundledSnapshot).2
  | .error _ => bundledSnapshot

/-- A serializer that knows the rooms with the reply. -/
def serde : Serde PersistedRoomFile := RoomPersistence.Sample.serde [answered]

/-- The first machine: the bundled rooms, and nothing queued. -/
def first : Machine := .start { memory := bundledSnapshot, world := .empty 7, running := true }

/-- A message is queued and the reply to it is stored. -/
def replied : List Event := [.queue welcome "prompt" 5, .completeReply inOrder [] clock input]

/-- On an empty disk the rooms start as the bundled ones. -/
theorem start_first : (RoomSource.start serde).run [] (.empty 7) =
    (.done bundledSnapshot, .empty 7) :=
  (RoomSource.start_run bundledSnapshot_settled (RoomSource.agrees_first _ rfl rfl)).2

/-- A run in which the reply is stored: the laws hold all along it. -/
theorem bridge_laws_sample :
    (∀ before, before <+: replied → BridgeLaws hashes serde (run hashes serde before first)) ∧
      ((∀ before event rest, replied = before ++ event :: rest →
          AnsweredAsStored hashes serde (run hashes serde before first) event) ↔
        ∀ before event rest, replied = before ++ event :: rest →
          ¬Retries (run hashes serde before first) event) :=
  bridge_laws (RoomPersistence.Sample.serde_roundTrips (by decide) (by decide))
    hashes start_first replied

/-- The browser did not get the answer and posts the reply again. Its dispatch is not found. -/
theorem retry_refused :
    let m := run hashes serde replied first
    m.accepted.map (·.success.status) = ["appended"] ∧
      (m.reply hashes serde inOrder [] clock input).answer = some (.error .dispatchNotFound) ∧
      ¬AnsweredAsStored hashes serde m (.completeReply inOrder [] clock input) := by
  intro m
  have hall : (m.source.running, m.accepted.map (·.input), m.accepted.map (·.success.status),
      (m.reply hashes serde inOrder [] clock input).answer) =
        (true, [input], ["appended"], some (.error .dispatchNotFound)) := by
    decide +kernel
  obtain ⟨hrunning, hrest⟩ := Prod.mk.inj hall
  obtain ⟨hinputs, hrest⟩ := Prod.mk.inj hrest
  obtain ⟨hstatus, hanswer⟩ := Prod.mk.inj hrest
  refine ⟨hstatus, hanswer, fun hstored => ?_⟩
  have hmem : input ∈ m.accepted.map (·.input) := by rw [hinputs]; exact List.mem_singleton_self _
  obtain ⟨earlier, hearlier, hinput⟩ := List.mem_map.mp hmem
  have hrepeats : input.Repeats earlier.input := by rw [hinput]; exact ⟨rfl, rfl, rfl⟩
  obtain ⟨truncated, hduplicate⟩ := hstored hrunning inOrder [] clock input rfl earlier hearlier
    hrepeats
  rw [hanswer] at hduplicate
  cases hduplicate

end Sample

end Mio.Desktop.BrowserBridge
