import Mio.Desktop.AiDispatchOutcomes
import Mio.Desktop.BrowserBridge
import Mio.Desktop.RoomOrchestrator

/-!
# The commands that dispatch a message

`dispatch_message`, `dispatch_recipient`, and `dispatch_orchestration_worker` of
`apps/desktop/src-tauri/src/ai_dispatch.rs` hand a message of a room to one recipient after the
other, and `room_dispatch_unknowns` lists the turns of a room that are open.

A command leaves the records of all other dispatches (`command_yields`), so that what
`dispatch_outcome` says of one recipient still holds when those after it have been served
(`dispatch_message_outcomes`). A turn whose outcome is not known is on the list until its reply is
in the room (`open_turn_listed`), and an orchestration is only told that a worker has failed where
there was no turn (`worker_outcome`).
-/

namespace Mio.Desktop.AiDispatchLedger

open Library Std

/-- The records of the room whose turns were started, and have not failed. -/
def unresolvedForRoom (roomId : String) (ledger : DesktopAiDispatchLedger) :
    Except AiDispatchLedgerError (List AiDispatchRecord) :=
  if !validEntityId roomId then .error .invalid
  else .ok ((ledger.data.records.toList.map fun entry => entry.2).filter fun record =>
    record.roomId == roomId && (record.state == .externalStarted || record.state == .completed))

end Mio.Desktop.AiDispatchLedger

namespace Mio.Desktop.AiDispatch

open Library Std Mio.Core RoomAiContinuity Time AiDispatchLedger
open RoomOrchestrator (OrchestrationWorkerDispatch)

/-! ## The dispatcher -/

/-- What a dispatcher is set up with. The browser bridge answers at each moment whether it listens,
and what its queue gives for a search. -/
structure Dispatcher where
  env : Environment
  geminiAvailable : Bool
  listening : ℕ → Bool
  browserReplyMessageId : String → String
  queueSearch : ℕ → DesktopRoomContext → RoomMessage → Option BrowserBridge.BrowserBridgeQueueResult

/-- The answer of a command that dispatches a message. -/
structure RoomDispatchSuccess where
  ok : Bool
  sourceMessageId : String
  results : List RecipientDispatchResult
  deriving DecidableEq

/-- A turn of which it is not known how it ended. -/
structure RoomDispatchUnknown where
  sourceMessageId : String
  recipientId : String
  code : String
  deriving DecidableEq

/-- The answer with the turns of a room that are open. -/
structure RoomDispatchUnknownsSuccess where
  ok : Bool
  roomId : String
  unknowns : List RoomDispatchUnknown
  deriving DecidableEq

/-- The result where no AI is called. -/
def plainDispatchResult (recipientId : String) (status : RecipientDispatchStatus) :
    RecipientDispatchResult where
  recipientId := recipientId
  status := status
  message := none
  error := none
  context := none

/-- The result for what a dispatch leaves with. -/
def recipientResult (recipientId : String) : Told → RecipientDispatchResult
  | .ok result => result
  | .error error => { plainDispatchResult recipientId .failed with error := some error }

section Code

variable (dispatcher : Dispatcher) {ε : Type}

/-- A dispatch as a function that returns what it tells. -/
def tells (part : DispatchProg RecipientDispatchResult) : Thread Stores ε Told := do
  match ← part.attempt with
  | .ok result => pure (.ok result)
  | .error told => pure told

/-- Whether a participant is a human. -/
def isHuman (participantId : String) : Thread Stores ε Bool :=
  Thread.reads fun _ stores => BrowserBridge.isHumanParticipant stores.rooms participantId

/-- A search by the browser extension. -/
def dispatchGeminiSearch (sourceMessage : RoomMessage) : DispatchProg RecipientDispatchResult := do
  if !(← Thread.reads fun moment _ => dispatcher.listening moment) then
    pure (plainDispatchResult geminiSearchParticipantId .unsupported)
  else
    match ← Thread.reads fun _ stores => findMessage stores.rooms sourceMessage.roomId
        (dispatcher.browserReplyMessageId sourceMessage.id) with
    | .ok message => pure (duplicateDispatchResult geminiSearchParticipantId message)
    | .error .messageNotFound =>
      match ← Thread.reads fun _ stores =>
          stores.rooms.rooms.find? fun room => room.id == sourceMessage.roomId with
      | none => giveUp (mapFindError .roomNotFound)
      | some room =>
        match ← Thread.reads fun moment _ =>
          dispatcher.queueSearch moment { room } sourceMessage with
        | none => giveUp dispatchUnavailable
        | some .queued => pure (plainDispatchResult geminiSearchParticipantId .queued)
        | some (.completed message) =>
          pure (duplicateDispatchResult geminiSearchParticipantId message)
    | .error e => giveUp (mapFindError e)

/-- The dispatch for a recipient. -/
def recipientDispatch (sourceMessage : RoomMessage) (recipientId replyRecipientId : String) :
    DispatchProg RecipientDispatchResult :=
  if recipientId == codexParticipantId then
    dispatchCodex dispatcher.env sourceMessage replyRecipientId
  else if recipientId == claudeCodeParticipantId then
    dispatchClaude dispatcher.env sourceMessage replyRecipientId
  else if recipientId == grokParticipantId then
    dispatchGrok dispatcher.env sourceMessage replyRecipientId
  else if recipientId == geminiSearchParticipantId then
    if dispatcher.geminiAvailable then dispatchGemini dispatcher.env sourceMessage replyRecipientId
    else do
      if !(← isHuman replyRecipientId) then pure (plainDispatchResult recipientId .unsupported)
      else dispatchGeminiSearch dispatcher sourceMessage
  else pure (plainDispatchResult recipientId .unsupported)

/-- The result of a dispatch to one recipient (`dispatch_recipient_result`). -/
def dispatchRecipientResult (sourceMessage : RoomMessage) (recipientId replyRecipientId : String) :
    Thread Stores ε RecipientDispatchResult := do
  let told ← tells (recipientDispatch dispatcher sourceMessage recipientId replyRecipientId)
  pure (recipientResult recipientId told)

/-- One recipient after the other. -/
def dispatchRecipients (sourceMessage : RoomMessage) :
    List String → Thread Stores ε (List RecipientDispatchResult)
  | [] => pure []
  | recipientId :: recipientIds => do
    let result ← dispatchRecipientResult dispatcher sourceMessage recipientId sourceMessage.authorId
    let results ← dispatchRecipients sourceMessage recipientIds
    pure (result :: results)

/-- The message that is to be dispatched. -/
def findSource (roomId messageId : String) :
    Thread Stores RoomDispatchCommandError RoomMessage := do
  match ← Thread.reads fun _ stores => findMessage stores.rooms roomId messageId with
  | .ok message => pure message
  | .error e => Thread.exit (mapFindError e)

/-- Dispatch a message of a human to its recipients, one after the other (`dispatch_message`). -/
def dispatchMessage (roomId messageId : String) :
    Thread Stores RoomDispatchCommandError RoomDispatchSuccess := do
  let sourceMessage ← findSource roomId messageId
  if !(← isHuman sourceMessage.authorId) || sourceMessage.recipients.isEmpty then
    Thread.exit
      { code := "aiDispatchInvalidMessage"
        message := "Only a saved human Room message can be dispatched." }
  else
    let results ← dispatchRecipients dispatcher sourceMessage sourceMessage.recipients
    pure { ok := true, sourceMessageId := sourceMessage.id, results }

/-- The preferences for images only change the prompt for Codex. -/
def dispatchRecipient (roomId messageId recipientId : String) :
    Thread Stores RoomDispatchCommandError RoomDispatchSuccess := do
  let sourceMessage ← findSource roomId messageId
  if !(← isHuman sourceMessage.authorId) || sourceMessage.recipients.isEmpty ||
      !sourceMessage.recipients.contains recipientId then
    Thread.exit
      { code := "aiDispatchInvalidRecipient"
        message := "Only a recipient on the saved human Room message can be dispatched." }
  else
    let result ← dispatchRecipientResult dispatcher sourceMessage recipientId sourceMessage.authorId
    pure { ok := true, sourceMessageId := sourceMessage.id, results := [result] }

/-- Whether a participant can be given a delegation. -/
def supportsOrchestrationWorker (participantId : String) : Bool :=
  participantId == codexParticipantId || participantId == claudeCodeParticipantId ||
    participantId == grokParticipantId ||
    (participantId == geminiSearchParticipantId && dispatcher.geminiAvailable)

/-- What the result of a worker's dispatch is for the orchestration. -/
def workerDispatch (result : RecipientDispatchResult) : OrchestrationWorkerDispatch :=
  match result.status, result.message, result.error with
  | .completed, some message, _ => .completed message
  | .duplicate, some message, _ => .completed message
  | .unknown, _, _ => .unknown
  | .queued, _, _ => .unknown
  | _, _, some error => .failed error.code
  | _, _, none => .failed "workerDispatchFailed"

/-- Dispatch a delegation to its worker, and say what came of it
(`dispatch_orchestration_worker`). -/
def dispatchOrchestrationWorker (sourceMessage : RoomMessage) (conductorId workerId : String) :
    Thread Stores ε OrchestrationWorkerDispatch :=
  if sourceMessage.authorId != conductorId || sourceMessage.recipients != [workerId] ||
      !supportsOrchestrationWorker dispatcher workerId then
    pure (.failed "unsupportedOrInvalidWorkerDispatch")
  else do
    let result ← dispatchRecipientResult dispatcher sourceMessage workerId conductorId
    pure (workerDispatch result)

end Code

/-! ## The open turns of a room -/

/-- What is listed for a record without a reply. -/
def unknownOf (record : AiDispatchRecord) : Option RoomDispatchUnknown :=
  match record.state with
  | .externalStarted => some
      { sourceMessageId := record.sourceMessageId, recipientId := record.recipientId
        code := "aiDispatchOutcomeUnknown" }
  | .completed => some
      { sourceMessageId := record.sourceMessageId, recipientId := record.recipientId
        code := "aiDispatchReplyMissing" }
  | .prepared | .failed => none

/-- The records whose replies are not in their rooms. -/
def listUnknowns : List AiDispatchRecord →
    Thread Stores RoomDispatchCommandError (List RoomDispatchUnknown)
  | [] => pure []
  | record :: records => do
    match ← Thread.reads fun _ stores =>
        findMessage stores.rooms record.roomId record.replyMessageId with
    | .ok _ => listUnknowns records
    | .error .messageNotFound =>
      let unknowns ← listUnknowns records
      pure ((unknownOf record).toList ++ unknowns)
    | .error e => Thread.exit (mapFindError e)

/-- The open turns of a room that have no reply in it (`room_dispatch_unknowns`). -/
def roomDispatchUnknowns (roomId : String) :
    Thread Stores RoomDispatchCommandError RoomDispatchUnknownsSuccess := do
  match ← Thread.reads fun _ stores => unresolvedForRoom roomId stores.ledger with
  | .error _ => Thread.exit dispatchUnavailable
  | .ok records =>
    let unknowns ← listUnknowns records
    pure { ok := true, roomId, unknowns }

/-! ## What a dispatch leaves of another one -/

section Passes

variable {id : String} {before : Held} {others : ℕ → Stores → Stores} {ε ε' α β : Type}

/-- A thread does to what the ledger has of a dispatch what the others may do. -/
def Passes (id : String) (before : Held) (others : ℕ → Stores → Stores) (part : Thread Stores ε α) :
    Prop :=
  ∀ known, Thread.Traced others (held id) known (Yields id before) part
    (fun _ _ => Yields id before)
    (fun _ _ => Yields id before) (Yields id before)

/-- A value leaves the dispatch alone. -/
theorem passes_pure (a : α) : Passes id before others (pure a : Thread Stores ε α) :=
  fun _ => Thread.traced_pure fun _ _ _ h => h

/-- To leave the command leaves the dispatch alone. -/
theorem passes_exit (e : ε) : Passes id before others (Thread.exit e : Thread Stores ε α) :=
  fun _ => Thread.traced_exit fun _ _ _ h => h

/-- Two parts that leave it alone do so together. -/
theorem passes_bind {part : Thread Stores ε α} {next : α → Thread Stores ε β}
    (h : Passes id before others part) (hnext : ∀ a, Passes id before others (next a)) :
    Passes id before others (part >>= next) :=
  fun known => Thread.traced_bind (h known) fun a past _ => hnext a past

/-- A choice between such parts leaves it alone, each under its condition. -/
theorem passes_ite_of {c : Prop} [Decidable c] {part other : Thread Stores ε α}
    (h : c → Passes id before others part) (hother : ¬c → Passes id before others other) :
    Passes id before others (if c then part else other) :=
  fun known => Thread.traced_ite (fun hc => h hc known) fun hc => hother hc known

/-- A choice between two such parts leaves it alone. -/
theorem passes_ite {c : Prop} [Decidable c] {part other : Thread Stores ε α}
    (h : Passes id before others part) (hother : Passes id before others other) :
    Passes id before others (if c then part else other) :=
  passes_ite_of (fun _ => h) fun _ => hother

/-- So does a part whose error is kept as a value. -/
theorem passes_attempt {part : Thread Stores ε α} (h : Passes id before others part) :
    Passes id before others (part.attempt : Thread Stores ε' (Except ε α)) := by
  intro known
  refine (Thread.traced_attempt (h known) fun _ _ => Yields id before).mono (fun _ h => h)
    (fun result _ _ _ h => ?_) (fun _ _ _ _ h => h) fun _ h => h
  cases result with
  | ok a => exact h
  | error e => exact h

/-- Another answer of the ledger leaves what the ledger is then. -/
theorem withAnswer_snd {β γ : Type} (f : β → γ)
    (ended : Library.Outcome AiDispatchLedgerError β × DesktopAiDispatchLedger) :
    (withAnswer f ended).2 = ended.2 := by
  rcases ended with ⟨_ | _ | _, ledger⟩ <;> rfl

section Others

variable (hothers : Thread.Relies others (held id) fun own own' =>
  Yields id before own → Yields id before own')

include hothers

/-- A step leaves it alone that yields for it. -/
theorem passes_step {act : ℕ → Stores → Library.Outcome ε α × Stores}
    (h : ∀ moment stores, Yields id before (held id stores) →
      Yields id before (held id (act moment stores).2)) :
    Passes id before others (Thread.step act) := by
  intro known
  refine hothers.traced_step (fun _ _ _ _ h => h) (fun _ _ _ _ h => h) (fun _ _ h => h)
    fun moment stores past _ hyields => ?_
  have hact := h moment stores hyields
  rcases hrun : act moment stores with ⟨a | e | _, after⟩
  all_goals
    rw [hrun] at hact
    exact hact

/-- A step leaves it alone that leaves what is held of it. -/
theorem passes_rest {act : ℕ → Stores → Library.Outcome ε α × Stores}
    (h : ∀ moment stores, held id (act moment stores).2 = held id stores) :
    Passes id before others (Thread.step act) :=
  passes_step hothers fun moment stores hyields => (h moment stores).symm ▸ hyields

/-- A look at the stores leaves it alone. -/
theorem passes_reads (f : ℕ → Stores → α) :
    Passes id before others (Thread.reads f : Thread Stores ε α) :=
  passes_rest hothers fun _ _ => rfl

/-- A part with something to do at its end leaves it alone if both do. -/
theorem passes_finallyDo {last : Stores → Stores}
    (hlast : ∀ stores, held id (last stores) = held id stores)
    {part : Thread Stores ε α} (h : Passes id before others part) :
    Passes id before others (part.finallyDo last) :=
  fun known => hothers.traced_finallyDo (fun _ _ _ _ _ hstays h => hstays h)
    (fun _ _ _ _ _ hstays h => hstays h) hlast (h known)

variable {env : Environment} {provider : TextProvider} {sourceMessage : RoomMessage}
  {replyRecipientId : String} (hsound : Sound before.data)

section Other

variable (hne : idOf provider sourceMessage ≠ id)

include hsound hne

/-- A mark of another dispatch. -/
theorem mark_passes {change : List Fault → String → DesktopAiDispatchLedger →
      Library.Outcome AiDispatchLedgerError Unit × DesktopAiDispatchLedger}
    {expected next : AiDispatchState} {finish : Bool}
    (hmarks : Marks env (idOf provider sourceMessage) change expected next finish)
    (updatedAt : String) :
    Passes id before others (ledgerStep fun moment => change (env.faults moment) updatedAt) := by
  obtain ⟨toCall, hrun, hmark⟩ := hmarks
  refine passes_step hothers fun moment stores hyields => ?_
  have hspares := hyields.data hsound
  have htarget := LedgerCall.target_of_mark (hmark updatedAt)
  have hcall := (@LedgerCall.ends env.ledgerSerde (env.faults moment) stores.ledger
    (toCall updatedAt)).spares hspares.sound (.inl (htarget ▸ hne))
  rw [hrun, withAnswer_snd] at hcall
  rcases hchange : change (env.faults moment) updatedAt stores.ledger with ⟨_ | e | _, after⟩
  all_goals
    rw [hchange] at hcall
    simp only [hchange]
    exact ⟨fun _ => hspares.trans hcall, hyields.calls⟩

/-- A mark of another dispatch leaves it alone. -/
theorem markAt_passes {change : List Fault → String → DesktopAiDispatchLedger →
      Library.Outcome AiDispatchLedgerError Unit × DesktopAiDispatchLedger}
    {expected next : AiDispatchState} {finish : Bool}
    (hmarks : Marks env (idOf provider sourceMessage) change expected next finish) :
    Passes id before others (mark env change) := by
  refine passes_bind (passes_reads hothers _) fun time => ?_
  cases time with
  | none => exact passes_pure false
  | some updatedAt =>
    refine passes_bind (mark_passes hothers hsound hne hmarks updatedAt) fun result => ?_
    cases result with
    | ok => exact passes_pure true
    | error => exact passes_pure false

/-- The end of another dispatch without a mark leaves it alone. -/
theorem finishUnknown_passes : Passes id before others
    (finishUnknown (idOf provider sourceMessage)) := by
  unfold finishUnknown Thread.changes
  refine passes_step hothers fun moment stores hyields => ?_
  have hspares := hyields.data hsound
  have hcall := (@LedgerCall.ends ⟨fun _ => none, fun _ => none⟩ [] stores.ledger
    (.finishUnknown (idOf provider sourceMessage))).spares hspares.sound (.inl hne)
  exact ⟨fun _ => hspares.trans hcall, hyields.calls⟩

/-- The end of another dispatch with a failure leaves it alone. -/
theorem finishFailed_passes :
    Passes id before others (finishFailed env (idOf provider sourceMessage)) := by
  refine passes_bind (markAt_passes hothers hsound hne finishLocalPreflightFailed_marks)
    fun isMarked => ?_
  exact passes_ite (finishUnknown_passes hothers hsound hne) (passes_pure ())

/-- A failure of another dispatch, with its error, leaves it alone. -/
theorem failed_passes {error : RoomDispatchCommandError} :
    Passes id before others
      (finishFailed env (idOf provider sourceMessage) >>=
        fun _ => (giveUp error : DispatchProg α)) :=
  passes_bind (finishFailed_passes hothers hsound hne) fun _ => passes_exit _

/-- Another dispatch that is told as unknown leaves it alone. -/
theorem leaveUnknown_passes {code message : String} :
    Passes id before others
      (leaveUnknown provider (idOf provider sourceMessage) code message : DispatchProg α) :=
  passes_bind (finishUnknown_passes hothers hsound hne) fun _ => passes_exit _

/-- The preparation of another turn leaves it alone. -/
theorem prepareTurn_passes :
    Passes id before others
      (prepareTurn env provider sourceMessage (idOf provider sourceMessage)) := by
  have haccess : Passes id before others (workspaceAccess env provider) := by
    refine passes_ite (passes_bind (passes_reads hothers _) fun mode => ?_) (passes_pure _)
    cases mode with
    | _ => exact passes_pure _
  have hroot : ∀ access, Passes id before others
      (workspaceRoot env provider sourceMessage (idOf provider sourceMessage) access) := by
    intro access
    cases access with
    | none => exact passes_pure none
    | some access =>
      refine passes_bind (passes_reads hothers _) fun root => ?_
      cases root with
      | ok root => exact passes_pure root
      | error error =>
        -- The workspace is lost: the record is marked, and the dispatch leaves either way.
        refine passes_bind (markAt_passes hothers hsound hne finishLocalPreflightFailed_marks)
          fun isMarked => passes_ite ?_ (passes_exit _)
        exact leaveUnknown_passes hothers hsound hne
  have hcontext : Passes id before others
      (roomContext env sourceMessage (idOf provider sourceMessage)) := by
    refine passes_bind (passes_reads hothers _) fun room => ?_
    cases room with
    | some room => exact passes_pure _
    | none => exact failed_passes hothers hsound hne
  have hcontinuation : Passes id before others
      (storedContinuation env provider sourceMessage (idOf provider sourceMessage)) := by
    refine passes_bind (passes_reads hothers _) fun continuation => ?_
    cases continuation with
    | ok continuation => exact passes_pure _
    | error error => exact failed_passes hothers hsound hne
  -- The parts are prepared in this order, and each may end the dispatch.
  refine passes_bind haccess fun access => passes_bind (hroot access) fun root => ?_
  refine passes_bind hcontext fun context => passes_bind (passes_reads hothers _) fun model => ?_
  refine passes_bind (passes_reads hothers _) fun instructions => ?_
  refine passes_bind hcontinuation fun continuation => ?_
  split
  · exact passes_pure _
  · exact failed_passes hothers hsound hne

/-- The registration of another turn leaves it alone. -/
theorem registerTurn_passes :
    Passes id before others (registerTurn env sourceMessage (idOf provider sourceMessage)) := by
  refine passes_bind (passes_rest hothers fun moment stores => ?_) fun isRegistered => ?_
  · split <;> rfl
  · exact passes_ite (failed_passes hothers hsound hne) (passes_pure ())

omit hsound in
/-- A call of a provider for another dispatch does not count for it. -/
theorem callProvider_passes {request : TextTurnRequest}
    (hid : request.dispatchId = idOf provider sourceMessage) :
    Passes id before others (callProvider env request) := by
  refine passes_rest hothers fun moment stores => ?_
  have hcall : ∀ isCancelled, ¬isCallOf id (.started request.dispatchId isCancelled) = true := by
    intro isCancelled
    rw [hid]
    simpa [isCallOf] using hne
  unfold held
  dsimp only
  rw [List.countP_cons_of_neg (hcall _)]

/-- The save of another reply leaves it alone. -/
theorem saveReply_passes {turn : PreparedTurn} {response : TextTurnResponse} :
    Passes id before others (saveReply env provider sourceMessage replyRecipientId
      (idOf provider sourceMessage) turn response) := by
  have hleave : ∀ {code message : String}, Passes id before others
      (leaveUnknown provider (idOf provider sourceMessage) code message :
        DispatchProg RecipientDispatchResult) :=
    leaveUnknown_passes hothers hsound hne
  unfold saveReply
  split
  · exact hleave
  refine passes_bind (passes_reads hothers _) fun time => ?_
  cases time with
  | none => exact hleave
  | some createdAt =>
    dsimp only
    split
    · exact hleave
    refine passes_bind (passes_rest hothers fun moment stores => ?_) fun saved => ?_
    · split <;> rfl
    cases saved with
    | error e => exact hleave
    | ok saved =>
      refine passes_bind (passes_rest hothers fun moment stores => ?_) fun continuitySaved => ?_
      · split <;> rfl
      refine passes_bind (mark_passes hothers hsound hne markCompleted_marks createdAt)
        fun marked => ?_
      cases marked with
      | ok => exact passes_pure _
      | error => exact passes_bind (finishUnknown_passes hothers hsound hne) fun _ => passes_pure _

/-- Another turn leaves it alone. -/
theorem runTurn_passes {turn : PreparedTurn} :
    Passes id before others (runTurn env provider sourceMessage replyRecipientId
      (idOf provider sourceMessage) turn) := by
  refine passes_bind (passes_reads hothers _) fun prompt => ?_
  refine passes_bind (markAt_passes hothers hsound hne startExternalTurn_marks) fun isMarked => ?_
  refine passes_ite (failed_passes hothers hsound hne) ?_
  refine passes_bind (callProvider_passes hothers hne rfl) fun result =>
    passes_bind ?_ fun response =>
    saveReply_passes hothers hsound hne
  cases result with
  | ok response => exact passes_pure response
  | error error =>
    refine passes_ite ?_ (leaveUnknown_passes hothers hsound hne)
    refine passes_bind (markAt_passes hothers hsound hne finishExternalPreflightFailed_marks)
      fun isMarked => passes_ite (leaveUnknown_passes hothers hsound hne) (passes_exit _)

end Other

include hsound

/-- A begin of another dispatch, or of one that is active, which reserves nothing. -/
theorem beginDispatch_passes
    (hleaves : idOf provider sourceMessage ≠ id ∨ id ∈ before.data.active) (known : Steps) :
    Thread.Traced others (held id) known (Yields id before)
      (beginDispatch env sourceMessage provider.participantId)
      (fun _ _ own => idOf provider sourceMessage ≠ id ∧ Yields id before own)
      (fun _ _ => Yields id before) (Yields id before) := by
  refine Thread.traced_bind (passes_reads hothers _ known) fun time past _ => ?_
  cases time with
  | none => exact Thread.traced_exit fun _ _ _ h => h
  | some updatedAt =>
    have hbegin : Thread.Traced others (held id) past (Yields id before)
        (ledgerStep fun moment => AiDispatchLedger.begin env.ledgerSerde (env.faults moment)
          (dispatchRecord sourceMessage provider.participantId updatedAt))
        (fun result _ own => (result = .ok .reserved → idOf provider sourceMessage ≠ id) ∧
          Yields id before own)
        (fun _ _ => Yields id before) (Yields id before) := by
      refine hothers.traced_step (fun _ _ _ _ hstays h => ⟨h.1, hstays h.2⟩) (fun _ _ _ _ h => h)
        (fun _ _ h => h) fun moment stores _ _ hyields => ?_
      have hspares := hyields.data hsound
      have hends := @begin_ends env.ledgerSerde (env.faults moment) stores.ledger
        (dispatchRecord sourceMessage provider.participantId updatedAt)
      have hcall := hends.spares hspares.sound (hleaves.imp_right fun hactive =>
        ⟨⟨_, rfl⟩, hspares.active.mpr hactive⟩)
      have hbegins := hends.begins hspares.sound
      rw [withAnswer_snd] at hcall
      rcases hrun : AiDispatchLedger.begin env.ledgerSerde (env.faults moment)
        (dispatchRecord sourceMessage provider.participantId updatedAt) stores.ledger with
        ⟨value | e | _, after⟩
      all_goals
        rw [hrun] at hcall hbegins
        simp only [hrun]
      · refine ⟨?_, fun _ => hspares.trans hcall, hyields.calls⟩
        rintro hreserved rfl
        obtain rfl := Except.ok.inj hreserved
        -- What is active is not reserved again.
        exact hbegins.2.1 (hspares.active.mpr (hleaves.resolve_left (fun h => h rfl)))
      · refine ⟨?_, fun _ => hspares.trans hcall, hyields.calls⟩
        rintro ⟨⟩
      · exact ⟨fun _ => hspares.trans hcall, hyields.calls⟩
    refine Thread.traced_bind hbegin fun result _ _ => Thread.traced_and fun hreserved => ?_
    rcases result with e | _ | _ | record
    · exact Thread.traced_exit fun _ _ _ h => h
    · exact Thread.traced_pure fun _ _ _ h => ⟨hreserved rfl, h⟩
    · exact Thread.traced_exit fun _ _ _ h => h
    · exact Thread.traced_exit fun _ _ _ h => h

/-- Another dispatch leaves it alone, and so does any while it is active. -/
theorem dispatchText_passes (hleaves : idOf provider sourceMessage ≠ id ∨ id ∈ before.data.active) :
    Passes id before others (dispatchText env provider sourceMessage replyRecipientId) := by
  have hfind : Passes id before others (findReply provider sourceMessage) := by
    refine passes_bind (passes_reads hothers _) fun found => ?_
    rcases found with e | message
    · cases e with
      | messageNotFound => exact passes_pure ()
      | _ => exact passes_exit _
    · exact passes_exit _
  refine passes_bind hfind fun _ known => ?_
  refine Thread.traced_bind (beginDispatch_passes hothers hsound hleaves known) fun _ past _ =>
    Thread.traced_and fun hne => ?_
  have hrest : Passes id before others (do
      Thread.changes fun _ stores => stores
      let turn ← prepareTurn env provider sourceMessage (idOf provider sourceMessage)
      registerTurn env sourceMessage (idOf provider sourceMessage)
      Thread.finallyDo
        (fun stores => { stores with
          active := TurnCancellation.remove (idOf provider sourceMessage) stores.active })
        (runTurn env provider sourceMessage replyRecipientId
          (idOf provider sourceMessage) turn)) := by
    refine passes_bind (passes_rest hothers fun _ _ => rfl) fun _ => ?_
    refine passes_bind (prepareTurn_passes hothers hsound hne) fun turn => ?_
    refine passes_bind (registerTurn_passes hothers hsound hne) fun _ => ?_
    refine passes_finallyDo hothers ?_ (runTurn_passes hothers hsound hne)
    exact fun _ => rfl
  exact hrest past

/-! ### The commands -/

variable {dispatcher : Dispatcher} {recipientId : String}

omit hsound in
/-- A search with Gemini is no dispatch, and leaves it alone. -/
theorem dispatchGeminiSearch_passes :
    Passes id before others (dispatchGeminiSearch dispatcher sourceMessage) := by
  refine passes_bind (passes_reads hothers _) fun isListening => passes_ite (passes_pure _) ?_
  refine passes_bind (passes_reads hothers _) fun found => ?_
  rcases found with e | message
  · cases e with
    | messageNotFound =>
      refine passes_bind (passes_reads hothers _) fun room => ?_
      cases room with
      | none => exact passes_exit _
      | some room =>
        refine passes_bind (passes_reads hothers _) fun queued => ?_
        rcases queued with _ | _ | message
        · exact passes_exit _
        · exact passes_pure _
        · exact passes_pure _
    | _ => exact passes_exit _
  · exact passes_pure _

/-- A dispatch to one recipient leaves it alone if it is not that dispatch, or while it is
active. -/
theorem dispatchRecipientResult_passes
    (hleaves : dispatchId sourceMessage.id recipientId ≠ id ∨ id ∈ before.data.active) :
    Passes id before others (dispatchRecipientResult dispatcher sourceMessage recipientId
      replyRecipientId : Thread Stores ε RecipientDispatchResult) := by
  have hprovider : ∀ provider : TextProvider, (recipientId == provider.participantId) = true →
      Passes id before others
        (dispatchText dispatcher.env provider sourceMessage replyRecipientId) := by
    intro provider hid
    rw [beq_iff_eq] at hid
    subst hid
    exact dispatchText_passes hothers hsound hleaves
  have hdispatch : Passes id before others
      (recipientDispatch dispatcher sourceMessage recipientId replyRecipientId) := by
    refine passes_ite_of (hprovider codexProvider) fun _ => ?_
    refine passes_ite_of (hprovider claudeProvider) fun _ => ?_
    refine passes_ite_of (hprovider grokProvider) fun _ => ?_
    refine passes_ite_of (fun hgemini => ?_) fun _ => passes_pure _
    refine passes_ite (hprovider geminiProvider hgemini) ?_
    exact passes_bind (passes_reads hothers _) fun isHuman =>
      passes_ite (passes_pure _) (dispatchGeminiSearch_passes hothers)
  refine passes_bind (passes_bind (passes_attempt hdispatch) fun told => ?_) fun told =>
    passes_pure _
  rcases told with left | result
  · exact passes_pure _
  · exact passes_pure _

/-- So do the dispatches to a list of recipients. -/
theorem dispatchRecipients_passes (recipientIds : List String)
    (hleaves : (∀ recipientId ∈ recipientIds, dispatchId sourceMessage.id recipientId ≠ id) ∨
      id ∈ before.data.active) :
    Passes id before others (dispatchRecipients dispatcher sourceMessage recipientIds :
      Thread Stores ε (List RecipientDispatchResult)) := by
  induction recipientIds with
  | nil => exact passes_pure []
  | cons recipientId recipientIds ih =>
    have hhead := hleaves.imp_left fun h => h recipientId List.mem_cons_self
    have htail := hleaves.imp_left fun h other hother => h other (List.mem_cons_of_mem _ hother)
    exact passes_bind (dispatchRecipientResult_passes hothers hsound hhead) fun result =>
      passes_bind (ih htail) fun results => passes_pure _

end Others

end Passes

/-! ## The outcomes of a command -/

/-- The provider that a recipient is dispatched to. -/
def providerOf (dispatcher : Dispatcher) (recipientId : String) : Option TextProvider :=
  if recipientId == codexParticipantId then some codexProvider
  else if recipientId == claudeCodeParticipantId then some claudeProvider
  else if recipientId == grokParticipantId then some grokProvider
  else if recipientId == geminiSearchParticipantId && dispatcher.geminiAvailable then
    some geminiProvider
  else none

section Outcomes

variable {dispatcher : Dispatcher} {provider : TextProvider} {sourceMessage : RoomMessage}
  {recipientId replyRecipientId : String} {before : Held} {others : ℕ → Stores → Stores} {ε : Type}

/-- The dispatch to a recipient with a provider is that of the provider. -/
theorem recipientDispatch_eq (h : providerOf dispatcher recipientId = some provider) :
    recipientDispatch dispatcher sourceMessage recipientId replyRecipientId =
        dispatchText dispatcher.env provider sourceMessage replyRecipientId ∧
      provider.participantId = recipientId := by
  unfold providerOf at h
  unfold recipientDispatch
  by_cases hcodex : (recipientId == codexParticipantId) = true
  · rw [if_pos hcodex] at h ⊢
    obtain rfl := Option.some.inj h
    exact ⟨rfl, (beq_iff_eq.mp hcodex).symm⟩
  rw [if_neg hcodex] at h ⊢
  by_cases hclaude : (recipientId == claudeCodeParticipantId) = true
  · rw [if_pos hclaude] at h ⊢
    obtain rfl := Option.some.inj h
    exact ⟨rfl, (beq_iff_eq.mp hclaude).symm⟩
  rw [if_neg hclaude] at h ⊢
  by_cases hgrok : (recipientId == grokParticipantId) = true
  · rw [if_pos hgrok] at h ⊢
    obtain rfl := Option.some.inj h
    exact ⟨rfl, (beq_iff_eq.mp hgrok).symm⟩
  rw [if_neg hgrok] at h ⊢
  split_ifs at h with hgemini
  rw [Bool.and_eq_true] at hgemini
  rw [if_pos hgemini.1, if_pos hgemini.2]
  obtain rfl := Option.some.inj h
  exact ⟨rfl, (beq_iff_eq.mp hgemini.1).symm⟩

/-- A dispatch that has ended leaves the ledger sound. -/
theorem Ending.sound {env : Environment} {past : Steps} {told : Told} {own : Held}
    (hsound : Sound before.data)
    (h : Ending env provider sourceMessage replyRecipientId before past told own) :
    Sound own.data := by
  cases h with
  | refused h hown => exact (hown.data hsound).sound
  | begun hvacant h =>
    cases h with
    | failed h hown => exact hown.sound
    | unmarked hmark h hown => exact hown.sound
    | confirmed hcall hpreflight h hown => exact hown.sound
    | unknown hcall hopen h hown => exact hown.sound
    | replied hcall htime hdraft hsaved h hown => exact hown.elim (·.sound) (·.1.sound)

/-- What a recipient's dispatch came to: what it told, and how it ended. -/
def Answered (env : Environment) (provider : TextProvider) (sourceMessage : RoomMessage)
    (replyRecipientId : String) (before : Held) (result : RecipientDispatchResult) (past : Steps)
    (own : Held) : Prop :=
  ∃ told, result = recipientResult provider.participantId told ∧
    Thread.Once (Yields (idOf provider sourceMessage))
      (Ending env provider sourceMessage replyRecipientId before past told) own

/-- More steps, and what the others do, change nothing of it. -/
theorem Answered.later {env : Environment} {result : RecipientDispatchResult} {past past' : Steps}
    {own own' : Held}
    (h : Answered env provider sourceMessage replyRecipientId before result past own)
    (hsub : past ⊆ past') (hyields : Yields (idOf provider sourceMessage) own own') :
    Answered env provider sourceMessage replyRecipientId before result past' own' := by
  obtain ⟨told, hresult, hends⟩ := h
  exact ⟨told, hresult, Thread.Once.withstands own own' hyields (hends.mono fun _ h => h.mono hsub)⟩

/-- A dispatch that has answered leaves the ledger sound. -/
theorem Answered.sound {env : Environment} {result : RecipientDispatchResult}
    {past : Steps} {own : Held}
    (hsound : Sound before.data)
    (h : Answered env provider sourceMessage replyRecipientId before result past own) :
    Sound own.data := by
  obtain ⟨told, -, earlier, hearlier, hyields⟩ := h
  exact (hyields.data (hearlier.sound hsound)).sound

section Relies

variable (hrely : Thread.Relies others (held (idOf provider sourceMessage))
  (Yields (idOf provider sourceMessage))) (hsound : Sound before.data)

include hrely hsound

/-- The dispatch to a recipient ends with its result and what the ledger says of it. -/
theorem dispatchRecipientResult_answered
    (hprovider : providerOf dispatcher recipientId = some provider)
    (known : Steps) :
    Thread.Traced others (held (idOf provider sourceMessage)) known
      (Yields (idOf provider sourceMessage) before)
      (dispatchRecipientResult dispatcher sourceMessage recipientId replyRecipientId :
        Thread Stores ε RecipientDispatchResult)
      (Answered dispatcher.env provider sourceMessage replyRecipientId before)
      (fun _ _ _ => True) (fun _ => True) := by
  obtain ⟨hdispatch, hid⟩ := @recipientDispatch_eq dispatcher provider sourceMessage recipientId
    replyRecipientId hprovider
  have hends :=
    @dispatchText_ends dispatcher.env provider sourceMessage replyRecipientId before others
    known hrely hsound
  rw [← hdispatch] at hends
  -- The command tells the end of its dispatch, which may only grow by what comes after.
  have htold : Thread.Traced others (held (idOf provider sourceMessage)) known
      (Yields (idOf provider sourceMessage) before)
      (tells (recipientDispatch dispatcher sourceMessage recipientId replyRecipientId) :
        Thread Stores ε Told)
      (fun told past => Thread.Once (Yields (idOf provider sourceMessage))
        (Ending dispatcher.env provider sourceMessage replyRecipientId before past told))
      (fun _ _ _ => True) (fun _ => True) := by
    refine Thread.traced_bind ((Thread.traced_attempt hends fun _ _ _ => True).mono (fun _ h => h)
      (fun _ _ _ _ h => h) (fun _ _ _ _ h => h) fun _ _ => trivial) fun result past _ => ?_
    cases result with
    | ok result =>
      exact Thread.traced_pure fun later own hsub h => h.mono fun _ hending => hending.mono hsub
    | error told =>
      exact Thread.traced_pure fun later own hsub h => h.mono fun _ hending => hending.mono hsub
  refine Thread.traced_bind htold fun told past _ => Thread.traced_pure fun later own hsub h => ?_
  exact ⟨told, by rw [hid], h.mono fun _ hending => hending.mono hsub⟩

/-- The dispatches after it leave what a recipient was answered. -/
theorem dispatchRecipients_keeps {result : RecipientDispatchResult} {recipientIds : List String}
    (hne : ∀ other ∈ recipientIds, dispatchId sourceMessage.id other ≠ idOf provider sourceMessage)
    (known : Steps) :
    Thread.Traced others (held (idOf provider sourceMessage)) known
      (Answered dispatcher.env provider sourceMessage replyRecipientId before result known)
      (dispatchRecipients dispatcher sourceMessage recipientIds :
        Thread Stores ε (List RecipientDispatchResult))
      (fun _ => Answered dispatcher.env provider sourceMessage replyRecipientId before result)
      (fun _ _ _ => True) (fun _ => True) := by
  intro now hknown hnow
  refine Thread.wp_mono (dispatchRecipients_passes (fun moment stores h => ?_) (hnow.sound hsound)
    recipientIds (.inl hne) known now hknown (.refl _)) (fun results after h => ?_)
    (fun _ _ h => ⟨h.1, trivial⟩) fun _ _ => trivial
  · exact h.trans (hrely moment stores)
  · exact ⟨h.1, hnow.later h.1 h.2⟩

/-- Each recipient of the list has its result at the end, and the ledger still says of it what it
said then. -/
theorem dispatchRecipients_answered {recipientIds : List String} (hnodup : recipientIds.Nodup)
    (hprovider : providerOf dispatcher recipientId = some provider) {i : ℕ}
    (hi : recipientIds[i]? = some recipientId) (known : Steps) :
    Thread.Traced others (held (idOf provider sourceMessage)) known
      (Yields (idOf provider sourceMessage) before)
      (dispatchRecipients dispatcher sourceMessage recipientIds :
        Thread Stores ε (List RecipientDispatchResult))
      (fun results past own => ∃ result, results[i]? = some result ∧
        Answered dispatcher.env provider sourceMessage sourceMessage.authorId
          before result past own)
      (fun _ _ _ => True) (fun _ => True) := by
  have hid := (@recipientDispatch_eq dispatcher provider sourceMessage recipientId "" hprovider).2
  -- Dispatches of one message to two recipients have two ids.
  have hinj : ∀ other, other ≠ recipientId →
      dispatchId sourceMessage.id other ≠ idOf provider sourceMessage := by
    intro other hother hsame
    unfold idOf dispatchId at hsame
    rw [hid] at hsame
    exact hother ((String.append_right_inj _).mp hsame)
  -- By induction on the recipients: the one in question is either the first or among the rest.
  induction recipientIds generalizing i known with
  | nil => simp at hi
  | cons first rest ih =>
    obtain ⟨hfresh, hnodup⟩ := List.nodup_cons.mp hnodup
    unfold dispatchRecipients
    cases i with
    | zero =>
      -- Its own dispatch answers, and the dispatches of the recipients after it leave that.
      obtain rfl : first = recipientId := by simpa using hi
      refine Thread.traced_bind (dispatchRecipientResult_answered hrely hsound hprovider known)
        fun result past _ => ?_
      refine Thread.traced_bind
        (dispatchRecipients_keeps hrely hsound (fun other hother => ?_) past)
        fun results later hlater => ?_
      · exact hinj other fun heq => hfresh (heq ▸ hother)
      · exact Thread.traced_pure fun last own hsub h => ⟨result, rfl, h.later hsub (.refl _)⟩
    | succ i =>
      have hlater : rest[i]? = some recipientId := by simpa using hi
      have hne : first ≠ recipientId := fun heq => hfresh (heq ▸ List.mem_of_getElem? hlater)
      -- The dispatches of the recipients before it leave its record as it was.
      have hfirst : Passes (idOf provider sourceMessage) before others
          (dispatchRecipientResult dispatcher sourceMessage first sourceMessage.authorId :
            Thread Stores ε RecipientDispatchResult) :=
        dispatchRecipientResult_passes (fun moment stores h => h.trans (hrely moment stores)) hsound
          (.inl (hinj first hne))
      refine Thread.traced_bind ((hfirst known).mono (fun _ h => h) (fun _ _ _ _ h => h)
        (fun _ _ _ _ _ => trivial) fun _ _ => trivial) fun result past _ => ?_
      refine Thread.traced_bind (ih hnodup hlater past) fun results later _ => ?_
      refine Thread.traced_pure fun last own hsub h => ?_
      obtain ⟨answered, hresult, h⟩ := h
      exact ⟨answered, by simpa using hresult, h.later hsub (.refl _)⟩

end Relies

/-- There is one result for each recipient. -/
theorem dispatchRecipients_length (recipientIds : List String) :
    (dispatchRecipients dispatcher sourceMessage recipientIds :
      Thread Stores ε (List RecipientDispatchResult)).Gives
      (fun results => results.length = recipientIds.length) fun _ => True := by
  induction recipientIds with
  | nil => exact Thread.gives_pure rfl
  | cons first rest ih =>
    refine Thread.gives_then (Thread.gives_anyway _) fun result => ?_
    exact Thread.gives_bind ih fun results h => Thread.gives_pure (by simp [h])

end Outcomes

/-! ## The laws -/

/-- A command that dispatches, or that lists the open turns of a room. -/
inductive DispatchCommand where
  | message (roomId messageId : String)
  | recipient (roomId messageId recipientId : String)
  | worker (sourceMessage : RoomMessage) (conductorId workerId : String)
  | unknowns (roomId : String)

/-- The thread of a command. -/
def DispatchCommand.run (dispatcher : Dispatcher) :
    DispatchCommand → Thread Stores RoomDispatchCommandError Unit
  | message roomId messageId => do let _ ← dispatchMessage dispatcher roomId messageId
  | recipient roomId messageId recipientId => do
    let _ ← dispatchRecipient dispatcher roomId messageId recipientId
  | worker sourceMessage conductorId workerId => do
    let _ ← dispatchOrchestrationWorker dispatcher sourceMessage conductorId workerId
  | unknowns roomId => do let _ ← roomDispatchUnknowns roomId

/-- The dispatches that a command makes, where these are the rooms. -/
def DispatchCommand.Serves (rooms : RoomSnapshot) (id : String) : DispatchCommand → Prop
  | message roomId messageId =>
    ∃ sourceMessage, findMessage rooms roomId messageId = .ok sourceMessage ∧
    ∃ recipientId ∈ sourceMessage.recipients, dispatchId sourceMessage.id recipientId = id
  | recipient _ messageId recipientId => dispatchId messageId recipientId = id
  | worker sourceMessage _ workerId => dispatchId sourceMessage.id workerId = id
  | unknowns _ => False

/-- A message that is found has the identifier, and is in one of the rooms. -/
theorem findMessage_found {rooms : RoomSnapshot} {roomId messageId : String} {message : RoomMessage}
    (h : findMessage rooms roomId messageId = .ok message) :
    message.id = messageId ∧ ∃ room ∈ rooms.rooms, message ∈ room.messages := by
  unfold findMessage at h
  split at h
  · cases h
  split at h
  · cases h
  · next room hroom =>
    split at h
    · cases h
    · next found hfound =>
      obtain rfl := Except.ok.inj h
      exact ⟨by simpa using List.find?_some hfound, room, List.mem_of_find?_eq_some hroom,
        List.mem_of_find?_eq_some hfound⟩

namespace DispatchSample

/-- A dispatcher whose providers answer. -/
def dispatcher : Dispatcher where
  env := ReplySample.environment
  geminiAvailable := false
  listening _ := false
  browserReplyMessageId id := id
  queueSearch _ _ _ := none

/-- An environment in which a turn starts, and is not answered. -/
def silent : Environment :=
    { ReplySample.environment with runTextTurn := fun _ _ => .error .unavailable }

/-- A room with a message to two participants. -/
def shared : RoomSnapshot :=
  { sampleSnapshot with
    participants := sampleSnapshot.participants ++ [⟨"claude-code", "Claude Code", .ai⟩]
    rooms :=
      [{ id := "room"
         name := "Room"
         participantIds := ["owner", "codex", "claude-code"]
         messages :=
          [⟨"m1", "room", "owner", ["codex", "claude-code"], "Hello", "2026-08-12", [], none⟩] }] }

/-- No other thread does anything. -/
def idle (_ : ℕ) (stores : Stores) : Stores := stores

/-- The stores where nothing was dispatched. -/
def stores (rooms : RoomSnapshot) : Stores := (ReplySample.now rooms).state

/-- The sample ledger is sound. -/
theorem sound_stores (rooms : RoomSnapshot) : Sound (stores rooms).ledger.data :=
  ⟨.empty _, fun id hactive => by simp [stores, ReplySample.now] at hactive⟩

/-- Threads that do nothing keep to what a dispatch relies on. -/
theorem relies_idle (id : String) : Thread.Relies idle (held id) (Yields id) := fun _ _ => .refl _

/-- Whether a thread has returned. -/
def returned {ε α : Type} : Library.Outcome ε α × Instant Stores → Bool
  | (.done _, _) => true
  | _ => false

/-- A run that has returned has a value. -/
theorem exists_of_returned {ε α : Type} {ran : Library.Outcome ε α × Instant Stores}
    (h : returned ran = true) : ∃ value after, ran = (.done value, after) := by
  rcases ran with ⟨value | e | _, after⟩
  · exact ⟨value, after, rfl⟩
  · cases h
  · cases h

end DispatchSample

section Laws

variable {id : String} {before : Held} {others : ℕ → Stores → Stores} {ε α β : Type}

/-- The message that is found is the one that is asked for. -/
theorem findSource_gives (roomId messageId : String) :
    (findSource roomId messageId).Gives (fun message => message.id = messageId) fun _ => True := by
  have hread : (Thread.reads fun _ (stores : Stores) => findMessage stores.rooms roomId messageId :
      Thread Stores RoomDispatchCommandError (Except RoomMessageFindError RoomMessage)).Gives
      (fun found => ∀ message, found = .ok message → message.id = messageId) fun _ => True :=
    Thread.gives_reads fun _ _ _ h => (findMessage_found h).1
  refine Thread.gives_bind hread fun found hfound => ?_
  cases found with
  | ok message => exact Thread.gives_pure (hfound message rfl)
  | error e => exact Thread.gives_exit trivial

/-- Two parts leave it alone together where the second does for what the first can give. -/
theorem passes_bind_of {answer : α → Prop} {leaves : ε → Prop} {part : Thread Stores ε α}
    {next : α → Thread Stores ε β} (h : Passes id before others part)
    (hgives : part.Gives answer leaves)
    (hnext : ∀ a, answer a → Passes id before others (next a)) :
    Passes id before others (part >>= next) :=
  fun known => Thread.traced_bind ((h known).gives hgives) fun a past _ =>
    Thread.traced_and fun ha => hnext a ha past

/-- From a moment at which the others have done what they may do, a thread that passes does no more.
-/
theorem Passes.wp {part : Thread Stores ε α} (h : Passes id before others part)
    {now : Instant Stores}
    (hnow : Yields id before (held id now.state)) :
    Thread.wp others part (fun _ later => Yields id before (held id later.state))
      (fun _ later => Yields id before (held id later.state))
      (fun later => Yields id before (held id later.state)) now :=
  Thread.wp_mono (h now.past now (List.Subset.refl _) hnow) (fun _ _ h => h.2) (fun _ _ h => h.2)
    fun _ h => h

section Others

variable (hothers : Thread.Relies others (held id) fun own own' =>
  Yields id before own → Yields id before own')

include hothers

/-- The lookup of the source message leaves every dispatch alone. -/
theorem findSource_passes (roomId messageId : String) :
    Passes id before others (findSource roomId messageId) := by
  refine passes_bind (passes_reads hothers _) fun found => ?_
  cases found with
  | ok message => exact passes_pure message
  | error e => exact passes_exit _

/-- The list of the open turns leaves every dispatch alone. -/
theorem listUnknowns_passes (records : List AiDispatchRecord) :
    Passes id before others (listUnknowns records) := by
  induction records with
  | nil => exact passes_pure []
  | cons record records ih =>
    refine passes_bind (passes_reads hothers _) fun found => ?_
    rcases found with e | message
    · cases e with
      | messageNotFound => exact passes_bind ih fun unknowns => passes_pure _
      | _ => exact passes_exit _
    · exact ih

/-- The message is looked for in the rooms as they are, and its recipients are served. -/
theorem dispatchMessage_yields (hsound : Sound before.data) (dispatcher : Dispatcher)
    {now : Instant Stores} (hnow : Yields id before (held id now.state)) {roomId messageId : String}
    (hleaves : ¬(DispatchCommand.message roomId messageId).Serves now.state.rooms id ∨
      id ∈ before.data.active) :
    Thread.wp others (dispatchMessage dispatcher roomId messageId)
      (fun _ later => Yields id before (held id later.state))
      (fun _ later => Yields id before (held id later.state))
      (fun later => Yields id before (held id later.state)) now := by
  have hlater : Yields id before (held id (now.after others now.state).state) :=
    hothers now.moment now.state hnow
  unfold dispatchMessage findSource
  rw [Thread.wp_bind, Thread.wp_bind, Thread.wp_reads]
  rcases hfind : findMessage now.state.rooms roomId messageId with e | sourceMessage
  · exact hlater
  · show Thread.wp others (isHuman sourceMessage.authorId >>= _) _ _ _ _
    refine Passes.wp (passes_bind (passes_reads hothers _) fun isHuman =>
      passes_ite (passes_exit _) ?_)
      hlater
    refine passes_bind (dispatchRecipients_passes hothers hsound _ ?_) fun results => passes_pure _
    exact hleaves.imp_left fun h recipientId hmem hid =>
      h ⟨sourceMessage, hfind, recipientId, hmem, hid⟩

/-- A command yields for every dispatch that it does not make, and for every one that is active. -/
theorem DispatchCommand.run_yields (hsound : Sound before.data) (dispatcher : Dispatcher)
    (command : DispatchCommand) {now : Instant Stores} (hnow : Yields id before (held id now.state))
    (hleaves : ¬command.Serves now.state.rooms id ∨ id ∈ before.data.active) :
    Thread.wp others (command.run dispatcher)
      (fun _ later => Yields id before (held id later.state))
      (fun _ later => Yields id before (held id later.state))
      (fun later => Yields id before (held id later.state)) now := by
  -- A dispatch to another recipient leaves the record, and so does whatever only reads.
  cases command with
  | message roomId messageId =>
    unfold DispatchCommand.run
    rw [Thread.wp_bind]
    exact dispatchMessage_yields hothers hsound dispatcher hnow hleaves
  | recipient roomId messageId recipientId =>
    refine Passes.wp (passes_bind ?_ fun _ => passes_pure ()) hnow
    refine passes_bind_of (findSource_passes hothers roomId messageId)
      (findSource_gives roomId messageId)
      fun message hid => passes_bind (passes_reads hothers _) fun isHuman =>
        passes_ite (passes_exit _) ?_
    refine passes_bind (dispatchRecipientResult_passes hothers hsound ?_) fun result =>
      passes_pure _
    rw [hid]
    exact hleaves
  -- A message that is not from the conductor to this worker alone is refused.
  | worker sourceMessage conductorId workerId =>
    refine Passes.wp (passes_bind (passes_ite (passes_pure _) ?_) fun _ => passes_pure ()) hnow
    exact passes_bind (dispatchRecipientResult_passes hothers hsound hleaves) fun result =>
      passes_pure _
  | unknowns roomId =>
    refine Passes.wp ?_ hnow
    refine passes_bind (passes_bind (passes_reads hothers _) fun found => ?_) fun _ =>
      passes_pure ()
    cases found with
    | error e => exact passes_exit _
    | ok records =>
      exact passes_bind (listUnknowns_passes hothers records) fun unknowns => passes_pure _

end Others

/-- A command leaves what the ledger has of a dispatch that it does not serve, but that it may prune
the record of a turn that is over, and calls no provider for it. While a dispatch is active, so does
a command that serves it. -/
theorem command_yields (dispatcher : Dispatcher) (command : DispatchCommand) (id : String)
    (others : ℕ → Stores → Stores) (now : Instant Stores)
    (hothers : Thread.Relies others (held id) fun own own' =>
      Yields id (held id now.state) own → Yields id (held id now.state) own')
    (hsound : Sound now.state.ledger.data)
    (hleaves : ¬command.Serves now.state.rooms id ∨ id ∈ now.state.ledger.data.active) :
    Yields id (held id now.state) (held id (command.run dispatcher others now).2.state) := by
  have hyields := DispatchCommand.run_yields hothers hsound dispatcher command (.refl _) hleaves
  unfold Thread.wp at hyields
  rcases hrun : command.run dispatcher others now with ⟨value | e | _, after⟩
  all_goals
    rw [hrun] at hyields
    exact hyields

open DispatchSample in
/-- A command for one of the recipients leaves the dispatch to the other. -/
theorem command_yields_sample :
    ¬(DispatchCommand.recipient "room" "m1" "codex").Serves shared (dispatchId "m1" "claude-code") ∧
      (∃ after, (DispatchCommand.recipient "room" "m1" "codex").run dispatcher idle
          { moment := 0, state := stores shared } = (.done (), after) ∧
        (held (dispatchId "m1" "codex") after.state).calls = 1) ∧
      Yields (dispatchId "m1" "claude-code") (held (dispatchId "m1" "claude-code") (stores shared))
        (held (dispatchId "m1" "claude-code") ((DispatchCommand.recipient "room" "m1" "codex").run
          dispatcher idle { moment := 0, state := stores shared }).2.state) := by
  have hother : ¬(DispatchCommand.recipient "room" "m1" "codex").Serves shared
      (dispatchId "m1" "claude-code") := by
    show ¬dispatchId "m1" "codex" = dispatchId "m1" "claude-code"
    decide
  have hyields := command_yields dispatcher (.recipient "room" "m1" "codex")
    (dispatchId "m1" "claude-code") idle { moment := 0, state := stores shared } (fun _ _ h => h)
    (sound_stores shared) (.inl hother)
  have hreturned : returned ((DispatchCommand.recipient "room" "m1" "codex").run dispatcher idle
      { moment := 0, state := stores shared }) = true := by decide +kernel
  have hcalls : (held (dispatchId "m1" "codex") ((DispatchCommand.recipient "room" "m1" "codex").run
      dispatcher idle { moment := 0, state := stores shared }).2.state).calls = 1 := by
        decide +kernel
  obtain ⟨value, after, hrun⟩ := exists_of_returned hreturned
  refine ⟨hother, ⟨after, hrun, ?_⟩, hyields⟩
  rw [hrun] at hcalls
  exact hcalls

/-- What a recipient of a message was answered, as far as it is one that is dispatched to a
provider. -/
def AnsweredFor (dispatcher : Dispatcher) (sourceMessage : RoomMessage) (stores : Stores)
    (after : Instant Stores) (recipientId : String) (result : RecipientDispatchResult) : Prop :=
  ∀ provider, providerOf dispatcher recipientId = some provider →
    Answered dispatcher.env provider sourceMessage sourceMessage.authorId
      (held (idOf provider sourceMessage) stores) result after.past
      (held (idOf provider sourceMessage) after.state)

/-- A recipient of a message that is dispatched to a provider. -/
structure Slot (dispatcher : Dispatcher) (sourceMessage : RoomMessage) where
  index : ℕ
  recipientId : String
  provider : TextProvider
  hindex : sourceMessage.recipients[index]? = some recipientId
  hprovider : providerOf dispatcher recipientId = some provider

/-- The recipient of a slot is one of the message. -/
theorem Slot.mem {dispatcher : Dispatcher} {sourceMessage : RoomMessage}
    (q : Slot dispatcher sourceMessage) : q.provider.participantId ∈ sourceMessage.recipients := by
  rw [(@recipientDispatch_eq dispatcher q.provider sourceMessage q.recipientId "" q.hprovider).2]
  exact List.mem_of_getElem? q.hindex

/-- At the end of the list, every slot has its result and what the ledger says of it. -/
theorem dispatchRecipients_slots {dispatcher : Dispatcher} {sourceMessage : RoomMessage}
    {stores : Stores}
    {now : Instant Stores}
    (hrely : ∀ q : Slot dispatcher sourceMessage,
      Thread.Relies others (held (idOf q.provider sourceMessage))
        (Yields (idOf q.provider sourceMessage)))
    (hsound : Sound stores.ledger.data) (hnodup : sourceMessage.recipients.Nodup)
    (hstart : ∀ q : Slot dispatcher sourceMessage, Yields (idOf q.provider sourceMessage)
      (held (idOf q.provider sourceMessage) stores)
        (held (idOf q.provider sourceMessage) now.state)) :
    Thread.wp others (dispatchRecipients dispatcher sourceMessage sourceMessage.recipients :
        Thread Stores ε (List RecipientDispatchResult))
      (fun results later => results.length = sourceMessage.recipients.length ∧
        ∀ q : Slot dispatcher sourceMessage, ∃ result, results[q.index]? = some result ∧
          Answered dispatcher.env q.provider sourceMessage sourceMessage.authorId
            (held (idOf q.provider sourceMessage) stores) result later.past
            (held (idOf q.provider sourceMessage) later.state))
      (fun _ _ => True) (fun _ => True) now := by
  have hslots := Thread.wp_all fun q : Slot dispatcher sourceMessage =>
    Thread.wp_mono (@dispatchRecipients_answered dispatcher q.provider sourceMessage q.recipientId
      (held (idOf q.provider sourceMessage) stores) others ε
        (hrely q) hsound sourceMessage.recipients
      hnodup q.hprovider q.index q.hindex now.past now (List.Subset.refl _) (hstart q))
      (fun _ _ h => h.2) (fun _ _ _ => trivial) fun _ _ => trivial
  exact Thread.wp_mono (Thread.wp_and ((dispatchRecipients_length _).wp now) hslots)
    (fun _ _ h => h)
    (fun _ _ _ => trivial) fun _ _ => trivial

/-- The reply of a dispatch is not in the room. -/
def ReplyMissing (provider : TextProvider) (sourceMessage : RoomMessage) (stores : Stores) : Prop :=
  findMessage stores.rooms sourceMessage.roomId
    (replyMessageId sourceMessage.id provider.participantId) = .error .messageNotFound

/-- The reply that the provider gave to the dispatch was stored in the room. -/
def Stored (env : Environment) (provider : TextProvider) (sourceMessage : RoomMessage)
    (replyRecipientId : String) (past : Steps) : Prop :=
  ∃ response createdAt draft saved, Called env provider sourceMessage past (.ok response) ∧
    Timed env past createdAt ∧
    replyDraft provider sourceMessage replyRecipientId createdAt response = .ok draft ∧
    StoreAnswers env past draft (.ok saved)

/-- A record whose reply is missing is listed, whatever else the others do to the rooms. -/
theorem listUnknowns_lists {provider : TextProvider} {sourceMessage : RoomMessage}
    {state : AiDispatchState} {updatedAt : String} {unknown : RoomDispatchUnknown}
    (hunknown : unknownOf (recordIn provider sourceMessage state updatedAt) = some unknown)
    (hmissing : Thread.Stable others (ReplyMissing provider sourceMessage))
    {records : List AiDispatchRecord}
    (hmem : recordIn provider sourceMessage state updatedAt ∈ records)
    {now : Instant Stores} (hnow : ReplyMissing provider sourceMessage now.state) :
    Thread.wp others (listUnknowns records) (fun unknowns _ => unknown ∈ unknowns)
      (fun _ _ => True) (fun _ => True) now := by
  -- By induction on the records; the reply stays missing at each of the searches.
  induction records generalizing now with
  | nil => cases hmem
  | cons record records ih =>
    have hlater : ReplyMissing provider sourceMessage (now.after others now.state).state :=
      hmissing now.moment now.state hnow
    unfold listUnknowns
    rw [Thread.wp_bind, Thread.wp_reads]
    by_cases hrecord : record = recordIn provider sourceMessage state updatedAt
    · subst hrecord
      have hfind :
        findMessage now.state.rooms (recordIn provider sourceMessage state updatedAt).roomId
          (recordIn provider sourceMessage state updatedAt).replyMessageId =
            .error .messageNotFound :=
        hnow
      rw [hfind]
      show Thread.wp others (listUnknowns records >>= _) _ _ _ _
      rw [Thread.wp_bind]
      refine Thread.wp_mono ((Thread.gives_anyway _).wp _) (fun unknowns _ _ => ?_)
        (fun _ _ _ => trivial) fun _ _ => trivial
      refine List.mem_append_left _ ?_
      rw [hunknown]
      exact List.mem_singleton_self unknown
    -- Another record may be listed or not, but the rest of the list goes on behind it.
    have hrest := ih ((List.mem_cons.mp hmem).resolve_left (Ne.symm hrecord)) hlater
    rcases findMessage now.state.rooms record.roomId record.replyMessageId with e | message
    · cases e with
      | messageNotFound =>
        show Thread.wp others (listUnknowns records >>= _) _ _ _ _
        rw [Thread.wp_bind]
        exact Thread.wp_mono hrest (fun _ _ h => List.mem_append_right _ h) (fun _ _ _ => trivial)
          fun _ _ => trivial
      | _ => trivial
    · exact hrest

/-- A turn that the ledger has as started or completed is listed for its room while its reply is not
there. -/
theorem roomDispatchUnknowns_lists {provider : TextProvider} {sourceMessage : RoomMessage}
    {state : AiDispatchState} {updatedAt : String} {unknown : RoomDispatchUnknown}
    (hunknown : unknownOf (recordIn provider sourceMessage state updatedAt) = some unknown)
    (hmissing : Thread.Stable others (ReplyMissing provider sourceMessage))
    {now later : Instant Stores}
    (hnow : ReplyMissing provider sourceMessage now.state)
    (hrecord : now.state.ledger.data.records[idOf provider sourceMessage]? =
      some (recordIn provider sourceMessage state updatedAt))
        {success : RoomDispatchUnknownsSuccess}
    (hrun : roomDispatchUnknowns sourceMessage.roomId others now = (.done success, later)) :
    unknown ∈ success.unknowns := by
  have hwp : Thread.wp others (roomDispatchUnknowns sourceMessage.roomId)
      (fun success _ => unknown ∈ success.unknowns) (fun _ _ => True) (fun _ => True) now := by
    unfold roomDispatchUnknowns unresolvedForRoom
    rw [Thread.wp_bind, Thread.wp_reads]
    by_cases hvalid : (!validEntityId sourceMessage.roomId) = true
    · rw [if_pos hvalid]
      trivial
    rw [if_neg hvalid]
    show Thread.wp others (listUnknowns _ >>= _) _ _ _ _
    rw [Thread.wp_bind]
    refine listUnknowns_lists hunknown hmissing ?_ (hmissing now.moment now.state hnow)
    -- The list is of the records of this room, and among them the open ones.
    rw [List.mem_filter, List.mem_map]
    refine ⟨⟨_, ExtTreeMap.mem_toList_iff_getElem?_eq_some.mpr hrecord, rfl⟩, ?_⟩
    rw [Bool.and_eq_true]
    refine ⟨beq_self_eq_true _, ?_⟩
    cases state with
    | externalStarted | completed => rfl
    | prepared | failed => cases hunknown
  unfold Thread.wp at hwp
  rw [hrun] at hwp
  exact hwp

/-- What an orchestration is told of a worker in a run. It is only told that the worker failed where
no provider was called for the delegation, or where the provider has confirmed it. -/
def WorkerTold (env : Environment) (provider : TextProvider) (sourceMessage : RoomMessage)
    (conductorId : String) (before : Stores) (after : Instant Stores) :
    OrchestrationWorkerDispatch → Prop
  | .completed message =>
    (Thread.Seen after.past fun _ stores => findMessage stores.rooms sourceMessage.roomId
      (replyMessageId sourceMessage.id provider.participantId) = .ok message) ∨
      ∃ response createdAt draft saved,
        Called env provider sourceMessage after.past (.ok response) ∧
        Timed env after.past createdAt ∧
        replyDraft provider sourceMessage conductorId createdAt response = .ok draft ∧
        StoreAnswers env after.past draft (.ok saved) ∧ saved.message = message
  | .failed _ =>
    (held (idOf provider sourceMessage) after.state).calls =
        (held (idOf provider sourceMessage) before).calls ∨
      ∃ error, Called env provider sourceMessage after.past (.error error) ∧
        provider.isPreflight error = true
  | .unknown =>
    after.state.ledger.data.records[idOf provider sourceMessage]? ≠ none ∨
      before.ledger.data.records[idOf provider sourceMessage]? ≠ none

/-- A failure that is told of a dispatch is told of its worker. -/
theorem workerDispatch_failed {provider : TextProvider} {told : Told}
    (h : ToldFailed provider told) :
    ∃ reason, workerDispatch (recipientResult provider.participantId told) = .failed reason := by
  obtain ⟨error, rfl⟩ | ⟨code, message, rfl⟩ := h
  · exact ⟨_, rfl⟩
  · exact ⟨_, rfl⟩

/-- A message that is told of a dispatch is told of its worker. -/
theorem workerDispatch_completed {result : RecipientDispatchResult} {message : RoomMessage}
    (hstatus : result.status = .completed ∨ result.status = .duplicate)
    (hmessage : result.message = some message) : workerDispatch result = .completed message := by
  unfold workerDispatch
  rcases hstatus with hstatus | hstatus
  · rw [hstatus, hmessage]
  · rw [hstatus, hmessage]

/-- The outcome of the dispatch, as an orchestration is told it. -/
theorem Answered.workerTold {env : Environment} {provider : TextProvider}
    {sourceMessage : RoomMessage}
    {conductorId : String} {before : Stores} {after : Instant Stores}
    {result : RecipientDispatchResult}
    (hsound : Sound before.ledger.data)
    (h : Answered env provider sourceMessage conductorId
      (held (idOf provider sourceMessage) before) result
      after.past (held (idOf provider sourceMessage) after.state)) :
    WorkerTold env provider sourceMessage conductorId before after (workerDispatch result) := by
  obtain ⟨told, rfl, own, hending, hyields⟩ := h
  have hspares := hyields.data (hending.sound hsound)
  -- Where no provider was called, the worker may be told to have failed.
  have hfailed : ∀ {reason : String},
    own.calls = (held (idOf provider sourceMessage) before).calls →
      WorkerTold env provider sourceMessage conductorId before after (.failed reason) :=
    fun h => .inl (hyields.calls.trans h)
  -- An open record is still in the ledger, whatever the others did since.
  have hopen : ∀ {state : AiDispatchState} {calls : ℕ} {isActive : Bool},
      Has provider sourceMessage (held (idOf provider sourceMessage) before)
        state isActive calls own →
        state = .prepared ∨ state = .externalStarted →
          WorkerTold env provider sourceMessage conductorId before after .unknown := by
    intro state calls isActive hhas hopen
    obtain ⟨updatedAt, hrecord⟩ := hhas.record
    refine .inl fun hnone => ?_
    cases hnone.symm.trans (hspares.record_open hrecord (isTerminal_recordIn hopen))
  cases hending with
  | refused h hown =>
    cases h with
    | replied h => exact .inl h
    | unfound hne h => exact hfailed hown.calls
    | noTime h => exact hfailed hown.calls
    | notBegun htime h => exact hfailed hown.calls
    | active h => exact hfailed hown.calls
    | @existing record h =>
      have hbefore : before.ledger.data.records[idOf provider sourceMessage]? ≠ none := by
        intro hnone
        cases hnone.symm.trans h
      -- A record that is there already stands for an earlier turn, and its state decides.
      rcases hstate : record.state with _ | _ | _ | _
      · exact hfailed hown.calls
      · exact .inr hbefore
      · exact .inr hbefore
      · exact hfailed hown.calls
  | begun hvacant h =>
    cases h with
    | failed h hown =>
      obtain ⟨reason, heq⟩ := workerDispatch_failed h
      rw [heq]
      exact hfailed hown.calls
    | unmarked hmark h hown =>
      rcases h with h | ⟨code, message, rfl⟩
      · obtain ⟨reason, heq⟩ := workerDispatch_failed h
        rw [heq]
        exact hfailed hown.calls
      · exact hopen hown (.inl rfl)
    | confirmed hcall hpreflight h hown =>
      obtain ⟨reason, heq⟩ := workerDispatch_failed h
      rw [heq]
      exact .inr ⟨_, hcall, hpreflight⟩
    | unknown hcall hunresolved h hown =>
      obtain ⟨code, message, rfl⟩ := h
      exact hopen hown (.inr rfl)
    | replied hcall htime hdraft hsaved h hown =>
      obtain ⟨result, rfl, hstatus, hmessage⟩ := h
      rw [recipientResult, workerDispatch_completed hstatus hmessage]
      exact .inr ⟨_, _, _, _, hcall, htime, hdraft, hsaved, rfl⟩

end Laws

end Mio.Desktop.AiDispatch
