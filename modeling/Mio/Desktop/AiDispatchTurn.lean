import Mio.Core.RoomPaging
import Mio.Desktop.AiDispatch
import Mio.Desktop.RoomSource
import Mio.Desktop.RoomWorkspace
import Mio.Desktop.TurnCancellation
import Mio.Library.Thread

/-!
# A turn of an AI participant

`dispatch_codex`, `dispatch_grok`, `dispatch_gemini`, and `dispatch_claude` of
`apps/desktop/src-tauri/src/ai_dispatch.rs`. The four are written out in the source with the same
steps: look for the reply, begin in the ledger, wait for the provider's gate, plan the context,
register the turn, call the provider, and save the reply. `TextProvider` is what they differ in.

A dispatch is a thread: between its steps the other threads of the application work on the same
stores. The clock, the faults of the disk, the settings, the workspaces, the texts of the prompts,
and what a provider answers are given for each moment (`Environment`). Poisoned locks do not occur.
-/

namespace Mio.Desktop.AiDispatch

open Library Std Mio.Core RoomAiContinuity Time

/-! ## Providers -/

/-- The access that the owner gave a participant. -/
inductive AiAccessMode where
  | providerDefault
  | chatOnly
  | workspaceRead
  | workspaceWrite
  deriving DecidableEq

/-- How the adapter of a provider can fail a turn. -/
inductive TextTurnError where
  | unavailable
  | workspaceUnavailable
  | workspaceSandboxUnavailable
  | timedOut
  | rejected
  | clientUpdateRequired
  | preflightFailure
  | confirmedFailure
  | invalidResponse
  | cancelled
  deriving DecidableEq

/-- Whether a turn starts a conversation or resumes the recorded one. -/
inductive TextTurnContinuity where
  | startPersistent
  | resume (sessionId : String)
  deriving DecidableEq

/-- The workspace a turn may use, with the access to it. -/
structure TextTurnWorkspace where
  root : String
  access : TextTurnWorkspaceAccess
  deriving DecidableEq

/-- What a provider is asked. Its cancellation is the signal of the dispatch in the registry. -/
structure TextTurnRequest where
  dispatchId : String
  prompt : String
  model : Option String
  roomId : Option String
  workspace : Option TextTurnWorkspace
  continuity : Option TextTurnContinuity
  deriving DecidableEq

/-- What a provider answers: the text, its session and the artifacts it made. -/
structure TextTurnResponse where
  text : String
  sessionId : Option String
  artifactIds : List String
  deriving DecidableEq

/-! ## Results -/

/-- What the room is told of one recipient. -/
inductive RecipientDispatchStatus where
  | completed
  | duplicate
  | failed
  | unknown
  | queued
  | unsupported
  deriving DecidableEq

/-- The answer of a dispatch to the room, for one recipient. -/
structure RecipientDispatchResult where
  recipientId : String
  status : RecipientDispatchStatus
  message : Option RoomMessage
  error : Option RoomDispatchCommandError
  context : Option RoomContextReport
  deriving DecidableEq

/-- The answer for a turn of which nobody knows whether it ran. -/
def unknownDispatchResult (recipientId code message : String) : RecipientDispatchResult where
  recipientId := recipientId
  status := .unknown
  message := none
  error := some { code, message }
  context := none

/-- The answer for a turn that certainly did not run. -/
def failedDispatchResult (recipientId code message : String) : RecipientDispatchResult where
  recipientId := recipientId
  status := .failed
  message := none
  error := some { code, message }
  context := none

/-- The result for a reply that is there already. -/
def duplicateDispatchResult (recipientId : String) (message : RoomMessage) :
    RecipientDispatchResult where
  recipientId := recipientId
  status := .duplicate
  message := some message
  error := none
  context := none

/-- The error of a ledger that could not be used. -/
def dispatchUnavailable : RoomDispatchCommandError where
  code := "aiDispatchUnavailable"
  message := "The AI dispatch service is temporarily unavailable."

/-- The error shown when the message of a dispatch is not found. -/
def mapFindError : RoomMessageFindError → RoomDispatchCommandError
  | .invalidLookup =>
    { code := "aiDispatchInvalidMessage", message := "The Room message lookup is invalid." }
  | .roomNotFound | .messageNotFound =>
    { code := "aiDispatchMessageNotFound"
      message := "The saved Room message is not available." }
  | .sourceUnavailable => dispatchUnavailable

/-- The error shown when the room's workspace cannot be used. -/
def mapWorkspaceError : RoomWorkspace.RoomWorkspaceError → RoomDispatchCommandError
  | .unavailable =>
    { code := "roomWorkspaceUnavailable"
      message := "The selected Room workspace is unavailable." }
  | .unsafeLink =>
    { code := "roomWorkspaceUnsafeLink"
      message := "The selected Room workspace became a filesystem link." }
  | _ => dispatchUnavailable

/-- The error shown when the recorded conversation cannot be read or saved. -/
def mapContinuityError (_ : RoomAiContinuityError) : RoomDispatchCommandError where
  code := "aiContinuityUnavailable"
  message := "The Room AI continuity state could not be accessed."

/-- The errors that every provider has in common. -/
def mapCommonAdapterError (participantId : String) :
    TextTurnError → Option RoomDispatchCommandError
  | .cancelled => some
      { code := "aiDispatchCancelled"
        message :=
          "The local AI turn was stopped. The request may already have reached the AI." }
  | .workspaceUnavailable => some
      { code := "roomWorkspaceUnavailable"
        message := "The selected Room workspace could not be opened before the AI started." }
  | .workspaceSandboxUnavailable => some
      { code := "codexWorkspaceSandboxUnavailable"
        message := "Codex Windows protection is not in the required safe mode." }
  -- Codex has texts of its own for these three.
  | .clientUpdateRequired => some <|
      if participantId == codexParticipantId then
        { code := "codexClientUpdateRequired"
          message := "The selected model requires a newer Codex app or CLI." }
      else
        { code := "providerClientUpdateRequired"
          message := "The selected model requires a newer provider client." }
  | .preflightFailure => some <|
      if participantId == codexParticipantId then
        { code := "codexPreflightFailed"
          message := "Codex could not start the turn, so the message was not delivered." }
      else
        { code := "providerPreflightFailed"
          message := "The provider could not start the turn, so the message was not delivered." }
  | .confirmedFailure => some <|
      if participantId == codexParticipantId then
        { code := "codexTurnFailed", message := "Codex reported that the turn failed." }
      else
        { code := "providerTurnFailed"
          message := "The provider reported that the turn failed." }
  | _ => none

/-- The other errors: those of Claude Code, of Gemini, of Grok, and of Codex for the rest. -/
def mapProviderError (participantId : String) (error : TextTurnError) : RoomDispatchCommandError :=
  if participantId == claudeCodeParticipantId then
    match error with
    | .unavailable =>
      { code := "claudeUnavailable", message := "Claude Code is not available." }
    | .timedOut =>
      { code := "claudeTimedOut"
        message := "Claude Code did not finish within the product deadline." }
    | .rejected =>
      { code := "claudeTurnRejected"
        message := "Claude Code did not complete the Room turn and may require sign-in again." }
    | _ =>
      { code := "aiResponseInvalid"
        message := "Claude Code returned an invalid Room response." }
  else if participantId == geminiSearchParticipantId then
    match error with
    | .unavailable =>
      { code := "geminiUnavailable", message := "Gemini Antigravity CLI is not available." }
    | .timedOut =>
      { code := "geminiTimedOut"
        message := "Gemini did not finish within the product deadline." }
    | .rejected =>
      { code := "geminiTurnRejected", message := "Gemini did not complete the Room turn." }
    | _ =>
      { code := "aiResponseInvalid", message := "Gemini returned an invalid Room response." }
  else if participantId == grokParticipantId then
    match error with
    | .unavailable => { code := "grokUnavailable", message := "Grok CLI is not available." }
    | .timedOut =>
      { code := "grokTimedOut", message := "Grok did not finish within the product deadline." }
    | .rejected =>
      { code := "grokTurnRejected", message := "Grok did not complete the Room turn." }
    | _ => { code := "aiResponseInvalid", message := "Grok returned an invalid Room response." }
  -- Any participant but the three named ones is told of Codex, as in the source.
  else
    match error with
    | .unavailable =>
      { code := "codexUnavailable", message := "Codex App Server is not available." }
    | .timedOut =>
      { code := "codexTimedOut"
        message := "Codex did not finish within the product deadline." }
    | .rejected =>
      { code := "codexTurnRejected", message := "Codex did not complete the Room turn." }
    | _ => { code := "aiResponseInvalid", message := "Codex returned an invalid Room response." }

/-- The error shown for a failed turn: the common ones first, then the provider's own. -/
def mapAdapterError (participantId : String) (error : TextTurnError) : RoomDispatchCommandError :=
  (mapCommonAdapterError participantId error).getD (mapProviderError participantId error)

/-! ## The stores and the environment -/

/-- A call of a provider, or a stop of a room. -/
inductive TurnEvent where
  /-- The provider is called, and whether the signal of the turn is set at that time. -/
  | started (dispatchId : String) (isCancelled : Bool)
  /-- The turns of the room are stopped, and how many there were. -/
  | stopped (roomId : String) (count : ℕ)
  deriving DecidableEq

/-- What the threads of the application share. -/
structure Stores where
  rooms : RoomSnapshot
  roomWorld : World
  ledger : AiDispatchLedger.DesktopAiDispatchLedger
  bindings : Bindings
  continuityWorld : World
  active : TurnCancellation.DesktopTurnCancellations
  /-- The calls and the stops so far, the latest one first. -/
  events : List TurnEvent

/-- What is outside of the application, at each moment. -/
structure Environment where
  roomSerde : Serde PersistedRoomFile
  ledgerSerde : Serde AiDispatchLedger.PersistedDispatchLedger
  continuitySerde : Serde PersistedContinuityFile
  faults : ℕ → List Fault
  clock : ℕ → Clock
  aiAccessMode : ℕ → String → AiAccessMode
  aiInstructions : ℕ → String → Option String
  aiModel : ℕ → String → Option String
  /-- The root of the room's workspace, if it has one. -/
  availableRoot : ℕ → String → Except RoomWorkspace.RoomWorkspaceError (Option String)
  /-- The prompt for a participant. -/
  prompt : ℕ → String → DesktopRoomContext → RoomMessage → RoomContextPlan →
    Option TextTurnWorkspaceAccess → String
  runTextTurn : ℕ → TextTurnRequest → Except TextTurnError TextTurnResponse

/-- A part of a dispatch, which may leave with the result of the dispatch. -/
abbrev DispatchProg (α : Type) : Type :=
  Thread Stores (Except RoomDispatchCommandError RecipientDispatchResult) α

/-- Leave with an error. -/
def giveUp {α : Type} (error : RoomDispatchCommandError) : DispatchProg α :=
  Thread.exit (.error error)

/-- Leave with a result. -/
def answer {α : Type} (result : RecipientDispatchResult) : DispatchProg α :=
  Thread.exit (.ok result)

/-- What the four dispatches differ in. -/
structure TextProvider where
  participantId : String
  /-- Its name in the texts. -/
  name : String
  /-- What a session is called in the texts. -/
  session : String
  /-- Whether it works in the workspace of the room. -/
  usesWorkspace : Bool
  /-- Whether it is told the room. -/
  namesRoom : Bool
  environmentKey : Option String → Option TextTurnWorkspaceAccess → Option String → Option String →
    String
  /-- The errors after which the message was certainly not delivered. -/
  isPreflight : TextTurnError → Bool
  /-- The text when that could not be recorded. -/
  preflightUnrecorded : String

section Code

variable (env : Environment)

/-! ## The ledger -/

/-- A call of the ledger. -/
def ledgerStep {β : Type} (act : ℕ → AiDispatchLedger.DesktopAiDispatchLedger →
    Outcome AiDispatchLedger.AiDispatchLedgerError β × AiDispatchLedger.DesktopAiDispatchLedger) :
    DispatchProg (Except AiDispatchLedger.AiDispatchLedgerError β) :=
  Thread.step fun moment stores =>
    match act moment stores.ledger with
    | (.done value, ledger) => (.done (.ok value), { stores with ledger })
    | (.error e, ledger) => (.done (.error e), { stores with ledger })
    | (.cut, ledger) => (.cut, { stores with ledger })

/-- A change of the record's state, at the time of the clock. Returns whether it was made. -/
def mark (change : List Fault → String → AiDispatchLedger.DesktopAiDispatchLedger →
      Outcome AiDispatchLedger.AiDispatchLedgerError Unit ×
        AiDispatchLedger.DesktopAiDispatchLedger) : DispatchProg Bool := do
  match ← Thread.reads fun moment _ => currentRfc3339Timestamp (env.clock moment) with
  | none => pure false
  | some updatedAt =>
    match ← ledgerStep fun moment => change (env.faults moment) updatedAt with
    | .ok () => pure true
    | .error _ => pure false

/-- Marks the dispatch as started, before the provider is called. -/
def startExternalTurn (dispatchId : String) : DispatchProg Bool :=
  mark env fun faults updatedAt =>
    AiDispatchLedger.markExternalStarted env.ledgerSerde faults dispatchId updatedAt

/-- Marks a dispatch that failed before its external turn. -/
def finishLocalPreflightFailed (dispatchId : String) : DispatchProg Bool :=
  mark env fun faults updatedAt =>
    AiDispatchLedger.markFailed env.ledgerSerde faults dispatchId updatedAt

/-- Marks a started dispatch whose provider failed before it took the turn. -/
def finishExternalPreflightFailed (dispatchId : String) : DispatchProg Bool :=
  mark env fun faults updatedAt =>
    AiDispatchLedger.markExternalPreflightFailed env.ledgerSerde faults dispatchId updatedAt

/-- Leaves the record as it is and only ends its turn in memory. -/
def finishUnknown (dispatchId : String) : DispatchProg Unit :=
  Thread.changes fun _ stores =>
    { stores with ledger := AiDispatchLedger.finishUnknown dispatchId stores.ledger }

/-- Marks the failure, or ends the turn as unknown when the mark could not be made. -/
def finishFailed (dispatchId : String) : DispatchProg Unit := do
  if !(← finishLocalPreflightFailed env dispatchId) then finishUnknown dispatchId

/-- The result for a dispatch that the ledger has a record of. -/
def existingDispatch (recipientId : String) :
    AiDispatchLedger.AiDispatchState → Except RoomDispatchCommandError RecipientDispatchResult
  | .prepared | .failed => .error
      { code := "aiDispatchPreviouslyFailed"
        message := "The previous AI turn is confirmed failed and was not retried." }
  | .externalStarted => .ok (unknownDispatchResult recipientId "aiDispatchOutcomeUnknown"
      "The message may have reached the AI. It was not retried.")
  | .completed => .ok (unknownDispatchResult recipientId "aiDispatchReplyMissing"
      "The external turn completed, but its saved Room reply is unavailable. It was not retried.")

/-- Reserves the dispatch; a record that is there already ends the thread with its answer. -/
def beginDispatch (sourceMessage : RoomMessage) (recipientId : String) : DispatchProg Unit := do
  match ← Thread.reads fun moment _ => currentRfc3339Timestamp (env.clock moment) with
  | none => giveUp dispatchUnavailable
  | some updatedAt =>
    match ← ledgerStep fun moment => AiDispatchLedger.begin env.ledgerSerde (env.faults moment)
        (dispatchRecord sourceMessage recipientId updatedAt) with
    | .error _ => giveUp dispatchUnavailable
    | .ok .reserved => pure ()
    | .ok .active =>
      giveUp
        { code := "aiDispatchInProgress", message := "The AI response is already in progress." }
    | .ok (.existing record) => Thread.exit (existingDispatch recipientId record.state)

/-! ## The parts of a dispatch -/

/-- Leave with the reply, if it is in the room already. -/
def findReply (provider : TextProvider) (sourceMessage : RoomMessage) : DispatchProg Unit := do
  match ← Thread.reads fun _ stores => findMessage stores.rooms sourceMessage.roomId
      (replyMessageId sourceMessage.id provider.participantId) with
  | .ok message => answer (duplicateDispatchResult provider.participantId message)
  | .error .messageNotFound => pure ()
  | .error e => giveUp (mapFindError e)

/-- The access to the workspace that the settings give the participant. -/
def workspaceAccess (provider : TextProvider) : DispatchProg (Option TextTurnWorkspaceAccess) := do
  if provider.usesWorkspace then
    match ← Thread.reads fun moment _ => env.aiAccessMode moment provider.participantId with
    | .workspaceRead => pure (some .readOnly)
    | .workspaceWrite => pure (some .readWrite)
    | .providerDefault | .chatOnly => pure none
  else pure none

/-- The root of the workspace, if the participant has access to it. -/
def workspaceRoot (provider : TextProvider) (sourceMessage : RoomMessage) (id : String) :
    Option TextTurnWorkspaceAccess → DispatchProg (Option String)
  | none => pure none
  | some _ => do
    match ← Thread.reads fun moment _ => env.availableRoot moment sourceMessage.roomId with
    | .ok root => pure root
    | .error error =>
      if !(← finishLocalPreflightFailed env id) then
        finishUnknown id
        answer (unknownDispatchResult provider.participantId "aiDispatchOutcomeUnknown"
          "The workspace preflight result could not be recorded safely. It was not retried.")
      else
        let error := mapWorkspaceError error
        answer (failedDispatchResult provider.participantId error.code error.message)

/-- The room as it is now. -/
def roomContext (sourceMessage : RoomMessage) (id : String) : DispatchProg DesktopRoomContext := do
  match ← Thread.reads fun _ stores =>
      stores.rooms.rooms.find? fun room => room.id == sourceMessage.roomId with
  | some room => pure { room }
  | none =>
    finishFailed env id
    giveUp (mapFindError .roomNotFound)

/-- The continuation that is stored for the participant. -/
def storedContinuation (provider : TextProvider) (sourceMessage : RoomMessage) (id : String) :
    DispatchProg (Option RoomAiContinuation) := do
  match ← Thread.reads fun _ stores =>
      RoomAiContinuity.get sourceMessage.roomId provider.participantId stores.bindings with
  | .ok continuation => pure continuation
  | .error error =>
    finishFailed env id
    giveUp (mapContinuityError error)

/-- What a turn is planned with. -/
structure PreparedTurn where
  context : DesktopRoomContext
  access : Option TextTurnWorkspaceAccess
  root : Option String
  model : Option String
  environmentKey : String
  continuation : Option RoomAiContinuation
  plan : RoomContextPlan

/-- Everything up to the registration of the turn. -/
def prepareTurn (provider : TextProvider) (sourceMessage : RoomMessage) (id : String) :
    DispatchProg PreparedTurn := do
  let access ← workspaceAccess env provider
  let root ← workspaceRoot env provider sourceMessage id access
  let context ← roomContext env sourceMessage id
  let model ← Thread.reads fun moment _ => env.aiModel moment provider.participantId
  let instructions ← Thread.reads fun moment _ => env.aiInstructions moment provider.participantId
  let environmentKey := provider.environmentKey root access instructions model
  let continuation ← storedContinuation env provider sourceMessage id
  match roomContextPlan context sourceMessage continuation environmentKey
    provider.participantId with
  | .ok plan => pure { context, access, root, model, environmentKey, continuation, plan }
  | .error error =>
    finishFailed env id
    giveUp error

/-- The request to the provider. -/
def textTurnRequest (provider : TextProvider) (sourceMessage : RoomMessage) (id prompt : String)
    (turn : PreparedTurn) : TextTurnRequest where
  dispatchId := id
  prompt := prompt
  model := turn.model
  roomId := if provider.namesRoom then some sourceMessage.roomId else none
  workspace :=
    match turn.root, turn.access with
    | some root, some access => some { root, access }
    | _, _ => none
  continuity :=
    match turn.plan.resuming, turn.continuation with
    | true, some continuation => some (.resume continuation.sessionId)
    | _, _ => some .startPersistent

/-- Call the provider. -/
def callProvider (request : TextTurnRequest) :
    DispatchProg (Except TextTurnError TextTurnResponse) :=
  Thread.step fun moment stores =>
    let isCancelled := match stores.active[request.dispatchId]? with
      | some turn => turn.cancelled
      | none => false
    (.done (env.runTextTurn moment request),
      { stores with events := .started request.dispatchId isCancelled :: stores.events })

/-- The provider's response, or the result for its error. -/
def providerResponse (provider : TextProvider) (id : String) :
    Except TextTurnError TextTurnResponse → DispatchProg TextTurnResponse
  | .ok response => pure response
  | .error error => do
    let mapped := mapAdapterError provider.participantId error
    if provider.isPreflight error then
      if !(← finishExternalPreflightFailed env id) then
        finishUnknown id
        answer (unknownDispatchResult provider.participantId "aiDispatchOutcomeUnknown"
          provider.preflightUnrecorded)
      else answer (failedDispatchResult provider.participantId mapped.code mapped.message)
    else
      finishUnknown id
      answer (unknownDispatchResult provider.participantId mapped.code mapped.message)

/-- Leave with a result that the dispatch does not know to be one of the provider. -/
def leaveUnknown {α : Type} (provider : TextProvider) (id code message : String) :
    DispatchProg α := do
  finishUnknown id
  answer (unknownDispatchResult provider.participantId code message)

/-- A call of the Room store. -/
def appendReply (draft : RoomMessageDraft) : DispatchProg
    (Except RoomWriteError RoomWriteSuccess) :=
  Thread.step fun moment stores =>
    match (RoomSource.appendMessage env.roomSerde draft stores.rooms).run (env.faults moment)
      stores.roomWorld with
    | (.done (result, rooms), roomWorld) => (.done result, { stores with rooms, roomWorld })
    | (.error _, roomWorld) => (.done (.error .sourceUnavailable), { stores with roomWorld })
    | (.cut, roomWorld) => (.cut, { stores with roomWorld })

/-- Save the continuation. Returns whether it is saved. -/
def commitContinuation (roomId participantId : String) (continuation : RoomAiContinuation) :
    DispatchProg Bool :=
  Thread.step fun moment stores =>
    match RoomAiContinuity.commit env.continuitySerde (env.faults moment) roomId participantId
      continuation stores.bindings stores.continuityWorld with
    | (.done (), bindings, continuityWorld) =>
      (.done true, { stores with bindings, continuityWorld })
    | (.error _, bindings, continuityWorld) =>
      (.done false, { stores with bindings, continuityWorld })
    | (.cut, bindings, continuityWorld) => (.cut, { stores with bindings, continuityWorld })

/-- Save what the provider answered. -/
def saveReply (provider : TextProvider) (sourceMessage : RoomMessage) (replyRecipientId id : String)
    (turn : PreparedTurn) (response : TextTurnResponse) : DispatchProg RecipientDispatchResult := do
  match response.sessionId with
  | none =>
    -- Without a session the turn could not be continued, so the response is not used.
    leaveUnknown provider id "aiResponseInvalid"
      s!"{provider.name} replied without a persistent Room {provider.session}. It was not retried."
  | some sessionId =>
    match ← Thread.reads fun moment _ => currentRfc3339Timestamp (env.clock moment) with
    | none =>
      leaveUnknown provider id "aiDispatchOutcomeUnknown"
        (s!"{provider.name} replied, but the local result could not be completed. " ++
          "It was not retried.")
    | some createdAt =>
      match RoomMessageDraft.tryNew (replyMessageId sourceMessage.id provider.participantId)
          sourceMessage.roomId provider.participantId [replyRecipientId] response.text createdAt
          response.artifactIds with
      | .error _ =>
        leaveUnknown provider id "aiResponseInvalid"
          (s!"The {provider.name} response could not be stored as a Room message. " ++
            "It was not retried.")
      | .ok reply =>
        match ← appendReply env reply with
        | .error _ =>
          leaveUnknown provider id "aiDispatchOutcomeUnknown"
            (s!"{provider.name} replied, but the Room reply could not be saved. " ++
              "It was not retried.")
        | .ok saved =>
          -- A continuation that could not be saved does not make the reply fail.
          let continuitySaved ← commitContinuation env sourceMessage.roomId provider.participantId
            { sessionId, lastSyncedMessageId := sourceMessage.id
              environmentKey := turn.environmentKey }
          match ← ledgerStep fun moment => AiDispatchLedger.markCompleted env.ledgerSerde
              (env.faults moment) id createdAt with
          | .ok () => pure ()
          -- The reply is in the room, so a record that could not be marked is only no longer
          -- active.
          | .error _ => finishUnknown id
          pure
            { recipientId := provider.participantId
              status := match saved.status with
                | .appended => .completed
                | .duplicate => .duplicate
              message := some saved.message
              error := none
              context := some (turn.plan.report continuitySaved) }

/-- Register the turn. -/
def registerTurn (sourceMessage : RoomMessage) (id : String) : DispatchProg Unit := do
  let isRegistered ← Thread.step fun _ stores =>
    match TurnCancellation.register sourceMessage.roomId id stores.active with
    | some active => (.done true, { stores with active })
    | none => (.done false, stores)
  if !isRegistered then
    finishFailed env id
    giveUp dispatchUnavailable

/-- The turn while it is registered. -/
def runTurn (provider : TextProvider) (sourceMessage : RoomMessage) (replyRecipientId id : String)
    (turn : PreparedTurn) : DispatchProg RecipientDispatchResult := do
  let prompt ← Thread.reads fun moment _ => env.prompt moment provider.participantId turn.context
    sourceMessage turn.plan (turn.access.filter fun _ => turn.root.isSome)
  let request := textTurnRequest provider sourceMessage id prompt turn
  if !(← startExternalTurn env id) then
    finishFailed env id
    giveUp dispatchUnavailable
  else
    let response ← callProvider env request
    let response ← providerResponse env provider id response
    saveReply env provider sourceMessage replyRecipientId id turn response

/-- One dispatch to a text provider, from its reservation to the answer. -/
def dispatchText (provider : TextProvider) (sourceMessage : RoomMessage)
    (replyRecipientId : String) :
    DispatchProg RecipientDispatchResult := do
  let id := dispatchId sourceMessage.id provider.participantId
  findReply provider sourceMessage
  beginDispatch env sourceMessage provider.participantId
  -- The gate of the provider. Others go on while the thread waits.
  Thread.changes fun _ stores => stores
  let turn ← prepareTurn env provider sourceMessage id
  registerTurn env sourceMessage id
  Thread.finallyDo
    (fun stores => { stores with active := TurnCancellation.remove id stores.active })
    (runTurn env provider sourceMessage replyRecipientId id turn)

/-! ## The four dispatches -/

/-- Codex: it may use the workspace, and its turn names the room. -/
def codexProvider : TextProvider where
  participantId := codexParticipantId
  name := "Codex"
  session := "session"
  usesWorkspace := true
  namesRoom := true
  environmentKey := continuityEnvironmentKey
  isPreflight error :=
    error == .workspaceUnavailable || error == .workspaceSandboxUnavailable ||
      error == .clientUpdateRequired || error == .preflightFailure || error == .confirmedFailure
  preflightUnrecorded :=
    "The Codex preflight result could not be recorded safely. It was not retried."

/-- Grok: it may use the workspace. -/
def grokProvider : TextProvider where
  participantId := grokParticipantId
  name := "Grok"
  session := "session"
  usesWorkspace := true
  namesRoom := true
  environmentKey := grokContinuityEnvironmentKey
  isPreflight error := error == .workspaceUnavailable || error == .workspaceSandboxUnavailable
  preflightUnrecorded :=
    "The Grok review preflight result could not be recorded safely. It was not retried."

/-- Gemini and Claude Code have no preflight, so the last text is not used. -/
def geminiProvider : TextProvider where
  participantId := geminiSearchParticipantId
  name := "Gemini"
  session := "conversation"
  usesWorkspace := false
  namesRoom := false
  environmentKey _ _ := chatEnvironmentKey geminiChatEnvironmentPrefix
  isPreflight _ := false
  preflightUnrecorded := ""

/-- Claude Code: no workspace, and its session is called a conversation. -/
def claudeProvider : TextProvider where
  participantId := claudeCodeParticipantId
  name := "Claude Code"
  session := "conversation"
  usesWorkspace := false
  namesRoom := false
  environmentKey _ _ := chatEnvironmentKey claudeChatEnvironmentPrefix
  isPreflight _ := false
  preflightUnrecorded := ""

/-- Dispatches a message to Codex. -/
def dispatchCodex : RoomMessage → String → DispatchProg RecipientDispatchResult :=
  dispatchText env codexProvider

/-- Dispatches a message to Grok. -/
def dispatchGrok : RoomMessage → String → DispatchProg RecipientDispatchResult :=
  dispatchText env grokProvider

/-- Dispatches a message to Gemini. -/
def dispatchGemini : RoomMessage → String → DispatchProg RecipientDispatchResult :=
  dispatchText env geminiProvider

/-- Dispatches a message to Claude Code. -/
def dispatchClaude : RoomMessage → String → DispatchProg RecipientDispatchResult :=
  dispatchText env claudeProvider

end Code

end Mio.Desktop.AiDispatch
