import Mio.Desktop.AiDispatchChecks
import Mio.Desktop.AiDispatchTurn

/-!
# The authenticity of replies

A dispatch answers with the reply that its provider gave, which it stores itself as a message of the
participant, or with a message that it found under the identifier of the reply before it began. The
message that it finds can be anyone's: it is not looked at (`reply_authentic`).
-/

namespace Mio.Desktop.AiDispatch

open Library Std Mio.Core RoomAiContinuity Time

/-- The message is the participant's reply to the source message. -/
structure Authentic (sourceMessage : RoomMessage) (participantId : String)
    (message : RoomMessage) : Prop where
  authorId : message.authorId = participantId
  roomId : message.roomId = sourceMessage.roomId
  recipients : sourceMessage.authorId ∈ message.recipients

/-- The result has no message. -/
def NoMessage (left : Except RoomDispatchCommandError RecipientDispatchResult) : Prop :=
  ∀ result, left = .ok result → result.message = none

/-- An error has no message. -/
theorem noMessage_error (error : RoomDispatchCommandError) : NoMessage (.error error) := by
  intro result h
  cases h

/-- A result that is unknown has no message. -/
theorem noMessage_unknown (recipientId code message : String) :
    NoMessage (.ok (unknownDispatchResult recipientId code message)) := by
  intro result h
  obtain rfl := Except.ok.inj h
  rfl

/-- A result that has failed has no message. -/
theorem noMessage_failed (recipientId code message : String) :
    NoMessage (.ok (failedDispatchResult recipientId code message)) := by
  intro result h
  obtain rfl := Except.ok.inj h
  rfl

/-! ## Appending -/

/-- A write that succeeds gives what the operation gave. -/
theorem write_result {ε α : Type} {serde : Serde PersistedRoomFile} {unavailable : ε}
    {operation : RoomSnapshot → Except ε α × RoomSnapshot} {memory memory' : RoomSnapshot}
    {faults : List Fault} {w w' : World} {result : α}
    (h : (RoomSource.write serde unavailable operation memory).run faults w =
      (.done (.ok result, memory'), w')) : (operation memory).1 = .ok result := by
  have hwp : (RoomSource.write serde unavailable operation memory).wp
      (fun answer _ => ∀ result, answer.1 = .ok result → (operation memory).1 = .ok result)
      (fun _ _ => True) (fun _ => True) w := by
    unfold RoomSource.write
    dsimp only
    rcases operation memory with ⟨e | value, after⟩
    · intro result hresult
      exact hresult
    · simp only [Prog.wp_bind, Prog.wp_attempt]
      refine Prog.wp_mono ?_ ?_ (fun _ _ => trivial) _ _ (RoomPersistence.persist_wp serde after w)
      · intro _ _ _ result hresult
        exact hresult
      · intro _ _ _ result hresult
        cases hresult
  have hends := Prog.run_wp _ faults w hwp
  rw [h] at hends
  exact hends result rfl

/-- What is appended, or was there already, has the author, the room, and the recipients of the
draft. -/
theorem appendMessage_ok {draft : RoomMessageDraft} {snapshot : RoomSnapshot}
    {saved : RoomWriteSuccess} (h : (appendMessage draft snapshot).1 = .ok saved) :
    saved.message.authorId = draft.message.authorId ∧
      saved.message.roomId = draft.message.roomId ∧
      saved.message.recipients = draft.message.recipients := by
  unfold appendMessage at h
  dsimp only at h
  split at h
  · split at h
    · rename_i existing _ hsame
      obtain rfl := Except.ok.inj h
      simp only [sameIdempotentPayload, Bool.and_eq_true, beq_iff_eq] at hsame
      obtain ⟨⟨⟨⟨⟨⟨-, hroomId⟩, hauthorId⟩, hrecipients⟩, -⟩, -⟩, -⟩ := hsame
      exact ⟨hauthorId, hroomId, hrecipients⟩
    · cases h
  · split at h
    · cases h
    · split at h
      · cases h
      · split at h
        · cases h
        · split at h
          · cases h
          · obtain rfl := Except.ok.inj h
            exact ⟨rfl, rfl, rfl⟩

/-! ## What a dispatch leaves with -/

section Gives

variable {env : Environment} {provider : TextProvider} {sourceMessage : RoomMessage} {id : String}

/-- A call of the ledger gives no message where it leaves. -/
theorem ledgerStep_gives {β : Type} {act : ℕ → AiDispatchLedger.DesktopAiDispatchLedger →
    Outcome AiDispatchLedger.AiDispatchLedgerError β × AiDispatchLedger.DesktopAiDispatchLedger} :
    (ledgerStep act).Gives (fun _ => True) NoMessage := by
  refine Thread.gives_step fun moment stores => ?_
  rcases act moment stores.ledger with ⟨value | e | _, ledger⟩ <;> trivial

/-- A mark gives no message where it leaves. -/
theorem mark_gives {change : List Fault → String → AiDispatchLedger.DesktopAiDispatchLedger →
    Outcome AiDispatchLedger.AiDispatchLedgerError Unit ×
      AiDispatchLedger.DesktopAiDispatchLedger} :
    (mark env change).Gives (fun _ => True) NoMessage := by
  unfold mark
  refine Thread.gives_reads_then fun clock => ?_
  cases clock with
  | none => exact Thread.gives_pure trivial
  | some updatedAt =>
    refine Thread.gives_then ledgerStep_gives fun result => ?_
    cases result with
    | ok _ => exact Thread.gives_pure trivial
    | error _ => exact Thread.gives_pure trivial

/-- A failure gives no message where it leaves. -/
theorem finishFailed_gives : (finishFailed env id).Gives (fun _ => True) NoMessage := by
  unfold finishFailed
  refine Thread.gives_then mark_gives fun isMarked => ?_
  exact Thread.gives_ite (fun _ => Thread.gives_changes) fun _ => Thread.gives_pure trivial

/-- A failure is recorded, and the dispatch leaves with an error. -/
theorem giveUp_gives {α : Type} {answer : α → Prop} {error : RoomDispatchCommandError} :
    (finishFailed env id >>= fun _ => (giveUp error : DispatchProg α)).Gives answer NoMessage :=
  Thread.gives_then finishFailed_gives fun _ => Thread.gives_exit (noMessage_error error)

/-- A dispatch that is told as unknown has no message. -/
theorem leaveUnknown_gives {α : Type} {answer : α → Prop} {code message : String} :
    (leaveUnknown provider id code message : DispatchProg α).Gives answer NoMessage :=
  Thread.gives_then Thread.gives_changes fun _ => Thread.gives_exit (noMessage_unknown _ _ _)

/-- A begin gives no message where it leaves. -/
theorem beginDispatch_gives {recipientId : String} :
    (beginDispatch env sourceMessage recipientId).Gives (fun _ => True) NoMessage := by
  unfold beginDispatch
  refine Thread.gives_reads_then fun clock => ?_
  cases clock with
  | none => exact Thread.gives_exit (noMessage_error _)
  | some updatedAt =>
    refine Thread.gives_then ledgerStep_gives fun result => ?_
    rcases result with e | _ | _ | record
    · exact Thread.gives_exit (noMessage_error _)
    · exact Thread.gives_pure trivial
    · exact Thread.gives_exit (noMessage_error _)
    · refine Thread.gives_exit ?_
      cases record.state with
      | prepared => exact noMessage_error _
      | failed => exact noMessage_error _
      | externalStarted => exact noMessage_unknown _ _ _
      | completed => exact noMessage_unknown _ _ _

/-- The preparation of a turn gives no message where it leaves. -/
theorem prepareTurn_gives :
    (prepareTurn env provider sourceMessage id).Gives (fun _ => True) NoMessage := by
  unfold prepareTurn
  -- The preparation either goes on, or leaves with an answer that has no message.
  refine Thread.gives_then ?access fun access => ?_
  case access =>
    unfold workspaceAccess
    refine Thread.gives_ite (fun _ => ?_) fun _ => Thread.gives_pure trivial
    refine Thread.gives_reads_then fun mode => ?_
    cases mode <;> exact Thread.gives_pure trivial
  refine Thread.gives_then ?root fun root => ?_
  case root =>
    unfold workspaceRoot
    cases access with
    | none => exact Thread.gives_pure trivial
    | some _ =>
      refine Thread.gives_reads_then fun root => ?_
      cases root with
      | ok root => exact Thread.gives_pure trivial
      | error error =>
        -- A lost workspace ends the turn, as failed only if the record could be marked so.
        refine Thread.gives_then mark_gives fun isMarked =>
          Thread.gives_ite (fun _ => ?_) fun _ => ?_
        · exact @leaveUnknown_gives provider id _ _ _ _
        · exact Thread.gives_exit (noMessage_failed _ _ _)
  refine Thread.gives_then ?context fun context => ?_
  case context =>
    unfold roomContext
    refine Thread.gives_reads_then fun room => ?_
    cases room with
    | some room => exact Thread.gives_pure trivial
    | none => exact giveUp_gives
  refine Thread.gives_reads_then fun model => ?_
  refine Thread.gives_reads_then fun instructions => ?_
  refine Thread.gives_then ?continuation fun continuation => ?_
  case continuation =>
    unfold storedContinuation
    refine Thread.gives_reads_then fun stored => ?_
    cases stored with
    | ok continuation => exact Thread.gives_pure trivial
    | error error => exact giveUp_gives
  split
  · exact Thread.gives_pure trivial
  · exact giveUp_gives

/-- The registration of a turn gives no message where it leaves. -/
theorem registerTurn_gives :
    (registerTurn env sourceMessage id).Gives (fun _ => True) NoMessage := by
  unfold registerTurn
  refine Thread.gives_then (Thread.gives_step fun moment stores => ?_) fun isRegistered => ?_
  · cases TurnCancellation.register sourceMessage.roomId id stores.active <;> trivial
  · exact Thread.gives_ite (fun _ => giveUp_gives) fun _ => Thread.gives_pure trivial

/-- A response that is not taken gives no message. -/
theorem providerResponse_gives {response : Except TextTurnError TextTurnResponse} :
    (providerResponse env provider id response).Gives (fun _ => True) NoMessage := by
  cases response with
  | ok response => exact Thread.gives_pure trivial
  | error error =>
    unfold providerResponse
    refine Thread.gives_ite (fun _ => ?_) fun _ => leaveUnknown_gives
    refine Thread.gives_then mark_gives fun isMarked => Thread.gives_ite (fun _ => ?_) fun _ => ?_
    · exact leaveUnknown_gives
    · exact Thread.gives_exit (noMessage_failed _ _ _)

/-- What the dispatch stores is a message of the participant to the one it replies to. -/
theorem appendReply_gives {draft : RoomMessageDraft} :
    (appendReply env draft).Gives (fun result => ∀ saved, result = .ok saved →
      saved.message.authorId = draft.message.authorId ∧
        saved.message.roomId = draft.message.roomId ∧
        saved.message.recipients = draft.message.recipients) NoMessage := by
  refine Thread.gives_step fun moment stores => ?_
  rcases hrun : (RoomSource.appendMessage env.roomSerde draft stores.rooms).run (env.faults moment)
    stores.roomWorld with ⟨⟨result, rooms⟩ | e | _, roomWorld⟩
  · intro saved hsaved
    obtain rfl : result = .ok saved := hsaved
    exact appendMessage_ok (write_result hrun)
  · intro saved hsaved
    cases hsaved
  · trivial

/-- The result of a turn has the reply of the participant. -/
theorem saveReply_gives {turn : PreparedTurn} {response : TextTurnResponse} :
    (saveReply env provider sourceMessage sourceMessage.authorId id turn response).Gives
      (fun result => ∀ message, result.message = some message →
        Authentic sourceMessage provider.participantId message) NoMessage := by
  unfold saveReply
  split
  · exact leaveUnknown_gives
  refine Thread.gives_reads_then fun createdAt => ?_
  cases createdAt with
  | none => exact leaveUnknown_gives
  | some createdAt =>
    dsimp only
    split
    · exact leaveUnknown_gives
    rename_i draft hdraft
    refine Thread.gives_bind appendReply_gives fun result hresult => ?_
    cases result with
    | error _ => exact leaveUnknown_gives
    | ok saved =>
      have hmessage := hresult saved rfl
      -- The draft is of the participant, in the source's room, and to the source's author.
      obtain ⟨hauthor, hroom, hrecipients⟩ : draft.message.authorId = provider.participantId ∧
          draft.message.roomId = sourceMessage.roomId ∧
          draft.message.recipients = [sourceMessage.authorId] := by
        unfold RoomMessageDraft.tryNew RoomMessageDraft.tryNewWithProvenance at hdraft
        dsimp only at hdraft
        split at hdraft
        · obtain rfl := Except.ok.inj hdraft
          exact ⟨rfl, rfl, rfl⟩
        · cases hdraft
      have hauthentic : Authentic sourceMessage provider.participantId saved.message :=
        ⟨hmessage.1.trans hauthor, hmessage.2.1.trans hroom,
          by rw [hmessage.2.2, hrecipients]; exact List.mem_singleton.mpr rfl⟩
      refine Thread.gives_then ?commit fun continuitySaved => ?_
      case commit =>
        refine Thread.gives_step fun moment stores => ?_
        rcases RoomAiContinuity.commit env.continuitySerde (env.faults moment) sourceMessage.roomId
          provider.participantId _ stores.bindings stores.continuityWorld
          with ⟨_ | _ | _, bindings, world⟩ <;> trivial
      have hfinal : ∀ status context, (pure
          { recipientId := provider.participantId
            status
            message := some saved.message
            error := none
            context } : DispatchProg RecipientDispatchResult).Gives
          (fun result => ∀ message, result.message = some message →
            Authentic sourceMessage provider.participantId message) NoMessage := by
        intro status context
        refine Thread.gives_pure fun message hmessage => ?_
        obtain rfl := Option.some.inj hmessage
        exact hauthentic
      refine Thread.gives_then ledgerStep_gives fun marked => ?_
      cases marked with
      | ok _ => exact hfinal _ _
      | error _ => exact Thread.gives_then Thread.gives_changes fun _ => hfinal _ _

/-- A dispatch that did not find the reply leaves with the participant's own reply, or with none. -/
theorem dispatch_gives :
    (do
      beginDispatch env sourceMessage provider.participantId
      Thread.changes fun _ stores => stores
      let turn ← prepareTurn env provider sourceMessage id
      registerTurn env sourceMessage id
      Thread.finallyDo
        (fun stores => { stores with active := TurnCancellation.remove id stores.active })
        (runTurn env provider sourceMessage sourceMessage.authorId id turn)).Gives
      (fun result : RecipientDispatchResult => ∀ message, result.message = some message →
        Authentic sourceMessage provider.participantId message) NoMessage := by
  refine Thread.gives_then beginDispatch_gives fun _ => ?_
  refine Thread.gives_then Thread.gives_changes fun _ => ?_
  refine Thread.gives_then prepareTurn_gives fun turn => ?_
  refine Thread.gives_then registerTurn_gives fun _ => Thread.gives_finallyDo ?_
  unfold runTurn
  refine Thread.gives_reads_then fun prompt => ?_
  refine Thread.gives_then mark_gives fun isMarked => Thread.gives_ite (fun _ => giveUp_gives) ?_
  intro _
  refine Thread.gives_then (Thread.gives_step fun _ _ => trivial) fun response => ?_
  exact Thread.gives_then providerResponse_gives fun response => saveReply_gives

end Gives

/-! ## The law -/

/-- What a dispatch answers, unless the process stopped. -/
def resultOf : Outcome (Except RoomDispatchCommandError RecipientDispatchResult)
    RecipientDispatchResult → Option (Except RoomDispatchCommandError RecipientDispatchResult)
  | .done result => some (.ok result)
  | .error left => some left
  | .cut => none

/-- A message that the dispatch gives with its result is the participant's reply. -/
def RepliesAuthentically (dispatch : RoomMessage → String → DispatchProg RecipientDispatchResult)
    (participantId : String) (sourceMessage : RoomMessage) (others : ℕ → Stores → Stores)
    (now : Instant Stores) : Prop :=
  ∀ result message,
    resultOf (dispatch sourceMessage sourceMessage.authorId others now).1 = some (.ok result) →
      result.message = some message → Authentic sourceMessage participantId message

/-- Whoever has written a message of the room under the identifier of the reply is the participant,
and has written it to the author of the source message. -/
def ReplyIdIsOwn (rooms : RoomSnapshot) (participantId : String) (sourceMessage : RoomMessage) :
    Prop :=
  ∀ message ∈ rooms.messages, message.roomId = sourceMessage.roomId →
    message.id = replyMessageId sourceMessage.id participantId →
      message.authorId = participantId ∧ sourceMessage.authorId ∈ message.recipients

/-- A dispatch that gives a message gives the reply of its provider, or one that stands under its
identifier. -/
theorem dispatchText_authentic {env : Environment} (provider : TextProvider)
    {sourceMessage : RoomMessage} {others : ℕ → Stores → Stores} {now : Instant Stores}
    (hvalid : validateSnapshot now.state.rooms = .ok ()) :
    RepliesAuthentically (dispatchText env provider) provider.participantId sourceMessage others
        now ↔
      ReplyIdIsOwn now.state.rooms provider.participantId sourceMessage := by
  have hs := validateSnapshot_eq_ok.mp hvalid
  -- The dispatch begins with the lookup, in the state as it is.
  obtain ⟨rest, hrest, hduplicate, hnotFound, hrefused⟩ : ∃ rest :
    DispatchProg RecipientDispatchResult,
      rest.Gives (fun result => ∀ message, result.message = some message →
        Authentic sourceMessage provider.participantId message) NoMessage ∧
      (∀ message, findMessage now.state.rooms sourceMessage.roomId
          (replyMessageId sourceMessage.id provider.participantId) = .ok message →
        (dispatchText env provider sourceMessage sourceMessage.authorId others now).1 =
          .error (.ok (duplicateDispatchResult provider.participantId message))) ∧
      (findMessage now.state.rooms sourceMessage.roomId
          (replyMessageId sourceMessage.id provider.participantId) = .error .messageNotFound →
        (dispatchText env provider sourceMessage sourceMessage.authorId others now).1 =
          (rest others (now.after others now.state)).1) ∧
      ∀ e, e ≠ .messageNotFound → findMessage now.state.rooms sourceMessage.roomId
          (replyMessageId sourceMessage.id provider.participantId) = .error e →
        (dispatchText env provider sourceMessage sourceMessage.authorId others now).1 =
          .error (.error (mapFindError e)) := by
    refine ⟨_, @dispatch_gives env provider sourceMessage
      (dispatchId sourceMessage.id provider.participantId), ?_⟩
    unfold dispatchText findReply
    simp only [bind, Thread.andThen, Thread.reads, Thread.step]
    refine ⟨fun message hfound => ?_, fun hnone => ?_, fun e he hfailed => ?_⟩
    · rw [hfound]
      rfl
    · rw [hnone]
      rfl
    · rw [hfailed]
      cases e with
      | messageNotFound => exact absurd rfl he
      | _ => rfl
  unfold RepliesAuthentically
  constructor
  · intro h message hmessage hroomId hid
    have hfound : findMessage now.state.rooms sourceMessage.roomId
        (replyMessageId sourceMessage.id provider.participantId) = .ok message :=
      (findMessage_eq_ok_iff hs).mpr ⟨hmessage, hroomId, hid⟩
    rw [hduplicate message hfound] at h
    have hauthentic := h (duplicateDispatchResult provider.participantId message) message rfl rfl
    exact ⟨hauthentic.authorId, hauthentic.recipients⟩
  · intro h result message hresult hmessage
    rcases hfind : findMessage now.state.rooms sourceMessage.roomId
      (replyMessageId sourceMessage.id provider.participantId) with e | found
    · by_cases he : e = .messageNotFound
      · have hends := hrest others (now.after others now.state)
        rw [he] at hfind
        rw [hnotFound hfind] at hresult
        rcases hrun : (rest others (now.after others now.state)).1
          with value | left | _
        · rw [hrun] at hends hresult
          obtain rfl := Except.ok.inj (Option.some.inj hresult)
          exact hends message hmessage
        · rw [hrun] at hends hresult
          obtain rfl := Option.some.inj hresult
          rw [hends result rfl] at hmessage
          cases hmessage
        · rw [hrun] at hresult
          cases hresult
      · rw [hrefused e he hfind] at hresult
        cases hresult
    · obtain ⟨hmem, hroomId, hid⟩ := (findMessage_eq_ok_iff hs).mp hfind
      obtain ⟨hauthor, hrecipients⟩ := h found hmem hroomId hid
      rw [hduplicate found hfind] at hresult
      obtain rfl := Except.ok.inj (Option.some.inj hresult)
      obtain rfl := Option.some.inj hmessage
      exact ⟨hauthor, hroomId, hrecipients⟩

/-- Each of the four dispatches answers with the participant's own reply to the author of the source
message, exactly when no one else's message is in the room under the identifier of the reply at the
time of the lookup, whatever the other threads do. -/
theorem reply_authentic (env : Environment) (sourceMessage : RoomMessage)
    (others : ℕ → Stores → Stores) (now : Instant Stores)
    (hvalid : validateSnapshot now.state.rooms = .ok ()) :
    (RepliesAuthentically (dispatchCodex env) codexParticipantId sourceMessage others now ↔
      ReplyIdIsOwn now.state.rooms codexParticipantId sourceMessage) ∧
    (RepliesAuthentically (dispatchGrok env) grokParticipantId sourceMessage others now ↔
      ReplyIdIsOwn now.state.rooms grokParticipantId sourceMessage) ∧
    (RepliesAuthentically (dispatchGemini env) geminiSearchParticipantId sourceMessage others now ↔
      ReplyIdIsOwn now.state.rooms geminiSearchParticipantId sourceMessage) ∧
    (RepliesAuthentically (dispatchClaude env) claudeCodeParticipantId sourceMessage others now ↔
      ReplyIdIsOwn now.state.rooms claudeCodeParticipantId sourceMessage) :=
  ⟨dispatchText_authentic codexProvider hvalid,
    dispatchText_authentic grokProvider hvalid,
    dispatchText_authentic geminiProvider hvalid,
    dispatchText_authentic claudeProvider hvalid⟩

namespace ReplySample

/-- An environment in which every file can be written, and the provider answers. -/
def environment : Environment where
  roomSerde := ⟨fun _ => some [0], fun _ => none⟩
  ledgerSerde := ⟨fun _ => some [0], fun _ => none⟩
  continuitySerde := ⟨fun _ => some [0], fun _ => none⟩
  faults _ := []
  clock _ := some (0, 0)
  aiAccessMode _ _ := .chatOnly
  aiInstructions _ _ := none
  aiModel _ _ := none
  availableRoot _ _ := .ok none
  prompt _ _ _ _ _ _ := ""
  runTextTurn _ _ := .ok { text := "Hi", sessionId := some "session", artifactIds := [] }

/-- The stores at the start, with some rooms. -/
def now (rooms : RoomSnapshot) : Instant Stores where
  moment := 0
  state :=
    { rooms
      roomWorld := .empty 0
      ledger := { data := { records := ∅, active := [] }, world := .empty 0 }
      bindings := ∅
      continuityWorld := .empty 0
      active := ∅
      events := [] }

/-- The message of the room. -/
def source : RoomMessage := ⟨"m1", "room", "owner", ["codex"], "Hello", "2026-08-12", [], none⟩

/-- A dispatch to Codex that gives a reply. -/
theorem reply_authentic_sample :
    validateSnapshot sampleSnapshot = .ok () ∧
      ((resultOf (dispatchCodex environment source source.authorId (fun _ stores => stores)
        (now sampleSnapshot)).1).bind fun told => told.toOption.bind (·.message)).isSome = true ∧
      RepliesAuthentically (dispatchCodex environment) codexParticipantId source
        (fun _ stores => stores)
        (now sampleSnapshot) := by
  have hvalid : validateSnapshot sampleSnapshot = .ok () := by decide
  refine ⟨hvalid, by decide +kernel, (reply_authentic environment source (fun _ stores => stores)
    (now sampleSnapshot) hvalid).1.mpr ?_⟩
  intro message hmessage _ hid
  have hone : ∀ other ∈ sampleSnapshot.messages,
      other.id ≠ replyMessageId source.id codexParticipantId := by
    decide
  exact absurd hid (hone message hmessage)

/-- What the owner writes, under the identifier of the reply to come. -/
def impostor : RoomMessageDraft where
  message := ⟨replyMessageId "m1" codexParticipantId, "room", "owner", ["codex"], "Not a reply",
    "2026-08-13", [], none⟩
  valid := by decide

/-- The room stores it, and a dispatch of the first message to Codex gives it as the reply. -/
theorem impostor_reported :
    let (written, rooms) := appendMessage impostor sampleSnapshot
    let result := duplicateDispatchResult codexParticipantId impostor.message
    written = .ok (.new .appended impostor.message) ∧
      resultOf (dispatchCodex environment source source.authorId (fun _ stores => stores)
        (now rooms)).1 = some (.ok result) ∧
      result.message = some impostor.message ∧
      ¬Authentic source codexParticipantId impostor.message := by
  refine ⟨by decide, by decide, rfl, fun h => ?_⟩
  exact absurd h.authorId (by decide)

end ReplySample

end Mio.Desktop.AiDispatch
