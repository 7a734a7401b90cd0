import Mio.Desktop.AiDispatchReplies
import Mio.Desktop.AiDispatchRuns
import Mio.Library.ThreadTraces

/-!
# What a dispatch tells, and what the ledger has of it

A dispatch leaves in many places, with an error, with a result that says that there was no turn, or
with one that leaves it open. `Ending` lists the ways that it can end: what the caller is told, the
state of the record, and whether the provider was called. A failure is only told where no turn was
started, or where the provider has confirmed it, and once the provider was called the record says so
(`dispatch_outcome`).

That is for every interleaving with threads that leave the record alone while its turn is open, as
`Yields` says.
-/

namespace Mio.Desktop.AiDispatchLedger

open Library Std

/-! ## What a call leaves of a record -/

/-- What others may do to the record of a dispatch: prune it, once its turn is over. -/
structure Spares (dispatchId : String) (data data' : DispatchLedgerData) : Prop where
  sound : Sound data'
  record : data'.records[dispatchId]? = data.records[dispatchId]? ∨
    data'.records[dispatchId]? = none ∧
      ∃ record, data.records[dispatchId]? = some record ∧ isTerminal record = true
  active : dispatchId ∈ data'.active ↔ dispatchId ∈ data.active

section Spares

variable {dispatchId : String} {data data' data'' kept next : DispatchLedgerData}
    {call : LedgerCall}
  {answer : Option AiDispatchBegin} {ledger : DesktopAiDispatchLedger}

/-- A sound ledger is spared by nothing. -/
theorem Spares.refl (h : Sound data) : Spares dispatchId data data := ⟨h, .inl rfl, .rfl⟩

/-- What spares a dispatch twice spares it. -/
theorem Spares.trans (h : Spares dispatchId data data') (h' : Spares dispatchId data' data'') :
    Spares dispatchId data data'' := by
  refine ⟨h'.sound, ?_, h'.active.trans h.active⟩
  rcases h'.record with hsame | ⟨hnone, record, hrecord, hterminal⟩
  · rw [hsame]
    exact h.record
  · refine .inr ⟨hnone, record, ?_, hterminal⟩
    rcases h.record with hsame | ⟨hgone, -⟩
    · rwa [hsame] at hrecord
    · rw [hgone] at hrecord
      cases hrecord

/-- A record whose turn is open stays. -/
theorem Spares.record_open (h : Spares dispatchId data data') {record : AiDispatchRecord}
    (hrecord : data.records[dispatchId]? = some record) (hopen : isTerminal record = false) :
    data'.records[dispatchId]? = some record := by
  rcases h.record with hsame | ⟨-, old, hold, hterminal⟩
  · exact hsame.trans hrecord
  · rw [hrecord, Option.some.injEq] at hold
    rw [hold, hterminal] at hopen
    cases hopen

/-- To make room spares every dispatch that is not over. -/
theorem Sound.spares_prune (h : Sound data) :
    Spares dispatchId data { data with records := pruneTerminalRecords data.records } := by
  refine ⟨h.prune, ?_, .rfl⟩
  rcases hrecord : data.records[dispatchId]? with _ | record
  · refine .inl ?_
    rcases hpruned : (pruneTerminalRecords data.records)[dispatchId]? with _ | record
    · rfl
    · rw [pruneTerminalRecords_subset h.valid hpruned] at hrecord
      cases hrecord
  · rcases pruneTerminalRecords_record h.valid hrecord with hkept | ⟨hterminal, -, hnone⟩
    · exact .inl hkept
    · exact .inr ⟨hnone, record, rfl, hterminal⟩

/-- The dispatch that a call is for. -/
def LedgerCall.target : LedgerCall → String
  | begin record => record.dispatchId
  | markExternalStarted dispatchId _ => dispatchId
  | markFailed dispatchId _ => dispatchId
  | markExternalPreflightFailed dispatchId _ => dispatchId
  | markCompleted dispatchId _ => dispatchId
  | finishUnknown dispatchId => dispatchId

/-- A mark is about its own dispatch. -/
theorem LedgerCall.target_of_mark {id updatedAt : String} {expected state : AiDispatchState}
    {finish : Bool} (h : call.mark = some (id, expected, state, updatedAt, finish)) :
    call.target = id := by
  cases call with
  | begin | finishUnknown => simp [mark] at h
  | _ =>
    simp only [mark, Option.some.injEq, Prod.mk.injEq] at h
    exact h.1

/-- The call is for another dispatch, or it begins one that is active. -/
def LedgerCall.Leaves (call : LedgerCall) (dispatchId : String)
    (data : DispatchLedgerData) : Prop :=
  call.target ≠ dispatchId ∨ (∃ record, call = .begin record) ∧ dispatchId ∈ data.active

/-- The end of another dispatch leaves whether this one is under way. -/
theorem mem_active_of_ne {id : String} (hid : id ≠ dispatchId) (finish : Bool) :
    (dispatchId ∈ if finish then data.active.filter (· != id) else data.active) ↔
      dispatchId ∈ data.active := by
  cases finish with
  | false => rfl
  | true =>
    have hne : (dispatchId != id) = true := by simpa using Ne.symm hid
    simp [hne]

/-- A step for another dispatch spares this one, whether it is kept or not. -/
theorem LedgerStep.spares (h : LedgerStep data call kept next answer) (hdata : Sound data)
    (hleaves : call.Leaves dispatchId data) :
    Spares dispatchId data kept ∧ Spares dispatchId data next := by
  obtain ⟨hkept, hnext⟩ := h.sound hdata
  cases h with
  | reserve record hvalid hinactive hfresh hroom =>
    have hne : record.dispatchId ≠ dispatchId := by
      rcases hleaves with hne | ⟨-, hactive⟩
      · exact hne
      · rintro rfl
        exact hinactive hactive
    have hpruned := @Sound.spares_prune dispatchId data hdata
    refine ⟨hpruned, hnext, ?_, ?_⟩
    · have hinsert : ((pruneTerminalRecords data.records).insert record.dispatchId
          { record with state := .prepared })[dispatchId]? =
            (pruneTerminalRecords data.records)[dispatchId]? := by
        rw [ExtTreeMap.getElem?_insert, if_neg (by simpa using hne)]
      dsimp only
      rw [hinsert]
      exact hpruned.record
    · rw [List.mem_cons, or_iff_right (Ne.symm hne)]
  | move call id updatedAt current state finish hmark htime hactive hcurrent =>
    have hne : id ≠ dispatchId := by
      rcases hleaves with hne | ⟨⟨record, rfl⟩, -⟩
      · rwa [LedgerCall.target_of_mark hmark] at hne
      · simp [LedgerCall.mark] at hmark
    refine ⟨.refl hdata, hnext, .inl ?_, mem_active_of_ne hne finish⟩
    dsimp only
    rw [ExtTreeMap.getElem?_insert, if_neg (by simpa using hne)]

/-- An answer to another dispatch spares this one. -/
theorem Answers.spares {outcome : Outcome AiDispatchLedgerError (Option AiDispatchBegin)}
    (h : Answers ledger call outcome data) (hledger : Sound ledger.data)
    (hleaves : call.Leaves dispatchId ledger.data) : Spares dispatchId ledger.data data := by
  have hsound := h.sound hledger
  cases h with
  | error | active | existing => exact .refl hledger
  | full => exact hledger.spares_prune
  | finished id =>
    have hne : id ≠ dispatchId := by
      rcases hleaves with hne | ⟨⟨record, hbegin⟩, -⟩
      · exact hne
      · cases hbegin
    exact ⟨hsound, .inl rfl, mem_active_of_ne hne true⟩

section Ends

variable {serde : Serde PersistedDispatchLedger} {faults : List Fault}
  {ended : Outcome AiDispatchLedgerError (Option AiDispatchBegin) × DesktopAiDispatchLedger}

/-- A call for another dispatch spares this one, however it ends. -/
theorem CallEnds.spares (h : CallEnds serde faults ledger call ended) (hledger : Sound ledger.data)
    (hleaves : call.Leaves dispatchId ledger.data) :
    Spares dispatchId ledger.data ended.2.data := by
  cases h with
  | answers outcome data h => exact h.spares hledger hleaves
  | persists kept next answer hstep =>
    obtain ⟨hkept, hnext⟩ := hstep.spares hledger hleaves
    rcases @committed_data kept next answer (((dispatchLedgerPersistence serde).persist
      next.records).run faults ledger.world) with heq | ⟨-, heq⟩
    · rw [heq]
      exact hkept
    · rw [heq]
      exact hnext

/-- A mark that returns has moved its record, and one that does not has changed nothing. -/
def Moves (dispatchId : String) (state : AiDispatchState) (updatedAt : String) (finish : Bool)
    (data : DispatchLedgerData) :
    Outcome AiDispatchLedgerError (Option AiDispatchBegin) × DesktopAiDispatchLedger → Prop
  | (.done _, after) =>
    (∃ current, data.records[dispatchId]? = some current ∧
      after.data.records[dispatchId]? = some { current with state, updatedAt }) ∧
      (dispatchId ∈ after.data.active ↔ finish = false)
  | (.error _, after) => after.data = data
  | (.cut, after) => after.data = data

/-- A mark that ends has moved its record, or it has left the ledger. -/
theorem CallEnds.moves (h : CallEnds serde faults ledger call ended) {updatedAt : String}
    {expected state : AiDispatchState} {finish : Bool}
    (hmark : call.mark = some (dispatchId, expected, state, updatedAt, finish)) :
    Moves dispatchId state updatedAt finish ledger.data ended := by
  cases h with
  | answers outcome data h =>
    cases h with
    | error => rfl
    | _ => simp [LedgerCall.mark] at hmark
  | persists kept next answer hstep =>
    cases hstep with
    | reserve => simp [LedgerCall.mark] at hmark
    | move call id time current newState isFinished hmark' htime hactive hcurrent =>
      rw [hmark'] at hmark
      simp only [Option.some.injEq, Prod.mk.injEq] at hmark
      obtain ⟨rfl, -, rfl, rfl, rfl⟩ := hmark
      dsimp only
      rcases ((dispatchLedgerPersistence serde).persist (ledger.data.records.insert id
        { current with state := newState, updatedAt := time })).run faults ledger.world with
        ⟨_ | _ | _, world⟩
      · refine ⟨⟨current, hcurrent, ExtTreeMap.getElem?_insert_self⟩, ?_⟩
        cases isFinished with
        | false => simpa [committed] using hactive
        | true => simp
      · rfl
      · rfl

/-- A begin that reserves puts in the record, and another one leaves what there is. -/
def Begins (record : AiDispatchRecord) (data : DispatchLedgerData) :
    Outcome AiDispatchLedgerError (Option AiDispatchBegin) × DesktopAiDispatchLedger → Prop
  | (.done (some .reserved), after) =>
    Sound after.data ∧ record.dispatchId ∉ data.active ∧ data.records[record.dispatchId]? = none ∧
      after.data.records[record.dispatchId]? = some { record with state := .prepared } ∧
      record.dispatchId ∈ after.data.active
  | (.done (some (.existing existing)), after) =>
    Spares record.dispatchId data after.data ∧ data.records[record.dispatchId]? = some existing
  | (.done (some .active), after) =>
    Spares record.dispatchId data after.data ∧ record.dispatchId ∈ data.active
  | (_, after) => Spares record.dispatchId data after.data

/-- How a begin ends, on the ledger as it was. -/
theorem CallEnds.begins {record : AiDispatchRecord}
    (h : CallEnds serde faults ledger (.begin record) ended) (hledger : Sound ledger.data) :
    Begins record ledger.data ended := by
  cases h with
  | answers outcome data h =>
    cases h with
    | existing record existing hexisting => exact ⟨.refl hledger, hexisting⟩
    | active record hactive => exact ⟨.refl hledger, hactive⟩
    | full => exact hledger.spares_prune
    | error => exact .refl hledger
  | persists kept next answer hstep =>
    obtain ⟨-, hnext⟩ := hstep.sound hledger
    cases hstep with
    | reserve record hvalid hinactive hfresh hroom =>
      dsimp only
      rcases ((dispatchLedgerPersistence serde).persist ((pruneTerminalRecords
        ledger.data.records).insert record.dispatchId { record with state := .prepared })).run
          faults
        ledger.world with ⟨_ | _ | _, world⟩
      · exact ⟨hnext, hinactive, hfresh, ExtTreeMap.getElem?_insert_self, List.mem_cons_self⟩
      · exact hledger.spares_prune
      · exact hledger.spares_prune
    | move => simp_all [LedgerCall.mark]

end Ends

end Spares

end Mio.Desktop.AiDispatchLedger

namespace Mio.Desktop.AiDispatch

open Library Std Mio.Core RoomAiContinuity Time AiDispatchLedger

/-! ## What is seen of a dispatch -/

/-- The ledger, and how often the provider was called for a dispatch. -/
structure Held where
  data : DispatchLedgerData
  calls : ℕ

/-- Whether an event is a call of the provider for the dispatch. -/
def isCallOf (id : String) : TurnEvent → Bool
  | .started dispatchId _ => dispatchId == id
  | .stopped .. => false

/-- What a dispatch holds in the stores: the ledger, and how often its provider was called. -/
def held (id : String) (stores : Stores) : Held where
  data := stores.ledger.data
  calls := stores.events.countP (isCallOf id)

/-- What others may do to it. -/
structure Yields (id : String) (own own' : Held) : Prop where
  data : Sound own.data → Spares id own.data own'.data
  calls : own'.calls = own.calls

/-- Nothing yields for a dispatch. -/
theorem Yields.refl {id : String} (own : Held) : Yields id own own := ⟨fun h => .refl h, rfl⟩

/-- What yields twice yields. -/
theorem Yields.trans {id : String} {own own' own'' : Held} (h : Yields id own own')
    (h' : Yields id own' own'') : Yields id own own'' :=
  ⟨fun hsound => (h.data hsound).trans (h'.data (h.data hsound).sound), h'.calls.trans h.calls⟩

instance (id : String) : Std.Refl (Yields id) := ⟨Yields.refl⟩

instance (id : String) : IsTrans Held (Yields id) := ⟨fun _ _ _ => Yields.trans⟩

/-! ## How a dispatch ends -/

/-- The identifier of the dispatch. -/
def idOf (provider : TextProvider) (sourceMessage : RoomMessage) : String :=
  dispatchId sourceMessage.id provider.participantId

/-- What the caller is told. -/
abbrev Told := Except RoomDispatchCommandError RecipientDispatchResult

/-- The steps of a run, each with the stores that it was taken in. -/
abbrev Steps := List (ℕ × Stores)

/-- A change of the state of a record. -/
abbrev RecordChange := List Fault → String → DesktopAiDispatchLedger →
  Library.Outcome AiDispatchLedgerError Unit × DesktopAiDispatchLedger

section Ending

variable (env : Environment) (provider : TextProvider) (sourceMessage : RoomMessage)

/-- That there was no turn, or that it failed. -/
def ToldFailed (told : Told) : Prop :=
  (∃ error, told = .error error) ∨
    ∃ code message, told = .ok (failedDispatchResult provider.participantId code message)

/-- That the message may have reached the AI. -/
def ToldUnknown (told : Told) : Prop :=
  ∃ code message, told = .ok (unknownDispatchResult provider.participantId code message)

/-- That the reply is in the room. -/
def ToldReply (told : Told) (message : RoomMessage) : Prop :=
  ∃ result, told = .ok result ∧ (result.status = .completed ∨ result.status = .duplicate) ∧
    result.message = some message

/-- The record of the dispatch in a state. -/
def recordIn (state : AiDispatchState) (updatedAt : String) : AiDispatchRecord :=
  { dispatchRecord sourceMessage provider.participantId updatedAt with state }

/-- The record is in a state, whether it is active, and how often the provider was called since
`before`. -/
structure Has (before : Held) (state : AiDispatchState) (isActive : Bool) (calls : ℕ) (own : Held) :
    Prop where
  sound : Sound own.data
  record : ∃ updatedAt, own.data.records[idOf provider sourceMessage]? =
    some (recordIn provider sourceMessage state updatedAt)
  active : idOf provider sourceMessage ∈ own.data.active ↔ isActive = true
  calls : own.calls = before.calls + calls

/-! ### What the dispatch has seen -/

/-- The clock has given the time. -/
def Timed (past : Steps) (time : String) : Prop :=
  Thread.Seen past fun moment _ => currentRfc3339Timestamp (env.clock moment) = some time

/-- The clock has given no time. -/
def Timeless (past : Steps) : Prop :=
  Thread.Seen past fun moment _ => currentRfc3339Timestamp (env.clock moment) = none

/-- The record could not be changed: there was no time, or the ledger refused. -/
def Unmarked (past : Steps) (change : RecordChange) : Prop :=
  Timeless env past ∨ Thread.Seen past fun moment stores =>
    ∃ updatedAt e, (change (env.faults moment) updatedAt stores.ledger).1 = .error e

/-- What the Room store has answered to a draft. -/
def StoreAnswers (past : Steps) (draft : RoomMessageDraft)
    (answer : Except RoomWriteError RoomWriteSuccess) : Prop :=
  Thread.Seen past fun moment stores =>
    match ((RoomSource.appendMessage env.roomSerde draft stores.rooms).run (env.faults moment)
      stores.roomWorld).1 with
    | .done (result, _) => result = answer
    | .error _ => .error .sourceUnavailable = answer
    | .cut => False

/-- The mode of the settings that gives the access. -/
def modeOf : TextTurnWorkspaceAccess → AiAccessMode
  | .readOnly => .workspaceRead
  | .readWrite => .workspaceWrite

/-- A turn is planned with what was read. -/
structure Prepared (past : Steps) (turn : PreparedTurn) : Prop where
  context : Thread.Seen past fun _ stores =>
    stores.rooms.rooms.find? (fun room => room.id == sourceMessage.roomId) = some turn.context.room
  access : ∀ access, turn.access = some access → provider.usesWorkspace = true ∧
    Thread.Seen past fun moment _ => env.aiAccessMode moment provider.participantId = modeOf access
  root : ∀ root, turn.root = some root →
    Thread.Seen past fun moment _ => env.availableRoot moment sourceMessage.roomId = .ok (some root)
  model : Thread.Seen past fun moment _ => env.aiModel moment provider.participantId = turn.model
  environmentKey : Thread.Seen past fun moment _ =>
    provider.environmentKey turn.root turn.access (env.aiInstructions moment provider.participantId)
      turn.model = turn.environmentKey
  continuation : Thread.Seen past fun _ stores =>
    RoomAiContinuity.get sourceMessage.roomId provider.participantId stores.bindings =
      .ok turn.continuation
  plan : roomContextPlan turn.context sourceMessage turn.continuation turn.environmentKey
    provider.participantId = .ok turn.plan

/-- The provider was called with what was prepared, once the record had it that the turn was
started, and has given the result. -/
def Called (past : Steps) (result : Except TextTurnError TextTurnResponse) : Prop :=
  ∃ turn prompt, Prepared env provider sourceMessage past turn ∧
    (Thread.Seen past fun moment _ =>
      env.prompt moment provider.participantId turn.context sourceMessage
      turn.plan (turn.access.filter fun _ => turn.root.isSome) = prompt) ∧
    Thread.Seen past fun moment stores =>
      (∃ updatedAt, stores.ledger.data.records[idOf provider sourceMessage]? =
        some (recordIn provider sourceMessage .externalStarted updatedAt)) ∧
      env.runTextTurn moment
        (textTurnRequest provider sourceMessage (idOf provider sourceMessage) prompt turn) = result

/-- The reply that a response makes. -/
def replyDraft (replyRecipientId createdAt : String) (response : TextTurnResponse) :
    Except RoomMessageDraftError RoomMessageDraft :=
  RoomMessageDraft.tryNew (replyMessageId sourceMessage.id provider.participantId)
    sourceMessage.roomId provider.participantId [replyRecipientId] response.text createdAt
    response.artifactIds

/-- Why a response leaves no reply in the room. -/
inductive Unsaved (replyRecipientId : String) (past : Steps) (response : TextTurnResponse) : Prop
  | noSession (h : response.sessionId = none)
  | noTime (h : Timeless env past)
  | noMessage {createdAt : String} {error : RoomMessageDraftError}
    (htime : Timed env past createdAt)
    (h : replyDraft provider sourceMessage replyRecipientId createdAt response = .error error)
  | refused {createdAt : String} {draft : RoomMessageDraft} {error : RoomWriteError}
    (htime : Timed env past createdAt)
    (h : replyDraft provider sourceMessage replyRecipientId createdAt response = .ok draft)
    (hanswer : StoreAnswers env past draft (.error error))

/-- Why a turn stays open after the provider has given the result. -/
inductive Unresolved (replyRecipientId : String) (past : Steps) :
    Except TextTurnError TextTurnResponse → Prop
  /-- The error does not say that there was no turn. -/
  | error {error : TextTurnError} (h : provider.isPreflight error = false) :
    Unresolved replyRecipientId past (.error error)
  /-- It does, and the record could not be marked. -/
  | unrecorded {error : TextTurnError} (h : provider.isPreflight error = true)
    (hmark : Unmarked env past fun faults updatedAt =>
      markExternalPreflightFailed env.ledgerSerde faults (idOf provider sourceMessage) updatedAt) :
    Unresolved replyRecipientId past (.error error)
  | response {response : TextTurnResponse}
    (h : Unsaved env provider sourceMessage replyRecipientId past response) :
    Unresolved replyRecipientId past (.ok response)

/-! ### The ends -/

/-- The ends of a dispatch that does not get hold of its record. -/
inductive Refused (past : Steps) (before : Held) : Told → Prop
  /-- The reply is there already. -/
  | replied {message : RoomMessage}
    (h : Thread.Seen past fun _ stores => findMessage stores.rooms sourceMessage.roomId
      (replyMessageId sourceMessage.id provider.participantId) = .ok message) :
    Refused past before (.ok (duplicateDispatchResult provider.participantId message))
  /-- The room cannot be searched for it. -/
  | unfound {e : RoomMessageFindError} (hne : e ≠ .messageNotFound)
    (h : Thread.Seen past fun _ stores => findMessage stores.rooms sourceMessage.roomId
      (replyMessageId sourceMessage.id provider.participantId) = .error e) :
    Refused past before (.error (mapFindError e))
  | noTime (h : Timeless env past) : Refused past before (.error dispatchUnavailable)
  /-- The ledger does not take the record. -/
  | notBegun {updatedAt : String} {e : AiDispatchLedgerError} (htime : Timed env past updatedAt)
    (h : Thread.Seen past fun moment stores =>
      (AiDispatchLedger.begin env.ledgerSerde (env.faults moment)
        (dispatchRecord sourceMessage provider.participantId updatedAt) stores.ledger).1 =
          .error e) :
    Refused past before (.error dispatchUnavailable)
  /-- The dispatch is active. -/
  | active (h : idOf provider sourceMessage ∈ before.data.active) :
    Refused past before (.error
      { code := "aiDispatchInProgress", message := "The AI response is already in progress." })
  /-- The record is there already. -/
  | existing {record : AiDispatchRecord}
    (h : before.data.records[idOf provider sourceMessage]? = some record) :
    Refused past before (existingDispatch provider.participantId record.state)

/-- The ends of a dispatch that has put in its record. -/
inductive Begun (replyRecipientId : String) (before : Held) (past : Steps)
    (told : Told) (own : Held) :
    Prop
  /-- No turn was started, and the record says that it failed. -/
  | failed (h : ToldFailed provider told)
    (hown : Has provider sourceMessage before .failed false 0 own)
  /-- No turn was started, and the record could not be marked. -/
  | unmarked (hmark : Unmarked env past fun faults updatedAt =>
      markFailed env.ledgerSerde faults (idOf provider sourceMessage) updatedAt)
    (h : ToldFailed provider told ∨ ToldUnknown provider told)
    (hown : Has provider sourceMessage before .prepared false 0 own)
  /-- The provider was called, and it has confirmed that there was no turn. -/
  | confirmed {error : TextTurnError}
    (hcall : Called env provider sourceMessage past (.error error))
    (hpreflight : provider.isPreflight error = true) (h : ToldFailed provider told)
    (hown : Has provider sourceMessage before .failed false 1 own)
  /-- The provider was called, and whether there was a turn is not known, or its response was not
  saved. -/
  | unknown {result : Except TextTurnError TextTurnResponse}
    (hcall : Called env provider sourceMessage past result)
    (hopen : Unresolved env provider sourceMessage replyRecipientId past result)
    (h : ToldUnknown provider told)
    (hown : Has provider sourceMessage before .externalStarted false 1 own)
  /-- The provider was called, and its reply is in the room. -/
  | replied {response : TextTurnResponse} {createdAt : String} {draft : RoomMessageDraft}
    {saved : RoomWriteSuccess} (hcall : Called env provider sourceMessage past (.ok response))
    (htime : Timed env past createdAt)
    (hdraft : replyDraft provider sourceMessage replyRecipientId createdAt response = .ok draft)
    (hsaved : StoreAnswers env past draft (.ok saved)) (h : ToldReply told saved.message)
    (hown : Has provider sourceMessage before .completed false 1 own ∨
      Has provider sourceMessage before .externalStarted false 1 own ∧
        Unmarked env past fun faults updatedAt =>
          markCompleted env.ledgerSerde faults (idOf provider sourceMessage) updatedAt)

/-- There is no record of the dispatch, or one that may be pruned. -/
def Vacant (before : Held) : Prop :=
  idOf provider sourceMessage ∉ before.data.active ∧
    ∀ record, before.data.records[idOf provider sourceMessage]? = some record →
      isTerminal record = true

/-- How a dispatch ends, from what was there before it. -/
inductive Ending (replyRecipientId : String) (before : Held)
    (past : Steps) (told : Told) (own : Held) :
    Prop
  /-- The record is left as it is, and the provider was not called. -/
  | refused (h : Refused env provider sourceMessage past before told)
    (hown : Yields (idOf provider sourceMessage) before own)
  | begun (hvacant : Vacant provider sourceMessage before)
    (h : Begun env provider sourceMessage replyRecipientId before past told own)

/-- Where the process may stop. The provider is only called once the ledger has it that the turn was
started. -/
inductive CutOff (before own : Held) : Prop
  | idle (h : Yields (idOf provider sourceMessage) before own)
  | prepared (h : Has provider sourceMessage before .prepared true 0 own)
  | started {calls : ℕ} (hcalls : calls ≤ 1)
    (h : Has provider sourceMessage before .externalStarted true calls own)

end Ending

/-! ### More steps -/

section Grows

variable {env : Environment} {provider : TextProvider} {sourceMessage : RoomMessage}
  {replyRecipientId : String} {before own : Held} {past past' : Steps} {told : Told}

/-- A mark that was not made was not made in more of the run either. -/
theorem Unmarked.mono {change : RecordChange} (h : Unmarked env past change) (hsub : past ⊆ past') :
    Unmarked env past' change :=
  h.imp (·.mono hsub) (·.mono hsub)

/-- A turn that was prepared was prepared in more of the run too. -/
theorem Prepared.mono {turn : PreparedTurn} (h : Prepared env provider sourceMessage past turn)
    (hsub : past ⊆ past') : Prepared env provider sourceMessage past' turn where
  context := h.context.mono hsub
  access access haccess := ⟨(h.access access haccess).1, (h.access access haccess).2.mono hsub⟩
  root root hroot := (h.root root hroot).mono hsub
  model := h.model.mono hsub
  environmentKey := h.environmentKey.mono hsub
  continuation := h.continuation.mono hsub
  plan := h.plan

/-- A call that was made was made in more of the run too. -/
theorem Called.mono {result : Except TextTurnError TextTurnResponse}
    (h : Called env provider sourceMessage past result) (hsub : past ⊆ past') :
    Called env provider sourceMessage past' result := by
  obtain ⟨turn, prompt, hturn, hprompt, hcall⟩ := h
  exact ⟨turn, prompt, hturn.mono hsub, hprompt.mono hsub, hcall.mono hsub⟩

/-- A response that could not be saved is so in more of the run too. -/
theorem Unsaved.mono {response : TextTurnResponse}
    (h : Unsaved env provider sourceMessage replyRecipientId past response) (hsub : past ⊆ past') :
    Unsaved env provider sourceMessage replyRecipientId past' response := by
  cases h with
  | noSession h => exact .noSession h
  | noTime h => exact .noTime (h.mono hsub)
  | noMessage htime h => exact .noMessage (htime.mono hsub) h
  | refused htime h hanswer => exact .refused (htime.mono hsub) h (hanswer.mono hsub)

/-- An answer that settles nothing does so in more of the run too. -/
theorem Unresolved.mono {result : Except TextTurnError TextTurnResponse}
    (h : Unresolved env provider sourceMessage replyRecipientId past result) (hsub : past ⊆ past') :
    Unresolved env provider sourceMessage replyRecipientId past' result := by
  cases h with
  | error h => exact .error h
  | unrecorded h hmark => exact .unrecorded h (hmark.mono hsub)
  | response h => exact .response (h.mono hsub)

/-- A dispatch that was refused was refused in more of the run too. -/
theorem Refused.mono (h : Refused env provider sourceMessage past before told)
    (hsub : past ⊆ past') :
    Refused env provider sourceMessage past' before told := by
  cases h with
  | replied h => exact .replied (h.mono hsub)
  | unfound hne h => exact .unfound hne (h.mono hsub)
  | noTime h => exact .noTime (h.mono hsub)
  | notBegun htime h => exact .notBegun (htime.mono hsub) (h.mono hsub)
  | active h => exact .active h
  | existing h => exact .existing h

/-- A dispatch that has begun has done so in more of the run too. -/
theorem Begun.mono (h : Begun env provider sourceMessage replyRecipientId before past told own)
    (hsub : past ⊆ past') :
    Begun env provider sourceMessage replyRecipientId before past' told own := by
  cases h with
  | failed h hown => exact .failed h hown
  | unmarked hmark h hown => exact .unmarked (hmark.mono hsub) h hown
  | confirmed hcall hpreflight h hown => exact .confirmed (hcall.mono hsub) hpreflight h hown
  | unknown hcall hopen h hown => exact .unknown (hcall.mono hsub) (hopen.mono hsub) h hown
  | replied hcall htime hdraft hsaved h hown =>
    exact .replied (hcall.mono hsub) (htime.mono hsub) hdraft (hsaved.mono hsub) h
      (hown.imp_right fun hown => ⟨hown.1, hown.2.mono hsub⟩)

/-- How a dispatch has ended does not depend on what the thread does after it. -/
theorem Ending.mono (h : Ending env provider sourceMessage replyRecipientId before past told own)
    (hsub : past ⊆ past') :
    Ending env provider sourceMessage replyRecipientId before past' told own := by
  cases h with
  | refused h hown => exact .refused (h.mono hsub) hown
  | begun hvacant h => exact .begun hvacant (h.mono hsub)

end Grows

/-! ## The steps -/

section Steps

variable {env : Environment} {provider : TextProvider} {sourceMessage : RoomMessage}
  {replyRecipientId : String} {before : Held} {others : ℕ → Stores → Stores}
    {known : Steps} {α β : Type}

/-- A record of this dispatch that is open is not over. -/
theorem isTerminal_recordIn {state : AiDispatchState} {updatedAt : String}
    (hopen : state = .prepared ∨ state = .externalStarted) :
    isTerminal (recordIn provider sourceMessage state updatedAt) = false := by
  rcases hopen with rfl | rfl <;> rfl

/-- While the turn is open, the others leave what the ledger has of it. -/
theorem Has.withstands {state : AiDispatchState} {isActive : Bool} {calls : ℕ}
    (hopen : state = .prepared ∨ state = .externalStarted) :
    Thread.Withstands (Yields (idOf provider sourceMessage))
      (Has provider sourceMessage before state isActive calls) := by
  rintro own own' hyields ⟨hsound, ⟨updatedAt, hrecord⟩, hactive, hcalls⟩
  have hspares := hyields.data hsound
  exact ⟨hspares.sound, ⟨updatedAt, hspares.record_open hrecord (isTerminal_recordIn hopen)⟩,
    hspares.active.trans hactive, hyields.calls.trans hcalls⟩

/-- Besides, something may be known of the steps. -/
theorem Has.withstands_and {state : AiDispatchState} {isActive : Bool} {calls : ℕ}
    (hopen : state = .prepared ∨ state = .externalStarted) (c : Prop) :
    Thread.Withstands (Yields (idOf provider sourceMessage))
      (fun own => c ∧ Has provider sourceMessage before state isActive calls own) :=
  fun _ _ hyields h => ⟨h.1, Has.withstands hopen _ _ hyields h.2⟩

/-- What is held of an open record still holds after what the others may do. -/
theorem Has.once {state : AiDispatchState} {isActive : Bool} {calls : ℕ} {own : Held}
    (hopen : state = .prepared ∨ state = .externalStarted)
    (h : Thread.Once (Yields (idOf provider sourceMessage))
      (Has provider sourceMessage before state isActive calls) own) :
    Has provider sourceMessage before state isActive calls own := by
  obtain ⟨earlier, hearlier, hyields⟩ := h
  exact Has.withstands hopen _ _ hyields hearlier

/-- What is known of a dispatch that was cut off withstands the others. -/
theorem CutOff.withstands : Thread.Withstands (Yields (idOf provider sourceMessage))
    (CutOff provider sourceMessage before) := by
  intro own own' hyields h
  cases h with
  | idle h => exact .idle (h.trans hyields)
  | prepared h => exact .prepared (Has.withstands (.inl rfl) _ _ hyields h)
  | started hcalls h => exact .started hcalls (Has.withstands (.inr rfl) _ _ hyields h)

/-- How far an open turn is. -/
inductive Stage : AiDispatchState → ℕ → Prop
  | prepared : Stage .prepared 0
  | started : Stage .externalStarted 0
  | called : Stage .externalStarted 1

/-- At each stage the record is open. -/
theorem Stage.isOpen {state : AiDispatchState} {calls : ℕ} (h : Stage state calls) :
    state = .prepared ∨ state = .externalStarted := by
  cases h with
  | prepared => exact .inl rfl
  | started | called => exact .inr rfl

/-- At each stage the process may stop. -/
theorem Stage.cutOff {state : AiDispatchState} {calls : ℕ} (hstage : Stage state calls) {own : Held}
    (h : Has provider sourceMessage before state true calls own) :
    CutOff provider sourceMessage before own := by
  cases hstage with
  | prepared => exact .prepared h
  | started => exact .started (Nat.zero_le 1) h
  | called => exact .started le_rfl h

/-- A part of a dispatch that has put in its record, after the steps `known`. -/
def Runs (env : Environment) (provider : TextProvider) (sourceMessage : RoomMessage)
    (replyRecipientId : String) (before : Held) (others : ℕ → Stores → Stores) (known : Steps)
    (pre : Held → Prop) (part : DispatchProg α) (post : α → Steps → Held → Prop) : Prop :=
  Thread.Traced others (held (idOf provider sourceMessage)) known pre part post
    (fun told past => Thread.Once (Yields (idOf provider sourceMessage))
      (Begun env provider sourceMessage replyRecipientId before past told))
    (CutOff provider sourceMessage before)

variable {pre : Held → Prop} {post : α → Steps → Held → Prop}

/-- Two parts of a dispatch, one after the other, of which the second knows what the first has
seen. -/
theorem runs_bind {part : DispatchProg α} {next : α → DispatchProg β}
    {last : β → Steps → Held → Prop}
    (h : Runs env provider sourceMessage replyRecipientId before others known pre part post)
    (hnext : ∀ a past, known ⊆ past →
      Runs env provider sourceMessage replyRecipientId before others past (post a past)
        (next a) last) :
    Runs env provider sourceMessage replyRecipientId before others known pre (part >>= next) last :=
  Thread.traced_bind h hnext

/-- The part returns what is asked of it. -/
theorem runs_pure {a : α} (h : ∀ past own, known ⊆ past → pre own → post a past own) :
    Runs env provider sourceMessage replyRecipientId before others known pre
      (pure a : DispatchProg α)
      post :=
  Thread.traced_pure h

/-- The dispatch leaves with what it tells. -/
theorem runs_exit {told : Told}
    (h : ∀ own, pre own → Thread.Once (Yields (idOf provider sourceMessage))
      (Begun env provider sourceMessage replyRecipientId before known told) own) :
    Runs env provider sourceMessage replyRecipientId before others known pre
      (Thread.exit told : DispatchProg α) post :=
  Thread.traced_exit fun _ own hsub hpre => (h own hpre).mono fun _ hbegun => hbegun.mono hsub

/-- The mark is a call of the ledger for this dispatch. -/
def Marks (env : Environment) (id : String) (change : RecordChange)
    (expected next : AiDispatchState)
    (finish : Bool) : Prop :=
  ∃ toCall : String → LedgerCall,
    (∀ faults updatedAt ledger, (toCall updatedAt).run env.ledgerSerde faults ledger =
      withAnswer (fun _ => none) (change faults updatedAt ledger)) ∧
    ∀ updatedAt, (toCall updatedAt).mark = some (id, expected, next, updatedAt, finish)

/-- The mark before the call of the provider. -/
theorem startExternalTurn_marks : Marks env (idOf provider sourceMessage)
    (fun faults updatedAt => markExternalStarted env.ledgerSerde faults
      (idOf provider sourceMessage) updatedAt) .prepared .externalStarted false :=
  ⟨.markExternalStarted (idOf provider sourceMessage), fun _ _ _ => rfl, fun _ => rfl⟩

/-- The mark for a failure before the call. -/
theorem finishLocalPreflightFailed_marks : Marks env (idOf provider sourceMessage)
    (fun faults updatedAt => markFailed env.ledgerSerde faults
      (idOf provider sourceMessage) updatedAt)
    .prepared .failed true :=
  ⟨.markFailed (idOf provider sourceMessage), fun _ _ _ => rfl, fun _ => rfl⟩

/-- The mark for a reply that is stored. -/
theorem markCompleted_marks : Marks env (idOf provider sourceMessage)
    (fun faults updatedAt => markCompleted env.ledgerSerde faults
      (idOf provider sourceMessage) updatedAt)
    .externalStarted .completed true :=
  ⟨.markCompleted (idOf provider sourceMessage), fun _ _ _ => rfl, fun _ => rfl⟩

/-- The mark for a failure that the provider has confirmed. -/
theorem finishExternalPreflightFailed_marks : Marks env (idOf provider sourceMessage)
    (fun faults updatedAt => markExternalPreflightFailed env.ledgerSerde faults
      (idOf provider sourceMessage) updatedAt) .externalStarted .failed true :=
  ⟨.markExternalPreflightFailed (idOf provider sourceMessage), fun _ _ _ => rfl, fun _ => rfl⟩

section Relies

variable (hrely : Thread.Relies others (held (idOf provider sourceMessage))
  (Yields (idOf provider sourceMessage)))

include hrely

/-- The rule for one step, whose postcondition withstands the others. -/
theorem runs_step
    (hpost : ∀ a past, Thread.Withstands (Yields (idOf provider sourceMessage)) (post a past))
    {act : ℕ → Stores → Library.Outcome Told α × Stores}
    (h : ∀ moment stores past, known ⊆ past → pre (held (idOf provider sourceMessage) stores) →
      match act moment stores with
      | (.done a, after) =>
        post a ((moment, stores) :: past) (held (idOf provider sourceMessage) after)
      | (.error told, after) => Begun env provider sourceMessage replyRecipientId before
          ((moment, stores) :: past) told (held (idOf provider sourceMessage) after)
      | (.cut, after) => CutOff provider sourceMessage before
          (held (idOf provider sourceMessage) after)) :
    Runs env provider sourceMessage replyRecipientId before others known pre
      (Thread.step act) post := by
  refine hrely.traced_step hpost (fun _ _ => Thread.Once.withstands) CutOff.withstands
    fun moment stores past hsub hpre => ?_
  have hact := h moment stores past hsub hpre
  rcases hrun : act moment stores with ⟨a | told | _, after⟩
  all_goals rw [hrun] at hact
  · exact hact
  · exact .now hact
  · exact hact

/-- While the turn is open, a reading leaves what the ledger has of it. -/
theorem runs_reads {state : AiDispatchState} {calls : ℕ} (hstage : Stage state calls)
    (f : ℕ → Stores → α) :
    Runs env provider sourceMessage replyRecipientId before others known
      (Has provider sourceMessage before state true calls) (Thread.reads f)
      (fun a past own => Thread.Seen past (fun moment stores => f moment stores = a) ∧
        Has provider sourceMessage before state true calls own) :=
  hrely.traced_reads (Has.withstands hstage.isOpen) f

/-- So does a step on the other stores. -/
theorem runs_rest {state : AiDispatchState} {calls : ℕ} (hstage : Stage state calls)
    {act : ℕ → Stores → Library.Outcome Told α × Stores}
    (hact : ∀ moment stores, held (idOf provider sourceMessage) (act moment stores).2 =
      held (idOf provider sourceMessage) stores)
    (hstays : ∀ moment stores told, (act moment stores).1 ≠ .error told) :
    Runs env provider sourceMessage replyRecipientId before others known
      (Has provider sourceMessage before state true calls) (Thread.step act)
      (fun a past own => Thread.Seen past (fun moment stores => (act moment stores).1 = .done a) ∧
        Has provider sourceMessage before state true calls own) := by
  refine runs_step hrely (fun _ _ => Has.withstands_and hstage.isOpen _)
    fun moment stores past _ h => ?_
  have hview := hact moment stores
  have hleft := hstays moment stores
  rcases hrun : act moment stores with ⟨a | told | _, after⟩
  all_goals rw [hrun] at hview hleft
  · refine ⟨.now (by rw [hrun]), ?_⟩
    rwa [← hview] at h
  · exact absurd rfl (hleft told)
  · rw [← hview] at h
    exact hstage.cutOff h

/-! ### The ledger -/

/-- A call of the ledger leaves the other stores. -/
theorem ledgerStep_traced {left : Told → Steps → Held → Prop} {cut : Held → Prop}
    {act : ℕ → DesktopAiDispatchLedger →
      Library.Outcome AiDispatchLedgerError β × DesktopAiDispatchLedger}
    {result : Except AiDispatchLedgerError β → Steps → Held → Prop}
    (hresult : ∀ value past,
      Thread.Withstands (Yields (idOf provider sourceMessage)) (result value past))
    (hleft : ∀ told past, Thread.Withstands (Yields (idOf provider sourceMessage)) (left told past))
    (hcut : Thread.Withstands (Yields (idOf provider sourceMessage)) cut)
    (h : ∀ moment (stores : Stores) past, known ⊆ past →
      pre (held (idOf provider sourceMessage) stores) →
      match act moment stores.ledger with
      | (.done value, after) => result (.ok value) ((moment, stores) :: past)
          ⟨after.data, (held (idOf provider sourceMessage) stores).calls⟩
      | (.error e, after) => result (.error e) ((moment, stores) :: past)
          ⟨after.data, (held (idOf provider sourceMessage) stores).calls⟩
      | (.cut, after) => cut ⟨after.data, (held (idOf provider sourceMessage) stores).calls⟩) :
    Thread.Traced others (held (idOf provider sourceMessage)) known pre (ledgerStep act) result left
      cut := by
  refine hrely.traced_step hresult hleft hcut fun moment stores past hsub hpre => ?_
  have hact := h moment stores past hsub hpre
  rcases hrun : act moment stores.ledger with ⟨value | e | _, after⟩
  all_goals
    rw [hrun] at hact
    exact hact

/-- A mark moves the record, or the ledger refuses it. -/
theorem ledgerMark_runs {change : RecordChange} {expected next : AiDispatchState} {finish : Bool}
    (hmarks : Marks env (idOf provider sourceMessage) change expected next finish)
    {state : AiDispatchState} {calls : ℕ} (hstage : Stage state calls) (updatedAt : String) :
    Runs env provider sourceMessage replyRecipientId before others known
      (Has provider sourceMessage before state true calls)
      (ledgerStep fun moment => change (env.faults moment) updatedAt)
      (fun result past own => if result.isOk = true then
          Thread.Once (Yields (idOf provider sourceMessage))
            (Has provider sourceMessage before next (!finish) calls) own
        else Unmarked env past change ∧
          Has provider sourceMessage before state true calls own) := by
  obtain ⟨toCall, hrun, hmark⟩ := hmarks
  -- The mark runs at one step, and what it has left withstands the steps of the others.
  refine ledgerStep_traced hrely (fun result past => ?_) (fun _ _ => Thread.Once.withstands)
    CutOff.withstands fun moment stores past _ h => ?_
  · cases result with
    | ok => exact Thread.Once.withstands
    | error => exact Has.withstands_and hstage.isOpen _
  have hends :=
    @LedgerCall.ends env.ledgerSerde (env.faults moment) stores.ledger (toCall updatedAt)
  rw [hrun] at hends
  have hsound := hends.sound h.sound
  have hmoves := hends.moves (hmark updatedAt)
  obtain ⟨time, hrecord⟩ := h.record
  rcases hchange : change (env.faults moment) updatedAt stores.ledger with ⟨_ | e | _, after⟩
  all_goals rw [hchange] at hsound hmoves
  · obtain ⟨⟨current, hcurrent, hmoved⟩, hactive⟩ := hmoves
    -- The record that is moved is the one of this dispatch, which nobody else may change.
    have heq : current = recordIn provider sourceMessage state time :=
      Option.some.inj (hcurrent.symm.trans hrecord)
    rw [heq] at hmoved
    refine .now ⟨hsound, ⟨updatedAt, hmoved⟩, ?_, h.calls⟩
    rw [Bool.not_eq_true']
    exact hactive
  -- Neither a failed nor an interrupted mark changes the data in memory.
  · have hsame : after.data = stores.ledger.data := hmoves
    refine ⟨.inr (.now ⟨updatedAt, e, by rw [hchange]⟩), ?_⟩
    rw [hsame]
    exact h
  · have hsame : after.data = stores.ledger.data := hmoves
    refine hstage.cutOff ?_
    rw [hsame]
    exact h

/-- A mark moves the record of the dispatch, or the dispatch is told how it ended. -/
theorem mark_runs {change : RecordChange} {expected next : AiDispatchState} {finish : Bool}
    (hmarks : Marks env (idOf provider sourceMessage) change expected next finish)
    {state : AiDispatchState} {calls : ℕ} (hstage : Stage state calls) :
    Runs env provider sourceMessage replyRecipientId before others known
      (Has provider sourceMessage before state true calls) (mark env change)
      (fun done past own => if done = true then
          Thread.Once (Yields (idOf provider sourceMessage))
            (Has provider sourceMessage before next (!finish) calls) own
        else Unmarked env past change ∧
          Has provider sourceMessage before state true calls own) := by
  unfold mark
  refine runs_bind (runs_reads hrely hstage _) fun time past _ => Thread.traced_and fun htime => ?_
  cases time with
  | none => exact runs_pure fun later own hsub h => ⟨.inl (htime.mono hsub), h⟩
  | some updatedAt =>
    refine runs_bind (ledgerMark_runs hrely hmarks hstage updatedAt) fun result past _ => ?_
    cases result with
    | ok => exact runs_pure fun later own _ h => h
    | error => exact runs_pure fun later own hsub h => ⟨h.1.mono hsub, h.2⟩

/-- The dispatch is no longer under way, and its record stays. -/
theorem finishUnknown_runs {state : AiDispatchState} {calls : ℕ} (hstage : Stage state calls) :
    Runs env provider sourceMessage replyRecipientId before others known
      (Has provider sourceMessage before state true calls)
      (finishUnknown (idOf provider sourceMessage))
      (fun _ _ => Has provider sourceMessage before state false calls) := by
  unfold finishUnknown Thread.changes
  refine runs_step hrely (fun _ _ => Has.withstands hstage.isOpen) fun moment stores past _ h => ?_
  have hsound := (@LedgerCall.ends env.ledgerSerde [] stores.ledger
    (.finishUnknown (idOf provider sourceMessage))).sound h.sound
  exact ⟨hsound, h.record, by simp [held, AiDispatchLedger.finishUnknown], h.calls⟩

/-- The record says that the dispatch failed, or it could not be marked. -/
theorem finishFailed_runs : Runs env provider sourceMessage replyRecipientId before others known
    (Has provider sourceMessage before .prepared true 0)
    (finishFailed env (idOf provider sourceMessage))
    (fun _ past => Thread.Once (Yields (idOf provider sourceMessage)) fun own =>
      Has provider sourceMessage before .failed false 0 own ∨
        Unmarked env past (fun faults updatedAt =>
          markFailed env.ledgerSerde faults (idOf provider sourceMessage) updatedAt) ∧
        Has provider sourceMessage before .prepared false 0 own) := by
  unfold finishFailed
  refine runs_bind (mark_runs hrely finishLocalPreflightFailed_marks .prepared)
    fun isMarked past _ => ?_
  cases isMarked with
  | true => exact runs_pure fun later own _ h => h.mono fun _ => .inl
  | false =>
    refine Thread.traced_and fun hmark => ?_
    exact (finishUnknown_runs hrely .prepared).mono (fun _ h => h)
      (fun _ later own hsub h => .now (.inr ⟨hmark.mono hsub, h⟩)) (fun _ _ _ _ h => h) fun _ h => h

/-- A dispatch that fails before it has started its turn leaves with an error. -/
theorem finishFailed_giveUp {error : RoomDispatchCommandError} :
    Runs env provider sourceMessage replyRecipientId before others known
      (Has provider sourceMessage before .prepared true 0)
      (finishFailed env (idOf provider sourceMessage) >>= fun _ => giveUp error) post := by
  refine runs_bind (finishFailed_runs hrely) fun _ past _ =>
    runs_exit fun own h => h.mono fun own h => ?_
  have htold : ToldFailed provider (.error error) := .inl ⟨error, rfl⟩
  rcases h with h | ⟨hmark, h⟩
  · exact .failed htold h
  · exact .unmarked hmark (.inl htold) h

/-! ### Before the turn -/

/-- The access is one that the settings gave at a step of the run. -/
theorem workspaceAccess_runs : Runs env provider sourceMessage replyRecipientId before others known
    (Has provider sourceMessage before .prepared true 0) (workspaceAccess env provider)
    (fun result past own => (∀ access, result = some access → provider.usesWorkspace = true ∧
        Thread.Seen past fun moment _ =>
          env.aiAccessMode moment provider.participantId = modeOf access) ∧
      Has provider sourceMessage before .prepared true 0 own) := by
  have hnone : ∀ past : Steps, ∀ access, none = some access → provider.usesWorkspace = true ∧
      Thread.Seen past fun moment _ =>
        env.aiAccessMode moment provider.participantId = modeOf access :=
    fun _ _ hsome => by cases hsome
  refine Thread.traced_ite (fun huses => ?_) fun _ => runs_pure fun past own _ h => ⟨hnone past, h⟩
  refine runs_bind (runs_reads hrely .prepared _) fun mode past _ =>
    Thread.traced_and fun hmode => ?_
  cases mode with
  | workspaceRead =>
    refine runs_pure fun later own hsub h => ⟨fun access hsome => ?_, h⟩
    obtain rfl := Option.some.inj hsome
    exact ⟨huses, hmode.mono hsub⟩
  | workspaceWrite =>
    refine runs_pure fun later own hsub h => ⟨fun access hsome => ?_, h⟩
    obtain rfl := Option.some.inj hsome
    exact ⟨huses, hmode.mono hsub⟩
  | providerDefault | chatOnly => exact runs_pure fun later own _ h => ⟨hnone later, h⟩

/-- The root is one that the bindings gave at a step of the run. -/
theorem workspaceRoot_runs (access : Option TextTurnWorkspaceAccess) :
    Runs env provider sourceMessage replyRecipientId before others known
      (Has provider sourceMessage before .prepared true 0)
      (workspaceRoot env provider sourceMessage (idOf provider sourceMessage) access)
      (fun result past own => (∀ root, result = some root → Thread.Seen past fun moment _ =>
          env.availableRoot moment sourceMessage.roomId = .ok (some root)) ∧
        Has provider sourceMessage before .prepared true 0 own) := by
  cases access with
  | none => exact runs_pure fun past own _ h => ⟨fun root hsome => (by cases hsome), h⟩
  | some access =>
    refine runs_bind (runs_reads hrely .prepared _) fun root past _ =>
      Thread.traced_and fun hroot => ?_
    cases root with
    | ok root =>
      refine runs_pure fun later own hsub h => ⟨fun given hsome => ?_, h⟩
      rw [hsome] at hroot
      exact hroot.mono hsub
    | error error =>
      refine runs_bind (mark_runs hrely finishLocalPreflightFailed_marks .prepared)
        fun isMarked past _ => ?_
      cases isMarked with
      | true => exact runs_exit fun own h => h.mono fun _ h => .failed (.inr ⟨_, _, rfl⟩) h
      | false =>
        refine Thread.traced_and fun hmark => ?_
        refine runs_bind (finishUnknown_runs hrely .prepared) fun _ later hsub =>
          runs_exit fun own h => ?_
        exact .now (.unmarked (hmark.mono hsub) (.inr ⟨_, _, rfl⟩) h)

/-- The context is that of the room at a step of the run. -/
theorem roomContext_runs : Runs env provider sourceMessage replyRecipientId before others known
    (Has provider sourceMessage before .prepared true 0)
    (roomContext env sourceMessage (idOf provider sourceMessage))
    (fun context past own => (Thread.Seen past fun _ stores =>
        stores.rooms.rooms.find? (fun room => room.id == sourceMessage.roomId) =
          some context.room) ∧
      Has provider sourceMessage before .prepared true 0 own) := by
  refine runs_bind (runs_reads hrely .prepared _) fun room past _ =>
    Thread.traced_and fun hroom => ?_
  cases room with
  | some room => exact runs_pure fun later own hsub h => ⟨hroom.mono hsub, h⟩
  | none => exact finishFailed_giveUp hrely

/-- The continuation is one that was stored at a step of the run. -/
theorem storedContinuation_runs :
    Runs env provider sourceMessage replyRecipientId before others known
    (Has provider sourceMessage before .prepared true 0)
    (storedContinuation env provider sourceMessage (idOf provider sourceMessage))
    (fun continuation past own => (Thread.Seen past fun _ stores =>
        RoomAiContinuity.get sourceMessage.roomId provider.participantId stores.bindings =
          .ok continuation) ∧
      Has provider sourceMessage before .prepared true 0 own) := by
  refine runs_bind (runs_reads hrely .prepared _) fun found past _ =>
    Thread.traced_and fun hfound => ?_
  cases found with
  | ok continuation => exact runs_pure fun later own hsub h => ⟨hfound.mono hsub, h⟩
  | error error => exact finishFailed_giveUp hrely

/-- A turn is planned with what was read for it. -/
theorem prepareTurn_runs : Runs env provider sourceMessage replyRecipientId before others known
    (Has provider sourceMessage before .prepared true 0)
    (prepareTurn env provider sourceMessage (idOf provider sourceMessage))
    (fun turn past own => Prepared env provider sourceMessage past turn ∧
      Has provider sourceMessage before .prepared true 0 own) := by
  refine runs_bind (workspaceAccess_runs hrely) fun access first _ =>
    Thread.traced_and fun haccess => ?_
  refine runs_bind (workspaceRoot_runs hrely access) fun root second h₂ =>
    Thread.traced_and fun hroot => ?_
  refine runs_bind (roomContext_runs hrely) fun context third h₃ =>
    Thread.traced_and fun hcontext => ?_
  refine runs_bind (runs_reads hrely .prepared _) fun model fourth h₄ =>
    Thread.traced_and fun hmodel => ?_
  refine runs_bind (runs_reads hrely .prepared _) fun instructions fifth h₅ =>
    Thread.traced_and fun hinstructions => ?_
  refine runs_bind (storedContinuation_runs hrely) fun continuation sixth h₆ =>
    Thread.traced_and fun hcontinuation => ?_
  split
  · rename_i plan hplan
    refine runs_pure fun last own h₇ h => ⟨?_, h⟩
    -- What was seen is seen at the end.
    have h₅' : fifth ⊆ last := List.Subset.trans h₆ h₇
    have h₄' : fourth ⊆ last := List.Subset.trans h₅ h₅'
    have h₃' : third ⊆ last := List.Subset.trans h₄ h₄'
    have h₂' : second ⊆ last := List.Subset.trans h₃ h₃'
    have h₁' : first ⊆ last := List.Subset.trans h₂ h₂'
    exact {
      context := hcontext.mono h₃'
      access := fun access hsome => ⟨(haccess access hsome).1, (haccess access hsome).2.mono h₁'⟩
      root := fun root hsome => (hroot root hsome).mono h₂'
      model := hmodel.mono h₄'
      environmentKey := (hinstructions.mono h₅').imp fun moment _ h => by rw [h]
      continuation := hcontinuation.mono h₇
      plan := hplan }
  · exact finishFailed_giveUp hrely

/-- The turn is registered, or the dispatch fails before the call. -/
theorem registerTurn_runs : Runs env provider sourceMessage replyRecipientId before others known
    (Has provider sourceMessage before .prepared true 0)
    (registerTurn env sourceMessage (idOf provider sourceMessage))
    (fun _ _ => Has provider sourceMessage before .prepared true 0) := by
  refine runs_bind (runs_rest hrely .prepared (fun moment stores => ?_)
    fun moment stores told => ?_)
    fun isRegistered past _ => Thread.traced_and fun _ => ?_
  · split <;> rfl
  · split <;> simp
  cases isRegistered with
  | true => exact runs_pure fun past own _ h => h
  | false => exact finishFailed_giveUp hrely

/-! ### The turn -/

/-- The call counts, and its result is the one of this run. -/
theorem callProvider_runs {request : TextTurnRequest}
    (hid : request.dispatchId = idOf provider sourceMessage) :
    Runs env provider sourceMessage replyRecipientId before others known
      (Has provider sourceMessage before .externalStarted true 0) (callProvider env request)
      (fun result past own => (Thread.Seen past fun moment stores =>
          (∃ updatedAt, stores.ledger.data.records[idOf provider sourceMessage]? =
            some (recordIn provider sourceMessage .externalStarted updatedAt)) ∧
          env.runTextTurn moment request = result) ∧
        Has provider sourceMessage before .externalStarted true 1 own) := by
  refine runs_step hrely (fun _ _ => Has.withstands_and (.inr rfl) _)
    fun moment stores past _ h => ⟨.now ⟨h.record, rfl⟩, h.sound, h.record, h.active, ?_⟩
  have hcalls : (held (idOf provider sourceMessage) stores).calls = before.calls + 0 := h.calls
  have hcall : ∀ isCancelled, isCallOf (idOf provider sourceMessage)
      (.started request.dispatchId isCancelled) = true := by
    intro isCancelled
    rw [hid]
    exact beq_self_eq_true _
  unfold held at hcalls ⊢
  dsimp only at hcalls ⊢
  rw [List.countP_cons_of_pos (hcall _)]
  omega

/-- The dispatch leaves its turn open. -/
theorem leaveUnknown_runs {result : Except TextTurnError TextTurnResponse}
    (hcall : Called env provider sourceMessage known result)
    (hopen : Unresolved env provider sourceMessage replyRecipientId known result)
    {code message : String} :
    Runs env provider sourceMessage replyRecipientId before others known
      (Has provider sourceMessage before .externalStarted true 1)
      (leaveUnknown provider (idOf provider sourceMessage) code message) post :=
  runs_bind (finishUnknown_runs hrely .called) fun _ _ hsub => runs_exit fun _ h =>
    .now (.unknown (hcall.mono hsub) (hopen.mono hsub) ⟨_, _, rfl⟩ h)

/-- The response is taken, or the dispatch is told as failed or unknown. -/
theorem providerResponse_runs {result : Except TextTurnError TextTurnResponse}
    (hcall : Called env provider sourceMessage known result) :
    Runs env provider sourceMessage replyRecipientId before others known
      (Has provider sourceMessage before .externalStarted true 1)
      (providerResponse env provider (idOf provider sourceMessage) result)
      (fun response past own => Called env provider sourceMessage past (.ok response) ∧
        Has provider sourceMessage before .externalStarted true 1 own) := by
  cases result with
  | ok response => exact runs_pure fun past own hsub h => ⟨hcall.mono hsub, h⟩
  | error error =>
    refine Thread.traced_ite (fun hpreflight => ?_) fun hother => ?_
    · refine runs_bind (mark_runs hrely finishExternalPreflightFailed_marks .called)
        fun isMarked past hsub => ?_
      cases isMarked with
      | true =>
        exact runs_exit fun own h => h.mono fun _ h =>
          .confirmed (hcall.mono hsub) hpreflight (.inr ⟨_, _, rfl⟩) h
      | false =>
        refine Thread.traced_and fun hmark => ?_
        exact leaveUnknown_runs hrely (hcall.mono hsub) (.unrecorded hpreflight hmark)
    · exact leaveUnknown_runs hrely hcall (.error (Bool.not_eq_true _ ▸ hother))

/-- The answer of the Room store is the one of this run. -/
theorem appendReply_runs (draft : RoomMessageDraft) :
    Runs env provider sourceMessage replyRecipientId before others known
      (Has provider sourceMessage before .externalStarted true 1) (appendReply env draft)
      (fun result past own => StoreAnswers env past draft result ∧
        Has provider sourceMessage before .externalStarted true 1 own) := by
  refine runs_step hrely (fun _ _ => Has.withstands_and (.inr rfl) _)
    fun moment stores past _ h => ?_
  rcases hrun : (RoomSource.appendMessage env.roomSerde draft stores.rooms).run (env.faults moment)
    stores.roomWorld with ⟨⟨result, rooms⟩ | e | _, world⟩
  · exact ⟨.now (by rw [hrun]), h⟩
  · exact ⟨.now (by rw [hrun]), h⟩
  · exact .started le_rfl h

/-- What is done with a reply that the room has taken. -/
theorem replySaved_runs {response : TextTurnResponse} {createdAt : String}
    {draft : RoomMessageDraft}
    {saved : RoomWriteSuccess} (hcall : Called env provider sourceMessage known (.ok response))
    (htime : Timed env known createdAt)
    (hdraft : replyDraft provider sourceMessage replyRecipientId createdAt response = .ok draft)
    (hsaved : StoreAnswers env known draft (.ok saved)) {result : RecipientDispatchResult}
    (htold : ToldReply (.ok result) saved.message) :
    Runs env provider sourceMessage replyRecipientId before others known
      (Has provider sourceMessage before .externalStarted true 1)
      (do
        match ← ledgerStep fun moment => AiDispatchLedger.markCompleted env.ledgerSerde
            (env.faults moment) (idOf provider sourceMessage) createdAt with
        | .ok () => pure ()
        | .error _ => finishUnknown (idOf provider sourceMessage)
        pure result)
      (fun result past => Thread.Once (Yields (idOf provider sourceMessage))
        (Begun env provider sourceMessage replyRecipientId before past (.ok result))) := by
  refine runs_bind (ledgerMark_runs hrely markCompleted_marks .called createdAt)
    fun marked past hsub => ?_
  -- The reply is in the room in either case; only the record differs.
  cases marked with
  | ok =>
    refine runs_pure fun later own hlater h => h.mono fun own h => ?_
    have hsub' := List.Subset.trans hsub hlater
    exact .replied (hcall.mono hsub') (htime.mono hsub') hdraft (hsaved.mono hsub') htold (.inl h)
  | error =>
    refine Thread.traced_and fun hmark => ?_
    refine runs_bind (finishUnknown_runs hrely .called) fun _ later hlater => ?_
    refine runs_pure fun last own hlast h => .now ?_
    have hmarked := List.Subset.trans hlater hlast
    have hsub' := List.Subset.trans hsub hmarked
    exact .replied (hcall.mono hsub') (htime.mono hsub') hdraft (hsaved.mono hsub') htold
      (.inr ⟨h, hmark.mono hmarked⟩)

/-- The reply is saved and marked, or the dispatch is told as unknown. -/
theorem saveReply_runs {turn : PreparedTurn} {response : TextTurnResponse}
    (hcall : Called env provider sourceMessage known (.ok response)) :
    Runs env provider sourceMessage replyRecipientId before others known
      (Has provider sourceMessage before .externalStarted true 1)
      (saveReply env provider sourceMessage replyRecipientId
        (idOf provider sourceMessage) turn response)
      (fun result past => Thread.Once (Yields (idOf provider sourceMessage))
        (Begun env provider sourceMessage replyRecipientId before past (.ok result))) := by
  unfold saveReply
  -- In the order of the source: the session, the time, the draft, the room, the continuation.
  rcases hsession : response.sessionId with _ | sessionId
  · exact leaveUnknown_runs hrely hcall (.response (.noSession hsession))
  refine runs_bind (runs_reads hrely .called _) fun time past hpast =>
    Thread.traced_and fun htime => ?_
  cases time with
  | none => exact leaveUnknown_runs hrely (hcall.mono hpast) (.response (.noTime htime))
  | some createdAt =>
    rcases hdraft : replyDraft provider sourceMessage replyRecipientId createdAt response with e |
      draft
    all_goals
      unfold replyDraft at hdraft
      simp only [hdraft]
    · exact leaveUnknown_runs hrely (hcall.mono hpast) (.response (.noMessage htime hdraft))
    refine runs_bind (appendReply_runs hrely draft) fun saved later hlater =>
      Thread.traced_and fun hsaved => ?_
    have hcall' := hcall.mono (List.Subset.trans hpast hlater)
    cases saved with
    | error e =>
      exact leaveUnknown_runs hrely hcall' (.response (.refused (htime.mono hlater) hdraft hsaved))
    | ok saved =>
      -- The continuation may be saved or not; the end is the same.
      refine runs_bind (runs_rest hrely .called (fun moment stores => ?_)
        fun moment stores told => ?_)
        fun continuitySaved last hlast => Thread.traced_and fun _ => ?_
      · split <;> rfl
      · split <;> simp
      exact replySaved_runs hrely (hcall'.mono hlast)
        (htime.mono (List.Subset.trans hlater hlast)) hdraft
        (hsaved.mono hlast) ⟨_, rfl, by cases saved.status <;> simp, rfl⟩

/-- The turn of a dispatch, from its mark to its end. -/
theorem runTurn_runs {turn : PreparedTurn}
    (hturn : Prepared env provider sourceMessage known turn) :
    Runs env provider sourceMessage replyRecipientId before others known
      (Has provider sourceMessage before .prepared true 0)
      (runTurn env provider sourceMessage replyRecipientId (idOf provider sourceMessage) turn)
      (fun result past => Thread.Once (Yields (idOf provider sourceMessage))
        (Begun env provider sourceMessage replyRecipientId before past (.ok result))) := by
  unfold runTurn
  refine runs_bind (runs_reads hrely .prepared _) fun prompt first hfirst =>
    Thread.traced_and fun hprompt => ?_
  refine runs_bind (mark_runs hrely startExternalTurn_marks .prepared)
    fun isMarked second hsecond => ?_
  cases isMarked with
  | false => exact Thread.traced_and fun _ => finishFailed_giveUp hrely
  | true =>
    refine Thread.Traced.weaken ?_ fun own h => Has.once (.inr rfl) h
    refine runs_bind (callProvider_runs hrely rfl) fun result third hthird =>
      Thread.traced_and fun hresult => ?_
    have hsub := List.Subset.trans hsecond hthird
    have hcall : Called env provider sourceMessage third result :=
      ⟨turn, prompt, hturn.mono (List.Subset.trans hfirst hsub), hprompt.mono hsub, hresult⟩
    refine runs_bind (providerResponse_runs hrely hcall) fun response fourth _ => ?_
    exact Thread.traced_and fun hresponse => saveReply_runs hrely hresponse

/-! ## The whole dispatch -/

omit hrely in
/-- The dispatch leaves where it has found that there is nothing to do. -/
theorem traced_refused {told : Told}
    (htold : Refused env provider sourceMessage known before told) :
    Thread.Traced others (held (idOf provider sourceMessage)) known
      (Yields (idOf provider sourceMessage) before) (Thread.exit told : DispatchProg α) post
      (fun told past => Thread.Once (Yields (idOf provider sourceMessage))
        (Ending env provider sourceMessage replyRecipientId before past told))
      (CutOff provider sourceMessage before) :=
  Thread.traced_exit fun _ _ hsub h => .now (.refused (htold.mono hsub) h)

/-- A reply that is in the room is told, and nothing has begun. -/
theorem findReply_ends : Thread.Traced others (held (idOf provider sourceMessage)) known
    (Yields (idOf provider sourceMessage) before) (findReply provider sourceMessage)
    (fun _ _ => Yields (idOf provider sourceMessage) before)
    (fun told past => Thread.Once (Yields (idOf provider sourceMessage))
      (Ending env provider sourceMessage replyRecipientId before past told))
    (CutOff provider sourceMessage before) := by
  refine Thread.traced_bind (hrely.traced_reads (fun _ _ hyields h => h.trans hyields) _)
    fun found past _ => Thread.traced_and fun hfound => ?_
  cases found with
  | ok message => exact traced_refused (.replied hfound)
  | error e =>
    cases e with
    | messageNotFound => exact Thread.traced_pure fun _ own _ h => h
    | _ =>
      refine traced_refused (.unfound ?_ hfound)
      intro hsame
      cases hsame

/-- What the ledger has after a begin. -/
def HasBegun (env : Environment) (provider : TextProvider) (sourceMessage : RoomMessage)
    (updatedAt : String) (before : Held) :
    Except AiDispatchLedgerError AiDispatchBegin → Steps → Held → Prop
  | .ok .reserved, _, own =>
    Vacant provider sourceMessage before ∧ Has provider sourceMessage before .prepared true 0 own
  | .ok (.existing record), _, own =>
    before.data.records[idOf provider sourceMessage]? = some record ∧
      Yields (idOf provider sourceMessage) before own
  | .ok .active, _, own =>
    idOf provider sourceMessage ∈ before.data.active ∧
      Yields (idOf provider sourceMessage) before own
  | .error e, past, own =>
    (Thread.Seen past fun moment stores =>
      (AiDispatchLedger.begin env.ledgerSerde (env.faults moment)
      (dispatchRecord sourceMessage provider.participantId updatedAt) stores.ledger).1 = .error e) ∧
    Yields (idOf provider sourceMessage) before own

omit hrely in
/-- What a begin has done withstands the others. -/
theorem HasBegun.withstands {updatedAt : String}
    (result : Except AiDispatchLedgerError AiDispatchBegin)
    (past : Steps) : Thread.Withstands (Yields (idOf provider sourceMessage))
      (HasBegun env provider sourceMessage updatedAt before result past) := by
  intro own own' hyields h
  rcases result with e | _ | _ | record
  · exact ⟨h.1, h.2.trans hyields⟩
  · exact ⟨h.1, Has.withstands (.inl rfl) _ _ hyields h.2⟩
  · exact ⟨h.1, h.2.trans hyields⟩
  · exact ⟨h.1, h.2.trans hyields⟩

/-- The begin of the dispatch, as the ledger answers it. -/
theorem begin_hasBegun (hsound : Sound before.data) (updatedAt : String) :
    Thread.Traced others (held (idOf provider sourceMessage)) known
      (Yields (idOf provider sourceMessage) before)
      (ledgerStep fun moment => AiDispatchLedger.begin env.ledgerSerde (env.faults moment)
        (dispatchRecord sourceMessage provider.participantId updatedAt))
      (HasBegun env provider sourceMessage updatedAt before)
      (fun told past => Thread.Once (Yields (idOf provider sourceMessage))
        (Ending env provider sourceMessage replyRecipientId before past told))
      (CutOff provider sourceMessage before) := by
  refine ledgerStep_traced hrely HasBegun.withstands (fun _ _ => Thread.Once.withstands)
    CutOff.withstands fun moment stores past _ h => ?_
  have hspares := h.data hsound
  have hbegins := (@begin_ends env.ledgerSerde (env.faults moment) stores.ledger
    (dispatchRecord sourceMessage provider.participantId updatedAt)).begins hspares.sound
  -- The record that was there before has stayed, unless it was pruned.
  have hyields : ∀ data, Spares (idOf provider sourceMessage) stores.ledger.data data →
      Yields (idOf provider sourceMessage) before
        ⟨data, (held (idOf provider sourceMessage) stores).calls⟩ :=
    fun data h' => ⟨fun _ => hspares.trans h', h.calls⟩
  rcases hrun : AiDispatchLedger.begin env.ledgerSerde (env.faults moment)
    (dispatchRecord sourceMessage provider.participantId updatedAt) stores.ledger with
    ⟨(_ | _ | record) | e | _, after⟩
  all_goals rw [hrun] at hbegins
  · obtain ⟨hafter, hinactive, hfresh, hrecord, hactive⟩ := hbegins
    refine ⟨⟨fun h => hinactive (hspares.active.mpr h), fun record hbefore => ?_⟩, hafter,
      ⟨updatedAt, hrecord⟩, iff_of_true hactive rfl, h.calls⟩
    by_contra hopen
    have hkept := hspares.record_open hbefore (by simpa using hopen)
    cases hfresh.symm.trans hkept
  · exact ⟨hspares.active.mp hbegins.2, hyields _ hbegins.1⟩
  · refine ⟨?_, hyields _ hbegins.1⟩
    rcases hspares.record with hsame | ⟨hnone, -⟩
    · exact hsame.symm.trans hbegins.2
    · cases hnone.symm.trans hbegins.2
  · exact ⟨.now (by rw [hrun]), hyields _ hbegins⟩
  · exact .idle (hyields _ hbegins)

/-- The dispatch gets hold of its record, or it is refused. -/
theorem beginDispatch_ends (hsound : Sound before.data) :
    Thread.Traced others (held (idOf provider sourceMessage)) known
      (Yields (idOf provider sourceMessage) before)
      (beginDispatch env sourceMessage provider.participantId)
      (fun _ _ own => Vacant provider sourceMessage before ∧
        Has provider sourceMessage before .prepared true 0 own)
      (fun told past => Thread.Once (Yields (idOf provider sourceMessage))
        (Ending env provider sourceMessage replyRecipientId before past told))
      (CutOff provider sourceMessage before) := by
  refine Thread.traced_bind (hrely.traced_reads (fun _ _ hyields h => h.trans hyields) _)
    fun time past _ => Thread.traced_and fun htime => ?_
  cases time with
  | none => exact traced_refused (.noTime htime)
  | some updatedAt =>
    refine Thread.traced_bind (begin_hasBegun hrely hsound updatedAt) fun result later hlater => ?_
    rcases result with e | _ | _ | record
    · exact Thread.traced_and fun hbegin => traced_refused (.notBegun (htime.mono hlater) hbegin)
    · exact Thread.traced_pure fun _ own _ h => h
    · exact Thread.traced_and fun hactive => traced_refused (.active hactive)
    · exact Thread.traced_and fun hrecord => traced_refused (.existing hrecord)

/-- A dispatch ends in one of the listed ways. -/
theorem dispatchText_ends (hsound : Sound before.data) :
    Thread.Traced others (held (idOf provider sourceMessage)) known
      (Yields (idOf provider sourceMessage) before)
      (dispatchText env provider sourceMessage replyRecipientId)
      (fun result past => Thread.Once (Yields (idOf provider sourceMessage))
        (Ending env provider sourceMessage replyRecipientId before past (.ok result)))
      (fun told past => Thread.Once (Yields (idOf provider sourceMessage))
        (Ending env provider sourceMessage replyRecipientId before past told))
      (CutOff provider sourceMessage before) := by
  -- The dispatch looks for the reply, takes its record, prepares the turn, registers and runs it.
  refine Thread.traced_bind (findReply_ends hrely) fun _ _ _ => ?_
  refine Thread.traced_bind (beginDispatch_ends hrely hsound) fun _ past _ =>
    Thread.traced_and fun hvacant => ?_
  have hrest : Runs env provider sourceMessage replyRecipientId before others past
      (Has provider sourceMessage before .prepared true 0)
      (do
        Thread.changes fun _ stores => stores
        let turn ← prepareTurn env provider sourceMessage (idOf provider sourceMessage)
        registerTurn env sourceMessage (idOf provider sourceMessage)
        Thread.finallyDo
          (fun stores => { stores with
            active := TurnCancellation.remove (idOf provider sourceMessage) stores.active })
          (runTurn env provider sourceMessage replyRecipientId (idOf provider sourceMessage) turn))
      (fun result past => Thread.Once (Yields (idOf provider sourceMessage))
        (Begun env provider sourceMessage replyRecipientId before past (.ok result))) := by
    refine runs_bind (runs_step hrely (fun _ _ => Has.withstands (.inl rfl)) fun _ _ _ _ h => h)
      fun _ _ _ => ?_
    refine runs_bind (prepareTurn_runs hrely) fun turn _ _ => Thread.traced_and fun hturn => ?_
    refine runs_bind (registerTurn_runs hrely) fun _ last hlast => ?_
    unfold Runs
    -- What is left by the turn withstands the removal of its entry.
    refine hrely.traced_finallyDo (fun _ past step own own' hyields h => ?_)
      (fun _ past step own own' hyields h => ?_) ?_ (runTurn_runs hrely (hturn.mono hlast))
    · exact Thread.Once.withstands _ _ hyields (h.mono fun _ hbegun =>
        hbegun.mono (List.subset_cons_self _ _))
    · exact Thread.Once.withstands _ _ hyields (h.mono fun _ hbegun =>
        hbegun.mono (List.subset_cons_self _ _))
    · exact fun _ => rfl
  exact hrest.mono (fun _ h => h) (fun _ _ _ _ h => h.mono fun _ => .begun hvacant)
    (fun _ _ _ _ h => h.mono fun _ => .begun hvacant) fun _ h => h

end Relies

end Steps

/-- How a run of a dispatch has ended: in one of the ways of `Ending`, or it was cut off where
`CutOff` says. -/
inductive Ended (env : Environment) (provider : TextProvider) (sourceMessage : RoomMessage)
    (replyRecipientId : String) (before : Held) (past : Steps) (own : Held) :
    Library.Outcome Told RecipientDispatchResult → Prop
  | done {result : RecipientDispatchResult} (h : Thread.Once (Yields (idOf provider sourceMessage))
      (Ending env provider sourceMessage replyRecipientId before past (.ok result)) own) :
    Ended env provider sourceMessage replyRecipientId before past own (.done result)
  | left {told : Told} (h : Thread.Once (Yields (idOf provider sourceMessage))
      (Ending env provider sourceMessage replyRecipientId before past told) own) :
    Ended env provider sourceMessage replyRecipientId before past own (.error told)
  | cut (h : CutOff provider sourceMessage before own) :
    Ended env provider sourceMessage replyRecipientId before past own .cut

/-- A dispatch that begins at a moment ends so. -/
def Ends (env : Environment) (provider : TextProvider) (sourceMessage : RoomMessage)
    (replyRecipientId : String) (others : ℕ → Stores → Stores)
    (moment : ℕ) (stores : Stores) : Prop :=
  let id := idOf provider sourceMessage
  let ended :=
    dispatchText env provider sourceMessage replyRecipientId others { moment, state := stores }
  Ended env provider sourceMessage replyRecipientId (held id stores) ended.2.past
    (held id ended.2.state)
    ended.1

end Mio.Desktop.AiDispatch
