import Mio.Desktop.CodexTraffic
import Mio.Desktop.CodexTurnLaws

/-!
# When the response to the start of a turn arrives

The driver waits for the response to `turn/start` first (`wait_for_response`) and for the turn after
that (`wait_for_turn`). The first wait declines every request of the server and sets the
notifications aside, and nothing reads them again. So it makes a difference whether something comes
in before the response or right after it, unless it is no tool call and nothing of the turn
(`early_traffic_iff`).

`turnOver` is the two waits over a list of what comes in, and every run of them is `turnOver` over
its own traffic (`startedTurn_eq`).
-/

namespace Mio.Desktop.CodexAppServer

open Library Library.Thread CommandExecution CodexTools
open AiDispatch (TextTurnError TextTurnRequest TextTurnResponse)

section Code

variable (env : CodexSurroundings) (threadId : String) (contexts : TurnToolContexts)

/-- What the driver does from the request that starts the turn to the end of the turn. -/
def startedTurn (polls : ℕ) : CodexProg CompletedTurn := do
  let turn ← waitForResponse env 4 polls
  let turnId ← Thread.ofOption .invalidResponse (turn.strAt ["turn", "id"])
  let polls ← Thread.reads fun moment _ => env.polls moment
  waitForTurn env threadId turnId contexts polls .initial

/-- The turn in its thread sends its start, waits until it is over, and keeps its images. -/
theorem runThread_startedTurn (request : TextTurnRequest) (runtimeRoot : String) :
    runThread env request contexts runtimeRoot threadId = (do
      send env (turnStartRequest runtimeRoot threadId request)
      let polls ← Thread.reads fun moment _ => env.polls moment
      let turn ← startedTurn env threadId contexts polls
      Thread.require .invalidResponse (acceptsTurn turn)
      let images ← ingestGeneratedImages env turn.generatedImagePaths
      pure (turnResponse env turn images threadId request.continuity)) := by
  simp only [runThread, startedTurn, bind_assoc]

/-- The two waits, for what comes in. The deadline of the second one is read in a moment of its own.
-/
def turnOver : List Incoming → CodexProg CompletedTurn
  | [] => Thread.exit .timedOut
  | .moment :: traffic => do
    Thread.reads fun _ _ => ()
    turnOver traffic
  | .cancelled :: _ => Thread.exit .cancelled
  | .received .nothing :: traffic => turnOver traffic
  | .received .invalid :: _ => Thread.exit .invalidResponse
  | .received .finished :: _ => Thread.exit .invalidResponse
  | .received .disconnected :: _ => Thread.exit .unavailable
  | .received (.message message) :: traffic =>
    if isServerRequest message then do
      declineServerRequest env message
      turnOver traffic
    else if (message.get "id").bind Value.asU64 == some 4 then
      if (message.get "error").isSome then Thread.exit (codexReportedFailure env message)
      else do
        let turn ← Thread.ofOption .invalidResponse (message.get "result")
        let turnId ← Thread.ofOption .invalidResponse (turn.strAt ["turn", "id"])
        waitOver env threadId turnId contexts traffic .initial
    else turnOver traffic

/-- What comes in during a run of `startedTurn`. -/
def turnIncoming (others : ℕ → Host → Host) : ℕ → Instant Host → List Incoming
  | 0, now => .moment :: if now.state.cancelled then [.cancelled] else []
  | polls + 1, now =>
    if now.state.cancelled then [.moment, .cancelled]
    else
      let checked := now.after others now.state
      let looked := checked.after others checked.state
      let look := env.received checked.moment
      .moment :: .moment :: .received look ::
        match look with
        | .nothing => turnIncoming others polls looked
        | .invalid | .finished | .disconnected => []
        | .message message =>
          if isServerRequest message then
            match declineServerRequest env message others looked with
            | (.done _, declined) => turnIncoming others polls declined
            | _ => []
          else if (message.get "id").bind Value.asU64 == some 4 then
            match (message.get "result").bind (·.strAt ["turn", "id"]) with
            | some turnId =>
              .moment :: incoming env threadId turnId contexts others
                (env.polls looked.moment) .initial
                (looked.after others looked.state)
            | none => []
          else turnIncoming others polls looked

/-- A moment without a message only lets the other threads go on. -/
theorem turnOver_moment (others : ℕ → Host → Host) (traffic : List Incoming) (now : Instant Host) :
    turnOver env threadId contexts (.moment :: traffic) others now =
      turnOver env threadId contexts traffic others (now.after others now.state) :=
  rfl

/-- A run of the two waits is `turnOver` for what comes in during the run. -/
theorem startedTurn_eq (others : ℕ → Host → Host) (polls : ℕ) (now : Instant Host) :
    startedTurn env threadId contexts polls others now =
      turnOver env threadId contexts (turnIncoming env threadId contexts others polls now)
        others now := by
  -- By induction on the polls, as for the turn itself.
  induction polls generalizing now with
  | zero =>
    have hchecked := checkCancelled_run others now
    show (checkCancelled.andThen fun _ => Thread.exit .timedOut).andThen _ others now = _
    unfold andThen turnIncoming
    rw [hchecked]
    cases now.state.cancelled <;> rfl
  | succ polls ih =>
    obtain ⟨checked, hchecked⟩ : ∃ checked, checked = now.after others now.state := ⟨_, rfl⟩
    have hpoll := poll_run env others now checked hchecked
    rw [startedTurn, waitForResponse, bind_assoc]
    show (poll env).andThen _ others now = _
    unfold andThen turnIncoming
    rw [hpoll]
    cases now.state.cancelled with
    | true => rw [hchecked]; rfl
    | false =>
      simp only [Bool.false_eq_true, if_false, turnOver_moment, ← hchecked]
      generalize checked.after others checked.state = looked
      cases env.received checked.moment with
      | message message =>
        simp only [lookOutcome, turnOver]
        by_cases hrequest : isServerRequest message = true
        · simp only [if_pos hrequest, bind_assoc]
          show (declineServerRequest env message).andThen _ others looked =
            (declineServerRequest env message).andThen _ others looked
          unfold andThen
          -- A request that comes before the response is declined.
          rcases declineServerRequest env message others looked with ⟨sent | error | _, declined⟩
          · exact ih declined
          · rfl
          · rfl
        · simp only [if_neg hrequest]
          by_cases hresponse : ((message.get "id").bind Value.asU64 == some 4) = true
          · simp only [if_pos hresponse]
            by_cases herror : (message.get "error").isSome = true
            · simp only [if_pos herror]
              rfl
            · simp only [if_neg herror]
              cases message.get "result" with
              | none => rfl
              | some turn =>
                cases hturn : turn.strAt ["turn", "id"] with
                | none => simp only [ofOption_some_bind, hturn, ofOption_none_bind]
                | some turnId =>
                  simp only [Option.bind_some, hturn, ofOption_some_bind]
                  -- With the response, the wait for the turn begins with the polls that are left.
                  exact waitForTurn_eq env threadId turnId contexts others _ _ _
          · simp only [if_neg hresponse]
            exact ih looked
      | invalid => rfl
      | finished => rfl
      | disconnected => rfl
      | nothing => exact ih looked

/-! ## What comes in before the response -/

/-- The wait for the response to `turn/start` goes on after the entry. -/
def Incoming.waitsOn : Incoming → Bool
  | .moment | .received .nothing => true
  | .received (.message message) =>
    if isServerRequest message then (message.str "method").isSome
    else (message.get "id").bind Value.asU64 != some 4
  | _ => false

/-- What comes in before the response. -/
structure Early where
  entries : List Incoming
  waitsOn : ∀ entry ∈ entries, entry.waitsOn = true

/-- The response to `turn/start`. -/
structure TurnStarted (turnId : String) where
  message : Value
  noRequest : isServerRequest message = false
  answers : (message.get "id").bind Value.asU64 = some 4
  noError : (message.get "error").isSome = false
  turn : (message.get "result").bind (·.strAt ["turn", "id"]) = some turnId

/-- What both waits do with the entries that end neither: they decline requests. -/
def passOver : List Incoming → CodexProg Unit
  | [] => pure ()
  | .moment :: traffic => do
    Thread.reads fun _ _ => ()
    passOver traffic
  | .received (.message message) :: traffic =>
    if isServerRequest message then do
      declineServerRequest env message
      passOver traffic
    else passOver traffic
  | .received .nothing :: traffic => passOver traffic
  | .received .invalid :: traffic => passOver traffic
  | .received .finished :: traffic => passOver traffic
  | .received .disconnected :: traffic => passOver traffic
  | .cancelled :: traffic => passOver traffic

/-- A tool call, an error that ends the turn, or its completion. -/
def disturbs (turnId : String) : Incoming → Bool
  | .received (.message message) =>
    if isServerRequest message then message.str "method" == some "item/tool/call"
    else terminalCodexError message threadId turnId || completesTurn threadId turnId message
  | _ => false

/-- The response starts the second wait. -/
theorem turnOver_started {turnId : String} (response : TurnStarted turnId)
    (traffic : List Incoming) :
    turnOver env threadId contexts (.received (.message response.message) :: traffic) =
      waitOver env threadId turnId contexts traffic .initial := by
  obtain ⟨turn, hturn, hid⟩ := Option.bind_eq_some_iff.mp response.turn
  have hresponse : ((response.message.get "id").bind Value.asU64 == some 4) = true := by
    rw [response.answers]
    rfl
  rw [turnOver, response.noRequest, if_neg Bool.false_ne_true, if_pos hresponse, response.noError,
    if_neg Bool.false_ne_true, hturn, ofOption_some_bind, hid, ofOption_some_bind]

/-- The first wait passes over what comes in before the response. -/
theorem turnOver_append {entries : List Incoming} (h : ∀ entry ∈ entries, entry.waitsOn = true)
    (traffic : List Incoming) :
    turnOver env threadId contexts (entries ++ traffic) = (do
      passOver env entries
      turnOver env threadId contexts traffic) := by
  -- By induction on the entries, each of which lets the wait go on.
  induction entries with
  | nil => rfl
  | cons entry entries ih =>
    rw [List.forall_mem_cons] at h
    obtain ⟨hentry, hentries⟩ := h
    rw [List.cons_append]
    cases entry with
    | moment => rw [turnOver, passOver, bind_assoc, ih hentries]
    | cancelled => cases hentry
    | received look =>
      cases look with
      | invalid => cases hentry
      | finished => cases hentry
      | disconnected => cases hentry
      | nothing => rw [turnOver, passOver, ih hentries]
      | message message =>
        rw [turnOver, passOver]
        cases hrequest : isServerRequest message with
        | true => rw [if_pos rfl, if_pos rfl, bind_assoc, ih hentries]
        | false =>
          -- An entry that lets the wait go on is not the response.
          have hother : ((message.get "id").bind Value.asU64 == some 4) = false := by
            rw [Incoming.waitsOn, hrequest, if_neg Bool.false_ne_true] at hentry
            simpa using hentry
          rw [if_neg Bool.false_ne_true, if_neg Bool.false_ne_true, hother,
            if_neg Bool.false_ne_true, ih hentries]

/-- So does the second wait, but for what disturbs it, and it notes what the turn says. -/
theorem waitOver_append {turnId : String} {entries : List Incoming}
    (h : ∀ entry ∈ entries, entry.waitsOn = true)
    (hquiet : ∀ entry ∈ entries, disturbs threadId turnId entry = false) (traffic : List Incoming)
    (progress : TurnProgress) :
    waitOver env threadId turnId contexts (entries ++ traffic) progress = (do
      passOver env entries
      waitOver env threadId turnId contexts traffic
        ((notifications entries).foldl (TurnProgress.note env threadId turnId) progress)) := by
  -- By induction on the entries, none of which ends the wait.
  induction entries generalizing progress with
  | nil => rfl
  | cons entry entries ih =>
    rw [List.forall_mem_cons] at h hquiet
    obtain ⟨hentry, hentries⟩ := h
    obtain ⟨hcalm, hquiet⟩ := hquiet
    rw [List.cons_append]
    cases entry with
    | moment => rw [waitOver, passOver, bind_assoc, ih hentries hquiet]; rfl
    | cancelled => cases hentry
    | received look =>
      cases look with
      | invalid => cases hentry
      | finished => cases hentry
      | disconnected => cases hentry
      | nothing => rw [waitOver, passOver, ih hentries hquiet]; rfl
      | message message =>
        rw [waitOver, passOver]
        cases hrequest : isServerRequest message with
        | true =>
          -- A request that is of another turn is declined in either phase.
          have hanswer : respondToTurnServerRequest env message threadId turnId contexts =
              declineServerRequest env message := by
            rw [disturbs, hrequest, if_pos rfl] at hcalm
            rw [respondToTurnServerRequest, if_pos (bne_iff_ne.mpr (ne_of_beq_false hcalm))]
          have hnotifications : notifications (.received (.message message) :: entries) =
              notifications entries := if_pos hrequest
          rw [if_pos rfl, if_pos rfl, hanswer, hnotifications, bind_assoc]
          congr 1
          funext _
          exact ih hentries hquiet progress
        | false =>
          -- A message that ends no turn is only noted.
          rw [disturbs, hrequest, if_neg Bool.false_ne_true, Bool.or_eq_false_iff] at hcalm
          obtain ⟨hterminal, hcompletes⟩ := hcalm
          have hnoted : noteMessage env message threadId turnId progress =
              .inr (progress.note env threadId turnId message) := by
            rw [noteMessage_eq, hterminal, if_neg Bool.false_ne_true, hcompletes,
              if_neg Bool.false_ne_true]
          have hnotifications : notifications (.received (.message message) :: entries) =
              message :: notifications entries := by
            rw [notifications, hrequest, if_neg Bool.false_ne_true]
          rw [if_neg Bool.false_ne_true, if_neg Bool.false_ne_true, hnoted, hnotifications,
            List.foldl_cons]
          exact ih hentries hquiet _

/-! ## The same result -/

/-- What the tools have done and answered, without what was written. -/
def toolEvents (host : Host) : List HostEvent :=
  host.events.filter fun
    | .sent _ => false
    | _ => true

/-- Two programs end in the same way, and their tool calls do the same. -/
def SameResult (p q : CodexProg CompletedTurn) : Prop :=
  ∀ others now, (p others now).1 = (q others now).1 ∧
    toolEvents (p others now).2.state = toolEvents (q others now).2.state

/-- Among the entries is no tool call, of whatever turn, and nothing of the turn. -/
structure Quiet (turnId : String) (entries : List Incoming) : Prop where
  /-- No call of a tool, no error that ends the turn, and no completion of it. -/
  undisturbed : ∀ entry ∈ entries, disturbs threadId turnId entry = false
  deltas : agentDeltas threadId turnId (notifications entries) = ""
  text : lastAgentText threadId turnId (notifications entries) = none
  images : (notifications entries).filterMap
    (completedGeneratedImagePath · threadId turnId) = []

/-- Where no tool call and nothing of the turn comes in before the response, the response may as
well come first. -/
theorem turnOver_early {turnId : String} (early : Early) (response : TurnStarted turnId)
    (hquiet : Quiet threadId turnId early.entries) (traffic : List Incoming) :
    turnOver env threadId contexts
        (early.entries ++ .received (.message response.message) :: traffic) =
      turnOver env threadId contexts
        (.received (.message response.message) :: (early.entries ++ traffic)) := by
  have hprogress :
    (notifications early.entries).foldl (TurnProgress.note env threadId turnId) .initial =
      .initial := by
    rw [foldl_note, hquiet.deltas, hquiet.text, imagePaths, hquiet.images]
    rfl
  rw [turnOver_append env threadId contexts early.waitsOn, turnOver_started, turnOver_started,
    waitOver_append env threadId contexts early.waitsOn hquiet.undisturbed, hprogress]

end Code

/-! ## What is lost -/

/-- Every line can be written. -/
def calm : CodexSurroundings := { emptySurroundings with writes := fun _ => true }

/-- No other thread does anything. -/
def alone : ℕ → Host → Host := fun _ host => host

/-- A turn without tools. -/
def noTools : TurnToolContexts := { workspace := none, command := none }

/-- A sent message is no event of a tool. -/
theorem toolEvents_sent (host : Host) (message : Value) :
    toolEvents (host.note (.sent message)) = toolEvents host := rfl

/-- Undisturbed, a message is sent. -/
theorem send_calm (message : Value) (now : Instant Host) :
    send calm message alone now =
      (.done (), now.after alone (now.state.note (.sent message))) := rfl

/-- Undisturbed, a request is declined, and no tool is called. -/
theorem declineServerRequest_calm {message : Value} (hrequest : isServerRequest message = true)
    (hmethod : (message.str "method").isSome = true) (now : Instant Host) :
    ∃ declined, declineServerRequest calm message alone now = (.done (), declined) ∧
      toolEvents declined.state = toolEvents now.state := by
  rw [isServerRequest, Bool.and_eq_true] at hrequest
  obtain ⟨id, hid⟩ := Option.isSome_iff_exists.mp hrequest.1
  obtain ⟨method, hmethod⟩ := Option.isSome_iff_exists.mp hmethod
  refine ⟨now.after alone (now.state.note (.sent (declineResponse id method))),
    ?_, toolEvents_sent _ _⟩
  rw [declineServerRequest, hid, ofOption_some_bind, hmethod, ofOption_some_bind, send_calm]

/-- What both waits pass over does nothing with the tools. -/
theorem passOver_calm {entries : List Incoming} (h : ∀ entry ∈ entries, entry.waitsOn = true)
    (now : Instant Host) :
    ∃ passed, passOver calm entries alone now = (.done (), passed) ∧
      toolEvents passed.state = toolEvents now.state := by
  induction entries generalizing now with
  | nil => exact ⟨now, rfl, rfl⟩
  | cons entry entries ih =>
    rw [List.forall_mem_cons] at h
    obtain ⟨hentry, hentries⟩ := h
    cases entry with
    | moment => exact ih hentries _
    | cancelled => cases hentry
    | received look =>
      cases look with
      | invalid => cases hentry
      | finished => cases hentry
      | disconnected => cases hentry
      | nothing => exact ih hentries now
      | message message =>
        rw [Incoming.waitsOn] at hentry
        rw [passOver]
        cases hrequest : isServerRequest message with
        -- A request is declined, and nothing else comes of it.
        | true =>
          rw [hrequest, if_pos rfl] at hentry
          obtain ⟨declined, hdeclined, hsame⟩ := declineServerRequest_calm hrequest hentry now
          obtain ⟨passed, hpassed, hevents⟩ := ih hentries declined
          refine ⟨passed, ?_, hevents.trans hsame⟩
          rw [if_pos rfl, bind_done hdeclined, hpassed]
        | false =>
          rw [if_neg Bool.false_ne_true]
          exact ih hentries now

/-- Without tools a call is answered with a failure. -/
theorem toolResult_noTools (params : Value) (threadId turnId : String) :
    ∃ failure, toolResult calm.toToolSurroundings params threadId turnId noTools =
      pure failure := by
  unfold toolResult workspaceDynamicToolResponse commandDynamicToolResponse noTools
  split
  · split
    · split
      · exact ⟨_, rfl⟩
      · exact ⟨_, rfl⟩
    · split
      · split
        · exact ⟨_, rfl⟩
        · split
          · exact ⟨_, rfl⟩
          · exact ⟨_, rfl⟩
      · exact ⟨_, rfl⟩
  · exact ⟨_, rfl⟩

/-- Answered calls stay. -/
theorem keptByTurn_calm : KeptByTurn calm alone noTools fun host => toolEvents host ≠ [] where
  stable := fun _ _ h => h
  sent := fun _ _ h => h
  call := by
    intro params threadId turnId answer hanswer
    obtain ⟨failure, hfailure⟩ := toolResult_noTools params threadId turnId
    rw [answerCall, hfailure]
    exact keeps_bind (keeps_pure failure) fun result =>
      keeps_bind (keeps_changes (fun _ _ h => h) fun _ _ _ => List.cons_ne_nil _ _) fun _ =>
        hanswer result

/-- So they do for what comes in after them. -/
theorem keeps_waitOver (threadId turnId : String) (traffic : List Incoming)
    (progress : TurnProgress) :
    Thread.Keeps alone (fun host => toolEvents host ≠ [])
      (waitOver calm threadId turnId noTools traffic progress) := by
  induction traffic generalizing progress with
  | nil => exact keeps_exit _
  | cons entry traffic ih =>
    cases entry with
    | moment => exact keeps_bind (keeps_reads (fun _ _ h => h) _) fun _ => ih progress
    | cancelled => exact keeps_exit _
    | received look =>
      cases look with
      | invalid => exact keeps_exit _
      | finished => exact keeps_exit _
      | disconnected => exact keeps_exit _
      | nothing => exact ih progress
      | message message =>
        rw [waitOver]
        refine keeps_ite (fun _ => ?_) fun _ => ?_
        · exact keeps_bind (keeps_respondToTurnServerRequest keptByTurn_calm _ _ _) fun _ =>
            ih progress
        · cases noteMessage calm message threadId turnId progress with
          | inl result => exact keeps_ofExcept _
          | inr noted => exact ih noted

/-- Where the second wait is disturbed, it does not run into its deadline without an answered call.
-/
theorem waitOver_disturbed {threadId turnId : String} {entry : Incoming}
    (hdisturbs : disturbs threadId turnId entry = true) (traffic : List Incoming)
    (progress : TurnProgress) (now : Instant Host) :
    (waitOver calm threadId turnId noTools (entry :: traffic) progress alone now).1 ≠
      .error .timedOut ∨
      toolEvents (waitOver calm threadId turnId noTools
        (entry :: traffic) progress alone now).2.state ≠
        [] := by
  obtain ⟨message, rfl⟩ : ∃ message, entry = .received (.message message) := by
    cases entry with
    | received look => cases look <;> first | exact ⟨_, rfl⟩ | cases hdisturbs
    | _ => cases hdisturbs
  rw [disturbs] at hdisturbs
  rw [waitOver]
  cases hrequest : isServerRequest message with
  | true =>
    rw [hrequest, if_pos rfl] at hdisturbs
    rw [if_pos rfl]
    -- A tool call without parameters ends the turn, and any other is answered.
    obtain ⟨id, hid⟩ := Option.isSome_iff_exists.mp (Bool.and_eq_true_iff.mp hrequest).1
    have hcall : respondToTurnServerRequest calm message threadId turnId noTools = (do
        let params ← Thread.ofOption .invalidResponse (message.get "params")
        answerCall calm params threadId turnId noTools fun result =>
          send calm (.object [("id", id), ("result", result)])) := by
      rw [respondToTurnServerRequest, if_neg (by rw [bne, hdisturbs]; decide),
        hid, ofOption_some_bind]
      rfl
    rw [hcall]
    cases message.get "params" with
    | none =>
      left
      intro h
      cases h
    | some params =>
      rw [ofOption_some_bind]
      obtain ⟨failure, hfailure⟩ := toolResult_noTools params threadId turnId
      have hanswered : answerCall calm params threadId turnId noTools (fun result =>
          send calm (.object [("id", id), ("result", result)])) alone now =
            (.done (),
              (now.after alone (now.state.note (.answered now.state.cancelled))).after alone
              ((now.state.note (.answered now.state.cancelled)).note
                (.sent (.object [("id", id), ("result", failure)])))) := by
        rw [answerCall, hfailure]
        rfl
      rw [bind_done hanswered]
      exact .inr ((keeps_waitOver threadId turnId traffic progress).run (List.cons_ne_nil _ _))
  | false =>
    rw [hrequest, if_neg Bool.false_ne_true, Bool.or_eq_true] at hdisturbs
    rw [if_neg Bool.false_ne_true, noteMessage_eq]
    left
    split_ifs with hterminal hcompletes hstatus hempty
    · intro h
      cases h
    · intro h
      cases h
    · intro h
      cases h
    · intro h
      cases h
    · exact absurd hdisturbs (by simp [hterminal, hcompletes])

/-- The completion of a turn, as the App Server tells it. -/
def completion (threadId turnId : String) : Value :=
  .object [("method", .string "turn/completed"), ("params", .object [("threadId", .string threadId),
    ("turnId", .string turnId), ("turn", .object [("status", .string "completed")])])]

/-- A part of the text of a turn. -/
def deltaMessage (threadId turnId delta : String) : Value :=
  .object [("method", .string "item/agentMessage/delta"), ("params", .object
    [("threadId", .string threadId), ("turnId", .string turnId), ("delta", .string delta)])]

/-- A turn that completes at once answers what it has so far, if it has anything. -/
theorem waitOver_completion (threadId turnId : String) (progress : TurnProgress)
    (now : Instant Host) :
    (waitOver calm threadId turnId noTools
      [.received (.message (completion threadId turnId))] progress
      alone now).1 =
      if progress.text.isEmpty && progress.generatedImagePaths.isEmpty then .error .invalidResponse
      else .done
        { text := progress.text, generatedImagePaths := progress.generatedImagePaths } := by
  have hcompletes : completesTurn threadId turnId (completion threadId turnId) = true := by
    simp [completesTurn, completion, matchesTurn, Value.str, Value.strAt, Value.pointer, Value.get,
      Value.field, Value.asStr]
  have hterminal : terminalCodexError (completion threadId turnId) threadId turnId = false := by
    simp [terminalCodexError, completion, Value.str, Value.get, Value.field, Value.asStr]
  have hstatus : (completion threadId turnId).strAt ["params", "turn", "status"] =
    some "completed" := by
    simp [completion, Value.strAt, Value.pointer, Value.get, Value.field, Value.asStr]
  have hrequest : isServerRequest (completion threadId turnId) = false := by
    simp [isServerRequest, completion, Value.get, Value.field]
  rw [waitOver, hrequest, if_neg Bool.false_ne_true, noteMessage_eq, hterminal,
    if_neg Bool.false_ne_true, if_pos hcompletes, hstatus,
      note_of_completes calm threadId turnId hcompletes]
  split_ifs <;> first | rfl | contradiction

/-- A part of the answer is put after the others, and the wait goes on. -/
theorem waitOver_delta (threadId turnId delta : String) (traffic : List Incoming)
    (progress : TurnProgress) :
    waitOver calm threadId turnId noTools
        (.received (.message (deltaMessage threadId turnId delta)) :: traffic) progress =
      waitOver calm threadId turnId noTools traffic
        { progress with deltas := progress.deltas ++ delta } := by
  have hmethod : (deltaMessage threadId turnId delta).str "method" =
      some "item/agentMessage/delta" := by
    simp [deltaMessage, Value.str, Value.get, Value.field, Value.asStr]
  have hdelta : agentDelta threadId turnId (deltaMessage threadId turnId delta) = some delta := by
    simp [agentDelta, deltaMessage, matchesTurn, Value.str, Value.strAt, Value.pointer, Value.get,
      Value.field, Value.asStr]
  have hrequest : isServerRequest (deltaMessage threadId turnId delta) = false := by
    simp [isServerRequest, deltaMessage, Value.get, Value.field]
  have hother : ∀ method : String, "item/agentMessage/delta" ≠ method →
      ((deltaMessage threadId turnId delta).str "method" == some method) = false := by
    intro method hne
    rw [hmethod, beq_eq_false_iff_ne]
    exact fun h => hne (Option.some.inj h)
  have hnoted : (progress.note calm threadId turnId (deltaMessage threadId turnId delta)) =
      { progress with deltas := progress.deltas ++ delta } := by
    rw [TurnProgress.note, noteText_eq, noteImage_eq, hdelta, completesAgentMessage,
      completedGeneratedImagePath, hother "item/completed" (by decide)]
    rfl
  rw [waitOver, hrequest, if_neg Bool.false_ne_true, noteMessage_eq, terminalCodexError,
    hother "error" (by decide), completesTurn, hother "turn/completed" (by decide), hnoted]
  rfl

/-- Only the empty list is empty without its repetitions. -/
theorem eraseDupsBy_eq_nil {α : Type} {same : α → α → Bool} {elements : List α}
    (h : elements.eraseDupsBy same = []) : elements = [] := by
  cases elements using List.reverseRecOn with
  | nil => rfl
  | append_singleton elements a =>
    rw [eraseDupsBy_append_singleton] at h
    split_ifs at h with hany
    · rw [h] at hany
      cases hany
    · exact absurd h (List.append_ne_nil_of_right_ne_nil _ (List.cons_ne_nil _ _))

/-- Where the response may as well come first, nothing of the turn comes in before it. -/
theorem quiet_of_sameResult {threadId turnId : String} {early : Early}
    {response : TurnStarted turnId}
    (h : ∀ traffic, SameResult
      (turnOver calm threadId noTools
        (early.entries ++ .received (.message response.message) :: traffic))
      (turnOver calm threadId noTools
        (.received (.message response.message) :: (early.entries ++ traffic)))) :
    Quiet threadId turnId early.entries := by
  obtain ⟨start, hstart⟩ : ∃ start : Instant Host, toolEvents start.state = [] :=
    ⟨{ moment := 0, state := { actions := [], cancelled := false, events := [] } }, rfl⟩
  -- The traffic passes over what is early, and only then the turn is read.
  obtain ⟨passed, hpassed, hevents⟩ := passOver_calm early.waitsOn start
  have hleft : ∀ traffic, turnOver calm threadId noTools
      (early.entries ++ .received (.message response.message) :: traffic) alone start =
        waitOver calm threadId turnId noTools traffic .initial alone passed := by
    intro traffic
    rw [turnOver_append calm threadId noTools early.waitsOn, bind_done hpassed, turnOver_started]
  have hundisturbed : ∀ entry ∈ early.entries, disturbs threadId turnId entry = false := by
    by_contra hdisturbed
    push Not at hdisturbed
    obtain ⟨entry, hmem, hentry⟩ := hdisturbed
    have hfound : (early.entries.find? (disturbs threadId turnId)).isSome = true :=
      List.find?_isSome.mpr ⟨entry, hmem, by simpa using hentry⟩
    obtain ⟨first, hfirst⟩ := Option.isSome_iff_exists.mp hfound
    obtain ⟨hdisturbs, front, back, hentries, hfront⟩ := List.find?_eq_some_iff_append.mp hfirst
    have hwaits : ∀ entry ∈ front, entry.waitsOn = true := fun entry hentry =>
      early.waitsOn entry (by rw [hentries]; exact List.mem_append_left _ hentry)
    obtain ⟨before, hbefore, hbeforeEvents⟩ := passOver_calm hwaits start
    obtain ⟨houtcome, htools⟩ := h [] alone start
    rw [hleft, turnOver_started, List.append_nil, hentries, waitOver_append calm threadId noTools
      hwaits (fun entry hentry => by simpa using hfront entry hentry),
        bind_done hbefore] at houtcome htools
    rcases waitOver_disturbed hdisturbs back _ before with hne | hne
    · exact hne houtcome.symm
    · exact hne (htools.symm.trans (hevents.trans hstart))
  have hright : ∀ traffic, turnOver calm threadId noTools
      (.received (.message response.message) :: (early.entries ++ traffic)) alone start =
        waitOver calm threadId turnId noTools traffic
          { deltas := agentDeltas threadId turnId (notifications early.entries)
            completedText := lastAgentText threadId turnId (notifications early.entries)
            generatedImagePaths := imagePaths calm threadId turnId (notifications early.entries) }
          alone passed := by
    intro traffic
    rw [turnOver_started, waitOver_append calm threadId noTools early.waitsOn hundisturbed,
      bind_done hpassed, foldl_note]
  have hsame : ∀ traffic, (waitOver calm threadId turnId noTools traffic .initial alone passed).1 =
      (waitOver calm threadId turnId noTools traffic
        { deltas := agentDeltas threadId turnId (notifications early.entries)
          completedText := lastAgentText threadId turnId (notifications early.entries)
          generatedImagePaths := imagePaths calm threadId turnId (notifications early.entries) }
        alone passed).1 := fun traffic => by
    rw [← hleft, ← hright]
    exact (h traffic alone start).1
  generalize hdeltas : agentDeltas threadId turnId (notifications early.entries) = deltas at hsame
  generalize htext : lastAgentText threadId turnId (notifications early.entries) = text at hsame
  generalize hpaths : imagePaths calm threadId turnId (notifications early.entries) = paths at hsame
  have hcompleted := hsame [.received (.message (completion threadId turnId))]
  rw [waitOver_completion, waitOver_completion] at hcompleted
  have hempty : ((text.getD deltas).isEmpty && paths.isEmpty) = true := by
    by_contra hsays
    cases hcompleted.trans (if_neg hsays)
  rw [Bool.and_eq_true, String.isEmpty_iff, List.isEmpty_iff] at hempty
  obtain ⟨hnothing, rfl⟩ := hempty
  -- An empty text that was completed before the response would hide what comes after it.
  have hnone : text = none := by
    cases htexts : text with
    | none => rfl
    | some said =>
      rw [htexts, Option.getD_some] at hnothing
      have hdelta := hsame [.received (.message (deltaMessage threadId turnId "x")),
        .received (.message (completion threadId turnId))]
      rw [waitOver_delta, waitOver_delta, waitOver_completion, waitOver_completion, htexts,
        hnothing] at hdelta
      cases hdelta
  rw [hnone, Option.getD_none] at hnothing
  exact
    { undisturbed := hundisturbed
      deltas := hdeltas.trans hnothing
      text := htext.trans hnone
      images := eraseDupsBy_eq_nil hpaths }

/-- A completion that comes in before the response is never read. -/
example : (turnOver calm "thread" noTools
    [.received (.message (deltaMessage "thread" "turn" "hello")),
      .received (.message (completion "thread" "turn")),
      .received (.message (.object [("id", .number "4"),
        ("result", .object [("turn", .object [("id", .string "turn")])])]))]
    alone { moment := 0, state := { actions := [], cancelled := false, events := [] } }).1 =
      .error .timedOut := by
  rfl

end Mio.Desktop.CodexAppServer
