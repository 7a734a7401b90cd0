import Mio.Desktop.CodexAppServer

/-!
# The traffic of a Codex turn

What `wait_for_turn` of `apps/desktop/src-tauri/src/codex_app_server.rs` does, as a function of what
comes in. `waitOver` is its loop over a list of what comes in before the deadline, in which the
passing of time is an entry of its own, and every run of `waitForTurn` is the loop over its own
traffic (`waitForTurn_eq`).

The App Server has one connection for all threads, and tells of other turns on it. A notification of
another turn and a response pass the loop without a trace (`waitOver_filter`), so that traffic with
more or fewer of them is answered by the same program. The text and the images of a turn are those
that its own notifications have (`waitOver_done`).
-/

namespace Mio.Desktop.CodexAppServer

open Library Library.Thread CommandExecution CodexTools
open AiDispatch (TextTurnError)

/-! ## The loop over its traffic -/

/-- What the loop meets: a moment passes, the channel has something, or the turn is stopped. -/
inductive Incoming where
  | moment
  | received (look : Received)
  | cancelled

section Code

variable (env : CodexSurroundings) (threadId turnId : String) (contexts : TurnToolContexts)

/-- `wait_for_turn` for what comes in before the deadline. -/
def waitOver : List Incoming → TurnProgress → CodexProg CompletedTurn
  | [], _ => Thread.exit .timedOut
  | .moment :: traffic, progress => do
    Thread.reads fun _ _ => ()
    waitOver traffic progress
  | .cancelled :: _, _ => Thread.exit .cancelled
  | .received .nothing :: traffic, progress => waitOver traffic progress
  | .received .invalid :: _, _ => Thread.exit .invalidResponse
  | .received .finished :: _, _ => Thread.exit .invalidResponse
  | .received .disconnected :: _, _ => Thread.exit .unavailable
  | .received (.message message) :: traffic, progress =>
    if isServerRequest message then do
      respondToTurnServerRequest env message threadId turnId contexts
      waitOver traffic progress
    else
      match noteMessage env message threadId turnId progress with
      | .inl result => Thread.ofExcept result
      | .inr progress => waitOver traffic progress

/-- What comes in during a run of `waitForTurn`. A look at the channel takes two moments: one for
the stop signal, and one for the channel. -/
def incoming (others : ℕ → Host → Host) : ℕ → TurnProgress → Instant Host → List Incoming
  | 0, _, now => .moment :: if now.state.cancelled then [.cancelled] else []
  | polls + 1, progress, now =>
    if now.state.cancelled then [.moment, .cancelled]
    else
      let checked := now.after others now.state
      let looked := checked.after others checked.state
      let look := env.received checked.moment
      .moment :: .moment :: .received look ::
        match look with
        | .nothing => incoming others polls progress looked
        | .invalid | .finished | .disconnected => []
        | .message message =>
          if isServerRequest message then
            match respondToTurnServerRequest env message threadId turnId contexts others looked with
            | (.done _, answered) => incoming others polls progress answered
            | _ => []
          else
            match noteMessage env message threadId turnId progress with
            | .inl _ => []
            | .inr progress => incoming others polls progress looked

/-- The check sees whether the turn was stopped, and the other threads go on after it. -/
theorem checkCancelled_run (others : ℕ → Host → Host) (now : Instant Host) :
    checkCancelled others now =
      (if now.state.cancelled then .error .cancelled else .done (),
        now.after others now.state) := by
  show (require TextTurnError.cancelled (!now.state.cancelled) : CodexProg Unit) others
    (now.after others now.state) = _
  cases now.state.cancelled <;> rfl

/-- What a look gives: a message, nothing for now, or the end. -/
def lookOutcome : Received → Outcome TextTurnError (Option Value)
  | .message message => .done (some message)
  | .invalid => .error .invalidResponse
  | .finished => .error .invalidResponse
  | .disconnected => .error .unavailable
  | .nothing => .done none

/-- A poll checks for a stop, and then looks for what has come. -/
theorem poll_run (others : ℕ → Host → Host) (now checked : Instant Host)
    (hchecked : checked = now.after others now.state) :
    poll env others now =
      if now.state.cancelled then (.error .cancelled, checked)
      else (lookOutcome (env.received checked.moment), checked.after others checked.state) := by
  show checkCancelled.andThen _ others now = _
  unfold andThen
  rw [checkCancelled_run, ← hchecked]
  cases now.state.cancelled with
  | true => rfl
  | false =>
    show (match env.received checked.moment with
      | .message message => (pure (some message) : CodexProg (Option Value))
      | .invalid => Thread.exit .invalidResponse
      | .finished => Thread.exit .invalidResponse
      | .disconnected => Thread.exit .unavailable
      | .nothing => pure none) others (checked.after others checked.state) =
        (lookOutcome (env.received checked.moment), checked.after others checked.state)
    cases env.received checked.moment <;> rfl

/-- A moment without a message only lets the other threads go on. -/
theorem waitOver_moment (others : ℕ → Host → Host) (traffic : List Incoming)
    (progress : TurnProgress) (now : Instant Host) :
    waitOver env threadId turnId contexts (.moment :: traffic) progress others now =
      waitOver env threadId turnId contexts traffic progress others (now.after others now.state) :=
  rfl

/-- A run of `waitForTurn` is the loop over what comes in during the run. -/
theorem waitForTurn_eq (others : ℕ → Host → Host) (polls : ℕ) (progress : TurnProgress)
    (now : Instant Host) :
    waitForTurn env threadId turnId contexts polls progress others now =
      waitOver env threadId turnId contexts
        (incoming env threadId turnId contexts others polls progress now) progress others now := by
  -- By induction on the polls: a poll either ends the wait, or it goes on with what comes later.
  induction polls generalizing progress now with
  | zero =>
    have hchecked := checkCancelled_run others now
    show (checkCancelled.andThen fun _ => Thread.exit .timedOut) others now = _
    unfold andThen incoming
    rw [hchecked, waitOver_moment]
    cases now.state.cancelled <;> rfl
  | succ polls ih =>
    -- The moment after the check is named, as what was received depends on it.
    obtain ⟨checked, hchecked⟩ : ∃ checked, checked = now.after others now.state := ⟨_, rfl⟩
    have hpoll := poll_run env others now checked hchecked
    show (poll env).andThen _ others now = _
    unfold andThen incoming
    rw [hpoll]
    cases now.state.cancelled with
    | true => rw [hchecked]; rfl
    | false =>
      simp only [Bool.false_eq_true, if_false, waitOver_moment, ← hchecked]
      generalize checked.after others checked.state = looked
      cases env.received checked.moment with
      | message message =>
        simp only [lookOutcome, waitOver]
        by_cases hrequest : isServerRequest message = true
        · simp only [if_pos hrequest]
          -- A request of the server is answered first, and only then the wait goes on.
          show (respondToTurnServerRequest env message threadId turnId contexts).andThen
            _ others _ =
            (respondToTurnServerRequest env message threadId turnId contexts).andThen _ others _
          unfold andThen
          rcases respondToTurnServerRequest env message threadId turnId contexts others _ with
            ⟨answer | error | _, answered⟩
          · exact ih progress answered
          · rfl
          · rfl
        · simp only [if_neg hrequest]
          cases noteMessage env message threadId turnId progress with
          | inl result => rfl
          | inr progress => exact ih progress _
      | invalid => rfl
      | finished => rfl
      | disconnected => rfl
      | nothing => exact ih progress looked

/-! ## Foreign traffic -/

/-- What is not a notification of another turn, or a response. A response has no method. -/
def concerns : Incoming → Bool
  | .received (.message message) =>
    isServerRequest message ||
      (message.get "method").isSome && matchesTurn message threadId turnId
  | _ => true

/-- A message that is no request, and has no method or belongs to another turn, changes nothing. -/
theorem noteMessage_foreign {message : Value}
    (hforeign : ((message.get "method").isSome && matchesTurn message threadId turnId) = false)
    (progress : TurnProgress) : noteMessage env message threadId turnId progress =
      .inr progress := by
  -- Every branch asks for a method and for the turn.
  have hbranch : ∀ method : String,
      (message.str "method" == some method && matchesTurn message threadId turnId) = false := by
    intro method
    rcases Bool.and_eq_false_iff.mp hforeign with hmethod | hturn
    · have hstr : message.str "method" = none := by
        rw [Option.isSome_eq_false_iff, Option.isNone_iff_eq_none] at hmethod
        rw [Value.str, hmethod]
        rfl
      rw [hstr]
      rfl
    · rw [hturn, Bool.and_false]
  have hpath : completedGeneratedImagePath message threadId turnId = none := by
    unfold completedGeneratedImagePath
    rw [hbranch, Bool.false_and, Bool.false_and, if_neg Bool.false_ne_true]
  unfold noteMessage terminalCodexError TurnProgress.noteText TurnProgress.noteImage
  simp only [hbranch, hpath, Bool.false_and, Bool.false_eq_true, if_false]

/-- Foreign traffic passes the loop without a trace. -/
theorem waitOver_filter (traffic : List Incoming) (progress : TurnProgress) :
    waitOver env threadId turnId contexts (traffic.filter (concerns threadId turnId)) progress =
      waitOver env threadId turnId contexts traffic progress := by
  -- By induction on the traffic, for any progress.
  induction traffic generalizing progress with
  | nil => rfl
  | cons entry traffic ih =>
    cases entry with
    | moment =>
      rw [List.filter_cons_of_pos rfl, waitOver, waitOver, ih]
    | cancelled => rfl
    | received look =>
      cases look with
      | invalid => rfl
      | finished => rfl
      | disconnected => rfl
      | nothing =>
        rw [List.filter_cons_of_pos rfl, waitOver, waitOver, ih]
      | message message =>
        -- A request is answered whatever turn it is of; a notification of another turn is not even
        -- noted.
        cases hrequest : isServerRequest message with
        | true =>
          have hconcerns : concerns threadId turnId (.received (.message message)) = true := by
            rw [concerns, hrequest, Bool.true_or]
          rw [List.filter_cons_of_pos hconcerns, waitOver, waitOver, if_pos hrequest,
            if_pos hrequest, ih]
        | false =>
          cases hturn : (message.get "method").isSome && matchesTurn message threadId turnId with
          | true =>
            have hconcerns : concerns threadId turnId (.received (.message message)) = true := by
              rw [concerns, hturn, Bool.or_true]
            rw [List.filter_cons_of_pos hconcerns, waitOver, waitOver]
            simp only [ih]
          | false =>
            have hconcerns : ¬concerns threadId turnId (.received (.message message)) = true := by
              rw [concerns, hrequest, hturn]
              exact Bool.false_ne_true
            rw [List.filter_cons_of_neg hconcerns, ih, waitOver, hrequest,
              if_neg Bool.false_ne_true, noteMessage_foreign env threadId turnId hturn]

/-! ## The reply of a turn -/

/-- The messages that are no requests of the server. -/
def notifications : List Incoming → List Value
  | [] => []
  | .received (.message message) :: traffic =>
    if isServerRequest message then notifications traffic else message :: notifications traffic
  | _ :: traffic => notifications traffic

/-- Whether a message says that the turn is over. -/
def completesTurn (message : Value) : Bool :=
  message.str "method" == some "turn/completed" && matchesTurn message threadId turnId

/-- A completed message of the agent, with or without a text. -/
def completesAgentMessage (message : Value) : Bool :=
  message.str "method" == some "item/completed" && matchesTurn message threadId turnId &&
    message.strAt ["params", "item", "type"] == some "agentMessage"

/-- The part of the answer that a message brings. -/
def agentDelta (message : Value) : Option String :=
  if message.str "method" == some "item/agentMessage/delta" &&
      matchesTurn message threadId turnId then message.strAt ["params", "delta"]
  else none

/-- The text of the completed message of the agent that came last. -/
def lastAgentText (messages : List Value) : Option String :=
  (messages.filter (completesAgentMessage threadId turnId)).getLast?.bind fun message =>
    message.strAt ["params", "item", "text"]

/-- The parts of the answer, put together. -/
def agentDeltas (messages : List Value) : String :=
  String.join (messages.filterMap (agentDelta threadId turnId))

/-- The paths of the images, each where it came first. -/
def imagePaths (messages : List Value) : List String :=
  (messages.filterMap fun message =>
    completedGeneratedImagePath message threadId turnId).eraseDupsBy
      fun path earlier => env.samePath earlier path

/-- What a message adds to the turn. -/
def TurnProgress.note (progress : TurnProgress) (message : Value) : TurnProgress :=
  (progress.noteText message threadId turnId).noteImage env.samePath message threadId turnId

/-- What a message adds to the texts of the turn. -/
theorem noteText_eq (progress : TurnProgress) (message : Value) :
    progress.noteText message threadId turnId =
      { deltas := progress.deltas ++ (agentDelta threadId turnId message).getD ""
        completedText := if completesAgentMessage threadId turnId message
          then message.strAt ["params", "item", "text"] else progress.completedText
        generatedImagePaths := progress.generatedImagePaths } := by
  unfold TurnProgress.noteText
  extract_lets noted
  have hnoted : noted =
      { progress with
        deltas := progress.deltas ++ (agentDelta threadId turnId message).getD "" } := by
    unfold noted agentDelta
    split_ifs
    · cases message.strAt ["params", "delta"] with
      | some delta => rfl
      | none => rw [Option.getD_none, String.append_empty]
    · rw [Option.getD_none, String.append_empty]
  rw [hnoted]
  unfold completesAgentMessage
  split_ifs <;> rfl

/-- What a message adds to the images of the turn. -/
theorem noteImage_eq (progress : TurnProgress) (message : Value) :
    progress.noteImage env.samePath message threadId turnId =
      { progress with
        generatedImagePaths := match completedGeneratedImagePath message threadId turnId with
          | some path =>
            if progress.generatedImagePaths.any (env.samePath · path) then
              progress.generatedImagePaths
            else progress.generatedImagePaths ++ [path]
          | none => progress.generatedImagePaths } := by
  unfold TurnProgress.noteImage
  cases completedGeneratedImagePath message threadId turnId with
  | none => rfl
  | some path =>
    simp only
    split_ifs <;> rfl

/-- One more element at the end. -/
theorem eraseDupsBy_append_singleton {α : Type} (same : α → α → Bool) (elements : List α) (a : α) :
    (elements ++ [a]).eraseDupsBy same =
      if (elements.eraseDupsBy same).any (same a) then elements.eraseDupsBy same
      else elements.eraseDupsBy same ++ [a] := by
  have hloop : ∀ seen : List α, List.eraseDupsBy.loop same (elements ++ [a]) seen =
      if (List.eraseDupsBy.loop same elements seen).any (same a) then
        List.eraseDupsBy.loop same elements seen
      else List.eraseDupsBy.loop same elements seen ++ [a] := by
    induction elements with
    | nil =>
      intro seen
      rw [List.nil_append, List.eraseDupsBy.loop, List.eraseDupsBy.loop, List.any_reverse]
      cases seen.any (same a) with
      | true => rfl
      | false =>
        show (a :: seen).reverse = seen.reverse ++ [a]
        rw [List.reverse_cons]
    | cons b elements ih =>
      intro seen
      rw [List.cons_append, List.eraseDupsBy.loop, List.eraseDupsBy.loop]
      cases seen.any (same b) with
      | true => exact ih seen
      | false => exact ih (b :: seen)
  exact hloop []

/-- The progress after some messages, from what is in them. -/
theorem foldl_note (messages : List Value) :
    messages.foldl (TurnProgress.note env threadId turnId) .initial =
      { deltas := agentDeltas threadId turnId messages
        completedText := lastAgentText threadId turnId messages
        generatedImagePaths := imagePaths env threadId turnId messages } := by
  -- By induction on the messages from the end, as the last one decides the text.
  induction messages using List.reverseRecOn with
  | nil => rfl
  | append_singleton messages message ih =>
    rw [List.foldl_append, List.foldl_cons, List.foldl_nil, ih, TurnProgress.note, noteText_eq,
      noteImage_eq]
    -- What one message adds to each of the three.
    have hdeltas : agentDeltas threadId turnId (messages ++ [message]) =
        agentDeltas threadId turnId messages ++ (agentDelta threadId turnId message).getD "" := by
      unfold agentDeltas
      rw [List.filterMap_append, List.filterMap_cons]
      cases agentDelta threadId turnId message with
      | some delta => exact List.foldl_append
      | none => rw [List.filterMap_nil, List.append_nil, Option.getD_none, String.append_empty]
    have htext : lastAgentText threadId turnId (messages ++ [message]) =
        if completesAgentMessage threadId turnId message then
          message.strAt ["params", "item", "text"]
        else lastAgentText threadId turnId messages := by
      unfold lastAgentText
      rw [List.filter_append, List.filter_cons]
      split_ifs
      · rw [List.filter_nil, List.getLast?_concat, Option.bind_some]
      · rw [List.filter_nil, List.append_nil]
    have himages : imagePaths env threadId turnId (messages ++ [message]) =
        match completedGeneratedImagePath message threadId turnId with
        | some path =>
          if (imagePaths env threadId turnId messages).any (env.samePath · path) then
            imagePaths env threadId turnId messages
          else imagePaths env threadId turnId messages ++ [path]
        | none => imagePaths env threadId turnId messages := by
      unfold imagePaths
      rw [List.filterMap_append, List.filterMap_cons]
      cases completedGeneratedImagePath message threadId turnId with
      | some path => exact eraseDupsBy_append_singleton _ _ path
      | none => rw [List.filterMap_nil, List.append_nil]
    rw [hdeltas, htext, himages]

/-- What a message does: it fails the turn, ends it or adds to it. -/
theorem noteMessage_eq (message : Value) (progress : TurnProgress) :
    noteMessage env message threadId turnId progress =
      if terminalCodexError message threadId turnId then
        .inl (.error (codexReportedFailure env message))
      else if completesTurn threadId turnId message then
        if message.strAt ["params", "turn", "status"] != some "completed" then
          .inl (.error (codexReportedFailure env message))
        else if (progress.note env threadId turnId message).text.isEmpty &&
            (progress.note env threadId turnId message).generatedImagePaths.isEmpty then
          .inl (.error .invalidResponse)
        else
          .inl (.ok
            { text := (progress.note env threadId turnId message).text
              generatedImagePaths :=
                (progress.note env threadId turnId message).generatedImagePaths })
      else .inr (progress.note env threadId turnId message) := rfl

/-- A message with which the turn goes on adds to the progress, and does not complete the turn. -/
theorem noteMessage_inr {message : Value} {progress noted : TurnProgress}
    (h : noteMessage env message threadId turnId progress = .inr noted) :
    noted = progress.note env threadId turnId message ∧
      completesTurn threadId turnId message = false := by
  rw [noteMessage_eq] at h
  split_ifs at h with _ hcompletes
  cases h
  exact ⟨rfl, Bool.eq_false_iff.mpr hcompletes⟩

/-- The message that completes the turn adds nothing to the progress. -/
theorem note_of_completes {message : Value} (h : completesTurn threadId turnId message = true)
    (progress : TurnProgress) : progress.note env threadId turnId message = progress := by
  have hmethod : message.str "method" = some "turn/completed" := by
    rw [completesTurn, Bool.and_eq_true, beq_iff_eq] at h
    exact h.1
  have hitem : (message.str "method" == some "item/completed") = false := by
    rw [hmethod]
    decide
  have hdelta : (message.str "method" == some "item/agentMessage/delta") = false := by
    rw [hmethod]
    decide
  unfold TurnProgress.note TurnProgress.noteText TurnProgress.noteImage completedGeneratedImagePath
  simp only [hitem, hdelta, Bool.false_and, Bool.false_eq_true, if_false]

/-- A message that ends the turn well completes it, and the reply is the progress. -/
theorem noteMessage_ok {message : Value} {progress : TurnProgress} {turn : CompletedTurn}
    (h : noteMessage env message threadId turnId progress = .inl (.ok turn)) :
    completesTurn threadId turnId message = true ∧
      turn = { text := progress.text, generatedImagePaths := progress.generatedImagePaths } := by
  rw [noteMessage_eq] at h
  split_ifs at h with hterminal hcompletes hstatus hempty
  · cases h
  · cases h
  · cases h
  · rw [note_of_completes env threadId turnId hcompletes progress] at h
    cases h
    exact ⟨hcompletes, rfl⟩

/-- How a turn ends well: at the first notification that completes it, with the progress up to it.
-/
theorem waitOver_done {traffic : List Incoming} {progress : TurnProgress}
    {others : ℕ → Host → Host} {now after : Instant Host} {turn : CompletedTurn}
    (h : waitOver env threadId turnId contexts traffic progress others now = (.done turn, after)) :
    ∃ seen completed rest, traffic = seen ++ .received (.message completed) :: rest ∧
      completesTurn threadId turnId completed = true ∧
      (∀ message ∈ notifications seen, completesTurn threadId turnId message = false) ∧
      turn =
        { text := ((notifications seen).foldl (TurnProgress.note env threadId turnId) progress).text
          generatedImagePaths := ((notifications seen).foldl (TurnProgress.note env threadId turnId)
            progress).generatedImagePaths } := by
  induction traffic generalizing progress now with
  | nil => cases h
  | cons entry traffic ih =>
    cases entry with
    | moment =>
      rw [waitOver_moment] at h
      obtain ⟨seen, completed, rest, rfl, hrest⟩ := ih h
      exact ⟨.moment :: seen, completed, rest, rfl, hrest⟩
    | cancelled => cases h
    | received look =>
      cases look with
      | invalid => cases h
      | finished => cases h
      | disconnected => cases h
      | nothing =>
        rw [waitOver] at h
        obtain ⟨seen, completed, rest, rfl, hrest⟩ := ih h
        exact ⟨.received .nothing :: seen, completed, rest, rfl, hrest⟩
      | message message =>
        rw [waitOver] at h
        cases hrequest : isServerRequest message with
        | true =>
          rw [if_pos hrequest] at h
          -- The request is answered, and what the loop does after that is the rest of the run.
          obtain ⟨answered, hanswered⟩ : ∃ answered,
              waitOver env threadId turnId contexts traffic progress others answered =
                (.done turn, after) := by
            change
              (respondToTurnServerRequest env message threadId turnId contexts).andThen _ others
              now = _ at h
            unfold andThen at h
            rcases hrun : respondToTurnServerRequest env message threadId turnId contexts others now
              with ⟨answer | error | _, answered⟩
            · rw [hrun] at h
              exact ⟨answered, h⟩
            · rw [hrun] at h
              cases h
            · rw [hrun] at h
              cases h
          obtain ⟨seen, completed, rest, rfl, hrest⟩ := ih hanswered
          have hnotifications : notifications (.received (.message message) :: seen) =
              notifications seen := if_pos hrequest
          refine ⟨.received (.message message) :: seen, completed, rest, rfl, ?_⟩
          rwa [hnotifications]
        | false =>
          rw [hrequest, if_neg Bool.false_ne_true] at h
          cases hnoted : noteMessage env message threadId turnId progress with
          | inl result =>
            rw [hnoted] at h
            cases result with
            | error error => cases h
            | ok reply =>
              cases h
              obtain ⟨hcompletes, hturn⟩ := noteMessage_ok env threadId turnId hnoted
              exact ⟨[], message, traffic, rfl, hcompletes, nofun, hturn⟩
          | inr noted =>
            rw [hnoted] at h
            obtain ⟨rfl, hgoes⟩ := noteMessage_inr env threadId turnId hnoted
            obtain ⟨seen, completed, rest, rfl, hcompletes, hseen, hturn⟩ := ih h
            have hnotifications : notifications (.received (.message message) :: seen) =
                message :: notifications seen := by
              rw [notifications, hrequest, if_neg Bool.false_ne_true]
            refine ⟨.received (.message message) :: seen, completed, rest, rfl, hcompletes, ?_, ?_⟩
            · rw [hnotifications, List.forall_mem_cons]
              exact ⟨hgoes, hseen⟩
            · rw [hnotifications, List.foldl_cons]
              exact hturn

/-- Traffic with more or fewer responses and notifications of other turns is answered by the same
program, every run of `wait_for_turn` is the loop over its own traffic, and a reply has the text and
the images of the turn's own notifications. -/
theorem foreign_traffic :
    (∀ (before after : List Incoming) (progress : TurnProgress),
      before.filter (concerns threadId turnId) = after.filter (concerns threadId turnId) →
      waitOver env threadId turnId contexts before progress =
        waitOver env threadId turnId contexts after progress) ∧
    (∀ (others : ℕ → Host → Host) (polls : ℕ) (progress : TurnProgress) (now : Instant Host),
      waitForTurn env threadId turnId contexts polls progress others now =
        waitOver env threadId turnId contexts
          (incoming env threadId turnId contexts others polls progress now) progress others now) ∧
    ∀ (others : ℕ → Host → Host) (traffic : List Incoming) (now after : Instant Host)
      (turn : CompletedTurn),
      waitOver env threadId turnId contexts traffic .initial others now = (.done turn, after) →
      ∃ seen completed rest, traffic = seen ++ .received (.message completed) :: rest ∧
        completesTurn threadId turnId completed = true ∧
        (∀ message ∈ notifications seen, completesTurn threadId turnId message = false) ∧
        turn.text = (lastAgentText threadId turnId (notifications seen)).getD
          (agentDeltas threadId turnId (notifications seen)) ∧
        turn.generatedImagePaths = imagePaths env threadId turnId (notifications seen) := by
  refine ⟨fun before after progress hsame => ?_, waitForTurn_eq env threadId turnId contexts, ?_⟩
  · calc waitOver env threadId turnId contexts before progress
        = waitOver env threadId turnId contexts
          (before.filter (concerns threadId turnId)) progress :=
          (waitOver_filter env threadId turnId contexts before progress).symm
      _ = waitOver env threadId turnId contexts
        (after.filter (concerns threadId turnId)) progress := by
          rw [hsame]
      _ = waitOver env threadId turnId contexts after progress :=
          waitOver_filter env threadId turnId contexts after progress
  · intro others traffic now after turn hdone
    obtain ⟨seen, completed, rest, htraffic, hcompletes, hseen, hturn⟩ :=
      waitOver_done env threadId turnId contexts hdone
    rw [foldl_note] at hturn
    subst hturn
    exact ⟨seen, completed, rest, htraffic, hcompletes, hseen, rfl, rfl⟩

end Code

end Mio.Desktop.CodexAppServer
